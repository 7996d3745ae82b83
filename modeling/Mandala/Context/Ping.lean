import Mandala.Context.Connection
import Mandala.Core.Transition
import Mathlib.Logic.Function.Basic

/-!
# Pings of one connection

Any number of `ping` calls share the connection's one ping waiter.  A call that
registers its own drops the sender that was there, and a dropped sender ends
the wait of its call just as a pong does: both are an `Ok` of the timeout.
-/

namespace Mandala.Context.Ping

open Function Mandala.Transition
open Endpoint (Frame)

/-- What the receiving half of a waiter finds. -/
inductive Channel where
  | empty
  | ponged
  | dropped
  deriving DecidableEq, Repr

/-- Where a `ping` call stands. -/
inductive Phase where
  | idle
  /-- The waiter is registered, the frame not sent yet. -/
  | registered (channel : Channel)
  | awaiting (channel : Channel)
  | returned (answer : Bool)
  /-- Its caller has dropped it. -/
  | cancelled
  deriving DecidableEq, Repr

def Phase.channel : Phase → Option Channel
  | .registered channel | .awaiting channel => some channel
  | _ => none

/-- The sending half is used or dropped. -/
def Phase.settle (outcome : Channel) : Phase → Phase
  | .registered .empty => .registered outcome
  | .awaiting .empty => .awaiting outcome
  | phase => phase

inductive Event where
  | registered (call : ℕ)
  | pong
  | returned (call : ℕ) (answer : Bool)
  deriving DecidableEq, Repr

structure State where
  /-- `Waiters::ping`: the call whose sender is there. -/
  waiter : Option ℕ
  /-- `Waiters::closed`. -/
  closed : Bool
  phases : ℕ → Phase
  history : List Event

def State.connected : State :=
  { waiter := none, closed := false, phases := fun _ => .idle, history := [] }

inductive Move where
  /-- A call up to the end of its critical section. -/
  | register (call : ℕ)
  | send (call : ℕ) (ok : Bool)
  /-- The receiving half is ready. -/
  | ready (call : ℕ)
  | elapse (call : ℕ)
  | cancel (call : ℕ)
  | receive (frame : Frame)
  /-- The reader comes to the end of the stream. -/
  | hangUp

namespace State

def enter (state : State) (call : ℕ) (phase : Phase) : State :=
  { state with phases := update state.phases call phase }

def answer (state : State) (call : ℕ) (answer : Bool) : State :=
  { state.enter call (.returned answer) with
    history := state.history ++ [.returned call answer] }

/-- What becomes of the waiter's call when the sender is used or dropped. -/
def settleWaiter (state : State) (outcome : Channel) : State :=
  match state.waiter with
  | none => state
  | some call => state.enter call ((state.phases call).settle outcome)

def act (state : State) : Move → Option State
  | .register call =>
      if state.phases call ≠ .idle then none
      else if state.closed then some (state.answer call false)
      else
        some { (state.settleWaiter .dropped).enter call (.registered .empty) with
          waiter := some call
          history := state.history ++ [.registered call] }
  | .send call ok =>
      match state.phases call with
      | .registered channel =>
          if ok then some (state.enter call (.awaiting channel))
          else some (state.answer call false)
      | _ => none
  | .ready call =>
      -- `is_ok` does not look at what the receiver has found
      match state.phases call with
      | .awaiting .empty => none
      | .awaiting _ => some (state.answer call true)
      | _ => none
  | .elapse call =>
      if state.phases call = .awaiting .empty then some (state.answer call false)
      else none
  | .cancel call =>
      if (state.phases call).channel.isSome then some (state.enter call .cancelled)
      else none
  | .receive frame =>
      if state.closed then none
      else
        match frame with
        | .pong =>
            some { state.settleWaiter .ponged with
              waiter := none
              history := state.history ++ [.pong] }
        | _ => some state
  | .hangUp => if state.closed then none else some { state with closed := true }

end State

def Step (before : State) (move : Move) (after : State) : Prop :=
  before.act move = some after

/-! ## What a ping promises -/

/-- A pong arrived after the call had registered its waiter. -/
def PongedSince (call : ℕ) (history : List Event) : Prop :=
  ∃ before after, history = before ++ .registered call :: after ∧ .pong ∈ after

/-- A call returns `true` only after a pong. -/
def Truthful (before : List Event) (event : Event) : Prop :=
  ∀ call, event = .returned call true → PongedSince call before

/-- No call takes the place of a waiter whose call still waits. -/
def NoneReplaced (state : State) : Move → Prop
  | .register _ => ∀ other ∈ state.waiter, (state.phases other).channel = none
  | _ => True

instance (state : State) (move : Move) : Decidable (NoneReplaced state move) :=
  match move with
  | .register _ => inferInstanceAs
      (Decidable (∀ other ∈ state.waiter, (state.phases other).channel = none))
  | .send .. | .ready _ | .elapse _ | .cancel _ | .receive _ | .hangUp =>
      .isTrue trivial

theorem PongedSince.snoc {call : ℕ} {history : List Event}
    (hsince : PongedSince call history) (event : Event) :
    PongedSince call (history ++ [event]) := by
  obtain ⟨before, after, rfl, hpong⟩ := hsince
  exact ⟨before, after ++ [event], by simp, List.mem_append_left _ hpong⟩

theorem pongedSince_snoc_pong {call : ℕ} {history : List Event}
    (hregistered : .registered call ∈ history) :
    PongedSince call (history ++ [.pong]) := by
  obtain ⟨before, after, rfl⟩ := List.append_of_mem hregistered
  exact ⟨before, after ++ [.pong], by simp, by simp⟩

@[simp]
theorem State.enter_phases_self (state : State) (call : ℕ) (phase : Phase) :
    (state.enter call phase).phases call = phase :=
  update_self ..

theorem State.enter_phases_of_ne (state : State) {call other : ℕ} (phase : Phase)
    (hne : other ≠ call) :
    (state.enter call phase).phases other = state.phases other :=
  update_of_ne hne ..

theorem channel_settle (phase : Phase) (outcome : Channel) :
    (phase.settle outcome).channel =
      if phase.channel = some .empty then some outcome else phase.channel := by
  rcases phase with _ | channel | channel | _ | _
  · rfl
  · cases channel <;> rfl
  · cases channel <;> rfl
  · rfl
  · rfl

/-- The channel of a call after another call's sender, or its own, is settled. -/
theorem channel_settleWaiter (state : State) (outcome : Channel) (call : ℕ) :
    ((state.settleWaiter outcome).phases call).channel =
      if state.waiter = some call ∧ (state.phases call).channel = some .empty then
        some outcome
      else (state.phases call).channel := by
  rw [State.settleWaiter]
  cases hwaiter : state.waiter with
  | none => simp
  | some waiting =>
      by_cases hsame : waiting = call
      · subst hsame
        simp [channel_settle]
      · simp [state.enter_phases_of_ne _ (Ne.symm hsame), hsame]

/-- What holds while no waiter is replaced. -/
structure Sound (state : State) : Prop where
  registered : ∀ call channel, (state.phases call).channel = some channel →
    .registered call ∈ state.history
  ponged : ∀ call, (state.phases call).channel = some .ponged →
    PongedSince call state.history
  undropped : ∀ call, (state.phases call).channel ≠ some .dropped
  truthful : EachMeets Truthful state.history

variable {state : State} {call : ℕ}

theorem sound_connected : Sound .connected where
  registered _ _ hchannel := by cases hchannel
  ponged _ hchannel := by cases hchannel
  undropped _ hchannel := by cases hchannel
  truthful := .nil

/-- A call goes on with the channel it had, or without one. -/
theorem Sound.enter (hsound : Sound state) {phase : Phase}
    (hphase : ∀ channel, phase.channel = some channel →
      (state.phases call).channel = some channel) :
    Sound (state.enter call phase) := by
  have hchannel : ∀ other channel,
      ((state.enter call phase).phases other).channel = some channel →
        (state.phases other).channel = some channel := by
    intro other channel hother
    by_cases hsame : other = call
    · subst hsame
      exact hphase channel (by simpa using hother)
    · rwa [state.enter_phases_of_ne _ hsame] at hother
  constructor
  · exact fun other channel hother => hsound.registered other channel (hchannel _ _ hother)
  · exact fun other hother => hsound.ponged other (hchannel _ _ hother)
  · exact fun other hother => hsound.undropped other (hchannel _ _ hother)
  · exact hsound.truthful

/-- An event that no call's registration or channel depends on. -/
theorem Sound.record (hsound : Sound state) {event : Event}
    (htruthful : Truthful state.history event) :
    Sound { state with history := state.history ++ [event] } where
  registered other channel hother :=
    List.mem_append_left _ (hsound.registered other channel hother)
  ponged other hother := (hsound.ponged other hother).snoc event
  undropped := hsound.undropped
  truthful := hsound.truthful.snoc htruthful

theorem Sound.answer (hsound : Sound state) {answer : Bool}
    (htrue : answer = true → PongedSince call state.history) :
    Sound (state.answer call answer) := by
  have hentered : Sound (state.enter call (.returned answer)) :=
    hsound.enter fun _ hchannel => by cases hchannel
  apply hentered.record
  intro other hevent
  injection hevent with hcall hanswer
  exact hcall ▸ htrue hanswer

/-- The sender that is dropped is nobody's any more, and the call's own waiter
has just been put there. -/
theorem Sound.register (hsound : Sound state)
    (hnone : NoneReplaced state (.register call)) :
    Sound { (state.settleWaiter .dropped).enter call (.registered .empty) with
      waiter := some call
      history := state.history ++ [.registered call] } := by
  have hchannel : ∀ other channel,
      (((state.settleWaiter .dropped).enter call (.registered .empty)).phases
          other).channel = some channel →
        other = call ∧ channel = .empty ∨
          (state.phases other).channel = some channel := by
    intro other channel hother
    by_cases hsame : other = call
    · subst hsame
      rw [State.enter_phases_self] at hother
      injection hother with hother
      exact .inl ⟨rfl, hother.symm⟩
    · rw [State.enter_phases_of_ne _ _ hsame, channel_settleWaiter,
        if_neg fun hboth => ?_] at hother
      · exact .inr hother
      · rw [hnone other hboth.1] at hboth
        exact absurd hboth.2 (Option.some_ne_none _).symm
  constructor
  · intro other channel hother
    rcases hchannel other channel hother with ⟨rfl, -⟩ | hbefore
    · exact List.mem_append_right _ List.mem_cons_self
    · exact List.mem_append_left _ (hsound.registered other channel hbefore)
  · intro other hother
    rcases hchannel other _ hother with ⟨-, hempty⟩ | hbefore
    · cases hempty
    · exact (hsound.ponged other hbefore).snoc _
  · intro other hother
    rcases hchannel other _ hother with ⟨-, hempty⟩ | hbefore
    · cases hempty
    · exact hsound.undropped other hbefore
  · exact hsound.truthful.snoc fun _ hevent => by cases hevent

/-- A pong is for the call whose sender is there. -/
theorem Sound.pong (hsound : Sound state) :
    Sound { state.settleWaiter .ponged with
      waiter := none
      history := state.history ++ [.pong] } := by
  have hchannel : ∀ other channel,
      ((state.settleWaiter .ponged).phases other).channel = some channel →
        (channel = .ponged ∧ (state.phases other).channel = some .empty) ∨
          (state.phases other).channel = some channel := by
    intro other channel hother
    rw [channel_settleWaiter] at hother
    by_cases hboth : state.waiter = some other ∧
        (state.phases other).channel = some .empty
    · rw [if_pos hboth] at hother
      exact .inl ⟨(Option.some.inj hother).symm, hboth.2⟩
    · rw [if_neg hboth] at hother
      exact .inr hother
  constructor
  · intro other channel hother
    apply List.mem_append_left
    rcases hchannel other channel hother with ⟨-, hempty⟩ | hbefore
    · exact hsound.registered other _ hempty
    · exact hsound.registered other _ hbefore
  · intro other hother
    rcases hchannel other _ hother with ⟨-, hempty⟩ | hbefore
    · exact pongedSince_snoc_pong (hsound.registered other _ hempty)
    · exact (hsound.ponged other hbefore).snoc _
  · intro other hother
    rcases hchannel other _ hother with ⟨hponged, -⟩ | hbefore
    · cases hponged
    · exact hsound.undropped other hbefore
  · exact hsound.truthful.snoc fun _ hevent => by cases hevent

theorem Sound.step {after : State} {move : Move} (hsound : Sound state)
    (hnone : NoneReplaced state move) (hstep : Step state move after) :
    Sound after := by
  have hfalse (answering : ℕ) : Sound (state.answer answering false) :=
    hsound.answer fun h => by cases h
  cases move with
  | register call =>
      simp only [Step, State.act] at hstep
      split_ifs at hstep
      · exact Option.some.inj hstep ▸ hfalse call
      · exact Option.some.inj hstep ▸ hsound.register hnone
  | send call ok =>
      simp only [Step, State.act] at hstep
      cases hphase : state.phases call with
      | registered channel =>
          simp only [hphase] at hstep
          split_ifs at hstep
          · refine Option.some.inj hstep ▸ hsound.enter fun _ hchannel => ?_
            rw [hphase]
            exact hchannel
          · exact Option.some.inj hstep ▸ hfalse call
      | _ => simp [hphase] at hstep
  | ready call =>
      simp only [Step, State.act] at hstep
      cases hphase : state.phases call with
      | awaiting channel =>
          simp only [hphase] at hstep
          cases channel with
          | empty => cases hstep
          | ponged =>
              refine Option.some.inj hstep ▸ hsound.answer fun _ => ?_
              exact hsound.ponged call (by rw [hphase]; rfl)
          | dropped => exact absurd (by rw [hphase]; rfl) (hsound.undropped call)
      | _ => simp [hphase] at hstep
  | elapse call =>
      simp only [Step, State.act] at hstep
      split_ifs at hstep
      exact Option.some.inj hstep ▸ hfalse call
  | cancel call =>
      simp only [Step, State.act] at hstep
      split_ifs at hstep
      exact Option.some.inj hstep ▸ hsound.enter fun _ hchannel => by cases hchannel
  | receive frame =>
      simp only [Step, State.act] at hstep
      split_ifs at hstep
      cases frame with
      | pong => exact Option.some.inj hstep ▸ hsound.pong
      | _ => exact Option.some.inj hstep ▸ hsound
  | hangUp =>
      simp only [Step, State.act] at hstep
      split_ifs at hstep
      exact Option.some.inj hstep ▸
        ⟨hsound.registered, hsound.ponged, hsound.undropped, hsound.truthful⟩

/-- In every run in which no call takes the place of one that still waits, a
ping returns `true` only after a pong that followed its registration. -/
theorem truthful_of_noneReplaced {state : State}
    (hreach : Reachable (· = .connected) Step NoneReplaced state) :
    EachMeets Truthful state.history := by
  have hsound : Sound state := by
    apply hreach.invariant
    · rintro start rfl
      exact sound_connected
    · exact fun _ _ _ hbefore hallowed hstep => hbefore.step hallowed hstep
  exact hsound.truthful

/-- Two calls, one after the other: the first returns `true` without a pong. -/
theorem not_truthful_of_replaced :
    ¬ ∀ state, Reachable (· = .connected) Step anyStep state →
      EachMeets Truthful state.history := by
  intro hall
  obtain ⟨state, hrun, hhistory⟩ : ∃ state,
      [Move.register 0, .send 0 true, .register 1, .ready 0].foldlM
          State.act .connected = some state ∧
        state.history = [.registered 0, .registered 1, .returned 0 true] :=
    ⟨_, rfl, rfl⟩
  have hreach : Reachable (· = .connected) Step anyStep state :=
    Reachable.foldlM (fun _ _ _ hact => ⟨trivial, hact⟩) (.initial rfl) hrun
  obtain ⟨before, after, hsplit, hpong⟩ :=
    hall state hreach [.registered 0, .registered 1] (.returned 0 true) []
      hhistory 0 rfl
  have hmem : Event.pong ∈ [Event.registered 0, .registered 1] :=
    hsplit ▸ List.mem_append_right _ (List.mem_cons_of_mem _ hpong)
  revert hmem
  decide

theorem truthful_of_one_call : ∃ state : State,
    state.history = [.registered 0, .pong, .returned 0 true] ∧
      EachMeets Truthful state.history := by
  obtain ⟨state, hrun, hhistory⟩ : ∃ state,
      [Move.register 0, .send 0 true, .receive .pong, .ready 0].foldlM
          (fun state move =>
            if NoneReplaced state move then state.act move else none)
          .connected = some state ∧
        state.history = [.registered 0, .pong, .returned 0 true] :=
    ⟨_, rfl, rfl⟩
  refine ⟨state, hhistory, truthful_of_noneReplaced (Reachable.foldlM ?_ (.initial rfl) hrun)⟩
  intro before move after hact
  split_ifs at hact with hnone
  exact ⟨hnone, hact⟩

end Mandala.Context.Ping
