import Mandala.Core.Transition
import Mandala.Fleet.Aggregate
import Mathlib.Logic.Function.Basic
import Mathlib.Order.Nat

/-!
# Reloading the served inventory

The first read evaluates the fleet lazily, and a reload evaluates it again.
Evaluations take the evaluator in turns, but each call stores what it evaluated
by itself, some time after it gave the evaluator back.
-/

namespace Mandala.Server

open Mandala.Data Mandala.Fleet Mandala.Transition

/-- An inventory with the time its evaluation started. -/
structure Held where
  inventory : Inventory
  since : ℕ

/-- What an evaluation is for. -/
inductive Purpose where
  | read
  | reload
  deriving DecidableEq, Repr

/-- Where a tool call stands; calls keep the time they started at, and
evaluations the time they started at. -/
inductive CallPhase (Checkout : Type) where
  | idle
  | started (callAt : ℕ)
  | waiting (purpose : Purpose) (callAt : ℕ)
  | evaluating (purpose : Purpose) (callAt since : ℕ) (seen : Option Checkout)
  | evaluated (purpose : Purpose) (callAt since : ℕ)
      (result : Except String Inventory)
  | served (callAt : ℕ) (held : Held)
  /-- The reload has stored its inventory and not answered yet. -/
  | stored (held : Held)
  | reloaded (since answeredAt : ℕ) (answer : Json)
  | failed (error : String)

structure ServerState (Checkout : Type) where
  clock : ℕ
  checkout : Checkout
  slot : Option Held
  /-- The call that has the evaluator. -/
  evaluator : Option ℕ
  calls : ℕ → CallPhase Checkout

inductive ServerAction (Checkout : Type) where
  | move (checkout : Checkout)
  | call (id : ℕ)
  | reload (id : ℕ)
  | serve (id : ℕ)
  | miss (id : ℕ)
  | begin (id : ℕ)
  | see (id : ℕ)
  | finish (id : ℕ)
  | fail (id : ℕ)
  | store (id : ℕ)
  | answer (id : ℕ)

variable {Checkout : Type}

/-- One call moves on, and time passes. -/
def ServerState.put (state : ServerState Checkout) (id : ℕ)
    (phase : CallPhase Checkout) : ServerState Checkout :=
  { state with
    clock := state.clock + 1
    calls := Function.update state.calls id phase }

/-- What a reload answers. -/
def reloadAnswer (inventory : Inventory) : Json :=
  .object
    [("ok", .bool true), ("members", .int inventory.members.size),
      ("groups", .int inventory.groups.size)]

def reloadUnavailable : String :=
  "reload unavailable: this host cannot swap the inventory"

/-- The phase of a call that stored what it evaluated. -/
def CallPhase.afterStore (purpose : Purpose) (callAt : ℕ) (held : Held) :
    CallPhase Checkout :=
  match purpose with
  | .read => .served callAt held
  | .reload => .stored held

/-- `MandalaHandler::inventory` and `tool_reload`, one await at a time. -/
inductive ServerStep (evaluate : Checkout → Except String Inventory)
    (reloadable : Bool) :
    ServerState Checkout → ServerAction Checkout → ServerState Checkout → Prop
  | move (state : ServerState Checkout) (checkout : Checkout) :
      ServerStep evaluate reloadable state (.move checkout)
        { state with clock := state.clock + 1, checkout }
  | call (state : ServerState Checkout) (id : ℕ) (hidle : state.calls id = .idle) :
      ServerStep evaluate reloadable state (.call id)
        (state.put id (.started state.clock))
  | reload (state : ServerState Checkout) (id : ℕ)
      (hidle : state.calls id = .idle) :
      ServerStep evaluate reloadable state (.reload id)
        (state.put id
          (if reloadable then .waiting .reload state.clock
            else .failed reloadUnavailable))
  | serve (state : ServerState Checkout) (id callAt : ℕ) (held : Held)
      (hphase : state.calls id = .started callAt) (hslot : state.slot = some held) :
      ServerStep evaluate reloadable state (.serve id)
        (state.put id (.served callAt held))
  | miss (state : ServerState Checkout) (id callAt : ℕ)
      (hphase : state.calls id = .started callAt) (hslot : state.slot = none) :
      ServerStep evaluate reloadable state (.miss id)
        (state.put id (.waiting .read callAt))
  | begin (state : ServerState Checkout) (id callAt : ℕ) (purpose : Purpose)
      (hphase : state.calls id = .waiting purpose callAt)
      (hfree : state.evaluator = none) :
      ServerStep evaluate reloadable state (.begin id)
        { state.put id (.evaluating purpose callAt state.clock none) with
          evaluator := some id }
  | see (state : ServerState Checkout) (id callAt since : ℕ) (purpose : Purpose)
      (hphase : state.calls id = .evaluating purpose callAt since none) :
      ServerStep evaluate reloadable state (.see id)
        (state.put id (.evaluating purpose callAt since (some state.checkout)))
  | finish (state : ServerState Checkout) (id callAt since : ℕ)
      (purpose : Purpose) (checkout : Checkout)
      (hphase : state.calls id =
        .evaluating purpose callAt since (some checkout)) :
      ServerStep evaluate reloadable state (.finish id)
        { state.put id (.evaluated purpose callAt since (evaluate checkout)) with
          evaluator := none }
  | fail (state : ServerState Checkout) (id callAt since : ℕ) (purpose : Purpose)
      (error : String)
      (hphase : state.calls id = .evaluated purpose callAt since (.error error)) :
      ServerStep evaluate reloadable state (.fail id)
        (state.put id (.failed error))
  | store (state : ServerState Checkout) (id callAt since : ℕ)
      (purpose : Purpose) (inventory : Inventory)
      (hphase : state.calls id = .evaluated purpose callAt since (.ok inventory)) :
      ServerStep evaluate reloadable state (.store id)
        { state.put id (.afterStore purpose callAt { inventory, since }) with
          slot := some { inventory, since } }
  | answer (state : ServerState Checkout) (id : ℕ) (held : Held)
      (hphase : state.calls id = .stored held) :
      ServerStep evaluate reloadable state (.answer id)
        (state.put id
          (.reloaded held.since state.clock (reloadAnswer held.inventory)))

/-- A server that holds an inventory of before, or none. -/
structure ServerInitial (state : ServerState Checkout) : Prop where
  calls : ∀ id, state.calls id = .idle
  evaluator : state.evaluator = none

/-! ## No reload is lost -/

/-- Every call started after a reload answered is served an inventory whose
evaluation started no earlier than that reload's. -/
def NeverLost (state : ServerState Checkout) : Prop :=
  ∀ reload since answeredAt answer, state.calls reload =
      .reloaded since answeredAt answer →
    ∀ id callAt held, state.calls id = .served callAt held →
      answeredAt < callAt → since ≤ held.since

/-- When the evaluation started that a reload stored. -/
def CallPhase.reloadedSince : CallPhase Checkout → Option ℕ
  | stored held => some held.since
  | reloaded since _ _ => some since
  | _ => none

/-- No call stores an inventory after a reload that started its evaluation
later has stored one. -/
def InOrder (state : ServerState Checkout) : ServerAction Checkout → Prop
  | .store id => ∀ purpose callAt since result,
      state.calls id = .evaluated purpose callAt since result →
        ∀ reload later, (state.calls reload).reloadedSince = some later →
          later ≤ since
  | _ => True

/-! ## The invariant -/

/-- When a call started. -/
def CallPhase.startedAt : CallPhase Checkout → Option ℕ
  | started callAt => some callAt
  | waiting _ callAt => some callAt
  | evaluating _ callAt _ _ => some callAt
  | evaluated _ callAt _ _ => some callAt
  | served callAt _ => some callAt
  | _ => none

/-- When a call started that found no inventory and evaluates one. -/
def CallPhase.missedAt : CallPhase Checkout → Option ℕ
  | waiting .read callAt => some callAt
  | evaluating .read callAt _ _ => some callAt
  | evaluated .read callAt _ _ => some callAt
  | _ => none

/-- The slot is as new as every reload that stored, so only calls that started
before such a reload answered can still be evaluating. -/
structure Fresh (state : ServerState Checkout) : Prop where
  past : ∀ id callAt, (state.calls id).startedAt = some callAt →
    callAt < state.clock
  answered : ∀ id since answeredAt answer,
    state.calls id = .reloaded since answeredAt answer → answeredAt < state.clock
  slot : ∀ id since, (state.calls id).reloadedSince = some since →
    ∃ held, state.slot = some held ∧ since ≤ held.since
  missed : ∀ reload since answeredAt answer,
    state.calls reload = .reloaded since answeredAt answer →
      ∀ id callAt, (state.calls id).missedAt = some callAt → callAt ≤ answeredAt
  served : NeverLost state

theorem CallPhase.startedAt_of_missedAt {phase : CallPhase Checkout} {callAt : ℕ}
    (hmissed : phase.missedAt = some callAt) : phase.startedAt = some callAt := by
  cases phase with
  | waiting purpose started => cases purpose <;> cases hmissed; rfl
  | evaluating purpose started since seen =>
      cases purpose <;> cases hmissed
      rfl
  | evaluated purpose started since result =>
      cases purpose <;> cases hmissed
      rfl
  | _ => cases hmissed

theorem fresh_of_initial {state : ServerState Checkout}
    (hinitial : ServerInitial state) : Fresh state := by
  have hquiet (id : ℕ) : state.calls id = .idle := hinitial.calls id
  refine ⟨?_, ?_, ?_, ?_, ?_⟩
  · intro id callAt hstarted
    rw [hquiet] at hstarted
    cases hstarted
  · intro id since answeredAt answer hreloaded
    rw [hquiet] at hreloaded
    cases hreloaded
  · intro id since hreloaded
    rw [hquiet] at hreloaded
    cases hreloaded
  · intro reload since answeredAt answer hreloaded
    rw [hquiet] at hreloaded
    cases hreloaded
  · intro reload since answeredAt answer hreloaded
    rw [hquiet] at hreloaded
    cases hreloaded

/-- One call moves to a phase that is right about the slot and about the
reloads that answered. -/
theorem Fresh.put {state : ServerState Checkout} (hfresh : Fresh state) (id : ℕ)
    {phase : CallPhase Checkout} {slot : Option Held} {evaluator : Option ℕ}
    (hstarted : ∀ callAt, phase.startedAt = some callAt → callAt ≤ state.clock)
    (hanswered : ∀ since answeredAt answer,
      phase = .reloaded since answeredAt answer → answeredAt = state.clock)
    (hslot : ∀ since, phase.reloadedSince = some since ∨
      (∃ reload, (state.calls reload).reloadedSince = some since) →
        ∃ held, slot = some held ∧ since ≤ held.since)
    (hmissed : ∀ callAt, phase.missedAt = some callAt →
      ∀ reload since answeredAt answer,
        state.calls reload = .reloaded since answeredAt answer →
          callAt ≤ answeredAt)
    (hserved : ∀ callAt held, phase = .served callAt held →
      ∀ reload since answeredAt answer,
        state.calls reload = .reloaded since answeredAt answer →
          answeredAt < callAt → since ≤ held.since) :
    Fresh { state.put id phase with slot, evaluator } := by
  have hcalls (other : ℕ) : (state.put id phase).calls other =
      if other = id then phase else state.calls other :=
    Function.update_apply _ _ _ _
  refine ⟨?_, ?_, ?_, ?_, ?_⟩
  · intro other callAt hother
    change callAt < state.clock + 1
    change ((state.put id phase).calls other).startedAt = _ at hother
    rw [hcalls] at hother
    split at hother
    · have := hstarted callAt hother
      omega
    · have := hfresh.past other callAt hother
      omega
  · intro other since answeredAt answer hother
    change answeredAt < state.clock + 1
    change (state.put id phase).calls other = _ at hother
    rw [hcalls] at hother
    split at hother
    · have := hanswered since answeredAt answer hother
      omega
    · have := hfresh.answered other since answeredAt answer hother
      omega
  · intro other since hother
    change ((state.put id phase).calls other).reloadedSince = _ at hother
    rw [hcalls] at hother
    split at hother
    · exact hslot since (.inl hother)
    · exact hslot since (.inr ⟨other, hother⟩)
  · intro reload since answeredAt answer hreload other callAt hother
    change (state.put id phase).calls reload = _ at hreload
    change ((state.put id phase).calls other).missedAt = _ at hother
    rw [hcalls] at hreload hother
    split at hreload
    · have heq := hanswered since answeredAt answer hreload
      split at hother
      · rw [hreload] at hother
        cases hother
      · have := hfresh.past other callAt
          (CallPhase.startedAt_of_missedAt hother)
        omega
    · split at hother
      · exact hmissed callAt hother reload since answeredAt answer hreload
      · exact hfresh.missed reload since answeredAt answer hreload other callAt
          hother
  · intro reload since answeredAt answer hreload other callAt held hother hafter
    change (state.put id phase).calls reload = _ at hreload
    change (state.put id phase).calls other = _ at hother
    rw [hcalls] at hreload hother
    split at hreload
    · have heq := hanswered since answeredAt answer hreload
      split at hother
      · rw [hreload] at hother
        cases hother
      · have hpast := hfresh.past other callAt (by rw [hother]; rfl)
        omega
    · split at hother
      · exact hserved callAt held hother reload since answeredAt answer hreload
          hafter
      · exact hfresh.served reload since answeredAt answer hreload other callAt
          held hother hafter

/-- A call that neither stores nor is served keeps what it knew. -/
theorem Fresh.put_quiet {state : ServerState Checkout} (hfresh : Fresh state)
    (id : ℕ) {phase : CallPhase Checkout} {evaluator : Option ℕ}
    (hstarted : ∀ callAt, phase.startedAt = some callAt → callAt ≤ state.clock)
    (hreloaded : phase.reloadedSince = none)
    (hmissed : ∀ callAt, phase.missedAt = some callAt →
      ∀ reload since answeredAt answer,
        state.calls reload = .reloaded since answeredAt answer →
          callAt ≤ answeredAt)
    (hserved : ∀ callAt held, phase ≠ .served callAt held) :
    Fresh { state.put id phase with evaluator } := by
  apply hfresh.put id hstarted _ _ hmissed
  · intro callAt held heq
    exact absurd heq (hserved callAt held)
  · intro since answeredAt answer heq
    rw [heq] at hreloaded
    cases hreloaded
  · rintro since (hself | ⟨reload, hreload⟩)
    · rw [hreloaded] at hself
      cases hself
    · exact hfresh.slot reload since hreload

theorem Fresh.callAt_le {state : ServerState Checkout} (hfresh : Fresh state)
    {id : ℕ} {phase : CallPhase Checkout} (hphase : state.calls id = phase)
    {callAt : ℕ} (hstarted : phase.startedAt = some callAt) :
    callAt ≤ state.clock := by
  rw [← hphase] at hstarted
  exact (hfresh.past id callAt hstarted).le

/-- A call that missed nothing owes no reload an answer. -/
theorem Fresh.put_unmissed {state : ServerState Checkout} (hfresh : Fresh state)
    (id : ℕ) {phase : CallPhase Checkout} {evaluator : Option ℕ}
    (hstarted : ∀ callAt, phase.startedAt = some callAt → callAt ≤ state.clock)
    (hreloaded : phase.reloadedSince = none) (hmissed : phase.missedAt = none)
    (hserved : ∀ callAt held, phase ≠ .served callAt held) :
    Fresh { state.put id phase with evaluator } := by
  apply hfresh.put_quiet id hstarted hreloaded _ hserved
  intro callAt hsome
  rw [hmissed] at hsome
  cases hsome

/-- A call under way keeps the instants it started at and missed at. -/
theorem Fresh.goOn {state : ServerState Checkout} (hfresh : Fresh state)
    {id : ℕ} {earlier phase : CallPhase Checkout} {evaluator : Option ℕ}
    (hphase : state.calls id = earlier)
    (hstarted : phase.startedAt = earlier.startedAt)
    (hmissed : phase.missedAt = earlier.missedAt)
    (hreloaded : phase.reloadedSince = none)
    (hserved : ∀ callAt held, phase ≠ .served callAt held) :
    Fresh { state.put id phase with evaluator } := by
  refine hfresh.put_quiet id ?_ hreloaded ?_ hserved
  · intro callAt hsome
    rw [hstarted] at hsome
    exact hfresh.callAt_le hphase hsome
  · intro callAt hsome reload since answeredAt answer hreload
    apply hfresh.missed reload since answeredAt answer hreload id
    rw [hphase, ← hmissed]
    exact hsome

/-- A call served from the slot gets what every reload before it stored. -/
theorem Fresh.serve {state : ServerState Checkout} (hfresh : Fresh state)
    {id callAt : ℕ} {held : Held} (hphase : state.calls id = .started callAt)
    (hslot : state.slot = some held) :
    Fresh (state.put id (.served callAt held)) := by
  apply hfresh.put id
  · rintro _ ⟨⟩
    exact hfresh.callAt_le hphase rfl
  · intro since answeredAt answer heq
    cases heq
  · rintro since (hself | ⟨reload, hreload⟩)
    · cases hself
    · exact hfresh.slot reload since hreload
  · intro _ hmissed
    cases hmissed
  · rintro _ _ ⟨⟩ reload since answeredAt answer hreload _
    obtain ⟨newest, hnewest, hle⟩ :=
      hfresh.slot reload since (by rw [hreload]; rfl)
    rw [hslot] at hnewest
    cases hnewest
    exact hle

/-- Where a call misses, no reload has answered yet. -/
theorem Fresh.miss {state : ServerState Checkout} (hfresh : Fresh state)
    {id callAt : ℕ} (hphase : state.calls id = .started callAt)
    (hslot : state.slot = none) :
    Fresh (state.put id (.waiting .read callAt)) := by
  apply hfresh.put_quiet id _ rfl
  · intro _ _ reload since answeredAt answer hreload
    obtain ⟨newest, hnewest, -⟩ :=
      hfresh.slot reload since (by rw [hreload]; rfl)
    rw [hslot] at hnewest
    cases hnewest
  · intro _ _ heq
    cases heq
  · rintro _ ⟨⟩
    exact hfresh.callAt_le hphase rfl

/-- What is stored in order is as new as every reload that stored. -/
theorem Fresh.store {state : ServerState Checkout} (hfresh : Fresh state)
    {id callAt since : ℕ} {purpose : Purpose} {inventory : Inventory}
    (hphase : state.calls id = .evaluated purpose callAt since (.ok inventory))
    (hnewest : ∀ reload later, (state.calls reload).reloadedSince = some later →
      later ≤ since) :
    Fresh
      { state.put id (.afterStore purpose callAt { inventory, since }) with
        slot := some { inventory, since } } := by
  cases purpose with
  | read =>
      apply hfresh.put id
      · rintro _ ⟨⟩
        exact hfresh.callAt_le hphase rfl
      · intro _ _ _ heq
        cases heq
      · rintro later (hself | ⟨reload, hreload⟩)
        · cases hself
        · exact ⟨_, rfl, hnewest reload later hreload⟩
      · intro _ hmissed
        cases hmissed
      · rintro _ _ ⟨⟩ reload later answeredAt answer hreload _
        exact hnewest reload later (by rw [hreload]; rfl)
  | reload =>
      apply hfresh.put id
      · intro _ hstarted
        cases hstarted
      · intro _ _ _ heq
        cases heq
      · rintro later (hself | ⟨reload, hreload⟩)
        · cases hself
          exact ⟨_, rfl, le_rfl⟩
        · exact ⟨_, rfl, hnewest reload later hreload⟩
      · intro _ hmissed
        cases hmissed
      · intro _ _ heq
        cases heq

theorem Fresh.answer {state : ServerState Checkout} (hfresh : Fresh state)
    {id : ℕ} {held : Held} (hphase : state.calls id = .stored held) :
    Fresh (state.put id
      (.reloaded held.since state.clock (reloadAnswer held.inventory))) := by
  apply hfresh.put id
  · intro _ hstarted
    cases hstarted
  · rintro _ _ _ ⟨⟩
    rfl
  · rintro since (hself | ⟨reload, hreload⟩)
    · cases hself
      exact hfresh.slot id held.since (by rw [hphase]; rfl)
    · exact hfresh.slot reload since hreload
  · intro _ hmissed
    cases hmissed
  · intro _ _ heq
    cases heq

/-- A step in order keeps the slot fresh. -/
theorem Fresh.step {evaluate : Checkout → Except String Inventory}
    {reloadable : Bool} {before after : ServerState Checkout}
    {action : ServerAction Checkout} (hfresh : Fresh before)
    (horder : InOrder before action)
    (hstep : ServerStep evaluate reloadable before action after) : Fresh after := by
  cases hstep with
  | move checkout =>
      exact ⟨fun id callAt hstarted => (hfresh.past id callAt hstarted).trans
          (Nat.lt_succ_self _),
        fun id since answeredAt answer hreloaded =>
          (hfresh.answered id since answeredAt answer hreloaded).trans
            (Nat.lt_succ_self _),
        hfresh.slot, hfresh.missed, hfresh.served⟩
  | call id hidle =>
      refine hfresh.put_unmissed id ?_ rfl rfl nofun
      rintro callAt ⟨⟩
      exact le_rfl
  | reload id hidle =>
      split
      · refine hfresh.put_unmissed id ?_ rfl rfl nofun
        rintro callAt ⟨⟩
        exact le_rfl
      · exact hfresh.put_unmissed id nofun rfl rfl nofun
  | serve id callAt held hphase hslot => exact hfresh.serve hphase hslot
  | miss id callAt hphase hslot => exact hfresh.miss hphase hslot
  | begin id callAt purpose hphase hfree =>
      refine hfresh.goOn hphase rfl ?_ rfl nofun
      cases purpose <;> rfl
  | see id callAt since purpose hphase =>
      refine hfresh.goOn hphase rfl ?_ rfl nofun
      cases purpose <;> rfl
  | finish id callAt since purpose checkout hphase =>
      refine hfresh.goOn hphase rfl ?_ rfl nofun
      cases purpose <;> rfl
  | fail id callAt since purpose error hphase =>
      exact hfresh.put_unmissed id nofun rfl rfl nofun
  | store id callAt since purpose inventory hphase =>
      exact hfresh.store hphase (horder purpose callAt since _ hphase)
  | answer id held hphase => exact hfresh.answer hphase

/-- While calls store what they evaluated in order, no reload is lost. -/
theorem neverLost_of_inOrder (evaluate : Checkout → Except String Inventory)
    (reloadable : Bool) {state : ServerState Checkout}
    (hreach : Reachable ServerInitial (ServerStep evaluate reloadable) InOrder
      state) :
    NeverLost state := by
  have hfresh : Fresh state := by
    refine hreach.invariant ?_ ?_
    · intro _
      exact fresh_of_initial
    · intro _ _ _ hfresh
      exact hfresh.step
  exact hfresh.served

/-! ### A first read that outlives a reload -/

def bareFleet : Inventory :=
  { aggregate :=
      { schemaVersion := .int 1
        members := ∅
        groups := ∅
        extra := [] }
    controllerPlatform := none
    checked := by rfl }

def labFleet : Inventory :=
  { aggregate :=
      { schemaVersion := .int 1
        members := (∅ : BTreeMap Member).insert "lab"
          { fields := [("name", .string "lab")] }
        groups := ∅
        extra := [] }
    controllerPlatform := none
    checked := by rfl }

/-- The fleet before and after a commit that adds a member. -/
def fleetAt (commit : String) : Except String Inventory :=
  .ok (if commit = "moved" then labFleet else bareFleet)

def coldServer : ServerState String :=
  { clock := 0
    checkout := "base"
    slot := none
    evaluator := none
    calls := fun _ => .idle }

theorem serverInitial_coldServer : ServerInitial coldServer :=
  ⟨fun _ => rfl, rfl⟩

/-- A read evaluates the old checkout; the checkout moves and a reload
evaluates, stores and answers; the read stores after it, and the next call is
served the old fleet. -/
theorem lostReload_reachable :
    ∃ state, Reachable ServerInitial (ServerStep fleetAt true) anyStep state ∧
      ¬ NeverLost state := by
  have hstart : Reachable ServerInitial (ServerStep fleetAt true) anyStep
      coldServer :=
    Reachable.initial serverInitial_coldServer
  have hmissed := (hstart.step trivial (.call _ 0 rfl)).step trivial
    (.miss _ 0 0 rfl rfl)
  have hread := ((hmissed.step trivial (.begin _ 0 0 .read rfl rfl)).step trivial
    (.see _ 0 0 2 .read rfl)).step trivial (.finish _ 0 0 2 .read "base" rfl)
  have hmoved := hread.step trivial (.move _ "moved")
  have hreload := ((hmoved.step trivial (.reload _ 1 rfl)).step trivial
    (.begin _ 1 6 .reload rfl rfl)).step trivial (.see _ 1 6 7 .reload rfl)
  have hstored := (hreload.step trivial
    (.finish _ 1 6 7 .reload "moved" rfl)).step trivial
      (.store _ 1 6 7 .reload labFleet rfl)
  have hanswered := hstored.step trivial (.answer _ 1 ⟨labFleet, 7⟩ rfl)
  have hoverwritten := hanswered.step trivial (.store _ 0 0 2 .read bareFleet rfl)
  have hserved := (hoverwritten.step trivial (.call _ 2 rfl)).step trivial
    (.serve _ 2 13 ⟨bareFleet, 2⟩ rfl rfl)
  refine ⟨_, hserved, ?_⟩
  intro hkept
  have hnewer : 7 ≤ 2 := hkept 1 7 11 _ rfl 2 13 ⟨bareFleet, 2⟩ rfl (by decide)
  omega

/-- A reload that nothing races is served to the next call. -/
theorem quietReload_neverLost :
    ∃ state : ServerState String,
      NeverLost state ∧ state.calls 1 = .served 6 ⟨bareFleet, 1⟩ := by
  have hnext {before after : ServerState String} {action : ServerAction String}
      (hbefore : Reachable ServerInitial (ServerStep fleetAt true) InOrder before)
      (hstep : ServerStep fleetAt true before action after)
      (horder : InOrder before action) :
      Reachable ServerInitial (ServerStep fleetAt true) InOrder after :=
    hbefore.step horder hstep
  have hstart : Reachable ServerInitial (ServerStep fleetAt true) InOrder
      coldServer :=
    Reachable.initial serverInitial_coldServer
  have hbegun := hnext (hnext hstart (.reload _ 0 rfl) trivial)
    (.begin _ 0 0 .reload rfl rfl) trivial
  have hevaluated := hnext (hnext hbegun (.see _ 0 0 1 .reload rfl) trivial)
    (.finish _ 0 0 1 .reload "base" rfl) trivial
  have hstored := hnext hevaluated (.store _ 0 0 1 .reload bareFleet rfl) (by
    intro purpose callAt since result _ reload later hlater
    by_cases heq : reload = 0
    · subst heq
      cases hlater
    · simp [ServerState.put, coldServer, heq, CallPhase.reloadedSince] at hlater)
  have hserved := hnext (hnext (hnext hstored
    (.answer _ 0 ⟨bareFleet, 1⟩ rfl) trivial) (.call _ 1 rfl) trivial)
      (.serve _ 1 6 ⟨bareFleet, 1⟩ rfl rfl) trivial
  exact ⟨_, neverLost_of_inOrder fleetAt true hserved, rfl⟩

end Mandala.Server
