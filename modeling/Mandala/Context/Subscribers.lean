import Mandala.Context.Subscription
import Mathlib.Data.List.Basic

/-!
# What subscribers receive

While a connection is subscribed once, it has one forwarder at most, so what
waits at the forwarder, on the wire and in the stream is what was published, in
that order.
-/

namespace Mandala.Context.Subscription

open Function Mandala.Transition

/-! ## Events on their way -/

/-- In the order they were published, and published already. -/
structure Ascending (published : ℕ) (events : List ℕ) : Prop where
  ordered : events.Pairwise (· < ·)
  bounded : ∀ event ∈ events, event < published

namespace Ascending
variable {published : ℕ} {events fewer : List ℕ}

theorem sublist (hevents : Ascending published events)
    (hsublist : fewer.Sublist events) : Ascending published fewer where
  ordered := hevents.ordered.sublist hsublist
  bounded event hmem := hevents.bounded event (hsublist.mem hmem)

theorem later (hevents : Ascending published events) :
    Ascending (published + 1) events where
  ordered := hevents.ordered
  bounded event hmem := Nat.lt_succ_of_lt (hevents.bounded event hmem)

theorem snoc (hevents : Ascending published events) :
    Ascending (published + 1) (events ++ [published]) where
  ordered := by
    refine List.pairwise_append.mpr
      ⟨hevents.ordered, List.pairwise_singleton _ _, ?_⟩
    intro event hmem last hlast
    rw [List.mem_singleton.mp hlast]
    exact hevents.bounded event hmem
  bounded event hmem := by
    rcases List.mem_append.mp hmem with hold | hnew
    · exact Nat.lt_succ_of_lt (hevents.bounded event hold)
    · rw [List.mem_singleton.mp hnew]
      exact Nat.lt_succ_self published

end Ascending

def Frame.index : Frame → Option ℕ
  | .subscribed => none
  | .event index => some index

def Forwarder.pending (forwarder : Forwarder) : List ℕ :=
  forwarder.inHand.toList ++ forwarder.queue

namespace Conn

/-- What the connection still brings, in order, if nothing is lost. -/
def pending (conn : Conn) : List ℕ :=
  conn.frames.filterMap Frame.index ++
    conn.forwarders.flatMap Forwarder.pending

/-- The forwarders there are or will be. -/
def load (conn : Conn) : ℕ :=
  conn.requests + conn.forwarders.length + if conn.arming then 1 else 0

structure Sound (conn : Conn) : Prop where
  single : conn.load ≤ 1
  idle : conn.sink = none → conn.load = 0 ∧ conn.pending = []
  closed : conn.closed = true → conn.sink = none

/-- A step of the connection that subscribes nobody. -/
structure Progress (before after : Conn) : Prop where
  closed : after.closed = before.closed
  sink : after.sink = before.sink
  load : after.load = before.load
  pending : after.pending.Sublist before.pending

theorem Progress.sound {before after : Conn} (hprogress : Progress before after)
    (hsound : before.Sound) : after.Sound where
  single := hprogress.load ▸ hsound.single
  idle hsink := by
    obtain ⟨hload, hpending⟩ := hsound.idle (hprogress.sink ▸ hsink)
    refine ⟨hprogress.load.trans hload, ?_⟩
    exact List.sublist_nil.mp (hpending ▸ hprogress.pending)
  closed hclosed := by
    rw [hprogress.sink]
    exact hsound.closed (hprogress.closed ▸ hclosed)

/-- With one forwarder at most, the one that was found is all there are. -/
theorem Sound.forwarders {conn : Conn} {index : ℕ} {forwarder : Forwarder}
    (hsound : conn.Sound) (hfound : conn.forwarders[index]? = some forwarder) :
    index = 0 ∧ conn.forwarders = [forwarder] := by
  have hsingle := hsound.single
  obtain ⟨hbound, hget⟩ := List.getElem?_eq_some_iff.mp hfound
  have hlength : conn.forwarders.length = 1 := by
    rw [load] at hsingle
    omega
  obtain ⟨only, honly⟩ := List.length_eq_one_iff.mp hlength
  have hindex : index = 0 := by omega
  subst hindex
  rw [honly] at hfound ⊢
  cases hfound
  exact ⟨rfl, rfl⟩

theorem pending_serve (conn : Conn) (requests : ℕ) :
    pending { conn with
      requests
      arming := true
      frames := conn.frames ++ [.subscribed] } = conn.pending := by
  rw [pending, pending, List.filterMap_append]
  simp [Frame.index]

theorem serve_progress {conn after : Conn} (hstep : conn.serve = some after) :
    Progress conn after := by
  unfold serve at hstep
  split at hstep
  · cases hstep
  · next hidle =>
      cases hstep
      obtain ⟨hrequests, harming⟩ := not_or.mp hidle
      refine ⟨rfl, rfl, ?_, ?_⟩
      · rw [Bool.not_eq_true] at harming
        simp only [load, harming, if_true, Bool.false_eq_true, if_false]
        omega
      · rw [pending_serve]

theorem arm_progress {conn after : Conn} (hstep : conn.arm = some after) :
    Progress conn after := by
  unfold arm at hstep
  split at hstep
  · next harming =>
      cases hstep
      refine ⟨rfl, rfl, ?_, ?_⟩
      · simp only [load, harming, if_true, Bool.false_eq_true, if_false,
          List.length_append, List.length_singleton]
        omega
      · simp [pending, Forwarder.pending]
  · cases hstep

/-- The one forwarder changes, and what it has pending with it. -/
theorem Sound.progress {conn : Conn} {index : ℕ} {forwarder moved : Forwarder}
    {frames : List Frame} (hsound : conn.Sound)
    (hfound : conn.forwarders[index]? = some forwarder)
    (hpending : (frames.filterMap Frame.index ++ moved.pending).Sublist
      (conn.frames.filterMap Frame.index ++ forwarder.pending)) :
    Progress conn { conn with
      forwarders := conn.forwarders.set index moved
      frames } := by
  obtain ⟨rfl, honly⟩ := hsound.forwarders hfound
  refine ⟨rfl, rfl, ?_, ?_⟩
  · simp only [load, List.length_set]
  · simp only [pending, honly, List.set_cons_zero, List.flatMap_cons,
      List.flatMap_nil, List.append_nil]
    exact hpending

theorem Sound.recv {conn after : Conn} {index : ℕ} (hsound : conn.Sound)
    (hstep : conn.recv index = some after) : Progress conn after := by
  unfold Conn.recv at hstep
  split at hstep
  · next event queue hfound =>
      cases hstep
      exact hsound.progress hfound (List.Sublist.refl _)
  · cases hstep

theorem Sound.push {conn after : Conn} {index : ℕ} (hsound : conn.Sound)
    (hstep : conn.push index = some after) : Progress conn after := by
  unfold Conn.push at hstep
  split at hstep
  · next event queue hfound =>
      cases hstep
      refine hsound.progress hfound ?_
      rw [List.filterMap_append, List.append_assoc]
      exact List.Sublist.refl _
  · cases hstep

theorem Sound.lag {conn after : Conn} {index missed : ℕ} (hsound : conn.Sound)
    (hstep : conn.lag index missed = some after) : Progress conn after := by
  obtain ⟨forwarder, hfound, rfl⟩ := Option.map_eq_some_iff.mp hstep
  refine hsound.progress hfound ?_
  exact ((List.drop_sublist missed forwarder.queue).append_left _).append_left _

theorem sound_eof (conn : Conn) : conn.eof.Sound where
  single := Nat.zero_le 1
  idle _ := ⟨rfl, rfl⟩
  closed _ := rfl

theorem sound_connected (leader : ℕ) : (Conn.connected leader).Sound where
  single := Nat.zero_le 1
  idle _ := ⟨rfl, rfl⟩
  closed _ := rfl

theorem load_publish (host event : ℕ) (conn : Conn) :
    (conn.publish host event).load = conn.load := by
  rw [publish]
  split
  · simp only [load, List.length_map]
  · rfl

theorem sink_publish (host event : ℕ) (conn : Conn) :
    (conn.publish host event).sink = conn.sink := by
  rw [publish]
  split <;> rfl

theorem closed_publish (host event : ℕ) (conn : Conn) :
    (conn.publish host event).closed = conn.closed := by
  rw [publish]
  split <;> rfl

/-- A publication is the last of what a connection brings, if it brings it. -/
theorem Sound.pending_publish {conn : Conn} (hsound : conn.Sound)
    (host event : ℕ) :
    (conn.publish host event).pending = conn.pending ∨
      (conn.publish host event).pending = conn.pending ++ [event] := by
  have hsingle := hsound.single
  rw [publish]
  split
  · rcases hforwarders : conn.forwarders with _ | ⟨first, rest⟩
    · left
      simp [pending, hforwarders]
    · have hrest : rest = [] := by
        rw [load, hforwarders, List.length_cons] at hsingle
        exact List.length_eq_zero_iff.mp (by omega)
      right
      simp [pending, hforwarders, hrest, Forwarder.pending]
  · exact .inl rfl

theorem Sound.publish {conn : Conn} (hsound : conn.Sound) (host event : ℕ) :
    (conn.publish host event).Sound where
  single := by
    rw [load_publish]
    exact hsound.single
  idle hsink := by
    rw [sink_publish] at hsink
    obtain ⟨hload, hpending⟩ := hsound.idle hsink
    refine ⟨(load_publish host event conn).trans hload, ?_⟩
    have hnone : conn.forwarders = [] := by
      rw [load] at hload
      exact List.length_eq_zero_iff.mp (by omega)
    rw [← hpending, Conn.publish]
    split
    · simp [pending, hnone]
    · rfl
  closed hclosed := by
    rw [sink_publish]
    rw [closed_publish] at hclosed
    exact hsound.closed hclosed

end Conn

/-! ## The session -/

namespace State

/-- What the connection still brings to that stream. -/
def reaching (state : State) (id stream : ℕ) : List ℕ :=
  match state.conns id with
  | some conn => if conn.sink = some stream then conn.pending else []
  | none => []

/-- What a subscriber in that phase has still to receive. -/
def pending (state : State) : Phase → List ℕ
  | .onLocal _ queue => queue
  | .registered id stream | .awaiting id stream | .onRemote id stream =>
      state.streams stream ++ state.reaching id stream
  | _ => []

theorem pending_of_held (state : State) {phase : Phase} {id stream : ℕ}
    (hheld : phase.held = some (id, stream)) :
    state.pending phase =
      state.streams stream ++ state.reaching id stream := by
  cases phase with
  | registered _ _ | awaiting _ _ | onRemote _ _ =>
      cases hheld
      rfl
  | _ => cases hheld

/-- Only the stream held and the connection it is on matter. -/
theorem pending_congr {before after : State} {phase : Phase}
    (hsame : ∀ id stream, phase.held = some (id, stream) →
      after.streams stream ++ after.reaching id stream =
        before.streams stream ++ before.reaching id stream) :
    after.pending phase = before.pending phase := by
  cases phase with
  | registered _ _ | awaiting _ _ | onRemote _ _ => exact hsame _ _ rfl
  | _ => rfl

end State

structure Inv (state : State) : Prop where
  sound : ∀ id conn, state.conns id = some conn → conn.Sound
  fresh : ∀ stream, state.nextStream ≤ stream → state.streams stream = []
  sinks : ∀ id conn stream, state.conns id = some conn →
    conn.sink = some stream → stream < state.nextStream
  /-- A stream that is held is the sink of its connection, while that lives. -/
  holds : ∀ subscriber id stream,
    (state.phases subscriber).held = some (id, stream) →
      stream < state.nextStream ∧ ∃ conn, state.conns id = some conn ∧
        (conn.closed = false → conn.sink = some stream)
  home : ∀ subscriber id stream other conn,
    (state.phases subscriber).held = some (id, stream) →
      state.conns other = some conn → conn.sink = some stream → other = id
  alone : ∀ first second id other stream,
    (state.phases first).held = some (id, stream) →
      (state.phases second).held = some (other, stream) → first = second
  unsent : ∀ subscriber id stream conn,
    state.phases subscriber = .registered id stream →
      state.conns id = some conn → conn.closed = false → conn.load = 0
  ordered : ∀ subscriber, Ascending state.published
    (state.received subscriber ++ state.pending (state.phases subscriber))

namespace Inv
variable {state : State} {id subscriber : ℕ} {conn changed : Conn}

theorem phases_withPhase (state : State) (subscriber other : ℕ)
    (phase : Phase) :
    (state.withPhase subscriber phase).phases other =
      if other = subscriber then phase else state.phases other :=
  update_apply ..

theorem conns_withConn (state : State) (id other : ℕ) (conn : Conn) :
    (state.withConn id conn).conns other =
      if other = id then some conn else state.conns other :=
  update_apply ..

/-! ### Subscribers that move on -/

/-- A subscriber goes on without a new registration, having received what of
its stream it has received. -/
theorem advance (hinv : Inv state) {phase : Phase} {received : List ℕ}
    (hheld : phase.held = none ∨
      phase.held = (state.phases subscriber).held)
    (hsent : ∀ id stream, phase ≠ .registered id stream)
    (hordered : Ascending state.published
      (received ++ state.pending phase)) :
    Inv { state.withPhase subscriber phase with
      received := update state.received subscriber received } := by
  have hback (other : ℕ) (place : ℕ × ℕ)
      (hother : ((state.withPhase subscriber phase).phases other).held =
        some place) : (state.phases other).held = some place := by
    rw [phases_withPhase] at hother
    split at hother
    · next hsame =>
        rcases hheld with hnone | hkept
        · rw [hnone] at hother
          cases hother
        · rw [hsame, ← hkept]
          exact hother
    · exact hother
  exact
    { sound := hinv.sound
      fresh := hinv.fresh
      sinks := hinv.sinks
      holds := fun other id stream hother =>
        hinv.holds other id stream (hback other _ hother)
      home := fun other id stream sibling conn hother =>
        hinv.home other id stream sibling conn (hback other _ hother)
      alone := fun first second id other stream hfirst hsecond =>
        hinv.alone first second id other stream (hback first _ hfirst)
          (hback second _ hsecond)
      unsent := fun other id stream conn hother => by
        change (state.withPhase subscriber phase).phases other = _ at hother
        rw [phases_withPhase] at hother
        split at hother
        · exact absurd hother (hsent id stream)
        · exact hinv.unsent other id stream conn hother
      ordered := fun other => by
        change Ascending state.published
          (update state.received subscriber received other ++
            state.pending ((state.withPhase subscriber phase).phases other))
        rw [phases_withPhase, update_apply]
        split
        · exact hordered
        · exact hinv.ordered other }

theorem withPhase (hinv : Inv state) {phase : Phase}
    (hheld : phase.held = none ∨
      phase.held = (state.phases subscriber).held)
    (hsent : ∀ id stream, phase ≠ .registered id stream)
    (hpending : (state.pending phase).Sublist
      (state.pending (state.phases subscriber))) :
    Inv (state.withPhase subscriber phase) := by
  have hadvanced := @advance state subscriber hinv phase
    (state.received subscriber) hheld hsent
    ((hinv.ordered subscriber).sublist (hpending.append_left _))
  rw [update_eq_self] at hadvanced
  exact hadvanced

/-- A subscriber lets go of its stream. -/
theorem release (hinv : Inv state) {phase : Phase}
    (hheld : phase.held = none) (hpending : state.pending phase = []) :
    Inv (state.withPhase subscriber phase) := by
  refine hinv.withPhase (.inl hheld) ?_ ?_
  · rintro id stream rfl
    cases hheld
  · rw [hpending]
    exact List.nil_sublist _

theorem withRole (hinv : Inv state) (role : Role) :
    Inv { state with role } :=
  { hinv with }

/-! ### Connections that move on -/

theorem reaching_withConn (state : State) (id other stream : ℕ)
    (conn : Conn) :
    (state.withConn id conn).reaching other stream =
      if other = id then
        if conn.sink = some stream then conn.pending else []
      else state.reaching other stream := by
  by_cases hsame : other = id
  · rw [State.reaching, conns_withConn, if_pos hsame, if_pos hsame]
  · rw [State.reaching, conns_withConn, if_neg hsame, if_neg hsame]
    rfl

/-- A change of the connection after which it brings nothing new. -/
theorem withConn (hinv : Inv state) (hfound : state.conns id = some conn)
    (hsound : changed.Sound)
    (hsink : ∀ stream, changed.sink = some stream → conn.sink = some stream)
    (hlive : changed.closed = false →
      conn.closed = false ∧ changed.sink = conn.sink)
    (hunsent : changed.closed = false → ∀ holder stream,
      state.phases holder = .registered id stream → changed.load = 0)
    (hpending : changed.pending.Sublist conn.pending) :
    Inv (state.withConn id changed) where
  sound other found hother := by
    obtain ⟨rfl, rfl⟩ | ⟨-, hother⟩ := update_eq_some hother
    · exact hsound
    · exact hinv.sound other found hother
  fresh := hinv.fresh
  sinks other found stream hother hfoundSink := by
    obtain ⟨rfl, rfl⟩ | ⟨-, hother⟩ := update_eq_some hother
    · exact hinv.sinks id conn stream hfound (hsink stream hfoundSink)
    · exact hinv.sinks other found stream hother hfoundSink
  holds holder other stream hholder := by
    obtain ⟨hbound, found, hother, hfoundSink⟩ :=
      hinv.holds holder other stream hholder
    refine ⟨hbound, ?_⟩
    rw [conns_withConn]
    split
    · next hsame =>
        subst hsame
        cases hfound.symm.trans hother
        refine ⟨changed, rfl, fun hclosed => ?_⟩
        obtain ⟨hopen, hkept⟩ := hlive hclosed
        exact hkept.trans (hfoundSink hopen)
    · exact ⟨found, hother, hfoundSink⟩
  home holder place stream other found hholder hother hfoundSink := by
    obtain ⟨rfl, rfl⟩ | ⟨-, hother⟩ := update_eq_some hother
    · exact hinv.home holder place stream id conn hholder hfound
        (hsink stream hfoundSink)
    · exact hinv.home holder place stream other found hholder hother hfoundSink
  alone := hinv.alone
  unsent holder other stream found hholder hother hopen := by
    obtain ⟨rfl, rfl⟩ | ⟨-, hother⟩ := update_eq_some hother
    · exact hunsent hopen holder stream hholder
    · exact hinv.unsent holder other stream found hholder hother hopen
  ordered holder := by
    refine (hinv.ordered holder).sublist (List.Sublist.append_left ?_ _)
    change ((state.withConn id changed).pending
      (state.phases holder)).Sublist (state.pending (state.phases holder))
    cases hholder : (state.phases holder).held with
    | none =>
        have hsame : (state.withConn id changed).pending
            (state.phases holder) = state.pending (state.phases holder) := by
          apply State.pending_congr
          intro other stream hother
          rw [hholder] at hother
          cases hother
        rw [hsame]
    | some place =>
        rw [State.pending_of_held _ hholder, State.pending_of_held _ hholder]
        refine List.Sublist.append_left ?_ _
        rw [reaching_withConn]
        split
        · next hsame =>
            rw [State.reaching, hsame, hfound]
            dsimp only
            split
            · next hroutes =>
                rw [if_pos (hsink _ hroutes)]
                exact hpending
            · exact List.nil_sublist _
        · exact List.Sublist.refl _

theorem progress (hinv : Inv state) (hfound : state.conns id = some conn)
    (hprogress : Conn.Progress conn changed) :
    Inv (state.withConn id changed) := by
  refine hinv.withConn hfound
    (hprogress.sound (hinv.sound id conn hfound)) ?_ ?_ ?_ hprogress.pending
  · intro stream hsink
    exact hprogress.sink.symm.trans hsink
  · intro hopen
    exact ⟨hprogress.closed.symm.trans hopen, hprogress.sink⟩
  · intro hopen holder stream hholder
    exact hprogress.load.trans (hinv.unsent holder id stream conn hholder hfound
      (hprogress.closed.symm.trans hopen))

theorem eof (hinv : Inv state) (hfound : state.conns id = some conn) :
    Inv (state.withConn id conn.eof) := by
  refine hinv.withConn hfound conn.sound_eof ?_ ?_ ?_ (List.nil_sublist _)
  · intro stream hsink
    cases hsink
  · intro hopen
    cases hopen
  · intro hopen
    cases hopen

/-- The reader routes an event to the stream that is the sink. -/
theorem route (hinv : Inv state) {stream event : ℕ} {frames : List Frame}
    (hfound : state.conns id = some conn)
    (hframes : conn.frames = .event event :: frames)
    (hsink : conn.sink = some stream) :
    Inv ((state.withConn id { conn with frames }).withStream stream
      (state.streams stream ++ [event])) := by
  have hpending : conn.pending =
      event :: Conn.pending { conn with frames } := by
    rw [Conn.pending, hframes]
    rfl
  have hrouted : Inv (state.withConn id { conn with frames }) := by
    refine hinv.progress hfound ⟨rfl, rfl, rfl, ?_⟩
    rw [hpending]
    exact List.sublist_cons_self _ _
  refine { hrouted with fresh := fun other hother => ?_, ordered := ?_ }
  · have hbound := hinv.sinks id conn stream hfound hsink
    have hother' : state.nextStream ≤ other := hother
    change update state.streams stream _ other = []
    rw [update_of_ne (by omega)]
    exact hinv.fresh other hother
  · intro holder
    change Ascending state.published (state.received holder ++
      State.pending _ (state.phases holder))
    rw [@State.pending_congr state]
    · exact hinv.ordered holder
    · intro other held hholder
      change update state.streams stream _ held ++
        (state.withConn id { conn with frames }).reaching other held = _
      rw [reaching_withConn]
      by_cases hstream : held = stream
      · subst hstream
        have hplace := hinv.home holder other held id conn hholder hfound hsink
        subst hplace
        rw [update_self, if_pos rfl, if_pos hsink, State.reaching, hfound]
        dsimp only
        rw [if_pos hsink, hpending, List.append_assoc]
        rfl
      · rw [update_of_ne hstream]
        split
        · next hsame =>
            have hother : ¬ conn.sink = some held := by
              rw [hsink]
              exact fun heq => hstream (Option.some.inj heq).symm
            rw [State.reaching, hsame, hfound, if_neg hother]
            dsimp only
            rw [if_neg hother]
        · rfl

theorem deliver {after : State} (hinv : Inv state)
    (hfound : state.conns id = some conn) {room : Bool}
    (hstep : state.deliver id room conn = some after) : Inv after := by
  unfold State.deliver at hstep
  split at hstep
  · cases hstep
  · next frames hframes =>
      cases hstep
      have hprogress : Conn.Progress conn
          { conn with ackWaiter := none, frames } := by
        refine ⟨rfl, rfl, rfl, ?_⟩
        rw [Conn.pending, Conn.pending, hframes]
        exact List.Sublist.refl _
      have hrouted := hinv.progress hfound hprogress
      split
      · exact { hrouted with }
      · exact hrouted
  · next event frames hframes =>
      cases hstep
      have hprogress : Conn.Progress conn { conn with frames } := by
        refine ⟨rfl, rfl, rfl, ?_⟩
        rw [Conn.pending, Conn.pending, hframes]
        exact List.sublist_cons_self _ _
      have hrouted := hinv.progress hfound hprogress
      split
      · next stream hsink =>
          split
          · exact hinv.route hfound hframes hsink
          · exact hrouted
      · exact hrouted

theorem actConn {after : State} {move : ConnMove} (hinv : Inv state)
    (hstep : state.actConn id move = some after) : Inv after := by
  obtain ⟨conn, hfound, hmove⟩ := Option.bind_eq_some_iff.mp hstep
  have hsound := hinv.sound id conn hfound
  split at hmove
  · cases hmove
  · cases move with
    | serve =>
        obtain ⟨changed, hserve, rfl⟩ := Option.map_eq_some_iff.mp hmove
        exact hinv.progress hfound (Conn.serve_progress hserve)
    | arm =>
        obtain ⟨changed, harm, rfl⟩ := Option.map_eq_some_iff.mp hmove
        exact hinv.progress hfound (Conn.arm_progress harm)
    | recv forwarder =>
        obtain ⟨changed, hrecv, rfl⟩ := Option.map_eq_some_iff.mp hmove
        exact hinv.progress hfound (hsound.recv hrecv)
    | push forwarder =>
        obtain ⟨changed, hpush, rfl⟩ := Option.map_eq_some_iff.mp hmove
        exact hinv.progress hfound (hsound.push hpush)
    | lag forwarder missed =>
        obtain ⟨changed, hlag, rfl⟩ := Option.map_eq_some_iff.mp hmove
        exact hinv.progress hfound (hsound.lag hlag)
    | deliver room => exact hinv.deliver hfound hmove
    | eof =>
        cases hmove
        exact hinv.eof hfound

/-! ### Connecting and subscribing -/

theorem connect (hinv : Inv state) (hnew : state.conns id = none)
    (leader : ℕ) : Inv (state.withConn id (.connected leader)) where
  sound other found hother := by
    obtain ⟨rfl, rfl⟩ | ⟨-, hother⟩ := update_eq_some hother
    · exact Conn.sound_connected leader
    · exact hinv.sound other found hother
  fresh := hinv.fresh
  sinks other found stream hother hsink := by
    obtain ⟨rfl, rfl⟩ | ⟨-, hother⟩ := update_eq_some hother
    · cases hsink
    · exact hinv.sinks other found stream hother hsink
  holds holder other stream hholder := by
    obtain ⟨hbound, found, hother, hsink⟩ :=
      hinv.holds holder other stream hholder
    exact ⟨hbound, found, update_absent hnew hother, hsink⟩
  home holder place stream other found hholder hother hsink := by
    obtain ⟨rfl, rfl⟩ | ⟨-, hother⟩ := update_eq_some hother
    · cases hsink
    · exact hinv.home holder place stream other found hholder hother hsink
  alone := hinv.alone
  unsent holder other stream found hholder hother hopen := by
    obtain ⟨rfl, rfl⟩ | ⟨-, hother⟩ := update_eq_some hother
    · rfl
    · exact hinv.unsent holder other stream found hholder hother hopen
  ordered holder := by
    change Ascending state.published (state.received holder ++
      State.pending _ (state.phases holder))
    rw [@State.pending_congr state]
    · exact hinv.ordered holder
    · intro other stream hholder
      obtain ⟨-, found, hother, -⟩ := hinv.holds holder other stream hholder
      rw [reaching_withConn, if_neg fun hsame => ?_]
      · rfl
      · rw [hsame, hnew] at hother
        cases hother

theorem adopt {after : State} (hinv : Inv state) {outcome : Outcome}
    (hstep : state.adopt outcome = some after) : Inv after := by
  cases outcome with
  | leads host =>
      cases hstep
      exact hinv.withRole _
  | follows id leader =>
      dsimp only [State.adopt] at hstep
      split at hstep
      · next hnew =>
          cases hstep
          exact (hinv.connect hnew leader).withRole _
      · cases hstep
  | fails => cases hstep

/-- Nobody holds a stream of a live connection without a sink. -/
theorem elsewhere_of_idle (hinv : Inv state) (hfound : state.conns id = some conn)
    (hopen : conn.closed = false) (hsink : conn.sink = none)
    {holder other stream : ℕ}
    (hholder : (state.phases holder).held = some (other, stream)) :
    other ≠ id := by
  rintro rfl
  obtain ⟨-, found, hother, hroutes⟩ := hinv.holds holder other stream hholder
  cases hfound.symm.trans hother
  cases hsink.symm.trans (hroutes hopen)

/-- Once a subscriber is registered, a stream that is held is its new one, or
one of another connection that was held before. -/
theorem held_registered (hinv : Inv state) (hfound : state.conns id = some conn)
    (hopen : conn.closed = false) (hsink : conn.sink = none)
    {holder other stream : ℕ}
    (hholder : ((state.withPhase subscriber
      (.registered id state.nextStream)).phases holder).held =
        some (other, stream)) :
    (holder = subscriber ∧ other = id ∧ stream = state.nextStream) ∨
      (holder ≠ subscriber ∧ other ≠ id ∧ stream < state.nextStream ∧
        (state.phases holder).held = some (other, stream)) := by
  rw [phases_withPhase] at hholder
  split at hholder
  · next hsame =>
      cases hholder
      exact .inl ⟨hsame, rfl, rfl⟩
  · next hne =>
      exact .inr ⟨hne, hinv.elsewhere_of_idle hfound hopen hsink hholder,
        (hinv.holds holder other stream hholder).1, hholder⟩

/-- A new stream has brought nothing yet. -/
theorem ordered_registered (hinv : Inv state)
    (hfound : state.conns id = some conn)
    (hphase : state.phases subscriber = .subscribing id)
    (hopen : conn.closed = false) (hsink : conn.sink = none)
    (hpending : conn.pending = []) {sinking : Conn}
    (hsame : sinking.pending = conn.pending)
    (hroutes : sinking.sink = some state.nextStream) (holder : ℕ) :
    Ascending state.published (state.received holder ++
      State.pending (state.withConn id sinking)
        ((state.withPhase subscriber
          (.registered id state.nextStream)).phases holder)) := by
  have hordered := hinv.ordered holder
  rw [phases_withPhase]
  by_cases hholder : holder = subscriber
  · subst hholder
    rw [if_pos rfl]
    rw [hphase] at hordered
    refine hordered.sublist (List.Sublist.append_left ?_ _)
    change (state.streams state.nextStream ++
      (state.withConn id sinking).reaching id state.nextStream).Sublist []
    rw [hinv.fresh _ (Nat.le_refl _), reaching_withConn, if_pos rfl, hsame,
      hpending, if_pos hroutes]
    exact List.Sublist.refl _
  · rw [if_neg hholder, @State.pending_congr state]
    · exact hordered
    · intro other stream hheld
      change state.streams stream ++
        (state.withConn id sinking).reaching other stream = _
      rw [reaching_withConn,
        if_neg (hinv.elsewhere_of_idle hfound hopen hsink hheld)]

/-- The first subscription of a live connection. -/
theorem register (hinv : Inv state) (hfound : state.conns id = some conn)
    (hphase : state.phases subscriber = .subscribing id)
    (hopen : conn.closed = false) (hsink : conn.sink = none) :
    Inv { (state.withConn id
        { conn with
          sink := some state.nextStream
          ackWaiter := some state.nextStream }).withPhase subscriber
            (.registered id state.nextStream) with
      nextStream := state.nextStream + 1 } := by
  obtain ⟨hload, hpending⟩ := (hinv.sound id conn hfound).idle hsink
  have hback {holder other stream : ℕ} := @held_registered state id subscriber
    conn hinv hfound hopen hsink holder other stream
  refine
    { sound := fun other found hother => ?_
      fresh := fun stream hbound => hinv.fresh stream (Nat.le_of_succ_le hbound)
      sinks := fun other found stream hother hfoundSink => ?_
      holds := fun holder other stream hholder => ?_
      home := fun holder place stream other found hholder hother
        hfoundSink => ?_
      alone := fun first second place other stream hfirst hsecond => ?_
      unsent := fun holder other stream found hholder hother hlive => ?_
      ordered := fun holder => ?_ }
  · obtain ⟨rfl, rfl⟩ | ⟨-, hother⟩ := update_eq_some hother
    · refine ⟨hload ▸ Nat.zero_le 1, fun hnone => ?_, fun hclosed => ?_⟩
      · cases hnone
      · cases hopen.symm.trans hclosed
    · exact hinv.sound other found hother
  · obtain ⟨rfl, rfl⟩ | ⟨-, hother⟩ := update_eq_some hother
    · cases hfoundSink
      exact Nat.lt_succ_self _
    · exact Nat.lt_succ_of_lt
        (hinv.sinks other found stream hother hfoundSink)
  · rcases hback hholder with ⟨-, rfl, rfl⟩ | ⟨-, hne, hbound, hold⟩
    · exact ⟨Nat.lt_succ_self _, _, update_self .., fun _ => rfl⟩
    · obtain ⟨-, found, hother, hroutes⟩ := hinv.holds holder other stream hold
      exact ⟨Nat.lt_succ_of_lt hbound, found,
        (update_of_ne hne ..).trans hother, hroutes⟩
  · rcases hback hholder with ⟨-, rfl, rfl⟩ | ⟨-, hne, hbound, hold⟩
    · obtain ⟨rfl, -⟩ | ⟨-, hother⟩ := update_eq_some hother
      · rfl
      · exact absurd (hinv.sinks other found _ hother hfoundSink)
          (Nat.lt_irrefl _)
    · obtain ⟨rfl, rfl⟩ | ⟨-, hother⟩ := update_eq_some hother
      · cases hfoundSink
        exact absurd hbound (Nat.lt_irrefl _)
      · exact hinv.home holder place stream other found hold hother hfoundSink
  · rcases hback hfirst with ⟨rfl, -, rfl⟩ | ⟨-, -, hbound, hold⟩
    · rcases hback hsecond with ⟨rfl, -, -⟩ | ⟨-, -, hbound, -⟩
      · rfl
      · exact absurd hbound (Nat.lt_irrefl _)
    · rcases hback hsecond with ⟨-, -, rfl⟩ | ⟨-, -, -, hold'⟩
      · exact absurd hbound (Nat.lt_irrefl _)
      · exact hinv.alone first second place other stream hold hold'
  · obtain ⟨rfl, rfl⟩ | ⟨hne, hother⟩ := update_eq_some hother
    · exact hload
    · have hholder' : (state.withPhase subscriber
          (.registered id state.nextStream)).phases holder =
            .registered other stream := hholder
      rw [phases_withPhase] at hholder'
      split at hholder'
      · cases hholder'
        exact absurd rfl hne
      · exact hinv.unsent holder other stream found hholder' hother hlive
  · exact @ordered_registered state id subscriber conn hinv hfound hphase hopen
      hsink hpending
      { conn with
        sink := some state.nextStream
        ackWaiter := some state.nextStream } rfl rfl holder

theorem send (hinv : Inv state) {stream : ℕ} {ok : Bool}
    (hfound : state.conns id = some conn)
    (hphase : state.phases subscriber = .registered id stream) :
    Inv (state.send subscriber id stream ok conn) := by
  have hheld : (state.phases subscriber).held = some (id, stream) := by
    rw [hphase]
    rfl
  have hawaiting :
      Inv (state.withPhase subscriber (.awaiting id stream)) := by
    refine hinv.withPhase (.inr hheld.symm) nofun ?_
    rw [hphase]
    exact List.Sublist.refl _
  unfold State.send
  split
  · dsimp only
    split
    · exact hawaiting
    · next hlive =>
        rw [Bool.not_eq_true] at hlive
        have hload := hinv.unsent subscriber id stream conn hphase hfound hlive
        obtain ⟨-, found, hother, hroutes⟩ :=
          hinv.holds subscriber id stream hheld
        cases hfound.symm.trans hother
        have hsink := hroutes hlive
        refine hawaiting.withConn hfound ?_ (fun _ heq => heq)
          (fun _ => ⟨hlive, rfl⟩) ?_ (List.Sublist.refl _)
        · refine ⟨?_, fun hnone => ?_, fun hclosed => ?_⟩
          · rw [Conn.load] at hload ⊢
            dsimp only
            omega
          · cases hsink.symm.trans hnone
          · cases hlive.symm.trans hclosed
        · intro _ holder other hholder
          rw [phases_withPhase] at hholder
          split at hholder
          · cases hholder
          · next hne =>
              -- Another registration on the connection would have its sink.
              have hheld' : (state.phases holder).held = some (id, other) := by
                rw [hholder]
                rfl
              obtain ⟨-, found, hother', hroutes'⟩ :=
                hinv.holds holder id other hheld'
              cases hfound.symm.trans hother'
              cases hsink.symm.trans (hroutes' hlive)
              exact absurd (hinv.alone holder subscriber id id stream hheld'
                hheld) hne
  · exact hinv.release rfl rfl

theorem receive {after : State} (hinv : Inv state)
    (hstep : state.receive subscriber = some after) : Inv after := by
  have hordered := hinv.ordered subscriber
  unfold State.receive at hstep
  split at hstep
  · next host event queue hphase =>
      cases hstep
      refine hinv.advance (.inl rfl) nofun ?_
      rw [hphase] at hordered
      rw [List.append_assoc]
      exact hordered
  · next id stream hphase =>
      split at hstep
      · next event events hstream =>
          cases hstep
          have hheld : (state.phases subscriber).held = some (id, stream) := by
            rw [hphase]
            rfl
          refine { hinv with fresh := fun other hbound => ?_, ordered := ?_ }
          · have hlate : state.nextStream ≤ other := hbound
            have hearly := (hinv.holds subscriber id stream hheld).1
            change update state.streams stream events other = []
            rw [update_of_ne (by omega)]
            exact hinv.fresh other hlate
          · intro holder
            change Ascending state.published
              (update state.received subscriber
                (state.received subscriber ++ [event]) holder ++
                  State.pending _ (state.phases holder))
            by_cases hsame : holder = subscriber
            · rw [hsame, update_self, hphase]
              rw [hphase] at hordered
              change Ascending state.published
                (state.received subscriber ++ [event] ++
                  (update state.streams stream events stream ++
                    state.reaching id stream))
              rw [State.pending, hstream] at hordered
              rw [update_self, List.append_assoc]
              exact hordered
            · rw [update_of_ne hsame, @State.pending_congr state]
              · exact hinv.ordered holder
              · intro other held hholder
                have hne : held ≠ stream := by
                  rintro rfl
                  exact hsame (hinv.alone holder subscriber other id held
                    hholder hheld)
                change update state.streams stream events held ++ _ = _
                rw [update_of_ne hne]
                rfl
      · cases hstep
  · cases hstep

/-! ### Publishing -/

theorem held_publish (state : State) (host subscriber : ℕ) :
    ((state.publish host).phases subscriber).held =
      (state.phases subscriber).held := by
  unfold State.publish
  dsimp only
  split
  · next hphase =>
      rw [hphase]
      rfl
  · rfl

theorem conns_publish {host : ℕ} {found : Conn}
    (hfound : (state.publish host).conns id = some found) :
    ∃ conn, state.conns id = some conn ∧
      found = conn.publish host state.published := by
  obtain ⟨conn, hconn, rfl⟩ := Option.map_eq_some_iff.mp hfound
  exact ⟨conn, hconn, rfl⟩

theorem reaching_publish (hinv : Inv state) (host stream : ℕ) :
    (state.publish host).reaching id stream = state.reaching id stream ∨
      (state.publish host).reaching id stream =
        state.reaching id stream ++ [state.published] := by
  have hconns : (state.publish host).conns id =
      (state.conns id).map (.publish host state.published) := rfl
  rw [State.reaching, State.reaching, hconns]
  cases hfound : state.conns id with
  | none => exact .inl rfl
  | some conn =>
      dsimp only [Option.map_some]
      rw [Conn.sink_publish]
      split
      · exact (hinv.sound id conn hfound).pending_publish host state.published
      · exact .inl rfl

theorem pending_publish (hinv : Inv state) (host subscriber : ℕ) :
    (state.publish host).pending ((state.publish host).phases subscriber) =
        state.pending (state.phases subscriber) ∨
      (state.publish host).pending ((state.publish host).phases subscriber) =
        state.pending (state.phases subscriber) ++ [state.published] := by
  cases hheld : (state.phases subscriber).held with
  | some place =>
      have hheld' := (held_publish state host subscriber).trans hheld
      rw [State.pending_of_held _ hheld, State.pending_of_held _ hheld']
      rcases @reaching_publish state place.1 hinv host place.2 with
        hsame | hlater
      · rw [hsame]
        exact .inl rfl
      · rw [hlater, ← List.append_assoc]
        exact .inr rfl
  | none =>
      cases hphase : state.phases subscriber with
      | onLocal self queue =>
          have hafter : (state.publish host).phases subscriber = .onLocal self
              (if self = host then queue ++ [state.published] else queue) := by
            simp only [State.publish, hphase]
          rw [hafter]
          split
          · exact .inr rfl
          · exact .inl rfl
      | registered _ _ | awaiting _ _ | onRemote _ _ =>
          rw [hphase] at hheld
          cases hheld
      | _ =>
          left
          simp only [State.publish, hphase]
          rfl

theorem publish (hinv : Inv state) (host : ℕ) :
    Inv (state.publish host) where
  sound id conn hfound := by
    obtain ⟨conn, hconn, rfl⟩ := conns_publish hfound
    exact (hinv.sound id conn hconn).publish host state.published
  fresh := hinv.fresh
  sinks id conn stream hfound hsink := by
    obtain ⟨conn, hconn, rfl⟩ := conns_publish hfound
    rw [Conn.sink_publish] at hsink
    exact hinv.sinks id conn stream hconn hsink
  holds subscriber id stream hholder := by
    rw [held_publish] at hholder
    obtain ⟨hbound, conn, hconn, hroutes⟩ :=
      hinv.holds subscriber id stream hholder
    refine ⟨hbound, conn.publish host state.published, ?_, ?_⟩
    · exact Option.map_eq_some_iff.mpr ⟨conn, hconn, rfl⟩
    · rw [Conn.closed_publish, Conn.sink_publish]
      exact hroutes
  home subscriber id stream other conn hholder hfound hsink := by
    rw [held_publish] at hholder
    obtain ⟨conn, hconn, rfl⟩ := conns_publish hfound
    rw [Conn.sink_publish] at hsink
    exact hinv.home subscriber id stream other conn hholder hconn hsink
  alone first second id other stream hfirst hsecond := by
    rw [held_publish] at hfirst hsecond
    exact hinv.alone first second id other stream hfirst hsecond
  unsent subscriber id stream conn hphase hfound hopen := by
    obtain ⟨conn, hconn, rfl⟩ := conns_publish hfound
    rw [Conn.closed_publish] at hopen
    rw [Conn.load_publish]
    refine hinv.unsent subscriber id stream conn ?_ hconn hopen
    unfold State.publish at hphase
    dsimp only at hphase
    split at hphase
    · cases hphase
    · exact hphase
  ordered subscriber := by
    have hordered := hinv.ordered subscriber
    change Ascending (state.published + 1)
      (state.received subscriber ++ State.pending _ _)
    rcases hinv.pending_publish host subscriber with hsame | hlater
    · rw [hsame]
      exact hordered.later
    · rw [hlater, ← List.append_assoc]
      exact hordered.snoc

/-! ### Every step -/

theorem reacquire {after : State} (hinv : Inv state) {stale : ℕ}
    {outcome : Outcome}
    (hstep : state.reacquire subscriber stale outcome = some after) :
    Inv after := by
  unfold State.reacquire at hstep
  split at hstep
  · cases hstep
    exact hinv.release rfl rfl
  · split at hstep
    · split at hstep
      · cases hstep
        exact hinv.release rfl rfl
      · obtain ⟨adopted, hadopt, rfl⟩ := Option.map_eq_some_iff.mp hstep
        exact (hinv.adopt hadopt).release rfl rfl
    · cases hstep
      exact hinv.release rfl rfl

theorem attach (hinv : Inv state) : Inv (state.attach subscriber) := by
  unfold State.attach
  split <;> exact hinv.release rfl rfl

theorem actLoop {after : State} {move : LoopMove} (hinv : Inv state)
    (honce : SubscribedOnce state (.loop subscriber move))
    (hstep : state.actLoop subscriber move = some after) : Inv after := by
  unfold State.actLoop at hstep
  split at hstep
  · cases hstep
    exact hinv.release rfl rfl
  · cases hstep
    exact hinv.attach
  · next id hphase =>
      obtain ⟨conn, hfound, rfl⟩ := Option.map_eq_some_iff.mp hstep
      unfold State.register
      split
      · exact hinv.release rfl rfl
      · next hlive =>
          rw [Bool.not_eq_true] at hlive
          exact hinv.register hfound hphase hlive
            (honce id conn hphase hfound hlive)
  · next ok id stream hphase =>
      obtain ⟨conn, hfound, rfl⟩ := Option.map_eq_some_iff.mp hstep
      exact hinv.send hfound hphase
  · next id stream hphase =>
      split at hstep
      · cases hstep
        refine hinv.withPhase (.inr ?_) nofun ?_
        · rw [hphase]
          rfl
        · rw [hphase]
          exact List.Sublist.refl _
      · cases hstep
  · cases hstep
    exact hinv.release rfl rfl
  · exact hinv.receive hstep
  · split at hstep
    · cases hstep
      exact hinv.release rfl rfl
    · cases hstep
  · cases hstep
    exact hinv.release rfl rfl
  · exact hinv.reacquire hstep
  · cases hstep
    exact hinv.release rfl rfl
  · cases hstep
    exact hinv.release rfl rfl
  · cases hstep

theorem step {after : State} {label : Label} (hinv : Inv state)
    (honce : SubscribedOnce state label) (hstep : Step state label after) :
    Inv after := by
  cases label with
  | loop subscriber move => exact hinv.actLoop honce hstep
  | conn id move => exact hinv.actConn hstep
  | publish host =>
      cases hstep
      exact hinv.publish host
  | lagLocal subscriber missed =>
      dsimp only [Step, State.act] at hstep
      unfold State.lagLocal at hstep
      split at hstep
      · next host queue hphase =>
          cases hstep
          refine hinv.withPhase (.inl rfl) nofun ?_
          rw [hphase]
          exact List.drop_sublist missed queue
      · cases hstep
  | rerace outcome =>
      dsimp only [Step, State.act] at hstep
      split at hstep
      · exact hinv.adopt hstep
      · cases hstep
  | shutdown =>
      cases hstep
      exact hinv.withRole .closed

theorem faithful (hinv : Inv state) : Faithful state where
  ordered subscriber :=
    (hinv.ordered subscriber).ordered.sublist (List.sublist_append_left _ _)
  undisplaced subscriber id stream conn hholder hfound hopen := by
    obtain ⟨-, found, hother, hroutes⟩ :=
      hinv.holds subscriber id stream hholder
    cases hfound.symm.trans hother
    exact hroutes hopen

end Inv

theorem inv_blank : Inv State.blank where
  sound := by
    intro id conn hfound
    cases hfound
  fresh _ _ := rfl
  sinks := by
    intro id conn stream hfound
    cases hfound
  holds := by
    intro subscriber id stream hholder
    cases hholder
  home := by
    intro subscriber id stream other conn hholder
    cases hholder
  alone := by
    intro first second id other stream hholder
    cases hholder
  unsent := by
    intro subscriber id stream conn hphase
    cases hphase
  ordered _ := ⟨.nil, nofun⟩

/-- **Subscriptions.** While no live connection is subscribed a second time, a
subscriber receives no event twice, those it receives in the order they were
published, and its stream is where the events of its connection are routed. -/
theorem subscribers_faithful (state : State)
    (hreach : Reachable Acquired Step SubscribedOnce state) :
    Faithful state := by
  have hinv : Inv state := by
    refine hreach.invariant ?_ ?_
    · rintro start ⟨outcome, hadopt⟩
      exact inv_blank.adopt hadopt
    · intro before label after hbefore honce hstep
      exact hbefore.step honce hstep
  exact hinv.faithful

/-! ### One subscriber, and two -/

/-- A follower whose leader is the one numbered 5. -/
def following : State :=
  { State.blank.withConn 0 (.connected 5) with role := .follower 0 }

theorem acquired_following : Acquired following :=
  ⟨.follows 0 5, rfl⟩

/-- What becomes of a registration: it is sent, acked and served. -/
def subscription (subscriber : ℕ) : List Label :=
  [.loop subscriber (.send true), .conn 0 .serve, .conn 0 .arm,
    .conn 0 (.deliver true), .loop subscriber .acked]

/-- The first subscriber has registered with the connection. -/
def registered : State :=
  { (following.withConn 0
      { Conn.connected 5 with
        sink := some 0
        ackWaiter := some 0 }) with
    phases := update (update (update following.phases 0 .attaching) 0
      (.subscribing 0)) 0 (.registered 0 0)
    nextStream := 1 }

/-- The steps that register nobody. -/
def actServed (state : State) (label : Label) : Option State :=
  match label with
  | .loop _ .register => none
  | _ => state.act label

theorem step_of_actServed {before after : State} {label : Label}
    (hact : actServed before label = some after) :
    SubscribedOnce before label ∧ Step before label after := by
  unfold actServed at hact
  split at hact
  · cases hact
  · next hnever =>
      refine ⟨?_, hact⟩
      cases label with
      | loop subscriber move =>
          cases move with
          | register => exact absurd rfl (hnever subscriber)
          | _ => exact trivial
      | _ => exact trivial

theorem reachable_registered :
    Reachable Acquired Step SubscribedOnce registered := by
  have hstart : Reachable Acquired Step SubscribedOnce following :=
    .initial acquired_following
  have hattaching : Reachable Acquired Step SubscribedOnce
      (following.withPhase 0 .attaching) :=
    @Reachable.step _ _ _ _ _ _ _ (.loop 0 .subscribe) hstart trivial rfl
  have hsubscribing : Reachable Acquired Step SubscribedOnce
      ((following.withPhase 0 .attaching).withPhase 0 (.subscribing 0)) :=
    @Reachable.step _ _ _ _ _ _ _ (.loop 0 .attach) hattaching trivial rfl
  refine @Reachable.step _ _ _ _ _ _ _ (.loop 0 .register) hsubscribing ?_ rfl
  intro id conn hphase hfound hopen
  cases hphase
  cases hfound
  rfl

/-- An event is published, forwarded and received. -/
def firstEvent : List Label :=
  [.publish 5, .conn 0 (.recv 0), .conn 0 (.push 0), .conn 0 (.deliver true),
    .loop 0 .receive]

theorem subscribers_faithful_once :
    ∃ state, Reachable Acquired Step SubscribedOnce state ∧
      state.received 0 = [0] ∧ Faithful state := by
  have hevents : ((subscription 0 ++ firstEvent).foldlM actServed
      registered).map (State.received · 0) = some [0] := by
    decide +kernel
  obtain ⟨state, hrun, hreceived⟩ := Option.map_eq_some_iff.mp hevents
  have hact (before : State) (label : Label) (after : State)
      (hserved : actServed before label = some after) :
      SubscribedOnce before label ∧ Step before label after :=
    step_of_actServed hserved
  have hreach : Reachable Acquired Step SubscribedOnce state :=
    reachable_registered.foldlM hact hrun
  exact ⟨state, hreach, hreceived, subscribers_faithful state hreach⟩

/-- A second subscription of the connection: its events go to the second
subscriber alone, who has each of them twice. -/
def secondSubscription : List Label :=
  [.loop 1 .subscribe, .loop 1 .attach, .loop 1 .register] ++
    subscription 1 ++ [.publish 5, .conn 0 (.recv 0), .conn 0 (.recv 1),
      .conn 0 (.push 0), .conn 0 (.push 1), .conn 0 (.deliver true),
      .conn 0 (.deliver true), .loop 1 .receive, .loop 1 .receive]

theorem secondSubscription_not_faithful :
    ¬ ∀ state, Reachable Acquired Step anyStep state → Faithful state := by
  intro hfaithful
  have hevents : ((subscription 0 ++ secondSubscription).foldlM State.act
      registered).map (State.received · 1) = some [0, 0] := by
    decide +kernel
  obtain ⟨state, hrun, hreceived⟩ := Option.map_eq_some_iff.mp hevents
  have hact (before : State) (label : Label) (after : State)
      (hstep : before.act label = some after) :
      anyStep before label ∧ Step before label after :=
    ⟨trivial, hstep⟩
  have hreach : Reachable Acquired Step anyStep state :=
    reachable_registered.anyStep.foldlM hact hrun
  have hordered := (hfaithful state hreach).ordered 1
  rw [hreceived] at hordered
  exact absurd hordered (by decide)

end Mandala.Context.Subscription
