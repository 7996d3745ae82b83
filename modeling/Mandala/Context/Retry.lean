import Mandala.Context.Session

/-!
# The retry discipline of a session

An id is minted for one call, so a frame with that id answers that call.  What
a call has spent on executions is told by its phase, and a phase of a second
attempt is that of an idempotent call.
-/

namespace Mandala.Context.Session

open Function Mandala.Data Mandala.Transition
open Subscription (Role)
open Endpoint (Frame Outcome resultFrame)

/-! ## Calls and connections -/

section Lookup
variable {state : State}

theorem calls_goto (state : State) (call other : ℕ) (phase : CallPhase) :
    (state.goto call phase).calls other =
      if other = call then phase else state.calls other :=
  update_apply ..

theorem conns_withConn (state : State) (id other : ℕ) (conn : Conn) :
    (state.withConn id conn).conns other =
      if other = id then some conn else state.conns other :=
  update_apply ..

end Lookup

namespace CallPhase

/-- The connection and the id minted there that the call goes by. -/
def ticket : CallPhase → Option (ℕ × ℕ)
  | .minted _ conn id | .registered _ conn id | .awaiting _ conn id =>
      some (conn, id)
  | _ => none

/-- The id is minted and not registered yet. -/
def unregistered : CallPhase → Option (ℕ × ℕ)
  | .minted _ conn id => some (conn, id)
  | _ => none

theorem ticket_of_unregistered {phase : CallPhase} {place : ℕ × ℕ}
    (hplace : phase.unregistered = some place) : phase.ticket = some place := by
  cases phase with
  | minted attempt conn id => exact hplace
  | _ => cases hplace

end CallPhase

/-- What is neither minted nor settled. -/
def Event.plain : Event → Bool
  | .minted .. | .settled .. | .drained .. => false
  | _ => true

theorem settled_snoc {history : List Event} {event : Event} {conn waiter : ℕ} :
    Settled (history ++ [event]) conn waiter ↔
      Settled history conn waiter ∨ Settled [event] conn waiter := by
  constructor
  · rintro (⟨frame, outcome, hmem⟩ | ⟨waiters, hmem, hwaiter⟩)
    · rcases List.mem_append.mp hmem with hold | hnew
      · exact .inl (.inl ⟨frame, outcome, hold⟩)
      · exact .inr (.inl ⟨frame, outcome, hnew⟩)
    · rcases List.mem_append.mp hmem with hold | hnew
      · exact .inl (.inr ⟨waiters, hold, hwaiter⟩)
      · exact .inr (.inr ⟨waiters, hnew, hwaiter⟩)
  · rintro ((⟨frame, outcome, hold⟩ | ⟨waiters, hold, hwaiter⟩) |
      (⟨frame, outcome, hnew⟩ | ⟨waiters, hnew, hwaiter⟩))
    · exact .inl ⟨frame, outcome, List.mem_append_left _ hold⟩
    · exact .inr ⟨waiters, List.mem_append_left _ hold, hwaiter⟩
    · exact .inl ⟨frame, outcome, List.mem_append_right _ hnew⟩
    · exact .inr ⟨waiters, List.mem_append_right _ hnew, hwaiter⟩

theorem not_settled_of_plain {event : Event} (hplain : event.plain = true)
    (conn waiter : ℕ) : ¬ Settled [event] conn waiter := by
  rintro (⟨frame, outcome, hmem⟩ | ⟨waiters, hmem, -⟩)
  · rw [List.mem_singleton] at hmem
    subst hmem
    cases hplain
  · rw [List.mem_singleton] at hmem
    subst hmem
    cases hplain

/-! ## The wire -/

/-- An id was minted for a call that an execution came to that outcome of. -/
def Answers (history : List Event) (conn id : ℕ) (outcome : Outcome) : Prop :=
  ∃ call, .minted conn id call ∈ history ∧ .executed call outcome ∈ history

/-- What one connection carries, given what has happened. -/
structure Carries (history : List Event) (id : ℕ) (conn : Conn) : Prop where
  requests : ∀ request ∈ conn.requests, .minted id request.1 request.2 ∈ history
  tasks : ∀ request ∈ conn.tasks, .minted id request.1 request.2 ∈ history
  results : ∀ frame ∈ conn.results, ∀ waiter outcome,
    settlement frame = some (waiter, outcome) →
      Answers history id waiter outcome
  cells : ∀ waiter outcome, conn.cells waiter = some (.answer outcome) →
    Answers history id waiter outcome
  waiters : ∀ waiter ∈ conn.waiters, ¬ Settled history id waiter ∧
    ∃ call, .minted id waiter call ∈ history

structure Wire (state : State) : Prop where
  carries : ∀ id conn, state.conns id = some conn →
    Carries state.history id conn
  minted : ∀ id waiter call, .minted id waiter call ∈ state.history →
    ∃ conn, state.conns id = some conn ∧ waiter < conn.nextId
  unique : ∀ id waiter call other, .minted id waiter call ∈ state.history →
    .minted id waiter other ∈ state.history → call = other
  settled : ∀ id waiter, Settled state.history id waiter →
    ∃ call, .minted id waiter call ∈ state.history
  holds : ∀ call id waiter, (state.calls call).ticket = some (id, waiter) →
    .minted id waiter call ∈ state.history
  fresh : ∀ call id waiter,
    (state.calls call).unregistered = some (id, waiter) →
      ¬ Settled state.history id waiter ∧
        ∀ conn, state.conns id = some conn → waiter ∉ conn.waiters

theorem Answers.mono {history later : List Event} {conn id : ℕ}
    {outcome : Outcome} (hanswers : Answers history conn id outcome)
    (hlater : history ⊆ later) : Answers later conn id outcome := by
  obtain ⟨call, hminted, hexecuted⟩ := hanswers
  exact ⟨call, hlater hminted, hlater hexecuted⟩

/-- More has happened, and none of the waiters was settled by it. -/
theorem Carries.snoc {history : List Event} {event : Event} {id : ℕ}
    {conn : Conn} (hcarries : Carries history id conn)
    (hsettled : ∀ waiter ∈ conn.waiters, ¬ Settled [event] id waiter) :
    Carries (history ++ [event]) id conn := by
  have hlater : history ⊆ history ++ [event] := List.subset_append_left _ _
  exact
    { requests := fun request hmem => hlater (hcarries.requests request hmem)
      tasks := fun request hmem => hlater (hcarries.tasks request hmem)
      results := fun frame hmem waiter outcome hsettlement =>
        (hcarries.results frame hmem waiter outcome hsettlement).mono hlater
      cells := fun waiter outcome hcell =>
        (hcarries.cells waiter outcome hcell).mono hlater
      waiters := fun waiter hmem => by
        obtain ⟨hnever, call, hminted⟩ := hcarries.waiters waiter hmem
        refine ⟨fun hnow => ?_, call, hlater hminted⟩
        rcases settled_snoc.mp hnow with hold | hnew
        · exact hnever hold
        · exact hsettled waiter hmem hnew }

namespace Wire
variable {state : State} {call id : ℕ} {conn changed : Conn}

/-- Something happens that mints and settles nothing. -/
theorem note (hwire : Wire state) {event : Event}
    (hplain : event.plain = true) : Wire (state.note event) := by
  have hlater : state.history ⊆ state.history ++ [event] :=
    List.subset_append_left _ _
  have hback {conn waiter call : ℕ}
      (hmem : .minted conn waiter call ∈ state.history ++ [event]) :
      .minted conn waiter call ∈ state.history := by
    rcases List.mem_append.mp hmem with hold | hnew
    · exact hold
    · rw [List.mem_singleton] at hnew
      subst hnew
      cases hplain
  have hsettled {conn waiter : ℕ}
      (hnow : Settled (state.history ++ [event]) conn waiter) :
      Settled state.history conn waiter :=
    (settled_snoc.mp hnow).resolve_right (not_settled_of_plain hplain _ _)
  exact
    { carries := fun id conn hfound =>
        (hwire.carries id conn hfound).snoc fun waiter _ =>
          not_settled_of_plain hplain id waiter
      minted := fun id waiter call hmem =>
        hwire.minted id waiter call (hback hmem)
      unique := fun id waiter call other hmem hother =>
        hwire.unique id waiter call other (hback hmem) (hback hother)
      settled := fun id waiter hnow => by
        obtain ⟨call, hminted⟩ := hwire.settled id waiter (hsettled hnow)
        exact ⟨call, hlater hminted⟩
      holds := fun call id waiter hticket =>
        hlater (hwire.holds call id waiter hticket)
      fresh := fun call id waiter hunregistered => by
        obtain ⟨hnever, hnot⟩ := hwire.fresh call id waiter hunregistered
        exact ⟨fun hnow => hnever (hsettled hnow), hnot⟩ }

/-- A call goes on with the ticket it has, or without one. -/
theorem goto (hwire : Wire state) {phase : CallPhase}
    (hticket : phase.ticket = none ∨
      phase.ticket = (state.calls call).ticket)
    (hregistered : phase.unregistered = none) :
    Wire (state.goto call phase) where
  carries := hwire.carries
  minted := hwire.minted
  unique := hwire.unique
  settled := hwire.settled
  holds other id waiter hother := by
    rw [calls_goto] at hother
    split at hother
    · next hsame =>
        rcases hticket with hnone | hkept
        · rw [hnone] at hother
          cases hother
        · exact hwire.holds other id waiter (hsame ▸ hkept.symm.trans hother)
    · exact hwire.holds other id waiter hother
  fresh other id waiter hother := by
    rw [calls_goto] at hother
    split at hother
    · rw [hregistered] at hother
      cases hother
    · exact hwire.fresh other id waiter hother

theorem withRole (hwire : Wire state) (role : Role) :
    Wire (state.withRole role) :=
  { hwire with }

/-- The ids below a connection's counter stay below it. -/
theorem below_withConn {other waiter : ℕ} (hfound : state.conns id = some conn)
    (hgrows : conn.nextId ≤ changed.nextId)
    (hold : ∃ found, state.conns other = some found ∧ waiter < found.nextId) :
    ∃ found, (state.withConn id changed).conns other = some found ∧
      waiter < found.nextId := by
  obtain ⟨found, hother, hbound⟩ := hold
  rw [conns_withConn]
  split
  · next hsame =>
      subst hsame
      cases hfound.symm.trans hother
      exact ⟨changed, rfl, hbound.trans_le hgrows⟩
  · exact ⟨found, hother, hbound⟩

/-- The connection moves frames along. -/
theorem withConn (hwire : Wire state) (hfound : state.conns id = some conn)
    (hnextId : changed.nextId = conn.nextId)
    (hwaiters : changed.waiters = conn.waiters)
    (hcarries : Carries state.history id changed) :
    Wire (state.withConn id changed) where
  carries other found hother := by
    obtain ⟨rfl, rfl⟩ | ⟨-, hother⟩ := update_eq_some hother
    · exact hcarries
    · exact hwire.carries other found hother
  minted other waiter call hmem := by
    exact below_withConn hfound hnextId.ge (hwire.minted other waiter call hmem)
  unique := hwire.unique
  settled := hwire.settled
  holds := hwire.holds
  fresh call other waiter hunregistered := by
    obtain ⟨hnever, hnot⟩ := hwire.fresh call other waiter hunregistered
    refine ⟨hnever, fun found hother => ?_⟩
    obtain ⟨rfl, rfl⟩ | ⟨-, hother⟩ := update_eq_some hother
    · rw [hwaiters]
      exact hnot conn hfound
    · exact hnot found hother

theorem connect (hwire : Wire state) (hnew : state.conns id = none) :
    Wire (state.withConn id .connected) where
  carries other found hother := by
    obtain ⟨rfl, rfl⟩ | ⟨-, hother⟩ := update_eq_some hother
    · exact ⟨nofun, nofun, nofun, nofun, nofun⟩
    · exact hwire.carries other found hother
  minted other waiter call hmem := by
    obtain ⟨found, hother, hbound⟩ := hwire.minted other waiter call hmem
    exact ⟨found, update_absent hnew hother, hbound⟩
  unique := hwire.unique
  settled := hwire.settled
  holds := hwire.holds
  fresh call other waiter hunregistered := by
    obtain ⟨hnever, hnot⟩ := hwire.fresh call other waiter hunregistered
    refine ⟨hnever, fun found hother => ?_⟩
    obtain ⟨rfl, rfl⟩ | ⟨-, hother⟩ := update_eq_some hother
    · exact List.not_mem_nil
    · exact hnot found hother

/-! ### A call over the wire -/

/-- The next id of a connection is not minted yet. -/
theorem not_minted_nextId (hwire : Wire state) (hfound : state.conns id = some conn)
    (other : ℕ) : .minted id conn.nextId other ∉ state.history := by
  intro hmem
  obtain ⟨found, hother, hbound⟩ := hwire.minted id conn.nextId other hmem
  cases hfound.symm.trans hother
  exact Nat.lt_irrefl _ hbound

theorem not_settled_minted (id waiter call other answered : ℕ) :
    ¬ Settled [.minted id waiter call] other answered := by
  rintro (⟨frame, outcome, hmem⟩ | ⟨waiters, hmem, -⟩)
  · cases List.mem_singleton.mp hmem
  · cases List.mem_singleton.mp hmem

theorem minted_snoc_cases {history : List Event}
    {id waiter call other answered caller : ℕ}
    (hmem : .minted other answered caller ∈
      history ++ [.minted id waiter call]) :
    .minted other answered caller ∈ history ∨
      (other = id ∧ answered = waiter ∧ caller = call) := by
  rcases List.mem_append.mp hmem with hold | hnow
  · exact .inl hold
  · cases List.mem_singleton.mp hnow
    exact .inr ⟨rfl, rfl, rfl⟩

/-- Minting an id leaves the waiters of every connection alone. -/
theorem waiters_mint {attempt : Attempt} (hfound : state.conns id = some conn)
    {other : ℕ} {found : Conn}
    (hother : (state.mint call attempt id conn).conns other = some found) :
    ∃ earlier, state.conns other = some earlier ∧
      found.waiters = earlier.waiters := by
  obtain ⟨rfl, rfl⟩ | ⟨-, hother⟩ := update_eq_some hother
  · exact ⟨conn, hfound, rfl⟩
  · exact ⟨found, hother, rfl⟩

theorem mint (hwire : Wire state) {attempt : Attempt}
    (hfound : state.conns id = some conn) :
    Wire (state.mint call attempt id conn) := by
  have hlater : state.history ⊆
      state.history ++ [.minted id conn.nextId call] :=
    List.subset_append_left _ _
  have hnone := not_settled_minted id conn.nextId call
  have hnew := hwire.not_minted_nextId hfound
  have hsettled {other waiter : ℕ}
      (hnow : Settled (state.history ++ [.minted id conn.nextId call]) other
        waiter) : Settled state.history other waiter :=
    (settled_snoc.mp hnow).resolve_right (hnone other waiter)
  refine
    { carries := fun other found hother => ?_
      minted := fun other waiter caller hmem => ?_
      unique := fun other waiter caller rival hmem hrival => ?_
      settled := fun other waiter hnow => ?_
      holds := fun caller other waiter hticket => ?_
      fresh := fun caller other waiter hunregistered => ?_ }
  · obtain ⟨rfl, rfl⟩ | ⟨-, hother⟩ := update_eq_some hother
    · have hcarries := (hwire.carries id conn hfound).snoc
        fun waiter _ => hnone id waiter
      exact { hcarries with }
    · exact (hwire.carries other found hother).snoc
        fun waiter _ => hnone other waiter
  · rcases minted_snoc_cases hmem with hold | ⟨rfl, rfl, rfl⟩
    · exact below_withConn hfound (Nat.le_succ _)
        (hwire.minted other waiter caller hold)
    · exact ⟨_, update_self .., Nat.lt_succ_self _⟩
  · rcases minted_snoc_cases hmem with hold | ⟨rfl, rfl, rfl⟩
    · rcases minted_snoc_cases hrival with hold' | ⟨rfl, rfl, rfl⟩
      · exact hwire.unique other waiter caller rival hold hold'
      · exact absurd hold (hnew caller)
    · rcases minted_snoc_cases hrival with hold' | ⟨-, -, rfl⟩
      · exact absurd hold' (hnew rival)
      · rfl
  · obtain ⟨caller, hminted⟩ := hwire.settled other waiter (hsettled hnow)
    exact ⟨caller, hlater hminted⟩
  · replace hticket : ((state.goto call (.minted attempt id
        conn.nextId)).calls caller).ticket = some (other, waiter) := hticket
    rw [calls_goto] at hticket
    split at hticket
    · next hsame =>
        cases hticket
        rw [hsame]
        exact List.mem_append_right _ (List.mem_singleton_self _)
    · exact hlater (hwire.holds caller other waiter hticket)
  · replace hunregistered : ((state.goto call (.minted attempt id
        conn.nextId)).calls caller).unregistered = some (other, waiter) :=
      hunregistered
    rw [calls_goto] at hunregistered
    split at hunregistered
    · cases hunregistered
      refine ⟨fun hnow => ?_, fun found hother => ?_⟩
      · obtain ⟨caller, hminted⟩ := hwire.settled _ _ (hsettled hnow)
        exact hnew caller hminted
      · obtain ⟨earlier, hearlier, hwaiters⟩ := waiters_mint hfound hother
        cases hfound.symm.trans hearlier
        rw [hwaiters]
        intro hwaits
        obtain ⟨-, caller, hminted⟩ :=
          (hwire.carries id conn hfound).waiters conn.nextId hwaits
        exact hnew caller hminted
    · obtain ⟨hnever, hnot⟩ := hwire.fresh caller other waiter hunregistered
      refine ⟨fun hnow => hnever (hsettled hnow), fun found hother => ?_⟩
      obtain ⟨earlier, hearlier, hwaiters⟩ := waiters_mint hfound hother
      rw [hwaiters]
      exact hnot earlier hearlier

/-- The id is registered by the call it was minted for, and by no other. -/
theorem register (hwire : Wire state) {attempt : Attempt} {waiter : ℕ}
    (hfound : state.conns id = some conn)
    (hphase : state.calls call = .minted attempt id waiter) :
    Wire ((state.goto call (.registered attempt id waiter)).withConn id
      { conn with waiters := conn.waiters ++ [waiter] }) := by
  have hminted : .minted id waiter call ∈ state.history := by
    apply hwire.holds
    rw [hphase]
    rfl
  obtain ⟨hnever, hnot⟩ := hwire.fresh call id waiter (by
    rw [hphase]
    rfl)
  have hgone : Wire (state.goto call (.registered attempt id waiter)) := by
    refine hwire.goto (.inr ?_) rfl
    rw [hphase]
    rfl
  have hcarries := hwire.carries id conn hfound
  refine
    { carries := fun other found hother => ?_
      minted := fun other held caller hmem => ?_
      unique := hgone.unique
      settled := hgone.settled
      holds := hgone.holds
      fresh := fun caller other held hunregistered => ?_ }
  · obtain ⟨rfl, rfl⟩ | ⟨-, hother⟩ := update_eq_some hother
    · refine { hcarries with waiters := fun held hheld => ?_ }
      rcases List.mem_append.mp hheld with hold | hnew
      · exact hcarries.waiters held hold
      · rw [List.mem_singleton.mp hnew]
        exact ⟨hnever, call, hminted⟩
    · exact hwire.carries other found hother
  · exact below_withConn hfound le_rfl (hwire.minted other held caller hmem)
  · replace hunregistered : ((state.goto call (.registered attempt id
        waiter)).calls caller).unregistered = some (other, held) :=
      hunregistered
    obtain ⟨hnever', hnot'⟩ := hgone.fresh caller other held hunregistered
    refine ⟨hnever', fun found hother => ?_⟩
    obtain ⟨rfl, rfl⟩ | ⟨-, hother⟩ := update_eq_some hother
    · intro hwaits
      rcases List.mem_append.mp hwaits with hold | hnew
      · exact hnot' conn hfound hold
      · -- The id would be that of another call's ticket.
        rw [List.mem_singleton] at hnew
        subst hnew
        have hother' : caller ≠ call := by
          rintro rfl
          rw [calls_goto, if_pos rfl] at hunregistered
          cases hunregistered
        rw [calls_goto, if_neg hother'] at hunregistered
        refine hother' (hwire.unique id held caller call ?_ hminted)
        exact hwire.holds caller id held
          (CallPhase.ticket_of_unregistered hunregistered)
    · exact hnot' found hother

theorem send (hwire : Wire state) {attempt : Attempt} {waiter : ℕ}
    (hfound : state.conns id = some conn)
    (hphase : state.calls call = .registered attempt id waiter) :
    Wire (((state.goto call (.awaiting attempt id waiter)).withConn id
      { conn with requests := conn.requests ++ [(waiter, call)] }).note
        (.sent call id)) := by
  have hminted : .minted id waiter call ∈ state.history := by
    apply hwire.holds
    rw [hphase]
    rfl
  have hcarries := hwire.carries id conn hfound
  have hgone : Wire (state.goto call (.awaiting attempt id waiter)) := by
    refine hwire.goto (.inr ?_) rfl
    rw [hphase]
    rfl
  have hmoved : Wire ((state.goto call (.awaiting attempt id waiter)).withConn
      id { conn with requests := conn.requests ++ [(waiter, call)] }) := by
    refine hgone.withConn hfound rfl rfl
      { hcarries with requests := fun request hmem => ?_ }
    rcases List.mem_append.mp hmem with hold | hnew
    · exact hcarries.requests request hold
    · rw [List.mem_singleton.mp hnew]
      exact hminted
  exact hmoved.note rfl

/-! ### The leader and the reader -/

theorem take {after : State} (hwire : Wire state)
    (hfound : state.conns id = some conn)
    (hstep : state.take id conn = some after) : Wire after := by
  have hcarries := hwire.carries id conn hfound
  unfold State.take at hstep
  split at hstep
  · next request requests hrequests =>
      cases hstep
      have hall := hcarries.requests
      rw [hrequests] at hall
      refine hwire.withConn hfound rfl rfl
        { hcarries with
          requests := fun other hmem => hall other (List.mem_cons_of_mem _ hmem)
          tasks := fun other hmem => ?_ }
      rcases List.mem_append.mp hmem with hold | hnew
      · exact hcarries.tasks other hold
      · rw [List.mem_singleton.mp hnew]
        exact hall request List.mem_cons_self
  · cases hstep

theorem finishTask {after : State} (hwire : Wire state)
    (hfound : state.conns id = some conn) {task : ℕ} {outcome : Outcome}
    (hstep : state.finishTask id conn task outcome = some after) :
    Wire after := by
  obtain ⟨request, hrequest, rfl⟩ := Option.map_eq_some_iff.mp hstep
  have hnoted : Wire (state.note (.executed request.2 outcome)) :=
    hwire.note rfl
  have hcarries := hnoted.carries id conn hfound
  refine hnoted.withConn hfound rfl rfl
    { hcarries with
      tasks := fun other hmem =>
        hcarries.tasks other (List.mem_of_mem_eraseIdx hmem)
      results := fun frame hmem waiter found hsettlement => ?_ }
  rcases List.mem_append.mp hmem with hold | hnew
  · exact hcarries.results frame hold waiter found hsettlement
  · rw [List.mem_singleton.mp hnew, settlement_resultFrame] at hsettlement
    cases hsettlement
    refine ⟨request.2, ?_, List.mem_append_right _ (List.mem_singleton_self _)⟩
    exact hcarries.tasks request (List.mem_of_getElem? hrequest)

/-- Some of the waiters of a connection are settled. -/
theorem settle (hwire : Wire state) {event : Event}
    (hfound : state.conns id = some conn)
    (hnextId : changed.nextId = conn.nextId)
    (hwaiters : changed.waiters ⊆ conn.waiters)
    (hevent : ∀ other waiter, Settled [event] other waiter →
      other = id ∧ waiter ∈ conn.waiters ∧ waiter ∉ changed.waiters)
    (hminted : ∀ other waiter caller, event ≠ .minted other waiter caller)
    (hcarries : Carries state.history id { changed with waiters := [] }) :
    Wire ((state.withConn id changed).note event) := by
  have hlater : state.history ⊆ state.history ++ [event] :=
    List.subset_append_left _ _
  have hback {other waiter caller : ℕ}
      (hmem : .minted other waiter caller ∈ state.history ++ [event]) :
      .minted other waiter caller ∈ state.history := by
    rcases List.mem_append.mp hmem with hold | hnew
    · exact hold
    · exact absurd (List.mem_singleton.mp hnew).symm
        (hminted other waiter caller)
  have hbefore := hwire.carries id conn hfound
  refine
    { carries := fun other found hother => ?_
      minted := fun other waiter caller hmem => ?_
      unique := fun other waiter caller rival hmem hrival =>
        hwire.unique other waiter caller rival (hback hmem) (hback hrival)
      settled := fun other waiter hnow => ?_
      holds := fun caller other waiter hticket =>
        hlater (hwire.holds caller other waiter hticket)
      fresh := fun caller other waiter hunregistered => ?_ }
  · obtain ⟨rfl, rfl⟩ | ⟨hne, hother⟩ := update_eq_some hother
    · refine { hcarries.snoc nofun with waiters := fun waiter hwaits => ?_ }
      obtain ⟨hnever, caller, hmem⟩ :=
        hbefore.waiters waiter (hwaiters hwaits)
      refine ⟨fun hnow => ?_, caller, hlater hmem⟩
      rcases settled_snoc.mp hnow with hold | hnew
      · exact hnever hold
      · exact (hevent id waiter hnew).2.2 hwaits
    · exact (hwire.carries other found hother).snoc fun waiter _ hnew =>
        hne (hevent other waiter hnew).1
  · exact below_withConn hfound hnextId.ge
      (hwire.minted other waiter caller (hback hmem))
  · rcases settled_snoc.mp hnow with hold | hnew
    · obtain ⟨caller, hmem⟩ := hwire.settled other waiter hold
      exact ⟨caller, hlater hmem⟩
    · obtain ⟨rfl, hwaits, -⟩ := hevent other waiter hnew
      obtain ⟨-, caller, hmem⟩ := hbefore.waiters waiter hwaits
      exact ⟨caller, hlater hmem⟩
  · obtain ⟨hnever, hnot⟩ := hwire.fresh caller other waiter hunregistered
    refine ⟨fun hnow => ?_, fun found hother => ?_⟩
    · rcases settled_snoc.mp hnow with hold | hnew
      · exact hnever hold
      · obtain ⟨rfl, hwaits, -⟩ := hevent other waiter hnew
        exact hnot conn hfound hwaits
    · obtain ⟨rfl, rfl⟩ | ⟨-, hother⟩ := update_eq_some hother
      · exact fun hwaits => hnot conn hfound (hwaiters hwaits)
      · exact hnot found hother

theorem deliver {after : State} (hwire : Wire state)
    (hfound : state.conns id = some conn)
    (hstep : state.deliver id conn = some after) : Wire after := by
  have hcarries := hwire.carries id conn hfound
  unfold State.deliver at hstep
  split at hstep
  · cases hstep
  · next frame results hresults =>
      have hall := hcarries.results
      rw [hresults] at hall
      have hrest : Wire (state.withConn id { conn with results }) :=
        hwire.withConn hfound rfl rfl
          { hcarries with
            results := fun other hmem =>
              hall other (List.mem_cons_of_mem _ hmem) }
      split at hstep
      · cases hstep
        exact hrest
      · next waiter outcome hsettlement =>
          split at hstep
          · next hwaits =>
              cases hstep
              refine hwire.settle hfound rfl ?_ ?_ nofun
                { requests := hcarries.requests
                  tasks := hcarries.tasks
                  results := fun other hmem =>
                    hall other (List.mem_cons_of_mem _ hmem)
                  cells := fun held found hcell => ?_
                  waiters := nofun }
              · exact List.filter_subset_self _
              · rintro other held (⟨frame, found, hmem⟩ | ⟨waiters, hmem, -⟩)
                · cases List.mem_singleton.mp hmem
                  refine ⟨rfl, hwaits, fun hstill => ?_⟩
                  simp at hstill
                · cases List.mem_singleton.mp hmem
              · change update conn.cells waiter _ held = _ at hcell
                rw [update_apply] at hcell
                split at hcell
                · next hsame =>
                    cases hcell
                    rw [hsame]
                    exact hall frame List.mem_cons_self waiter outcome
                      hsettlement
                · exact hcarries.cells held found hcell
          · cases hstep
            exact hrest

theorem eof (hwire : Wire state) (hfound : state.conns id = some conn) :
    Wire (state.eof id conn) := by
  have hcarries := hwire.carries id conn hfound
  refine hwire.settle hfound rfl (List.nil_subset _) ?_ nofun
    { hcarries with
      cells := fun waiter outcome hcell => ?_
      waiters := nofun }
  · rintro other waiter (⟨frame, outcome, hmem⟩ | ⟨waiters, hmem, hwaits⟩)
    · cases List.mem_singleton.mp hmem
    · cases List.mem_singleton.mp hmem
      exact ⟨rfl, hwaits, List.not_mem_nil⟩
  · change (if waiter ∈ conn.waiters then some .lost
      else conn.cells waiter) = _ at hcell
    split at hcell
    · cases hcell
    · exact hcarries.cells waiter outcome hcell

end Wire

/-! ## What a call has spent -/

/-- The executions before this one. -/
def Attempt.before : Attempt → ℕ
  | .first => 0
  | .second _ => 1

namespace CallPhase

/-- The executions a call in this phase has begun, at most. -/
def spent : CallPhase → Option ℕ
  | .idle => some 0
  | .snapshot attempt | .remote attempt _ | .minted attempt _ _
  | .registered attempt _ _ => some attempt.before
  | .executing attempt | .awaiting attempt _ _ => some (attempt.before + 1)
  | .reacquiring _ => some 1
  | .returned | .abandoned => none

def attempt : CallPhase → Option Attempt
  | .snapshot attempt | .executing attempt | .remote attempt _
  | .minted attempt _ _ | .registered attempt _ _ | .awaiting attempt _ _ =>
      some attempt
  | _ => none

end CallPhase

/-- The call that is sent or dispatched. -/
def Event.attempted : Event → Option ℕ
  | .sent call _ | .dispatched call _ => some call
  | _ => none

theorem attempts_snoc (call : ℕ) (history : List Event) (event : Event) :
    attempts call (history ++ [event]) =
      attempts call history + if event.attempted = some call then 1 else 0 := by
  rw [attempts, attempts, List.countP_append]
  congr 1
  cases event <;> simp [Event.attempted, List.countP_cons]

structure Spent (idempotent : ℕ → Bool) (state : State) : Prop where
  within : ∀ call, attempts call state.history ≤ allowance idempotent call
  phases : ∀ call count, (state.calls call).spent = some count →
    attempts call state.history ≤ count
  again : ∀ call promoted,
    (state.calls call).attempt = some (.second promoted) →
      idempotent call = true

namespace Spent
variable {idempotent : ℕ → Bool} {state : State} {call : ℕ}

theorem goto (hspent : Spent idempotent state) {phase : CallPhase}
    (hphase : ∀ count, phase.spent = some count →
      attempts call state.history ≤ count)
    (hagain : ∀ promoted, phase.attempt = some (.second promoted) →
      idempotent call = true) : Spent idempotent (state.goto call phase) where
  within := hspent.within
  phases other count hcount := by
    rw [calls_goto] at hcount
    split at hcount
    · next hsame =>
        rw [hsame]
        exact hphase count hcount
    · exact hspent.phases other count hcount
  again other promoted hattempt := by
    rw [calls_goto] at hattempt
    split at hattempt
    · next hsame =>
        rw [hsame]
        exact hagain promoted hattempt
    · exact hspent.again other promoted hattempt

theorem note (hspent : Spent idempotent state) {event : Event}
    (hevent : event.attempted = none) :
    Spent idempotent (state.note event) := by
  have hsame (other : ℕ) :
      attempts other (state.history ++ [event]) =
        attempts other state.history := by
    rw [attempts_snoc, hevent]
    rfl
  exact
    { within := fun other => (hsame other).trans_le (hspent.within other)
      phases := fun other count hcount =>
        (hsame other).trans_le (hspent.phases other count hcount)
      again := hspent.again }

/-- There is room for an execution that has not begun. -/
theorem room (hspent : Spent idempotent state) {attempt : Attempt}
    (hcount : (state.calls call).spent = some attempt.before)
    (hattempt : (state.calls call).attempt = some attempt) :
    attempts call state.history < allowance idempotent call := by
  refine Nat.lt_of_le_of_lt (hspent.phases call _ hcount) ?_
  cases attempt with
  | first =>
      rw [allowance]
      split <;> decide
  | second promoted =>
      rw [allowance, if_pos (hspent.again call promoted hattempt)]
      exact Nat.lt_succ_self 1

/-- An execution begins. -/
theorem begins (hspent : Spent idempotent state) {attempt : Attempt}
    {phase : CallPhase} {event : Event}
    (hcount : (state.calls call).spent = some attempt.before)
    (hattempt : (state.calls call).attempt = some attempt)
    (hphase : phase.spent = some (attempt.before + 1))
    (hkept : phase.attempt = some attempt)
    (hevent : event.attempted = some call) :
    Spent idempotent ((state.goto call phase).note event) := by
  have hone : attempts call (state.history ++ [event]) =
      attempts call state.history + 1 := by
    rw [attempts_snoc, if_pos hevent]
  have hsame (other : ℕ) (hother : other ≠ call) :
      attempts other (state.history ++ [event]) =
        attempts other state.history := by
    rw [attempts_snoc, hevent, if_neg, Nat.add_zero]
    exact fun heq => hother (Option.some.inj heq).symm
  refine
    { within := fun other => ?_
      phases := fun other count hother => ?_
      again := fun other promoted hother => ?_ }
  · by_cases heq : other = call
    · subst heq
      exact hone.trans_le (hspent.room hcount hattempt)
    · exact (hsame other heq).trans_le (hspent.within other)
  · replace hother : ((state.goto call phase).calls other).spent = some count :=
      hother
    rw [calls_goto] at hother
    split at hother
    · next heq =>
        subst heq
        cases hphase.symm.trans hother
        refine hone.trans_le (Nat.succ_le_succ ?_)
        exact hspent.phases other _ hcount
    · next heq =>
        exact (hsame other heq).trans_le (hspent.phases other count hother)
  · replace hother : ((state.goto call phase).calls other).attempt =
        some (.second promoted) := hother
    rw [calls_goto] at hother
    split at hother
    · next heq =>
        rw [heq]
        cases hkept.symm.trans hother
        exact hspent.again call promoted hattempt
    · exact hspent.again other promoted hother

theorem withConn (hspent : Spent idempotent state) (id : ℕ) (conn : Conn) :
    Spent idempotent (state.withConn id conn) :=
  { hspent with }

end Spent

/-! ## The role -/

structure Roles (state : State) : Prop where
  following : ∀ id, state.role = .follower id →
    ∃ conn, state.conns id = some conn
  /-- A connection that was made up for is not followed any more. -/
  reacquired : ∀ id, .reacquired id ∈ state.history →
    (∃ conn, state.conns id = some conn) ∧ state.role ≠ .follower id
  led : ∀ host, .led host ∈ state.history → ∀ id, state.role ≠ .follower id

/-- An event of the calls, not of the role. -/
def Event.ofCall : Event → Bool
  | .reacquired _ | .led _ | .followed _ => false
  | _ => true

namespace Roles
variable {state : State}

theorem note (hroles : Roles state) {event : Event}
    (hevent : event.ofCall = true) : Roles (state.note event) where
  following := hroles.following
  reacquired id hmem := by
    rcases List.mem_append.mp hmem with hold | hnew
    · exact hroles.reacquired id hold
    · rw [List.mem_singleton] at hnew
      subst hnew
      cases hevent
  led host hmem := by
    rcases List.mem_append.mp hmem with hold | hnew
    · exact hroles.led host hold
    · rw [List.mem_singleton] at hnew
      subst hnew
      cases hevent

theorem goto (hroles : Roles state) (call : ℕ) (phase : CallPhase) :
    Roles (state.goto call phase) :=
  { hroles with }

theorem exists_withConn {id : ℕ} (conn : Conn) {other : ℕ}
    (hother : ∃ found, state.conns other = some found) :
    ∃ found, (state.withConn id conn).conns other = some found := by
  rw [conns_withConn]
  split
  · exact ⟨conn, rfl⟩
  · exact hother

theorem withConn (hroles : Roles state) (id : ℕ) (conn : Conn) :
    Roles (state.withConn id conn) where
  following other hrole := exists_withConn conn (hroles.following other hrole)
  reacquired other hmem :=
    ⟨exists_withConn conn (hroles.reacquired other hmem).1,
      (hroles.reacquired other hmem).2⟩
  led := hroles.led

end Roles

/-! ## Every step -/

structure Inv (idempotent : ℕ → Bool) (state : State) : Prop where
  wire : Wire state
  spent : Spent idempotent state
  roles : Roles state
  disciplined : EachMeets (Disciplined idempotent) state.history

namespace Inv
variable {idempotent : ℕ → Bool} {state after : State} {call id : ℕ}
  {conn : Conn}

theorem note (hinv : Inv idempotent state) {event : Event}
    (hplain : event.plain = true) (hevent : event.attempted = none)
    (hcall : event.ofCall = true)
    (hdisciplined : Disciplined idempotent state.history event) :
    Inv idempotent (state.note event) where
  wire := hinv.wire.note hplain
  spent := hinv.spent.note hevent
  roles := hinv.roles.note hcall
  disciplined := hinv.disciplined.snoc hdisciplined

/-- A call goes on and keeps what it has spent. -/
theorem goto (hinv : Inv idempotent state) {phase : CallPhase}
    (hticket : phase.ticket = none ∨
      phase.ticket = (state.calls call).ticket)
    (hregistered : phase.unregistered = none)
    (hspent : ∀ count, phase.spent = some count →
      attempts call state.history ≤ count)
    (hagain : ∀ promoted, phase.attempt = some (.second promoted) →
      idempotent call = true) : Inv idempotent (state.goto call phase) where
  wire := hinv.wire.goto hticket hregistered
  spent := hinv.spent.goto hspent hagain
  roles := hinv.roles.goto call phase
  disciplined := hinv.disciplined

theorem leave (hinv : Inv idempotent state) {phase : CallPhase}
    (hticket : phase.ticket = none) (hspent : phase.spent = none)
    (hattempt : phase.attempt = none) (hregistered : phase.unregistered = none) :
    Inv idempotent (state.goto call phase) := by
  refine hinv.goto (.inl hticket) hregistered ?_ ?_
  · intro count hcount
    cases hspent.symm.trans hcount
  · intro promoted hsecond
    cases hattempt.symm.trans hsecond

theorem returns (hinv : Inv idempotent state)
    {result : Except CallError Json}
    (hresult : Disciplined idempotent state.history (.returned call result)) :
    Inv idempotent (state.returns call result) :=
  (hinv.leave rfl rfl rfl rfl).note rfl rfl rfl hresult

theorem returns_resultOf (hinv : Inv idempotent state) {outcome : Outcome}
    (hexecuted : .executed call outcome ∈ state.history) :
    Inv idempotent (state.returns call (State.resultOf outcome)) := by
  cases outcome with
  | ok value => exact hinv.returns hexecuted
  | error message => exact hinv.returns hexecuted

theorem lose (hinv : Inv idempotent state) {attempt : Attempt}
    (hattempt : (state.calls call).attempt = some attempt)
    (hcount : ∀ count, (state.calls call).spent = some count → count ≤
      attempt.before + 1)
    (hbegun : (state.calls call).spent ≠ none) :
    Inv idempotent (state.lose call attempt id) := by
  cases attempt with
  | first =>
      refine hinv.goto (.inl rfl) rfl ?_ nofun
      intro count hphase
      cases hphase
      obtain ⟨spent, hspent⟩ := Option.ne_none_iff_exists'.mp hbegun
      exact (hinv.spent.phases call spent hspent).trans (hcount spent hspent)
  | second promoted => exact hinv.returns trivial

theorem snapshot (hinv : Inv idempotent state) {attempt : Attempt}
    (hphase : state.calls call = .snapshot attempt) :
    Inv idempotent (state.snapshot call attempt) := by
  have hspent : (state.calls call).spent = some attempt.before := by
    rw [hphase]
    rfl
  have hattempt : (state.calls call).attempt = some attempt := by
    rw [hphase]
    rfl
  unfold State.snapshot
  split
  · next host hrole =>
      exact
        { wire := (hinv.wire.goto (.inl rfl) rfl).note rfl
          spent := hinv.spent.begins hspent hattempt rfl rfl rfl
          roles := (hinv.roles.goto call _).note rfl
          disciplined := hinv.disciplined.snoc
            (hinv.spent.room hspent hattempt) }
  · refine hinv.goto (.inl rfl) rfl ?_ ?_
    · intro count hcount
      exact hinv.spent.phases call count (hspent.trans hcount)
    · intro promoted hsecond
      exact hinv.spent.again call promoted (hattempt.trans hsecond)
  · exact hinv.returns trivial

theorem finishLocal (hinv : Inv idempotent state) (outcome : Outcome) :
    Inv idempotent (state.finishLocal call outcome) := by
  have hnoted : Inv idempotent (state.note (.executed call outcome)) :=
    hinv.note rfl rfl rfl trivial
  refine hnoted.returns_resultOf ?_
  exact List.mem_append_right _ (List.mem_singleton_self _)

/-! ### Over a connection -/

theorem mint (hinv : Inv idempotent state) {attempt : Attempt}
    (hfound : state.conns id = some conn)
    (hphase : state.calls call = .remote attempt id) :
    Inv idempotent (state.mint call attempt id conn) where
  wire := hinv.wire.mint hfound
  spent := by
    have hgone : Spent idempotent
        (state.goto call (.minted attempt id conn.nextId)) := by
      refine hinv.spent.goto ?_ ?_
      · intro count hcount
        refine hinv.spent.phases call count ?_
        rw [hphase]
        exact hcount
      · intro promoted hsecond
        refine hinv.spent.again call promoted ?_
        rw [hphase]
        exact hsecond
    exact (hgone.withConn id _).note rfl
  roles := ((hinv.roles.goto call _).withConn id _).note rfl
  disciplined := by
    exact hinv.disciplined.snoc fun other hmem =>
      hinv.wire.not_minted_nextId hfound other hmem

theorem register (hinv : Inv idempotent state) {attempt : Attempt}
    {waiter : ℕ} (hfound : state.conns id = some conn)
    (hphase : state.calls call = .minted attempt id waiter) :
    Inv idempotent (state.register call attempt id waiter conn) := by
  have hattempt : (state.calls call).attempt = some attempt := by
    rw [hphase]
    rfl
  have hspent : (state.calls call).spent = some attempt.before := by
    rw [hphase]
    rfl
  unfold State.register
  split
  · refine hinv.lose hattempt ?_ (hspent ▸ nofun)
    intro count hcount
    cases hspent.symm.trans hcount
    exact Nat.le_succ _
  · refine
      { wire := hinv.wire.register hfound hphase
        spent := ?_
        roles := (hinv.roles.goto call _).withConn id _
        disciplined := hinv.disciplined }
    refine (hinv.spent.goto ?_ ?_).withConn id _
    · intro count hcount
      exact hinv.spent.phases call count (hspent.trans hcount)
    · intro promoted hsecond
      exact hinv.spent.again call promoted (hattempt.trans hsecond)

theorem send (hinv : Inv idempotent state) {attempt : Attempt} {waiter : ℕ}
    {ok : Bool} (hfound : state.conns id = some conn)
    (hphase : state.calls call = .registered attempt id waiter) :
    Inv idempotent (state.send call attempt id waiter ok conn) := by
  have hattempt : (state.calls call).attempt = some attempt := by
    rw [hphase]
    rfl
  have hspent : (state.calls call).spent = some attempt.before := by
    rw [hphase]
    rfl
  unfold State.send
  split
  · have hbegins : Spent idempotent
        ((state.goto call (.awaiting attempt id waiter)).note
          (.sent call id)) :=
      hinv.spent.begins hspent hattempt rfl rfl rfl
    exact
      { wire := hinv.wire.send hfound hphase
        spent := { hbegins with }
        roles := ((hinv.roles.goto call _).withConn id _).note rfl
        disciplined := hinv.disciplined.snoc
          (hinv.spent.room hspent hattempt) }
  · refine hinv.lose hattempt ?_ (hspent ▸ nofun)
    intro count hcount
    cases hspent.symm.trans hcount
    exact Nat.le_succ _

theorem receive (hinv : Inv idempotent state) {attempt : Attempt}
    {waiter : ℕ} (hfound : state.conns id = some conn)
    (hphase : state.calls call = .awaiting attempt id waiter)
    (hstep : state.receive call attempt id waiter conn = some after) :
    Inv idempotent after := by
  have hminted : .minted id waiter call ∈ state.history := by
    apply hinv.wire.holds
    rw [hphase]
    rfl
  unfold State.receive at hstep
  split at hstep
  · next outcome hcell =>
      cases hstep
      obtain ⟨caller, hmem, hexecuted⟩ :=
        (hinv.wire.carries id conn hfound).cells waiter outcome hcell
      cases hinv.wire.unique id waiter call caller hminted hmem
      exact hinv.returns_resultOf hexecuted
  · cases hstep
    refine hinv.lose ?_ ?_ ?_
    · rw [hphase]
      rfl
    · intro count hcount
      rw [hphase] at hcount
      cases hcount
      exact Nat.le_refl _
    · rw [hphase]
      nofun
  · cases hstep

theorem actConn {move : ConnMove} (hinv : Inv idempotent state)
    (hstep : state.actConn id move = some after) : Inv idempotent after := by
  obtain ⟨conn, hfound, hmove⟩ := Option.bind_eq_some_iff.mp hstep
  cases move with
  | take =>
      dsimp only at hmove
      have hwire := hinv.wire.take hfound hmove
      unfold State.take at hmove
      split at hmove
      · cases hmove
        exact
          { wire := hwire
            spent := hinv.spent.withConn id _
            roles := hinv.roles.withConn id _
            disciplined := hinv.disciplined }
      · cases hmove
  | finish task outcome =>
      dsimp only at hmove
      have hwire := hinv.wire.finishTask hfound hmove
      obtain ⟨request, -, rfl⟩ := Option.map_eq_some_iff.mp hmove
      exact
        { wire := hwire
          spent := (hinv.spent.withConn id _).note rfl
          roles := (hinv.roles.withConn id _).note rfl
          disciplined := hinv.disciplined.snoc trivial }
  | deliver =>
      dsimp only at hmove
      split at hmove
      · cases hmove
      · have hwire := hinv.wire.deliver hfound hmove
        unfold State.deliver at hmove
        split at hmove
        · cases hmove
        · split at hmove
          · cases hmove
            exact
              { wire := hwire
                spent := hinv.spent.withConn id _
                roles := hinv.roles.withConn id _
                disciplined := hinv.disciplined }
          · next waiter outcome _ =>
              split at hmove
              · next hwaits =>
                  cases hmove
                  refine
                    { wire := hwire
                      spent := (hinv.spent.withConn id _).note rfl
                      roles := (hinv.roles.withConn id _).note rfl
                      disciplined := hinv.disciplined.snoc ⟨rfl, ?_⟩ }
                  exact ((hinv.wire.carries id conn hfound).waiters waiter
                    hwaits).1
              · cases hmove
                exact
                  { wire := hwire
                    spent := hinv.spent.withConn id _
                    roles := hinv.roles.withConn id _
                    disciplined := hinv.disciplined }
  | eof =>
      dsimp only at hmove
      split at hmove
      · cases hmove
      · cases hmove
        refine
          { wire := hinv.wire.eof hfound
            spent := (hinv.spent.withConn id _).note rfl
            roles := (hinv.roles.withConn id _).note rfl
            disciplined := hinv.disciplined.snoc fun waiter hwaits => ?_ }
        exact ((hinv.wire.carries id conn hfound).waiters waiter hwaits).1

/-! ### The role -/

/-- An acquisition that makes this process lead, or follow a new connection,
while it follows `stale` or has no role yet. -/
theorem adopt (hinv : Inv idempotent state) {acquisition : Acquisition}
    (hunled : ∀ host, .led host ∉ state.history)
    (hstep : state.adopt acquisition = some after) :
    Inv idempotent after ∧
      (∀ id, after.role = .follower id → state.conns id = none) ∧
        (∀ id, (∃ conn, state.conns id = some conn) →
          ∃ conn, after.conns id = some conn) ∧
        ∃ event, after.history = state.history ++ [event] ∧
          ∀ id, event ≠ .reacquired id := by
  cases acquisition with
  | leads host =>
      cases hstep
      refine ⟨?_, nofun, fun id hexists => hexists, .led host, rfl, nofun⟩
      refine
        { wire := (hinv.wire.withRole _).note rfl
          spent := ?_
          roles := ?_
          disciplined := hinv.disciplined.snoc trivial }
      · have hspent : Spent idempotent (state.note (.led host)) :=
          hinv.spent.note rfl
        exact { hspent with }
      · refine
          { following := nofun
            reacquired := fun id hmem => ⟨?_, nofun⟩
            led := fun _ _ => nofun }
        refine (hinv.roles.reacquired id ?_).1
        rcases List.mem_append.mp hmem with hold | hnew
        · exact hold
        · cases List.mem_singleton.mp hnew
  | follows id =>
      dsimp only [State.adopt] at hstep
      split at hstep
      · next hnew =>
          cases hstep
          have hconns : ((state.withConn id .connected).withRole
              (.follower id)).conns id = some .connected :=
            (conns_withConn state id id .connected).trans (if_pos rfl)
          refine ⟨?_, ?_, ?_, .followed id, rfl, nofun⟩
          · refine
              { wire := ((hinv.wire.connect hnew).withRole _).note rfl
                spent := ?_
                roles := ?_
                disciplined := hinv.disciplined.snoc hunled }
            · have hspent : Spent idempotent (state.note (.followed id)) :=
                hinv.spent.note rfl
              exact { hspent with }
            · refine
                { following := fun other hrole => ?_
                  reacquired := fun other hmem => ?_
                  led := fun host hmem => ?_ }
              · cases hrole
                exact ⟨_, hconns⟩
              · rcases List.mem_append.mp hmem with hold | hnow
                · obtain ⟨hexists, -⟩ := hinv.roles.reacquired other hold
                  refine ⟨Roles.exists_withConn .connected hexists, ?_⟩
                  intro hrole
                  cases hrole
                  obtain ⟨found, hother⟩ := hexists
                  cases hnew.symm.trans hother
                · cases List.mem_singleton.mp hnow
              · rcases List.mem_append.mp hmem with hold | hnow
                · exact absurd hold (hunled host)
                · cases List.mem_singleton.mp hnow
          · intro other hrole
            cases hrole
            exact hnew
          · intro other hexists
            exact Roles.exists_withConn .connected hexists
      · cases hstep
  | fails error => cases hstep

/-- The connection that was followed is made up for. -/
theorem adopt_reacquired (hinv : Inv idempotent state) {stale : ℕ}
    {acquisition : Acquisition} (hrole : state.role = .follower stale)
    {adopted : State} (hadopt : state.adopt acquisition = some adopted) :
    Inv idempotent (adopted.note (.reacquired stale)) := by
  have hunled (host : ℕ) : .led host ∉ state.history :=
    fun hmem => hinv.roles.led host hmem stale hrole
  obtain ⟨hadopted, hnew, hexists, event, hhistory, hevent⟩ :=
    hinv.adopt hunled hadopt
  have hstale := hinv.roles.following stale hrole
  have hgone : adopted.role ≠ .follower stale := by
    intro hfollows
    obtain ⟨found, hfound⟩ := hstale
    cases (hnew stale hfollows).symm.trans hfound
  refine
    { wire := hadopted.wire.note rfl
      spent := hadopted.spent.note rfl
      roles :=
        { following := hadopted.roles.following
          reacquired := fun id hmem => ?_
          led := fun host hmem => ?_ }
      disciplined := hadopted.disciplined.snoc ?_ }
  · rcases List.mem_append.mp hmem with hold | hnow
    · exact hadopted.roles.reacquired id hold
    · cases List.mem_singleton.mp hnow
      exact ⟨hexists stale hstale, hgone⟩
  · rcases List.mem_append.mp hmem with hold | hnow
    · exact hadopted.roles.led host hold
    · cases List.mem_singleton.mp hnow
  · change .reacquired stale ∉ adopted.history
    rw [hhistory]
    intro hmem
    rcases List.mem_append.mp hmem with hold | hnow
    · exact (hinv.roles.reacquired stale hold).2 hrole
    · exact hevent stale (List.mem_singleton.mp hnow).symm

theorem reacquire (hinv : Inv idempotent state) {stale : ℕ}
    {acquisition : Acquisition} {result : Except CallError Bool}
    (hstep : state.reacquire stale acquisition = some (after, result)) :
    Inv idempotent after := by
  unfold State.reacquire at hstep
  split at hstep
  · cases hstep
    exact hinv
  · cases hstep
    exact hinv
  · next current hrole =>
      split at hstep
      · next hcurrent =>
          subst hcurrent
          split at hstep
          · cases hstep
            exact hinv
          · obtain ⟨adopted, hadopt, heq⟩ := Option.map_eq_some_iff.mp hstep
            cases heq
            exact hinv.adopt_reacquired hrole hadopt
          · obtain ⟨adopted, hadopt, heq⟩ := Option.map_eq_some_iff.mp hstep
            cases heq
            exact hinv.adopt_reacquired hrole hadopt
      · cases hstep
        exact hinv

theorem shutdown (hinv : Inv idempotent state) :
    Inv idempotent (state.withRole .closed) where
  wire := hinv.wire.withRole _
  spent := { hinv.spent with }
  roles :=
    { following := nofun
      reacquired := fun id hmem => ⟨(hinv.roles.reacquired id hmem).1, nofun⟩
      led := fun _ _ => nofun }
  disciplined := hinv.disciplined

theorem calls_adopt {acquisition : Acquisition}
    (hstep : state.adopt acquisition = some after) :
    after.calls = state.calls := by
  cases acquisition with
  | leads host =>
      cases hstep
      rfl
  | follows id =>
      dsimp only [State.adopt] at hstep
      split at hstep
      · cases hstep
        rfl
      · cases hstep
  | fails error => cases hstep

/-- Acquiring the context moves no call on. -/
theorem calls_reacquire {stale : ℕ} {acquisition : Acquisition}
    {result : Except CallError Bool}
    (hstep : state.reacquire stale acquisition = some (after, result)) :
    after.calls = state.calls := by
  unfold State.reacquire at hstep
  split at hstep
  · cases hstep
    rfl
  · cases hstep
    rfl
  · split at hstep
    · split at hstep
      · cases hstep
        rfl
      · obtain ⟨adopted, hadopt, heq⟩ := Option.map_eq_some_iff.mp hstep
        have hcalls : adopted.calls = state.calls := calls_adopt hadopt
        cases heq
        exact hcalls
      · obtain ⟨adopted, hadopt, heq⟩ := Option.map_eq_some_iff.mp hstep
        have hcalls : adopted.calls = state.calls := calls_adopt hadopt
        cases heq
        exact hcalls
    · cases hstep
      rfl

/-- What `reacquire` fails with is no answer of a tool. -/
theorem error_of_reacquire {stale : ℕ} {acquisition : Acquisition}
    {error : CallError}
    (hstep : state.reacquire stale acquisition = some (after, .error error))
    (message : String) : error ≠ .tool message := by
  unfold State.reacquire at hstep
  split at hstep
  · cases hstep
  · cases hstep
    nofun
  · split at hstep
    · split at hstep
      · cases hstep
        nofun
      · obtain ⟨adopted, -, heq⟩ := Option.map_eq_some_iff.mp hstep
        cases heq
      · obtain ⟨adopted, -, heq⟩ := Option.map_eq_some_iff.mp hstep
        cases heq
    · cases hstep

theorem returns_error (hinv : Inv idempotent state) {error : CallError}
    (herror : ∀ message, error ≠ .tool message) :
    Inv idempotent (state.returns call (.error error)) := by
  cases error with
  | tool message => exact absurd rfl (herror message)
  | _ => exact hinv.returns trivial

theorem retry {stale : ℕ} {acquisition : Acquisition}
    {result : Except CallError Bool} (hinv : Inv idempotent state)
    (hphase : state.calls call = .reacquiring stale)
    (hstep : state.reacquire stale acquisition = some (after, result)) :
    Inv idempotent (after.afterReacquire idempotent call result) := by
  have hafter := hinv.reacquire hstep
  cases result with
  | error error => exact hafter.returns_error (error_of_reacquire hstep)
  | ok promoted =>
      dsimp only [State.afterReacquire]
      split
      · next hidempotent =>
          refine hafter.goto (.inl rfl) rfl ?_ fun _ _ => hidempotent
          intro count hcount
          cases hcount
          refine hafter.spent.phases call 1 ?_
          rw [calls_reacquire hstep, hphase]
          rfl
      · exact hafter.returns trivial

theorem actCall {move : CallMove} (hinv : Inv idempotent state)
    (hstep : state.actCall idempotent call move = some after) :
    Inv idempotent after := by
  unfold State.actCall at hstep
  split at hstep
  · next hphase =>
      cases hstep
      refine hinv.goto (.inl rfl) rfl ?_ nofun
      intro count hcount
      cases hcount
      refine hinv.spent.phases call 0 ?_
      rw [hphase]
      rfl
  · next attempt hphase =>
      cases hstep
      exact hinv.snapshot hphase
  · cases hstep
    exact hinv.finishLocal _
  · next attempt id hphase =>
      obtain ⟨conn, hfound, rfl⟩ := Option.map_eq_some_iff.mp hstep
      exact hinv.mint hfound hphase
  · next attempt id waiter hphase =>
      obtain ⟨conn, hfound, rfl⟩ := Option.map_eq_some_iff.mp hstep
      exact hinv.register hfound hphase
  · next ok attempt id waiter hphase =>
      obtain ⟨conn, hfound, rfl⟩ := Option.map_eq_some_iff.mp hstep
      exact hinv.send hfound hphase
  · next attempt id waiter hphase =>
      obtain ⟨conn, hfound, hreceive⟩ := Option.bind_eq_some_iff.mp hstep
      exact hinv.receive hfound hphase hreceive
  · next acquisition stale hphase =>
      obtain ⟨⟨reacquired, result⟩, hreacquire, rfl⟩ :=
        Option.map_eq_some_iff.mp hstep
      exact hinv.retry hphase hreacquire
  · cases hstep
  · cases hstep
  · cases hstep
    exact hinv.leave rfl rfl rfl rfl
  · cases hstep

theorem step {label : Label} (hinv : Inv idempotent state)
    (hstep : Step idempotent state label after) : Inv idempotent after := by
  cases label with
  | call call move => exact hinv.actCall hstep
  | conn id move => exact hinv.actConn hstep
  | resume stale acquisition =>
      obtain ⟨⟨reacquired, result⟩, hreacquire, rfl⟩ :=
        Option.map_eq_some_iff.mp hstep
      exact hinv.reacquire hreacquire
  | shutdown =>
      cases hstep
      exact hinv.shutdown

end Inv

theorem inv_blank (idempotent : ℕ → Bool) : Inv idempotent State.blank where
  wire :=
    { carries := by
        intro id conn hfound
        cases hfound
      minted := fun _ _ _ hmem => absurd hmem List.not_mem_nil
      unique := fun _ _ _ _ hmem => absurd hmem List.not_mem_nil
      settled := by
        rintro id waiter (⟨frame, outcome, hmem⟩ | ⟨waiters, hmem, -⟩)
        · exact absurd hmem List.not_mem_nil
        · exact absurd hmem List.not_mem_nil
      holds := by
        intro call id waiter hticket
        cases hticket
      fresh := by
        intro call id waiter hunregistered
        cases hunregistered }
  spent :=
    { within := fun call => Nat.zero_le _
      phases := fun call count _ => Nat.zero_le _
      again := by
        intro call promoted hattempt
        cases hattempt }
  roles :=
    { following := by
        intro id hrole
        cases hrole
      reacquired := fun _ hmem => absurd hmem List.not_mem_nil
      led := fun _ hmem => absurd hmem List.not_mem_nil }
  disciplined := .nil

/-- **Retry discipline.** In every interleaving of calls, lost connections,
acquisitions and promotions, each event is as it has to be given those before
it, and no call is sent or dispatched more often than it may be. -/
theorem calls_disciplined (idempotent : ℕ → Bool) (state : State)
    (hreach : Reachable Acquired (Step idempotent) anyStep state) :
    EachMeets (Disciplined idempotent) state.history ∧
      ∀ call, attempts call state.history ≤ allowance idempotent call := by
  have hinv : Inv idempotent state := by
    refine hreach.invariant ?_ ?_
    · rintro start ⟨acquisition, hadopt⟩
      exact ((inv_blank idempotent).adopt
        (fun _ => List.not_mem_nil) hadopt).1
    · intro before label after hbefore _ hstep
      exact hbefore.step hstep
  exact ⟨hinv.disciplined, hinv.spent.within⟩

/-! ### A promotion in the middle of a read -/

/-- A read is sent to a leader that dies, and dispatched here once the session
has been promoted. -/
def promotion : List Label :=
  [.call 0 .start, .call 0 .snapshot, .call 0 .mint, .call 0 .register,
    .call 0 (.send true), .conn 0 .eof, .call 0 .receive,
    .call 0 (.reacquire (.leads 7)), .call 0 .snapshot,
    .call 0 (.finish (.ok .null))]

def follower : State :=
  ((State.blank.withConn 0 .connected).withRole (.follower 0)).note
    (.followed 0)

theorem calls_disciplined_promoted :
    ∃ state, Reachable Acquired (Step fun _ => true) anyStep state ∧
      attempts 0 state.history = 2 ∧
        EachMeets (Disciplined fun _ => true) state.history := by
  have hattempts : (promotion.foldlM (State.act fun _ => true) follower).map
      (attempts 0 ·.history) = some 2 := by
    decide +kernel
  obtain ⟨state, hrun, htwice⟩ := Option.map_eq_some_iff.mp hattempts
  have hacquired : Acquired follower := ⟨.follows 0, rfl⟩
  have hstart : Reachable Acquired (Step fun _ => true) anyStep follower :=
    .initial hacquired
  have hact (before : State) (label : Label) (after : State)
      (hstep : before.act (fun _ => true) label = some after) :
      anyStep before label ∧ Step (fun _ => true) before label after :=
    ⟨trivial, hstep⟩
  have hreach := hstart.foldlM hact hrun
  exact ⟨state, hreach, htwice,
    (calls_disciplined (fun _ => true) state hreach).1⟩

end Mandala.Context.Session
