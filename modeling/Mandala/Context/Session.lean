import Mandala.Context.Acquire
import Mandala.Context.Connection
import Mandala.Context.Subscription

/-!
# Calls on a session

Any number of calls run on one session.  A call takes a snapshot of the role
under its lock and executes it outside: locally, or over the connection of a
follower, where the leader's result finds its caller by the id minted for it.
When the connection is lost the session acquires the context again, and only
an idempotent call is tried once more.
-/

namespace Mandala.Context.Session

open Function Mandala.Data Mandala.Transition
open Subscription (Role)
open Endpoint (Frame Outcome resultFrame)

/-! ## What a call comes to -/

inductive CallError where
  | tool (message : String)
  | failover (retried promoted : Bool)
  | acquire (error : AcquireError)
  | closed
  deriving DecidableEq, Repr

/-- Which execution of a call it is; the second one knows whether the session
was promoted in between. -/
inductive Attempt where
  | first
  | second (promoted : Bool)
  deriving DecidableEq, Repr

/-- What a waiter is settled with: the leader's answer, or `ConnectionLost`. -/
inductive Settlement where
  | answer (outcome : Outcome)
  | lost

inductive CallPhase where
  | idle
  | snapshot (attempt : Attempt)
  /-- `Exec::Local`, dispatched. -/
  | executing (attempt : Attempt)
  /-- `Exec::Remote`. -/
  | remote (attempt : Attempt) (conn : ℕ)
  | minted (attempt : Attempt) (conn id : ℕ)
  | registered (attempt : Attempt) (conn id : ℕ)
  | awaiting (attempt : Attempt) (conn id : ℕ)
  | reacquiring (conn : ℕ)
  | returned
  /-- Its caller has dropped it. -/
  | abandoned

inductive Event where
  | minted (conn id call : ℕ)
  /-- A `Call` frame left for the leader. -/
  | sent (call conn : ℕ)
  | dispatched (call host : ℕ)
  | executed (call : ℕ) (outcome : Outcome)
  /-- A frame with that id settled the waiter. -/
  | settled (conn waiter frame : ℕ) (outcome : Outcome)
  /-- The reader hit EOF and settled all that waited as lost. -/
  | drained (conn : ℕ) (waiters : List ℕ)
  | returned (call : ℕ) (result : Except CallError Json)
  /-- The session acquired the context again after losing that connection. -/
  | reacquired (conn : ℕ)
  | led (host : ℕ)
  | followed (conn : ℕ)

/-- One connection: the client's half, what is on its way, and the calls its
leader executes. -/
structure Conn where
  closed : Bool
  nextId : ℕ
  /-- The ids in `Waiters::calls`. -/
  waiters : List ℕ
  /-- What was sent on the oneshot of an id. -/
  cells : ℕ → Option Settlement
  /-- `Call` frames on their way: their ids, and whose they are. -/
  requests : List (ℕ × ℕ)
  tasks : List (ℕ × ℕ)
  results : List Frame

def Conn.connected : Conn :=
  { closed := false, nextId := 1, waiters := [], cells := fun _ => none
    requests := [], tasks := [], results := [] }

/-- How the reader takes a `CallResult`. -/
def settlement : Frame → Option (ℕ × Outcome)
  | .callResult id ok result error =>
      some (id,
        if ok then .ok (result.getD .null)
        else .error (error.getD "call failed"))
  | _ => none

theorem settlement_resultFrame (id : ℕ) (outcome : Outcome) :
    settlement (resultFrame id outcome) = some (id, outcome) := by
  cases outcome <;> rfl

structure State where
  role : Role
  conns : ℕ → Option Conn
  calls : ℕ → CallPhase
  history : List Event

/-- What an acquisition comes to. -/
inductive Acquisition where
  | leads (host : ℕ)
  | follows (conn : ℕ)
  | fails (error : AcquireError)

inductive CallMove where
  | start
  | snapshot
  | finish (outcome : Outcome)
  | mint
  | register
  | send (ok : Bool)
  | receive
  | reacquire (acquisition : Acquisition)
  | abandon

inductive ConnMove where
  | take
  | finish (task : ℕ) (outcome : Outcome)
  | deliver
  | eof

inductive Label where
  | call (id : ℕ) (move : CallMove)
  | conn (id : ℕ) (move : ConnMove)
  /-- A subscriber has lost its connection. -/
  | resume (stale : ℕ) (acquisition : Acquisition)
  | shutdown

namespace State

def goto (state : State) (call : ℕ) (phase : CallPhase) : State :=
  { state with calls := update state.calls call phase }

def withConn (state : State) (id : ℕ) (conn : Conn) : State :=
  { state with conns := update state.conns id (some conn) }

def withRole (state : State) (role : Role) : State :=
  { state with role }

def note (state : State) (event : Event) : State :=
  { state with history := state.history ++ [event] }

def returns (state : State) (call : ℕ) (result : Except CallError Json) :
    State :=
  (state.goto call .returned).note (.returned call result)

/-! ## The session -/

/-- The role an acquisition gives.  A connection it makes is a new one. -/
def adopt (state : State) : Acquisition → Option State
  | .leads host => some ((state.withRole (.leader host)).note (.led host))
  | .follows id =>
      if state.conns id = none then
        some (((state.withConn id .connected).withRole (.follower id)).note
          (.followed id))
      else none
  | .fails _ => none

/-- `reacquire` after `stale` was lost: an error, or whether this process leads
now. -/
def reacquire (state : State) (stale : ℕ) (acquisition : Acquisition) :
    Option (State × Except CallError Bool) :=
  match state.role with
  | .leader _ => some (state, .ok true)
  | .closed => some (state, .error .closed)
  | .follower current =>
      if current = stale then
        match acquisition with
        | .fails error => some (state, .error (.acquire error))
        | .leads host =>
            (state.adopt (.leads host)).map fun adopted =>
              (adopted.note (.reacquired stale), .ok true)
        | .follows id =>
            (state.adopt (.follows id)).map fun adopted =>
              (adopted.note (.reacquired stale), .ok false)
      else some (state, .ok false)

/-- `snapshot`, and what `attempt` begins with. -/
def snapshot (state : State) (call : ℕ) (attempt : Attempt) : State :=
  match state.role with
  | .leader host =>
      (state.goto call (.executing attempt)).note (.dispatched call host)
  | .follower id => state.goto call (.remote attempt id)
  | .closed => state.returns call (.error .closed)

/-- What `FleetContext::call` makes of a lost connection. -/
def lose (state : State) (call : ℕ) (attempt : Attempt) (conn : ℕ) : State :=
  match attempt with
  | .first => state.goto call (.reacquiring conn)
  | .second promoted => state.returns call (.error (.failover true promoted))

/-- The outcome of an execution, as the call returns it. -/
def resultOf : Outcome → Except CallError Json
  | .ok value => .ok value
  | .error message => .error (.tool message)

def finishLocal (state : State) (call : ℕ) (outcome : Outcome) : State :=
  (state.note (.executed call outcome)).returns call (resultOf outcome)

/-! ## A call over a connection -/

def mint (state : State) (call : ℕ) (attempt : Attempt) (id : ℕ)
    (conn : Conn) : State :=
  ((state.goto call (.minted attempt id conn.nextId)).withConn id
    { conn with nextId := conn.nextId + 1 }).note
      (.minted id conn.nextId call)

def register (state : State) (call : ℕ) (attempt : Attempt) (id waiter : ℕ)
    (conn : Conn) : State :=
  if conn.closed then state.lose call attempt id
  else
    (state.goto call (.registered attempt id waiter)).withConn id
      { conn with waiters := conn.waiters ++ [waiter] }

def send (state : State) (call : ℕ) (attempt : Attempt) (id waiter : ℕ)
    (ok : Bool) (conn : Conn) : State :=
  if ok then
    ((state.goto call (.awaiting attempt id waiter)).withConn id
      { conn with requests := conn.requests ++ [(waiter, call)] }).note
        (.sent call id)
  else state.lose call attempt id

def receive (state : State) (call : ℕ) (attempt : Attempt) (id waiter : ℕ)
    (conn : Conn) : Option State :=
  match conn.cells waiter with
  | some (.answer outcome) => some (state.returns call (resultOf outcome))
  | some .lost => some (state.lose call attempt id)
  | none => none

section Calls
variable (idempotent : ℕ → Bool)

/-- What a call does once `reacquire` has returned. -/
def afterReacquire (state : State) (call : ℕ) : Except CallError Bool → State
  | .error error => state.returns call (.error error)
  | .ok promoted =>
      if idempotent call then
        state.goto call (.snapshot (.second promoted))
      else state.returns call (.error (.failover false promoted))

def actCall (state : State) (call : ℕ) (move : CallMove) : Option State :=
  match move, state.calls call with
  | .start, .idle => some (state.goto call (.snapshot .first))
  | .snapshot, .snapshot attempt => some (state.snapshot call attempt)
  | .finish outcome, .executing _ => some (state.finishLocal call outcome)
  | .mint, .remote attempt id =>
      (state.conns id).map (state.mint call attempt id)
  | .register, .minted attempt id waiter =>
      (state.conns id).map (state.register call attempt id waiter)
  | .send ok, .registered attempt id waiter =>
      (state.conns id).map (state.send call attempt id waiter ok)
  | .receive, .awaiting attempt id waiter =>
      (state.conns id).bind (state.receive call attempt id waiter)
  | .reacquire acquisition, .reacquiring stale =>
      (state.reacquire stale acquisition).map fun reacquired =>
        reacquired.1.afterReacquire idempotent call reacquired.2
  | .abandon, .idle | .abandon, .returned => none
  | .abandon, _ => some (state.goto call .abandoned)
  | _, _ => none

end Calls

/-! ## The leader and the reader -/

/-- The leader reads a `Call` frame and starts its dispatch. -/
def take (state : State) (id : ℕ) (conn : Conn) : Option State :=
  match conn.requests with
  | request :: requests =>
      some (state.withConn id
        { conn with requests, tasks := conn.tasks ++ [request] })
  | [] => none

def finishTask (state : State) (id : ℕ) (conn : Conn) (task : ℕ)
    (outcome : Outcome) : Option State :=
  conn.tasks[task]?.map fun request =>
    (state.withConn id
      { conn with
        tasks := conn.tasks.eraseIdx task
        results := conn.results ++ [resultFrame request.1 outcome] }).note
          (.executed request.2 outcome)

/-- The reader task and the next frame. -/
def deliver (state : State) (id : ℕ) (conn : Conn) : Option State :=
  match conn.results with
  | [] => none
  | frame :: results =>
      match settlement frame with
      | none => some (state.withConn id { conn with results })
      | some (waiter, outcome) =>
          if waiter ∈ conn.waiters then
            some ((state.withConn id
              { conn with
                results
                waiters := conn.waiters.filter (· ≠ waiter)
                cells := update conn.cells waiter
                  (some (.answer outcome)) }).note
                    (.settled id waiter waiter outcome))
          else some (state.withConn id { conn with results })

/-- EOF: what is registered later finds the connection closed. -/
def eof (state : State) (id : ℕ) (conn : Conn) : State :=
  (state.withConn id
    { conn with
      closed := true
      waiters := []
      cells := fun waiter =>
        if waiter ∈ conn.waiters then some .lost
        else conn.cells waiter }).note (.drained id conn.waiters)

def actConn (state : State) (id : ℕ) (move : ConnMove) : Option State :=
  (state.conns id).bind fun conn =>
    match move with
    | .take => state.take id conn
    | .finish task outcome => state.finishTask id conn task outcome
    | .deliver => if conn.closed then none else state.deliver id conn
    | .eof => if conn.closed then none else some (state.eof id conn)

def act (idempotent : ℕ → Bool) (state : State) : Label → Option State
  | .call id move => state.actCall idempotent id move
  | .conn id move => state.actConn id move
  | .resume stale acquisition =>
      (state.reacquire stale acquisition).map Prod.fst
  | .shutdown => some (state.withRole .closed)

def blank : State :=
  { role := .closed, conns := fun _ => none, calls := fun _ => .idle
    history := [] }

end State

/-- `ContextSession::acquire` has just succeeded. -/
def Acquired (state : State) : Prop :=
  ∃ acquisition, State.blank.adopt acquisition = some state

def Step (idempotent : ℕ → Bool) (before : State) (label : Label)
    (after : State) : Prop :=
  before.act idempotent label = some after

/-! ## The retry discipline -/

/-- The leaders a call was sent to and the times it was dispatched here. -/
def attempts (call : ℕ) (history : List Event) : ℕ :=
  history.countP fun event =>
    match event with
    | .sent other _ => other = call
    | .dispatched other _ => other = call
    | _ => false

def allowance (idempotent : ℕ → Bool) (call : ℕ) : ℕ :=
  if idempotent call then 2 else 1

/-- The waiter was settled, by an answer or as lost. -/
def Settled (history : List Event) (conn waiter : ℕ) : Prop :=
  (∃ frame outcome, .settled conn waiter frame outcome ∈ history) ∨
    ∃ waiters, .drained conn waiters ∈ history ∧ waiter ∈ waiters

/-- What each event has to be, given those before it. -/
def Disciplined (idempotent : ℕ → Bool) (before : List Event) : Event → Prop
  /- An id is minted for one call. -/
  | .minted conn id _ => ∀ other, .minted conn id other ∉ before
  /- A mutation is sent or dispatched once, an idempotent call twice. -/
  | .sent call _ | .dispatched call _ =>
      attempts call before < allowance idempotent call
  | .executed .. => True
  /- A waiter is settled once, and by its own id. -/
  | .settled conn waiter frame _ => frame = waiter ∧ ¬ Settled before conn waiter
  | .drained conn waiters => ∀ waiter ∈ waiters, ¬ Settled before conn waiter
  /- What a call returns is what an execution of that call came to. -/
  | .returned call (.ok value) => .executed call (.ok value) ∈ before
  | .returned call (.error (.tool message)) =>
      .executed call (.error message) ∈ before
  | .returned _ (.error _) => True
  /- A lost connection is made up for once. -/
  | .reacquired conn => .reacquired conn ∉ before
  | .led _ => True
  /- Who has led does not follow again. -/
  | .followed _ => ∀ host, .led host ∉ before

end Mandala.Context.Session
