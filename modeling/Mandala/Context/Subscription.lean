import Mandala.Core.Transition
import Mathlib.Data.Nat.Notation
import Mathlib.Logic.Function.Basic

/-!
# Subscriptions of a session

Any number of subscribers share one session, and with it the connection to the
current leader.  A connection's client keeps one sink for the events that
arrive; its server starts a forwarder for every `Subscribe` frame it reads.
Events are known by their position among all that were published.
-/

namespace Mandala.Context.Subscription

open Function Mandala.Transition

/-! ## A connection -/

/-- The frames of a subscription that a server writes. -/
inductive Frame where
  | subscribed
  | event (index : ℕ)
  deriving DecidableEq, Repr

/-- The task a server starts for a `Subscribe` frame. -/
structure Forwarder where
  /-- Received from the broadcast, waiting for room in the writer's queue. -/
  inHand : Option ℕ
  /-- Published since it subscribed and not received yet. -/
  queue : List ℕ
  deriving DecidableEq, Repr

structure Conn where
  /-- Whose server is at the other end. -/
  leader : ℕ
  /-- `Waiters::closed`. -/
  closed : Bool
  /-- `Waiters::events`: the stream that events are routed to. -/
  sink : Option ℕ
  /-- `Waiters::subscribed`: the stream whose subscriber waits for an ack. -/
  ackWaiter : Option ℕ
  /-- `Subscribe` frames on their way to the server. -/
  requests : ℕ
  /-- The server has acked a request and not subscribed to the events yet. -/
  arming : Bool
  forwarders : List Forwarder
  /-- Frames on their way to the client. -/
  frames : List Frame
  deriving DecidableEq, Repr

def Conn.connected (leader : ℕ) : Conn :=
  { leader, closed := false, sink := none, ackWaiter := none, requests := 0
    arming := false, forwarders := [], frames := [] }

/-! ## The session -/

inductive Role where
  | leader (host : ℕ)
  | follower (conn : ℕ)
  | closed
  deriving DecidableEq, Repr

/-- What an acquisition comes to. -/
inductive Outcome where
  | leads (host : ℕ)
  | follows (conn leader : ℕ)
  | fails
  deriving DecidableEq, Repr

/-- Where a subscriber's `subscribe` and the task it spawns stand. -/
inductive Phase where
  | idle
  /-- `attach`, before it has looked at the role. -/
  | attaching
  /-- `ContextClient::subscribe` of that connection. -/
  | subscribing (conn : ℕ)
  | registered (conn stream : ℕ)
  | awaiting (conn stream : ℕ)
  /-- `Attached::Local`, with what its broadcast receiver has pending. -/
  | onLocal (host : ℕ) (queue : List ℕ)
  /-- `Attached::Remote`. -/
  | onRemote (conn stream : ℕ)
  | reacquiring (conn : ℕ)
  | done
  deriving DecidableEq, Repr

/-- The connection and the stream that a subscriber holds. -/
def Phase.held : Phase → Option (ℕ × ℕ)
  | .registered conn stream | .awaiting conn stream | .onRemote conn stream =>
      some (conn, stream)
  | _ => none

structure State where
  /-- How many events were published, by any leader. -/
  published : ℕ
  role : Role
  conns : ℕ → Option Conn
  /-- What a stream's receiver has not taken yet. -/
  streams : ℕ → List ℕ
  /-- The streams whose subscription was acked. -/
  acks : ℕ → Bool
  nextStream : ℕ
  phases : ℕ → Phase
  received : ℕ → List ℕ

inductive LoopMove where
  | subscribe
  | attach
  | register
  | send (ok : Bool)
  | acked
  | giveUp
  | receive
  | ended
  | reacquire (outcome : Outcome)
  | hangUp

inductive ConnMove where
  | serve
  | arm
  | recv (forwarder : ℕ)
  | push (forwarder : ℕ)
  | lag (forwarder missed : ℕ)
  | deliver (room : Bool)
  | eof

inductive Label where
  | loop (subscriber : ℕ) (move : LoopMove)
  | conn (id : ℕ) (move : ConnMove)
  | publish (host : ℕ)
  | lagLocal (subscriber missed : ℕ)
  /-- A call on the session re-races. -/
  | rerace (outcome : Outcome)
  | shutdown

/-! ## The server and the reader of a connection -/

namespace Conn

/-- The Subscribe arm of `serve_conn` up to the ack. -/
def serve (conn : Conn) : Option Conn :=
  if conn.requests = 0 ∨ conn.arming = true then none
  else
    some { conn with
      requests := conn.requests - 1
      arming := true
      frames := conn.frames ++ [.subscribed] }

/-- The rest of the arm: it subscribes and starts a forwarder. -/
def arm (conn : Conn) : Option Conn :=
  if conn.arming then
    some { conn with
      arming := false
      forwarders := conn.forwarders ++ [{ inHand := none, queue := [] }] }
  else none

def recv (conn : Conn) (index : ℕ) : Option Conn :=
  match conn.forwarders[index]? with
  | some { inHand := none, queue := event :: queue } =>
      some { conn with
        forwarders :=
          conn.forwarders.set index { inHand := some event, queue } }
  | _ => none

def push (conn : Conn) (index : ℕ) : Option Conn :=
  match conn.forwarders[index]? with
  | some { inHand := some event, queue } =>
      some { conn with
        forwarders := conn.forwarders.set index { inHand := none, queue }
        frames := conn.frames ++ [.event event] }
  | _ => none

/-- `RecvError::Lagged`: the oldest events are gone. -/
def lag (conn : Conn) (index missed : ℕ) : Option Conn :=
  conn.forwarders[index]?.map fun forwarder =>
    { conn with
      forwarders :=
        conn.forwarders.set index
          { forwarder with queue := forwarder.queue.drop missed } }

/-- The reader has hit EOF, and with it the end of what reaches the client. -/
def eof (conn : Conn) : Conn :=
  { conn with
    closed := true
    sink := none
    requests := 0
    arming := false
    forwarders := []
    frames := [] }

def publish (host event : ℕ) (conn : Conn) : Conn :=
  if conn.leader = host then
    { conn with
      forwarders := conn.forwarders.map fun forwarder =>
        { forwarder with queue := forwarder.queue ++ [event] } }
  else conn

end Conn

namespace State

def withPhase (state : State) (subscriber : ℕ) (phase : Phase) : State :=
  { state with phases := update state.phases subscriber phase }

def withConn (state : State) (id : ℕ) (conn : Conn) : State :=
  { state with conns := update state.conns id (some conn) }

def withStream (state : State) (stream : ℕ) (events : List ℕ) : State :=
  { state with streams := update state.streams stream events }

def receives (state : State) (subscriber event : ℕ) : State :=
  { state with
    received :=
      update state.received subscriber (state.received subscriber ++ [event]) }

/-- The reader task routes the next frame. -/
def deliver (state : State) (id : ℕ) (room : Bool) (conn : Conn) :
    Option State :=
  match conn.frames with
  | [] => none
  | .subscribed :: frames =>
      let routed := state.withConn id { conn with ackWaiter := none, frames }
      some (match conn.ackWaiter with
        | some stream => { routed with acks := update state.acks stream true }
        | none => routed)
  | .event event :: frames =>
      let routed := state.withConn id { conn with frames }
      some (match conn.sink with
        | some stream =>
            if room then
              routed.withStream stream (state.streams stream ++ [event])
            else routed
        | none => routed)

def actConn (state : State) (id : ℕ) (move : ConnMove) : Option State :=
  (state.conns id).bind fun conn =>
    if conn.closed then none
    else
      match move with
      | .serve => conn.serve.map (state.withConn id)
      | .arm => conn.arm.map (state.withConn id)
      | .recv forwarder => (conn.recv forwarder).map (state.withConn id)
      | .push forwarder => (conn.push forwarder).map (state.withConn id)
      | .lag forwarder missed =>
          (conn.lag forwarder missed).map (state.withConn id)
      | .deliver room => state.deliver id room conn
      | .eof => some (state.withConn id conn.eof)

/-! ## Subscribers -/

/-- The role an acquisition gives.  A connection it makes is a new one. -/
def adopt (state : State) : Outcome → Option State
  | .leads host => some { state with role := .leader host }
  | .follows id leader =>
      if state.conns id = none then
        some { state.withConn id (.connected leader) with
          role := .follower id }
      else none
  | .fails => none

/-- `reacquire` after the connection `stale` was lost, and what the subscriber
does next. -/
def reacquire (state : State) (subscriber stale : ℕ) (outcome : Outcome) :
    Option State :=
  if state.role = .closed then some (state.withPhase subscriber .done)
  else if state.role = .follower stale then
    if outcome = .fails then some (state.withPhase subscriber .done)
    else
      (state.adopt outcome).map fun adopted =>
        adopted.withPhase subscriber .attaching
  else some (state.withPhase subscriber .attaching)

def attach (state : State) (subscriber : ℕ) : State :=
  state.withPhase subscriber
    (match state.role with
    | .leader host => .onLocal host []
    | .follower id => .subscribing id
    | .closed => .done)

/-- `ContextClient::subscribe`, up to the end of its critical section. -/
def register (state : State) (subscriber id : ℕ) (conn : Conn) : State :=
  if conn.closed then state.withPhase subscriber (.reacquiring id)
  else
    let stream := state.nextStream
    { (state.withConn id
        { conn with
          sink := some stream
          ackWaiter := some stream }).withPhase subscriber
            (.registered id stream) with
      nextStream := stream + 1 }

/-- The `Subscribe` frame leaves; what is sent on a connection that was lost
reaches nobody. -/
def send (state : State) (subscriber id stream : ℕ) (ok : Bool)
    (conn : Conn) : State :=
  if ok then
    let awaiting := state.withPhase subscriber (.awaiting id stream)
    if conn.closed then awaiting
    else awaiting.withConn id { conn with requests := conn.requests + 1 }
  else state.withPhase subscriber (.reacquiring id)

/-- Whether a stream has no sender left. -/
def hasEnded (state : State) (id stream : ℕ) : Bool :=
  match state.conns id with
  | some conn => conn.sink ≠ some stream
  | none => true

def receive (state : State) (subscriber : ℕ) : Option State :=
  match state.phases subscriber with
  | .onLocal host (event :: queue) =>
      some ((state.withPhase subscriber (.onLocal host queue)).receives
        subscriber event)
  | .onRemote _ stream =>
      match state.streams stream with
      | event :: events =>
          some ((state.withStream stream events).receives subscriber event)
      | [] => none
  | _ => none

def actLoop (state : State) (subscriber : ℕ) (move : LoopMove) :
    Option State :=
  match move, state.phases subscriber with
  | .subscribe, .idle => some (state.withPhase subscriber .attaching)
  | .attach, .attaching => some (state.attach subscriber)
  | .register, .subscribing id =>
      (state.conns id).map (state.register subscriber id)
  | .send ok, .registered id stream =>
      (state.conns id).map (state.send subscriber id stream ok)
  | .acked, .awaiting id stream =>
      if state.acks stream then
        some (state.withPhase subscriber (.onRemote id stream))
      else none
  /- The ack timed out, or another subscriber took over the waiter for it. -/
  | .giveUp, .awaiting id _ =>
      some (state.withPhase subscriber (.reacquiring id))
  | .receive, _ => state.receive subscriber
  | .ended, .onRemote id stream =>
      if state.streams stream = [] ∧ state.hasEnded id stream = true then
        some (state.withPhase subscriber (.reacquiring id))
      else none
  | .ended, .onLocal .. => some (state.withPhase subscriber .done)
  | .reacquire outcome, .reacquiring id =>
      state.reacquire subscriber id outcome
  | .hangUp, .onRemote .. | .hangUp, .onLocal .. =>
      some (state.withPhase subscriber .done)
  | _, _ => none

/-- Every broadcast receiver of that leader has one more event pending. -/
def publish (state : State) (host : ℕ) : State :=
  { state with
    published := state.published + 1
    conns := fun id => (state.conns id).map (.publish host state.published)
    phases := fun subscriber =>
      match state.phases subscriber with
      | .onLocal self queue =>
          .onLocal self
            (if self = host then queue ++ [state.published] else queue)
      | phase => phase }

def lagLocal (state : State) (subscriber missed : ℕ) : Option State :=
  match state.phases subscriber with
  | .onLocal host queue =>
      some (state.withPhase subscriber (.onLocal host (queue.drop missed)))
  | _ => none

def act (state : State) : Label → Option State
  | .loop subscriber move => state.actLoop subscriber move
  | .conn id move => state.actConn id move
  | .publish host => some (state.publish host)
  | .lagLocal subscriber missed => state.lagLocal subscriber missed
  | .rerace outcome =>
      match state.role with
      | .follower _ => state.adopt outcome
      | _ => none
  | .shutdown => some { state with role := .closed }

def blank : State :=
  { published := 0, role := .closed, conns := fun _ => none
    streams := fun _ => [], acks := fun _ => false, nextStream := 0
    phases := fun _ => .idle, received := fun _ => [] }

end State

/-- `ContextSession::acquire` has just succeeded. -/
def Acquired (state : State) : Prop :=
  ∃ outcome, State.blank.adopt outcome = some state

def Step (before : State) (label : Label) (after : State) : Prop :=
  before.act label = some after

/-! ## What a subscriber may rely on -/

structure Faithful (state : State) : Prop where
  /-- No event twice, and the events in the order they were published. -/
  ordered : ∀ subscriber, (state.received subscriber).Pairwise (· < ·)
  /-- On a live connection a stream stays where its events are routed to. -/
  undisplaced : ∀ subscriber id stream conn,
    (state.phases subscriber).held = some (id, stream) →
      state.conns id = some conn → conn.closed = false →
        conn.sink = some stream

/-- No live connection is subscribed a second time. -/
def SubscribedOnce (state : State) : Label → Prop
  | .loop subscriber .register => ∀ id conn,
      state.phases subscriber = .subscribing id → state.conns id = some conn →
        conn.closed = false → conn.sink = none
  | _ => True

end Mandala.Context.Subscription
