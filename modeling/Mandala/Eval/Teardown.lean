import Mandala.Core.Transition
import Mathlib.Data.Nat.Notation
import Mathlib.Logic.Function.Basic
import Mathlib.Tactic.Common

/-!
# Tearing the evaluation workers down

`shutdown_workers` latches further spawns off and kills the children whose pids
it finds registered.  Spawns, drops and sweeps run on any number of threads;
each step below is one access to the latch, the registry's lock, the registry
or a process.  A pid may be given to a new process once the old one is reaped.
-/

namespace Mandala.Eval.Teardown

open Function Mandala.Transition

structure Child where
  pid : ℕ
  /-- It was sent SIGKILL. -/
  killed : Bool
  exited : Bool
  reaped : Bool
  deriving DecidableEq, Repr

/-- The life of one `Worker`: `Worker::spawn` up to `failed` or `owned`, then
its `Drop`. -/
inductive WorkerPhase where
  | idle
  | started
  | cleared
  | piped
  | registering
  | locked
  | pushing
  | pushed
  | turnedAway
  | rejecting
  | rejected
  | failed
  | owned
  | dropping
  | deregistering
  | deregistered
  | killing
  | reaping
  | dropped
  deriving DecidableEq, Repr

/-- One call of `shutdown_workers`, with the pids it still has to kill. -/
inductive SweepPhase where
  | idle
  | started
  | latched
  | sweeping (rest : List ℕ)
  | returned
  deriving DecidableEq, Repr

inductive Holder where
  | worker (task : ℕ)
  | sweep (id : ℕ)
  deriving DecidableEq, Repr

inductive Event where
  | began (task : ℕ)
  | yielded (task : ℕ)
  | returned (sweep : ℕ)
  deriving DecidableEq, Repr

structure State where
  /-- `SHUTTING_DOWN`. -/
  latch : Bool
  lock : Option Holder
  /-- `LIVE_WORKERS`. -/
  live : List ℕ
  workers : ℕ → WorkerPhase
  sweeps : ℕ → SweepPhase
  children : ℕ → Option Child
  history : List Event

def State.initial : State :=
  { latch := false, lock := none, live := [], workers := fun _ => .idle
    sweeps := fun _ => .idle, children := fun _ => none, history := [] }

inductive WorkerMove where
  | begin
  | readLatch
  | startChild (pid : Option ℕ)
  | takePipes (ok : Bool)
  | lock
  | recheck
  | push
  | unlock
  | kill
  | wait
  | drop
  | retain

inductive SweepMove where
  | begin
  | store
  | lock
  | kill
  | unlock

inductive Label where
  | worker (task : ℕ) (move : WorkerMove)
  | sweep (id : ℕ) (move : SweepMove)
  | exits (task : ℕ)

namespace State

def goto (state : State) (task : ℕ) (phase : WorkerPhase) : State :=
  { state with workers := update state.workers task phase }

def sweepTo (state : State) (id : ℕ) (phase : SweepPhase) : State :=
  { state with sweeps := update state.sweeps id phase }

def withLock (state : State) (lock : Option Holder) : State :=
  { state with lock }

def note (state : State) (event : Event) : State :=
  { state with history := state.history ++ [event] }

/-- Something happens to the children. -/
def mark (state : State) (change : ℕ → Child → Child) : State :=
  { state with children := fun task => (state.children task).map (change task) }

/-- SIGKILL to the child of a task. -/
def killChild (state : State) (task : ℕ) : State :=
  state.mark fun owner child =>
    if owner = task then { child with killed := true } else child

/-- SIGKILL to whichever child has the pid. -/
def killPid (state : State) (pid : ℕ) : State :=
  state.mark fun _ child =>
    if child.pid = pid ∧ child.reaped = false then
      { child with killed := true }
    else child

def exitChild (state : State) (task : ℕ) : State :=
  state.mark fun owner child =>
    if owner = task then { child with exited := true } else child

def startChild (state : State) (task pid : ℕ) : State :=
  { state with
    children := update state.children task
      (some { pid, killed := false, exited := false, reaped := false }) }

/-- `child.wait()` returns once the child has exited. -/
def waitChild (state : State) (task : ℕ) : Option State :=
  match state.children task with
  | some child =>
      if child.exited then
        some { state with
          children :=
            update state.children task (some { child with reaped := true }) }
      else none
  | none => none

def push (state : State) (task : ℕ) : Option State :=
  (state.children task).map fun child =>
    { state with live := state.live ++ [child.pid] }

def retain (state : State) (task : ℕ) : Option State :=
  (state.children task).map fun child =>
    { state with live := state.live.filter (· ≠ child.pid) }

def lockFor (state : State) (task : ℕ) (phase : WorkerPhase) : Option State :=
  if state.lock = none then
    some ((state.goto task phase).withLock (some (.worker task)))
  else none

def actWorker (state : State) (task : ℕ) (move : WorkerMove) : Option State :=
  match state.workers task, move with
  | .idle, .begin => some ((state.goto task .started).note (.began task))
  | .started, .readLatch =>
      some (state.goto task (if state.latch then .failed else .cleared))
  | .cleared, .startChild none => some (state.goto task .failed)
  | .cleared, .startChild (some pid) =>
      some ((state.goto task .piped).startChild task pid)
  | .piped, .takePipes ok =>
      some (state.goto task (if ok then .registering else .rejecting))
  | .registering, .lock => state.lockFor task .locked
  | .locked, .recheck =>
      some (state.goto task (if state.latch then .turnedAway else .pushing))
  | .turnedAway, .unlock => some ((state.goto task .rejecting).withLock none)
  | .pushing, .push => (state.goto task .pushed).push task
  | .pushed, .unlock =>
      some (((state.goto task .owned).withLock none).note (.yielded task))
  | .rejecting, .kill => some ((state.goto task .rejected).killChild task)
  | .rejected, .wait => (state.goto task .failed).waitChild task
  | .owned, .drop => some (state.goto task .dropping)
  | .dropping, .lock => state.lockFor task .deregistering
  | .deregistering, .retain => (state.goto task .deregistered).retain task
  | .deregistered, .unlock => some ((state.goto task .killing).withLock none)
  | .killing, .kill => some ((state.goto task .reaping).killChild task)
  | .reaping, .wait => (state.goto task .dropped).waitChild task
  | _, _ => none

def actSweep (state : State) (id : ℕ) (move : SweepMove) : Option State :=
  match state.sweeps id, move with
  | .idle, .begin => some (state.sweepTo id .started)
  | .started, .store => some { state.sweepTo id .latched with latch := true }
  | .latched, .lock =>
      if state.lock = none then
        some ((state.sweepTo id (.sweeping state.live)).withLock
          (some (.sweep id)))
      else none
  | .sweeping (pid :: rest), .kill =>
      some ((state.sweepTo id (.sweeping rest)).killPid pid)
  | .sweeping [], .unlock =>
      some (((state.sweepTo id .returned).withLock none).note (.returned id))
  | _, _ => none

def act (state : State) : Label → Option State
  | .worker task move => state.actWorker task move
  | .sweep id move => state.actSweep id move
  | .exits task => some (state.exitChild task)

end State

/-- The system gives no process the pid of one that was not reaped. -/
def PidIsFree (state : State) : Label → Prop
  | .worker _ (.startChild (some pid)) => ∀ owner child,
      state.children owner = some child → child.reaped = false →
        child.pid ≠ pid
  | _ => True

def Step (before : State) (label : Label) (after : State) : Prop :=
  PidIsFree before label ∧ before.act label = some after

def Reaches (state : State) : Prop :=
  Reachable (· = State.initial) Step anyStep state

/-- No spawn and no drop is in progress. -/
def Quiet (state : State) : Prop :=
  ∀ task, state.workers task = .idle ∨ state.workers task = .failed ∨
    state.workers task = .owned ∨ state.workers task = .dropped

structure Complete (state : State) : Prop where
  /-- Once a sweep has returned, what is left alive was sent SIGKILL. -/
  killed : (∃ sweep, .returned sweep ∈ state.history) → Quiet state →
    ∀ task child, state.children task = some child → child.exited = false →
      child.killed = true
  /-- No spawn that begins afterwards yields a worker. -/
  latched : ∀ before sweep after task,
    state.history = before ++ .returned sweep :: after →
      .began task ∈ after → .yielded task ∉ state.history
  /-- What a sweep is about to kill has not been reaped. -/
  unreaped : ∀ sweep pid rest, state.sweeps sweep = .sweeping (pid :: rest) →
    ∃ task child, state.children task = some child ∧ child.pid = pid ∧
      child.reaped = false

end Mandala.Eval.Teardown
