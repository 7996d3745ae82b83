import Mandala.Core.Transition
import Mathlib.Data.Nat.Notation
import Mathlib.Logic.Function.Basic
import Std.Data.TreeSet

/-!
# Owned process groups

Spawns, waits, drops and forwarded signals share one registry of process
groups, and each takes its lock once.  What happens besides is up to the system:
a leader exits, a new process is given the pid of one that was reaped, tokio
reaps a child whose handle was dropped.
-/

namespace Mandala.Deploy.ChildGroups

open Function Mandala.Transition

inductive Signal where
  | interrupt
  | terminate
  | kill
  deriving DecidableEq, Repr

/-- The signals a forwarder is registered for. -/
def Signal.registered : Signal → Bool
  | .interrupt | .terminate => true
  | .kill => false

/-- `Children`: the registry. -/
structure Children where
  groups : Std.TreeSet ℕ compare
  stopping : Bool

structure ChildGroup where
  pgid : ℕ
  reaped : Bool
  deriving DecidableEq, Repr

/-- A group's leader, as the system has it. -/
structure Leader where
  pid : ℕ
  exited : Bool
  reaped : Bool
  deriving DecidableEq, Repr

/-- Whose `Child` it is. -/
inductive Runtime where
  | std
  | tokio
  deriving DecidableEq, Repr

/-- What one spawn returned, and what became of it. -/
structure Task where
  runtime : Runtime
  leader : Leader
  /-- The `Child` was not dropped. -/
  child : Bool
  /-- A wait for it has begun. -/
  polled : Bool
  group : Option ChildGroup

/-- One `SignalForwarder` and its thread. -/
inductive ForwarderPhase where
  | absent
  | listening (engine : Bool)
  /-- Its handle was closed, its thread may still be at a signal. -/
  | closing (engine : Bool)
  /-- An engine's, in the two seconds after a signal. -/
  | escalating
  | released
  deriving DecidableEq, Repr

inductive Event where
  | spawned (task pid : ℕ)
  | reaped (task : ℕ)
  /-- Its `ChildGroup` was dropped, with SIGKILL to the group named. -/
  | dropped (task : ℕ) (killed : Option ℕ)
  /-- A forwarder signalled every group it found registered. -/
  | signalled (signal : Signal) (pgids : List ℕ)
  /-- A forwarder was dropped. -/
  | released
  deriving DecidableEq, Repr

structure State where
  children : Children
  tasks : ℕ → Option Task
  forwarders : ℕ → ForwarderPhase
  /-- The process itself has exited. -/
  exited : Bool
  history : List Event

def State.initial : State :=
  { children := { groups := ∅, stopping := false }
    tasks := fun _ => none
    forwarders := fun _ => .absent
    exited := false
    history := [] }

inductive Label where
  /-- `spawn` or `spawn_std`, and the pid the system gives the child. -/
  | spawn (task : ℕ) (runtime : Runtime) (pid : Option ℕ)
  | exits (task : ℕ)
  /-- A round of `wait_std` or a poll of `wait_with_output`. -/
  | wait (task : ℕ) (ok : Bool)
  | dropGroup (task : ℕ)
  | dropChild (task : ℕ)
  /-- tokio reaps a dropped child. -/
  | reapDropped (task : ℕ)
  | install (id : ℕ) (engine : Bool)
  | forward (id : ℕ) (signal : Signal)
  | escalate (id : ℕ)
  | close (id : ℕ)
  | release (id : ℕ)

/-! ## The steps -/

namespace Task

def spawn (runtime : Runtime) (pid : ℕ) : Task :=
  { runtime
    leader := { pid, exited := false, reaped := false }
    child := true
    polled := false
    group := some { pgid := pid, reaped := false } }

def exit (task : Task) : Task :=
  { task with leader := { task.leader with exited := true } }

def poll (task : Task) : Task :=
  { task with polled := true }

/-- `leader_reaped`, for the group. -/
def reap (task : Task) : Task :=
  { task with
    leader := { task.leader with reaped := true }
    group := task.group.map fun group => { group with reaped := true } }

/-- tokio takes the leader's status without the group. -/
def reapDropped (task : Task) : Task :=
  { task with leader := { task.leader with reaped := true } }

end Task

namespace State

def withTask (state : State) (id : ℕ) (task : Task) : State :=
  { state with tasks := update state.tasks id (some task) }

def withForwarder (state : State) (id : ℕ) (phase : ForwarderPhase) : State :=
  { state with forwarders := update state.forwarders id phase }

def register (state : State) (pgid : ℕ) : State :=
  { state with
    children :=
      { state.children with groups := state.children.groups.insert pgid } }

def unregister (state : State) (pgid : ℕ) : State :=
  { state with
    children :=
      { state.children with groups := state.children.groups.erase pgid } }

def withStopping (state : State) (stopping : Bool) : State :=
  { state with children := { state.children with stopping } }

def note (state : State) (event : Event) : State :=
  { state with history := state.history ++ [event] }

def spawn (state : State) (id : ℕ) (runtime : Runtime) :
    Option ℕ → Option State
  | none => some state
  | some pid =>
      if state.children.stopping then some state
      else
        some (((state.withTask id (.spawn runtime pid)).register pid).note
          (.spawned id pid))

/-- `try_wait`, or a poll of tokio's `wait`: a leader that has exited is reaped
and its group leaves the registry, all under the lock.  tokio's is not polled
again once it is ready. -/
def wait (state : State) (id : ℕ) (ok : Bool) (task : Task) : Option State :=
  match task.group with
  | none => none
  | some group =>
      if task.child = false ∨ task.runtime = .tokio ∧ group.reaped = true then
        none
      else if ok = true ∧ task.leader.exited = true then
        some (((state.withTask id task.poll.reap).unregister group.pgid).note
          (.reaped id))
      else some (state.withTask id task.poll)

/-- `ChildGroup::drop`. -/
def dropGroup (state : State) (id : ℕ) (task : Task) : Option State :=
  task.group.map fun group =>
    ((state.withTask id { task with group := none }).unregister
      group.pgid).note
        (.dropped id (if group.reaped then none else some group.pgid))

/-- Dropping the `Child`.  A `wait_with_output` that was polled drops its group
first; what a future that was never polled has captured is dropped in no
specified order. -/
def dropChild (state : State) (id : ℕ) (task : Task) : Option State :=
  if task.child = false ∨
      task.runtime = .tokio ∧ task.polled = true ∧ task.group.isSome = true then
    none
  else some (state.withTask id { task with child := false })

/-- tokio, on a best-effort basis, reaps what it has spawned once the handle is
gone; the registry's lock is not taken for it. -/
def reapDropped (state : State) (id : ℕ) (task : Task) : Option State :=
  if task.runtime = .tokio ∧ task.child = false ∧ task.leader.exited = true ∧
      task.leader.reaped = false then
    some ((state.withTask id task.reapDropped).note (.reaped id))
  else none

def signalAll (state : State) (signal : Signal) : State :=
  state.note (.signalled signal state.children.groups.toList)

/-- The body of the forwarder's loop up to the escalation. -/
def forward (state : State) (id : ℕ) (signal : Signal) : Option State :=
  if signal.registered then
    match state.forwarders id with
    | .listening engine | .closing engine =>
        let forwarded := (state.withStopping true).signalAll signal
        some (if engine then forwarded.withForwarder id .escalating
          else forwarded)
    | _ => none
  else none

/-- Two seconds later an engine kills what is left and exits. -/
def escalate (state : State) (id : ℕ) : Option State :=
  match state.forwarders id with
  | .escalating => some { state.signalAll .kill with exited := true }
  | _ => none

def actForwarder (state : State) : Label → Option State
  | .install id engine =>
      match state.forwarders id with
      | .absent => some (state.withForwarder id (.listening engine))
      | _ => none
  | .forward id signal => state.forward id signal
  | .escalate id => state.escalate id
  | .close id =>
      match state.forwarders id with
      | .listening engine => some (state.withForwarder id (.closing engine))
      | _ => none
  | .release id =>
      match state.forwarders id with
      | .closing _ =>
          some (((state.withForwarder id .released).withStopping false).note
            .released)
      | _ => none
  | _ => none

def act (state : State) (label : Label) : Option State :=
  if state.exited then none
  else
    match label with
    | .spawn id runtime pid =>
        if state.tasks id = none then state.spawn id runtime pid else none
    | .exits id => (state.tasks id).map fun task => state.withTask id task.exit
    | .wait id ok => (state.tasks id).bind (state.wait id ok)
    | .dropGroup id => (state.tasks id).bind (state.dropGroup id)
    | .dropChild id => (state.tasks id).bind (state.dropChild id)
    | .reapDropped id => (state.tasks id).bind (state.reapDropped id)
    | label => state.actForwarder label

end State

/-- The system gives no process the pid of one that was not reaped. -/
def PidIsFree (state : State) : Label → Prop
  | .spawn _ _ (some pid) => ∀ id task, state.tasks id = some task →
      task.leader.reaped = false → task.leader.pid ≠ pid
  | _ => True

def Step (before : State) (label : Label) (after : State) : Prop :=
  PidIsFree before label ∧ before.act label = some after

/-! ## Ownership -/

/-- Whether a forwarder is stopping, as the history tells. -/
def stoppingAfter (history : List Event) : Bool :=
  history.foldl (fun stopping event =>
    match event with
    | .signalled signal _ => stopping || signal.registered
    | .released => false
    | _ => stopping) false

/-- What each event has to be, given those before it. -/
def Owned (before : List Event) : Event → Prop
  | .spawned .. => stoppingAfter before = false
  | .reaped _ => True
  /- A group dropped before its leader was reaped is killed; one dropped after
  is not signalled. -/
  | .dropped task killed =>
      (.reaped task ∈ before → killed = none) ∧
        (.reaped task ∉ before →
          ∃ pgid, .spawned task pgid ∈ before ∧ killed = some pgid)
  /- The groups whose leader was not reaped are signalled, and no others. -/
  | .signalled _ pgids =>
      (∀ pgid ∈ pgids, ∃ task,
        .spawned task pgid ∈ before ∧ .reaped task ∉ before) ∧
      ∀ task pid, .spawned task pid ∈ before → .reaped task ∉ before →
        (∀ killed, .dropped task killed ∉ before) → pid ∈ pgids
  | .released => True

/-- Neither is a group that is reaped or dropped still registered under a pid
that was recycled, nor does tokio reap a child whose group is held. -/
def Undisturbed (state : State) : Label → Prop
  | .wait id true | .dropGroup id => ∀ task group,
      state.tasks id = some task → task.group = some group →
        group.reaped = true → group.pgid ∉ state.children.groups
  | .reapDropped id => ∀ task, state.tasks id = some task → task.group = none
  | _ => True

end Mandala.Deploy.ChildGroups
