import Mandala.Core.Interference
import Mandala.Core.Processes
import Mandala.Registry.Liveness
import Mathlib.Logic.Function.Basic

/-!
# Terminating a deploy run

A frontend terminates the run it launched, or one it is only attached to, by
the pid the registry records for it.  The system goes on while it does: other
processes are born, exit and are waited for, and the registry is written.
-/

namespace Mandala.Runner.Terminate

open Mandala.Data Mandala.Effects Mandala.Processes

/-- What a deploy run asks of the system and the registry.  Both signals are
SIGTERM. -/
inductive Request where
  | tryWait (pid : ℤ)
  | readMeta (path : String)
  | pidAlive (pid : Option ℤ)
  | killpg (pgrp : ℤ)
  | kill (pid : ℤ)

abbrev signature : Signature where
  Request := Request
  Reply
    | .tryWait _ => Option ℤ
    | .readMeta _ => Meta
    | .pidAlive _ => Bool
    | .killpg _ | .kill _ => Except Errno Unit

/-- A spawned `Child`, with its status once it was polled to completion. -/
structure Child where
  pid : ℤ
  done : Option ℤ
  deriving DecidableEq, Repr

/-- `Child::id`. -/
def Child.id (child : Child) : Option ℤ :=
  if child.done.isSome then none else some child.pid

/-- The fields of a `DeployRun` that say which processes are its own. -/
structure DeployRun where
  eventsDir : Option String
  child : Option Child
  exited : Option ℤ
  attached : Bool
  deriving DecidableEq, Repr

/-- `DeployRun::new`. -/
def DeployRun.new : DeployRun :=
  { eventsDir := none, child := none, exited := none, attached := false }

/-- `DeployRun::attach`, to the run of a directory. -/
def DeployRun.attach (path : String) : DeployRun :=
  { DeployRun.new with eventsDir := some path, attached := true }

/-! ## The source -/

/-- `pid as i32`. -/
def asI32 (pid : ℤ) : ℤ := Int.bmod pid 4294967296

/-- `i32::try_from(pid).ok()`. -/
def toI32 (pid : ℤ) : Option ℤ :=
  if -2147483648 ≤ pid ∧ pid < 2147483648 then some pid else none

/-- `try_wait`: the status of a child, once it has exited. -/
def Child.tryWait (child : Child) : Program signature (Option ℤ × Child) :=
  match child.done with
  | some status => pure (some status, child)
  | none => do
      let status ← Program.perform (S := signature) (.tryWait child.pid)
      pure (status, { child with done := status })

namespace DeployRun

def pollExit (run : DeployRun) : Program signature (Option ℤ × DeployRun) :=
  match run.exited, run.child with
  | none, some child => do
      let (status, child) ← child.tryWait
      pure (status, { run with child := some child, exited := status })
  | exited, _ => pure (exited, run)

/-- The pid the registry records, if a process has it. -/
def deployedPid (run : DeployRun) : Program signature (Option ℤ) :=
  match run.eventsDir with
  | some path => do
      let payload ← Program.perform (S := signature) (.readMeta path)
      match payload.getI64 "pid" with
      | some pid => do
          let alive ← Program.perform (S := signature) (.pidAlive (some pid))
          pure (if alive then some pid else none)
      | none => pure none
  | none => pure none

end DeployRun

/-- Supervised engines lead an isolated group; others are signalled by pid. -/
def terminateDeployGroup (pid : ℤ) : Program signature Unit := do
  let sent ← Program.perform (S := signature) (.killpg pid)
  match sent with
  | .ok _ => pure ()
  | .error _ => do
      let _ ← Program.perform (S := signature) (.kill pid)
      pure ()

namespace DeployRun

def terminate (run : DeployRun) : Program signature DeployRun := do
  let (ended, run) ← run.pollExit
  match ended with
  | some _ => pure run
  | none => do
      let deployedPid ← run.deployedPid
      match deployedPid.bind toI32 with
      | some pid => terminateDeployGroup pid
      | none =>
          match run.child.bind Child.id with
          | some pid => terminateDeployGroup (asI32 pid)
          | none => pure ()
      pure run

end DeployRun

/-! ## The world around it -/

structure World where
  table : Table
  /-- The `meta.json` of each run directory. -/
  registry : String → Meta
  /-- The birth of the run's engine. -/
  engine : Option ℕ
  /-- The birth of the process this frontend launched for the run. -/
  launcher : Option ℕ
  /-- The pid of the child this frontend has to wait for. -/
  unreaped : Option ℤ

namespace World

/-- The process is the run's own, or in a group one of the run's own founded. -/
def Own (world : World) (process : Process) : Prop :=
  ∃ birth, (world.engine = some birth ∨ world.launcher = some birth) ∧
    (process.birth = birth ∨ process.founder = birth)

end World

/-- The pid a meta records, if it is one that a signal can be sent to. -/
def recordedPid (payload : Meta) : Option ℤ :=
  (payload.getI64 "pid").filter fun pid => pid ≠ 0 && (toI32 pid).isSome

variable (caller : Caller)

/-- Whether `kill(pid as i32, None)` finds a process, its own or not. -/
def processExists (table : Table) (pid : ℤ) : Bool :=
  match table.kill caller (asI32 pid) with
  | .ok _ | .error .eperm => true
  | .error _ => false

/-- The answers of the system and the registry. -/
def serve : Service signature World
  | .tryWait pid, world =>
      match world.table.find pid with
      | some process =>
          if process.1.exited.isSome && world.unreaped == some pid then
            (process.1.exited,
              { world with table := world.table.remove pid, unreaped := none })
          else (none, world)
      | none => (none, world)
  | .readMeta path, world => (world.registry path, world)
  | .pidAlive pid, world =>
      (Registry.pidAlive (processExists caller world.table) pid, world)
  | .killpg pgrp, world => (world.table.killpg caller pgrp, world)
  | .kill pid, world => (world.table.kill caller pid, world)

/-- What happens around a frontend. -/
inductive Happening where
  | system (event : Event)
  /-- Someone writes the meta of a run directory. -/
  | registry (path : String) (payload : Meta)
  /-- The run's engine is forked. -/
  | engine (parent pid : ℤ) (leads permitted : Bool)

namespace World

/-- What a happening makes of the world.  Only the frontend waits for its child. -/
def happen (world : World) : Happening → Option World
  | .system event =>
      if world.unreaped.any fun pid => event = .reap pid then none
      else (world.table.apply event).map fun table => { world with table }
  | .registry path payload =>
      some { world with registry := Function.update world.registry path payload }
  | .engine parent pid leads permitted =>
      if world.engine.isSome then none
      else (world.table.apply (.fork parent pid leads permitted)).map fun table =>
        { world with table, engine := some world.table.births }

end World

/-- A deploy run, as a frontend holds it. -/
structure State where
  world : World
  run : DeployRun

/-- Nothing of the run exists yet. -/
structure State.Initial (runDir : String) (state : State) : Prop where
  recorded : recordedPid (state.world.registry runDir) = none
  engine : state.world.engine = none
  launcher : state.world.launcher = none
  unreaped : state.world.unreaped = none
  run : state.run = .new

section Steps

variable (runDir : String) (allowed : State → Happening → Prop)

/-- The world moves while the frontend is at a call of the run. -/
def Moves (run : DeployRun) (before after : World) : Prop :=
  ∃ happening, allowed ⟨before, run⟩ happening ∧
    before.happen happening = some after

/-- One step of the frontend or of what is around it. -/
inductive Step : State → State → Prop where
  | happens {world after : World} {run : DeployRun}
      (hmoves : Moves allowed run world after) :
      Step ⟨world, run⟩ ⟨after, run⟩
  /-- `start`; an inline one has the engine itself for its child. -/
  | start {world : World} {run : DeployRun} {table : Table} (pid : ℤ)
      (permitted inline : Bool)
      (hallowed : allowed ⟨world, run⟩
        (.system (.fork caller.pid pid true permitted)))
      (hfork : world.table.apply (.fork caller.pid pid true permitted) = some table)
      (hfresh : run = .new ∧ world.launcher = none)
      (hinline : inline → world.engine = none) :
      Step ⟨world, run⟩
        ⟨{ world with
            table
            engine := if inline then some world.table.births else world.engine
            launcher := some world.table.births
            unreaped := some pid },
          { run with child := some ⟨pid, none⟩ }⟩
  /-- `discover_run` finds the directory of the run. -/
  | discover {world : World} {run : DeployRun} (hchild : run.child.isSome) :
      Step ⟨world, run⟩ ⟨world, { run with eventsDir := some runDir }⟩
  | attach {world : World} (hfresh : world.launcher = none) :
      Step ⟨world, .new⟩ ⟨world, .attach runDir⟩
  /-- `poll_exit`, as `finished` and others call it. -/
  | pollExit {world after : World} {run polled : DeployRun} {ended : Option ℤ}
      {calls : List (Call signature World)}
      (hcall : RunsIn (serve caller) (Moves allowed run) run.pollExit world calls
        (ended, polled) after) :
      Step ⟨world, run⟩ ⟨after, polled⟩
  | terminate {world after : World} {run terminated : DeployRun}
      {calls : List (Call signature World)}
      (hcall : RunsIn (serve caller) (Moves allowed run) run.terminate world calls
        terminated after) :
      Step ⟨world, run⟩ ⟨after, terminated⟩

end Steps

/-- A process that is gone, or at least exited. -/
def Ended (table : Table) (birth : ℕ) : Prop :=
  ∀ process ∈ table.processes, process.birth = birth → process.exited.isSome

/-- The registry pid is gone, or the child has exited. -/
def State.Exited (state : State) : Prop :=
  if state.run.attached then
    ∃ birth, state.world.engine = some birth ∧
      ∀ process ∈ state.world.table.processes, process.birth ≠ birth
  else ∃ birth, state.world.launcher = some birth ∧
    Ended state.world.table birth

/-- The processes a call sends SIGTERM to. -/
def signalled (call : Call signature World) : List Process :=
  match call.effect with
  | .killpg pgrp => call.world.table.killedGroup caller pgrp
  | .kill pid => call.world.table.killed caller pid
  | _ => []

def isSignal : Request → Bool
  | .killpg _ | .kill _ => true
  | _ => false

/-- The calls of one `terminate` stay inside the run. -/
structure Inside (state : State) (calls : List (Call signature World)) : Prop where
  own : ∀ call ∈ calls, ∀ process ∈ signalled caller call,
    call.world.Own process
  exited : state.Exited → ∀ call ∈ calls, isSignal call.effect = false

/-! ## Runs in which the recorded pid stays the engine's -/

/-- Until the frontend has seen its child exit, the meta of the run comes to
record no pid but that of its engine, while that is there, and keeps it; and the
system gives the recorded pid to no other process. -/
def Careful (runDir : String) (state : State) (happening : Happening) : Prop :=
  state.run.exited.isSome ∨
    match happening with
    | .system (.fork _ pid _ _) =>
        recordedPid (state.world.registry runDir) ≠ some pid
    | .registry path payload =>
        path = runDir →
          recordedPid payload = recordedPid (state.world.registry runDir) ∨
          recordedPid (state.world.registry runDir) = none ∧
            ∃ process ∈ state.world.table.processes,
              state.world.engine = some process.birth ∧
                recordedPid payload = some process.pid
    | _ => True

/-- What holds of the world whatever happens in it. -/
structure Kept (world : World) : Prop where
  launched : ∀ pid, world.unreaped = some pid →
    1 < pid ∧ ∃ process ∈ world.table.processes,
      process.pid = pid ∧ world.launcher = some process.birth
  engineBorn : ∀ birth, world.engine = some birth → birth < world.table.births
  launcherBorn : ∀ birth, world.launcher = some birth → birth < world.table.births
  /-- The engine is not the first process of the system. -/
  engineForked : ∀ process ∈ world.table.processes,
    world.engine = some process.birth → 1 < process.pid

/-- The processes and groups that have the recorded pid are the engine and the
group it founded. -/
def Named (runDir : String) (world : World) : Prop :=
  ∀ pid, recordedPid (world.registry runDir) = some pid → 1 < pid ∧
    ∃ birth, world.engine = some birth ∧ ∀ process ∈ world.table.processes,
      (process.pid = pid → process.birth = birth) ∧
        (process.pgid = pid → process.founder = birth)

/-- The invariant of a run. -/
structure Sound (runDir : String) (state : State) : Prop where
  kept : Kept state.world
  named : state.run.exited = none → Named runDir state.world
  child : ∀ child, state.run.child = some child → state.run.exited = none →
    child.done = none ∧ state.world.unreaped = some child.pid
  unlaunched : state.run.child = none → state.world.launcher = none
  attached : state.run.attached → state.run.child = none
  directory : ∀ path, state.run.eventsDir = some path → path = runDir

section Evolution

variable {world : World} {table : Table} {event : Event}

theorem Kept.evolve (hkept : Kept world)
    (hevolves : world.table.Evolves event table)
    (hchild : ∀ pid, world.unreaped = some pid → event ≠ .reap pid) :
    Kept { world with table } := by
  constructor
  · intro pid hunreaped
    obtain ⟨hpid, process, hmem, hsame, hlauncher⟩ := hkept.launched pid hunreaped
    rcases hevolves.later process hmem with ⟨hreap, -⟩ | ⟨new, hnew, hchanged⟩
    · rw [hsame] at hreap
      exact absurd hreap (hchild pid hunreaped)
    · exact ⟨hpid, new, hnew, hchanged.pid.trans hsame, hchanged.birth ▸ hlauncher⟩
  · exact fun birth hengine =>
      Nat.lt_of_lt_of_le (hkept.engineBorn birth hengine) hevolves.births
  · exact fun birth hlauncher =>
      Nat.lt_of_lt_of_le (hkept.launcherBorn birth hlauncher) hevolves.births
  · intro process hmem hengine
    rcases hevolves.earlier process hmem with ⟨old, hold, hchanged⟩ | hborn
    · rw [hchanged.birth] at hengine
      rw [hchanged.pid]
      exact hkept.engineForked old hold hengine
    · exact hborn.free.1.1

theorem Named.evolve {runDir : String} (hnamed : Named runDir world)
    (hevolves : world.table.Evolves event table)
    (hfork : ∀ parent pid leads permitted,
      event = .fork parent pid leads permitted →
        recordedPid (world.registry runDir) ≠ some pid) :
    Named runDir { world with table } := by
  intro pid hrecorded
  obtain ⟨hpid, birth, hengine, hall⟩ := hnamed pid hrecorded
  refine ⟨hpid, birth, hengine, fun process hmem => ?_⟩
  have hother : ∀ member ∈ world.table.processes,
      process.pgid = member.pgid ∧ process.founder = member.founder →
        process.pgid = pid → process.founder = birth := by
    intro member hmember hgroup hpgid
    rw [hgroup.2]
    exact (hall member hmember).2 (hgroup.1 ▸ hpgid)
  rcases hevolves.earlier process hmem with ⟨old, hold, hchanged⟩ | hborn
  · have hsame : process.pid = pid → process.birth = birth := by
      intro hsame
      rw [hchanged.birth]
      exact (hall old hold).1 (hchanged.pid ▸ hsame)
    refine ⟨hsame, ?_⟩
    rcases hchanged.grouped with ⟨hown, hfounder⟩ | ⟨member, hmember, hgroup⟩
    · exact fun hpgid => hfounder.trans (hsame (hown ▸ hpgid))
    · exact hother member hmember hgroup
  · obtain ⟨parent, leads, permitted, hevent⟩ := hborn.fork
    have hnew : process.pid ≠ pid := by
      intro hsame
      exact hfork parent process.pid leads permitted hevent (hsame ▸ hrecorded)
    refine ⟨fun hsame => absurd hsame hnew, ?_⟩
    rcases hborn.grouped with ⟨hown, -⟩ | ⟨member, hmember, hgroup⟩
    · exact fun hpgid => absurd (hown.symm.trans hpgid) hnew
    · exact hother member hmember hgroup

/-- A process that ended stays so. -/
theorem Ended.evolve {birth : ℕ} (hended : Ended world.table birth)
    (hborn : birth < world.table.births)
    (hevolves : world.table.Evolves event table) : Ended table birth := by
  intro process hmem hsame
  obtain ⟨old, hold, hchanged⟩ := hevolves.old hmem (hsame ▸ hborn)
  have hexited := hended old hold (hchanged.birth ▸ hsame)
  rw [hchanged.exited hexited]
  exact hexited

end Evolution

/-! ## One happening -/

/-- What a happening can make of the world. -/
inductive Happened (world : World) : Happening → World → Prop where
  | system {event : Event} {table : Table}
      (hevolves : world.table.Evolves event table)
      (hchild : ∀ pid, world.unreaped = some pid → event ≠ .reap pid) :
      Happened world (.system event) { world with table }
  | registry (path : String) (payload : Meta) :
      Happened world (.registry path payload)
        { world with registry := Function.update world.registry path payload }
  | engine {parent pid : ℤ} {leads permitted : Bool} {table : Table}
      (hevolves : world.table.Evolves (.fork parent pid leads permitted) table)
      (hengine : world.engine = none)
      (hbirths : world.table.births < table.births) :
      Happened world (.engine parent pid leads permitted)
        { world with table, engine := some world.table.births }

theorem happened_of_happen {world after : World} {happening : Happening}
    (hhappen : world.happen happening = some after) :
    Happened world happening after := by
  cases happening with
  | system event =>
      rw [World.happen] at hhappen
      split at hhappen
      · cases hhappen
      · next hreap =>
          obtain ⟨table, happly, rfl⟩ := Option.map_eq_some_iff.mp hhappen
          refine .system (Table.evolves_of_apply happly) ?_
          rintro pid hunreaped rfl
          exact hreap (by simp [hunreaped])
  | registry path payload =>
      cases hhappen
      exact .registry path payload
  | engine parent pid leads permitted =>
      rw [World.happen] at hhappen
      split at hhappen
      · cases hhappen
      · next hengine =>
          obtain ⟨table, happly, rfl⟩ := Option.map_eq_some_iff.mp hhappen
          obtain ⟨-, -, hbirths, -⟩ := Table.apply_fork happly
          exact .engine (Table.evolves_of_apply happly) (by simpa using hengine)
            (hbirths ▸ Nat.lt_succ_self _)

section Happened

variable {world after : World} {happening : Happening}

theorem Kept.happen (hkept : Kept world)
    (hhappened : Happened world happening after) : Kept after := by
  cases hhappened with
  | system hevolves hchild => exact hkept.evolve hevolves hchild
  | registry path payload =>
      exact ⟨hkept.launched, hkept.engineBorn, hkept.launcherBorn,
        hkept.engineForked⟩
  | engine hevolves hengine hbirths =>
      have hafter := hkept.evolve hevolves (by simp)
      refine ⟨hafter.launched, ?_, hafter.launcherBorn, ?_⟩
      · intro birth hbirth
        cases hbirth
        exact hbirths
      · intro process hmem hbirth
        exact hevolves.one_lt_pid_of_newborn hmem (Option.some.inj hbirth).symm

theorem Named.happen {runDir : String} {run : DeployRun} (hkept : Kept world)
    (hnamed : Named runDir world) (hrun : run.exited = none)
    (hcareful : Careful runDir ⟨world, run⟩ happening)
    (hhappened : Happened world happening after) : Named runDir after := by
  simp only [Careful, hrun, Option.isSome_none, Bool.false_eq_true,
    false_or] at hcareful
  cases hhappened with
  | system hevolves hchild =>
      refine hnamed.evolve hevolves ?_
      rintro parent pid leads permitted rfl
      exact hcareful
  | registry path payload =>
      intro pid hrecorded
      change recordedPid (Function.update world.registry path payload runDir) =
        some pid at hrecorded
      by_cases hpath : path = runDir
      · subst hpath
        rw [Function.update_self] at hrecorded
        rcases hcareful rfl with hsame | ⟨-, engine, hmem, hengine, hnew⟩
        · exact hnamed pid (hsame ▸ hrecorded)
        · have hpid : engine.pid = pid := by
            rw [hnew] at hrecorded
            exact Option.some.inj hrecorded
          refine ⟨hpid ▸ hkept.engineForked engine hmem hengine, engine.birth,
            hengine, fun process hprocess => ⟨fun hsame => ?_, fun hpgid => ?_⟩⟩
          · rw [world.table.wellFormed.distinct process hprocess engine hmem
              (.inl (hsame.trans hpid.symm))]
          · exact world.table.wellFormed.founded engine hmem process hprocess
              (hpgid.trans hpid.symm)
      · rw [Function.update_of_ne (Ne.symm hpath)] at hrecorded
        exact hnamed pid hrecorded
  | engine hevolves hengine hbirths =>
      intro pid hrecorded
      obtain ⟨-, birth, hsome, -⟩ := hnamed pid hrecorded
      rw [hengine] at hsome
      cases hsome

theorem Sound.happen {runDir : String} {run : DeployRun}
    (hsound : Sound runDir ⟨world, run⟩)
    (hcareful : Careful runDir ⟨world, run⟩ happening)
    (hhappened : Happened world happening after) :
    Sound runDir ⟨after, run⟩ := by
  have hsame : after.launcher = world.launcher ∧
      after.unreaped = world.unreaped := by
    cases hhappened <;> exact ⟨rfl, rfl⟩
  refine ⟨hsound.kept.happen hhappened, fun hrun => ?_, ?_, ?_,
    hsound.attached, hsound.directory⟩
  · exact (hsound.named hrun).happen hsound.kept hrun hcareful hhappened
  · rw [hsame.2]
    exact hsound.child
  · rw [hsame.1]
    exact hsound.unlaunched

theorem State.Exited.happen {run : DeployRun} (hkept : Kept world)
    (hexited : State.Exited ⟨world, run⟩)
    (hhappened : Happened world happening after) :
    State.Exited ⟨after, run⟩ := by
  cases hhappened with
  | registry path payload => exact hexited
  | system hevolves hchild =>
      unfold State.Exited at hexited ⊢
      split at hexited
      · next hattached =>
          obtain ⟨birth, hengine, hgone⟩ := hexited
          rw [if_pos hattached]
          refine ⟨birth, hengine, fun process hmem hsame => ?_⟩
          obtain ⟨old, hold, hchanged⟩ := hevolves.old hmem
            (hsame ▸ hkept.engineBorn birth hengine)
          exact hgone old hold (hchanged.birth ▸ hsame)
      · next hattached =>
          obtain ⟨birth, hlauncher, hended⟩ := hexited
          rw [if_neg hattached]
          exact ⟨birth, hlauncher,
            hended.evolve (hkept.launcherBorn birth hlauncher) hevolves⟩
  | engine hevolves hengine hbirths =>
      unfold State.Exited at hexited ⊢
      split at hexited
      · obtain ⟨birth, hsome, -⟩ := hexited
        rw [hengine] at hsome
        cases hsome
      · next hattached =>
          obtain ⟨birth, hlauncher, hended⟩ := hexited
          rw [if_neg hattached]
          exact ⟨birth, hlauncher,
            hended.evolve (hkept.launcherBorn birth hlauncher) hevolves⟩

end Happened

end Mandala.Runner.Terminate
