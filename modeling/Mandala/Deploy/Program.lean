import Mandala.Deploy.Process

/-!
# Programs of the deploy controller

A controller program reports to its sink, runs processes, and may fail with a
typed error.  What it does to a host is decided by its process conversation
alone: `silent` answers the sink, so that conversation can be followed without
the reports in between.
-/

namespace Mandala.Deploy

open Mandala.Text Mandala.Effects

inductive Level where
  | trace
  | debug
  | info
  | warn
  | error
  deriving DecidableEq, Repr

/-- `EventSink::emit`. -/
structure SinkEvent where
  level : Level
  message : String
  deriving DecidableEq, Repr

abbrev Sink : Signature := ⟨SinkEvent, fun _ => Unit⟩

abbrev Controller : Signature := Sink.sum Processes

inductive DeployProfileError where
  | interactiveSudoUnsupported
  | invalidDeployData (error : DeployDataDefsError)
  | activateSpawn (error : IoError)
  | activateExit (status : ExitStatus)
  | canaryCleanupSpawn (error : IoError)
  | canaryCleanupExit (status : ExitStatus)
  | rollbackExit (status : ExitStatus)
  | waitSpawn (error : IoError)
  | waitExit (status : ExitStatus)
  | confirmSpawn (error : IoError)
  | confirmExit (status : ExitStatus)
  | capabilityProbeSpawn (error : IoError)
  | capabilityProbeExit (status : ExitStatus)
  | preflightSpawn (error : IoError)
  | preflightTransport (status : ExitStatus)
  | previousProfileSpawn (error : IoError)
  | previousProfileExit (status : ExitStatus)
  | previousProfileInvalid
  | bootStage (primary recovery : String)
  deriving DecidableEq, Repr

namespace DeployProfileError

def message : DeployProfileError → String
  | interactiveSudoUnsupported =>
      "interactive sudo is not supported by the headless native engine"
  | invalidDeployData error => "deployment data invalid: " ++ error.message
  | activateSpawn error => "failed to run activation over ssh: " ++ error
  | activateExit status => "ssh activation failed with " ++ status.message
  | canaryCleanupSpawn error =>
      "failed to clear stale deployment canary over ssh: " ++ error
  | canaryCleanupExit status =>
      "ssh stale deployment canary cleanup failed with " ++ status.message
  | rollbackExit status =>
      "activation rolled back with " ++ status.message ++
        " before confirmation completed"
  | waitSpawn error => "failed to run activation waiter over ssh: " ++ error
  | waitExit status => "ssh activation waiter failed with " ++ status.message
  | confirmSpawn error =>
      "failed to run deployment confirmation over ssh: " ++ error
  | confirmExit status =>
      "ssh deployment confirmation failed with " ++ status.message
  | capabilityProbeSpawn error =>
      "failed to probe target switch-inhibitor support over ssh: " ++ error
  | capabilityProbeExit status =>
      "target switch-inhibitor capability probe failed with " ++ status.message
  | preflightSpawn error =>
      "failed to run target switch preflight over ssh: " ++ error
  | preflightTransport status =>
      "target switch preflight transport failed with " ++ status.message
  | previousProfileSpawn error =>
      "failed to resolve the previous system profile over ssh: " ++ error
  | previousProfileExit status =>
      "previous system profile could not be resolved: " ++ status.message
  | previousProfileInvalid =>
      "previous system profile resolved to an empty or invalid path"
  | bootStage primary recovery =>
      "boot-only staging failed: " ++ primary ++ "; recovery: " ++ recovery

/-- A failed confirmation, or an activation that lost against it, is reported
as a rollback by the target. -/
def rolledBack : DeployProfileError → Bool
  | rollbackExit _ | confirmSpawn _ | confirmExit _ => true
  | _ => false

end DeployProfileError

/-- A controller program with a typed error. -/
abbrev DeployProgram := ExceptT DeployProfileError (Program Controller)

def emit (level : Level) (message : String) : Program Controller Unit :=
  .request (.inl ⟨level, message⟩) .done

def process (effect : ProcessEffect) : Program Controller effect.Reply :=
  .request (.inr effect) .done

/-- `emit_output`: standard output at info level, standard error as warnings. -/
def emitOutput (output : Output) : Program Controller Unit := do
  (lines (fromUtf8Lossy output.stdout).toList).forM fun line =>
    emit .info (String.ofList line)
  (lines (fromUtf8Lossy output.stderr).toList).forM fun line =>
    emit .warn (String.ofList line)

/-- `process::output`: start a process and wait for it. -/
def runOutput (command : Command) : Program Controller Finished := do
  match ← process (.spawn command) with
  | .error error => return .error error
  | .ok () => process (.await command)

/-- `map_err(wrap)?`. -/
def orFail {A E : Type} (wrap : E → DeployProfileError) (result : Except E A) :
    DeployProgram A :=
  ExceptT.mk (pure (result.mapError wrap))

/-- Run a program and keep its outcome as a value. -/
def attempt {A : Type} (program : DeployProgram A) :
    DeployProgram (Except DeployProfileError A) :=
  ExceptT.mk (program.run >>= fun result => pure (.ok result))

/-- `checked_output`. -/
def checkedOutput (output : Output) (exit : ExitStatus → DeployProfileError) :
    DeployProgram Unit := do
  emitOutput output
  if output.status.success then pure () else throw (exit output.status)

/-! ## The process conversation of a program -/

/-- A program with its sink answered: only its processes are left. -/
def silent {A : Type} (program : Program Controller A) : Program Processes A :=
  program.answerLeft fun _ => ()

section Silent

variable {A B : Type}

@[simp]
theorem silent_done (value : A) : silent (.done value) = .done value := rfl

@[simp]
theorem silent_bind (program : Program Controller A)
    (rest : A → Program Controller B) :
    silent (program >>= rest) =
      silent program >>= fun value => silent (rest value) :=
  answerLeft_bind _ program rest

@[simp]
theorem silent_emit (level : Level) (message : String) :
    silent (emit level message) = .done () := rfl

@[simp]
theorem silent_process (effect : ProcessEffect) :
    silent (process effect) = .request effect .done := rfl

theorem silent_forM_emit (texts : List (List Char)) (level : Level) :
    silent (texts.forM fun line => emit level (String.ofList line)) =
      .done () := by
  induction texts with
  | nil => rfl
  | cons text texts ih =>
      change silent (emit level (String.ofList text) >>= fun _ =>
        texts.forM fun line => emit level (String.ofList line)) = _
      rw [silent_bind, silent_emit, Program.done_bind, ih]

@[simp]
theorem silent_emitOutput (output : Output) :
    silent (emitOutput output) = .done () := by
  rw [emitOutput, silent_bind, silent_forM_emit, Program.done_bind,
    silent_forM_emit]

/-- Start a process and wait for it. -/
def runProcess (command : Command) : Program Processes Finished :=
  .request (.spawn command) fun
    | .error error => .done (.error error)
    | .ok () => .request (.await command) .done

/-- The conversations of one process: it does not start, or it ends somehow. -/
theorem ensures_runProcess_iff {command : Command}
    {post : Trace Processes → Finished → Prop} :
    Ensures (runProcess command) post ↔
      (∀ error, post [⟨.spawn command, .error error⟩] (.error error)) ∧
        ∀ finished : Finished,
          post [⟨.spawn command, .ok ()⟩, ⟨.await command, finished⟩]
            finished := by
  rw [runProcess, ensures_request_iff]
  constructor
  · intro hpost
    constructor
    · intro error
      exact ensures_done_iff.mp (hpost (.error error))
    · intro finished
      exact ensures_done_iff.mp
        (ensures_request_iff.mp (hpost (.ok ())) finished)
  · intro hpost started
    cases started with
    | error error => exact ensures_done_iff.mpr (hpost.1 error)
    | ok _ =>
        exact ensures_request_iff.mpr fun finished =>
          ensures_done_iff.mpr (hpost.2 finished)

@[simp]
theorem silent_runOutput (command : Command) :
    silent (runOutput command) = runProcess command := by
  rw [runOutput, silent_bind, silent_process, Program.request_bind, runProcess]
  congr 1
  funext started
  cases started <;> rfl

/-- The process conversation of a program that may fail. -/
def processes (program : DeployProgram A) :
    Program Processes (Except DeployProfileError A) :=
  silent program.run

@[simp]
theorem processes_pure (value : A) :
    processes (pure value) = .done (.ok value) := rfl

@[simp]
theorem processes_throw (error : DeployProfileError) :
    processes (throw error : DeployProgram A) = .done (.error error) := rfl

@[simp]
theorem processes_bind (program : DeployProgram A)
    (rest : A → DeployProgram B) :
    processes (program >>= rest) =
      processes program >>= fun
        | .ok value => processes (rest value)
        | .error error => .done (.error error) := by
  rw [processes, ExceptT.run_bind, silent_bind, ← processes]
  congr 1
  funext result
  cases result <;> rfl

@[simp]
theorem processes_map (function : A → B) (program : DeployProgram A) :
    processes (function <$> program) =
      processes program >>= fun result => .done (result.map function) := by
  rw [← bind_pure_comp, processes_bind]
  congr 1
  funext result
  cases result <;> rfl

@[simp]
theorem processes_liftM (program : Program Controller A) :
    processes (liftM program) =
      silent program >>= fun value => .done (.ok value) := by
  have hlift : (liftM program : DeployProgram A).run =
      program >>= fun value => .done (.ok value) := rfl
  rw [processes, hlift, silent_bind]
  rfl

@[simp]
theorem processes_attempt (program : DeployProgram A) :
    processes (attempt program) =
      processes program >>= fun result => .done (.ok result) := by
  rw [processes, attempt, ExceptT.run_mk, silent_bind]
  rfl

@[simp]
theorem processes_orFail {E : Type} (wrap : E → DeployProfileError)
    (result : Except E A) :
    processes (orFail wrap result) = .done (result.mapError wrap) := rfl

@[simp]
theorem processes_checkedOutput (output : Output)
    (exit : ExitStatus → DeployProfileError) :
    processes (checkedOutput output exit) =
      .done (if output.status.success then .ok ()
        else .error (exit output.status)) := by
  rw [checkedOutput, processes_bind, processes_liftM, silent_emitOutput]
  split <;> rfl

/-- What a program does to the processes is what its conversations hold once
the sink is left out. -/
theorem executes_processes_iff {program : DeployProgram A}
    {right : Trace Processes} {result : Except DeployProfileError A} :
    Executes (processes program) right result ↔
      ∃ trace, rightTrace trace = right ∧ Executes program.run trace result :=
  executes_answerLeft_iff (S := Sink) fun _ => ()

end Silent

/-! ## Which commands a program starts -/

section Issuing

variable {A B : Type} {kind : RemoteCommand → Bool}

theorem issues_done (value : A) : Issues kind (.done value) := Only.done value

/-- Any exchange about one process of the kind is allowed. -/
theorem runs_of_mem_singleton {command other : Command}
    (hcommand : command.runs kind) (hmem : other ∈ [command]) :
    other.runs kind := by
  rw [List.mem_singleton] at hmem
  rw [hmem]
  exact hcommand

theorem issues_runProcess {command : Command} (hcommand : command.runs kind) :
    Issues kind (runProcess command) := by
  apply Only.request
  · intro reply other hother
    exact runs_of_mem_singleton hcommand hother
  · intro reply
    cases reply with
    | error error => exact Only.done _
    | ok _ =>
        apply Only.perform
        intro finished other hother
        exact runs_of_mem_singleton hcommand hother

/-- A sequence starts what its parts start. -/
theorem issues_bind {program : DeployProgram A} {rest : A → DeployProgram B}
    (hprogram : Issues kind (processes program))
    (hrest : ∀ value, Issues kind (processes (rest value))) :
    Issues kind (processes (program >>= rest)) := by
  rw [processes_bind]
  apply Only.bind hprogram
  intro result
  cases result with
  | error error => exact issues_done _
  | ok value => exact hrest value

theorem issues_liftM {program : Program Controller A}
    (hprogram : Issues kind (silent program)) :
    Issues kind (processes (liftM program)) := by
  rw [processes_liftM]
  exact Only.bind hprogram fun value => issues_done _

theorem issues_emit (level : Level) (message : String) :
    Issues kind (processes (liftM (emit level message))) :=
  issues_liftM (issues_done ())

theorem issues_emitOutput (output : Output) :
    Issues kind (processes (liftM (emitOutput output))) := by
  apply issues_liftM
  rw [silent_emitOutput]
  exact issues_done ()

theorem issues_runOutput {command : Command} (hcommand : command.runs kind) :
    Issues kind (processes (liftM (runOutput command))) := by
  apply issues_liftM
  rw [silent_runOutput]
  exact issues_runProcess hcommand

theorem issues_spawn {command : Command} (hcommand : command.runs kind) :
    Issues kind (processes (liftM (process (.spawn command)))) := by
  apply issues_liftM
  apply Only.perform
  intro reply other hother
  exact runs_of_mem_singleton hcommand hother

theorem issues_await {command : Command} (hcommand : command.runs kind) :
    Issues kind (processes (liftM (process (.await command)))) := by
  apply issues_liftM
  apply Only.perform
  intro reply other hother
  exact runs_of_mem_singleton hcommand hother

theorem issues_poll {command : Command} (hcommand : command.runs kind) :
    Issues kind (processes (liftM (process (.poll command)))) := by
  apply issues_liftM
  apply Only.perform
  intro reply other hother
  exact runs_of_mem_singleton hcommand hother

theorem issues_race {first second : Command} (hfirst : first.runs kind)
    (hsecond : second.runs kind) :
    Issues kind (processes (liftM (process (.race first second)))) := by
  apply issues_liftM
  apply Only.perform
  intro reply other hother
  rcases List.mem_cons.mp hother with rfl | hother
  · exact hfirst
  · exact runs_of_mem_singleton hsecond hother

theorem issues_orFail {E : Type} (wrap : E → DeployProfileError)
    (result : Except E A) : Issues kind (processes (orFail wrap result)) :=
  issues_done _

theorem issues_throw (error : DeployProfileError) :
    Issues kind (processes (throw error : DeployProgram A)) :=
  issues_done _

theorem issues_pure (value : A) : Issues kind (processes (pure value)) :=
  issues_done _

theorem issues_attempt {program : DeployProgram A}
    (hprogram : Issues kind (processes program)) :
    Issues kind (processes (attempt program)) := by
  rw [processes_attempt]
  exact Only.bind hprogram fun result => issues_done _

theorem issues_checkedOutput (output : Output)
    (exit : ExitStatus → DeployProfileError) :
    Issues kind (processes (checkedOutput output exit)) := by
  rw [processes_checkedOutput]
  exact issues_done _

end Issuing

end Mandala.Deploy
