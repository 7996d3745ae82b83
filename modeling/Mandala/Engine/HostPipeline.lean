import Mandala.Deploy.Activation
import Mandala.Deploy.BootStage
import Mandala.Deploy.Preflight
import Mandala.Engine.Data

/-!
# One host's pipeline

Copy the prebuilt closure, let it judge the switch, then stage or activate it,
recording every step in the host's event stream.  A record that cannot be
written ends the pipeline, and so does an error of the sink the deploy
controller reports to.
-/

namespace Mandala.Engine

open Mandala.Data Mandala.Deploy Mandala.Effects Mandala.Events

/-- What a pipeline asks of the run registry. -/
inductive RecordEffect where
  /-- `EventWriter::new`. -/
  | openStream (directory stream host plugin : String)
  /-- `EventWriter::emit`. -/
  | emit (event : String) (fields : List (String × Json))

abbrev Records : Signature := ⟨RecordEffect, fun _ => Except IoError Unit⟩

abbrev EngineEffects : Signature := Records.sum Processes

/-- A pipeline step, with the first error of its sink as its state. -/
abbrev HostProgram := StateT (Option IoError) (Program EngineEffects)

def record (effect : RecordEffect) : HostProgram (Except IoError Unit) :=
  fun slot => .request (.inl effect) fun reply => .done (reply, slot)

/-- A line of the deploy stream. -/
def lineRecord (line : String) : RecordEffect :=
  .emit "line" [("line", .string line), ("stream", .string "deploy")]

/-- `RegistryDeploySink`: reports become lines, and the first line that cannot
be written is remembered. -/
def serveController :
    (effect : Controller.Request) →
      StateT (Option IoError) (Program EngineEffects) (Controller.Reply effect)
  | .inl report => fun slot =>
      .request (.inl (lineRecord report.message)) fun reply =>
        match reply with
        | .ok () => .done ((), slot)
        | .error error => .done ((), slot.or (some error))
  | .inr effect => fun slot =>
      .request (.inr effect) fun reply => .done (reply, slot)

/-- Run a controller program with its reports sent to the registry. -/
def runController {A : Type} (program : Program Controller A) :
    HostProgram A :=
  program.serveWith serveController

/-- `RegistryDeploySink::error`. -/
def sinkError : HostProgram (Option IoError) := get

/-! ## Records -/

def startStatus (host : String) : RecordEffect :=
  .emit "status"
    [("cmd", .array [.string "mandala-deploy", .string host]),
      ("state", .string "start")]

def doneStatus (rc : Int) : RecordEffect :=
  .emit "status" [("rc", .int rc), ("state", .string "done")]

def milestoneRecord (milestone : String) : RecordEffect :=
  .emit "milestone" [("milestone", .string milestone)]

def emitMilestone (milestone : String) : HostProgram (Except IoError Unit) :=
  record (milestoneRecord milestone)

/-- `host_result`: the terminal record decides the result too. -/
def hostResult (host : String) (state : HostState) (error : Option String) :
    HostProgram HostDeployResult := do
  let rc : Int := if error.isSome then 1 else 0
  match ← record (doneStatus rc) with
  | .ok () => return { host, state, error }
  | .error eventError =>
      return {
        host
        state := .failed
        error := some ("writing terminal host status: " ++ eventError) }

def failedHost (host : String) (error : String) :
    HostProgram HostDeployResult := do
  let _ ← record (lineRecord error)
  hostResult host .failed (some error)

/-! ## The pipeline -/

section Pipeline

variable (plan : DeployPlan) (host : String)
  (settings : FlattenedDeploySettings) (data : DeployData) (defs : DeployDefs)

/-- The controller program of a disposition.  A dry preview of a reboot never
gets here: it returns before activation. -/
def activationProgram : ActivationDisposition → DeployProgram Unit
  | .bootStaging => stageProfileForBoot data defs
  | .liveSwitch | .dryPreview false => deployProfile data defs plan.dryActivate
  | .dryPreview true => pure ()

/-- The milestone and the state of a deployment that went through. -/
def successOutcome : ActivationDisposition → String × HostState
  | .bootStaging => ("reboot-pending", .rebootPending)
  | _ => ("confirm", .confirmed)

/-- Record how the deployment ended. -/
def settleDeployment (disposition : ActivationDisposition)
    (deployment : Except DeployProfileError Unit) :
    HostProgram HostDeployResult := do
  match deployment with
  | .ok () =>
      match ← sinkError with
      | some error =>
          failedHost host ("writing activation output: " ++ error)
      | none =>
          let outcome := successOutcome disposition
          match ← emitMilestone outcome.1 with
          | .error error =>
              failedHost host
                ("writing " ++ outcome.1 ++ " milestone: " ++ error)
          | .ok () => hostResult host outcome.2 none
  | .error error =>
      if error.rolledBack then do
        let _ ← record (lineRecord error.message)
        match ← emitMilestone "rollback" with
        | .error eventError =>
            failedHost host ("writing rollback milestone: " ++ eventError)
        | .ok () => hostResult host .rolledBack (some error.message)
      else failedHost host error.message

/-- Only a live switch with magic rollback waits for a confirmation. -/
def emitWait (disposition : ActivationDisposition) :
    HostProgram (Except IoError Unit) :=
  if disposition = .liveSwitch ∧ settings.magicRollback.getD true = true then
    emitMilestone "wait"
  else pure (.ok ())

/-- Activate or stage, once the activation milestone is due. -/
def activateHost (disposition : ActivationDisposition) :
    HostProgram HostDeployResult := do
  match ← emitMilestone "activate" with
  | .error error =>
      failedHost host ("writing activation milestone: " ++ error)
  | .ok () =>
      match ← emitWait settings disposition with
      | .error error =>
          failedHost host ("writing activation-wait milestone: " ++ error)
      | .ok () =>
          let deployment ←
            runController (activationProgram plan data defs disposition).run
          settleDeployment host disposition deployment

/-- A dry run that found a reboot would be needed. -/
def previewReboot : HostProgram HostDeployResult := do
  let _ ← record (lineRecord
    "dry activation: a real deployment would be staged for reboot")
  match ← emitMilestone "reboot-pending" with
  | .error error =>
      failedHost host ("writing reboot-pending milestone: " ++ error)
  | .ok () => hostResult host .rebootPending none

/-- Everything after the copy. -/
def deployCopied : HostProgram HostDeployResult := do
  let boot := plan.boot || settings.activation = .boot
  match ← runController
      (resolveActivationDisposition data defs plan.dryActivate boot).run with
  | .error error => failedHost host error.message
  | .ok disposition =>
      match ← sinkError with
      | some error =>
          failedHost host ("writing preflight output: " ++ error)
      | none =>
          if disposition.rebootPending && plan.dryActivate then
            previewReboot host
          else activateHost plan host settings data defs disposition

/-- Copy the closure, then go on with it. -/
def copyAndDeploy : HostProgram HostDeployResult := do
  match ← emitMilestone "copy" with
  | .error error => failedHost host ("writing copy milestone: " ++ error)
  | .ok () =>
      match ← runController (pushProfile data defs false) with
      | .error error => failedHost host error.message
      | .ok () =>
          match ← sinkError with
          | some error =>
              failedHost host ("writing copied output: " ++ error)
          | none => deployCopied plan host settings data defs

end Pipeline

section Host

variable (fromValue : Json → Except String FlattenedDeploySettings)
  (run : RegisteredDeployRun) (built : BuiltProfiles) (host : String)
  (programs : DeployPrograms)

/-- Look up what the host needs, then deploy it. -/
def deployStarted : HostProgram HostDeployResult := do
  match run.plan.settings[host]? with
  | none => failedHost host "flattened deploy settings are missing"
  | some value =>
      match fromValue value with
      | .error error =>
          failedHost host ("invalid flattened deploy settings: " ++ error)
      | .ok settings =>
          match built.paths[host]? with
          | none => failedHost host "prebuilt profile path is missing"
          | some path =>
              let data := hostDeployment host settings path programs
              match data.defs with
              | .error error => failedHost host error.message
              | .ok defs => copyAndDeploy run.plan host settings data defs

/-- `deploy_host_with`. -/
def deployHostWith : HostProgram HostDeployResult := do
  match ← record (.openStream run.path host host "deploy") with
  | .error error =>
      return {
        host
        state := .failed
        error := some ("opening host event stream: " ++ error) }
  | .ok () =>
      match ← record (startStatus host) with
      | .error error =>
          return {
            host
            state := .failed
            error := some ("writing host start status: " ++ error) }
      | .ok () => deployStarted fromValue run built host programs

/-- `abnormal_host`: the result of a host whose task never ran, or panicked. -/
def abnormalHost (error : String) : HostProgram HostDeployResult := do
  match ← record (.openStream run.path host host "deploy") with
  | .error eventError =>
      return {
        host
        state := .failed
        error := some (error ++ "; opening host event stream: " ++ eventError) }
  | .ok () =>
      let _ ← record (startStatus host)
      failedHost host error

end Host

/-! ## Reasoning about a pipeline -/

section Reasoning

variable {A B : Type}

/-- Every execution of a pipeline step satisfies the postcondition, whatever
its sink had remembered before. -/
def HostEnsures (program : HostProgram A)
    (post : Trace EngineEffects → A → Prop) : Prop :=
  ∀ slot, Ensures (program.run slot) fun trace value => post trace value.1

theorem HostEnsures.mono {program : HostProgram A}
    {post post' : Trace EngineEffects → A → Prop}
    (hprogram : HostEnsures program post)
    (himp : ∀ trace value, post trace value → post' trace value) :
    HostEnsures program post' := by
  intro slot
  refine (hprogram slot).mono ?_
  intro trace value hpost
  exact himp trace value.1 hpost

theorem hostEnsures_pure {value : A} {post : Trace EngineEffects → A → Prop}
    (hpost : post [] value) : HostEnsures (pure value) post := by
  intro slot
  rw [StateT.run_pure, Program.pure_eq_done, ensures_done_iff]
  exact hpost

theorem hostEnsures_bind {program : HostProgram A}
    {rest : A → HostProgram B} {post : Trace EngineEffects → B → Prop}
    (hprogram : HostEnsures program fun first value =>
      HostEnsures (rest value) fun second result =>
        post (first ++ second) result) :
    HostEnsures (program >>= rest) post := by
  intro slot
  rw [StateT.run_bind, ensures_bind_iff]
  refine (hprogram slot).mono ?_
  intro first value hrest
  exact hrest value.2

theorem hostEnsures_record {effect : RecordEffect}
    {post : Trace EngineEffects → Except IoError Unit → Prop}
    (hpost : ∀ reply, post [⟨.inl effect, reply⟩] reply) :
    HostEnsures (record effect) post := by
  intro slot
  change Ensures (Program.request (S := EngineEffects) (.inl effect) fun reply =>
    .done (reply, slot)) _
  rw [ensures_request_iff]
  intro reply
  rw [ensures_done_iff]
  exact hpost reply

theorem hostEnsures_sinkError
    {post : Trace EngineEffects → Option IoError → Prop}
    (hpost : ∀ slot, post [] slot) : HostEnsures sinkError post := by
  intro slot
  change Ensures (Program.done (slot, slot)) _
  rw [ensures_done_iff]
  exact hpost slot

theorem hostEnsures_bind_sinkError
    {rest : Option IoError → HostProgram B}
    {post : Trace EngineEffects → B → Prop}
    (hrest : ∀ error, HostEnsures (rest error) post) :
    HostEnsures (sinkError >>= rest) post := by
  apply hostEnsures_bind
  apply hostEnsures_sinkError
  intro slot
  exact hrest slot

/-- A conversation whose records are all lines. -/
def OnlyLines (trace : Trace EngineEffects) : Prop :=
  ∀ exchange ∈ leftTrace trace, ∃ line, exchange.effect = lineRecord line

theorem OnlyLines.append {first second : Trace EngineEffects}
    (hfirst : OnlyLines first) (hsecond : OnlyLines second) :
    OnlyLines (first ++ second) := by
  intro exchange hmem
  rw [leftTrace_append, List.mem_append] at hmem
  rcases hmem with hmem | hmem
  · exact hfirst exchange hmem
  · exact hsecond exchange hmem

/-- Serving the controller keeps its processes and records lines only. -/
theorem served_serveController {inner : Trace Controller}
    {before after : Option IoError} {outer : Trace EngineEffects}
    (hserved : Served serveController inner before outer after) :
    rightTrace outer = rightTrace inner ∧ OnlyLines outer := by
  induction hserved with
  | nil state => exact ⟨rfl, fun exchange hmem => by cases hmem⟩
  | @cons effect reply inner first second before middle after hserve _ ih =>
      cases effect with
      | inl report =>
          change Executes (Program.request (S := EngineEffects)
            (.inl (lineRecord report.message)) fun written => match written with
              | .ok () => .done ((), before)
              | .error error => .done ((), before.or (some error)))
            first (reply, middle) at hserve
          obtain ⟨written, rest, rfl, hrest⟩ := executes_request_iff.mp hserve
          have hnil : rest = [] := by
            cases written <;> exact (executes_done_iff.mp hrest).1
          subst hnil
          refine ⟨ih.1, OnlyLines.append ?_ ih.2⟩
          intro exchange hmem
          rw [leftTrace_inl, leftTrace_nil, List.mem_singleton] at hmem
          exact ⟨report.message, by rw [hmem]⟩
      | inr effect =>
          change Executes (Program.request (S := EngineEffects) (.inr effect) fun answer =>
            .done (answer, before)) first (reply, middle) at hserve
          obtain ⟨answer, rest, rfl, hrest⟩ := executes_request_iff.mp hserve
          obtain ⟨rfl, hreply⟩ := executes_done_iff.mp hrest
          obtain ⟨rfl, rfl⟩ := Prod.mk.inj hreply
          refine ⟨?_, OnlyLines.append ?_ ih.2⟩
          · rw [rightTrace_append, rightTrace_inr, rightTrace_nil,
              rightTrace_inr, ih.1]
            rfl
          · intro exchange hmem
            cases hmem

/-- A controller program is judged on its own processes; around them only
lines are recorded. -/
theorem hostEnsures_runController {program : Program Controller A}
    {post : Trace EngineEffects → A → Prop}
    (hprogram : Ensures (silent program) fun trace value =>
      ∀ outer, rightTrace outer = trace → OnlyLines outer → post outer value) :
    HostEnsures (runController program) post := by
  intro slot outer value hexec
  have hrun : Executes ((program.serveWith serveController).run slot) outer
      (value.1, value.2) := hexec
  obtain ⟨inner, hinner, hserved⟩ := executes_serveWith_iff.mp hrun
  obtain ⟨hright, hlines⟩ := served_serveController hserved
  have hsilent : Executes (silent program) (rightTrace inner) value.1 :=
    (executes_answerLeft_iff (S := Sink) fun _ => ()).mpr
      ⟨inner, rfl, hinner⟩
  exact hprogram _ _ hsilent outer hright hlines

/-- A condition on the value is decided by the last step alone. -/
theorem hostEnsures_bind_value {program : HostProgram A}
    {rest : A → HostProgram B} {post : B → Prop}
    (hrest : ∀ value, HostEnsures (rest value) fun _ result => post result) :
    HostEnsures (program >>= rest) fun _ result => post result := by
  apply hostEnsures_bind
  intro slot trace value _ slot' second result hexec
  exact hrest value.1 slot' second result hexec

end Reasoning

/-! ## Judging a pipeline by its ends -/

section Judgement

variable (host : String)

/-- The records a pipeline makes on its way to a verdict. -/
inductive Passing : RecordEffect → Prop where
  | start : Passing (startStatus host)
  | line (text : String) : Passing (lineRecord text)
  | milestone {name : String} (hname : name ∈ ["copy", "activate", "wait"]) :
      Passing (milestoneRecord name)

/-- The verdicts other than a failure, each with its milestone. -/
inductive Outcome : String → HostState → Option String → Prop where
  | confirmed : Outcome "confirm" .confirmed none
  | rebootPending : Outcome "reboot-pending" .rebootPending none
  | rolledBack (error : String) :
      Outcome "rollback" .rolledBack (some error)

/-- A judgement of executions that holds of every way to end a pipeline and
that the steps before the end keep. -/
structure Carried (post : Trace EngineEffects → HostDeployResult → Prop) :
    Prop where
  passing : ∀ effect, Passing host effect → ∀ reply trace result,
    post trace result → post (⟨.inl effect, reply⟩ :: trace) result
  reports : ∀ outer, OnlyLines outer → ∀ trace result,
    post trace result → post (outer ++ trace) result
  failed : ∀ error, HostEnsures (failedHost host error) post
  concluded : ∀ milestone state error, Outcome milestone state error →
    ∀ message : IoError → String,
    HostEnsures (do
      match ← emitMilestone milestone with
      | .error error => failedHost host (message error)
      | .ok () => hostResult host state error) post

namespace Carried

variable {host : String} {A : Type}
  {post : Trace EngineEffects → HostDeployResult → Prop}

theorem recorded (hpost : Carried host post) {effect : RecordEffect}
    (heffect : Passing host effect)
    {rest : Except IoError Unit → HostProgram HostDeployResult}
    (hrest : ∀ reply, HostEnsures (rest reply) post) :
    HostEnsures (record effect >>= rest) post := by
  apply hostEnsures_bind
  apply hostEnsures_record
  intro reply
  apply (hrest reply).mono
  intro trace result htrace
  exact hpost.passing effect heffect reply trace result htrace

theorem controlled (hpost : Carried host post)
    (program : Program Controller A)
    {rest : A → HostProgram HostDeployResult}
    (hrest : ∀ value, HostEnsures (rest value) post) :
    HostEnsures (runController program >>= rest) post := by
  apply hostEnsures_bind
  apply hostEnsures_runController
  intro _ value _ outer _ hlines
  apply (hrest value).mono
  intro trace result htrace
  exact hpost.reports outer hlines trace result htrace

theorem settled (hpost : Carried host post)
    (disposition : ActivationDisposition)
    (deployment : Except DeployProfileError Unit) :
    HostEnsures (settleDeployment host disposition deployment) post := by
  cases deployment with
  | ok _ =>
      apply hostEnsures_bind_sinkError
      intro error
      cases error with
      | some error => exact hpost.failed _
      | none =>
          cases disposition with
          | bootStaging => exact hpost.concluded _ _ _ .rebootPending _
          | liveSwitch => exact hpost.concluded _ _ _ .confirmed _
          | dryPreview => exact hpost.concluded _ _ _ .confirmed _
  | error error =>
      rw [settleDeployment]
      split
      · apply hpost.recorded (.line _)
        intro _
        exact hpost.concluded _ _ _ (.rolledBack _) _
      · exact hpost.failed _

variable (plan : DeployPlan) (settings : FlattenedDeploySettings)
  (data : DeployData) (defs : DeployDefs)

theorem waited (hpost : Carried host post)
    (disposition : ActivationDisposition)
    {rest : Except IoError Unit → HostProgram HostDeployResult}
    (hrest : ∀ reply, HostEnsures (rest reply) post) :
    HostEnsures (emitWait settings disposition >>= rest) post := by
  rw [emitWait]
  split
  · exact hpost.recorded (.milestone (by simp)) hrest
  · exact hrest (.ok ())

theorem activated (hpost : Carried host post)
    (disposition : ActivationDisposition) :
    HostEnsures (activateHost plan host settings data defs disposition)
      post := by
  apply hpost.recorded (.milestone (by simp))
  intro written
  cases written with
  | error _ => exact hpost.failed _
  | ok _ =>
      apply hpost.waited
      intro waiting
      cases waiting with
      | error _ => exact hpost.failed _
      | ok _ =>
          apply hpost.controlled
          intro deployment
          exact hpost.settled disposition deployment

theorem afterCopy (hpost : Carried host post) :
    HostEnsures (deployCopied plan host settings data defs) post := by
  apply hpost.controlled
  intro chosen
  cases chosen with
  | error _ => exact hpost.failed _
  | ok disposition =>
      apply hostEnsures_bind_sinkError
      intro slot
      cases slot with
      | some _ => exact hpost.failed _
      | none =>
          dsimp only
          split
          · apply hpost.recorded (.line _)
            intro _
            exact hpost.concluded _ _ _ .rebootPending _
          · exact hpost.activated plan settings data defs disposition

theorem copied (hpost : Carried host post) :
    HostEnsures (copyAndDeploy plan host settings data defs) post := by
  apply hpost.recorded (.milestone (by simp))
  intro written
  cases written with
  | error _ => exact hpost.failed _
  | ok _ =>
      apply hpost.controlled
      intro pushed
      cases pushed with
      | error _ => exact hpost.failed _
      | ok _ =>
          apply hostEnsures_bind_sinkError
          intro slot
          cases slot with
          | some _ => exact hpost.failed _
          | none => exact hpost.afterCopy plan settings data defs

omit plan settings data defs

/-- What is carried holds of a pipeline from its start record on. -/
theorem started (hpost : Carried host post)
    (fromValue : Json → Except String FlattenedDeploySettings)
    (run : RegisteredDeployRun) (built : BuiltProfiles)
    (programs : DeployPrograms) :
    HostEnsures (deployStarted fromValue run built host programs)
      post := by
  rw [deployStarted]
  cases run.plan.settings[host]? with
  | none => exact hpost.failed _
  | some value =>
      dsimp only
      cases fromValue value with
      | error _ => exact hpost.failed _
      | ok settings =>
          dsimp only
          cases built.paths[host]? with
          | none => exact hpost.failed _
          | some path =>
              dsimp only
              cases (hostDeployment host settings path programs).defs with
              | error _ => exact hpost.failed _
              | ok defs => exact hpost.copied run.plan settings _ defs

end Carried

end Judgement

/-! ## The result of a pipeline -/

section Results

/-- A result of this host in one of the final states. -/
structure SettledFor (host : String) (result : HostDeployResult) : Prop where
  host_eq : result.host = host
  terminal : isTerminal result.state

/-- A result that tells of a failure of this host. -/
structure FailedFor (host : String) (result : HostDeployResult) : Prop where
  host_eq : result.host = host
  failed : result.state = .failed

theorem FailedFor.settledFor {host : String} {result : HostDeployResult}
    (hfailed : FailedFor host result) : SettledFor host result where
  host_eq := hfailed.host_eq
  terminal := by rw [hfailed.failed]; rfl

theorem hostEnsures_hostResult (host : String) {state : HostState}
    (hstate : isTerminal state) (error : Option String) :
    HostEnsures (hostResult host state error) fun _ result =>
      SettledFor host result := by
  apply hostEnsures_bind_value
  intro written
  cases written with
  | ok _ => exact hostEnsures_pure ⟨rfl, hstate⟩
  | error _ => exact hostEnsures_pure ⟨rfl, rfl⟩

theorem hostEnsures_failedHost (host error : String) :
    HostEnsures (failedHost host error) fun _ result =>
      FailedFor host result := by
  apply hostEnsures_bind_value
  intro _
  apply hostEnsures_bind_value
  intro written
  cases written <;> exact hostEnsures_pure ⟨rfl, rfl⟩

theorem settles_failedHost (host error : String) :
    HostEnsures (failedHost host error) fun _ result =>
      SettledFor host result :=
  (hostEnsures_failedHost host error).mono fun _ _ hfailed =>
    hfailed.settledFor

theorem carried_settledFor (host : String) :
    Carried host fun _ result => SettledFor host result where
  passing _ _ _ _ _ hsettled := hsettled
  reports _ _ _ _ hsettled := hsettled
  failed error := settles_failedHost host error
  concluded milestone state error houtcome message := by
    apply hostEnsures_bind_value
    intro written
    cases written with
    | error _ => exact settles_failedHost host _
    | ok _ =>
        apply hostEnsures_hostResult
        cases houtcome <;> rfl

variable (host : String)

/-- A pipeline always ends with a final state of its own host. -/
theorem settles_deployHostWith
    (fromValue : Json → Except String FlattenedDeploySettings)
    (run : RegisteredDeployRun) (built : BuiltProfiles)
    (programs : DeployPrograms) :
    HostEnsures (deployHostWith fromValue run built host programs)
      fun _ result => SettledFor host result := by
  apply hostEnsures_bind_value
  intro opened
  cases opened with
  | error _ => exact hostEnsures_pure ⟨rfl, rfl⟩
  | ok _ =>
      apply hostEnsures_bind_value
      intro written
      cases written with
      | error _ => exact hostEnsures_pure ⟨rfl, rfl⟩
      | ok _ =>
          exact (carried_settledFor host).started fromValue run built
            programs

/-- A host that was never deployed, or whose task panicked, has failed. -/
theorem hostEnsures_abnormalHost (run : RegisteredDeployRun) (error : String) :
    HostEnsures (abnormalHost run host error) fun _ result =>
      FailedFor host result := by
  apply hostEnsures_bind_value
  intro opened
  cases opened with
  | error _ => exact hostEnsures_pure ⟨rfl, rfl⟩
  | ok _ =>
      apply hostEnsures_bind_value
      intro _
      exact hostEnsures_failedHost host error

end Results

end Mandala.Engine
