import Mandala.Deploy.Program

/-!
# Copying a closure and choosing its activation

The copy is the first effect of a deployment.  The copied generation then
judges whether a live switch is safe, before anything on the host is changed.
-/

namespace Mandala.Deploy

open Mandala.Text Mandala.Effects RemoteCommand

inductive PushProfileError where
  | remoteBuildUnsupported
  | spawn (error : IoError)
  | exit (status : ExitStatus)
  deriving DecidableEq, Repr

def PushProfileError.message : PushProfileError → String
  | remoteBuildUnsupported =>
      "remoteBuild is outside the native-deploy contract"
  | spawn error => "failed to run nix copy: " ++ error
  | exit status => "nix copy failed with " ++ status.message

/-- The `nix copy` of a deployment. -/
def copyCommand (data : DeployData) (defs : DeployDefs) (checkSigs : Bool) :
    Command :=
  .nixCopy (data.cmdOverrides.nixProgram.getD "nix")
    (["copy"] ++
      (if data.mergedSettings.fastConnection ≠ some true then
        ["--substitute-on-destination"] else []) ++
      (if checkSigs then [] else ["--no-check-sigs"]) ++
      ["--to", "ssh://" ++ defs.sshUser ++ "@" ++ data.hostname])
    data.closure
    (("NIX_SSHOPTS", data.nixSshOpts) :: data.cmdOverrides.environment)

/-- `push_profile`. -/
def pushProfile (data : DeployData) (defs : DeployDefs) (checkSigs : Bool) :
    Program Controller (Except PushProfileError Unit) := do
  if data.mergedSettings.remoteBuild = some true then
    return .error .remoteBuildUnsupported
  else
    emit .info ("copy-start profile=" ++ data.profileName ++ " host=" ++
      data.nodeName)
    match ← runOutput (copyCommand data defs checkSigs) with
    | .error error => return .error (.spawn error)
    | .ok output =>
        emitOutput output
        if output.status.success then
          emit .info "copy-complete"
          return .ok ()
        else return .error (.exit output.status)

/-- The activation path of a copied generation. -/
inductive ActivationDisposition where
  /-- Nothing is changed; a real deployment would or would not need a reboot. -/
  | dryPreview (rebootPending : Bool)
  | liveSwitch
  | bootStaging
  deriving DecidableEq, Repr

def ActivationDisposition.rebootPending : ActivationDisposition → Bool
  | bootStaging | dryPreview true => true
  | _ => false

def capabilityCommand (data : DeployData) (defs : DeployDefs) : Command :=
  onTarget data defs (.testSwitchInhibitors data.closure)

def checkCommand (data : DeployData) (defs : DeployDefs) : Command :=
  onTarget data defs (.switchCheck defs.sudoCommand data.closure)

/-- The generation has the capability: it judges the switch itself. -/
def runPreflight (data : DeployData) (defs : DeployDefs) (dryActivate : Bool) :
    DeployProgram ActivationDisposition := do
  let check := RemoteCommand.switchCheck defs.sudoCommand data.closure
  emit .debug ("switch-preflight-command " ++ check.text)
  let output ← orFail .preflightSpawn
    (← runOutput (checkCommand data defs))
  emitOutput output
  if output.status.success then
    emit .info "target switch preflight accepted live activation"
    return if dryActivate then .dryPreview false else .liveSwitch
  else if output.status.code = some 255 then
    throw (.preflightTransport output.status)
  else
    emit .info
      "target switch preflight refused live activation; selecting boot-only staging"
    return if dryActivate then .dryPreview true else .bootStaging

/-- `resolve_activation_disposition`: a boot request skips the preflight, and a
generation without the capability marker keeps the legacy switch. -/
def resolveActivationDisposition (data : DeployData) (defs : DeployDefs)
    (dryActivate boot : Bool) : DeployProgram ActivationDisposition := do
  if boot then
    return if dryActivate then .dryPreview true else .bootStaging
  else
    let capability := RemoteCommand.testSwitchInhibitors data.closure
    emit .debug ("switch-capability-command " ++ capability.text)
    let output ← orFail .capabilityProbeSpawn
      (← runOutput (capabilityCommand data defs))
    emitOutput output
    if output.status.code = some 0 then runPreflight data defs dryActivate
    else if output.status.code = some 1 then
      emit .info
        "target generation has no switch-inhibitor contract; preserving legacy switch behavior"
      return if dryActivate then .dryPreview false else .liveSwitch
    else throw (.capabilityProbeExit output.status)

/-! ## What the copy does -/

/-- Whether a process copies this store path. -/
def Command.copies (path : String) : Command → Bool
  | nixCopy _ _ source _ => source = path
  | ssh .. => false

/-- The exchange saw a copy of this path end with exit code zero. -/
def sawCopy (path : String) (exchange : Exchange Processes) : Bool :=
  (settled exchange).any fun done => done.1.copies path && succeeded done.2

/-- A copy of this path ran to exit code zero. -/
def copied (path : String) (trace : Trace Processes) : Bool :=
  trace.any (sawCopy path)

theorem copied_append (path : String) (first second : Trace Processes) :
    copied path (first ++ second) = (copied path first || copied path second) :=
  List.any_append

section Specs

variable (data : DeployData) (defs : DeployDefs)

@[simp]
theorem runs_copyCommand (kind : RemoteCommand → Bool) (checkSigs : Bool) :
    (copyCommand data defs checkSigs).runs kind = false := rfl

/-- A conversation that ran nothing on the host itself. -/
structure Local (trace : Trace Processes) : Prop where
  remote : ∀ command ∈ issued trace, command.remote = none
  broke : ∀ kind, broke kind trace = false

theorem local_copy (checkSigs : Bool) (started : Except IoError Unit)
    (rest : Trace Processes) (hrest : Local rest) :
    Local (⟨.spawn (copyCommand data defs checkSigs), started⟩ :: rest) where
  remote := by
    intro command hmem
    have hcommand : command ∈ copyCommand data defs checkSigs ::
        issued rest := hmem
    rcases List.mem_cons.mp hcommand with rfl | hrestMem
    · rfl
    · exact hrest.remote command hrestMem
  broke kind := by
    cases started with
    | error error => simp [hrest.broke kind]
    | ok _ => simp [hrest.broke kind]

/-- The copy sends nothing to the host over ssh, and it is reported as done
only when the closure was copied. -/
theorem ensures_pushProfile (checkSigs : Bool) :
    Ensures (silent (pushProfile data defs checkSigs)) fun trace result =>
      Local trace ∧ (result = .ok () → copied data.closure trace) := by
  have hnil : Local [] := ⟨fun _ hmem => (by cases hmem), fun _ => rfl⟩
  have hawait (finished : Finished) :
      Local [⟨.await (copyCommand data defs checkSigs), finished⟩] :=
    ⟨fun _ hmem => (by cases hmem), fun kind => (by simp)⟩
  rw [pushProfile]
  split
  · rw [Program.pure_eq_done, silent_done, ensures_done_iff]
    exact ⟨hnil, fun hok => (by cases hok)⟩
  · simp only [silent_bind, silent_emit, silent_runOutput, Program.done_bind,
      ensures_bind_iff, ensures_runProcess_iff]
    constructor
    · intro error
      simp only [Program.pure_eq_done, silent_done, ensures_done_iff,
        List.append_nil]
      exact ⟨local_copy data defs _ _ [] hnil, fun hok => (by cases hok)⟩
    · intro finished
      have hlocal := local_copy data defs checkSigs (.ok ()) _ (hawait finished)
      cases finished with
      | error error =>
          simp only [Program.pure_eq_done, silent_done, ensures_done_iff,
            List.append_nil]
          exact ⟨hlocal, fun hok => (by cases hok)⟩
      | ok output =>
          rw [silent_bind, silent_emitOutput, Program.done_bind]
          cases hstatus : output.status.success with
          | false =>
              simp only [Bool.false_eq_true, if_false, Program.pure_eq_done,
                silent_done, ensures_done_iff, List.append_nil]
              exact ⟨hlocal, fun hok => (by cases hok)⟩
          | true =>
              simp only [if_true, silent_bind, silent_emit, Program.done_bind,
                Program.pure_eq_done, silent_done, ensures_done_iff,
                List.append_nil]
              refine ⟨hlocal, fun _ => ?_⟩
              simp [copied, sawCopy, settled, copyCommand, Command.copies,
                succeeded, hstatus]

/-! ## What the choice rests on -/

/-- What is known about a run whose activation path was chosen. -/
def Justified (dryActivate boot : Bool) (trace : Trace Processes) :
    ActivationDisposition → Prop
  | .dryPreview _ => dryActivate = true
  | .bootStaging => dryActivate = false
  | .liveSwitch =>
      dryActivate = false ∧ boot = false ∧ broke isSwitchCheck trace = false

theorem issues_runPreflight (dryActivate : Bool) :
    Issues isProbe (processes (runPreflight data defs dryActivate)) := by
  apply issues_bind (issues_emit _ _)
  intro _
  apply issues_bind (issues_runOutput rfl)
  intro finished
  apply issues_bind (issues_orFail _ _)
  intro output
  apply issues_bind (issues_emitOutput output)
  intro _
  split
  · exact issues_bind (issues_emit _ _) fun _ => issues_pure _
  · split
    · exact issues_throw _
    · exact issues_bind (issues_emit _ _) fun _ => issues_pure _

/-- Choosing an activation path only asks questions. -/
theorem issues_resolveActivationDisposition (dryActivate boot : Bool) :
    Issues isProbe
      (processes (resolveActivationDisposition data defs dryActivate boot)) := by
  rw [resolveActivationDisposition]
  split
  · exact issues_pure _
  · apply issues_bind (issues_emit _ _)
    intro _
    apply issues_bind (issues_runOutput rfl)
    intro finished
    apply issues_bind (issues_orFail _ _)
    intro output
    apply issues_bind (issues_emitOutput output)
    intro _
    split
    · exact issues_runPreflight data defs dryActivate
    · split
      · exact issues_bind (issues_emit _ _) fun _ => issues_pure _
      · exact issues_throw _

/-- The generation's own judgement allows a live switch only when it
accepted one. -/
theorem ensures_runPreflight (dryActivate : Bool) :
    Ensures (processes (runPreflight data defs dryActivate))
      fun trace result => ∀ disposition, result = .ok disposition →
        Justified dryActivate false trace disposition := by
  simp only [runPreflight, processes_bind, processes_liftM, silent_emit,
    silent_runOutput, processes_orFail, silent_emitOutput, Program.done_bind,
    ensures_bind_iff, ensures_runProcess_iff]
  constructor
  · intro error
    simp only [Except.mapError, ensures_done_iff]
    intro disposition hok
    cases hok
  · intro finished
    cases finished with
    | error error =>
        simp only [Except.mapError, ensures_done_iff]
        intro disposition hok
        cases hok
    | ok output =>
        simp only [Except.mapError, ensures_done_iff, List.append_nil]
        cases hstatus : output.status.success with
        | true =>
            simp only [if_true, processes_bind, processes_liftM, silent_emit,
              processes_pure, Program.done_bind, ensures_done_iff]
            intro disposition hok
            cases hok
            cases dryActivate with
            | true => rfl
            | false =>
                refine ⟨rfl, rfl, ?_⟩
                simp [succeeded, hstatus]
        | false =>
            simp only [Bool.false_eq_true, if_false]
            split
            · rw [processes_throw, ensures_done_iff]
              intro disposition hok
              cases hok
            · simp only [processes_bind, processes_liftM, silent_emit,
                processes_pure, Program.done_bind, ensures_done_iff]
              intro disposition hok
              cases hok
              cases dryActivate <;> rfl

/-- A live switch is chosen only for a real run without a boot request whose
generation did not refuse it. -/
theorem ensures_resolveActivationDisposition (dryActivate boot : Bool) :
    Ensures
      (processes (resolveActivationDisposition data defs dryActivate boot))
      fun trace result => ∀ disposition, result = .ok disposition →
        Justified dryActivate boot trace disposition := by
  cases boot with
  | true =>
      simp only [resolveActivationDisposition, if_true, processes_pure,
        ensures_done_iff]
      intro disposition hok
      cases hok
      cases dryActivate <;> rfl
  | false =>
      simp only [resolveActivationDisposition, Bool.false_eq_true, if_false,
        processes_bind, processes_liftM, silent_emit, silent_runOutput,
        processes_orFail, silent_emitOutput, Program.done_bind,
        ensures_bind_iff, ensures_runProcess_iff]
      constructor
      · intro error
        simp only [Except.mapError, ensures_done_iff]
        intro disposition hok
        cases hok
      · intro finished
        have hprobe : broke isSwitchCheck
            [⟨.spawn (capabilityCommand data defs), .ok ()⟩,
              ⟨.await (capabilityCommand data defs), finished⟩] = false := by
          simp [capabilityCommand, isSwitchCheck]
        cases finished with
        | error error =>
            simp only [Except.mapError, ensures_done_iff]
            intro disposition hok
            cases hok
        | ok output =>
            simp only [Except.mapError, ensures_done_iff, List.append_nil]
            split
            · refine (ensures_runPreflight data defs dryActivate).mono ?_
              intro trace result hresult disposition hok
              have hjustified := hresult disposition hok
              cases disposition with
              | dryPreview _ => exact hjustified
              | bootStaging => exact hjustified
              | liveSwitch =>
                  refine ⟨hjustified.1, rfl, ?_⟩
                  rw [broke_append, hprobe, hjustified.2.2]
                  rfl
            · split
              · simp only [processes_bind, processes_liftM, silent_emit,
                  processes_pure, Program.done_bind, ensures_done_iff,
                  List.append_nil]
                intro disposition hok
                cases hok
                cases dryActivate with
                | true => rfl
                | false => exact ⟨rfl, rfl, hprobe⟩
              · rw [processes_throw, ensures_done_iff]
                intro disposition hok
                cases hok

end Specs

end Mandala.Deploy
