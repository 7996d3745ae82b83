import Mandala.Deploy.Program

/-!
# Boot-only staging as a transaction

Staging points the system profile at the new closure and makes it the boot
default, without touching the running system.  When a step fails after the
previous profile was resolved, both are put back, and the error tells whether
that worked.
-/

namespace Mandala.Deploy

open Mandala.Text Mandala.Effects RemoteCommand

section Staging

variable (data : DeployData) (defs : DeployDefs)

/-- `boot_stage_command`. -/
def bootStageCommand (label : String) (remote : RemoteCommand) :
    Program Controller (Except String Unit) := do
  emit .debug (label ++ "-command " ++ remote.text)
  match ← runOutput (onTarget data defs remote) with
  | .error error => return .error (label ++ " spawn failed: " ++ error)
  | .ok output =>
      emitOutput output
      if output.status.success then return .ok ()
      else
        return .error (label ++ " exited with " ++ output.status.message)

/-- The recovery report when both the profile and the boot default are back. -/
def restoredMessage : String := "restored previous profile and boot default"

/-- What a recovery reports for the outcomes of its two commands. -/
def recoveryMessage : Except String Unit → Except String Unit → String
  | .ok (), .ok () => restoredMessage
  | .error profile, .ok () => profile
  | .ok (), .error boot => boot
  | .error profile, .error boot => profile ++ "; " ++ boot

/-- `recover_boot_stage`: both commands run, whatever the first one did. -/
def recoverBootStage (profilePath previous : String) :
    Program Controller String := do
  let profile ← bootStageCommand data defs "boot-recovery-profile"
    (.setProfile defs.sudoCommand profilePath previous)
  let boot ← bootStageCommand data defs "boot-recovery-default"
    (.switchBoot defs.sudoCommand previous)
  return recoveryMessage profile boot

/-- The store path a `readlink` printed. -/
def printedPath (output : Output) : String :=
  String.ofList (trim (fromUtf8Lossy output.stdout).toList)

def isStorePath (path : String) : Bool :=
  decide ("/nix/store/".toList <+: path.toList)

/-- Run one staging command; when it fails, recover and report both. -/
def stageOrRecover (profilePath previous label : String)
    (remote : RemoteCommand) : DeployProgram Unit := do
  match ← bootStageCommand data defs label remote with
  | .ok () => pure ()
  | .error primary =>
      let recovery ← recoverBootStage data defs profilePath previous
      throw (.bootStage primary recovery)

/-- Both staging steps, once the previous profile is known. -/
def stageClosure (profilePath previous : String) : DeployProgram Unit := do
  stageOrRecover data defs profilePath previous "boot-stage-profile"
    (.setProfile defs.sudoCommand profilePath data.closure)
  stageOrRecover data defs profilePath previous "boot-stage-default"
    (.switchBoot defs.sudoCommand data.closure)
  emit .info "boot-only staging complete; target requires reboot"

/-- Stage once the profile link was asked for, if it resolved to a store
path. -/
def stageResolved (profilePath : String) (output : Output) :
    DeployProgram Unit :=
  if !output.status.success then throw (.previousProfileExit output.status)
  else if !isStorePath (printedPath output) then throw .previousProfileInvalid
  else stageClosure data defs profilePath (printedPath output)

/-- `stage_profile_for_boot`. -/
def stageProfileForBoot : DeployProgram Unit := do
  if data.mergedSettings.interactiveSudo = some true then
    throw .interactiveSudoUnsupported
  else
    let info ← orFail .invalidDeployData data.profileInfo
    let resolve := RemoteCommand.readlink defs.sudoCommand (profilePath info)
    emit .debug ("previous-profile-command " ++ resolve.text)
    let output ← orFail .previousProfileSpawn
      (← runOutput (onTarget data defs resolve))
    emitOutput output
    stageResolved data defs (profilePath info) output

end Staging

/-! ## Which commands a staging starts -/

section Issuing

variable (data : DeployData) (defs : DeployDefs)

theorem issues_bootStageCommand (label : String) {remote : RemoteCommand}
    (hremote : remote.isStaging) :
    Issues isStaging (silent (bootStageCommand data defs label remote)) := by
  simp only [bootStageCommand, silent_bind, silent_emit, silent_runOutput,
    Program.done_bind]
  have hcommand : (onTarget data defs remote).runs isStaging := hremote
  apply Only.bind (issues_runProcess hcommand)
  intro finished
  cases finished with
  | error error => exact issues_done _
  | ok output =>
      rw [silent_bind, silent_emitOutput, Program.done_bind]
      split <;> exact issues_done _

theorem issues_stageOrRecover (link previous label : String)
    {remote : RemoteCommand} (hremote : remote.isStaging) :
    Issues isStaging
      (processes (stageOrRecover data defs link previous label remote)) := by
  apply issues_bind
  · exact issues_liftM (issues_bootStageCommand data defs label hremote)
  intro outcome
  cases outcome with
  | ok _ => exact issues_pure _
  | error primary =>
      apply issues_bind
      · apply issues_liftM
        rw [recoverBootStage, silent_bind]
        apply Only.bind (issues_bootStageCommand data defs _ rfl)
        intro profile
        rw [silent_bind]
        apply Only.bind (issues_bootStageCommand data defs _ rfl)
        intro boot
        exact issues_done _
      · intro recovery
        exact issues_throw _

/-- A boot staging starts its own commands only: it never activates. -/
theorem issues_stageProfileForBoot :
    Issues isStaging (processes (stageProfileForBoot data defs)) := by
  rw [stageProfileForBoot]
  split
  · exact issues_throw _
  · apply issues_bind (issues_orFail _ _)
    intro info
    apply issues_bind (issues_emit _ _)
    intro _
    apply issues_bind (issues_runOutput rfl)
    intro finished
    apply issues_bind (issues_orFail _ _)
    intro output
    apply issues_bind (issues_emitOutput output)
    intro _
    rw [stageResolved]
    split
    · exact issues_throw _
    · split
      · exact issues_throw _
      · exact issues_bind (issues_stageOrRecover data defs _ _ _ rfl) fun _ =>
          issues_bind (issues_stageOrRecover data defs _ _ _ rfl) fun _ =>
            issues_emit _ _

end Issuing

/-! ## The staged host -/

/-- What staging can change on a host: the closure its system profile points to
and the closure it boots by default. -/
structure RemoteHost where
  profile : String
  bootDefault : String
  deriving DecidableEq, Repr

/-- The effect of a command on the profile at `link` and on the boot default.
The commands staging issues besides these two only read. -/
def RemoteHost.apply (link : String) (host : RemoteHost) :
    RemoteCommand → RemoteHost
  | .setProfile _ profilePath closure =>
      if profilePath = link then { host with profile := closure } else host
  | .switchBoot _ closure => { host with bootDefault := closure }
  | _ => host

/-- A successful `readlink` of the profile link prints the closure it points
to. -/
def Prints (link : String) (host : RemoteHost) (remote : RemoteCommand)
    (output : Output) : Prop :=
  match remote with
  | .readlink _ profilePath =>
      profilePath = link → printedPath output = host.profile
  | _ => True

/-- One exchange seen from the host: a command that succeeds takes effect, and
one that fails does so before or after its effect. -/
inductive HostStep (link : String) :
    RemoteHost → Exchange Processes → RemoteHost → Prop where
  | spawn (host : RemoteHost) (command : Command)
      (reply : Except IoError Unit) :
      HostStep link host ⟨.spawn command, reply⟩ host
  | succeed {host : RemoteHost} {command : Command} {remote : RemoteCommand}
      {output : Output} (hremote : command.remote = some remote)
      (hsuccess : output.status.success) (hprints : Prints link host remote output) :
      HostStep link host ⟨.await command, .ok output⟩ (host.apply link remote)
  | failBefore (host : RemoteHost) (command : Command) {finished : Finished}
      (hfailed : succeeded finished = false) :
      HostStep link host ⟨.await command, finished⟩ host
  | failAfter {host : RemoteHost} {command : Command} {remote : RemoteCommand}
      {finished : Finished} (hremote : command.remote = some remote)
      (hfailed : succeeded finished = false) :
      HostStep link host ⟨.await command, finished⟩ (host.apply link remote)

/-- A conversation run against a host. -/
inductive RunsOn (link : String) :
    RemoteHost → Trace Processes → RemoteHost → Prop where
  | nil (host : RemoteHost) : RunsOn link host [] host
  | cons {before middle after : RemoteHost} {exchange : Exchange Processes}
      {trace : Trace Processes} (hstep : HostStep link before exchange middle)
      (hrest : RunsOn link middle trace after) :
      RunsOn link before (exchange :: trace) after

theorem RunsOn.append {link : String} {before after : RemoteHost}
    {first second : Trace Processes}
    (hruns : RunsOn link before (first ++ second) after) :
    ∃ middle, RunsOn link before first middle ∧
      RunsOn link middle second after := by
  induction first generalizing before with
  | nil => exact ⟨before, .nil before, hruns⟩
  | cons exchange first ih =>
      cases hruns with
      | cons hstep hrest =>
          obtain ⟨middle, hfirst, hsecond⟩ := ih hrest
          exact ⟨middle, .cons hstep hfirst, hsecond⟩

theorem RunsOn.of_nil {link : String} {before after : RemoteHost}
    (hruns : RunsOn link before [] after) : after = before := by
  cases hruns
  rfl

theorem RunsOn.of_spawn {link : String} {before after : RemoteHost}
    {command : Command} {reply : Except IoError Unit}
    (hruns : RunsOn link before [⟨.spawn command, reply⟩] after) :
    after = before := by
  cases hruns with
  | cons hstep hrest =>
      cases hstep
      exact hrest.of_nil

/-- A process run to its end either took effect or, if it failed, may not
have. -/
theorem RunsOn.of_process {link : String} {before after : RemoteHost}
    {data : DeployData} {defs : DeployDefs} {remote : RemoteCommand}
    {reply : Except IoError Unit} {finished : Finished}
    (hruns : RunsOn link before
      [⟨.spawn (onTarget data defs remote), reply⟩,
        ⟨.await (onTarget data defs remote), finished⟩] after) :
    (after = before.apply link remote ∨
      succeeded finished = false ∧ after = before) ∧
      ∀ output, finished = .ok output → output.status.success →
        Prints link before remote output := by
  cases hruns with
  | cons hspawn hrest =>
      cases hspawn
      cases hrest with
      | cons hawait hrest =>
          have hend := hrest.of_nil
          subst hend
          cases hawait with
          | succeed hremote hsuccess hprints =>
              cases hremote
              refine ⟨.inl rfl, ?_⟩
              intro output houtput _
              cases houtput
              exact hprints
          | failBefore _ hfailed =>
              refine ⟨.inr ⟨hfailed, rfl⟩, ?_⟩
              intro output houtput hsuccess
              rw [houtput, succeeded, hsuccess] at hfailed
              cases hfailed
          | failAfter hremote hfailed =>
              cases hremote
              refine ⟨.inl rfl, ?_⟩
              intro output houtput hsuccess
              rw [houtput, succeeded, hsuccess] at hfailed
              cases hfailed

/-! ## What each part does to the host -/

section Parts

variable (data : DeployData) (defs : DeployDefs)

/-- One staging command: on success it took effect, and its error starts with
its label. -/
theorem ensures_bootStageCommand (label : String) (remote : RemoteCommand) :
    Ensures (silent (bootStageCommand data defs label remote))
      fun trace result =>
          (∀ text, result = .error text → ∃ rest, text = label ++ rest) ∧
          ∀ link before after, RunsOn link before trace after →
            after = before.apply link remote ∨
              (∃ text, result = .error text) ∧ after = before := by
  simp only [bootStageCommand, silent_bind, silent_emit, silent_runOutput,
    Program.done_bind, ensures_bind_iff, ensures_runProcess_iff]
  constructor
  · intro error
    simp only [Program.pure_eq_done, silent_done, ensures_done_iff]
    constructor
    · intro text htext
      cases htext
      exact ⟨" spawn failed: " ++ error, by rw [String.append_assoc]⟩
    · intro link before after hruns
      exact .inr ⟨⟨_, rfl⟩, hruns.of_spawn⟩
  · intro finished
    cases finished with
    | error error =>
        simp only [Program.pure_eq_done, silent_done, ensures_done_iff]
        constructor
        · intro text htext
          cases htext
          exact ⟨" spawn failed: " ++ error, by rw [String.append_assoc]⟩
        · intro link before after hruns
          rcases hruns.of_process.1 with heffect | ⟨-, hnone⟩
          · exact .inl heffect
          · exact .inr ⟨⟨_, rfl⟩, hnone⟩
    | ok output =>
        simp only [silent_bind, silent_emitOutput, Program.done_bind]
        cases hstatus : output.status.success with
        | true =>
            simp only [if_true, Program.pure_eq_done, silent_done,
              ensures_done_iff]
            constructor
            · intro text htext
              cases htext
            · intro link before after hruns
              rcases hruns.of_process.1 with heffect | ⟨hfailed, -⟩
              · exact .inl heffect
              · rw [succeeded, hstatus] at hfailed
                cases hfailed
        | false =>
            simp only [Bool.false_eq_true, if_false, Program.pure_eq_done,
              silent_done, ensures_done_iff]
            constructor
            · intro text htext
              cases htext
              exact ⟨" exited with " ++ output.status.message,
                by rw [String.append_assoc]⟩
            · intro link before after hruns
              rcases hruns.of_process.1 with heffect | ⟨-, hnone⟩
              · exact .inl heffect
              · exact .inr ⟨⟨_, rfl⟩, hnone⟩

/-- A recovery that lost a command never reports the previous state back. -/
theorem recoveryMessage_eq_restored {profile boot : Except String Unit}
    (hprofile : ∀ text, profile = .error text →
      ∃ rest, text = "boot-recovery-profile" ++ rest)
    (hboot : ∀ text, boot = .error text →
      ∃ rest, text = "boot-recovery-default" ++ rest)
    (hrestored : recoveryMessage profile boot = restoredMessage) :
    profile = .ok () ∧ boot = .ok () := by
  have hhead (label rest : String)
      (hlabel : label.toList.head? = some 'b') :
      label ++ rest ≠ restoredMessage := by
    intro heq
    have hfirst := congrArg (fun text => text.toList.head?) heq
    simp [hlabel, restoredMessage] at hfirst
  rcases profile with text | _
  · obtain ⟨rest, rfl⟩ := hprofile text rfl
    exfalso
    rcases boot with other | _
    · rw [recoveryMessage, String.append_assoc, String.append_assoc] at hrestored
      exact hhead _ _ (by decide) hrestored
    · exact hhead _ _ (by decide) hrestored
  · rcases boot with text | _
    · obtain ⟨rest, rfl⟩ := hboot text rfl
      exact absurd hrestored (hhead _ _ (by decide))
    · exact ⟨rfl, rfl⟩

/-- A recovery that reports success has put both back. -/
theorem ensures_recoverBootStage (link previous : String) :
    Ensures (silent (recoverBootStage data defs link previous))
      fun trace text =>
        ∀ before after, RunsOn link before trace after →
            text = restoredMessage →
              after = { profile := previous, bootDefault := previous } := by
  simp only [recoverBootStage, silent_bind, ensures_bind_iff]
  refine (ensures_bootStageCommand data defs _ _).mono ?_
  intro first profile hprofile
  refine (ensures_bootStageCommand data defs _ _).mono ?_
  intro second boot hboot
  simp only [Program.pure_eq_done, silent_done, ensures_done_iff,
    List.append_nil]
  intro before after hruns hrestored
  obtain ⟨hprofileOk, hbootOk⟩ :=
    recoveryMessage_eq_restored hprofile.1 hboot.1 hrestored
  obtain ⟨middle, hfirst, hsecond⟩ := hruns.append
  have hmiddle : middle =
      before.apply link (.setProfile defs.sudoCommand link previous) := by
    rcases hprofile.2 link before middle hfirst with heffect | ⟨⟨_, herror⟩, -⟩
    · exact heffect
    · rw [hprofileOk] at herror
      cases herror
  have hafter : after =
      middle.apply link (.switchBoot defs.sudoCommand previous) := by
    rcases hboot.2 link middle after hsecond with heffect | ⟨⟨_, herror⟩, -⟩
    · exact heffect
    · rw [hbootOk] at herror
      cases herror
  rw [hafter, hmiddle]
  simp [RemoteHost.apply]

theorem ensures_stageOrRecover (link previous label : String)
    (remote : RemoteCommand) :
    Ensures (processes (stageOrRecover data defs link previous label remote))
      fun trace result =>
        ∀ before after, RunsOn link before trace after →
            (result = .ok () → after = before.apply link remote) ∧
              ∀ primary,
                result = .error (.bootStage primary restoredMessage) →
                after = { profile := previous, bootDefault := previous } := by
  simp only [stageOrRecover, processes_bind, processes_liftM,
    ensures_bind_iff]
  refine (ensures_bootStageCommand data defs label remote).mono ?_
  intro first outcome houtcome
  rw [ensures_done_iff]
  rcases outcome with text | _
  · simp only [processes_bind, processes_liftM, ensures_bind_iff]
    refine (ensures_recoverBootStage data defs link previous).mono ?_
    intro second recovery hrecovery
    simp only [processes_throw, ensures_done_iff, List.append_nil]
    intro before after hruns
    obtain ⟨middle, -, hsecond⟩ := hruns.append
    refine ⟨fun hok => (by cases hok), ?_⟩
    intro primary hresult
    cases hresult
    exact hrecovery middle after hsecond rfl
  · simp only [processes_pure, ensures_done_iff, List.append_nil]
    intro before after hruns
    refine ⟨?_, fun primary hresult => (by cases hresult)⟩
    intro _
    rcases houtcome.2 link before after hruns with heffect | ⟨⟨_, herror⟩, -⟩
    · exact heffect
    · cases herror

end Parts

/-! ## The transaction -/

/-- The profile link a staging works on. -/
def DeployData.systemProfile (data : DeployData) : String :=
  match data.profileInfo with
  | .ok info => profilePath info
  | .error _ => ""

/-- The exchange resolved the profile link to a store path. -/
def sawPrevious : Exchange Processes → Bool
  | ⟨.await _, .ok output⟩ =>
      output.status.success && isStorePath (printedPath output)
  | _ => false

/-- The previous profile was resolved in this conversation. -/
def resolvedPrevious (trace : Trace Processes) : Bool := trace.any sawPrevious

/-- What an operator may rely on after a boot staging. -/
structure Transactional (data : DeployData) (before : RemoteHost)
    (trace : Trace Processes) (result : Except DeployProfileError Unit)
    (after : RemoteHost) : Prop where
  committed : result = .ok () →
    after = { profile := data.closure, bootDefault := data.closure }
  untouched : resolvedPrevious trace = false → after = before
  restored : ∀ primary,
    result = .error (.bootStage primary restoredMessage) →
    before.bootDefault = before.profile → after = before
  notLive : ∀ command ∈ issued trace, command.runs isActivation = false

theorem notLive_of_issues {A : Type} {program : Program Processes A}
    {trace : Trace Processes} {value : A}
    (hissues : Issues isStaging program)
    (hexec : Executes program trace value) :
    ∀ command ∈ issued trace, command.runs isActivation = false := by
  intro command hmem
  have hkind := hissues.of_executes hexec command hmem
  cases command with
  | nixCopy => rfl
  | ssh _ _ remote _ => exact not_isActivation_of_isStaging hkind

/-- A staging that failed before it resolved the previous profile changed
nothing. -/
theorem Transactional.of_unresolved {data : DeployData}
    {before after : RemoteHost} {trace : Trace Processes}
    {error : DeployProfileError} (hsame : after = before)
    (hnotLive : ∀ command ∈ issued trace, command.runs isActivation = false) :
    Transactional data before trace (.error error) after where
  committed hok := by cases hok
  untouched _ := hsame
  restored _ _ _ := hsame
  notLive := hnotLive

/-- Once the previous profile is known, both steps commit or are recovered. -/
theorem ensures_stageClosure (data : DeployData) (defs : DeployDefs)
    (link previous : String) :
    Ensures (processes (stageClosure data defs link previous))
      fun trace result => ∀ before after, RunsOn link before trace after →
        (result = .ok () →
          after = { profile := data.closure, bootDefault := data.closure }) ∧
        ∀ primary, result = .error (.bootStage primary restoredMessage) →
          after = { profile := previous, bootDefault := previous } := by
  simp only [stageClosure, processes_bind, processes_liftM, silent_emit,
    Program.done_bind, ensures_bind_iff]
  refine (ensures_stageOrRecover data defs link previous _ _).mono ?_
  intro first profile hprofile
  cases profile with
  | error error =>
      simp only [ensures_done_iff, List.append_nil]
      intro before after hruns
      exact ⟨fun hok => (by cases hok), (hprofile before after hruns).2⟩
  | ok _ =>
      simp only [ensures_bind_iff]
      refine (ensures_stageOrRecover data defs link previous _ _).mono ?_
      intro second boot hboot
      have hcommitted (before after : RemoteHost)
          (hruns : RunsOn link before (first ++ second) after) :
          (boot = .ok () →
            after = { profile := data.closure, bootDefault := data.closure }) ∧
          ∀ primary, boot = .error (.bootStage primary restoredMessage) →
            after = { profile := previous, bootDefault := previous } := by
        obtain ⟨middle, hfirst, hsecond⟩ := hruns.append
        have hmiddle := (hprofile before middle hfirst).1 rfl
        refine ⟨?_, (hboot middle after hsecond).2⟩
        intro hok
        rw [(hboot middle after hsecond).1 hok, hmiddle]
        simp [RemoteHost.apply]
      cases boot with
      | error error =>
          simp only [ensures_done_iff, List.append_nil]
          exact hcommitted
      | ok _ =>
          rw [ensures_done_iff, List.append_nil]
          exact hcommitted

/-- A readable answer decides whether anything is staged at all. -/
theorem ensures_stageResolved (data : DeployData) (defs : DeployDefs)
    (link : String) (output : Output) :
    Ensures (processes (stageResolved data defs link output))
      fun trace result =>
        (∃ error, result = .error error) ∧ trace = [] ∨
          (output.status.success && isStorePath (printedPath output)) ∧
          ∀ before after, RunsOn link before trace after →
            (result = .ok () →
              after =
                { profile := data.closure, bootDefault := data.closure }) ∧
            ∀ primary, result = .error (.bootStage primary restoredMessage) →
              after = { profile := printedPath output
                        bootDefault := printedPath output } := by
  rw [stageResolved]
  cases hstatus : output.status.success with
  | false =>
      simp only [Bool.not_false, if_true, processes_throw, ensures_done_iff]
      exact .inl ⟨⟨_, rfl⟩, trivial⟩
  | true =>
      cases hpath : isStorePath (printedPath output) with
      | false =>
          simp only [Bool.not_true, Bool.false_eq_true, if_false,
            Bool.not_false, if_true, processes_throw, ensures_done_iff]
          exact .inl ⟨⟨_, rfl⟩, trivial⟩
      | true =>
          simp only [Bool.not_true, Bool.false_eq_true, if_false]
          refine (ensures_stageClosure data defs link _).mono ?_
          intro trace result hstage
          exact .inr ⟨rfl, hstage⟩

/-- The transaction, given that the conversation holds no activation. -/
theorem ensures_stageProfileForBoot (data : DeployData) (defs : DeployDefs) :
    Ensures (processes (stageProfileForBoot data defs)) fun trace result =>
      (∀ command ∈ issued trace, command.runs isActivation = false) →
      ∀ before after, RunsOn data.systemProfile before trace after →
        Transactional data before trace result after := by
  rw [stageProfileForBoot]
  split
  · rw [processes_throw, ensures_done_iff]
    intro hnotLive before after hruns
    exact .of_unresolved hruns.of_nil hnotLive
  · rw [processes_bind, processes_orFail, Program.done_bind]
    cases hinfo : data.profileInfo with
    | error error =>
        simp only [Except.mapError, ensures_done_iff]
        intro hnotLive before after hruns
        exact .of_unresolved hruns.of_nil hnotLive
    | ok info =>
        have hlink : data.systemProfile = profilePath info := by
          rw [DeployData.systemProfile, hinfo]
        let resolve := RemoteCommand.readlink defs.sudoCommand (profilePath info)
        have hreads {before after : RemoteHost} {finished : Finished}
            (hruns : RunsOn data.systemProfile before
              [⟨.spawn (onTarget data defs resolve), .ok ()⟩,
                ⟨.await (onTarget data defs resolve), finished⟩] after) :
            after = before := by
          rcases hruns.of_process.1 with heffect | ⟨-, hnone⟩
          · exact heffect
          · exact hnone
        simp only [Except.mapError, processes_bind, processes_liftM,
          silent_emit, silent_runOutput, processes_orFail, Program.done_bind,
          ensures_bind_iff, ensures_runProcess_iff]
        constructor
        · intro error
          simp only [ensures_done_iff, List.append_nil]
          intro hnotLive before after hruns
          exact .of_unresolved hruns.of_spawn hnotLive
        · intro finished
          cases finished with
          | error error =>
              simp only [ensures_done_iff, List.append_nil]
              intro hnotLive before after hruns
              exact .of_unresolved (hreads hruns) hnotLive
          | ok output =>
              simp only [silent_emitOutput, Program.done_bind, ensures_done_iff,
                List.append_nil]
              refine (ensures_stageResolved data defs _ output).mono ?_
              intro trace result hstage hnotLive before after hruns
              obtain ⟨middle, hfirst, hsecond⟩ := RunsOn.append hruns
              have hmiddle := hreads hfirst
              obtain hrefused | ⟨hresolved, hstaged⟩ := hstage
              · obtain ⟨⟨error, rfl⟩, rfl⟩ := hrefused
                exact .of_unresolved (hsecond.of_nil.trans hmiddle) hnotLive
              · obtain ⟨hstatus, hpath⟩ := Bool.and_eq_true_iff.mp hresolved
                have hprinted : printedPath output = before.profile :=
                  hfirst.of_process.2 output rfl hstatus hlink.symm
                rw [hmiddle, hlink] at hsecond
                have hoperator := hstaged before after hsecond
                refine ⟨hoperator.1, ?_, ?_, hnotLive⟩
                · intro hunresolved
                  simp [resolvedPrevious, sawPrevious, hstatus, hpath]
                    at hunresolved
                · intro primary hresult hdefault
                  rw [hoperator.2 primary hresult, hprinted]
                  cases before
                  cases hdefault
                  rfl

/-- Boot staging is a transaction on the host, whatever its commands do and
whenever they fail. -/
theorem stageProfileForBoot_transactional {data : DeployData}
    {defs : DeployDefs} {trace : Trace Controller}
    {result : Except DeployProfileError Unit} {before after : RemoteHost}
    (hexec : Executes (stageProfileForBoot data defs).run trace result)
    (hruns : RunsOn data.systemProfile before (rightTrace trace) after) :
    Transactional data before (rightTrace trace) result after := by
  have hsilent := executes_processes_iff.mpr ⟨trace, rfl, hexec⟩
  have hnotLive := notLive_of_issues (issues_stageProfileForBoot data defs) hsilent
  exact ensures_stageProfileForBoot data defs _ _ hsilent hnotLive before after
    hruns

section Runs

/-- A host running an older generation. -/
def olderHost : RemoteHost :=
  { profile := "/nix/store/old", bootDefault := "/nix/store/old" }

/-- The answer of `readlink` on that host. -/
def olderProfile : Output :=
  { status := .exited 0, stdout := encodeUtf8 "/nix/store/old\n", stderr := [] }

/-- Setting the profile fails after its effect, and both recovery commands
succeed. -/
def recoveredRun : Trace Processes :=
  let link := "/nix/var/nix/profiles/system"
  let resolve := onTarget rootDeployment rootDefs (.readlink none link)
  let stage := onTarget rootDeployment rootDefs
    (.setProfile none link rootDeployment.closure)
  let restore := onTarget rootDeployment rootDefs
    (.setProfile none link "/nix/store/old")
  let boot := onTarget rootDeployment rootDefs
    (.switchBoot none "/nix/store/old")
  [⟨.spawn resolve, .ok ()⟩, ⟨.await resolve, .ok olderProfile⟩,
    ⟨.spawn stage, .ok ()⟩, ⟨.await stage, .ok (exitedWith 1)⟩,
    ⟨.spawn restore, .ok ()⟩, ⟨.await restore, .ok (exitedWith 0)⟩,
    ⟨.spawn boot, .ok ()⟩, ⟨.await boot, .ok (exitedWith 0)⟩]

theorem recoveredRun_runsOn :
    RunsOn rootDeployment.systemProfile olderHost recoveredRun olderHost :=
  .cons (.spawn _ _ _) (.cons (.succeed rfl rfl fun _ => by decide)
    (.cons (.spawn _ _ _) (.cons (.failAfter rfl rfl)
      (.cons (.spawn _ _ _) (.cons (.succeed rfl rfl trivial)
        (.cons (.spawn _ _ _) (.cons (.succeed rfl rfl trivial) (.nil _))))))))

/-- The transaction on a host where it had to be undone. -/
theorem recoveredRun_transactional :
    ∃ trace, ∃ primary,
      Executes (stageProfileForBoot rootDeployment rootDefs).run trace
          (.error (.bootStage primary restoredMessage)) ∧
        Transactional rootDeployment olderHost (rightTrace trace)
          (.error (.bootStage primary restoredMessage)) olderHost := by
  have hsilent : Executes (processes (stageProfileForBoot rootDeployment
      rootDefs)) recoveredRun (.error (.bootStage
        "boot-stage-profile exited with exit status: 1" restoredMessage)) :=
    .request (.request (.request (.request (.request (.request (.request
      (.request (.done _))))))))
  obtain ⟨trace, htrace, hexec⟩ := executes_processes_iff.mp hsilent
  exact ⟨trace, _, hexec, stageProfileForBoot_transactional hexec
    (htrace.symm ▸ recoveredRun_runsOn)⟩

end Runs

end Mandala.Deploy
