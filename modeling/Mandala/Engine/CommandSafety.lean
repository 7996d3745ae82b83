import Mandala.Engine.HostPipeline

/-!
# What one host's pipeline may run

A dry run changes nothing, a boot-only run never activates the running system,
and nothing reaches the host before its closure was copied.  These hold for
every reply of every process and of the registry.
-/

namespace Mandala.Engine

open Mandala.Data Mandala.Deploy Mandala.Effects Mandala.Events RemoteCommand

/-! ## Steps that run no process -/

section StartsNothing

variable {A B : Type}

/-- A pipeline step that only keeps records. -/
def StartsNothing (program : HostProgram A) : Prop :=
  HostEnsures program fun trace _ => rightTrace trace = []

theorem startsNothing_pure (value : A) :
    StartsNothing (pure value : HostProgram A) :=
  hostEnsures_pure rfl

theorem startsNothing_record (effect : RecordEffect) :
    StartsNothing (record effect) :=
  hostEnsures_record fun _ => rfl

theorem startsNothing_sinkError : StartsNothing sinkError :=
  hostEnsures_sinkError fun _ => rfl

theorem startsNothing_bind {program : HostProgram A}
    {rest : A → HostProgram B} (hprogram : StartsNothing program)
    (hrest : ∀ value, StartsNothing (rest value)) :
    StartsNothing (program >>= rest) := by
  apply hostEnsures_bind
  apply hprogram.mono
  intro first value hfirst
  apply (hrest value).mono
  intro second result hsecond
  rw [rightTrace_append, hfirst, hsecond, List.append_nil]

theorem startsNothing_hostResult (host : String) (state : HostState)
    (error : Option String) : StartsNothing (hostResult host state error) := by
  apply startsNothing_bind (startsNothing_record _)
  intro written
  cases written <;> exact startsNothing_pure _

theorem startsNothing_failedHost (host error : String) :
    StartsNothing (failedHost host error) :=
  startsNothing_bind (startsNothing_record _) fun _ =>
    startsNothing_hostResult host .failed _

/-- A milestone and what follows it, whether or not it could be written. -/
theorem startsNothing_milestone {milestone : String}
    {onError : IoError → HostProgram A} {onWritten : HostProgram A}
    (herror : ∀ error, StartsNothing (onError error))
    (hwritten : StartsNothing onWritten) :
    StartsNothing (do
      match ← emitMilestone milestone with
      | .error error => onError error
      | .ok () => onWritten) := by
  apply startsNothing_bind (startsNothing_record _)
  intro written
  cases written with
  | error error => exact herror error
  | ok _ => exact hwritten

theorem startsNothing_emitWait (settings : FlattenedDeploySettings)
    (disposition : ActivationDisposition) :
    StartsNothing (emitWait settings disposition) := by
  rw [emitWait]
  split
  · exact startsNothing_record _
  · exact startsNothing_pure _

theorem startsNothing_settleDeployment (host : String)
    (disposition : ActivationDisposition)
    (deployment : Except DeployProfileError Unit) :
    StartsNothing (settleDeployment host disposition deployment) := by
  cases deployment with
  | ok _ =>
      apply startsNothing_bind startsNothing_sinkError
      intro error
      cases error with
      | some error => exact startsNothing_failedHost host _
      | none =>
          exact startsNothing_milestone
            (fun _ => startsNothing_failedHost host _)
            (startsNothing_hostResult host _ _)
  | error error =>
      rw [settleDeployment]
      split
      · apply startsNothing_bind (startsNothing_record _)
        intro _
        exact startsNothing_milestone
          (fun _ => startsNothing_failedHost host _)
          (startsNothing_hostResult host _ _)
      · exact startsNothing_failedHost host _

theorem startsNothing_previewReboot (host : String) :
    StartsNothing (previewReboot host) :=
  startsNothing_bind (startsNothing_record _) fun _ =>
    startsNothing_milestone (fun _ => startsNothing_failedHost host _)
      (startsNothing_hostResult host _ _)

end StartsNothing

/-! ## What a deployment may run -/

/-- The promises about the commands of a deployment of one closure. -/
structure DeploysSafely (plan : DeployPlan)
    (settings : FlattenedDeploySettings) (closure : String)
    (trace : Trace Processes) : Prop where
  dry : plan.dryActivate → ∀ command ∈ issued trace,
    command.runs mutates = false
  bootOnly : plan.boot ∨ settings.activation = .boot ∨
      broke isSwitchCheck trace →
    ∀ command ∈ issued trace, command.runs isLiveActivation = false
  activates : ∀ command ∈ issued trace, ∀ data,
    command.remote = some (.activate data) → data.closure = closure

/-- A process that runs nothing on the host, or only asks it a question. -/
def asksAtMost (command : Command) : Bool := command.remote.all isProbe

theorem asksAtMost_of_runs {command : Command} (hprobe : command.runs isProbe) :
    asksAtMost command := by
  cases command with
  | nixCopy => rfl
  | ssh _ _ remote _ => exact hprobe

theorem asksAtMost_of_local {command : Command}
    (hlocal : command.remote = none) : asksAtMost command := by
  rw [asksAtMost, hlocal]
  rfl

theorem runs_eq_false_of_asksAtMost {kind : RemoteCommand → Bool}
    {command : Command} (hasks : asksAtMost command)
    (hkind : ∀ remote, remote.isProbe → kind remote = false) :
    command.runs kind = false := by
  cases command with
  | nixCopy => rfl
  | ssh _ _ remote _ => exact hkind remote hasks

section Kinds

variable {remote : RemoteCommand}

theorem mutates_of_isProbe (hprobe : remote.isProbe) :
    remote.mutates = false := by
  cases remote <;> first | rfl | cases hprobe

theorem isLiveActivation_of_isProbe (hprobe : remote.isProbe) :
    remote.isLiveActivation = false := by
  cases remote <;> first | rfl | cases hprobe

theorem isLiveActivation_of_isStaging (hstaging : remote.isStaging) :
    remote.isLiveActivation = false := by
  cases remote <;> first | rfl | cases hstaging

theorem isSwitchCheck_of_isStaging (hstaging : remote.isStaging) :
    remote.isSwitchCheck = false := by
  cases remote <;> first | rfl | cases hstaging

variable {closure : String} {dryActivate : Bool}

theorem isSwitchCheck_of_isCanaryProtocol
    (hcanary : remote.isCanaryProtocol closure dryActivate) :
    remote.isSwitchCheck = false := by
  cases remote <;> first | rfl | cases hcanary

theorem mutates_of_dryCanary (hcanary : remote.isCanaryProtocol closure true) :
    remote.mutates = false := by
  cases remote with
  | activate data =>
      have hdry := (of_decide_eq_true hcanary).2
      simp [mutates, isLiveActivation, hdry]
  | _ => first | rfl | cases hcanary

end Kinds

theorem isLiveActivation_of_not_mutates {command : Command}
    (hmutates : command.runs mutates = false) :
    command.runs isLiveActivation = false := by
  cases command with
  | nixCopy => rfl
  | ssh _ _ remote _ => cases remote <;> first | rfl | exact hmutates

/-- Questions first, then the commands of the chosen path. -/
theorem DeploysSafely.of_questions {plan : DeployPlan}
    {settings : FlattenedDeploySettings} {closure : String}
    {asked acted : Trace Processes}
    (hasked : ∀ command ∈ issued asked, asksAtMost command)
    (hdry : plan.dryActivate → ∀ command ∈ issued acted,
      command.runs mutates = false)
    (hboot : plan.boot ∨ settings.activation = .boot ∨
        broke isSwitchCheck asked →
      ∀ command ∈ issued acted, command.runs isLiveActivation = false)
    (hbroke : broke isSwitchCheck acted = false)
    (hactivates : ∀ command ∈ issued acted, ∀ data,
      command.remote = some (.activate data) → data.closure = closure) :
    DeploysSafely plan settings closure (asked ++ acted) where
  dry hplan := by
    intro command hmem
    rw [issued_append, List.mem_append] at hmem
    rcases hmem with hmem | hmem
    · exact runs_eq_false_of_asksAtMost (hasked command hmem) fun _ =>
        mutates_of_isProbe
    · exact hdry hplan command hmem
  bootOnly hwanted := by
    rw [broke_append, hbroke, Bool.or_false] at hwanted
    intro command hmem
    rw [issued_append, List.mem_append] at hmem
    rcases hmem with hmem | hmem
    · exact runs_eq_false_of_asksAtMost (hasked command hmem) fun _ =>
        isLiveActivation_of_isProbe
    · exact hboot hwanted command hmem
  activates := by
    intro command hmem data hremote
    rw [issued_append, List.mem_append] at hmem
    rcases hmem with hmem | hmem
    · have hprobe := hasked command hmem
      rw [asksAtMost, hremote] at hprobe
      cases hprobe
    · exact hactivates command hmem data hremote

/-- A deployment that stopped after its questions. -/
theorem DeploysSafely.of_only_questions {plan : DeployPlan}
    {settings : FlattenedDeploySettings} {closure : String}
    {asked : Trace Processes}
    (hasked : ∀ command ∈ issued asked, asksAtMost command) :
    DeploysSafely plan settings closure asked := by
  have hnone : ∀ command ∈ issued [], False := fun _ hmem => by cases hmem
  rw [← List.append_nil asked]
  exact .of_questions hasked (fun _ command hmem => (hnone command hmem).elim)
    (fun _ command hmem => (hnone command hmem).elim) rfl
    fun command hmem => (hnone command hmem).elim

/-! ## The copy comes first -/

/-- Every command for the host comes after a copy of the closure. -/
def CopiedFirst (closure : String) (trace : Trace Processes) : Prop :=
  ∀ before exchange after command,
    trace = before ++ exchange :: after → spawned exchange = some command →
    command.remote ≠ none → copied closure before

theorem mem_issued_of_split {before after : Trace Processes}
    {exchange : Exchange Processes} {command : Command}
    (hspawned : spawned exchange = some command) :
    command ∈ issued (before ++ exchange :: after) :=
  List.mem_filterMap.mpr
    ⟨exchange, List.mem_append_right before List.mem_cons_self, hspawned⟩

theorem copiedFirst_of_local {closure : String} {trace : Trace Processes}
    (hlocal : Local trace) : CopiedFirst closure trace := by
  intro before exchange after command hsplit hspawned hremote
  subst hsplit
  exact absurd (hlocal.remote command (mem_issued_of_split hspawned)) hremote

theorem copiedFirst_append {closure : String} {copy rest : Trace Processes}
    (hlocal : Local copy) (hcopied : copied closure copy) :
    CopiedFirst closure (copy ++ rest) := by
  intro before exchange after command hsplit hspawned hremote
  rcases List.append_eq_append_iff.mp hsplit with
    ⟨more, hbefore, -⟩ | ⟨more, hcopy, hmore⟩
  · rw [hbefore, copied_append, hcopied]
    rfl
  · cases more with
    | nil =>
        rw [List.append_nil] at hcopy
        rw [← hcopy]
        exact hcopied
    | cons head tail =>
        obtain ⟨rfl, -⟩ := List.cons.inj hmore
        have hmem : command ∈ issued copy := by
          rw [hcopy]
          exact mem_issued_of_split hspawned
        exact absurd (hlocal.remote command hmem) hremote

/-! ## The pipeline of one closure -/

section Deployment

variable (plan : DeployPlan) (host : String)
  (settings : FlattenedDeploySettings) (data : DeployData) (defs : DeployDefs)

/-- An activation through `activate-rs`, dry exactly when the plan is. -/
theorem ensures_deployProfile_safe {asked : Trace Processes}
    (hasked : ∀ command ∈ issued asked, asksAtMost command)
    (hlive : plan.dryActivate = false →
      ¬ (plan.boot ∨ settings.activation = .boot ∨
        broke isSwitchCheck asked)) :
    Ensures (processes (deployProfile data defs plan.dryActivate))
      fun acted _ =>
        DeploysSafely plan settings data.closure (asked ++ acted) := by
  intro acted result hexec
  have hissues := issues_deployProfile data defs plan.dryActivate
  have hkind := hissues.of_executes hexec
  have hdry : plan.dryActivate → ∀ command ∈ issued acted,
      command.runs mutates = false := by
    intro hplan command hmem
    have hcanary := hkind command hmem
    rw [hplan] at hcanary
    cases command with
    | nixCopy => rfl
    | ssh _ _ remote _ => exact mutates_of_dryCanary hcanary
  apply DeploysSafely.of_questions hasked hdry
  · intro hwanted command hmem
    cases hplan : plan.dryActivate with
    | true => exact isLiveActivation_of_not_mutates (hdry hplan command hmem)
    | false => exact absurd hwanted (hlive hplan)
  · exact Issues.broke_eq_false _ hissues hexec fun _ =>
      isSwitchCheck_of_isCanaryProtocol
  · intro command hmem activation hremote
    have hcanary := hkind command hmem
    rw [Command.runs, hremote] at hcanary
    exact (of_decide_eq_true hcanary).1

/-- A boot staging in a run that is not dry. -/
theorem ensures_stageProfileForBoot_safe {asked : Trace Processes}
    (hasked : ∀ command ∈ issued asked, asksAtMost command)
    (hreal : plan.dryActivate = false) :
    Ensures (processes (stageProfileForBoot data defs))
      fun acted _ =>
        DeploysSafely plan settings data.closure (asked ++ acted) := by
  intro acted result hexec
  have hissues := issues_stageProfileForBoot data defs
  have hkind := hissues.of_executes hexec
  apply DeploysSafely.of_questions hasked
  · intro hplan
    rw [hreal] at hplan
    cases hplan
  · intro _ command hmem
    have hstaging := hkind command hmem
    cases command with
    | nixCopy => rfl
    | ssh _ _ remote _ => exact isLiveActivation_of_isStaging hstaging
  · exact Issues.broke_eq_false _ hissues hexec fun _ =>
      isSwitchCheck_of_isStaging
  · intro command hmem activation hremote
    have hstaging := hkind command hmem
    rw [Command.runs, hremote] at hstaging
    cases hstaging

/-- The chosen path keeps the promises that justified it. -/
theorem ensures_activationProgram {asked : Trace Processes}
    {disposition : ActivationDisposition}
    (hasked : ∀ command ∈ issued asked, asksAtMost command)
    (hjustified : Justified plan.dryActivate
      (plan.boot || settings.activation = .boot) asked disposition) :
    Ensures (processes (activationProgram plan data defs disposition))
      fun acted _ =>
        DeploysSafely plan settings data.closure (asked ++ acted) := by
  cases disposition with
  | bootStaging =>
      exact ensures_stageProfileForBoot_safe plan settings data defs hasked
        hjustified
  | liveSwitch =>
      apply ensures_deployProfile_safe plan settings data defs hasked
      intro _ hwanted
      obtain ⟨-, hboot, hbroke⟩ := hjustified
      obtain ⟨hplan, hsettings⟩ := Bool.or_eq_false_iff.mp hboot
      rcases hwanted with hwanted | hwanted | hwanted
      · exact Bool.false_ne_true (hplan.symm.trans hwanted)
      · exact of_decide_eq_false hsettings hwanted
      · exact Bool.false_ne_true (hbroke.symm.trans hwanted)
  | dryPreview rebootPending =>
      cases rebootPending with
      | false =>
          apply ensures_deployProfile_safe plan settings data defs hasked
          intro hreal
          rw [show plan.dryActivate = true from hjustified] at hreal
          cases hreal
      | true =>
          rw [activationProgram, processes_pure, ensures_done_iff,
            List.append_nil]
          exact .of_only_questions hasked

/-- From the chosen path on, the pipeline runs that path's commands. -/
theorem hostEnsures_activateHost {asked : Trace Processes}
    {disposition : ActivationDisposition}
    (hasked : ∀ command ∈ issued asked, asksAtMost command)
    (hjustified : Justified plan.dryActivate
      (plan.boot || settings.activation = .boot) asked disposition) :
    HostEnsures (activateHost plan host settings data defs disposition)
      fun trace _ =>
        DeploysSafely plan settings data.closure
          (asked ++ rightTrace trace) := by
  have hstopped {program : HostProgram HostDeployResult}
      (hprogram : StartsNothing program) :
      HostEnsures program fun trace _ =>
        DeploysSafely plan settings data.closure
          (asked ++ rightTrace trace) := by
    apply hprogram.mono
    intro trace _ hnone
    rw [hnone, List.append_nil]
    exact .of_only_questions hasked
  apply hostEnsures_bind
  apply hostEnsures_record
  intro written
  cases written with
  | error error => exact hstopped (startsNothing_failedHost host _)
  | ok _ =>
      apply hostEnsures_bind
      apply (startsNothing_emitWait settings disposition).mono
      intro first waiting hfirst
      cases waiting with
      | error error =>
          apply (hstopped (startsNothing_failedHost host _)).mono
          intro second _ hsecond
          rw [rightTrace_append, rightTrace_append, hfirst]
          exact hsecond
      | ok _ =>
          apply hostEnsures_bind
          apply hostEnsures_runController
          refine (ensures_activationProgram plan settings data defs hasked
            hjustified).mono ?_
          intro acted deployment hacted outer houter _
          apply (startsNothing_settleDeployment host disposition
            deployment).mono
          intro rest _ hrest
          rw [rightTrace_append, rightTrace_append, rightTrace_append, hfirst,
            houter, hrest, List.append_nil]
          exact hacted

/-- After a copy, only questions come before the chosen path. -/
theorem hostEnsures_deployCopied {copy : Trace Processes}
    (hcopy : Local copy) :
    HostEnsures (deployCopied plan host settings data defs) fun trace _ =>
      DeploysSafely plan settings data.closure (copy ++ rightTrace trace) := by
  have hcopyAsks : ∀ command ∈ issued copy, asksAtMost command :=
    fun command hmem => asksAtMost_of_local (hcopy.remote command hmem)
  apply hostEnsures_bind
  apply hostEnsures_runController
  intro probes result hexec outer houter _
  have hasked : ∀ command ∈ issued (copy ++ probes), asksAtMost command := by
    intro command hmem
    rw [issued_append, List.mem_append] at hmem
    rcases hmem with hmem | hmem
    · exact hcopyAsks command hmem
    · exact asksAtMost_of_runs ((issues_resolveActivationDisposition data defs
        _ _).of_executes hexec command hmem)
  have hstopped {program : HostProgram HostDeployResult}
      (hprogram : StartsNothing program) :
      HostEnsures program fun trace _ =>
        DeploysSafely plan settings data.closure
          (copy ++ rightTrace (outer ++ trace)) := by
    apply hprogram.mono
    intro trace _ hnone
    rw [rightTrace_append, houter, hnone, List.append_nil]
    exact .of_only_questions hasked
  cases result with
  | error error => exact hstopped (startsNothing_failedHost host _)
  | ok disposition =>
      apply hostEnsures_bind
      apply hostEnsures_sinkError
      intro slot
      cases slot with
      | some error => exact hstopped (startsNothing_failedHost host _)
      | none =>
          dsimp only
          split
          · exact hstopped (startsNothing_previewReboot host)
          · have hjustified := ensures_resolveActivationDisposition data defs
              _ _ probes _ hexec disposition rfl
            have hwhole : Justified plan.dryActivate
                (plan.boot || settings.activation = .boot) (copy ++ probes)
                disposition := by
              cases disposition with
              | dryPreview _ => exact hjustified
              | bootStaging => exact hjustified
              | liveSwitch =>
                  refine ⟨hjustified.1, hjustified.2.1, ?_⟩
                  rw [broke_append, hcopy.broke, hjustified.2.2]
                  rfl
            apply (hostEnsures_activateHost plan host settings data defs
              hasked hwhole).mono
            intro trace _ hsafe
            rw [List.nil_append, rightTrace_append, houter,
              ← List.append_assoc]
            exact hsafe

/-- The whole pipeline of one closure. -/
theorem hostEnsures_copyAndDeploy :
    HostEnsures (copyAndDeploy plan host settings data defs) fun trace _ =>
      DeploysSafely plan settings data.closure (rightTrace trace) ∧
        CopiedFirst data.closure (rightTrace trace) := by
  have hlocalSafe {trace : Trace Processes} (hlocal : Local trace) :
      DeploysSafely plan settings data.closure trace ∧
        CopiedFirst data.closure trace :=
    ⟨.of_only_questions fun command hmem =>
      asksAtMost_of_local (hlocal.remote command hmem),
      copiedFirst_of_local hlocal⟩
  have hnil : Local [] := ⟨fun _ hmem => (by cases hmem), fun _ => rfl⟩
  apply hostEnsures_bind
  apply hostEnsures_record
  intro written
  cases written with
  | error error =>
      apply (startsNothing_failedHost host _).mono
      intro trace _ hnone
      rw [rightTrace_append, hnone]
      exact hlocalSafe hnil
  | ok _ =>
      apply hostEnsures_bind
      apply hostEnsures_runController
      refine (ensures_pushProfile data defs false).mono ?_
      intro copy pushed hpushed outer houter _
      obtain ⟨hlocal, hcopied⟩ := hpushed
      have hstopped {program : HostProgram HostDeployResult}
          (hprogram : StartsNothing program) :
          HostEnsures program fun trace _ =>
            DeploysSafely plan settings data.closure
                (rightTrace (outer ++ trace)) ∧
              CopiedFirst data.closure (rightTrace (outer ++ trace)) := by
        apply hprogram.mono
        intro trace _ hnone
        rw [rightTrace_append, houter, hnone, List.append_nil]
        exact hlocalSafe hlocal
      cases pushed with
      | error error => exact hstopped (startsNothing_failedHost host _)
      | ok _ =>
          apply hostEnsures_bind
          apply hostEnsures_sinkError
          intro slot
          cases slot with
          | some error => exact hstopped (startsNothing_failedHost host _)
          | none =>
              apply (hostEnsures_deployCopied plan host settings data defs
                hlocal).mono
              intro trace _ hsafe
              change DeploysSafely plan settings data.closure
                  (rightTrace (outer ++ trace)) ∧
                CopiedFirst data.closure (rightTrace (outer ++ trace))
              rw [rightTrace_append, houter]
              exact ⟨hsafe, copiedFirst_append hlocal (hcopied rfl)⟩

end Deployment

/-! ## The pipeline of a host -/

section Host

variable (fromValue : Json → Except String FlattenedDeploySettings)
  (run : RegisteredDeployRun) (built : BuiltProfiles) (host : String)
  (programs : DeployPrograms)

/-- The settings the pipeline reads for a host. -/
def memberSettings : Option FlattenedDeploySettings :=
  run.plan.settings[host]?.bind fun value => (fromValue value).toOption

/-- What an operator may rely on about the commands of one host's pipeline. -/
structure CommandsSafe (trace : Trace Processes) : Prop where
  dry : run.plan.dryActivate → ∀ command ∈ issued trace,
    command.runs mutates = false
  bootOnly : run.plan.boot ∨
      (memberSettings fromValue run host).any (·.activation = .boot) ∨
      broke isSwitchCheck trace →
    ∀ command ∈ issued trace, command.runs isLiveActivation = false
  copiedFirst : ∀ before exchange after command,
    trace = before ++ exchange :: after → spawned exchange = some command →
    command.remote ≠ none →
    ∃ path, built.paths[host]? = some path ∧ copied path before ∧
      ∀ data, command.remote = some (.activate data) → data.closure = path

theorem CommandsSafe.of_nil : CommandsSafe fromValue run built host [] where
  dry _ _ hmem := by cases hmem
  bootOnly _ _ hmem := by cases hmem
  copiedFirst before exchange after command hsplit := by
    cases before <;> cases hsplit

theorem hostEnsures_deployStarted :
    HostEnsures (deployStarted fromValue run built host programs)
      fun trace _ =>
        CommandsSafe fromValue run built host (rightTrace trace) := by
  have hstopped (error : String) :
      HostEnsures (failedHost host error) fun trace _ =>
        CommandsSafe fromValue run built host (rightTrace trace) := by
    apply (startsNothing_failedHost host error).mono
    intro trace _ hnone
    rw [hnone]
    exact .of_nil fromValue run built host
  rw [deployStarted]
  cases hvalue : run.plan.settings[host]? with
  | none => exact hstopped _
  | some value =>
      dsimp only
      cases hsettings : fromValue value with
      | error error => exact hstopped _
      | ok settings =>
          dsimp only
          cases hpath : built.paths[host]? with
          | none => exact hstopped _
          | some path =>
              dsimp only
              cases (hostDeployment host settings path programs).defs with
              | error error => exact hstopped _
              | ok defs =>
                  apply (hostEnsures_copyAndDeploy run.plan host settings _
                    defs).mono
                  intro trace _ hsafe
                  obtain ⟨hdeploys, hfirst⟩ := hsafe
                  have hmember : memberSettings fromValue run host =
                      some settings := by
                    rw [memberSettings, hvalue, Option.bind_some, hsettings]
                    rfl
                  refine ⟨hdeploys.dry, ?_, ?_⟩
                  · intro hwanted
                    apply hdeploys.bootOnly
                    simpa [hmember] using hwanted
                  · intro before exchange after command hsplit hspawned hremote
                    refine ⟨path, hpath, hfirst before exchange after command
                      hsplit hspawned hremote, ?_⟩
                    intro data hactivate
                    apply hdeploys.activates command ?_ data hactivate
                    rw [hsplit]
                    exact mem_issued_of_split hspawned

end Host

section Runs

/-- A host whose generation refuses the switch; everything else works. -/
def refusingHost :
    (effect : EngineEffects.Request) → EngineEffects.Reply effect
  | .inl _ => .ok ()
  | .inr (.spawn _) => .ok ()
  | .inr (.await command) =>
      .ok (if command.runs isSwitchCheck then exitedWith 1
        else if command.runs isStaging then olderProfile else exitedWith 0)
  | .inr (.poll _) => none
  | .inr (.race _ _) => .first (.ok (exitedWith 0))

def refusedRun : Trace EngineEffects × HostDeployResult × Option IoError :=
  ((deployHostWith (fun _ => .ok webSettings) webRun webBuilt "web"
    noPrograms).run none).runAgainst refusingHost

end Runs

end Mandala.Engine
