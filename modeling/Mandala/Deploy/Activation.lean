import Mandala.Deploy.Program

/-!
# Live activation with magic rollback

The activation command, a waiter for its canary and the canary's removal are
three processes that settle in any order.  Which of them settled, and how,
decides whether a deployment is reported as confirmed, failed or rolled back.
-/

namespace Mandala.Deploy

open Mandala.Text Mandala.Effects RemoteCommand

section Commands

variable (data : DeployData) (defs : DeployDefs)

def DeployData.tempPath (data : DeployData) : String :=
  data.mergedSettings.tempPath.getD "/tmp"

def DeployData.magicRollback (data : DeployData) : Bool :=
  data.mergedSettings.magicRollback.getD true

def activateRemote (info : ProfileInfo) (dryActivate : Bool) : RemoteCommand :=
  .activate
    { sudoCommand := defs.sudoCommand
      profileInfo := info
      closure := data.closure
      autoRollback := data.mergedSettings.autoRollback.getD true
      tempPath := data.tempPath
      confirmTimeout := data.mergedSettings.confirmTimeout.getD 30
      magicRollback := data.magicRollback
      dryActivate
      boot := false }

def waitRemote : RemoteCommand :=
  .wait
    { sudoCommand := defs.sudoCommand
      closure := data.closure
      tempPath := data.tempPath
      activationTimeout := data.mergedSettings.activationTimeout }

def clearCanaryRemote : RemoteCommand :=
  .clearCanary defs.sudoCommand (makeLockPath data.tempPath data.closure)

def confirmRemote : RemoteCommand :=
  .confirm defs.sudoCommand (makeLockPath data.tempPath data.closure)

end Commands

section Protocol

variable (data : DeployData) (defs : DeployDefs)

/-- `clear_stale_canary`. -/
def clearStaleCanary : DeployProgram Unit := do
  let cleanup := clearCanaryRemote data defs
  emit .debug ("canary-cleanup-command " ++ cleanup.text)
  let output ← orFail .canaryCleanupSpawn
    (← runOutput (onTarget data defs cleanup))
  checkedOutput output .canaryCleanupExit
  emit .info "stale deployment canary cleared"

/-- The rest of `confirm_profile` once its command has settled. -/
def finishConfirm (finished : Finished) : DeployProgram Unit := do
  let output ← orFail .confirmSpawn finished
  checkedOutput output .confirmExit
  emit .info "deployment confirmed"

/-- The report in front of the confirmation command. -/
def announceConfirm : Program Controller Unit :=
  emit .debug ("confirm-command " ++ (confirmRemote data defs).text)

/-- `confirm_profile`. -/
def confirmProfile : DeployProgram Unit := do
  announceConfirm data defs
  finishConfirm (← runOutput (onTarget data defs (confirmRemote data defs)))

variable (info : ProfileInfo)

/-- The activation process of a magic-rollback deployment. -/
def activateProcess : Command :=
  onTarget data defs (activateRemote data defs info false)

/-- Wait for the canary.  The waiter is looked at first; the result tells
whether the activation settled before it. -/
def awaitCanary : DeployProgram Bool := do
  match ← process (.race (onTarget data defs (waitRemote data defs))
      (activateProcess data defs info)) with
  | .first finished =>
      let output ← orFail .waitSpawn finished
      checkedOutput output .waitExit
      emit .info "activation waiter complete"
      return false
  | .second finished =>
      let output ← orFail .activateSpawn finished
      checkedOutput output .activateExit
      emit .debug "activation finished before waiter"
      return true

/-- The activation settled while the confirmation was still under way: a
non-zero exit is a rollback. -/
def activationSettled (finished : Finished) : DeployProgram Unit := do
  let output ← orFail .activateSpawn finished
  checkedOutput output .rollbackExit

/-- The confirmation settled first: a timely one still needs the activation to
succeed, a failed one wins over the activation's exit. -/
def confirmationSettled (finished : Finished) :
    DeployProgram (Except DeployProfileError Unit) := do
  let result ← attempt (finishConfirm finished)
  let output ← orFail .activateSpawn
    (← process (.await (activateProcess data defs info)))
  emitOutput output
  match result with
  | .ok () =>
      if output.status.success then return result
      else throw (.activateExit output.status)
  | .error _ => return result

/-- Confirm while the activation is still running.  The activation is looked at
first; an inner error is the outcome of the confirmation itself. -/
def confirmBesideActivation :
    DeployProgram (Except DeployProfileError Unit) := do
  match ← process (.poll (activateProcess data defs info)) with
  | some finished =>
      activationSettled finished
      attempt (confirmProfile data defs)
  | none =>
      announceConfirm data defs
      let confirm := onTarget data defs (confirmRemote data defs)
      match ← process (.spawn confirm) with
      | .error error => confirmationSettled data defs info (.error error)
      | .ok () =>
          match ← process (.race (activateProcess data defs info) confirm) with
          | .first finished =>
              activationSettled finished
              attempt (finishConfirm (← process (.await confirm)))
          | .second finished => confirmationSettled data defs info finished

/-- Confirm after the activation, or beside it. -/
def confirmDeployment (activationFinished : Bool) :
    DeployProgram (Except DeployProfileError Unit) :=
  if activationFinished then attempt (confirmProfile data defs)
  else confirmBesideActivation data defs info

/-- `deploy_profile` with magic rollback on, once both processes run. -/
def awaitAndConfirm : DeployProgram Unit := do
  let activationFinished ← awaitCanary data defs info
  emit .info "attempting deployment confirmation"
  match ← confirmDeployment data defs info activationFinished with
  | .error error =>
      emit .error "deployment confirmation failed; activate-rs rolled back"
      throw error
  | .ok () => emit .info "activate-complete"

/-- `deploy_profile` with magic rollback on, from the stale canary on. -/
def deployWithCanary : DeployProgram Unit := do
  emit .debug ("wait-command " ++ (waitRemote data defs).text)
  clearStaleCanary data defs
  orFail .activateSpawn
    (← process (.spawn (activateProcess data defs info)))
  orFail .waitSpawn
    (← process (.spawn (onTarget data defs (waitRemote data defs))))
  awaitAndConfirm data defs info

/-- `deploy_profile`. -/
def deployProfile (dryActivate : Bool) : DeployProgram Unit := do
  if data.mergedSettings.interactiveSudo = some true then
    throw .interactiveSudoUnsupported
  else
    let info ← orFail .invalidDeployData data.profileInfo
    let activate := activateRemote data defs info dryActivate
    emit .info ("activate-start profile=" ++ data.profileName ++ " host=" ++
      data.nodeName ++ " dry=" ++ toString dryActivate)
    emit .debug ("activate-command " ++ activate.text)
    if !data.magicRollback || dryActivate then
      let output ← orFail .activateSpawn
        (← runOutput (onTarget data defs activate))
      checkedOutput output .activateExit
      emit .info "activate-complete"
    else deployWithCanary data defs info

end Protocol

/-! ## Which commands an activation starts -/

section Issuing

variable (data : DeployData) (defs : DeployDefs) (info : ProfileInfo)

theorem runs_activateRemote (dryActivate : Bool) :
    (onTarget data defs (activateRemote data defs info dryActivate)).runs
      (isCanaryProtocol data.closure dryActivate) := by
  simp [isCanaryProtocol, activateRemote]

theorem runs_waitRemote (dryActivate : Bool) :
    (onTarget data defs (waitRemote data defs)).runs
      (isCanaryProtocol data.closure dryActivate) := by
  simp [isCanaryProtocol, waitRemote]

theorem issues_finishConfirm {kind : RemoteCommand → Bool}
    (finished : Finished) : Issues kind (processes (finishConfirm finished)) :=
  issues_bind (issues_orFail _ _) fun output =>
    issues_bind (issues_checkedOutput output _) fun _ => issues_emit _ _

theorem issues_confirmProfile :
    Issues (isCanaryProtocol data.closure false) (processes (confirmProfile data defs)) :=
  issues_bind (issues_emit _ _) fun _ =>
    issues_bind (issues_runOutput rfl) fun finished =>
      issues_finishConfirm finished

theorem issues_clearStaleCanary :
    Issues (isCanaryProtocol data.closure false)
      (processes (clearStaleCanary data defs)) :=
  issues_bind (issues_emit _ _) fun _ =>
    issues_bind (issues_runOutput rfl) fun _ =>
      issues_bind (issues_orFail _ _) fun output =>
        issues_bind (issues_checkedOutput output _) fun _ => issues_emit _ _

theorem issues_awaitCanary :
    Issues (isCanaryProtocol data.closure false)
      (processes (awaitCanary data defs info)) := by
  apply issues_bind (issues_race (runs_waitRemote data defs _)
    (runs_activateRemote data defs info _))
  intro settled
  cases settled with
  | first finished =>
      exact issues_bind (issues_orFail _ _) fun output =>
        issues_bind (issues_checkedOutput output _) fun _ =>
          issues_bind (issues_emit _ _) fun _ => issues_pure _
  | second finished =>
      exact issues_bind (issues_orFail _ _) fun output =>
        issues_bind (issues_checkedOutput output _) fun _ =>
          issues_bind (issues_emit _ _) fun _ => issues_pure _

theorem issues_activationSettled {kind : RemoteCommand → Bool}
    (finished : Finished) :
    Issues kind (processes (activationSettled finished)) :=
  issues_bind (issues_orFail _ _) fun output => issues_checkedOutput output _

theorem issues_confirmationSettled (finished : Finished) :
    Issues (isCanaryProtocol data.closure false)
      (processes (confirmationSettled data defs info finished)) := by
  apply issues_bind (issues_attempt (issues_finishConfirm finished))
  intro result
  apply issues_bind (issues_await (runs_activateRemote data defs info _))
  intro activation
  apply issues_bind (issues_orFail _ _)
  intro output
  apply issues_bind (issues_emitOutput output)
  intro _
  cases result with
  | error error => exact issues_pure _
  | ok _ =>
      dsimp only
      split
      · exact issues_pure _
      · exact issues_throw _

theorem issues_confirmBesideActivation :
    Issues (isCanaryProtocol data.closure false)
      (processes (confirmBesideActivation data defs info)) := by
  apply issues_bind (issues_poll (runs_activateRemote data defs info _))
  intro polled
  cases polled with
  | some finished =>
      exact issues_bind (issues_activationSettled finished) fun _ =>
        issues_attempt (issues_confirmProfile data defs)
  | none =>
      apply issues_bind (issues_emit _ _)
      intro _
      apply issues_bind (issues_spawn rfl)
      intro started
      cases started with
      | error error => exact issues_confirmationSettled data defs info _
      | ok _ =>
          apply issues_bind (issues_race (runs_activateRemote data defs info _) rfl)
          intro race
          cases race with
          | first finished =>
              exact issues_bind (issues_activationSettled finished) fun _ =>
                issues_bind (issues_await rfl) fun confirmed =>
                  issues_attempt (issues_finishConfirm confirmed)
          | second finished => exact issues_confirmationSettled data defs info _

theorem issues_awaitAndConfirm :
    Issues (isCanaryProtocol data.closure false)
      (processes (awaitAndConfirm data defs info)) := by
  apply issues_bind (issues_awaitCanary data defs info)
  intro activationFinished
  apply issues_bind (issues_emit _ _)
  intro _
  have hconfirm : Issues (isCanaryProtocol data.closure false)
      (processes (confirmDeployment data defs info activationFinished)) := by
    cases activationFinished with
    | true => exact issues_attempt (issues_confirmProfile data defs)
    | false => exact issues_confirmBesideActivation data defs info
  apply issues_bind hconfirm
  intro confirmation
  cases confirmation with
  | error error => exact issues_bind (issues_emit _ _) fun _ => issues_throw _
  | ok _ => exact issues_emit _ _

theorem issues_deployWithCanary :
    Issues (isCanaryProtocol data.closure false)
      (processes (deployWithCanary data defs info)) :=
  issues_bind (issues_emit _ _) fun _ =>
    issues_bind (issues_clearStaleCanary data defs) fun _ =>
      issues_bind (issues_spawn (runs_activateRemote data defs info _)) fun _ =>
        issues_bind (issues_orFail _ _) fun _ =>
          issues_bind (issues_spawn (runs_waitRemote data defs _)) fun _ =>
            issues_bind (issues_orFail _ _) fun _ =>
              issues_awaitAndConfirm data defs info

/-- An activation starts the commands of its protocol only, each as dry as the
deployment asked for. -/
theorem issues_deployProfile (dryActivate : Bool) :
    Issues (isCanaryProtocol data.closure dryActivate)
      (processes (deployProfile data defs dryActivate)) := by
  rw [deployProfile]
  split
  · exact issues_throw _
  · apply issues_bind (issues_orFail _ _)
    intro info
    apply issues_bind (issues_emit _ _)
    intro _
    apply issues_bind (issues_emit _ _)
    intro _
    split
    · apply issues_bind (issues_runOutput (runs_activateRemote data defs info _))
      intro finished
      exact issues_bind (issues_orFail _ _) fun output =>
        issues_bind (issues_checkedOutput output _) fun _ => issues_emit _ _
    · next hcanary =>
        have hdry : dryActivate = false := by
          cases dryActivate with
          | false => rfl
          | true => simp at hcanary
        subst hdry
        exact issues_deployWithCanary data defs info

end Issuing

/-! ## How a run is classified -/

section Kinds

variable (data : DeployData) (defs : DeployDefs)

@[simp]
theorem isActivation_activateRemote (info : ProfileInfo) (dryActivate : Bool) :
    isActivation (activateRemote data defs info dryActivate) = true := rfl

@[simp]
theorem isConfirmation_activateRemote (info : ProfileInfo)
    (dryActivate : Bool) :
    isConfirmation (activateRemote data defs info dryActivate) = false := rfl

@[simp]
theorem isActivation_waitRemote : isActivation (waitRemote data defs) = false :=
  rfl

@[simp]
theorem isConfirmation_waitRemote :
    isConfirmation (waitRemote data defs) = false := rfl

@[simp]
theorem isActivation_clearCanaryRemote :
    isActivation (clearCanaryRemote data defs) = false := rfl

@[simp]
theorem isConfirmation_clearCanaryRemote :
    isConfirmation (clearCanaryRemote data defs) = false := rfl

@[simp]
theorem isActivation_confirmRemote :
    isActivation (confirmRemote data defs) = false := rfl

@[simp]
theorem isConfirmation_confirmRemote :
    isConfirmation (confirmRemote data defs) = true := rfl

end Kinds

/-- A conversation that neither saw an activation succeed nor a confirmation
fail. -/
structure Quiet (trace : Trace Processes) : Prop where
  activation : ranOk isActivation trace = false
  confirmation : broke isConfirmation trace = false

/-- The outcome of a confirmation tells how its command ended. -/
def Confirms (trace : Trace Processes) :
    Except DeployProfileError Unit → Prop
  | .ok () => ranOk isConfirmation trace ∧ broke isConfirmation trace = false
  | .error error => error.rolledBack ∧ broke isConfirmation trace

/-- How the outcome of a deployment relates to its conversation. -/
def Classified (trace : Trace Processes) :
    Except DeployProfileError Unit → Prop
  | .ok () =>
      ranOk isActivation trace ∧ ranOk isConfirmation trace ∧
        broke isConfirmation trace = false
  | .error error =>
      error.rolledBack ∧ broke isConfirmation trace ∨
        ranOk isActivation trace = false ∨
        error.rolledBack = false ∧ broke isConfirmation trace = false

section Classification

variable (data : DeployData) (defs : DeployDefs) (info : ProfileInfo)

theorem processes_finishConfirm (finished : Finished) :
    ∃ outcome, processes (finishConfirm finished) = .done outcome ∧
      (succeeded finished = true ∧ outcome = .ok () ∨
        succeeded finished = false ∧
          ∃ error, outcome = .error error ∧ error.rolledBack) := by
  cases finished with
  | error error => exact ⟨_, rfl, .inr ⟨rfl, _, rfl, rfl⟩⟩
  | ok output =>
      cases hstatus : output.status.success with
      | true =>
          refine ⟨.ok (), ?_, .inl ⟨hstatus, rfl⟩⟩
          simp [finishConfirm, Except.mapError, hstatus]
      | false =>
          refine ⟨.error (.confirmExit output.status), ?_,
            .inr ⟨hstatus, _, rfl, rfl⟩⟩
          simp [finishConfirm, Except.mapError, hstatus]

theorem processes_activationSettled (finished : Finished) :
    ∃ outcome, processes (activationSettled finished) = .done outcome ∧
      (succeeded finished = true ∧ outcome = .ok () ∨
        succeeded finished = false ∧ ∃ error, outcome = .error error) := by
  cases finished with
  | error error => exact ⟨_, rfl, .inr ⟨rfl, _, rfl⟩⟩
  | ok output =>
      cases hstatus : output.status.success with
      | true =>
          refine ⟨.ok (), ?_, .inl ⟨hstatus, rfl⟩⟩
          simp [activationSettled, Except.mapError, hstatus]
      | false =>
          refine ⟨.error (.rollbackExit output.status), ?_,
            .inr ⟨hstatus, _, rfl⟩⟩
          simp [activationSettled, Except.mapError, hstatus]

theorem ensures_clearStaleCanary :
    Ensures (processes (clearStaleCanary data defs)) fun trace result =>
      Quiet trace ∧ ∀ error, result = .error error →
        error.rolledBack = false := by
  have hquiet (started : Except IoError Unit) (rest : Trace Processes)
      (hrest : Quiet rest) : Quiet
        (⟨.spawn (onTarget data defs (clearCanaryRemote data defs)), started⟩ ::
          rest) := by
    constructor
    · simp [hrest.activation]
    · cases started <;>
        simp [hrest.confirmation]
  have hawait (finished : Finished) : Quiet
      [⟨.await (onTarget data defs (clearCanaryRemote data defs)), finished⟩] := by
    constructor <;> simp
  simp only [clearStaleCanary, processes_bind, processes_liftM, silent_emit,
    silent_runOutput, processes_orFail, processes_checkedOutput,
    Program.done_bind, ensures_bind_iff, ensures_runProcess_iff]
  constructor
  · intro error
    simp [Except.mapError, DeployProfileError.rolledBack,
      hquiet _ [] ⟨rfl, rfl⟩]
  · intro finished
    have htrace := hquiet (.ok ()) _ (hawait finished)
    cases finished with
    | error error =>
        simp [Except.mapError, DeployProfileError.rolledBack, htrace]
    | ok output =>
        cases hstatus : output.status.success <;>
          simp [Except.mapError, DeployProfileError.rolledBack, htrace,
            hstatus]

/-- Waiting for the canary sees an activation succeed exactly when it reports
that the activation settled first. -/
theorem ensures_awaitCanary :
    Ensures (processes (awaitCanary data defs info)) fun trace result =>
      broke isConfirmation trace = false ∧
        match result with
        | .ok finished => ranOk isActivation trace = finished
        | .error error =>
            ranOk isActivation trace = false ∧ error.rolledBack = false := by
  simp only [awaitCanary, processes_bind, processes_liftM, silent_process,
    Program.request_bind, Program.done_bind, ensures_request_iff]
  intro settled
  cases settled with
  | first finished =>
      cases finished with
      | error error =>
          simp [Except.mapError, Except.map, DeployProfileError.rolledBack]
      | ok output =>
          cases hstatus : output.status.success <;>
            simp [Except.mapError, Except.map, DeployProfileError.rolledBack,
              hstatus]
  | second finished =>
      cases finished with
      | error error =>
          simp [Except.mapError, Except.map, DeployProfileError.rolledBack,
            activateProcess, succeeded]
      | ok output =>
          cases hstatus : output.status.success <;>
            simp [Except.mapError, Except.map, DeployProfileError.rolledBack,
              hstatus, activateProcess, succeeded]

theorem ensures_confirmProfile :
    Ensures (processes (confirmProfile data defs)) fun trace result =>
      ranOk isActivation trace = false ∧ Confirms trace result := by
  simp only [confirmProfile, announceConfirm, processes_bind, processes_liftM,
    silent_emit, silent_runOutput, Program.done_bind, ensures_bind_iff,
    ensures_runProcess_iff]
  constructor
  · intro error
    obtain ⟨outcome, hsilent, ⟨hok, -⟩ | ⟨-, failure, rfl, hrolled⟩⟩ :=
      processes_finishConfirm (.error error)
    · cases hok
    · simp [hsilent, Confirms, hrolled]
  · intro finished
    obtain ⟨outcome, hsilent, ⟨hok, rfl⟩ | ⟨hbad, failure, rfl, hrolled⟩⟩ :=
      processes_finishConfirm finished
    · simp [hsilent, Confirms, hok]
    · simp [hsilent, Confirms, hbad, hrolled]

/-- Once the confirmation has settled, only the activation is waited for. -/
theorem ensures_confirmationSettled (finished : Finished) :
    Ensures (processes (confirmationSettled data defs info finished))
      fun trace result =>
        broke isConfirmation trace = false ∧
          match result with
          | .ok (.ok ()) => succeeded finished ∧ ranOk isActivation trace
          | .ok (.error error) =>
              succeeded finished = false ∧ error.rolledBack
          | .error _ => ranOk isActivation trace = false := by
  obtain ⟨outcome, hsilent, houtcome⟩ := processes_finishConfirm finished
  simp only [confirmationSettled, processes_bind, processes_attempt,
    processes_liftM, silent_process, hsilent,
    Program.request_bind, Program.done_bind, ensures_request_iff]
  intro activation
  cases activation with
  | error error =>
      simp [Except.mapError, activateProcess, succeeded]
  | ok output =>
      have hsettled : succeeded (.ok output) = output.status.success := rfl
      rcases houtcome with ⟨hok, rfl⟩ | ⟨hbad, failure, rfl, hrolled⟩
      · cases hstatus : output.status.success <;>
          simp [Except.mapError, activateProcess, hsettled, hstatus, hok]
      · simp [Except.mapError, activateProcess, hbad, hrolled]

/-- Confirming beside the activation: an error of its own comes with an
activation that was not seen to succeed. -/
theorem ensures_confirmBesideActivation :
    Ensures (processes (confirmBesideActivation data defs info))
      fun trace result =>
        match result with
        | .ok (.ok ()) =>
            ranOk isActivation trace ∧ ranOk isConfirmation trace ∧
              broke isConfirmation trace = false
        | .ok (.error error) =>
            error.rolledBack ∧ broke isConfirmation trace
        | .error _ => ranOk isActivation trace = false := by
  simp only [confirmBesideActivation, announceConfirm, processes_bind,
    processes_liftM, silent_process, Program.request_bind, Program.done_bind,
    ensures_request_iff]
  intro polled
  cases polled with
  | some finished =>
      obtain ⟨outcome, hsilent, ⟨hok, rfl⟩ | ⟨hbad, failure, rfl⟩⟩ :=
        processes_activationSettled finished
      · simp only [processes_bind, processes_attempt, hsilent,
          Program.done_bind, ensures_bind_iff]
        refine (ensures_confirmProfile data defs).mono ?_
        intro trace result hresult
        obtain ⟨hnone, hconfirms⟩ := hresult
        cases result with
        | error error =>
            simp [activateProcess, hconfirms.1, hconfirms.2]
        | ok _ =>
            simp [activateProcess, hok,
              hconfirms.1, hconfirms.2]
      · simp [hsilent, activateProcess, hbad]
  | none =>
      simp only [processes_bind, processes_liftM, silent_process, silent_emit,
        Program.request_bind, Program.done_bind, ensures_request_iff]
      intro started
      cases started with
      | error error =>
          refine (ensures_confirmationSettled data defs info (.error error)).mono ?_
          intro trace result hresult
          rcases result with failure | (failure | _)
          · simpa using hresult.2
          · simp [hresult.2.2]
          · exact absurd hresult.2.1 (by simp [succeeded])
      | ok _ =>
          simp only [processes_bind, processes_liftM, silent_process,
            Program.request_bind, Program.done_bind, ensures_request_iff]
          intro race
          cases race with
          | first finished =>
              obtain ⟨outcome, hsilent, ⟨hok, rfl⟩ | ⟨hbad, failure, rfl⟩⟩ :=
                processes_activationSettled finished
              · simp only [processes_bind, processes_attempt, processes_liftM,
                  silent_process, hsilent, Program.done_bind,
                  Program.request_bind, ensures_request_iff]
                intro (confirmed : Finished)
                obtain ⟨outcome, hsilent, houtcome⟩ :=
                  processes_finishConfirm confirmed
                rcases houtcome with ⟨hgood, rfl⟩ | ⟨hbad, failure, rfl, hrolled⟩
                · simp [hsilent, activateProcess, hok, hgood]
                · simp [hsilent, hbad, hrolled]
              · simp [hsilent, activateProcess, hbad]
          | second finished =>
              refine (ensures_confirmationSettled data defs info finished).mono ?_
              intro trace result hresult
              rcases result with failure | (failure | _)
              · simp [hresult.2]
              · simp [hresult.2.1, hresult.2.2]
              · simp [hresult.1, hresult.2.1, hresult.2.2]

omit data defs info in
theorem Classified.after_quiet {first second : Trace Processes}
    {result : Except DeployProfileError Unit} (hfirst : Quiet first)
    (hsecond : Classified second result) :
    Classified (first ++ second) result := by
  cases result with
  | error error =>
      simpa [Classified, hfirst.activation, hfirst.confirmation] using hsecond
  | ok _ =>
      obtain ⟨hactivation, hconfirmation, hbroke⟩ := hsecond
      exact ⟨by simp [hactivation], by simp [hconfirmation],
        by simp [hfirst.confirmation, hbroke]⟩

/-- A process that is neither started as a confirmation nor known to have ended
tells nothing. -/
theorem quiet_spawn {remote : RemoteCommand}
    (hremote : isConfirmation remote = false)
    (started : Except IoError Unit) :
    Quiet [⟨.spawn (onTarget data defs remote), started⟩] := by
  constructor
  · rfl
  · cases started <;> simp [hremote]

/-- Confirming after a wait that told whether the activation had settled. -/
theorem ensures_confirmDeployment (activationFinished : Bool) :
    Ensures (processes (confirmDeployment data defs info activationFinished))
      fun trace confirmation =>
        ∀ seen, broke isConfirmation seen = false →
          ranOk isActivation seen = activationFinished →
          Classified (seen ++ trace) (confirmation >>= id) := by
  cases activationFinished with
  | true =>
      simp only [confirmDeployment, if_true, processes_attempt,
        ensures_bind_iff]
      refine (ensures_confirmProfile data defs).mono ?_
      intro trace result hresult
      obtain ⟨-, hconfirms⟩ := hresult
      rw [ensures_done_iff, List.append_nil]
      intro seen hbroke hran
      cases result with
      | error error => exact .inl ⟨hconfirms.1, by simp [hconfirms.2]⟩
      | ok _ =>
          exact ⟨by simp [hran], by simp [hconfirms.1],
            by simp [hbroke, hconfirms.2]⟩
  | false =>
      simp only [confirmDeployment, Bool.false_eq_true, if_false]
      refine (ensures_confirmBesideActivation data defs info).mono ?_
      intro trace confirmation hconfirmation seen hbroke hran
      rcases confirmation with error | (error | _)
      · exact .inr (.inl (by simpa [hran] using hconfirmation))
      · exact .inl ⟨hconfirmation.1, by simp [hconfirmation.2]⟩
      · exact ⟨by simp [hconfirmation.1], by simp [hconfirmation.2.1],
          by simp [hbroke, hconfirmation.2.2]⟩

omit data defs info in
theorem ensures_after_quiet
    {program : Program Processes (Except DeployProfileError Unit)}
    {first : Trace Processes} (hfirst : Quiet first)
    (hprogram : Ensures program Classified) :
    Ensures program fun trace result => Classified (first ++ trace) result :=
  hprogram.mono fun _ _ hclassified => hclassified.after_quiet hfirst

theorem ensures_awaitAndConfirm :
    Ensures (processes (awaitAndConfirm data defs info)) Classified := by
  simp only [awaitAndConfirm, processes_bind, processes_liftM, silent_emit,
    Program.done_bind, ensures_bind_iff]
  refine (ensures_awaitCanary data defs info).mono ?_
  intro waited result hwaited
  obtain ⟨hbroke, hresult⟩ := hwaited
  cases result with
  | error error =>
      simp [Classified, hresult.1]
  | ok activationFinished =>
      simp only [ensures_bind_iff]
      refine (ensures_confirmDeployment data defs info activationFinished).mono ?_
      intro trace confirmation hconfirmation
      have hclassified := hconfirmation waited hbroke hresult
      rcases confirmation with error | (error | _)
      · have hearly : Classified (waited ++ trace) (.error error) := hclassified
        simpa using hearly
      · have hfailed : Classified (waited ++ trace) (.error error) := hclassified
        simpa using hfailed
      · have hdone : Classified (waited ++ trace) (.ok ()) := hclassified
        simpa using hdone

theorem ensures_deployWithCanary :
    Ensures (processes (deployWithCanary data defs info)) Classified := by
  simp only [deployWithCanary, processes_bind, processes_liftM, silent_emit,
    silent_process, Program.done_bind, ensures_bind_iff]
  refine (ensures_clearStaleCanary data defs).mono ?_
  intro cleared result hcleared
  cases result with
  | error error => simp [Classified, hcleared.1.activation]
  | ok _ =>
      simp only [Program.request_bind, Program.done_bind]
      apply ensures_after_quiet hcleared.1
      rw [ensures_request_iff]
      intro (activating : Except IoError Unit)
      refine ensures_after_quiet (quiet_spawn data defs rfl activating) ?_
      cases activating with
      | error error => simp [Except.mapError, Classified]
      | ok _ =>
          simp only [processes_orFail, Except.mapError, Program.done_bind]
          rw [ensures_request_iff]
          intro (waiting : Except IoError Unit)
          refine ensures_after_quiet (quiet_spawn data defs rfl waiting) ?_
          cases waiting with
          | error error => simp [Except.mapError, Classified]
          | ok _ => exact ensures_awaitAndConfirm data defs info

/-- Every deployment with magic rollback is classified by its conversation. -/
theorem ensures_deployProfile (hmagic : data.magicRollback = true) :
    Ensures (processes (deployProfile data defs false)) Classified := by
  rw [deployProfile]
  split
  · simp [Classified]
  · simp only [processes_bind, processes_liftM, silent_emit, processes_orFail,
      Program.done_bind, hmagic, Bool.not_true, Bool.or_self,
      Bool.false_eq_true, if_false]
    cases data.profileInfo with
    | error error => simp [Except.mapError, Classified]
    | ok info =>
        simpa [Except.mapError] using ensures_deployWithCanary data defs info

end Classification

/-! ## Soundness of the reported outcome -/

/-- A deployment is reported as done only when the activation ran to exit code
zero and the canary was removed, and as rolled back only when no activation
ran to exit code zero. -/
structure ReportsTruly (trace : Trace Processes)
    (result : Except DeployProfileError Unit) : Prop where
  confirmed : result = .ok () →
    ranOk isActivation trace ∧ ranOk isConfirmation trace
  rolledBack : ∀ error, result = .error error → error.rolledBack →
    ranOk isActivation trace = false

theorem Classified.reportsTruly_iff {trace : Trace Processes}
    {result : Except DeployProfileError Unit}
    (hclassified : Classified trace result) :
    ReportsTruly trace result ↔
      ¬ (ranOk isActivation trace ∧ broke isConfirmation trace) := by
  cases result with
  | ok _ =>
      obtain ⟨hactivation, hconfirmation, hbroke⟩ := hclassified
      constructor
      · intro _ hboth
        rw [hbroke] at hboth
        exact absurd hboth.2 (by decide)
      · intro _
        exact ⟨fun _ => ⟨hactivation, hconfirmation⟩, fun _ hne => by cases hne⟩
  | error error =>
      constructor
      · intro htruly hboth
        rcases hclassified with ⟨hrolled, -⟩ | hnone | ⟨-, hbroke⟩
        · have hnone := htruly.rolledBack error rfl hrolled
          rw [hnone] at hboth
          exact absurd hboth.1 (by decide)
        · rw [hnone] at hboth
          exact absurd hboth.1 (by decide)
        · rw [hbroke] at hboth
          exact absurd hboth.2 (by decide)
      · intro hnot
        refine ⟨fun hne => (by cases hne), ?_⟩
        intro other hother hrolled
        cases hother
        rcases hclassified with ⟨-, hbroke⟩ | hnone | ⟨hnotRolled, -⟩
        · rw [← Bool.not_eq_true]
          intro hran
          exact hnot ⟨hran, hbroke⟩
        · exact hnone
        · rw [hrolled] at hnotRolled
          cases hnotRolled

/-- A live deployment with magic rollback reports truly unless its activation
ran to exit code zero and the removal of its canary still failed: that run is
reported as rolled back although the new generation stayed. -/
theorem deployProfile_reportsTruly_iff {data : DeployData} {defs : DeployDefs}
    (hmagic : data.magicRollback = true) {trace : Trace Controller}
    {result : Except DeployProfileError Unit}
    (hexec : Executes (deployProfile data defs false).run trace result) :
    ReportsTruly (rightTrace trace) result ↔
      ¬ (ranOk isActivation (rightTrace trace) ∧
        broke isConfirmation (rightTrace trace)) :=
  (ensures_deployProfile data defs hmagic _ _
    (executes_processes_iff.mpr ⟨trace, rfl, hexec⟩)).reportsTruly_iff

section Runs

def rootActivate : Command :=
  activateProcess rootDeployment rootDefs (.profileUserAndName "root" "system")

def rootWait : Command :=
  onTarget rootDeployment rootDefs (waitRemote rootDeployment rootDefs)

def rootConfirm : Command :=
  onTarget rootDeployment rootDefs (confirmRemote rootDeployment rootDefs)

/-- The conversation up to the settled waiter. -/
def untilWaiter : Trace Processes :=
  let clear :=
    onTarget rootDeployment rootDefs (clearCanaryRemote rootDeployment rootDefs)
  [⟨.spawn clear, .ok ()⟩, ⟨.await clear, .ok (exitedWith 0)⟩,
    ⟨.spawn rootActivate, .ok ()⟩, ⟨.spawn rootWait, .ok ()⟩,
    ⟨.race rootWait rootActivate, .first (.ok (exitedWith 0))⟩,
    ⟨.poll rootActivate, none⟩, ⟨.spawn rootConfirm, .ok ()⟩]

/-- The canary is removed, then the activation succeeds. -/
def confirmedRun : Trace Processes :=
  untilWaiter ++
    [⟨.race rootActivate rootConfirm, .second (.ok (exitedWith 0))⟩,
      ⟨.await rootActivate, .ok (exitedWith 0)⟩]

theorem executes_confirmedRun :
    ∃ trace, rightTrace trace = confirmedRun ∧
      Executes (deployProfile rootDeployment rootDefs false).run trace
        (.ok ()) :=
  executes_processes_iff.mp (.request (.request (.request (.request (.request
    (.request (.request (.request (.request (.done _))))))))))

/-- The iff at a run that confirmed in time. -/
theorem confirmedRun_reportsTruly :
    ∃ trace, Executes (deployProfile rootDeployment rootDefs false).run trace
        (.ok ()) ∧
      (ReportsTruly (rightTrace trace) (.ok ()) ↔
        ¬ (ranOk isActivation (rightTrace trace) ∧
          broke isConfirmation (rightTrace trace))) := by
  obtain ⟨trace, -, hexec⟩ := executes_confirmedRun
  exact ⟨trace, hexec, deployProfile_reportsTruly_iff rfl hexec⟩

/-- The canary is removed but the connection is lost before ssh can say so;
the activation sees the removal and succeeds. -/
def lostConfirmation : Trace Processes :=
  untilWaiter ++
    [⟨.race rootActivate rootConfirm, .second (.ok (exitedWith 255))⟩,
      ⟨.await rootActivate, .ok (exitedWith 0)⟩]

/-- That run is reported as rolled back although its activation succeeded. -/
theorem lostConfirmation_not_reportsTruly :
    ∃ trace result,
      Executes (deployProfile rootDeployment rootDefs false).run trace result ∧
        ¬ ReportsTruly (rightTrace trace) result := by
  have hsilent : Executes (processes (deployProfile rootDeployment rootDefs
      false)) lostConfirmation (.error (.confirmExit (.exited 255))) :=
    .request (.request (.request (.request (.request
      (.request (.request (.request (.request (.done _)))))))))
  obtain ⟨trace, htrace, hexec⟩ := executes_processes_iff.mp hsilent
  refine ⟨trace, _, hexec, ?_⟩
  intro htruly
  have hnone := htruly.rolledBack _ rfl rfl
  rw [htrace] at hnone
  cases hnone

end Runs

end Mandala.Deploy
