import Mandala.Explorer.Slot
import Mandala.Runner.DeployRun

/-!
# The refresh after a mutation

A screen that was opened for a mutation asks for a drift refresh when it closes
on a run that is over; dismissed before that, it leaves the run to a watch that
asks for the refresh once the run has settled.  Either way the refresh starts
only what is not running already.
-/

namespace Mandala.Explorer

open Mandala.Data Mandala.Drift Mandala.JobSlot Mandala.Registry Mandala.Runner
open Mandala.Transition

inductive RunKey where
  | registered (runId : String)
  | task (taskId : ℕ)
  deriving DecidableEq, Repr

/-- The screens that follow a run.  A deploy screen knows the id of the run it
launched only once the engine has registered it. -/
inductive RunScreen where
  | task (taskId : ℕ) (rc : Option Int)
  | attachedLog (runId : String)
  | deploy (runId : String) (job : DeployRun) (known : Bool)

namespace RunScreen

def key : RunScreen → RunKey
  | .task taskId _ => .task taskId
  | .attachedLog runId => .registered runId
  | .deploy runId _ _ => .registered runId

/-- The run a dismissed screen can leave to the watch. -/
def detachedId : RunScreen → Option String
  | .task _ _ => none
  | .attachedLog runId => some runId
  | .deploy runId _ known => if known then some runId else none

end RunScreen

structure OpenScreen where
  view : RunScreen
  afterMutation : Bool

/-- How much had been started when a run settled. -/
structure Mark where
  log : ℕ
  surveys : ℕ

/-- The explorer with its screen, its watch and the runs it may follow. -/
structure Dashboard where
  app : App
  surveyRunning : Bool
  surveysStarted : ℕ
  screen : Option OpenScreen
  nextTaskId : ℕ
  watchedRuns : List (String × Bool)
  watchArmed : Bool
  registry : String → Option RunDirectory
  processExists : Int → Bool
  /-- The runs a screen was opened for, with the refresh to follow. -/
  opened : List RunKey
  /-- The runs whose code has been recorded, and when. -/
  settled : RunKey → Option Mark

inductive WatchVerdict where
  | pruned
  | running
  | settled (rc : Option Int)

namespace Dashboard

variable (parse : String → Option Json) (dash : Dashboard)

/-- `attached_close_rc`. -/
def attachedCloseRc (runId : String) : Option Int :=
  match dash.registry runId with
  | none => none
  | some directory =>
      let (liveness, observed) :=
        (openRun directory).liveness parse dash.processExists
      if liveness = .running then none else observed.directory.recordedRc

/-- The code a screen is dismissed with. -/
def closeRc : RunScreen → Option Int
  | .task _ rc => rc
  | .attachedLog runId => dash.attachedCloseRc parse runId
  | .deploy runId job known =>
      let eventsDir := if known then dash.registry runId else none
      (DeployRun.returncode parse dash.processExists { job with eventsDir }).1

/-- Adopt a state and start the jobs it says to start. -/
def started (asked : Bool) (next : AppState × (Bool × Bool)) : Dashboard :=
  let entries : List Entry :=
    if asked then [.trailAsked dash.app.isLoading] else []
  { dash with
    app := App.evalWith { dash.app with log := dash.app.log ++ entries }
      (next.1, next.2.1)
    surveyRunning := dash.surveyRunning || next.2.2
    surveysStarted := dash.surveysStarted + next.2.2.toNat }

def refreshDrift : Dashboard := dash.started true dash.app.state.refreshDrift

def afterMutation (rc : Option Int) : Dashboard :=
  dash.started rc.isSome (dash.app.state.afterMutation rc)

/-- `watch_run`. -/
def watchRun (runId : String) (afterMutation : Bool) : Dashboard :=
  if dash.watchedRuns.any fun watched => watched.1 = runId then dash
  else
    { dash with
      watchedRuns := dash.watchedRuns ++ [(runId, afterMutation)]
      watchArmed := true }

/-- What the watch finds a run to be. -/
def watchVerdict (runId : String) : WatchVerdict :=
  match dash.registry runId with
  | none => .pruned
  | some directory =>
      if directory.recordedRc.isNone && pidAlive dash.processExists directory.pid then
        .running
      else .settled directory.recordedRc

def stillRunning (runId : String) : Bool :=
  match dash.watchVerdict runId with
  | .running => true
  | _ => false

def settledWatch (watched : String × Bool) : Option (Option Int × Bool) :=
  match dash.watchVerdict watched.1 with
  | .settled rc => some (rc, watched.2)
  | _ => none

def finishWatch (settled : Option Int × Bool) : Dashboard :=
  if settled.2 then dash.afterMutation settled.1 else dash

/-- `poll_watched_runs`. -/
def pollWatchedRuns : Dashboard :=
  let settled := dash.watchedRuns.filterMap dash.settledWatch
  let watchedRuns := dash.watchedRuns.filter fun watched =>
    dash.stillRunning watched.1
  let polled := { dash with watchedRuns, watchArmed := !watchedRuns.isEmpty }
  settled.foldl finishWatch polled

/-- `finish_screen`. -/
def finishScreen (rc : Option Int) (afterMutation : Bool) : Dashboard :=
  let closed := { dash with screen := none }
  if afterMutation then closed.afterMutation rc else closed

/-- A dismissed deploy screen says that its run goes on. -/
def detachNotice (runId : String) : RunScreen → Dashboard
  | .deploy _ _ _ =>
      { dash with
        app := { dash.app with
          state := dash.app.state.setStatus
            ("detached — run " ++ runId ++ " continues (a: runs list)") false } }
  | _ => dash

/-- A screen dismissed without a code leaves its run to the watch. -/
def detach (screen : OpenScreen) : Dashboard :=
  match screen.view.detachedId with
  | none => dash
  | some runId =>
      (if screen.afterMutation then dash.watchRun runId true
        else dash).detachNotice runId screen.view

/-- `Close` on a screen that follows a run. -/
def close (screen : OpenScreen) : Dashboard :=
  let rc := dash.closeRc parse screen.view
  let left := if rc.isNone then dash.detach screen else dash
  left.finishScreen rc screen.afterMutation

def push (view : RunScreen) (afterMutation : Bool) : Dashboard :=
  { dash with
    screen := some { view, afterMutation }
    opened := if afterMutation then view.key :: dash.opened else dash.opened }

/-- The code of a run is recorded; only the first time counts. -/
def markSettled (key : RunKey) : Dashboard :=
  let mark := { log := dash.app.log.length, surveys := dash.surveysStarted }
  { dash with
    settled := Function.update dash.settled key ((dash.settled key).or (some mark)) }

/-- `TaskExited`. -/
def taskExited (taskId : ℕ) (rc : Int) : Dashboard :=
  match dash.screen with
  | some { view := .task shown _, afterMutation } =>
      if shown = taskId then
        { dash.markSettled (.task taskId) with
          screen := some { view := .task taskId (some rc), afterMutation } }
      else dash
  | _ => dash

def recorded (entry : Option RunDirectory) : Bool :=
  entry.any fun directory => directory.recordedRc.isSome

/-- Something happens in a run directory. -/
def registryMoved (runId : String) (entry : Option RunDirectory) : Dashboard :=
  let moved := { dash with registry := Function.update dash.registry runId entry }
  if recorded entry then moved.markSettled (.registered runId) else moved

end Dashboard

inductive DashboardEvent where
  | background (event : AppEvent)
  | refreshDrift
  | surveyDone (n : ℕ) (rc : Int) (error : Option String)
      (snapshots : BTreeMap Snapshot) (now : Int)
  | pushTask (afterMutation : Bool)
  | pushAttachedLog (runId : String) (afterMutation : Bool)
  | startDeploy (runId : String) (job : DeployRun) (known afterMutation : Bool)
  | taskExited (taskId : ℕ) (rc : Int)
  | deployMoved (job : DeployRun) (known : Bool)
  | close
  | runWatchPoll
  | registryMoved (runId : String) (entry : Option RunDirectory)
  | processesMoved (processExists : Int → Bool)

/-- The events of the slot other than the ones a survey is part of. -/
def AppEvent.background : AppEvent → Bool
  | .refreshDrift => false
  | .surveyDone _ _ _ _ _ => false
  | _ => true

section Loop

variable (parse : String → Option Json) (reading : Reading)

/-- Keys, timers, settling jobs and the runs themselves, in any order.  A run
screen is pushed only when none is up, and a recorded code stays recorded while
the run directory exists. -/
inductive DashboardStep : Dashboard → DashboardEvent → Dashboard → Prop
  | background (dash : Dashboard) (event : AppEvent) (app : App)
      (hbackground : event.background = true)
      (hstep : AppStep reading dash.app event app) :
      DashboardStep dash (.background event) { dash with app }
  | refreshDrift (dash : Dashboard) :
      DashboardStep dash .refreshDrift dash.refreshDrift
  | surveyDone (dash : Dashboard) (n : ℕ) (rc : Int) (error : Option String)
      (snapshots : BTreeMap Snapshot) (now : Int)
      (hrunning : dash.surveyRunning = true) :
      DashboardStep dash (.surveyDone n rc error snapshots now)
        { dash with
          app := { dash.app with
            state := dash.app.state.onSurveyDone reading n rc error snapshots now }
          surveyRunning := false }
  | pushTask (dash : Dashboard) (afterMutation : Bool)
      (hnone : dash.screen = none) :
      DashboardStep dash (.pushTask afterMutation)
        (Dashboard.push { dash with nextTaskId := dash.nextTaskId + 1 }
          (.task (dash.nextTaskId + 1) none) afterMutation)
  | pushAttachedLog (dash : Dashboard) (runId : String) (afterMutation : Bool)
      (hnone : dash.screen = none) :
      DashboardStep dash (.pushAttachedLog runId afterMutation)
        (dash.push (.attachedLog runId) afterMutation)
  | startDeploy (dash : Dashboard) (runId : String) (job : DeployRun)
      (known afterMutation : Bool) (hnone : dash.screen = none) :
      DashboardStep dash (.startDeploy runId job known afterMutation)
        (dash.push (.deploy runId job known) afterMutation)
  | taskExited (dash : Dashboard) (taskId : ℕ) (rc : Int) :
      DashboardStep dash (.taskExited taskId rc) (dash.taskExited taskId rc)
  | deployMoved (dash : Dashboard) (runId : String) (before job : DeployRun)
      (knew known afterMutation : Bool)
      (hscreen : dash.screen =
        some { view := .deploy runId before knew, afterMutation })
      (hknown : knew = true → known = true) :
      DashboardStep dash (.deployMoved job known)
        { dash with
          screen := some { view := .deploy runId job known, afterMutation } }
  | close (dash : Dashboard) (screen : OpenScreen)
      (hscreen : dash.screen = some screen) :
      DashboardStep dash .close (dash.close parse screen)
  | runWatchPoll (dash : Dashboard) (harmed : dash.watchArmed = true) :
      DashboardStep dash .runWatchPoll dash.pollWatchedRuns
  | registryMoved (dash : Dashboard) (runId : String)
      (entry : Option RunDirectory)
      (hkept : dash.settled (.registered runId) ≠ none →
        entry = none ∨ Dashboard.recorded entry = true) :
      DashboardStep dash (.registryMoved runId entry)
        (dash.registryMoved runId entry)
  | processesMoved (dash : Dashboard) (processExists : Int → Bool) :
      DashboardStep dash (.processesMoved processExists)
        { dash with processExists }

end Loop

/-- An explorer that has just started, with nothing registered yet. -/
def Dashboard.new : Dashboard :=
  { app := { state := AppState.new, jobs := [], log := [] }
    surveyRunning := false
    surveysStarted := 0
    screen := none
    nextTaskId := 0
    watchedRuns := []
    watchArmed := false
    registry := fun _ => none
    processExists := fun _ => false
    opened := []
    settled := fun _ => none }

def DashboardInitial (dash : Dashboard) : Prop := dash = Dashboard.new

namespace Dashboard

/-- A screen that will ask for the refresh is up for the run. -/
def Shows (dash : Dashboard) (key : RunKey) : Prop :=
  ∃ screen, dash.screen = some screen ∧ screen.afterMutation = true ∧
    screen.view.key = key

def Watches (dash : Dashboard) (key : RunKey) : Prop :=
  ∃ watched ∈ dash.watchedRuns, key = .registered watched.1

/-- An evaluation was started since. -/
def EvaluatedSince (dash : Dashboard) (mark : Mark) : Prop :=
  ∃ position : ℕ, mark.log ≤ position ∧
    dash.app.log[position]? = some .trailStarted

/-- Once a run that was opened with the refresh to follow has settled, its
screen is closed, it is not watched any more and no job is outstanding, an
evaluation and a survey have been run that were started after it settled. -/
def RefreshedAfter (dash : Dashboard) : Prop :=
  ∀ key mark, key ∈ dash.opened → dash.settled key = some mark →
    ¬ dash.Shows key → ¬ dash.Watches key → dash.app.jobs = [] →
      dash.surveyRunning = false →
        dash.EvaluatedSince mark ∧ mark.surveys < dash.surveysStarted

/-- What runs already was started after the run settled. -/
structure Unswallowed (dash : Dashboard) (mark : Mark) : Prop where
  evaluation : dash.app.state.expectedEvalRunning = true → dash.EvaluatedSince mark
  survey : dash.app.state.surveying = true → mark.surveys < dash.surveysStarted

end Dashboard

/-- No refresh is dropped.  An opened run records its code while its screen is
up or it is watched; a screen of a settled run that closes without its code
knows the run's id, and a watched run that settled is still registered when it
is looked at; and a refresh asked for then does not find a survey or an
evaluation that was started before. -/
def Attentive (parse : String → Option Json) (dash : Dashboard) :
    DashboardEvent → Prop
  | .registryMoved runId entry =>
      Dashboard.recorded entry = true →
        dash.settled (.registered runId) = none →
          .registered runId ∈ dash.opened →
            dash.Shows (.registered runId) ∨ dash.Watches (.registered runId)
  | .close => ∀ screen mark, dash.screen = some screen →
      screen.afterMutation = true → dash.settled screen.view.key = some mark →
        (dash.closeRc parse screen.view = none →
          screen.view.detachedId ≠ none) ∧
        (dash.closeRc parse screen.view ≠ none → dash.Unswallowed mark)
  | .runWatchPoll => ∀ watched ∈ dash.watchedRuns, ∀ mark,
      dash.settled (.registered watched.1) = some mark →
        dash.registry watched.1 ≠ none ∧ dash.Unswallowed mark
  | _ => True

end Mandala.Explorer
