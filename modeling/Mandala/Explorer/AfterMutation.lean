import Mandala.Explorer.RunWatch

/-!
# A completed mutation refreshes drift

A refresh that starts nothing still leads to an evaluation when it was queued
behind a load.  While no refresh is dropped, every settled run is shown, watched
or covered by what was started or queued since.
-/

namespace Mandala.Explorer

open Mandala.Data Mandala.Drift Mandala.Events Mandala.JobSlot Mandala.Registry
open Mandala.Runner Mandala.Transition

/-- Only the jobs moved on, and the log grew. -/
structure Extends (before after : Dashboard) : Prop where
  log : before.app.log <+: after.app.log
  surveys : before.surveysStarted ≤ after.surveysStarted
  screen : after.screen = before.screen
  nextTaskId : after.nextTaskId = before.nextTaskId
  watchedRuns : after.watchedRuns = before.watchedRuns
  registry : after.registry = before.registry
  opened : after.opened = before.opened
  settled : after.settled = before.settled

theorem Extends.refl (dash : Dashboard) : Extends dash dash :=
  ⟨List.prefix_refl _, Nat.le_refl _, rfl, rfl, rfl, rfl, rfl, rfl⟩

theorem Extends.trans {first second third : Dashboard}
    (hfirst : Extends first second) (hsecond : Extends second third) :
    Extends first third where
  log := hfirst.log.trans hsecond.log
  surveys := hfirst.surveys.trans hsecond.surveys
  screen := hsecond.screen.trans hfirst.screen
  nextTaskId := hsecond.nextTaskId.trans hfirst.nextTaskId
  watchedRuns := hsecond.watchedRuns.trans hfirst.watchedRuns
  registry := hsecond.registry.trans hfirst.registry
  opened := hsecond.opened.trans hfirst.opened
  settled := hsecond.settled.trans hfirst.settled

/-- The slot is in order and the survey flag is right. -/
structure Ready (dash : Dashboard) : Prop where
  slot : ∃ slot, Simulates dash.app slot
  surveying : dash.app.state.surveying = dash.surveyRunning

/-- The mark is of the past. -/
def Past (dash : Dashboard) (mark : Mark) : Prop :=
  mark.log ≤ dash.app.log.length ∧ mark.surveys ≤ dash.surveysStarted

/-- An evaluation and a survey have been started since, the evaluation perhaps
only asked for behind a load. -/
def Covered (dash : Dashboard) (mark : Mark) : Prop :=
  (∃ position : ℕ, mark.log ≤ position ∧
    (dash.app.log[position]? = some .trailStarted ∨
      dash.app.log[position]? = some (.trailAsked true))) ∧
  mark.surveys < dash.surveysStarted

theorem getElem?_of_grows {before after : List Entry} (hgrows : before <+: after)
    {position : ℕ} {entry : Entry} (hentry : before[position]? = some entry) :
    after[position]? = some entry := by
  obtain ⟨entries, rfl⟩ := hgrows
  exact getElem?_append_of_some hentry entries

theorem Covered.extends {before after : Dashboard} {mark : Mark}
    (hcovered : Covered before mark) (hlog : before.app.log <+: after.app.log)
    (hsurveys : before.surveysStarted ≤ after.surveysStarted) :
    Covered after mark := by
  obtain ⟨⟨position, hsince, hentry⟩, hsurveyed⟩ := hcovered
  refine ⟨⟨position, hsince, ?_⟩, Nat.lt_of_lt_of_le hsurveyed hsurveys⟩
  rcases hentry with hstarted | hasked
  · exact .inl (getElem?_of_grows hlog hstarted)
  · exact .inr (getElem?_of_grows hlog hasked)

/-! ## One refresh -/

theorem surveying_requestEvalExpected (state : AppState) :
    state.requestEvalExpected.1.surveying = state.surveying := by
  rw [AppState.requestEvalExpected]
  split <;> rfl

/-- After a refresh a survey is running, and it is new unless one was running
before. -/
theorem refreshDrift_survey (state : AppState) :
    state.refreshDrift.1.surveying = true ∧
      state.refreshDrift.2.2 = !state.surveying := by
  let asking := { state with statusSticky := false }
  have hsame : asking.requestEvalExpected.1.surveying = state.surveying :=
    surveying_requestEvalExpected asking
  change (AppState.requestSurvey asking.requestEvalExpected.1).1.surveying = true ∧
    (AppState.requestSurvey asking.requestEvalExpected.1).2 = _
  rw [AppState.requestSurvey, hsame]
  cases hsurveying : state.surveying with
  | true => exact ⟨hsame.trans hsurveying, rfl⟩
  | false => exact ⟨rfl, rfl⟩

/-- The log entries of a refresh, by what is in the slot. -/
theorem log_refreshDrift {dash : Dashboard} {slot : Slot ℕ}
    (hsimulates : Simulates dash.app slot) :
    dash.refreshDrift.app.log = dash.app.log ++ slot.askTrail.2 := by
  obtain ⟨hflags, hjobs, -⟩ := hsimulates
  let asking := { dash.app.state with statusSticky := false }
  change (App.evalWith { dash.app with
    log := dash.app.log ++ [.trailAsked dash.app.isLoading] }
      (_, asking.requestEvalExpected.2)).log = _
  have hbusy : asking.busy = !slot.isIdle := hflags.busy
  rw [isLoading_of_jobs hjobs, AppState.requestEvalExpected, hbusy]
  cases slot with
  | idle => exact List.append_assoc _ _ _
  | leading => rfl
  | trailing => rfl

theorem Ready.refreshDrift {dash : Dashboard} (hready : Ready dash) :
    Ready dash.refreshDrift := by
  obtain ⟨⟨slot, hsimulates⟩, hsurveying⟩ := hready
  obtain ⟨hrunning, hstarted⟩ := refreshDrift_survey dash.app.state
  refine ⟨⟨_, hsimulates.refreshDrift⟩, ?_⟩
  have hstate : dash.refreshDrift.app.state = dash.app.state.refreshDrift.1 := by
    change (App.evalWith _ _).state = _
    rw [App.evalWith]
    split <;> rfl
  rw [hstate, hrunning]
  change true = (dash.surveyRunning || dash.app.state.refreshDrift.2.2)
  rw [hstarted, hsurveying]
  cases dash.surveyRunning <;> rfl

theorem extends_refreshDrift {dash : Dashboard} (hready : Ready dash) :
    Extends dash dash.refreshDrift := by
  obtain ⟨⟨slot, hsimulates⟩, -⟩ := hready
  refine ⟨?_, Nat.le_add_right _ _, rfl, rfl, rfl, rfl, rfl, rfl⟩
  rw [log_refreshDrift hsimulates]
  exact List.prefix_append _ _

/-- A refresh that nothing swallows covers every run settled before it. -/
theorem covered_refreshDrift {dash : Dashboard} (hready : Ready dash) {mark : Mark}
    (hpast : Past dash mark) (hunswallowed : dash.Unswallowed mark) :
    Covered dash.refreshDrift mark := by
  obtain ⟨⟨slot, hsimulates⟩, hsurveying⟩ := hready
  have hlog := log_refreshDrift hsimulates
  constructor
  · cases slot with
    | idle =>
        have hlast : dash.app.log.length + 1 - dash.app.log.length = 1 := by omega
        refine ⟨dash.app.log.length + 1, hpast.1.trans (Nat.le_succ _), .inl ?_⟩
        rw [hlog, List.getElem?_append_right (Nat.le_succ _), hlast]
        rfl
    | leading =>
        refine ⟨dash.app.log.length, hpast.1, .inr ?_⟩
        rw [hlog, List.getElem?_append_right (Nat.le_refl _), Nat.sub_self]
        rfl
    | trailing =>
        obtain ⟨position, hsince, hstarted⟩ :=
          hunswallowed.evaluation hsimulates.flags.running
        refine ⟨position, hsince, .inl ?_⟩
        rw [hlog]
        exact getElem?_append_of_some hstarted _
  · change mark.surveys <
      dash.surveysStarted + dash.app.state.refreshDrift.2.2.toNat
    rw [(refreshDrift_survey dash.app.state).2]
    cases hrunning : dash.app.state.surveying with
    | true => exact hunswallowed.survey hrunning
    | false => exact Nat.lt_succ_of_le hpast.2

theorem afterMutation_none (dash : Dashboard) : dash.afterMutation none = dash := by
  change { dash with
    app := { dash.app with log := dash.app.log ++ [] }
    surveyRunning := dash.surveyRunning || false } = dash
  rw [List.append_nil, Bool.or_false]

theorem afterMutation_some (dash : Dashboard) (rc : Int) :
    dash.afterMutation (some rc) = dash.refreshDrift := rfl

/-! ## The watch -/

theorem finishWatch_cases (dash : Dashboard) (settled : Option Int × Bool) :
    dash.finishWatch settled = dash ∨
      dash.finishWatch settled = dash.refreshDrift := by
  obtain ⟨rc, afterMutation⟩ := settled
  cases afterMutation with
  | false => exact .inl rfl
  | true =>
      cases rc with
      | none => exact .inl (afterMutation_none dash)
      | some rc => exact .inr (afterMutation_some dash rc)

theorem finishWatch_ready {dash : Dashboard} (hready : Ready dash)
    (settled : Option Int × Bool) :
    Ready (dash.finishWatch settled) ∧ Extends dash (dash.finishWatch settled) := by
  rcases finishWatch_cases dash settled with hsame | hrefresh
  · rw [hsame]
    exact ⟨hready, .refl dash⟩
  · rw [hrefresh]
    exact ⟨hready.refreshDrift, extends_refreshDrift hready⟩

theorem foldl_finishWatch_ready {dash : Dashboard} (hready : Ready dash)
    (settled : List (Option Int × Bool)) :
    Ready (settled.foldl Dashboard.finishWatch dash) ∧
      Extends dash (settled.foldl Dashboard.finishWatch dash) := by
  induction settled generalizing dash with
  | nil => exact ⟨hready, .refl dash⟩
  | cons first settled ih =>
      obtain ⟨hfirst, hextends⟩ := finishWatch_ready hready first
      obtain ⟨hrest, hextended⟩ := ih hfirst
      exact ⟨hrest, hextends.trans hextended⟩

/-- Some settled run with a code asks for the refresh, which covers every mark
of the past. -/
theorem covered_foldl_finishWatch {dash : Dashboard} (hready : Ready dash)
    {mark : Mark} (hpast : Past dash mark) (hunswallowed : dash.Unswallowed mark)
    {settled : List (Option Int × Bool)} {rc : Int}
    (hsettled : (some rc, true) ∈ settled) :
    Covered (settled.foldl Dashboard.finishWatch dash) mark := by
  induction settled with
  | nil => cases hsettled
  | cons first settled ih =>
      rw [List.foldl_cons]
      rcases finishWatch_cases dash first with hsame | hrefresh
      · rw [hsame]
        rcases List.mem_cons.mp hsettled with heq | hrest
        · subst heq
          have hnow := covered_refreshDrift hready hpast hunswallowed
          rw [← afterMutation_some dash rc] at hnow
          change dash.afterMutation (some rc) = dash at hsame
          rw [hsame] at hnow
          obtain ⟨-, hextended⟩ := foldl_finishWatch_ready hready settled
          exact hnow.extends hextended.log hextended.surveys
        · exact ih hrest
      · rw [hrefresh]
        obtain ⟨-, hextended⟩ := foldl_finishWatch_ready hready.refreshDrift settled
        exact (covered_refreshDrift hready hpast hunswallowed).extends
          hextended.log hextended.surveys

/-! ## The other background jobs -/

theorem log_evalWith (app : App) (next : AppState × Bool) :
    app.log <+: (app.evalWith next).log := by
  rw [App.evalWith]
  split
  · exact List.prefix_append _ _
  · exact List.prefix_refl _

theorem log_loadWith (app : App) (next : AppState × Option LoadRequest) :
    app.log <+: (app.loadWith next).log := by
  rw [App.loadWith]
  split
  · exact List.prefix_append _ _
  · exact List.prefix_refl _

theorem log_followUp (app : App) (settled : AppState × Option LoadRequest)
    (loadSettled : Bool) : app.log <+: (app.followUp settled loadSettled).log := by
  rw [App.followUp]
  split
  · exact List.prefix_append _ _
  · split
    · exact log_evalWith _ _
    · exact List.prefix_refl _

/-- The log only grows. -/
theorem log_of_step {reading : Reading} {app after : App} {event : AppEvent}
    (hstep : AppStep reading app event after) : app.log <+: after.log := by
  have hrequested (fresh : Bool) (next : AppState × Option LoadRequest) :
      app.log <+: (app.requested fresh next).log := by
    have hasked : app.log <+: app.log ++ Slot.askedEntries fresh :=
      List.prefix_append _ _
    exact hasked.trans (log_loadWith { app with log := _ } next)
  have hsettled (job : EvalJob) (settled : AppState × Option LoadRequest)
      (loadSettled : Bool) :
      app.log <+: ((app.settle job).followUp settled loadSettled).log := by
    have hsettle : app.log <+: (app.settle job).log := List.prefix_append _ _
    exact hsettle.trans (log_followUp _ settled loadSettled)
  cases hstep with
  | requestLoad => exact hrequested _ _
  | requestReload => exact hrequested _ _
  | requestInventorySwap => exact hrequested _ _
  | refreshDrift =>
      have hasked : app.log <+: app.log ++ [.trailAsked app.isLoading] :=
        List.prefix_append _ _
      exact hasked.trans (log_evalWith { app with log := _ } _)
  | startPendingEvalExpected => exact log_evalWith _ _
  | loadFinished => exact hsettled _ _ _
  | driftEvalFinished => exact hsettled _ _ _
  | surveyProgress => exact List.prefix_refl _
  | surveyDone => exact List.prefix_refl _
  | driftLanded => exact List.prefix_refl _

theorem surveying_requestLoad (state : AppState) :
    state.requestLoad.1.surveying = state.surveying := by
  rw [AppState.requestLoad]
  split <;> rfl

theorem surveying_consumePendingReload (state : AppState) :
    state.consumePendingReload.1.surveying = state.surveying := by
  rw [AppState.consumePendingReload]
  split
  · exact surveying_requestLoad _
  · rfl

theorem surveying_startPendingEvalExpected (state : AppState) :
    state.startPendingEvalExpected.1.surveying = state.surveying := by
  rw [AppState.startPendingEvalExpected]
  split <;> rfl

theorem surveying_setStatus (state : AppState) (text : String) (error : Bool) :
    (state.setStatus text error).surveying = state.surveying := by
  rw [AppState.setStatus]
  split <;> rfl

theorem surveying_onLoadFinished (reading : Reading) (state : AppState)
    (generation : ℕ) (result : Except String LoadedInventory)
    (snapshots : BTreeMap Snapshot) (now : Int) :
    (state.onLoadFinished reading generation result snapshots now).1.surveying =
      state.surveying := by
  rw [AppState.onLoadFinished.eq_def]
  split
  · exact surveying_consumePendingReload _
  · cases result with
    | error error =>
        exact (surveying_consumePendingReload _).trans (surveying_setStatus _ _ _)
    | ok loaded =>
        exact (surveying_consumePendingReload _).trans (surveying_setStatus _ _ _)

theorem surveying_onDriftEvalFinished (reading : Reading) (state : AppState)
    (result : Except String (Option String × Toplevels))
    (snapshots : BTreeMap Snapshot) (now : Int) :
    (state.onDriftEvalFinished reading result snapshots now).1.surveying =
      state.surveying := by
  have hadopt (finished : AppState) :
      ((finished.adoptExpected result).fillDrift reading snapshots now).surveying =
        finished.surveying := by
    cases result <;> rfl
  rw [AppState.onDriftEvalFinished, surveying_consumePendingReload]
  split <;> exact (surveying_setStatus _ _ _).trans (hadopt _)

theorem surveying_followUp (app : App) (settled : AppState × Option LoadRequest)
    (loadSettled : Bool) :
    (app.followUp settled loadSettled).state.surveying = settled.1.surveying := by
  obtain ⟨state, request⟩ := settled
  cases request with
  | some request => rfl
  | none =>
      cases loadSettled with
      | false => rfl
      | true =>
          rw [← surveying_startPendingEvalExpected state]
          change (app.evalWith state.startPendingEvalExpected).state.surveying = _
          rw [App.evalWith]
          split <;> rfl

theorem surveying_loadWith (app : App) (next : AppState × Option LoadRequest) :
    (app.loadWith next).state.surveying = next.1.surveying := by
  rw [App.loadWith]
  split <;> rfl

/-- Only a refresh starts a survey, and only its own end ends it. -/
theorem surveying_of_step {reading : Reading} {app after : App} {event : AppEvent}
    (hbackground : event.background = true)
    (hstep : AppStep reading app event after) :
    after.state.surveying = app.state.surveying := by
  cases hstep with
  | requestLoad => exact (surveying_loadWith _ _).trans (surveying_requestLoad _)
  | requestReload => exact (surveying_loadWith _ _).trans (surveying_requestLoad _)
  | requestInventorySwap =>
      exact (surveying_loadWith _ _).trans (surveying_requestLoad _)
  | refreshDrift => cases hbackground
  | startPendingEvalExpected =>
      rw [← surveying_startPendingEvalExpected app.state, App.evalWith]
      split <;> rfl
  | loadFinished =>
      exact (surveying_followUp _ _ _).trans
        (surveying_onLoadFinished reading _ _ _ _ _)
  | driftEvalFinished =>
      exact (surveying_followUp _ _ _).trans
        (surveying_onDriftEvalFinished reading _ _ _ _)
  | surveyProgress => rfl
  | surveyDone => cases hbackground
  | driftLanded => exact surveying_setStatus _ _ _

/-! ## Every settled run is followed or covered -/

structure Tracked (dash : Dashboard) : Prop where
  ready : Ready dash
  /-- Every watch asks for the refresh. -/
  watched : ∀ watched ∈ dash.watchedRuns, watched.2 = true
  /-- A settled run has its code in the registry for as long as it is there. -/
  recorded : ∀ runId directory, dash.settled (.registered runId) ≠ none →
    dash.registry runId = some directory → directory.recordedRc ≠ none
  past : ∀ key mark, dash.settled key = some mark → Past dash mark
  tasks : ∀ taskId, dash.settled (.task taskId) ≠ none ∨
    RunKey.task taskId ∈ dash.opened → taskId ≤ dash.nextTaskId
  task : ∀ screen taskId rc, dash.screen = some screen →
    screen.view = .task taskId rc → taskId ≤ dash.nextTaskId ∧
      (dash.settled (.task taskId) ≠ none → rc ≠ none) ∧
      (RunKey.task taskId ∈ dash.opened → screen.afterMutation = true)
  followed : ∀ key mark, key ∈ dash.opened → dash.settled key = some mark →
    dash.Shows key ∨ dash.Watches key ∨ Covered dash mark

theorem tracked_new : Tracked Dashboard.new where
  ready := ⟨⟨.idle, ⟨rfl, rfl, rfl, rfl, rfl⟩, rfl, scheduled_idle⟩, rfl⟩
  watched := by
    intro watched hwatched
    cases hwatched
  recorded := by
    intro runId directory hsettled
    exact absurd rfl hsettled
  past := by
    intro key mark hsettled
    cases hsettled
  tasks := by
    intro taskId hknown
    rcases hknown with hsettled | hopened
    · exact absurd rfl hsettled
    · cases hopened
  task := by
    intro screen taskId rc hscreen
    cases hscreen
  followed := by
    intro key mark hopened
    cases hopened

theorem Past.extends {before after : Dashboard} {mark : Mark}
    (hpast : Past before mark) (hlog : before.app.log <+: after.app.log)
    (hsurveys : before.surveysStarted ≤ after.surveysStarted) : Past after mark :=
  ⟨hpast.1.trans hlog.length_le, hpast.2.trans hsurveys⟩

/-- The jobs moving on leaves every run followed or covered. -/
theorem Tracked.extends {before after : Dashboard} (htracked : Tracked before)
    (hextends : Extends before after) (hready : Ready after) : Tracked after where
  ready := hready
  watched := by
    rw [hextends.watchedRuns]
    exact htracked.watched
  recorded := by
    rw [hextends.settled, hextends.registry]
    exact htracked.recorded
  past := by
    intro key mark hsettled
    rw [hextends.settled] at hsettled
    exact (htracked.past key mark hsettled).extends hextends.log hextends.surveys
  tasks := by
    rw [hextends.settled, hextends.opened, hextends.nextTaskId]
    exact htracked.tasks
  task := by
    rw [hextends.screen, hextends.settled, hextends.opened, hextends.nextTaskId]
    exact htracked.task
  followed := by
    intro key mark hopened hsettled
    rw [hextends.opened] at hopened
    rw [hextends.settled] at hsettled
    rw [Dashboard.Shows, Dashboard.Watches, hextends.screen, hextends.watchedRuns]
    rcases htracked.followed key mark hopened hsettled with hshown | hwatched | hcovered
    · exact .inl hshown
    · exact .inr (.inl hwatched)
    · exact .inr (.inr (hcovered.extends hextends.log hextends.surveys))

/-- A new screen follows its run. -/
theorem Tracked.push {dash : Dashboard} (htracked : Tracked dash)
    (hnone : dash.screen = none) {view : RunScreen} {afterMutation : Bool}
    (hview : ∀ taskId rc, view = .task taskId rc → taskId ≤ dash.nextTaskId ∧
      dash.settled (.task taskId) = none ∧ RunKey.task taskId ∉ dash.opened) :
    Tracked (dash.push view afterMutation) := by
  have hopened {key : RunKey} (hkey : key ∈ (dash.push view afterMutation).opened) :
      afterMutation = true ∧ key = view.key ∨ key ∈ dash.opened := by
    cases afterMutation with
    | false => exact .inr hkey
    | true =>
        rcases List.mem_cons.mp hkey with hnew | hold
        · exact .inl ⟨rfl, hnew⟩
        · exact .inr hold
  have hkey {taskId : ℕ} (heq : RunKey.task taskId = view.key) :
      ∃ rc, view = .task taskId rc := by
    cases view with
    | task shown rc =>
        cases heq
        exact ⟨rc, rfl⟩
    | attachedLog runId => cases heq
    | deploy runId job known => cases heq
  refine ⟨⟨htracked.ready.slot, htracked.ready.surveying⟩, htracked.watched,
    htracked.recorded, htracked.past, ?_, ?_, ?_⟩
  · intro taskId hknown
    rcases hknown with hsettled | hnew
    · exact htracked.tasks taskId (.inl hsettled)
    · rcases hopened hnew with ⟨-, heq⟩ | hold
      · obtain ⟨rc, hrc⟩ := hkey heq
        exact (hview taskId rc hrc).1
      · exact htracked.tasks taskId (.inr hold)
  · intro screen taskId rc hscreen htask
    cases hscreen
    obtain ⟨hbound, hunsettled, hunopened⟩ := hview taskId rc htask
    refine ⟨hbound, fun hsettled => absurd hunsettled hsettled, ?_⟩
    intro hnew
    rcases hopened hnew with ⟨hafter, -⟩ | hold
    · exact hafter
    · exact absurd hold hunopened
  · intro key mark hnew hsettled
    rcases hopened hnew with ⟨hafter, heq⟩ | hold
    · exact .inl ⟨_, rfl, hafter, heq.symm⟩
    · rcases htracked.followed key mark hold hsettled with hshown | hrest
      · obtain ⟨screen, hscreen, -⟩ := hshown
        rw [hnone] at hscreen
        cases hscreen
      · exact .inr hrest

theorem Tracked.nextTask {dash : Dashboard} (htracked : Tracked dash) :
    Tracked { dash with nextTaskId := dash.nextTaskId + 1 } where
  ready := ⟨htracked.ready.slot, htracked.ready.surveying⟩
  watched := htracked.watched
  recorded := htracked.recorded
  past := htracked.past
  tasks := by
    intro taskId hknown
    exact (htracked.tasks taskId hknown).trans (Nat.le_succ _)
  task := by
    intro screen taskId rc hscreen htask
    obtain ⟨hbound, hrest⟩ := htracked.task screen taskId rc hscreen htask
    exact ⟨hbound.trans (Nat.le_succ _), hrest⟩
  followed := htracked.followed

/-- A task has not settled and was not opened before it is pushed. -/
theorem Tracked.freshTask {dash : Dashboard} (htracked : Tracked dash) :
    dash.settled (.task (dash.nextTaskId + 1)) = none ∧
      RunKey.task (dash.nextTaskId + 1) ∉ dash.opened := by
  have hbound (hknown : dash.settled (.task (dash.nextTaskId + 1)) ≠ none ∨
      RunKey.task (dash.nextTaskId + 1) ∈ dash.opened) : False := by
    have hle := htracked.tasks _ hknown
    omega
  constructor
  · by_contra hsettled
    exact hbound (.inl hsettled)
  · intro hopened
    exact hbound (.inr hopened)

theorem settled_markSettled {dash : Dashboard} {key other : RunKey} {mark : Mark}
    (hsettled : (dash.markSettled key).settled other = some mark) :
    dash.settled other = some mark ∨
      other = key ∧ dash.settled key = none ∧
        mark = { log := dash.app.log.length, surveys := dash.surveysStarted } := by
  change Function.update dash.settled key _ other = _ at hsettled
  by_cases heq : other = key
  · subst heq
    rw [Function.update_self] at hsettled
    cases hbefore : dash.settled other with
    | some earlier =>
        rw [hbefore] at hsettled
        exact .inl hsettled
    | none =>
        rw [hbefore] at hsettled
        exact .inr ⟨rfl, rfl, (Option.some.inj hsettled).symm⟩
  · rw [Function.update_of_ne heq] at hsettled
    exact .inl hsettled

/-- Recording the code of a run that is followed keeps every run followed. -/
theorem Tracked.markSettled {dash : Dashboard} (htracked : Tracked dash)
    {key : RunKey}
    (hrecorded : ∀ runId directory, key = .registered runId →
      dash.registry runId = some directory → directory.recordedRc ≠ none)
    (htask : ∀ taskId, key = .task taskId → taskId ≤ dash.nextTaskId ∧
      ∀ screen rc, dash.screen = some screen → screen.view = .task taskId rc →
        rc ≠ none)
    (hfollowed : key ∈ dash.opened → dash.settled key = none →
      dash.Shows key ∨ dash.Watches key) :
    Tracked (dash.markSettled key) := by
  have hcases {other : RunKey} (hsettled : (dash.markSettled key).settled other ≠ none) :
      dash.settled other ≠ none ∨ other = key := by
    obtain ⟨mark, hmark⟩ := Option.ne_none_iff_exists'.mp hsettled
    rcases settled_markSettled hmark with hold | ⟨heq, -⟩
    · rw [hold]
      exact .inl (Option.some_ne_none mark)
    · exact .inr heq
  refine ⟨⟨htracked.ready.slot, htracked.ready.surveying⟩, htracked.watched,
    ?_, ?_, ?_, ?_, ?_⟩
  · intro runId directory hsettled
    rcases hcases hsettled with hold | heq
    · exact htracked.recorded runId directory hold
    · exact hrecorded runId directory heq.symm
  · intro other mark hsettled
    rcases settled_markSettled hsettled with hold | ⟨-, -, hmark⟩
    · exact htracked.past other mark hold
    · rw [hmark]
      exact ⟨Nat.le_refl _, Nat.le_refl _⟩
  · intro taskId hknown
    rcases hknown with hsettled | hopened
    · rcases hcases hsettled with hold | heq
      · exact htracked.tasks taskId (.inl hold)
      · exact (htask taskId heq.symm).1
    · exact htracked.tasks taskId (.inr hopened)
  · intro screen taskId rc hscreen hview
    obtain ⟨hbound, hcode, hafter⟩ := htracked.task screen taskId rc hscreen hview
    refine ⟨hbound, ?_, hafter⟩
    intro hsettled
    rcases hcases hsettled with hold | heq
    · exact hcode hold
    · exact (htask taskId heq.symm).2 screen rc hscreen hview
  · intro other mark hopened hsettled
    rcases settled_markSettled hsettled with hold | ⟨heq, hnone, -⟩
    · exact htracked.followed other mark hopened hold
    · subst heq
      rcases hfollowed hopened hnone with hshown | hwatched
      · exact .inl hshown
      · exact .inr (.inl hwatched)

theorem Tracked.taskExited {dash : Dashboard} (htracked : Tracked dash)
    (taskId : ℕ) (rc : Int) : Tracked (dash.taskExited taskId rc) := by
  rw [Dashboard.taskExited]
  split
  · rename_i shown before afterMutation hscreen
    split
    · rename_i heq
      subst heq
      obtain ⟨hbound, -, hafter⟩ := htracked.task _ shown before hscreen rfl
      -- The screen shows the code before the run counts as settled.
      let coded : Dashboard := { dash with
        screen := some { view := .task shown (some rc), afterMutation } }
      have hcoded : Tracked coded := by
        refine ⟨⟨htracked.ready.slot, htracked.ready.surveying⟩, htracked.watched,
          htracked.recorded, htracked.past, htracked.tasks, ?_, ?_⟩
        · intro screen taskId code hshown hview
          cases hshown
          cases hview
          exact ⟨hbound, fun _ => Option.some_ne_none rc, hafter⟩
        · intro key mark hopened hsettled
          rcases htracked.followed key mark hopened hsettled with hshown | hrest
          · obtain ⟨screen, hbefore, hmutation, hkey⟩ := hshown
            rw [hscreen] at hbefore
            cases hbefore
            exact .inl ⟨_, rfl, hmutation, hkey⟩
          · exact .inr hrest
      refine hcoded.markSettled ?_ ?_ ?_
      · intro runId directory hkey
        cases hkey
      · intro taskId hkey
        cases hkey
        refine ⟨hbound, ?_⟩
        intro screen code hshown hview
        cases hshown
        cases hview
        exact Option.some_ne_none rc
      · intro hopened _
        exact .inl ⟨_, rfl, hafter hopened, rfl⟩
    · exact htracked
  · exact htracked

/-! ## Closing a screen -/

theorem watches_watchRun (dash : Dashboard) (runId : String) (afterMutation : Bool) :
    (dash.watchRun runId afterMutation).Watches (.registered runId) := by
  rw [Dashboard.watchRun]
  split
  · rename_i hany
    obtain ⟨watched, hwatched, hid⟩ := List.any_eq_true.mp hany
    exact ⟨watched, hwatched, congrArg _ (of_decide_eq_true hid).symm⟩
  · exact ⟨(runId, afterMutation),
      List.mem_append_right _ (List.mem_singleton_self _), rfl⟩

theorem Tracked.watchRun {dash : Dashboard} (htracked : Tracked dash)
    (runId : String) : Tracked (dash.watchRun runId true) := by
  rw [Dashboard.watchRun]
  split
  · exact htracked
  · refine ⟨⟨htracked.ready.slot, htracked.ready.surveying⟩, ?_,
      htracked.recorded, htracked.past, htracked.tasks, htracked.task, ?_⟩
    · intro watched hwatched
      rcases List.mem_append.mp hwatched with hold | hnew
      · exact htracked.watched watched hold
      · rw [List.mem_singleton.mp hnew]
    · intro key mark hopened hsettled
      rcases htracked.followed key mark hopened hsettled with hshown | hwatched | hcovered
      · exact .inl hshown
      · obtain ⟨watched, hmem, hkey⟩ := hwatched
        exact .inr (.inl ⟨watched, List.mem_append_left _ hmem, hkey⟩)
      · exact .inr (.inr hcovered)

/-- A status line is all that changes. -/
theorem Tracked.setStatus {dash : Dashboard} (htracked : Tracked dash)
    (text : String) (error : Bool) :
    Tracked { dash with
      app := { dash.app with state := dash.app.state.setStatus text error } } := by
  obtain ⟨slot, hflags, hjobs, hscheduled⟩ := htracked.ready.slot
  have hsurveying := surveying_setStatus dash.app.state text error
  refine htracked.extends ⟨List.prefix_refl _, Nat.le_refl _, rfl, rfl, rfl, rfl,
    rfl, rfl⟩ ⟨⟨slot, ?_, hjobs, hscheduled⟩, ?_⟩
  · exact hflags.of_sameFlags (sameFlags_setStatus _ _ _)
  · exact hsurveying.trans htracked.ready.surveying

theorem Tracked.detach {dash : Dashboard} (htracked : Tracked dash)
    (screen : OpenScreen) : Tracked (dash.detach screen) := by
  have hnotice {watched : Dashboard} (hwatched : Tracked watched)
      (runId : String) : Tracked (watched.detachNotice runId screen.view) := by
    cases screen.view with
    | task taskId rc => exact hwatched
    | attachedLog shown => exact hwatched
    | deploy shown job known => exact hwatched.setStatus _ _
  rw [Dashboard.detach]
  cases screen.view.detachedId with
  | none => exact htracked
  | some runId =>
      apply hnotice
      split
      · exact htracked.watchRun runId
      · exact htracked

theorem detachNotice_frame (dash : Dashboard) (runId : String) (view : RunScreen) :
    (dash.detachNotice runId view).screen = dash.screen ∧
      (dash.detachNotice runId view).settled = dash.settled ∧
      (dash.detachNotice runId view).watchedRuns = dash.watchedRuns := by
  cases view <;> exact ⟨rfl, rfl, rfl⟩

theorem watchRun_frame (dash : Dashboard) (runId : String) (afterMutation : Bool) :
    (dash.watchRun runId afterMutation).screen = dash.screen ∧
      (dash.watchRun runId afterMutation).settled = dash.settled := by
  rw [Dashboard.watchRun]
  split <;> exact ⟨rfl, rfl⟩

theorem detach_frame (dash : Dashboard) (screen : OpenScreen) :
    (dash.detach screen).screen = dash.screen ∧
      (dash.detach screen).settled = dash.settled := by
  rw [Dashboard.detach]
  cases screen.view.detachedId with
  | none => exact ⟨rfl, rfl⟩
  | some runId =>
      obtain ⟨hscreen, hsettled, -⟩ := detachNotice_frame
        (if screen.afterMutation then dash.watchRun runId true else dash) runId
        screen.view
      dsimp only
      rw [hscreen, hsettled]
      split
      · exact watchRun_frame dash runId true
      · exact ⟨rfl, rfl⟩

theorem watches_detach {dash : Dashboard} {screen : OpenScreen} {runId : String}
    (hafter : screen.afterMutation = true)
    (hid : screen.view.detachedId = some runId) :
    (dash.detach screen).Watches (.registered runId) := by
  rw [Dashboard.detach, hid]
  dsimp only
  rw [if_pos hafter, Dashboard.Watches, (detachNotice_frame _ _ _).2.2]
  exact watches_watchRun dash runId true

theorem key_of_detachedId {view : RunScreen} {runId : String}
    (hid : view.detachedId = some runId) : view.key = .registered runId := by
  cases view with
  | task taskId rc => cases hid
  | attachedLog shown =>
      cases hid
      rfl
  | deploy shown job known =>
      cases known with
      | false => cases hid
      | true =>
          cases hid
          rfl

/-- A screen may go when the run it showed is watched or covered. -/
theorem Tracked.leave {dash after : Dashboard} (htracked : Tracked dash)
    (hextends : Extends { dash with screen := none } after) (hready : Ready after)
    (hshown : ∀ key mark, dash.Shows key → dash.settled key = some mark →
      dash.Watches key ∨ Covered after mark) : Tracked after := by
  refine ⟨hready, ?_, ?_, ?_, ?_, ?_, ?_⟩
  · rw [hextends.watchedRuns]
    exact htracked.watched
  · rw [hextends.settled, hextends.registry]
    exact htracked.recorded
  · intro key mark hsettled
    rw [hextends.settled] at hsettled
    exact (htracked.past key mark hsettled).extends hextends.log hextends.surveys
  · rw [hextends.settled, hextends.opened, hextends.nextTaskId]
    exact htracked.tasks
  · rw [hextends.screen]
    intro screen taskId rc hscreen
    cases hscreen
  · intro key mark hopened hsettled
    rw [hextends.opened] at hopened
    rw [hextends.settled] at hsettled
    rw [Dashboard.Watches, hextends.watchedRuns]
    right
    rcases htracked.followed key mark hopened hsettled with hup | hwatched | hcovered
    · exact hshown key mark hup hsettled
    · exact .inl hwatched
    · exact .inr (hcovered.extends hextends.log hextends.surveys)

/-- A dismissal that drops no refresh keeps every settled run followed or
covered. -/
theorem Tracked.close {parse : String → Option Json} {dash : Dashboard}
    (htracked : Tracked dash) {screen : OpenScreen}
    (hscreen : dash.screen = some screen)
    (hattentive : Attentive parse dash .close) :
    Tracked (dash.close parse screen) := by
  have hshows {other : Dashboard} (hother : other.screen = some screen)
      {key : RunKey} (hshown : other.Shows key) :
      screen.afterMutation = true ∧ screen.view.key = key := by
    obtain ⟨up, hup, hafter, hkey⟩ := hshown
    rw [hother] at hup
    cases hup
    exact ⟨hafter, hkey⟩
  rw [Dashboard.close]
  cases hrc : dash.closeRc parse screen.view with
  | none =>
      have hleft := htracked.detach screen
      have hup : (dash.detach screen).screen = some screen :=
        (detach_frame dash screen).1.trans hscreen
      have hgone : Ready { dash.detach screen with screen := none } :=
        ⟨hleft.ready.slot, hleft.ready.surveying⟩
      have hclosed : Tracked { dash.detach screen with screen := none } := by
        refine hleft.leave (.refl _) hgone ?_
        intro key mark hshown hsettled
        obtain ⟨hafter, hkey⟩ := hshows hup hshown
        rw [(detach_frame dash screen).2, ← hkey] at hsettled
        have hid := (hattentive screen mark hscreen hafter hsettled).1 hrc
        obtain ⟨runId, hid⟩ := Option.ne_none_iff_exists'.mp hid
        rw [← hkey, key_of_detachedId hid]
        exact .inl (watches_detach hafter hid)
      change Tracked ((dash.detach screen).finishScreen none screen.afterMutation)
      rw [Dashboard.finishScreen]
      split
      · rw [afterMutation_none]
        exact hclosed
      · exact hclosed
  | some rc =>
      have hgone : Ready { dash with screen := none } :=
        ⟨htracked.ready.slot, htracked.ready.surveying⟩
      change Tracked (dash.finishScreen (some rc) screen.afterMutation)
      rw [Dashboard.finishScreen]
      split
      · rw [afterMutation_some]
        refine htracked.leave (extends_refreshDrift hgone) hgone.refreshDrift ?_
        intro key mark hshown hsettled
        obtain ⟨hafter, hkey⟩ := hshows hscreen hshown
        have hpast := htracked.past key mark hsettled
        rw [← hkey] at hsettled
        have hunswallowed := (hattentive screen mark hscreen hafter hsettled).2
          (by rw [hrc]; exact Option.some_ne_none rc)
        exact .inr (covered_refreshDrift hgone hpast
          ⟨hunswallowed.evaluation, hunswallowed.survey⟩)
      · rename_i hplain
        refine htracked.leave (.refl _) hgone ?_
        intro key mark hshown _
        exact absurd (hshows hscreen hshown).1 hplain

/-! ## The watch timer -/

/-- A watched run that settled and is still registered asks for the refresh. -/
theorem settledWatch_of_recorded {dash : Dashboard} {watched : String × Bool}
    {directory : RunDirectory} {rc : Int}
    (hregistered : dash.registry watched.1 = some directory)
    (hrc : directory.recordedRc = some rc) :
    dash.settledWatch watched = some (some rc, watched.2) := by
  have hverdict : dash.watchVerdict watched.1 = .settled (some rc) := by
    rw [Dashboard.watchVerdict, hregistered]
    dsimp only
    rw [hrc]
    rfl
  rw [Dashboard.settledWatch, hverdict]

theorem Tracked.runWatchPoll {parse : String → Option Json} {dash : Dashboard}
    (htracked : Tracked dash) (hattentive : Attentive parse dash .runWatchPoll) :
    Tracked dash.pollWatchedRuns := by
  let watchedRuns := dash.watchedRuns.filter fun watched =>
    dash.stillRunning watched.1
  let polled := { dash with watchedRuns, watchArmed := !watchedRuns.isEmpty }
  have hpolled : Ready polled :=
    ⟨htracked.ready.slot, htracked.ready.surveying⟩
  obtain ⟨hready, hextends⟩ := foldl_finishWatch_ready hpolled
    (dash.watchedRuns.filterMap dash.settledWatch)
  change Extends polled dash.pollWatchedRuns at hextends
  refine ⟨hready, ?_, ?_, ?_, ?_, ?_, ?_⟩
  · rw [hextends.watchedRuns]
    intro watched hwatched
    exact htracked.watched watched (List.mem_filter.mp hwatched).1
  · rw [hextends.settled, hextends.registry]
    exact htracked.recorded
  · intro key mark hsettled
    rw [hextends.settled] at hsettled
    exact (htracked.past key mark hsettled).extends hextends.log hextends.surveys
  · rw [hextends.settled, hextends.opened, hextends.nextTaskId]
    exact htracked.tasks
  · rw [hextends.screen, hextends.settled, hextends.opened, hextends.nextTaskId]
    exact htracked.task
  · intro key mark hopened hsettled
    rw [hextends.opened] at hopened
    rw [hextends.settled] at hsettled
    rw [Dashboard.Shows, hextends.screen]
    rcases htracked.followed key mark hopened hsettled with hshown | hwatched | hcovered
    · exact .inl hshown
    · right
      right
      obtain ⟨watched, hmem, rfl⟩ := hwatched
      obtain ⟨hregistered, hunswallowed⟩ := hattentive watched hmem mark hsettled
      obtain ⟨directory, hregistered⟩ := Option.ne_none_iff_exists'.mp hregistered
      have hrecorded := htracked.recorded watched.1 directory
        (by rw [hsettled]; exact Option.some_ne_none mark) hregistered
      obtain ⟨rc, hrc⟩ := Option.ne_none_iff_exists'.mp hrecorded
      have hasks : (some rc, true) ∈
          dash.watchedRuns.filterMap dash.settledWatch := by
        rw [List.mem_filterMap]
        refine ⟨watched, hmem, ?_⟩
        rw [settledWatch_of_recorded hregistered hrc, htracked.watched watched hmem]
      exact covered_foldl_finishWatch hpolled (htracked.past _ mark hsettled)
        ⟨hunswallowed.evaluation, hunswallowed.survey⟩ hasks
    · exact .inr (.inr (hcovered.extends hextends.log hextends.surveys))

/-- Once the timer has fired, no settled run is watched. -/
theorem not_watches_pollWatchedRuns {dash : Dashboard} (htracked : Tracked dash)
    {runId : String} (hsettled : dash.settled (.registered runId) ≠ none) :
    ¬ dash.pollWatchedRuns.Watches (.registered runId) := by
  let watchedRuns := dash.watchedRuns.filter fun watched =>
    dash.stillRunning watched.1
  let polled := { dash with watchedRuns, watchArmed := !watchedRuns.isEmpty }
  have hpolled : Ready polled :=
    ⟨htracked.ready.slot, htracked.ready.surveying⟩
  obtain ⟨-, hextends⟩ := foldl_finishWatch_ready hpolled
    (dash.watchedRuns.filterMap dash.settledWatch)
  change Extends polled dash.pollWatchedRuns at hextends
  rintro ⟨watched, hwatched, hkey⟩
  rw [hextends.watchedRuns] at hwatched
  obtain ⟨-, hrunning⟩ := List.mem_filter.mp hwatched
  cases hkey
  rw [Dashboard.stillRunning, Dashboard.watchVerdict] at hrunning
  cases hregistered : dash.registry watched.1 with
  | none =>
      rw [hregistered] at hrunning
      cases hrunning
  | some directory =>
      obtain ⟨rc, hrc⟩ := Option.ne_none_iff_exists'.mp
        (htracked.recorded watched.1 directory hsettled hregistered)
      rw [hregistered] at hrunning
      dsimp only at hrunning
      rw [hrc] at hrunning
      cases hrunning

/-! ## Runs of the explorer -/

theorem Tracked.registryMoved {parse : String → Option Json} {dash : Dashboard}
    (htracked : Tracked dash) {runId : String} {entry : Option RunDirectory}
    (hkept : dash.settled (.registered runId) ≠ none →
      entry = none ∨ Dashboard.recorded entry = true)
    (hattentive : Attentive parse dash (.registryMoved runId entry)) :
    Tracked (dash.registryMoved runId entry) := by
  have hcode (directory : RunDirectory) (heq : entry = some directory)
      (hrecorded : Dashboard.recorded entry = true) :
      directory.recordedRc ≠ none := by
    subst heq
    exact Option.isSome_iff_ne_none.mp hrecorded
  have hmoved : Tracked
      { dash with registry := Function.update dash.registry runId entry } := by
    refine ⟨⟨htracked.ready.slot, htracked.ready.surveying⟩, htracked.watched,
      ?_, htracked.past, htracked.tasks, htracked.task, htracked.followed⟩
    intro other directory hsettled hregistered
    by_cases heq : other = runId
    · subst heq
      change Function.update dash.registry other entry other = _ at hregistered
      rw [Function.update_self] at hregistered
      rcases hkept hsettled with hnone | hrecorded
      · rw [hnone] at hregistered
        cases hregistered
      · exact hcode directory hregistered hrecorded
    · change Function.update dash.registry runId entry other = _ at hregistered
      rw [Function.update_of_ne heq] at hregistered
      exact htracked.recorded other directory hsettled hregistered
  rw [Dashboard.registryMoved]
  split
  · rename_i hrecorded
    refine hmoved.markSettled ?_ ?_ ?_
    · intro other directory hkey hregistered
      cases hkey
      change Function.update dash.registry runId entry runId = _ at hregistered
      rw [Function.update_self] at hregistered
      exact hcode directory hregistered hrecorded
    · intro taskId hkey
      cases hkey
    · intro hopened hnone
      exact hattentive hrecorded hnone hopened
  · exact hmoved

/-- An attentive step keeps every settled run followed or covered. -/
theorem Tracked.step {parse : String → Option Json} {reading : Reading}
    {before after : Dashboard} {event : DashboardEvent} (htracked : Tracked before)
    (hattentive : Attentive parse before event)
    (hstep : DashboardStep parse reading before event after) : Tracked after := by
  cases hstep with
  | background event app hbackground hstep =>
      obtain ⟨slot, hsimulates⟩ := htracked.ready.slot
      have hready : Ready { before with app } :=
        ⟨simulates_of_step hsimulates hstep,
          (surveying_of_step hbackground hstep).trans htracked.ready.surveying⟩
      exact htracked.extends ⟨log_of_step hstep, Nat.le_refl _, rfl, rfl, rfl, rfl,
        rfl, rfl⟩ hready
  | refreshDrift =>
      exact htracked.extends (extends_refreshDrift htracked.ready)
        htracked.ready.refreshDrift
  | surveyDone n rc error snapshots now hrunning =>
      obtain ⟨slot, hsimulates⟩ := htracked.ready.slot
      have hslot := simulates_of_step hsimulates
        (@AppStep.surveyDone reading before.app n rc error snapshots now)
      have hsurveying :
          (before.app.state.onSurveyDone reading n rc error snapshots now).surveying =
            false := by
        rw [AppState.onSurveyDone]
        split <;> exact surveying_setStatus _ _ _
      exact htracked.extends ⟨List.prefix_refl _, Nat.le_refl _, rfl, rfl, rfl, rfl,
        rfl, rfl⟩ ⟨hslot, hsurveying⟩
  | pushTask afterMutation hnone =>
      apply htracked.nextTask.push hnone
      intro taskId rc heq
      cases heq
      exact ⟨Nat.le_refl _, htracked.freshTask⟩
  | pushAttachedLog runId afterMutation hnone =>
      apply htracked.push hnone
      intro taskId rc heq
      cases heq
  | startDeploy runId job known afterMutation hnone =>
      apply htracked.push hnone
      intro taskId rc heq
      cases heq
  | taskExited taskId rc => exact htracked.taskExited taskId rc
  | deployMoved runId shown job knew known afterMutation hscreen hknown =>
      refine ⟨⟨htracked.ready.slot, htracked.ready.surveying⟩, htracked.watched,
        htracked.recorded, htracked.past, htracked.tasks, ?_, ?_⟩
      · intro screen taskId rc hup hview
        cases hup
        cases hview
      · intro key mark hopened hsettled
        rcases htracked.followed key mark hopened hsettled with hshown | hrest
        · obtain ⟨screen, hup, hafter, hkey⟩ := hshown
          rw [hscreen] at hup
          cases hup
          exact .inl ⟨_, rfl, hafter, hkey⟩
        · exact .inr hrest
  | close screen hscreen => exact htracked.close hscreen hattentive
  | runWatchPoll harmed => exact htracked.runWatchPoll hattentive
  | registryMoved runId entry hkept =>
      exact htracked.registryMoved hkept hattentive
  | processesMoved processExists =>
      exact ⟨⟨htracked.ready.slot, htracked.ready.surveying⟩, htracked.watched,
        htracked.recorded, htracked.past, htracked.tasks, htracked.task,
        htracked.followed⟩

/-- What covers a settled run has been run once no job is outstanding. -/
theorem Tracked.refreshedAfter {dash : Dashboard} (htracked : Tracked dash) :
    dash.RefreshedAfter := by
  intro key mark hopened hsettled hshown hwatched hjobs hsurvey
  rcases htracked.followed key mark hopened hsettled with hup | hleft | hcovered
  · exact absurd hup hshown
  · exact absurd hleft hwatched
  · obtain ⟨⟨position, hsince, hentry⟩, hsurveyed⟩ := hcovered
    refine ⟨?_, hsurveyed⟩
    rcases hentry with hstarted | hasked
    · exact ⟨position, hsince, hstarted⟩
    · obtain ⟨slot, hflags, hslot, hscheduled⟩ := htracked.ready.slot
      rw [hslot] at hjobs
      cases slot with
      | leading => cases hjobs
      | trailing => cases hjobs
      | idle =>
          rcases hscheduled.served position hasked with hserved | ⟨hwanted, -⟩
          · obtain ⟨settled, hafter, -, hstarted, -⟩ := hserved
            exact ⟨settled + 1, by omega, hstarted⟩
          · cases hwanted

theorem not_shows_of_none {dash : Dashboard} {key : RunKey}
    (hnone : dash.screen = none) : ¬ dash.Shows key := by
  rintro ⟨screen, hscreen, -⟩
  rw [hnone] at hscreen
  cases hscreen

theorem not_watches_of_nil {dash : Dashboard} {key : RunKey}
    (hnil : dash.watchedRuns = []) : ¬ dash.Watches key := by
  rintro ⟨watched, hwatched, -⟩
  rw [hnil] at hwatched
  cases hwatched

/-- A run whose engine has pid 7. -/
def liveRun : RunDirectory :=
  { payload := (∅ : Meta).insert "pid" (.int 7), events := ∅ }

def settledRun : RunDirectory :=
  { liveRun with payload := liveRun.payload.insert "rc" (.int 0) }

end Mandala.Explorer
