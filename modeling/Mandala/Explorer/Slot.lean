import Mandala.Core.JobSlot
import Mandala.Core.Transition
import Mandala.Explorer.Refresh

/-!
# The explorer's job slot

The state's flags are those of a slot for one job: a load leads, and is marked
when a reload asked for it; the expected evaluation trails.  The loop starts
what the state hands out and feeds back what settles.
-/

namespace Mandala.Explorer

open Mandala.Data Mandala.Drift Mandala.JobSlot Mandala.Transition

/-- A job of the slot that has been started. -/
inductive EvalJob where
  | load (request : LoadRequest)
  | evalExpected
  deriving DecidableEq, Repr

/-- The state with the jobs in flight and the log of what was asked for,
started and settled. -/
structure App where
  state : AppState
  jobs : List EvalJob
  log : List Entry

namespace App

variable (app : App)

/-- `start_load`. -/
def startLoad (request : LoadRequest) : App :=
  { app with
    jobs := app.jobs ++ [.load request]
    log := app.log ++ [.leadStarted request.fresh] }

/-- `start_eval_expected`. -/
def startEvalExpected : App :=
  { app with
    jobs := app.jobs ++ [.evalExpected]
    log := app.log ++ [.trailStarted] }

/-- Adopt a state and start the load it hands out, if any. -/
def loadWith (next : AppState × Option LoadRequest) : App :=
  let moved := { app with state := next.1 }
  match next.2 with
  | some request => moved.startLoad request
  | none => moved

/-- Adopt a state and start the evaluation if it says so. -/
def evalWith (next : AppState × Bool) : App :=
  let moved := { app with state := next.1 }
  if next.2 then moved.startEvalExpected else moved

/-- A request for a load, fresh if it is a reload. -/
def requested (fresh : Bool) (next : AppState × Option LoadRequest) : App :=
  loadWith { app with log := app.log ++ Slot.askedEntries fresh } next

def isLoading : Bool :=
  app.jobs.any fun job => match job with
    | .load _ => true
    | .evalExpected => false

/-- The end of `on_app_event`. -/
def followUp (settled : AppState × Option LoadRequest) (loadSettled : Bool) : App :=
  match settled.2 with
  | some request => { app with state := settled.1 }.startLoad request
  | none =>
      if loadSettled then app.evalWith settled.1.startPendingEvalExpected
      else { app with state := settled.1 }

/-- A job of the slot has settled. -/
def settle (job : EvalJob) : App :=
  { app with
    jobs := app.jobs.erase job
    log := app.log ++
      match job with
      | .load _ => [.leadSettled]
      | .evalExpected => [.trailSettled] }

end App

inductive AppEvent where
  | requestLoad
  | requestReload
  | requestInventorySwap
  | refreshDrift
  | startPendingEvalExpected
  | loadFinished (request : LoadRequest) (result : Except String LoadedInventory)
      (snapshots : BTreeMap Snapshot) (now : Int)
  | driftEvalFinished (result : Except String (Option String × Toplevels))
      (snapshots : BTreeMap Snapshot) (now : Int)
  | surveyProgress (n : ℕ)
  | surveyDone (n : ℕ) (rc : Int) (error : Option String)
      (snapshots : BTreeMap Snapshot) (now : Int)
  | driftLanded (rev cachedRev : Option String) (cached : BTreeMap String)
      (snapshots : BTreeMap Snapshot) (now : Int)

section Loop

variable (reading : Reading)

/-- Requests come at any time; a load or evaluation settles once, at any time
after it was started. -/
inductive AppStep : App → AppEvent → App → Prop
  | requestLoad (app : App) :
      AppStep app .requestLoad (app.requested false app.state.requestLoad)
  | requestReload (app : App) :
      AppStep app .requestReload (app.requested true app.state.requestReload)
  | requestInventorySwap (app : App) :
      AppStep app .requestInventorySwap
        (app.requested false app.state.requestInventorySwap)
  | refreshDrift (app : App) :
      AppStep app .refreshDrift
        (App.evalWith { app with log := app.log ++ [.trailAsked app.isLoading] }
          (app.state.refreshDrift.1, app.state.refreshDrift.2.1))
  | startPendingEvalExpected (app : App) :
      AppStep app .startPendingEvalExpected
        (app.evalWith app.state.startPendingEvalExpected)
  | loadFinished (app : App) (request : LoadRequest)
      (result : Except String LoadedInventory) (snapshots : BTreeMap Snapshot)
      (now : Int) (hjob : EvalJob.load request ∈ app.jobs) :
      AppStep app (.loadFinished request result snapshots now)
        ((app.settle (.load request)).followUp
          (app.state.onLoadFinished reading request.generation result snapshots
            now) true)
  | driftEvalFinished (app : App)
      (result : Except String (Option String × Toplevels))
      (snapshots : BTreeMap Snapshot) (now : Int)
      (hjob : EvalJob.evalExpected ∈ app.jobs) :
      AppStep app (.driftEvalFinished result snapshots now)
        ((app.settle .evalExpected).followUp
          (app.state.onDriftEvalFinished reading result snapshots now) false)
  | surveyProgress (app : App) (n : ℕ) :
      AppStep app (.surveyProgress n)
        { app with state := app.state.onSurveyProgress n }
  | surveyDone (app : App) (n : ℕ) (rc : Int) (error : Option String)
      (snapshots : BTreeMap Snapshot) (now : Int) :
      AppStep app (.surveyDone n rc error snapshots now)
        { app with
          state := app.state.onSurveyDone reading n rc error snapshots now }
  | driftLanded (app : App) (rev cachedRev : Option String)
      (cached : BTreeMap String) (snapshots : BTreeMap Snapshot) (now : Int) :
      AppStep app (.driftLanded rev cachedRev cached snapshots now)
        { app with
          state := app.state.onMcpDriftLanded reading rev cachedRev cached
            snapshots now }

end Loop

def AppInitial (app : App) : Prop :=
  app = { state := AppState.new, jobs := [], log := [] }

/-! ## The flags are a slot -/

/-- The flags of the state say what is in the slot. -/
structure Flags (state : AppState) (slot : Slot ℕ) : Prop where
  busy : state.busy = !slot.isIdle
  running : state.expectedEvalRunning = slot.isTrailing
  pending : state.expectedEvalPending = slot.wantsTrail
  reloadPending : state.reloadPending = slot.queued.isSome
  freshWanted : state.freshWanted = slot.queued.getD false

/-- The job in the slot; its ticket is the generation it was started for. -/
def jobsOf : Slot ℕ → List EvalJob
  | .idle => []
  | .leading generation fresh _ _ => [.load { generation, fresh }]
  | .trailing _ => [.evalExpected]

/-- The loop's jobs and flags are those of a slot whose schedule is the log. -/
structure Simulates (app : App) (slot : Slot ℕ) : Prop where
  flags : Flags app.state slot
  jobs : app.jobs = jobsOf slot
  scheduled : Scheduled slot app.log

/-- The flags are the same. -/
structure SameFlags (before after : AppState) : Prop where
  busy : after.busy = before.busy
  running : after.expectedEvalRunning = before.expectedEvalRunning
  pending : after.expectedEvalPending = before.expectedEvalPending
  reloadPending : after.reloadPending = before.reloadPending
  freshWanted : after.freshWanted = before.freshWanted

theorem SameFlags.trans {first second third : AppState}
    (hfirst : SameFlags first second) (hsecond : SameFlags second third) :
    SameFlags first third where
  busy := hsecond.busy.trans hfirst.busy
  running := hsecond.running.trans hfirst.running
  pending := hsecond.pending.trans hfirst.pending
  reloadPending := hsecond.reloadPending.trans hfirst.reloadPending
  freshWanted := hsecond.freshWanted.trans hfirst.freshWanted

theorem sameFlags_setStatus (state : AppState) (text : String) (error : Bool) :
    SameFlags state (state.setStatus text error) := by
  rw [AppState.setStatus]
  split <;> exact ⟨rfl, rfl, rfl, rfl, rfl⟩

theorem Flags.of_sameFlags {before after : AppState} {slot : Slot ℕ}
    (hflags : Flags before slot) (hsame : SameFlags before after) :
    Flags after slot where
  busy := hsame.busy.trans hflags.busy
  running := hsame.running.trans hflags.running
  pending := hsame.pending.trans hflags.pending
  reloadPending := hsame.reloadPending.trans hflags.reloadPending
  freshWanted := hsame.freshWanted.trans hflags.freshWanted

/-- What a load settles with is taken in, the slot is freed, and a queued load
is handed out. -/
theorem onLoadFinished_eq (reading : Reading) (state : AppState) (generation : ℕ)
    (result : Except String LoadedInventory) (snapshots : BTreeMap Snapshot)
    (now : Int) :
    ∃ settled, state.onLoadFinished reading generation result snapshots now =
        settled.consumePendingReload ∧
      SameFlags { state with busy := false } settled := by
  rw [AppState.onLoadFinished.eq_def]
  split
  · exact ⟨_, rfl, ⟨rfl, rfl, rfl, rfl, rfl⟩⟩
  · cases result with
    | error error => exact ⟨_, rfl, sameFlags_setStatus _ _ _⟩
    | ok loaded =>
        refine ⟨_, rfl, ?_⟩
        let filled := (state.adopt reading loaded).fillDrift reading snapshots now
        have hfilled : SameFlags { state with busy := false }
            { filled with busy := false } :=
          ⟨rfl, rfl, rfl, rfl, rfl⟩
        exact hfilled.trans (sameFlags_setStatus _ _ _)

theorem onDriftEvalFinished_eq (reading : Reading) (state : AppState)
    (result : Except String (Option String × Toplevels))
    (snapshots : BTreeMap Snapshot) (now : Int) :
    ∃ settled, state.onDriftEvalFinished reading result snapshots now =
        settled.consumePendingReload ∧
      SameFlags { state with busy := false, expectedEvalRunning := false }
        settled := by
  have hadopt (finished : AppState) :
      SameFlags finished
        ((finished.adoptExpected result).fillDrift reading snapshots now) := by
    cases result <;> exact ⟨rfl, rfl, rfl, rfl, rfl⟩
  have hfilled := hadopt { state with busy := false, expectedEvalRunning := false }
  refine ⟨_, rfl, ?_⟩
  split <;> exact hfilled.trans (sameFlags_setStatus _ _ _)

theorem isLoading_of_jobs {app : App} {slot : Slot ℕ}
    (hjobs : app.jobs = jobsOf slot) :
    app.isLoading = (!slot.isIdle && !slot.isTrailing) := by
  rw [App.isLoading, hjobs]
  cases slot <;> rfl

/-! ## Each event is a step of the slot -/

theorem Simulates.requested {app : App} {slot : Slot ℕ}
    (hsimulates : Simulates app slot) {asking : AppState} {fresh : Bool}
    (hbusy : asking.busy = app.state.busy)
    (hrunning : asking.expectedEvalRunning = app.state.expectedEvalRunning)
    (hpending : asking.expectedEvalPending = app.state.expectedEvalPending)
    (hreload : asking.reloadPending = app.state.reloadPending)
    (hfresh : asking.freshWanted = (app.state.freshWanted || fresh)) :
    Simulates (app.requested fresh asking.requestLoad)
      (slot.askLead asking.generation fresh).1 := by
  have hscheduled := hsimulates.scheduled.askLead asking.generation fresh
  obtain ⟨hflags, hjobs, -⟩ := hsimulates
  rw [hflags.busy] at hbusy
  rw [hflags.running] at hrunning
  rw [hflags.pending] at hpending
  rw [hflags.reloadPending] at hreload
  rw [hflags.freshWanted] at hfresh
  rw [AppState.requestLoad]
  cases slot with
  | idle =>
      have hfree : ¬ asking.busy = true := by
        rw [hbusy]
        decide
      have hmarked : asking.freshWanted = fresh := hfresh
      rw [if_neg hfree, hmarked]
      refine ⟨⟨rfl, hrunning, hpending, hreload, rfl⟩, ?_, ?_⟩
      · change app.jobs ++ _ = _
        rw [hjobs]
        rfl
      · change Scheduled _ (app.log ++ _ ++ _)
        rw [List.append_assoc]
        exact hscheduled
  | leading running now queued trailAsked =>
      have htaken : asking.busy = true := hbusy
      rw [if_pos htaken]
      exact ⟨⟨hbusy, hrunning, hpending, rfl, hfresh⟩, hjobs, hscheduled⟩
  | trailing queued =>
      have htaken : asking.busy = true := hbusy
      rw [if_pos htaken]
      exact ⟨⟨hbusy, hrunning, hpending, rfl, hfresh⟩, hjobs, hscheduled⟩

theorem Simulates.refreshDrift {app : App} {slot : Slot ℕ}
    (hsimulates : Simulates app slot) :
    Simulates
      (App.evalWith { app with log := app.log ++ [.trailAsked app.isLoading] }
        (app.state.refreshDrift.1, app.state.refreshDrift.2.1))
      slot.askTrail.1 := by
  have hscheduled := hsimulates.scheduled.askTrail
  obtain ⟨hflags, hjobs, -⟩ := hsimulates
  rw [isLoading_of_jobs hjobs]
  let asking := { app.state with statusSticky := false }
  have hsurvey : SameFlags asking.requestEvalExpected.1 app.state.refreshDrift.1 := by
    change SameFlags _ (AppState.requestSurvey _).1
    rw [AppState.requestSurvey]
    split <;> exact ⟨rfl, rfl, rfl, rfl, rfl⟩
  change Simulates (App.evalWith _ (_, asking.requestEvalExpected.2)) _
  have hbusy : asking.busy = !slot.isIdle := hflags.busy
  rw [AppState.requestEvalExpected] at hsurvey ⊢
  cases slot with
  | idle =>
      have hfree : ¬ asking.busy = true := by
        rw [hbusy]
        decide
      rw [if_neg hfree] at hsurvey ⊢
      refine ⟨?_, ?_, ?_⟩
      · have hstarted : Flags
            { asking with busy := true, expectedEvalRunning := true }
              (.trailing none) :=
          ⟨rfl, rfl, hflags.pending, hflags.reloadPending, hflags.freshWanted⟩
        exact hstarted.of_sameFlags hsurvey
      · change app.jobs ++ _ = _
        rw [hjobs]
        rfl
      · change Scheduled _ (app.log ++ [_] ++ [_])
        rw [List.append_assoc]
        exact hscheduled
  | leading running now queued trailAsked =>
      have htaken : asking.busy = true := hbusy
      rw [if_pos htaken] at hsurvey ⊢
      refine ⟨?_, hjobs, hscheduled⟩
      have hqueued : Flags
          { asking with
            expectedEvalPending :=
              asking.expectedEvalPending || !asking.expectedEvalRunning }
            (.leading running now queued true) := by
        refine ⟨hflags.busy, hflags.running, ?_, hflags.reloadPending,
          hflags.freshWanted⟩
        change (app.state.expectedEvalPending ||
          !app.state.expectedEvalRunning) = true
        rw [hflags.running]
        exact Bool.or_true _
      exact hqueued.of_sameFlags hsurvey
  | trailing queued =>
      have htaken : asking.busy = true := hbusy
      rw [if_pos htaken] at hsurvey ⊢
      refine ⟨?_, hjobs, hscheduled⟩
      have hkept : Flags
          { asking with
            expectedEvalPending :=
              asking.expectedEvalPending || !asking.expectedEvalRunning }
            (.trailing queued) := by
        refine ⟨hflags.busy, hflags.running, ?_, hflags.reloadPending,
          hflags.freshWanted⟩
        change (app.state.expectedEvalPending ||
          !app.state.expectedEvalRunning) = false
        rw [hflags.pending, hflags.running]
        rfl
      exact hkept.of_sameFlags hsurvey

theorem startPendingEvalExpected_asked {settled : AppState}
    (hbusy : settled.busy = false) (hpending : settled.expectedEvalPending = true) :
    settled.startPendingEvalExpected =
      ({ settled with
        expectedEvalPending := false
        busy := true
        expectedEvalRunning := true }, true) := by
  have hstarts : ¬ (settled.busy || !settled.expectedEvalPending) = true := by
    rw [hbusy, hpending]
    exact Bool.false_ne_true
  rw [AppState.startPendingEvalExpected, if_neg hstarts]

theorem startPendingEvalExpected_none {settled : AppState}
    (hnone : (settled.busy || !settled.expectedEvalPending) = true) :
    settled.startPendingEvalExpected = (settled, false) := by
  rw [AppState.startPendingEvalExpected, if_pos hnone]

/-- A pending evaluation is never started out of turn. -/
theorem Simulates.startPendingEvalExpected {app : App} {slot : Slot ℕ}
    (hsimulates : Simulates app slot) :
    Simulates (app.evalWith app.state.startPendingEvalExpected) slot := by
  have hnone : (app.state.busy || !app.state.expectedEvalPending) = true := by
    rw [hsimulates.flags.busy, hsimulates.flags.pending]
    cases slot <;> rfl
  rw [startPendingEvalExpected_none hnone]
  exact hsimulates

theorem consumePendingReload_queued {settled : AppState}
    (hbusy : settled.busy = false) (hreload : settled.reloadPending = true) :
    settled.consumePendingReload =
      ({ settled with reloadPending := false, busy := true, freshWanted := false },
        some { generation := settled.generation, fresh := settled.freshWanted }) := by
  have hqueued : (settled.reloadPending && !settled.busy) = true := by
    rw [hreload, hbusy]
    rfl
  have hfree : ¬ ({ settled with reloadPending := false } : AppState).busy = true := by
    change ¬ settled.busy = true
    rw [hbusy]
    decide
  rw [AppState.consumePendingReload, if_pos hqueued, AppState.requestLoad,
    if_neg hfree]

theorem consumePendingReload_none {settled : AppState}
    (hreload : settled.reloadPending = false) :
    settled.consumePendingReload = (settled, none) := by
  rw [AppState.consumePendingReload, hreload]
  rfl

/-- The job in the slot settles and what it queued is started. -/
theorem Simulates.followUp {app : App} {slot : Slot ℕ}
    (hsimulates : Simulates app slot) {settled : AppState}
    (hbusy : settled.busy = false) (hrunning : settled.expectedEvalRunning = false)
    (hpending : settled.expectedEvalPending = app.state.expectedEvalPending)
    (hreload : settled.reloadPending = app.state.reloadPending)
    (hfresh : settled.freshWanted = app.state.freshWanted)
    {job : EvalJob} (hjob : job ∈ app.jobs) :
    Simulates
      ((app.settle job).followUp settled.consumePendingReload app.isLoading)
      (slot.settle settled.generation).1 := by
  have hscheduled := hsimulates.scheduled.settle settled.generation
  obtain ⟨hflags, hjobs, -⟩ := hsimulates
  rw [isLoading_of_jobs hjobs]
  rw [hflags.pending] at hpending
  rw [hflags.reloadPending] at hreload
  rw [hflags.freshWanted] at hfresh
  cases slot with
  | idle =>
      rw [hjobs] at hjob
      cases hjob
  | leading running now queued trailAsked =>
      rw [hjobs] at hjob
      cases List.mem_singleton.mp hjob
      have herase : app.jobs.erase (.load { generation := running, fresh := now }) =
          [] := by
        rw [hjobs, jobsOf, List.erase_cons_head]
      cases queued with
      | some marked =>
          have hmarked : settled.freshWanted = marked := hfresh
          rw [consumePendingReload_queued hbusy hreload, hmarked]
          refine ⟨⟨rfl, hrunning, hpending, rfl, rfl⟩, ?_, ?_⟩
          · change app.jobs.erase _ ++ _ = _
            rw [herase]
            rfl
          · change Scheduled _ (app.log ++ [_] ++ [_])
            rw [List.append_assoc]
            exact hscheduled
      | none =>
          rw [consumePendingReload_none hreload]
          cases trailAsked with
          | true =>
              change Simulates
                ((app.settle _).evalWith settled.startPendingEvalExpected) _
              rw [startPendingEvalExpected_asked hbusy hpending]
              refine ⟨⟨rfl, rfl, rfl, hreload, hfresh⟩, ?_, ?_⟩
              · change app.jobs.erase _ ++ _ = _
                rw [herase]
                rfl
              · change Scheduled _ (app.log ++ [_] ++ [_])
                rw [List.append_assoc]
                exact hscheduled
          | false =>
              have hnone : (settled.busy || !settled.expectedEvalPending) = true := by
                rw [hbusy, hpending]
                rfl
              change Simulates
                ((app.settle _).evalWith settled.startPendingEvalExpected) _
              rw [startPendingEvalExpected_none hnone]
              exact ⟨⟨hbusy, hrunning, hpending, hreload, hfresh⟩, herase,
                hscheduled⟩
  | trailing queued =>
      rw [hjobs] at hjob
      cases List.mem_singleton.mp hjob
      have herase : app.jobs.erase .evalExpected = [] := by
        rw [hjobs, jobsOf, List.erase_cons_head]
      cases queued with
      | some marked =>
          have hmarked : settled.freshWanted = marked := hfresh
          rw [consumePendingReload_queued hbusy hreload, hmarked]
          refine ⟨⟨rfl, hrunning, hpending, rfl, rfl⟩, ?_, ?_⟩
          · change app.jobs.erase _ ++ _ = _
            rw [herase]
            rfl
          · change Scheduled _ (app.log ++ [_] ++ [_])
            rw [List.append_assoc]
            exact hscheduled
      | none =>
          rw [consumePendingReload_none hreload]
          exact ⟨⟨hbusy, hrunning, hpending, hreload, hfresh⟩, herase, hscheduled⟩

/-- Every event is a step of the slot. -/
theorem simulates_of_step {reading : Reading} {app after : App} {event : AppEvent}
    {slot : Slot ℕ} (hsimulates : Simulates app slot)
    (hstep : AppStep reading app event after) : ∃ slot, Simulates after slot := by
  have hkeeps {state : AppState} (hsame : SameFlags app.state state) :
      Simulates { app with state } slot :=
    ⟨hsimulates.flags.of_sameFlags hsame, hsimulates.jobs, hsimulates.scheduled⟩
  cases hstep with
  | requestLoad =>
      exact ⟨_, hsimulates.requested rfl rfl rfl rfl (Bool.or_false _).symm⟩
  | requestReload => exact ⟨_, hsimulates.requested rfl rfl rfl rfl rfl⟩
  | requestInventorySwap => exact ⟨_, hsimulates.requested rfl rfl rfl rfl rfl⟩
  | refreshDrift => exact ⟨_, hsimulates.refreshDrift⟩
  | startPendingEvalExpected => exact ⟨_, hsimulates.startPendingEvalExpected⟩
  | loadFinished request result snapshots now hjob =>
      obtain ⟨settled, hsettled, hsame⟩ := onLoadFinished_eq reading app.state
        request.generation result snapshots now
      have hloading : app.isLoading = true :=
        List.any_eq_true.mpr ⟨_, hjob, rfl⟩
      have hrunning : app.state.expectedEvalRunning = false := by
        have hslot := isLoading_of_jobs hsimulates.jobs
        rw [hloading] at hslot
        rw [hsimulates.flags.running]
        cases slot with
        | idle => rfl
        | leading => rfl
        | trailing => cases hslot
      rw [hsettled, ← hloading]
      exact ⟨_, hsimulates.followUp hsame.busy (hsame.running.trans hrunning)
        hsame.pending hsame.reloadPending hsame.freshWanted hjob⟩
  | driftEvalFinished result snapshots now hjob =>
      obtain ⟨settled, hsettled, hsame⟩ := onDriftEvalFinished_eq reading app.state
        result snapshots now
      have hloading : app.isLoading = false := by
        have hmember := hjob
        rw [hsimulates.jobs] at hmember
        rw [isLoading_of_jobs hsimulates.jobs]
        cases slot with
        | idle => rfl
        | leading => cases List.mem_singleton.mp hmember
        | trailing => rfl
      rw [hsettled, ← hloading]
      exact ⟨_, hsimulates.followUp hsame.busy hsame.running hsame.pending
        hsame.reloadPending hsame.freshWanted hjob⟩
  | surveyProgress n => exact ⟨slot, hkeeps ⟨rfl, rfl, rfl, rfl, rfl⟩⟩
  | surveyDone n rc error snapshots now =>
      refine ⟨slot, hkeeps ?_⟩
      have hfilled : SameFlags app.state
          ({ app.state with surveying := false, surveyN := n }.fillDrift reading
            snapshots now) :=
        ⟨rfl, rfl, rfl, rfl, rfl⟩
      rw [AppState.onSurveyDone]
      split <;> exact hfilled.trans (sameFlags_setStatus _ _ _)
  | driftLanded rev cachedRev cached snapshots now =>
      have hfilled : SameFlags app.state
          ({ app.state with
            rev
            cachedRev
            expected :=
              if cacheFresh cachedRev rev then some (Toplevels.ofPaths cached)
              else app.state.expected }.fillDrift reading snapshots now) :=
        ⟨rfl, rfl, rfl, rfl, rfl⟩
      exact ⟨slot, hkeeps (hfilled.trans (sameFlags_setStatus _ _ _))⟩

theorem simulates_of_reachable {reading : Reading} {app : App}
    (hreach : Reachable AppInitial (AppStep reading) anyStep app) :
    ∃ slot, Simulates app slot := by
  have hinitial (start : App) (hstart : AppInitial start) :
      ∃ slot, Simulates start slot := by
    subst hstart
    exact ⟨.idle, ⟨rfl, rfl, rfl, rfl, rfl⟩, rfl, scheduled_idle⟩
  refine hreach.invariant hinitial ?_
  rintro before event after ⟨slot, hsimulates⟩ - hstep
  exact simulates_of_step hsimulates hstep

/-! ## The schedule -/

/-- The painted rows. -/
def AppState.rows (state : AppState) :
    List MemberRow × List GroupRow × List DriftRow :=
  (state.memberRows, state.groupRows, state.driftRows)

theorem rows_startPendingEvalExpected (state : AppState) :
    state.startPendingEvalExpected.1.rows = state.rows := by
  rw [AppState.startPendingEvalExpected]
  split <;> rfl

theorem rows_consumePendingReload (state : AppState) :
    state.consumePendingReload.1.rows = state.rows := by
  rw [AppState.consumePendingReload]
  split
  · rw [AppState.requestLoad]
    split <;> rfl
  · rfl

theorem rows_followUp (app : App) (settled : AppState × Option LoadRequest)
    (loadSettled : Bool) :
    (app.followUp settled loadSettled).state.rows = settled.1.rows := by
  obtain ⟨state, request⟩ := settled
  cases request with
  | some request => rfl
  | none =>
      cases loadSettled with
      | false => rfl
      | true =>
          change (app.evalWith state.startPendingEvalExpected).state.rows = state.rows
          rw [← rows_startPendingEvalExpected state, App.evalWith]
          split <;> rfl

/-- A load of another generation than the current one paints nothing. -/
theorem rows_of_superseded {reading : Reading} {app after : App}
    {request : LoadRequest} {result : Except String LoadedInventory}
    {snapshots : BTreeMap Snapshot} {now : Int}
    (hstep : AppStep reading app (.loadFinished request result snapshots now) after)
    (hsuperseded : request.generation ≠ app.state.generation) :
    after.state.rows = app.state.rows := by
  cases hstep
  rw [rows_followUp, AppState.onLoadFinished.eq_def, if_pos hsuperseded,
    rows_consumePendingReload]
  rfl

/-- At most one job of the slot is in flight, and the state is busy exactly
then; a superseded load paints nothing; and once nothing is in flight, every
reload requested was started fresh, nothing is queued, and the refreshes
requested during a load have led to one evaluation after the last queued
load. -/
theorem evalSlot_scheduled (reading : Reading) {app : App}
    (hreach : Reachable AppInitial (AppStep reading) anyStep app) :
    app.jobs.length ≤ 1 ∧ (app.state.busy = true ↔ app.jobs ≠ []) ∧
      (∀ request result snapshots now after,
        AppStep reading app (.loadFinished request result snapshots now) after →
          request.generation ≠ app.state.generation →
            after.state.rows = app.state.rows) ∧
      (app.jobs = [] →
        MarksServed app.log ∧
        (app.state.reloadPending = false ∧ app.state.freshWanted = false ∧
          app.state.expectedEvalPending = false) ∧
        (∀ asked : ℕ, app.log[asked]? = some (.trailAsked true) →
          TrailServed app.log asked) ∧
        TrailsSpaced app.log) := by
  obtain ⟨slot, hflags, hjobs, hscheduled⟩ := simulates_of_reachable hreach
  refine ⟨?_, ?_, fun _ _ _ _ _ => rows_of_superseded, ?_⟩
  · rw [hjobs]
    cases slot <;> simp [jobsOf]
  · rw [hflags.busy, hjobs]
    cases slot <;> simp [jobsOf, Slot.isIdle]
  · intro hnone
    rw [hjobs] at hnone
    cases slot with
    | leading => cases hnone
    | trailing => cases hnone
    | idle =>
        refine ⟨hscheduled.marks (by simp [Slot.queued]),
          ⟨hflags.reloadPending, hflags.freshWanted, hflags.pending⟩, ?_,
          hscheduled.spaced⟩
        intro asked hasked
        rcases hscheduled.served asked hasked with hserved | ⟨hwanted, -⟩
        · exact hserved
        · cases hwanted

/-- A refresh and a reload that arrive during the first load: the reload runs
next, fresh, and the evaluation after it. -/
theorem queuedReload_scheduled :
    ∃ app : App, app.jobs = [] ∧
      app.log = [.leadStarted false, .trailAsked true, .markAsked, .leadSettled,
        .leadStarted true, .leadSettled, .trailStarted, .trailSettled] ∧
      MarksServed app.log ∧ TrailServed app.log 1 := by
  have hstart : Reachable AppInitial (AppStep plainReading) anyStep
      { state := AppState.new, jobs := [], log := [] } :=
    Reachable.initial rfl
  have hasked := ((hstart.step trivial (.requestLoad _)).step trivial
    (.refreshDrift _)).step trivial (.requestReload _)
  have hreloaded := hasked.step trivial
    (.loadFinished _ ⟨0, false⟩ (.error "superseded") ∅ 0 (by decide))
  have hloaded := hreloaded.step trivial
    (.loadFinished _ ⟨1, true⟩ (.error "no inventory") ∅ 0 (by decide))
  have hevaluated := hloaded.step trivial
    (.driftEvalFinished _ (.error "no inventory") ∅ 0 (by decide))
  obtain ⟨-, -, -, hidle⟩ := evalSlot_scheduled plainReading hevaluated
  obtain ⟨hmarks, -, hserved, -⟩ := hidle rfl
  exact ⟨_, rfl, rfl, hmarks, hserved 1 rfl⟩

end Mandala.Explorer
