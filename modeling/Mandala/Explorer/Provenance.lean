import Mandala.Core.Transition
import Mandala.Explorer.Refresh

/-!
# Where the shown expectation comes from

The caption names a revision, and the rows are judged by the expectation that is
kept.  Loads, evaluations and remote refreshes write the revision and the
expectation each in its own way, and only loads know the generation they were
started for.
-/

namespace Mandala.Explorer

open Mandala.Data Mandala.Drift Mandala.Transition

/-- What delivered an expectation: the revision it was evaluated at, and the
generation its evaluation, or the reading of the cache, was started in. -/
structure Source where
  toplevels : Toplevels
  rev : Option String
  generation : ℕ

/-- The explorer, with what it cannot tell by itself. -/
structure TracedExplorer where
  app : AppState
  /-- The generation the evaluation in flight was started in. -/
  evalStarted : Option ℕ
  source : Option Source

inductive ExplorerAction where
  | load
  | reload
  | inventorySwap
  | loadFinished (generation : ℕ) (result : Except String LoadedInventory)
      (snapshots : BTreeMap Snapshot) (now : Int)
  | refresh
  | startPending
  | evalFinished (result : Except String (Option String × Toplevels))
      (snapshots : BTreeMap Snapshot) (now : Int)
  | surveyProgress (n : ℕ)
  | surveyDone (n : ℕ) (rc : Int) (error : Option String)
      (snapshots : BTreeMap Snapshot) (now : Int)
  | driftLanded (rev cachedRev : Option String) (cached : BTreeMap String)
      (snapshots : BTreeMap Snapshot) (now : Int)

/-- A started evaluation belongs to the generation it was started in. -/
def TracedExplorer.started (traced : TracedExplorer) (app : AppState)
    (starts : Bool) : TracedExplorer :=
  { traced with
    app
    evalStarted :=
      if starts then some traced.app.generation else traced.evalStarted }

/-- A fresh cache is from its own revision and was read in this generation. -/
def cacheSource (cachedRev rev : Option String) (cached : BTreeMap String)
    (generation : ℕ) (before : Option Source) : Option Source :=
  if cacheFresh cachedRev rev then
    some { toplevels := Toplevels.ofPaths cached, rev := cachedRev, generation }
  else before

section Tracing

variable (reading : Reading)

/-- One transition; an evaluation settles only if one was started. -/
inductive ExplorerStep :
    TracedExplorer → ExplorerAction → TracedExplorer → Prop
  | load (traced : TracedExplorer) :
      ExplorerStep traced .load { traced with app := traced.app.requestLoad.1 }
  | reload (traced : TracedExplorer) :
      ExplorerStep traced .reload
        { traced with app := traced.app.requestReload.1, source := none }
  | inventorySwap (traced : TracedExplorer) :
      ExplorerStep traced .inventorySwap
        { traced with app := traced.app.requestInventorySwap.1, source := none }
  | loadFinished (traced : TracedExplorer) (generation : ℕ)
      (result : Except String LoadedInventory) (snapshots : BTreeMap Snapshot)
      (now : Int) :
      ExplorerStep traced (.loadFinished generation result snapshots now)
        { traced with
          app := (traced.app.onLoadFinished reading generation result snapshots
            now).1
          source :=
            match result with
            | .ok loaded =>
                if generation = traced.app.generation then
                  cacheSource loaded.cachedRev loaded.rev loaded.cached generation
                    traced.source
                else traced.source
            | .error _ => traced.source }
  | refresh (traced : TracedExplorer) :
      ExplorerStep traced .refresh
        (traced.started traced.app.refreshDrift.1 traced.app.refreshDrift.2.1)
  | startPending (traced : TracedExplorer) :
      ExplorerStep traced .startPending
        (traced.started traced.app.startPendingEvalExpected.1
          traced.app.startPendingEvalExpected.2)
  | evalFinished (traced : TracedExplorer) (started : ℕ)
      (result : Except String (Option String × Toplevels))
      (snapshots : BTreeMap Snapshot) (now : Int)
      (hstarted : traced.evalStarted = some started) :
      ExplorerStep traced (.evalFinished result snapshots now)
        { app := (traced.app.onDriftEvalFinished reading result snapshots now).1
          evalStarted := none
          source :=
            match result with
            | .ok (rev, toplevels) =>
                some { toplevels, rev, generation := started }
            | .error _ => none }
  | surveyProgress (traced : TracedExplorer) (n : ℕ) :
      ExplorerStep traced (.surveyProgress n)
        { traced with app := traced.app.onSurveyProgress n }
  | surveyDone (traced : TracedExplorer) (n : ℕ) (rc : Int)
      (error : Option String) (snapshots : BTreeMap Snapshot) (now : Int) :
      ExplorerStep traced (.surveyDone n rc error snapshots now)
        { traced with
          app := traced.app.onSurveyDone reading n rc error snapshots now }
  | driftLanded (traced : TracedExplorer) (rev cachedRev : Option String)
      (cached : BTreeMap String) (snapshots : BTreeMap Snapshot) (now : Int) :
      ExplorerStep traced (.driftLanded rev cachedRev cached snapshots now)
        { traced with
          app := traced.app.onMcpDriftLanded reading rev cachedRev cached
            snapshots now
          source := cacheSource cachedRev rev cached traced.app.generation
            traced.source }

end Tracing

def ExplorerInitial (traced : TracedExplorer) : Prop :=
  traced = { app := AppState.new, evalStarted := none, source := none }

/-- A kept expectation was evaluated at the revision the caption shows, by an
evaluation started since the last rebind. -/
def Provenance (traced : TracedExplorer) : Prop :=
  ∀ expected, traced.app.expected = some expected →
    ∃ source, traced.source = some source ∧ source.toplevels = expected ∧
      source.rev = traced.app.rev ∧ source.generation = traced.app.generation ∧
      traced.app.driftHint =
        driftHint true traced.app.rev traced.app.cachedRev

/-- An evaluation lands in the generation it was started in, and without a
fresh cache no load or remote refresh moves the revision of an expectation that
is kept. -/
def Attributed (traced : TracedExplorer) : ExplorerAction → Prop
  | .evalFinished (.ok _) _ _ => traced.evalStarted = some traced.app.generation
  | .loadFinished generation (.ok loaded) _ _ =>
      generation = traced.app.generation →
        cacheFresh loaded.cachedRev loaded.rev ∨ traced.app.expected = none ∨
          loaded.rev = traced.app.rev
  | .driftLanded rev cachedRev _ _ _ =>
      cacheFresh cachedRev rev ∨ traced.app.expected = none ∨
        rev = traced.app.rev
  | _ => True

/-! ## What the transitions leave alone -/

/-- The expectation, its label and its caption are the same. -/
structure SameLabel (before after : AppState) : Prop where
  expected : after.expected = before.expected
  rev : after.rev = before.rev
  cachedRev : after.cachedRev = before.cachedRev
  generation : after.generation = before.generation
  hint : after.driftHint = before.driftHint

theorem SameLabel.trans {first second third : AppState}
    (hfirst : SameLabel first second) (hsecond : SameLabel second third) :
    SameLabel first third where
  expected := hsecond.expected.trans hfirst.expected
  rev := hsecond.rev.trans hfirst.rev
  cachedRev := hsecond.cachedRev.trans hfirst.cachedRev
  generation := hsecond.generation.trans hfirst.generation
  hint := hsecond.hint.trans hfirst.hint

theorem sameLabel_requestLoad (state : AppState) :
    SameLabel state state.requestLoad.1 := by
  rw [AppState.requestLoad]
  split <;> exact ⟨rfl, rfl, rfl, rfl, rfl⟩

theorem sameLabel_consumePendingReload (state : AppState) :
    SameLabel state state.consumePendingReload.1 := by
  rw [AppState.consumePendingReload]
  split
  · have hdequeued : SameLabel state { state with reloadPending := false } :=
      ⟨rfl, rfl, rfl, rfl, rfl⟩
    exact hdequeued.trans (sameLabel_requestLoad _)
  · exact ⟨rfl, rfl, rfl, rfl, rfl⟩

theorem sameLabel_setStatus (state : AppState) (text : String) (error : Bool) :
    SameLabel state (state.setStatus text error) := by
  rw [AppState.setStatus]
  split <;> exact ⟨rfl, rfl, rfl, rfl, rfl⟩

theorem sameLabel_refreshDrift (state : AppState) :
    SameLabel state state.refreshDrift.1 := by
  rw [AppState.refreshDrift, AppState.requestEvalExpected, AppState.requestSurvey]
  dsimp only
  split <;> split <;> exact ⟨rfl, rfl, rfl, rfl, rfl⟩

theorem sameLabel_startPendingEvalExpected (state : AppState) :
    SameLabel state state.startPendingEvalExpected.1 := by
  rw [AppState.startPendingEvalExpected]
  split <;> exact ⟨rfl, rfl, rfl, rfl, rfl⟩

/-- A load of an earlier generation changes nothing. -/
theorem sameLabel_onLoadFinished_stale (reading : Reading) {state : AppState}
    {generation : ℕ} (hstale : generation ≠ state.generation)
    (result : Except String LoadedInventory) (snapshots : BTreeMap Snapshot)
    (now : Int) :
    SameLabel state
      (state.onLoadFinished reading generation result snapshots now).1 := by
  rw [AppState.onLoadFinished.eq_def, if_pos hstale]
  have hsettled : SameLabel state { state with busy := false } :=
    ⟨rfl, rfl, rfl, rfl, rfl⟩
  exact hsettled.trans (sameLabel_consumePendingReload _)

theorem sameLabel_onLoadFinished_error (reading : Reading) (state : AppState)
    (error : String) (snapshots : BTreeMap Snapshot) (now : Int) :
    SameLabel state
      (state.onLoadFinished reading state.generation (.error error) snapshots
        now).1 := by
  rw [AppState.onLoadFinished, if_neg (not_not.mpr rfl)]
  have hsettled : SameLabel state { state with busy := false } :=
    ⟨rfl, rfl, rfl, rfl, rfl⟩
  exact (hsettled.trans (sameLabel_setStatus _ _ _)).trans
    (sameLabel_consumePendingReload _)

/-- A load that arrives is adopted. -/
theorem sameLabel_onLoadFinished_ok (reading : Reading) (state : AppState)
    (loaded : LoadedInventory) (snapshots : BTreeMap Snapshot) (now : Int) :
    SameLabel ((state.adopt reading loaded).fillDrift reading snapshots now)
      (state.onLoadFinished reading state.generation (.ok loaded) snapshots
        now).1 := by
  have hfilled : (state.onLoadFinished reading state.generation (.ok loaded)
      snapshots now).1 = (state.fill reading loaded snapshots now).1 := by
    rw [AppState.onLoadFinished, if_neg (not_not.mpr rfl)]
  rw [hfilled]
  let filled := (state.adopt reading loaded).fillDrift reading snapshots now
  have hsettled : SameLabel filled { filled with busy := false } :=
    ⟨rfl, rfl, rfl, rfl, rfl⟩
  exact (hsettled.trans (sameLabel_setStatus _ _ _)).trans
    (sameLabel_consumePendingReload _)

theorem sameLabel_onDriftEvalFinished (reading : Reading) (state : AppState)
    (result : Except String (Option String × Toplevels))
    (snapshots : BTreeMap Snapshot) (now : Int) :
    SameLabel
      (({ state with busy := false, expectedEvalRunning := false }.adoptExpected
        result).fillDrift reading snapshots now)
      (state.onDriftEvalFinished reading result snapshots now).1 := by
  rw [AppState.onDriftEvalFinished]
  split <;>
    exact (sameLabel_setStatus _ _ _).trans (sameLabel_consumePendingReload _)

theorem sameLabel_onSurveyDone (reading : Reading) (state : AppState) (n : ℕ)
    (rc : Int) (error : Option String) (snapshots : BTreeMap Snapshot)
    (now : Int) :
    SameLabel
      ({ state with surveying := false, surveyN := n }.fillDrift reading snapshots
        now)
      (state.onSurveyDone reading n rc error snapshots now) := by
  rw [AppState.onSurveyDone]
  dsimp only
  split <;> exact sameLabel_setStatus _ _ _

theorem Provenance.of_sameLabel {before after : TracedExplorer}
    (hbefore : Provenance before) (hlabel : SameLabel before.app after.app)
    (hsource : after.source = before.source) : Provenance after := by
  intro expected hexpected
  rw [hlabel.expected] at hexpected
  rw [hsource, hlabel.rev, hlabel.cachedRev, hlabel.generation, hlabel.hint]
  exact hbefore expected hexpected

theorem provenance_of_none {traced : TracedExplorer}
    (hnone : traced.app.expected = none) : Provenance traced := by
  intro expected hexpected
  rw [hnone] at hexpected
  cases hexpected

/-- A new revision comes with its own expectation, or finds none, or is the
revision of the one that is kept. -/
theorem Provenance.adopt {before after : TracedExplorer}
    {rev cachedRev : Option String} {cached : BTreeMap String}
    (hbefore : Provenance before)
    (hexpected : after.app.expected =
      if cacheFresh cachedRev rev then some (Toplevels.ofPaths cached)
      else before.app.expected)
    (hrev : after.app.rev = rev)
    (hgeneration : after.app.generation = before.app.generation)
    (hhint : after.app.driftHint =
      driftHint after.app.expected.isSome after.app.rev after.app.cachedRev)
    (hsource : after.source =
      cacheSource cachedRev rev cached before.app.generation before.source)
    (hmoved : cacheFresh cachedRev rev ∨ before.app.expected = none ∨
      rev = before.app.rev) :
    Provenance after := by
  by_cases hfresh : cacheFresh cachedRev rev = true
  · obtain ⟨shared, hcached, hcurrent, -⟩ := eq_of_cacheFresh hfresh
    rw [if_pos hfresh] at hexpected
    rw [cacheSource, if_pos hfresh] at hsource
    rw [hexpected] at hhint
    intro expected hkept
    rw [hexpected] at hkept
    refine ⟨_, hsource, Option.some.inj hkept, ?_, hgeneration.symm, hhint⟩
    rw [hrev, hcached, hcurrent]
  · rw [if_neg hfresh] at hexpected
    rw [cacheSource, if_neg hfresh] at hsource
    intro expected hkept
    rw [hkept] at hhint
    rw [hexpected] at hkept
    have hsame : rev = before.app.rev := by
      rcases hmoved with hyes | hnone | hsame
      · exact absurd hyes hfresh
      · rw [hnone] at hkept
        cases hkept
      · exact hsame
    obtain ⟨source, hold, htoplevels, hlabel, hsince, -⟩ := hbefore expected hkept
    exact ⟨source, hsource.trans hold, htoplevels,
      hlabel.trans (hsame.symm.trans hrev.symm), hsince.trans hgeneration.symm,
      hhint⟩

/-- An attributed step keeps the provenance. -/
theorem Provenance.step {reading : Reading} {before after : TracedExplorer}
    {action : ExplorerAction} (hbefore : Provenance before)
    (hattributed : Attributed before action)
    (hstep : ExplorerStep reading before action after) : Provenance after := by
  cases hstep with
  | load => exact hbefore.of_sameLabel (sameLabel_requestLoad _) rfl
  | reload =>
      apply provenance_of_none
      exact (sameLabel_requestLoad _).expected
  | inventorySwap =>
      apply provenance_of_none
      exact (sameLabel_requestLoad _).expected
  | loadFinished generation result snapshots now =>
      by_cases hcurrent : generation = before.app.generation
      · subst hcurrent
        cases result with
        | error error =>
            exact hbefore.of_sameLabel
              (sameLabel_onLoadFinished_error reading _ error snapshots now) rfl
        | ok loaded =>
            have hlabel := sameLabel_onLoadFinished_ok reading before.app loaded
              snapshots now
            refine hbefore.adopt hlabel.expected hlabel.rev hlabel.generation ?_
              (if_pos rfl) (hattributed rfl)
            rw [hlabel.hint, hlabel.expected, hlabel.rev, hlabel.cachedRev]
            rfl
      · refine hbefore.of_sameLabel
          (sameLabel_onLoadFinished_stale reading hcurrent _ _ _) ?_
        cases result with
        | error error => rfl
        | ok loaded => exact if_neg hcurrent
  | refresh => exact hbefore.of_sameLabel (sameLabel_refreshDrift _) rfl
  | startPending =>
      exact hbefore.of_sameLabel (sameLabel_startPendingEvalExpected _) rfl
  | evalFinished started result snapshots now hstarted =>
      have hlabel := sameLabel_onDriftEvalFinished reading before.app result
        snapshots now
      cases result with
      | error error => exact provenance_of_none hlabel.expected
      | ok landed =>
          obtain ⟨rev, toplevels⟩ := landed
          rw [Attributed, hstarted, Option.some.injEq] at hattributed
          intro expected hexpected
          rw [hlabel.expected] at hexpected
          refine ⟨_, rfl, Option.some.inj hexpected, hlabel.rev.symm, ?_, ?_⟩
          · exact hattributed.trans hlabel.generation.symm
          · rw [hlabel.hint, hlabel.rev, hlabel.cachedRev]
            rfl
  | surveyProgress n => exact hbefore.of_sameLabel ⟨rfl, rfl, rfl, rfl, rfl⟩ rfl
  | surveyDone n rc error snapshots now =>
      have hlabel := sameLabel_onSurveyDone reading before.app n rc error
        snapshots now
      intro expected hexpected
      rw [hlabel.expected] at hexpected
      obtain ⟨source, hsource, htoplevels, hrev, hgeneration, -⟩ :=
        hbefore expected hexpected
      refine ⟨source, hsource, htoplevels, hrev.trans hlabel.rev.symm,
        hgeneration.trans hlabel.generation.symm, ?_⟩
      rw [hlabel.hint, hlabel.rev, hlabel.cachedRev]
      change driftHint before.app.expected.isSome _ _ = _
      change before.app.expected = _ at hexpected
      rw [hexpected]
      rfl
  | driftLanded rev cachedRev cached snapshots now =>
      have hlabel := sameLabel_setStatus
        ({ before.app with
          rev
          cachedRev
          expected :=
            if cacheFresh cachedRev rev then some (Toplevels.ofPaths cached)
            else before.app.expected }.fillDrift reading snapshots now)
        "drift refreshed (mcp)" false
      refine hbefore.adopt hlabel.expected hlabel.rev hlabel.generation ?_ rfl
        hattributed
      change (AppState.setStatus _ _ _).driftHint = driftHint
        (AppState.setStatus _ _ _).expected.isSome (AppState.setStatus _ _ _).rev
          (AppState.setStatus _ _ _).cachedRev
      rw [hlabel.hint, hlabel.expected, hlabel.rev, hlabel.cachedRev]
      rfl

/-- While every delivered expectation is attributed, what is kept is what the
caption says. -/
theorem provenance_of_attributed (reading : Reading) {traced : TracedExplorer}
    (hreach : Reachable ExplorerInitial (ExplorerStep reading) Attributed traced) :
    Provenance traced := by
  refine hreach.invariant ?_ ?_
  · rintro start rfl
    exact provenance_of_none rfl
  · intro before action after hbefore
    exact hbefore.step

/-! ### An evaluation across a reload -/

def freshTrace : TracedExplorer :=
  { app := AppState.new, evalStarted := none, source := none }

/-- What a load at some revision finds: the contract, and the cache of another
revision, if any. -/
def contractAt (rev : String) (cachedRev : Option String) : LoadedInventory :=
  { inventory := webInventory, rev := some rev, cachedRev, cached := ∅ }

/-- The reload finds the evaluation in flight; the evaluation lands with what it
evaluated before the reload, and the load that follows puts its own revision
over it. -/
theorem crossedReload_reachable :
    ∃ traced, Reachable ExplorerInitial (ExplorerStep plainReading) anyStep
        traced ∧ ¬ Provenance traced := by
  have hstart : Reachable ExplorerInitial (ExplorerStep plainReading) anyStep
      freshTrace :=
    Reachable.initial rfl
  have hloaded := (hstart.step trivial (.load _)).step trivial
    (.loadFinished _ 0 (.ok (contractAt "4f1c" none)) ∅ 0)
  have hreloaded := (hloaded.step trivial (.refresh _)).step trivial (.reload _)
  have hlanded := hreloaded.step trivial
    (.evalFinished _ 0 (.ok (some "4f1c", movedToplevels)) ∅ 0 rfl)
  have hpainted := hlanded.step trivial
    (.loadFinished _ 1 (.ok (contractAt "9ab0" (some "4f1c"))) ∅ 0)
  refine ⟨_, hpainted, ?_⟩
  intro hprovenance
  obtain ⟨source, hsource, -, hrev, -, -⟩ := hprovenance movedToplevels rfl
  cases hsource
  change some "4f1c" = some "9ab0" at hrev
  revert hrev
  decide

/-- Without a reload in between, what lands is what the caption says. -/
theorem landedRefresh_provenance :
    ∃ traced : TracedExplorer, traced.app.expected = some movedToplevels ∧
      Provenance traced := by
  have hnext {before after : TracedExplorer} {action : ExplorerAction}
      (hbefore : Reachable ExplorerInitial (ExplorerStep plainReading) Attributed
        before)
      (hstep : ExplorerStep plainReading before action after)
      (hattributed : Attributed before action) :
      Reachable ExplorerInitial (ExplorerStep plainReading) Attributed after :=
    hbefore.step hattributed hstep
  have hstart : Reachable ExplorerInitial (ExplorerStep plainReading) Attributed
      freshTrace :=
    Reachable.initial rfl
  have hloaded := hnext (hnext hstart (.reload _) trivial)
    (.loadFinished _ 1 (.ok (contractAt "9ab0" (some "4f1c"))) ∅ 0)
      (fun _ => .inr (.inl rfl))
  have hlanded := hnext (hnext hloaded (.refresh _) trivial)
    (.evalFinished _ 1 (.ok (some "9ab0", movedToplevels)) ∅ 0 rfl) rfl
  exact ⟨_, rfl, provenance_of_attributed plainReading hlanded⟩

end Mandala.Explorer
