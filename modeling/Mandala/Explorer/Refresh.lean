import Mandala.Explorer.State
import Mandala.Server.DriftTool

/-!
# One drift refresh

A refresh evaluates the expected toplevels and surveys the hosts at once, and
paints drift as each half lands.  Behind a context the evaluation is the
server's, and its toplevels are read back off the drift entries the server
judged with the snapshots it had.
-/

namespace Mandala.Explorer

open Mandala.Data Mandala.Drift Mandala.Server

/-! ## The evaluation over the context -/

/-- What one drift entry says of the toplevels. -/
def readEntry (expected : Toplevels) (entry : Json) : Toplevels :=
  match entry.getStr "host" with
  | none => expected
  | some host =>
      { paths :=
          match entry.getStr "expected" with
          | some path => expected.paths.insert host path
          | none => expected.paths
        errors :=
          match entry.getStr "eval_error" with
          | some error => expected.errors.insert host error
          | none => expected.errors }

/-- `eval_expected_over_context`, from what the server answered. -/
def evalExpectedOverContext (view : Json) :
    Except String (Option String × Toplevels) :=
  match view.get "eval_error" with
  | some error =>
      .error ("eval failed: " ++
        (error.getStr "error").getD "expected-toplevel eval failed")
  | none =>
      .ok (view.getStr "rev",
        (((view.get "entries").bind Json.asArray).getD []).foldl readEntry
          (Toplevels.ofPaths ∅))

theorem getStr_host (entry : DriftEntry) :
    (entryValue entry).getStr "host" = some entry.host := rfl

theorem getStr_expected (entry : DriftEntry) :
    (entryValue entry).getStr "expected" = entry.expected := by
  obtain ⟨_, _, expected, _, _, _, _, _⟩ := entry
  cases expected <;> rfl

theorem getStr_evalError (entry : DriftEntry) :
    (entryValue entry).getStr "eval_error" = entry.evalError := by
  obtain ⟨_, _, _, _, _, _, _, evalError⟩ := entry
  cases evalError <;> rfl

/-- Reading back the entries of some hosts gives, for each, what its entry
shows. -/
theorem readBack_entries {entryOf : String → DriftEntry}
    (hhost : ∀ host, (entryOf host).host = host) (hosts : List String)
    (start : Toplevels) (host : String) :
    (((hosts.map entryOf).map entryValue).foldl readEntry start).paths[host]? =
        (if host ∈ hosts then (entryOf host).expected else none).or
          start.paths[host]? ∧
      (((hosts.map entryOf).map entryValue).foldl readEntry start).errors[host]? =
        (if host ∈ hosts then (entryOf host).evalError else none).or
          start.errors[host]? := by
  induction hosts generalizing start with
  | nil => simp
  | cons first hosts ih =>
      have hread := ih (readEntry start (entryValue (entryOf first)))
      rw [readEntry, getStr_host, getStr_expected, getStr_evalError, hhost] at hread
      rw [List.map_cons, List.map_cons, List.foldl_cons, readEntry, getStr_host,
        getStr_expected, getStr_evalError, hhost]
      obtain ⟨hpaths, herrors⟩ := hread
      rw [hpaths, herrors]
      by_cases heq : first = host
      · subst heq
        constructor
        · cases (entryOf first).expected <;> by_cases hmem : first ∈ hosts <;>
            simp [hmem]
        · cases (entryOf first).evalError <;> by_cases hmem : first ∈ hosts <;>
            simp [hmem]
      · have hne : ¬ host = first := fun hsame => heq hsame.symm
        constructor
        · cases (entryOf first).expected <;>
            simp [hne, Std.TreeMap.getElem?_insert, heq]
        · cases (entryOf first).evalError <;>
            simp [hne, Std.TreeMap.getElem?_insert, heq]

/-! ## Both halves of a refresh -/

section Converging

variable (reading : Reading)

/-- The drift rows a refresh should end with. -/
def shownDrift (nodes : List String) (snapshots : BTreeMap Snapshot)
    (expected : Toplevels) (now : Int) : List DriftRow :=
  (Drift.compare reading nodes snapshots (some expected) (some defaultMaxAge)
    now).map driftRow

/-- Whichever half lands last, the rows are those of the whole evaluation and
the final snapshots.  The evaluation that lands first is painted over whatever
the survey has written by then. -/
def Converges (state : AppState)
    (result : Except String (Option String × Toplevels)) (evaluated : Toplevels)
    (final : BTreeMap Snapshot) : Prop :=
  ∀ written n rc error earlier now,
    (((state.onDriftEvalFinished reading result written earlier).1).onSurveyDone
        reading n rc error final now).driftRows =
        shownDrift reading state.deployNodes final evaluated now ∧
      (((state.onSurveyDone reading n rc error final earlier).onDriftEvalFinished
        reading result final now).1).driftRows =
        shownDrift reading state.deployNodes final evaluated now

/-- No host that evaluated gets its first snapshot after the server compared. -/
def SurveyedBefore (nodes : List String) (evaluated : Toplevels)
    (seen final : BTreeMap Snapshot) : Prop :=
  ∀ host ∈ nodes, evaluated.paths[host]? ≠ none → seen[host]? = none →
    final[host]? = none

/-- Every evaluated toplevel is a path of the store. -/
def StorePaths (evaluated : Toplevels) : Prop :=
  ∀ (host path : String), evaluated.paths[host]? = some path →
    ∃ name : String, name ≠ "" ∧ path = "/nix/store/" ++ name

theorem driftRows_consumePendingReload (state : AppState) :
    state.consumePendingReload.1.driftRows = state.driftRows := by
  rw [AppState.consumePendingReload]
  split
  · rw [AppState.requestLoad]
    split <;> rfl
  · rfl

theorem inputs_consumePendingReload (state : AppState) :
    state.consumePendingReload.1.inventory = state.inventory ∧
      state.consumePendingReload.1.expected = state.expected := by
  rw [AppState.consumePendingReload]
  split
  · rw [AppState.requestLoad]
    split <;> exact ⟨rfl, rfl⟩
  · exact ⟨rfl, rfl⟩

theorem setStatus_frame (state : AppState) (text : String) (error : Bool) :
    (state.setStatus text error).driftRows = state.driftRows ∧
      (state.setStatus text error).inventory = state.inventory ∧
      (state.setStatus text error).expected = state.expected := by
  rw [AppState.setStatus]
  split <;> exact ⟨rfl, rfl, rfl⟩

/-- The rows a landed survey leaves. -/
theorem driftRows_onSurveyDone (state : AppState) (n : ℕ) (rc : Int)
    (error : Option String) (snapshots : BTreeMap Snapshot) (now : Int) :
    (state.onSurveyDone reading n rc error snapshots now).driftRows =
      (Drift.compare reading state.deployNodes snapshots state.expected
        (some defaultMaxAge) now).map driftRow := by
  rw [AppState.onSurveyDone]
  dsimp only
  split
  · rw [(setStatus_frame _ _ _).1]
    rfl
  · rw [(setStatus_frame _ _ _).1]
    rfl

theorem inputs_onSurveyDone (state : AppState) (n : ℕ) (rc : Int)
    (error : Option String) (snapshots : BTreeMap Snapshot) (now : Int) :
    (state.onSurveyDone reading n rc error snapshots now).inventory =
        state.inventory ∧
      (state.onSurveyDone reading n rc error snapshots now).expected =
        state.expected := by
  rw [AppState.onSurveyDone]
  dsimp only
  split
  · rw [(setStatus_frame _ _ _).2.1, (setStatus_frame _ _ _).2.2]
    exact ⟨rfl, rfl⟩
  · rw [(setStatus_frame _ _ _).2.1, (setStatus_frame _ _ _).2.2]
    exact ⟨rfl, rfl⟩

theorem deployNodes_eq {state other : AppState}
    (hinventory : state.inventory = other.inventory) :
    state.deployNodes = other.deployNodes := by
  rw [AppState.deployNodes, AppState.deployNodes, hinventory]

/-- The rows and inputs a landed evaluation leaves. -/
theorem onDriftEvalFinished_ok (state : AppState) (rev : Option String)
    (expected : Toplevels) (snapshots : BTreeMap Snapshot) (now : Int) :
    let landed :=
      (state.onDriftEvalFinished reading (.ok (rev, expected)) snapshots now).1
    landed.driftRows = shownDrift reading state.deployNodes snapshots expected now ∧
      landed.inventory = state.inventory ∧ landed.expected = some expected := by
  dsimp only
  rw [AppState.onDriftEvalFinished, driftRows_consumePendingReload,
    (inputs_consumePendingReload _).1, (inputs_consumePendingReload _).2]
  split
  · rw [(setStatus_frame _ _ _).1, (setStatus_frame _ _ _).2.1,
      (setStatus_frame _ _ _).2.2]
    exact ⟨rfl, rfl, rfl⟩
  · rw [(setStatus_frame _ _ _).1, (setStatus_frame _ _ _).2.1,
      (setStatus_frame _ _ _).2.2]
    exact ⟨rfl, rfl, rfl⟩

/-- A refresh converges exactly when the toplevels it adopts show the rows that
the evaluated ones show. -/
theorem converges_iff_shown (state : AppState) (rev : Option String)
    (adopted evaluated : Toplevels) (final : BTreeMap Snapshot) :
    Converges reading state (.ok (rev, adopted)) evaluated final ↔
      ∀ now, shownDrift reading state.deployNodes final adopted now =
        shownDrift reading state.deployNodes final evaluated now := by
  have hevalFirst (written : BTreeMap Snapshot) (n : ℕ) (rc : Int)
      (error : Option String) (earlier now : Int) :
      (((state.onDriftEvalFinished reading (.ok (rev, adopted)) written
        earlier).1).onSurveyDone reading n rc error final now).driftRows =
        shownDrift reading state.deployNodes final adopted now := by
    obtain ⟨-, hinventory, hexpected⟩ :=
      onDriftEvalFinished_ok reading state rev adopted written earlier
    rw [driftRows_onSurveyDone, deployNodes_eq hinventory, hexpected]
    rfl
  have hsurveyFirst (n : ℕ) (rc : Int) (error : Option String)
      (earlier now : Int) :
      (((state.onSurveyDone reading n rc error final earlier).onDriftEvalFinished
        reading (.ok (rev, adopted)) final now).1).driftRows =
        shownDrift reading state.deployNodes final adopted now := by
    obtain ⟨hrows, -, -⟩ := onDriftEvalFinished_ok reading
      (state.onSurveyDone reading n rc error final earlier) rev adopted final now
    rw [hrows, deployNodes_eq
      (inputs_onSurveyDone reading state n rc error final earlier).1]
  constructor
  · intro hconverges now
    rw [← hevalFirst ∅ 0 0 none 0 now]
    exact (hconverges ∅ 0 0 none 0 now).1
  · intro hshown written n rc error earlier now
    rw [hevalFirst, hsurveyFirst, hshown now]
    exact ⟨rfl, rfl⟩

/-- Behind a context the explorer adopts what the entries show. -/
theorem evalExpectedOverContext_toolDrift (nodes : List String)
    (inputs : DriftInputs) {evaluated : Toplevels}
    (hevaluated : inputs.evaluation = .ok evaluated) :
    ∃ adopted, evalExpectedOverContext
        (toolDrift reading nodes askEvaluation inputs) = .ok (inputs.rev, adopted) ∧
      ∀ host ∈ nodes,
        adopted.paths[host]? =
            (if inputs.snapshots[host]? = none then none
              else evaluated.paths[host]?) ∧
          adopted.errors[host]? = evaluated.errors[host]? := by
  let entryOf := compareHost reading inputs.snapshots evaluated
    (some defaultMaxAge) inputs.now
  have hentries : Drift.compare reading nodes inputs.snapshots
      (inputs.expected askEvaluation) (some defaultMaxAge) inputs.now =
        (Ordering.sortNames nodes).map entryOf := by
    rw [DriftInputs.expected, hevaluated]
    rfl
  have hhost (host : String) : (entryOf host).host = host :=
    host_compareHost _ _ _ _ _ host
  refine ⟨((((Ordering.sortNames nodes).map entryOf).map entryValue).foldl
    readEntry (Toplevels.ofPaths ∅)), ?_, ?_⟩
  · rw [evalExpectedOverContext, toolDrift_evalError, hevaluated]
    dsimp only
    rw [Json.getStr, toolDrift_rev, toolDrift_entries, hentries]
    cases inputs.rev <;> rfl
  · intro host hmem
    obtain ⟨hpaths, herrors⟩ := readBack_entries hhost
      (Ordering.sortNames nodes) (Toplevels.ofPaths ∅) host
    rw [hpaths, herrors, if_pos (Ordering.mem_sortNames.mpr hmem),
      if_pos (Ordering.mem_sortNames.mpr hmem)]
    change (compareHost _ _ _ _ _ host).expected.or none = _ ∧
      (compareHost _ _ _ _ _ host).evalError.or none = _
    rw [Option.or_none, Option.or_none, compareHost]
    cases inputs.snapshots[host]? with
    | none => exact ⟨rfl, rfl⟩
    | some snapshot => exact ⟨rfl, rfl⟩

theorem shortStore_ne {name : String} (hname : name ≠ "") :
    shortStore (some ("/nix/store/" ++ name)) ≠ "" := by
  have hchars : name.toList ≠ [] := by
    intro heq
    exact hname (String.toList_eq_nil_iff.mp heq)
  rw [shortStore, Option.getD_some, String.toList_append,
    List.dropPrefix?_append_of_beq _ BEq.rfl, Option.getD_some]
  intro heq
  rw [String.ofList_eq_empty_iff, List.take_eq_nil_iff] at heq
  rcases heq with hzero | hnil
  · cases hzero
  · exact hchars hnil

/-- A refresh converges locally always, and behind a context exactly when no
evaluated host is surveyed for the first time after the server compared. -/
theorem refresh_converges_iff (state : AppState) (evaluated : Toplevels)
    (hstore : StorePaths evaluated) (rev : Option String) (inputs : DriftInputs)
    (final : BTreeMap Snapshot) :
    (Converges reading state (.ok (rev, evaluated)) evaluated final ∧
      Converges reading state
        (evalExpectedOverContext
          (toolDrift reading state.deployNodes askEvaluation
            { inputs with evaluation := .ok evaluated })) evaluated final) ↔
      SurveyedBefore state.deployNodes evaluated inputs.snapshots final := by
  obtain ⟨adopted, hadopted, hfields⟩ := evalExpectedOverContext_toolDrift reading
    state.deployNodes { inputs with evaluation := .ok evaluated } rfl
  rw [hadopted, converges_iff_shown, converges_iff_shown]
  constructor
  · intro hconverges host hmem hpath hseen
    obtain ⟨path, hpath⟩ := Option.ne_none_iff_exists'.mp hpath
    obtain ⟨hpaths, -⟩ := hfields host hmem
    rw [if_pos hseen] at hpaths
    by_contra hfinal
    obtain ⟨snapshot, hfinal⟩ := Option.ne_none_iff_exists'.mp hfinal
    have hrow := hconverges.2 0
    rw [shownDrift, shownDrift, Drift.compare, Drift.compare, List.map_map,
      List.map_map, List.map_inj_left] at hrow
    have hexpected := congrArg DriftRow.expected
      (hrow host (Ordering.mem_sortNames.mpr hmem))
    simp only [Function.comp_apply, driftRow, compareHost, hfinal,
      Option.getD_some, hpaths, hpath] at hexpected
    obtain ⟨name, hname, rfl⟩ := hstore host path hpath
    exact shortStore_ne hname hexpected.symm
  · intro hbefore
    refine ⟨fun _ => rfl, ?_⟩
    intro now
    rw [shownDrift, shownDrift, Drift.compare, Drift.compare]
    apply congrArg (List.map driftRow)
    apply List.map_congr_left
    intro host hmem
    rw [Ordering.mem_sortNames] at hmem
    obtain ⟨hpaths, herrors⟩ := hfields host hmem
    rw [Option.getD_some, Option.getD_some, compareHost, compareHost, herrors,
      hpaths]
    dsimp only
    cases hfinal : final[host]? with
    | none => rfl
    | some snapshot =>
        dsimp only
        by_cases hseen : inputs.snapshots[host]? = none
        · have hpath : evaluated.paths[host]? = none := by
            by_contra hpath
            rw [hbefore host hmem hpath hseen] at hfinal
            cases hfinal
          rw [hpath, ite_self]
        · rw [if_neg hseen]

end Converging

/-! ### The first survey of a host -/

/-- Nothing here has a timestamp, a number that is no integer, or boot facts. -/
def plainReading : Reading :=
  { parseIso := fun _ => none
    floatTruthy := fun _ => true
    sameValue := fun _ _ => true }

def webInventory : Fleet.Inventory :=
  { aggregate :=
      { schemaVersion := .int 1
        members := (∅ : BTreeMap Fleet.Member).insert "web"
          { fields := [("name", .string "web")] }
        groups := ∅
        extra := [("projections", .object
          [("deploy", .object [("nodes", .array [.string "web"])])])] }
    controllerPlatform := none
    checked := by rfl }

/-- An explorer that has just started both halves of a refresh. -/
def refreshing : AppState :=
  { AppState.new with
    inventory := some webInventory
    busy := true
    expectedEvalRunning := true
    surveying := true }

def movedToplevels : Toplevels :=
  .ofPaths ((∅ : BTreeMap String).insert "web" "/nix/store/new-system")

def runsOld : Snapshot :=
  { current := some "/nix/store/old-system"
    booted := none
    systemProfile := none
    capturedAt := none
    unreachable := .null
    currentBoot := .null
    bootedBoot := .null }

def surveyedWeb : BTreeMap Snapshot := (∅ : BTreeMap Snapshot).insert "web" runsOld

def seenWith (snapshots : BTreeMap Snapshot) : DriftInputs :=
  { survey := { stdout := "", stderr := "", code := 0 }
    rev := some "9ab0"
    cachedRev := none
    cached := ∅
    evaluation := .ok movedToplevels
    snapshots
    now := 0 }

theorem storePaths_movedToplevels : StorePaths movedToplevels := by
  intro host path hpath
  change ((∅ : BTreeMap String).insert "web" "/nix/store/new-system")[host]? = _
    at hpath
  rw [Std.TreeMap.getElem?_insert] at hpath
  split at hpath
  · cases hpath
    exact ⟨"new-system", by decide, by decide⟩
  · cases hpath

/-- The server compares before the first survey of the host: the explorer then
shows it in sync, whatever it runs. -/
theorem firstSurvey_diverges :
    ¬ Converges plainReading refreshing
      (evalExpectedOverContext
        (toolDrift plainReading refreshing.deployNodes askEvaluation (seenWith ∅)))
      movedToplevels surveyedWeb := by
  intro hconverges
  have hrows := (hconverges ∅ 1 0 none 0 0).1
  revert hrows
  decide +kernel

/-- A host that was surveyed before shows its drift in either order. -/
theorem surveyedWeb_converges :
    Converges plainReading refreshing (.ok (some "9ab0", movedToplevels))
        movedToplevels surveyedWeb ∧
      Converges plainReading refreshing
        (evalExpectedOverContext
          (toolDrift plainReading refreshing.deployNodes askEvaluation
            (seenWith surveyedWeb))) movedToplevels surveyedWeb := by
  apply (refresh_converges_iff plainReading refreshing movedToplevels
    storePaths_movedToplevels (some "9ab0") (seenWith surveyedWeb)
    surveyedWeb).mpr
  intro host _ _ hseen
  exact hseen

end Mandala.Explorer
