import Mandala.Core.Ordering
import Mandala.Core.Replay
import Mandala.Forest.BuildForest
import Mathlib.Data.Finset.Basic
import Mathlib.Tactic.IntervalCases

/-!
# The retained part of a build log

The build stream keeps a subset of Nix's records: the starts that matter, the
stops and diagnostic results of those activities, and warnings and errors.  A
forest fed that subset shows the same work as one fed every record.
-/

namespace Mandala.Forest

open Mandala.Data Mandala.Ordering Mandala.Replay

/-! ## The filter -/

/-- The start codes kept: queries for path infos are most of the chatter. -/
def retainedStart (code : Int) : Bool :=
  (100 ≤ code && code ≤ 105) || code = 108 || (110 ≤ code && code ≤ 112)

/-- The result codes kept: phases, progress, expectations and diagnostics, but
no log lines. -/
def retainedResult (code : Int) : Bool :=
  (102 ≤ code && code ≤ 106) || code = 108

/-- `BuildLogFilter::retain`, with the activities it follows. -/
def retain (fromStr : List Char → Option NixMessage) (activities : Finset ℕ)
    (line : List Char) : Finset ℕ × Bool :=
  match parseNixLine fromStr line with
  | .record record =>
      let id := record.id.getD 0
      if record.action = "start" then
        if record.typeCode.any retainedStart then (insert id activities, true)
        else (activities, false)
      else if record.action = "stop" then
        (activities.erase id, decide (id ∈ activities))
      else if record.action = "result" then
        (activities,
          decide (id ∈ activities) && record.typeCode.any retainedResult)
      else if record.action = "msg" then
        (activities, record.level.any (· ≤ 1))
      else (activities, false)
  | _ => (activities, false)

/-! ## A well-formed stream -/

/-- Starts, stops and results carry an id, and a start's id is not live. -/
def Allowed (fromStr : List Char → Option NixMessage) (live : Set ℕ)
    (line : List Char) : Prop :=
  match parseNixLine fromStr line with
  | .record record =>
      if record.action = "start" then ∃ id, record.id = some id ∧ id ∉ live
      else if record.action = "stop" ∨ record.action = "result" then
        ∃ id, record.id = some id
      else True
  | _ => True

/-- The ids that are live behind a line. -/
def liveAfter (fromStr : List Char → Option NixMessage) (live : Set ℕ)
    (line : List Char) : Set ℕ :=
  match parseNixLine fromStr line with
  | .record record =>
      if record.action = "start" then live ∪ {id | record.id = some id}
      else if record.action = "stop" then live \ {id | record.id = some id}
      else live
  | _ => live

/-- Every start, stop and result carries an id, and no id is reused while it is
live. -/
def WellFormed (fromStr : List Char → Option NixMessage)
    (lines : List (List Char)) : Prop :=
  Disciplined (Allowed fromStr) (liveAfter fromStr) ∅ lines

/-! ## What the two forests share -/

/-- The kinds of activity the filter follows. -/
def ActivityType.retained : ActivityType → Bool
  | unknown | optimiseStore | verifyPaths | queryPathInfo | other _ => false
  | _ => true

/-- A status that says something about work on a node. -/
def trackedStatus : DerivationStatus → Option DerivationStatus
  | .unknown | .planned => none
  | status => some status

def BuildForest.tracked (forest : BuildForest) (path : String) :
    Option DerivationStatus :=
  trackedStatus (forest.nodes.getD path .default).status

/-- The two forests agree on everything but the activities. -/
structure Agree (whole replayed : BuildForest) : Prop where
  nodes : ∀ path, whole.tracked path = replayed.tracked path
  outputs : whole.outputToDrv = replayed.outputToDrv
  errors : whole.errors = replayed.errors
  downloads : whole.completedDownloads = replayed.completedDownloads
  substitutions :
    whole.completedSubstitutions = replayed.completedSubstitutions

theorem Agree.symm {whole replayed : BuildForest} (hagree : Agree whole replayed) :
    Agree replayed whole where
  nodes path := (hagree.nodes path).symm
  outputs := hagree.outputs.symm
  errors := hagree.errors.symm
  downloads := hagree.downloads.symm
  substitutions := hagree.substitutions.symm

theorem Agree.trans {first second third : BuildForest}
    (hfirst : Agree first second) (hsecond : Agree second third) :
    Agree first third where
  nodes path := (hfirst.nodes path).trans (hsecond.nodes path)
  outputs := hfirst.outputs.trans hsecond.outputs
  errors := hfirst.errors.trans hsecond.errors
  downloads := hfirst.downloads.trans hsecond.downloads
  substitutions := hfirst.substitutions.trans hsecond.substitutions

/-! ## Changes of a node -/

section Nodes

variable {whole replayed : BuildForest}

theorem tracked_updateNode (forest : BuildForest) (path other : String)
    (change : NodeState → NodeState) :
    (forest.updateNode path change).tracked other =
      if path = other then
        trackedStatus (change (forest.nodes.getD path .default)).status
      else forest.tracked other := by
  rw [BuildForest.tracked, BuildForest.updateNode, Std.TreeMap.getD_insert]
  by_cases heq : path = other
  · simp [heq]
  · simp [heq, BuildForest.tracked]

/-- Changes that depend on the tracked status alone keep the agreement. -/
theorem Agree.updateNode (hagree : Agree whole replayed) (path : String)
    {change change' : NodeState → NodeState}
    (hchange : ∀ left right : NodeState,
      trackedStatus left.status = trackedStatus right.status →
        trackedStatus (change left).status =
          trackedStatus (change' right).status) :
    Agree (whole.updateNode path change) (replayed.updateNode path change') where
  nodes other := by
    rw [tracked_updateNode, tracked_updateNode, hchange _ _ (hagree.nodes path),
      hagree.nodes other]
  outputs := hagree.outputs
  errors := hagree.errors
  downloads := hagree.downloads
  substitutions := hagree.substitutions

/-- A change that leaves the tracked status alone is not seen. -/
theorem agree_updateNode_self (forest : BuildForest) (path : String)
    {change : NodeState → NodeState}
    (hchange : ∀ node, trackedStatus (change node).status =
      trackedStatus node.status) :
    Agree (forest.updateNode path change) forest where
  nodes other := by
    rw [tracked_updateNode, hchange]
    split
    · next heq => rw [heq, BuildForest.tracked]
    · rfl
  outputs := rfl
  errors := rfl
  downloads := rfl
  substitutions := rfl

theorem trackedStatus_settle (now now' : ℕ) (left right : NodeState)
    (hsame : trackedStatus left.status = trackedStatus right.status) :
    trackedStatus (BuildForest.settle now left).status =
      trackedStatus (BuildForest.settle now' right).status := by
  have hfailed : left.status = .failed ↔ right.status = .failed := by
    constructor
    · intro heq
      rw [heq] at hsame
      cases hstatus : right.status <;> rw [hstatus] at hsame <;> cases hsame
    · intro heq
      rw [heq] at hsame
      cases hstatus : left.status <;> rw [hstatus] at hsame <;> cases hsame
  by_cases hleft : left.status = .failed
  · rw [BuildForest.settle, if_pos hleft, BuildForest.settle,
      if_pos (hfailed.mp hleft), hsame]
  · rw [BuildForest.settle, if_neg hleft, BuildForest.settle,
      if_neg (mt hfailed.mpr hleft)]

theorem trackedStatus_plan (node : NodeState) :
    trackedStatus (BuildForest.plan node).status = trackedStatus node.status := by
  rw [BuildForest.plan]
  split
  · next heq => rw [heq]; rfl
  · rfl

theorem Agree.addPending (hagree : Agree whole replayed) (path path' : String) :
    Agree (whole.addPending path) (replayed.addPending path') :=
  ⟨hagree.nodes, hagree.outputs, hagree.errors, hagree.downloads,
    hagree.substitutions⟩

theorem Agree.markTransferNode (hagree : Agree whole replayed) (now now' : ℕ)
    (output : Option String) (status : DerivationStatus) (host : Option String) :
    Agree (whole.markTransferNode now output status host)
      (replayed.markTransferNode now' output status host) := by
  rw [BuildForest.markTransferNode, BuildForest.markTransferNode, hagree.outputs]
  split
  · exact hagree
  · exact hagree.updateNode _ fun _ _ _ => rfl

theorem Agree.startNode (hagree : Agree whole replayed) (now now' : ℕ)
    (activity : ActiveActivity) :
    Agree (whole.startNode now activity) (replayed.startNode now' activity) := by
  rw [BuildForest.startNode, BuildForest.startNode]
  split
  · split
    · exact hagree
    · next path _ =>
        apply Agree.addPending
        apply hagree.updateNode
        intro _ _ _
        rfl
  · exact hagree.markTransferNode now now' _ _ _
  · exact hagree.markTransferNode now now' _ _ _
  · exact hagree.markTransferNode now now' _ _ _
  · exact hagree

/-- A settled output keeps the agreement. -/
theorem Agree.settleOutput (hagree : Agree whole replayed) (now now' : ℕ)
    (output : Option String) :
    Agree
      (match output.bind (whole.outputToDrv[·]?) with
        | none => whole
        | some path => whole.updateNode path (BuildForest.settle now))
      (match output.bind (replayed.outputToDrv[·]?) with
        | none => replayed
        | some path => replayed.updateNode path (BuildForest.settle now')) := by
  rw [hagree.outputs]
  split
  · exact hagree
  · exact hagree.updateNode _ (trackedStatus_settle now now')

theorem Agree.stopNode (hagree : Agree whole replayed) (now now' : ℕ)
    (activity : ActiveActivity) :
    Agree (whole.stopNode now activity) (replayed.stopNode now' activity) := by
  have hsettled := hagree.settleOutput now now' activity.path
  rw [BuildForest.stopNode, BuildForest.stopNode]
  cases activity.kind with
  | build =>
      dsimp only
      split
      · exact hagree
      · exact hagree.updateNode _ (trackedStatus_settle now now')
  | copyPath =>
      exact ⟨hsettled.nodes, hsettled.outputs, hsettled.errors,
        congrArg saturatingSucc hsettled.downloads, hsettled.substitutions⟩
  | substitute =>
      exact ⟨hsettled.nodes, hsettled.outputs, hsettled.errors,
        hsettled.downloads, congrArg saturatingSucc hsettled.substitutions⟩
  | fileTransfer => exact hsettled
  | _ => exact hagree

theorem agree_updateActivity (forest : BuildForest) (id : ℕ)
    (change : ActiveActivity → ActiveActivity) :
    Agree (forest.updateActivity id change) forest := by
  rw [BuildForest.updateActivity]
  split <;> exact ⟨fun _ => rfl, rfl, rfl, rfl, rfl⟩

theorem agree_pushLog (forest : BuildForest) (path text : String) :
    Agree (forest.pushLog path text) forest := by
  let logged (node : NodeState) : NodeState :=
    { node with
      lastActivity := some text
      logTail := pushBounded node.logTail text derivationLogTailLimit }
  have hlogged : Agree (forest.updateNode path logged) forest :=
    agree_updateNode_self forest path fun _ => rfl
  exact ⟨hlogged.nodes, rfl, rfl, rfl, rfl⟩

/-- No result changes what is tracked of a node. -/
theorem agree_report (forest : BuildForest) (id : ℕ) (path : Option String)
    (kind : Option ResultType) (fields : List Json) :
    Agree (forest.report id path kind fields) forest := by
  have hself : Agree forest forest := ⟨fun _ => rfl, rfl, rfl, rfl, rfl⟩
  rw [BuildForest.report.eq_def]
  split
  · split
    · exact agree_pushLog _ _ _
    · exact hself
  · split
    · exact agree_pushLog _ _ _
    · exact hself
  · split
    · exact agree_updateNode_self _ _ fun _ => rfl
    · exact hself
  · split
    · exact agree_updateNode_self _ _ fun _ => rfl
    · exact hself
  · split
    · exact hself
    · exact agree_updateActivity _ _ _
  · split
    · exact hself
    · exact agree_updateActivity _ _ _
  · exact hself

theorem agree_countResultType (forest : BuildForest) (kind : Option ResultType) :
    Agree (forest.countResultType kind) forest := by
  rw [BuildForest.countResultType.eq_def]
  split <;> exact ⟨fun _ => rfl, rfl, rfl, rfl, rfl⟩

theorem agree_result (forest : BuildForest) (record : NixMessage) :
    Agree (forest.result record) forest := by
  have hcounted := agree_countResultType forest record.resultType
  rw [BuildForest.result]
  split
  · exact hcounted
  · split
    · exact hcounted
    · exact (agree_report _ _ _ _ _).trans hcounted

theorem Agree.failAll (hagree : Agree whole replayed) (now now' : ℕ)
    (paths : List String) :
    Agree
      (paths.foldl (fun forest path =>
        forest.updateNode path (BuildForest.fail now)) whole)
      (paths.foldl (fun forest path =>
        forest.updateNode path (BuildForest.fail now')) replayed) := by
  induction paths generalizing whole replayed with
  | nil => exact hagree
  | cons path paths ih =>
      apply ih
      apply hagree.updateNode
      intro _ _ _
      rfl

theorem agree_planAll (forest : BuildForest) (paths : List String) :
    Agree
      (paths.foldl (fun forest path =>
        (forest.updateNode path BuildForest.plan).addPending path) forest)
      forest := by
  induction paths generalizing forest with
  | nil => exact ⟨fun _ => rfl, rfl, rfl, rfl, rfl⟩
  | cons path paths ih =>
      have hplanned := agree_updateNode_self forest path trackedStatus_plan
      exact (ih _).trans ⟨hplanned.nodes, hplanned.outputs, hplanned.errors,
        hplanned.downloads, hplanned.substitutions⟩

/-- A message that is no error is not seen. -/
theorem agree_message (forest : BuildForest) (now : ℕ) {record : NixMessage}
    (hlevel : record.level ≠ some 0) :
    Agree (forest.message now record) forest := by
  rw [BuildForest.message]
  split
  · exact ⟨fun _ => rfl, rfl, rfl, rfl, rfl⟩
  · rw [if_neg hlevel]
    exact agree_planAll forest _

theorem Agree.message (hagree : Agree whole replayed) (now now' : ℕ)
    (record : NixMessage) :
    Agree (whole.message now record) (replayed.message now' record) := by
  by_cases hlevel : record.level = some 0
  · rw [BuildForest.message, BuildForest.message]
    split
    · exact hagree
    · next text _ =>
        rw [if_pos hlevel, if_pos hlevel]
        apply Agree.failAll
        exact ⟨hagree.nodes, hagree.outputs,
          congrArg (· ++ [text]) hagree.errors, hagree.downloads,
          hagree.substitutions⟩
  · exact ((agree_message whole now hlevel).trans hagree).trans
      (agree_message replayed now' hlevel).symm

end Nodes

/-! ## Changes of the activities -/

section Activities

theorem activities_markTransferNode (forest : BuildForest) (now : ℕ)
    (output : Option String) (status : DerivationStatus) (host : Option String) :
    (forest.markTransferNode now output status host).activities =
      forest.activities := by
  rw [BuildForest.markTransferNode]
  split <;> rfl

theorem activities_startNode (forest : BuildForest) (now : ℕ)
    (activity : ActiveActivity) :
    (forest.startNode now activity).activities = forest.activities := by
  rw [BuildForest.startNode.eq_def]
  split
  · split <;> rfl
  · exact activities_markTransferNode _ _ _ _ _
  · exact activities_markTransferNode _ _ _ _ _
  · exact activities_markTransferNode _ _ _ _ _
  · rfl

theorem activities_stopNode (forest : BuildForest) (now : ℕ)
    (activity : ActiveActivity) :
    (forest.stopNode now activity).activities = forest.activities := by
  have hsettled : (match activity.path.bind (forest.outputToDrv[·]?) with
      | none => forest
      | some path => forest.updateNode path
          (BuildForest.settle now)).activities = forest.activities := by
    split <;> rfl
  rw [BuildForest.stopNode.eq_def]
  cases activity.kind with
  | build =>
      dsimp only
      split <;> rfl
  | copyPath => exact hsettled
  | fileTransfer => exact hsettled
  | substitute => exact hsettled
  | _ => rfl

theorem activities_message (forest : BuildForest) (now : ℕ)
    (record : NixMessage) :
    (forest.message now record).activities = forest.activities := by
  have hfold {change : BuildForest → String → BuildForest}
      (hchange : ∀ forest path, (change forest path).activities =
        forest.activities) (start : BuildForest) (paths : List String) :
      (paths.foldl change start).activities = start.activities := by
    induction paths generalizing start with
    | nil => rfl
    | cons path paths ih => rw [List.foldl_cons, ih, hchange]
  rw [BuildForest.message]
  split
  · rfl
  · dsimp only
    split
    · refine (hfold ?_ _ _).trans rfl
      intro _ _
      rfl
    · refine hfold ?_ _ _
      intro _ _
      rfl

theorem getElem?_activities_start (forest : BuildForest) (now : ℕ)
    {record : NixMessage} {id : ℕ} (hid : record.id = some id) (other : ℕ) :
    (forest.start now record).activities[other]? =
      if other = id then some (BuildForest.activityOf record)
      else forest.activities[other]? := by
  have hcounted (kind : ActivityType) :
      (forest.countActivityType kind).activities = forest.activities := by
    rw [BuildForest.countActivityType.eq_def]
    split <;> rfl
  rw [BuildForest.start, hid]
  dsimp only
  rw [activities_startNode, hcounted, Std.TreeMap.getElem?_insert]
  by_cases heq : other = id
  · simp [heq]
  · simp [heq, Ne.symm heq]

theorem getElem?_activities_stop (forest : BuildForest) (now id other : ℕ) :
    (forest.stop now (some id)).activities[other]? =
      if other = id then none else forest.activities[other]? := by
  rw [BuildForest.stop.eq_def]
  dsimp only
  cases hactivity : forest.activities[id]? with
  | none =>
      dsimp only
      split
      · next heq => rw [heq, hactivity]
      · rfl
  | some activity =>
      dsimp only
      rw [activities_stopNode, Std.TreeMap.getElem?_erase]
      by_cases heq : other = id
      · simp [heq]
      · simp [heq, Ne.symm heq]

/-- What a result does to the activity it reports on. -/
def reported (kind : Option ResultType) (fields : List Json)
    (activity : ActiveActivity) : ActiveActivity :=
  match kind with
  | some .progress =>
      match activityProgress fields with
      | none => activity
      | some progress => { activity with progress := some progress }
  | some .setExpected =>
      match activityExpectation fields with
      | none => activity
      | some expectation => activity.expect expectation
  | _ => activity

theorem kind_reported (kind : Option ResultType) (fields : List Json)
    (activity : ActiveActivity) :
    (reported kind fields activity).kind = activity.kind := by
  rw [reported.eq_def]
  split
  · split <;> rfl
  · split <;> rfl
  · rfl

theorem getElem?_activities_updateActivity (forest : BuildForest) (id : ℕ)
    (change : ActiveActivity → ActiveActivity) (other : ℕ) :
    (forest.updateActivity id change).activities[other]? =
      if other = id then forest.activities[id]?.map change
      else forest.activities[other]? := by
  rw [BuildForest.updateActivity]
  cases hactivity : forest.activities[id]? with
  | none =>
      dsimp only
      split
      · next heq => rw [heq, hactivity]; rfl
      · rfl
  | some activity =>
      dsimp only
      rw [Std.TreeMap.getElem?_insert]
      by_cases heq : other = id
      · simp [heq]
      · simp [heq, Ne.symm heq]

theorem getElem?_activities_report (forest : BuildForest) (id : ℕ)
    (path : Option String) (kind : Option ResultType) (fields : List Json)
    (other : ℕ) :
    (forest.report id path kind fields).activities[other]? =
      if other = id then forest.activities[id]?.map (reported kind fields)
      else forest.activities[other]? := by
  have hquiet {after : BuildForest}
      (hactivities : after.activities = forest.activities) :
      after.activities[other]? =
        if other = id then forest.activities[id]?.map fun activity => activity
        else forest.activities[other]? := by
    rw [hactivities, Option.map_id']
    split
    · next heq => rw [heq]
    · rfl
  rw [BuildForest.report.eq_def]
  split
  · split <;> exact hquiet rfl
  · split <;> exact hquiet rfl
  · split <;> exact hquiet rfl
  · split <;> exact hquiet rfl
  · cases hprogress : activityProgress fields with
    | none =>
        have hreported : reported (some .progress) fields =
            fun activity => activity := by
          funext activity
          rw [reported, hprogress]
        rw [hreported]
        exact hquiet rfl
    | some progress =>
        have hreported : reported (some .progress) fields =
            fun activity => { activity with progress := some progress } := by
          funext activity
          rw [reported, hprogress]
        rw [hreported]
        exact getElem?_activities_updateActivity _ _ _ _
  · cases hexpectation : activityExpectation fields with
    | none =>
        have hreported : reported (some .setExpected) fields =
            fun activity => activity := by
          funext activity
          rw [reported, hexpectation]
        rw [hreported]
        exact hquiet rfl
    | some expectation =>
        have hreported : reported (some .setExpected) fields =
            (·.expect expectation) := by
          funext activity
          rw [reported, hexpectation]
        rw [hreported]
        exact getElem?_activities_updateActivity _ _ _ _
  · next hprogress hexpected =>
      have hreported : reported kind fields = fun activity => activity := by
        funext activity
        rw [reported.eq_def]
        split
        · exact absurd rfl hprogress
        · exact absurd rfl hexpected
        · rfl
      rw [hreported]
      exact hquiet rfl

theorem getElem?_activities_result (forest : BuildForest) {record : NixMessage}
    {id : ℕ} (hid : record.id = some id) (other : ℕ) :
    (forest.result record).activities[other]? =
      if other = id then
        forest.activities[id]?.map (reported record.resultType record.fields)
      else forest.activities[other]? := by
  have hcounted : (forest.countResultType record.resultType).activities =
      forest.activities := by
    rw [BuildForest.countResultType.eq_def]
    split <;> rfl
  rw [BuildForest.result, hid]
  dsimp only
  rw [hcounted]
  cases hactivity : forest.activities[id]? with
  | none =>
      dsimp only
      rw [hcounted]
      split
      · next heq => rw [heq, hactivity]; rfl
      · rfl
  | some activity =>
      dsimp only
      rw [getElem?_activities_report, hcounted, hactivity]

end Activities

/-! ## What the filter drops -/

theorem retained_fromCode (code : Int) :
    (ActivityType.fromCode code).retained = retainedStart code := by
  by_cases hknown : code = 0 ∨ 100 ≤ code ∧ code ≤ 112
  · rcases hknown with rfl | ⟨hlow, hhigh⟩
    · rfl
    · interval_cases code <;> rfl
  · have hother : ActivityType.fromCode code = .other code := by
      rw [ActivityType.fromCode]
      iterate 14 rw [if_neg (by omega)]
    have hdropped : ¬((100 ≤ code ∧ code ≤ 105 ∨ code = 108) ∨
        110 ≤ code ∧ code ≤ 112) := by
      omega
    have hcode : retainedStart code = false := by
      simpa [retainedStart] using hdropped
    rw [hother, hcode]
    rfl

theorem retained_activityOf (record : NixMessage) :
    (BuildForest.activityOf record).kind.retained =
      record.typeCode.any retainedStart := by
  change (record.activityType.getD .unknown).retained = _
  rw [NixMessage.activityType]
  cases record.typeCode with
  | none => rfl
  | some code => exact retained_fromCode code

theorem retainedResult_of_changes {code : Int}
    (hchanges : ResultType.fromCode code = .progress ∨
      ResultType.fromCode code = .setExpected) :
    retainedResult code := by
  by_cases hknown : 100 ≤ code ∧ code ≤ 108
  · obtain ⟨hlow, hhigh⟩ := hknown
    interval_cases code <;> simp_all [ResultType.fromCode, retainedResult]
  · have hother : ResultType.fromCode code = .other code := by
      rw [ResultType.fromCode]
      iterate 9 rw [if_neg (by omega)]
    rw [hother] at hchanges
    rcases hchanges with heq | heq <;> cases heq

/-- A result whose code is dropped leaves its activity as it is. -/
theorem reported_of_dropped {record : NixMessage}
    (hdropped : record.typeCode.any retainedResult = false) :
    reported record.resultType record.fields = id := by
  funext activity
  rw [reported.eq_def]
  rw [NixMessage.resultType]
  cases hcode : record.typeCode with
  | none => rfl
  | some code =>
      have hother : ¬(ResultType.fromCode code = .progress ∨
          ResultType.fromCode code = .setExpected) := by
        intro hchanges
        rw [hcode, Option.any_some, retainedResult_of_changes hchanges] at hdropped
        cases hdropped
      rw [Option.map_some]
      split
      · next heq => exact absurd (.inl (Option.some.inj heq)) hother
      · next heq => exact absurd (.inr (Option.some.inj heq)) hother
      · rfl

/-- Activities the filter does not follow touch no node when they start. -/
theorem startNode_of_not_retained (forest : BuildForest) (now : ℕ)
    {activity : ActiveActivity} (hkind : activity.kind.retained = false) :
    forest.startNode now activity = forest := by
  rw [BuildForest.startNode.eq_def]
  cases hactivity : activity.kind <;> rw [hactivity] at hkind <;>
    first | rfl | cases hkind

theorem stopNode_of_not_retained (forest : BuildForest) (now : ℕ)
    {activity : ActiveActivity} (hkind : activity.kind.retained = false) :
    forest.stopNode now activity = forest := by
  rw [BuildForest.stopNode.eq_def]
  cases hactivity : activity.kind <;> rw [hactivity] at hkind <;>
    first | rfl | cases hkind

/-! ## The two runs -/

/-- The replaying forest knows the followed activities of the whole one, and
agrees with it elsewhere. -/
structure Related (live : Set ℕ) (followed : Finset ℕ)
    (whole replayed : BuildForest) : Prop where
  agree : Agree whole replayed
  activities : ∀ id : ℕ, replayed.activities[id]? =
    whole.activities[id]?.filter fun activity : ActiveActivity =>
      activity.kind.retained
  followed : ∀ id : ℕ, id ∈ followed ↔ (replayed.activities[id]?).isSome
  live : ∀ id : ℕ, (whole.activities[id]?).isSome → id ∈ live

section Steps

variable {live : Set ℕ} {followed : Finset ℕ} {whole replayed : BuildForest}

theorem Related.unknown_of_not_followed
    (hrelated : Related live followed whole replayed) {id : ℕ}
    (hid : id ∉ followed) : replayed.activities[id]? = none := by
  rw [hrelated.followed, Bool.not_eq_true, Option.isSome_eq_false_iff,
    Option.isNone_iff_eq_none] at hid
  exact hid

/-- A followed activity is the same in both forests. -/
theorem Related.activity_of_followed
    (hrelated : Related live followed whole replayed) {id : ℕ}
    (hid : id ∈ followed) :
    ∃ activity, replayed.activities[id]? = some activity ∧
      whole.activities[id]? = some activity ∧ activity.kind.retained := by
  rw [hrelated.followed, Option.isSome_iff_exists] at hid
  obtain ⟨activity, hreplayed⟩ := hid
  have hwhole := hreplayed
  rw [hrelated.activities, Option.filter_eq_some_iff] at hwhole
  exact ⟨activity, hreplayed, hwhole.1, hwhole.2⟩

/-- The counters of the two forests are their own. -/
theorem Related.of_same_core (hrelated : Related live followed whole replayed)
    {whole' replayed' : BuildForest} (hwhole : Agree whole' whole)
    (hreplayed : Agree replayed' replayed)
    (hactivities : whole'.activities = whole.activities)
    (hactivities' : replayed'.activities = replayed.activities) :
    Related live followed whole' replayed' where
  agree := (hwhole.trans hrelated.agree).trans hreplayed.symm
  activities id := by
    rw [hactivities, hactivities']
    exact hrelated.activities id
  followed id := by
    rw [hactivities']
    exact hrelated.followed id
  live id := by
    rw [hactivities]
    exact hrelated.live id

theorem agree_start (forest : BuildForest) (now : ℕ) {record : NixMessage}
    (hkind : (BuildForest.activityOf record).kind.retained = false) :
    Agree (forest.start now record) forest := by
  rw [BuildForest.start]
  split
  · exact ⟨fun _ => rfl, rfl, rfl, rfl, rfl⟩
  · dsimp only
    rw [startNode_of_not_retained _ _ hkind, BuildForest.countActivityType.eq_def]
    split <;> exact ⟨fun _ => rfl, rfl, rfl, rfl, rfl⟩

theorem Agree.start (hagree : Agree whole replayed) (now now' : ℕ)
    (record : NixMessage) :
    Agree (whole.start now record) (replayed.start now' record) := by
  have hcounted (forest : BuildForest) (kind : ActivityType) :
      Agree (forest.countActivityType kind) forest := by
    rw [BuildForest.countActivityType.eq_def]
    split <;> exact ⟨fun _ => rfl, rfl, rfl, rfl, rfl⟩
  rw [BuildForest.start, BuildForest.start]
  split
  · exact hagree
  · let activity := BuildForest.activityOf record
    have hstarted := (((hcounted whole activity.kind).trans hagree).trans
      (hcounted replayed activity.kind).symm).startNode now now' activity
    exact ⟨hstarted.nodes, hstarted.outputs, hstarted.errors,
      hstarted.downloads, hstarted.substitutions⟩

/-- A start the filter keeps. -/
theorem Related.start_kept (hrelated : Related live followed whole replayed)
    (now now' : ℕ) {record : NixMessage} {id : ℕ} (hid : record.id = some id)
    (hkind : (BuildForest.activityOf record).kind.retained) :
    Related (live ∪ {id}) (insert id followed) (whole.start now record)
      (replayed.start now' record) where
  agree := hrelated.agree.start now now' record
  activities other := by
    rw [getElem?_activities_start _ _ hid, getElem?_activities_start _ _ hid]
    split
    · rw [Option.filter_some, if_pos hkind]
    · exact hrelated.activities other
  followed other := by
    rw [getElem?_activities_start _ _ hid, Finset.mem_insert, hrelated.followed]
    split
    · next heq => simp [heq]
    · next hne => simp [hne]
  live other := by
    rw [getElem?_activities_start _ _ hid]
    split
    · next heq =>
        intro _
        exact .inr heq
    · intro hlive
      exact .inl (hrelated.live other hlive)

/-- A start the filter drops: its id was not live, so nothing is followed
under it. -/
theorem Related.start_dropped (hrelated : Related live followed whole replayed)
    (now : ℕ) {record : NixMessage} {id : ℕ} (hid : record.id = some id)
    (hfresh : id ∉ live)
    (hkind : (BuildForest.activityOf record).kind.retained = false) :
    Related (live ∪ {id}) followed (whole.start now record) replayed where
  agree := (agree_start whole now hkind).trans hrelated.agree
  activities other := by
    rw [getElem?_activities_start _ _ hid]
    split
    · next heq =>
        have hwhole : whole.activities[id]? = none := by
          rw [← Option.isNone_iff_eq_none, ← Option.isSome_eq_false_iff,
            ← Bool.not_eq_true]
          exact mt (hrelated.live id) hfresh
        rw [heq, hrelated.activities, hwhole, Option.filter_some, hkind]
        rfl
    · exact hrelated.activities other
  followed := hrelated.followed
  live other := by
    rw [getElem?_activities_start _ _ hid]
    split
    · next heq =>
        intro _
        exact .inr heq
    · intro hlive
      exact .inl (hrelated.live other hlive)

theorem Agree.erase (hagree : Agree whole replayed) (id : ℕ) :
    Agree { whole with activities := whole.activities.erase id }
      { replayed with activities := replayed.activities.erase id } :=
  ⟨hagree.nodes, hagree.outputs, hagree.errors, hagree.downloads,
    hagree.substitutions⟩

/-- A stop is kept exactly when its activity is followed; the stop of another
one changes no node. -/
theorem Related.stop (hrelated : Related live followed whole replayed)
    (now now' id : ℕ) :
    Related (live \ {id}) (followed.erase id) (whole.stop now (some id))
      (if id ∈ followed then replayed.stop now' (some id) else replayed) := by
  have hreplayed (other : ℕ) :
      (if id ∈ followed then replayed.stop now' (some id)
        else replayed).activities[other]? =
        if other = id then none else replayed.activities[other]? := by
    split
    · exact getElem?_activities_stop replayed now' id other
    · next hid =>
        split
        · next heq => rw [heq, hrelated.unknown_of_not_followed hid]
        · rfl
  refine ⟨?_, ?_, ?_, ?_⟩
  · split
    · next hid =>
        obtain ⟨activity, hreplayed, hwhole, -⟩ := hrelated.activity_of_followed hid
        rw [BuildForest.stop, BuildForest.stop, hreplayed, hwhole]
        exact (hrelated.agree.erase id).stopNode now now' activity
    · next hid =>
        have herased : Agree
            { whole with activities := whole.activities.erase id } replayed :=
          ⟨hrelated.agree.nodes, hrelated.agree.outputs, hrelated.agree.errors,
            hrelated.agree.downloads, hrelated.agree.substitutions⟩
        have hunknown := hrelated.unknown_of_not_followed hid
        rw [hrelated.activities, Option.filter_eq_none_iff] at hunknown
        rw [BuildForest.stop]
        split
        · exact hrelated.agree
        · next activity hwhole =>
            rw [stopNode_of_not_retained _ _
              (Bool.eq_false_of_not_eq_true (hunknown activity hwhole))]
            exact herased
  · intro other
    rw [hreplayed, getElem?_activities_stop]
    split
    · rfl
    · exact hrelated.activities other
  · intro other
    rw [hreplayed, Finset.mem_erase, hrelated.followed]
    split
    · next heq => simp [heq]
    · next hne => simp [hne]
  · intro other
    rw [getElem?_activities_stop]
    split
    · intro hnone
      cases hnone
    · next hne =>
        intro hlive
        exact ⟨hrelated.live other hlive, hne⟩

/-- A result changes followed activities alone, and only when its code is
kept. -/
theorem Related.result (hrelated : Related live followed whole replayed)
    {record : NixMessage} {id : ℕ} (hid : record.id = some id) :
    Related live followed (whole.result record)
      (if (decide (id ∈ followed) && record.typeCode.any retainedResult) = true then
        replayed.result record else replayed) := by
  have hreplayed (other : ℕ) :
      (if (decide (id ∈ followed) && record.typeCode.any retainedResult) = true then
        replayed.result record else replayed).activities[other]? =
        if other = id then
          replayed.activities[id]?.map (reported record.resultType record.fields)
        else replayed.activities[other]? := by
    split
    · exact getElem?_activities_result replayed hid other
    · next hdropped =>
        split
        · next heq =>
            rw [heq]
            by_cases hfollowed : id ∈ followed
            · have hcode : record.typeCode.any retainedResult = false := by
                simpa [hfollowed] using hdropped
              rw [reported_of_dropped hcode, Option.map_id]
              rfl
            · rw [hrelated.unknown_of_not_followed hfollowed]
              rfl
        · rfl
  have hkind (activity : ActiveActivity) :
      (reported record.resultType record.fields activity).kind.retained =
        activity.kind.retained := by
    rw [kind_reported]
  refine ⟨?_, ?_, ?_, ?_⟩
  · have hwhole := (agree_result whole record).trans hrelated.agree
    split
    · exact hwhole.trans (agree_result replayed record).symm
    · exact hwhole
  · intro other
    rw [hreplayed, getElem?_activities_result _ hid, hrelated.activities,
      hrelated.activities]
    split
    · cases whole.activities[id]? with
      | none => rfl
      | some activity =>
          rw [Option.map_some, Option.filter_some, Option.filter_some, hkind]
          split <;> rfl
    · rfl
  · intro other
    rw [hreplayed, hrelated.followed]
    split
    · next heq => rw [heq, Option.isSome_map]
    · rfl
  · intro other
    rw [getElem?_activities_result _ hid]
    split
    · next heq =>
        rw [Option.isSome_map, heq]
        exact hrelated.live id
    · exact hrelated.live other

theorem Related.message (hrelated : Related live followed whole replayed)
    (now now' : ℕ) (record : NixMessage) :
    Related live followed (whole.message now record)
      (if record.level.any (· ≤ 1) = true then replayed.message now' record
        else replayed) := by
  have hactivities :
      (if record.level.any (· ≤ 1) = true then replayed.message now' record
        else replayed).activities = replayed.activities := by
    split
    · exact activities_message replayed now' record
    · rfl
  refine ⟨?_, ?_, ?_, ?_⟩
  · split
    · exact hrelated.agree.message now now' record
    · next hdropped =>
        have hlevel : record.level ≠ some 0 := by
          intro heq
          rw [heq] at hdropped
          exact hdropped rfl
        exact (agree_message whole now hlevel).trans hrelated.agree
  · intro id
    rw [hactivities, activities_message]
    exact hrelated.activities id
  · intro id
    rw [hactivities]
    exact hrelated.followed id
  · intro id
    rw [activities_message]
    exact hrelated.live id

/-- Versions are not compared. -/
theorem Related.versioned (hrelated : Related live followed whole replayed)
    (version version' : ℕ) :
    Related live followed { whole with version } { replayed with version := version' } :=
  hrelated.of_same_core ⟨fun _ => rfl, rfl, rfl, rfl, rfl⟩
    ⟨fun _ => rfl, rfl, rfl, rfl, rfl⟩ rfl rfl

/-- What feeding a kept line does is compared after the version was counted; a
dropped line leaves the version as it was. -/
theorem Related.of_versioned {keep : Prop} [Decidable keep]
    {fed : BuildForest} {version : ℕ}
    (hrelated : Related live followed whole
      (if keep then fed else { replayed with version })) :
    Related live followed whole (if keep then fed else replayed) := by
  split
  · next hkeep =>
      rw [if_pos hkeep] at hrelated
      exact hrelated
  · next hdrop =>
      rw [if_neg hdrop] at hrelated
      exact hrelated.versioned whole.version replayed.version

theorem ids_some (id : ℕ) : {other | some id = some other} = ({id} : Set ℕ) := by
  ext other
  exact Option.some_inj.trans eq_comm

variable {fromStr : List Char → Option NixMessage} {line : List Char}

/-- One line keeps the two runs related. -/
theorem Related.feedLine (hrelated : Related live followed whole replayed)
    (hallowed : Allowed fromStr live line) (now now' : ℕ) :
    Related (liveAfter fromStr live line) (retain fromStr followed line).1
      (BuildForest.feedLine fromStr now whole line)
      (if (retain fromStr followed line).2 = true then
        BuildForest.feedLine fromStr now' replayed line else replayed) := by
  have hself (forest : BuildForest) : Agree forest forest :=
    ⟨fun _ => rfl, rfl, rfl, rfl, rfl⟩
  rw [Allowed] at hallowed
  rw [liveAfter, retain, BuildForest.feedLine, BuildForest.feedLine]
  cases hparse : parseNixLine fromStr line with
  | ordinary =>
      exact hrelated.of_same_core ⟨fun _ => rfl, rfl, rfl, rfl, rfl⟩
        (hself replayed) rfl rfl
  | malformed =>
      exact hrelated.of_same_core ⟨fun _ => rfl, rfl, rfl, rfl, rfl⟩
        (hself replayed) rfl rfl
  | record record =>
      rw [hparse] at hallowed
      have hcounted := hrelated.versioned (saturatingSucc whole.version)
        (saturatingSucc replayed.version)
      dsimp only at hallowed ⊢
      rw [BuildForest.feedMessage, BuildForest.feedMessage]
      by_cases hstart : record.action = "start"
      · rw [if_pos hstart] at hallowed
        obtain ⟨id, hid, hfresh⟩ := hallowed
        simp only [if_pos hstart, hid, ids_some, Option.getD_some]
        cases hcode : record.typeCode.any retainedStart with
        | true =>
            exact hcounted.start_kept now now' hid
              ((retained_activityOf record).trans hcode)
        | false =>
            have hcounted := hrelated.versioned (saturatingSucc whole.version)
              replayed.version
            exact hcounted.start_dropped now hid hfresh
              ((retained_activityOf record).trans hcode)
      by_cases hstop : record.action = "stop"
      · rw [if_neg hstart, if_pos (.inl hstop)] at hallowed
        obtain ⟨id, hid⟩ := hallowed
        simp only [if_neg hstart, if_pos hstop, hid, ids_some, Option.getD_some,
          decide_eq_true_eq]
        exact (hcounted.stop now now' id).of_versioned
      by_cases hresult : record.action = "result"
      · rw [if_neg hstart, if_pos (.inr hresult)] at hallowed
        obtain ⟨id, hid⟩ := hallowed
        simp only [if_neg hstart, if_neg hstop, if_pos hresult, hid,
          Option.getD_some]
        exact (hcounted.result hid).of_versioned
      by_cases hmsg : record.action = "msg"
      · simp only [if_neg hstart, if_neg hstop, if_neg hresult, if_pos hmsg]
        exact (hcounted.message now now' record).of_versioned
      · simp only [if_neg hstart, if_neg hstop, if_neg hresult, if_neg hmsg]
        exact hrelated.of_same_core ⟨fun _ => rfl, rfl, rfl, rfl, rfl⟩
          (hself replayed) rfl rfl

end Steps

/-! ## What the two runs show -/

theorem related_new : Related ∅ ∅ BuildForest.new BuildForest.new where
  agree := ⟨fun _ => rfl, rfl, rfl, rfl, rfl⟩
  activities _ := rfl
  followed id := by
    change id ∈ (∅ : Finset ℕ) ↔ false = true
    simp
  live _ hnone := by cases hnone

section Shown

variable {live : Set ℕ} {followed : Finset ℕ} {whole replayed : BuildForest}

/-- A tracked status is read off the tracked statuses. -/
theorem mem_pathsIn {forest : BuildForest} {status : DerivationStatus}
    (htracked : trackedStatus status = some status) {path : String} :
    path ∈ forest.pathsIn status ↔ forest.tracked path = some status := by
  have hstatus {other : DerivationStatus} :
      trackedStatus other = some status ↔ other = status := by
    constructor
    · intro heq
      cases other <;> cases heq <;> rfl
    · rintro rfl
      exact htracked
  rw [BuildForest.pathsIn, List.mem_map, BuildForest.tracked, hstatus]
  constructor
  · rintro ⟨⟨other, node⟩, hmem, rfl⟩
    rw [List.mem_filter, Std.TreeMap.mem_toList_iff_getElem?_eq_some,
      decide_eq_true_eq] at hmem
    rw [Std.TreeMap.getD_eq_getD_getElem?, hmem.1]
    exact hmem.2
  · intro heq
    rw [Std.TreeMap.getD_eq_getD_getElem?] at heq
    cases hnode : forest.nodes[path]? with
    | none =>
        rw [hnode] at heq
        subst heq
        cases htracked
    | some node =>
        rw [hnode] at heq
        refine ⟨(path, node), ?_, rfl⟩
        rw [List.mem_filter, Std.TreeMap.mem_toList_iff_getElem?_eq_some,
          decide_eq_true_eq]
        exact ⟨hnode, heq⟩

theorem lt_asymm_of_compare {Key Value : Type} [Ord Key] [Std.OrientedOrd Key]
    (left right : Key × Value) (hlt : compare left.1 right.1 = .lt) :
    ¬ compare right.1 left.1 = .lt := by
  have hswap : compare right.1 left.1 = (compare left.1 right.1).swap :=
    Std.OrientedCmp.eq_swap
  rw [hswap, hlt]
  exact fun hswap => by cases hswap

/-- Nodes in a tracked status are the same ones in the same order. -/
theorem pathsIn_eq (hagree : Agree whole replayed) {status : DerivationStatus}
    (htracked : trackedStatus status = some status) :
    whole.pathsIn status = replayed.pathsIn status := by
  have hordered (forest : BuildForest) :
      (forest.pathsIn status).Pairwise fun left right =>
        compare left right = .lt := by
    rw [BuildForest.pathsIn, List.pairwise_map]
    exact Std.TreeMap.ordered_keys_toList.filter _
  apply Ordering.eq_of_ordered _ (hordered whole) (hordered replayed)
  · intro path
    rw [mem_pathsIn htracked, mem_pathsIn htracked, hagree.nodes path]
  · intro left right hlt
    exact lt_asymm_of_compare (left, ()) (right, ()) hlt

/-- Transfers are followed, so the two forests show the same ones. -/
theorem transfers_eq (hrelated : Related live followed whole replayed) :
    whole.transfers = replayed.transfers := by
  let shown (forest : BuildForest) : List (ℕ × ActiveActivity) :=
    forest.activities.toList.filter fun entry => entry.2.kind.isTransfer
  have hordered (forest : BuildForest) :
      (shown forest).Pairwise fun left right => compare left.1 right.1 = .lt :=
    Std.TreeMap.ordered_keys_toList.filter _
  have hretained {kind : ActivityType} (htransfer : kind.isTransfer) :
      kind.retained := by
    cases kind <;> first | rfl | cases htransfer
  have hshown : shown whole = shown replayed := by
    apply Ordering.eq_of_ordered _ (hordered whole) (hordered replayed)
    · rintro ⟨id, activity⟩
      rw [List.mem_filter, List.mem_filter,
        Std.TreeMap.mem_toList_iff_getElem?_eq_some,
        Std.TreeMap.mem_toList_iff_getElem?_eq_some, hrelated.activities,
        Option.filter_eq_some_iff]
      constructor
      · rintro ⟨hactivity, htransfer⟩
        exact ⟨⟨hactivity, hretained htransfer⟩, htransfer⟩
      · rintro ⟨⟨hactivity, -⟩, htransfer⟩
        exact ⟨hactivity, htransfer⟩
    · exact lt_asymm_of_compare
  exact congrArg (List.map _) hshown

/-- Two forests show the same work. -/
structure SameWork (whole replayed : BuildForest) : Prop where
  building : whole.pathsIn .building = replayed.pathsIn .building
  downloading : whole.pathsIn .downloading = replayed.pathsIn .downloading
  substituting : whole.pathsIn .substituting = replayed.pathsIn .substituting
  built : whole.pathsIn .built = replayed.pathsIn .built
  failed : whole.pathsIn .failed = replayed.pathsIn .failed
  transfers : whole.transfers = replayed.transfers
  completedDownloads : whole.completedDownloads = replayed.completedDownloads
  completedSubstitutions :
    whole.completedSubstitutions = replayed.completedSubstitutions
  errors : whole.errors = replayed.errors
  failedDerivations : whole.failedDerivations = replayed.failedDerivations

theorem Related.sameWork (hrelated : Related live followed whole replayed) :
    SameWork whole replayed where
  building := pathsIn_eq hrelated.agree rfl
  downloading := pathsIn_eq hrelated.agree rfl
  substituting := pathsIn_eq hrelated.agree rfl
  built := pathsIn_eq hrelated.agree rfl
  failed := pathsIn_eq hrelated.agree rfl
  transfers := transfers_eq hrelated
  completedDownloads := hrelated.agree.downloads
  completedSubstitutions := hrelated.agree.substitutions
  errors := hrelated.agree.errors
  failedDerivations :=
    congrArg (List.map derivationName) (pathsIn_eq hrelated.agree rfl)

end Shown

/-- A forest fed the retained lines of a well-formed stream, at any times,
shows the work that one fed every line shows. -/
theorem sameWork_retained (fromStr : List Char → Option NixMessage)
    {stream replay : List (ℕ × List Char)}
    (hwell : WellFormed fromStr (stream.map Prod.snd))
    (hreplay : replay.map Prod.snd =
      kept (retain fromStr) ∅ (stream.map Prod.snd)) :
    SameWork (run (BuildForest.feedLine fromStr) BuildForest.new stream)
      (run (BuildForest.feedLine fromStr) BuildForest.new replay) := by
  have hrelated : ∃ live followed, Related live followed
      (run (BuildForest.feedLine fromStr) BuildForest.new stream)
      (run (BuildForest.feedLine fromStr) BuildForest.new replay) := by
    refine related_run_kept ?_ ?_ hreplay hwell related_new
    · intro live followed whole replayed now now' line hallowed hrelated hkeep
      have hnext := hrelated.feedLine hallowed now now'
      rw [if_pos hkeep] at hnext
      exact hnext
    · intro live followed whole replayed now line hallowed hrelated hdrop
      have hnext := hrelated.feedLine hallowed now now
      rw [hdrop] at hnext
      exact hnext
  obtain ⟨live, followed, hrelated⟩ := hrelated
  exact hrelated.sameWork

/-! ### A build that reports a line -/

/-- A line with the protocol prefix and no trailing whitespace is a record. -/
theorem parseNixLine_prefixed {fromStr : List Char → Option NixMessage}
    {payload : List Char} {last : Char} {record : NixMessage}
    (hlast : payload.getLast? = some last) (hspace : Text.isWhiteSpace last = false)
    (hrecord : fromStr payload = some record) :
    parseNixLine fromStr (nixJsonPrefix ++ payload) = .record record := by
  have htrim : trimEnd (nixJsonPrefix ++ payload) = nixJsonPrefix ++ payload := by
    obtain ⟨init, rfl⟩ := List.getLast?_eq_some_iff.mp hlast
    rw [trimEnd, List.reverse_append, List.reverse_append, List.reverse_singleton,
      List.singleton_append, List.cons_append,
      List.dropWhile_cons_of_neg (by rw [hspace]; exact Bool.false_ne_true)]
    simp
  rw [parseNixLine, htrim, List.dropPrefix?_append_of_beq payload BEq.rfl]
  dsimp only
  rw [hrecord]

namespace SampleBuild

def startText : List Char :=
  ("\x7b\"action\":\"start\",\"id\":7,\"type\":105," ++
    "\"fields\":[\"/nix/store/x.drv\"]\x7d").toList

def logText : List Char :=
  ("\x7b\"action\":\"result\",\"id\":7,\"type\":101," ++
    "\"fields\":[\"checking\"]\x7d").toList

def stopText : List Char := "\x7b\"action\":\"stop\",\"id\":7\x7d".toList

def record (action : String) (typeCode : Option Int) (fields : List Json) :
    NixMessage :=
  { action, typeCode, fields, id := some 7, level := none, text := none,
    msg := none, rawMsg := none }

def start : NixMessage :=
  record "start" (some 105) [.string "/nix/store/x.drv"]

def log : NixMessage := record "result" (some 101) [.string "checking"]

def stop : NixMessage := record "stop" none []

def fromStr (payload : List Char) : Option NixMessage :=
  if payload = startText then some start
  else if payload = logText then some log
  else if payload = stopText then some stop
  else none

theorem parse_start :
    parseNixLine fromStr (nixJsonPrefix ++ startText) = .record start := by
  refine parseNixLine_prefixed (by decide : _ = some (Char.ofNat 0x7d)) ?_ ?_
  · decide
  · rw [fromStr, if_pos rfl]

theorem parse_log :
    parseNixLine fromStr (nixJsonPrefix ++ logText) = .record log := by
  refine parseNixLine_prefixed (by decide : _ = some (Char.ofNat 0x7d)) ?_ ?_
  · decide
  · rw [fromStr, if_neg (by decide), if_pos rfl]

theorem parse_stop :
    parseNixLine fromStr (nixJsonPrefix ++ stopText) = .record stop := by
  refine parseNixLine_prefixed (by decide : _ = some (Char.ofNat 0x7d)) ?_ ?_
  · decide
  · rw [fromStr, if_neg (by decide), if_neg (by decide), if_pos rfl]

def stream : List (ℕ × List Char) :=
  [(0, nixJsonPrefix ++ startText), (5, nixJsonPrefix ++ logText),
    (9, nixJsonPrefix ++ stopText)]

def replay : List (ℕ × List Char) :=
  [(20, nixJsonPrefix ++ startText), (20, nixJsonPrefix ++ stopText)]

theorem wellFormed_stream : WellFormed fromStr (stream.map Prod.snd) := by
  refine ⟨?_, ?_, ?_, trivial⟩
  · rw [Allowed, parse_start]
    exact ⟨7, rfl, id⟩
  · rw [Allowed, parse_log]
    exact ⟨7, rfl⟩
  · rw [Allowed, parse_stop]
    exact ⟨7, rfl⟩

/-- The log line is not kept. -/
theorem kept_stream :
    replay.map Prod.snd = kept (retain fromStr) ∅ (stream.map Prod.snd) := by
  have hstart : retain fromStr ∅ (nixJsonPrefix ++ startText) = ({7}, true) := by
    rw [retain, parse_start]
    rfl
  have hlog : retain fromStr {7} (nixJsonPrefix ++ logText) = ({7}, false) := by
    rw [retain, parse_log]
    rfl
  have hstop : (retain fromStr {7} (nixJsonPrefix ++ stopText)).2 = true := by
    rw [retain, parse_stop]
    rfl
  simp [kept, stream, replay, hstart, hlog, hstop]

end SampleBuild

theorem sampleBuild_sameWork :
    WellFormed SampleBuild.fromStr (SampleBuild.stream.map Prod.snd) ∧
      SameWork
        (run (BuildForest.feedLine SampleBuild.fromStr) BuildForest.new
          SampleBuild.stream)
        (run (BuildForest.feedLine SampleBuild.fromStr) BuildForest.new
          SampleBuild.replay) :=
  ⟨SampleBuild.wellFormed_stream,
    sameWork_retained SampleBuild.fromStr SampleBuild.wellFormed_stream
      SampleBuild.kept_stream⟩

end Mandala.Forest
