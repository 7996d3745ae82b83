import Mandala.Forest.Life

/-!
# The derivations a record names

A record gives a node to every derivation it touches and to the one its log
line is of, and it asks for the derivations it starts to build or plans.  Reads
add the derivation read and its inputs.
-/

namespace Mandala.Forest

open Mandala.Data

/-- The results told of a node. -/
def tellsNode : ResultType → Bool
  | .buildLogLine | .postBuildLogLine | .setPhase | .fetchStatus => true
  | _ => false

namespace BuildForest

variable (forest : BuildForest)

/-- The derivation a result tells something of. -/
def toldPath (record : NixMessage) : Option String :=
  if record.action = "result" ∧ record.resultType.any tellsNode ∧
      (fieldStr record.fields 0).isSome then
    (record.id.bind forest.errandOf).bind Prod.snd
  else none

/-- A record gives a derivation a node, if it has none. -/
def Names (record : NixMessage) (path : String) : Prop :=
  forest.touch record path ≠ none ∨ forest.toldPath record = some path

/-- A record asks for the derivation to be read. -/
def AsksFor (record : NixMessage) (path : String) : Prop :=
  (record.action = "start" ∧ record.id ≠ none ∧
      (activityOf record).kind = .build ∧ (activityOf record).path = some path ∧
        ".drv".toList.isSuffixOf path.toList = true) ∨
    (record.action = "msg" ∧ record.level ≠ some 0 ∧
      ∃ text, record.messageText = some text ∧ path ∈ drvPaths text)

/-! ## The nodes -/

@[simp]
theorem mem_updateNode (own path : String) (change : NodeState → NodeState) :
    path ∈ (forest.updateNode own change).nodes ↔
      path ∈ forest.nodes ∨ own = path := by
  rw [updateNode, Std.TreeMap.mem_insert, Std.LawfulEqCmp.compare_eq_iff_eq,
    or_comm]

theorem mem_markTransferNode (now : ℕ) (activity : ActiveActivity)
    (status : DerivationStatus) (path : String) :
    path ∈ (forest.markTransferNode now activity.path status
        activity.host).nodes ↔
      path ∈ forest.nodes ∨
        (if forest.derivationOf activity = some path then
          some (Touch.start status) else none) ≠ none := by
  rw [markTransferNode, derivationOf]
  cases activity.path.bind (forest.outputToDrv[·]?) with
  | none => simp
  | some owner => simp

theorem mem_startNode (now : ℕ) (activity : ActiveActivity) (path : String) :
    path ∈ (forest.startNode now activity).nodes ↔
      path ∈ forest.nodes ∨ forest.startTouch activity path ≠ none := by
  rw [startNode.eq_def, startTouch.eq_def]
  cases hkind : activity.kind with
  | build =>
      dsimp only
      cases hpath : activity.path with
      | none => simp
      | some own =>
          by_cases hdrv : ".drv".toList.isSuffixOf own.toList = true
          · rw [Option.filter_some, if_pos hdrv]
            dsimp only
            rw [addPending, mem_updateNode]
            have hiff : own = path ↔
                some own = some path ∧
                  ".drv".toList.isSuffixOf path.toList = true :=
              ⟨fun heq => ⟨congrArg some heq, heq ▸ hdrv⟩,
                fun hboth => Option.some.inj hboth.1⟩
            rw [hiff]
            simp
          · rw [Option.filter_some, if_neg hdrv]
            have hother : ¬ (some own = some path ∧
                ".drv".toList.isSuffixOf path.toList = true) := by
              rintro ⟨hown, hsuffix⟩
              exact hdrv (Option.some.inj hown ▸ hsuffix)
            rw [if_neg hother]
            simp
  | copyPath => exact forest.mem_markTransferNode now activity _ path
  | fileTransfer => exact forest.mem_markTransferNode now activity _ path
  | substitute => exact forest.mem_markTransferNode now activity _ path
  | _ => simp

theorem nodes_countActivityType (kind : ActivityType) :
    (forest.countActivityType kind).nodes = forest.nodes := by
  rw [countActivityType.eq_def]
  split <;> rfl

theorem mem_start (now : ℕ) (record : NixMessage) (path : String) :
    path ∈ (forest.start now record).nodes ↔
      path ∈ forest.nodes ∨
        (record.id.bind fun _ =>
          forest.startTouch (activityOf record) path) ≠ none := by
  rw [start]
  cases record.id with
  | none => simp
  | some id =>
      change path ∈ ((forest.countActivityType _).startNode now _).nodes ↔ _
      rw [mem_startNode, nodes_countActivityType, startTouch_countActivityType]
      rfl

theorem mem_stopNode (now : ℕ) (activity : ActiveActivity) (path : String) :
    path ∈ (forest.stopNode now activity).nodes ↔
      path ∈ forest.nodes ∨ forest.stopTouch activity path ≠ none := by
  rw [stopNode.eq_def, stopTouch.eq_def]
  cases hkind : activity.kind with
  | build =>
      dsimp only
      cases activity.path with
      | none => simp
      | some own => simp
  | copyPath | fileTransfer | substitute =>
      dsimp only
      rw [derivationOf]
      cases activity.path.bind (forest.outputToDrv[·]?) with
      | none => simp
      | some owner => simp
  | _ => simp

theorem mem_stop (now : ℕ) (id : Option ℕ) (path : String) :
    path ∈ (forest.stop now id).nodes ↔
      path ∈ forest.nodes ∨
        (id.bind (forest.activities[·]?)).bind (forest.stopTouch · path) ≠
          none := by
  rw [stop.eq_def]
  cases id with
  | none => simp
  | some id =>
      dsimp only
      rw [Option.bind_some]
      cases forest.activities[id]? with
      | none => simp
      | some activity =>
          dsimp only
          rw [mem_stopNode]
          rfl

theorem nodes_updateActivity (id : ℕ)
    (change : ActiveActivity → ActiveActivity) :
    (forest.updateActivity id change).nodes = forest.nodes := by
  rw [updateActivity]
  split <;> rfl

theorem mem_pushLog (own text path : String) :
    path ∈ (forest.pushLog own text).nodes ↔
      path ∈ forest.nodes ∨ own = path := by
  rw [pushLog]
  dsimp only
  exact forest.mem_updateNode own path _

/-- Nothing is told of a node when the activity or the result names nothing. -/
theorem not_told {own text : Option String} {path : String}
    (hnone : ∀ ownPath line, own = some ownPath → text = some line → False) :
    ¬ (text.isSome ∧ own = some path) := by
  rintro ⟨htext, hown⟩
  obtain ⟨line, hline⟩ := Option.isSome_iff_exists.mp htext
  exact hnone path line hown hline

theorem mem_report (id : ℕ) (own : Option String) (kind : Option ResultType)
    (fields : List Json) (path : String) :
    path ∈ (forest.report id own kind fields).nodes ↔
      path ∈ forest.nodes ∨
        (kind.any tellsNode ∧ (fieldStr fields 0).isSome ∧ own = some path) := by
  rw [report.eq_def]
  split
  · split
    · simp [mem_pushLog, tellsNode, *]
    · next hnone =>
        exact (or_iff_left fun hall => not_told hnone hall.2).symm
  · split
    · simp [mem_pushLog, tellsNode, *]
    · next hnone =>
        exact (or_iff_left fun hall => not_told hnone hall.2).symm
  · split
    · simp [tellsNode, *]
    · next hnone =>
        exact (or_iff_left fun hall => not_told hnone hall.2).symm
  · split
    · simp [tellsNode, *]
    · next hnone =>
        exact (or_iff_left fun hall => not_told hnone hall.2).symm
  · split
    · simp [tellsNode]
    · simp [nodes_updateActivity, tellsNode]
  · split
    · simp [tellsNode]
    · simp [nodes_updateActivity, tellsNode]
  · cases kind with
    | none => simp
    | some kind => cases kind <;> simp_all [tellsNode]

theorem nodes_countResultType (kind : Option ResultType) :
    (forest.countResultType kind).nodes = forest.nodes := by
  rw [countResultType.eq_def]
  split <;> rfl

theorem mem_result (record : NixMessage) (haction : record.action = "result")
    (path : String) :
    path ∈ (forest.result record).nodes ↔
      path ∈ forest.nodes ∨ forest.toldPath record = some path := by
  have hkept (id : ℕ) :
      ((forest.countResultType record.resultType).activities[id]?).map errand =
        forest.errandOf id :=
    errandOf_of_frame (forest.frame_countResultType _) id
  rw [result, toldPath]
  cases hid : record.id with
  | none => simp [nodes_countResultType]
  | some id =>
      have herrand := hkept id
      dsimp only
      rw [Option.bind_some, ← herrand]
      cases (forest.countResultType record.resultType).activities[id]? with
      | none => simp [nodes_countResultType]
      | some activity =>
          dsimp only
          rw [mem_report, nodes_countResultType]
          by_cases htold : record.resultType.any tellsNode = true ∧
              (fieldStr record.fields 0).isSome = true
          · rw [if_pos ⟨haction, htold⟩]
            exact or_congr_right ⟨fun hall => hall.2.2,
              fun hown => ⟨htold.1, htold.2, hown⟩⟩
          · rw [if_neg fun hall => htold hall.2]
            exact or_congr_right ⟨fun hall => absurd ⟨hall.1, hall.2.1⟩ htold,
              by rintro ⟨⟩⟩

/-- A change of every path a message names. -/
theorem mem_foldl {touchNode : BuildForest → String → BuildForest}
    (hnode : ∀ (forest : BuildForest) (own path : String),
      path ∈ (touchNode forest own).nodes ↔ path ∈ forest.nodes ∨ own = path)
    (paths : List String) (path : String) :
    path ∈ (paths.foldl touchNode forest).nodes ↔
      path ∈ forest.nodes ∨ path ∈ paths := by
  induction paths generalizing forest with
  | nil => simp
  | cons own paths ih =>
      rw [List.foldl_cons, ih, hnode, List.mem_cons, or_assoc, eq_comm]

theorem mem_message (now : ℕ) (record : NixMessage) (path : String) :
    path ∈ (forest.message now record).nodes ↔
      path ∈ forest.nodes ∨ messageTouch record path ≠ none := by
  rw [message, messageTouch]
  cases record.messageText with
  | none => simp
  | some text =>
      dsimp only
      by_cases herror : record.level = some 0
      · rw [if_pos herror, mem_foldl _ fun forest own path =>
          forest.mem_updateNode own path _]
        simp [herror]
      · have hplan (forest : BuildForest) (own path : String) :
            path ∈ ((forest.updateNode own plan).addPending own).nodes ↔
              path ∈ forest.nodes ∨ own = path :=
          forest.mem_updateNode own path plan
        rw [if_neg herror, mem_foldl _ hplan]
        simp [herror]

/-- The nodes after a record are those there were and those it names. -/
theorem mem_feedMessage (now : ℕ) (record : NixMessage) (path : String) :
    path ∈ (forest.feedMessage now record).nodes ↔
      path ∈ forest.nodes ∨ forest.Names record path := by
  have hsilent (hother : record.action ≠ "result") :
      forest.toldPath record ≠ some path := by
    rw [toldPath, if_neg fun hall => hother hall.1]
    exact nofun
  rw [feedMessage, Names, touch]
  dsimp only
  by_cases hstart : record.action = "start"
  · rw [if_pos hstart, if_pos hstart, mem_start,
      or_iff_left (hsilent (by rw [hstart]; decide))]
    rfl
  · rw [if_neg hstart, if_neg hstart]
    by_cases hstop : record.action = "stop"
    · rw [if_pos hstop, if_pos hstop, mem_stop,
        or_iff_left (hsilent (by rw [hstop]; decide))]
      rfl
    · rw [if_neg hstop, if_neg hstop]
      by_cases hresult : record.action = "result"
      · rw [if_pos hresult, if_pos hresult, mem_result _ record hresult,
          or_iff_right (show ¬ (none : Option Touch) ≠ none from (· rfl))]
        rfl
      · rw [if_neg hresult, if_neg hresult, or_iff_left (hsilent hresult)]
        split
        · rw [mem_message]
        · simp

/-! ## The derivations asked for -/

theorem pendingDrvs_markTransferNode (now : ℕ) (output : Option String)
    (status : DerivationStatus) (host : Option String) :
    (forest.markTransferNode now output status host).pendingDrvs =
      forest.pendingDrvs := by
  rw [markTransferNode]
  split <;> rfl

theorem pendingDrvs_countActivityType (kind : ActivityType) :
    (forest.countActivityType kind).pendingDrvs = forest.pendingDrvs := by
  rw [countActivityType.eq_def]
  split <;> rfl

theorem pendingDrvs_stop (now : ℕ) (id : Option ℕ) :
    (forest.stop now id).pendingDrvs = forest.pendingDrvs := by
  rw [stop.eq_def]
  cases id with
  | none => rfl
  | some id =>
      dsimp only
      cases forest.activities[id]? with
      | none => rfl
      | some activity =>
          dsimp only
          rw [stopNode.eq_def]
          cases activity.kind with
          | build => cases activity.path <;> rfl
          | copyPath | fileTransfer | substitute =>
              cases activity.path.bind (forest.outputToDrv[·]?) <;> rfl
          | _ => rfl

theorem pendingDrvs_updateActivity (id : ℕ)
    (change : ActiveActivity → ActiveActivity) :
    (forest.updateActivity id change).pendingDrvs = forest.pendingDrvs := by
  rw [updateActivity]
  split <;> rfl

theorem pendingDrvs_report (id : ℕ) (own : Option String)
    (kind : Option ResultType) (fields : List Json) :
    (forest.report id own kind fields).pendingDrvs = forest.pendingDrvs := by
  rw [report.eq_def]
  split
  · split <;> rfl
  · split <;> rfl
  · split <;> rfl
  · split <;> rfl
  · split
    · rfl
    · exact forest.pendingDrvs_updateActivity id _
  · split
    · rfl
    · exact forest.pendingDrvs_updateActivity id _
  · rfl

theorem pendingDrvs_result (record : NixMessage) :
    (forest.result record).pendingDrvs = forest.pendingDrvs := by
  have hcounted : (forest.countResultType record.resultType).pendingDrvs =
      forest.pendingDrvs := by
    rw [countResultType.eq_def]
    split <;> rfl
  rw [result]
  split
  · exact hcounted
  · split
    · exact hcounted
    · rw [pendingDrvs_report]
      exact hcounted

theorem mem_pendingDrvs_addPending (own path : String) :
    path ∈ (forest.addPending own).pendingDrvs ↔
      path ∈ forest.pendingDrvs ∨ own = path := by
  rw [addPending, Std.TreeSet.mem_insert, Std.LawfulEqCmp.compare_eq_iff_eq,
    or_comm]

theorem mem_pendingDrvs_startNode (now : ℕ) (activity : ActiveActivity)
    (path : String) :
    path ∈ (forest.startNode now activity).pendingDrvs ↔
      path ∈ forest.pendingDrvs ∨
        (activity.kind = .build ∧ activity.path = some path ∧
          ".drv".toList.isSuffixOf path.toList = true) := by
  rw [startNode.eq_def]
  cases hkind : activity.kind with
  | build =>
      dsimp only
      cases hpath : activity.path with
      | none => simp
      | some own =>
          by_cases hdrv : ".drv".toList.isSuffixOf own.toList = true
          · rw [Option.filter_some, if_pos hdrv]
            dsimp only
            rw [mem_pendingDrvs_addPending]
            refine or_congr_right ⟨?_, fun hall => Option.some.inj hall.2.1⟩
            rintro rfl
            exact ⟨rfl, rfl, hdrv⟩
          · rw [Option.filter_some, if_neg hdrv]
            refine (or_iff_left ?_).symm
            rintro ⟨-, hown, hsuffix⟩
            exact hdrv (Option.some.inj hown ▸ hsuffix)
  | copyPath | fileTransfer | substitute =>
      dsimp only
      rw [pendingDrvs_markTransferNode]
      simp
  | _ => simp

theorem mem_pendingDrvs_start (now : ℕ) (record : NixMessage) (path : String) :
    path ∈ (forest.start now record).pendingDrvs ↔
      path ∈ forest.pendingDrvs ∨
        (record.id ≠ none ∧ (activityOf record).kind = .build ∧
          (activityOf record).path = some path ∧
            ".drv".toList.isSuffixOf path.toList = true) := by
  rw [start]
  cases record.id with
  | none => simp
  | some id =>
      dsimp only
      rw [mem_pendingDrvs_startNode, pendingDrvs_countActivityType]
      simp

theorem mem_pendingDrvs_foldl {touchNode : BuildForest → String → BuildForest}
    (hnode : ∀ (forest : BuildForest) (own path : String),
      path ∈ (touchNode forest own).pendingDrvs ↔
        path ∈ forest.pendingDrvs ∨ own = path)
    (paths : List String) (path : String) :
    path ∈ (paths.foldl touchNode forest).pendingDrvs ↔
      path ∈ forest.pendingDrvs ∨ path ∈ paths := by
  induction paths generalizing forest with
  | nil => simp
  | cons own paths ih =>
      rw [List.foldl_cons, ih, hnode, List.mem_cons, or_assoc, eq_comm]

theorem pendingDrvs_foldl {touchNode : BuildForest → String → BuildForest}
    (hnode : ∀ forest own,
      (touchNode forest own).pendingDrvs = forest.pendingDrvs)
    (paths : List String) :
    (paths.foldl touchNode forest).pendingDrvs = forest.pendingDrvs := by
  induction paths generalizing forest with
  | nil => rfl
  | cons own paths ih => rw [List.foldl_cons, ih, hnode]

theorem mem_pendingDrvs_message (now : ℕ) (record : NixMessage)
    (path : String) :
    path ∈ (forest.message now record).pendingDrvs ↔
      path ∈ forest.pendingDrvs ∨
        (record.level ≠ some 0 ∧
          ∃ text, record.messageText = some text ∧ path ∈ drvPaths text) := by
  rw [message]
  cases record.messageText with
  | none => simp
  | some text =>
      dsimp only
      by_cases herror : record.level = some 0
      · have hfail (forest : BuildForest) (own : String) :
            (forest.updateNode own (fail now)).pendingDrvs =
              forest.pendingDrvs := rfl
        rw [if_pos herror, pendingDrvs_foldl _ hfail]
        simp [herror]
      · have hplan (forest : BuildForest) (own path : String) :
            path ∈ ((forest.updateNode own plan).addPending own).pendingDrvs ↔
              path ∈ forest.pendingDrvs ∨ own = path :=
          mem_pendingDrvs_addPending _ own path
        rw [if_neg herror, mem_pendingDrvs_foldl _ hplan]
        simp [herror]

/-- The derivations pending after a record are those there were and those it
asks for. -/
theorem mem_pendingDrvs_feedMessage (now : ℕ) (record : NixMessage)
    (path : String) :
    path ∈ (forest.feedMessage now record).pendingDrvs ↔
      path ∈ forest.pendingDrvs ∨ AsksFor record path := by
  rw [feedMessage, AsksFor]
  dsimp only
  by_cases hstart : record.action = "start"
  · rw [if_pos hstart, mem_pendingDrvs_start]
    simp [hstart]
  · rw [if_neg hstart]
    by_cases hstop : record.action = "stop"
    · rw [if_pos hstop, pendingDrvs_stop]
      simp [hstop]
    · rw [if_neg hstop]
      by_cases hresult : record.action = "result"
      · rw [if_pos hresult, pendingDrvs_result]
        simp [hresult]
      · rw [if_neg hresult]
        split
        · next hmessage =>
            rw [mem_pendingDrvs_message]
            simp [hmessage]
        · next hmessage => simp [hstart, hmessage]

end BuildForest

/-! ## Reads -/

namespace ReadForest

open BuildForest

variable (read : ReadForest)

theorem addOutputs_keeps (own : String) (outputs : List String) :
    (outputs.foldl (addOutput own) read).forest.nodes = read.forest.nodes ∧
      (outputs.foldl (addOutput own) read).forest.pendingDrvs =
        read.forest.pendingDrvs ∧
      (outputs.foldl (addOutput own) read).drvCache = read.drvCache := by
  induction outputs generalizing read with
  | nil => exact ⟨rfl, rfl, rfl⟩
  | cons output outputs ih => exact ih (read.addOutput own output)

theorem outputToDrv_addOutputs (own : String) (outputs : List String)
    (output : String) :
    (outputs.foldl (addOutput own) read).forest.outputToDrv[output]? =
      if output ∈ outputs then some own
      else read.forest.outputToDrv[output]? := by
  induction outputs generalizing read with
  | nil => rfl
  | cons first outputs ih =>
      rw [List.foldl_cons, ih, addOutput, Std.TreeMap.getElem?_insert]
      simp only [Std.LawfulEqCmp.compare_eq_iff_eq]
      by_cases hmem : output ∈ outputs
      · rw [if_pos hmem, if_pos (List.mem_cons_of_mem first hmem)]
      · rw [if_neg hmem]
        by_cases hfirst : first = output
        · rw [if_pos hfirst, if_pos (hfirst ▸ List.mem_cons_self)]
        · rw [if_neg hfirst, if_neg]
          rw [List.mem_cons]
          rintro (heq | hrest)
          · exact hfirst heq.symm
          · exact hmem hrest

theorem addInputs_keeps (inputs : List String) :
    (inputs.foldl addInput read).forest.outputToDrv = read.forest.outputToDrv ∧
      (inputs.foldl addInput read).drvCache = read.drvCache := by
  induction inputs generalizing read with
  | nil => exact ⟨rfl, rfl⟩
  | cons input inputs ih =>
      rw [List.foldl_cons]
      obtain ⟨houtputs, hcache⟩ := ih (read.addInput input)
      rw [houtputs, hcache, addInput]
      refine ⟨?_, rfl⟩
      dsimp only
      split <;> rfl

theorem mem_addInputs (inputs : List String) (path : String) :
    path ∈ (inputs.foldl addInput read).forest.nodes ↔
      path ∈ read.forest.nodes ∨ path ∈ inputs := by
  induction inputs generalizing read with
  | nil => simp
  | cons input inputs ih =>
      have hadded : path ∈ (read.addInput input).forest.nodes ↔
          path ∈ read.forest.nodes ∨ input = path := by
        rw [← read.forest.mem_updateNode input path id, addInput]
        dsimp only
        split
        · rfl
        · rfl
      rw [List.foldl_cons, ih, hadded, List.mem_cons, or_assoc, eq_comm]

theorem mem_pendingDrvs_addInputs (inputs : List String) (path : String) :
    path ∈ (inputs.foldl addInput read).forest.pendingDrvs ↔
      path ∈ read.forest.pendingDrvs ∨ (path ∈ inputs ∧ path ∉ read.drvCache) := by
  induction inputs generalizing read with
  | nil => simp
  | cons input inputs ih =>
      have hadded : path ∈ (read.addInput input).forest.pendingDrvs ↔
          path ∈ read.forest.pendingDrvs ∨
            (input = path ∧ path ∉ read.drvCache) := by
        rw [addInput]
        dsimp only
        by_cases hcached : input ∈ read.drvCache
        · rw [if_pos (Std.TreeMap.contains_iff_mem.mpr hcached)]
          refine (or_iff_left ?_).symm
          rintro ⟨rfl, huncached⟩
          exact huncached hcached
        · rw [if_neg (hcached <| Std.TreeMap.contains_iff_mem.mp ·), mem_pendingDrvs_addPending]
          refine or_congr_right ⟨?_, And.left⟩
          rintro rfl
          exact ⟨rfl, hcached⟩
      have hcache : (read.addInput input).drvCache = read.drvCache := rfl
      rw [List.foldl_cons, ih, hadded, hcache, List.mem_cons, or_assoc,
        ← or_and_right, @eq_comm _ input]

section Applied
variable (own : String) (drv : Derivation)

theorem mem_applyDerivation (path : String) :
    path ∈ (read.applyDerivation own drv).forest.nodes ↔
      path ∈ read.forest.nodes ∨ own = path ∨ path ∈ drv.inputDrvs.keys := by
  change path ∈ (read.backfill own drv).forest.nodes ↔ _
  rw [backfill, mem_addInputs, (addOutputs_keeps _ own _).1, updateDetail,
    mem_updateNode, or_assoc]

theorem mem_pendingDrvs_applyDerivation (path : String) :
    path ∈ (read.applyDerivation own drv).forest.pendingDrvs ↔
      path ∈ read.forest.pendingDrvs ∨
        (path ∈ drv.inputDrvs.keys ∧ path ∉ read.drvCache) := by
  change path ∈ (read.backfill own drv).forest.pendingDrvs ↔ _
  rw [backfill, mem_pendingDrvs_addInputs, (addOutputs_keeps _ own _).2.1,
    (addOutputs_keeps _ own _).2.2]
  rfl

theorem outputToDrv_applyDerivation (output : String) :
    (read.applyDerivation own drv).forest.outputToDrv[output]? =
      if output ∈ drv.outputs.values then some own
      else read.forest.outputToDrv[output]? := by
  change (read.backfill own drv).forest.outputToDrv[output]? = _
  rw [backfill, (addInputs_keeps _ _).1, outputToDrv_addOutputs]
  rfl

theorem drvCache_applyDerivation :
    (read.applyDerivation own drv).drvCache =
      read.drvCache.insert own (some drv) := by
  change (read.backfill own drv).drvCache.insert own (some drv) = _
  rw [backfill, (addInputs_keeps _ _).2, (addOutputs_keeps _ own _).2.2]
  rfl

end Applied

theorem mem_applyDerivationError (own note path : String) :
    path ∈ (read.applyDerivationError own note).forest.nodes ↔
      path ∈ read.forest.nodes ∨ own = path :=
  read.forest.mem_updateNode own path id

end ReadForest

end Mandala.Forest
