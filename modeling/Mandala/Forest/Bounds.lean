import Mandala.Core.Transition
import Mandala.Forest.Retention
import Mandala.Forest.Summary
import Mathlib.Data.List.Perm.Subperm

/-!
# How far a summary is bounded

The rows, the recent logs and the log tails are capped.  Errors, activities,
failed derivations, unknown types and the edges of the graph are kept for as
long as the stream brings more of them.
-/

namespace Mandala.Forest

open Mandala.Data Mandala.Transition

/-! ## Counting the entries of a map -/

section Keys
variable {K V : Type} [Ord K] [Std.TransOrd K] [Std.LawfulEqOrd K]

/-- The keys of the entries that qualify. -/
def keysWhere (map : Std.TreeMap K V compare) (qualifies : V → Bool) : List K :=
  (map.toList.filter fun entry => qualifies entry.2).map Prod.fst

theorem mem_keysWhere {map : Std.TreeMap K V compare} {qualifies : V → Bool}
    {key : K} :
    key ∈ keysWhere map qualifies ↔
      ∃ value, map[key]? = some value ∧ qualifies value = true := by
  rw [keysWhere, List.mem_map]
  constructor
  · rintro ⟨⟨other, value⟩, hmem, rfl⟩
    rw [List.mem_filter, Std.TreeMap.mem_toList_iff_getElem?_eq_some] at hmem
    exact ⟨value, hmem⟩
  · rintro ⟨value, hfound⟩
    refine ⟨(key, value), ?_, rfl⟩
    rw [List.mem_filter, Std.TreeMap.mem_toList_iff_getElem?_eq_some]
    exact hfound

theorem nodup_keysWhere (map : Std.TreeMap K V compare)
    (qualifies : V → Bool) : (keysWhere map qualifies).Nodup := by
  rw [List.Nodup, keysWhere, List.pairwise_map]
  refine (Std.TreeMap.distinct_keys_toList.imp ?_).filter _
  intro left right hcompare heq
  rw [heq] at hcompare
  exact hcompare Std.ReflCmp.compare_self

theorem length_keysWhere_le {map : Std.TreeMap K V compare}
    {qualifies : V → Bool} {keys : List K}
    (hsubset : keysWhere map qualifies ⊆ keys) :
    (keysWhere map qualifies).length ≤ keys.length :=
  (List.subperm_of_subset (nodup_keysWhere map qualifies) hsubset).length_le

/-- The keys that qualify once `key` has a new value. -/
theorem keysWhere_insert_subset [DecidableEq K]
    (map : Std.TreeMap K V compare) (qualifies : V → Bool) (key : K)
    (value : V) :
    keysWhere (map.insert key value) qualifies ⊆
      if qualifies value then
        key :: (keysWhere map qualifies).filter (· ≠ key)
      else keysWhere map qualifies := by
  intro other hmem
  obtain ⟨found, hfound, hqualifies⟩ := mem_keysWhere.mp hmem
  rw [Std.TreeMap.getElem?_insert] at hfound
  split at hfound
  · next hsame =>
      have heq := Std.LawfulEqCmp.eq_of_compare hsame
      cases hfound
      rw [if_pos hqualifies, heq]
      exact List.mem_cons_self
  · next hother =>
      have hne : other ≠ key := fun heq =>
        hother (heq ▸ Std.ReflCmp.compare_self)
      have hold := mem_keysWhere.mpr ⟨found, hfound, hqualifies⟩
      split
      · refine List.mem_cons_of_mem _ (List.mem_filter.mpr ⟨hold, ?_⟩)
        rw [decide_eq_true_iff]
        exact hne
      · exact hold

theorem keysWhere_erase_subset (map : Std.TreeMap K V compare)
    (qualifies : V → Bool) (key : K) :
    keysWhere (map.erase key) qualifies ⊆ keysWhere map qualifies := by
  intro other hmem
  obtain ⟨found, hfound, hqualifies⟩ := mem_keysWhere.mp hmem
  rw [Std.TreeMap.getElem?_erase] at hfound
  split at hfound
  · cases hfound
  · exact mem_keysWhere.mpr ⟨found, hfound, hqualifies⟩

end Keys

/-! ## What is kept without a cap -/

def ActiveActivity.transfers (activity : ActiveActivity) : Bool :=
  activity.kind.isTransfer

def ActiveActivity.speaks (activity : ActiveActivity) : Bool :=
  activity.text ≠ ""

def NodeState.hasFailed (node : NodeState) : Bool :=
  node.status = .failed

/-- The forest keeps no more than `limit` of anything a summary shows. -/
structure Limited (limit : ℕ) (forest : BuildForest) : Prop where
  errors : forest.errors.length ≤ limit
  transfers :
    (keysWhere forest.activities ActiveActivity.transfers).length ≤ limit
  texts : (keysWhere forest.activities ActiveActivity.speaks).length ≤ limit
  failed : (keysWhere forest.nodes NodeState.hasFailed).length ≤ limit
  activityTypes : forest.unknownActivityTypes.size ≤ limit
  resultTypes : forest.unknownResultTypes.size ≤ limit
  recentLogs : forest.recentLogs.length ≤ recentLogLimit
  logTails : ∀ (path : String) node, forest.nodes[path]? = some node →
    node.logTail.length ≤ derivationLogTailLimit

/-- A code already counted, or room for another. -/
def RoomFor (limit : ℕ) (counts : Std.TreeMap Int ℕ compare) (code : Int) :
    Prop :=
  code ∈ counts ∨ counts.size < limit

/-- What a record may bring without the summary outgrowing `limit`. -/
structure RecordAllowed (limit : ℕ) (forest : BuildForest)
    (record : NixMessage) : Prop where
  start : record.action = "start" → ∀ id, record.id = some id →
    ((BuildForest.activityOf record).transfers = true →
      ((keysWhere forest.activities ActiveActivity.transfers).filter
        (· ≠ id)).length < limit) ∧
    ((BuildForest.activityOf record).speaks = true →
      ((keysWhere forest.activities ActiveActivity.speaks).filter
        (· ≠ id)).length < limit) ∧
    ∀ code, (BuildForest.activityOf record).kind = .other code →
      RoomFor limit forest.unknownActivityTypes code
  result : record.action = "result" → ∀ code,
    record.resultType = some (.other code) →
      RoomFor limit forest.unknownResultTypes code
  error : record.action = "msg" → record.level = some 0 → ∀ text,
    record.messageText = some text →
      forest.errors.length < limit ∧
        (keysWhere forest.nodes NodeState.hasFailed ∪
          (drvPaths text).toList).length ≤ limit

section Stream
variable (fromStr : List Char → Option NixMessage)

/-- What may reach a forest without its summary outgrowing `limit`. -/
def EventAllowed (limit : ℕ) (read : ReadForest) : ForestEvent → Prop
  | .line _ text => ∀ record, parseNixLine fromStr text = .record record →
      RecordAllowed limit read.forest record
  | .record _ record => RecordAllowed limit read.forest record
  | .read path drv =>
      (drv.inputDrvs.keys.foldl (·.insert ·) (read.detail path).inputs).size ≤
        limit ∧ drv.outputs.size ≤ limit
  | .unread .. => True
  | .take => True

def Feeds (before : ReadForest) (event : ForestEvent) (after : ReadForest) :
    Prop :=
  after = before.feed fromStr event

end Stream

/-! ## A record at a time -/

namespace Limited
variable {limit : ℕ} {forest : BuildForest}

/-- A change of a node that neither fails it nor lengthens its log. -/
structure Tame (change : NodeState → NodeState) : Prop where
  failed : ∀ node, (change node).hasFailed = true → node.hasFailed = true
  logTail : ∀ node, node.logTail.length ≤ derivationLogTailLimit →
    (change node).logTail.length ≤ derivationLogTailLimit

/-- What a change of one node keeps, whether or not the node fails. -/
theorem changeNode (hlimited : Limited limit forest) (path : String)
    {change : NodeState → NodeState}
    (hlog : ∀ node, node.logTail.length ≤ derivationLogTailLimit →
      (change node).logTail.length ≤ derivationLogTailLimit)
    (hfailed : (keysWhere (forest.updateNode path change).nodes
      NodeState.hasFailed).length ≤ limit) :
    Limited limit (forest.updateNode path change) where
  errors := hlimited.errors
  transfers := hlimited.transfers
  texts := hlimited.texts
  failed := hfailed
  activityTypes := hlimited.activityTypes
  resultTypes := hlimited.resultTypes
  recentLogs := hlimited.recentLogs
  logTails other node hfound := by
    rw [BuildForest.updateNode, Std.TreeMap.getElem?_insert] at hfound
    split at hfound
    · cases hfound
      apply hlog
      rw [Std.TreeMap.getD_eq_getD_getElem?]
      cases hold : forest.nodes[path]? with
      | none => exact Nat.zero_le _
      | some old => exact hlimited.logTails path old hold
    · exact hlimited.logTails other node hfound

theorem failed_updateNode_subset (forest : BuildForest) (path : String)
    {change : NodeState → NodeState} (htame : Tame change) :
    keysWhere (forest.updateNode path change).nodes NodeState.hasFailed ⊆
      keysWhere forest.nodes NodeState.hasFailed := by
  intro other hmem
  obtain ⟨node, hfound, hfailed⟩ := mem_keysWhere.mp hmem
  rw [BuildForest.updateNode, Std.TreeMap.getElem?_insert] at hfound
  split at hfound
  · next hsame =>
      cases hfound
      have heq := Std.LawfulEqCmp.eq_of_compare hsame
      have hbefore := htame.failed _ hfailed
      rw [Std.TreeMap.getD_eq_getD_getElem?] at hbefore
      cases hold : forest.nodes[path]? with
      | none =>
          rw [hold] at hbefore
          cases hbefore
      | some old =>
          rw [hold] at hbefore
          exact heq ▸ mem_keysWhere.mpr ⟨old, hold, hbefore⟩
  · exact mem_keysWhere.mpr ⟨node, hfound, hfailed⟩

theorem updateNode (hlimited : Limited limit forest) (path : String)
    {change : NodeState → NodeState} (htame : Tame change) :
    Limited limit (forest.updateNode path change) :=
  hlimited.changeNode path htame.logTail
    ((length_keysWhere_le
      (failed_updateNode_subset forest path htame)).trans hlimited.failed)

theorem addPending (hlimited : Limited limit forest) (path : String) :
    Limited limit (forest.addPending path) :=
  { hlimited with }

theorem tame_id : Tame id where
  failed _ hfailed := hfailed
  logTail _ hlog := hlog

theorem tame_workOn {status : DerivationStatus} (hstatus : status ≠ .failed)
    (host : Option String) (now : ℕ) :
    Tame (BuildForest.workOn status host now) where
  failed node hfailed := by
    change decide (status = .failed) = true at hfailed
    exact absurd (of_decide_eq_true hfailed) hstatus
  logTail _ hlog := hlog

theorem tame_say {change : NodeState → NodeState} (htame : Tame change)
    (said : Option String) :
    Tame fun node => { change node with lastActivity := said } where
  failed := htame.failed
  logTail := htame.logTail

theorem tame_settle (now : ℕ) : Tame (BuildForest.settle now) where
  failed node hfailed := by
    unfold BuildForest.settle at hfailed
    split at hfailed
    · exact hfailed
    · cases hfailed
  logTail node hlog := by
    unfold BuildForest.settle
    split <;> exact hlog

theorem tame_plan : Tame BuildForest.plan where
  failed node hfailed := by
    unfold BuildForest.plan at hfailed
    split at hfailed
    · cases hfailed
    · exact hfailed
  logTail node hlog := by
    unfold BuildForest.plan
    split <;> exact hlog

theorem markTransferNode (hlimited : Limited limit forest) (now : ℕ)
    (output : Option String) {status : DerivationStatus}
    (hstatus : status ≠ .failed) (host : Option String) :
    Limited limit (forest.markTransferNode now output status host) := by
  rw [BuildForest.markTransferNode]
  split
  · exact hlimited
  · exact hlimited.updateNode _ (tame_workOn hstatus host now)

theorem startNode (hlimited : Limited limit forest) (now : ℕ)
    (activity : ActiveActivity) :
    Limited limit (forest.startNode now activity) := by
  rw [BuildForest.startNode.eq_def]
  split
  · split
    · exact hlimited
    · exact (hlimited.updateNode _
        (tame_say (tame_workOn (by decide) activity.host now) _)).addPending _
  · exact hlimited.markTransferNode now _ (by decide) _
  · exact hlimited.markTransferNode now _ (by decide) _
  · exact hlimited.markTransferNode now _ (by decide) _
  · exact hlimited

theorem size_countUnknown_le {counts : Std.TreeMap Int ℕ compare} {code : Int}
    (hsize : counts.size ≤ limit) (hroom : RoomFor limit counts code) :
    (BuildForest.countUnknown counts code).size ≤ limit := by
  rw [BuildForest.countUnknown, Std.TreeMap.size_insert]
  split
  · exact hsize
  · next hnew =>
      exact hroom.resolve_left fun hold =>
        hnew (Std.TreeMap.mem_iff_contains.mp hold)

theorem countActivityType (hlimited : Limited limit forest)
    {kind : ActivityType}
    (hroom : ∀ code, kind = .other code →
      RoomFor limit forest.unknownActivityTypes code) :
    Limited limit (forest.countActivityType kind) := by
  rw [BuildForest.countActivityType.eq_def]
  split
  · next code =>
      exact { hlimited with
        activityTypes := size_countUnknown_le hlimited.activityTypes
          (hroom code rfl) }
  · exact hlimited

/-- One more of what qualifies, besides the others. -/
theorem length_insert_le {activities : Std.TreeMap ℕ ActiveActivity compare}
    {qualifies : ActiveActivity → Bool} {id : ℕ} {activity : ActiveActivity}
    (hbefore : (keysWhere activities qualifies).length ≤ limit)
    (hroom : qualifies activity = true →
      ((keysWhere activities qualifies).filter (· ≠ id)).length < limit) :
    (keysWhere (activities.insert id activity) qualifies).length ≤ limit := by
  have hsubset := keysWhere_insert_subset activities qualifies id activity
  cases hqualifies : qualifies activity with
  | true =>
      rw [hqualifies, if_pos rfl] at hsubset
      exact (length_keysWhere_le hsubset).trans (hroom hqualifies)
  | false =>
      rw [hqualifies, if_neg Bool.false_ne_true] at hsubset
      exact (length_keysWhere_le hsubset).trans hbefore

theorem activities_countActivityType (forest : BuildForest)
    (kind : ActivityType) :
    (forest.countActivityType kind).activities = forest.activities := by
  rw [BuildForest.countActivityType.eq_def]
  split <;> rfl

theorem start (hlimited : Limited limit forest) (now : ℕ)
    {record : NixMessage} (hallowed : RecordAllowed limit forest record)
    (haction : record.action = "start") :
    Limited limit (forest.start now record) := by
  rw [BuildForest.start]
  split
  · exact hlimited
  · next id hid =>
      obtain ⟨htransfers, htexts, hroom⟩ := hallowed.start haction id hid
      have hstarted :=
        (hlimited.countActivityType hroom).startNode now (BuildForest.activityOf record)
      have hsame : ((forest.countActivityType
          (BuildForest.activityOf record).kind).startNode now
            (BuildForest.activityOf record)).activities = forest.activities := by
        rw [activities_startNode, activities_countActivityType]
      refine { hstarted with transfers := ?_, texts := ?_ }
      · change (keysWhere (Std.TreeMap.insert _ id (BuildForest.activityOf record))
          ActiveActivity.transfers).length ≤ limit
        rw [hsame]
        exact length_insert_le hlimited.transfers htransfers
      · change (keysWhere (Std.TreeMap.insert _ id (BuildForest.activityOf record))
          ActiveActivity.speaks).length ≤ limit
        rw [hsame]
        exact length_insert_le hlimited.texts htexts

theorem stopNode (hlimited : Limited limit forest) (now : ℕ)
    (activity : ActiveActivity) :
    Limited limit (forest.stopNode now activity) := by
  have hupdated (path : String) :
      Limited limit (forest.updateNode path (BuildForest.settle now)) :=
    hlimited.updateNode _ (tame_settle now)
  rw [BuildForest.stopNode.eq_def]
  cases activity.kind with
  | build =>
      dsimp only
      split
      · exact hlimited
      · exact hupdated _
  | copyPath =>
      cases activity.path.bind (forest.outputToDrv[·]?) with
      | none => exact { hlimited with }
      | some path => exact { hupdated path with }
  | fileTransfer =>
      cases activity.path.bind (forest.outputToDrv[·]?) with
      | none => exact hlimited
      | some path => exact hupdated path
  | substitute =>
      cases activity.path.bind (forest.outputToDrv[·]?) with
      | none => exact { hlimited with }
      | some path => exact { hupdated path with }
  | _ => exact hlimited

theorem stop (hlimited : Limited limit forest) (now : ℕ) (id : Option ℕ) :
    Limited limit (forest.stop now id) := by
  rw [BuildForest.stop.eq_def]
  split
  · exact hlimited
  · next id =>
      split
      · exact hlimited
      · refine stopNode ?_ now _
        exact { hlimited with
          transfers := (length_keysWhere_le (keysWhere_erase_subset ..)).trans
            hlimited.transfers
          texts := (length_keysWhere_le (keysWhere_erase_subset ..)).trans
            hlimited.texts }

theorem length_pushBounded_le {A : Type} {queue : List A} {cap : ℕ}
    (value : A) (hcap : 0 < cap) (hlength : queue.length ≤ cap) :
    (pushBounded queue value cap).length ≤ cap := by
  rw [pushBounded, List.length_append, List.length_singleton]
  split
  · next hfull =>
      rw [List.length_tail, hfull, Nat.sub_add_cancel hcap]
  · next hroom => exact Nat.lt_of_le_of_ne hlength hroom

theorem pushLog (hlimited : Limited limit forest) (path text : String) :
    Limited limit (forest.pushLog path text) := by
  have hlogged : Limited limit (forest.updateNode path fun node =>
      { node with
        lastActivity := some text
        logTail := pushBounded node.logTail text derivationLogTailLimit }) :=
    hlimited.updateNode path
      ⟨fun _ hfailed => hfailed, fun node hlog =>
        length_pushBounded_le text (by decide) hlog⟩
  exact { hlogged with
    recentLogs :=
      length_pushBounded_le _ (by decide) hlimited.recentLogs }

/-- A result changes neither what an activity transfers nor what it says. -/
theorem updateActivity (hlimited : Limited limit forest) (id : ℕ)
    {change : ActiveActivity → ActiveActivity}
    (hkind : ∀ activity, (change activity).kind = activity.kind)
    (htext : ∀ activity, (change activity).text = activity.text) :
    Limited limit (forest.updateActivity id change) := by
  rw [BuildForest.updateActivity]
  cases hactivity : forest.activities[id]? with
  | none => exact hlimited
  | some activity =>
      have hkeeps {qualifies : ActiveActivity → Bool}
          (hsame : qualifies (change activity) = qualifies activity) :
          keysWhere (forest.activities.insert id (change activity)) qualifies ⊆
            keysWhere forest.activities qualifies := by
        intro other hmem
        obtain ⟨found, hfound, hqualifies⟩ := mem_keysWhere.mp hmem
        rw [Std.TreeMap.getElem?_insert] at hfound
        split at hfound
        · next heq =>
            cases hfound
            rw [← Std.LawfulEqCmp.eq_of_compare heq]
            exact mem_keysWhere.mpr ⟨activity, hactivity, hsame ▸ hqualifies⟩
        · exact mem_keysWhere.mpr ⟨found, hfound, hqualifies⟩
      have htransfers : (change activity).transfers = activity.transfers := by
        rw [ActiveActivity.transfers, ActiveActivity.transfers, hkind]
      have hspeaks : (change activity).speaks = activity.speaks := by
        rw [ActiveActivity.speaks, ActiveActivity.speaks, htext]
      exact { hlimited with
        transfers := (length_keysWhere_le (hkeeps htransfers)).trans
          hlimited.transfers
        texts := (length_keysWhere_le (hkeeps hspeaks)).trans hlimited.texts }

theorem report (hlimited : Limited limit forest) (id : ℕ)
    (path : Option String) (kind : Option ResultType) (fields : List Json) :
    Limited limit (forest.report id path kind fields) := by
  rw [BuildForest.report.eq_def]
  split
  · split
    · exact hlimited.pushLog _ _
    · exact hlimited
  · split
    · exact hlimited.pushLog _ _
    · exact hlimited
  · split
    · exact hlimited.updateNode _ (tame_say tame_id _)
    · exact hlimited
  · split
    · exact hlimited.updateNode _ (tame_say tame_id _)
    · exact hlimited
  · split
    · exact hlimited
    · exact hlimited.updateActivity id (fun _ => rfl) fun _ => rfl
  · split
    · exact hlimited
    · exact hlimited.updateActivity id (fun _ => rfl) fun _ => rfl
  · exact hlimited

theorem result (hlimited : Limited limit forest) {record : NixMessage}
    (hallowed : RecordAllowed limit forest record)
    (haction : record.action = "result") :
    Limited limit (forest.result record) := by
  have hcounted : Limited limit
      (forest.countResultType record.resultType) := by
    rw [BuildForest.countResultType.eq_def]
    split
    · next code hkind =>
        exact { hlimited with
          resultTypes := size_countUnknown_le hlimited.resultTypes
            (hallowed.result haction code hkind) }
    · exact hlimited
  rw [BuildForest.result]
  split
  · exact hcounted
  · split
    · exact hcounted
    · exact hcounted.report _ _ _ _

/-- An error fails the node it names, and no other. -/
theorem failed_fail_subset (forest : BuildForest) (now : ℕ) (path : String) :
    keysWhere (forest.updateNode path (BuildForest.fail now)).nodes
        NodeState.hasFailed ⊆
      path :: keysWhere forest.nodes NodeState.hasFailed := by
  intro other hmem
  obtain ⟨node, hfound, hfailed⟩ := mem_keysWhere.mp hmem
  rw [BuildForest.updateNode, Std.TreeMap.getElem?_insert] at hfound
  split at hfound
  · next heq =>
      rw [← Std.LawfulEqCmp.eq_of_compare heq]
      exact List.mem_cons_self
  · exact List.mem_cons_of_mem _ (mem_keysWhere.mpr ⟨node, hfound, hfailed⟩)

theorem failAll (now : ℕ) {paths all : List String}
    (hlimited : Limited limit forest)
    (hfailed : keysWhere forest.nodes NodeState.hasFailed ⊆ all)
    (hpaths : paths ⊆ all) (hall : all.length ≤ limit) :
    Limited limit (paths.foldl (fun forest path =>
      forest.updateNode path (BuildForest.fail now)) forest) := by
  induction paths generalizing forest with
  | nil => exact hlimited
  | cons path paths ih =>
      obtain ⟨hpath, hrest⟩ := List.cons_subset.mp hpaths
      have hafter : keysWhere (forest.updateNode path
          (BuildForest.fail now)).nodes NodeState.hasFailed ⊆ all :=
        List.Subset.trans (failed_fail_subset forest now path)
          (List.cons_subset.mpr ⟨hpath, hfailed⟩)
      exact ih (hlimited.changeNode path (fun _ hlog => hlog)
        ((length_keysWhere_le hafter).trans hall)) hafter hrest

theorem planAll (paths : List String) (hlimited : Limited limit forest) :
    Limited limit (paths.foldl (fun forest path =>
      (forest.updateNode path BuildForest.plan).addPending path) forest) := by
  induction paths generalizing forest with
  | nil => exact hlimited
  | cons path paths ih =>
      exact ih ((hlimited.updateNode path tame_plan).addPending path)

theorem message (hlimited : Limited limit forest) (now : ℕ)
    {record : NixMessage} (hallowed : RecordAllowed limit forest record)
    (haction : record.action = "msg") :
    Limited limit (forest.message now record) := by
  rw [BuildForest.message]
  split
  · exact hlimited
  · next text htext =>
      dsimp only
      split
      · next hlevel =>
          obtain ⟨herrors, hnodes⟩ := hallowed.error haction hlevel text htext
          have hadded : Limited limit
              { forest with errors := forest.errors ++ [text] } :=
            { hlimited with
              errors := by
                rw [List.length_append, List.length_singleton]
                exact herrors }
          refine hadded.failAll now ?_ ?_ hnodes
          · exact fun path hmem => List.mem_union_iff.mpr (.inl hmem)
          · exact fun path hmem => List.mem_union_iff.mpr (.inr hmem)
      · exact hlimited.planAll _

theorem feedMessage (hlimited : Limited limit forest) (now : ℕ)
    {record : NixMessage} (hallowed : RecordAllowed limit forest record) :
    Limited limit (forest.feedMessage now record) := by
  have hcounted : Limited limit
      { forest with version := saturatingSucc forest.version } :=
    { hlimited with }
  have hsame : RecordAllowed limit
      { forest with version := saturatingSucc forest.version } record :=
    ⟨hallowed.start, hallowed.result, hallowed.error⟩
  rw [BuildForest.feedMessage]
  split
  · next haction => exact hcounted.start now hsame haction
  · split
    · exact hcounted.stop now record.id
    · split
      · next haction => exact hcounted.result hsame haction
      · split
        · next haction => exact hcounted.message now hsame haction
        · exact { hcounted with }

end Limited

/-! ## A summary of what is kept -/

/-- The forest, and the edges of its graph, stay within `limit`. -/
structure Within (limit : ℕ) (read : ReadForest) : Prop where
  forest : Limited limit read.forest
  inputs : ∀ path, (read.detail path).inputs.size ≤ limit
  outputs : ∀ path, (read.detail path).outputs.size ≤ limit

/-- The rows show nodes of the snapshot. -/
theorem byPath_mem {nodes : List DerivationNode} {path : String}
    {node : DerivationNode} (hfound : (byPath nodes)[path]? = some node) :
    node ∈ nodes := by
  have hgeneral (map : BTreeMap DerivationNode)
      (hfold : (nodes.foldl (fun map node => map.insert node.path node)
        map)[path]? = some node) : node ∈ nodes ∨ map[path]? = some node := by
    clear hfound
    induction nodes generalizing map with
    | nil => exact .inr hfold
    | cons first rest ih =>
        rcases ih _ hfold with hmem | hinsert
        · exact .inl (List.mem_cons_of_mem _ hmem)
        · rw [Std.TreeMap.getElem?_insert] at hinsert
          split at hinsert
          · cases hinsert
            exact .inl List.mem_cons_self
          · exact .inr hinsert
  rcases hgeneral ∅ hfound with hmem | hempty
  · exact hmem
  · rw [Std.TreeMap.getElem?_emptyc] at hempty
    cases hempty

/-- Every row shows a node of the map. -/
def FromMap (nodes : BTreeMap DerivationNode) (rows : List DisplayRow) : Prop :=
  ∀ row ∈ rows, ∃ path : String, nodes[path]? = some row.node

theorem fromMap_foldl {nodes : BTreeMap DerivationNode}
    {show1 : BTreeSet × List DisplayRow → String → BTreeSet × List DisplayRow}
    (hone : ∀ shown path, FromMap nodes shown.2 →
      FromMap nodes (show1 shown path).2) (paths : List String)
    {shown : BTreeSet × List DisplayRow} (hshown : FromMap nodes shown.2) :
    FromMap nodes (paths.foldl show1 shown).2 := by
  induction paths generalizing shown with
  | nil => exact hshown
  | cons path paths ih => exact ih (hone shown path hshown)

theorem fromMap_visit (nodes : BTreeMap DerivationNode) (fuel depth : ℕ)
    (shown : BTreeSet × List DisplayRow) (path : String)
    (hshown : FromMap nodes shown.2) :
    FromMap nodes (visit nodes fuel depth shown path).2 := by
  induction fuel generalizing depth shown path with
  | zero => exact hshown
  | succ fuel ih =>
      rw [visit]
      split
      · exact hshown
      · split
        · exact hshown
        · next node hfound =>
            intro row hmem
            have hchildren : FromMap nodes ((sortPaths nodes node.inputs).foldl
                (visit nodes fuel (depth + 1))
                (shown.1.insert path, shown.2)).2 :=
              fromMap_foldl (ih (depth + 1)) _ hshown
            rcases List.mem_append.mp hmem with hold | hnew
            · exact hchildren row hold
            · rw [List.mem_singleton] at hnew
              exact ⟨path, hnew ▸ hfound⟩

theorem mem_of_displayRows {nodes : List DerivationNode} {roots : List String}
    {row : DisplayRow} (hmem : row ∈ displayRows nodes roots) :
    row.node ∈ nodes := by
  have hvisit := fromMap_visit (byPath nodes) ((byPath nodes).size + 1) 0
  have hrows : FromMap (byPath nodes) (displayRows nodes roots) := by
    refine fromMap_foldl hvisit _ (fromMap_foldl hvisit _ ?_)
    exact fun row hnone => absurd hnone List.not_mem_nil
  obtain ⟨path, hfound⟩ := hrows row hmem
  exact byPath_mem hfound

theorem mem_of_activityProjection {nodes : List DerivationNode}
    {roots : List String} {budget : ℕ} {row : DisplayRow}
    (hmem : row ∈ (activityProjection nodes roots budget).rows) :
    row.node ∈ nodes :=
  mem_of_displayRows (List.mem_of_mem_filter hmem)

theorem Within.node {limit : ℕ} {read : ReadForest} {elapsedMs : ℕ}
    (hwithin : Within limit read) {node : DerivationNode}
    (hmem : node ∈ read.derivationNodes elapsedMs) :
    node.inputs.length ≤ limit ∧ node.outputs.size ≤ limit ∧
      node.logTail.length ≤ derivationLogTailLimit := by
  obtain ⟨⟨path, state⟩, hentry, rfl⟩ := List.mem_map.mp hmem
  refine ⟨?_, hwithin.outputs path, ?_⟩
  · change (read.detail path).inputs.toList.length ≤ limit
    rw [Std.TreeSet.length_toList]
    exact hwithin.inputs path
  · exact hwithin.forest.logTails path state
      (Std.TreeMap.mem_toList_iff_getElem?_eq_some.mp hentry)

theorem length_currentActivity
    (activities : Std.TreeMap ℕ ActiveActivity compare) :
    (((activities.toList.map Prod.snd).filter (·.text ≠ "")).map
        ActiveActivity.text).length =
      (keysWhere activities ActiveActivity.speaks).length := by
  rw [List.length_map, keysWhere, List.length_map, List.filter_map,
    List.length_map]
  rfl

/-- A summary of what stays within `limit` has no more entries than that, or
than the caps. -/
theorem Within.bounded {limit : ℕ} {read : ReadForest}
    (hwithin : Within limit read) (elapsedMs : ℕ) :
    (read.snapshot elapsedMs).intoSummary.Bounded
      (max limit summaryActivityRowCap) := by
  have hlimit : limit ≤ max limit summaryActivityRowCap := Nat.le_max_left ..
  have hcap : summaryActivityRowCap ≤ max limit summaryActivityRowCap :=
    Nat.le_max_right ..
  have hrow (row : DisplayRow)
      (hmem : row ∈ (read.snapshot elapsedMs).intoSummary.activity.rows) :=
    hwithin.node (mem_of_activityProjection (List.mem_of_mem_take hmem))
  have hforest := hwithin.forest
  refine
    { rows := ?_
      inputs := fun row hmem => (hrow row hmem).1.trans hlimit
      outputs := fun row hmem => (hrow row hmem).2.1.trans hlimit
      logTail := fun row hmem =>
        (hrow row hmem).2.2.trans (Nat.le_trans (by decide) hcap)
      transfers := ?_
      recentLogs := hforest.recentLogs.trans hcap
      currentActivity := ?_
      failedDerivations := ?_
      errors := hforest.errors.trans hlimit
      unknownActivityTypes := hforest.activityTypes.trans hlimit
      unknownResultTypes := hforest.resultTypes.trans hlimit }
  · exact (List.length_take_le _ _).trans hcap
  · change read.forest.transfers.length ≤ _
    rw [BuildForest.transfers, List.length_map]
    have htransfers := hforest.transfers
    rw [keysWhere, List.length_map] at htransfers
    exact htransfers.trans hlimit
  · change (((read.forest.activities.toList.map Prod.snd).filter
      (·.text ≠ "")).map ActiveActivity.text).length ≤ _
    rw [length_currentActivity]
    exact hforest.texts.trans hlimit
  · change read.forest.failedDerivations.length ≤ _
    rw [BuildForest.failedDerivations, List.length_map]
    exact hforest.failed.trans hlimit

/-! ## Derivation reads and whole streams -/

theorem detail_updateDetail (read : ReadForest) (path other : String)
    (change : NodeDetail → NodeDetail) :
    (read.updateDetail path change).detail other =
      if other = path then change (read.detail path) else read.detail other := by
  rw [ReadForest.detail, ReadForest.updateDetail, Std.TreeMap.getD_insert]
  by_cases heq : other = path
  · subst heq
    simp
  · have hcompare : ¬ compare path other = .eq := fun hsame =>
      heq (Std.LawfulEqCmp.eq_of_compare hsame).symm
    rw [if_neg hcompare, if_neg heq]
    rfl

namespace Within
variable {limit : ℕ} {read : ReadForest}

theorem updateDetail (hwithin : Within limit read) (path : String)
    {change : NodeDetail → NodeDetail}
    (hinputs : (change (read.detail path)).inputs.size ≤ limit)
    (houtputs : (change (read.detail path)).outputs.size ≤ limit) :
    Within limit (read.updateDetail path change) where
  forest := hwithin.forest.updateNode path Limited.tame_id
  inputs other := by
    rw [detail_updateDetail]
    split
    · exact hinputs
    · exact hwithin.inputs other
  outputs other := by
    rw [detail_updateDetail]
    split
    · exact houtputs
    · exact hwithin.outputs other

theorem addOutputs (hwithin : Within limit read) (path : String)
    (outputs : List String) :
    Within limit (outputs.foldl (ReadForest.addOutput path) read) := by
  induction outputs generalizing read with
  | nil => exact hwithin
  | cons output outputs ih =>
      exact ih ⟨{ hwithin.forest with }, hwithin.inputs, hwithin.outputs⟩

theorem addInputs (hwithin : Within limit read) (inputs : List String) :
    Within limit (inputs.foldl ReadForest.addInput read) := by
  induction inputs generalizing read with
  | nil => exact hwithin
  | cons input inputs ih =>
      refine ih ⟨?_, hwithin.inputs, hwithin.outputs⟩
      have hentered := hwithin.forest.updateNode input Limited.tame_id
      rw [ReadForest.addInput]
      split
      · exact hentered
      · exact hentered.addPending input

theorem feed (fromStr : List Char → Option NixMessage)
    (hwithin : Within limit read) {event : ForestEvent}
    (hallowed : EventAllowed fromStr limit read event) :
    Within limit (read.feed fromStr event) := by
  cases event with
  | line now text =>
      refine ⟨?_, hwithin.inputs, hwithin.outputs⟩
      change Limited limit (read.forest.feedLine fromStr now text)
      rw [BuildForest.feedLine]
      split
      · next record hrecord =>
          exact hwithin.forest.feedMessage now (hallowed record hrecord)
      · exact { hwithin.forest with }
      · exact { hwithin.forest with }
  | record now record =>
      exact ⟨hwithin.forest.feedMessage now hallowed, hwithin.inputs,
        hwithin.outputs⟩
  | read path drv =>
      have hentered : Within limit (read.updateDetail path fun detail =>
          { detail with
            inputs := drv.inputDrvs.keys.foldl (·.insert ·) detail.inputs
            outputs := drv.outputs }) :=
        hwithin.updateDetail path hallowed.1 hallowed.2
      have hfilled : Within limit (read.backfill path drv) :=
        (hentered.addOutputs path drv.outputs.values).addInputs
          drv.inputDrvs.keys
      exact ⟨{ hfilled.forest with }, hfilled.inputs, hfilled.outputs⟩
  | unread path note =>
      have hnoted : Within limit (read.updateDetail path fun detail =>
          { detail with note := some note }) :=
        hwithin.updateDetail path (hwithin.inputs path) (hwithin.outputs path)
      exact ⟨{ hnoted.forest with }, hnoted.inputs, hnoted.outputs⟩
  | take =>
      exact ⟨{ hwithin.forest with }, hwithin.inputs, hwithin.outputs⟩

theorem new (limit : ℕ) (durations : BTreeMap ℕ) :
    Within limit (ReadForest.new durations) where
  forest :=
    { errors := Nat.zero_le _
      transfers := Nat.zero_le _
      texts := Nat.zero_le _
      failed := Nat.zero_le _
      activityTypes := Nat.zero_le _
      resultTypes := Nat.zero_le _
      recentLogs := Nat.zero_le _
      logTails := fun path node hfound => by
        rw [show (ReadForest.new durations).forest.nodes = ∅ from rfl,
          Std.TreeMap.getElem?_emptyc] at hfound
        cases hfound }
  inputs path := by
    have hdetail : (ReadForest.new durations).detail path = .default := by
      rw [ReadForest.detail, ReadForest.new, Std.TreeMap.getD_emptyc]
    rw [hdetail]
    exact Nat.zero_le _
  outputs path := by
    have hdetail : (ReadForest.new durations).detail path = .default := by
      rw [ReadForest.detail, ReadForest.new, Std.TreeMap.getD_emptyc]
    rw [hdetail]
    exact Nat.zero_le _

end Within

def errorRecord : NixMessage :=
  { action := "msg", id := none, level := some 0, typeCode := none
    text := none, msg := some "error: x", rawMsg := none, fields := [] }

theorem drvPaths_errorRecord : (drvPaths "error: x").toList = [] := by
  decide +kernel

theorem messageText_errorRecord : errorRecord.messageText = some "error: x" :=
  rfl

/-- The first error of a stream is within a limit of one. -/
theorem allowed_errorRecord :
    RecordAllowed 1 (ReadForest.new ∅).forest errorRecord where
  start haction := absurd haction (by decide)
  result haction := absurd haction (by decide)
  error _ _ text htext := by
    rw [messageText_errorRecord] at htext
    cases htext
    decide +kernel

/-- The text of an error that names no derivation is all it adds. -/
theorem errors_feed (read : ReadForest) :
    (read.feed unparsed (.record 0 errorRecord)).forest.errors =
      read.forest.errors ++ ["error: x"] := by
  change (BuildForest.message _ 0 errorRecord).errors = _
  rw [BuildForest.message, messageText_errorRecord]
  dsimp only
  rw [if_pos (show errorRecord.level = some 0 from rfl), drvPaths_errorRecord]
  rfl

theorem length_errors_feed (count : ℕ) (read : ReadForest) :
    (((List.replicate count (.record 0 errorRecord)).foldl
      (·.feed unparsed ·) read).forest.errors).length =
        read.forest.errors.length + count := by
  induction count generalizing read with
  | zero => rfl
  | succ count ih =>
      rw [List.replicate_succ, List.foldl_cons, ih, errors_feed,
        List.length_append, List.length_singleton]
      omega

end Mandala.Forest
