import Mandala.Forest.BuildForest

/-!
# Snapshots and summaries of a forest

Reading derivations adds the edges of the build graph.  A snapshot shows the
whole graph; its summary is what goes through transports of limited size.
-/

namespace Mandala.Forest

open Mandala.Data

/-! ## Reading derivations -/

structure Derivation where
  outputs : BTreeMap String
  inputDrvs : BTreeMap (List String)

/-- What reading its derivation says of a node. -/
structure NodeDetail where
  inputs : BTreeSet
  outputs : BTreeMap String
  note : Option String

def NodeDetail.default : NodeDetail :=
  { inputs := ∅, outputs := ∅, note := none }

/-- A forest with the derivations read so far. -/
structure ReadForest where
  forest : BuildForest
  details : BTreeMap NodeDetail
  drvCache : BTreeMap (Option Derivation)
  /-- `duration_estimates_ms`. -/
  durations : BTreeMap ℕ

namespace ReadForest

/-- `BuildForest::with_duration_estimates`. -/
def new (durations : BTreeMap ℕ) : ReadForest :=
  { forest := .new, details := ∅, drvCache := ∅, durations }

def detail (read : ReadForest) (path : String) : NodeDetail :=
  read.details.getD path .default

/-- `nodes.entry(path).or_default()`, then a change of its details. -/
def updateDetail (read : ReadForest) (path : String)
    (change : NodeDetail → NodeDetail) : ReadForest :=
  { read with
    forest := read.forest.updateNode path id
    details := read.details.insert path (change (read.detail path)) }

def addOutput (path : String) (read : ReadForest) (output : String) :
    ReadForest :=
  { read with forest :=
      { read.forest with
        outputToDrv := read.forest.outputToDrv.insert output path } }

def addInput (read : ReadForest) (input : String) : ReadForest :=
  let entered := read.forest.updateNode input id
  { read with forest :=
      if read.drvCache.contains input then entered
      else entered.addPending input }

def backfill (read : ReadForest) (path : String) (drv : Derivation) :
    ReadForest :=
  let entered := read.updateDetail path fun detail =>
    { detail with
      inputs := drv.inputDrvs.keys.foldl (·.insert ·) detail.inputs
      outputs := drv.outputs }
  drv.inputDrvs.keys.foldl addInput
    (drv.outputs.values.foldl (addOutput path) entered)

def versioned (read : ReadForest) : ReadForest :=
  { read with forest :=
      { read.forest with version := saturatingSucc read.forest.version } }

def applyDerivation (read : ReadForest) (path : String) (drv : Derivation) :
    ReadForest :=
  let filled := read.backfill path drv
  { filled with drvCache := filled.drvCache.insert path (some drv) }.versioned

def applyDerivationError (read : ReadForest) (path note : String) :
    ReadForest :=
  let noted := read.updateDetail path fun detail =>
    { detail with note := some note }
  { noted with drvCache := noted.drvCache.insert path none }.versioned

/-- `take_pending_derivations`: what is handed to the reader is not pending any
more. -/
def takePending (read : ReadForest) : List String × ReadForest :=
  (read.forest.pendingDrvs.toList.filter fun path =>
      !read.drvCache.contains path,
    { read with forest := { read.forest with pendingDrvs := ∅ } })

end ReadForest

/-- What reaches a forest: a line of the stream, a record, or the outcome of
reading a derivation. -/
inductive ForestEvent where
  | line (now : ℕ) (text : List Char)
  | record (now : ℕ) (record : NixMessage)
  | read (path : String) (drv : Derivation)
  | unread (path note : String)
  | take

def ReadForest.feed (fromStr : List Char → Option NixMessage)
    (read : ReadForest) : ForestEvent → ReadForest
  | .line now text =>
      { read with forest := read.forest.feedLine fromStr now text }
  | .record now record =>
      { read with forest := read.forest.feedMessage now record }
  | .read path drv => read.applyDerivation path drv
  | .unread path note => read.applyDerivationError path note
  | .take => read.takePending.2

/-! ## Snapshots -/

structure DerivationNode where
  path : String
  name : String
  status : DerivationStatus
  inputs : List String
  outputs : BTreeMap String
  host : Option String
  lastActivity : Option String
  logTail : List String
  note : Option String
  startedMs : Option ℕ
  finishedMs : Option ℕ
  etaSeconds : Option ℕ

structure ForestCounts where
  untracked : ℕ
  planned : ℕ
  building : ℕ
  downloading : ℕ
  substituting : ℕ
  built : ℕ
  failed : ℕ
  deriving DecidableEq, Repr

structure ActivityExpectation where
  kind : ActivityType
  expected : Int

structure DisplayRow where
  depth : ℕ
  node : DerivationNode

structure ElidedCounts where
  untracked : ℕ
  planned : ℕ
  built : ℕ
  deriving DecidableEq, Repr

structure ActivityProjection where
  rows : List DisplayRow
  elided : ElidedCounts

structure ForestSnapshot where
  version : ℕ
  elapsedMs : ℕ
  nodes : List DerivationNode
  roots : List String
  counts : ForestCounts
  activity : ActivityProjection
  completedDownloads : ℕ
  completedSubstitutions : ℕ
  transfers : List Transfer
  recentLogs : List BuildLogLine
  expectations : List ActivityExpectation
  currentActivity : List String
  failedDerivations : List String
  errors : List String
  unknownActivityTypes : Std.TreeMap Int ℕ compare
  unknownResultTypes : Std.TreeMap Int ℕ compare
  unknownActions : ℕ
  malformedMessages : ℕ
  ignoredLines : ℕ

/-- `u64::div_ceil(1_000)`. -/
def divCeilThousand (millis : ℕ) : ℕ := (millis + 999) / 1000

namespace ReadForest

def etaSeconds (read : ReadForest) (elapsedMs : ℕ) (name : String)
    (node : NodeState) : Option ℕ :=
  if node.status = .built ∨ node.status = .failed then none
  else read.durations[name]?.map fun estimate =>
    divCeilThousand (estimate -
      (node.startedMs.map (elapsedMs - ·)).getD 0)

def derivationNode (read : ReadForest) (elapsedMs : ℕ) (path : String)
    (node : NodeState) : DerivationNode :=
  let detail := read.detail path
  { path
    name := derivationName path
    status := node.status
    inputs := detail.inputs.toList
    outputs := detail.outputs
    host := node.host
    lastActivity := node.lastActivity
    logTail := node.logTail
    note := detail.note
    startedMs := node.startedMs
    finishedMs := node.finishedMs
    etaSeconds := read.etaSeconds elapsedMs (derivationName path) node }

def derivationNodes (read : ReadForest) (elapsedMs : ℕ) :
    List DerivationNode :=
  read.forest.nodes.toList.map fun entry =>
    read.derivationNode elapsedMs entry.1 entry.2

/-- The nodes no other node has for an input. -/
def roots (read : ReadForest) : List String :=
  read.forest.nodes.keys.filter fun path =>
    !read.forest.nodes.keys.any fun other =>
      (read.detail other).inputs.contains path

end ReadForest

def countNodes (nodes : List DerivationNode) : ForestCounts :=
  let count (status : DerivationStatus) : ℕ :=
    nodes.countP (·.status = status)
  { untracked := count .unknown, planned := count .planned
    building := count .building, downloading := count .downloading
    substituting := count .substituting, built := count .built
    failed := count .failed }

/-! ## The rows on display -/

def priority : DerivationStatus → ℕ
  | .failed => 0
  | .building => 1
  | .downloading | .substituting => 2
  | .planned => 3
  | .built => 4
  | .unknown => 5

/-- `compare`: nodes that are not known come last. -/
def compareNodes (left right : Option DerivationNode) : Ordering :=
  match left, right with
  | some left, some right =>
      (compare (priority left.status) (priority right.status)).then
        (compare left.name right.name)
  | some _, none => .lt
  | none, some _ => .gt
  | none, none => .eq

def sortPaths (nodes : BTreeMap DerivationNode) (paths : List String) :
    List String :=
  paths.mergeSort fun left right =>
    compareNodes nodes[left]? nodes[right]? ≠ .gt

/-- `visit`.  Whoever is inside another visit is a node of its own, so one more
than there are nodes is fuel enough. -/
def visit (nodes : BTreeMap DerivationNode) :
    ℕ → ℕ → BTreeSet × List DisplayRow → String → BTreeSet × List DisplayRow
  | 0, _, shown, _ => shown
  | fuel + 1, depth, (seen, rows), path =>
      if seen.contains path then (seen, rows)
      else
        match nodes[path]? with
        | none => (seen.insert path, rows)
        | some node =>
            let shown := (sortPaths nodes node.inputs).foldl
              (visit nodes fuel (depth + 1)) (seen.insert path, rows)
            (shown.1, shown.2 ++ [{ depth, node }])

/-- The nodes under their paths. -/
def byPath (nodes : List DerivationNode) : BTreeMap DerivationNode :=
  nodes.foldl (fun map node => map.insert node.path node) ∅

def displayRows (nodes : List DerivationNode) (roots : List String) :
    List DisplayRow :=
  let map := byPath nodes
  let visitAll := visit map (map.size + 1) 0
  let fromRoots := (sortPaths map roots).foldl visitAll (∅, [])
  ((nodes.map DerivationNode.path).foldl visitAll fromRoots).2

def isMandatory : DerivationStatus → Bool
  | .building | .downloading | .substituting | .failed => true
  | _ => false

/-- The nodes that have the path for an input. -/
def parentsOf (nodes : List DerivationNode) (path : String) : List String :=
  (nodes.filter (·.inputs.contains path)).map DerivationNode.path

/-- A parent that is new is kept and climbed from later. -/
def keepParent (kept : BTreeSet × List String) (parent : String) :
    BTreeSet × List String :=
  if kept.1.contains parent then kept
  else (kept.1.insert parent, parent :: kept.2)

/-- The worklist of the ancestors, its last element first.  A path is put on it
once, when it is kept, so there are no more rounds than nodes. -/
def climb (nodes : List DerivationNode) : ℕ → BTreeSet × List String → BTreeSet
  | 0, (keep, _) => keep
  | _, (keep, []) => keep
  | fuel + 1, (keep, path :: frontier) =>
      climb nodes fuel ((parentsOf nodes path).foldl keepParent (keep, frontier))

/-- Names taken while there is room. -/
def fill (budget : ℕ) (keep : BTreeSet) (paths : List String) : BTreeSet :=
  paths.foldl (fun keep path =>
    if budget ≤ keep.size then keep else keep.insert path) keep

/-- `DEFAULT_ACTIVITY_ROW_BUDGET`. -/
def defaultActivityRowBudget : ℕ := 64

def activityProjection (nodes : List DerivationNode) (roots : List String)
    (rowBudget : ℕ) : ActivityProjection :=
  let full := displayRows nodes roots
  let mandatory : BTreeSet := (nodes.filter (isMandatory ·.status)).foldl
    (fun keep node => keep.insert node.path) ∅
  let climbed := climb nodes nodes.length (mandatory, mandatory.toList.reverse)
  let planned := fill rowBudget climbed
    ((full.filter (·.node.status = .planned)).map (·.node.path))
  let keep :=
    if planned.isEmpty then
      fill rowBudget planned (roots.filter (byPath nodes).contains)
    else planned
  let elided (status : DerivationStatus) : ℕ :=
    nodes.countP fun node =>
      !keep.contains node.path && decide (node.status = status)
  { rows := full.filter fun row => keep.contains row.node.path
    elided :=
      { untracked := elided .unknown, planned := elided .planned
        built := elided .built } }

namespace ReadForest

/-- `snapshot`. -/
def snapshot (read : ReadForest) (elapsedMs : ℕ) : ForestSnapshot :=
  let nodes := read.derivationNodes elapsedMs
  let activities := read.forest.activities.toList.map Prod.snd
  { version := read.forest.version
    elapsedMs
    nodes
    roots := read.roots
    counts := countNodes nodes
    activity := activityProjection nodes read.roots defaultActivityRowBudget
    completedDownloads := read.forest.completedDownloads
    completedSubstitutions := read.forest.completedSubstitutions
    transfers := read.forest.transfers
    recentLogs := read.forest.recentLogs
    expectations := activities.flatMap fun activity =>
      activity.expectations.map fun entry =>
        { kind := entry.1, expected := entry.2 }
    currentActivity :=
      (activities.filter (·.text ≠ "")).map ActiveActivity.text
    failedDerivations := read.forest.failedDerivations
    errors := read.forest.errors
    unknownActivityTypes := read.forest.unknownActivityTypes
    unknownResultTypes := read.forest.unknownResultTypes
    unknownActions := read.forest.unknownActions
    malformedMessages := read.forest.malformedMessages
    ignoredLines := read.forest.ignoredLines }

end ReadForest

/-! ## Summaries -/

/-- `SUMMARY_ACTIVITY_ROW_CAP`. -/
def summaryActivityRowCap : ℕ := 256

structure ForestSummary where
  version : ℕ
  elapsedMs : ℕ
  counts : ForestCounts
  activity : ActivityProjection
  activityRowsTruncated : ℕ
  completedDownloads : ℕ
  completedSubstitutions : ℕ
  transfers : List Transfer
  recentLogs : List BuildLogLine
  currentActivity : List String
  failedDerivations : List String
  errors : List String
  unknownActivityTypes : Std.TreeMap Int ℕ compare
  unknownResultTypes : Std.TreeMap Int ℕ compare
  unknownActions : ℕ
  malformedMessages : ℕ
  ignoredLines : ℕ

/-- `into_summary`. -/
def ForestSnapshot.intoSummary (snapshot : ForestSnapshot) : ForestSummary :=
  { version := snapshot.version
    elapsedMs := snapshot.elapsedMs
    counts := snapshot.counts
    activity :=
      { snapshot.activity with
        rows := snapshot.activity.rows.take summaryActivityRowCap }
    activityRowsTruncated :=
      snapshot.activity.rows.length - summaryActivityRowCap
    completedDownloads := snapshot.completedDownloads
    completedSubstitutions := snapshot.completedSubstitutions
    transfers := snapshot.transfers
    recentLogs := snapshot.recentLogs
    currentActivity := snapshot.currentActivity
    failedDerivations := snapshot.failedDerivations
    errors := snapshot.errors
    unknownActivityTypes := snapshot.unknownActivityTypes
    unknownResultTypes := snapshot.unknownResultTypes
    unknownActions := snapshot.unknownActions
    malformedMessages := snapshot.malformedMessages
    ignoredLines := snapshot.ignoredLines }

/-- No list and no map of the summary has more than so many entries, those of
the rows included. -/
structure ForestSummary.Bounded (summary : ForestSummary) (bound : ℕ) :
    Prop where
  rows : summary.activity.rows.length ≤ bound
  inputs : ∀ row ∈ summary.activity.rows, row.node.inputs.length ≤ bound
  outputs : ∀ row ∈ summary.activity.rows, row.node.outputs.size ≤ bound
  logTail : ∀ row ∈ summary.activity.rows, row.node.logTail.length ≤ bound
  transfers : summary.transfers.length ≤ bound
  recentLogs : summary.recentLogs.length ≤ bound
  currentActivity : summary.currentActivity.length ≤ bound
  failedDerivations : summary.failedDerivations.length ≤ bound
  errors : summary.errors.length ≤ bound
  unknownActivityTypes : summary.unknownActivityTypes.size ≤ bound
  unknownResultTypes : summary.unknownResultTypes.size ≤ bound

end Mandala.Forest
