import Mandala.Forest.Message

/-!
# The build forest

The forest follows a stream of records: activities start, report and stop, and
messages name derivations.  Reading derivations is a separate job; without it
no output is known to belong to a derivation.
-/

namespace Mandala.Forest

open Mandala.Data Mandala.Text

inductive DerivationStatus where
  | unknown
  | planned
  | building
  | downloading
  | substituting
  | built
  | failed
  deriving DecidableEq, Repr

structure NodeState where
  status : DerivationStatus
  host : Option String
  lastActivity : Option String
  logTail : List String
  startedMs : Option ℕ
  finishedMs : Option ℕ

def NodeState.default : NodeState :=
  { status := .unknown
    host := none
    lastActivity := none
    logTail := []
    startedMs := none
    finishedMs := none }

structure ActivityProgress where
  done : Int
  expected : Int
  running : Int
  failed : Int
  deriving DecidableEq, Repr

structure ActiveActivity where
  kind : ActivityType
  path : Option String
  host : Option String
  source : Option String
  destination : Option String
  progress : Option ActivityProgress
  /-- The last expectation reported for each kind. -/
  expectations : List (ActivityType × Int)
  text : String
  deriving DecidableEq, Repr

structure BuildLogLine where
  derivation : String
  name : String
  line : String
  deriving DecidableEq, Repr

structure BuildForest where
  version : ℕ
  nodes : BTreeMap NodeState
  outputToDrv : BTreeMap String
  activities : Std.TreeMap ℕ ActiveActivity compare
  pendingDrvs : BTreeSet
  errors : List String
  unknownActivityTypes : Std.TreeMap Int ℕ compare
  unknownResultTypes : Std.TreeMap Int ℕ compare
  unknownActions : ℕ
  malformedMessages : ℕ
  ignoredLines : ℕ
  completedDownloads : ℕ
  completedSubstitutions : ℕ
  recentLogs : List BuildLogLine
  logSequence : ℕ

def BuildForest.new : BuildForest :=
  { version := 0
    nodes := ∅
    outputToDrv := ∅
    activities := ∅
    pendingDrvs := ∅
    errors := []
    unknownActivityTypes := ∅
    unknownResultTypes := ∅
    unknownActions := 0
    malformedMessages := 0
    ignoredLines := 0
    completedDownloads := 0
    completedSubstitutions := 0
    recentLogs := []
    logSequence := 0 }

/-- `u64::saturating_add(1)`. -/
def saturatingSucc (count : ℕ) : ℕ := min (count + 1) (UInt64.size - 1)

/-- `DERIVATION_LOG_TAIL_LIMIT` and `RECENT_LOG_LIMIT`. -/
def derivationLogTailLimit : ℕ := 64

def recentLogLimit : ℕ := 256

/-- `push_bounded`. -/
def pushBounded {A : Type} (queue : List A) (value : A) (limit : ℕ) : List A :=
  (if queue.length = limit then queue.tail else queue) ++ [value]

/-! ## Reading a record's fields -/

/-- A string field, when there is one. -/
def fieldStr (fields : List Json) (index : ℕ) : Option String :=
  fields[index]?.bind Json.asStr

def nonemptyField (fields : List Json) (index : ℕ) : Option String :=
  (fieldStr fields index).filter (· ≠ "")

def activityHost (kind : ActivityType) (fields : List Json) : Option String :=
  match kind with
  | .build | .substitute => nonemptyField fields 1
  | .copyPath => nonemptyField fields 2
  | _ => none

def activityEndpoints (kind : ActivityType) (fields : List Json) :
    Option String × Option String :=
  match kind with
  | .copyPath => (nonemptyField fields 1, nonemptyField fields 2)
  | .fileTransfer => (nonemptyField fields 0, none)
  | .substitute => (nonemptyField fields 1, none)
  | _ => (none, none)

def activityProgress (fields : List Json) : Option ActivityProgress := do
  let done ← (← fields[0]?).asU64
  let expected ← (← fields[1]?).asU64
  let running ← (← fields[2]?).asU64
  let failed ← (← fields[3]?).asU64
  return { done, expected, running, failed }

def activityExpectation (fields : List Json) : Option (ActivityType × Int) := do
  let kind ← (← fields[0]?).asI64
  let expected ← (← fields[1]?).asU64
  return (ActivityType.fromCode kind, expected)

def ActiveActivity.expect (activity : ActiveActivity)
    (expectation : ActivityType × Int) : ActiveActivity :=
  { activity with
    expectations := expectation ::
      activity.expectations.filter (·.1 ≠ expectation.1) }

/-- `derivation_name`: without a derivation's extension the whole path is read. -/
def derivationName (path : String) : String :=
  let chars := path.toList
  let basename := (chars.reverse.takeWhile (· ≠ '/')).reverse
  let base := (basename.dropSuffix? ".drv".toList).getD chars
  let hash := base.takeWhile (· ≠ '-')
  if base.contains '-' ∧ (String.ofList hash).utf8ByteSize = 32 then
    String.ofList (base.drop (hash.length + 1))
  else String.ofList base

def storeDir : List Char := "/nix/store/".toList

/-- The suffixes of a text that start at a store path; matches do not overlap. -/
def storeSuffixes (skip : ℕ) : List Char → List (List Char)
  | [] => []
  | character :: rest =>
      if 0 < skip then storeSuffixes (skip - 1) rest
      else if storeDir.isPrefixOf (character :: rest) then
        (character :: rest) :: storeSuffixes (storeDir.length - 1) rest
      else storeSuffixes 0 rest

/-- A path in a message ends before a space, a quote, an escape, a closing
bracket or a comma. -/
def endsPath (character : Char) : Bool :=
  isWhiteSpace character ||
    [0x27, 0x22, 0x1b, 0x29, 0x5d, 0x2c].contains character.toNat

/-- The path a suffix starts with, without trailing punctuation. -/
def storePath (suffix : List Char) : List Char :=
  ((suffix.takeWhile (!endsPath ·)).reverse.dropWhile
    (['.', ':', ';'].contains ·)).reverse

/-- `drv_paths`. -/
def drvPaths (text : String) : BTreeSet :=
  Std.TreeSet.ofList
    ((((storeSuffixes 0 text.toList).map storePath).filter
      (".drv".toList.isSuffixOf ·)).map String.ofList) compare

/-! ## Feeding records -/

namespace BuildForest

/-- `nodes.entry(path).or_default()`, then a change of that node. -/
def updateNode (forest : BuildForest) (path : String)
    (change : NodeState → NodeState) : BuildForest :=
  { forest with
    nodes := forest.nodes.insert path
      (change (forest.nodes.getD path .default)) }

def updateActivity (forest : BuildForest) (id : ℕ)
    (change : ActiveActivity → ActiveActivity) : BuildForest :=
  match forest.activities[id]? with
  | none => forest
  | some activity =>
      { forest with activities := forest.activities.insert id (change activity) }

def addPending (forest : BuildForest) (path : String) : BuildForest :=
  { forest with pendingDrvs := forest.pendingDrvs.insert path }

/-- A node that starts to be worked on. -/
def workOn (status : DerivationStatus) (host : Option String) (now : ℕ)
    (node : NodeState) : NodeState :=
  { node with status, host, startedMs := node.startedMs <|> some now }

/-- A node whose activity stopped; a failure sticks. -/
def settle (now : ℕ) (node : NodeState) : NodeState :=
  if node.status = .failed then node
  else { node with status := .built, finishedMs := some now }

def fail (now : ℕ) (node : NodeState) : NodeState :=
  { node with status := .failed, finishedMs := some now }

def plan (node : NodeState) : NodeState :=
  if node.status = .unknown then { node with status := .planned } else node

def markTransferNode (forest : BuildForest) (now : ℕ) (output : Option String)
    (status : DerivationStatus) (host : Option String) : BuildForest :=
  match output.bind (forest.outputToDrv[·]?) with
  | none => forest
  | some path => forest.updateNode path (workOn status host now)

/-- What a start does to the nodes. -/
def startNode (forest : BuildForest) (now : ℕ) (activity : ActiveActivity) :
    BuildForest :=
  match activity.kind with
  | .build =>
      match activity.path.filter (".drv".toList.isSuffixOf ·.toList) with
      | none => forest
      | some path =>
          (forest.updateNode path fun node =>
            { workOn .building activity.host now node with
              lastActivity :=
                if activity.text = "" then none else some activity.text })
            |>.addPending path
  | .copyPath | .fileTransfer =>
      forest.markTransferNode now activity.path .downloading activity.host
  | .substitute =>
      forest.markTransferNode now activity.path .substituting activity.host
  | _ => forest

/-- The activity a start record announces. -/
def activityOf (message : NixMessage) : ActiveActivity :=
  let kind := message.activityType.getD .unknown
  let endpoints := activityEndpoints kind message.fields
  { kind
    path := fieldStr message.fields 0
    host := activityHost kind message.fields
    source := endpoints.1
    destination := endpoints.2
    progress := none
    expectations := []
    text := message.text.getD "" }

def countUnknown (counts : Std.TreeMap Int ℕ compare) (code : Int) :
    Std.TreeMap Int ℕ compare :=
  counts.insert code (counts.getD code 0 + 1)

def countActivityType (forest : BuildForest) (kind : ActivityType) :
    BuildForest :=
  match kind with
  | .other code =>
      { forest with
        unknownActivityTypes := countUnknown forest.unknownActivityTypes code }
  | _ => forest

def start (forest : BuildForest) (now : ℕ) (message : NixMessage) : BuildForest :=
  match message.id with
  | none => forest
  | some id =>
      let activity := activityOf message
      let started := (forest.countActivityType activity.kind).startNode now activity
      { started with activities := started.activities.insert id activity }

/-- What a stop does to the nodes and the completion counters. -/
def stopNode (forest : BuildForest) (now : ℕ) (activity : ActiveActivity) :
    BuildForest :=
  match activity.kind with
  | .build =>
      match activity.path with
      | none => forest
      | some path => forest.updateNode path (settle now)
  | .copyPath | .fileTransfer | .substitute =>
      let settled :=
        match activity.path.bind (forest.outputToDrv[·]?) with
        | none => forest
        | some path => forest.updateNode path (settle now)
      match activity.kind with
      | .copyPath =>
          { settled with
            completedDownloads := saturatingSucc settled.completedDownloads }
      | .substitute =>
          { settled with
            completedSubstitutions :=
              saturatingSucc settled.completedSubstitutions }
      | _ => settled
  | _ => forest

def stop (forest : BuildForest) (now : ℕ) (id : Option ℕ) : BuildForest :=
  match id with
  | none => forest
  | some id =>
      match forest.activities[id]? with
      | none => forest
      | some activity =>
          { forest with activities := forest.activities.erase id }.stopNode now
            activity

def pushLog (forest : BuildForest) (path text : String) : BuildForest :=
  let logged := forest.updateNode path fun node =>
    { node with
      lastActivity := some text
      logTail := pushBounded node.logTail text derivationLogTailLimit }
  { logged with
    recentLogs := pushBounded logged.recentLogs
      { derivation := path, name := derivationName path, line := text }
      recentLogLimit
    logSequence := saturatingSucc logged.logSequence }

def countResultType (forest : BuildForest) (kind : Option ResultType) :
    BuildForest :=
  match kind with
  | some (.other code) =>
      { forest with
        unknownResultTypes := countUnknown forest.unknownResultTypes code }
  | _ => forest

/-- What a result of a live activity does. -/
def report (forest : BuildForest) (id : ℕ) (path : Option String)
    (kind : Option ResultType) (fields : List Json) : BuildForest :=
  match kind with
  | some .buildLogLine | some .postBuildLogLine =>
      match path, fieldStr fields 0 with
      | some path, some text => forest.pushLog path text
      | _, _ => forest
  | some .setPhase | some .fetchStatus =>
      match path, fieldStr fields 0 with
      | some path, some text =>
          forest.updateNode path fun node => { node with lastActivity := some text }
      | _, _ => forest
  | some .progress =>
      match activityProgress fields with
      | none => forest
      | some progress =>
          forest.updateActivity id fun activity =>
            { activity with progress := some progress }
  | some .setExpected =>
      match activityExpectation fields with
      | none => forest
      | some expectation => forest.updateActivity id (·.expect expectation)
  | _ => forest

def result (forest : BuildForest) (message : NixMessage) : BuildForest :=
  let counted := forest.countResultType message.resultType
  match message.id with
  | none => counted
  | some id =>
      match counted.activities[id]? with
      | none => counted
      | some activity =>
          counted.report id activity.path message.resultType message.fields

def message (forest : BuildForest) (now : ℕ) (message : NixMessage) :
    BuildForest :=
  match message.messageText with
  | none => forest
  | some text =>
      let paths := (drvPaths text).toList
      if message.level = some 0 then
        paths.foldl (fun forest path => forest.updateNode path (fail now))
          { forest with errors := forest.errors ++ [text] }
      else
        paths.foldl (fun forest path =>
          (forest.updateNode path plan).addPending path) forest

def feedMessage (forest : BuildForest) (now : ℕ) (record : NixMessage) :
    BuildForest :=
  let counted := { forest with version := saturatingSucc forest.version }
  if record.action = "start" then counted.start now record
  else if record.action = "stop" then counted.stop now record.id
  else if record.action = "result" then counted.result record
  else if record.action = "msg" then counted.message now record
  else { counted with unknownActions := saturatingSucc counted.unknownActions }

def feedLine (fromStr : List Char → Option NixMessage) (now : ℕ)
    (forest : BuildForest) (line : List Char) : BuildForest :=
  match parseNixLine fromStr line with
  | .record record => forest.feedMessage now record
  | .ordinary => { forest with ignoredLines := forest.ignoredLines + 1 }
  | .malformed =>
      { forest with malformedMessages := forest.malformedMessages + 1 }

end BuildForest

/-! ## What a snapshot shows -/

structure Transfer where
  id : ℕ
  kind : ActivityType
  path : Option String
  host : Option String
  source : Option String
  destination : Option String
  progress : Option ActivityProgress
  text : String
  deriving DecidableEq, Repr

def ActivityType.isTransfer : ActivityType → Bool
  | copyPath | fileTransfer | substitute => true
  | _ => false

namespace BuildForest

/-- The transfers under way, in id order. -/
def transfers (forest : BuildForest) : List Transfer :=
  ((forest.activities.toList.filter (·.2.kind.isTransfer)).map fun entry =>
    { id := entry.1
      kind := entry.2.kind
      path := entry.2.path
      host := entry.2.host
      source := entry.2.source
      destination := entry.2.destination
      progress := entry.2.progress
      text := entry.2.text })

/-- The paths of the nodes in a status, in order. -/
def pathsIn (forest : BuildForest) (status : DerivationStatus) : List String :=
  (forest.nodes.toList.filter (·.2.status = status)).map Prod.fst

def failedDerivations (forest : BuildForest) : List String :=
  (forest.pathsIn .failed).map derivationName

end BuildForest

end Mandala.Forest
