import Mandala.Drift.Compare
import Mandala.Fleet.Aggregate

/-!
# The explorer's state

Loads, expected evaluations and surveys run in the background; the state says
which to start and takes in what they settle with.  Loads and evaluations share
one slot, and a request that finds the slot taken is queued.
-/

namespace Mandala.Explorer

open Mandala.Data Mandala.Drift Mandala.Fleet Mandala.Ordering Mandala.Text

structure MemberRow where
  name : String
  platform : String
  arch : String
  category : String
  role : String
  tags : String
  surfaces : String
  deriving DecidableEq, Repr

structure GroupRow where
  name : String
  n : String
  members : String
  deriving DecidableEq, Repr

structure DriftRow where
  name : String
  status : DriftStatus
  current : String
  expected : String
  booted : String
  captured : String
  deriving DecidableEq, Repr

structure LoadedInventory where
  inventory : Inventory
  rev : Option String
  cachedRev : Option String
  cached : BTreeMap String

structure LoadRequest where
  generation : ℕ
  fresh : Bool
  deriving DecidableEq, Repr

/-- The part of the state that loads, evaluations and surveys read or write. -/
structure AppState where
  memberRows : List MemberRow
  groupRows : List GroupRow
  driftRows : List DriftRow
  driftHint : String
  inventory : Option Inventory
  expected : Option Toplevels
  rev : Option String
  cachedRev : Option String
  generation : ℕ
  busy : Bool
  expectedEvalRunning : Bool
  expectedEvalPending : Bool
  reloadPending : Bool
  freshWanted : Bool
  surveying : Bool
  surveyN : ℕ
  status : String
  statusSticky : Bool

def AppState.new : AppState :=
  { memberRows := []
    groupRows := []
    driftRows := []
    driftHint := ""
    inventory := none
    expected := none
    rev := none
    cachedRev := none
    generation := 0
    busy := false
    expectedEvalRunning := false
    expectedEvalPending := false
    reloadPending := false
    freshWanted := false
    surveying := false
    surveyN := 0
    status := ""
    statusSticky := false }

/-! ## Rows -/

/-- `field_or`. -/
def fieldOr (value : Option Json) (default : String) : String :=
  (value.bind Json.asStr).getD default

def roleOrDash (value : Option Json) : String :=
  match value.bind Json.asStr with
  | some role => if role ≠ "" then role else "-"
  | none => "-"

def joinTags (value : Option Json) : String :=
  match value.bind Json.asArray with
  | some tags => " ".intercalate (tags.filterMap Json.asStr)
  | none => ""

/-- `short_store`. -/
def shortStore (path : Option String) : String :=
  let chars := (path.getD "").toList
  String.ofList (((chars.dropPrefix? "/nix/store/".toList).getD chars).take 18)

/-- `short_rev`. -/
def shortRev (rev : Option String) : String :=
  match rev with
  | none => "?"
  | some rev =>
      match rev.toList.dropSuffix? "-dirty".toList with
      | some base => String.ofList (base.take 11) ++ "-dirty"
      | none => String.ofList (rev.toList.take 11)

/-- `drift_hint`. -/
def driftHint (expectedKnown : Bool) (rev cachedRev : Option String) : String :=
  "S refresh drift (survey + eval) · R reboot a reboot-pending row" ++
    if expectedKnown then "   expected @ " ++ shortRev rev
    else if cachedRev.isSome then
      "   contract MOVED since last eval (cache @ " ++ shortRev cachedRev ++
        ", repo @ " ++ shortRev rev ++ ") — press S"
    else "   (expected NOT evaluated yet — press S)"

/-- `Inventory::deploy_nodes`. -/
def deployNodesOf (inventory : Inventory) : List String :=
  match ((inventory.aggregate.projections.bind (·.get "deploy")).bind
    (·.get "nodes")).bind Json.asArray with
  | some nodes => nodes.filterMap Json.asStr
  | none => []

def driftRow (entry : DriftEntry) : DriftRow :=
  { name := entry.host
    status := entry.status
    current := shortStore entry.current
    expected := shortStore entry.expected
    booted := shortStore entry.booted
    captured := String.ofList ((entry.capturedAt.getD "").toList.take 19) }

section Transitions

variable (reading : Reading)

/-- `Member::surfaces`. -/
def surfaces (member : Member) : String :=
  let flag (key field : String) : Bool :=
    (((member.get "deployment").bind (·.get key)).bind (·.get field)).any
      (jsonTruthy reading)
  String.ofList
    [if flag "ansible" "enable" then 'a' else '-',
      if flag "deployRs" "enable" then 'd' else '-',
      if flag "sops" "recipient" then 's' else '-']

def memberRow (entry : String × Member) : MemberRow :=
  { name := entry.1
    platform := fieldOr (entry.2.get "platform") "?"
    arch := fieldOr (entry.2.get "architecture") "?"
    category := fieldOr (entry.2.get "category") "?"
    role := roleOrDash (entry.2.get "role")
    tags := joinTags (entry.2.get "tags")
    surfaces := surfaces reading entry.2 }

def groupRow (entry : String × List String) : GroupRow :=
  { name := entry.1
    n := toString entry.2.length
    members := " ".intercalate (sortNames entry.2) }

namespace AppState

variable (state : AppState)

/-- `set_status`: a success does not overwrite a sticky error. -/
def setStatus (text : String) (error : Bool) : AppState :=
  if error || !state.statusSticky then
    { state with status := text, statusSticky := error }
  else state

/-- `deploy_nodes`. -/
def deployNodes : List String :=
  match state.inventory with
  | some inventory => deployNodesOf inventory
  | none => []

/-- `fill_drift`. -/
def fillDrift (snapshots : BTreeMap Snapshot) (now : Int) : AppState :=
  { state with
    driftRows :=
      (Drift.compare reading state.deployNodes snapshots state.expected
        (some defaultMaxAge) now).map driftRow
    driftHint := Explorer.driftHint state.expected.isSome state.rev state.cachedRev }

/-! ## Loads -/

def requestLoad : AppState × Option LoadRequest :=
  if state.busy then ({ state with reloadPending := true }, none)
  else
    ({ state with busy := true, freshWanted := false },
      some { generation := state.generation, fresh := state.freshWanted })

def requestRebind (fresh : Bool) : AppState × Option LoadRequest :=
  requestLoad
    { state with
      generation := state.generation + 1
      inventory := none
      expected := none
      freshWanted := state.freshWanted || fresh }

def requestReload : AppState × Option LoadRequest := state.requestRebind true

def requestInventorySwap : AppState × Option LoadRequest :=
  state.requestRebind false

def consumePendingReload : AppState × Option LoadRequest :=
  if state.reloadPending && !state.busy then
    requestLoad { state with reloadPending := false }
  else (state, none)

/-- The views a load fills in. -/
def adopt (loaded : LoadedInventory) : AppState :=
  { state with
    rev := loaded.rev
    cachedRev := loaded.cachedRev
    expected :=
      if cacheFresh loaded.cachedRev loaded.rev then
        some (Toplevels.ofPaths loaded.cached)
      else state.expected
    memberRows := loaded.inventory.members.toList.map (memberRow reading)
    groupRows := loaded.inventory.groups.toList.map groupRow
    inventory := some loaded.inventory }

/-- `fill`. -/
def fill (loaded : LoadedInventory) (snapshots : BTreeMap Snapshot) (now : Int) :
    AppState × Option LoadRequest :=
  let filled := (state.adopt reading loaded).fillDrift reading snapshots now
  consumePendingReload
    ({ filled with busy := false }.setStatus
      (toString loaded.inventory.members.size ++ " members, " ++
        toString loaded.inventory.groups.size ++
        " groups — space/shift+↑↓ select · p ping · R reboot · D deploy")
      false)

/-- The last line of an evaluation error. -/
def lastLine (error : String) : String :=
  match (lines error.toList).getLast? with
  | none | some [] => "unknown"
  | some line => String.ofList line

/-- `on_load_finished`. -/
def onLoadFinished (generation : ℕ) (result : Except String LoadedInventory)
    (snapshots : BTreeMap Snapshot) (now : Int) : AppState × Option LoadRequest :=
  if generation ≠ state.generation then
    consumePendingReload { state with busy := false }
  else
    match result with
    | .error error =>
        consumePendingReload
          ({ state with busy := false }.setStatus
            ("aggregate eval failed: " ++ lastLine error) true)
    | .ok loaded => state.fill reading loaded snapshots now

/-! ## The expected evaluation and the survey -/

def requestEvalExpected : AppState × Bool :=
  if state.busy then
    ({ state with
      expectedEvalPending := state.expectedEvalPending || !state.expectedEvalRunning },
      false)
  else ({ state with busy := true, expectedEvalRunning := true }, true)

def startPendingEvalExpected : AppState × Bool :=
  if state.busy || !state.expectedEvalPending then (state, false)
  else
    ({ state with
      expectedEvalPending := false
      busy := true
      expectedEvalRunning := true }, true)

def requestSurvey : AppState × Bool :=
  if state.surveying then (state, false)
  else ({ state with surveying := true, surveyN := 0 }, true)

/-- `refresh_drift`: which of the evaluation and the survey to start. -/
def refreshDrift : AppState × (Bool × Bool) :=
  let evaluated := { state with statusSticky := false }.requestEvalExpected
  let surveyed := evaluated.1.requestSurvey
  (surveyed.1, (evaluated.2, surveyed.2))

/-- `after_mutation`. -/
def afterMutation (rc : Option Int) : AppState × (Bool × Bool) :=
  if rc.isSome then state.refreshDrift else (state, (false, false))

def partialFailure (expected : Toplevels) : String :=
  "eval failed for " ++ toString expected.errors.size ++ " host(s): " ++
    ", ".intercalate expected.errors.keys

/-- What an expected evaluation leaves in the state, before drift is painted. -/
def adoptExpected (result : Except String (Option String × Toplevels)) :
    AppState :=
  match result with
  | .ok (rev, expected) =>
      { state with rev, cachedRev := rev, expected := some expected }
  | .error _ => { state with expected := none }

/-- The error an expected evaluation reports, if any. -/
def evalError (result : Except String (Option String × Toplevels)) :
    Option String :=
  match result with
  | .ok (_, expected) =>
      if expected.isComplete then none else some (partialFailure expected)
  | .error error => some error

/-- `on_drift_eval_finished`. -/
def onDriftEvalFinished (result : Except String (Option String × Toplevels))
    (snapshots : BTreeMap Snapshot) (now : Int) : AppState × Option LoadRequest :=
  let settled :=
    { state with busy := false, expectedEvalRunning := false }.adoptExpected result
  let filled := settled.fillDrift reading snapshots now
  consumePendingReload
    (match evalError result with
      | some error => filled.setStatus error true
      | none => filled.setStatus "drift refreshed" false)

def onSurveyProgress (n : ℕ) : AppState := { state with surveyN := n }

/-- `on_survey_done`. -/
def onSurveyDone (n : ℕ) (rc : Int) (error : Option String)
    (snapshots : BTreeMap Snapshot) (now : Int) : AppState :=
  let filled :=
    { state with surveying := false, surveyN := n }.fillDrift reading snapshots now
  if rc = 0 then
    filled.setStatus
      ("drift refreshed · surveyed " ++ toString n ++ " host" ++
        if n = 1 then "" else "s") false
  else
    let text := "survey failed (exit " ++ toString rc ++ "): " ++ error.getD ""
    filled.setStatus
      (String.ofList (text.toList.reverse.dropWhile isWhiteSpace).reverse) true

/-- `on_mcp_drift_landed`. -/
def onMcpDriftLanded (rev cachedRev : Option String) (cached : BTreeMap String)
    (snapshots : BTreeMap Snapshot) (now : Int) : AppState :=
  let adopted :=
    { state with
      rev
      cachedRev
      expected :=
        if cacheFresh cachedRev rev then some (Toplevels.ofPaths cached)
        else state.expected }
  (adopted.fillDrift reading snapshots now).setStatus "drift refreshed (mcp)" false

end AppState

end Transitions

end Mandala.Explorer
