import Mandala.Panes.Scroll
import Mandala.Server.Activity

/-!
# The explorer's activity pane

The explorer follows the announcements of the leader's tool calls.  Calls that
have started are pending until they settle; settled ones are logged.  Its own
calls are left out: its job flags show them already.
-/

namespace Mandala.Explorer

open Mandala.Data Mandala.Panes Mandala.Server.Activity
open Mandala.Runner (recent)

/-- `MCP_LOG_MAX`. -/
def mcpLogMax : ℕ := 2000

inductive ContextRole where
  | leader
  | observer
  deriving DecidableEq

structure McpPending where
  tool : String
  origin : Option String
  args : String
  deriving DecidableEq

structure McpLogEntry where
  tool : String
  origin : Option String
  args : String
  label : String
  ok : Bool
  detail : Option String
  deriving DecidableEq

inductive McpFollowUp where
  | attach (kind : String) (runId : Option String)
  | driftLanded
  | reloadLanded
  deriving DecidableEq

/-- The part of the explorer's state that activity reads or writes. -/
structure ActivityPane where
  contextRole : Option ContextRole
  mcpClient : Option String
  mcpPending : Std.TreeMap ℕ McpPending compare
  mcpLog : List McpLogEntry
  mcpScroll : ScrollState

/-- How values are shown. -/
structure Display where
  /-- `Value::to_string`. -/
  json : Json → String
  /-- A number of seconds to one decimal. -/
  tenths : Json → String
  /-- Whether a number that is no integer is other than zero. -/
  floatTruthy : String → Bool

section Events

variable (display : Display)

/-- `truthy`. -/
def truthy : Option Json → Bool
  | none => false
  | some .null => false
  | some (.bool value) => value
  | some (.int value) => value ≠ 0
  | some (.float literal) => display.floatTruthy literal
  | some (.string value) => value ≠ ""
  | some (.array values) => !values.isEmpty
  | some (.object fields) => !fields.isEmpty

def pyRepr : Json → String
  | .string value => "'" ++ value ++ "'"
  | .bool true => "True"
  | .bool false => "False"
  | .null => "None"
  | other => display.json other

/-- `format_mcp_args`. -/
def formatMcpArgs (args : Json) : String :=
  match args.asObject with
  | none => ""
  | some fields =>
      " ".intercalate (fields.map fun field =>
        field.1 ++ "=" ++ pyRepr display field.2)

/-- `as_f64` succeeds on every number. -/
def secondsLabel : Option Json → String
  | some (.int value) => " · " ++ display.tenths (.int value) ++ "s"
  | some (.float literal) => " · " ++ display.tenths (.float literal) ++ "s"
  | _ => ""

def toolOf (event : Json) : String := (event.getStr "tool").getD "?"

def statusOf (event : Json) : String := (event.getStr "status").getD "?"

def seqOf (event : Json) : Option ℕ :=
  ((event.get "seq").bind Json.asU64).map Int.toNat

def argsOf (event : Json) : Json := (event.get "args").getD .null

def pendingOf (event : Json) : McpPending :=
  { tool := toolOf event
    origin := event.getStr "origin"
    args := formatMcpArgs display (argsOf event) }

def logEntryOf (event : Json) : McpLogEntry :=
  { tool := toolOf event
    origin := event.getStr "origin"
    args := formatMcpArgs display (argsOf event)
    label := statusOf event ++ secondsLabel display (event.get "elapsed")
    ok := statusOf event = "ok"
    detail := (event.getStr "detail").filter (· ≠ "") }

/-- What a call that settled well asks of the explorer. -/
def followUpOf (event : Json) : Option McpFollowUp :=
  let tool := toolOf event
  if tool = "deploy" ∨ tool = "reboot" then
    match event.get "result" with
    | none => some (.attach tool none)
    | some .null => some (.attach tool none)
    | some result =>
        if (result.get "ok").bind Json.asBool = some true then
          ((result.getStr "run_id").filter (· ≠ "")).map fun runId =>
            .attach tool (some runId)
        else none
  else if tool = "drift" ∧ (truthy display ((argsOf event).get "refresh") ∨
      truthy display ((argsOf event).get "do_eval")) then
    some .driftLanded
  else if tool = "reload" then some .reloadLanded
  else none

end Events

namespace ActivityPane

/-- The explorer before it has seen any activity. -/
def new (role : Option ContextRole) (client : Option String) : ActivityPane :=
  { contextRole := role
    mcpClient := client
    mcpPending := ∅
    mcpLog := []
    mcpScroll := .new }

/-- `is_own_call`. -/
def isOwnCall (pane : ActivityPane) (origin : Option String) : Bool :=
  match pane.contextRole with
  | some .leader => origin.isNone
  | some .observer => origin.isSome && decide (origin = pane.mcpClient)
  | none => false

variable (display : Display) (pane : ActivityPane)

def start (event : Json) : ActivityPane :=
  match seqOf event with
  | some seq =>
      { pane with mcpPending := pane.mcpPending.insert seq (pendingOf display event) }
  | none => pane

def settle (event : Json) : ActivityPane :=
  let log := recent mcpLogMax (pane.mcpLog ++ [logEntryOf display event])
  { pane with
    mcpPending :=
      match seqOf event with
      | some seq => pane.mcpPending.erase seq
      | none => pane.mcpPending
    mcpLog := log
    mcpScroll := pane.mcpScroll.updateContent log.length }

/-- `on_mcp_activity`. -/
def onMcpActivity (event : Json) : ActivityPane × Option McpFollowUp :=
  if pane.isOwnCall (event.getStr "origin") then (pane, none)
  else if statusOf event = "start" then (pane.start display event, none)
  else
    (pane.settle display event,
      if statusOf event = "ok" then followUpOf display event else none)

end ActivityPane

/-! ## What the leader's announcements show as -/

section Announcements

variable (display : Display)

/-- A call that is pending. -/
def shownPending (call : ToolCall) : McpPending :=
  { tool := call.tool
    origin := call.origin
    args := formatMcpArgs display (.object call.args) }

/-- A call that has settled. -/
def shownSettled (call : ToolCall) (outcome : Except String Json)
    (elapsed : String) : McpLogEntry :=
  { tool := call.tool
    origin := call.origin
    args := formatMcpArgs display (.object call.args)
    label := (match outcome with | .ok _ => "ok" | .error _ => "error") ++
      (" · " ++ display.tenths (.float elapsed) ++ "s")
    ok := match outcome with | .ok _ => true | .error _ => false
    detail := match outcome with
      | .ok _ => none
      | .error error => if error = "" then none else some error }

/-- What a call that settled well asks for, by its answer. -/
def requestedBy (call : ToolCall) (answer : Json) : Option McpFollowUp :=
  if call.tool = "deploy" ∨ call.tool = "reboot" then
    if (resultSummary answer).isNone then some (.attach call.tool none)
    else if (answer.get "ok").bind Json.asBool = some true then
      ((answer.getStr "run_id").filter (· ≠ "")).map fun runId =>
        .attach call.tool (some runId)
    else none
  else if call.tool = "drift" ∧
      (truthy display ((Json.object call.args).get "refresh") ∨
        truthy display ((Json.object call.args).get "do_eval")) then
    some .driftLanded
  else if call.tool = "reload" then some .reloadLanded
  else none

variable {display}

@[simp]
theorem toolOf_event (announcement : Announcement) :
    toolOf announcement.event = announcement.call.tool := by
  rw [toolOf, Announcement.getStr_tool, Option.getD_some]

@[simp]
theorem statusOf_event (announcement : Announcement) :
    statusOf announcement.event = announcement.status := by
  rw [statusOf, Announcement.getStr_status, Option.getD_some]

@[simp]
theorem argsOf_event (announcement : Announcement) :
    argsOf announcement.event = .object announcement.call.args := by
  rw [argsOf, Announcement.get_args, Option.getD_some]

theorem seqOf_event {announcement : Announcement}
    (hbound : announcement.call.seq < UInt64.size) :
    seqOf announcement.event = some announcement.call.seq := by
  rw [seqOf, Announcement.get_seq, Option.bind_some, Json.asU64_int hbound]
  rfl

theorem pendingOf_event (announcement : Announcement) :
    pendingOf display announcement.event =
      shownPending display announcement.call := by
  rw [pendingOf, shownPending, toolOf_event, argsOf_event,
    Announcement.getStr_origin]

theorem logEntryOf_event (call : ToolCall) (outcome : Except String Json)
    (elapsed : String) :
    logEntryOf display (Announcement.settled call outcome elapsed).event =
      shownSettled display call outcome elapsed := by
  have helapsed : (Announcement.settled call outcome elapsed).event.get
      "elapsed" = some (.float elapsed) := by
    obtain ⟨seq, origin, tool, args⟩ := call
    cases outcome <;> cases origin <;> rfl
  have hdetail : (Announcement.settled call outcome elapsed).event.getStr
      "detail" = match outcome with | .ok _ => none | .error error => some error := by
    obtain ⟨seq, origin, tool, args⟩ := call
    cases outcome <;> cases origin <;> rfl
  rw [logEntryOf, toolOf_event, argsOf_event, statusOf_event,
    Announcement.getStr_origin, helapsed, hdetail]
  cases outcome with
  | ok value => rfl
  | error error =>
      have hshown : (some error).filter (· ≠ "") =
          if error = "" then none else some error := by
        by_cases hempty : error = "" <;> simp [Option.filter, hempty]
      rw [shownSettled]
      exact congrArg _ hshown

/-- The summary has the fields it is made of as the answer has them. -/
theorem get_resultSummary {answer summary : Json}
    (hsummary : resultSummary answer = some summary) {key : String}
    (hkey : key ∈ ["ok", "refused", "run_id"]) :
    summary.get key = answer.get key := by
  cases answer with
  | object fields =>
      simp only [resultSummary, Json.asObject, Option.bind_some] at hsummary
      split at hsummary
      · cases hsummary
      · cases hsummary
        change List.lookup key _ = fields.lookup key
        simp only [List.mem_cons, List.not_mem_nil, or_false] at hkey
        rcases hkey with rfl | rfl | rfl <;>
          cases hok : fields.lookup "ok" <;>
          cases hrefused : fields.lookup "refused" <;>
          cases hrun : fields.lookup "run_id" <;>
          simp [List.lookup_cons, hok, hrefused, hrun]
  | _ => cases hsummary

theorem resultSummary_ne_null (answer : Json) :
    resultSummary answer ≠ some .null := by
  cases answer with
  | object fields =>
      simp only [resultSummary, Json.asObject, Option.bind_some]
      split <;> simp
  | _ => simp [resultSummary, Json.asObject]

theorem followUpOf_event (call : ToolCall) (answer : Json) (elapsed : String) :
    followUpOf display (Announcement.settled call (.ok answer) elapsed).event =
      requestedBy display call answer := by
  have hresult : (Announcement.settled call (.ok answer) elapsed).event.get
      "result" = some ((resultSummary answer).getD .null) := by
    obtain ⟨seq, origin, tool, args⟩ := call
    cases origin <;> rfl
  rw [followUpOf, requestedBy, toolOf_event, argsOf_event, hresult]
  change (if call.tool = "deploy" ∨ call.tool = "reboot" then _ else _) = _
  split
  · cases hsummary : resultSummary answer with
    | none => rfl
    | some summary =>
        have hok : summary.get "ok" = answer.get "ok" :=
          get_resultSummary hsummary (by decide)
        have hrun : summary.getStr "run_id" = answer.getStr "run_id" := by
          rw [Json.getStr, Json.getStr, get_resultSummary hsummary (by decide)]
        cases summary with
        | null => exact absurd hsummary (resultSummary_ne_null answer)
        | _ =>
            simp only [Option.getD_some, Option.isNone_some, Bool.false_eq_true,
              if_false, hok, hrun, Announcement.call]
  · rfl

end Announcements

end Mandala.Explorer
