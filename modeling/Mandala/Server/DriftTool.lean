import Mandala.Drift.Compare

/-!
# The drift tool

What the tool answers is assembled from the survey it ran, the revision, the
cache, the evaluation it was asked for, and the snapshots at that moment.
-/

namespace Mandala.Server

open Mandala.Data Mandala.Drift

structure DriftTool where
  refresh : Option Bool
  doEval : Option Bool
  statuses : Option (List String)

structure SurveyOutput where
  stdout : String
  stderr : String
  code : Int

structure EvalFailure where
  command : Option (List String)
  exitCode : Option Int
  output : String

/-- What the tool finds when it runs. -/
structure DriftInputs where
  survey : SurveyOutput
  rev : Option String
  cachedRev : Option String
  cached : BTreeMap String
  evaluation : Except EvalFailure Toplevels
  snapshots : BTreeMap Snapshot
  now : Int

def jsonOption {A : Type} (toJson : A → Json) : Option A → Json
  | none => .null
  | some value => toJson value

/-- `failure_value`. -/
def failureValue (summary : String) (failure : EvalFailure) : Json :=
  .object
    [("ok", .bool false), ("error", .string summary),
      ("command", jsonOption (fun command => .array (command.map .string))
        failure.command),
      ("exit_code", jsonOption .int failure.exitCode),
      ("output", .string failure.output)]

/-- A drift entry as the tool serializes it. -/
def entryValue (entry : DriftEntry) : Json :=
  .object
    ([("host", .string entry.host), ("status", .string entry.status.asStr),
      ("expected", jsonOption .string entry.expected),
      ("current", jsonOption .string entry.current),
      ("booted", jsonOption .string entry.booted),
      ("system_profile", jsonOption .string entry.systemProfile),
      ("captured_at", jsonOption .string entry.capturedAt)] ++
      match entry.evalError with
      | none => []
      | some error => [("eval_error", .string error)])

/-- The survey's part of the answer. -/
def surveyFields (survey : SurveyOutput) (answer : BTreeMap Json) :
    BTreeMap Json :=
  let counted := answer.insert "survey_rc" (.int survey.code)
  if survey.code = 0 then counted.insert "refreshed" (.bool true)
  else
    (counted.insert "ok" (.bool false)).insert "refresh_error"
      (.object
        [("exit_code", .int survey.code), ("stdout", .string survey.stdout),
          ("stderr", .string survey.stderr)])

/-- The evaluation's part of the answer. -/
def evaluationFields (evaluation : Except EvalFailure Toplevels)
    (answer : BTreeMap Json) : BTreeMap Json :=
  match evaluation with
  | .error failure =>
      answer.insert "eval_error"
        (failureValue "expected-toplevel eval failed" failure)
  | .ok evaluated =>
      let judged :=
        if evaluated.isComplete then answer
        else
          (answer.insert "ok" (.bool false)).insert "eval_failed"
            (.array (evaluated.errors.keys.map .string))
      judged.insert "expected_source" (.string "eval")

/-- What drift is judged against. -/
def DriftInputs.expected (inputs : DriftInputs) (tool : DriftTool) :
    Option Toplevels :=
  if tool.doEval.getD false then inputs.evaluation.toOption
  else if cacheFresh inputs.cachedRev inputs.rev then
    some (Toplevels.ofPaths inputs.cached)
  else none

/-- How many entries have each status. -/
def statusCounts (entries : List DriftEntry) : BTreeMap ℕ :=
  entries.foldl
    (fun counts entry =>
      counts.insert entry.status.asStr (counts.getD entry.status.asStr 0 + 1)) ∅

def wantedEntries (statuses : Option (List String)) (entries : List DriftEntry) :
    List DriftEntry :=
  match statuses with
  | some (status :: statuses) =>
      entries.filter fun entry => entry.status.asStr ∈ status :: statuses
  | _ => entries

/-- `tool_drift`, once its inputs are there. -/
def toolDrift (reading : Reading) (nodes : List String) (tool : DriftTool)
    (inputs : DriftInputs) : Json :=
  let entries := Drift.compare reading nodes inputs.snapshots
    (inputs.expected tool) (some defaultMaxAge) inputs.now
  let blank : BTreeMap Json :=
    ((((∅ : BTreeMap Json).insert "ok" (.bool true)).insert "refreshed"
      (.bool false)).insert "expected_source" (.string "none"))
  let surveyed :=
    if tool.refresh.getD false then surveyFields inputs.survey blank else blank
  let evaluated :=
    if tool.doEval.getD false then evaluationFields inputs.evaluation surveyed
    else if cacheFresh inputs.cachedRev inputs.rev then
      surveyed.insert "expected_source" (.string "cache")
    else surveyed
  let answered :=
    ((((evaluated.insert "rev" (jsonOption .string inputs.rev)).insert "summary"
      (.object ((statusCounts entries).toList.map fun count =>
        (count.1, .int count.2)))).insert "total" (.int entries.length)).insert
      "entries" (.array ((wantedEntries tool.statuses entries).map entryValue)))
  .object answered.toList

/-! ## Reading an answer -/

section Answers

variable (reading : Reading) (nodes : List String)

/-- Asking for an evaluation and nothing else. -/
def askEvaluation : DriftTool :=
  { refresh := none, doEval := some true, statuses := none }

theorem toolDrift_rev (tool : DriftTool) (inputs : DriftInputs) :
    (toolDrift reading nodes tool inputs).get "rev" =
      some (jsonOption .string inputs.rev) := by
  rw [toolDrift]
  simp only [Json.get_object_toList, Std.TreeMap.getElem?_insert]
  simp

theorem toolDrift_entries (tool : DriftTool) (inputs : DriftInputs) :
    (toolDrift reading nodes tool inputs).get "entries" =
      some (.array ((wantedEntries tool.statuses
        (Drift.compare reading nodes inputs.snapshots (inputs.expected tool)
          (some defaultMaxAge) inputs.now)).map entryValue)) := by
  rw [toolDrift]
  simp only [Json.get_object_toList, Std.TreeMap.getElem?_insert]
  simp

theorem toolDrift_evalError (inputs : DriftInputs) :
    (toolDrift reading nodes askEvaluation inputs).get "eval_error" =
      match inputs.evaluation with
      | .error failure =>
          some (failureValue "expected-toplevel eval failed" failure)
      | .ok _ => none := by
  rw [toolDrift]
  simp only [Json.get_object_toList, Std.TreeMap.getElem?_insert]
  cases hevaluation : inputs.evaluation with
  | error failure => simp [askEvaluation, evaluationFields]
  | ok evaluated =>
      cases hcomplete : evaluated.isComplete <;>
        simp [askEvaluation, evaluationFields, hcomplete]

end Answers

end Mandala.Server
