import Mandala.Explorer.Watching
import Mandala.Server.NodeTools

/-!
# Attaching to the runs other clients launch

A `deploy` or `reboot` of another client answers with the run it launched, the
wrapper publishes a summary of the answer, and the explorer attaches to the run
the summary names.  A refused or failed call launches none.
-/

namespace Mandala.Explorer

open Mandala.Data Mandala.Effects Mandala.Fleet Mandala.Server
  Mandala.Server.Activity Mandala.Transition

/-! ## What a call launched -/

def deployRunOf : Exchange Serving → Option String
  | ⟨.launchDeploy _, .ok run⟩ => some run.runId
  | _ => none

/-- The run a `deploy` launched. -/
def deployLaunched (trace : Trace Serving) : Option String :=
  trace.findSome? deployRunOf

def rebootRunOf : Exchange Nodes → Option String
  | ⟨.launchCommand .., .ok launch⟩ =>
      if launch.launched then some launch.runId else none
  | _ => none

/-- The run a `reboot` launched. -/
def rebootLaunched (trace : Trace Nodes) : Option String :=
  trace.findSome? rebootRunOf

/-- An answer tells of the run that was launched. -/
structure Tells (answer : Json) (run : Option String) : Prop where
  summary : (resultSummary answer).isSome
  ok : answer.get "ok" = some (.bool run.isSome)
  run : ∀ runId, run = some runId → answer.getStr "run_id" = some runId

/-- A tool returns an answer that tells what was launched, or an error when
nothing was. -/
def Honest {E : Type} (result : Except E Json) (run : Option String) : Prop :=
  match result with
  | .ok answer => Tells answer run
  | .error _ => run = none

theorem deployLaunched_quiet {trace : Trace Serving}
    (hquiet : ∀ exchange ∈ trace, ∀ launch, ¬ Starts exchange launch) :
    deployLaunched trace = none := by
  rw [deployLaunched, List.findSome?_eq_none_iff]
  intro exchange hmem
  rw [deployRunOf.eq_def]
  split
  · next launch run => exact absurd rfl (hquiet _ hmem launch)
  · rfl

theorem ensures_deployFrom (inventory : Inventory) (flake : String)
    (tool : DeployTool) :
    Ensures (deployFrom inventory flake tool).run fun trace result =>
      Honest result (deployLaunched trace) := by
  rw [deployFrom]
  cases inventory.toLimit tool.selector with
  | error error => exact ensures_done_iff.mpr rfl
  | ok target =>
      dsimp only
      split
      · refine ensures_done_iff.mpr ⟨rfl, rfl, ?_⟩
        intro runId hrun
        cases hrun
      · refine ensures_request_iff.mpr fun reply => ?_
        cases reply with
        | error error => exact ensures_done_iff.mpr rfl
        | ok run =>
            refine ensures_done_iff.mpr ⟨rfl, rfl, ?_⟩
            intro runId hrun
            cases hrun
            rfl

theorem ensures_toolDeploy (flake : String) (tool : DeployTool) :
    Ensures (toolDeploy flake tool).run fun trace result =>
      Honest result (deployLaunched trace) := by
  rw [toolDeploy, ExceptT.run_bind, ensures_bind_iff]
  refine (ensures_inventory flake).mono ?_
  intro first answer hfirst
  have hquiet := deployLaunched_quiet hfirst.1
  cases answer with
  | error error =>
      refine ensures_done_iff.mpr ?_
      rw [List.append_nil]
      exact hquiet
  | ok inventory =>
      refine (ensures_deployFrom inventory flake tool).mono ?_
      intro second result hsecond
      have hlaunched : deployLaunched (first ++ second) = deployLaunched second := by
        rw [deployLaunched, List.findSome?_append]
        change (deployLaunched first).or _ = _
        rw [hquiet]
        rfl
      rw [hlaunched]
      exact hsecond

theorem ensures_rebootFrom (inventory : Inventory) (root ansibleDir : String)
    (tool : RebootTool) :
    Ensures (rebootFrom inventory root ansibleDir tool).run fun trace result =>
      Honest result (rebootLaunched trace) := by
  rw [rebootFrom]
  cases inventory.toLimit tool.selector with
  | error error => exact ensures_done_iff.mpr rfl
  | ok target =>
      dsimp only
      split
      · exact ensures_done_iff.mpr rfl
      · split
        · refine ensures_done_iff.mpr ⟨rfl, rfl, ?_⟩
          intro runId hrun
          cases hrun
        · refine ensures_request_iff.mpr fun reply => ?_
          cases reply with
          | error error => exact ensures_done_iff.mpr rfl
          | ok launch =>
              obtain ⟨runId, log, started⟩ := launch
              cases started with
              | false =>
                  refine ensures_done_iff.mpr ⟨rfl, rfl, ?_⟩
                  intro runId hrun
                  cases hrun
              | true =>
                  refine ensures_done_iff.mpr ⟨rfl, rfl, ?_⟩
                  intro runId hrun
                  cases hrun
                  rfl

/-! ## Runs in which the tools answer -/

/-- An outcome is the tool's result, with the error as text. -/
def Reports {E : Type} (outcome : Except String Json) (result : Except E Json) :
    Prop :=
  match outcome, result with
  | .ok answer, .ok other => answer = other
  | .error _, .error _ => True
  | _, _ => False

section Attached

variable (launches : ToolCall → Option String)

/-- How a call can settle: its arguments are refused, or its tool ran.  Of a
`deploy` or `reboot` it is known which run it launched. -/
inductive Settles (call : ToolCall) : Except String Json → Prop where
  | refused (error : String) (hnone : launches call = none) :
      Settles call (.error error)
  | deploy {flake : String} {tool : DeployTool} {trace : Trace Serving}
      {result : Except ToolError Json} {outcome : Except String Json}
      (htool : call.tool = "deploy")
      (hexec : Executes (toolDeploy flake tool).run trace result)
      (hreports : Reports outcome result)
      (hrun : launches call = deployLaunched trace) : Settles call outcome
  | reboot {inventory : Inventory} {root ansibleDir : String} {tool : RebootTool}
      {trace : Trace Nodes} {result : Except NodeToolError Json}
      {outcome : Except String Json} (htool : call.tool = "reboot")
      (hexec : Executes (rebootFrom inventory root ansibleDir tool).run trace result)
      (hreports : Reports outcome result)
      (hrun : launches call = rebootLaunched trace) : Settles call outcome
  | other {outcome : Except String Json}
      (htool : call.tool ≠ "deploy" ∧ call.tool ≠ "reboot")
      (hnone : launches call = none) : Settles call outcome

/-- The leader's calls settle as its tools answer. -/
def AnswersHonestly (watching : Watching) : WatchLabel → Prop
  | .serve (.settle index outcome elapsed ts written) =>
      WatchCounts watching (.serve (.settle index outcome elapsed ts written)) ∧
        ∀ call phase, watching.handler.calls[index]? = some (call, phase) →
          Settles launches call outcome
  | label => WatchCounts watching label

theorem AnswersHonestly.counts {watching : Watching} {label : WatchLabel}
    (hhonest : AnswersHonestly launches watching label) :
    WatchCounts watching label := by
  cases label with
  | serve label =>
      cases label with
      | settle index outcome elapsed ts written => exact hhonest.1
      | _ => exact hhonest
  | _ => exact hhonest

/-- The outcome of a call that has settled. -/
def outcomeOf : CallPhase → Option (Except String Json)
  | .settled outcome _ => some outcome
  | .returned outcome _ => some outcome
  | _ => none

/-- Every call that has settled did so as its tool answers. -/
def Settled (handler : Handler) : Prop :=
  ∀ call phase, (call, phase) ∈ handler.calls →
    ∀ outcome, outcomeOf phase = some outcome → Settles launches call outcome

variable {launches}

theorem Settled.setPhase {handler : Handler} (hsettled : Settled launches handler)
    {index : ℕ} {call : ToolCall} {phase : CallPhase}
    (hphase : ∀ outcome, outcomeOf phase = some outcome →
      Settles launches call outcome) :
    Settled launches (handler.setPhase index call phase) := by
  intro other otherPhase hmem outcome houtcome
  rcases List.mem_or_eq_of_mem_set hmem with hold | hnew
  · exact hsettled other otherPhase hold outcome houtcome
  · cases hnew
    exact hphase outcome houtcome

theorem Settled.act {before after : Handler} {label : HandlerLabel}
    (hsettled : Settled launches before) (hact : before.act label = some after)
    (hhonest : ∀ index outcome elapsed ts written,
      label = .settle index outcome elapsed ts written →
        ∀ call phase, before.calls[index]? = some (call, phase) →
          Settles launches call outcome) :
    Settled launches after := by
  cases label with
  | enter origin tool args =>
      cases hact
      intro call phase hmem outcome houtcome
      rcases List.mem_append.mp hmem with hold | hnew
      · exact hsettled call phase hold outcome houtcome
      · cases List.mem_singleton.mp hnew
        cases houtcome
  | announce index =>
      simp only [Handler.act] at hact
      split at hact
      · cases hact
        exact hsettled.setPhase fun outcome houtcome => by cases houtcome
      · cases hact
  | settle index outcome elapsed ts written =>
      simp only [Handler.act] at hact
      split at hact
      · next call hfound =>
          cases hact
          refine hsettled.setPhase fun other hother => ?_
          cases hother
          exact hhonest index outcome elapsed ts written rfl call _ hfound
      · cases hact
  | publish index =>
      simp only [Handler.act] at hact
      split at hact
      · next call outcome elapsed hfound =>
          cases hact
          refine hsettled.setPhase fun other hother => ?_
          cases hother
          exact hsettled call _ (List.mem_of_getElem? hfound) outcome rfl
      · cases hact
  | abandon index =>
      simp only [Handler.act] at hact
      split at hact
      · cases hact
        exact hsettled.setPhase fun outcome houtcome => by cases houtcome
      · cases hact

variable {display : Display} {role : Option ContextRole} {client : Option String}
variable {watching : Watching}

theorem Reachable.settled
    (hreach : Reachable (· = Watching.new role client) (WatchStep display)
      (AnswersHonestly launches) watching) :
    Settled launches watching.handler := by
  apply hreach.invariant
  · rintro watching rfl call phase hmem
    cases hmem
  · intro before label after hsettled hhonest hstep
    cases label with
    | serve label =>
        simp only [WatchStep, Watching.act, Option.map_eq_some_iff] at hstep
        obtain ⟨handler, hact, rfl⟩ := hstep
        refine hsettled.act hact ?_
        rintro index outcome elapsed ts written rfl
        exact hhonest.2
    | deliver =>
        simp only [WatchStep, Watching.act] at hstep
        split at hstep
        · cases hstep
        · cases hstep
          exact hsettled
    | lose index =>
        simp only [WatchStep, Watching.act] at hstep
        split at hstep
        · cases hstep
          exact hsettled
        · cases hstep

/-! ## What is attached -/

def isAttach : McpFollowUp → Bool
  | .attach _ _ => true
  | _ => false

/-- The attachment to the run a call launched, once it is heard to settle. -/
def attachmentOf (launches : ToolCall → Option String) :
    Announcement → Option McpFollowUp
  | .started _ => none
  | .settled call _ _ =>
      (launches call).map fun runId => .attach call.tool (some runId)

theorem requestedBy_tells {call : ToolCall} {answer : Json} {run : Option String}
    (htool : call.tool = "deploy" ∨ call.tool = "reboot")
    (htells : Tells answer run) (hid : ∀ runId, run = some runId → runId ≠ "") :
    requestedBy display call answer =
      run.map fun runId => .attach call.tool (some runId) := by
  have hsummary : ¬ (resultSummary answer).isNone := by
    rw [Option.isNone_iff_eq_none]
    exact Option.isSome_iff_ne_none.mp htells.summary
  rw [requestedBy, if_pos htool, if_neg hsummary, htells.ok, Option.bind_some]
  cases run with
  | none => rfl
  | some runId =>
      rw [htells.run runId rfl]
      simp [Json.asBool, Option.filter, hid runId rfl]

theorem requestedBy_other {call : ToolCall} {answer : Json}
    (htool : call.tool ≠ "deploy" ∧ call.tool ≠ "reboot") :
    (requestedBy display call answer).filter isAttach = none := by
  rw [requestedBy, if_neg (not_or.mpr htool)]
  split
  · rfl
  · split <;> rfl

theorem honest_of_settles {E : Type} {call : ToolCall}
    {outcome : Except String Json} {result : Except E Json} {run : Option String}
    {elapsed : String} (htool : call.tool = "deploy" ∨ call.tool = "reboot")
    (hhonest : Honest result run) (hreports : Reports outcome result)
    (hid : ∀ runId, run = some runId → runId ≠ "") :
    (requested display (.settled call outcome elapsed)).filter isAttach =
      run.map fun runId => .attach call.tool (some runId) := by
  cases outcome with
  | error error =>
      cases result with
      | error other =>
          rw [show run = none from hhonest]
          rfl
      | ok answer => cases hreports
  | ok answer =>
      cases result with
      | error other => cases hreports
      | ok other =>
          cases hreports
          change (requestedBy display call answer).filter isAttach = _
          rw [requestedBy_tells htool hhonest hid]
          cases run <;> rfl

/-- A call that settles as its tool answers asks for its own run. -/
theorem Settles.requested {call : ToolCall} {outcome : Except String Json}
    (hsettles : Settles launches call outcome) (elapsed : String)
    (hid : ∀ runId, launches call = some runId → runId ≠ "") :
    (requested display (.settled call outcome elapsed)).filter isAttach =
      attachmentOf launches (.settled call outcome elapsed) := by
  cases hsettles with
  | refused error hnone =>
      rw [attachmentOf, hnone]
      rfl
  | deploy htool hexec hreports hrun =>
      rw [attachmentOf, hrun]
      exact honest_of_settles (.inl htool) (ensures_toolDeploy _ _ _ _ hexec)
        hreports (hrun ▸ hid)
  | reboot htool hexec hreports hrun =>
      rw [attachmentOf, hrun]
      exact honest_of_settles (.inr htool) (ensures_rebootFrom _ _ _ _ _ _ hexec)
        hreports (hrun ▸ hid)
  | other htool hnone =>
      rw [attachmentOf, hnone]
      cases outcome with
      | error error => rfl
      | ok answer => exact requestedBy_other htool

theorem outcomeOf_of_announced {call : ToolCall} {phase : CallPhase}
    {outcome : Except String Json} {elapsed : String}
    (hmem : .settled call outcome elapsed ∈ phase.announcements call) :
    outcomeOf phase = some outcome := by
  cases phase <;> simp [CallPhase.announcements] at hmem
  rw [hmem.1]
  rfl

end Attached

/-! ## A deployment that is attached -/

def webRun : DeployLaunch := { runId := "20260101T000000-1", eventsDir := "/runs" }

/-- The deployments of the run below all launch the same run. -/
def webLaunches (call : ToolCall) : Option String :=
  if call.tool = "deploy" then some webRun.runId else none

theorem executes_webLaunched :
    Executes (toolDeploy "." webDeploy).run
      [⟨.servedInventory, some webFleet⟩, ⟨.launchDeploy webLaunch, .ok webRun⟩]
      (.ok (launched "web" false false webRun)) := by
  refine Executes.request ?_
  change Executes (deployFrom webFleet "." webDeploy).run _ _
  have hlimit : webFleet.toLimit webDeploy.selector = .ok "web" :=
    toLimit_webFleet
  rw [deployFrom, hlimit]
  exact Executes.request (.done _)

end Mandala.Explorer
