import Mandala.Engine.Plan

/-!
# The confirmation gate of the deploy tool

The server answers from the inventory it holds; the engine it launches loads
its own.  A real activation is launched only on the canonical limit the
operator confirmed, and that limit means the same members to the engine.
-/

namespace Mandala.Server

open Mandala.Data Mandala.Deploy Mandala.Effects Mandala.Engine Mandala.Fleet

structure DeployTool where
  selector : String
  dryActivate : Option Bool
  boot : Option Bool
  confirm : Option String
  deriving DecidableEq, Repr

/-- What the engine is started with. -/
structure Launch where
  flake : String
  limit : String
  dryActivate : Bool
  boot : Bool
  throttle : Int
  deriving DecidableEq, Repr

structure DeployLaunch where
  runId : String
  eventsDir : String

inductive ServerEffect where
  /-- The inventory held from an earlier call. -/
  | servedInventory
  | freshInventory (flake : String)
  | keepInventory (inventory : Inventory)
  | launchDeploy (launch : Launch)

def ServerEffect.Reply : ServerEffect → Type
  | servedInventory => Option Inventory
  | freshInventory _ => Except String Inventory
  | keepInventory _ => Unit
  | launchDeploy _ => Except IoError DeployLaunch

abbrev Serving : Signature := ⟨ServerEffect, ServerEffect.Reply⟩

inductive ToolError where
  | evaluation (error : String)
  | selector (error : InventoryError)
  | launch (error : IoError)

abbrev Answering := ExceptT ToolError (Program Serving)

/-- `DEPLOY_THROTTLE`. -/
def deployThrottle : Int := 4

def ask (effect : ServerEffect) : Answering (Serving.Reply effect) :=
  ExceptT.lift (.request effect .done)

/-- The inventory a tool call answers from. -/
def inventory (flake : String) : Answering Inventory := do
  match ← ask .servedInventory with
  | some served => return served
  | none =>
      let fresh ← ExceptT.mk ((·.mapError .evaluation) <$>
        (Program.request (ServerEffect.freshInventory flake) .done :
          Program Serving (Except String Inventory)))
      ask (.keepInventory fresh)
      return fresh

def launchDeploy (launch : Launch) : Answering DeployLaunch :=
  ExceptT.mk ((·.mapError .launch) <$>
    (Program.request (ServerEffect.launchDeploy launch) .done :
      Program Serving (Except IoError DeployLaunch)))

/-- The refusal names the target to confirm. -/
def refusal (target : String) (dryActivate boot : Bool) : Json :=
  .object
    [("ok", .bool false), ("refused", .bool true),
      ("reason", .string
        "real activation requires `confirm` to equal the resolved target"),
      ("required_confirm", .string target), ("dry_activate", .bool dryActivate),
      ("boot", .bool boot)]

def launched (target : String) (dryActivate boot : Bool) (run : DeployLaunch) :
    Json :=
  .object
    [("ok", .bool true), ("run_id", .string run.runId), ("limit", .string target),
      ("dry_activate", .bool dryActivate), ("boot", .bool boot),
      ("events_dir", .string run.eventsDir)]

/-- `tool_deploy`, once the inventory is there. -/
def deployFrom (inventory : Inventory) (flake : String) (tool : DeployTool) :
    Answering Json :=
  match inventory.toLimit tool.selector with
  | .error error => throw (.selector error)
  | .ok target =>
      let dryActivate := tool.dryActivate.getD true
      let boot := tool.boot.getD false
      if !dryActivate && tool.confirm ≠ some target then
        return refusal target dryActivate boot
      else do
        let run ← launchDeploy
          { flake, limit := target, dryActivate, boot, throttle := deployThrottle }
        return launched target dryActivate boot run

/-- `tool_deploy`. -/
def toolDeploy (flake : String) (tool : DeployTool) : Answering Json := do
  deployFrom (← inventory flake) flake tool

/-- The arguments the launched engine is run with. -/
def Launch.arguments (launch : Launch) : RunArguments :=
  { limit := launch.limit
    throttle := launch.throttle
    dryActivate := launch.dryActivate
    boot := launch.boot
    haltOnBuildFailure := false }

/-! ## What the gate lets through -/

/-- The inventory a conversation answered from. -/
def ServedFrom (flake : String) (trace : Trace Serving)
    (inventory : Inventory) : Prop :=
  ⟨.servedInventory, some inventory⟩ ∈ trace ∨
    ⟨.freshInventory flake, .ok inventory⟩ ∈ trace

/-- The exchange starts the engine. -/
def Starts (exchange : Exchange Serving) (launch : Launch) : Prop :=
  exchange.effect = ServerEffect.launchDeploy launch

/-- Reading the inventory launches nothing, and gives what was served. -/
theorem ensures_inventory (flake : String) :
    Ensures (inventory flake).run fun trace result =>
      (∀ exchange ∈ trace, ∀ launch, ¬ Starts exchange launch) ∧
        ∀ answer, result = .ok answer → ServedFrom flake trace answer := by
  refine ensures_request_iff.mpr ?_
  intro served
  cases served with
  | some served =>
      refine ensures_done_iff.mpr ⟨?_, ?_⟩
      · intro exchange hmem launch hstarts
        rw [List.mem_singleton.mp hmem] at hstarts
        cases hstarts
      · intro answer heq
        cases heq
        exact .inl List.mem_cons_self
  | none =>
      refine ensures_request_iff.mpr ?_
      intro fresh
      cases fresh with
      | error error =>
          refine ensures_done_iff.mpr ⟨?_, ?_⟩
          · simp [Starts]
          · intro answer heq
            cases heq
      | ok fresh =>
          refine ensures_request_iff.mpr ?_
          intro kept
          refine ensures_done_iff.mpr ⟨?_, ?_⟩
          · simp [Starts]
          · intro answer heq
            cases heq
            exact .inr (by simp)

/-- A launch is on the canonical limit, and a real one was confirmed. -/
structure Permitted (inventory : Inventory) (tool : DeployTool)
    (launch : Launch) : Prop where
  limit : inventory.toLimit tool.selector = .ok launch.limit
  confirmed : launch.dryActivate = false → tool.confirm = some launch.limit

theorem only_deployFrom (inventory : Inventory) (flake : String)
    (tool : DeployTool) :
    Only (fun exchange => ∀ launch, Starts exchange launch →
      Permitted inventory tool launch) (deployFrom inventory flake tool).run := by
  rw [deployFrom]
  cases hlimit : inventory.toLimit tool.selector with
  | error error => exact Only.done _
  | ok target =>
      dsimp only
      split
      · exact Only.done _
      · next hgate =>
          refine Only.request ?_ ?_
          · intro reply launch heq
            cases heq
            refine ⟨hlimit, ?_⟩
            intro hreal
            by_contra hrefused
            dsimp only at hreal hrefused
            simp [hreal, hrefused] at hgate
          · intro reply
            cases reply with
            | error error => exact Only.done _
            | ok run => exact Only.done _

/-- What a launch guarantees, whichever inventory the engine loads. -/
structure Gated (inventory : Inventory) (tool : DeployTool)
    (launch : Launch) : Prop where
  confirmed : tool.confirm = some launch.limit
  limit : inventory.toLimit tool.selector = .ok launch.limit
  runs : ∃ names, inventory.resolve tool.selector = .ok names ∧
    ∀ fromValue process other,
      Ensures (prepareRun fromValue process other launch.arguments)
        fun trace result => RunsFor names trace result
          (planRunWithBoot fromValue other launch.limit launch.throttle
            launch.dryActivate launch.boot)

theorem gated_of_permitted {inventory : Inventory} {tool : DeployTool}
    {launch : Launch} (hpermitted : Permitted inventory tool launch)
    (hreal : launch.dryActivate = false) : Gated inventory tool launch := by
  refine ⟨hpermitted.confirmed hreal, hpermitted.limit, ?_⟩
  have hlimit := hpermitted.limit
  rw [Inventory.toLimit] at hlimit
  cases hresolve : inventory.resolve tool.selector with
  | error error =>
      rw [hresolve] at hlimit
      cases hlimit
  | ok names =>
      rw [hresolve] at hlimit
      refine ⟨names, rfl, ?_⟩
      intro fromValue process other
      exact ensures_prepareRun (Inventory.canonical_of_resolve hresolve)
        fromValue process other (Except.ok.inj hlimit).symm

/-- A real activation is launched only on the confirmed canonical limit, and
the engine refuses that limit untouched or deploys exactly the members it
names. -/
theorem toolDeploy_gated (flake : String) (tool : DeployTool) :
    Ensures (toolDeploy flake tool).run fun trace _ =>
      ∀ exchange ∈ trace, ∀ launch, Starts exchange launch →
        launch.dryActivate = false →
          ∃ inventory, ServedFrom flake trace inventory ∧
            Gated inventory tool launch := by
  rw [toolDeploy, ExceptT.run_bind, ensures_bind_iff]
  refine (ensures_inventory flake).mono ?_
  intro first answer hfirst
  obtain ⟨hquiet, hserved⟩ := hfirst
  cases answer with
  | error error =>
      refine ensures_done_iff.mpr ?_
      intro exchange hmem launch heq
      rw [List.append_nil] at hmem
      exact absurd heq (hquiet exchange hmem launch)
  | ok inventory =>
      refine Ensures.mono (only_deployFrom inventory flake tool) ?_
      intro second _ hsecond exchange hmem launch heq hreal
      rcases List.mem_append.mp hmem with hmem | hmem
      · exact absurd heq (hquiet exchange hmem launch)
      · refine ⟨inventory, ?_,
          gated_of_permitted (hsecond exchange hmem launch heq) hreal⟩
        exact (hserved inventory rfl).imp (List.mem_append_left second)
          (List.mem_append_left second)

/-! ## A confirmed launch -/

def webAggregate : Aggregate :=
  { schemaVersion := .int 1
    members := (∅ : BTreeMap Member).insert "web"
      { fields := [("name", .string "web")] }
    groups := (∅ : BTreeMap (List String)).insert "edge" ["web"]
    extra := [] }

def webFleet : Inventory :=
  { aggregate := webAggregate, controllerPlatform := none, checked := by rfl }

def webDeploy : DeployTool :=
  { selector := "@edge", dryActivate := some false, boot := none
    confirm := some "web" }

def webLaunch : Launch :=
  { flake := ".", limit := "web", dryActivate := false, boot := false
    throttle := deployThrottle }

def webConversation : Trace Serving :=
  [⟨.servedInventory, some webFleet⟩,
    ⟨.launchDeploy webLaunch, .error "no supervisor"⟩]

theorem toLimit_webFleet : webFleet.toLimit "@edge" = .ok "web" := by
  have hresolve : (webFleet.resolve "@edge").toOption = some ["web"] := by
    decide +kernel
  rw [Inventory.toLimit]
  cases hnames : webFleet.resolve "@edge" with
  | error error =>
      rw [hnames] at hresolve
      cases hresolve
  | ok names =>
      rw [hnames] at hresolve
      cases hresolve
      rfl

theorem executes_webDeploy :
    Executes (toolDeploy "." webDeploy).run webConversation
      (.error (.launch "no supervisor")) := by
  refine Executes.request ?_
  change Executes (deployFrom webFleet "." webDeploy).run _ _
  have hlimit : webFleet.toLimit webDeploy.selector = .ok "web" :=
    toLimit_webFleet
  rw [deployFrom, hlimit]
  exact Executes.request (.done _)

theorem webDeploy_gated :
    ∃ inventory, ServedFrom "." webConversation inventory ∧
      Gated inventory webDeploy webLaunch :=
  toolDeploy_gated "." webDeploy webConversation _ executes_webDeploy
    ⟨.launchDeploy webLaunch, .error "no supervisor"⟩ (by simp [webConversation])
    webLaunch rfl rfl

end Mandala.Server
