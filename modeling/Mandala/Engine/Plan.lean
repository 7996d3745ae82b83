import Mandala.Core.Effects
import Mandala.Engine.Data
import Mandala.Fleet.Selector

/-!
# Planning and registering a run

A run is planned before anything is written: a selection that cannot be
deployed leaves no registry entry behind.  A canonical limit plans for the
members it names, whichever inventory reads it.
-/

namespace Mandala.Engine

open Mandala.Data Mandala.Deploy Mandala.Effects Mandala.Fleet

inductive DeployRunError where
  | inventory (error : InventoryError)
  | noDeployableMembers (limit : String)
  | invalidThrottle (throttle : Int)
  | missingSettingsProjection
  | missingMemberSettings (host : String)
  | invalidMemberSettings (host error : String)
  | registry (error : IoError)

/-- A member deploys when its record says so; anything else is a skip. -/
def deployRsEnabled (inventory : Inventory) (host : String) : Bool :=
  (inventory.members[host]?.bind fun member => do
    let deployment ← member.get "deployment"
    let deployRs ← deployment.get "deployRs"
    let enable ← deployRs.get "enable"
    enable.asBool).getD false

/-- `canonical_limit.split(',')`. -/
def splitLimit (limit : String) : List String :=
  (limit.toList.splitOnP (· = ',')).map String.ofList

section Planning

-- How a settings value is read.
variable (fromValue : Json → Except String FlattenedDeploySettings)

/-- A target keeps its settings value once it was seen to parse. -/
def collectSettings (projected : List (String × Json))
    (settings : BTreeMap Json) (host : String) :
    Except DeployRunError (BTreeMap Json) :=
  match projected.lookup host with
  | none => .error (.missingMemberSettings host)
  | some value =>
      match fromValue value with
      | .error error => .error (.invalidMemberSettings host error)
      | .ok _ => .ok (settings.insert host value)

/-- `plan_run_with_boot`. -/
def planRunWithBoot (inventory : Inventory) (limit : String) (throttle : Int)
    (dryActivate boot : Bool) : Except DeployRunError DeployPlan :=
  if throttle ≤ 0 then .error (.invalidThrottle throttle)
  else match inventory.toLimit limit with
    | .error error => .error (.inventory error)
    | .ok canonicalLimit =>
        let selected := splitLimit canonicalLimit
        let targets := selected.filter (deployRsEnabled inventory)
        let skipped := selected.filter (!deployRsEnabled inventory ·)
        if targets.isEmpty then .error (.noDeployableMembers canonicalLimit)
        else match inventory.deploySettings with
          | none => .error .missingSettingsProjection
          | some projected =>
              (targets.foldlM (collectSettings fromValue projected) ∅).map
                fun settings =>
                  { limit := canonicalLimit
                    targets
                    skipped
                    settings
                    dryActivate
                    boot
                    haltOnBuildFailure := false
                    throttle }

end Planning

/-! ## The registry entry -/

inductive RegistryEffect where
  | newRunDir
  | createStream (path host : String)
  | writeMeta (path : String) (payload : Meta)

def RegistryEffect.Reply : RegistryEffect → Type
  | newRunDir => Except IoError (String × String)
  | createStream _ _ => Except IoError Unit
  | writeMeta _ _ => Except IoError Unit

abbrev Registry : Signature := ⟨RegistryEffect, RegistryEffect.Reply⟩

abbrev Registering := ExceptT DeployRunError (Program Registry)

/-- What the engine knows of its own process. -/
structure EngineProcess where
  pid : Int
  /-- The supervisor captured at entry. -/
  supervisorPid : Option Int
  startedAt : Json

def registering {A : Type} (program : Program Registry (Except IoError A)) :
    Registering A :=
  ExceptT.mk ((·.mapError .registry) <$> program)

def newRunDir : Registering (String × String) :=
  registering (.request RegistryEffect.newRunDir .done)

def createStream (path host : String) : Registering Unit :=
  registering (.request (RegistryEffect.createStream path host) .done)

def writeMeta (path : String) (payload : Meta) : Registering Unit :=
  registering (.request (RegistryEffect.writeMeta path payload) .done)

def stringsValue (values : List String) : Json :=
  .array (values.map Json.string)

/-- The meta a run starts with. -/
def startedMeta (process : EngineProcess) (runId : String) (plan : DeployPlan) :
    Meta :=
  Meta.update (∅ : BTreeMap Json) <|
    [("run_id", .string runId), ("kind", .string "deploy"),
      ("limit", .string plan.limit), ("targets", stringsValue plan.targets),
      ("skipped", stringsValue plan.skipped),
      ("dry_activate", .bool plan.dryActivate), ("boot", .bool plan.boot),
      ("throttle", .int plan.throttle),
      ("halt_on_build_failure", .bool plan.haltOnBuildFailure),
      ("pid", .int process.pid)] ++
    (process.supervisorPid.toList.map fun pid => ("supervisor_pid", .int pid)) ++
    [("started_at", process.startedAt)]

/-- `register_run`. -/
def registerRun (process : EngineProcess) (plan : DeployPlan) :
    Registering RegisteredDeployRun := do
  let (runId, path) ← newRunDir
  plan.targets.forM (createStream path)
  writeMeta path (startedMeta process runId plan)
  return { runId, path, plan }

/-- The arguments of `deploy run`. -/
structure RunArguments where
  limit : String
  throttle : Int
  dryActivate : Bool
  boot : Bool
  haltOnBuildFailure : Bool
  deriving DecidableEq, Repr

/-- The engine up to its registered run; the halting policy is set between the
two halves. -/
def prepareRun (fromValue : Json → Except String FlattenedDeploySettings)
    (process : EngineProcess) (inventory : Inventory)
    (arguments : RunArguments) :
    Program Registry (Except DeployRunError RegisteredDeployRun) :=
  match planRunWithBoot fromValue inventory arguments.limit arguments.throttle
      arguments.dryActivate arguments.boot with
  | .error error => .done (.error error)
  | .ok plan =>
      (registerRun process
        { plan with haltOnBuildFailure := arguments.haltOnBuildFailure }).run

/-! ## What a plan selects -/

section Selection

variable {inventory other : Inventory} {names : List String}

theorem splitLimit_limit (hcanonical : Canonical inventory names) :
    splitLimit (",".intercalate names) = names := by
  have hmarks (character : Char) (hcomma : decide (character = ',') = true) :
      isSelectorMark character := by
    rw [of_decide_eq_true hcomma]
    rfl
  rw [splitLimit, Inventory.splitOnP_limit rfl hmarks
    hcanonical.bareName hcanonical.nonempty, List.map_map]
  calc names.map (String.ofList ∘ String.toList)
    _ = names.map id := by
      apply List.map_congr_left
      intro name _
      exact String.ofList_toList
    _ = names := List.map_id names

/-- Reading a canonical limit again gives it back, or refuses. -/
theorem toLimit_limit {limit : String} (hcanonical : Canonical inventory names)
    (hlimit : other.toLimit (",".intercalate names) = .ok limit) :
    limit = ",".intercalate names := by
  rw [Inventory.toLimit] at hlimit
  cases hresolve : other.resolve (",".intercalate names) with
  | error error =>
      rw [hresolve] at hlimit
      cases hlimit
  | ok resolved =>
      rw [hresolve] at hlimit
      cases hlimit
      rw [Inventory.resolve_limit hcanonical hresolve]

/-- A plan deploys to, or skips, exactly the given members, and never both. -/
structure Selects (plan : DeployPlan) (names : List String) : Prop where
  limit : plan.limit = ",".intercalate names
  apart : ∀ name ∈ plan.targets, name ∉ plan.skipped
  union : ∀ name, name ∈ plan.targets ∨ name ∈ plan.skipped ↔ name ∈ names

variable {fromValue : Json → Except String FlattenedDeploySettings}

theorem selects_of_plan {throttle : Int} {dryActivate boot : Bool}
    {plan : DeployPlan} (hcanonical : Canonical inventory names)
    (hplan : planRunWithBoot fromValue other (",".intercalate names) throttle
      dryActivate boot = .ok plan) : Selects plan names := by
  rw [planRunWithBoot] at hplan
  split at hplan
  · cases hplan
  · cases hlimit : other.toLimit (",".intercalate names) with
    | error error =>
        rw [hlimit] at hplan
        cases hplan
    | ok limit =>
        rw [hlimit] at hplan
        dsimp only at hplan
        rw [toLimit_limit hcanonical hlimit, splitLimit_limit hcanonical] at hplan
        split at hplan
        · cases hplan
        · split at hplan
          · cases hplan
          · next projected _ =>
              cases hsettings : (names.filter (deployRsEnabled other)).foldlM
                  (collectSettings fromValue projected) ∅ with
              | error error =>
                  rw [hsettings] at hplan
                  cases hplan
              | ok settings =>
                  rw [hsettings] at hplan
                  cases hplan
                  constructor
                  · rfl
                  · intro name htarget hskipped
                    simp [(List.mem_filter.mp htarget).2] at hskipped
                  · intro name
                    simp only [List.mem_filter]
                    cases deployRsEnabled other name <;> simp

end Selection

/-! ## What a registered run deploys -/

/-- Whatever the conversation, a value comes with the postcondition. -/
def Yields {A : Type} (program : Registering A) (post : A → Prop) : Prop :=
  Ensures program.run fun _ result => ∀ value, result = .ok value → post value

theorem yields_pure {A : Type} {value : A} {post : A → Prop}
    (hpost : post value) : Yields (pure value : Registering A) post := by
  rw [Yields, ExceptT.run_pure, Program.pure_eq_done, ensures_done_iff]
  intro other heq
  cases heq
  exact hpost

theorem yields_bind {A B : Type} {program : Registering A}
    {rest : A → Registering B} {post : B → Prop}
    (hrest : ∀ value, Yields (rest value) post) :
    Yields (program >>= rest) post := by
  rw [Yields, ExceptT.run_bind, ensures_bind_iff]
  intro trace result _
  cases result with
  | error error =>
      refine ensures_done_iff.mpr ?_
      intro value heq
      cases heq
  | ok value => exact hrest value

/-- A registered run keeps the plan it was registered for. -/
theorem yields_registerRun (process : EngineProcess) (plan : DeployPlan) :
    Yields (registerRun process plan) (·.plan = plan) := by
  apply yields_bind
  intro entry
  apply yields_bind
  intro _
  apply yields_bind
  intro _
  exact yields_pure rfl

/-- The engine, started on `names`, either refuses while planning and leaves no
registry entry, or runs for exactly these members. -/
inductive RunsFor (names : List String) (trace : Trace Registry)
    (result : Except DeployRunError RegisteredDeployRun) :
    Except DeployRunError DeployPlan → Prop where
  | refused {error : DeployRunError} (hresult : result = .error error)
      (huntouched : trace = []) : RunsFor names trace result (.error error)
  | planned {plan : DeployPlan} (hselects : Selects plan names)
      (hresult : ∀ run, result = .ok run → Selects run.plan names) :
      RunsFor names trace result (.ok plan)

theorem ensures_prepareRun {inventory : Inventory} {names : List String}
    (hcanonical : Canonical inventory names)
    (fromValue : Json → Except String FlattenedDeploySettings)
    (process : EngineProcess) (other : Inventory) {arguments : RunArguments}
    (hlimit : arguments.limit = ",".intercalate names) :
    Ensures (prepareRun fromValue process other arguments) fun trace result =>
      RunsFor names trace result
        (planRunWithBoot fromValue other arguments.limit arguments.throttle
          arguments.dryActivate arguments.boot) := by
  rw [prepareRun]
  cases hplan : planRunWithBoot fromValue other arguments.limit
      arguments.throttle arguments.dryActivate arguments.boot with
  | error error => exact ensures_done_iff.mpr (.refused rfl rfl)
  | ok plan =>
      rw [hlimit] at hplan
      have hselects := selects_of_plan hcanonical hplan
      refine (yields_registerRun process
        { plan with haltOnBuildFailure := arguments.haltOnBuildFailure }).mono ?_
      intro trace result hresult
      apply RunsFor.planned hselects
      intro run hrun
      rw [hresult run hrun]
      exact ⟨hselects.limit, hselects.apart, hselects.union⟩

end Mandala.Engine
