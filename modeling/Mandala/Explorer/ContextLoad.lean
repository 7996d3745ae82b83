import Mandala.Core.Transition
import Mandala.Explorer.State
import Mandala.Fleet.Wire
import Mandala.Server.DriftTool
import Mathlib.Logic.Function.Basic

/-!
# A load over the context

The aggregate is put together from three calls, each of which is answered by
whoever leads at that time from the inventory it holds, or evaluates when it
holds none.
-/

namespace Mandala.Explorer

open Mandala.Data Mandala.Drift Mandala.Fleet Mandala.Server Mandala.Transition

/-- Why a call over the context gave nothing. -/
inductive CallFailure where
  | tool (message : String)
  | gone
  deriving DecidableEq, Repr

inductive LoadError where
  | call (failure : CallFailure)
  | rejected (error : ValueError)

/-- What `load_over_context` has got so far. -/
inductive LoadPhase where
  | reloading
  | members
  | groups (members : Json)
  | drift (members groups : Json)
  | done (result : Except LoadError Inventory)

namespace LoadPhase

def calling : LoadPhase → Bool
  | .members => true
  | .groups _ => true
  | .drift _ _ => true
  | _ => false

def isDone : LoadPhase → Bool
  | .done _ => true
  | _ => false

/-- Some of the views are there, but not all. -/
def halfway : LoadPhase → Bool
  | .groups _ => true
  | .drift _ _ => true
  | _ => false

end LoadPhase

/-- The arguments `drift` is called with: none. -/
def plainDrift : DriftTool :=
  { refresh := none, doEval := none, statuses := none }

/-- The hosts that the entries of a drift view name. -/
def hostsOf (view : Json) : List Json :=
  (((view.get "entries").bind Json.asArray).getD []).filterMap (·.get "host")

/-- Participants with the inventory each of them holds, and the load of one. -/
structure ContextState where
  leader : ℕ
  slots : ℕ → Option Inventory
  phase : LoadPhase
  /-- The leader found no inventory and evaluates one for the call. -/
  evaluating : Bool
  /-- The inventories that answered a call of this load, the last one first. -/
  served : List Inventory

inductive ContextAction where
  | promote (participant : ℕ)
  | store (participant : ℕ) (inventory : Inventory)
  | reloaded (inventory : Inventory)
  | failover
  | hit (inputs : DriftInputs)
  | miss
  | evaluated (inventory : Inventory) (inputs : DriftInputs)
  | fail (failure : CallFailure)

section Loading

variable (reading : Reading) (os : String)

/-- The next view is there; with the last one the aggregate is put together. -/
def LoadPhase.answer (inventory : Inventory) (inputs : DriftInputs) :
    LoadPhase → LoadPhase
  | .members => .groups (membersView inventory)
  | .groups first => .drift first (groupsView inventory)
  | .drift first second =>
      let view := toolDrift reading (deployNodesOf inventory) plainDrift inputs
      .done ((Inventory.fromValue (assembled first second (hostsOf view))
        os).mapError .rejected)
  | phase => phase

namespace ContextState

def answered (state : ContextState) (inventory : Inventory)
    (inputs : DriftInputs) : ContextState :=
  { state with
    phase := state.phase.answer reading os inventory inputs
    evaluating := false
    served := inventory :: state.served }

def hold (state : ContextState) (participant : ℕ) (inventory : Inventory) :
    ContextState :=
  { state with
    slots := Function.update state.slots participant (some inventory) }

end ContextState

/-- The load calls one tool after the other; leaders die, and whatever others
reload or evaluate is stored at any time.  A call that was under way when its
leader died starts again at the next one. -/
inductive ContextStep : ContextState → ContextAction → ContextState → Prop
  | promote (state : ContextState) (participant : ℕ) :
      ContextStep state (.promote participant)
        { state with leader := participant, evaluating := false }
  | store (state : ContextState) (participant : ℕ) (inventory : Inventory) :
      ContextStep state (.store participant inventory)
        (state.hold participant inventory)
  | reloaded (state : ContextState) (inventory : Inventory)
      (hphase : state.phase = .reloading) :
      ContextStep state (.reloaded inventory)
        { state.hold state.leader inventory with phase := .members }
  | failover (state : ContextState) (hphase : state.phase = .reloading) :
      ContextStep state .failover { state with phase := .members }
  | hit (state : ContextState) (inventory : Inventory) (inputs : DriftInputs)
      (hcalling : state.phase.calling = true)
      (hslot : state.slots state.leader = some inventory) :
      ContextStep state (.hit inputs)
        (state.answered reading os inventory inputs)
  | miss (state : ContextState) (hcalling : state.phase.calling = true)
      (hslot : state.slots state.leader = none) :
      ContextStep state .miss { state with evaluating := true }
  | evaluated (state : ContextState) (inventory : Inventory)
      (inputs : DriftInputs) (hcalling : state.phase.calling = true)
      (hevaluating : state.evaluating = true) :
      ContextStep state (.evaluated inventory inputs)
        ((state.hold state.leader inventory).answered reading os inventory inputs)
  | fail (state : ContextState) (failure : CallFailure)
      (hphase : state.phase.isDone = false) :
      ContextStep state (.fail failure)
        { state with phase := .done (.error (.call failure)) }

end Loading

/-- A load that has made no call yet; it reloads first if it is fresh. -/
structure ContextInitial (state : ContextState) : Prop where
  phase : state.phase = .reloading ∨ state.phase = .members
  evaluating : state.evaluating = false
  served : state.served = []

/-- The views painted are those of one inventory. -/
structure ViewsOf (painted inventory : Inventory) : Prop where
  members : ∀ name : String, painted.members[name]? = inventory.members[name]?
  groups : ∀ group : String, painted.groups[group]? = inventory.groups[group]?
  nodes : deployNodesOf painted = Ordering.sortNames (deployNodesOf inventory)

/-- A load paints one inventory that a leader served, and never rejects what it
has put together. -/
structure PaintsOne (state : ContextState) : Prop where
  painted : ∀ painted, state.phase = .done (.ok painted) →
    ∃ inventory ∈ state.served, ViewsOf painted inventory
  accepted : ∀ error, state.phase ≠ .done (.error (.rejected error))

/-- While some of the views are there, the leader comes to hold no other
inventory than the one that served last: none is stored, brought by a promotion
or evaluated for the call. -/
def Steady (state : ContextState) : ContextAction → Prop
  | .promote participant => state.phase.halfway = true →
      ∀ held inventory, state.served.head? = some held →
        state.slots participant = some inventory → inventory = held
  | .store participant inventory => state.phase.halfway = true →
      participant = state.leader →
        ∀ held, state.served.head? = some held → inventory = held
  | .evaluated inventory _ => state.phase.halfway = true →
      ∀ held, state.served.head? = some held → inventory = held
  | _ => True

/-! ## One inventory answers -/

theorem hostsOf_toolDrift (reading : Reading) (nodes : List String)
    (inputs : DriftInputs) :
    hostsOf (toolDrift reading nodes plainDrift inputs) =
      (Ordering.sortNames nodes).map .string := by
  have hfields (entries : List DriftEntry) :
      (entries.map entryValue).filterMap (·.get "host") =
        (entries.map DriftEntry.host).map .string := by
    induction entries with
    | nil => rfl
    | cons entry entries ih =>
        rw [List.map_cons, List.filterMap_cons, ih]
        rfl
  have hhost : DriftEntry.host ∘ compareHost reading inputs.snapshots
      ((inputs.expected plainDrift).getD (.ofPaths ∅)) (some defaultMaxAge)
      inputs.now = id := by
    funext host
    exact host_compareHost _ _ _ _ _ host
  have hhosts : (Drift.compare reading nodes inputs.snapshots
      (inputs.expected plainDrift) (some defaultMaxAge) inputs.now).map
        DriftEntry.host = Ordering.sortNames nodes := by
    rw [Drift.compare, List.map_map, hhost, List.map_id]
  rw [hostsOf, toolDrift_entries, ← hhosts]
  exact hfields _

theorem filterMap_asStr (nodes : List String) :
    (nodes.map Json.string).filterMap Json.asStr = nodes := by
  induction nodes with
  | nil => rfl
  | cons node nodes ih =>
      rw [List.map_cons, List.filterMap_cons, ih]
      rfl

/-- Three answers from one inventory are put together and accepted. -/
theorem assembled_of_one (reading : Reading) (os : String) (inventory : Inventory)
    (inputs : DriftInputs) :
    ∃ painted, Inventory.fromValue
        (assembled (membersView inventory) (groupsView inventory)
          (hostsOf (toolDrift reading (deployNodesOf inventory) plainDrift inputs)))
        os = .ok painted ∧ ViewsOf painted inventory := by
  obtain ⟨painted, hpainted, hmembers, hgroups, hextra⟩ :=
    fromValue_assembled inventory
      (hostsOf (toolDrift reading (deployNodesOf inventory) plainDrift inputs)) os
  refine ⟨painted, hpainted, hmembers, hgroups, ?_⟩
  rw [deployNodesOf, Aggregate.projections, hextra, hostsOf_toolDrift]
  exact filterMap_asStr _

/-! ## The invariant -/

/-- The views that are there are those of the inventory that served last. -/
def Gathered (served : List Inventory) : LoadPhase → Prop
  | .reloading => served = []
  | .members => served = []
  | .groups found => ∃ held, served.head? = some held ∧ found = membersView held
  | .drift first second => ∃ held, served.head? = some held ∧
      first = membersView held ∧ second = groupsView held
  | .done (.ok painted) => ∃ inventory ∈ served, ViewsOf painted inventory
  | .done (.error (.rejected _)) => False
  | .done (.error (.call _)) => True

/-- So far the load has seen one inventory, and the leader holds no other. -/
structure FromLast (state : ContextState) : Prop where
  gathered : Gathered state.served state.phase
  kept : state.phase.halfway = true → ∀ held inventory,
    state.served.head? = some held →
      state.slots state.leader = some inventory → inventory = held

theorem FromLast.paintsOne {state : ContextState} (hlast : FromLast state) :
    PaintsOne state := by
  have hgathered := hlast.gathered
  constructor
  · intro painted hphase
    rw [hphase] at hgathered
    exact hgathered
  · intro error hphase
    rw [hphase] at hgathered
    exact hgathered

theorem fromLast_of_initial {state : ContextState}
    (hinitial : ContextInitial state) : FromLast state := by
  constructor
  · rcases hinitial.phase with hphase | hphase
    · rw [hphase]
      exact hinitial.served
    · rw [hphase]
      exact hinitial.served
  · intro _ held inventory hserved
    rw [hinitial.served] at hserved
    cases hserved

/-- A call is answered from an inventory that, once a view is there, is the one
that view came from. -/
theorem FromLast.answered {reading : Reading} {os : String}
    {state : ContextState} (hlast : FromLast state) {inventory : Inventory}
    (inputs : DriftInputs) (hcalling : state.phase.calling = true)
    (hsame : state.phase.halfway = true →
      ∀ held, state.served.head? = some held → inventory = held)
    (hslot : state.slots state.leader = some inventory) :
    FromLast (state.answered reading os inventory inputs) := by
  constructor
  · change Gathered (inventory :: state.served)
      (state.phase.answer reading os inventory inputs)
    have hgathered := hlast.gathered
    cases hphase : state.phase with
    | reloading =>
        rw [hphase] at hcalling
        cases hcalling
    | done result =>
        rw [hphase] at hcalling
        cases hcalling
    | members => exact ⟨inventory, rfl, rfl⟩
    | groups found =>
        rw [hphase] at hgathered
        obtain ⟨held, hserved, hfound⟩ := hgathered
        have heq := hsame (by rw [hphase]; rfl) held hserved
        rw [hfound, heq]
        exact ⟨held, rfl, rfl, rfl⟩
    | drift first second =>
        rw [hphase] at hgathered
        obtain ⟨held, hserved, hfirst, hsecond⟩ := hgathered
        have heq := hsame (by rw [hphase]; rfl) held hserved
        obtain ⟨painted, hpainted, hviews⟩ :=
          assembled_of_one reading os held inputs
        rw [hfirst, hsecond, heq, LoadPhase.answer, hpainted]
        exact ⟨held, List.mem_cons_self, hviews⟩
  · intro _ held other hserved hother
    cases hserved
    exact Option.some.inj (hother.symm.trans hslot)

/-- A steady step keeps what is there from one inventory. -/
theorem FromLast.step {reading : Reading} {os : String}
    {before after : ContextState} {action : ContextAction} (hlast : FromLast before)
    (hsteady : Steady before action)
    (hstep : ContextStep reading os before action after) : FromLast after := by
  cases hstep with
  | promote participant => exact ⟨hlast.gathered, hsteady⟩
  | store participant inventory =>
      refine ⟨hlast.gathered, ?_⟩
      intro hhalfway held other hserved hother
      change Function.update before.slots participant _ before.leader = _ at hother
      rw [Function.update_apply] at hother
      split at hother
      · rename_i heq
        cases hother
        exact hsteady hhalfway heq.symm held hserved
      · exact hlast.kept hhalfway held other hserved hother
  | reloaded inventory hphase =>
      have hgathered := hlast.gathered
      rw [hphase] at hgathered
      refine ⟨hgathered, ?_⟩
      intro hhalfway
      cases hhalfway
  | failover hphase =>
      have hgathered := hlast.gathered
      rw [hphase] at hgathered
      refine ⟨hgathered, ?_⟩
      intro hhalfway
      cases hhalfway
  | hit inventory inputs hcalling hslot =>
      refine hlast.answered inputs hcalling ?_ hslot
      intro hhalfway held hserved
      exact hlast.kept hhalfway held inventory hserved hslot
  | miss => exact ⟨hlast.gathered, hlast.kept⟩
  | evaluated inventory inputs hcalling hevaluating =>
      have hheld : FromLast (before.hold before.leader inventory) := by
        refine ⟨hlast.gathered, ?_⟩
        intro hhalfway held other hserved hother
        change Function.update before.slots before.leader _ before.leader = _
          at hother
        rw [Function.update_self] at hother
        cases hother
        exact hsteady hhalfway held hserved
      exact hheld.answered inputs hcalling hsteady (Function.update_self _ _ _)
  | fail failure hphase =>
      refine ⟨trivial, ?_⟩
      intro hhalfway
      cases hhalfway

/-- A load during which no other inventory comes up paints one inventory. -/
theorem paintsOne_of_steady (reading : Reading) (os : String)
    {state : ContextState}
    (hreach : Reachable ContextInitial (ContextStep reading os) Steady state) :
    PaintsOne state := by
  have hlast : FromLast state := by
    refine hreach.invariant ?_ ?_
    · intro start hinitial
      exact fromLast_of_initial hinitial
    · intro before action after hbefore hsteady
      exact hbefore.step hsteady
  exact hlast.paintsOne

/-! ### A reload between two calls -/

def bareHost (name : String) : Member := { fields := [("name", .string name)] }

def webOnly : Inventory :=
  { aggregate :=
      { schemaVersion := .int 1
        members := (∅ : BTreeMap Member).insert "web" (bareHost "web")
        groups := ∅
        extra := [] }
    controllerPlatform := none
    checked := by rfl }

def webAndLab : Inventory :=
  { aggregate :=
      { schemaVersion := .int 1
        members := ((∅ : BTreeMap Member).insert "web" (bareHost "web")).insert
          "lab" (bareHost "lab")
        groups := (∅ : BTreeMap (List String)).insert "edge" ["web"]
        extra := [] }
    controllerPlatform := none
    checked := by rfl }

def noDrift : DriftInputs :=
  { survey := { stdout := "", stderr := "", code := 0 }
    rev := none
    cachedRev := none
    cached := ∅
    evaluation := .error { command := none, exitCode := none, output := "" }
    snapshots := ∅
    now := 0 }

def quietReading : Reading :=
  { parseIso := fun _ => none
    floatTruthy := fun _ => true
    sameValue := fun _ _ => true }

/-- A leader that holds the old fleet, and a load that is not fresh. -/
def warmContext : ContextState :=
  { leader := 0
    slots := fun _ => some webOnly
    phase := .members
    evaluating := false
    served := [] }

theorem contextInitial_warmContext : ContextInitial warmContext :=
  ⟨.inr rfl, rfl, rfl⟩

/-- What is put together from the members of one fleet and the groups and nodes
of the other. -/
def mixedFleet : Except ValueError Inventory :=
  Inventory.fromValue
    (assembled (membersView webOnly) (groupsView webAndLab)
      (hostsOf (toolDrift quietReading (deployNodesOf webAndLab) plainDrift
        noDrift))) "linux"

/-- The mix is accepted: it has the group of the one and lacks the host of it. -/
theorem mixedFleet_accepted : ∃ painted, mixedFleet = .ok painted ∧
    painted.members["lab"]?.isSome = false ∧
    painted.groups["edge"]?.isSome = true := by
  have hmixed : (match mixedFleet with
      | .ok painted => !painted.members["lab"]?.isSome &&
          painted.groups["edge"]?.isSome
      | .error _ => false) = true := by
    decide +kernel
  cases hresult : mixedFleet with
  | error error =>
      rw [hresult] at hmixed
      cases hmixed
  | ok painted =>
      rw [hresult, Bool.and_eq_true, Bool.not_eq_true'] at hmixed
      exact ⟨painted, rfl, hmixed⟩

/-- Another participant reloads after the members were answered: the load paints
a fleet that no leader ever held. -/
theorem mixedLoad_reachable :
    ∃ state, Reachable ContextInitial (ContextStep quietReading "linux") anyStep
        state ∧ ¬ PaintsOne state := by
  have hstart : Reachable ContextInitial (ContextStep quietReading "linux") anyStep
      warmContext :=
    Reachable.initial contextInitial_warmContext
  have hmembers := hstart.step trivial (.hit _ webOnly noDrift rfl rfl)
  have hreloaded := hmembers.step trivial (.store _ 0 webAndLab)
  have hdone := (hreloaded.step trivial (.hit _ webAndLab noDrift rfl rfl)).step
    trivial (.hit _ webAndLab noDrift rfl rfl)
  refine ⟨_, hdone, ?_⟩
  intro hpaints
  obtain ⟨painted, hmixed, hlab, hedge⟩ := mixedFleet_accepted
  obtain ⟨inventory, hserved, hviews⟩ := hpaints.painted painted
    (congrArg (fun result => LoadPhase.done (Except.mapError .rejected result)) hmixed)
  rw [hviews.members] at hlab
  rw [hviews.groups] at hedge
  have hcases : inventory = webAndLab ∨ inventory = webOnly := by
    change inventory ∈ [webAndLab, webAndLab, webOnly] at hserved
    simpa using hserved
  rcases hcases with rfl | rfl
  · revert hlab
    decide +kernel
  · revert hedge
    decide +kernel

/-- A load that nobody disturbs. -/
theorem steadyLoad_paintsOne :
    ∃ state : ContextState, state.served = [webOnly, webOnly, webOnly] ∧
      PaintsOne state := by
  have hnext {before after : ContextState} {action : ContextAction}
      (hbefore : Reachable ContextInitial (ContextStep quietReading "linux") Steady
        before)
      (hstep : ContextStep quietReading "linux" before action after)
      (hsteady : Steady before action) :
      Reachable ContextInitial (ContextStep quietReading "linux") Steady after :=
    hbefore.step hsteady hstep
  have hstart : Reachable ContextInitial (ContextStep quietReading "linux") Steady
      warmContext :=
    Reachable.initial contextInitial_warmContext
  have hviews := hnext (hnext hstart (.hit _ webOnly noDrift rfl rfl) trivial)
    (.hit _ webOnly noDrift rfl rfl) trivial
  have hdone := hnext hviews (.hit _ webOnly noDrift rfl rfl) trivial
  exact ⟨_, rfl, paintsOne_of_steady quietReading "linux" hdone⟩

end Mandala.Explorer
