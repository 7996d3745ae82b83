import Mandala.Core.Worklist
import Mandala.Forest.Bounds
import Mandala.Forest.Reading

/-!
# Backfilling a forest

Each derivation that is read names more of them.  In whatever order and however
often the results arrive, the forest ends as the closure of what was pending.
-/

namespace Mandala.Forest

open Relation
open Mandala.Data
open Mandala.Transition
open Mandala.Worklist

/-- The derivation files: what reading a path gives, a derivation or the note
for its leaf. -/
structure DrvStore where
  read : String → Except String Derivation
  readable : List String
  finite : ∀ path drv, read path = .ok drv → path ∈ readable
  distinct : ∀ own other drv drv' output, read own = .ok drv →
    read other = .ok drv' → output ∈ drv.outputs.values →
      output ∈ drv'.outputs.values → own = other

/-! ## Results in any order -/

namespace DrvStore

variable (store : DrvStore)

def answer (read : ReadForest) (path : String) : ReadForest :=
  match store.read path with
  | .ok drv => read.applyDerivation path drv
  | .error note => read.applyDerivationError path note

/-- `resolve_pending`, with the paths it has read; no answer when the fuel runs
out. -/
def resolvePending :
    ℕ → ReadForest → List String → Option (ReadForest × List String)
  | 0, _, _ => none
  | fuel + 1, read, seen =>
      let (paths, read) := read.takePending
      if paths.isEmpty then some (read, seen)
      else resolvePending fuel (paths.foldl store.answer read) (seen ++ paths)

inductive Move where
  | take
  | answer (path : String)

/-- A reader takes what is pending, and applies a result of what it has taken,
again if it likes. -/
inductive Step : ReadingForest → Move → ReadingForest → Prop where
  | take (state : ReadingForest) :
      Step state .take
        { read := state.read.takePending.2
          handed := state.handed ++ state.read.takePending.1 }
  | answer (state : ReadingForest) (path : String) (hhanded : path ∈ state.handed) :
      Step state (.answer path)
        { state with read := store.answer state.read path }

/-- A forest and its reader, on a run from a forest. -/
def OnRun (start : ReadForest) : ReadingForest → Prop :=
  Reachable (· = ⟨start, []⟩) store.Step anyStep

/-- A run from a forest to one with nothing pending and nothing in flight. -/
def Drains (start final : ReadForest) : Prop :=
  ∃ state, store.OnRun start state ∧ state.CaughtUp ∧ state.read = final

/-! ## The closure -/

def inputs (path : String) : List String :=
  match store.read path with
  | .ok drv => drv.inputDrvs.keys
  | .error _ => []

/-- What is pending and still to be read, closed under the inputs that are still
to be read. -/
def needed (start : ReadForest) : Set String :=
  closure (fun path => (store.inputs path).filter (!start.drvCache.contains ·))
    {path | path ∈ start.forest.pendingDrvs ∧ path ∉ start.drvCache}

/-- A forest filled with the results of some paths. -/
structure Filled (start : ReadForest) (done : Set String) (read : ReadForest) :
    Prop where
  cached : ∀ path, path ∈ read.drvCache ↔ path ∈ start.drvCache ∨ path ∈ done
  entered : ∀ path, path ∈ done ∨ (∃ own ∈ done, path ∈ store.inputs own) →
    read.forest.nodes[path]? = some (start.forest.nodes.getD path .default)
  others : ∀ path, path ∉ done → (∀ own ∈ done, path ∉ store.inputs own) →
    read.forest.nodes[path]? = start.forest.nodes[path]?
  inputs : ∀ path input, input ∈ (read.detail path).inputs ↔
    input ∈ (start.detail path).inputs ∨ path ∈ done ∧ input ∈ store.inputs path
  outputs : ∀ path ∈ done, ∀ drv, store.read path = .ok drv →
    (read.detail path).outputs = drv.outputs
  otherOutputs : ∀ path, (path ∈ done → ∀ drv, store.read path ≠ .ok drv) →
    (read.detail path).outputs = (start.detail path).outputs
  notes : ∀ path ∈ done, ∀ note, store.read path = .error note →
    (read.detail path).note = some note
  otherNotes : ∀ path, (path ∈ done → ∀ note, store.read path ≠ .error note) →
    (read.detail path).note = (start.detail path).note
  owners : ∀ own ∈ done, ∀ drv, store.read own = .ok drv →
    ∀ output ∈ drv.outputs.values, read.forest.outputToDrv[output]? = some own
  otherOwners : ∀ output, (∀ own ∈ done, ∀ drv, store.read own = .ok drv →
      output ∉ drv.outputs.values) →
    read.forest.outputToDrv[output]? = start.forest.outputToDrv[output]?

end DrvStore

/-- The same nodes, inputs, outputs and notes, and the same derivations behind
the outputs. -/
structure SameGraph (left right : ReadForest) : Prop where
  nodes : ∀ path : String, left.forest.nodes[path]? = right.forest.nodes[path]?
  inputs : ∀ path, (left.detail path).inputs.toList =
    (right.detail path).inputs.toList
  outputs : ∀ path, (left.detail path).outputs = (right.detail path).outputs
  notes : ∀ path, (left.detail path).note = (right.detail path).note
  owners : ∀ output : String,
    left.forest.outputToDrv[output]? = right.forest.outputToDrv[output]?

/-! ## What a result changes -/

namespace ReadForest

variable (read : ReadForest)

theorem details_addOutputs (own : String) (outputs : List String) :
    (outputs.foldl (addOutput own) read).details = read.details := by
  induction outputs generalizing read with
  | nil => rfl
  | cons output outputs ih => exact ih (read.addOutput own output)

theorem details_addInputs (inputs : List String) :
    (inputs.foldl addInput read).details = read.details := by
  induction inputs generalizing read with
  | nil => rfl
  | cons input inputs ih => exact ih (read.addInput input)

theorem nodes_updateNode (own path : String) :
    (read.forest.updateNode own id).nodes[path]? =
      if own = path then some (read.forest.nodes.getD path .default)
      else read.forest.nodes[path]? := by
  rw [BuildForest.updateNode, Std.TreeMap.getElem?_insert]
  simp only [Std.LawfulEqCmp.compare_eq_iff_eq]
  split
  · next heq => rw [heq, id]
  · rfl

theorem nodes_addInput (own path : String) :
    (read.addInput own).forest.nodes[path]? =
      if own = path then some (read.forest.nodes.getD path .default)
      else read.forest.nodes[path]? := by
  rw [← nodes_updateNode, addInput]
  dsimp only
  split
  · rfl
  · rfl

/-- Inputs are entered as new nodes where there are none. -/
theorem nodes_addInputs (inputs : List String) (path : String) :
    (inputs.foldl addInput read).forest.nodes[path]? =
      if path ∈ inputs then some (read.forest.nodes.getD path .default)
      else read.forest.nodes[path]? := by
  induction inputs generalizing read with
  | nil => rfl
  | cons input inputs ih =>
      have hgetD : (read.addInput input).forest.nodes.getD path .default =
          read.forest.nodes.getD path .default := by
        rw [Std.TreeMap.getD_eq_getD_getElem?, nodes_addInput]
        split
        · rw [Option.getD_some]
        · rw [Std.TreeMap.getD_eq_getD_getElem?]
      rw [List.foldl_cons, ih, hgetD, nodes_addInput]
      by_cases hmem : path ∈ inputs
      · rw [if_pos hmem, if_pos (List.mem_cons_of_mem _ hmem)]
      · rw [if_neg hmem]
        refine if_congr ?_ rfl rfl
        rw [List.mem_cons, or_iff_left hmem, eq_comm]

variable (own : String) (drv : Derivation)

theorem nodes_applyDerivation (path : String) :
    (read.applyDerivation own drv).forest.nodes[path]? =
      if path = own ∨ path ∈ drv.inputDrvs.keys then
        some (read.forest.nodes.getD path .default)
      else read.forest.nodes[path]? := by
  change (read.backfill own drv).forest.nodes[path]? = _
  rw [backfill, nodes_addInputs, (addOutputs_keeps _ own _).1, updateDetail]
  dsimp only
  rw [nodes_updateNode, Std.TreeMap.getD_eq_getD_getElem?, nodes_updateNode]
  by_cases heq : own = path
  · rw [if_pos heq, Option.getD_some, ite_self, if_pos (.inl heq.symm)]
  · rw [if_neg heq, ← Std.TreeMap.getD_eq_getD_getElem?]
    refine if_congr ?_ rfl rfl
    rw [or_iff_right fun hsame => heq hsame.symm]

theorem detail_applyDerivation (path : String) :
    (read.applyDerivation own drv).detail path =
      if path = own then
        { read.detail own with
          inputs := drv.inputDrvs.keys.foldl (·.insert ·) (read.detail own).inputs
          outputs := drv.outputs }
      else read.detail path := by
  have hdetail := detail_updateDetail read own path fun detail =>
    { detail with
      inputs := drv.inputDrvs.keys.foldl (·.insert ·) detail.inputs
      outputs := drv.outputs }
  refine Eq.trans ?_ hdetail
  change (read.backfill own drv).details.getD path .default = _
  rw [backfill, details_addInputs, details_addOutputs]
  rfl

theorem nodes_applyDerivationError (note path : String) :
    (read.applyDerivationError own note).forest.nodes[path]? =
      if own = path then some (read.forest.nodes.getD path .default)
      else read.forest.nodes[path]? :=
  read.nodes_updateNode own path

theorem detail_applyDerivationError (note path : String) :
    (read.applyDerivationError own note).detail path =
      if path = own then { read.detail own with note := some note }
      else read.detail path :=
  detail_updateDetail read own path fun detail => { detail with note := some note }

end ReadForest

theorem mem_foldl_insert (names : List String) (set : BTreeSet) (name : String) :
    name ∈ names.foldl (·.insert ·) set ↔ name ∈ set ∨ name ∈ names := by
  induction names generalizing set with
  | nil => simp
  | cons first names ih =>
      rw [List.foldl_cons, ih, Std.TreeSet.mem_insert,
        Std.LawfulEqCmp.compare_eq_iff_eq, List.mem_cons, eq_comm, or_assoc,
        or_left_comm]

/-! ## What a result fills in -/

namespace DrvStore

variable {store : DrvStore} {start read : ReadForest} {done : Set String}

theorem inputs_of_ok {path : String} {drv : Derivation}
    (hread : store.read path = .ok drv) : store.inputs path = drv.inputDrvs.keys := by
  rw [DrvStore.inputs, hread]

theorem inputs_of_error {path note : String}
    (hread : store.read path = .error note) : store.inputs path = [] := by
  rw [DrvStore.inputs, hread]

namespace Filled

theorem getD_nodes (hfilled : store.Filled start done read) (path : String) :
    read.forest.nodes.getD path .default = start.forest.nodes.getD path .default := by
  rw [Std.TreeMap.getD_eq_getD_getElem?]
  by_cases hentered : path ∈ done ∨ ∃ own ∈ done, path ∈ store.inputs own
  · rw [hfilled.entered path hentered, Option.getD_some]
  · rw [not_or] at hentered
    rw [hfilled.others path hentered.1 fun own hown hinput =>
      hentered.2 ⟨own, hown, hinput⟩, Std.TreeMap.getD_eq_getD_getElem?]

theorem unfilled (start : ReadForest) : store.Filled start ∅ start where
  cached _ := (or_iff_left id).symm
  entered _ hentered := by
    rcases hentered with hdone | ⟨_, hdone, _⟩
    · exact hdone.elim
    · exact hdone.elim
  others _ _ _ := rfl
  inputs _ _ := (or_iff_left fun hdone => hdone.1).symm
  outputs _ hdone := hdone.elim
  otherOutputs _ _ := rfl
  notes _ hdone := hdone.elim
  otherNotes _ _ := rfl
  owners _ hdone := hdone.elim
  otherOwners _ _ := rfl

theorem afterRead (hfilled : store.Filled start done read) {own : String}
    {drv : Derivation} (hread : store.read own = .ok drv) :
    store.Filled start (insert own done) (read.applyDerivation own drv) where
  cached path := by
    rw [ReadForest.drvCache_applyDerivation, Std.TreeMap.mem_insert,
      Std.LawfulEqCmp.compare_eq_iff_eq, hfilled.cached, Set.mem_insert_iff, eq_comm,
      or_left_comm]
  entered path hentered := by
    rw [ReadForest.nodes_applyDerivation, hfilled.getD_nodes]
    split
    · rfl
    · next hother =>
        rw [not_or] at hother
        refine hfilled.entered path ?_
        rcases hentered with (heq | hdone) | ⟨other, heq | hdone, hinput⟩
        · exact absurd heq hother.1
        · exact .inl hdone
        · rw [heq, inputs_of_ok hread] at hinput
          exact absurd hinput hother.2
        · exact .inr ⟨other, hdone, hinput⟩
  others path hdone hinputs := by
    rw [Set.mem_insert_iff, not_or] at hdone
    have hown := hinputs own (Set.mem_insert own done)
    rw [inputs_of_ok hread] at hown
    rw [ReadForest.nodes_applyDerivation, if_neg (not_or.mpr ⟨hdone.1, hown⟩)]
    exact hfilled.others path hdone.2 fun other hother =>
      hinputs other (Set.mem_insert_of_mem own hother)
  inputs path input := by
    rw [ReadForest.detail_applyDerivation]
    split
    · next heq =>
        subst heq
        rw [mem_foldl_insert, hfilled.inputs, inputs_of_ok hread]
        simp only [Set.mem_insert_iff, true_or, true_and]
        tauto
    · next hne =>
        rw [hfilled.inputs, Set.mem_insert_iff, or_iff_right hne]
  outputs path hdone other hother := by
    rw [ReadForest.detail_applyDerivation]
    split
    · next heq =>
        subst heq
        exact (Except.ok.inj (hread.symm.trans hother)) ▸ rfl
    · next hne => exact hfilled.outputs path (hdone.resolve_left hne) other hother
  otherOutputs path hdone := by
    rw [ReadForest.detail_applyDerivation]
    split
    · next heq =>
        exact absurd (heq ▸ hread) (hdone (.inl heq) drv)
    · exact hfilled.otherOutputs path fun hmem => hdone (.inr hmem)
  notes path hdone note hnote := by
    rw [ReadForest.detail_applyDerivation]
    split
    · next heq =>
        subst heq
        exact absurd (hread.symm.trans hnote) nofun
    · next hne => exact hfilled.notes path (hdone.resolve_left hne) note hnote
  otherNotes path hdone := by
    rw [ReadForest.detail_applyDerivation]
    split
    · next heq =>
        subst heq
        exact hfilled.otherNotes path fun _ note hnote =>
          absurd (hread.symm.trans hnote) nofun
    · exact hfilled.otherNotes path fun hmem => hdone (.inr hmem)
  owners other hother drv' hread' output houtput := by
    rw [ReadForest.outputToDrv_applyDerivation]
    split
    · next hown =>
        rw [store.distinct own other drv drv' output hread hread' hown houtput]
    · next hown =>
        refine hfilled.owners other (hother.resolve_left ?_) drv' hread' output houtput
        rintro rfl
        rw [Except.ok.inj (hread.symm.trans hread')] at hown
        exact hown houtput
  otherOwners output hnone := by
    rw [ReadForest.outputToDrv_applyDerivation,
      if_neg (hnone own (Set.mem_insert own done) drv hread)]
    exact hfilled.otherOwners output fun other hother =>
      hnone other (Set.mem_insert_of_mem own hother)

theorem afterError (hfilled : store.Filled start done read) {own note : String}
    (hread : store.read own = .error note) :
    store.Filled start (insert own done) (read.applyDerivationError own note) where
  cached path := by
    change path ∈ read.drvCache.insert own none ↔ _
    rw [Std.TreeMap.mem_insert, Std.LawfulEqCmp.compare_eq_iff_eq, hfilled.cached,
      Set.mem_insert_iff, eq_comm, or_left_comm]
  entered path hentered := by
    rw [ReadForest.nodes_applyDerivationError, hfilled.getD_nodes]
    split
    · rfl
    · next hne =>
        refine hfilled.entered path ?_
        rcases hentered with (heq | hdone) | ⟨other, heq | hdone, hinput⟩
        · exact absurd heq.symm hne
        · exact .inl hdone
        · rw [heq, inputs_of_error hread] at hinput
          cases hinput
        · exact .inr ⟨other, hdone, hinput⟩
  others path hdone hinputs := by
    rw [Set.mem_insert_iff, not_or] at hdone
    rw [ReadForest.nodes_applyDerivationError, if_neg fun heq => hdone.1 heq.symm]
    exact hfilled.others path hdone.2 fun other hother =>
      hinputs other (Set.mem_insert_of_mem own hother)
  inputs path input := by
    have hsame : ((read.applyDerivationError own note).detail path).inputs =
        (read.detail path).inputs := by
      rw [ReadForest.detail_applyDerivationError]
      split
      · next heq => rw [heq]
      · rfl
    rw [hsame, hfilled.inputs, Set.mem_insert_iff]
    refine or_congr_right (and_congr_left fun hinput => (or_iff_right ?_).symm)
    rintro rfl
    rw [inputs_of_error hread] at hinput
    cases hinput
  outputs path hdone other hother := by
    rw [ReadForest.detail_applyDerivationError]
    split
    · next heq =>
        subst heq
        exact absurd (hread.symm.trans hother) nofun
    · next hne => exact hfilled.outputs path (hdone.resolve_left hne) other hother
  otherOutputs path hdone := by
    rw [ReadForest.detail_applyDerivationError]
    split
    · next heq =>
        subst heq
        exact hfilled.otherOutputs path fun _ drv hdrv =>
          absurd (hread.symm.trans hdrv) nofun
    · exact hfilled.otherOutputs path fun hmem => hdone (.inr hmem)
  notes path hdone other hother := by
    rw [ReadForest.detail_applyDerivationError]
    split
    · next heq =>
        subst heq
        rw [Except.error.inj (hread.symm.trans hother)]
    · next hne => exact hfilled.notes path (hdone.resolve_left hne) other hother
  otherNotes path hdone := by
    rw [ReadForest.detail_applyDerivationError]
    split
    · next heq => exact absurd (heq ▸ hread) (hdone (.inl heq) note)
    · exact hfilled.otherNotes path fun hmem => hdone (.inr hmem)
  owners other hother drv hdrv := by
    refine hfilled.owners other (hother.resolve_left ?_) drv hdrv
    rintro rfl
    exact absurd (hread.symm.trans hdrv) nofun
  otherOwners output hnone :=
    hfilled.otherOwners output fun other hother =>
      hnone other (Set.mem_insert_of_mem own hother)

/-- A result fills in its path, whether it came before or not. -/
theorem answer (hfilled : store.Filled start done read) (path : String) :
    store.Filled start (insert path done) (store.answer read path) := by
  cases hread : store.read path with
  | ok drv =>
      rw [DrvStore.answer, hread]
      exact hfilled.afterRead hread
  | error note =>
      rw [DrvStore.answer, hread]
      exact hfilled.afterError hread

/-- What is filled in fixes the graph. -/
theorem sameGraph {other : ReadForest} (hfilled : store.Filled start done read)
    (hother : store.Filled start done other) : SameGraph read other where
  nodes path := by
    by_cases hentered : path ∈ done ∨ ∃ own ∈ done, path ∈ store.inputs own
    · rw [hfilled.entered path hentered, hother.entered path hentered]
    · rw [not_or] at hentered
      have hinputs (own) (hown : own ∈ done) (hinput : path ∈ store.inputs own) :=
        hentered.2 ⟨own, hown, hinput⟩
      rw [hfilled.others path hentered.1 hinputs, hother.others path hentered.1 hinputs]
  inputs path := BTreeSet.toList_eq_of_mem_iff fun input =>
    (hfilled.inputs path input).trans (hother.inputs path input).symm
  outputs path := by
    by_cases hread : path ∈ done ∧ ∃ drv, store.read path = .ok drv
    · obtain ⟨hdone, drv, hread⟩ := hread
      rw [hfilled.outputs path hdone drv hread, hother.outputs path hdone drv hread]
    · have hnone (hdone : path ∈ done) (drv) (hdrv : store.read path = .ok drv) :=
        hread ⟨hdone, drv, hdrv⟩
      rw [hfilled.otherOutputs path hnone, hother.otherOutputs path hnone]
  notes path := by
    by_cases hread : path ∈ done ∧ ∃ note, store.read path = .error note
    · obtain ⟨hdone, note, hread⟩ := hread
      rw [hfilled.notes path hdone note hread, hother.notes path hdone note hread]
    · have hnone (hdone : path ∈ done) (note) (hnote : store.read path = .error note) :=
        hread ⟨hdone, note, hnote⟩
      rw [hfilled.otherNotes path hnone, hother.otherNotes path hnone]
  owners output := by
    by_cases howner : ∃ own ∈ done, ∃ drv, store.read own = .ok drv ∧
        output ∈ drv.outputs.values
    · obtain ⟨own, hdone, drv, hread, houtput⟩ := howner
      rw [hfilled.owners own hdone drv hread output houtput,
        hother.owners own hdone drv hread output houtput]
    · have hnone (own) (hdone : own ∈ done) (drv) (hread : store.read own = .ok drv)
          (houtput : output ∈ drv.outputs.values) :=
        howner ⟨own, hdone, drv, hread, houtput⟩
      rw [hfilled.otherOwners output hnone, hother.otherOwners output hnone]

end Filled

/-! ## Runs -/

/-- What has been read since a forest. -/
def since (start read : ReadForest) : Set String :=
  {path | path ∈ read.drvCache ∧ path ∉ start.drvCache}

theorem answer_keeps (store : DrvStore) (read : ReadForest) (own : String) :
    (∀ path, path ∈ (store.answer read own).drvCache ↔
      path = own ∨ path ∈ read.drvCache) ∧
    ∀ path, path ∈ (store.answer read own).forest.pendingDrvs ↔
      path ∈ read.forest.pendingDrvs ∨
        path ∈ store.inputs own ∧ path ∉ read.drvCache := by
  cases hread : store.read own with
  | ok drv =>
      rw [DrvStore.answer, hread, inputs_of_ok hread]
      dsimp only
      refine ⟨fun path => ?_, read.mem_pendingDrvs_applyDerivation own drv⟩
      rw [ReadForest.drvCache_applyDerivation, Std.TreeMap.mem_insert,
        Std.LawfulEqCmp.compare_eq_iff_eq, eq_comm]
  | error note =>
      rw [DrvStore.answer, hread, inputs_of_error hread]
      refine ⟨fun path => ?_, fun path => ?_⟩
      · change path ∈ read.drvCache.insert own none ↔ _
        rw [Std.TreeMap.mem_insert, Std.LawfulEqCmp.compare_eq_iff_eq, eq_comm]
      · exact (or_iff_left fun hinput => absurd hinput.1 List.not_mem_nil).symm

/-- What is needed is not read at the start. -/
theorem not_mem_of_needed {path : String} (hneeded : path ∈ store.needed start) :
    path ∉ start.drvCache := by
  obtain ⟨first, hfirst, hreach⟩ := hneeded
  cases hreach with
  | refl => exact hfirst.2
  | tail _ hstep =>
      have hunread := (List.mem_filter.mp hstep).2
      rw [Bool.not_eq_true', ← Bool.not_eq_true, Std.TreeMap.contains_iff_mem] at hunread
      exact hunread

theorem needed_of_input {own path : String} (hown : own ∈ store.needed start)
    (hinput : path ∈ store.inputs own) (hunread : path ∉ start.drvCache) :
    path ∈ store.needed start := by
  obtain ⟨first, hfirst, hreach⟩ := hown
  refine ⟨first, hfirst, hreach.tail (List.mem_filter.mpr ⟨hinput, ?_⟩)⟩
  rw [Bool.not_eq_true', ← Bool.not_eq_true, Std.TreeMap.contains_iff_mem]
  exact hunread

theorem Filled.taken (hfilled : store.Filled start done read) :
    store.Filled start done read.takePending.2 :=
  ⟨hfilled.cached, hfilled.entered, hfilled.others, hfilled.inputs, hfilled.outputs,
    hfilled.otherOutputs, hfilled.notes, hfilled.otherNotes, hfilled.owners,
    hfilled.otherOwners⟩

/-- What a reader has in hand on the way. -/
structure Underway (store : DrvStore) (start : ReadForest) (state : ReadingForest) :
    Prop where
  filled : store.Filled start (since start state.read) state.read
  read : ∀ path ∈ since start state.read, path ∈ state.handed
  handed : ∀ path ∈ state.handed, path ∈ store.needed start
  pending : ∀ path ∈ state.read.forest.pendingDrvs, path ∉ start.drvCache →
    path ∈ store.needed start
  firsts : ∀ path ∈ start.forest.pendingDrvs, path ∉ start.drvCache →
    path ∈ state.read.forest.pendingDrvs ∨ path ∈ state.handed
  inputs : ∀ own ∈ since start state.read, ∀ path ∈ store.inputs own,
    path ∉ start.drvCache →
      path ∈ state.read.forest.pendingDrvs ∨ path ∈ state.handed

namespace Underway

variable {state : ReadingForest}

theorem begin (store : DrvStore) (start : ReadForest) :
    Underway store start ⟨start, []⟩ where
  filled := by
    have hnone : since start start = ∅ :=
      Set.eq_empty_iff_forall_notMem.mpr fun path hpath => hpath.2 hpath.1
    rw [hnone]
    exact Filled.unfilled start
  read path hpath := absurd hpath.1 hpath.2
  handed path hpath := absurd hpath List.not_mem_nil
  pending path hpending hunread := ⟨path, ⟨hpending, hunread⟩, .refl⟩
  firsts path hpending _ := .inl hpending
  inputs own hown := absurd hown.1 hown.2

theorem mem_takePending (read : ReadForest) (path : String) :
    path ∈ read.takePending.1 ↔
      path ∈ read.forest.pendingDrvs ∧ path ∉ read.drvCache := by
  rw [ReadForest.takePending, List.mem_filter, Std.TreeSet.mem_toList,
    Bool.not_eq_true', ← Bool.not_eq_true, Std.TreeMap.contains_iff_mem]

/-- What is taken is in hand, or was read already. -/
theorem take (hunder : Underway store start state) :
    Underway store start
      { read := state.read.takePending.2
        handed := state.handed ++ state.read.takePending.1 } := by
  have hmoved (path : String) (hunread : path ∉ start.drvCache)
      (hwaiting : path ∈ state.read.forest.pendingDrvs ∨ path ∈ state.handed) :
      path ∈ state.handed ++ state.read.takePending.1 := by
    rw [List.mem_append, mem_takePending]
    rcases hwaiting with hpending | hhanded
    · by_cases hcached : path ∈ state.read.drvCache
      · exact .inl (hunder.read path ⟨hcached, hunread⟩)
      · exact .inr ⟨hpending, hcached⟩
    · exact .inl hhanded
  exact
    { filled := hunder.filled.taken
      read := fun path hpath => List.mem_append_left _ (hunder.read path hpath)
      handed := fun path hpath => by
        rcases List.mem_append.mp hpath with hhanded | htaken
        · exact hunder.handed path hhanded
        · obtain ⟨hpending, huncached⟩ := (mem_takePending _ _).mp htaken
          exact hunder.pending path hpending fun hcached =>
            huncached ((hunder.filled.cached path).mpr (.inl hcached))
      pending := fun path hpath => absurd hpath Std.TreeSet.not_mem_emptyc
      firsts := fun path hpending hunread =>
        .inr (hmoved path hunread (hunder.firsts path hpending hunread))
      inputs := fun own hown path hinput hunread =>
        .inr (hmoved path hunread (hunder.inputs own hown path hinput hunread)) }

theorem answer (hunder : Underway store start state) {own : String}
    (hhanded : own ∈ state.handed) :
    Underway store start { state with read := store.answer state.read own } := by
  obtain ⟨hcache, hpending⟩ := answer_keeps store state.read own
  have hneeded := hunder.handed own hhanded
  have hsince : since start (store.answer state.read own) =
      insert own (since start state.read) := by
    ext path
    rw [since, Set.mem_ofPred_eq, hcache, Set.mem_insert_iff, since, Set.mem_ofPred_eq]
    constructor
    · rintro ⟨rfl | hcached, hunread⟩
      · exact .inl rfl
      · exact .inr ⟨hcached, hunread⟩
    · rintro (rfl | ⟨hcached, hunread⟩)
      · exact ⟨.inl rfl, not_mem_of_needed hneeded⟩
      · exact ⟨.inr hcached, hunread⟩
  have hkept (path : String)
      (hwaiting : path ∈ state.read.forest.pendingDrvs ∨ path ∈ state.handed) :
      path ∈ (store.answer state.read own).forest.pendingDrvs ∨
        path ∈ state.handed :=
    hwaiting.imp_left fun hpath => (hpending path).mpr (.inl hpath)
  exact
    { filled := hsince ▸ hunder.filled.answer own
      read := fun path hpath => by
        rw [hsince] at hpath
        rcases hpath with rfl | hpath
        · exact hhanded
        · exact hunder.read path hpath
      handed := hunder.handed
      pending := fun path hpath hunread => by
        rcases (hpending path).mp hpath with hpath | hinput
        · exact hunder.pending path hpath hunread
        · exact needed_of_input hneeded hinput.1 hunread
      firsts := fun path hpath hunread => hkept path (hunder.firsts path hpath hunread)
      inputs := fun other hother path hinput hunread => by
        rw [hsince] at hother
        rcases hother with rfl | hother
        · by_cases hcached : path ∈ state.read.drvCache
          · exact .inr (hunder.read path ⟨hcached, hunread⟩)
          · exact .inl ((hpending path).mpr (.inr ⟨hinput, hcached⟩))
        · exact hkept path (hunder.inputs other hother path hinput hunread) }

theorem step {after : ReadingForest} {move : Move}
    (hunder : Underway store start state) (hstep : store.Step state move after) :
    Underway store start after := by
  cases hstep with
  | take => exact hunder.take
  | answer path hhanded => exact hunder.answer hhanded

/-- With nothing pending and nothing in flight, what is needed has been read. -/
theorem since_eq_needed (hunder : Underway store start state)
    (hcaught : state.CaughtUp) : since start state.read = store.needed start := by
  have hread (path : String) (hunread : path ∉ start.drvCache)
      (hwaiting : path ∈ state.read.forest.pendingDrvs ∨ path ∈ state.handed) :
      path ∈ since start state.read := by
    rcases hwaiting with hpending | hhanded
    · exact ⟨hcaught.pending path hpending, hunread⟩
    · exact ⟨hcaught.handed path hhanded, hunread⟩
  apply Set.Subset.antisymm
  · exact fun path hpath => hunder.handed path (hunder.read path hpath)
  · rintro path ⟨first, ⟨hpending, hunread⟩, hreach⟩
    induction hreach with
    | refl => exact hread first hunread (hunder.firsts first hpending hunread)
    | @tail own path _ hstep ih =>
        obtain ⟨hinput, hfresh⟩ := List.mem_filter.mp hstep
        rw [Bool.not_eq_true', ← Bool.not_eq_true,
          Std.TreeMap.contains_iff_mem] at hfresh
        exact hread path hfresh (hunder.inputs own ih path hinput hfresh)

end Underway

theorem underway_of_onRun {state : ReadingForest}
    (hrun : store.OnRun start state) : Underway store start state := by
  obtain ⟨first, rfl, hrun⟩ := hrun
  induction hrun with
  | refl => exact Underway.begin store start
  | tail _ hstep ih =>
      obtain ⟨move, -, hstep⟩ := hstep
      exact ih.step hstep

theorem filled_of_drains {final : ReadForest} (hdrains : store.Drains start final) :
    store.Filled start (store.needed start) final := by
  obtain ⟨state, hreach, hcaught, rfl⟩ := hdrains
  have hunder := underway_of_onRun hreach
  rw [← hunder.since_eq_needed hcaught]
  exact hunder.filled

/-! ## `resolve_pending` -/

theorem OnRun.answers {state : ReadingForest} (hrun : store.OnRun start state)
    {paths : List String} (hpaths : ∀ path ∈ paths, path ∈ state.handed) :
    store.OnRun start { state with read := paths.foldl store.answer state.read } := by
  induction paths generalizing state with
  | nil => exact hrun
  | cons own paths ih =>
      obtain ⟨hown, hpaths⟩ := List.forall_mem_cons.mp hpaths
      have hnext : store.OnRun start
          { state with read := store.answer state.read own } :=
        Reachable.step hrun trivial (Step.answer state own hown)
      exact ih hnext hpaths

theorem mem_drvCache_answers (store : DrvStore) (read : ReadForest)
    (paths : List String) (path : String) :
    path ∈ (paths.foldl store.answer read).drvCache ↔
      path ∈ read.drvCache ∨ path ∈ paths := by
  induction paths generalizing read with
  | nil => exact (or_iff_left List.not_mem_nil).symm
  | cons own paths ih =>
      rw [List.foldl_cons, ih, (answer_keeps store read own).1, List.mem_cons,
        or_assoc, or_left_comm]

/-- All that can ever be needed. -/
def candidates (store : DrvStore) (start : ReadForest) : List String :=
  start.forest.pendingDrvs.toList ++ store.readable.flatMap store.inputs

theorem mem_candidates {path : String} (hneeded : path ∈ store.needed start) :
    path ∈ store.candidates start := by
  obtain ⟨first, hfirst, hreach⟩ := hneeded
  rw [candidates, List.mem_append]
  cases hreach with
  | refl => exact .inl (Std.TreeSet.mem_toList.mpr hfirst.1)
  | @tail own _ _ hstep =>
      have hinput := (List.mem_filter.mp hstep).1
      cases hread : store.read own with
      | ok drv => exact .inr (List.mem_flatMap.mpr
          ⟨own, store.finite own drv hread, hinput⟩)
      | error note =>
          rw [inputs_of_error hread] at hinput
          cases hinput

/-- Each round reads what was pending, every path for the first time; the rounds
end, because they only ever read candidates. -/
theorem resolvePending_onRun {fuel : ℕ} {seen : List String}
    (hrun : store.OnRun start ⟨read, seen⟩)
    (hseen : ∀ path ∈ seen, path ∈ read.drvCache) (hnodup : seen.Nodup)
    (hfuel : (store.candidates start).length < fuel + seen.length) :
    ∃ final reads, store.resolvePending fuel read seen = some (final, reads) ∧
      store.OnRun start ⟨final, reads⟩ ∧ reads.Nodup ∧
      (∀ path ∈ reads, path ∈ final.drvCache) ∧
      final.forest.pendingDrvs.toList = [] := by
  have hbound : seen.length ≤ (store.candidates start).length :=
    (hnodup.subperm fun path hpath =>
      mem_candidates ((underway_of_onRun hrun).handed path hpath)).length_le
  induction fuel generalizing read seen with
  | zero => omega
  | succ fuel ih =>
      have htaken : store.OnRun start
          ⟨read.takePending.2, seen ++ read.takePending.1⟩ :=
        Reachable.step hrun trivial (Step.take ⟨read, seen⟩)
      rw [resolvePending]
      dsimp only
      split
      · next hempty =>
          rw [List.isEmpty_iff.mp hempty, List.append_nil] at htaken
          exact ⟨_, _, rfl, htaken, hnodup, hseen, rfl⟩
      · next hsome =>
          have hfresh (path) (hpath : path ∈ read.takePending.1) : path ∉ seen :=
            fun hmem => ((Underway.mem_takePending read path).mp hpath).2
              (hseen path hmem)
          have hpending : read.forest.pendingDrvs.toList.Nodup :=
            Std.TreeSet.distinct_toList.imp Std.ReflCmp.ne_of_cmp_ne_eq
          have hbatch : read.takePending.1.Nodup := hpending.filter _
          have hpos : 0 < read.takePending.1.length :=
            List.length_pos_iff.mpr fun hnil => hsome (hnil ▸ rfl)
          have hnext := htaken.answers fun path hpath =>
            List.mem_append_right seen hpath
          have hnodup' : (seen ++ read.takePending.1).Nodup :=
            List.nodup_append.mpr ⟨hnodup, hbatch, fun path hpath other hother heq =>
              hfresh other hother (heq ▸ hpath)⟩
          refine ih hnext ?_ hnodup' ?_ ?_
          · intro path hpath
            rw [mem_drvCache_answers]
            exact (List.mem_append.mp hpath).imp_left (hseen path)
          · rw [List.length_append]
            omega
          · exact (hnodup'.subperm fun path hpath =>
              mem_candidates ((underway_of_onRun hnext).handed path hpath)).length_le

/-- Results in any order and number that leave nothing pending fill the forest
with the closure of what was pending; `resolve_pending` is such a run, which
ends and reads each path of the closure once. -/
theorem backfill_confluent (store : DrvStore) (start : ReadForest) :
    (∀ final, store.Drains start final →
      store.Filled start (store.needed start) final) ∧
    (∀ final other, store.Drains start final → store.Drains start other →
      SameGraph final other) ∧
    ∃ rounds, ∀ fuel, rounds ≤ fuel → ∃ final reads,
      store.resolvePending fuel start [] = some (final, reads) ∧
      store.Drains start final ∧ reads.Nodup ∧
      (∀ path, path ∈ reads ↔ path ∈ store.needed start) ∧
      final.forest.pendingDrvs.toList = [] := by
  refine ⟨fun final => filled_of_drains, fun final other hfinal hother =>
    (filled_of_drains hfinal).sameGraph (filled_of_drains hother),
    (store.candidates start).length + 1, fun fuel hfuel => ?_⟩
  obtain ⟨final, reads, hresolve, hrun, hnodup, hread, hpending⟩ :=
    resolvePending_onRun (Reachable.initial rfl : store.OnRun start ⟨start, []⟩)
      (fun _ hpath => absurd hpath List.not_mem_nil) List.nodup_nil
      (show (store.candidates start).length < fuel + 0 from hfuel)
  have hunder := underway_of_onRun hrun
  have hcaught : ReadingForest.CaughtUp ⟨final, reads⟩ :=
    { handed := hread
      pending := fun path hpath => by
        have hmem := Std.TreeSet.mem_toList.mpr hpath
        rw [hpending] at hmem
        cases hmem }
  refine ⟨final, reads, hresolve, ⟨_, hrun, hcaught, rfl⟩, hnodup, fun path => ?_,
    hpending⟩
  constructor
  · exact hunder.handed path
  · intro hneeded
    exact hunder.read path ((hunder.since_eq_needed hcaught).symm ▸ hneeded)

end DrvStore

end Mandala.Forest
