import Mandala.Core.Worklist
import Mandala.Forest.Rows
import Mathlib.Data.List.Perm.Subperm
import Mathlib.Data.Set.Card

/-!
# The activity projection

The projection shows what is going on and everything that waits for it, then
planned work while there is room, and counts what it leaves out.
-/

namespace Mandala.Forest

open Relation
open Mandala.Data
open Mandala.Worklist

/-- `ElidedCounts::total`. -/
def ElidedCounts.total (elided : ElidedCounts) : ℕ :=
  elided.untracked + elided.planned + elided.built

/-- A node that is active or failed, or waits for one that is. -/
def Mandatory (list : List DerivationNode) (path : String) : Prop :=
  ∃ node ∈ list, isMandatory node.status ∧
    ReflTransGen (fun input consumer => Needs list consumer input)
      node.path path

/-- The active and failed nodes. -/
def mandatoryPaths (list : List DerivationNode) : BTreeSet :=
  (list.filter (isMandatory ·.status)).foldl
    (fun keep node => keep.insert node.path) ∅

def climbedPaths (list : List DerivationNode) : BTreeSet :=
  climb list list.length
    (mandatoryPaths list, (mandatoryPaths list).toList.reverse)

def plannedPaths (list : List DerivationNode) (roots : List String)
    (rowBudget : ℕ) : BTreeSet :=
  fill rowBudget (climbedPaths list)
    (((displayRows list roots).filter (·.node.status = .planned)).map
      (·.node.path))

/-- `keep`, when it has been filled. -/
def keptPaths (list : List DerivationNode) (roots : List String)
    (rowBudget : ℕ) : BTreeSet :=
  if (plannedPaths list roots rowBudget).isEmpty then
    fill rowBudget (plannedPaths list roots rowBudget)
      (roots.filter (byPath list).contains)
  else plannedPaths list roots rowBudget

def elidedCount (list : List DerivationNode) (keep : BTreeSet)
    (status : DerivationStatus) : ℕ :=
  list.countP fun node =>
    !keep.contains node.path && decide (node.status = status)

variable {list : List DerivationNode} {roots : List String} {budget : ℕ}

/-! ## The climb -/

theorem mem_insert {keep : BTreeSet} {path other : String} :
    other ∈ keep.insert path ↔ other = path ∨ other ∈ keep := by
  rw [← mem_seenSet, seenSet_insert, Set.mem_insert_iff, mem_seenSet]

theorem mem_parentsOf {path parent : String} :
    parent ∈ parentsOf list path ↔ Needs list parent path := by
  simp only [parentsOf, List.mem_map, List.mem_filter, List.contains_iff_mem,
    Needs]
  constructor
  · rintro ⟨node, ⟨hmem, hinput⟩, hpath⟩
    exact ⟨node, hmem, hpath, hinput⟩
  · rintro ⟨node, hmem, hpath, hinput⟩
    exact ⟨node, ⟨hmem, hinput⟩, hpath⟩

/-- The parents that were not kept are kept and put on the worklist once. -/
theorem foldl_keepParent (parents : List String) (keep : BTreeSet)
    (frontier : List String) :
    ∃ (kept : BTreeSet) (added : List String),
      parents.foldl keepParent (keep, frontier) = (kept, added ++ frontier) ∧
      (∀ path, path ∈ kept ↔ path ∈ keep ∨ path ∈ parents) ∧
      (∀ path, path ∈ added ↔ path ∈ parents ∧ path ∉ keep) ∧
      added.Nodup := by
  induction parents generalizing keep frontier with
  | nil => exact ⟨keep, [], rfl, by simp, by simp, List.nodup_nil⟩
  | cons parent parents ih =>
      rw [List.foldl_cons, keepParent]
      by_cases hkept : parent ∈ keep
      · rw [if_pos (Std.TreeSet.contains_iff_mem.mpr hkept)]
        obtain ⟨kept, added, hfold, hmem, hadded, hnodup⟩ := ih keep frontier
        refine ⟨kept, added, hfold, ?_, ?_, hnodup⟩
        · intro path
          rw [hmem, List.mem_cons]
          constructor
          · exact Or.imp_right .inr
          · rintro (hold | rfl | hnew)
            · exact .inl hold
            · exact .inl hkept
            · exact .inr hnew
        · intro path
          rw [hadded, List.mem_cons]
          constructor
          · exact And.imp_left .inr
          · rintro ⟨rfl | hnew, hfresh⟩
            · exact absurd hkept hfresh
            · exact ⟨hnew, hfresh⟩
      · rw [if_neg fun hcontains =>
          hkept (Std.TreeSet.contains_iff_mem.mp hcontains)]
        obtain ⟨kept, added, hfold, hmem, hadded, hnodup⟩ :=
          ih (keep.insert parent) (parent :: frontier)
        refine ⟨kept, added ++ [parent], ?_, ?_, ?_, ?_⟩
        · rw [hfold, List.append_assoc, List.singleton_append]
        · intro path
          rw [hmem, mem_insert, List.mem_cons, or_assoc, or_left_comm]
        · intro path
          rw [List.mem_append, List.mem_singleton, hadded, mem_insert,
            List.mem_cons, not_or]
          constructor
          · rintro (⟨hnew, -, hfresh⟩ | rfl)
            · exact ⟨.inr hnew, hfresh⟩
            · exact ⟨.inl rfl, hkept⟩
          · rintro ⟨hnew, hfresh⟩
            by_cases heq : path = parent
            · exact .inr heq
            · exact .inl ⟨hnew.resolve_left heq, heq, hfresh⟩
        · rw [List.nodup_append]
          refine ⟨hnodup, List.nodup_singleton _, ?_⟩
          rintro path hpath other hother rfl
          rw [List.mem_singleton.mp hother, hadded, mem_insert] at hpath
          exact hpath.2 (.inl rfl)

/-- The nodes that are not kept. -/
def unkept (list : List DerivationNode) (keep : BTreeSet) : List String :=
  (list.map DerivationNode.path).filter (· ∉ keep)

theorem length_unkept {keep kept : BTreeSet} {added : List String}
    (hsubset : ∀ path ∈ keep, path ∈ kept)
    (hadded : ∀ path ∈ added, path ∈ kept ∧ path ∉ keep ∧
      path ∈ list.map DerivationNode.path) (hnodup : added.Nodup) :
    added.length + (unkept list kept).length ≤ (unkept list keep).length := by
  have hsplit : (unkept list keep).filter (· ∉ kept) = unkept list kept := by
    unfold unkept
    rw [List.filter_filter]
    apply List.filter_congr
    intro path _
    rw [← Bool.decide_and]
    exact decide_eq_decide.mpr
      ⟨And.left, fun hfresh => ⟨hfresh, fun hold => hfresh (hsubset path hold)⟩⟩
  have hsub : added ⊆ (unkept list keep).filter (· ∈ kept) := by
    intro path hpath
    obtain ⟨hkept, hfresh, hnode⟩ := hadded path hpath
    exact List.mem_filter.mpr ⟨List.mem_filter.mpr
      ⟨hnode, decide_eq_true hfresh⟩, decide_eq_true hkept⟩
  have hless : added.length ≤ ((unkept list keep).filter (· ∈ kept)).length :=
    (List.subperm_of_subset hnodup hsub).length_le
  have htotal := List.length_eq_length_filter_add
    (l := unkept list keep) (fun path => decide (path ∈ kept))
  have hneg : (unkept list keep).filter (fun path => !decide (path ∈ kept)) =
      unkept list kept := by
    rw [← hsplit]
    apply List.filter_congr
    intro path _
    exact (decide_not).symm
  rw [hneg] at htotal
  omega

/-- A round follows one node and leaves one fewer to follow or to keep, so the
fuel lasts. -/
theorem rounds_climb (fuel : ℕ) (keep : BTreeSet) (frontier : List String)
    (hfuel : frontier.length + (unkept list keep).length ≤ fuel) :
    Rounds (parentsOf list) (seenSet keep) frontier
      (seenSet (climb list fuel (keep, frontier))) := by
  induction fuel generalizing keep frontier with
  | zero =>
      have hnil : frontier = [] := List.eq_nil_of_length_eq_zero (by omega)
      subst hnil
      exact .done
  | succ fuel ih =>
      cases frontier with
      | nil => exact .done
      | cons path frontier =>
          obtain ⟨kept, added, hfold, hmem, hadded, hnodup⟩ :=
            foldl_keepParent (parentsOf list path) keep frontier
          have hkept : seenSet kept =
              seenSet keep ∪ {other | other ∈ parentsOf list path} := by
            ext other
            exact hmem other
          have hless : added.length + (unkept list kept).length ≤
              (unkept list keep).length := by
            apply length_unkept (fun other hold => (hmem other).mpr (.inl hold))
              _ hnodup
            intro other hother
            obtain ⟨hparent, hfresh⟩ := (hadded other).mp hother
            obtain ⟨node, hnode, rfl, -⟩ := mem_parentsOf.mp hparent
            exact ⟨(hmem _).mpr (.inr hparent), hfresh,
              List.mem_map_of_mem hnode⟩
          have hnew : ∀ other, other ∈ added ↔
              other ∈ parentsOf list path ∧ other ∉ seenSet keep := hadded
          rw [climb, hfold]
          apply Rounds.round hnew
          rw [← hkept]
          apply ih
          rw [List.length_append]
          rw [List.length_cons] at hfuel
          omega

theorem mem_mandatoryPaths {path : String} :
    path ∈ mandatoryPaths list ↔
      ∃ node ∈ list, isMandatory node.status ∧ node.path = path := by
  have hfold (nodes : List DerivationNode) (keep : BTreeSet) :
      path ∈ nodes.foldl (fun keep node => keep.insert node.path) keep ↔
        path ∈ keep ∨ ∃ node ∈ nodes, node.path = path := by
    induction nodes generalizing keep with
    | nil => simp
    | cons node nodes ih =>
        rw [List.foldl_cons, ih, mem_insert]
        simp only [List.mem_cons, exists_eq_or_imp]
        rw [or_assoc, or_left_comm, eq_comm]
  rw [mandatoryPaths, hfold]
  simp only [List.mem_filter]
  constructor
  · rintro (hempty | ⟨node, ⟨hmem, hstatus⟩, hpath⟩)
    · exact absurd hempty Std.TreeSet.not_mem_emptyc
    · exact ⟨node, hmem, hstatus, hpath⟩
  · rintro ⟨node, hmem, hstatus, hpath⟩
    exact .inr ⟨node, ⟨hmem, hstatus⟩, hpath⟩

/-- Kept before there is room for more is exactly what is mandatory. -/
theorem mem_climbedPaths {path : String} :
    path ∈ climbedPaths list ↔ Mandatory list path := by
  have hstart {other : String} :
      other ∈ (mandatoryPaths list).toList.reverse ↔
        other ∈ mandatoryPaths list := by
    rw [List.mem_reverse, Std.TreeSet.mem_toList]
  have hfuel : (mandatoryPaths list).toList.reverse.length +
      (unkept list (mandatoryPaths list)).length ≤ list.length := by
    have hless := @length_unkept list ∅ (mandatoryPaths list)
      (mandatoryPaths list).toList.reverse
      (fun other hnone => absurd hnone Std.TreeSet.not_mem_emptyc)
      (by
        intro other hother
        obtain ⟨node, hmem, -, rfl⟩ := mem_mandatoryPaths.mp (hstart.mp hother)
        exact ⟨hstart.mp hother, Std.TreeSet.not_mem_emptyc,
          List.mem_map_of_mem hmem⟩)
      (List.nodup_reverse.mpr
        (Std.TreeSet.distinct_toList.imp Std.ReflCmp.ne_of_cmp_ne_eq))
    have hfilter := List.length_filter_le (· ∉ (∅ : BTreeSet))
      (list.map DerivationNode.path)
    rw [List.length_map] at hfilter
    exact hless.trans hfilter
  have hclosure := (rounds_climb list.length (mandatoryPaths list) _
    hfuel).eq_closure (fun other hother => hstart.mp hother)
    (fun other hother hnot => absurd (hstart.mpr hother) hnot)
  change path ∈ seenSet (climbedPaths list) ↔ _
  rw [climbedPaths, hclosure]
  have hstep : (fun node other => other ∈ parentsOf list node) =
      fun input consumer => Needs list consumer input := by
    funext input consumer
    exact propext mem_parentsOf
  constructor
  · rintro ⟨first, hfirst, hreach⟩
    obtain ⟨node, hmem, hstatus, rfl⟩ := mem_mandatoryPaths.mp hfirst
    exact ⟨node, hmem, hstatus, hstep ▸ hreach⟩
  · rintro ⟨node, hmem, hstatus, hreach⟩
    exact ⟨node.path, mem_mandatoryPaths.mpr ⟨node, hmem, hstatus, rfl⟩,
      hstep ▸ hreach⟩

theorem Mandatory.mem_paths {path : String} (hmandatory : Mandatory list path) :
    path ∈ list.map DerivationNode.path := by
  obtain ⟨node, hmem, -, hreach⟩ := hmandatory
  cases hreach with
  | refl => exact List.mem_map_of_mem hmem
  | tail _ hstep =>
      obtain ⟨consumer, hconsumer, rfl, -⟩ := hstep
      exact List.mem_map_of_mem hconsumer

/-! ## Filling up -/

theorem fill_spec (rowBudget : ℕ) (keep : BTreeSet) (paths : List String) :
    (∀ path ∈ keep, path ∈ fill rowBudget keep paths) ∧
    (∀ path ∈ fill rowBudget keep paths, path ∈ keep ∨ path ∈ paths) ∧
    (fill rowBudget keep paths).size ≤ max rowBudget keep.size := by
  unfold fill
  induction paths generalizing keep with
  | nil => exact ⟨fun _ hmem => hmem, fun _ => .inl, le_max_right _ _⟩
  | cons path paths ih =>
      rw [List.foldl_cons]
      by_cases hfull : rowBudget ≤ keep.size
      · rw [if_pos hfull]
        obtain ⟨hkeep, hfrom, hsize⟩ := ih keep
        exact ⟨hkeep, fun other hother =>
          (hfrom other hother).imp_right (List.mem_cons_of_mem _), hsize⟩
      · rw [if_neg hfull]
        obtain ⟨hkeep, hfrom, hsize⟩ := ih (keep.insert path)
        have hinsert : (keep.insert path).size ≤ keep.size + 1 :=
          Std.TreeSet.size_insert_le
        refine ⟨fun other hother => hkeep other (mem_insert.mpr (.inr hother)),
          ?_, by omega⟩
        intro other hother
        rcases hfrom other hother with hold | hlater
        · rcases mem_insert.mp hold with rfl | hold
          · exact .inr List.mem_cons_self
          · exact .inl hold
        · exact .inr (List.mem_cons_of_mem _ hlater)

/-- What is kept in the end holds the mandatory nodes, names only nodes, and is
no larger than it has to be. -/
structure Keeps (list : List DerivationNode) (budget : ℕ) (keep : BTreeSet) :
    Prop where
  mandatory : ∀ path, Mandatory list path → path ∈ keep
  nodes : ∀ path ∈ keep, path ∈ list.map DerivationNode.path
  size : keep.size ≤ max budget (climbedPaths list).size

theorem keeps_fill {keep : BTreeSet} (hkeeps : Keeps list budget keep)
    {paths : List String}
    (hpaths : ∀ path ∈ paths, path ∈ list.map DerivationNode.path) :
    Keeps list budget (fill budget keep paths) := by
  obtain ⟨hkeep, hfrom, hsize⟩ := fill_spec budget keep paths
  have hbound := hkeeps.size
  refine ⟨fun path hmandatory => hkeep path (hkeeps.mandatory path hmandatory),
    ?_, by omega⟩
  intro path hmem
  rcases hfrom path hmem with hold | hnew
  · exact hkeeps.nodes path hold
  · exact hpaths path hnew

theorem keeps_keptPaths (hnodup : (list.map DerivationNode.path).Nodup) :
    Keeps list budget (keptPaths list roots budget) := by
  have hclimbed : Keeps list budget (climbedPaths list) :=
    ⟨fun _ => mem_climbedPaths.mpr,
      fun _ hmem => (mem_climbedPaths.mp hmem).mem_paths, le_max_right _ _⟩
  have hplanned : Keeps list budget (plannedPaths list roots budget) := by
    apply keeps_fill hclimbed
    intro path hmem
    obtain ⟨row, hrow, rfl⟩ := List.mem_map.mp hmem
    exact List.mem_map_of_mem (mem_of_displayRows (List.mem_of_mem_filter hrow))
  unfold keptPaths
  split
  · apply keeps_fill hplanned
    intro path hmem
    have hfound := (List.mem_filter.mp hmem).2
    rw [Std.TreeMap.contains_eq_isSome_getElem?,
      Option.isSome_iff_exists] at hfound
    obtain ⟨node, hnode⟩ := hfound
    obtain ⟨hin, rfl⟩ := (getElem?_byPath hnodup).mp hnode
    exact List.mem_map_of_mem hin
  · exact hplanned

/-! ## Shown or left out -/

theorem isMandatory_eq_false_iff (status : DerivationStatus) :
    isMandatory status = false ↔
      status = .unknown ∨ status = .planned ∨ status = .built := by
  cases status <;> decide

/-- A node that is not kept is counted under one of the three statuses. -/
theorem elidedCount_add (keep : BTreeSet)
    (hkeep : ∀ node ∈ list, isMandatory node.status → node.path ∈ keep) :
    elidedCount list keep .unknown + elidedCount list keep .planned +
        elidedCount list keep .built =
      list.countP fun node => !keep.contains node.path := by
  unfold elidedCount
  induction list with
  | nil => rfl
  | cons node list ih =>
      have hrest := ih fun other hother =>
        hkeep other (List.mem_cons_of_mem _ hother)
      simp only [List.countP_cons]
      cases hcontains : keep.contains node.path with
      | true =>
          simp only [Bool.not_true, Bool.false_and]
          exact hrest
      | false =>
          have hstatus : isMandatory node.status = false := by
            by_contra hmandatory
            have hmem := hkeep node List.mem_cons_self
              (Bool.not_eq_false _ ▸ hmandatory)
            rw [Std.TreeSet.contains_iff_mem.mpr hmem] at hcontains
            cases hcontains
          simp only [Bool.not_false, Bool.true_and, decide_eq_true_eq]
          rcases (isMandatory_eq_false_iff _).mp hstatus with
            heq | heq | heq <;>
          · rw [heq]
            simp only [reduceCtorEq, if_true, if_false]
            omega

theorem rows_length (hnodup : (list.map DerivationNode.path).Nodup)
    (keep : BTreeSet) :
    ((displayRows list roots).filter fun row =>
        keep.contains row.node.path).length =
      list.countP fun node => keep.contains node.path := by
  rw [← List.countP_eq_length_filter,
    ← (@displayRows_perm list roots hnodup).countP_eq, List.countP_map]
  rfl

theorem ncard_mandatory (list : List DerivationNode) :
    {path | Mandatory list path}.ncard = (climbedPaths list).size := by
  have hset : {path | Mandatory list path} =
      ((climbedPaths list).toList.toFinset : Set String) := by
    ext path
    rw [List.coe_toFinset]
    exact mem_climbedPaths.symm.trans Std.TreeSet.mem_toList.symm
  have hdistinct : (climbedPaths list).toList.Nodup :=
    Std.TreeSet.distinct_toList.imp Std.ReflCmp.ne_of_cmp_ne_eq
  rw [hset, Set.ncard_coe_finset, List.toFinset_card_of_nodup hdistinct,
    Std.TreeSet.length_toList]

/-- The projection shows what it must, in the order of the rows and each node
once; what it does not show it counts, and it is no longer than its budget
unless the mandatory nodes are. -/
theorem activityProjection_spec (list : List DerivationNode)
    (roots : List String) (budget : ℕ)
    (hnodup : (list.map DerivationNode.path).Nodup) :
    let projection := activityProjection list roots budget
    (∀ node ∈ list, Mandatory list node.path →
      node ∈ projection.rows.map DisplayRow.node) ∧
    projection.rows.Sublist (displayRows list roots) ∧
    (projection.rows.map (·.node.path)).Nodup ∧
    projection.rows.length + projection.elided.total = list.length ∧
    projection.rows.length ≤ max budget {path | Mandatory list path}.ncard := by
  intro projection
  obtain ⟨hmandatory, -, hsize⟩ := @keeps_keptPaths list roots budget hnodup
  have hsublist : projection.rows.Sublist (displayRows list roots) :=
    List.filter_sublist
  have hpaths : (projection.rows.map (·.node.path)).Nodup :=
    (nodup_displayRows hnodup).sublist (hsublist.map _)
  refine ⟨?_, hsublist, hpaths, ?_, ?_⟩
  · intro node hmem hnode
    have hlisted := (@displayRows_perm list roots hnodup).mem_iff.mpr hmem
    obtain ⟨row, hrow, rfl⟩ := List.mem_map.mp hlisted
    exact List.mem_map_of_mem (List.mem_filter.mpr ⟨hrow,
      Std.TreeSet.contains_iff_mem.mpr (hmandatory _ hnode)⟩)
  · have hrows : projection.rows = (displayRows list roots).filter fun row =>
        (keptPaths list roots budget).contains row.node.path := rfl
    have htotal : projection.elided.total =
        elidedCount list (keptPaths list roots budget) .unknown +
        elidedCount list (keptPaths list roots budget) .planned +
        elidedCount list (keptPaths list roots budget) .built := rfl
    have helided := elidedCount_add (keptPaths list roots budget)
      fun node hmem hstatus => hmandatory node.path ⟨node, hmem, hstatus, .refl⟩
    rw [htotal, helided, hrows, rows_length hnodup,
      List.length_eq_countP_add_countP
        (fun node => (keptPaths list roots budget).contains node.path)]
    simp only [Bool.not_eq_true, Bool.decide_eq_false]
  · have hsubset : projection.rows.map (·.node.path) ⊆
        (keptPaths list roots budget).toList := by
      intro path hmem
      obtain ⟨row, hrow, rfl⟩ := List.mem_map.mp hmem
      exact Std.TreeSet.mem_toList.mpr
        (Std.TreeSet.contains_iff_mem.mp (List.mem_filter.mp hrow).2)
    have hlength := (List.subperm_of_subset hpaths hsubset).length_le
    rw [List.length_map, Std.TreeSet.length_toList] at hlength
    rw [ncard_mandatory]
    exact hlength.trans hsize

theorem activityProjection_spec_chain :
    let list := [plainNode "app" ["lib"], plainNode "lib" []]
    let projection := activityProjection list [] 1
    projection.rows.length + projection.elided.total = list.length ∧
      projection.rows.length ≤ max 1 {path | Mandatory list path}.ncard := by
  intro list projection
  exact (activityProjection_spec list [] 1 (by decide +kernel)).2.2.2

end Mandala.Forest
