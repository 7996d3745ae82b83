import Mandala.Core.PostOrder
import Mandala.Forest.Bounds
import Mathlib.Data.List.Basic
import Mathlib.Data.List.Nodup

/-!
# The order of the rows

The rows of a snapshot are a depth-first walk over paths that nobody has
checked: the graph may have cycles, edges to nothing and no roots at all.
-/

namespace Mandala.Forest

open Relation
open Mandala.Data
open Mandala.PostOrder

/-- The nodes below a path, in the order they are visited in. -/
def inputsOf (nodes : BTreeMap DerivationNode) (path : String) :
    Option (List String) :=
  nodes[path]?.map fun node => sortPaths nodes node.inputs

/-- The row an entry of the walk becomes. -/
def Shows (nodes : BTreeMap DerivationNode) (entry : ℕ × String)
    (row : DisplayRow) : Prop :=
  row.depth = entry.1 ∧ nodes[entry.2]? = some row.node

def seenSet (seen : BTreeSet) : Set String := {path | path ∈ seen}

/-- The nodes a walk has still to come to. -/
def unseen (nodes : BTreeMap DerivationNode) (seen : BTreeSet) : ℕ :=
  (nodes.keys.filter (· ∉ seen)).length

variable {nodes : BTreeMap DerivationNode}

theorem mem_seenSet {seen : BTreeSet} {path : String} :
    path ∈ seenSet seen ↔ path ∈ seen := Iff.rfl

theorem seenSet_insert (seen : BTreeSet) (path : String) :
    seenSet (seen.insert path) = insert path (seenSet seen) := by
  ext other
  rw [mem_seenSet, Std.TreeSet.mem_insert, Std.LawfulEqCmp.compare_eq_iff_eq,
    Set.mem_insert_iff, eq_comm]
  rfl

theorem seenSet_empty : seenSet ∅ = ∅ := by
  ext path
  rw [mem_seenSet]
  exact iff_of_false Std.TreeSet.not_mem_emptyc (Set.notMem_empty path)

theorem unseen_le_of_subset {seen later : BTreeSet}
    (hsubset : seenSet seen ⊆ seenSet later) :
    unseen nodes later ≤ unseen nodes seen := by
  apply (List.monotone_filter_right _ _).length_le
  intro path hlater
  exact decide_eq_true fun hseen => of_decide_eq_true hlater (hsubset hseen)

theorem unseen_insert_lt {seen : BTreeSet} {path : String}
    {node : DerivationNode} (hfound : nodes[path]? = some node)
    (hfresh : path ∉ seen) :
    unseen nodes (seen.insert path) < unseen nodes seen := by
  have hsplit : nodes.keys.filter (· ∉ seen.insert path) =
      (nodes.keys.filter (· ∉ seen)).filter (· ≠ path) := by
    rw [List.filter_filter]
    apply List.filter_congr
    intro other _
    have hinsert : other ∈ seen.insert path ↔ other = path ∨ other ∈ seen := by
      rw [← mem_seenSet, seenSet_insert, Set.mem_insert_iff, mem_seenSet]
    rw [← Bool.decide_and]
    exact decide_eq_decide.mpr (by rw [hinsert, not_or])
  have hkey : path ∈ nodes.keys := by
    rw [Std.TreeMap.mem_keys, Std.TreeMap.mem_iff_isSome_getElem?, hfound]
    rfl
  unfold unseen
  rw [hsplit]
  apply List.length_filter_lt_length_iff_exists.mpr
  exact ⟨path, List.mem_filter.mpr ⟨hkey, decide_eq_true hfresh⟩, by simp⟩

/-! ## The visits are a walk -/

theorem visit_succ (fuel depth : ℕ) (seen : BTreeSet) (rows : List DisplayRow)
    (path : String) :
    visit nodes (fuel + 1) depth (seen, rows) path =
      if seen.contains path then (seen, rows)
      else
        match nodes[path]? with
        | none => (seen.insert path, rows)
        | some node =>
            let shown := (sortPaths nodes node.inputs).foldl
              (visit nodes fuel (depth + 1)) (seen.insert path, rows)
            (shown.1, shown.2 ++ [{ depth, node }]) := rfl

/-- With more fuel than there are nodes left to see, the visits of a list are a
walk through it: they come to their end. -/
theorem walk_visits {fuel : ℕ} (paths : List String) (depth : ℕ)
    (seen : BTreeSet) (rows : List DisplayRow)
    (hfuel : unseen nodes seen < fuel) :
    ∃ (last : BTreeSet) (shown : List DisplayRow)
      (listed : List (ℕ × String)),
      Walk (inputsOf nodes) depth paths (seenSet seen) (seenSet last) listed ∧
      List.Forall₂ (Shows nodes) listed shown ∧
      paths.foldl (visit nodes fuel depth) (seen, rows) =
        (last, rows ++ shown) := by
  induction fuel generalizing paths depth seen rows with
  | zero => exact absurd hfuel (Nat.not_lt_zero _)
  | succ fuel ih =>
      induction paths generalizing seen rows with
      | nil => exact ⟨seen, [], [], .done, .nil, by rw [List.append_nil]; rfl⟩
      | cons path paths ihpaths =>
          rw [List.foldl_cons, visit_succ]
          by_cases hseen : path ∈ seen
          · obtain ⟨last, shown, listed, hwalk, hshows, hfold⟩ :=
              ihpaths seen rows hfuel
            rw [if_pos (Std.TreeSet.contains_iff_mem.mpr hseen)]
            exact ⟨last, shown, listed, .skip hseen hwalk, hshows, hfold⟩
          · rw [if_neg (fun hcontains =>
              hseen (Std.TreeSet.contains_iff_mem.mp hcontains))]
            have hinsert := seenSet_insert seen path
            cases hfound : nodes[path]? with
            | none =>
                have habsent : inputsOf nodes path = none := by
                  rw [inputsOf, hfound, Option.map_none]
                have hgrow : seenSet seen ⊆ seenSet (seen.insert path) :=
                  hinsert ▸ Set.subset_insert _ _
                obtain ⟨last, shown, listed, hwalk, hshows, hfold⟩ :=
                  ihpaths (seen.insert path) rows
                    ((unseen_le_of_subset hgrow).trans_lt hfuel)
                rw [hinsert] at hwalk
                exact ⟨last, shown, listed, .absent hseen habsent hwalk,
                  hshows, hfold⟩
            | some node =>
                have hbelow : inputsOf nodes path =
                    some (sortPaths nodes node.inputs) := by
                  rw [inputsOf, hfound, Option.map_some]
                obtain ⟨middle, inner, below, hinner, hinnerShows, hunder⟩ :=
                  ih (sortPaths nodes node.inputs) (depth + 1)
                    (seen.insert path) rows (Nat.lt_of_lt_of_le
                      (unseen_insert_lt hfound hseen) (Nat.le_of_lt_succ hfuel))
                rw [hinsert] at hinner
                have hgrow : seenSet seen ⊆ seenSet middle :=
                  (Set.subset_insert _ _).trans hinner.subset
                obtain ⟨last, shown, listed, hwalk, hshows, hfold⟩ :=
                  ihpaths middle (rows ++ inner ++ [⟨depth, node⟩])
                    ((unseen_le_of_subset hgrow).trans_lt hfuel)
                refine ⟨last, inner ++ { depth, node } :: shown,
                  below ++ (depth, path) :: listed,
                  .enter hseen hbelow hinner hwalk,
                  List.rel_append hinnerShows (.cons ⟨rfl, hfound⟩ hshows), ?_⟩
                simp only [hunder]
                rw [hfold]
                simp only [List.append_assoc, List.singleton_append]

/-! ## The nodes under their paths -/

theorem getElem?_byPath_fold (nodes : List DerivationNode)
    (map : BTreeMap DerivationNode)
    (hnodup : (nodes.map DerivationNode.path).Nodup)
    (hnew : ∀ node ∈ nodes, map[node.path]? = none) (path : String)
    (node : DerivationNode) :
    (nodes.foldl (fun map node => map.insert node.path node) map)[path]? =
        some node ↔
      node ∈ nodes ∧ node.path = path ∨ map[path]? = some node := by
  induction nodes generalizing map with
  | nil => simp
  | cons first nodes ih =>
      obtain ⟨hfirst, hrest⟩ := List.nodup_cons.mp hnodup
      have hlater : ∀ other ∈ nodes, first.path ≠ other.path :=
        fun other hother heq => hfirst (heq ▸ List.mem_map_of_mem hother)
      have hnone := hnew first List.mem_cons_self
      rw [List.foldl_cons, ih _ hrest, Std.TreeMap.getElem?_insert, List.mem_cons]
      · by_cases hpath : first.path = path
        · subst hpath
          rw [if_pos (Std.ReflCmp.compare_self), hnone]
          simp only [Option.some.injEq, reduceCtorEq, or_false]
          constructor
          · rintro (⟨hmem, hpath⟩ | rfl)
            · exact absurd hpath.symm (hlater node hmem)
            · exact ⟨.inl rfl, rfl⟩
          · rintro ⟨rfl | hmem, hpath⟩
            · exact .inr rfl
            · exact absurd hpath.symm (hlater node hmem)
        · rw [if_neg fun hsame => hpath
            (Std.LawfulEqCmp.eq_of_compare hsame)]
          constructor
          · exact Or.imp_left fun ⟨hmem, heq⟩ => ⟨.inr hmem, heq⟩
          · rintro (⟨rfl | hmem, heq⟩ | hold)
            · exact absurd heq hpath
            · exact .inl ⟨hmem, heq⟩
            · exact .inr hold
      · intro other hother
        rw [Std.TreeMap.getElem?_insert, if_neg fun hsame =>
          hlater other hother (Std.LawfulEqCmp.eq_of_compare hsame)]
        exact hnew other (List.mem_cons_of_mem _ hother)

variable {list : List DerivationNode} {roots : List String}

theorem getElem?_byPath (hnodup : (list.map DerivationNode.path).Nodup)
    {path : String} {node : DerivationNode} :
    (byPath list)[path]? = some node ↔ node ∈ list ∧ node.path = path := by
  rw [byPath, getElem?_byPath_fold list ∅ hnodup
    (fun _ _ => Std.TreeMap.getElem?_emptyc), Std.TreeMap.getElem?_emptyc]
  simp

/-! ## The rows -/

/-- The input of a node, an edge of the graph. -/
def Needs (list : List DerivationNode) (path input : String) : Prop :=
  ∃ node ∈ list, node.path = path ∧ input ∈ node.inputs

/-- The rows are what a walk from the roots and then from every node lists. -/
theorem walk_displayRows (list : List DerivationNode) (roots : List String) :
    ∃ last listed,
      Walk (inputsOf (byPath list)) 0
        (sortPaths (byPath list) roots ++ list.map DerivationNode.path)
        ∅ last listed ∧
      List.Forall₂ (Shows (byPath list)) listed (displayRows list roots) := by
  have hfuel : unseen (byPath list) ∅ < (byPath list).size + 1 := by
    have hkeys : (byPath list).keys.length = (byPath list).size :=
      Std.TreeMap.length_keys
    have hfilter := List.length_filter_le (· ∉ (∅ : BTreeSet))
      (byPath list).keys
    unfold unseen
    omega
  obtain ⟨last, shown, listed, hwalk, hshows, hfold⟩ := walk_visits
    (sortPaths (byPath list) roots ++ list.map DerivationNode.path) 0 ∅ []
    hfuel
  have hrows : displayRows list roots = shown := by
    rw [displayRows, ← List.foldl_append, hfold, List.nil_append]
  rw [seenSet_empty] at hwalk
  exact ⟨seenSet last, listed, hwalk, hrows ▸ hshows⟩

theorem map_path_of_shows (hnodup : (list.map DerivationNode.path).Nodup)
    {listed : List (ℕ × String)} {rows : List DisplayRow}
    (hshows : List.Forall₂ (Shows (byPath list)) listed rows) :
    rows.map (·.node.path) = listed.map Prod.snd := by
  induction hshows with
  | nil => rfl
  | cons hrow _ ih =>
      rw [List.map_cons, List.map_cons, ih,
        ((getElem?_byPath hnodup).mp hrow.2).2]

theorem nodup_displayRows (hnodup : (list.map DerivationNode.path).Nodup) :
    ((displayRows list roots).map (·.node.path)).Nodup := by
  obtain ⟨last, listed, hwalk, hshows⟩ := walk_displayRows list roots
  rw [map_path_of_shows hnodup hshows]
  exact hwalk.nodup_listed

theorem isSome_inputsOf (hnodup : (list.map DerivationNode.path).Nodup)
    {path : String} :
    (inputsOf (byPath list) path).isSome ↔ ∃ node ∈ list, node.path = path := by
  rw [inputsOf, Option.isSome_map, Option.isSome_iff_exists]
  exact exists_congr fun node => getElem?_byPath hnodup

/-- Every node is listed, and listed once. -/
theorem displayRows_perm (hnodup : (list.map DerivationNode.path).Nodup) :
    ((displayRows list roots).map DisplayRow.node).Perm list := by
  have hpaths := @nodup_displayRows list roots hnodup
  have hmap : (displayRows list roots).map (·.node.path) =
      ((displayRows list roots).map DisplayRow.node).map
        DerivationNode.path := by
    rw [List.map_map]
    rfl
  obtain ⟨last, listed, hwalk, hshows⟩ := walk_displayRows list roots
  apply (List.perm_ext_iff_of_nodup (.of_map _ (hmap ▸ hpaths))
    (.of_map _ hnodup)).mpr
  intro node
  constructor
  · intro hmem
    obtain ⟨row, hrow, rfl⟩ := List.mem_map.mp hmem
    exact mem_of_displayRows hrow
  · intro hmem
    have hlisted : node.path ∈ listed.map Prod.snd := by
      apply hwalk.mem_listed.mpr
      refine ⟨hwalk.mem_last (List.mem_append_right _
        (List.mem_map_of_mem hmem)), Set.notMem_empty _, ?_⟩
      exact (isSome_inputsOf hnodup).mpr ⟨node, hmem, rfl⟩
    rw [← map_path_of_shows hnodup hshows] at hlisted
    obtain ⟨row, hrow, hpath⟩ := List.mem_map.mp hlisted
    have heq : row.node = node :=
      List.inj_on_of_nodup_map hnodup (mem_of_displayRows hrow) hmem hpath
    exact heq ▸ List.mem_map_of_mem hrow

theorem below_inputsOf (hnodup : (list.map DerivationNode.path).Nodup)
    {path input : String} :
    Below (inputsOf (byPath list)) path input ↔ Needs list path input := by
  constructor
  · rintro ⟨below, hbelow, hinput⟩
    obtain ⟨node, hfound, rfl⟩ := Option.map_eq_some_iff.mp hbelow
    obtain ⟨hmem, hpath⟩ := (getElem?_byPath hnodup).mp hfound
    exact ⟨node, hmem, hpath, List.mem_mergeSort.mp hinput⟩
  · rintro ⟨node, hmem, hpath, hinput⟩
    have hfound := (getElem?_byPath hnodup).mpr ⟨hmem, hpath⟩
    exact ⟨sortPaths (byPath list) node.inputs,
      Option.map_eq_some_iff.mpr ⟨node, hfound, rfl⟩,
      List.mem_mergeSort.mpr hinput⟩

theorem input_before (hnodup : (list.map DerivationNode.path).Nodup)
    (hacyclic : ∀ path, ¬ TransGen (Needs list) path path)
    {before after : List DisplayRow} {row : DisplayRow}
    (hrows : displayRows list roots = before ++ row :: after)
    {input : String} (hinput : input ∈ row.node.inputs)
    (hnode : ∃ node ∈ list, node.path = input) :
    ∃ earlier ∈ before, earlier.node.path = input := by
  obtain ⟨last, listed, hwalk, hshows⟩ := walk_displayRows list roots
  have hlisted : listed.map Prod.snd =
      before.map (·.node.path) ++ row.node.path :: after.map (·.node.path) := by
    rw [← map_path_of_shows hnodup hshows, hrows, List.map_append, List.map_cons]
  have hrow : row.node ∈ list := by
    apply @mem_of_displayRows list roots
    rw [hrows]
    exact List.mem_append_right _ List.mem_cons_self
  have hbelow : Below (inputsOf (byPath list)) row.node.path input :=
    (below_inputsOf hnodup).mpr ⟨row.node, hrow, rfl, hinput⟩
  have hcycles : ∀ path,
      ¬ TransGen (Below (inputsOf (byPath list))) path path :=
    fun path hcycle => hacyclic path
      (hcycle.lift id fun _ _ => (below_inputsOf hnodup).mp)
  have hbefore := hwalk.listed_before hcycles hlisted hbelow
    ((isSome_inputsOf hnodup).mpr hnode)
  exact List.mem_map.mp hbefore

/-- The paths of a snapshot are distinct. -/
theorem nodup_snapshot_paths (read : ReadForest) (elapsedMs : ℕ) :
    ((read.snapshot elapsedMs).nodes.map DerivationNode.path).Nodup := by
  have hpaths : (read.snapshot elapsedMs).nodes.map DerivationNode.path =
      read.forest.nodes.keys := by
    rw [← Std.TreeMap.map_fst_toList_eq_keys]
    change List.map DerivationNode.path
      (read.forest.nodes.toList.map fun entry =>
        read.derivationNode elapsedMs entry.1 entry.2) = _
    rw [List.map_map]
    rfl
  rw [hpaths]
  exact Std.TreeMap.nodup_keys

/-- The visits come to their end on every graph and list every node once; where
the graph has no cycle, the inputs of a node are listed before it. -/
theorem displayRows_postOrder (list : List DerivationNode) (roots : List String)
    (hnodup : (list.map DerivationNode.path).Nodup) :
    (∃ last listed,
      Walk (inputsOf (byPath list)) 0
        (sortPaths (byPath list) roots ++ list.map DerivationNode.path)
        ∅ last listed ∧
      List.Forall₂ (Shows (byPath list)) listed (displayRows list roots)) ∧
    ((displayRows list roots).map DisplayRow.node).Perm list ∧
    ((∀ path, ¬ TransGen (Needs list) path path) →
      ∀ before row after, displayRows list roots = before ++ row :: after →
        ∀ input ∈ row.node.inputs, (∃ node ∈ list, node.path = input) →
          ∃ earlier ∈ before, earlier.node.path = input) :=
  ⟨walk_displayRows list roots, displayRows_perm hnodup,
    fun hacyclic _ _ _ hrows _ hinput hnode =>
      input_before hnodup hacyclic hrows hinput hnode⟩

def plainNode (path : String) (inputs : List String) : DerivationNode :=
  { path, name := path, status := .planned, inputs, outputs := ∅, host := none
    lastActivity := none, logTail := [], note := none, startedMs := none
    finishedMs := none, etaSeconds := none }

theorem displayRows_postOrder_chain :
    let list := [plainNode "app" ["lib"], plainNode "lib" []]
    ((displayRows list []).map DisplayRow.node).Perm list ∧
      ∀ before row after, displayRows list [] = before ++ row :: after →
        ∀ input ∈ row.node.inputs, (∃ node ∈ list, node.path = input) →
          ∃ earlier ∈ before, earlier.node.path = input := by
  intro list
  obtain ⟨-, hperm, hbefore⟩ :=
    displayRows_postOrder list [] (by decide +kernel)
  refine ⟨hperm, hbefore ?_⟩
  have hneeds {path input : String} (hedge : Needs list path input) :
      path = "app" ∧ input = "lib" := by
    obtain ⟨node, hmem, rfl, hinput⟩ := hedge
    rcases List.mem_cons.mp hmem with rfl | hmem
    · exact ⟨rfl, List.mem_singleton.mp hinput⟩
    · cases List.mem_singleton.mp hmem
      cases hinput
  intro path hcycle
  obtain ⟨_, hfirst, -⟩ := TransGen.head'_iff.mp hcycle
  obtain ⟨_, -, hlast⟩ := TransGen.tail'_iff.mp hcycle
  exact absurd ((hneeds hfirst).1.symm.trans (hneeds hlast).2) (by decide)

end Mandala.Forest
