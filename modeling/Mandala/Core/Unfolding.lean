import Mathlib.Data.List.Forall2
import Mathlib.Data.Nat.Notation
import Mathlib.Tactic.Common

/-!
# Unfolding a graph to a bounded depth

A node is looked at, and the parts found in it are unfolded before they are put
together.  A graph with a cycle has no unfolding, so the walk down is cut off at
a bound, and an error names the way it went.
-/

namespace Mandala.Unfolding

variable {Node Shape Label Part Error : Type}

/-- Nodes that are looked at, the parts of what is found, each with the labels
it adds to the way down, and how unfolded parts are put together. -/
structure Graph (Node Shape Label Part Error : Type) where
  look : Node → Except Error Shape
  parts : Shape → List (List Label × Except Error Node)
  assemble : Shape → List Part → Part
  exceeded : List Label → Error

variable (graph : Graph Node Shape Label Part Error)

/-- The unfolding with so many levels left. -/
def unfold : ℕ → Node → List Label → Except Error Part
  | 0, _, path => .error (graph.exceeded path)
  | left + 1, node, path => do
      let shape ← graph.look node
      let parts ← (graph.parts shape).mapM fun part => do
        unfold left (← part.2) (path ++ part.1)
      pure (graph.assemble shape parts)

/-- What a node unfolds to, however deep it is. -/
inductive Unfolds : Node → Part → Prop where
  | node {node : Node} {shape : Shape} {nodes : List Node}
      (hlook : graph.look node = .ok shape)
      (hnodes : (graph.parts shape).map Prod.snd = nodes.map .ok)
      (unfolded : Node → Part)
      (hunfolded : ∀ part ∈ nodes, Unfolds part (unfolded part)) :
      Unfolds node (graph.assemble shape (nodes.map unfolded))

/-- A way down of so many levels. -/
inductive Walk : Node → ℕ → List Label → Node → Prop where
  | nil (node : Node) : Walk node 0 [] node
  | cons {node part target : Node} {shape : Shape} {label path : List Label}
      {levels : ℕ} (hlook : graph.look node = .ok shape)
      (hpart : (label, .ok part) ∈ graph.parts shape)
      (hrest : Walk part levels path target) :
      Walk node (levels + 1) (label ++ path) target

/-- A node cannot be looked at, or one of its parts cannot be had. -/
def Refuses (node : Node) (error : Error) : Prop :=
  graph.look node = .error error ∨
    ∃ shape label, graph.look node = .ok shape ∧
      (label, .error error) ∈ graph.parts shape

variable {graph}

/-! ## Results -/

section Results
variable {Item Result Other : Type}

theorem bind_eq_ok_iff {run : Except Error Result}
    {next : Result → Except Error Other} {other : Other} :
    (run >>= next) = .ok other ↔
      ∃ result, run = .ok result ∧ next result = .ok other := by
  cases run with
  | error error =>
      constructor
      · intro hrun
        cases hrun
      · intro hresult
        obtain ⟨result, hresult, -⟩ := hresult
        cases hresult
  | ok result =>
      constructor
      · intro hrun
        exact ⟨result, rfl, hrun⟩
      · intro hresult
        obtain ⟨same, hsame, hnext⟩ := hresult
        rw [Except.ok.inj hsame]
        exact hnext

theorem bind_eq_error_iff {run : Except Error Result}
    {next : Result → Except Error Other} {error : Error} :
    (run >>= next) = .error error ↔
      run = .error error ∨
        ∃ result, run = .ok result ∧ next result = .error error := by
  cases run with
  | error other =>
      constructor
      · intro hrun
        exact .inl (congrArg Except.error (Except.error.inj hrun))
      · intro hrun
        have hother := hrun.resolve_right fun hsome => by
          obtain ⟨result, hresult, -⟩ := hsome
          cases hresult
        rw [Except.error.inj hother]
        rfl
  | ok result =>
      constructor
      · intro hrun
        exact .inr ⟨result, rfl, hrun⟩
      · intro hrun
        obtain ⟨same, hsame, hnext⟩ := hrun.resolve_left nofun
        rw [Except.ok.inj hsame]
        exact hnext

theorem mapM_eq_ok_iff {run : Item → Except Error Result} {items : List Item}
    {results : List Result} :
    items.mapM run = .ok results ↔
      List.Forall₂ (fun item result => run item = .ok result) items results := by
  induction items generalizing results with
  | nil =>
      rw [List.mapM_nil, List.forall₂_nil_left_iff]
      exact ⟨fun hnil => (Except.ok.inj hnil).symm, fun hnil => hnil ▸ rfl⟩
  | cons item items ih =>
      rw [List.mapM_cons, bind_eq_ok_iff, List.forall₂_cons_left_iff]
      constructor
      · intro hrun
        obtain ⟨result, hresult, hrest⟩ := hrun
        obtain ⟨rest, hrest, hresults⟩ := bind_eq_ok_iff.mp hrest
        exact ⟨result, rest, hresult, ih.mp hrest,
          (Except.ok.inj hresults).symm⟩
      · intro hrun
        obtain ⟨result, rest, hresult, hrest, hresults⟩ := hrun
        refine ⟨result, hresult, bind_eq_ok_iff.mpr ⟨rest, ih.mpr hrest, ?_⟩⟩
        exact congrArg Except.ok hresults.symm

theorem exists_of_mapM_eq_error {run : Item → Except Error Result}
    {items : List Item} {error : Error}
    (hrun : items.mapM run = .error error) :
    ∃ item ∈ items, run item = .error error := by
  induction items with
  | nil => cases hrun
  | cons item items ih =>
      rw [List.mapM_cons, bind_eq_error_iff] at hrun
      rcases hrun with hitem | ⟨result, -, hrest⟩
      · exact ⟨item, List.mem_cons_self, hitem⟩
      · rcases bind_eq_error_iff.mp hrest with hrest | ⟨rest, -, hnone⟩
        · obtain ⟨failed, hmem, hfailed⟩ := ih hrest
          exact ⟨failed, List.mem_cons_of_mem item hmem, hfailed⟩
        · cases hnone

end Results

/-! ## The unfolding, if there is one -/

theorem unfold_succ_eq_ok_iff {left : ℕ} {node : Node} {path : List Label}
    {result : Part} :
    unfold graph (left + 1) node path = .ok result ↔
      ∃ shape parts, graph.look node = .ok shape ∧
        List.Forall₂ (fun part result => ∃ child, part.2 = .ok child ∧
          unfold graph left child (path ++ part.1) = .ok result)
          (graph.parts shape) parts ∧
        result = graph.assemble shape parts := by
  rw [unfold, bind_eq_ok_iff]
  constructor
  · intro hrun
    obtain ⟨shape, hlook, hrest⟩ := hrun
    obtain ⟨parts, hparts, hresult⟩ := bind_eq_ok_iff.mp hrest
    have hforall := mapM_eq_ok_iff.mp hparts
    refine ⟨shape, parts, hlook, hforall.imp fun part result hpart => ?_,
      (Except.ok.inj hresult).symm⟩
    exact bind_eq_ok_iff.mp hpart
  · intro hrun
    obtain ⟨shape, parts, hlook, hforall, hresult⟩ := hrun
    refine ⟨shape, hlook, bind_eq_ok_iff.mpr ⟨parts, ?_, ?_⟩⟩
    · apply mapM_eq_ok_iff.mpr
      exact hforall.imp fun part result hpart => bind_eq_ok_iff.mpr hpart
    · exact congrArg Except.ok hresult.symm

/-- A value has no more than one unfolding. -/
theorem Unfolds.unique {node : Node} {left right : Part}
    (hleft : Unfolds graph node left) (hright : Unfolds graph node right) :
    left = right := by
  induction hleft generalizing right with
  | node hlook hnodes unfolded _ ih =>
      cases hright with
      | node hother hothers others hunfolded =>
          cases hlook.symm.trans hother
          have hsame := List.map_injective_iff.mpr
            (fun left right => Except.ok.inj) (hnodes.symm.trans hothers)
          subst hsame
          congr 1
          exact List.map_congr_left fun part hmem =>
            ih part hmem (hunfolded part hmem)

/-- What is found below does not depend on the way there. -/
theorem unfold_path {left : ℕ} {node : Node} {path : List Label} {result : Part}
    (hunfold : unfold graph left node path = .ok result) (other : List Label) :
    unfold graph left node other = .ok result := by
  induction left generalizing node path other result with
  | zero => cases hunfold
  | succ left ih =>
      obtain ⟨shape, parts, hlook, hforall, hresult⟩ :=
        unfold_succ_eq_ok_iff.mp hunfold
      refine unfold_succ_eq_ok_iff.mpr ⟨shape, parts, hlook, ?_, hresult⟩
      refine hforall.imp fun part result hpart => ?_
      obtain ⟨child, hchild, hunfold⟩ := hpart
      exact ⟨child, hchild, ih hunfold (other ++ part.1)⟩

/-- The parts that were unfolded, without their labels. -/
theorem exists_nodes {below : Node → Part → Prop}
    {parts : List (List Label × Except Error Node)} {results : List Part}
    (hforall : List.Forall₂ (fun part result =>
      ∃ child, part.2 = .ok child ∧ below child result) parts results) :
    ∃ nodes, parts.map Prod.snd = nodes.map .ok ∧
      List.Forall₂ below nodes results := by
  induction hforall with
  | nil => exact ⟨[], rfl, .nil⟩
  | cons hpart _ ih =>
      obtain ⟨child, hchild, hbelow⟩ := hpart
      obtain ⟨nodes, hnodes, hrest⟩ := ih
      refine ⟨child :: nodes, ?_, .cons hbelow hrest⟩
      rw [List.map_cons, List.map_cons, hchild, hnodes]

theorem unfolds_of_unfold {left : ℕ} {node : Node} {path : List Label}
    {result : Part} (hunfold : unfold graph left node path = .ok result) :
    Unfolds graph node result := by
  induction left generalizing node path result with
  | zero => cases hunfold
  | succ left ih =>
      obtain ⟨shape, parts, hlook, hforall, rfl⟩ :=
        unfold_succ_eq_ok_iff.mp hunfold
      let unfolded : Node → Part := fun child =>
        match unfold graph left child [] with
        | .ok result => result
        | .error _ => graph.assemble shape []
      have hvalues : List.Forall₂ (fun part result =>
          ∃ child, part.2 = .ok child ∧
            (Unfolds graph child (unfolded child) ∧ result = unfolded child))
          (graph.parts shape) parts := by
        refine hforall.imp fun part result hpart => ?_
        obtain ⟨child, hchild, hunfold⟩ := hpart
        have hsame : unfolded child = result := by
          simp only [unfolded, unfold_path hunfold []]
        exact ⟨child, hchild, hsame ▸ ih hunfold, hsame.symm⟩
      obtain ⟨nodes, hnodes, hbelow⟩ := exists_nodes hvalues
      rw [List.forall₂_and_left] at hbelow
      have hparts : parts = nodes.map unfolded := by
        have hright := List.forall₂_map_left_iff.mpr
          (hbelow.2.imp fun _ _ hsame => hsame.symm)
        exact (List.forall₂_eq_eq_eq ▸ hright).symm
      rw [hparts]
      exact .node hlook hnodes unfolded hbelow.1

theorem exists_of_forall₂ {Item Result : Type}
    {relates : Item → Result → Prop} {items : List Item} {results : List Result}
    (hforall : List.Forall₂ relates items results) {item : Item}
    (hmem : item ∈ items) : ∃ result, relates item result := by
  induction hforall with
  | nil => cases hmem
  | cons hrelates _ ih =>
      rcases List.mem_cons.mp hmem with rfl | hrest
      · exact ⟨_, hrelates⟩
      · exact ih hrest

/-- An unfolding is no higher than the levels that were left. -/
theorem Walk.lt_of_unfold {left levels : ℕ} {node target : Node}
    {path trail : List Label} {result : Part}
    (hwalk : Walk graph node levels trail target)
    (hunfold : unfold graph left node path = .ok result) : levels < left := by
  induction left generalizing node path result levels trail with
  | zero => cases hunfold
  | succ left ih =>
      cases hwalk with
      | nil => exact Nat.succ_pos left
      | cons hlook hpart hrest =>
          obtain ⟨shape, parts, hother, hforall, -⟩ :=
            unfold_succ_eq_ok_iff.mp hunfold
          cases hlook.symm.trans hother
          obtain ⟨result, child, hchild, hunfold⟩ :=
            exists_of_forall₂ hforall hpart
          cases hchild
          exact Nat.succ_lt_succ (ih hrest hunfold)

theorem unfold_of_unfolds {left : ℕ} {node : Node} {result : Part}
    (hunfolds : Unfolds graph node result)
    (hbound : ∀ levels trail target,
      Walk graph node levels trail target → levels < left)
    (path : List Label) : unfold graph left node path = .ok result := by
  induction left generalizing node path result with
  | zero => exact absurd (hbound 0 [] node (.nil node)) (Nat.lt_irrefl 0)
  | succ left ih =>
      cases hunfolds with
      | @node _ shape nodes hlook hnodes unfolded hunfolded =>
          refine unfold_succ_eq_ok_iff.mpr
            ⟨shape, nodes.map unfolded, hlook, ?_, rfl⟩
          have hpaired : List.Forall₂ (fun part node => part.2 = .ok node)
              (graph.parts shape) nodes := by
            have hsame : List.Forall₂ Eq ((graph.parts shape).map Prod.snd)
                (nodes.map .ok) := by
              rw [List.forall₂_eq_eq_eq]
              exact hnodes
            exact List.forall₂_map_right_iff.mp
              (List.forall₂_map_left_iff.mp hsame)
          have hmembers := (List.forall₂_and_left (graph.parts shape) nodes).mpr
            ⟨fun part hmem => hmem, hpaired⟩
          rw [List.forall₂_map_right_iff]
          refine hmembers.imp ?_
          intro part node hpart
          obtain ⟨hmem, hchild⟩ := hpart
          have hnode : node ∈ nodes := by
            have hok : Except.ok node ∈ nodes.map (Except.ok (ε := Error)) := by
              rw [← hnodes, ← hchild]
              exact List.mem_map_of_mem hmem
            obtain ⟨same, hsame, heq⟩ := List.mem_map.mp hok
            exact Except.ok.inj heq ▸ hsame
          refine ⟨node, hchild, ih (hunfolded node hnode) ?_ _⟩
          intro levels trail target hwalk
          have hlonger : Walk graph _ (levels + 1) (part.1 ++ trail) target :=
            .cons hlook (hchild ▸ hmem) hwalk
          exact Nat.lt_of_succ_lt_succ (hbound _ _ _ hlonger)

/-- **Unfolding.** A node is unfolded just when it has an unfolding and no way
down is longer than the levels that are left. -/
theorem unfold_eq_ok_iff (left : ℕ) (node : Node) (path : List Label)
    (result : Part) :
    unfold graph left node path = .ok result ↔
      Unfolds graph node result ∧ ∀ levels trail target,
        Walk graph node levels trail target → levels < left :=
  ⟨fun hunfold => ⟨unfolds_of_unfold hunfold,
      fun _ _ _ hwalk => hwalk.lt_of_unfold hunfold⟩,
    fun hunfolds => unfold_of_unfolds hunfolds.1 hunfolds.2 path⟩

/-! ## The error, if there is none -/

/-- An error is that of a node on a way down that is short enough, or tells of a
way down that is as long as there were levels. -/
theorem exists_of_unfold_eq_error {left : ℕ} {node : Node} {path : List Label}
    {error : Error} (hunfold : unfold graph left node path = .error error) :
    ∃ levels trail target, Walk graph node levels trail target ∧
      (levels = left ∧ error = graph.exceeded (path ++ trail) ∨
        levels < left ∧ Refuses graph target error) := by
  induction left generalizing node path with
  | zero =>
      rw [unfold] at hunfold
      refine ⟨0, [], node, .nil node, .inl ⟨rfl, ?_⟩⟩
      rw [List.append_nil]
      exact (Except.error.inj hunfold).symm
  | succ left ih =>
      rw [unfold, bind_eq_error_iff] at hunfold
      rcases hunfold with hlook | ⟨shape, hlook, hrest⟩
      · exact ⟨0, [], node, .nil node, .inr ⟨Nat.succ_pos left, .inl hlook⟩⟩
      · rcases bind_eq_error_iff.mp hrest with hparts | ⟨parts, -, hnone⟩
        · obtain ⟨⟨label, child⟩, hmem, hfailed⟩ :=
            exists_of_mapM_eq_error hparts
          rcases bind_eq_error_iff.mp hfailed with hchild | ⟨child, hok, hbelow⟩
          · refine ⟨0, [], node, .nil node, .inr ⟨Nat.succ_pos left, .inr ?_⟩⟩
            exact ⟨shape, label, hlook, hchild ▸ hmem⟩
          · obtain ⟨levels, trail, target, hwalk, hcases⟩ := ih hbelow
            refine ⟨levels + 1, label ++ trail, target,
              .cons hlook (hok ▸ hmem) hwalk, ?_⟩
            rcases hcases with ⟨hlevels, herror⟩ | ⟨hlevels, hrefuses⟩
            · exact .inl ⟨congrArg Nat.succ hlevels,
                herror.trans (by rw [List.append_assoc])⟩
            · exact .inr ⟨Nat.succ_lt_succ hlevels, hrefuses⟩
        · cases hnone

/-- Ways down are put together. -/
theorem Walk.append {node middle target : Node} {levels further : ℕ}
    {path trail : List Label} (hfirst : Walk graph node levels path middle)
    (hrest : Walk graph middle further trail target) :
    Walk graph node (levels + further) (path ++ trail) target := by
  induction hfirst with
  | nil => rwa [Nat.zero_add, List.nil_append]
  | cons hlook hpart _ ih =>
      rw [Nat.add_right_comm, List.append_assoc]
      exact .cons hlook hpart (ih hrest)

/-- A way back to where it began can be gone any number of times. -/
theorem exists_walk_of_cycle {node : Node} {levels : ℕ} {path : List Label}
    (hcycle : Walk graph node (levels + 1) path node) (bound : ℕ) :
    ∃ further trail, bound ≤ further ∧ Walk graph node further trail node := by
  induction bound with
  | zero => exact ⟨0, [], Nat.le_refl 0, .nil node⟩
  | succ bound ih =>
      obtain ⟨further, trail, hbound, hwalk⟩ := ih
      refine ⟨levels + 1 + further, path ++ trail, by omega, hcycle.append hwalk⟩

/-- Nothing above a cycle is unfolded, whatever the bound. -/
theorem unfold_ne_ok_of_cycle {root node : Node} {depth levels : ℕ}
    {above path : List Label} (hwalk : Walk graph root depth above node)
    (hcycle : Walk graph node (levels + 1) path node) (left : ℕ)
    (start : List Label) (result : Part) :
    unfold graph left root start ≠ .ok result := by
  intro hunfold
  obtain ⟨further, trail, hbound, hround⟩ := exists_walk_of_cycle hcycle left
  have hless := (hwalk.append hround).lt_of_unfold hunfold
  omega

end Mandala.Unfolding
