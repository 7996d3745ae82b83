import Mathlib.Data.Nat.Notation
import Mathlib.Data.Set.Insert
import Mathlib.Logic.Relation

/-!
# Depth-first walks

A walk goes through a list of nodes, below each one first, and lists a node
when everything below it has been walked.  What was seen is not walked again,
and a node that does not exist is only marked as seen.  The graph may have
cycles and edges to nothing.
-/

namespace Mandala.PostOrder

open Relation

variable {K : Type}

/-- A walk through the nodes of a list at some depth: what was seen before and
after, and what was listed, each node with its depth. -/
inductive Walk (next : K → Option (List K)) :
    ℕ → List K → Set K → Set K → List (ℕ × K) → Prop
  | done {depth : ℕ} {seen : Set K} : Walk next depth [] seen seen []
  | skip {depth : ℕ} {node : K} {rest : List K} {seen last : Set K}
      {listed : List (ℕ × K)} (hseen : node ∈ seen)
      (hrest : Walk next depth rest seen last listed) :
      Walk next depth (node :: rest) seen last listed
  | absent {depth : ℕ} {node : K} {rest : List K} {seen last : Set K}
      {listed : List (ℕ × K)} (hfresh : node ∉ seen) (habsent : next node = none)
      (hrest : Walk next depth rest (insert node seen) last listed) :
      Walk next depth (node :: rest) seen last listed
  | enter {depth : ℕ} {node : K} {below rest : List K}
      {seen middle last : Set K} {inner listed : List (ℕ × K)}
      (hfresh : node ∉ seen) (hbelow : next node = some below)
      (hinner : Walk next (depth + 1) below (insert node seen) middle inner)
      (hrest : Walk next depth rest middle last listed) :
      Walk next depth (node :: rest) seen last
        (inner ++ (depth, node) :: listed)

/-- The nodes below a node. -/
def Below (next : K → Option (List K)) (node child : K) : Prop :=
  ∃ below, next node = some below ∧ child ∈ below

variable {next : K → Option (List K)} {depth : ℕ} {nodes : List K}
  {seen last : Set K} {listed : List (ℕ × K)}

theorem Walk.subset (hwalk : Walk next depth nodes seen last listed) :
    seen ⊆ last := by
  induction hwalk with
  | done => exact subset_rfl
  | skip _ _ ih => exact ih
  | absent _ _ _ ih => exact (Set.subset_insert _ _).trans ih
  | enter _ _ _ _ ihinner ihrest =>
      exact ((Set.subset_insert _ _).trans ihinner).trans ihrest

theorem Walk.mem_last (hwalk : Walk next depth nodes seen last listed) {node : K}
    (hnode : node ∈ nodes) : node ∈ last := by
  induction hwalk with
  | done => cases hnode
  | skip hseen hrest ih =>
      rcases List.mem_cons.mp hnode with rfl | hmem
      · exact hrest.subset hseen
      · exact ih hmem
  | absent _ _ hrest ih =>
      rcases List.mem_cons.mp hnode with rfl | hmem
      · exact hrest.subset (Set.mem_insert _ _)
      · exact ih hmem
  | enter _ _ hinner hrest _ ih =>
      rcases List.mem_cons.mp hnode with rfl | hmem
      · exact hrest.subset (hinner.subset (Set.mem_insert _ _))
      · exact ih hmem

/-- Listed is what exists and was seen for the first time. -/
theorem Walk.mem_listed (hwalk : Walk next depth nodes seen last listed)
    {node : K} :
    node ∈ listed.map Prod.snd ↔
      node ∈ last ∧ node ∉ seen ∧ (next node).isSome := by
  induction hwalk with
  | done =>
      constructor
      · rintro ⟨⟩
      · rintro ⟨hlast, hseen, -⟩
        exact absurd hlast hseen
  | skip _ _ ih => exact ih
  | @absent _ other _ _ _ _ _ habsent _ ih =>
      rw [ih, Set.mem_insert_iff, not_or]
      constructor
      · rintro ⟨hlast, ⟨-, hseen⟩, hsome⟩
        exact ⟨hlast, hseen, hsome⟩
      · rintro ⟨hlast, hseen, hsome⟩
        refine ⟨hlast, ⟨?_, hseen⟩, hsome⟩
        rintro rfl
        rw [habsent] at hsome
        cases hsome
  | @enter _ other _ _ _ middle _ _ _ hfresh hbelow hinner hrest ihinner ihrest =>
      rw [List.map_append, List.map_cons, List.mem_append, List.mem_cons,
        ihinner, ihrest, Set.mem_insert_iff, not_or]
      constructor
      · rintro (⟨hmiddle, ⟨-, hseen⟩, hsome⟩ | rfl | ⟨hlast, hmiddle, hsome⟩)
        · exact ⟨hrest.subset hmiddle, hseen, hsome⟩
        · exact ⟨hrest.subset (hinner.subset (Set.mem_insert _ _)), hfresh,
            by rw [hbelow, Option.isSome_some]⟩
        · exact ⟨hlast, fun hseen => hmiddle
            (hinner.subset (Set.mem_insert_of_mem _ hseen)), hsome⟩
      · rintro ⟨hlast, hseen, hsome⟩
        by_cases heq : node = other
        · exact .inr (.inl heq)
        · by_cases hmiddle : node ∈ middle
          · exact .inl ⟨hmiddle, ⟨heq, hseen⟩, hsome⟩
          · exact .inr (.inr ⟨hlast, hmiddle, hsome⟩)

theorem Walk.nodup_listed (hwalk : Walk next depth nodes seen last listed) :
    (listed.map Prod.snd).Nodup := by
  induction hwalk with
  | done => exact List.nodup_nil
  | skip _ _ ih => exact ih
  | absent _ _ _ ih => exact ih
  | enter _ _ hinner hrest ihinner ihrest =>
      rw [List.map_append, List.map_cons, List.nodup_append, List.nodup_cons]
      have hmiddle := hinner.subset (Set.mem_insert _ _)
      refine ⟨ihinner, ⟨fun hmem => (hrest.mem_listed.mp hmem).2.1 hmiddle,
        ihrest⟩, ?_⟩
      rintro first hfirst second hsecond rfl
      obtain ⟨hlast, hseen, -⟩ := hinner.mem_listed.mp hfirst
      rcases List.mem_cons.mp hsecond with rfl | hlater
      · exact hseen (Set.mem_insert _ _)
      · exact (hrest.mem_listed.mp hlater).2.1 hlast

/-! ## What is listed first -/

/-- Whatever exists below a node of the list is done before the node. -/
def BelowFirst (next : K → Option (List K)) : Set K → List K → Prop
  | _, [] => True
  | done, node :: rest =>
      (∀ child, Below next node child → (next child).isSome → child ∈ done) ∧
        BelowFirst next (insert node done) rest

theorem belowFirst_append {first second : List K} {done : Set K} :
    BelowFirst next done (first ++ second) ↔
      BelowFirst next done first ∧
        BelowFirst next (done ∪ {node | node ∈ first}) second := by
  induction first generalizing done with
  | nil =>
      have hempty : done ∪ {node | node ∈ ([] : List K)} = done := by
        ext node
        simp
      rw [List.nil_append, hempty, BelowFirst, true_and]
  | cons node first ih =>
      have hinsert : insert node done ∪ {other | other ∈ first} =
          done ∪ {other | other ∈ node :: first} := by
        ext other
        simp only [Set.mem_union, Set.mem_insert_iff, Set.mem_ofPred_eq,
          List.mem_cons]
        rw [or_assoc, or_left_comm]
      rw [List.cons_append, BelowFirst, BelowFirst, ih, hinsert, and_assoc]

/-- The nodes that were entered and are not done yet all lead to the nodes that
are walked, so without a cycle nothing below these is still unfinished. -/
theorem Walk.belowFirst (hacyclic : ∀ node, ¬ TransGen (Below next) node node)
    (hwalk : Walk next depth nodes seen last listed) {done : Set K}
    (hopen : ∀ node ∈ seen, (next node).isSome → node ∉ done →
      ∀ target ∈ nodes, TransGen (Below next) node target) :
    BelowFirst next done (listed.map Prod.snd) := by
  induction hwalk generalizing done with
  | done => trivial
  | skip _ _ ih =>
      exact ih fun node hseen hsome hdone target htarget =>
        hopen node hseen hsome hdone target (List.mem_cons_of_mem _ htarget)
  | @absent _ other _ _ _ _ _ habsent _ ih =>
      apply ih
      intro node hseen hsome hdone target htarget
      rcases Set.mem_insert_iff.mp hseen with rfl | hold
      · rw [habsent] at hsome
        cases hsome
      · exact hopen node hold hsome hdone target
          (List.mem_cons_of_mem _ htarget)
  | @enter _ other below rest start middle _ inner _ hfresh hbelow hinner _
      ihinner ihrest =>
      have hunder {child : K} (hchild : child ∈ below) :
          Below next other child := ⟨below, hbelow, hchild⟩
      rw [List.map_append, List.map_cons, belowFirst_append]
      refine ⟨?_, ?_, ?_⟩
      · apply ihinner
        intro node hseen hsome hdone target htarget
        rcases Set.mem_insert_iff.mp hseen with rfl | hold
        · exact .single (hunder htarget)
        · exact (hopen node hold hsome hdone other List.mem_cons_self).tail
            (hunder htarget)
      · rintro child ⟨children, hchildren, hmem⟩ hsome
        cases hbelow.symm.trans hchildren
        by_cases hlisted : child ∈ inner.map Prod.snd
        · exact .inr hlisted
        · have hseen : child ∈ insert other start := by
            by_contra hnew
            exact hlisted
              (hinner.mem_listed.mpr ⟨hinner.mem_last hmem, hnew, hsome⟩)
          left
          by_contra hdone
          rcases Set.mem_insert_iff.mp hseen with rfl | hold
          · exact hacyclic child (.single (hunder hmem))
          · exact hacyclic child
              ((hopen child hold hsome hdone other List.mem_cons_self).tail
                (hunder hmem))
      · apply ihrest
        intro node hmiddle hsome hdone target htarget
        rw [Set.mem_insert_iff, Set.mem_union, not_or, not_or] at hdone
        obtain ⟨hne, hdone, hlisted⟩ := hdone
        have hseen : node ∈ insert other start := by
          by_contra hnew
          exact hlisted (hinner.mem_listed.mpr ⟨hmiddle, hnew, hsome⟩)
        exact hopen node (Set.mem_of_mem_insert_of_ne hseen hne) hsome hdone
          target (List.mem_cons_of_mem _ htarget)

/-- A walk from the start lists what is below a node before the node. -/
theorem Walk.listed_before
    (hacyclic : ∀ node, ¬ TransGen (Below next) node node)
    (hwalk : Walk next depth nodes ∅ last listed) {before after : List K}
    {node child : K} (hlisted : listed.map Prod.snd = before ++ node :: after)
    (hbelow : Below next node child) (hchild : (next child).isSome) :
    child ∈ before := by
  have hfirst : BelowFirst next ∅ (listed.map Prod.snd) :=
    hwalk.belowFirst hacyclic fun _ hseen => absurd hseen (Set.notMem_empty _)
  rw [hlisted, belowFirst_append, BelowFirst] at hfirst
  rcases hfirst.2.1 child hbelow hchild with hempty | hmem
  · exact absurd hempty (Set.notMem_empty _)
  · exact hmem

end Mandala.PostOrder
