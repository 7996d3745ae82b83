import Mathlib.Data.Nat.Notation
import Mathlib.Data.Set.Insert
import Mathlib.Data.Set.Lattice
import Mathlib.Logic.Relation

/-!
# Worklists

A worklist closes a set under a function: what is new is kept at once and
followed later.  The nodes still to be followed are the only ones the set need
not be closed at.
-/

namespace Mandala.Worklist

open Relation

variable {K : Type}

/-- The rounds of a worklist, from what is kept and what is to be followed to
what is kept in the end. -/
inductive Rounds (next : K → List K) : Set K → List K → Set K → Prop
  | done {kept : Set K} : Rounds next kept [] kept
  | round {kept last : Set K} {node : K} {rest added : List K}
      (hadded : ∀ other, other ∈ added ↔ other ∈ next node ∧ other ∉ kept)
      (hrest : Rounds next (kept ∪ {other | other ∈ next node})
        (added ++ rest) last) :
      Rounds next kept (node :: rest) last

/-- What the function leads to from a set. -/
def closure (next : K → List K) (start : Set K) : Set K :=
  {node | ∃ first ∈ start, ReflTransGen (fun node other => other ∈ next node)
    first node}

variable {next : K → List K} {kept last : Set K} {frontier : List K}

theorem subset_closure : kept ⊆ closure next kept :=
  fun node hnode => ⟨node, hnode, .refl⟩

theorem closure_eq_of_closed
    (hclosed : ∀ node ∈ kept, ∀ other ∈ next node, other ∈ kept) :
    closure next kept = kept := by
  apply Set.Subset.antisymm _ subset_closure
  rintro node ⟨first, hfirst, hreach⟩
  induction hreach with
  | refl => exact hfirst
  | tail _ hstep ih => exact hclosed _ ih _ hstep

theorem closure_union_next {node : K} (hnode : node ∈ kept) :
    closure next (kept ∪ {other | other ∈ next node}) = closure next kept := by
  apply Set.Subset.antisymm
  · rintro target ⟨first, hkept | hadded, hreach⟩
    · exact ⟨first, hkept, hreach⟩
    · exact ⟨node, hnode, .head hadded hreach⟩
  · rintro target ⟨first, hkept, hreach⟩
    exact ⟨first, .inl hkept, hreach⟩

theorem Rounds.eq_closure (hrounds : Rounds next kept frontier last)
    (hfrontier : ∀ node ∈ frontier, node ∈ kept)
    (hclosed : ∀ node ∈ kept, node ∉ frontier →
      ∀ other ∈ next node, other ∈ kept) :
    last = closure next kept := by
  induction hrounds with
  | done =>
      exact (closure_eq_of_closed fun node hnode =>
        hclosed node hnode List.not_mem_nil).symm
  | @round kept _ node rest added hadded _ ih =>
      have hnode := hfrontier node List.mem_cons_self
      rw [ih, closure_union_next hnode]
      · intro other hother
        rcases List.mem_append.mp hother with hnew | hold
        · exact .inr ((hadded other).mp hnew).1
        · exact .inl (hfrontier other (List.mem_cons_of_mem _ hold))
      · intro other hother hdone target htarget
        rw [List.mem_append, not_or] at hdone
        by_cases heq : other = node
        · exact .inr (heq ▸ htarget)
        · have hkept : other ∈ kept := by
            rcases hother with hkept | hnext
            · exact hkept
            · by_contra hnew
              exact hdone.1 ((hadded other).mpr ⟨hnext, hnew⟩)
          exact .inl (hclosed other hkept
            (fun hmem => (List.mem_cons.mp hmem).elim heq hdone.2)
            target htarget)

end Mandala.Worklist
