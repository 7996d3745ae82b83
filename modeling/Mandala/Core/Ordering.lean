import Mathlib.Data.List.Sort
import Mathlib.Data.String.Basic

/-!
# Deduplicated, sorted and prioritised lists

The list functions a configuration is computed with, and what being the first
of an ordered list means.
-/

namespace Mandala.Ordering

variable {A : Type}

/-- `lib.unique`: the first of equal elements is kept. -/
def unique [DecidableEq A] (elements : List A) : List A :=
  elements.foldl
    (fun kept element => if element ∈ kept then kept else kept ++ [element]) []

/-- `lib.sort` of names. -/
def sortNames (names : List String) : List String :=
  names.insertionSort (· ≤ ·)

theorem unique_from [DecidableEq A] (elements kept : List A)
    (hkept : kept.Nodup) :
    let all := elements.foldl
      (fun kept element => if element ∈ kept then kept else kept ++ [element])
      kept
    all.Nodup ∧ ∀ element, element ∈ all ↔ element ∈ kept ∨ element ∈ elements := by
  induction elements generalizing kept with
  | nil => simp [hkept]
  | cons element elements ih =>
      rw [List.foldl_cons]
      by_cases hmem : element ∈ kept
      · rw [if_pos hmem]
        obtain ⟨hnodup, hall⟩ := ih kept hkept
        refine ⟨hnodup, ?_⟩
        intro other
        rw [hall, List.mem_cons]
        constructor
        · exact Or.imp_right .inr
        · rintro (hold | rfl | hnew)
          · exact .inl hold
          · exact .inl hmem
          · exact .inr hnew
      · rw [if_neg hmem]
        obtain ⟨hnodup, hall⟩ := ih (kept ++ [element])
          (List.nodup_append.mpr ⟨hkept, List.nodup_singleton _, by
            rintro other hother _ hsingle rfl
            exact hmem (List.mem_singleton.mp hsingle ▸ hother)⟩)
        refine ⟨hnodup, ?_⟩
        intro other
        rw [hall, List.mem_append, List.mem_singleton, List.mem_cons, or_assoc]

theorem nodup_unique [DecidableEq A] (elements : List A) :
    (unique elements).Nodup :=
  (unique_from elements [] List.nodup_nil).1

@[simp]
theorem mem_unique [DecidableEq A] {elements : List A} {element : A} :
    element ∈ unique elements ↔ element ∈ elements := by
  rw [unique, (unique_from elements [] List.nodup_nil).2]
  simp

@[simp]
theorem mem_sortNames {names : List String} {name : String} :
    name ∈ sortNames names ↔ name ∈ names :=
  List.mem_insertionSort _

theorem nodup_sortNames {names : List String} (hnodup : names.Nodup) :
    (sortNames names).Nodup :=
  (List.perm_insertionSort _ names).nodup_iff.mpr hnodup

theorem pairwise_sortNames {names : List String} (hnodup : names.Nodup) :
    (sortNames names).Pairwise (· < ·) := by
  have hsorted : (sortNames names).Pairwise (· ≤ ·) :=
    List.pairwise_insertionSort _ _
  exact (hsorted.and (nodup_sortNames hnodup)).imp fun hboth =>
    lt_of_le_of_ne hboth.1 hboth.2

/-- Two lists in strict order with the same elements are the same list. -/
theorem eq_of_ordered {before : A → A → Prop}
    (hasymm : ∀ left right, before left right → ¬ before right left)
    {left right : List A} (hleft : left.Pairwise before)
    (hright : right.Pairwise before)
    (hmem : ∀ element, element ∈ left ↔ element ∈ right) : left = right := by
  have hne {first second : A} (hbefore : before first second) :
      first ≠ second := by
    rintro rfl
    exact hasymm first first hbefore hbefore
  have hperm : left.Perm right :=
    (List.perm_ext_iff_of_nodup (hleft.imp hne) (hright.imp hne)).mpr hmem
  apply hperm.eq_of_pairwise _ hleft hright
  intro first second _ _ hbefore hafter
  exact absurd hafter (hasymm first second hbefore)

/-- Neither the order nor the multiplicity of names is left. -/
theorem sortNames_unique_congr {left right : List String}
    (hmem : ∀ name, name ∈ left ↔ name ∈ right) :
    sortNames (unique left) = sortNames (unique right) := by
  apply eq_of_ordered (fun _ _ => lt_asymm)
    (pairwise_sortNames (nodup_unique left))
    (pairwise_sortNames (nodup_unique right))
  intro name
  rw [mem_sortNames, mem_sortNames, mem_unique, mem_unique, hmem]

/-- In a list ordered by `before`, the first element with a property is the
one no other such element comes before. -/
theorem find?_eq_some_iff_first {before : A → A → Prop}
    (hasymm : ∀ left right, before left right → ¬ before right left)
    {elements : List A} (hordered : elements.Pairwise before)
    {property : A → Bool} {first : A} :
    elements.find? property = some first ↔
      first ∈ elements ∧ property first ∧
        ∀ other ∈ elements, property other → ¬ before other first := by
  induction elements with
  | nil => simp
  | cons element elements ih =>
      rw [List.pairwise_cons] at hordered
      obtain ⟨hhead, htail⟩ := hordered
      cases hproperty : property element with
      | true =>
          rw [List.find?_cons_of_pos hproperty, Option.some.injEq]
          constructor
          · rintro rfl
            refine ⟨List.mem_cons_self, hproperty, ?_⟩
            intro other hmem _ hbefore
            rcases List.mem_cons.mp hmem with rfl | hmem
            · exact hasymm _ _ hbefore hbefore
            · exact hasymm _ _ hbefore (hhead other hmem)
          · rintro ⟨hmem, -, hfirst⟩
            rcases List.mem_cons.mp hmem with rfl | hmem
            · rfl
            · exact absurd (hhead first hmem)
                (hfirst element List.mem_cons_self hproperty)
      | false =>
          rw [List.find?_cons_of_neg (by rw [hproperty]; exact Bool.false_ne_true),
            ih htail]
          constructor
          · rintro ⟨hmem, hfound, hfirst⟩
            refine ⟨List.mem_cons_of_mem _ hmem, hfound, ?_⟩
            intro other hother hfoundOther
            rcases List.mem_cons.mp hother with rfl | hother
            · rw [hproperty] at hfoundOther
              cases hfoundOther
            · exact hfirst other hother hfoundOther
          · rintro ⟨hmem, hfound, hfirst⟩
            rcases List.mem_cons.mp hmem with rfl | hmem
            · rw [hproperty] at hfound
              cases hfound
            · exact ⟨hmem, hfound, fun other hother =>
                hfirst other (List.mem_cons_of_mem _ hother)⟩

/-! ## The first of an order -/

section

variable {K : Type} [LinearOrder K]

/-- All in the order of their keys, those of one key as they came. -/
def sortBy (key : A → K) (elements : List A) : List A :=
  elements.insertionSort fun left right => key left ≤ key right

variable {key : A → K} {elements : List A}

theorem perm_sortBy : (sortBy key elements).Perm elements :=
  List.perm_insertionSort _ _

theorem pairwise_sortBy :
    (sortBy key elements).Pairwise fun left right => key left ≤ key right :=
  List.pairwise_insertionSort _ _

theorem length_take_sortBy (cap : ℕ) :
    ((sortBy key elements).take cap).length = min cap elements.length := by
  rw [List.length_take, perm_sortBy.length_eq]

theorem nodup_take_sortBy (cap : ℕ) (hnodup : elements.Nodup) :
    ((sortBy key elements).take cap).Nodup :=
  (perm_sortBy.nodup_iff.mpr hnodup).sublist (List.take_sublist _ _)

/-- Different elements of different keys are in strict order. -/
theorem pairwise_take_sortBy (cap : ℕ) (hnodup : elements.Nodup)
    (hkey : Function.Injective key) :
    ((sortBy key elements).take cap).Pairwise
      fun left right => key left < key right := by
  have hsorted := pairwise_sortBy.sublist
    (List.take_sublist cap (sortBy key elements))
  exact (hsorted.and (nodup_take_sortBy cap hnodup)).imp fun hboth =>
    lt_of_le_of_ne hboth.1 (hkey.ne hboth.2)

/-- None that is left out comes before one that is taken. -/
theorem le_of_notMem_take_sortBy {cap : ℕ} {taken other : A}
    (htaken : taken ∈ (sortBy key elements).take cap) (hother : other ∈ elements)
    (hleft : other ∉ (sortBy key elements).take cap) : key taken ≤ key other := by
  have hsorted := @pairwise_sortBy _ _ _ key elements
  rw [← List.take_append_drop cap (sortBy key elements), List.pairwise_append] at hsorted
  have hall : other ∈ sortBy key elements := perm_sortBy.mem_iff.mpr hother
  rw [← List.take_append_drop cap (sortBy key elements), List.mem_append] at hall
  exact hsorted.2.2 taken htaken other (hall.resolve_left hleft)

end

end Mandala.Ordering
