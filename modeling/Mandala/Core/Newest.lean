import Mathlib.Data.List.Sort
import Mathlib.Order.Basic

/-!
# Keeping the newest

Entries are listed newest first, those of one age as they came.  A rule keeps a
number of them and drops the others, and those that are expired.  An entry's
place in the list is how many are newer, so the rule can be read off the
entries as they came.  Applied again to what it left, it drops nothing.
-/

namespace Mandala.Newest

variable {A K : Type} [LinearOrder K] (key : A → K)

/-- Newest first; entries of one age stay as they came. -/
def newestFirst (entries : List A) : List A :=
  entries.insertionSort fun left right => key right ≤ key left

/-- How many entries are newer than one that came between `front` and `back`. -/
def newer (front : List A) (own : A) (back : List A) : ℕ :=
  front.countP (fun entry => key own ≤ key entry) +
    back.countP (fun entry => key own < key entry)

/-- The entries behind the first `keep`, and the expired ones. -/
def overdue (keep : ℕ) (expired : A → Bool) (entries : List A) : List A :=
  (entries.zipIdx.filter fun placed =>
    decide (keep ≤ placed.2) || expired placed.1).map Prod.fst

/-- The same rule in one pass over a list with entries that are exempt and do
not count. -/
def sweep (exempt expired : A → Bool) (keep : ℕ) : ℕ → List A → List A
  | _, [] => []
  | counted, entry :: entries =>
      if exempt entry then sweep exempt expired keep counted entries
      else if decide (keep < counted + 1) || expired entry then
        entry :: sweep exempt expired keep (counted + 1) entries
      else sweep exempt expired keep (counted + 1) entries

variable {key}

/-! ## Places -/

theorem pairwise_newestFirst (entries : List A) :
    (newestFirst key entries).Pairwise fun left right =>
      key right ≤ key left :=
  List.pairwise_insertionSort _ entries

theorem perm_newestFirst (entries : List A) :
    (newestFirst key entries).Perm entries :=
  List.perm_insertionSort _ entries

theorem newestFirst_cons (entry : A) (entries : List A) :
    newestFirst key (entry :: entries) =
      (newestFirst key entries).orderedInsert
        (fun left right => key right ≤ key left) entry := rfl

/-- An entry that comes first is behind the newer ones. -/
theorem exists_place_first (own : A) {sorted : List A}
    (hsorted : sorted.Pairwise fun left right => key right ≤ key left) :
    ∃ before after,
      sorted.orderedInsert (fun left right => key right ≤ key left) own =
          before ++ own :: after ∧
        before.length = sorted.countP (fun entry => key own < key entry) := by
  induction sorted with
  | nil => exact ⟨[], [], rfl, rfl⟩
  | cons first rest ih =>
      obtain ⟨hfirst, hrest⟩ := List.pairwise_cons.mp hsorted
      by_cases hplace : key first ≤ key own
      · refine ⟨[], first :: rest, List.orderedInsert_cons_of_le _ _ hplace, ?_⟩
        rw [List.length_nil, eq_comm, List.countP_eq_zero]
        intro entry hmem
        rw [decide_eq_true_eq, not_lt]
        rcases List.mem_cons.mp hmem with rfl | hmem
        · exact hplace
        · exact (hfirst entry hmem).trans hplace
      · obtain ⟨before, after, heq, hlength⟩ := ih hrest
        refine ⟨first :: before, after, ?_, ?_⟩
        · rw [List.orderedInsert_cons, if_neg hplace, heq]
          rfl
        · rw [List.countP_cons, if_pos (decide_eq_true (not_le.mp hplace)),
            List.length_cons, hlength]

/-- An entry that comes before another one of its age or older is put ahead. -/
theorem exists_place_later (own entry : A) {before after : List A}
    (hsorted : (before ++ own :: after).Pairwise fun left right =>
      key right ≤ key left) :
    ∃ more rest,
      (before ++ own :: after).orderedInsert
          (fun left right => key right ≤ key left) entry = more ++ own :: rest ∧
        more.length =
          before.length + (if key own ≤ key entry then 1 else 0) := by
  induction before with
  | nil =>
      by_cases hplace : key own ≤ key entry
      · refine ⟨[entry], after, List.orderedInsert_cons_of_le _ _ hplace, ?_⟩
        rw [if_pos hplace]
        rfl
      · refine ⟨[], _, List.orderedInsert_of_not_le _ _ hplace, ?_⟩
        rw [if_neg hplace]
        rfl
  | cons first before ih =>
      obtain ⟨hfirst, hrest⟩ := List.pairwise_cons.mp hsorted
      by_cases hplace : key first ≤ key entry
      · have hown : key own ≤ key entry :=
          (hfirst own (by simp)).trans hplace
        refine ⟨entry :: first :: before, after,
          List.orderedInsert_cons_of_le _ _ hplace, ?_⟩
        rw [if_pos hown]
        rfl
      · obtain ⟨more, rest, heq, hlength⟩ := ih hrest
        refine ⟨first :: more, rest, ?_, ?_⟩
        · rw [List.cons_append, List.orderedInsert_cons, if_neg hplace, heq]
          rfl
        · rw [List.length_cons, List.length_cons, hlength]
          omega

/-- The place of an entry is the number of newer ones. -/
theorem exists_place (front : List A) (own : A) (back : List A) :
    ∃ before after,
      newestFirst key (front ++ own :: back) = before ++ own :: after ∧
        before.length = newer key front own back := by
  induction front with
  | nil =>
      obtain ⟨before, after, heq, hlength⟩ :=
        exists_place_first own (@pairwise_newestFirst A K _ key back)
      refine ⟨before, after, heq, ?_⟩
      rw [hlength, newer, List.countP_nil, Nat.zero_add]
      exact (perm_newestFirst back).countP_eq _
  | cons entry front ih =>
      obtain ⟨before, after, heq, hlength⟩ := ih
      have hsorted :=
        @pairwise_newestFirst A K _ key (front ++ own :: back)
      rw [heq] at hsorted
      obtain ⟨more, rest, hplace, hmore⟩ :=
        exists_place_later own entry hsorted
      refine ⟨more, rest, ?_, ?_⟩
      · rw [List.cons_append, newestFirst_cons, heq, hplace]
      · rw [hmore, hlength, newer, newer, List.countP_cons]
        simp only [decide_eq_true_eq]
        omega

/-- Entries of different ages are counted alike wherever they came. -/
theorem newer_of_distinct {front : List A} {own : A} {back : List A}
    (hdistinct : ∀ entry ∈ front, key entry ≠ key own) :
    newer key front own back =
      (front ++ own :: back).countP (fun entry => key own < key entry) := by
  have hfront : front.countP (fun entry => key own ≤ key entry) =
      front.countP (fun entry => key own < key entry) := by
    refine List.countP_congr fun entry hmem => ?_
    rw [decide_eq_true_eq, decide_eq_true_eq]
    exact ⟨fun hle => lt_of_le_of_ne hle (hdistinct entry hmem).symm, le_of_lt⟩
  rw [newer, hfront, List.countP_append, List.countP_cons, if_neg (by simp),
    Nat.add_zero]

/-! ## Choosing before and after -/

theorem filter_orderedInsert (keeps : A → Bool) (own : A) {sorted : List A}
    (hsorted : sorted.Pairwise fun left right => key right ≤ key left) :
    (sorted.orderedInsert (fun left right => key right ≤ key left) own).filter
        keeps =
      if keeps own then
        (sorted.filter keeps).orderedInsert
          (fun left right => key right ≤ key left) own
      else sorted.filter keeps := by
  induction sorted with
  | nil =>
      rw [List.orderedInsert_nil, List.filter_cons]
      rfl
  | cons first rest ih =>
      obtain ⟨hfirst, hrest⟩ := List.pairwise_cons.mp hsorted
      rw [List.orderedInsert_cons]
      by_cases hplace : key first ≤ key own
      · rw [if_pos hplace, List.filter_cons]
        split
        · -- Whoever of the others is kept first, it is not newer.
          have hahead : ∀ entry ∈ (first :: rest).filter keeps,
              key entry ≤ key own := by
            intro entry hmem
            rcases List.mem_cons.mp (List.mem_of_mem_filter hmem) with
              rfl | hmem
            · exact hplace
            · exact (hfirst entry hmem).trans hplace
          cases hkept : (first :: rest).filter keeps with
          | nil => rfl
          | cons head tail =>
              rw [List.orderedInsert_cons, if_pos]
              exact hahead head (by rw [hkept]; exact List.mem_cons_self)
        · rfl
      · rw [if_neg hplace, List.filter_cons, List.filter_cons, ih hrest]
        split
        · split
          · rw [List.orderedInsert_cons, if_neg hplace]
          · rfl
        · rfl

/-- Choosing entries does not change the order of those chosen. -/
theorem filter_newestFirst (keeps : A → Bool) (entries : List A) :
    (newestFirst key entries).filter keeps =
      newestFirst key (entries.filter keeps) := by
  induction entries with
  | nil => rfl
  | cons entry entries ih =>
      rw [newestFirst_cons,
        filter_orderedInsert keeps entry (pairwise_newestFirst entries), ih,
        List.filter_cons]
      split
      · rw [newestFirst_cons]
      · rfl

/-! ## The rule -/

variable {keep : ℕ} {exempt expired : A → Bool}

/-- One pass that skips the exempt is the rule on the others. -/
theorem sweep_eq (counted : ℕ) (entries : List A) :
    sweep exempt expired keep counted entries =
      (((entries.filter fun entry => !exempt entry).zipIdx counted).filter
        fun placed =>
          decide (keep ≤ placed.2) || expired placed.1).map Prod.fst := by
  induction entries generalizing counted with
  | nil => rfl
  | cons entry entries ih =>
      rw [sweep, List.filter_cons]
      cases hexempt : exempt entry with
      | true => exact ih counted
      | false =>
          have hplace : decide (keep < counted + 1) = decide (keep ≤ counted) :=
            decide_eq_decide.mpr Nat.lt_succ_iff
          simp only [Bool.not_false, if_true, List.zipIdx_cons,
            List.filter_cons, hplace, Bool.false_eq_true, if_false, ih]
          split <;> rfl

theorem sweep_eq_overdue (entries : List A) :
    sweep exempt expired keep 0 entries =
      overdue keep expired (entries.filter fun entry => !exempt entry) :=
  sweep_eq 0 entries

theorem mem_of_mem_overdue {entries : List A} {own : A}
    (hmem : own ∈ overdue keep expired entries) : own ∈ entries := by
  obtain ⟨⟨entry, place⟩, hplaced, rfl⟩ := List.mem_map.mp hmem
  exact List.mem_of_getElem?
    (List.mem_zipIdx_iff_getElem?.mp (List.mem_of_mem_filter hplaced))

/-- An entry is overdue by its place or by its age. -/
theorem mem_overdue_iff {before : List A} {own : A} {after : List A}
    (hnodup : (before ++ own :: after).Nodup) :
    own ∈ overdue keep expired (before ++ own :: after) ↔
      keep ≤ before.length ∨ expired own = true := by
  rw [overdue, List.mem_map]
  constructor
  · rintro ⟨⟨entry, place⟩, hplaced, rfl⟩
    obtain ⟨hplace, hrule⟩ := List.mem_filter.mp hplaced
    have hown := List.mem_zipIdx_iff_getElem?.mp hplace
    have hsame : place = before.length := by
      have hbound := (List.getElem?_eq_some_iff.mp hown).1
      refine (List.getElem?_inj hbound hnodup).mp ?_
      rw [hown]
      simp
    rw [Bool.or_eq_true, decide_eq_true_eq, hsame] at hrule
    exact hrule
  · intro hrule
    refine ⟨(own, before.length), List.mem_filter.mpr ⟨?_, ?_⟩, rfl⟩
    · rw [List.mem_zipIdx_iff_getElem?]
      simp
    · rw [Bool.or_eq_true, decide_eq_true_eq]
      exact hrule

/-- The rule, read off the entries as they came. -/
theorem mem_overdue_newestFirst_iff {front : List A} {own : A} {back : List A}
    (hnodup : (front ++ own :: back).Nodup) :
    own ∈ overdue keep expired (newestFirst key (front ++ own :: back)) ↔
      keep ≤ newer key front own back ∨ expired own = true := by
  obtain ⟨before, after, heq, hlength⟩ :=
    @exists_place A K _ key front own back
  have hsorted : (before ++ own :: after).Nodup := by
    rw [← heq]
    exact (perm_newestFirst _).nodup_iff.mpr hnodup
  rw [heq, mem_overdue_iff hsorted, hlength]

/-- What the rule left, it leaves again, also without some of it. -/
theorem mem_overdue_of_filter {entries : List A} (hnodup : entries.Nodup)
    {keeps : A → Bool} {own : A}
    (hown : own ∈ overdue keep expired (entries.filter keeps)) :
    own ∈ overdue keep expired entries := by
  have hkept := List.mem_filter.mp (mem_of_mem_overdue hown)
  obtain ⟨before, after, rfl⟩ := List.append_of_mem hkept.1
  rw [mem_overdue_iff hnodup]
  rw [List.filter_append, List.filter_cons, if_pos hkept.2] at hown
  have hchosen : (before.filter keeps ++ own :: after.filter keeps).Nodup := by
    have hfiltered := hnodup.filter keeps
    rwa [List.filter_append, List.filter_cons, if_pos hkept.2] at hfiltered
  refine ((mem_overdue_iff hchosen).mp hown).imp_left fun hplace => ?_
  exact hplace.trans (List.length_filter_le _ _)

end Mandala.Newest
