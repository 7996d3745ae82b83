import Mandala.Data.Json

/-!
# Attribute sets

The attribute sets of the Nix language, kept in the order `attrNames` lists
them in, and the library functions they are computed with.  The update
`left // right` is `left ∪ right`.
-/

namespace Mandala.Nix

open Mandala.Data

abbrev Attrs (V : Type) := BTreeMap V

variable {V : Type}

/-- Of several values under one name the first is kept. -/
def listToAttrs (fields : List (String × V)) : Attrs V :=
  fields.foldr (fun field set => set.insert field.1 field.2) ∅

def genAttrs (names : List String) (value : String → V) : Attrs V :=
  listToAttrs (names.map fun name => (name, value name))

def filterAttrs (keep : String → V → Bool) (set : Attrs V) : Attrs V :=
  set.filter keep

def removeAttrs (set : Attrs V) (names : List String) : Attrs V :=
  set.filter fun name _ => name ∉ names

def optionalAttrs (condition : Bool) (set : Attrs V) : Attrs V :=
  if condition then set else ∅

/-- A set of JSON values as the object it is printed as. -/
def toObject (set : Attrs Json) : Json := .object set.toList

/-! ## Lookups -/

theorem getElem?_listToAttrs (fields : List (String × V)) (name : String) :
    (listToAttrs fields)[name]? = fields.lookup name := by
  induction fields with
  | nil => exact Std.TreeMap.getElem?_emptyc
  | cons field fields ih =>
      change ((listToAttrs fields).insert field.1 field.2)[name]? = _
      rw [Std.TreeMap.getElem?_insert, List.lookup_cons, ih]
      by_cases heq : name = field.1
      · subst heq
        simp
      · have hbeq : (name == field.1) = false := beq_eq_false_iff_ne.mpr heq
        have hcompare : ¬ compare field.1 name = .eq := fun hsame =>
          heq (Std.LawfulEqCmp.eq_of_compare hsame).symm
        rw [hbeq, if_neg hcompare]

/-- What a literal set holds is among its fields. -/
theorem mem_of_getElem?_listToAttrs {fields : List (String × V)}
    {name : String} {value : V}
    (hfound : (listToAttrs fields)[name]? = some value) :
    (name, value) ∈ fields := by
  rw [getElem?_listToAttrs, List.lookup_eq_some_iff] at hfound
  obtain ⟨before, rest, hfields, -⟩ := hfound
  rw [hfields]
  exact List.mem_append_right before List.mem_cons_self

theorem getElem?_genAttrs (names : List String) (value : String → V)
    (name : String) :
    (genAttrs names value)[name]? =
      if name ∈ names then some (value name) else none := by
  rw [genAttrs, getElem?_listToAttrs]
  induction names with
  | nil => rfl
  | cons other names ih =>
      rw [List.map_cons, List.lookup_cons, ih]
      by_cases heq : name = other
      · subst heq
        simp
      · have hbeq : (name == other) = false := beq_eq_false_iff_ne.mpr heq
        simp [hbeq, heq]

theorem getElem?_filterAttrs (keep : String → V → Bool) (set : Attrs V)
    (name : String) :
    (filterAttrs keep set)[name]? = set[name]?.filter (keep name) :=
  Std.TreeMap.getElem?_filter'

theorem getElem?_removeAttrs (set : Attrs V) (names : List String)
    (name : String) :
    (removeAttrs set names)[name]? =
      if name ∈ names then none else set[name]? := by
  have hlookup : (removeAttrs set names)[name]? =
      set[name]?.filter fun _ => decide (name ∉ names) :=
    Std.TreeMap.getElem?_filter'
  rw [hlookup]
  by_cases hname : name ∈ names
  · cases set[name]? <;> simp [hname]
  · cases set[name]? <;> simp [hname]

theorem getElem?_optionalAttrs (condition : Bool) (set : Attrs V)
    (name : String) :
    (optionalAttrs condition set)[name]? =
      if condition then set[name]? else none := by
  cases condition with
  | true => rfl
  | false => exact Std.TreeMap.getElem?_emptyc

theorem ne_none_union {left right : Attrs V} {name : String}
    (hname : left[name]? ≠ none ∨ right[name]? ≠ none) :
    (left ∪ right)[name]? ≠ none := by
  rw [Std.TreeMap.getElem?_union]
  intro hnone
  obtain ⟨hright, hleft⟩ := Option.or_eq_none_iff.mp hnone
  rcases hname with hsome | hsome
  · exact hsome hleft
  · exact hsome hright

/-- What comes from either side of an update holds of the whole. -/
theorem forall_union {property : String → V → Prop} {left right : Attrs V}
    (hleft : ∀ name value, left[name]? = some value → property name value)
    (hright : ∀ name value, right[name]? = some value → property name value)
    (name : String) (value : V) (hfound : (left ∪ right)[name]? = some value) :
    property name value := by
  rw [Std.TreeMap.getElem?_union] at hfound
  rcases Option.or_eq_some_iff.mp hfound with hnew | ⟨-, hold⟩
  · exact hright name value hnew
  · exact hleft name value hold

end Mandala.Nix
