import Mandala.Data.Json
import Mathlib.Data.Nat.Notation
import Mathlib.Tactic.Common

/-!
# Readers of structures

What a derived reader takes out of a JSON value: fields that are named or come
in their order, some of them optional, and payloads that are values themselves.
-/

namespace Mandala.Data.Derive

open Mandala.Data.Json

/-- `Map`'s reader: of two entries with one key the later is kept. -/
def mapOf (entries : List (String × Json)) : BTreeMap Json :=
  entries.foldl (fun map entry => map.insert entry.1 entry.2) ∅

mutual

/-- `Value`'s reader. -/
def valueOf : Json → Json
  | .array values => .array (valuesOf values)
  | .object fields => .object (mapOf (fieldsOf fields)).toList
  | value => value

def valuesOf : List Json → List Json
  | [] => []
  | value :: values => valueOf value :: valuesOf values

def fieldsOf : List (String × Json) → List (String × Json)
  | [] => []
  | (key, value) :: fields => (key, valueOf value) :: fieldsOf fields

end

/-- The reader of an `Option` takes `null` for `None`. -/
def notNull : Json → Option Json
  | .null => none
  | value => some value

/-- An unsigned integer below a bound. -/
def asUnsigned (bound : ℕ) : Json → Option ℕ
  | .int value =>
      if 0 ≤ value ∧ value < bound then some value.toNat else none
  | _ => none

def asWord32 : Json → Option ℕ := asUnsigned 4294967296

def asWord64 : Json → Option ℕ := asUnsigned 18446744073709551616

def asStrings (value : Json) : Option (List String) :=
  value.asArray.bind fun values => values.mapM asStr

def asMap (value : Json) : Option (BTreeMap Json) :=
  value.asObject.map fun fields => mapOf (fieldsOf fields)

/-- The fields of a structure, named or in their order. -/
inductive Content where
  | named (entries : List (String × Json))
  | positional (values : List Json)

def contentOf : Json → Option Content
  | .object entries => some (.named entries)
  | .array values => some (.positional values)
  | _ => none

namespace Content

/-- A field, which may be missing but may not be named twice. -/
def find (content : Content) (index : ℕ) (key : String) :
    Option (Option Json) :=
  match content with
  | .named entries =>
      match entries.filter (·.1 = key) with
      | [] => some none
      | [(_, value)] => some (some value)
      | _ => none
  | .positional values => some values[index]?

variable {α : Type} (content : Content) (index : ℕ) (key : String)

def required (read : Json → Option α) : Option α := do
  match ← content.find index key with
  | some value => read value
  | none => none

/-- `#[serde(default)]`. -/
def defaulted (read : Json → Option α) (default : α) : Option α := do
  match ← content.find index key with
  | some value => read value
  | none => some default

/-- A field of an `Option` type. -/
def optional (read : Json → Option α) : Option (Option α) :=
  content.defaulted index key
    (fun value =>
      match notNull value with
      | none => some none
      | some value => (read value).map some)
    none

/-- Nothing is left when every field was taken by its position. -/
def finished (fields : ℕ) : Option Unit :=
  match content with
  | .named _ => some ()
  | .positional values => if values.length ≤ fields then some () else none

end Content

/-! ## Values -/

theorem getElem?_mapOf {entries : List (String × Json)}
    (hdistinct : entries.Pairwise fun left right => left.1 ≠ right.1)
    (key : String) : (mapOf entries)[key]? = entries.lookup key := by
  have hupdate : mapOf entries = Meta.update ∅ entries := rfl
  rw [hupdate, Meta.getElem?_update hdistinct, Std.TreeMap.getElem?_emptyc,
    Option.or_none]

/-- A map holds nothing but what it was made of. -/
theorem mem_of_mem_mapOf {entries : List (String × Json)} {entry : String × Json}
    (hmem : entry ∈ (mapOf entries).toList) : entry ∈ entries := by
  have hfold : ∀ map : BTreeMap Json, (entries.foldl
      (fun map entry => map.insert entry.1 entry.2) map)[entry.1]? =
        some entry.2 → map[entry.1]? = some entry.2 ∨ entry ∈ entries := by
    clear hmem
    induction entries with
    | nil => exact fun map hfound => .inl hfound
    | cons first entries ih =>
        intro map hfound
        rcases ih (map.insert first.1 first.2) hfound with hinsert | hrest
        · rw [Std.TreeMap.getElem?_insert] at hinsert
          split at hinsert
          · next hcompare =>
              have hkey := Std.LawfulEqCmp.eq_of_compare hcompare
              have hvalue := Option.some.inj hinsert
              exact .inr (List.mem_cons.mpr (.inl (Prod.ext hkey.symm hvalue.symm)))
          · exact .inl hinsert
        · exact .inr (List.mem_cons_of_mem first hrest)
  rw [Std.TreeMap.mem_toList_iff_getElem?_eq_some] at hmem
  refine (hfold ∅ hmem).resolve_left ?_
  rw [Std.TreeMap.getElem?_emptyc]
  exact nofun

theorem fieldsOf_eq_self {fields : List (String × Json)}
    (hvalues : ∀ field ∈ fields, valueOf field.2 = field.2) :
    fieldsOf fields = fields := by
  induction fields with
  | nil => rfl
  | cons field fields ih =>
      rw [fieldsOf, hvalues field List.mem_cons_self,
        ih fun other hmem => hvalues other (List.mem_cons_of_mem field hmem)]

/-- A map is read back as one that holds the same. -/
theorem asMap_toList {map : BTreeMap Json}
    (hvalues : ∀ entry ∈ map.toList, valueOf entry.2 = entry.2) :
    ∃ received, asMap (.object map.toList) = some received ∧
      ∀ key : String, map[key]? = received[key]? := by
  refine ⟨mapOf map.toList, ?_, ?_⟩
  · rw [asMap, asObject, Option.map_some, fieldsOf_eq_self hvalues]
  · intro key
    rw [getElem?_mapOf map.toList_distinct, map.lookup_toList]

theorem asUnsigned_int {bound number : ℕ} (hnumber : number < bound) :
    asUnsigned bound (.int number) = some number := by
  rw [asUnsigned, if_pos ⟨Int.natCast_nonneg number, Int.ofNat_lt.mpr hnumber⟩,
    Int.toNat_natCast]

theorem lt_of_asUnsigned {bound number : ℕ} {value : Json}
    (hread : asUnsigned bound value = some number) : number < bound := by
  unfold asUnsigned at hread
  split at hread
  · next integer =>
      split at hread
      · next hbounds =>
          cases hread
          omega
      · cases hread
  · cases hread

theorem asStrings_strings (texts : List String) :
    asStrings (.array (texts.map .string)) = some texts := by
  rw [asStrings, asArray, Option.bind_some]
  induction texts with
  | nil => rfl
  | cons text texts ih =>
      rw [List.map_cons, List.mapM_cons, ih]
      rfl

theorem notNull_eq_some {value other : Json}
    (hvalue : notNull value = some other) : value = other := by
  cases value <;> cases hvalue <;> rfl

/-! ## Named fields -/

section Named
variable {α : Type} {entries : List (String × Json)} {key : String}

/-- A field named once is found. -/
theorem find_named
    (hdistinct : entries.Pairwise fun left right => left.1 ≠ right.1)
    (index : ℕ) (key : String) :
    (Content.named entries).find index key = some (entries.lookup key) := by
  induction entries with
  | nil => rfl
  | cons entry entries ih =>
      obtain ⟨name, value⟩ := entry
      rw [List.pairwise_cons] at hdistinct
      by_cases hname : name = key
      · have hnone : entries.filter (·.1 = key) = [] := by
          rw [List.filter_eq_nil_iff]
          intro other hmem hkey
          exact hdistinct.1 other hmem
            (hname.trans (of_decide_eq_true hkey).symm)
        rw [Content.find, List.filter_cons_of_pos (by simp [hname]), hnone,
          List.lookup_cons, hname, beq_self_eq_true]
      · have hother : (key == name) = false :=
          beq_eq_false_iff_ne.mpr (Ne.symm hname)
        rw [List.lookup_cons, hother, ← ih hdistinct.2, Content.find,
          List.filter_cons_of_neg (by simp [hname]), Content.find]

theorem required_named
    (hdistinct : entries.Pairwise fun left right => left.1 ≠ right.1)
    {value : Json} (hlookup : entries.lookup key = some value) (index : ℕ)
    (read : Json → Option α) :
    (Content.named entries).required index key read = read value := by
  rw [Content.required, find_named hdistinct, hlookup]
  rfl

theorem defaulted_named
    (hdistinct : entries.Pairwise fun left right => left.1 ≠ right.1)
    {value : Json} (hlookup : entries.lookup key = some value) (index : ℕ)
    (read : Json → Option α) (default : α) :
    (Content.named entries).defaulted index key read default = read value := by
  rw [Content.defaulted, find_named hdistinct, hlookup]
  rfl

/-- A payload that is there is read back, and `null` as none. -/
theorem optional_value
    (hdistinct : entries.Pairwise fun left right => left.1 ≠ right.1)
    {result : Option Json} (hlookup : entries.lookup key = result)
    (hresult : ∀ value ∈ result, valueOf value = value) (index : ℕ) :
    (Content.named entries).optional index key (some ∘ valueOf) =
      some (result.bind notNull) := by
  rw [Content.optional, Content.defaulted, find_named hdistinct, hlookup]
  cases result with
  | none => rfl
  | some value =>
      rw [Option.bind_some]
      cases hnull : notNull value with
      | none => simp [hnull]
      | some other =>
          have hsame := notNull_eq_some hnull
          have hvalue := hresult value rfl
          simp [hnull, ← hsame, hvalue]

/-- A field that is left out where it is `None` is read back. -/
theorem optional_named
    (hdistinct : entries.Pairwise fun left right => left.1 ≠ right.1)
    {shows : α → Json} {read : Json → Option α}
    (hshows : ∀ value, notNull (shows value) = some (shows value))
    (hread : ∀ value, read (shows value) = some value) {value : Option α}
    (hlookup : entries.lookup key = value.map shows) (index : ℕ) :
    (Content.named entries).optional index key read = some value := by
  rw [Content.optional, Content.defaulted, find_named hdistinct, hlookup]
  cases value with
  | none => rfl
  | some value => simp [hshows, hread]

end Named

end Mandala.Data.Derive
