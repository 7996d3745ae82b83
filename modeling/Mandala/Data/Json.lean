import Std.Data.TreeMap
import Std.Data.TreeMap.Lemmas
import Std.Data.TreeSet
import Std.Data.TreeSet.Lemmas

/-!
# JSON values

The values `serde_json` hands the engine, with the accessors the sources use.
Integers keep their exact value; every other number is kept as its literal,
because no code under verification computes with one.
-/

namespace Mandala.Data

inductive Json where
  | null
  | bool (value : Bool)
  | int (value : Int)
  | float (literal : String)
  | string (value : String)
  | array (values : List Json)
  | object (fields : List (String × Json))

namespace Json

/-- `Value::get` with a string index. -/
def get (value : Json) (key : String) : Option Json :=
  match value with
  | object fields => fields.lookup key
  | _ => none

def asStr : Json → Option String
  | string value => some value
  | _ => none

/-- `Value::as_i64`: integers outside the signed 64-bit range are refused. -/
def asI64 : Json → Option Int
  | int value =>
      if Int64.minValue.toInt ≤ value ∧ value ≤ Int64.maxValue.toInt then
        some value
      else none
  | _ => none

/-- `Value::as_u64`. -/
def asU64 : Json → Option Int
  | int value =>
      if 0 ≤ value ∧ value < UInt64.size then some value else none
  | _ => none

theorem asU64_int {number : Nat} (hsize : number < UInt64.size) :
    asU64 (int number) = some (number : Int) := by
  unfold asU64
  generalize UInt64.size = size at hsize
  exact if_pos ⟨Int.natCast_nonneg number, Int.ofNat_lt.mpr hsize⟩

def asBool : Json → Option Bool
  | bool value => some value
  | _ => none

def asArray : Json → Option (List Json)
  | array values => some values
  | _ => none

def asObject : Json → Option (List (String × Json))
  | object fields => some fields
  | _ => none

/-- `event.get(key).and_then(Value::as_str)`. -/
def getStr (value : Json) (key : String) : Option String :=
  (value.get key).bind asStr

/-- `event.get(key).and_then(Value::as_i64)`. -/
def getI64 (value : Json) (key : String) : Option Int :=
  (value.get key).bind asI64

end Json

/-- A `BTreeMap` keyed by strings, iterated in key order. -/
abbrev BTreeMap (V : Type) := Std.TreeMap String V compare

/-- A `BTreeSet` of strings. -/
abbrev BTreeSet := Std.TreeSet String compare

/-- The elements of a set come out in order, whatever order they went in. -/
theorem BTreeSet.toList_eq_of_mem_iff {left right : BTreeSet}
    (hmem : ∀ name, name ∈ left ↔ name ∈ right) :
    left.toList = right.toList :=
  (Std.TreeSet.equiv_iff_forall_mem_iff.mpr hmem).toList_eq

namespace BTreeMap
variable {V : Type}

theorem values_eq (map : BTreeMap V) : map.values = map.toList.map Prod.snd := by
  have hfoldr : map.values = map.foldr (fun _ value rest => value :: rest) [] :=
    rfl
  rw [hfoldr, Std.TreeMap.foldr_eq_foldr_toList]
  induction map.toList with
  | nil => rfl
  | cons entry entries ih => rw [List.foldr_cons, ih, List.map_cons]

theorem mem_values_iff {map : BTreeMap V} {value : V} :
    value ∈ map.values ↔ ∃ key : String, map[key]? = some value := by
  rw [values_eq, List.mem_map]
  constructor
  · intro hentry
    obtain ⟨⟨key, other⟩, hmem, rfl⟩ := hentry
    exact ⟨key, Std.TreeMap.mem_toList_iff_getElem?_eq_some.mp hmem⟩
  · intro hkey
    obtain ⟨key, hvalue⟩ := hkey
    exact ⟨(key, value), Std.TreeMap.mem_toList_iff_getElem?_eq_some.mpr hvalue,
      rfl⟩

theorem length_values (map : BTreeMap V) : map.values.length = map.size := by
  rw [values_eq, List.length_map, Std.TreeMap.length_toList]

theorem mem_keys_iff {map : BTreeMap V} {key : String} :
    key ∈ map.keys ↔ map[key]? ≠ none := by
  rw [Std.TreeMap.mem_keys, Std.TreeMap.mem_iff_isSome_getElem?,
    Option.isSome_iff_ne_none]

theorem toList_distinct (map : BTreeMap V) :
    map.toList.Pairwise fun left right => left.1 ≠ right.1 := by
  apply Std.TreeMap.distinct_keys_toList.imp
  intro left right hcompare heq
  rw [heq] at hcompare
  exact hcompare Std.ReflCmp.compare_self

/-- Where no key comes twice, an entry is found under its key. -/
theorem lookup_eq_some_iff {entries : List (String × V)}
    (hdistinct : entries.Pairwise fun left right => left.1 ≠ right.1)
    {key : String} {value : V} :
    entries.lookup key = some value ↔ (key, value) ∈ entries := by
  induction entries with
  | nil => simp
  | cons entry entries ih =>
      rw [List.pairwise_cons] at hdistinct
      obtain ⟨hfirst, hrest⟩ := hdistinct
      rw [List.lookup_cons, List.mem_cons]
      by_cases heq : key = entry.1
      · subst heq
        have hnot : (entry.1, value) ∉ entries := fun hmem =>
          hfirst (entry.1, value) hmem rfl
        simp [hnot, Prod.ext_iff, eq_comm]
      · have hbeq : (key == entry.1) = false := beq_eq_false_iff_ne.mpr heq
        simp [hbeq, ih hrest, heq, Prod.ext_iff]

theorem lookup_filter_key (entries : List (String × V)) (keep : String → Bool)
    (key : String) :
    (entries.filter fun entry => keep entry.1).lookup key =
      if keep key then entries.lookup key else none := by
  induction entries with
  | nil => simp
  | cons entry entries ih =>
      obtain ⟨name, value⟩ := entry
      rw [List.filter_cons, List.lookup_cons]
      by_cases heq : key = name
      · subst heq
        cases hkeep : keep key with
        | true => simp
        | false => simp [ih, hkeep]
      · have hbeq : (key == name) = false := beq_eq_false_iff_ne.mpr heq
        rw [hbeq, ← ih]
        split
        · rw [List.lookup_cons, hbeq]
        · rfl

theorem lookup_toList (map : BTreeMap V) (key : String) :
    map.toList.lookup key = map[key]? := by
  apply Option.ext
  intro value
  exact (lookup_eq_some_iff map.toList_distinct).trans
    Std.TreeMap.mem_toList_iff_getElem?_eq_some

end BTreeMap

/-- A field of an object built from a map is the map's. -/
theorem Json.get_object_toList (fields : BTreeMap Json) (key : String) :
    (Json.object fields.toList).get key = fields[key]? :=
  fields.lookup_toList key

/-- A run's `meta.json` payload. -/
abbrev Meta := BTreeMap Json

/-- `meta.get(key).and_then(Value::as_i64)`. -/
def Meta.getI64 (payload : Meta) (key : String) : Option Int :=
  payload[key]?.bind Json.asI64

/-- `update_meta`: the new fields replace those of the same name. -/
def Meta.update (payload : Meta) (fields : List (String × Json)) : Meta :=
  fields.foldl (fun payload field => payload.insert field.1 field.2) payload

theorem Meta.getElem?_update {payload : Meta} {fields : List (String × Json)}
    (hdistinct : fields.Pairwise fun left right => left.1 ≠ right.1)
    (key : String) :
    (payload.update fields)[key]? = (fields.lookup key).or payload[key]? := by
  induction fields generalizing payload with
  | nil => rfl
  | cons field fields ih =>
      rw [List.pairwise_cons] at hdistinct
      obtain ⟨hfirst, hrest⟩ := hdistinct
      have hstep : payload.update (field :: fields) =
          Meta.update (payload.insert field.1 field.2) fields := rfl
      rw [hstep, ih hrest, Std.TreeMap.getElem?_insert, List.lookup_cons]
      by_cases heq : key = field.1
      · have hnone : fields.lookup key = none := by
          rw [List.lookup_eq_none_iff]
          intro other hmem
          rw [heq]
          exact bne_iff_ne.mpr (hfirst other hmem)
        subst heq
        simp [hnone]
      · have hbeq : (key == field.1) = false := beq_eq_false_iff_ne.mpr heq
        have hcompare : ¬ compare field.1 key = .eq := fun hsame =>
          heq (Std.LawfulEqCmp.eq_of_compare hsame).symm
        rw [hbeq, if_neg hcompare]

end Mandala.Data
