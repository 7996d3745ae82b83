import Mandala.Fleet.Aggregate

/-!
# Aggregates on the wire

An inventory is answered in views, each a JSON object, and read back from an
aggregate that is put together from such views.
-/

namespace Mandala.Fleet

open Mandala.Data

/-! ## The views of an inventory -/

def memberValue (member : Member) : Json := .object member.fields

def namesValue (names : List String) : Json := .array (names.map .string)

/-- A map as an object, in key order. -/
def mapValue {V : Type} (toValue : V → Json) (map : BTreeMap V) : Json :=
  .object (map.toList.map fun entry => (entry.1, toValue entry.2))

/-- `members` with `full`. -/
def membersView (inventory : Inventory) : Json :=
  mapValue memberValue inventory.members

/-- `groups` without a filter. -/
def groupsView (inventory : Inventory) : Json :=
  mapValue namesValue inventory.groups

/-! ## Reading an aggregate -/

def readMember (value : Json) : Option Member :=
  value.asObject.map fun fields => { fields }

def readNames (value : Json) : Option (List String) :=
  value.asArray.bind fun names => names.mapM Json.asStr

def readEntries {V : Type} (read : Json → Option V) :
    List (String × Json) → Option (BTreeMap V)
  | [] => some ∅
  | entry :: entries => do
      let rest ← readEntries read entries
      let value ← read entry.2
      some (rest.insert entry.1 value)

/-- A map of a JSON object; every value has to be readable. -/
def readMap {V : Type} (read : Json → Option V) (value : Json) :
    Option (BTreeMap V) :=
  value.asObject.bind (readEntries read)

/-- The keys an aggregate names. -/
def namedKeys : List String := ["schemaVersion", "members", "groups"]

/-- `Aggregate::deserialize`. -/
def Aggregate.ofValue (value : Json) : Option Aggregate := do
  let fields ← value.asObject
  let schemaVersion ← fields.lookup "schemaVersion"
  let members ← (fields.lookup "members").bind (readMap readMember)
  let groups ← (fields.lookup "groups").bind (readMap readNames)
  some
    { schemaVersion, members, groups
      extra := fields.filter fun field => field.1 ∉ namedKeys }

/-- Why a value is no inventory: it is not an aggregate, or fails a check. -/
inductive ValueError where
  | shape
  | rejected (error : InventoryError)

/-- `Inventory::from_value_for_controller`. -/
def Inventory.fromValue (value : Json) (os : String) :
    Except ValueError Inventory :=
  let schemaVersion := value.get "schemaVersion"
  if schemaVersion.bind Json.asU64 ≠ some supportedSchemaVersion then
    .error (.rejected (.unsupportedSchema (schemaVersion.getD .null)))
  else match Aggregate.ofValue value with
    | none => .error .shape
    | some aggregate => (fromAggregate aggregate os).mapError .rejected

/-! ## Round trips -/

theorem readMember_memberValue (member : Member) :
    readMember (memberValue member) = some member := rfl

theorem readNames_namesValue (names : List String) :
    readNames (namesValue names) = some names := by
  change (names.map Json.string).mapM Json.asStr = some names
  induction names with
  | nil => rfl
  | cons name names ih =>
      rw [List.map_cons, List.mapM_cons, ih]
      rfl

theorem readEntries_map {V : Type} {read : Json → Option V} {toValue : V → Json}
    (hread : ∀ value, read (toValue value) = some value)
    {entries : List (String × V)}
    (hkeys : entries.Pairwise fun left right => left.1 ≠ right.1) :
    ∃ map, readEntries read (entries.map fun entry => (entry.1, toValue entry.2)) =
        some map ∧
      ∀ (key : String) (value : V), map[key]? = some value ↔ (key, value) ∈ entries := by
  induction entries with
  | nil => exact ⟨∅, rfl, by simp⟩
  | cons entry entries ih =>
      rw [List.pairwise_cons] at hkeys
      obtain ⟨hfirst, hrest⟩ := hkeys
      obtain ⟨rest, hmap, hlookup⟩ := ih hrest
      refine ⟨rest.insert entry.1 entry.2, ?_, ?_⟩
      · rw [List.map_cons, readEntries, hmap, hread]
        rfl
      · intro key value
        rw [Std.TreeMap.getElem?_insert, List.mem_cons]
        by_cases heq : entry.1 = key
        · have hnot : (key, value) ∉ entries := by
            intro hmem
            exact hfirst (key, value) hmem heq
          simp [heq, hnot, Prod.ext_iff, eq_comm]
        · have hne : ¬ key = entry.1 := fun hsame => heq hsame.symm
          simp [heq, hne, Prod.ext_iff, hlookup]

/-- A map read back from its object has the same entries. -/
theorem readMap_mapValue {V : Type} {read : Json → Option V} {toValue : V → Json}
    (hread : ∀ value, read (toValue value) = some value) (map : BTreeMap V) :
    ∃ other, readMap read (mapValue toValue map) = some other ∧
      ∀ key : String, other[key]? = map[key]? := by
  obtain ⟨other, hother, hlookup⟩ := readEntries_map hread map.toList_distinct
  refine ⟨other, hother, ?_⟩
  intro key
  apply Option.ext
  intro value
  exact (hlookup key value).trans Std.TreeMap.mem_toList_iff_getElem?_eq_some

theorem check_eq_ok_iff {aggregate : Aggregate} :
    aggregate.check = .ok () ↔
      (∀ entry ∈ aggregate.members.toList,
        Aggregate.checkMember entry = .ok ()) ∧
      ∀ entry ∈ aggregate.groups.toList, aggregate.checkGroup entry = .ok () := by
  rw [← forM_eq_ok_iff, ← forM_eq_ok_iff]
  change (aggregate.members.toList.forM Aggregate.checkMember >>= fun _ =>
    aggregate.groups.toList.forM aggregate.checkGroup) = _ ↔ _
  cases aggregate.members.toList.forM Aggregate.checkMember with
  | error error =>
      constructor
      · intro herror
        cases herror
      · intro hboth
        cases hboth.1
  | ok _ =>
      constructor
      · intro hgroups
        exact ⟨rfl, hgroups⟩
      · intro hboth
        exact hboth.2

theorem mem_toList_congr {V : Type} {left right : BTreeMap V}
    (hlookup : ∀ key : String, left[key]? = right[key]?) {entry : String × V}
    (hentry : entry ∈ left.toList) : entry ∈ right.toList := by
  rw [Std.TreeMap.mem_toList_iff_getElem?_eq_some] at hentry ⊢
  rw [← hlookup]
  exact hentry

/-- The checks only look at what the maps hold. -/
theorem check_of_lookups {left right : Aggregate}
    (hmembers : ∀ name : String, left.members[name]? = right.members[name]?)
    (hgroups : ∀ group : String, left.groups[group]? = right.groups[group]?)
    (hchecked : right.check = .ok ()) : left.check = .ok () := by
  rw [check_eq_ok_iff] at hchecked ⊢
  obtain ⟨hmember, hgroup⟩ := hchecked
  have hsame : left.checkGroup = right.checkGroup := by
    have hname : left.checkGroupMember = right.checkGroupMember := by
      funext group member
      rw [Aggregate.checkGroupMember, Aggregate.checkGroupMember, hmembers]
    funext entry
    rw [Aggregate.checkGroup, Aggregate.checkGroup, hname]
  constructor
  · intro entry hentry
    exact hmember entry (mem_toList_congr hmembers hentry)
  · intro entry hentry
    rw [hsame]
    exact hgroup entry (mem_toList_congr hgroups hentry)

/-- An aggregate put together from the views of one inventory, with nodes of its
own and no other projection. -/
def assembled (members groups : Json) (nodes : List Json) : Json :=
  .object
    [("schemaVersion", .int supportedSchemaVersion), ("members", members),
      ("groups", groups),
      ("projections", .object [("deploy", .object [("nodes", .array nodes)])])]

/-- The projections of an assembled aggregate. -/
def assembledExtra (nodes : List Json) : List (String × Json) :=
  [("projections", .object [("deploy", .object [("nodes", .array nodes)])])]

/-- The views of one inventory are accepted again, whatever the nodes and the
controller. -/
theorem fromValue_assembled (inventory : Inventory) (nodes : List Json)
    (os : String) :
    ∃ rebuilt, Inventory.fromValue
        (assembled (membersView inventory) (groupsView inventory) nodes) os =
          .ok rebuilt ∧
      (∀ name : String, rebuilt.members[name]? = inventory.members[name]?) ∧
      (∀ group : String, rebuilt.groups[group]? = inventory.groups[group]?) ∧
      rebuilt.aggregate.extra = assembledExtra nodes := by
  obtain ⟨members, hmembers, hmember⟩ :=
    readMap_mapValue readMember_memberValue inventory.members
  obtain ⟨groups, hgroups, hgroup⟩ :=
    readMap_mapValue readNames_namesValue inventory.groups
  let aggregate : Aggregate :=
    { schemaVersion := .int supportedSchemaVersion
      members, groups
      extra := assembledExtra nodes }
  have hread : Aggregate.ofValue
      (assembled (membersView inventory) (groupsView inventory) nodes) =
        some aggregate := by
    change (do
      let members ← readMap readMember (membersView inventory)
      let groups ← readMap readNames (groupsView inventory)
      some ({ schemaVersion := .int supportedSchemaVersion, members, groups,
              extra := assembledExtra nodes } : Aggregate)) = _
    rw [membersView, groupsView, hmembers, hgroups]
    rfl
  have hversion : (Json.int supportedSchemaVersion).asU64 =
      some supportedSchemaVersion := by decide
  have hchecked : aggregate.check = .ok () :=
    check_of_lookups hmember hgroup inventory.checked
  have haccepted : Inventory.fromAggregate aggregate os =
      .ok { aggregate, controllerPlatform := none, checked := hchecked } := by
    rw [Inventory.fromAggregate, if_neg (not_not.mpr hversion)]
    split
    · rename_i error herror
      rw [hchecked] at herror
      cases herror
    · rfl
  refine ⟨{ aggregate, controllerPlatform := none, checked := hchecked }, ?_,
    hmember, hgroup, rfl⟩
  have hgate : ((assembled (membersView inventory) (groupsView inventory)
      nodes).get "schemaVersion").bind Json.asU64 = some supportedSchemaVersion :=
    hversion
  rw [Inventory.fromValue, if_neg (not_not.mpr hgate), hread]
  dsimp only
  rw [haccepted]
  rfl

end Mandala.Fleet
