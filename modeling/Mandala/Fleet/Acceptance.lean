import Mandala.Core.Ordering
import Mandala.Fleet.Wire

/-!
# What the loader accepts

An aggregate is accepted by rules that can be read off the JSON value: its
schema version, its members, its groups and the map of controllers.  What was
accepted is kept whole, and where there is a map of controllers everything a
connection needs comes from the projection of the selected one.
-/

namespace Mandala.Fleet

open Mandala.Data Mandala.Ordering

/-! ## Values and their rules -/

def OrderedKeys {V : Type} (fields : List (String × V)) : Prop :=
  fields.Pairwise fun left right => compare left.1 right.1 = .lt

/-- A `serde_json::Value`: the keys of an object are distinct and in order. -/
inductive IsValue : Json → Prop
  | null : IsValue .null
  | bool (value : Bool) : IsValue (.bool value)
  | int (value : Int) : IsValue (.int value)
  | float (literal : String) : IsValue (.float literal)
  | string (value : String) : IsValue (.string value)
  | array {values : List Json} (hvalues : ∀ value ∈ values, IsValue value) :
      IsValue (.array values)
  | object {fields : List (String × Json)} (hordered : OrderedKeys fields)
      (hfields : ∀ field ∈ fields, IsValue field.2) : IsValue (.object fields)

/-- Every member is an object under its own, bare name. -/
def MemberRules (members : List (String × Json)) : Prop :=
  ∀ entry ∈ members, isValidMemberName entry.1 = true ∧
    ∃ fields, entry.2 = .object fields ∧
      fields.lookup "name" = some (.string entry.1)

/-- Every group is a list of members, and none takes the keyword's name. -/
def GroupRules (members groups : List (String × Json)) : Prop :=
  ∀ entry ∈ groups, eqIgnoreAsciiCase entry.1 "all" = false ∧
    ∃ names, entry.2 = namesValue names ∧
      ∀ name ∈ names, ∃ record, (name, record) ∈ members

/-- The projection of a controller, complete enough to connect with. -/
structure Selects (projections : Option Json) (platforms : Json) (os : String)
    (platform : String) (selected : Json) (settings : List (String × Json)) :
    Prop where
  supported : Aggregate.controllerPlatform os = some platform
  entry : ∃ entries, platforms = .object entries ∧
    entries.lookup platform = some selected
  settings_eq : (selected.get "deploy").bind (·.get "settings") =
    some (.object settings)
  inventory : projections.bind (·.get "ansibleInventory") ≠ none →
    ∃ own, selected.get "ansibleInventory" = some (.object own)

/-- The map of controllers, where the aggregate has one. -/
def controllerMap (value : Json) : Option Json :=
  (value.get "projections").bind (·.get "byControllerPlatform")

structure Acceptable (value : Json) (os : String) : Prop where
  schema : (value.get "schemaVersion").bind Json.asU64 =
    some supportedSchemaVersion
  fleet : ∃ members groups, value.get "members" = some (.object members) ∧
    value.get "groups" = some (.object groups) ∧
    MemberRules members ∧ GroupRules members groups
  controllers : ∀ platforms, controllerMap value = some platforms →
    ∃ platform selected settings, Selects (value.get "projections") platforms os
      platform selected settings

/-! ## Serializing -/

/-- `Aggregate::serialize`, into a value. -/
def Aggregate.toValue (aggregate : Aggregate) : Json :=
  .object ((((((∅ : BTreeMap Json).insert "schemaVersion"
    aggregate.schemaVersion).insert "members"
      (mapValue memberValue aggregate.members)).insert "groups"
        (mapValue namesValue aggregate.groups)).insertMany
          aggregate.extra).toList)

/-- `ansible_inventory`. -/
def Inventory.ansibleInventory (inventory : Inventory) : Option Json :=
  inventory.connectionProjections.bind (·.get "ansibleInventory")

/-! ## Reading objects -/

variable {V : Type} {read : Json → Option V} {fields : List (String × Json)}

theorem OrderedKeys.distinct {fields : List (String × V)}
    (hordered : OrderedKeys fields) :
    fields.Pairwise fun left right => left.1 ≠ right.1 := by
  apply hordered.imp
  intro left right hlt heq
  have hself : compare right.1 right.1 = .eq := Std.ReflCmp.compare_self
  rw [heq, hself] at hlt
  cases hlt

theorem readEntries_cons_eq_some_iff {entry : String × Json}
    {map : BTreeMap V} :
    readEntries read (entry :: fields) = some map ↔
      ∃ rest value, readEntries read fields = some rest ∧
        read entry.2 = some value ∧ rest.insert entry.1 value = map := by
  rw [readEntries]
  cases readEntries read fields with
  | none => simp
  | some rest => cases read entry.2 <;> simp

/-- A map can be read when all its values can. -/
theorem exists_readEntries_iff :
    (∃ map, readEntries read fields = some map) ↔
      ∀ field ∈ fields, ∃ value, read field.2 = some value := by
  induction fields with
  | nil => exact iff_of_true ⟨∅, rfl⟩ (fun _ hmem => nomatch hmem)
  | cons entry fields ih =>
      simp only [readEntries_cons_eq_some_iff, List.forall_mem_cons, ← ih]
      constructor
      · rintro ⟨map, rest, value, hrest, hvalue, -⟩
        exact ⟨⟨value, hvalue⟩, ⟨rest, hrest⟩⟩
      · rintro ⟨⟨value, hvalue⟩, ⟨rest, hrest⟩⟩
        exact ⟨_, rest, value, hrest, hvalue, rfl⟩

/-- What a map read from an object holds. -/
theorem getElem?_readEntries {map : BTreeMap V}
    (hread : readEntries read fields = some map)
    (hdistinct : fields.Pairwise fun left right => left.1 ≠ right.1)
    (key : String) (value : V) :
    map[key]? = some value ↔
      ∃ json, (key, json) ∈ fields ∧ read json = some value := by
  induction fields generalizing map with
  | nil =>
      cases hread
      simp
  | cons entry fields ih =>
      obtain ⟨rest, first, hrest, hfirst, rfl⟩ :=
        readEntries_cons_eq_some_iff.mp hread
      rw [List.pairwise_cons] at hdistinct
      rw [Std.TreeMap.getElem?_insert]
      by_cases hkey : entry.1 = key
      · have hother (json : Json) : (key, json) ∉ fields := by
          intro hmem
          exact hdistinct.1 _ hmem hkey
        simp [hkey, hother, Prod.ext_iff, hfirst]
      · have hne : ¬ key = entry.1 := fun hsame => hkey hsame.symm
        simp [hkey, hne, Prod.ext_iff, ih hrest hdistinct.2]

/-- Writing a map that was read gives the object back. -/
theorem mapValue_of_readEntries {toValue : V → Json} {map : BTreeMap V}
    (hread : readEntries read fields = some map)
    (hordered : OrderedKeys fields)
    (hback : ∀ json value, read json = some value → toValue value = json) :
    mapValue toValue map = .object fields := by
  rw [mapValue, Json.object.injEq]
  have hasymm (left right : String × Json)
      (hlt : compare left.1 right.1 = .lt) : ¬ compare right.1 left.1 = .lt :=
    Std.OrientedCmp.not_lt_of_lt hlt
  apply eq_of_ordered hasymm _ hordered
  · rintro ⟨key, json⟩
    rw [List.mem_map]
    constructor
    · rintro ⟨⟨name, value⟩, hentry, heq⟩
      cases heq
      rw [Std.TreeMap.mem_toList_iff_getElem?_eq_some,
        getElem?_readEntries hread hordered.distinct] at hentry
      obtain ⟨json, hmem, hvalue⟩ := hentry
      rwa [hback json value hvalue]
    · intro hmem
      obtain ⟨value, hvalue⟩ := exists_readEntries_iff.mp ⟨map, hread⟩ _ hmem
      refine ⟨(key, value), ?_, Prod.ext rfl (hback json value hvalue)⟩
      rw [Std.TreeMap.mem_toList_iff_getElem?_eq_some,
        getElem?_readEntries hread hordered.distinct]
      exact ⟨json, hmem, hvalue⟩
  · rw [List.pairwise_map]
    exact Std.TreeMap.ordered_keys_toList

theorem memberValue_of_readMember {json : Json} {member : Member}
    (hread : readMember json = some member) : memberValue member = json := by
  cases json with
  | object fields =>
      cases hread
      rfl
  | _ => cases hread

theorem namesValue_of_readNames {json : Json} {names : List String}
    (hread : readNames json = some names) : namesValue names = json := by
  cases json with
  | array values =>
      change values.mapM Json.asStr = some names at hread
      rw [namesValue, Json.array.injEq]
      induction values generalizing names with
      | nil =>
          cases hread
          rfl
      | cons value values ih =>
          rw [List.mapM_cons] at hread
          cases value with
          | string name =>
              cases hrest : values.mapM Json.asStr with
              | none =>
                  rw [hrest] at hread
                  cases hread
              | some rest =>
                  rw [hrest] at hread
                  cases hread
                  rw [List.map_cons, ih hrest]
          | _ => cases hread
  | _ => cases hread

/-! ## Reading an aggregate -/

/-- What an aggregate was read from. -/
structure ReadFrom (fields members groups : List (String × Json))
    (aggregate : Aggregate) : Prop where
  version : fields.lookup "schemaVersion" = some aggregate.schemaVersion
  members_at : fields.lookup "members" = some (.object members)
  members_read : readEntries readMember members = some aggregate.members
  groups_at : fields.lookup "groups" = some (.object groups)
  groups_read : readEntries readNames groups = some aggregate.groups
  extra_eq : aggregate.extra = fields.filter fun field => field.1 ∉ namedKeys

theorem bind_readMap_eq_some_iff {field : Option Json} {map : BTreeMap V} :
    field.bind (readMap read) = some map ↔
      ∃ entries, field = some (.object entries) ∧
        readEntries read entries = some map := by
  cases field with
  | none => simp
  | some value => cases value <;> simp [readMap, Json.asObject]

theorem ofValue_eq_some_iff {value : Json} {aggregate : Aggregate} :
    Aggregate.ofValue value = some aggregate ↔
      ∃ fields members groups, value = .object fields ∧
        ReadFrom fields members groups aggregate := by
  constructor
  · intro hread
    obtain ⟨fields, hfields, hread⟩ := Option.bind_eq_some_iff.mp hread
    obtain ⟨version, hversion, hread⟩ := Option.bind_eq_some_iff.mp hread
    obtain ⟨members, hmembers, hread⟩ := Option.bind_eq_some_iff.mp hread
    obtain ⟨groups, hgroups, hread⟩ := Option.bind_eq_some_iff.mp hread
    cases hread
    obtain ⟨memberFields, hmembersAt, hmembersRead⟩ :=
      bind_readMap_eq_some_iff.mp hmembers
    obtain ⟨groupFields, hgroupsAt, hgroupsRead⟩ :=
      bind_readMap_eq_some_iff.mp hgroups
    refine ⟨fields, memberFields, groupFields, ?_, hversion, hmembersAt,
      hmembersRead, hgroupsAt, hgroupsRead, rfl⟩
    cases value with
    | object own =>
        cases hfields
        rfl
    | _ => cases hfields
  · rintro ⟨fields, members, groups, rfl, hread⟩
    have hmembers := bind_readMap_eq_some_iff.mpr
      ⟨members, hread.members_at, hread.members_read⟩
    have hgroups := bind_readMap_eq_some_iff.mpr
      ⟨groups, hread.groups_at, hread.groups_read⟩
    rw [Aggregate.ofValue]
    simp only [Json.asObject, Option.bind_eq_bind, Option.bind_some,
      hread.version, hmembers, hgroups, ← hread.extra_eq]

theorem IsValue.ordered (hvalue : IsValue (.object fields)) :
    OrderedKeys fields := by
  cases hvalue with
  | object hordered _ => exact hordered

theorem IsValue.lookup (hvalue : IsValue (.object fields)) {key : String}
    {field : Json} (hfield : fields.lookup key = some field) :
    IsValue field := by
  cases hvalue with
  | object hordered hfields =>
      exact hfields (key, field)
        ((BTreeMap.lookup_eq_some_iff hordered.distinct).mp hfield)

/-- The keys beside the named ones keep their values. -/
theorem ReadFrom.lookup_extra {members groups : List (String × Json)}
    {aggregate : Aggregate} (hread : ReadFrom fields members groups aggregate)
    {key : String} (hkey : key ∉ namedKeys) :
    aggregate.extra.lookup key = fields.lookup key := by
  have hfilter := BTreeMap.lookup_filter_key fields
    (fun key => decide (key ∉ namedKeys)) key
  rw [hread.extra_eq, hfilter, if_pos (decide_eq_true hkey)]

/-! ## Serializing what was read -/

theorem getElem?_insertMany (map : BTreeMap V) {entries : List (String × V)}
    (hdistinct : entries.Pairwise fun left right => left.1 ≠ right.1)
    (key : String) :
    (map.insertMany entries)[key]? = (entries.lookup key).or map[key]? := by
  cases hlookup : entries.lookup key with
  | none =>
      rw [Option.none_or]
      apply Std.TreeMap.getElem?_insertMany_list_of_contains_eq_false
      rw [← Bool.not_eq_true, List.contains_iff_mem]
      intro hkey
      obtain ⟨⟨name, value⟩, hmem, rfl⟩ := List.mem_map.mp hkey
      rw [(BTreeMap.lookup_eq_some_iff hdistinct).mpr hmem] at hlookup
      cases hlookup
  | some value =>
      rw [Option.some_or]
      apply Std.TreeMap.getElem?_insertMany_list_of_mem
        Std.ReflCmp.compare_self _ ((BTreeMap.lookup_eq_some_iff hdistinct).mp
          hlookup)
      exact hdistinct.imp fun hne heq =>
        hne (Std.LawfulEqCmp.eq_of_compare heq)

/-- Serializing an aggregate gives back the value it was read from. -/
theorem toValue_of_ofValue {value : Json} {aggregate : Aggregate}
    (hvalue : IsValue value)
    (hread : Aggregate.ofValue value = some aggregate) :
    aggregate.toValue = value := by
  obtain ⟨fields, members, groups, rfl, hfrom⟩ := ofValue_eq_some_iff.mp hread
  have hordered := hvalue.ordered
  have hmembers : mapValue memberValue aggregate.members = .object members :=
    mapValue_of_readEntries hfrom.members_read
      (hvalue.lookup hfrom.members_at).ordered
      fun _ _ => memberValue_of_readMember
  have hgroups : mapValue namesValue aggregate.groups = .object groups :=
    mapValue_of_readEntries hfrom.groups_read
      (hvalue.lookup hfrom.groups_at).ordered
      fun _ _ => namesValue_of_readNames
  have hextra : aggregate.extra.Pairwise fun left right => left.1 ≠ right.1 := by
    rw [hfrom.extra_eq]
    exact hordered.distinct.filter _
  rw [Aggregate.toValue, Json.object.injEq]
  have hasymm (left right : String × Json)
      (hlt : compare left.1 right.1 = .lt) : ¬ compare right.1 left.1 = .lt :=
    Std.OrientedCmp.not_lt_of_lt hlt
  apply eq_of_ordered hasymm Std.TreeMap.ordered_keys_toList hordered
  rintro ⟨key, field⟩
  rw [Std.TreeMap.mem_toList_iff_getElem?_eq_some, getElem?_insertMany _ hextra,
    ← BTreeMap.lookup_eq_some_iff hordered.distinct, hfrom.extra_eq,
    BTreeMap.lookup_filter_key fields (fun key => decide (key ∉ namedKeys)),
    hmembers, hgroups]
  simp only [Std.TreeMap.getElem?_insert]
  by_cases hversion : key = "schemaVersion"
  · subst hversion
    simp [namedKeys, hfrom.version]
  · by_cases hmember : key = "members"
    · subst hmember
      simp [namedKeys, hfrom.members_at]
    · by_cases hgroup : key = "groups"
      · subst hgroup
        simp [namedKeys, hfrom.groups_at]
      · have hother : key ∉ namedKeys := by
          simp [namedKeys, hversion, hmember, hgroup]
        simp [hother, Ne.symm hversion, Ne.symm hmember, Ne.symm hgroup]

/-! ## The rules as the loader checks them -/

variable {aggregate : Aggregate} {members groups : List (String × Json)}

theorem checkMember_eq_ok_iff {key : String} {member : Member} :
    Aggregate.checkMember (key, member) = .ok () ↔
      isValidMemberName key = true ∧
        member.fields.lookup "name" = some (.string key) := by
  rw [Aggregate.checkMember]
  cases hvalid : isValidMemberName key with
  | false => simp
  | true =>
      rw [Member.get]
      cases hname : member.fields.lookup "name" with
      | none => simp
      | some value =>
          cases value with
          | string name => by_cases heq : name = key <;> simp [Json.asStr, heq]
          | _ => simp [Json.asStr]

theorem checkGroup_eq_ok_iff {group : String} {names : List String} :
    aggregate.checkGroup (group, names) = .ok () ↔
      eqIgnoreAsciiCase group "all" = false ∧
        ∀ name ∈ names, aggregate.members[name]? ≠ none := by
  rw [Aggregate.checkGroup]
  cases hreserved : eqIgnoreAsciiCase group "all" with
  | true => simp
  | false =>
      simp only [Bool.false_eq_true, if_false, forM_eq_ok_iff, true_and]
      apply forall₂_congr
      intro name _
      rw [Aggregate.checkGroupMember]
      cases aggregate.members[name]? <;> simp

/-- The checks on what was read are the rules on the value. -/
theorem check_of_readFrom (hread : ReadFrom fields members groups aggregate)
    (hmembers : OrderedKeys members) (hgroups : OrderedKeys groups) :
    aggregate.check = .ok () ↔ MemberRules members ∧ GroupRules members groups := by
  have hmember := getElem?_readEntries hread.members_read hmembers.distinct
  have hgroup := getElem?_readEntries hread.groups_read hgroups.distinct
  have hmemberRead := exists_readEntries_iff.mp ⟨_, hread.members_read⟩
  have hgroupRead := exists_readEntries_iff.mp ⟨_, hread.groups_read⟩
  have hknown (name : String) : aggregate.members[name]? ≠ none ↔
      ∃ record, (name, record) ∈ members := by
    rw [Option.ne_none_iff_exists']
    constructor
    · rintro ⟨member, hname⟩
      obtain ⟨record, hmem, -⟩ := (hmember name member).mp hname
      exact ⟨record, hmem⟩
    · rintro ⟨record, hmem⟩
      obtain ⟨member, hrecord⟩ := hmemberRead _ hmem
      exact ⟨member, (hmember name member).mpr ⟨record, hmem, hrecord⟩⟩
  rw [check_eq_ok_iff]
  apply and_congr
  · constructor
    · rintro hchecked ⟨key, record⟩ hentry
      obtain ⟨member, hrecord⟩ := hmemberRead _ hentry
      have hin : (key, member) ∈ aggregate.members.toList :=
        Std.TreeMap.mem_toList_iff_getElem?_eq_some.mpr
          ((hmember key member).mpr ⟨record, hentry, hrecord⟩)
      obtain ⟨hvalid, hname⟩ := checkMember_eq_ok_iff.mp (hchecked _ hin)
      exact ⟨hvalid, member.fields, (memberValue_of_readMember hrecord).symm,
        hname⟩
    · rintro hrules ⟨key, member⟩ hin
      obtain ⟨record, hentry, hrecord⟩ := (hmember key member).mp
        (Std.TreeMap.mem_toList_iff_getElem?_eq_some.mp hin)
      obtain ⟨hvalid, own, hown, hname⟩ := hrules _ hentry
      dsimp only at hown
      subst hown
      cases hrecord
      exact checkMember_eq_ok_iff.mpr ⟨hvalid, hname⟩
  · constructor
    · rintro hchecked ⟨group, value⟩ hentry
      obtain ⟨names, hnames⟩ := hgroupRead _ hentry
      have hin : (group, names) ∈ aggregate.groups.toList :=
        Std.TreeMap.mem_toList_iff_getElem?_eq_some.mpr
          ((hgroup group names).mpr ⟨value, hentry, hnames⟩)
      obtain ⟨hreserved, hall⟩ := checkGroup_eq_ok_iff.mp (hchecked _ hin)
      exact ⟨hreserved, names, (namesValue_of_readNames hnames).symm,
        fun name hname => (hknown name).mp (hall name hname)⟩
    · rintro hrules ⟨group, names⟩ hin
      obtain ⟨value, hentry, hnames⟩ := (hgroup group names).mp
        (Std.TreeMap.mem_toList_iff_getElem?_eq_some.mp hin)
      obtain ⟨hreserved, listed, hlisted, hall⟩ := hrules _ hentry
      dsimp only at hlisted
      rw [hlisted, readNames_namesValue] at hnames
      cases hnames
      exact checkGroup_eq_ok_iff.mpr
        ⟨hreserved, fun name hname => (hknown name).mpr (hall name hname)⟩

/-- Whether an object has a field that is an object. -/
theorem asObject_bind_eq_some_iff {value : Option Json}
    {own : List (String × Json)} :
    value.bind Json.asObject = some own ↔ value = some (.object own) := by
  cases value with
  | none => simp
  | some value => cases value <;> simp [Json.asObject]

/-- The projection a map of controllers holds for a platform. -/
theorem get_of_asObject {platforms : Json} {entries : List (String × Json)}
    (hobject : platforms.asObject = some entries) :
    platforms = .object entries := by
  cases platforms with
  | object own =>
      cases hobject
      rfl
  | _ => cases hobject

/-- The checks on the projection that was selected. -/
theorem selected_eq_ok_iff {projections : Option Json} {os platform : String}
    {entries : List (String × Json)} {selected : Json}
    (hos : Aggregate.controllerPlatform os = some platform)
    (hentry : (Json.object entries).get platform = some selected)
    {selection : Option String} :
    (if (((selected.get "deploy").bind (·.get "settings")).bind
          Json.asObject).isNone = true then
        Except.error (InventoryError.malformed
          (.missingControllerSettings platform))
      else if ((projections.bind (·.get "ansibleInventory")).isSome &&
          ((selected.get "ansibleInventory").bind Json.asObject).isNone) = true
        then .error (.malformed (.missingControllerInventory platform))
      else .ok (some platform)) = .ok selection ↔
      ∃ platform selected settings, selection = some platform ∧
        Selects projections (.object entries) os platform selected settings := by
  constructor
  · intro hselected
    split at hselected
    · cases hselected
    · next hsettings =>
        split at hselected
        · cases hselected
        · next hinventory =>
            cases hselected
            rw [Option.isNone_iff_eq_none, ← ne_eq,
              Option.ne_none_iff_exists'] at hsettings
            obtain ⟨settings, hsettings⟩ := hsettings
            refine ⟨platform, selected, settings, rfl, hos,
              ⟨entries, rfl, hentry⟩, asObject_bind_eq_some_iff.mp hsettings, ?_⟩
            intro hshared
            simp only [Bool.and_eq_true, Option.isSome_iff_ne_none, hshared,
              not_false_eq_true, ne_eq, Option.isNone_iff_eq_none,
              true_and] at hinventory
            obtain ⟨own, hown⟩ := Option.ne_none_iff_exists'.mp hinventory
            exact ⟨own, asObject_bind_eq_some_iff.mp hown⟩
  · rintro ⟨other, own, settings, rfl, hsupported, ⟨fields, heq, hown⟩, hsettings,
      hinventory⟩
    cases heq
    rw [hsupported, Option.some.injEq] at hos
    subst hos
    rw [Json.get, hown, Option.some.injEq] at hentry
    subst hentry
    rw [if_neg, if_neg]
    · intro hmissing
      rw [Bool.and_eq_true, Option.isSome_iff_ne_none,
        Option.isNone_iff_eq_none] at hmissing
      obtain ⟨fields, hfields⟩ := hinventory hmissing.1
      rw [asObject_bind_eq_some_iff.mpr hfields] at hmissing
      cases hmissing.2
    · rw [asObject_bind_eq_some_iff.mpr hsettings]
      exact Bool.false_ne_true

/-- The selection of a controller, where there is a map of them. -/
theorem selectController_eq_ok_iff {os : String} {platforms : Json}
    (hmap : aggregate.projections.bind (·.get "byControllerPlatform") =
      some platforms) {selection : Option String} :
    aggregate.selectController os = .ok selection ↔
      ∃ platform selected settings, selection = some platform ∧
        Selects aggregate.projections platforms os platform selected settings := by
  rw [Aggregate.selectController, hmap]
  dsimp only
  cases hos : Aggregate.controllerPlatform os with
  | none =>
      refine iff_of_false (fun herror => nomatch herror) ?_
      rintro ⟨platform, selected, settings, -, hselects⟩
      rw [hselects.supported] at hos
      cases hos
  | some platform =>
      cases hobject : platforms.asObject with
      | none =>
          refine iff_of_false (fun herror => nomatch herror) ?_
          rintro ⟨other, selected, settings, -, hselects⟩
          obtain ⟨entries, rfl, -⟩ := hselects.entry
          cases hobject
      | some entries =>
          obtain rfl := get_of_asObject hobject
          simp only [Option.isNone_some, Bool.false_eq_true, if_false]
          cases hentry : (Json.object entries).get platform with
          | none =>
              refine iff_of_false (fun herror => nomatch herror) ?_
              rintro ⟨other, selected, settings, -, hselects⟩
              obtain ⟨own, heq, hselected⟩ := hselects.entry
              cases heq
              rw [hselects.supported, Option.some.injEq] at hos
              rw [← hos, Json.get, hselected] at hentry
              cases hentry
          | some selected =>
              exact selected_eq_ok_iff hos hentry

/-! ## The loader -/

variable {value : Json} {os : String} {inventory : Inventory}

theorem fromAggregate_eq_ok_iff :
    Inventory.fromAggregate aggregate os = .ok inventory ↔
      aggregate.schemaVersion.asU64 = some supportedSchemaVersion ∧
        inventory.aggregate = aggregate ∧
        aggregate.selectController os = .ok inventory.controllerPlatform := by
  rw [Inventory.fromAggregate]
  by_cases hversion : aggregate.schemaVersion.asU64 = some supportedSchemaVersion
  · rw [if_neg (not_not.mpr hversion)]
    split
    · next error hfailed =>
        refine iff_of_false (by rintro ⟨⟩) ?_
        rintro ⟨-, rfl, -⟩
        rw [inventory.checked] at hfailed
        cases hfailed
    · next hchecked =>
        cases hselected : aggregate.selectController os with
        | error error =>
            refine iff_of_false (by rintro ⟨⟩) ?_
            rintro ⟨-, -, hother⟩
            cases hother
        | ok selection =>
            constructor
            · intro hsame
              cases hsame
              exact ⟨hversion, rfl, rfl⟩
            · rintro ⟨-, rfl, hother⟩
              cases hother
              rfl
  · rw [if_pos hversion]
    exact iff_of_false (by rintro ⟨⟩)
      (fun hall => hversion hall.1)

/-- An aggregate's version is that of the value it was read from. -/
theorem schemaVersion_of_ofValue
    (hread : Aggregate.ofValue value = some aggregate) :
    value.get "schemaVersion" = some aggregate.schemaVersion := by
  obtain ⟨fields, members, groups, rfl, hfrom⟩ := ofValue_eq_some_iff.mp hread
  exact hfrom.version

theorem projections_of_ofValue
    (hread : Aggregate.ofValue value = some aggregate) :
    aggregate.projections = value.get "projections" := by
  obtain ⟨fields, members, groups, rfl, hfrom⟩ := ofValue_eq_some_iff.mp hread
  exact hfrom.lookup_extra (by decide)

theorem fromValue_eq_ok_iff :
    Inventory.fromValue value os = .ok inventory ↔
      (value.get "schemaVersion").bind Json.asU64 =
          some supportedSchemaVersion ∧
        Aggregate.ofValue value = some inventory.aggregate ∧
        inventory.aggregate.selectController os =
          .ok inventory.controllerPlatform := by
  rw [Inventory.fromValue]
  by_cases hversion : (value.get "schemaVersion").bind Json.asU64 =
      some supportedSchemaVersion
  · rw [if_neg (not_not.mpr hversion)]
    cases hread : Aggregate.ofValue value with
    | none =>
        refine iff_of_false (by rintro ⟨⟩) ?_
        rintro ⟨-, hother, -⟩
        cases hother
    | some aggregate =>
        have hown : aggregate.schemaVersion.asU64 =
            some supportedSchemaVersion := by
          rwa [schemaVersion_of_ofValue hread] at hversion
        have hloaded := @fromAggregate_eq_ok_iff aggregate os inventory
        dsimp only
        rw [Option.some.injEq]
        cases hresult : Inventory.fromAggregate aggregate os with
        | error error =>
            refine iff_of_false (by rintro ⟨⟩) ?_
            rintro ⟨-, rfl, hselected⟩
            rw [hloaded.mpr ⟨hown, rfl, hselected⟩] at hresult
            cases hresult
        | ok other =>
            rw [hresult, Except.ok.injEq] at hloaded
            change Except.ok other = Except.ok inventory ↔ _
            rw [Except.ok.injEq, hloaded]
            constructor
            · rintro ⟨-, rfl, hselected⟩
              exact ⟨hversion, rfl, hselected⟩
            · rintro ⟨-, rfl, hselected⟩
              exact ⟨hown, rfl, hselected⟩
  · rw [if_pos hversion]
    exact iff_of_false (by rintro ⟨⟩)
      (fun hall => hversion hall.1)

/-- Without a map of controllers nothing is selected. -/
theorem selectController_of_none
    (hmap : aggregate.projections.bind (·.get "byControllerPlatform") = none) :
    aggregate.selectController os = .ok none := by
  rw [Aggregate.selectController, hmap]

/-- The loader accepts what satisfies the rules, and nothing else. -/
theorem exists_fromValue_iff (hvalue : IsValue value) :
    (∃ inventory, Inventory.fromValue value os = .ok inventory) ↔
      Acceptable value os := by
  constructor
  · rintro ⟨inventory, hloaded⟩
    obtain ⟨hversion, hread, hselected⟩ := fromValue_eq_ok_iff.mp hloaded
    obtain ⟨fields, members, groups, rfl, hfrom⟩ := ofValue_eq_some_iff.mp hread
    have hrules := (check_of_readFrom hfrom
      (hvalue.lookup hfrom.members_at).ordered
      (hvalue.lookup hfrom.groups_at).ordered).mp inventory.checked
    refine ⟨hversion, ⟨members, groups, hfrom.members_at, hfrom.groups_at,
      hrules⟩, fun platforms hplatforms => ?_⟩
    rw [controllerMap, ← projections_of_ofValue hread] at hplatforms
    obtain ⟨platform, selected, settings, -, hselects⟩ :=
      (selectController_eq_ok_iff hplatforms).mp hselected
    rw [projections_of_ofValue hread] at hselects
    exact ⟨platform, selected, settings, hselects⟩
  · rintro ⟨hversion, ⟨members, groups, hmembers, hgroups, hmember, hgroup⟩,
      hcontrollers⟩
    cases value with
    | object fields =>
        have hmembersRead : ∃ map, readEntries readMember members = some map := by
          rw [exists_readEntries_iff]
          intro entry hentry
          obtain ⟨-, own, hown, -⟩ := hmember entry hentry
          exact ⟨⟨own⟩, by rw [hown]; rfl⟩
        have hgroupsRead : ∃ map, readEntries readNames groups = some map := by
          rw [exists_readEntries_iff]
          intro entry hentry
          obtain ⟨-, names, hnames, -⟩ := hgroup entry hentry
          exact ⟨names, by rw [hnames, readNames_namesValue]⟩
        obtain ⟨memberMap, hmemberMap⟩ := hmembersRead
        obtain ⟨groupMap, hgroupMap⟩ := hgroupsRead
        obtain ⟨version, hfound, -⟩ := Option.bind_eq_some_iff.mp hversion
        let aggregate : Aggregate :=
          { schemaVersion := version, members := memberMap, groups := groupMap
            extra := fields.filter fun field => field.1 ∉ namedKeys }
        have hfrom : ReadFrom fields members groups aggregate :=
          ⟨hfound, hmembers, hmemberMap, hgroups, hgroupMap, rfl⟩
        have hread : Aggregate.ofValue (.object fields) = some aggregate :=
          ofValue_eq_some_iff.mpr ⟨fields, members, groups, rfl, hfrom⟩
        have hchecked : aggregate.check = .ok () :=
          (check_of_readFrom hfrom (hvalue.lookup hmembers).ordered
            (hvalue.lookup hgroups).ordered).mpr ⟨hmember, hgroup⟩
        have hselected : ∃ selection,
            aggregate.selectController os = .ok selection := by
          cases hmap : aggregate.projections.bind
              (·.get "byControllerPlatform") with
          | none => exact ⟨none, selectController_of_none hmap⟩
          | some platforms =>
              have hplatforms := hmap
              rw [projections_of_ofValue hread] at hplatforms
              obtain ⟨platform, selected, settings, hselects⟩ :=
                hcontrollers platforms hplatforms
              rw [← projections_of_ofValue hread] at hselects
              exact ⟨some platform, (selectController_eq_ok_iff hmap).mpr
                ⟨platform, selected, settings, rfl, hselects⟩⟩
        obtain ⟨selection, hselection⟩ := hselected
        exact ⟨{ aggregate, controllerPlatform := selection, checked := hchecked },
          fromValue_eq_ok_iff.mpr ⟨hversion, hread, hselection⟩⟩
    | _ => cases hmembers

/-- What an inventory connects with, given the projection of its controller. -/
structure ConnectsBy (inventory : Inventory) (selected : Json)
    (settings : List (String × Json)) : Prop where
  deploySettings : inventory.deploySettings = some settings
  ansibleInventory : inventory.ansibleInventory =
    selected.get "ansibleInventory"

theorem connectsBy_of_fromValue
    (hloaded : Inventory.fromValue value os = .ok inventory) {platforms : Json}
    (hplatforms : controllerMap value = some platforms) :
    ∃ platform selected settings,
      Selects (value.get "projections") platforms os platform selected settings ∧
        ConnectsBy inventory selected settings := by
  obtain ⟨-, hread, hselected⟩ := fromValue_eq_ok_iff.mp hloaded
  rw [controllerMap, ← projections_of_ofValue hread] at hplatforms
  obtain ⟨platform, selected, settings, hplatform, hselects⟩ :=
    (selectController_eq_ok_iff hplatforms).mp hselected
  have hconnection : inventory.connectionProjections = some selected := by
    obtain ⟨projections, hprojections, hmap⟩ :=
      Option.bind_eq_some_iff.mp hplatforms
    obtain ⟨entries, rfl, hentry⟩ := hselects.entry
    rw [Inventory.connectionProjections, hprojections, Option.bind_some,
      hplatform]
    dsimp only
    rw [hmap]
    exact hentry
  rw [projections_of_ofValue hread] at hselects
  refine ⟨platform, selected, settings, hselects, ?_, ?_⟩
  · rw [Inventory.deploySettings, hconnection, Option.bind_some,
      hselects.settings_eq]
    rfl
  · rw [Inventory.ansibleInventory, hconnection, Option.bind_some]

/-- The loader accepts exactly the values its rules allow, keeps what it accepts
whole, and connects by the controller's own projection where there are any. -/
theorem fromValue_spec (value : Json) (os : String) (hvalue : IsValue value) :
    ((∃ inventory, Inventory.fromValue value os = .ok inventory) ↔
        Acceptable value os) ∧
      ∀ inventory, Inventory.fromValue value os = .ok inventory →
        inventory.aggregate.toValue = value ∧
          ∀ platforms, controllerMap value = some platforms →
            ∃ platform selected settings,
              Selects (value.get "projections") platforms os platform selected
                settings ∧ ConnectsBy inventory selected settings := by
  refine ⟨exists_fromValue_iff hvalue, fun inventory hloaded => ⟨?_, ?_⟩⟩
  · exact toValue_of_ofValue hvalue (fromValue_eq_ok_iff.mp hloaded).2.1
  · exact fun platforms => connectsBy_of_fromValue hloaded

/-! ## A fleet deployed from linux -/

theorem isValue_object_nil : IsValue (.object []) :=
  .object List.Pairwise.nil fun _ hmem => nomatch hmem

theorem isValue_object_single {key : String} {field : Json}
    (hfield : IsValue field) : IsValue (.object [(key, field)]) :=
  .object (List.pairwise_singleton _ _) fun _ hmem =>
    List.mem_singleton.mp hmem ▸ hfield

def linuxProjection : Json := .object [("deploy", .object [("settings", .object [])])]

def linuxFleet : Json :=
  .object
    [("groups", .object [("edge", .array [.string "web"])]),
      ("members", .object [("web", .object [("name", .string "web")])]),
      ("projections",
        .object [("byControllerPlatform", .object [("linux", linuxProjection)])]),
      ("schemaVersion", .int 1)]

theorem isValue_linuxFleet : IsValue linuxFleet := by
  refine .object (by unfold OrderedKeys; decide) ?_
  simp only [List.forall_mem_cons, List.not_mem_nil, false_imp_iff,
    implies_true, and_true]
  refine ⟨isValue_object_single (.array ?_),
    isValue_object_single (isValue_object_single (.string _)),
    isValue_object_single (isValue_object_single (isValue_object_single
      (isValue_object_single isValue_object_nil))), .int 1⟩
  intro value hmem
  rw [List.mem_singleton.mp hmem]
  exact .string "web"

theorem fromValue_spec_linux :
    ((∃ inventory, Inventory.fromValue linuxFleet "linux" = .ok inventory) ↔
        Acceptable linuxFleet "linux") ∧
      ∀ inventory, Inventory.fromValue linuxFleet "linux" = .ok inventory →
        inventory.aggregate.toValue = linuxFleet ∧
          ∀ platforms, controllerMap linuxFleet = some platforms →
            ∃ platform selected settings,
              Selects (linuxFleet.get "projections") platforms "linux" platform
                selected settings ∧ ConnectsBy inventory selected settings :=
  fromValue_spec linuxFleet "linux" isValue_linuxFleet

end Mandala.Fleet
