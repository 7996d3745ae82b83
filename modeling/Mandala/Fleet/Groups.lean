import Mandala.Fleet.Connection
import Mandala.Fleet.Wire

/-!
# Groups on every fan-out surface

The aggregate, the deploy batches and the Ansible inventory each derive the
members of a group for themselves, over the members they cover.  Every one of
these lists is in name order, so it is told by what it holds.
-/

namespace Mandala.Fleet

open Mandala.Data Mandala.Nix Mandala.Ordering

/-! ## The aggregate -/

/-- The names of the members with a property, in order. -/
def namesWhere (hosts : Hosts) (property : Host → Bool) : List String :=
  (hosts.toList.filter fun entry => property entry.2).map Prod.fst

def inGroup (group : String) (host : Host) : Bool :=
  group ∈ ansibleGroupsFor host

def groupKeys (hosts : Hosts) : List String :=
  unique (hosts.toList.flatMap fun entry => ansibleGroupsFor entry.2)

/-- `groups` of the aggregate. -/
def aggregateGroups (members : Hosts) : Attrs (List String) :=
  genAttrs (groupKeys members) fun group => namesWhere members (inGroup group)

/-- A member as the aggregate carries it. -/
def Host.record (host : Host) : Member := { fields := host.fields }

def operatorAttrs : Option Json → Attrs Json
  | some operator => listToAttrs [("operator", operator)]
  | none => ∅

/-- `lib.aggregate`. -/
def aggregateFields (members : Hosts) (operator : Option Json)
    (projections : Attrs Json) : Attrs Json :=
  listToAttrs
      [("schemaVersion", .int 1),
        ("members", mapValue memberValue
          (members.map fun _ host => host.record)),
        ("projections", toObject projections),
        ("groups", mapValue namesValue (aggregateGroups members))] ∪
    operatorAttrs operator

/-- The aggregate as it is printed. -/
def aggregate (members : Hosts) (operator : Option Json)
    (projections : Attrs Json) : Json :=
  toObject (aggregateFields members operator projections)

/-! ## Deploy batches -/

def deployable (hosts : Hosts) : Hosts :=
  filterAttrs (fun _ host => host.deployRs.enable) hosts

def batchMembers (hosts : Hosts) (group : String) : List String :=
  (filterAttrs (fun _ host => inGroup group host) (deployable hosts)).keys

/-- The hosts of every `deployBatch` group; `all` wins over a facet of that
name. -/
def deployBatch (hosts : Hosts) : Attrs (List String) :=
  genAttrs (groupKeys (deployable hosts)) (batchMembers hosts) ∪
    listToAttrs [("all", (deployable hosts).keys)]

/-! ## The Ansible inventory -/

structure AnsibleInventory where
  hosts : Attrs (Attrs Json)
  children : Attrs (Attrs Json)

def ansibleMembers (hosts : Hosts) : Hosts :=
  filterAttrs (fun _ host => host.ansibleEnable) hosts

def hostsToNullValues (names : List String) : Attrs Json :=
  listToAttrs (names.map fun name => (name, .null))

/-- The synthetic group of the members deploy-rs can activate; it wins over a
facet of its name. -/
def guardChild (hosts : Hosts) : Option String → Attrs (Attrs Json)
  | some guardGroup =>
      listToAttrs [(guardGroup, hostsToNullValues
        (namesWhere (ansibleMembers hosts) (·.deployRs.enable)))]
  | none => ∅

/-- `ansibleInventory`, below `all`. -/
def ansibleInventory (options : InventoryOptions) (hosts : Hosts) :
    AnsibleInventory :=
  { hosts := (ansibleMembers hosts).map (hostvarsFor options)
    children :=
      listToAttrs ((groupKeys (ansibleMembers hosts)).map fun group =>
          (group, hostsToNullValues
            (namesWhere (ansibleMembers hosts) (inGroup group)))) ∪
        guardChild hosts options.guardGroup }

/-! ## Lists in name order -/

def Ordered (names : List String) : Prop :=
  names.Pairwise fun left right => compare left right = .lt

theorem Ordered.eq {left right : List String} (hleft : Ordered left)
    (hright : Ordered right) (hmem : ∀ name, name ∈ left ↔ name ∈ right) :
    left = right := by
  apply eq_of_ordered _ hleft hright hmem
  intro first second hlt hgt
  exact Std.OrientedCmp.not_lt_of_lt hlt hgt

theorem ordered_keys {V : Type} (set : Attrs V) : Ordered set.keys :=
  Std.TreeMap.ordered_keys

theorem ordered_namesWhere (hosts : Hosts) (property : Host → Bool) :
    Ordered (namesWhere hosts property) := by
  apply List.pairwise_map.mpr
  exact (Std.TreeMap.ordered_keys_toList (t := hosts)).filter _

theorem mem_namesWhere_iff {hosts : Hosts} {property : Host → Bool}
    {name : String} : name ∈ namesWhere hosts property ↔
      ∃ host, hosts[name]? = some host ∧ property host := by
  rw [namesWhere, List.mem_map]
  constructor
  · rintro ⟨⟨key, host⟩, hentry, rfl⟩
    obtain ⟨hmem, hproperty⟩ := List.mem_filter.mp hentry
    exact ⟨host, Std.TreeMap.mem_toList_iff_getElem?_eq_some.mp hmem,
      hproperty⟩
  · rintro ⟨host, hhost, hproperty⟩
    refine ⟨(name, host), List.mem_filter.mpr ⟨?_, hproperty⟩, rfl⟩
    exact Std.TreeMap.mem_toList_iff_getElem?_eq_some.mpr hhost

theorem mem_keys_filterAttrs_iff {hosts : Hosts} {property : Host → Bool}
    {name : String} :
    name ∈ (filterAttrs (fun _ host => property host) hosts).keys ↔
      ∃ host, hosts[name]? = some host ∧ property host := by
  rw [BTreeMap.mem_keys_iff, getElem?_filterAttrs]
  constructor
  · intro hsome
    obtain ⟨host, hfilter⟩ := Option.ne_none_iff_exists'.mp hsome
    exact ⟨host, Option.filter_eq_some_iff.mp hfilter⟩
  · rintro ⟨host, hhost, hproperty⟩
    rw [hhost, Option.filter_some_pos hproperty]
    exact Option.some_ne_none host

theorem mem_groupKeys_iff {hosts : Hosts} {group : String} :
    group ∈ groupKeys hosts ↔
      ∃ (name : String) (host : Host), hosts[name]? = some host ∧
        inGroup group host := by
  rw [groupKeys, mem_unique, List.mem_flatMap]
  constructor
  · rintro ⟨⟨name, host⟩, hentry, hgroup⟩
    exact ⟨name, host, Std.TreeMap.mem_toList_iff_getElem?_eq_some.mp hentry,
      decide_eq_true hgroup⟩
  · rintro ⟨name, host, hhost, hgroup⟩
    exact ⟨(name, host), Std.TreeMap.mem_toList_iff_getElem?_eq_some.mpr hhost,
      of_decide_eq_true hgroup⟩

/-- The members of a part of the fleet that are in a group. -/
theorem getD_genAttrs_groupKeys (hosts : Hosts) {members : String → List String}
    (hmembers : ∀ group name, name ∈ members group ↔
      ∃ host, hosts[name]? = some host ∧ inGroup group host)
    (group : String) :
    (genAttrs (groupKeys hosts) members)[group]?.getD [] = members group := by
  rw [getElem?_genAttrs]
  split
  · rfl
  · next hkey =>
      symm
      apply List.eq_nil_iff_forall_not_mem.mpr
      intro name hname
      obtain ⟨host, hhost, hgroup⟩ := (hmembers group name).mp hname
      exact hkey (mem_groupKeys_iff.mpr ⟨name, host, hhost, hgroup⟩)

end Mandala.Fleet
