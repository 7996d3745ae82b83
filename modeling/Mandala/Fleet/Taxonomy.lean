import Mandala.Fleet.Groups
import Mandala.Fleet.Selector

/-!
# One taxonomy

The aggregate of validated members is accepted by its reader, and a group
selects there the members that the deploy batch and the Ansible inventory have
under its name, as far as they cover them.
-/

namespace Mandala.Fleet

open Mandala.Data Mandala.Nix Mandala.Text Mandala.Ordering

/-! ## Member names -/

theorem utf8Size_of_isNameChar {character : Char}
    (hname : isNameChar character) : character.utf8Size = 1 := by
  apply Char.utf8Size_eq_one_iff.mpr
  simp only [isNameChar] at hname
  delta Char.isAlphanum Char.isAlpha Char.isUpper Char.isLower
    Char.isDigit at hname
  simp only [Bool.or_eq_true, Bool.and_eq_true, decide_eq_true_eq,
    UInt32.le_iff_toNat_le, ge_iff_le] at *
  rcases hname with ((hupper | hlower) | hdigit) | rfl
  · simp at *
    omega
  · simp at *
    omega
  · simp at *
    omega
  · decide

theorem utf8ByteSize_of_isNameChar {text : String}
    (hname : ∀ character ∈ text.toList, isNameChar character) :
    text.utf8ByteSize = text.toList.length := by
  have hsizes : text.toList.map (fun character =>
      (String.utf8EncodeChar character).length) =
        text.toList.map fun _ => 1 := by
    apply List.map_congr_left
    intro character hmem
    rw [String.length_utf8EncodeChar, utf8Size_of_isNameChar
      (hname character hmem)]
  rw [← length_encodeUtf8, encodeUtf8, List.length_flatMap, hsizes]
  simp

theorem isNameChar_of_isAlphanum {character : Char}
    (halnum : character.isAlphanum) : isNameChar character := by
  rw [isNameChar, halnum, Bool.true_or]

theorem isValidMemberName_of_hostName (name : HostName) :
    isValidMemberName name.text := by
  obtain ⟨text, hlabel, hnotAll⟩ := name
  have hkeyword : eqIgnoreAsciiCase text "all" = false := by
    rw [← Bool.not_eq_true]
    intro hall
    apply hnotAll
    rw [toLower, of_decide_eq_true hall]
    decide
  rw [isHostLabel] at hlabel
  cases hchars : text.toList with
  | nil =>
      rw [hchars] at hlabel
      cases hlabel
  | cons first rest =>
      rw [hchars] at hlabel
      obtain ⟨hfirst, hrest⟩ := Bool.and_eq_true_iff.mp hlabel
      obtain ⟨hlast, hall, hlength⟩ :
          (first :: rest).getLast?.any Char.isAlphanum ∧
            (∀ character ∈ first :: rest, isNameChar character) ∧
              (first :: rest).length ≤ 63 := by
        cases hend : rest.getLast? with
        | none =>
            rw [List.getLast?_eq_none_iff.mp hend]
            exact ⟨hfirst, List.forall_mem_singleton.mpr
              (isNameChar_of_isAlphanum hfirst), Nat.le_add_left 1 62⟩
        | some last =>
            rw [hend] at hrest
            simp only [Bool.and_eq_true, List.all_eq_true,
              decide_eq_true_eq] at hrest
            obtain ⟨⟨hlast, hmiddle⟩, hshort⟩ := hrest
            have hsplit : rest.dropLast ++ [last] = rest :=
              List.dropLast_append_getLast? last hend
            rw [← hsplit]
            refine ⟨?_, ?_, ?_⟩
            · rw [← List.cons_append, List.getLast?_concat]
              exact hlast
            · intro character hmem
              rw [List.mem_cons, List.mem_append, List.mem_singleton] at hmem
              rcases hmem with rfl | hmem | rfl
              · exact isNameChar_of_isAlphanum hfirst
              · exact hmiddle character hmem
              · exact isNameChar_of_isAlphanum hlast
            · rw [List.length_cons, List.length_append, List.length_singleton]
              omega
      have hsize : text.utf8ByteSize = (first :: rest).length := by
        rw [← hchars]
        apply utf8ByteSize_of_isNameChar
        rw [hchars]
        exact hall
      have hhead : first.isAlphanum := hfirst
      have hnames : (first :: rest).all isNameChar := List.all_eq_true.mpr hall
      rw [isValidMemberName, hsize, hchars, hkeyword, hlast, hnames,
        List.head?_cons, Option.any_some, hhead, decide_eq_true hlength]
      rfl

/-! ## Group names -/

def isGroupChar (character : Char) : Bool :=
  character.isAlphanum || character = '_'

theorem isGroupChar_sanitizeGroupName (name : String) :
    ∀ character ∈ (sanitizeGroupName name).toList, isGroupChar character := by
  intro character hmem
  rw [sanitizeGroupName, String.toList_ofList, List.mem_flatMap] at hmem
  obtain ⟨original, -, hmem⟩ := hmem
  rw [sanitizeChar] at hmem
  split at hmem
  · next hkept =>
      rw [List.mem_singleton.mp hmem]
      exact hkept
  · rw [(List.mem_replicate.mp hmem).2]
    rfl

theorem plain_of_isGroupChar {character : Char} (hgroup : isGroupChar character) :
    isWhiteSpace character = false ∧ isSelectorMark character = false := by
  rcases Bool.or_eq_true_iff.mp hgroup with halnum | hunderscore
  · have hname := isNameChar_of_isAlphanum halnum
    exact ⟨isWhiteSpace_of_isNameChar hname, isSelectorMark_of_isNameChar hname⟩
  · rw [of_decide_eq_true hunderscore]
    decide

theorem exists_facet {host : Host} {group : String}
    (hgroup : inGroup group host) :
    ∃ facet ∈ Secrets.groupsFor host.toHost,
      sanitizeGroupName facet = group := by
  have hmem : group ∈ ansibleGroupsFor host := of_decide_eq_true hgroup
  rw [ansibleGroupsFor, mem_unique, List.mem_map] at hmem
  exact hmem

/-! ## Acceptance -/

/-- Members under their own names, none of whose facets becomes `all`. -/
structure Validated (members : Hosts) : Prop where
  named : ∀ (name : String) (host : Host), members[name]? = some host →
    host.name.text = name
  unreserved : ∀ (name : String) (host : Host), members[name]? = some host →
    ∀ facet ∈ Secrets.groupsFor host.toHost,
      eqIgnoreAsciiCase (sanitizeGroupName facet) "all" = false

/-- An inventory with the members and groups of the aggregate. -/
structure Mirrors (inventory : Inventory) (members : Hosts) : Prop where
  sameMembers : ∀ name : String,
    inventory.members[name]? = members[name]?.map Host.record
  sameGroups : ∀ group : String,
    inventory.groups[group]? = (aggregateGroups members)[group]?

section Accepted
variable {members : Hosts}

theorem not_all_of_group (hvalid : Validated members) {group : String}
    (hgroup : group ∈ groupKeys members) :
    eqIgnoreAsciiCase group "all" = false := by
  obtain ⟨name, host, hhost, hin⟩ := mem_groupKeys_iff.mp hgroup
  obtain ⟨facet, hfacet, rfl⟩ := exists_facet hin
  exact hvalid.unreserved name host hhost facet hfacet

theorem getElem?_aggregateGroups (members : Hosts) (group : String) :
    (aggregateGroups members)[group]? =
      if group ∈ groupKeys members then
        some (namesWhere members (inGroup group))
      else none :=
  getElem?_genAttrs ..

theorem checkMember_record (hvalid : Validated members) {name : String}
    {host : Host} (hhost : members[name]? = some host) :
    Aggregate.checkMember (name, host.record) = .ok () := by
  have hname := hvalid.named name host hhost
  have hvalidName : isValidMemberName name := by
    rw [← hname]
    exact isValidMemberName_of_hostName host.name
  have hrecord : (host.record.get "name").bind Json.asStr = some name := by
    rw [← hname]
    rfl
  rw [Aggregate.checkMember, hvalidName, hrecord]
  exact if_pos rfl

theorem check_eq_ok {read : Aggregate} (hvalid : Validated members)
    (hmembers : ∀ name : String,
      read.members[name]? = members[name]?.map Host.record)
    (hgroups : ∀ group : String,
      read.groups[group]? = (aggregateGroups members)[group]?) :
    read.check = .ok () := by
  apply check_eq_ok_iff.mpr
  constructor
  · rintro ⟨name, member⟩ hentry
    rw [Std.TreeMap.mem_toList_iff_getElem?_eq_some, hmembers] at hentry
    obtain ⟨host, hhost, rfl⟩ := Option.map_eq_some_iff.mp hentry
    exact checkMember_record hvalid hhost
  · rintro ⟨group, names⟩ hentry
    rw [Std.TreeMap.mem_toList_iff_getElem?_eq_some, hgroups,
      getElem?_aggregateGroups] at hentry
    split at hentry
    · next hkey =>
        cases hentry
        rw [Aggregate.checkGroup, not_all_of_group hvalid hkey,
          if_neg Bool.false_ne_true]
        apply forM_eq_ok_iff.mpr
        intro name hname
        obtain ⟨host, hhost, -⟩ := mem_namesWhere_iff.mp hname
        rw [Aggregate.checkGroupMember, hmembers, hhost]
        rfl
    · cases hentry

theorem getElem?_aggregateFields (members : Hosts) (operator : Option Json)
    (projections : Attrs Json) {name : String} (hname : name ≠ "operator") :
    (aggregateFields members operator projections)[name]? =
      [("schemaVersion", Json.int 1),
        ("members", mapValue memberValue
          (members.map fun _ host => host.record)),
        ("projections", toObject projections),
        ("groups", mapValue namesValue (aggregateGroups members))].lookup
          name := by
  have hoperator : (operatorAttrs operator)[name]? = none := by
    cases operator with
    | none => exact Std.TreeMap.getElem?_emptyc
    | some operator =>
        rw [operatorAttrs, getElem?_listToAttrs, List.lookup_cons,
          beq_eq_false_iff_ne.mpr hname]
        rfl
  rw [aggregateFields, Std.TreeMap.getElem?_union, hoperator, Option.none_or,
    getElem?_listToAttrs]

/-- The fields an aggregate is read from. -/
theorem ofValue_object {fields : List (String × Json)} {schemaVersion : Json}
    {membersValue groupsValue : Json} {readMembers : BTreeMap Member}
    {readGroups : BTreeMap (List String)}
    (hversion : fields.lookup "schemaVersion" = some schemaVersion)
    (hmembers : fields.lookup "members" = some membersValue)
    (hgroups : fields.lookup "groups" = some groupsValue)
    (hreadMembers : readMap readMember membersValue = some readMembers)
    (hreadGroups : readMap readNames groupsValue = some readGroups) :
    Aggregate.ofValue (.object fields) = some
      { schemaVersion
        members := readMembers
        groups := readGroups
        extra := fields.filter fun field => field.1 ∉ namedKeys } := by
  change (do
    let schemaVersion ← fields.lookup "schemaVersion"
    let members ← (fields.lookup "members").bind (readMap readMember)
    let groups ← (fields.lookup "groups").bind (readMap readNames)
    some ({ schemaVersion, members, groups
            extra := fields.filter fun field => field.1 ∉ namedKeys } :
      Aggregate)) = _
  rw [hversion, hmembers, hgroups, Option.bind_some, Option.bind_some,
    hreadMembers, hreadGroups]
  rfl

/-- What the reader makes of an aggregate. -/
theorem exists_ofValue_aggregate (members : Hosts) (operator : Option Json)
    (projections : Attrs Json) :
    ∃ read, Aggregate.ofValue (aggregate members operator projections) =
        some read ∧
      read.schemaVersion = .int 1 ∧
      (∀ name : String,
        read.members[name]? = members[name]?.map Host.record) ∧
      (∀ group : String,
        read.groups[group]? = (aggregateGroups members)[group]?) ∧
      read.projections = some (toObject projections) := by
  obtain ⟨readMembers, hmembers, hmember⟩ :=
    readMap_mapValue readMember_memberValue
      (members.map fun _ host => host.record)
  obtain ⟨readGroups, hgroups, hgroup⟩ :=
    readMap_mapValue readNames_namesValue (aggregateGroups members)
  have hlookup {name : String} (hname : name ≠ "operator") :=
    (BTreeMap.lookup_toList (aggregateFields members operator projections)
      name).trans (getElem?_aggregateFields members operator projections hname)
  refine ⟨_, ofValue_object (hlookup (by decide)) (hlookup (by decide))
    (hlookup (by decide)) hmembers hgroups, rfl, ?_, hgroup, ?_⟩
  · intro name
    exact (hmember name).trans Std.TreeMap.getElem?_map
  · have hprojections := hlookup (by decide : "projections" ≠ "operator")
    exact (BTreeMap.lookup_filter_key _ (fun name => decide (name ∉ namedKeys))
      "projections").trans ((if_pos (by decide)).trans hprojections)

/-- The reader accepts the aggregate of validated members, with whatever else
it carries but a projection for each controller. -/
theorem exists_fromValue (hvalid : Validated members) (operator : Option Json)
    {projections : Attrs Json}
    (hshared : projections["byControllerPlatform"]? = none) (os : String) :
    ∃ inventory, Inventory.fromValue
        (aggregate members operator projections) os = .ok inventory ∧
      Mirrors inventory members := by
  obtain ⟨read, hread, hversion, hmembers, hgroups, hprojections⟩ :=
    exists_ofValue_aggregate members operator projections
  have hchecked := check_eq_ok hvalid hmembers hgroups
  have hselect : read.selectController os = .ok none := by
    rw [Aggregate.selectController, hprojections, Option.bind_some, toObject,
      Json.get_object_toList, hshared]
  have hsupported : (Json.int 1).asU64 = some supportedSchemaVersion := by
    decide
  have haccepted : Inventory.fromAggregate read os =
      .ok { aggregate := read, controllerPlatform := none
            checked := hchecked } := by
    rw [Inventory.fromAggregate, hversion, if_neg (not_not.mpr hsupported)]
    split
    · next error herror =>
        rw [hchecked] at herror
        cases herror
    · rw [hselect]
      rfl
  have hgate : ((aggregate members operator projections).get
      "schemaVersion").bind Json.asU64 = some supportedSchemaVersion := by
    rw [aggregate, toObject, Json.get_object_toList,
      getElem?_aggregateFields members operator projections (by decide)]
    exact hsupported
  refine ⟨{ aggregate := read, controllerPlatform := none
            checked := hchecked }, ?_, hmembers, hgroups⟩
  rw [Inventory.fromValue, if_neg (not_not.mpr hgate), hread]
  dsimp only
  rw [haccepted]
  rfl

end Accepted

/-! ## Selecting a group -/

section Selected
variable {members : Hosts} {inventory : Inventory} {group : String}

theorem isGroupChar_of_groupKey (hgroup : group ∈ groupKeys members) :
    ∀ character ∈ group.toList, isGroupChar character := by
  obtain ⟨name, host, -, hin⟩ := mem_groupKeys_iff.mp hgroup
  obtain ⟨facet, -, rfl⟩ := exists_facet hin
  exact isGroupChar_sanitizeGroupName facet

theorem namesWhere_ne_nil (hgroup : group ∈ groupKeys members) :
    namesWhere members (inGroup group) ≠ [] := by
  obtain ⟨name, host, hhost, hin⟩ := mem_groupKeys_iff.mp hgroup
  intro hnil
  have hmem : name ∈ namesWhere members (inGroup group) :=
    mem_namesWhere_iff.mpr ⟨host, hhost, hin⟩
  rw [hnil] at hmem
  cases hmem

theorem resolvePart_group (hmirrors : Mirrors inventory members)
    (hvalid : Validated members) (hgroup : group ∈ groupKeys members) :
    inventory.resolvePart ("@" ++ group) =
      .ok (namesWhere members (inGroup group)) := by
  have hchars : ("@" ++ group).toList = '@' :: group.toList :=
    String.toList_append
  have hkeyword : ¬ ("@" ++ group = "all" ∨ "@" ++ group = "@all") := by
    rintro (hall | hall)
    · rw [hall] at hchars
      exact absurd (List.cons.inj hchars).1 (by decide)
    · have hreserved := not_all_of_group hvalid hgroup
      rw [hall] at hchars
      have hsame : "all".toList = group.toList := (List.cons.inj hchars).2
      rw [eqIgnoreAsciiCase, ← hsame] at hreserved
      cases hreserved
  have hfound : inventory.groups[String.ofList group.toList]? =
      some (namesWhere members (inGroup group)) := by
    rw [String.ofList_toList, hmirrors.sameGroups, getElem?_aggregateGroups,
      if_pos hgroup]
  rw [Inventory.resolvePart, if_neg hkeyword, hchars]
  split
  · next atom heq =>
      cases heq
      rw [hfound]
  · next hother => exact absurd rfl (hother group.toList)

theorem selectPart_group (hmirrors : Mirrors inventory members)
    (hvalid : Validated members) (hgroup : group ∈ groupKeys members) :
    inventory.selectPart .start ("@" ++ group).toList =
      .ok (Chosen.start.add (namesWhere members (inGroup group))) := by
  have hchars : ("@" ++ group).toList = '@' :: group.toList :=
    String.toList_append
  have htrim : trim ("@" ++ group).toList = ("@" ++ group).toList := by
    apply trim_of_not_whiteSpace
    rw [hchars]
    intro character hmem
    rcases List.mem_cons.mp hmem with rfl | hmem
    · decide
    · exact (plain_of_isGroupChar
        (isGroupChar_of_groupKey hgroup character hmem)).1
  rw [Inventory.selectPart, htrim]
  split
  · next hnil =>
      rw [hchars] at hnil
      cases hnil
  · next atom heq =>
      rw [hchars] at heq
      exact absurd (List.cons.inj heq).1 (by decide)
  · rw [String.ofList_toList, resolvePart_group hmirrors hvalid hgroup]
    rfl

/-- Names that are in order are chosen as they are. -/
theorem settle_add (inventory : Inventory) (selector : String)
    {names : List String} (hordered : Ordered names) (hne : names ≠ []) :
    inventory.settle selector (Chosen.start.add names) = .ok names := by
  have hresolved : ((inventory.base (Chosen.start.add names)).filter
      fun name => !(Chosen.start.add names).excluded.contains name).toList =
        names := by
    apply Ordered.eq Std.TreeSet.ordered_toList hordered
    intro name
    have hkept : (Chosen.start.add names).excluded.contains name = false :=
      Std.TreeSet.contains_emptyc
    rw [Std.TreeSet.toList_filter, List.mem_filter, hkept,
      Std.TreeSet.mem_toList, Inventory.base]
    have hincluded : name ∈ (Chosen.start.add names).included ↔
        name ∈ names := by
      rw [Chosen.add, Std.TreeSet.mem_insertMany_list, List.contains_iff_mem]
      exact or_iff_right Std.TreeSet.not_mem_emptyc
    exact (and_iff_left rfl).trans hincluded
  have hsome : names.isEmpty = false := by
    rw [← Bool.not_eq_true, List.isEmpty_iff]
    exact hne
  rw [Inventory.settle]
  dsimp only
  rw [hresolved, hsome]
  rfl

theorem resolve_group (hmirrors : Mirrors inventory members)
    (hvalid : Validated members) (hgroup : group ∈ groupKeys members) :
    inventory.resolve ("@" ++ group) =
      .ok (namesWhere members (inGroup group)) := by
  have hsplit : ("@" ++ group).toList.splitOnP isSeparator =
      [("@" ++ group).toList] := by
    apply List.splitOnP_eq_singleton
    have hchars : ("@" ++ group).toList = '@' :: group.toList :=
      String.toList_append
    rw [hchars]
    intro character hmem
    rcases List.mem_cons.mp hmem with rfl | hmem
    · decide
    · have hmark := (plain_of_isGroupChar
        (isGroupChar_of_groupKey hgroup character hmem)).2
      rw [isSelectorMark, Bool.or_eq_false_iff, Bool.or_eq_false_iff] at hmark
      rw [isSeparator]
      exact hmark.1.1
  have hselected := selectPart_group hmirrors hvalid hgroup
  have hsettled := settle_add inventory ("@" ++ group)
    (ordered_namesWhere members (inGroup group)) (namesWhere_ne_nil hgroup)
  rw [Inventory.resolve, hsplit, List.foldlM_cons, hselected]
  exact hsettled

end Selected

/-! ## The other surfaces -/

/-- Whether a name is that of a member a surface covers. -/
def enabledIn (members : Hosts) (enabled : Host → Bool) (name : String) :
    Bool :=
  members[name]?.any enabled

theorem ordered_filter {names : List String} (hordered : Ordered names)
    (keep : String → Bool) : Ordered (names.filter keep) :=
  List.Pairwise.filter keep hordered

/-- The covered part of a group holds its covered members. -/
theorem mem_enabled_iff {members : Hosts} {group name : String}
    {enabled : Host → Bool} :
    name ∈ (namesWhere members (inGroup group)).filter
        (enabledIn members enabled) ↔
      ∃ host, (filterAttrs (fun _ host => enabled host) members)[name]? =
        some host ∧ inGroup group host := by
  rw [List.mem_filter, mem_namesWhere_iff, getElem?_filterAttrs, enabledIn]
  constructor
  · rintro ⟨⟨host, hhost, hgroup⟩, henabled⟩
    rw [hhost] at henabled ⊢
    exact ⟨host, Option.filter_some_pos henabled, hgroup⟩
  · rintro ⟨host, hfilter, hgroup⟩
    obtain ⟨hhost, henabled⟩ := Option.filter_eq_some_iff.mp hfilter
    refine ⟨⟨host, hhost, hgroup⟩, ?_⟩
    rw [hhost]
    exact henabled

theorem deployBatch_part (members : Hosts) {group : String}
    (hall : group ≠ "all") :
    (deployBatch members)[group]?.getD [] =
      (namesWhere members (inGroup group)).filter
        (enabledIn members (·.deployRs.enable)) := by
  have hsynthetic : (listToAttrs
      [("all", (deployable members).keys)])[group]? = none := by
    rw [getElem?_listToAttrs, List.lookup_cons, beq_eq_false_iff_ne.mpr hall]
    rfl
  have hmembers (group name : String) :
      name ∈ batchMembers members group ↔
        ∃ host, (deployable members)[name]? = some host ∧ inGroup group host :=
    mem_keys_filterAttrs_iff
  rw [deployBatch, Std.TreeMap.getElem?_union, hsynthetic, Option.none_or,
    getD_genAttrs_groupKeys _ hmembers]
  apply Ordered.eq (ordered_keys _) (ordered_filter (ordered_namesWhere _ _) _)
  intro name
  exact (hmembers group name).trans mem_enabled_iff.symm

theorem keys_hostsToNullValues {names : List String} (hordered : Ordered names) :
    (hostsToNullValues names).keys = names := by
  apply Ordered.eq (ordered_keys _) hordered
  intro name
  have hlookup : (hostsToNullValues names)[name]? =
      if name ∈ names then some .null else none :=
    getElem?_genAttrs names (fun _ => Json.null) name
  rw [BTreeMap.mem_keys_iff, hlookup]
  split
  · next hmem => exact iff_of_true (Option.some_ne_none _) hmem
  · next hmem => exact iff_of_false (fun hne => hne rfl) hmem

theorem children_part (options : InventoryOptions) (members : Hosts)
    {group : String} (hguard : options.guardGroup ≠ some group) :
    ((ansibleInventory options members).children[group]?.getD ∅).keys =
      (namesWhere members (inGroup group)).filter
        (enabledIn members (·.ansibleEnable)) := by
  have hsynthetic : (guardChild members options.guardGroup)[group]? = none := by
    cases hname : options.guardGroup with
    | none => exact Std.TreeMap.getElem?_emptyc
    | some guardGroup =>
        have hne : group ≠ guardGroup := by
          rintro rfl
          exact hguard hname
        rw [guardChild, getElem?_listToAttrs, List.lookup_cons,
          beq_eq_false_iff_ne.mpr hne]
        rfl
  have hchild : (ansibleInventory options members).children[group]? =
      if group ∈ groupKeys (ansibleMembers members) then
        some (hostsToNullValues
          (namesWhere (ansibleMembers members) (inGroup group)))
      else none := by
    rw [ansibleInventory, Std.TreeMap.getElem?_union, hsynthetic,
      Option.none_or]
    exact getElem?_genAttrs _ _ _
  have hmembers (name : String) :
      name ∈ namesWhere (ansibleMembers members) (inGroup group) ↔
        name ∈ (namesWhere members (inGroup group)).filter
          (enabledIn members (·.ansibleEnable)) :=
    mem_namesWhere_iff.trans mem_enabled_iff.symm
  have hnames : namesWhere (ansibleMembers members) (inGroup group) =
      (namesWhere members (inGroup group)).filter
        (enabledIn members (·.ansibleEnable)) :=
    Ordered.eq (ordered_namesWhere _ _)
      (ordered_filter (ordered_namesWhere _ _) _) hmembers
  rw [hchild, ← hnames]
  split
  · exact keys_hostsToNullValues (ordered_namesWhere _ _)
  · next hkey =>
      symm
      apply List.eq_nil_iff_forall_not_mem.mpr
      intro name hname
      obtain ⟨host, hhost, hgroup⟩ := mem_namesWhere_iff.mp hname
      exact hkey (mem_groupKeys_iff.mpr ⟨name, host, hhost, hgroup⟩)

theorem children_guard (options : InventoryOptions) (members : Hosts)
    {group : String} (hguard : options.guardGroup = some group) :
    ((ansibleInventory options members).children[group]?.getD ∅).keys =
      namesWhere (ansibleMembers members) (·.deployRs.enable) := by
  have hsynthetic : (guardChild members options.guardGroup)[group]? =
      some (hostsToNullValues
        (namesWhere (ansibleMembers members) (·.deployRs.enable))) := by
    rw [hguard, guardChild, getElem?_listToAttrs, List.lookup_cons,
      beq_self_eq_true]
  rw [ansibleInventory, Std.TreeMap.getElem?_union, hsynthetic, Option.some_or]
  exact keys_hostsToNullValues (ordered_namesWhere _ _)

/-- **One taxonomy.** The reader accepts the aggregate of validated members,
and a group selects there its members in order: those deploy-rs can activate
are the hosts of its batch, and those Ansible manages are the hosts of its
child, unless that is the guard group's. -/
theorem taxonomy_agrees {members : Hosts} (hvalid : Validated members)
    (operator : Option Json) {projections : Attrs Json}
    (hshared : projections["byControllerPlatform"]? = none) (os : String) :
    ∃ inventory, Inventory.fromValue
        (aggregate members operator projections) os = .ok inventory ∧
      ∀ group ∈ groupKeys members, ∃ names,
        inventory.resolve ("@" ++ group) = .ok names ∧
          Ordered names ∧
          (∀ name, name ∈ names ↔ ∃ host, members[name]? = some host ∧
            group ∈ ansibleGroupsFor host) ∧
          (deployBatch members)[group]?.getD [] =
            names.filter (enabledIn members (·.deployRs.enable)) ∧
          ∀ options : InventoryOptions,
            (options.guardGroup ≠ some group →
              ((ansibleInventory options members).children[group]?.getD
                ∅).keys =
                  names.filter (enabledIn members (·.ansibleEnable))) ∧
            (options.guardGroup = some group →
              ((ansibleInventory options members).children[group]?.getD
                ∅).keys =
                  namesWhere (ansibleMembers members) (·.deployRs.enable)) := by
  obtain ⟨inventory, haccepted, hmirrors⟩ :=
    exists_fromValue hvalid operator hshared os
  refine ⟨inventory, haccepted, fun group hgroup => ?_⟩
  have hall : group ≠ "all" := by
    rintro rfl
    have hreserved := not_all_of_group hvalid hgroup
    revert hreserved
    decide
  refine ⟨_, resolve_group hmirrors hvalid hgroup, ordered_namesWhere _ _,
    fun name => ?_, deployBatch_part members hall, fun options =>
      ⟨children_part options members, children_guard options members⟩⟩
  rw [mem_namesWhere_iff]
  exact exists_congr fun host => and_congr_right fun _ => decide_eq_true_iff

/-! ### A facet under the name of the guard group -/

/-- A member of the group `deploy_rs` that deploy-rs cannot activate. -/
def taggedHost : Host :=
  { webHost with
    tags := ["deploy-rs"]
    deployRs := { webHost.deployRs with enable := false } }

def taggedFleet : Hosts := listToAttrs [("web", taggedHost)]

def guardedOptions : InventoryOptions :=
  { extraHostvars := fun _ => ∅
    deploySettings := ∅
    pythonInterpreter := none
    guardGroup := some "deploy_rs" }

theorem validated_taggedFleet : Validated taggedFleet where
  named := by
    intro name host hhost
    cases List.mem_singleton.mp (mem_of_getElem?_listToAttrs hhost)
    rfl
  unreserved := by
    intro name host hhost
    cases List.mem_singleton.mp (mem_of_getElem?_listToAttrs hhost)
    decide +kernel

theorem taxonomy_agrees_tagged :
    ∃ inventory, Inventory.fromValue (aggregate taggedFleet none ∅) "linux" =
        .ok inventory ∧
      ∃ names, inventory.resolve ("@" ++ "nixos") = .ok names ∧
        ((ansibleInventory guardedOptions taggedFleet).children["nixos"]?.getD
          ∅).keys = names.filter
            (enabledIn taggedFleet (·.ansibleEnable)) := by
  obtain ⟨inventory, haccepted, hgroups⟩ :=
    taxonomy_agrees validated_taggedFleet none Std.TreeMap.getElem?_emptyc
      "linux"
  obtain ⟨names, hresolve, -, -, -, hchildren⟩ :=
    hgroups "nixos" (by decide +kernel)
  exact ⟨inventory, haccepted, names, hresolve,
    (hchildren guardedOptions).1 (by decide)⟩

/-- The guard group takes the place of the facet. -/
theorem guardGroup_not_agrees :
    Validated taggedFleet ∧
      ∃ inventory names,
        Inventory.fromValue (aggregate taggedFleet none ∅) "linux" =
          .ok inventory ∧
        inventory.resolve ("@" ++ "deploy_rs") = .ok names ∧
        ((ansibleInventory guardedOptions taggedFleet).children[
          "deploy_rs"]?.getD ∅).keys ≠
            names.filter (enabledIn taggedFleet (·.ansibleEnable)) := by
  obtain ⟨inventory, haccepted, hmirrors⟩ :=
    exists_fromValue validated_taggedFleet none Std.TreeMap.getElem?_emptyc
      "linux"
  have hgroup : "deploy_rs" ∈ groupKeys taggedFleet := by decide +kernel
  refine ⟨validated_taggedFleet, inventory, _, haccepted,
    resolve_group hmirrors validated_taggedFleet hgroup, ?_⟩
  decide +kernel

end Mandala.Fleet
