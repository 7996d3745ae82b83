import Mandala.Fleet.Connection

/-!
# What a layered setting comes to

A scalar of the flattened record comes from the innermost tier that authors it;
what is passed to ssh is collected from all of them.  Only the groups a member
is in matter, and only as a set.
-/

namespace Mandala.Fleet

open Mandala.Data Mandala.Nix Mandala.Ordering

/-- A flattened record for whatever groups a member is said to be in. -/
def flattenedSettings (knownGroups : List String) (deployment : FleetDeployment)
    (controller : Option ControllerSettings) (host : Host)
    (memberGroups : List String) : Except String (Attrs Setting) :=
  (mergeDeploySettings knownGroups
    (deployment.settings.attrs ∪ controllerAttrs controller)
    (deployment.groupSettings.map fun _ settings => settings.attrs)
    memberGroups (memberSettings host)).map (connectionDefaults host ∪ ·)

theorem deploySettingsFor_eq (hosts : Hosts) (deployment : FleetDeployment)
    (controller : Option ControllerSettings) (host : Host) :
    deploySettingsFor hosts deployment controller host =
      flattenedSettings (knownDeploymentGroups hosts) deployment controller
        host (ansibleGroupsFor host) := rfl

/-! ## The tiers of a scalar -/

/-- A value that is not null. -/
def authored (value : Option Setting) : Option Setting :=
  value.filter (· ≠ .null)

/-- The first of several tiers that has a value. -/
def firstAuthored (tiers : List (Option Setting)) : Option Setting :=
  tiers.findSome? authored

/-- The connection a member had before it had deploy settings, where it is not
the default of its schema. -/
def legacyValue (host : Host) (name : String) : Option Setting :=
  if name = "hostname" ∧ host.ssh.host ≠ host.fqdn then
    some (.text host.ssh.host)
  else if name = "sshUser" ∧ host.ssh.user ≠ "root" then
    some (.text host.ssh.user)
  else if name = "sshPort" ∧ host.ssh.port ≠ 22 then
    some (.number host.ssh.port)
  else none

def controllerValue (controller : Option ControllerSettings) (name : String) :
    Option Setting :=
  if name = "identityFile" then
    controller.map fun controller => .text controller.identityFile.path
  else none

def builtInDefaults (host : Host) : List (String × Setting) :=
  [("autoRollback", .flag true), ("fastConnection", .flag true),
    ("hostname", .text host.fqdn), ("sshUser", .text "root"),
    ("sshPort", .number 22)]

/-- The tiers of a scalar, the innermost first; of the groups it is the last. -/
def scalarTiers (deployment : FleetDeployment)
    (controller : Option ControllerSettings) (host : Host)
    (groups : List String) (name : String) : List (Option Setting) :=
  [host.deployRs.attrs[name]?, legacyValue host name] ++
    groups.reverse.map (fun group =>
      (deployment.groupSettings[group]?).bind (·.attrs[name]?)) ++
    [controllerValue controller name, deployment.settings.attrs[name]?,
      (builtInDefaults host).lookup name]

/-- The options of ssh, the innermost first; of the groups it is the first. -/
def sshOptsTiers (deployment : FleetDeployment) (host : Host)
    (groups : List String) : List String :=
  host.deployRs.settings.sshOpts ++
    groups.flatMap (fun group =>
      (deployment.groupSettings[group]?).elim [] DeploySettings.sshOpts) ++
    deployment.settings.sshOpts

/-- The record the tiers come to: `enable` is not a setting of it. -/
structure Layered (deployment : FleetDeployment)
    (controller : Option ControllerSettings) (host : Host)
    (groups : List String) (record : Attrs Setting) : Prop where
  scalar : ∀ name, name ≠ "sshOpts" → name ≠ "enable" →
    record[name]? =
      firstAuthored (scalarTiers deployment controller host groups name)
  enable : record["enable"]? = none
  sshOpts : record["sshOpts"]? =
    if sshOptsTiers deployment host groups = [] then none
    else some (.texts (sshOptsTiers deployment host groups))

/-! ## Lookups in the tiers -/

theorem firstAuthored_nil : firstAuthored [] = none := rfl

theorem firstAuthored_cons (tier : Option Setting)
    (tiers : List (Option Setting)) :
    firstAuthored (tier :: tiers) = (authored tier).or (firstAuthored tiers) := by
  rw [firstAuthored, List.findSome?_cons]
  cases authored tier <;> rfl

theorem firstAuthored_append (outer inner : List (Option Setting)) :
    firstAuthored (outer ++ inner) =
      (firstAuthored outer).or (firstAuthored inner) :=
  List.findSome?_append

theorem authored_or {inner outer : Option Setting}
    (hinner : authored inner = inner) :
    authored (inner.or outer) = inner.or (authored outer) := by
  cases inner with
  | none => rfl
  | some setting => exact hinner

theorem getElem?_presentScalars (set : Attrs Setting) {name : String}
    (hname : name ≠ "sshOpts") :
    (presentScalars set)[name]? = authored set[name]? := by
  rw [presentScalars, getElem?_filterAttrs, getElem?_removeAttrs,
    if_neg (fun hmem => hname (List.mem_singleton.mp hmem))]
  rfl

theorem getElem?_foldl_union (settings : String → Attrs Setting)
    (groups : List String) (scalars : Attrs Setting) (name : String) :
    (groups.foldl (fun scalars group => scalars ∪ settings group)
        scalars)[name]? =
      (groups.reverse.findSome? fun group => (settings group)[name]?).or
        scalars[name]? := by
  induction groups generalizing scalars with
  | nil => rfl
  | cons group groups ih =>
      rw [List.foldl_cons, ih, Std.TreeMap.getElem?_union, List.reverse_cons,
        List.findSome?_append, Option.or_assoc]
      congr 1
      cases hgroup : (settings group)[name]? <;>
        simp [List.findSome?, hgroup]

theorem getElem?_groupScalars (groupSettings : Attrs (Attrs Setting))
    (memberGroups : List String) {name : String} (hname : name ≠ "sshOpts") :
    (groupScalars groupSettings memberGroups)[name]? =
      firstAuthored ((applicableGroups groupSettings memberGroups).reverse.map
        fun group => (settingsOf groupSettings group)[name]?) := by
  have hfold := getElem?_foldl_union
    (fun group => presentScalars (settingsOf groupSettings group))
    (applicableGroups groupSettings memberGroups) ∅ name
  rw [Std.TreeMap.getElem?_emptyc, Option.or_none] at hfold
  refine hfold.trans ?_
  rw [firstAuthored, List.findSome?_map]
  congr 1
  funext group
  exact getElem?_presentScalars _ hname

theorem getElem?_legacyMemberConnection (host : Host) (name : String) :
    (legacyMemberConnection host)[name]? = legacyValue host name := by
  simp only [legacyMemberConnection, Std.TreeMap.getElem?_union,
    getElem?_optionalAttrs, getElem?_listToAttrs, List.lookup_cons,
    List.lookup_nil, legacyValue]
  by_cases hhost : name = "hostname"
  · subst hhost
    by_cases hdiffers : host.ssh.host = host.fqdn <;> simp [hdiffers]
  · by_cases huser : name = "sshUser"
    · subst huser
      by_cases hdiffers : host.ssh.user = "root" <;> simp [hdiffers]
    · by_cases hport : name = "sshPort"
      · subst hport
        by_cases hdiffers : host.ssh.port = 22 <;> simp [hdiffers]
      · simp [hhost, huser, hport, beq_false_of_ne]

theorem getElem?_controllerAttrs (controller : Option ControllerSettings)
    (name : String) :
    (controllerAttrs controller)[name]? = controllerValue controller name := by
  cases controller with
  | none =>
      rw [controllerAttrs, Std.TreeMap.getElem?_emptyc, controllerValue]
      split <;> rfl
  | some controller =>
      rw [controllerAttrs, getElem?_listToAttrs, List.lookup_cons,
        controllerValue]
      by_cases hname : name = "identityFile"
      · subst hname
        rfl
      · simp [hname, beq_false_of_ne]

theorem authored_controllerValue (controller : Option ControllerSettings)
    (name : String) : authored (controllerValue controller name) =
      controllerValue controller name := by
  rw [controllerValue]
  split
  · cases controller <;> rfl
  · rfl

theorem authored_legacyValue (host : Host) (name : String) :
    authored (legacyValue host name) = legacyValue host name := by
  rw [legacyValue]
  split
  · rfl
  · split
    · rfl
    · split <;> rfl

theorem legacyValue_eq_none (host : Host) {name : String}
    (hname : name ∉ ["hostname", "sshUser", "sshPort"]) :
    legacyValue host name = none := by
  simp only [List.mem_cons, List.not_mem_nil, or_false, not_or] at hname
  simp [legacyValue, hname]

/-- A member says nothing of its activation here, and is not asked whether
deployment is enabled. -/
theorem getElem?_memberSettings (host : Host) {name : String}
    (hname : name ≠ "sshOpts") :
    (memberSettings host)[name]? =
      if name ∈ ["activation", "enable"] then none
      else (authored host.deployRs.attrs[name]?).or (legacyValue host name) := by
  have hopts : (name == "sshOpts") = false := beq_false_of_ne hname
  rw [memberSettings, Std.TreeMap.getElem?_union, Std.TreeMap.getElem?_union,
    getElem?_listToAttrs, List.lookup_cons, hopts, List.lookup_nil,
    Option.none_or, getElem?_filterAttrs, getElem?_removeAttrs,
    getElem?_legacyMemberConnection]
  split
  · next hmem =>
      have hlegacy : legacyValue host name = none := by
        apply legacyValue_eq_none
        simp only [List.mem_cons, List.not_mem_nil, or_false] at hmem
        rcases hmem with rfl | rfl <;> decide
      rw [hlegacy]
      rfl
  · rfl

theorem getElem?_attrs_sshOpts (settings : DeploySettings) :
    settings.attrs["sshOpts"]? = some (.texts settings.sshOpts) := by
  rw [DeploySettings.attrs, getElem?_listToAttrs]
  rfl

theorem getElem?_attrs_eq_none (settings : DeploySettings) {name : String}
    (hname : name ∈ ["activation", "enable"]) :
    settings.attrs[name]? = none := by
  rw [DeploySettings.attrs, getElem?_listToAttrs]
  simp only [List.mem_cons, List.not_mem_nil, or_false] at hname
  rcases hname with rfl | rfl <;> rfl

theorem getElem?_deployRs_activation (deployRs : DeployRs) :
    deployRs.attrs["activation"]? = some (.text deployRs.activation.name) := by
  rw [DeployRs.attrs, getElem?_listToAttrs]
  rfl

section Record
variable (deployment : FleetDeployment) (controller : Option ControllerSettings)
  (host : Host)

def groupAttrs : Attrs (Attrs Setting) :=
  deployment.groupSettings.map fun _ settings => settings.attrs

def fleetAttrs : Attrs Setting :=
  deployment.settings.attrs ∪ controllerAttrs controller

theorem settingsOf_groupAttrs (group : String) :
    settingsOf (groupAttrs deployment) group =
      (deployment.groupSettings[group]?).elim ∅ DeploySettings.attrs := by
  rw [settingsOf, Std.TreeMap.getD_eq_getD_getElem?, groupAttrs,
    Std.TreeMap.getElem?_map]
  cases deployment.groupSettings[group]? <;> rfl

theorem getElem?_settingsOf_groupAttrs (group name : String) :
    (settingsOf (groupAttrs deployment) group)[name]? =
      (deployment.groupSettings[group]?).bind (·.attrs[name]?) := by
  rw [settingsOf_groupAttrs]
  cases deployment.groupSettings[group]? with
  | none => exact Std.TreeMap.getElem?_emptyc
  | some settings => rfl

theorem sshOptsOf_attrs (settings : DeploySettings) :
    sshOptsOf settings.attrs = settings.sshOpts := by
  rw [sshOptsOf, getElem?_attrs_sshOpts]

theorem sshOptsOf_group (group : String) :
    sshOptsOf (settingsOf (groupAttrs deployment) group) =
      (deployment.groupSettings[group]?).elim [] DeploySettings.sshOpts := by
  rw [settingsOf_groupAttrs]
  cases deployment.groupSettings[group]? with
  | none =>
      have hnone : (∅ : Attrs Setting)["sshOpts"]? = none :=
        Std.TreeMap.getElem?_emptyc
      change sshOptsOf ∅ = []
      rw [sshOptsOf, hnone]
  | some settings => exact sshOptsOf_attrs settings

theorem sshOptsOf_fleet :
    sshOptsOf (fleetAttrs deployment controller) =
      deployment.settings.sshOpts := by
  have hlookup : (fleetAttrs deployment controller)["sshOpts"]? =
      some (.texts deployment.settings.sshOpts) := by
    rw [fleetAttrs, Std.TreeMap.getElem?_union, getElem?_controllerAttrs,
      getElem?_attrs_sshOpts]
    rfl
  rw [sshOptsOf, hlookup]

theorem sshOptsOf_member :
    sshOptsOf (memberSettings host) = host.deployRs.settings.sshOpts := by
  have hlookup : (memberSettings host)["sshOpts"]? =
      some (.texts host.deployRs.settings.sshOpts) := by
    rw [memberSettings, Std.TreeMap.getElem?_union, getElem?_listToAttrs]
    rfl
  rw [sshOptsOf, hlookup]

/-- The settings a member's groups have, where they have any. -/
def applicable (memberGroups : List String) : List String :=
  applicableGroups (groupAttrs deployment) memberGroups

theorem mergedSshOpts_eq (memberGroups : List String) :
    mergedSshOpts (fleetAttrs deployment controller) (groupAttrs deployment)
        memberGroups (memberSettings host) =
      sshOptsTiers deployment host (applicable deployment memberGroups) := by
  rw [mergedSshOpts, sshOptsTiers, sshOptsOf_member, sshOptsOf_fleet,
    applicable]
  congr 2
  apply List.flatMap_congr
  intro group _
  exact sshOptsOf_group deployment group

theorem getElem?_fleetAttrs {name : String} (hname : name ≠ "sshOpts") :
    (presentScalars (fleetAttrs deployment controller))[name]? =
      firstAuthored [controllerValue controller name,
        deployment.settings.attrs[name]?] := by
  rw [getElem?_presentScalars _ hname, fleetAttrs, Std.TreeMap.getElem?_union,
    getElem?_controllerAttrs, authored_or (authored_controllerValue _ _),
    firstAuthored_cons, authored_controllerValue, firstAuthored_cons,
    firstAuthored_nil, Option.or_none]

/-- What the merge makes of a scalar, before the defaults of a connection. -/
theorem getElem?_effectiveScalars (memberGroups : List String) {name : String}
    (hname : name ≠ "sshOpts") :
    (effectiveScalars (fleetAttrs deployment controller)
        (groupAttrs deployment) memberGroups (memberSettings host))[name]? =
      (authored (memberSettings host)[name]?).or
        ((firstAuthored ((applicable deployment memberGroups).reverse.map
            fun group =>
              (deployment.groupSettings[group]?).bind (·.attrs[name]?))).or
          ((firstAuthored [controllerValue controller name,
              deployment.settings.attrs[name]?]).or
            ([("autoRollback", Setting.flag true),
              ("fastConnection", Setting.flag true)].lookup name))) := by
  unfold applicable
  rewrite [effectiveScalars, Std.TreeMap.getElem?_union, recursiveUpdate,
    Std.TreeMap.getElem?_union, recursiveUpdate, Std.TreeMap.getElem?_union,
    getElem?_presentScalars _ hname, getElem?_groupScalars _ _ hname,
    getElem?_fleetAttrs _ _ hname, getElem?_listToAttrs, Option.or_assoc,
    Option.or_assoc]
  simp only [getElem?_settingsOf_groupAttrs]

end Record

/-! ## The record -/

section Layers
variable {knownGroups : List String} {deployment : FleetDeployment}
  {controller : Option ControllerSettings} {host : Host}
  {memberGroups : List String} {record : Attrs Setting}

theorem flattenedSettings_eq :
    flattenedSettings knownGroups deployment controller host memberGroups =
      if (groupAttrs deployment).keys.filter (· ∉ knownGroups) ≠ [] then
        .error ("mandala deploy settings: unknown groupSettings keys: " ++
          ", ".intercalate
            ((groupAttrs deployment).keys.filter (· ∉ knownGroups)))
      else
        .ok (connectionDefaults host ∪
          (effectiveScalars (fleetAttrs deployment controller)
              (groupAttrs deployment) memberGroups (memberSettings host) ∪
            optionalAttrs
              (sshOptsTiers deployment host
                (applicable deployment memberGroups) ≠ [])
              (listToAttrs [("sshOpts", .texts (sshOptsTiers deployment host
                (applicable deployment memberGroups)))]))) := by
  rw [← mergedSshOpts_eq]
  exact apply_ite (Except.map _) _ _ _

theorem unknownGroups_eq_nil_iff :
    (groupAttrs deployment).keys.filter (· ∉ knownGroups) = [] ↔
      ∀ name ∈ deployment.groupSettings, name ∈ knownGroups := by
  rw [List.filter_eq_nil_iff]
  simp only [decide_not, Bool.not_eq_true', decide_eq_false_iff_not,
    not_not, Std.TreeMap.mem_keys, groupAttrs, Std.TreeMap.mem_map]

theorem firstAuthored_eq_none {tiers : List (Option Setting)}
    (htiers : ∀ tier ∈ tiers, tier = none) : firstAuthored tiers = none := by
  rw [firstAuthored, List.findSome?_eq_none_iff]
  intro tier htier
  rw [htiers tier htier]
  rfl

theorem effectiveScalars_eq_none {name : String}
    (hname : name ∈ ["activation", "enable"]) :
    (effectiveScalars (fleetAttrs deployment controller)
      (groupAttrs deployment) memberGroups (memberSettings host))[name]? =
        none := by
  have hcases : name = "activation" ∨ name = "enable" := by
    simpa using hname
  have hopts : name ≠ "sshOpts" := by
    rcases hcases with rfl | rfl <;> decide
  have hcontroller : controllerValue controller name = none := by
    rw [controllerValue, if_neg]
    rcases hcases with rfl | rfl <;> decide
  have hlookup : [("autoRollback", Setting.flag true),
      ("fastConnection", Setting.flag true)].lookup name = none := by
    rcases hcases with rfl | rfl <;> rfl
  have hgroups (group : String) :
      (deployment.groupSettings[group]?).bind (·.attrs[name]?) = none := by
    cases deployment.groupSettings[group]? with
    | none => rfl
    | some settings => exact getElem?_attrs_eq_none settings hname
  rw [getElem?_effectiveScalars _ _ _ _ hopts, getElem?_memberSettings _ hopts,
    if_pos hname, hcontroller, hlookup, getElem?_attrs_eq_none _ hname]
  have hnone : firstAuthored ((applicable deployment memberGroups).reverse.map
      fun group =>
        (deployment.groupSettings[group]?).bind (·.attrs[name]?)) = none := by
    apply firstAuthored_eq_none
    intro tier htier
    obtain ⟨group, -, rfl⟩ := List.mem_map.mp htier
    exact hgroups group
  rw [hnone]
  rfl

theorem effectiveScalars_sshOpts (fleet member : Attrs Setting)
    (groupSettings : Attrs (Attrs Setting)) :
    (effectiveScalars fleet groupSettings memberGroups member)["sshOpts"]? =
      none := by
  have hscalars (set : Attrs Setting) :
      (presentScalars set)["sshOpts"]? = none := by
    rw [presentScalars, getElem?_filterAttrs, getElem?_removeAttrs,
      if_pos (List.mem_singleton.mpr rfl)]
    rfl
  have hgroups :
      (groupScalars groupSettings memberGroups)["sshOpts"]? = none := by
    have hfold := getElem?_foldl_union
      (fun group => presentScalars (settingsOf groupSettings group))
      (applicableGroups groupSettings memberGroups) ∅ "sshOpts"
    rw [Std.TreeMap.getElem?_emptyc, Option.or_none] at hfold
    refine hfold.trans (List.findSome?_eq_none_iff.mpr ?_)
    exact fun group _ => hscalars _
  rw [effectiveScalars, Std.TreeMap.getElem?_union, recursiveUpdate,
    Std.TreeMap.getElem?_union, recursiveUpdate, Std.TreeMap.getElem?_union,
    hscalars, hscalars, hgroups, getElem?_listToAttrs]
  rfl

theorem authored_authored (value : Option Setting) :
    authored (authored value) = authored value := by
  rw [authored, authored, Option.filter_filter]
  simp only [Bool.and_self]

theorem lookup_defaults (host : Host) {name : String}
    (hname : name ≠ "activation") :
    ([("autoRollback", Setting.flag true),
        ("fastConnection", Setting.flag true)].lookup name).or
      (connectionDefaults host)[name]? =
        firstAuthored [(builtInDefaults host).lookup name] := by
  have hbuiltIn : firstAuthored [(builtInDefaults host).lookup name] =
      (builtInDefaults host).lookup name := by
    rw [firstAuthored_cons, firstAuthored_nil, Option.or_none]
    simp only [builtInDefaults, List.lookup_cons, List.lookup_nil]
    repeat' split
    all_goals rfl
  have hbeq : (name == "activation") = false := beq_false_of_ne hname
  have hrest : (connectionDefaults host)[name]? =
      [("hostname", Setting.text host.fqdn), ("sshUser", .text "root"),
        ("sshPort", .number 22)].lookup name := by
    rw [connectionDefaults, getElem?_listToAttrs, List.lookup_cons, hbeq]
  rw [hbuiltIn, hrest]
  exact (List.lookup_append).symm

/-- Every field of a record that is made is accounted for. -/
theorem layered_record
    (hrecord : record = connectionDefaults host ∪
      (effectiveScalars (fleetAttrs deployment controller)
          (groupAttrs deployment) memberGroups (memberSettings host) ∪
        optionalAttrs
          (sshOptsTiers deployment host (applicable deployment memberGroups) ≠ [])
          (listToAttrs [("sshOpts", .texts (sshOptsTiers deployment host
            (applicable deployment memberGroups)))]))) :
    Layered deployment controller host (applicable deployment memberGroups)
      record := by
  have hlookup (name : String) (hname : name ≠ "sshOpts") :
      record[name]? =
        (effectiveScalars (fleetAttrs deployment controller)
          (groupAttrs deployment) memberGroups (memberSettings host))[name]?.or
        (connectionDefaults host)[name]? := by
    have hopts : (name == "sshOpts") = false := beq_false_of_ne hname
    rw [hrecord, Std.TreeMap.getElem?_union, Std.TreeMap.getElem?_union,
      getElem?_optionalAttrs, getElem?_listToAttrs, List.lookup_cons, hopts,
      List.lookup_nil, ite_self, Option.none_or]
  constructor
  · intro name hopts henable
    rw [hlookup name hopts]
    by_cases hactivation : name = "activation"
    · subst hactivation
      rw [effectiveScalars_eq_none List.mem_cons_self, Option.none_or,
        connectionDefaults, getElem?_listToAttrs, scalarTiers,
        getElem?_deployRs_activation]
      rfl
    · have hnot : name ∉ ["activation", "enable"] := by
        simp [hactivation, henable]
      rw [getElem?_effectiveScalars _ _ _ _ hopts,
        getElem?_memberSettings _ hopts, if_neg hnot,
        authored_or (authored_authored _), authored_legacyValue]
      simp only [Option.or_assoc]
      rw [lookup_defaults host hactivation]
      simp only [scalarTiers, firstAuthored_append, firstAuthored_cons,
        firstAuthored_nil, authored_legacyValue, Option.or_assoc,
        Option.or_none]
  · rw [hlookup "enable" (by decide), effectiveScalars_eq_none (by simp),
      connectionDefaults, getElem?_listToAttrs]
    rfl
  · rw [hrecord, Std.TreeMap.getElem?_union, Std.TreeMap.getElem?_union,
      getElem?_optionalAttrs, getElem?_listToAttrs, effectiveScalars_sshOpts]
    by_cases hnil : sshOptsTiers deployment host
        (applicable deployment memberGroups) = []
    · rw [if_pos hnil, if_neg (by simp [hnil]), connectionDefaults,
        getElem?_listToAttrs]
      rfl
    · rw [if_neg hnil, if_pos (by simp [hnil])]
      rfl

/-! ## What the record depends on -/

theorem pairwise_applicable :
    (applicable deployment memberGroups).Pairwise (· < ·) :=
  (pairwise_sortNames (nodup_unique _)).filter _

theorem mem_applicable {group : String} :
    group ∈ applicable deployment memberGroups ↔
      group ∈ memberGroups ∧ group ∈ deployment.groupSettings := by
  rw [applicable, applicableGroups, List.mem_filter, mem_sortNames, mem_unique,
    groupAttrs, Std.TreeMap.getElem?_map, Option.isSome_map,
    Std.TreeMap.mem_iff_isSome_getElem?]

theorem flattenedSettings_congr {others : List String}
    (hmem : ∀ group, group ∈ memberGroups ↔ group ∈ others) :
    flattenedSettings knownGroups deployment controller host memberGroups =
      flattenedSettings knownGroups deployment controller host others := by
  have happlicable (settings : Attrs (Attrs Setting)) :
      applicableGroups settings memberGroups =
        applicableGroups settings others := by
    rw [applicableGroups, applicableGroups, sortNames_unique_congr hmem]
  rw [flattenedSettings_eq, flattenedSettings_eq, effectiveScalars,
    effectiveScalars, groupScalars, groupScalars, applicable, applicable,
    happlicable]

/-- The settings of the groups a member is not in are not read. -/
theorem record_of_sameGroups {other : FleetDeployment}
    {otherRecord : Attrs Setting}
    (hsettings : other.settings = deployment.settings)
    (hgroups : ∀ group ∈ memberGroups,
      other.groupSettings[group]? = deployment.groupSettings[group]?)
    (hrecord : flattenedSettings knownGroups deployment controller host
      memberGroups = .ok record)
    (hother : flattenedSettings knownGroups other controller host
      memberGroups = .ok otherRecord) : otherRecord = record := by
  have happlicable : applicable other memberGroups =
      applicable deployment memberGroups := by
    rw [applicable, applicable, applicableGroups, applicableGroups]
    apply List.filter_congr
    intro group hmem
    rw [mem_sortNames, mem_unique] at hmem
    rw [groupAttrs, groupAttrs, Std.TreeMap.getElem?_map,
      Std.TreeMap.getElem?_map, hgroups group hmem]
  have hsame {group : String} (hmem : group ∈ applicable deployment memberGroups) :
      other.groupSettings[group]? = deployment.groupSettings[group]? :=
    hgroups group (mem_applicable.mp hmem).1
  have hscalars : groupScalars (groupAttrs other) memberGroups =
      groupScalars (groupAttrs deployment) memberGroups := by
    change List.foldl _ _ (applicable other memberGroups) =
      List.foldl _ _ (applicable deployment memberGroups)
    rw [happlicable]
    apply List.foldl_ext
    intro scalars group hmem
    rw [settingsOf_groupAttrs, settingsOf_groupAttrs, hsame hmem]
  have hopts : sshOptsTiers other host (applicable other memberGroups) =
      sshOptsTiers deployment host (applicable deployment memberGroups) := by
    rw [sshOptsTiers, sshOptsTiers, hsettings, happlicable]
    congr 2
    apply List.flatMap_congr
    intro group hmem
    rw [hsame hmem]
  rw [flattenedSettings_eq] at hrecord hother
  split at hrecord
  · cases hrecord
  · split at hother
    · cases hother
    · cases hrecord
      cases hother
      rw [effectiveScalars, effectiveScalars, hscalars, hopts, fleetAttrs,
        fleetAttrs, hsettings]

end Layers

/-- Whatever the tiers author and whatever groups a member is said to be in, a
record that is made is layered over the member's groups in ascending order; the
list of groups counts as a set, the settings of other groups do not count, and
no record is made exactly when some group that has settings is not known. -/
theorem flattenedSettings_layered (knownGroups : List String)
    (deployment : FleetDeployment) (controller : Option ControllerSettings)
    (host : Host) :
    (∀ memberGroups record,
      flattenedSettings knownGroups deployment controller host memberGroups =
        .ok record →
      ∃ groups : List String, groups.Pairwise (· < ·) ∧
        (∀ group, group ∈ groups ↔
          group ∈ memberGroups ∧ group ∈ deployment.groupSettings) ∧
        Layered deployment controller host groups record) ∧
    (∀ memberGroups, (∃ message,
      flattenedSettings knownGroups deployment controller host memberGroups =
        .error message) ↔
      ∃ group ∈ deployment.groupSettings, group ∉ knownGroups) ∧
    (∀ memberGroups others : List String,
      (∀ group, group ∈ memberGroups ↔ group ∈ others) →
      flattenedSettings knownGroups deployment controller host memberGroups =
        flattenedSettings knownGroups deployment controller host others) ∧
    (∀ (memberGroups : List String) (other : FleetDeployment)
      (record otherRecord : Attrs Setting),
      other.settings = deployment.settings →
      (∀ group ∈ memberGroups,
        other.groupSettings[group]? = deployment.groupSettings[group]?) →
      flattenedSettings knownGroups deployment controller host memberGroups =
        .ok record →
      flattenedSettings knownGroups other controller host memberGroups =
        .ok otherRecord → otherRecord = record) ∧
    ∀ hosts, deploySettingsFor hosts deployment controller host =
      flattenedSettings (knownDeploymentGroups hosts) deployment controller
        host (ansibleGroupsFor host) := by
  refine ⟨?_, ?_, fun _ _ => flattenedSettings_congr,
    fun _ _ _ _ => record_of_sameGroups,
    fun hosts => deploySettingsFor_eq hosts deployment controller host⟩
  · intro memberGroups record hrecord
    refine ⟨applicable deployment memberGroups, pairwise_applicable,
      fun _ => mem_applicable, ?_⟩
    rw [flattenedSettings_eq] at hrecord
    split at hrecord
    · cases hrecord
    · cases hrecord
      exact layered_record rfl
  · intro memberGroups
    have hunknown := @unknownGroups_eq_nil_iff knownGroups deployment
    rw [flattenedSettings_eq]
    by_cases hnil : (groupAttrs deployment).keys.filter (· ∉ knownGroups) = []
    · rw [if_neg (not_not.mpr hnil)]
      constructor
      · rintro ⟨message, ⟨⟩⟩
      · rintro ⟨group, hgroup, hnot⟩
        exact absurd (hunknown.mp hnil group hgroup) hnot
    · rw [if_pos hnil]
      refine ⟨fun _ => ?_, fun _ => ⟨_, rfl⟩⟩
      rw [hunknown] at hnil
      push Not at hnil
      exact hnil

def edgeDeployment : FleetDeployment :=
  { plainDeployment with
    groupSettings :=
      listToAttrs [("edge", { DeploySettings.unset with user := some "edge" })] }

theorem flattenedSettings_layered_web :
    ∃ record groups,
      flattenedSettings ["edge"] edgeDeployment none webHost ["edge", "edge"] =
        .ok record ∧
      flattenedSettings ["edge"] edgeDeployment none webHost ["edge"] =
        .ok record ∧
      (∀ group, group ∈ groups ↔
        group ∈ ["edge", "edge"] ∧ group ∈ edgeDeployment.groupSettings) ∧
      Layered edgeDeployment none webHost groups record := by
  obtain ⟨hlayered, -, hcongr, -⟩ :=
    flattenedSettings_layered ["edge"] edgeDeployment none webHost
  have hknown :
      (groupAttrs edgeDeployment).keys.filter (· ∉ ["edge"]) = [] := by
    decide +kernel
  obtain ⟨record, hrecord⟩ : ∃ record, flattenedSettings ["edge"] edgeDeployment
      none webHost ["edge", "edge"] = .ok record := by
    rw [flattenedSettings_eq, if_neg (not_not.mpr hknown)]
    exact ⟨_, rfl⟩
  obtain ⟨groups, -, hgroups, hlayers⟩ := hlayered _ record hrecord
  have hsame : ∀ group, group ∈ ["edge", "edge"] ↔ group ∈ ["edge"] := by simp
  exact ⟨record, groups, hrecord, hcongr _ _ hsame ▸ hrecord, hgroups, hlayers⟩

end Mandala.Fleet
