import Mandala.Fleet.Host

/-!
# Flattened deploy settings

Fleet, group and member settings are merged once, the inner tier winning, and
laid over the defaults of a connection.  Whatever tiers author what, the record
that comes out has every required field and each field has its type.
-/

namespace Mandala.Fleet

open Mandala.Data Mandala.Nix Mandala.Ordering

/-! ## The merge -/

/-- No setting is an attribute set, so there is nothing to recurse into. -/
def recursiveUpdate (left right : Attrs Setting) : Attrs Setting := left ∪ right

def presentScalars (set : Attrs Setting) : Attrs Setting :=
  filterAttrs (fun _ setting => setting ≠ .null) (removeAttrs set ["sshOpts"])

def sshOptsOf (set : Attrs Setting) : List String :=
  match set["sshOpts"]? with
  | some (.texts sshOpts) => sshOpts
  | _ => []

section Merge
variable (knownGroups : List String) (fleet : Attrs Setting)
  (groupSettings : Attrs (Attrs Setting)) (memberGroups : List String)
  (member : Attrs Setting)

def applicableGroups : List String :=
  (sortNames (unique memberGroups)).filter (groupSettings[·]?.isSome)

def settingsOf (name : String) : Attrs Setting := groupSettings.getD name ∅

def groupScalars : Attrs Setting :=
  (applicableGroups groupSettings memberGroups).foldl
    (fun scalars name =>
      recursiveUpdate scalars (presentScalars (settingsOf groupSettings name)))
    ∅

def effectiveScalars : Attrs Setting :=
  listToAttrs [("autoRollback", .flag true), ("fastConnection", .flag true)] ∪
    recursiveUpdate
      (recursiveUpdate (presentScalars fleet)
        (groupScalars groupSettings memberGroups))
      (presentScalars member)

def mergedSshOpts : List String :=
  sshOptsOf member ++
    (applicableGroups groupSettings memberGroups).flatMap
      (fun name => sshOptsOf (settingsOf groupSettings name)) ++
    sshOptsOf fleet

def mergeDeploySettings : Except String (Attrs Setting) :=
  let unknownGroups := groupSettings.keys.filter (· ∉ knownGroups)
  if unknownGroups ≠ [] then
    .error ("mandala deploy settings: unknown groupSettings keys: " ++
      ", ".intercalate unknownGroups)
  else
    let sshOpts := mergedSshOpts fleet groupSettings memberGroups member
    .ok (effectiveScalars fleet groupSettings memberGroups member ∪
      optionalAttrs (sshOpts ≠ []) (listToAttrs [("sshOpts", .texts sshOpts)]))

end Merge

/-! ## The tiers of a fleet -/

structure ControllerSettings where
  identityFile : AbsolutePath

/-- `mandala.deployment`. -/
structure FleetDeployment where
  settings : DeploySettings
  groupSettings : Attrs DeploySettings
  controllerSettings : Attrs ControllerSettings

def knownDeploymentGroups (hosts : Hosts) : List String :=
  unique (hosts.values.flatMap ansibleGroupsFor)

/-- The controller a record is flattened for, if it is for one of them. -/
def controllerAttrs (controller : Option ControllerSettings) : Attrs Setting :=
  match controller with
  | some controller =>
      listToAttrs [("identityFile", .text controller.identityFile.path)]
  | none => ∅

/-- The defaults of the schema are not authored overrides. -/
def legacyMemberConnection (host : Host) : Attrs Setting :=
  optionalAttrs (host.ssh.host ≠ host.fqdn)
      (listToAttrs [("hostname", .text host.ssh.host)]) ∪
    optionalAttrs (host.ssh.user ≠ "root")
      (listToAttrs [("sshUser", .text host.ssh.user)]) ∪
    optionalAttrs (host.ssh.port ≠ 22)
      (listToAttrs [("sshPort", .number host.ssh.port)])

def memberSettings (host : Host) : Attrs Setting :=
  legacyMemberConnection host ∪
    filterAttrs (fun _ setting => setting ≠ .null)
      (removeAttrs host.deployRs.attrs ["activation", "enable"]) ∪
    listToAttrs [("sshOpts", .texts host.deployRs.settings.sshOpts)]

def connectionDefaults (host : Host) : Attrs Setting :=
  listToAttrs
    [("activation", .text host.deployRs.activation.name),
      ("hostname", .text host.fqdn), ("sshUser", .text "root"),
      ("sshPort", .number 22)]

def deploySettingsFor (hosts : Hosts) (deployment : FleetDeployment)
    (controller : Option ControllerSettings) (host : Host) :
    Except String (Attrs Setting) :=
  (mergeDeploySettings (knownDeploymentGroups hosts)
    (deployment.settings.attrs ∪ controllerAttrs controller)
    (deployment.groupSettings.map fun _ settings => settings.attrs)
    (ansibleGroupsFor host) (memberSettings host)).map
      (connectionDefaults host ∪ ·)

/-! ## Types of fields -/

/-- The types a scalar setting can have. -/
inductive Kind where
  | text
  | number
  | flag

def Kind.Admits : Kind → Setting → Prop
  | text, .text _ => True
  | number, .number _ => True
  | flag, .flag _ => True
  | _, _ => False

def scalarKinds : List (String × Kind) :=
  [("hostname", .text), ("sshUser", .text), ("sshPort", .number),
    ("identityFile", .text), ("autoRollback", .flag),
    ("fastConnection", .flag), ("magicRollback", .flag),
    ("confirmTimeout", .number), ("activationTimeout", .number),
    ("tempPath", .text), ("sudo", .text), ("user", .text)]

/-- A scalar setting under its own name, with a value of its type. -/
def Scalar (name : String) (setting : Setting) : Prop :=
  ∃ kind, scalarKinds.lookup name = some kind ∧ kind.Admits setting

def Scalars (set : Attrs Setting) : Prop :=
  ∀ name setting, set[name]? = some setting → Scalar name setting

/-- What a tier can author. -/
def Authored (name : String) (setting : Setting) : Prop :=
  setting = .null ∨ name = "sshOpts" ∨ Scalar name setting

def Tier (set : Attrs Setting) : Prop :=
  ∀ name setting, set[name]? = some setting → Authored name setting

def Tiers (groupSettings : Attrs (Attrs Setting)) : Prop :=
  ∀ (name : String) (set : Attrs Setting),
    groupSettings[name]? = some set → Tier set

theorem Authored.ofOption {A : Type} {kind : A → Setting} {name : String}
    (hscalar : ∀ value, Scalar name (kind value)) (value : Option A) :
    Authored name (.ofOption kind value) := by
  cases value with
  | none => exact .inl rfl
  | some value => exact .inr (.inr (hscalar value))

theorem scalar_text {name : String}
    (hkind : scalarKinds.lookup name = some .text) (value : String) :
    Scalar name (.text value) :=
  ⟨.text, hkind, trivial⟩

theorem scalar_number {name : String}
    (hkind : scalarKinds.lookup name = some .number) (value : UInt16) :
    Scalar name (.number value) :=
  ⟨.number, hkind, trivial⟩

theorem scalar_flag {name : String}
    (hkind : scalarKinds.lookup name = some .flag) (value : Bool) :
    Scalar name (.flag value) :=
  ⟨.flag, hkind, trivial⟩

theorem authored_fields (settings : DeploySettings) :
    ∀ field ∈ settings.fields, Authored field.1 field.2 := by
  simp only [DeploySettings.fields, List.forall_mem_cons]
  refine ⟨.ofOption (scalar_text rfl) _, .ofOption (scalar_text rfl) _,
    .ofOption (scalar_number rfl) _, .ofOption (scalar_text rfl) _,
    .ofOption (scalar_flag rfl) _, .ofOption (scalar_flag rfl) _,
    .ofOption (scalar_flag rfl) _, .ofOption (scalar_number rfl) _,
    .ofOption (scalar_number rfl) _, .ofOption (scalar_text rfl) _,
    .ofOption (scalar_text rfl) _, .ofOption (scalar_text rfl) _,
    .inr (.inl rfl), ?_⟩
  intro field hfield
  cases hfield

namespace Tier

theorem union {left right : Attrs Setting} (hleft : Tier left)
    (hright : Tier right) : Tier (left ∪ right) :=
  forall_union hleft hright

theorem empty : Tier ∅ := by
  intro name setting hfound
  rw [Std.TreeMap.getElem?_emptyc] at hfound
  cases hfound

theorem listToAttrs {fields : List (String × Setting)}
    (hfields : ∀ field ∈ fields, Authored field.1 field.2) :
    Tier (Nix.listToAttrs fields) := by
  intro name setting hfound
  exact hfields _ (mem_of_getElem?_listToAttrs hfound)

theorem single {name : String} {setting : Setting}
    (hauthored : Authored name setting) :
    Tier (Nix.listToAttrs [(name, setting)]) := by
  apply listToAttrs
  intro field hfield
  rw [List.mem_singleton.mp hfield]
  exact hauthored

theorem optionalAttrs {condition : Bool} {set : Attrs Setting}
    (htier : Tier set) : Tier (Nix.optionalAttrs condition set) := by
  cases condition with
  | true => exact htier
  | false => exact empty

theorem filterAttrs {keep : String → Setting → Bool} {set : Attrs Setting}
    (htier : Tier set) : Tier (Nix.filterAttrs keep set) := by
  intro name setting hfound
  rw [getElem?_filterAttrs] at hfound
  exact htier name setting (Option.filter_eq_some_iff.mp hfound).1

theorem deploySettings (settings : DeploySettings) : Tier settings.attrs :=
  listToAttrs (authored_fields settings)

theorem controllerAttrs (controller : Option ControllerSettings) :
    Tier (Fleet.controllerAttrs controller) := by
  cases controller with
  | none => exact empty
  | some controller => exact single (.inr (.inr (scalar_text rfl _)))

theorem memberSettings (host : Host) : Tier (Fleet.memberSettings host) := by
  have hlegacy : Tier (legacyMemberConnection host) := by
    apply union
    · apply union
      · exact optionalAttrs (single (.inr (.inr (scalar_text rfl _))))
      · exact optionalAttrs (single (.inr (.inr (scalar_text rfl _))))
    · exact optionalAttrs (single (.inr (.inr (scalar_number rfl _))))
  have hauthored :
      Tier (removeAttrs host.deployRs.attrs ["activation", "enable"]) := by
    intro name setting hfound
    rw [getElem?_removeAttrs] at hfound
    split at hfound
    · cases hfound
    · next hname =>
        have hfield := mem_of_getElem?_listToAttrs hfound
        rw [List.mem_cons, List.mem_cons] at hfield
        rcases hfield with henable | hactivation | hfield
        · cases henable
          exact absurd (by simp) hname
        · cases hactivation
          exact absurd (by simp) hname
        · exact authored_fields _ _ hfield
  exact (hlegacy.union hauthored.filterAttrs).union
    (single (.inr (.inl rfl)))

theorem presentScalars {set : Attrs Setting} (htier : Tier set) :
    Scalars (Fleet.presentScalars set) := by
  intro name setting hfound
  rw [Fleet.presentScalars, getElem?_filterAttrs, getElem?_removeAttrs,
    Option.filter_eq_some_iff] at hfound
  obtain ⟨hset, hpresent⟩ := hfound
  split at hset
  · cases hset
  · next hname =>
      rcases htier name setting hset with hnull | rfl | hscalar
      · exact absurd hnull (of_decide_eq_true hpresent)
      · exact absurd (List.mem_singleton.mpr rfl) hname
      · exact hscalar

end Tier

/-! ## The flattened record -/

def modeNames : List String := ["switch", "boot"]

def requiredFields : List String :=
  ["activation", "hostname", "sshUser", "sshPort", "autoRollback",
    "fastConnection"]

/-- A record as the engine has to be able to read it. -/
structure Flattened (record : Attrs Setting) : Prop where
  typed : ∀ name setting, record[name]? = some setting →
    (name = "activation" ∧ ∃ mode ∈ modeNames, setting = .text mode) ∨
      (name = "sshOpts" ∧ ∃ sshOpts, setting = .texts sshOpts) ∨
        Scalar name setting
  required : ∀ name ∈ requiredFields, record[name]? ≠ none

namespace Flattened
variable {record : Attrs Setting} {name : String}

theorem scalar (hflat : Flattened record) {kind : Kind}
    (hkind : scalarKinds.lookup name = some kind) {setting : Setting}
    (hfound : record[name]? = some setting) : kind.Admits setting := by
  rcases hflat.typed name setting hfound with ⟨rfl, -⟩ | ⟨rfl, -⟩ | hscalar
  · simp [scalarKinds, List.lookup_cons] at hkind
  · simp [scalarKinds, List.lookup_cons] at hkind
  · obtain ⟨other, hother, hadmits⟩ := hscalar
    cases hkind.symm.trans hother
    exact hadmits

theorem text (hflat : Flattened record)
    (hkind : scalarKinds.lookup name = some .text) :
    ∃ value : Option String, record[name]? = value.map .text := by
  cases hfound : record[name]? with
  | none => exact ⟨none, rfl⟩
  | some setting =>
      have hadmits := hflat.scalar hkind hfound
      cases setting with
      | text value => exact ⟨some value, rfl⟩
      | _ => cases hadmits

theorem number (hflat : Flattened record)
    (hkind : scalarKinds.lookup name = some .number) :
    ∃ value : Option UInt16, record[name]? = value.map .number := by
  cases hfound : record[name]? with
  | none => exact ⟨none, rfl⟩
  | some setting =>
      have hadmits := hflat.scalar hkind hfound
      cases setting with
      | number value => exact ⟨some value, rfl⟩
      | _ => cases hadmits

theorem flag (hflat : Flattened record)
    (hkind : scalarKinds.lookup name = some .flag) :
    ∃ value : Option Bool, record[name]? = value.map .flag := by
  cases hfound : record[name]? with
  | none => exact ⟨none, rfl⟩
  | some setting =>
      have hadmits := hflat.scalar hkind hfound
      cases setting with
      | flag value => exact ⟨some value, rfl⟩
      | _ => cases hadmits

theorem sshOpts (hflat : Flattened record) :
    ∃ value : Option (List String), record["sshOpts"]? = value.map .texts := by
  cases hfound : record["sshOpts"]? with
  | none => exact ⟨none, rfl⟩
  | some setting =>
      rcases hflat.typed _ setting hfound with ⟨hname, -⟩ | hopts | hscalar
      · simp at hname
      · obtain ⟨-, sshOpts, rfl⟩ := hopts
        exact ⟨some sshOpts, rfl⟩
      · obtain ⟨kind, hkind, -⟩ := hscalar
        simp [scalarKinds, List.lookup_cons] at hkind

theorem activation (hflat : Flattened record) :
    ∃ name ∈ modeNames, record["activation"]? = some (.text name) := by
  cases hfound : record["activation"]? with
  | none => exact absurd hfound (hflat.required _ (by simp [requiredFields]))
  | some setting =>
      rcases hflat.typed _ setting hfound with hmode | ⟨hname, -⟩ | hscalar
      · obtain ⟨-, name, hname, rfl⟩ := hmode
        exact ⟨name, hname, rfl⟩
      · simp at hname
      · obtain ⟨kind, hkind, -⟩ := hscalar
        simp [scalarKinds, List.lookup_cons] at hkind

/-- A required field is there, with its type. -/
theorem exists_of_required (hflat : Flattened record) {A : Type}
    {kind : A → Setting} (hname : name ∈ requiredFields)
    (hvalue : ∃ value : Option A, record[name]? = value.map kind) :
    ∃ value, record[name]? = some (kind value) := by
  obtain ⟨value, hfound⟩ := hvalue
  cases value with
  | none => exact absurd hfound (hflat.required name hname)
  | some value => exact ⟨value, hfound⟩

end Flattened

/-! ## Every record is flattened -/

theorem scalars_groupScalars {groupSettings : Attrs (Attrs Setting)}
    (hgroups : Tiers groupSettings)
    (memberGroups : List String) :
    Scalars (groupScalars groupSettings memberGroups) := by
  have hsettings (name : String) : Tier (settingsOf groupSettings name) := by
    rw [settingsOf, Std.TreeMap.getD_eq_getD_getElem?]
    cases hfound : groupSettings[name]? with
    | none => exact Tier.empty
    | some set => exact hgroups name set hfound
  rw [groupScalars]
  generalize applicableGroups groupSettings memberGroups = groups
  have hempty : Scalars ∅ := by
    intro name setting hfound
    rw [Std.TreeMap.getElem?_emptyc] at hfound
    cases hfound
  revert hempty
  generalize (∅ : Attrs Setting) = scalars
  intro hscalars
  induction groups generalizing scalars with
  | nil => exact hscalars
  | cons name groups ih =>
      apply ih
      exact forall_union hscalars (hsettings name).presentScalars

theorem scalars_effectiveScalars {fleet member : Attrs Setting}
    {groupSettings : Attrs (Attrs Setting)} (hfleet : Tier fleet)
    (hgroups : Tiers groupSettings)
    (hmember : Tier member) (memberGroups : List String) :
    Scalars (effectiveScalars fleet groupSettings memberGroups member) := by
  have hdefaults : Scalars (listToAttrs
      [("autoRollback", .flag true), ("fastConnection", .flag true)]) := by
    intro name setting hfound
    have hfield := mem_of_getElem?_listToAttrs hfound
    rw [List.mem_cons, List.mem_singleton] at hfield
    rcases hfield with hrollback | hfast
    · cases hrollback
      exact scalar_flag rfl _
    · cases hfast
      exact scalar_flag rfl _
  have hscalars := forall_union
    (forall_union hfleet.presentScalars
      (scalars_groupScalars hgroups memberGroups))
    hmember.presentScalars
  exact forall_union hdefaults hscalars

theorem tiers_groupSettings (groupSettings : Attrs DeploySettings) :
    Tiers (groupSettings.map fun _ settings => settings.attrs) := by
  intro name set hfound
  rw [Std.TreeMap.getElem?_map] at hfound
  obtain ⟨settings, -, rfl⟩ := Option.map_eq_some_iff.mp hfound
  exact .deploySettings settings

theorem flattened_merged {host : Host} {scalars : Attrs Setting}
    {sshOpts : List String} (hscalars : Scalars scalars)
    (hrollback : scalars["autoRollback"]? ≠ none)
    (hfast : scalars["fastConnection"]? ≠ none) :
    Flattened (connectionDefaults host ∪ (scalars ∪
      optionalAttrs (sshOpts ≠ [])
        (listToAttrs [("sshOpts", .texts sshOpts)]))) := by
  constructor
  · apply forall_union
    · intro name setting hfound
      have hfield := mem_of_getElem?_listToAttrs hfound
      simp only [List.mem_cons, List.not_mem_nil, or_false] at hfield
      rcases hfield with hmode | hhostname | huser | hport
      · cases hmode
        refine .inl ⟨rfl, _, ?_, rfl⟩
        cases host.deployRs.activation <;> decide
      · cases hhostname
        exact .inr (.inr (scalar_text rfl _))
      · cases huser
        exact .inr (.inr (scalar_text rfl _))
      · cases hport
        exact .inr (.inr (scalar_number rfl _))
    · apply forall_union
      · intro name setting hfound
        exact .inr (.inr (hscalars name setting hfound))
      · intro name setting hfound
        rw [getElem?_optionalAttrs] at hfound
        split at hfound
        · cases List.mem_singleton.mp (mem_of_getElem?_listToAttrs hfound)
          exact .inr (.inl ⟨rfl, sshOpts, rfl⟩)
        · cases hfound
  · have hdefault (name : String)
        (hname : (connectionDefaults host)[name]? ≠ none) :
        (connectionDefaults host ∪ (scalars ∪
          optionalAttrs (sshOpts ≠ [])
            (listToAttrs [("sshOpts", .texts sshOpts)])))[name]? ≠ none :=
      ne_none_union (.inl hname)
    simp only [requiredFields, List.forall_mem_cons]
    refine ⟨hdefault _ ?_, hdefault _ ?_, hdefault _ ?_, hdefault _ ?_,
      ne_none_union (.inr (ne_none_union (.inl hrollback))),
      ne_none_union (.inr (ne_none_union (.inl hfast))), ?_⟩
    · simp [connectionDefaults, getElem?_listToAttrs]
    · simp [connectionDefaults, getElem?_listToAttrs, List.lookup_cons]
    · simp [connectionDefaults, getElem?_listToAttrs, List.lookup_cons]
    · simp [connectionDefaults, getElem?_listToAttrs, List.lookup_cons]
    · intro name hname
      cases hname

/-- Whatever combination of tiers a record comes from, it can be read. -/
theorem flattened_deploySettingsFor {hosts : Hosts}
    {deployment : FleetDeployment} {controller : Option ControllerSettings}
    {host : Host} {record : Attrs Setting}
    (hrecord : deploySettingsFor hosts deployment controller host =
      .ok record) : Flattened record := by
  rw [deploySettingsFor, mergeDeploySettings] at hrecord
  split at hrecord
  · cases hrecord
  · cases hrecord
    have hscalars := scalars_effectiveScalars
      ((Tier.deploySettings deployment.settings).union
        (.controllerAttrs controller))
      (tiers_groupSettings deployment.groupSettings)
      (.memberSettings host) (ansibleGroupsFor host)
    apply flattened_merged hscalars
    · apply ne_none_union
      left
      simp [getElem?_listToAttrs]
    · apply ne_none_union
      left
      simp [getElem?_listToAttrs, List.lookup_cons]

end Mandala.Fleet
