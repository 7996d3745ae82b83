import Mandala.Engine.Data
import Mandala.Fleet.DeploySettings
import Mandala.Fleet.Wire

/-!
# Reading flattened settings

The engine reads the settings of a member strictly: no field may be unknown,
and one that is present has its type.  Every record the fleet module flattens
is read back field by field.
-/

namespace Mandala.Engine

open Mandala.Data Mandala.Nix
open Fleet (Setting Kind Scalar Flattened scalarKinds modeNames)

/-! ## The reader -/

def ActivationMode.ofName (name : String) : Option ActivationMode :=
  if name = "switch" then some .switch
  else if name = "boot" then some .boot
  else none

/-- A unit variant is its name, or an object of that name and null. -/
def ActivationMode.ofValue : Json → Option ActivationMode
  | .string name => ofName name
  | .object [(name, .null)] => ofName name
  | _ => none

def u16OfValue : Json → Option UInt16
  | .int value =>
      if 0 ≤ value ∧ value < UInt16.size then some (.ofNat value.toNat)
      else none
  | _ => none

/-- An optional field may be missing or null. -/
def optionalField {A : Type} (read : Json → Option A) :
    Option Json → Option (Option A)
  | none => some none
  | some .null => some none
  | some value => (read value).map some

/-- A field with a default may be missing. -/
def defaultedField {A : Type} (read : Json → Option A) (default : A) :
    Option Json → Option A
  | none => some default
  | some value => read value

def fieldNames : List String :=
  ["activation", "hostname", "sshUser", "sshPort", "identityFile", "sshOpts",
    "autoRollback", "fastConnection", "magicRollback", "confirmTimeout",
    "activationTimeout", "tempPath", "sudo", "user"]

namespace FlattenedDeploySettings

/-- The fields of an object, each read in its own way. -/
def ofFields (field : String → Option Json) :
    Option FlattenedDeploySettings := do
  let activation ← (field "activation").bind ActivationMode.ofValue
  let hostname ← (field "hostname").bind Json.asStr
  let sshUser ← (field "sshUser").bind Json.asStr
  let sshPort ← (field "sshPort").bind u16OfValue
  let identityFile ← optionalField Json.asStr (field "identityFile")
  let sshOpts ← defaultedField Fleet.readNames [] (field "sshOpts")
  let autoRollback ← (field "autoRollback").bind Json.asBool
  let fastConnection ← (field "fastConnection").bind Json.asBool
  let magicRollback ← optionalField Json.asBool (field "magicRollback")
  let confirmTimeout ← optionalField u16OfValue (field "confirmTimeout")
  let activationTimeout ← optionalField u16OfValue (field "activationTimeout")
  let tempPath ← optionalField Json.asStr (field "tempPath")
  let sudoCommand ← optionalField Json.asStr (field "sudo")
  let user ← optionalField Json.asStr (field "user")
  some
    { activation, hostname, sshUser, sshPort, identityFile, sshOpts
      autoRollback, fastConnection, magicRollback, confirmTimeout
      activationTimeout, tempPath, sudoCommand, user }

/-- `FlattenedDeploySettings::deserialize`, of an object. -/
def ofValue (value : Json) : Option FlattenedDeploySettings := do
  let fields ← value.asObject
  if fields.any (·.1 ∉ fieldNames) then none
  else ofFields (fields.lookup ·)

end FlattenedDeploySettings

/-- A record as `nix eval --json` prints it. -/
def recordValue (record : Attrs Setting) : Json :=
  toObject (record.map fun _ setting => setting.value)

/-! ## Reading one field -/

theorem u16OfValue_number (value : UInt16) :
    u16OfValue (Setting.number value).value = some value := by
  have hlt : (value.toNat : Int) < (UInt16.size : Nat) :=
    Int.ofNat_lt.mpr value.toNat_lt_size
  change (if 0 ≤ (value.toNat : Int) ∧ (value.toNat : Int) < (UInt16.size : Nat)
    then some (UInt16.ofNat (value.toNat : Int).toNat) else none) = _
  rw [if_pos ⟨Int.natCast_nonneg _, hlt⟩, Int.toNat_natCast,
    UInt16.ofNat_toNat]

section Read
variable {A : Type} {read : Json → Option A} {kind : A → Setting}

theorem optionalField_map (hread : ∀ value, read (kind value).value = some value)
    (hnull : ∀ value, (kind value).value ≠ .null) (value : Option A) :
    optionalField read ((value.map kind).map Setting.value) = some value := by
  cases value with
  | none => rfl
  | some value =>
      change optionalField read (some (kind value).value) = _
      unfold optionalField
      split
      · next heq => cases heq
      · next heq => exact absurd (Option.some.inj heq) (hnull value)
      · next heq =>
          rw [← Option.some.inj heq, hread]
          rfl

theorem defaultedField_map
    (hread : ∀ value, read (kind value).value = some value) (default : A)
    (value : Option A) :
    defaultedField read default ((value.map kind).map Setting.value) =
      some (value.getD default) := by
  cases value with
  | none => rfl
  | some value => exact hread value

end Read

/-! ## Reading a record back -/

section Record
variable {record : Attrs Setting}

theorem exists_activation (hflat : Flattened record) :
    ∃ mode name, ActivationMode.ofName name = some mode ∧
      record["activation"]? = some (.text name) := by
  obtain ⟨name, hname, hfound⟩ := hflat.activation
  rcases List.mem_cons.mp hname with rfl | hname
  · exact ⟨.switch, _, rfl, hfound⟩
  · rcases List.mem_singleton.mp hname with rfl
    exact ⟨.boot, _, rfl, hfound⟩

theorem known (hflat : Flattened record) {name : String} {setting : Setting}
    (hfound : record[name]? = some setting) : name ∈ fieldNames := by
  rcases hflat.typed name setting hfound with ⟨rfl, -⟩ | ⟨rfl, -⟩ | hscalar
  · simp [fieldNames]
  · simp [fieldNames]
  · obtain ⟨kind, hkind, -⟩ := hscalar
    have hnames : scalarKinds.map Prod.fst ⊆ fieldNames := by decide
    obtain ⟨before, rest, hfields, -⟩ := List.lookup_eq_some_iff.mp hkind
    apply hnames
    rw [hfields]
    simp

end Record

/-- What the engine has read is what the record says. -/
structure Reads (record : Attrs Setting) (settings : FlattenedDeploySettings) :
    Prop where
  activation : ∃ name, record["activation"]? = some (.text name) ∧
    ActivationMode.ofName name = some settings.activation
  hostname : record["hostname"]? = some (.text settings.hostname)
  sshUser : record["sshUser"]? = some (.text settings.sshUser)
  sshPort : record["sshPort"]? = some (.number settings.sshPort)
  identityFile : record["identityFile"]? = settings.identityFile.map .text
  sshOpts : ∃ sshOpts : Option (List String),
    record["sshOpts"]? = sshOpts.map .texts ∧ settings.sshOpts = sshOpts.getD []
  autoRollback : record["autoRollback"]? = some (.flag settings.autoRollback)
  fastConnection :
    record["fastConnection"]? = some (.flag settings.fastConnection)
  magicRollback : record["magicRollback"]? = settings.magicRollback.map .flag
  confirmTimeout :
    record["confirmTimeout"]? = settings.confirmTimeout.map .number
  activationTimeout :
    record["activationTimeout"]? = settings.activationTimeout.map .number
  tempPath : record["tempPath"]? = settings.tempPath.map .text
  sudoCommand : record["sudo"]? = settings.sudoCommand.map .text
  user : record["user"]? = settings.user.map .text

theorem lookup_record (record : Attrs Setting) (name : String) :
    (record.map fun _ setting => setting.value).toList.lookup name =
      record[name]?.map Setting.value := by
  rw [BTreeMap.lookup_toList, Std.TreeMap.getElem?_map]

theorem Reads.sshOptsOf_eq {record : Attrs Setting}
    {settings : FlattenedDeploySettings} (hreads : Reads record settings) :
    Fleet.sshOptsOf record = settings.sshOpts := by
  obtain ⟨sshOpts, hfound, hsettings⟩ := hreads.sshOpts
  rw [Fleet.sshOptsOf, hfound, hsettings]
  cases sshOpts <;> rfl

/-- A flattened record says everything the engine asks for. -/
theorem exists_reads {record : Attrs Setting} (hflat : Flattened record) :
    ∃ settings, Reads record settings := by
  have hrequired {name : String} (hname : name ∈ Fleet.requiredFields)
      {A : Type} {kind : A → Setting}
      (hvalue : ∃ value : Option A, record[name]? = value.map kind) :=
    hflat.exists_of_required hname hvalue
  obtain ⟨activation, mode, hmode, hactivation⟩ := exists_activation hflat
  obtain ⟨hostname, hhostname⟩ :
      ∃ value, record["hostname"]? = some (.text value) :=
    hrequired (by simp [Fleet.requiredFields]) (hflat.text rfl)
  obtain ⟨sshUser, hsshUser⟩ :
      ∃ value, record["sshUser"]? = some (.text value) :=
    hrequired (by simp [Fleet.requiredFields]) (hflat.text rfl)
  obtain ⟨sshPort, hsshPort⟩ :
      ∃ value, record["sshPort"]? = some (.number value) :=
    hrequired (by simp [Fleet.requiredFields]) (hflat.number rfl)
  obtain ⟨autoRollback, hautoRollback⟩ :
      ∃ value, record["autoRollback"]? = some (.flag value) :=
    hrequired (by simp [Fleet.requiredFields]) (hflat.flag rfl)
  obtain ⟨fastConnection, hfastConnection⟩ :
      ∃ value, record["fastConnection"]? = some (.flag value) :=
    hrequired (by simp [Fleet.requiredFields]) (hflat.flag rfl)
  obtain ⟨identityFile, hidentityFile⟩ :
      ∃ value : Option String, record["identityFile"]? = value.map .text :=
    hflat.text rfl
  obtain ⟨magicRollback, hmagicRollback⟩ :
      ∃ value : Option Bool, record["magicRollback"]? = value.map .flag :=
    hflat.flag rfl
  obtain ⟨confirmTimeout, hconfirmTimeout⟩ :
      ∃ value : Option UInt16, record["confirmTimeout"]? = value.map .number :=
    hflat.number rfl
  obtain ⟨activationTimeout, hactivationTimeout⟩ :
      ∃ value : Option UInt16,
        record["activationTimeout"]? = value.map .number :=
    hflat.number rfl
  obtain ⟨tempPath, htempPath⟩ :
      ∃ value : Option String, record["tempPath"]? = value.map .text :=
    hflat.text rfl
  obtain ⟨sudoCommand, hsudoCommand⟩ :
      ∃ value : Option String, record["sudo"]? = value.map .text :=
    hflat.text rfl
  obtain ⟨user, huser⟩ :
      ∃ value : Option String, record["user"]? = value.map .text :=
    hflat.text rfl
  obtain ⟨sshOpts, hsshOpts⟩ := hflat.sshOpts
  let settings : FlattenedDeploySettings :=
    { activation, hostname, sshUser, sshPort, identityFile
      sshOpts := sshOpts.getD []
      autoRollback, fastConnection, magicRollback, confirmTimeout
      activationTimeout, tempPath, sudoCommand, user }
  exact ⟨settings,
    { activation := ⟨mode, hactivation, hmode⟩
      hostname := hhostname
      sshUser := hsshUser
      sshPort := hsshPort
      identityFile := hidentityFile
      sshOpts := ⟨sshOpts, hsshOpts, rfl⟩
      autoRollback := hautoRollback
      fastConnection := hfastConnection
      magicRollback := hmagicRollback
      confirmTimeout := hconfirmTimeout
      activationTimeout := hactivationTimeout
      tempPath := htempPath
      sudoCommand := hsudoCommand
      user := huser }⟩

/-- The fields a record is printed with are read as what it says. -/
theorem ofFields_eq {record : Attrs Setting}
    {settings : FlattenedDeploySettings} (hreads : Reads record settings)
    {field : String → Option Json}
    (hfield : ∀ name, field name = record[name]?.map Setting.value) :
    FlattenedDeploySettings.ofFields field = some settings := by
  have htext (name : String) (value : Option String)
      (hfound : record[name]? = value.map .text) :
      optionalField Json.asStr (field name) = some value := by
    rw [hfield, hfound]
    exact optionalField_map (fun _ => rfl) (fun _ => Json.noConfusion) value
  have hnumber (name : String) (value : Option UInt16)
      (hfound : record[name]? = value.map .number) :
      optionalField u16OfValue (field name) = some value := by
    rw [hfield, hfound]
    exact optionalField_map u16OfValue_number (fun _ => Json.noConfusion) value
  refine Option.bind_eq_some_iff.mpr ⟨settings.activation, ?_, ?_⟩
  · obtain ⟨mode, hactivation, hmode⟩ := hreads.activation
    rw [hfield, hactivation]
    exact hmode
  refine Option.bind_eq_some_iff.mpr ⟨settings.hostname, ?_, ?_⟩
  · rw [hfield, hreads.hostname]
    rfl
  refine Option.bind_eq_some_iff.mpr ⟨settings.sshUser, ?_, ?_⟩
  · rw [hfield, hreads.sshUser]
    rfl
  refine Option.bind_eq_some_iff.mpr ⟨settings.sshPort, ?_, ?_⟩
  · rw [hfield, hreads.sshPort, Option.map_some, Option.bind_some,
      u16OfValue_number]
  refine Option.bind_eq_some_iff.mpr ⟨_, htext _ _ hreads.identityFile, ?_⟩
  refine Option.bind_eq_some_iff.mpr ⟨settings.sshOpts, ?_, ?_⟩
  · obtain ⟨sshOpts, hfound, hsettings⟩ := hreads.sshOpts
    rw [hfield, hfound, hsettings]
    exact defaultedField_map Fleet.readNames_namesValue [] sshOpts
  refine Option.bind_eq_some_iff.mpr ⟨settings.autoRollback, ?_, ?_⟩
  · rw [hfield, hreads.autoRollback]
    rfl
  refine Option.bind_eq_some_iff.mpr ⟨settings.fastConnection, ?_, ?_⟩
  · rw [hfield, hreads.fastConnection]
    rfl
  refine Option.bind_eq_some_iff.mpr ⟨settings.magicRollback, ?_, ?_⟩
  · rw [hfield, hreads.magicRollback]
    exact optionalField_map (fun _ => rfl) (fun _ => Json.noConfusion) _
  refine Option.bind_eq_some_iff.mpr ⟨_, hnumber _ _ hreads.confirmTimeout, ?_⟩
  refine Option.bind_eq_some_iff.mpr
    ⟨_, hnumber _ _ hreads.activationTimeout, ?_⟩
  refine Option.bind_eq_some_iff.mpr ⟨_, htext _ _ hreads.tempPath, ?_⟩
  refine Option.bind_eq_some_iff.mpr ⟨_, htext _ _ hreads.sudoCommand, ?_⟩
  exact Option.bind_eq_some_iff.mpr ⟨_, htext _ _ hreads.user, rfl⟩

/-- The engine reads every flattened record, and reads what it says. -/
theorem exists_ofValue {record : Attrs Setting} (hflat : Flattened record) :
    ∃ settings, FlattenedDeploySettings.ofValue (recordValue record) =
      some settings ∧ Reads record settings := by
  obtain ⟨settings, hreads⟩ := exists_reads hflat
  have hknown : (record.map fun _ setting => setting.value).toList.any
      (fun field => decide (field.1 ∉ fieldNames)) = false := by
    rw [List.any_eq_false]
    rintro ⟨name, value⟩ hfield
    have hfound := Std.TreeMap.mem_toList_iff_getElem?_eq_some.mp hfield
    rw [Std.TreeMap.getElem?_map] at hfound
    obtain ⟨setting, hsetting, -⟩ := Option.map_eq_some_iff.mp hfound
    simp [known hflat hsetting]
  refine ⟨settings, ?_, hreads⟩
  rw [FlattenedDeploySettings.ofValue, recordValue]
  change (if (record.map fun _ setting => setting.value).toList.any
    (fun field => decide (field.1 ∉ fieldNames)) = true then none
    else FlattenedDeploySettings.ofFields fun name =>
      (record.map fun _ setting => setting.value).toList.lookup name) = _
  rw [hknown, if_neg Bool.false_ne_true]
  exact ofFields_eq hreads (lookup_record record)

end Mandala.Engine
