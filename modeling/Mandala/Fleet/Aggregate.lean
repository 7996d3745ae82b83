import Mandala.Data.Json
import Mandala.Core.Text

/-!
# A validated aggregate

An inventory is built from one evaluated aggregate.  Its member names are bare
host names, so no member can be read as a selector keyword, a group or a
separator, and its groups only name members.
-/

namespace Mandala.Fleet

open Mandala.Data Mandala.Text

/-! ## Names -/

/-- `str::eq_ignore_ascii_case`. -/
def eqIgnoreAsciiCase (left right : String) : Bool :=
  left.toList.map Char.toLower = right.toList.map Char.toLower

def isNameChar (character : Char) : Bool :=
  character.isAlphanum || character = '-'

/-- `is_valid_member_name`. -/
def isValidMemberName (name : String) : Bool :=
  1 ≤ name.utf8ByteSize && name.utf8ByteSize ≤ 63 &&
    name.toList.head?.any Char.isAlphanum &&
    name.toList.getLast?.any Char.isAlphanum &&
    name.toList.all isNameChar &&
    !eqIgnoreAsciiCase name "all"

theorem isWhiteSpace_of_isNameChar {character : Char}
    (hname : isNameChar character) : isWhiteSpace character = false := by
  rw [← Bool.not_eq_true]
  intro hspace
  simp only [isNameChar] at hname
  delta Char.isAlphanum Char.isAlpha Char.isUpper Char.isLower
    Char.isDigit at hname
  simp only [Bool.or_eq_true, Bool.and_eq_true, decide_eq_true_eq,
    isWhiteSpace, UInt32.le_iff_toNat_le, ge_iff_le] at *
  rcases hname with ((hupper | hlower) | hdigit) | rfl
  · simp at *
    omega
  · simp at *
    omega
  · simp at *
    omega
  · simp at hspace

/-- The characters selectors give a meaning to. -/
def isSelectorMark (character : Char) : Bool :=
  character = ',' || character = ':' || character = '!' || character = '@'

theorem isSelectorMark_of_isNameChar {character : Char}
    (hname : isNameChar character) : isSelectorMark character = false := by
  rw [← Bool.not_eq_true]
  intro hmark
  simp only [isSelectorMark, Bool.or_eq_true, decide_eq_true_eq] at hmark
  rcases hmark with ((rfl | rfl) | rfl) | rfl <;> cases hname

/-- What a valid name can be relied on for. -/
structure BareName (name : String) : Prop where
  nonempty : name.toList ≠ []
  characters : ∀ character ∈ name.toList, isNameChar character
  notAll : name ≠ "all"

theorem bareName_of_isValidMemberName {name : String}
    (hvalid : isValidMemberName name) : BareName name := by
  simp only [isValidMemberName, Bool.and_eq_true, List.all_eq_true,
    Bool.not_eq_true'] at hvalid
  obtain ⟨⟨⟨⟨-, hhead⟩, -⟩, hall⟩, hkeyword⟩ := hvalid
  constructor
  · intro hnil
    rw [hnil] at hhead
    cases hhead
  · exact hall
  · intro heq
    rw [heq] at hkeyword
    cases hkeyword

/-! ## The aggregate -/

/-- A member record, kept as the JSON object it was read from. -/
structure Member where
  fields : List (String × Json)

def Member.get (member : Member) (key : String) : Option Json :=
  member.fields.lookup key

structure Aggregate where
  schemaVersion : Json
  members : BTreeMap Member
  groups : BTreeMap (List String)
  /-- Every other top-level key. -/
  extra : List (String × Json)

/-- `SUPPORTED_SCHEMA_VERSION`. -/
def supportedSchemaVersion : Int := 1

/-- Why an aggregate is refused as malformed. -/
inductive Malformed where
  | memberName (key : String)
  | nameMismatch (key name : String)
  | unnamed (key : String)
  | reservedGroup (group : String)
  | unknownGroupMember (group member : String)
  | unsupportedController (os : String)
  | controllersNotObject
  | missingController (platform : String)
  | missingControllerSettings (platform : String)
  | missingControllerInventory (platform : String)
  deriving DecidableEq, Repr

inductive InventoryError where
  | unsupportedSchema (found : Json)
  | malformed (reason : Malformed)
  | emptySelector
  | resolvesToNothing (selector : String)
  | noSuchGroup (group : String) (available : List String)
  | noSuchMember (member : String)

namespace Aggregate

def checkMember (entry : String × Member) : Except InventoryError Unit :=
  if !isValidMemberName entry.1 then .error (.malformed (.memberName entry.1))
  else match (entry.2.get "name").bind Json.asStr with
    | some name =>
        if name = entry.1 then .ok ()
        else .error (.malformed (.nameMismatch entry.1 name))
    | none => .error (.malformed (.unnamed entry.1))

def checkGroupMember (aggregate : Aggregate) (group member : String) :
    Except InventoryError Unit :=
  if (aggregate.members[member]?).isSome then .ok ()
  else .error (.malformed (.unknownGroupMember group member))

def checkGroup (aggregate : Aggregate) (entry : String × List String) :
    Except InventoryError Unit :=
  if eqIgnoreAsciiCase entry.1 "all" then
    .error (.malformed (.reservedGroup entry.1))
  else entry.2.forM (aggregate.checkGroupMember entry.1)

/-- The checks on members and groups, in key order. -/
def check (aggregate : Aggregate) : Except InventoryError Unit := do
  aggregate.members.toList.forM checkMember
  aggregate.groups.toList.forM aggregate.checkGroup

def projections (aggregate : Aggregate) : Option Json :=
  aggregate.extra.lookup "projections"

/-- The projection key of a controller's operating system. -/
def controllerPlatform (os : String) : Option String :=
  if os = "macos" ∨ os = "darwin" then some "darwin"
  else if os = "linux" then some "linux"
  else none

/-- Pick the controller's own projection, when the aggregate has such a map. -/
def selectController (aggregate : Aggregate) (os : String) :
    Except InventoryError (Option String) :=
  match aggregate.projections.bind (·.get "byControllerPlatform") with
  | none => .ok none
  | some platforms =>
      match controllerPlatform os with
      | none => .error (.malformed (.unsupportedController os))
      | some platform =>
          if platforms.asObject.isNone then
            .error (.malformed .controllersNotObject)
          else match platforms.get platform with
            | none => .error (.malformed (.missingController platform))
            | some selected =>
                let settings := (selected.get "deploy").bind (·.get "settings")
                let shared := aggregate.projections.bind (·.get "ansibleInventory")
                let own := (selected.get "ansibleInventory").bind Json.asObject
                if (settings.bind Json.asObject).isNone then
                  .error (.malformed (.missingControllerSettings platform))
                else if shared.isSome && own.isNone then
                  .error (.malformed (.missingControllerInventory platform))
                else .ok (some platform)

end Aggregate

/-! ## The inventory -/

/-- A typed view over an aggregate that passed its checks. -/
structure Inventory where
  aggregate : Aggregate
  controllerPlatform : Option String
  checked : aggregate.check = .ok ()

namespace Inventory

/-- `Inventory::from_value_for_controller`, on a typed aggregate. -/
def fromAggregate (aggregate : Aggregate) (os : String) :
    Except InventoryError Inventory :=
  if aggregate.schemaVersion.asU64 ≠ some supportedSchemaVersion then
    .error (.unsupportedSchema aggregate.schemaVersion)
  else match hchecked : aggregate.check with
    | .error error => .error error
    | .ok () =>
        (aggregate.selectController os).map fun controllerPlatform =>
          { aggregate, controllerPlatform, checked := hchecked }

def members (inventory : Inventory) : BTreeMap Member :=
  inventory.aggregate.members

def groups (inventory : Inventory) : BTreeMap (List String) :=
  inventory.aggregate.groups

def connectionProjections (inventory : Inventory) : Option Json :=
  inventory.aggregate.projections.bind fun projections =>
    match inventory.controllerPlatform with
    | some platform =>
        (projections.get "byControllerPlatform").bind (·.get platform)
    | none => some projections

/-- The flattened settings of every member the controller can deploy. -/
def deploySettings (inventory : Inventory) : Option (List (String × Json)) :=
  ((inventory.connectionProjections.bind (·.get "deploy")).bind
    (·.get "settings")).bind Json.asObject

end Inventory

/-! ## What the checks guarantee -/

theorem forM_eq_ok_iff {A : Type} {check : A → Except InventoryError Unit}
    {entries : List A} :
    entries.forM check = .ok () ↔ ∀ entry ∈ entries, check entry = .ok () := by
  induction entries with
  | nil =>
      constructor
      · intro _ entry hmem
        cases hmem
      · intro _
        rfl
  | cons entry entries ih =>
      rw [List.forall_mem_cons, ← ih]
      change (check entry >>= fun _ => entries.forM check) = _ ↔ _
      cases check entry with
      | error error =>
          constructor
          · intro herror
            cases herror
          · intro hboth
            cases hboth.1
      | ok _ =>
          constructor
          · intro hrest
            exact ⟨rfl, hrest⟩
          · intro hboth
            exact hboth.2

namespace Inventory

variable (inventory : Inventory)

theorem checked_parts :
    inventory.members.toList.forM Aggregate.checkMember = .ok () ∧
      inventory.groups.toList.forM inventory.aggregate.checkGroup = .ok () := by
  have hchecked := inventory.checked
  change (inventory.members.toList.forM Aggregate.checkMember >>= fun _ =>
    inventory.groups.toList.forM inventory.aggregate.checkGroup) = _ at hchecked
  cases hmembers : inventory.members.toList.forM Aggregate.checkMember with
  | error error =>
      rw [hmembers] at hchecked
      cases hchecked
  | ok _ =>
      rw [hmembers] at hchecked
      exact ⟨rfl, hchecked⟩

/-- Every member of an inventory has a bare name. -/
theorem bareName_of_member {name : String} {member : Member}
    (hmember : inventory.members[name]? = some member) : BareName name := by
  have hentry : (name, member) ∈ inventory.members.toList :=
    Std.TreeMap.mem_toList_iff_getElem?_eq_some.mpr hmember
  have hcheck := forM_eq_ok_iff.mp inventory.checked_parts.1 _ hentry
  apply bareName_of_isValidMemberName
  rw [Aggregate.checkMember] at hcheck
  cases hvalid : isValidMemberName name with
  | true => rfl
  | false => simp [hvalid] at hcheck

/-- A group only names members. -/
theorem member_of_group {group : String} {names : List String}
    (hgroup : inventory.groups[group]? = some names) :
    ∀ name ∈ names, inventory.members[name]? ≠ none := by
  intro name hname
  have hentry : (group, names) ∈ inventory.groups.toList :=
    Std.TreeMap.mem_toList_iff_getElem?_eq_some.mpr hgroup
  have hcheck := forM_eq_ok_iff.mp inventory.checked_parts.2 _ hentry
  rw [Aggregate.checkGroup] at hcheck
  split at hcheck
  · cases hcheck
  · have hmember := forM_eq_ok_iff.mp hcheck name hname
    rw [Aggregate.checkGroupMember] at hmember
    intro hnone
    change inventory.aggregate.members[name]? = none at hnone
    simp [hnone] at hmember

end Inventory

end Mandala.Fleet
