import Mandala.Fleet.Aggregate

/-!
# Selectors and their canonical form

A selector is a list of members, groups and exclusions; it resolves to a sorted
set of members.  Joining that set gives its canonical form, which names members
only: resolved again, against any inventory, it is either refused or means the
same members.
-/

namespace Mandala.Fleet

open Mandala.Data Mandala.Text

/-- Either separator of a selector. -/
def isSeparator (character : Char) : Bool := character = ',' || character = ':'

/-- What the parts read so far include and exclude. -/
structure Chosen where
  included : BTreeSet
  excluded : BTreeSet
  sawInclude : Bool

def Chosen.start : Chosen :=
  { included := ∅, excluded := ∅, sawInclude := false }

def Chosen.add (chosen : Chosen) (names : List String) : Chosen :=
  { chosen with
    included := chosen.included.insertMany names
    sawInclude := true }

def Chosen.remove (chosen : Chosen) (names : List String) : Chosen :=
  { chosen with excluded := chosen.excluded.insertMany names }

namespace Inventory

variable (inventory : Inventory)

/-- `resolve_part`. -/
def resolvePart (part : String) : Except InventoryError (List String) :=
  if part = "all" ∨ part = "@all" then .ok inventory.members.keys
  else match part.toList with
    | '@' :: group =>
        match inventory.groups[String.ofList group]? with
        | some names => .ok names
        | none =>
            .error (.noSuchGroup (String.ofList group) inventory.groups.keys)
    | _ =>
        if (inventory.members[part]?).isNone then .error (.noSuchMember part)
        else .ok [part]

/-- One part of a selector.  The text behind an exclamation mark is not trimmed
again. -/
def selectPart (chosen : Chosen) (raw : List Char) :
    Except InventoryError Chosen :=
  match trim raw with
  | [] => .ok chosen
  | '!' :: atom =>
      (inventory.resolvePart (String.ofList atom)).map chosen.remove
  | part => (inventory.resolvePart (String.ofList part)).map chosen.add

/-- The members an exclusion is taken from: a bare one starts from all. -/
def base (chosen : Chosen) : BTreeSet :=
  if chosen.sawInclude then chosen.included
  else Std.TreeSet.ofList inventory.members.keys compare

/-- What is left once every part was read. -/
def settle (selector : String) (chosen : Chosen) :
    Except InventoryError (List String) :=
  if !chosen.sawInclude && chosen.excluded.isEmpty then .error .emptySelector
  else
    let resolved := ((inventory.base chosen).filter fun name =>
      !chosen.excluded.contains name).toList
    if resolved.isEmpty then .error (.resolvesToNothing selector)
    else .ok resolved

/-- `resolve`. -/
def resolve (selector : String) : Except InventoryError (List String) := do
  let parts := selector.toList.splitOnP isSeparator
  inventory.settle selector (← parts.foldlM inventory.selectPart .start)

/-- `to_limit`: the canonical form of a selector. -/
def toLimit (selector : String) : Except InventoryError String :=
  (inventory.resolve selector).map (",".intercalate ·)

end Inventory

/-! ## What a selector resolves to -/

/-- A sorted, non-empty set of members. -/
structure Canonical (inventory : Inventory) (names : List String) : Prop where
  sorted : ∃ set : BTreeSet, names = set.toList
  nonempty : names ≠ []
  members : ∀ name ∈ names, inventory.members[name]? ≠ none

theorem Canonical.bareName {inventory : Inventory} {names : List String}
    (hcanonical : Canonical inventory names) :
    ∀ name ∈ names, BareName name := by
  intro name hname
  obtain ⟨member, hmember⟩ :=
    Option.ne_none_iff_exists'.mp (hcanonical.members name hname)
  exact inventory.bareName_of_member hmember

namespace Inventory

variable {inventory : Inventory}

theorem member_of_mem_keys {name : String}
    (hname : name ∈ inventory.members.keys) :
    inventory.members[name]? ≠ none :=
  BTreeMap.mem_keys_iff.mp hname

theorem member_of_resolvePart {part : String} {names : List String}
    (hresolve : inventory.resolvePart part = .ok names) :
    ∀ name ∈ names, inventory.members[name]? ≠ none := by
  intro name hname
  rw [resolvePart] at hresolve
  split at hresolve
  · cases hresolve
    exact member_of_mem_keys hname
  · split at hresolve
    · next group _ =>
        cases hgroup : inventory.groups[String.ofList group]? with
        | none => simp [hgroup] at hresolve
        | some members =>
            rw [hgroup] at hresolve
            cases hresolve
            exact inventory.member_of_group hgroup name hname
    · cases hmember : inventory.members[part]? with
      | none => simp [hmember] at hresolve
      | some member =>
          rw [hmember] at hresolve
          cases hresolve
          rw [List.mem_singleton.mp hname, hmember]
          exact Option.some_ne_none member

/-- Only members are ever included. -/
def OnlyMembers (inventory : Inventory) (chosen : Chosen) : Prop :=
  ∀ name ∈ chosen.included, inventory.members[name]? ≠ none

theorem onlyMembers_selectPart {chosen next : Chosen} {raw : List Char}
    (hchosen : inventory.OnlyMembers chosen)
    (hselect : inventory.selectPart chosen raw = .ok next) :
    inventory.OnlyMembers next := by
  rw [selectPart] at hselect
  split at hselect
  · cases hselect
    exact hchosen
  · next atom _ =>
      cases hpart : inventory.resolvePart (String.ofList atom) with
      | error error =>
          rw [hpart] at hselect
          cases hselect
      | ok names =>
          rw [hpart] at hselect
          cases hselect
          exact hchosen
  · cases hpart : inventory.resolvePart (String.ofList (trim raw)) with
      | error error =>
          rw [hpart] at hselect
          cases hselect
      | ok names =>
          rw [hpart] at hselect
          cases hselect
          intro name hname
          rcases Std.TreeSet.mem_insertMany_list.mp hname with hold | hnew
          · exact hchosen name hold
          · exact member_of_resolvePart hpart name (List.contains_iff_mem.mp hnew)

theorem onlyMembers_selectParts {parts : List (List Char)}
    {chosen last : Chosen} (hchosen : inventory.OnlyMembers chosen)
    (hselect : parts.foldlM inventory.selectPart chosen = .ok last) :
    inventory.OnlyMembers last := by
  induction parts generalizing chosen with
  | nil =>
      cases hselect
      exact hchosen
  | cons raw parts ih =>
      rw [List.foldlM_cons] at hselect
      cases hnext : inventory.selectPart chosen raw with
      | error error =>
          rw [hnext] at hselect
          cases hselect
      | ok next =>
          rw [hnext] at hselect
          exact ih (onlyMembers_selectPart hchosen hnext) hselect

/-- Every resolved selector is a sorted, non-empty set of members. -/
theorem canonical_of_resolve {selector : String} {names : List String}
    (hresolve : inventory.resolve selector = .ok names) :
    Canonical inventory names := by
  rw [resolve] at hresolve
  cases hchosen : (selector.toList.splitOnP isSeparator).foldlM
      inventory.selectPart .start with
  | error error =>
      rw [hchosen] at hresolve
      cases hresolve
  | ok chosen =>
      rw [hchosen] at hresolve
      change inventory.settle selector chosen = .ok names at hresolve
      have hmembers : inventory.OnlyMembers chosen := by
        apply onlyMembers_selectParts _ hchosen
        intro name hname
        exact absurd hname Std.TreeSet.not_mem_emptyc
      rw [settle] at hresolve
      split at hresolve
      · cases hresolve
      · dsimp only at hresolve
        split at hresolve
        · cases hresolve
        · next hsome =>
            cases hresolve
            refine ⟨⟨_, rfl⟩, fun hnil => hsome (by rw [hnil]; rfl), ?_⟩
            intro name hname
            rw [Std.TreeSet.toList_filter, List.mem_filter] at hname
            have hbase := Std.TreeSet.mem_toList.mp hname.1
            rw [base] at hbase
            split at hbase
            · exact hmembers name hbase
            · exact member_of_mem_keys (by simpa using hbase)

/-! ## The canonical form -/

variable {other : Inventory}

/-- A bare name starts with none of the characters a selector gives a meaning
to. -/
theorem first_of_bareName {name : String} (hname : BareName name) {first : Char}
    {rest : List Char} (hchars : name.toList = first :: rest) :
    first ≠ '!' ∧ first ≠ '@' := by
  have hmark := isSelectorMark_of_isNameChar
    (hname.characters first (by rw [hchars]; exact List.mem_cons_self))
  constructor <;>
  · rintro rfl
    cases hmark

/-- As an atom, a bare name means that member or nothing. -/
theorem resolvePart_bareName {name : String} (hname : BareName name) :
    other.resolvePart name =
      if (other.members[name]?).isNone then .error (.noSuchMember name)
      else .ok [name] := by
  have hkeyword : ¬ (name = "all" ∨ name = "@all") := by
    intro hall
    rcases hall with hall | rfl
    · exact hname.notAll hall
    · exact (first_of_bareName hname rfl).2 rfl
  rw [resolvePart, if_neg hkeyword]
  split
  · next group heq => exact absurd rfl (first_of_bareName hname heq).2
  · rfl

/-- Resolved against any inventory, a bare name means that member or nothing. -/
theorem selectPart_bareName {name : String} (hname : BareName name)
    (chosen : Chosen) :
    other.selectPart chosen name.toList =
      if (other.members[name]?).isNone then .error (.noSuchMember name)
      else .ok (chosen.add [name]) := by
  have htrim : trim name.toList = name.toList :=
    trim_of_not_whiteSpace fun character hmem =>
      isWhiteSpace_of_isNameChar (hname.characters character hmem)
  rw [selectPart, htrim]
  split
  · next hnil => exact absurd hnil hname.nonempty
  · next atom heq => exact absurd rfl (first_of_bareName hname heq).1
  · rw [String.ofList_toList, resolvePart_bareName hname]
    split <;> rfl

/-- Reading bare names includes exactly those names, all of them members. -/
theorem selectNames_ok {names : List String} {chosen last : Chosen}
    (hbare : ∀ name ∈ names, BareName name)
    (hselect : (names.map String.toList).foldlM other.selectPart chosen =
      .ok last) :
    (∀ name ∈ names, other.members[name]? ≠ none) ∧
      last.excluded = chosen.excluded ∧
      (names ≠ [] → last.sawInclude = true) ∧
      ∀ name, name ∈ last.included ↔ name ∈ chosen.included ∨ name ∈ names := by
  induction names generalizing chosen with
  | nil =>
      cases hselect
      simp
  | cons name names ih =>
      rw [List.map_cons, List.foldlM_cons,
        selectPart_bareName (hbare name List.mem_cons_self)] at hselect
      cases hmember : other.members[name]? with
      | none =>
          rw [hmember] at hselect
          cases hselect
      | some member =>
          rw [hmember] at hselect
          obtain ⟨hrest, hexcluded, hsaw, hincluded⟩ :=
            ih (fun other hmem => hbare other (List.mem_cons_of_mem _ hmem))
              hselect
          refine ⟨?_, hexcluded, ?_, ?_⟩
          · intro other' hmem
            rcases List.mem_cons.mp hmem with rfl | hmem
            · rw [hmember]
              exact Option.some_ne_none member
            · exact hrest other' hmem
          · intro _
            cases names with
            | nil =>
                cases hselect
                rfl
            | cons next names => exact hsaw (List.cons_ne_nil _ _)
          · intro other'
            rw [hincluded, Chosen.add, Std.TreeSet.mem_insertMany_list,
              List.contains_iff_mem, List.mem_singleton, List.mem_cons,
              or_assoc]

theorem isSelectorMark_of_isSeparator {character : Char}
    (hseparator : isSeparator character) : isSelectorMark character := by
  rw [isSeparator, Bool.or_eq_true] at hseparator
  rcases hseparator with hseparator | hseparator <;>
    simp [isSelectorMark, of_decide_eq_true hseparator]

/-- The parts of a canonical form are the names it was joined from. -/
theorem splitOnP_limit {isSplit : Char → Bool} (hcomma : isSplit ',')
    (hmarks : ∀ character, isSplit character → isSelectorMark character)
    {names : List String} (hbare : ∀ name ∈ names, BareName name)
    (hne : names ≠ []) :
    (",".intercalate names).toList.splitOnP isSplit =
      names.map String.toList := by
  rw [String.toList_intercalate]
  apply splitOnP_intercalate hcomma
  · intro part hpart character hmem
    obtain ⟨name, hname, rfl⟩ := List.mem_map.mp hpart
    have hmark := isSelectorMark_of_isNameChar
      ((hbare name hname).characters character hmem)
    rw [← Bool.not_eq_true]
    intro hsplit
    rw [hmarks character hsplit] at hmark
    cases hmark
  · simpa using hne

/-- Whatever inventory reads a canonical form, it resolves to the names it was
joined from, or is refused. -/
theorem resolve_limit {names resolved : List String}
    (hcanonical : Canonical inventory names)
    (hresolve : other.resolve (",".intercalate names) = .ok resolved) :
    resolved = names := by
  have hbare := hcanonical.bareName
  have hne := hcanonical.nonempty
  obtain ⟨set, hsorted⟩ := hcanonical.sorted
  rw [resolve, splitOnP_limit rfl @isSelectorMark_of_isSeparator hbare hne] at hresolve
  cases hchosen : (names.map String.toList).foldlM other.selectPart .start with
  | error error =>
      rw [hchosen] at hresolve
      cases hresolve
  | ok chosen =>
      rw [hchosen] at hresolve
      change other.settle _ chosen = .ok resolved at hresolve
      obtain ⟨-, hexcluded, hsaw, hincluded⟩ := selectNames_ok hbare hchosen
      rw [settle, hsaw hne, Bool.not_true, Bool.false_and] at hresolve
      simp only [Bool.false_eq_true, if_false] at hresolve
      split at hresolve
      · cases hresolve
      · cases hresolve
        rw [hsorted]
        apply BTreeSet.toList_eq_of_mem_iff
        intro name
        have hkept : chosen.excluded.contains name = false := by
          rw [hexcluded]
          exact Std.TreeSet.contains_emptyc
        calc name ∈ (other.base chosen).filter _
          _ ↔ name ∈ other.base chosen := by
            rw [← Std.TreeSet.mem_toList, Std.TreeSet.toList_filter,
              List.mem_filter, hkept, Std.TreeSet.mem_toList]
            exact and_iff_left rfl
          _ ↔ name ∈ chosen.included := by rw [base, hsaw hne, if_pos rfl]
          _ ↔ name ∈ names := by
            rw [hincluded]
            exact or_iff_right Std.TreeSet.not_mem_emptyc
          _ ↔ name ∈ set := by rw [hsorted, Std.TreeSet.mem_toList]

end Inventory

end Mandala.Fleet
