import Mandala.Core.Pieces
import Mandala.Fleet.Selector
import Mandala.Fleet.Groups

/-!
# What a selector means

A selector means a set of members: those it includes, or all of them when it
only excludes, without those it excludes.  The set depends on the parts alone,
in no order, and its sorted list of names is what the selector resolves to.
-/

namespace Mandala.Fleet

open Mandala.Data Mandala.Text

/-! ## The parts of a selector -/

def inclusionOf : List Char → Option String
  | '!' :: _ => none
  | part => some (String.ofList part)

def exclusionOf : List Char → Option String
  | '!' :: atom => some (String.ofList atom)
  | _ => none

def inclusionsIn (parts : List (List Char)) : List String :=
  parts.filterMap inclusionOf

def exclusionsIn (parts : List (List Char)) : List String :=
  parts.filterMap exclusionOf

def selectorParts (selector : String) : List (List Char) :=
  pieces isSeparator selector.toList

def inclusions (selector : String) : List String :=
  inclusionsIn (selectorParts selector)

def exclusions (selector : String) : List String :=
  exclusionsIn (selectorParts selector)

/-- One selector is another rewriting of the other. -/
def Rearranged (left right : String) : Prop :=
  Relation.EqvGen (Rewritten isSeparator) left.toList right.toList

namespace Inventory

variable (inventory : Inventory)

def IsMember (name : String) : Prop := inventory.members[name]? ≠ none

/-- The members an atom names. -/
inductive Denotes : String → String → Prop
  | all {name : String} (hmember : inventory.IsMember name) :
      Denotes "all" name
  | everyone {name : String} (hmember : inventory.IsMember name) :
      Denotes "@all" name
  | group {group : String} {names : List String} {name : String}
      (hgroup : inventory.groups[group]? = some names) (hname : name ∈ names) :
      Denotes ("@" ++ group) name
  | member {name : String} (hmember : inventory.IsMember name) :
      Denotes name name

/-- The atoms that name a member, a group or everyone. -/
inductive Known : String → Prop
  | all : Known "all"
  | everyone : Known "@all"
  | group {group : String} (hgroup : inventory.groups[group]? ≠ none) :
      Known ("@" ++ group)
  | member {name : String} (hmember : inventory.IsMember name) : Known name

def KnownSelector (selector : String) : Prop :=
  ∀ atom ∈ inclusions selector ++ exclusions selector, inventory.Known atom

/-- Whether the parts start from a member. -/
def Included (parts : List (List Char)) (name : String) : Prop :=
  (∃ atom ∈ inclusionsIn parts, inventory.Denotes atom name) ∨
    (inclusionsIn parts = [] ∧ exclusionsIn parts ≠ [] ∧
      inventory.IsMember name)

def Excluded (parts : List (List Char)) (name : String) : Prop :=
  ∃ atom ∈ exclusionsIn parts, inventory.Denotes atom name

/-- The set of members a selector means. -/
def Meaning (selector : String) : Set String :=
  {name | inventory.Included (selectorParts selector) name ∧
    ¬ inventory.Excluded (selectorParts selector) name}

/-- What selectors can be relied on for. -/
structure SelectorAlgebra (selector : String) : Prop where
  /-- The sorted names of the set the selector means. -/
  resolves : ∀ names, inventory.resolve selector = .ok names ↔
    Ordered names ∧ names ≠ [] ∧
      ∀ name, name ∈ names ↔ name ∈ inventory.Meaning selector
  /-- Only an empty set is refused. -/
  refused : (∃ error, inventory.resolve selector = .error error) ↔
    inventory.Meaning selector = ∅
  rearranged : ∀ other, Rearranged selector other →
    (inventory.resolve other).toOption = (inventory.resolve selector).toOption
  idempotent : ∀ limit, inventory.toLimit selector = .ok limit →
    inventory.toLimit limit = .ok limit
  faithful : ∀ other,
    (inventory.toLimit selector).toOption = (inventory.toLimit other).toOption ↔
      (inventory.resolve selector).toOption =
        (inventory.resolve other).toOption

/-- Exclusions only, and nothing there is to exclude. -/
structure ExcludesNothing (selector : String) : Prop where
  bare : inclusions selector = []
  excludes : exclusions selector ≠ []
  nothing : ∀ name, ¬ inventory.Excluded (selectorParts selector) name
  fleet : ∃ name, inventory.IsMember name

variable {inventory}

/-! ## Atoms -/

/-- No group is named by the keyword for everyone. -/
theorem groups_all : inventory.groups["all"]? = none := by
  cases hgroup : inventory.groups["all"]? with
  | none => rfl
  | some names =>
      have hentry : ("all", names) ∈ inventory.groups.toList :=
        Std.TreeMap.mem_toList_iff_getElem?_eq_some.mpr hgroup
      have hcheck := forM_eq_ok_iff.mp inventory.checked_parts.2 _ hentry
      have hkeyword : eqIgnoreAsciiCase "all" "all" = true := decide_eq_true rfl
      rw [Aggregate.checkGroup, if_pos hkeyword] at hcheck
      cases hcheck

theorem denotes_iff {atom name : String} : inventory.Denotes atom name ↔
    ((atom = "all" ∨ atom = "@all") ∧ inventory.IsMember name) ∨
      (∃ group names, atom = "@" ++ group ∧
        inventory.groups[group]? = some names ∧ name ∈ names) ∨
      (atom = name ∧ inventory.IsMember name) := by
  constructor
  · intro hdenotes
    cases hdenotes with
    | all hmember => exact .inl ⟨.inl rfl, hmember⟩
    | everyone hmember => exact .inl ⟨.inr rfl, hmember⟩
    | group hgroup hname => exact .inr (.inl ⟨_, _, rfl, hgroup, hname⟩)
    | member hmember => exact .inr (.inr ⟨rfl, hmember⟩)
  · rintro (⟨rfl | rfl, hmember⟩ | ⟨group, names, rfl, hgroup, hname⟩ |
      ⟨rfl, hmember⟩)
    · exact .all hmember
    · exact .everyone hmember
    · exact .group hgroup hname
    · exact .member hmember

theorem toList_group (group : String) :
    ("@" ++ group).toList = '@' :: group.toList := by
  rw [String.toList_append]
  rfl

/-- A group's atom is a keyword only for the group of that name. -/
theorem eq_all_of_keyword {group : String}
    (hkeyword : "@" ++ group = "all" ∨ "@" ++ group = "@all") :
    group = "all" := by
  rw [← String.toList_inj, ← String.toList_inj, toList_group] at hkeyword
  rcases hkeyword with hkeyword | hkeyword
  · cases (List.cons.inj hkeyword).1
  · exact String.toList_inj.mp (List.cons.inj hkeyword).2

/-- Every member is meant by a keyword, whichever other reading it has. -/
theorem isMember_of_denotes_keyword {atom name : String}
    (hkeyword : atom = "all" ∨ atom = "@all")
    (hdenotes : inventory.Denotes atom name) : inventory.IsMember name := by
  rcases denotes_iff.mp hdenotes with
    ⟨-, hmember⟩ | ⟨group, names, rfl, hgroup, -⟩ | ⟨-, hmember⟩
  · exact hmember
  · rw [eq_all_of_keyword hkeyword, groups_all] at hgroup
    cases hgroup
  · exact hmember

/-- A bare name denotes that member only. -/
theorem denotes_bareName {atom : String} (hbare : BareName atom)
    {name : String} : inventory.Denotes atom name ↔
      atom = name ∧ inventory.IsMember name := by
  rw [denotes_iff]
  constructor
  · rintro (⟨rfl | rfl, -⟩ | ⟨group, names, rfl, -⟩ | hmember)
    · exact absurd rfl hbare.notAll
    · exact absurd rfl (first_of_bareName hbare rfl).2
    · exact absurd rfl (first_of_bareName hbare (toList_group group)).2
    · exact hmember
  · exact fun hmember => .inr (.inr hmember)

theorem IsMember.bareName {name : String} (hmember : inventory.IsMember name) :
    BareName name := by
  obtain ⟨record, hrecord⟩ := Option.ne_none_iff_exists'.mp hmember
  exact inventory.bareName_of_member hrecord

theorem group_inj {left right : String} :
    "@" ++ left = "@" ++ right ↔ left = right := by
  rw [← String.toList_inj, toList_group, toList_group, List.cons.injEq,
    String.toList_inj]
  exact and_iff_right rfl

theorem not_keyword_of_group {group : String}
    (hgroup : inventory.groups[group]? ≠ none) :
    ¬ ("@" ++ group = "all" ∨ "@" ++ group = "@all") := by
  intro hall
  rw [eq_all_of_keyword hall, groups_all] at hgroup
  exact hgroup rfl

/-- A group's atom denotes the members of that group only. -/
theorem denotes_group {group : String} {names : List String}
    (hgroup : inventory.groups[group]? = some names) {name : String} :
    inventory.Denotes ("@" ++ group) name ↔ name ∈ names := by
  rw [denotes_iff]
  constructor
  · rintro (⟨hall, -⟩ | ⟨named, others, hsame, hothers, hname⟩ |
      ⟨rfl, hmember⟩)
    · exact absurd hall
        (not_keyword_of_group (hgroup ▸ Option.some_ne_none names))
    · rw [← group_inj.mp hsame, hgroup] at hothers
      cases hothers
      exact hname
    · exact absurd rfl
        (first_of_bareName hmember.bareName (toList_group group)).2
  · exact fun hname => .inr (.inl ⟨group, names, rfl, hgroup, hname⟩)

/-- A known atom resolves to the members it denotes. -/
theorem resolvePart_ok {atom : String} (hknown : inventory.Known atom) :
    ∃ names, inventory.resolvePart atom = .ok names ∧
      ∀ name, name ∈ names ↔ inventory.Denotes atom name := by
  have hkeyword (hall : atom = "all" ∨ atom = "@all") :
      ∃ names, inventory.resolvePart atom = .ok names ∧
        ∀ name, name ∈ names ↔ inventory.Denotes atom name := by
    refine ⟨inventory.members.keys, by rw [resolvePart, if_pos hall], ?_⟩
    intro name
    rw [BTreeMap.mem_keys_iff]
    exact ⟨fun hmember => denotes_iff.mpr (.inl ⟨hall, hmember⟩),
      isMember_of_denotes_keyword hall⟩
  cases hknown with
  | all => exact hkeyword (.inl rfl)
  | everyone => exact hkeyword (.inr rfl)
  | @group group hgroup =>
      obtain ⟨names, hnames⟩ := Option.ne_none_iff_exists'.mp hgroup
      refine ⟨names, ?_, fun name => (denotes_group hnames).symm⟩
      rw [resolvePart, if_neg (not_keyword_of_group hgroup), toList_group]
      simp [hnames]
  | member hmember =>
      refine ⟨[atom], ?_, fun name => ?_⟩
      · obtain ⟨record, hrecord⟩ := Option.ne_none_iff_exists'.mp hmember
        rw [resolvePart_bareName hmember.bareName, hrecord]
        rfl
      · rw [List.mem_singleton, denotes_bareName hmember.bareName]
        constructor
        · rintro rfl
          exact ⟨rfl, hmember⟩
        · rintro ⟨rfl, -⟩
          rfl

/-! ## Parts -/

/-- What a reading of some parts has gathered. -/
structure Gathered (inventory : Inventory) (parts : List (List Char))
    (chosen : Chosen) : Prop where
  included : ∀ name, name ∈ chosen.included ↔
    ∃ atom ∈ inclusionsIn parts, inventory.Denotes atom name
  excluded : ∀ name, name ∈ chosen.excluded ↔ inventory.Excluded parts name
  sawInclude : chosen.sawInclude = true ↔ inclusionsIn parts ≠ []

theorem gathered_start : Gathered inventory [] .start where
  included name := by
    simp [Chosen.start, inclusionsIn]
  excluded name := by
    simp [Chosen.start, Excluded, exclusionsIn]
  sawInclude := by simp [Chosen.start, inclusionsIn]

/-- The atoms of these parts are all known. -/
def KnownParts (inventory : Inventory) (parts : List (List Char)) : Prop :=
  ∀ atom ∈ inclusionsIn parts ++ exclusionsIn parts, inventory.Known atom

variable {parts : List (List Char)} {chosen : Chosen}

theorem Gathered.add (hgathered : Gathered inventory parts chosen)
    {part : List Char} (hinclusion : inclusionOf part = some (String.ofList part))
    (hexclusion : exclusionOf part = none) {names : List String}
    (hnames : ∀ name, name ∈ names ↔
      inventory.Denotes (String.ofList part) name) :
    Gathered inventory (parts ++ [part]) (chosen.add names) where
  included name := by
    rw [Chosen.add, Std.TreeSet.mem_insertMany_list, hgathered.included,
      List.contains_iff_mem, hnames]
    simp [inclusionsIn, hinclusion, or_and_right, exists_or]
  excluded name := by
    have hsame : exclusionsIn (parts ++ [part]) = exclusionsIn parts := by
      simp [exclusionsIn, hexclusion]
    rw [Chosen.add, Excluded, hsame]
    exact hgathered.excluded name
  sawInclude := by simp [Chosen.add, inclusionsIn, hinclusion]

theorem Gathered.remove (hgathered : Gathered inventory parts chosen)
    {part : List Char} {atom : String} (hinclusion : inclusionOf part = none)
    (hexclusion : exclusionOf part = some atom) {names : List String}
    (hnames : ∀ name, name ∈ names ↔ inventory.Denotes atom name) :
    Gathered inventory (parts ++ [part]) (chosen.remove names) where
  included name := by
    have hsame : inclusionsIn (parts ++ [part]) = inclusionsIn parts := by
      simp [inclusionsIn, hinclusion]
    rw [Chosen.remove, hsame]
    exact hgathered.included name
  excluded name := by
    rw [Chosen.remove, Std.TreeSet.mem_insertMany_list, hgathered.excluded,
      List.contains_iff_mem, hnames]
    simp [Excluded, exclusionsIn, hexclusion, or_and_right, exists_or]
  sawInclude := by
    have hsame : inclusionsIn (parts ++ [part]) = inclusionsIn parts := by
      simp [inclusionsIn, hinclusion]
    rw [Chosen.remove, hsame]
    exact hgathered.sawInclude

/-- A piece of known atoms is gathered with the parts before it. -/
theorem gathered_selectPart (hgathered : Gathered inventory parts chosen)
    {raw : List Char}
    (hknown : KnownParts inventory ([trim raw].filter (· ≠ []))) :
    ∃ next, inventory.selectPart chosen raw = .ok next ∧
      Gathered inventory (parts ++ [trim raw].filter (· ≠ [])) next := by
  rw [selectPart]
  split
  · next hblank =>
      rw [hblank]
      exact ⟨chosen, rfl, by simpa using hgathered⟩
  · next atom hexclusion =>
      rw [hexclusion] at hknown ⊢
      obtain ⟨names, hresolve, hnames⟩ :=
        resolvePart_ok (hknown (String.ofList atom) (by simp [exclusionsIn,
          exclusionOf]))
      rw [hresolve]
      exact ⟨_, rfl, hgathered.remove rfl rfl hnames⟩
  · next part hblank hother =>
      have hinclusion : inclusionOf (trim raw) =
          some (String.ofList (trim raw)) := by
        unfold inclusionOf
        split
        · next heq => exact absurd heq (hother _)
        · rfl
      have hexclusion : exclusionOf (trim raw) = none := by
        unfold exclusionOf
        split
        · next heq => exact absurd heq (hother _)
        · rfl
      have hkept : [trim raw].filter (· ≠ []) = [trim raw] := by
        simpa using hblank
      rw [hkept] at hknown ⊢
      obtain ⟨names, hresolve, hnames⟩ :=
        resolvePart_ok (hknown (String.ofList (trim raw))
          (by simp [inclusionsIn, hinclusion]))
      rw [hresolve]
      exact ⟨_, rfl, hgathered.add hinclusion hexclusion hnames⟩

theorem KnownParts.append {left right : List (List Char)} :
    KnownParts inventory (left ++ right) ↔
      KnownParts inventory left ∧ KnownParts inventory right := by
  simp only [KnownParts, inclusionsIn, exclusionsIn, List.filterMap_append,
    List.mem_append]
  constructor
  · intro hknown
    exact ⟨fun atom hatom => hknown atom (hatom.imp .inl .inl),
      fun atom hatom => hknown atom (hatom.imp .inr .inr)⟩
  · rintro ⟨hleft, hright⟩ atom ((hatom | hatom) | (hatom | hatom))
    · exact hleft atom (.inl hatom)
    · exact hright atom (.inl hatom)
    · exact hleft atom (.inr hatom)
    · exact hright atom (.inr hatom)

/-- Reading pieces of known atoms gathers them all. -/
theorem gathered_foldlM {raws : List (List Char)}
    (hgathered : Gathered inventory parts chosen)
    (hknown : KnownParts inventory ((raws.map trim).filter (· ≠ []))) :
    ∃ last, raws.foldlM inventory.selectPart chosen = .ok last ∧
      Gathered inventory (parts ++ (raws.map trim).filter (· ≠ [])) last := by
  induction raws generalizing parts chosen with
  | nil => exact ⟨chosen, rfl, by simpa using hgathered⟩
  | cons raw raws ih =>
      have hsplit : ((raw :: raws).map trim).filter (· ≠ []) =
          [trim raw].filter (· ≠ []) ++ (raws.map trim).filter (· ≠ []) := by
        rw [← List.filter_append]
        rfl
      rw [hsplit] at hknown ⊢
      obtain ⟨hfirst, hrest⟩ := KnownParts.append.mp hknown
      obtain ⟨next, hnext, hstep⟩ := gathered_selectPart hgathered hfirst
      obtain ⟨last, hlast, hall⟩ := ih hstep hrest
      refine ⟨last, ?_, by rwa [← List.append_assoc]⟩
      rw [List.foldlM_cons, hnext]
      exact hlast

/-! ## The set a selector resolves to -/

variable {selector : String}

theorem isEmpty_excluded_iff (hgathered : Gathered inventory parts chosen) :
    chosen.excluded.isEmpty = true ↔ ∀ name, ¬ inventory.Excluded parts name := by
  rw [Std.TreeSet.isEmpty_iff_forall_not_mem]
  simp only [hgathered.excluded]

/-- What is kept of a proper selector's base is what the selector means. -/
theorem mem_kept_iff (hgathered : Gathered inventory parts chosen)
    (hproper : inclusionsIn parts = [] →
      ∃ name, inventory.Excluded parts name) (name : String) :
    name ∈ ((inventory.base chosen).filter fun name =>
        !chosen.excluded.contains name).toList ↔
      inventory.Included parts name ∧ ¬ inventory.Excluded parts name := by
  rw [Std.TreeSet.toList_filter, List.mem_filter, Std.TreeSet.mem_toList,
    Bool.not_eq_true', ← Bool.not_eq_true, Std.TreeSet.contains_iff_mem,
    hgathered.excluded]
  apply and_congr_left'
  rw [base, Included]
  by_cases hsaw : chosen.sawInclude = true
  · rw [if_pos hsaw, hgathered.included]
    constructor
    · exact .inl
    · rintro (hincluded | ⟨hnone, -⟩)
      · exact hincluded
      · exact absurd hnone (hgathered.sawInclude.mp hsaw)
  · rw [if_neg hsaw]
    have hnone : inclusionsIn parts = [] := by
      by_contra hsome
      exact hsaw (hgathered.sawInclude.mpr hsome)
    obtain ⟨_, atom, hatom, -⟩ := hproper hnone
    simp only [hnone, List.not_mem_nil, false_and, exists_false, false_or,
      true_and, ne_eq, List.ne_nil_of_mem hatom, not_false_eq_true]
    rw [Std.TreeSet.mem_ofList, List.contains_iff_mem, BTreeMap.mem_keys_iff]
    rfl

/-- A selector of known atoms resolves to the set it means, unless that set is
empty or the selector excludes nothing. -/
theorem resolve_cases (hknown : inventory.KnownSelector selector) :
    (∃ names, inventory.resolve selector = .ok names ∧ Ordered names ∧
        names ≠ [] ∧ (∀ name, name ∈ names ↔ name ∈ inventory.Meaning selector) ∧
        ¬ inventory.ExcludesNothing selector) ∨
      ((∃ error, inventory.resolve selector = .error error) ∧
        (inventory.Meaning selector = ∅ ∨
          inventory.ExcludesNothing selector)) := by
  obtain ⟨chosen, hchosen, hgathered⟩ :=
    gathered_foldlM (@gathered_start inventory) hknown
  rw [List.nil_append] at hgathered
  change Gathered inventory (selectorParts selector) chosen at hgathered
  have hresolve : inventory.resolve selector =
      inventory.settle selector chosen := by
    rw [resolve, hchosen]
    rfl
  rw [hresolve, settle]
  have hbare : (!chosen.sawInclude && chosen.excluded.isEmpty) = true ↔
      inclusions selector = [] ∧
        ∀ name, ¬ inventory.Excluded (selectorParts selector) name := by
    rw [Bool.and_eq_true, isEmpty_excluded_iff hgathered, Bool.not_eq_true',
      ← Bool.not_eq_true, hgathered.sawInclude, not_not]
    rfl
  by_cases hempty : (!chosen.sawInclude && chosen.excluded.isEmpty) = true
  · rw [if_pos hempty]
    obtain ⟨hnone, hnothing⟩ := hbare.mp hempty
    refine .inr ⟨⟨_, rfl⟩, ?_⟩
    by_cases hexcludes : inventory.ExcludesNothing selector
    · exact .inr hexcludes
    · refine .inl (Set.eq_empty_of_forall_notMem ?_)
      rintro name ⟨⟨atom, hatom, -⟩ | ⟨-, hsome, hmember⟩, -⟩
      · change atom ∈ inclusions selector at hatom
        rw [hnone] at hatom
        cases hatom
      · exact hexcludes ⟨hnone, hsome, hnothing, ⟨name, hmember⟩⟩
  · rw [if_neg hempty]
    have hproper (hnone : inclusionsIn (selectorParts selector) = []) :
        ∃ name, inventory.Excluded (selectorParts selector) name := by
      by_contra hnothing
      exact hempty (hbare.mpr ⟨hnone, not_exists.mp hnothing⟩)
    have hkept := mem_kept_iff hgathered hproper
    generalize hlist : ((inventory.base chosen).filter fun name =>
      !chosen.excluded.contains name).toList = names at hkept
    have hordered : Ordered names := hlist ▸ Std.TreeSet.ordered_toList
    dsimp only
    by_cases hnil : names = []
    · refine .inr ⟨⟨.resolvesToNothing selector, by simp [hnil]⟩, .inl ?_⟩
      refine Set.eq_empty_of_forall_notMem fun name hmeant => ?_
      have hmem := (hkept name).mpr hmeant
      rw [hnil] at hmem
      cases hmem
    · refine .inl ⟨names, by simp [hnil], hordered, hnil, hkept, ?_⟩
      intro hexcludes
      obtain ⟨name, hexcluded⟩ := hproper hexcludes.bare
      exact hexcludes.nothing name hexcluded

/-- Sorted lists of the same names are the same. -/
theorem resolve_eq_ok_iff (hknown : inventory.KnownSelector selector)
    {names : List String} : inventory.resolve selector = .ok names ↔
      ¬ inventory.ExcludesNothing selector ∧ Ordered names ∧ names ≠ [] ∧
        ∀ name, name ∈ names ↔ name ∈ inventory.Meaning selector := by
  rcases resolve_cases hknown with
    ⟨resolved, hresolve, hordered, hsome, hmem, hproper⟩ |
    ⟨⟨error, hresolve⟩, hnone⟩
  · rw [hresolve]
    constructor
    · intro hnames
      cases hnames
      exact ⟨hproper, hordered, hsome, hmem⟩
    · rintro ⟨-, hnames, -, hsame⟩
      rw [hordered.eq hnames fun name => (hmem name).trans (hsame name).symm]
  · rw [hresolve]
    constructor
    · intro hnames
      cases hnames
    · rintro ⟨hproper, -, hsome, hmem⟩
      rcases hnone with hempty | hexcludes
      · obtain ⟨name, hname⟩ := List.exists_mem_of_ne_nil _ hsome
        rw [hmem, hempty] at hname
        cases hname
      · exact absurd hexcludes hproper

theorem meaning_of_excludesNothing
    (hexcludes : inventory.ExcludesNothing selector) :
    inventory.Meaning selector ≠ ∅ := by
  obtain ⟨name, hmember⟩ := hexcludes.fleet
  exact Set.nonempty_iff_ne_empty.mp ⟨name,
    .inr ⟨hexcludes.bare, hexcludes.excludes, hmember⟩,
    hexcludes.nothing name⟩

/-! ## Rearranged selectors -/

theorem perm_of_rearranged {other : String}
    (hrearranged : Rearranged selector other) :
    (selectorParts selector).Perm (selectorParts other) := by
  have hblank (space : Char) (hspace : isWhiteSpace space) :
      isSeparator space = false := by
    rw [← Bool.not_eq_true]
    intro hseparator
    rw [isSeparator, Bool.or_eq_true] at hseparator
    rcases hseparator with hseparator | hseparator <;>
    · rw [of_decide_eq_true hseparator] at hspace
      cases hspace
  exact perm_pieces_of_eqvGen hblank hrearranged

variable {left right : List (List Char)}

theorem perm_nil_iff {A : Type} {left right : List A} (hperm : left.Perm right) :
    left = [] ↔ right = [] := by
  rw [← List.length_eq_zero_iff, hperm.length_eq, List.length_eq_zero_iff]

theorem included_of_perm (hperm : left.Perm right) (name : String) :
    inventory.Included left name ↔ inventory.Included right name := by
  have hinclusions : (inclusionsIn left).Perm (inclusionsIn right) :=
    hperm.filterMap _
  have hexclusions : (exclusionsIn left).Perm (exclusionsIn right) :=
    hperm.filterMap _
  simp only [Included, hinclusions.mem_iff, ne_eq, perm_nil_iff hinclusions,
    perm_nil_iff hexclusions]

theorem excluded_of_perm (hperm : left.Perm right) (name : String) :
    inventory.Excluded left name ↔ inventory.Excluded right name := by
  have hexclusions : (exclusionsIn left).Perm (exclusionsIn right) :=
    hperm.filterMap _
  simp only [Excluded, hexclusions.mem_iff]

theorem known_of_perm (hperm : left.Perm right)
    (hknown : KnownParts inventory left) : KnownParts inventory right := by
  have hinclusions : (inclusionsIn left).Perm (inclusionsIn right) :=
    hperm.filterMap _
  have hexclusions : (exclusionsIn left).Perm (exclusionsIn right) :=
    hperm.filterMap _
  intro atom hatom
  exact hknown atom ((hinclusions.append hexclusions).mem_iff.mpr hatom)

theorem ExcludesNothing.of_perm {other : String}
    (hperm : (selectorParts selector).Perm (selectorParts other))
    (hexcludes : inventory.ExcludesNothing selector) :
    inventory.ExcludesNothing other where
  bare := (perm_nil_iff (hperm.filterMap inclusionOf)).mp hexcludes.bare
  excludes hnone := hexcludes.excludes
    ((perm_nil_iff (hperm.filterMap exclusionOf)).mpr hnone)
  nothing name hexcluded :=
    hexcludes.nothing name ((excluded_of_perm hperm name).mpr hexcluded)
  fleet := hexcludes.fleet

/-- However a selector of known atoms is rearranged, it resolves to the same
members. -/
theorem resolve_of_rearranged (hknown : inventory.KnownSelector selector)
    {other : String} (hrearranged : Rearranged selector other) :
    (inventory.resolve other).toOption =
      (inventory.resolve selector).toOption := by
  have hperm := perm_of_rearranged hrearranged
  have hother : inventory.KnownSelector other := known_of_perm hperm hknown
  have hmeaning : inventory.Meaning other = inventory.Meaning selector := by
    ext name
    exact and_congr (included_of_perm hperm name).symm
      (not_congr (excluded_of_perm hperm name).symm)
  have hexcludes : inventory.ExcludesNothing other ↔
      inventory.ExcludesNothing selector :=
    ⟨.of_perm hperm.symm, .of_perm hperm⟩
  have hread (result : Except InventoryError (List String))
      (names : List String) :
      result.toOption = some names ↔ result = .ok names := by
    cases result <;> simp [Except.toOption]
  ext names
  rw [hread, hread, resolve_eq_ok_iff hknown, resolve_eq_ok_iff hother,
    hmeaning, hexcludes]

/-! ## Lists of atoms -/

/-- An atom that reads as itself between commas. -/
structure PlainAtom (atom : String) : Prop where
  nonempty : atom.toList ≠ []
  characters : ∀ character ∈ atom.toList,
    isWhiteSpace character = false ∧ isSeparator character = false
  included : atom.toList.head? ≠ some '!'

theorem selectorParts_atoms {atoms : List String}
    (hplain : ∀ atom ∈ atoms, PlainAtom atom) :
    selectorParts (",".intercalate atoms) = atoms.map String.toList := by
  rw [selectorParts, String.toList_intercalate]
  change pieces isSeparator ([','].intercalate (atoms.map String.toList)) = _
  rw [pieces_intercalate rfl, List.map_map]
  · have htrim : atoms.map (trim ∘ String.toList) = atoms.map String.toList := by
      apply List.map_congr_left
      intro atom hatom
      exact trim_of_not_whiteSpace fun character hmem =>
        ((hplain atom hatom).characters character hmem).1
    rw [htrim, List.filter_eq_self]
    intro part hpart
    obtain ⟨atom, hatom, rfl⟩ := List.mem_map.mp hpart
    simpa using (hplain atom hatom).nonempty
  · intro part hpart character hmem
    obtain ⟨atom, hatom, rfl⟩ := List.mem_map.mp hpart
    exact ((hplain atom hatom).characters character hmem).2

/-- A list of plain atoms includes them all and excludes none. -/
theorem inclusions_atoms {atoms : List String}
    (hplain : ∀ atom ∈ atoms, PlainAtom atom) :
    inclusions (",".intercalate atoms) = atoms ∧
      exclusions (",".intercalate atoms) = [] := by
  rw [inclusions, exclusions, inclusionsIn, exclusionsIn,
    selectorParts_atoms hplain, List.filterMap_map, List.filterMap_map]
  have hpart (atom : String) (hatom : atom ∈ atoms) :
      inclusionOf atom.toList = some atom ∧ exclusionOf atom.toList = none := by
    have hincluded := (hplain atom hatom).included
    constructor
    · unfold inclusionOf
      split
      · next heq =>
          rw [heq] at hincluded
          exact absurd rfl hincluded
      · rw [String.ofList_toList]
    · unfold exclusionOf
      split
      · next heq =>
          rw [heq] at hincluded
          exact absurd rfl hincluded
      · rfl
  constructor
  · exact (List.filterMap_congr fun atom hatom => (hpart atom hatom).1).trans
      List.filterMap_some
  · exact List.filterMap_eq_nil_iff.mpr fun atom hatom => (hpart atom hatom).2

/-- A list of known atoms, one of which denotes a member, resolves to all the
members they denote. -/
theorem resolve_atoms {atoms : List String}
    (hplain : ∀ atom ∈ atoms, PlainAtom atom)
    (hknown : ∀ atom ∈ atoms, inventory.Known atom)
    (hsome : ∃ atom ∈ atoms, ∃ name, inventory.Denotes atom name) :
    ∃ names, inventory.resolve (",".intercalate atoms) = .ok names ∧
      Ordered names ∧
      ∀ name, name ∈ names ↔ ∃ atom ∈ atoms, inventory.Denotes atom name := by
  obtain ⟨hincludes, hexcludes⟩ := inclusions_atoms hplain
  obtain ⟨first, hfirst, member, hmember⟩ := hsome
  have hselector : inventory.KnownSelector (",".intercalate atoms) := by
    intro atom hatom
    rw [hincludes, hexcludes, List.append_nil] at hatom
    exact hknown atom hatom
  have hmeaning (name : String) :
      name ∈ inventory.Meaning (",".intercalate atoms) ↔
        ∃ atom ∈ atoms, inventory.Denotes atom name := by
    change ((∃ atom ∈ inclusions (",".intercalate atoms),
      inventory.Denotes atom name) ∨
        inclusions (",".intercalate atoms) = [] ∧ _) ∧
      ¬ (∃ atom ∈ exclusions (",".intercalate atoms),
        inventory.Denotes atom name) ↔ _
    rw [hincludes, hexcludes]
    simp [List.ne_nil_of_mem hfirst]
  rcases resolve_cases hselector with
    ⟨names, hresolve, hordered, -, hmem, -⟩ | ⟨-, hempty | hnothing⟩
  · exact ⟨names, hresolve, hordered, fun name => (hmem name).trans (hmeaning name)⟩
  · have hmeant := (hmeaning member).mpr ⟨first, hfirst, hmember⟩
    rw [hempty] at hmeant
    cases hmeant
  · exact absurd hexcludes hnothing.excludes

/-! ## Canonical forms -/

theorem resolve_members {names : List String}
    (hresolve : inventory.resolve selector = .ok names) :
    Canonical inventory names ∧ Ordered names := by
  have hcanonical := canonical_of_resolve hresolve
  obtain ⟨set, hset⟩ := hcanonical.sorted
  exact ⟨hcanonical, hset ▸ Std.TreeSet.ordered_toList⟩

theorem PlainAtom.of_bareName {name : String} (hbare : BareName name) :
    PlainAtom name where
  nonempty := hbare.nonempty
  characters character hmem := by
    have hname := hbare.characters character hmem
    refine ⟨isWhiteSpace_of_isNameChar hname, ?_⟩
    rw [← Bool.not_eq_true]
    intro hseparator
    have hmark := isSelectorMark_of_isSeparator hseparator
    rw [isSelectorMark_of_isNameChar hname] at hmark
    cases hmark
  included hhead := by
    obtain ⟨rest, hchars⟩ := List.head?_eq_some_iff.mp hhead
    exact (first_of_bareName hbare hchars).1 rfl

/-- The canonical form of a set of members resolves to it. -/
theorem resolve_canonical {names : List String}
    (hcanonical : Canonical inventory names) (hordered : Ordered names) :
    inventory.resolve (",".intercalate names) = .ok names := by
  have hbare := hcanonical.bareName
  have hmember (name : String) (hname : name ∈ names) : inventory.IsMember name :=
    hcanonical.members name hname
  obtain ⟨first, hfirst⟩ := List.exists_mem_of_ne_nil _ hcanonical.nonempty
  obtain ⟨resolved, hresolve, hresolved, hmem⟩ := resolve_atoms
    (fun name hname => .of_bareName (hbare name hname))
    (fun name hname => .member (hmember name hname))
    ⟨first, hfirst, first, .member (hmember first hfirst)⟩
  rw [hresolve, hresolved.eq hordered]
  intro name
  rw [hmem]
  constructor
  · rintro ⟨atom, hatom, hdenotes⟩
    rw [denotes_bareName (hbare atom hatom)] at hdenotes
    exact hdenotes.1 ▸ hatom
  · exact fun hname => ⟨name, hname, .member (hmember name hname)⟩

theorem toLimit_eq_ok_iff {limit : String} :
    inventory.toLimit selector = .ok limit ↔
      ∃ names, inventory.resolve selector = .ok names ∧
        ",".intercalate names = limit := by
  rw [toLimit]
  cases inventory.resolve selector with
  | error error => simp [Except.map]
  | ok names => simp [Except.map]

theorem toLimit_toLimit {limit : String}
    (hlimit : inventory.toLimit selector = .ok limit) :
    inventory.toLimit limit = .ok limit := by
  obtain ⟨names, hresolve, rfl⟩ := toLimit_eq_ok_iff.mp hlimit
  obtain ⟨hcanonical, hordered⟩ := resolve_members hresolve
  exact toLimit_eq_ok_iff.mpr
    ⟨names, resolve_canonical hcanonical hordered, rfl⟩

/-- The limits of two selectors agree exactly when what they resolve to
does. -/
theorem toLimit_eq_iff (selector other : String) :
    (inventory.toLimit selector).toOption = (inventory.toLimit other).toOption ↔
      (inventory.resolve selector).toOption =
        (inventory.resolve other).toOption := by
  rw [toLimit, toLimit]
  cases hleft : inventory.resolve selector with
  | error left =>
      cases inventory.resolve other <;> simp [Except.map, Except.toOption]
  | ok left =>
      cases hright : inventory.resolve other with
      | error right => simp [Except.map, Except.toOption]
      | ok right =>
          simp only [Except.map, Except.toOption, Option.some.injEq]
          constructor
          · intro hsame
            have hback (names : List String)
                (hresolve : Canonical inventory names ∧ Ordered names) :=
              resolve_canonical hresolve.1 hresolve.2
            have hboth := hback left (resolve_members hleft)
            rw [hsame, hback right (resolve_members hright)] at hboth
            cases hboth
            rfl
          · rintro rfl
            rfl

/-- A selector that names only known members and groups means what it says,
exactly unless it is a bare exclusion of nothing. -/
theorem selectorAlgebra_iff (inventory : Inventory) (selector : String)
    (hknown : inventory.KnownSelector selector) :
    inventory.SelectorAlgebra selector ↔
      ¬ inventory.ExcludesNothing selector := by
  constructor
  · intro halgebra hexcludes
    rcases resolve_cases hknown with ⟨_, -, -, -, -, hproper⟩ | ⟨herror, -⟩
    · exact hproper hexcludes
    · exact meaning_of_excludesNothing hexcludes (halgebra.refused.mp herror)
  · intro hproper
    refine ⟨fun names => ?_, ?_, fun other => resolve_of_rearranged hknown,
      fun limit => toLimit_toLimit, toLimit_eq_iff selector⟩
    · rw [resolve_eq_ok_iff hknown]
      exact and_iff_right hproper
    · rcases resolve_cases hknown with
        ⟨names, hresolve, -, hsome, hmem, -⟩ | ⟨herror, hnone⟩
      · rw [hresolve]
        constructor
        · rintro ⟨error, herror⟩
          cases herror
        · intro hempty
          obtain ⟨name, hname⟩ := List.exists_mem_of_ne_nil _ hsome
          rw [hmem, hempty] at hname
          cases hname
      · exact ⟨fun _ => hnone.resolve_right hproper, fun _ => herror⟩

end Inventory

/-! ## A group without members -/

def idleFleet : Inventory :=
  { aggregate :=
      { schemaVersion := .int 1
        members := (∅ : BTreeMap Member).insert "web"
          { fields := [("name", .string "web")] }
        groups := (∅ : BTreeMap (List String)).insert "retired" []
        extra := [] }
    controllerPlatform := none
    checked := by rfl }

theorem isMember_web : idleFleet.IsMember "web" :=
  Option.isSome_iff_ne_none.mp (by decide +kernel)

theorem groups_retired : idleFleet.groups["retired"]? = some [] := by
  decide +kernel

theorem known_retired : idleFleet.Known "@retired" :=
  @Inventory.Known.group idleFleet "retired"
    (groups_retired ▸ Option.some_ne_none _)

theorem denotes_retired (name : String) :
    ¬ idleFleet.Denotes "@retired" name := by
  have hgroup : "@retired" = "@" ++ "retired" := by decide +kernel
  rw [hgroup, Inventory.denotes_group groups_retired]
  exact List.not_mem_nil

theorem selectorAlgebra_iff_web :
    idleFleet.SelectorAlgebra "web, !@retired" ↔
      ¬ idleFleet.ExcludesNothing "web, !@retired" := by
  apply Inventory.selectorAlgebra_iff
  have hparts : inclusions "web, !@retired" ++ exclusions "web, !@retired" =
      ["web", "@retired"] := by decide +kernel
  intro atom hatom
  rw [hparts] at hatom
  rcases List.mem_pair.mp hatom with rfl | rfl
  · exact .member isMember_web
  · exact known_retired

/-- Everyone but a group without members is refused as no selector at all. -/
theorem selectorAlgebra_fails_retired :
    idleFleet.KnownSelector "!@retired" ∧
      ¬ idleFleet.SelectorAlgebra "!@retired" := by
  have hincludes : inclusions "!@retired" = [] := by decide +kernel
  have hexcludes : exclusions "!@retired" = ["@retired"] := by decide +kernel
  constructor
  · intro atom hatom
    rw [hincludes, hexcludes, List.nil_append] at hatom
    rw [List.mem_singleton.mp hatom]
    exact known_retired
  · intro halgebra
    have hrefused : (idleFleet.resolve "!@retired").toOption = none := by
      decide +kernel
    have herror : ∃ error, idleFleet.resolve "!@retired" = .error error := by
      cases hresolve : idleFleet.resolve "!@retired" with
      | error error => exact ⟨error, rfl⟩
      | ok names =>
          rw [hresolve] at hrefused
          cases hrefused
    have hempty := halgebra.refused.mp herror
    have hweb : "web" ∈ idleFleet.Meaning "!@retired" := by
      refine ⟨.inr ⟨hincludes, ?_, isMember_web⟩, ?_⟩
      · change exclusions "!@retired" ≠ []
        rw [hexcludes]
        exact List.cons_ne_nil _ _
      · rintro ⟨atom, hatom, hdenotes⟩
        change atom ∈ exclusions "!@retired" at hatom
        rw [hexcludes, List.mem_singleton] at hatom
        subst hatom
        exact denotes_retired "web" hdenotes
    rw [hempty] at hweb
    cases hweb

end Mandala.Fleet
