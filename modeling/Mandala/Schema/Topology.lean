import Mandala.Nix.Attrs
import Mandala.Nix.Text

/-!
# Addresses of a topology

The address checks split a text at its separators and judge the pieces.  The
check for IPv6 throws empty pieces away, so that it takes a well-formed address
with a colon too many for a well-formed one.
-/

namespace Mandala.Schema

open Mandala.Data
open Mandala.Nix

/-! ## The checks -/

/-- A piece of an IPv4 address; no result is a failed evaluation. -/
def octet (text : List Char) : Option Bool :=
  if decimal text then
    (toInt text).map fun number => decide (0 ≤ number ∧ number ≤ 255)
  else some false

def ipv4 (value : List Char) : Option Bool :=
  let octets := splitString ['.'] value
  if octets.length = 4 then octets.allM octet else some false

/-- What follows the slash. -/
def prefixWithin (bound : Int) (text : List Char) : Option Bool :=
  if decimal text then
    (toInt text).map fun length => decide (0 ≤ length ∧ length ≤ bound)
  else some false

/-- An address and its prefix length. -/
def cidr (address : List Char → Option Bool) (bound : Int)
    (value : List Char) : Option Bool :=
  let parts := splitString ['/'] value
  if parts.length = 2 then
    (address (parts.head?.getD [])).bind fun accepted =>
      if accepted then prefixWithin bound (parts.getLast?.getD [])
      else some false
  else some false

def ipv4Cidr (value : List Char) : Option Bool := cidr ipv4 32 value

/-- `[0-9A-Fa-f]`. -/
def isHex (character : Char) : Bool :=
  character.isDigit || ('A' ≤ character && character ≤ 'F') ||
    ('a' ≤ character && character ≤ 'f')

/-- `builtins.match "[0-9A-Fa-f]{1,4}"`. -/
def isGroup (group : List Char) : Bool :=
  group.all isHex && 1 ≤ group.length && group.length ≤ 4

def colons : List Char := [':', ':']

def ipv6 (value : List Char) : Bool :=
  let halves := splitString colons value
  let groups := halves.flatMap fun half =>
    (splitString [':'] half).filter (!·.isEmpty)
  halves.length ≤ 2 && groups.all isGroup &&
    (if halves.length = 2 then groups.length < 8 else groups.length = 8)

def ipv6Cidr (value : List Char) : Option Bool :=
  cidr (fun address => some (ipv6 address)) 128 value

def ip (value : List Char) : Option Bool :=
  (ipv4 value).bind fun accepted =>
    if accepted then some true else some (ipv6 value)

/-! ## What an address is -/

/-- Four octets without leading zeros. -/
def Ipv4 (value : List Char) : Prop :=
  ∃ octets : List ℕ, octets.length = 4 ∧ (∀ number ∈ octets, number ≤ 255) ∧
    value = ['.'].intercalate (octets.map (Nat.toDigits 10))

def joined (groups : List (List Char)) : List Char := [':'].intercalate groups

/-- Eight groups, or fewer around one double colon. -/
def Ipv6 (value : List Char) : Prop :=
  (∃ groups : List (List Char), groups.length = 8 ∧
    (∀ group ∈ groups, isGroup group) ∧ value = joined groups) ∨
  ∃ left right : List (List Char), (left ++ right).length < 8 ∧
    (∀ group ∈ left ++ right, isGroup group) ∧
    value = joined left ++ colons ++ joined right

/-- An address, a slash, and a prefix length. -/
def Cidr (address : List Char → Prop) (bound : ℕ) (value : List Char) : Prop :=
  ∃ base, address base ∧ ∃ length ≤ bound,
    value = base ++ '/' :: Nat.toDigits 10 length

/-- Groups that may have a colon in front of them and one behind them. -/
def colonated (front : Bool) (groups : List (List Char)) (back : Bool) :
    List Char :=
  (if front then [':'] else []) ++ joined groups ++ (if back then [':'] else [])

/-- The spelling of an address with extra colons: before its first group, at its
double colon, and after its last group. -/
def Spelled (front middle back : Bool) (value : List Char) : Prop :=
  (middle = false ∧ ∃ groups : List (List Char), groups.length = 8 ∧
    (∀ group ∈ groups, isGroup group) ∧
    value = colonated front groups back) ∨
  ∃ left right : List (List Char), (left ++ right).length < 8 ∧
    (∀ group ∈ left ++ right, isGroup group) ∧
    (front → left ≠ []) ∧ (back → right ≠ []) ∧
    value = colonated front left false ++ colons ++ colonated middle right back

/-- An address with a colon too many. -/
def ExtraColon (value : List Char) : Prop :=
  ∃ front middle back, (front || middle || back) = true ∧
    Spelled front middle back value

/-! ## Groups of a half -/

/-- The groups of a half, the empty ones thrown away. -/
def groupsOf (half : List Char) : List (List Char) :=
  (splitString [':'] half).filter (!·.isEmpty)

/-- A group is not empty and holds no separator. -/
theorem mem_of_isGroup {group : List Char} (hgroup : isGroup group) :
    group ≠ [] ∧ ∀ character ∈ group, isHex character := by
  rw [isGroup, Bool.and_eq_true, Bool.and_eq_true, List.all_eq_true,
    decide_eq_true_eq] at hgroup
  exact ⟨List.length_pos_iff.mp hgroup.1.2, hgroup.1.1⟩

theorem not_mem_of_isGroup {group : List Char} (hgroup : isGroup group)
    {separator : Char} (hsep : isHex separator = false) : separator ∉ group :=
  fun hmem => Bool.false_ne_true (hsep.symm.trans ((mem_of_isGroup hgroup).2 _ hmem))

theorem joined_cons (group : List Char) (groups : List (List Char)) :
    joined (group :: groups) = group ++ groups.flatMap (':' :: ·) := by
  induction groups generalizing group with
  | nil => rw [joined, List.intercalate_singleton, List.flatMap_nil, List.append_nil]
  | cons next groups ih =>
      rw [joined, List.intercalate_cons_cons, ← joined, ih, List.flatMap_cons,
        List.append_assoc, List.singleton_append, List.cons_append]

theorem splitString_joined {groups : List (List Char)} (hne : groups ≠ [])
    (hgroups : ∀ group ∈ groups, isGroup group) :
    splitString [':'] (joined groups) = groups := by
  rw [splitString_single, joined]
  exact List.splitOn_intercalate ':'
    (fun group hmem => not_mem_of_isGroup (hgroups group hmem) rfl) hne

theorem groupsOf_append_colon (half rest : List Char) :
    groupsOf (half ++ ':' :: rest) = groupsOf half ++ groupsOf rest := by
  rw [groupsOf, splitString_single, List.splitOn_append_cons_self,
    List.filter_append, groupsOf, groupsOf, splitString_single, splitString_single]

theorem groupsOf_joined {groups : List (List Char)}
    (hgroups : ∀ group ∈ groups, isGroup group) :
    groupsOf (joined groups) = groups := by
  rcases eq_or_ne groups [] with rfl | hne
  · rfl
  · rw [groupsOf, splitString_joined hne hgroups, List.filter_eq_self]
    intro group hmem
    rw [Bool.not_eq_true', List.isEmpty_eq_false_iff]
    exact (mem_of_isGroup (hgroups group hmem)).1

/-- Colons around the groups make no difference to them. -/
theorem groupsOf_colonated {groups : List (List Char)} (front back : Bool)
    (hgroups : ∀ group ∈ groups, isGroup group) :
    groupsOf (colonated front groups back) = groups := by
  have hfront (text : List Char) : groupsOf (':' :: text) = groupsOf text :=
    groupsOf_append_colon [] text
  have hback (text : List Char) : groupsOf (text ++ [':']) = groupsOf text := by
    rw [groupsOf_append_colon, show groupsOf [] = [] from rfl, List.append_nil]
  rw [colonated, List.append_assoc]
  cases front <;> cases back <;>
    simp [hfront, hback, groupsOf_joined hgroups]

/-- Behind a colon, pieces without two colons in a row are all groups, apart
from an empty last one. -/
theorem exists_back {pieces : List (List Char)}
    (hnone : ¬ colons <:+: pieces.flatMap (':' :: ·)) :
    ∃ back : Bool, pieces.flatMap (':' :: ·) =
      (pieces.filter (!·.isEmpty)).flatMap (':' :: ·) ++
        if back then [':'] else [] := by
  induction pieces with
  | nil => exact ⟨false, rfl⟩
  | cons piece pieces ih =>
      obtain ⟨back, hback⟩ := ih fun hwithin => hnone
        (hwithin.trans (List.suffix_append _ _).isInfix)
      rcases eq_or_ne piece [] with rfl | hne
      · cases pieces with
        | nil => exact ⟨true, rfl⟩
        | cons next pieces => exact absurd (List.prefix_append _ _).isInfix hnone
      · refine ⟨back, ?_⟩
        rw [List.filter_cons_of_pos (by simpa using hne), List.flatMap_cons,
          List.flatMap_cons, hback, List.append_assoc]

/-- A half is its groups, with a colon in front or behind where it has one. -/
theorem exists_colonated {half : List Char} (hnone : ¬ colons <:+: half) :
    ∃ front back : Bool, (back → groupsOf half ≠ []) ∧
      half = colonated front (groupsOf half) back := by
  obtain ⟨piece, pieces, hpieces⟩ := List.exists_cons_of_ne_nil
    (List.splitOn_ne_nil ':' half)
  have hhalf : half = piece ++ pieces.flatMap (':' :: ·) := by
    rw [← joined_cons, ← hpieces, joined, List.intercalate_splitOn]
  obtain ⟨back, hback⟩ := exists_back fun hwithin => hnone
    (hwithin.trans (hhalf ▸ (List.suffix_append _ _).isInfix))
  have hgroups : groupsOf half = (piece :: pieces).filter (!·.isEmpty) := by
    rw [groupsOf, splitString_single, hpieces]
  rcases eq_or_ne piece [] with rfl | hne
  · rw [List.filter_cons_of_neg (by simp)] at hgroups
    rw [List.nil_append, hback, ← hgroups] at hhalf
    cases hempty : groupsOf half with
    | nil =>
        rw [hempty, List.flatMap_nil, List.nil_append] at hhalf
        refine ⟨back, false, nofun, ?_⟩
        rw [hhalf, colonated, joined, List.intercalate_nil, List.append_nil]
        exact (List.append_nil _).symm
    | cons group groups =>
        refine ⟨true, back, fun _ => List.cons_ne_nil _ _, ?_⟩
        rw [colonated, joined_cons, if_pos rfl]
        rwa [hempty, List.flatMap_cons] at hhalf
  · rw [List.filter_cons_of_pos (by simpa using hne)] at hgroups
    refine ⟨false, back, fun _ => hgroups ▸ List.cons_ne_nil _ _, ?_⟩
    rw [hgroups, colonated, joined_cons, List.append_assoc, List.append_assoc,
      ← hback]
    exact hhalf

/-! ## Where two colons stand -/

theorem colons_ne_nil : colons ≠ [] := List.cons_ne_nil _ _

/-- Characters other than colons make no double colon. -/
theorem not_infix_append {piece rest : List Char} (hpiece : ':' ∉ piece)
    (hrest : ¬ colons <:+: rest) : ¬ colons <:+: piece ++ rest := by
  induction piece with
  | nil => exact hrest
  | cons character piece ih =>
      rw [List.mem_cons, not_or] at hpiece
      rw [List.cons_append, List.infix_cons_iff, not_or]
      exact ⟨fun hstart => hpiece.1 (List.cons_prefix_cons.mp hstart).1,
        ih hpiece.2⟩

theorem not_infix_flatMap {groups : List (List Char)} (back : Bool)
    (hgroups : ∀ group ∈ groups, isGroup group) :
    ¬ colons <:+: groups.flatMap (':' :: ·) ++ if back then [':'] else [] := by
  induction groups with
  | nil => cases back <;> decide
  | cons group groups ih =>
      obtain ⟨hgroup, hgroups⟩ := List.forall_mem_cons.mp hgroups
      have hcolon := not_mem_of_isGroup hgroup (show isHex ':' = false from rfl)
      rw [List.flatMap_cons, List.append_assoc, List.cons_append,
        List.infix_cons_iff, not_or]
      refine ⟨fun hstart => ?_, not_infix_append hcolon (ih hgroups)⟩
      obtain ⟨character, rest, rfl⟩ :=
        List.exists_cons_of_ne_nil (mem_of_isGroup hgroup).1
      have hsame := (List.cons_prefix_cons.mp hstart).2
      exact hcolon ((List.cons_prefix_cons.mp hsame).1 ▸ List.mem_cons_self)

theorem not_infix_colonated {front back : Bool} {groups : List (List Char)}
    (hgroups : ∀ group ∈ groups, isGroup group)
    (hboth : front → back → groups ≠ []) :
    ¬ colons <:+: colonated front groups back := by
  cases groups with
  | nil =>
      cases front <;> cases back
      · decide
      · decide
      · decide
      · exact absurd rfl (hboth rfl rfl)
  | cons group groups =>
      rw [colonated, joined_cons, List.append_assoc]
      cases front with
      | true =>
          have hnone := not_infix_flatMap back hgroups
          rw [List.flatMap_cons] at hnone
          simpa using hnone
      | false =>
          obtain ⟨hgroup, hgroups⟩ := List.forall_mem_cons.mp hgroups
          rw [if_neg Bool.false_ne_true, List.nil_append, List.append_assoc]
          exact not_infix_append (not_mem_of_isGroup hgroup rfl)
            (not_infix_flatMap back hgroups)

theorem not_infix_joined {groups : List (List Char)}
    (hgroups : ∀ group ∈ groups, isGroup group) : ¬ colons <:+: joined groups := by
  have hplain : colonated false groups false = joined groups := by simp [colonated]
  exact hplain ▸ not_infix_colonated hgroups nofun

/-- A half that begins or ends in a colon. -/
def Stray (half : List Char) : Prop :=
  half.head? = some ':' ∨ half.getLast? = some ':'

theorem not_stray_joined {groups : List (List Char)}
    (hgroups : ∀ group ∈ groups, isGroup group) : ¬ Stray (joined groups) := by
  rcases eq_or_ne groups [] with rfl | hne
  · rintro (hhead | hlast)
    · cases hhead
    · cases hlast
  -- A colon at an end leaves an empty piece there.
  have hpieces := splitString_joined hne hgroups
  rw [splitString_single] at hpieces
  have hempty : [] ∉ groups := fun hmem => (mem_of_isGroup (hgroups [] hmem)).1 rfl
  rintro (hhead | hlast)
  · obtain ⟨rest, hrest⟩ := List.head?_eq_some_iff.mp hhead
    have hsplit := List.splitOn_append_cons_self (a := ':') [] rest
    rw [List.nil_append, ← hrest, hpieces, List.splitOn_nil] at hsplit
    exact hempty (hsplit ▸ List.mem_cons_self)
  · obtain ⟨front, hfront⟩ := List.getLast?_eq_some_iff.mp hlast
    have hsplit := List.splitOn_append_cons_self (a := ':') front []
    rw [← hfront, hpieces, List.splitOn_nil] at hsplit
    exact hempty (hsplit ▸ List.mem_append_right _ List.mem_cons_self)

theorem stray_colonated {front back : Bool} {groups : List (List Char)}
    (hgroups : ∀ group ∈ groups, isGroup group) :
    Stray (colonated front groups back) ↔ (front || back) = true := by
  cases front with
  | true => exact iff_of_true (.inl (by simp [colonated])) rfl
  | false =>
      cases back with
      | true => exact iff_of_true (.inr (by simp [colonated])) rfl
      | false =>
          refine iff_of_false ?_ Bool.false_ne_true
          simpa [colonated] using not_stray_joined hgroups

/-! ## The IPv6 check -/

theorem ipv6_iff (value : List Char) :
    ipv6 value = true ↔
      (splitString colons value).length ≤ 2 ∧
      (∀ group ∈ (splitString colons value).flatMap groupsOf, isGroup group) ∧
      if (splitString colons value).length = 2 then
        ((splitString colons value).flatMap groupsOf).length < 8
      else ((splitString colons value).flatMap groupsOf).length = 8 := by
  rw [ipv6, Bool.and_eq_true, Bool.and_eq_true, decide_eq_true_eq,
    List.all_eq_true, and_assoc]
  refine and_congr_right fun _ => and_congr_right fun _ => ?_
  split <;> exact decide_eq_true_iff

theorem splitString_double {front middle back : Bool}
    {left right : List (List Char)} (hleft : ∀ group ∈ left, isGroup group)
    (hright : ∀ group ∈ right, isGroup group) (hfront : front → left ≠ [])
    (hback : back → right ≠ []) :
    splitString colons
        (colonated front left false ++ colons ++ colonated middle right back) =
      [colonated front left false, colonated middle right back] := by
  have hfirst : ¬ colons <:+: colonated front left false ++ colons.dropLast := by
    have hspell : colonated front left false ++ colons.dropLast =
        colonated front left true := by simp [colonated, colons]
    rw [hspell]
    exact not_infix_colonated hleft fun hstart _ => hfront hstart
  have hlast : ¬ colons <:+: colonated middle right back :=
    not_infix_colonated hright fun _ hend => hback hend
  rw [splitString_append colons_ne_nil hfirst, splitString_of_absent hlast]

/-- The halves of a spelling: it is accepted, and it has a colon too many where
one of its halves begins or ends in one. -/
theorem halves_of_spelled {front middle back : Bool} {value : List Char}
    (hspelled : Spelled front middle back value) :
    ipv6 value = true ∧
      ((∃ half ∈ splitString colons value, Stray half) ↔
        (front || middle || back) = true) := by
  rw [ipv6_iff]
  rcases hspelled with ⟨rfl, groups, hlength, hgroups, rfl⟩ |
    ⟨left, right, hlength, hgroups, hfront, hback, rfl⟩
  · have hne : groups ≠ [] := List.length_pos_iff.mp (hlength ▸ by decide)
    have hhalves : splitString colons (colonated front groups back) =
        [colonated front groups back] := splitString_of_absent
      (not_infix_colonated hgroups fun _ _ => hne)
    have hall : [colonated front groups back].flatMap groupsOf = groups := by
      rw [List.flatMap_singleton, groupsOf_colonated front back hgroups]
    rw [hhalves, hall]
    refine ⟨⟨Nat.le_succ 1, hgroups, hlength⟩, ?_⟩
    rw [Bool.or_false, ← stray_colonated hgroups]
    simp only [List.mem_singleton, exists_eq_left]
  · obtain ⟨hleft, hright⟩ := List.forall_mem_append.mp hgroups
    have hhalves := @splitString_double front middle back left right hleft hright
      hfront hback
    have hall : [colonated front left false, colonated middle right back].flatMap
        groupsOf = left ++ right := by
      rw [List.flatMap_cons, List.flatMap_singleton,
        groupsOf_colonated front false hleft, groupsOf_colonated middle back hright]
    rw [hhalves, hall]
    refine ⟨⟨Nat.le_refl 2, hgroups, hlength⟩, ?_⟩
    have hstray : Stray (colonated front left false) ↔ front = true := by
      rw [stray_colonated hleft, Bool.or_false]
    rw [Bool.or_assoc, Bool.or_eq_true front, ← stray_colonated hright, ← hstray]
    simp only [List.mem_cons, List.not_mem_nil, or_false, exists_eq_or_imp,
      exists_eq_left]

theorem exists_spelled_of_ipv6 {value : List Char} (haccept : ipv6 value = true) :
    ∃ front middle back, Spelled front middle back value := by
  obtain ⟨htwo, hgroups, hcount⟩ := (ipv6_iff value).mp haccept
  by_cases hsome : colons <:+: value
  · obtain ⟨left, right, rfl, hfirst⟩ := exists_first_split colons_ne_nil hsome
    rw [splitString_append colons_ne_nil hfirst] at htwo hgroups hcount
    by_cases hagain : colons <:+: right
    · obtain ⟨next, rest, rfl, hnext⟩ := exists_first_split colons_ne_nil hagain
      rw [splitString_append colons_ne_nil hnext, List.length_cons,
        List.length_cons] at htwo
      have hrest := List.length_pos_iff.mpr (splitString_ne_nil colons rest)
      omega
    · rw [splitString_of_absent hagain, List.flatMap_cons,
        List.flatMap_singleton] at hgroups hcount
      have hleft : ¬ colons <:+: left := fun hwithin => hfirst
        (hwithin.trans (List.prefix_append _ _).isInfix)
      obtain ⟨front, stop, hstop, hfront⟩ := exists_colonated hleft
      obtain ⟨middle, back, hback, hright⟩ := exists_colonated hagain
      -- What stands before the double colon does not end in a colon.
      have hopen : left.getLast? ≠ some ':' := by
        intro hlast
        obtain ⟨init, rfl⟩ := List.getLast?_eq_some_iff.mp hlast
        refine hfirst (List.infix_iff_suffix_prefix.mpr ⟨_, ?_, List.prefix_rfl⟩)
        exact ⟨init, (List.append_assoc init [':'] [':']).symm⟩
      have hstop : stop = false := by
        refine Bool.eq_false_iff.mpr fun htrue => hopen ?_
        rw [hfront, htrue, colonated, if_pos rfl, List.getLast?_concat]
      have hleftGroups : front → groupsOf left ≠ [] := by
        intro htrue hnil
        rw [hnil, hstop, htrue] at hfront
        exact hopen (hfront ▸ rfl)
      refine ⟨front, middle, back, .inr ⟨groupsOf left, groupsOf right, ?_,
        hgroups, hleftGroups, hback, ?_⟩⟩
      · exact (if_pos rfl).mp hcount
      · rw [← hright, ← hstop, ← hfront]
  · rw [splitString_of_absent hsome, List.flatMap_singleton] at hgroups hcount
    obtain ⟨front, back, -, hvalue⟩ := exists_colonated hsome
    exact ⟨front, false, back, .inl ⟨rfl, groupsOf value, hcount, hgroups, hvalue⟩⟩

theorem ipv6_iff_spelled (value : List Char) :
    ipv6 value = true ↔ ∃ front middle back, Spelled front middle back value := by
  constructor
  · exact exists_spelled_of_ipv6
  · rintro ⟨front, middle, back, hspelled⟩
    exact (halves_of_spelled hspelled).1

/-- A well-formed address is spelled without extra colons. -/
theorem spelled_iff_ipv6 (value : List Char) :
    Spelled false false false value ↔ Ipv6 value := by
  simp [Spelled, Ipv6, colonated]

theorem ipv6_iff_or (value : List Char) :
    ipv6 value = true ↔ Ipv6 value ∨ ExtraColon value := by
  rw [ipv6_iff_spelled, ← spelled_iff_ipv6]
  constructor
  · rintro ⟨front, middle, back, hspelled⟩
    by_cases hextra : (front || middle || back) = true
    · exact .inr ⟨front, middle, back, hextra, hspelled⟩
    · rw [Bool.not_eq_true, Bool.or_eq_false_iff, Bool.or_eq_false_iff] at hextra
      obtain ⟨⟨rfl, rfl⟩, rfl⟩ := hextra
      exact .inl hspelled
  · rintro (hspelled | ⟨front, middle, back, -, hspelled⟩)
    · exact ⟨_, _, _, hspelled⟩
    · exact ⟨_, _, _, hspelled⟩

/-- No text is both a well-formed address and one with a colon too many. -/
theorem not_extraColon_of_ipv6 {value : List Char} (hipv6 : Ipv6 value) :
    ¬ ExtraColon value := by
  rintro ⟨front, middle, back, hextra, hspelled⟩
  have hstray := (halves_of_spelled hspelled).2.mpr hextra
  have hplain := (halves_of_spelled ((spelled_iff_ipv6 value).mpr hipv6)).2
  exact Bool.false_ne_true (hplain.mp hstray)

theorem not_mem_colonated {front back : Bool} {groups : List (List Char)}
    (hgroups : ∀ group ∈ groups, isGroup group) {separator : Char}
    (hcolon : separator ≠ ':') (hsep : isHex separator = false) :
    separator ∉ colonated front groups back := by
  have hjoined : separator ∉ joined groups := by
    intro hmem
    rcases mem_of_mem_intercalate hmem with rfl | ⟨group, hgroup, hmem⟩
    · exact hcolon rfl
    · exact not_mem_of_isGroup (hgroups group hgroup) hsep hmem
  cases front <;> cases back <;> simp [colonated, hjoined, hcolon]

theorem Spelled.not_mem {front middle back : Bool} {value : List Char}
    (hspelled : Spelled front middle back value) {separator : Char}
    (hcolon : separator ≠ ':') (hsep : isHex separator = false) :
    separator ∉ value := by
  rcases hspelled with ⟨-, groups, -, hgroups, rfl⟩ |
    ⟨left, right, -, hgroups, -, -, rfl⟩
  · exact not_mem_colonated hgroups hcolon hsep
  · obtain ⟨hleft, hright⟩ := List.forall_mem_append.mp hgroups
    have hcolons : separator ∉ colons := by simp [colons, hcolon]
    rw [List.mem_append, List.mem_append, not_or, not_or]
    exact ⟨⟨not_mem_colonated hleft hcolon hsep, hcolons⟩,
      not_mem_colonated hright hcolon hsep⟩

/-! ## The other checks -/

theorem prefixWithin_iff {bound : ℕ} (hbound : bound < 9223372036854775808)
    (text : List Char) :
    prefixWithin bound text = some true ↔
      ∃ number ≤ bound, text = Nat.toDigits 10 number := by
  constructor
  · intro haccept
    rw [prefixWithin] at haccept
    split at haccept
    · next hdecimal =>
        obtain ⟨number, hread, hwithin⟩ := Option.map_eq_some_iff.mp haccept
        obtain ⟨value, rfl, htext⟩ := exists_toDigits_of_toInt hdecimal hread
        rw [decide_eq_true_eq] at hwithin
        exact ⟨value, by omega, htext⟩
    · cases haccept
  · rintro ⟨number, hwithin, rfl⟩
    rw [prefixWithin, if_pos (decimal_toDigits number),
      toInt_toDigits (Nat.lt_of_le_of_lt hwithin hbound), Option.map_some]
    exact congrArg some (decide_eq_true (by omega))

theorem allM_iff {check : List Char → Option Bool} {texts : List (List Char)} :
    texts.allM check = some true ↔ ∀ text ∈ texts, check text = some true := by
  induction texts with
  | nil => simp
  | cons text texts ih =>
      rw [List.allM_cons, List.forall_mem_cons, ← ih]
      cases check text with
      | none => simp
      | some accepted => cases accepted <;> simp

theorem not_mem_toDigits {separator : Char} (hsep : separator.isDigit = false)
    (number : ℕ) : separator ∉ Nat.toDigits 10 number := fun hmem =>
  Bool.false_ne_true (hsep.symm.trans
    (Nat.isDigit_of_mem_toDigits (by decide) (by decide) hmem))

theorem ipv4_iff (value : List Char) : ipv4 value = some true ↔ Ipv4 value := by
  rw [ipv4, splitString_single]
  constructor
  · intro haccept
    split at haccept
    · next hlength =>
        have hoctets (text) (hmem : text ∈ value.splitOn '.') :=
          (prefixWithin_iff (by decide) text).mp (allM_iff.mp haccept text hmem)
        refine ⟨(value.splitOn '.').map (Nat.ofDigitChars 10 · 0),
          (List.length_map _).trans hlength, ?_, ?_⟩
        · intro number hmem
          obtain ⟨text, htext, rfl⟩ := List.mem_map.mp hmem
          obtain ⟨number, hwithin, rfl⟩ := hoctets text htext
          rwa [Nat.ofDigitChars_ten_toDigits]
        · have hsame : (value.splitOn '.').map
              (fun text => Nat.toDigits 10 (Nat.ofDigitChars 10 text 0)) =
                value.splitOn '.' := by
            refine (List.map_congr_left fun text hmem => ?_).trans (List.map_id _)
            obtain ⟨number, -, rfl⟩ := hoctets text hmem
            rw [Nat.ofDigitChars_ten_toDigits, id]
          rw [List.map_map]
          exact (hsame.symm ▸ List.intercalate_splitOn '.').symm
    · cases haccept
  · rintro ⟨octets, hlength, hwithin, rfl⟩
    have hne : octets.map (Nat.toDigits 10) ≠ [] := by
      rw [Ne, List.map_eq_nil_iff, ← List.length_eq_zero_iff, hlength]
      decide
    have hdots (text) (hmem : text ∈ octets.map (Nat.toDigits 10)) : '.' ∉ text := by
      obtain ⟨number, -, rfl⟩ := List.mem_map.mp hmem
      exact not_mem_toDigits rfl number
    rw [List.splitOn_intercalate '.' hdots hne, List.length_map, if_pos hlength,
      allM_iff]
    intro text hmem
    obtain ⟨number, hnumber, rfl⟩ := List.mem_map.mp hmem
    exact (prefixWithin_iff (by decide) _).mpr ⟨number, hwithin number hnumber, rfl⟩

theorem splitString_slash {base tail : List Char} (hbase : '/' ∉ base)
    (htail : '/' ∉ tail) :
    splitString ['/'] (base ++ '/' :: tail) = [base, tail] := by
  rw [splitString_single, List.splitOn_append_cons_self_of_not_mem hbase,
    List.splitOn_eq_singleton htail]

theorem cidr_iff {address : List Char → Option Bool} {Spec : List Char → Prop}
    {bound : ℕ} (hbound : bound < 9223372036854775808)
    (haddress : ∀ base, address base = some true ↔ Spec base)
    (hslash : ∀ base, Spec base → '/' ∉ base) (value : List Char) :
    cidr address bound value = some true ↔ Cidr Spec bound value := by
  constructor
  · intro haccept
    rw [cidr, splitString_single] at haccept
    split at haccept
    · next hlength =>
        obtain ⟨base, tail, hparts⟩ := List.length_eq_two.mp hlength
        rw [hparts] at haccept
        obtain ⟨accepted, hbase, haccept⟩ := Option.bind_eq_some_iff.mp haccept
        split at haccept
        · next htrue =>
            obtain ⟨length, hwithin, rfl⟩ := (prefixWithin_iff hbound _).mp haccept
            refine ⟨base, (haddress base).mp (htrue ▸ hbase), length, hwithin, ?_⟩
            have hvalue : ['/'].intercalate (value.splitOn '/') = value :=
              List.intercalate_splitOn '/'
            rw [hparts] at hvalue
            simpa using hvalue.symm
        · cases haccept
    · cases haccept
  · rintro ⟨base, hbase, length, hwithin, rfl⟩
    rw [cidr, splitString_slash (hslash base hbase) (not_mem_toDigits rfl length),
      if_pos (show [base, Nat.toDigits 10 length].length = 2 from rfl),
      List.head?_cons, Option.getD_some,
      (haddress base).mpr hbase, Option.bind_some, if_pos rfl]
    exact (prefixWithin_iff hbound _).mpr ⟨length, hwithin, rfl⟩

theorem Cidr.address_unique {First Second : List Char → Prop} {bound : ℕ}
    {value : List Char} (hfirst : Cidr First bound value)
    (hsecond : Cidr Second bound value) (hslash : ∀ base, First base → '/' ∉ base)
    (hslash' : ∀ base, Second base → '/' ∉ base) :
    ∃ base, First base ∧ Second base := by
  obtain ⟨base, hbase, length, -, rfl⟩ := hfirst
  obtain ⟨other, hother, number, -, heq⟩ := hsecond
  have hparts := congrArg (splitString ['/']) heq
  rw [splitString_slash (hslash base hbase) (not_mem_toDigits rfl length),
    splitString_slash (hslash' other hother) (not_mem_toDigits rfl number)] at hparts
  obtain rfl : base = other := (List.cons.inj hparts).1
  exact ⟨base, hbase, hother⟩

/-! ## How far the checks meet the grammar -/

theorem Ipv4.not_mem {value : List Char} (hipv4 : Ipv4 value) : '/' ∉ value := by
  obtain ⟨octets, -, -, rfl⟩ := hipv4
  intro hmem
  rcases mem_of_mem_intercalate hmem with hdot | ⟨text, htext, hmem⟩
  · exact absurd hdot (by decide)
  · obtain ⟨number, -, rfl⟩ := List.mem_map.mp htext
    exact not_mem_toDigits rfl number hmem

theorem Ipv6.not_mem {value : List Char} (hipv6 : Ipv6 value) : '/' ∉ value :=
  ((spelled_iff_ipv6 value).mpr hipv6).not_mem (by decide) rfl

theorem ExtraColon.not_mem {value : List Char} (hextra : ExtraColon value) :
    '/' ∉ value := by
  obtain ⟨front, middle, back, -, hspelled⟩ := hextra
  exact hspelled.not_mem (by decide) rfl

theorem ipv4Cidr_iff (value : List Char) :
    ipv4Cidr value = some true ↔ Cidr Ipv4 32 value :=
  cidr_iff (by decide) ipv4_iff (fun _ hipv4 => hipv4.not_mem) value

theorem ipv6Cidr_iff_or (value : List Char) :
    ipv6Cidr value = some true ↔
      Cidr Ipv6 128 value ∨ Cidr ExtraColon 128 value := by
  have haddress (base : List Char) :
      some (ipv6 base) = some true ↔ Ipv6 base ∨ ExtraColon base := by
    rw [Option.some_inj, ipv6_iff_or]
  have haccept : ipv6Cidr value = some true ↔
      Cidr (fun base => Ipv6 base ∨ ExtraColon base) 128 value :=
    cidr_iff (by decide) haddress (fun _ hbase =>
      hbase.elim Ipv6.not_mem ExtraColon.not_mem) value
  rw [haccept]
  constructor
  · rintro ⟨base, hipv6 | hextra, htail⟩
    · exact .inl ⟨base, hipv6, htail⟩
    · exact .inr ⟨base, hextra, htail⟩
  · rintro (⟨base, hipv6, htail⟩ | ⟨base, hextra, htail⟩)
    · exact ⟨base, .inl hipv6, htail⟩
    · exact ⟨base, .inr hextra, htail⟩

theorem not_extraColon_of_cidr {value : List Char} (hcidr : Cidr Ipv6 128 value) :
    ¬ Cidr ExtraColon 128 value := by
  intro hextra
  obtain ⟨base, hipv6, hcolon⟩ := hcidr.address_unique hextra
    (fun _ => Ipv6.not_mem) (fun _ => ExtraColon.not_mem)
  exact not_extraColon_of_ipv6 hipv6 hcolon

/-- The four checks accept exactly their grammars, unless the text is an IPv6
address with a colon too many, alone or in front of a prefix length. -/
theorem validators_iff (value : List Char) :
    (ipv4 value = some true ↔ Ipv4 value) ∧
        (ipv4Cidr value = some true ↔ Cidr Ipv4 32 value) ∧
        (ipv6 value = true ↔ Ipv6 value) ∧
        (ipv6Cidr value = some true ↔ Cidr Ipv6 128 value) ↔
      ¬ ExtraColon value ∧ ¬ Cidr ExtraColon 128 value := by
  have haddress := @not_extraColon_of_ipv6 value
  have hcidr := @not_extraColon_of_cidr value
  rw [ipv4_iff, ipv4Cidr_iff, ipv6_iff_or, ipv6Cidr_iff_or, or_iff_left_iff_imp,
    or_iff_left_iff_imp]
  constructor
  · rintro ⟨-, -, hplain, hlength⟩
    exact ⟨fun hextra => haddress (hplain hextra) hextra,
      fun hextra => hcidr (hlength hextra) hextra⟩
  · rintro ⟨hnone, hnoneCidr⟩
    exact ⟨Iff.rfl, Iff.rfl, fun hextra => absurd hextra hnone,
      fun hextra => absurd hextra hnoneCidr⟩

/-- A third colon at the double colon is let through. -/
theorem ipv6_accepts_third_colon :
    ipv6 ['f', 'd', ':', ':', ':', '1'] = true ∧
      ¬ Ipv6 ['f', 'd', ':', ':', ':', '1'] := by
  refine ⟨by decide, fun hipv6 => not_extraColon_of_ipv6 hipv6 ?_⟩
  exact ⟨false, true, false, rfl, .inr ⟨[['f', 'd']], [['1']], by decide, by decide,
    nofun, nofun, rfl⟩⟩

end Mandala.Schema
