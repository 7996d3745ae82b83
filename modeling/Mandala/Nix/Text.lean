import Mathlib.Data.Nat.Notation
import Mathlib.Data.List.Basic
import Mathlib.Data.List.Induction
import Mathlib.Tactic.IntervalCases

/-!
# Texts of the Nix language

The library functions on strings that addresses are read with.  A text is the
list of its characters.
-/

namespace Mandala.Nix

/-- Splitting where a separator stands, which is not empty: matches do not
overlap, and so many characters belong to the last one. -/
def splitFrom (separator : List Char) : ℕ → List Char → List (List Char)
  | _, [] => [[]]
  | skip + 1, _ :: rest => splitFrom separator skip rest
  | 0, character :: rest =>
      if separator.isPrefixOf (character :: rest) then
        [] :: splitFrom separator (separator.length - 1) rest
      else (splitFrom separator 0 rest).modifyHead (character :: ·)

/-- `lib.splitString`. -/
def splitString (separator text : List Char) : List (List Char) :=
  splitFrom separator 0 text

/-- `builtins.match "[0-9]+"`. -/
def decimal (text : List Char) : Bool :=
  !text.isEmpty && text.all Char.isDigit

/-- `[[:space:]]`. -/
def isSpace (character : Char) : Bool :=
  character ∈ [' ', '\t', '\n', '\x0b', '\x0c', '\r']

def stripSpace (text : List Char) : List Char :=
  ((text.dropWhile isSpace).reverse.dropWhile isSpace).reverse

/-- A numeral with no zero in front of another digit. -/
def isNumeral (text : List Char) : Bool :=
  decimal text && (text.head? ≠ some '0' || text.length = 1)

/-- `lib.toInt`: a leading zero is refused, and so is what does not fit 64
bits. -/
def toInt (text : List Char) : Option Int :=
  match stripSpace text with
  | '-' :: digits =>
      if isNumeral digits ∧
          Nat.ofDigitChars 10 digits 0 ≤ 9223372036854775808 then
        some (-(Nat.ofDigitChars 10 digits 0 : Int))
      else none
  | digits =>
      if isNumeral digits ∧
          Nat.ofDigitChars 10 digits 0 < 9223372036854775808 then
        some (Nat.ofDigitChars 10 digits 0 : Int)
      else none

/-- `toString` of an integer. -/
def intText (number : Int) : List Char :=
  (if number < 0 then ['-'] else []) ++ Nat.toDigits 10 number.natAbs

/-- `lib.removeSuffix`. -/
def removeSuffix (suffix text : List Char) : List Char :=
  (text.dropSuffix? suffix).getD text

/-! ## Splitting -/

/-- At a single character, splitting is the splitting of lists. -/
theorem splitString_single (separator : Char) (text : List Char) :
    splitString [separator] text = text.splitOn separator := by
  rw [splitString]
  induction text with
  | nil => rfl
  | cons character rest ih =>
      rw [List.splitOn_cons_eq_if_modifyHead, splitFrom, ← ih]
      by_cases heq : character = separator
      · subst heq
        simp
      · have hne : ¬ separator = character := fun hsame => heq hsame.symm
        simp [heq, hne]

theorem splitFrom_skip (separator passed text : List Char) :
    splitFrom separator passed.length (passed ++ text) =
      splitFrom separator 0 text := by
  induction passed with
  | nil => rfl
  | cons character passed ih => exact ih

/-- Splitting goes on behind the first separator. -/
theorem splitString_append {separator left : List Char} (hne : separator ≠ [])
    (hfirst : ¬ separator <:+: left ++ separator.dropLast) (right : List Char) :
    splitString separator (left ++ separator ++ right) =
      left :: splitString separator right := by
  rw [splitString, splitString]
  induction left with
  | nil =>
      obtain ⟨character, rest, rfl⟩ := List.exists_cons_of_ne_nil hne
      have hstart : (character :: rest).isPrefixOf
          (character :: (rest ++ right)) = true :=
        List.isPrefixOf_iff_prefix.mpr (List.prefix_append (character :: rest) right)
      rw [List.nil_append, List.cons_append, splitFrom, if_pos hstart,
        List.length_cons, Nat.add_sub_cancel, splitFrom_skip]
  | cons character left ih =>
      rw [List.cons_append, List.infix_cons_iff, not_or] at hfirst
      have hstart : ¬ separator.isPrefixOf
          (character :: (left ++ separator ++ right)) = true := by
        intro hpre
        have hwhole : character :: (left ++ separator.dropLast) <+:
            character :: (left ++ separator ++ right) := by
          rw [List.append_assoc, List.prefix_cons_inj, List.prefix_append_right_inj]
          exact (List.dropLast_prefix separator).trans (List.prefix_append _ _)
        refine hfirst.1 (List.prefix_of_prefix_length_le
          (List.isPrefixOf_iff_prefix.mp hpre) hwhole ?_)
        rw [List.length_cons, List.length_append, List.length_dropLast]
        omega
      rw [List.cons_append, List.cons_append, splitFrom, if_neg hstart,
        ih hfirst.2, List.modifyHead_cons]

theorem splitString_of_absent {separator text : List Char}
    (hnone : ¬ separator <:+: text) : splitString separator text = [text] := by
  rw [splitString]
  induction text with
  | nil => rfl
  | cons character rest ih =>
      rw [List.infix_cons_iff, not_or] at hnone
      rw [splitFrom, if_neg fun hstart =>
        hnone.1 (List.isPrefixOf_iff_prefix.mp hstart), ih hnone.2,
        List.modifyHead_cons]

theorem splitString_ne_nil (separator text : List Char) :
    splitString separator text ≠ [] := by
  rw [splitString]
  fun_induction splitFrom separator 0 text with
  | case1 => exact List.cons_ne_nil _ _
  | case2 _ _ _ ih => exact ih
  | case3 => exact List.cons_ne_nil _ _
  | case4 _ _ _ ih => exact fun hnil => ih (List.modifyHead_eq_nil_iff.mp hnil)

/-- What stands in a text stands in it a first time. -/
theorem exists_first_split {separator text : List Char} (hne : separator ≠ [])
    (hsome : separator <:+: text) :
    ∃ left right, text = left ++ separator ++ right ∧
      ¬ separator <:+: left ++ separator.dropLast := by
  induction text with
  | nil => exact absurd (List.infix_nil.mp hsome) hne
  | cons character rest ih =>
      by_cases hstart : separator <+: character :: rest
      · obtain ⟨right, hright⟩ := hstart
        refine ⟨[], right, hright.symm, fun hshort => ?_⟩
        have hlength := hshort.length_le
        have hpos := List.length_pos_iff.mpr hne
        rw [List.nil_append, List.length_dropLast] at hlength
        omega
      · obtain ⟨left, right, rfl, hfirst⟩ :=
          ih ((List.infix_cons_iff.mp hsome).resolve_left hstart)
        refine ⟨character :: left, right, rfl, fun hagain => ?_⟩
        rw [List.cons_append, List.infix_cons_iff] at hagain
        refine hstart ((hagain.resolve_right hfirst).trans ?_)
        rw [List.append_assoc, List.prefix_cons_inj, List.prefix_append_right_inj]
        exact (List.dropLast_prefix separator).trans (List.prefix_append _ _)

theorem removeSuffix_append (text suffix : List Char) :
    removeSuffix suffix (text ++ suffix) = text := by
  have hdrop : (text ++ suffix).dropSuffix? suffix = some text :=
    List.dropSuffix?_eq_some_iff.mpr ⟨suffix, rfl, BEq.rfl⟩
  rw [removeSuffix, hdrop, Option.getD_some]

/-- A text without the suffix is left as it is. -/
theorem removeSuffix_eq_or (suffix text : List Char) :
    text = removeSuffix suffix text ++ suffix ∨ removeSuffix suffix text = text := by
  cases hdrop : text.dropSuffix? suffix with
  | none => exact .inr (by rw [removeSuffix, hdrop, Option.getD_none])
  | some rest =>
      obtain ⟨other, heq, hsame⟩ := List.dropSuffix?_eq_some_iff.mp hdrop
      rw [eq_of_beq hsame] at heq
      exact .inl (by rw [removeSuffix, hdrop, Option.getD_some, heq])

theorem mem_of_mem_intercalate {separator character : Char}
    {texts : List (List Char)} (hmem : character ∈ [separator].intercalate texts) :
    character = separator ∨ ∃ text ∈ texts, character ∈ text := by
  induction texts with
  | nil => cases hmem
  | cons text texts ih =>
      cases texts with
      | nil =>
          rw [List.intercalate_singleton] at hmem
          exact .inr ⟨text, List.mem_cons_self, hmem⟩
      | cons next texts =>
          rw [List.intercalate_cons_cons, List.mem_append, List.mem_append,
            List.mem_singleton] at hmem
          rcases hmem with (hmem | hsep) | hmem
          · exact .inr ⟨text, List.mem_cons_self, hmem⟩
          · exact .inl hsep
          · refine (ih hmem).imp_right ?_
            rintro ⟨text, htext, hmem⟩
            exact ⟨text, List.mem_cons_of_mem _ htext, hmem⟩

/-! ## Numerals -/

theorem exists_digitChar {character : Char} (hdigit : character.isDigit) :
    ∃ digit < 10, character = Nat.digitChar digit := by
  have hbounds : 48 ≤ character.toNat ∧ character.toNat ≤ 57 := by
    simpa [Char.isDigit, UInt32.le_iff_toNat_le] using hdigit
  have hchar : character = Char.ofNat character.toNat :=
    (Char.ofNat_toNat character).symm
  obtain ⟨hlow, hhigh⟩ := hbounds
  generalize character.toNat = code at hlow hhigh hchar
  refine ⟨code - 48, by omega, hchar.trans ?_⟩
  interval_cases code <;> rfl

theorem decimal_toDigits (number : ℕ) : decimal (Nat.toDigits 10 number) := by
  rw [decimal, Bool.and_eq_true, Bool.not_eq_true', List.isEmpty_eq_false_iff,
    List.all_eq_true]
  exact ⟨Nat.toDigits_ne_nil, fun _ hmem =>
    Nat.isDigit_of_mem_toDigits (by decide) (by decide) hmem⟩

theorem head?_toDigits_ne {number : ℕ} (hpos : 0 < number) :
    (Nat.toDigits 10 number).head? ≠ some '0' := by
  induction number using Nat.strongRecOn with
  | _ number ih =>
      by_cases hsmall : number < 10
      · rw [Nat.toDigits_of_lt_base hsmall, List.head?_cons]
        interval_cases number <;> decide
      · have hbase : 10 ≤ number := Nat.le_of_not_lt hsmall
        rw [Nat.toDigits_of_base_le (by decide) hbase,
          List.head?_append_of_ne_nil _ Nat.toDigits_ne_nil]
        exact ih (number / 10) (by omega) (by omega)

theorem isNumeral_toDigits (number : ℕ) :
    isNumeral (Nat.toDigits 10 number) := by
  rw [isNumeral, decimal_toDigits, Bool.true_and, Bool.or_eq_true,
    decide_eq_true_eq, decide_eq_true_eq]
  rcases Nat.eq_zero_or_pos number with rfl | hpos
  · exact .inr rfl
  · exact .inl (head?_toDigits_ne hpos)

/-- A numeral is the text of the number it is read as. -/
theorem toDigits_ofDigitChars {text : List Char} (hnumeral : isNumeral text) :
    Nat.toDigits 10 (Nat.ofDigitChars 10 text 0) = text := by
  induction text using List.reverseRecOn with
  | nil => cases hnumeral
  | append_singleton text character ih =>
      rw [isNumeral, Bool.and_eq_true, decimal, Bool.and_eq_true,
        List.all_append, Bool.and_eq_true, List.all_cons, Bool.and_eq_true,
        Bool.or_eq_true, decide_eq_true_eq, decide_eq_true_eq] at hnumeral
      obtain ⟨⟨-, hdigits, hdigit, -⟩, hlead⟩ := hnumeral
      obtain ⟨digit, hten, rfl⟩ := exists_digitChar hdigit
      rw [Nat.ofDigitChars_append, Nat.ofDigitChars_cons_digitChar_of_lt_ten hten,
        Nat.ofDigitChars_nil]
      by_cases hnil : text = []
      · subst hnil
        rw [Nat.ofDigitChars_nil, Nat.mul_zero, Nat.zero_add,
          Nat.toDigits_of_lt_base hten, List.nil_append]
      · have hne : text.head? ≠ some '0' := by
          rcases hlead with hlead | hlength
          · rwa [List.head?_append_of_ne_nil _ hnil] at hlead
          · rw [List.length_append, List.length_singleton] at hlength
            exact absurd (List.length_eq_zero_iff.mp (by omega)) hnil
        have htext : isNumeral text := by
          simp [isNumeral, decimal, hnil, hdigits, hne]
        have hpos : 0 < Nat.ofDigitChars 10 text 0 := by
          rcases Nat.eq_zero_or_pos (Nat.ofDigitChars 10 text 0) with hzero | hpos
          · have hread := ih htext
            rw [hzero, Nat.toDigits_zero] at hread
            exact absurd (hread ▸ rfl) hne
          · exact hpos
        rw [← Nat.toDigits_append_toDigits (by decide) hpos hten, ih htext,
          Nat.toDigits_of_lt_base hten]

theorem stripSpace_decimal {text : List Char} (hdecimal : decimal text) :
    stripSpace text = text := by
  have hnospace : ∀ character ∈ text, isSpace character = false := by
    intro character hmem
    rw [decimal, Bool.and_eq_true, List.all_eq_true] at hdecimal
    obtain ⟨digit, hten, rfl⟩ := exists_digitChar (hdecimal.2 character hmem)
    interval_cases digit <;> rfl
  have hkeep (other : List Char)
      (hother : ∀ character ∈ other, isSpace character = false) :
      other.dropWhile isSpace = other := by
    cases other with
    | nil => rfl
    | cons character rest =>
        rw [List.dropWhile_cons_of_neg]
        simp [hother character List.mem_cons_self]
  rw [stripSpace, hkeep text hnospace, hkeep text.reverse (by simpa using hnospace),
    List.reverse_reverse]

theorem toInt_decimal {text : List Char} (hdecimal : decimal text) :
    toInt text =
      if isNumeral text ∧
          Nat.ofDigitChars 10 text 0 < 9223372036854775808 then
        some (Nat.ofDigitChars 10 text 0 : Int)
      else none := by
  rw [toInt, stripSpace_decimal hdecimal]
  split
  · next digits =>
      rw [decimal, Bool.and_eq_true, List.all_cons, Bool.and_eq_true] at hdecimal
      exact absurd hdecimal.2.1 (by decide)
  · rfl

theorem toInt_toDigits {number : ℕ} (hfits : number < 9223372036854775808) :
    toInt (Nat.toDigits 10 number) = some (number : Int) := by
  rw [toInt_decimal (decimal_toDigits number), Nat.ofDigitChars_ten_toDigits,
    if_pos ⟨isNumeral_toDigits number, hfits⟩]

/-- A text of digits that is read as a small number is its numeral. -/
theorem exists_toDigits_of_toInt {text : List Char} (hdecimal : decimal text)
    {number : Int} (hread : toInt text = some number) :
    ∃ value : ℕ, number = value ∧ text = Nat.toDigits 10 value := by
  rw [toInt_decimal hdecimal] at hread
  split at hread
  · next hnumeral =>
      cases hread
      exact ⟨_, rfl, (toDigits_ofDigitChars hnumeral.1).symm⟩
  · cases hread

end Mandala.Nix
