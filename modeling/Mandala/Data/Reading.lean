import Mandala.Core.Reader
import Mandala.Core.Text
import Mandala.Data.Printing
import Mandala.Nix.Text
import Mathlib.Data.List.TakeWhile

/-!
# Reading JSON values

A reader of JSON texts that opens only so many containers inside one another.
It reads back what the compact printer writes within that bound, and it reads no
proper beginning of a printed object.
-/

namespace Mandala.Data.Json

open Mandala.Nix Mandala.Reader

def isBlank (character : Char) : Bool :=
  character ∈ [' ', '\n', '\t', '\r']

def nextMark : Reader Char Char := nextAfter isBlank

/-! ## Strings -/

def hexValue (character : Char) : Option ℕ :=
  let code := character.toNat
  if 48 ≤ code ∧ code ≤ 57 then some (code - 48)
  else if 97 ≤ code ∧ code ≤ 102 then some (code - 87)
  else if 65 ≤ code ∧ code ≤ 70 then some (code - 55)
  else none

def readHexDigit : Reader Char ℕ := do
  match hexValue (← next) with
  | some digit => pure digit
  | none => failure

def readHex : Reader Char ℕ := do
  let first ← readHexDigit
  let second ← readHexDigit
  let third ← readHexDigit
  let fourth ← readHexDigit
  pure (((first * 16 + second) * 16 + third) * 16 + fourth)

def isHighSurrogate (code : ℕ) : Bool := 0xd800 ≤ code && code ≤ 0xdbff

def isLowSurrogate (code : ℕ) : Bool := 0xdc00 ≤ code && code ≤ 0xdfff

def readWord (word : List Char) : Reader Char Unit :=
  match word with
  | [] => pure ()
  | character :: word => do
      if (← next) = character then readWord word else failure

/-- What follows `\u`.  A character outside the basic plane is written as two
surrogates, and a surrogate does not stand alone. -/
def readUnicode : Reader Char Char := do
  let code ← readHex
  if isLowSurrogate code then failure
  else if isHighSurrogate code then
    readWord ['\\', 'u']
    let low ← readHex
    if isLowSurrogate low then
      pure (Char.ofNat (0x10000 + (code - 0xd800) * 0x400 + (low - 0xdc00)))
    else failure
  else pure (Char.ofNat code)

def escapes : List (Char × Char) :=
  [('"', '"'), ('\\', '\\'), ('/', '/'), ('b', '\x08'), ('f', '\x0c'),
    ('n', '\n'), ('r', '\r'), ('t', '\t')]

/-- What follows a backslash. -/
def readEscape : Reader Char Char := do
  let letter ← next
  if letter = 'u' then readUnicode
  else match escapes.lookup letter with
    | some character => pure character
    | none => failure

/-- A character of a string, or none at the quote that ends it. -/
def readCharacter : Reader Char (Option Char) := do
  let character ← next
  if character = '"' then pure none
  else if character = '\\' then some <$> readEscape
  else if character.toNat < 32 then failure
  else pure (some character)

/-- What follows the opening quote. -/
def readString : Reader Char String :=
  String.ofList <$> bounded (untilNone readCharacter)

/-! ## Numbers -/

def readDigits (before : List Char) : Reader Char (List Char) := do
  let digits ← longest Char.isDigit
  if digits = [] then failure else pure (before ++ digits)

def readFraction : Reader Char (List Char) := do
  let point ← optional (· == '.')
  if point = [] then pure [] else readDigits point

def readExponent : Reader Char (List Char) := do
  let mark ← optional fun character => character == 'e' || character == 'E'
  if mark = [] then pure []
  else
    let sign ← optional fun character => character == '+' || character == '-'
    readDigits (mark ++ sign)

/-- A number with neither fraction nor exponent is an integer if 64 bits hold
it; the negative zero is not. -/
def number (sign digits tail : List Char) : Json :=
  let magnitude := Nat.ofDigitChars 10 digits 0
  if tail = [] ∧ sign = [] ∧ magnitude < 18446744073709551616 then
    .int magnitude
  else if tail = [] ∧ sign ≠ [] ∧ 0 < magnitude ∧
      magnitude ≤ 9223372036854775808 then
    .int (-(magnitude : Int))
  else .float (String.ofList (sign ++ digits ++ tail))

/-- A number whose first digit has been taken. -/
def readNumber (sign : List Char) (first : Char) : Reader Char Json := do
  let others ← longest Char.isDigit
  if isNumeral (first :: others) then
    let fraction ← readFraction
    let exponent ← readExponent
    pure (number sign (first :: others) (fraction ++ exponent))
  else failure

/-! ## Values -/

/-- A value that is no container, from its first character on. -/
def readScalar (first : Char) : Reader Char Json :=
  match first with
  | 'n' => (fun _ => null) <$> readWord ['u', 'l', 'l']
  | 't' => (fun _ => bool true) <$> readWord ['r', 'u', 'e']
  | 'f' => (fun _ => bool false) <$> readWord ['a', 'l', 's', 'e']
  | '"' => string <$> readString
  | '-' => do readNumber ['-'] (← next)
  | _ => readNumber [] first

def readField (value : Reader Char Json) : Reader Char (String × Json) := do
  if (← nextMark) = '"' then
    let key ← readString
    if (← nextMark) = ':' then (fun value => (key, value)) <$> value else failure
  else failure

/-- A value that opens no more containers inside one another than this. -/
def readValue : ℕ → Reader Char Json
  | 0 => do readScalar (← nextMark)
  | depth + 1 => do
      let first ← nextMark
      if first = '[' then
        array <$> bracketed nextMark ',' ']' (readValue depth)
      else if first = '\x7b' then
        object <$> bracketed nextMark ',' '\x7d' (readField (readValue depth))
      else readScalar first

/-- How many containers may be open at once. -/
def maxDepth : ℕ := 127

/-- A text is one value, with nothing but blanks around it. -/
def read (text : String) : Except String Json :=
  match readValue maxDepth text.toList with
  | none => .error "not a JSON value"
  | some (value, rest) =>
      if rest.all isBlank then .ok value else .error "trailing characters"

/-! ## What is firm -/

theorem firm_readWord (word : List Char) : Firm (readWord word) := by
  induction word with
  | nil => exact firm_pure ()
  | cons character word ih =>
      apply firm_next.bind
      intro symbol
      split
      · exact ih
      · exact firm_failure

theorem firm_readHexDigit : Firm readHexDigit := by
  apply firm_next.bind
  intro character
  split
  · exact firm_pure _
  · exact firm_failure

theorem firm_readHex : Firm readHex :=
  firm_readHexDigit.bind fun _ => firm_readHexDigit.bind fun _ =>
    firm_readHexDigit.bind fun _ => firm_readHexDigit.bind fun _ => firm_pure _

theorem firm_readUnicode : Firm readUnicode := by
  apply firm_readHex.bind
  intro code
  split
  · exact firm_failure
  · split
    · apply (firm_readWord _).bind
      intro _
      apply firm_readHex.bind
      intro low
      split
      · exact firm_pure _
      · exact firm_failure
    · exact firm_pure _

theorem firm_readEscape : Firm readEscape := by
  apply firm_next.bind
  intro letter
  split
  · exact firm_readUnicode
  · split
    · exact firm_pure _
    · exact firm_failure

theorem firm_readCharacter : Firm readCharacter := by
  apply firm_next.bind
  intro character
  split
  · exact firm_pure none
  · split
    · exact firm_readEscape.map some
    · split
      · exact firm_failure
      · exact firm_pure _

theorem firm_readString : Firm readString := by
  apply Firm.map
  exact firm_bounded (firm_untilNone firm_readCharacter)
    (untilNone_covers readCharacter)

/-- The characters a number may read on over. -/
def inNumber (character : Char) : Bool :=
  character.isDigit || character ∈ ['.', 'e', 'E', '+', '-']

theorem extends_longest_digits : Extends inNumber (longest Char.isDigit) :=
  extends_longest fun _ hdigit => by rw [inNumber, hdigit, Bool.true_or]

theorem extends_readDigits (before : List Char) :
    Extends inNumber (readDigits before) := by
  apply extends_longest_digits.bind
  intro digits
  split
  · exact firm_failure.extends inNumber
  · exact (firm_pure _).extends inNumber

theorem extends_readFraction : Extends inNumber readFraction := by
  apply Extends.bind
  · apply extends_optional
    intro symbol hpoint
    rw [eq_of_beq hpoint]
    rfl
  · intro point
    split
    · exact (firm_pure []).extends inNumber
    · exact extends_readDigits point

theorem extends_readExponent : Extends inNumber readExponent := by
  apply Extends.bind
  · apply extends_optional
    intro symbol hmark
    rcases Bool.or_eq_true_iff.mp hmark with hmark | hmark <;>
    · rw [eq_of_beq hmark]
      rfl
  · intro mark
    split
    · exact (firm_pure []).extends inNumber
    · apply Extends.bind
      · apply extends_optional
        intro symbol hsign
        rcases Bool.or_eq_true_iff.mp hsign with hsign | hsign <;>
        · rw [eq_of_beq hsign]
          rfl
      · exact fun sign => extends_readDigits (mark ++ sign)

theorem extends_readNumber (sign : List Char) (first : Char) :
    Extends inNumber (readNumber sign first) := by
  apply extends_longest_digits.bind
  intro others
  split
  · apply extends_readFraction.bind
    intro fraction
    apply extends_readExponent.bind
    exact fun exponent => (firm_pure _).extends inNumber
  · exact firm_failure.extends inNumber

theorem extends_readScalar (first : Char) :
    Extends inNumber (readScalar first) := by
  unfold readScalar
  split
  · exact ((firm_readWord _).map _).extends inNumber
  · exact ((firm_readWord _).map _).extends inNumber
  · exact ((firm_readWord _).map _).extends inNumber
  · exact (firm_readString.map string).extends inNumber
  · exact (firm_next.extends inNumber).bind fun first =>
      extends_readNumber ['-'] first
  · exact extends_readNumber [] first

theorem firm_nextMark : Firm nextMark := firm_nextAfter isBlank

theorem extends_readField {value : Reader Char Json}
    (hvalue : Extends inNumber value) : Extends inNumber (readField value) := by
  apply (firm_nextMark.extends inNumber).bind
  intro quote
  split
  · apply (firm_readString.extends inNumber).bind
    intro key
    apply (firm_nextMark.extends inNumber).bind
    intro colon
    split
    · exact hvalue.map _
    · exact firm_failure.extends inNumber
  · exact firm_failure.extends inNumber

theorem extends_readValue (depth : ℕ) : Extends inNumber (readValue depth) := by
  induction depth with
  | zero =>
      exact (firm_nextMark.extends inNumber).bind extends_readScalar
  | succ depth ih =>
      apply (firm_nextMark.extends inNumber).bind
      intro first
      split
      · exact ((firm_bracketed firm_nextMark rfl ',' ']' ih).map array).extends
          inNumber
      · split
        · exact ((firm_bracketed firm_nextMark rfl ',' '\x7d'
            (extends_readField ih)).map object).extends inNumber
        · exact extends_readScalar first

/-! ## Reading back what was printed -/

theorem hexValue_hexDigit {digit : ℕ} (hdigit : digit < 16) :
    hexValue (hexDigit digit) = some digit := by
  revert digit
  decide

theorem readHexDigit_hexDigit {digit : ℕ} (hdigit : digit < 16)
    (rest : List Char) :
    readHexDigit (hexDigit digit :: rest) = some (digit, rest) := by
  have hnext : next (hexDigit digit :: rest) = some (hexDigit digit, rest) := rfl
  rw [readHexDigit, bind_apply hnext, hexValue_hexDigit hdigit]
  rfl

/-- An escaped control character. -/
theorem readUnicode_control {code : ℕ} (hcode : code < 32) :
    readUnicode ['0', '0', hexDigit (code / 16), hexDigit (code % 16)] =
      some (Char.ofNat code, []) := by
  have hzero : ∀ rest, readHexDigit ('0' :: rest) = some (0, rest) :=
    fun _ => rfl
  have hhigh := readHexDigit_hexDigit
    (show code / 16 < 16 by omega) [hexDigit (code % 16)]
  have hlow := readHexDigit_hexDigit (show code % 16 < 16 by omega) []
  have hhex : readHex ['0', '0', hexDigit (code / 16), hexDigit (code % 16)] =
      some (code, []) := by
    rw [readHex, bind_apply (hzero _), bind_apply (hzero _), bind_apply hhigh,
      bind_apply hlow]
    have hvalue : ((0 * 16 + 0) * 16 + code / 16) * 16 + code % 16 = code := by
      omega
    rw [hvalue]
    rfl
  have hplain : isLowSurrogate code = false ∧ isHighSurrogate code = false := by
    simp only [isLowSurrogate, isHighSurrogate, Bool.and_eq_false_iff,
      decide_eq_false_iff_not]
    omega
  rw [readUnicode, bind_apply hhex, hplain.1, hplain.2]
  rfl

theorem readCharacter_escape (character : Char) :
    readCharacter (escape character) = some (some character, []) := by
  unfold escape
  split
  all_goals try rfl
  next hquote hbackslash _ _ _ _ _ =>
    split
    · next hcontrol =>
        have hbackslash : next ('\\' :: 'u' :: '0' :: '0' ::
            [hexDigit (character.toNat / 16), hexDigit (character.toNat % 16)]) =
              some ('\\', 'u' :: '0' :: '0' ::
                [hexDigit (character.toNat / 16),
                  hexDigit (character.toNat % 16)]) := rfl
        have hescape : readEscape ('u' :: '0' :: '0' ::
            [hexDigit (character.toNat / 16), hexDigit (character.toNat % 16)]) =
              some (character, []) := by
          have hletter : next ('u' :: '0' :: '0' ::
              [hexDigit (character.toNat / 16),
                hexDigit (character.toNat % 16)]) =
              some ('u', '0' :: '0' :: [hexDigit (character.toNat / 16),
                hexDigit (character.toNat % 16)]) := rfl
          rw [readEscape, bind_apply hletter, if_pos rfl,
            readUnicode_control hcontrol, Char.ofNat_toNat]
        rw [readCharacter, bind_apply hbackslash, if_neg (by decide), if_pos rfl]
        exact map_apply hescape some
    · next hplain =>
        have hnext : next [character] = some (character, []) := rfl
        rw [readCharacter, bind_apply hnext, if_neg hquote, if_neg hbackslash,
          if_neg hplain]
        rfl

theorem readString_escaped (text : String) :
    readString (text.toList.flatMap escape ++ ['"']) = some (text, []) := by
  have hread := untilNone_read firm_readCharacter rfl
    (fun character (_ : character ∈ text.toList) => readCharacter_escape character)
    (show readCharacter ['"'] = some (none, []) from rfl)
  rw [readString, map_apply hread, String.ofList_toList]

theorem longest_digits {digits : List Char}
    (hdigits : ∀ character ∈ digits, character.isDigit = true) :
    longest Char.isDigit digits = some (digits, []) := by
  rw [longest, List.takeWhile_eq_self_iff.mpr hdigits,
    List.dropWhile_eq_nil_iff.mpr hdigits]

theorem readNumber_digits (sign : List Char) {first : Char} {others : List Char}
    (hnumeral : isNumeral (first :: others)) :
    readNumber sign first others =
      some (number sign (first :: others) [], []) := by
  have hdigits : ∀ character ∈ others, character.isDigit = true := by
    rw [isNumeral, Bool.and_eq_true, decimal, Bool.and_eq_true,
      List.all_eq_true] at hnumeral
    exact fun character hmem =>
      hnumeral.1.2 character (List.mem_cons_of_mem first hmem)
  have hfraction : readFraction [] = some ([], []) := rfl
  have hexponent : readExponent [] = some ([], []) := rfl
  rw [readNumber, bind_apply (longest_digits hdigits), if_pos hnumeral,
    bind_apply hfraction, bind_apply hexponent]
  rfl

theorem toDigits_eq_cons (magnitude : ℕ) :
    ∃ first others, Nat.toDigits 10 magnitude = first :: others ∧
      first.isDigit = true := by
  obtain ⟨first, others, hdigits⟩ :=
    List.exists_cons_of_ne_nil (Nat.toDigits_ne_nil (n := magnitude) (b := 10))
  refine ⟨first, others, hdigits, mem_digits magnitude first ?_⟩
  rw [hdigits]
  exact List.mem_cons_self

/-- A digit begins a number. -/
theorem readScalar_digit {first : Char} (hdigit : first.isDigit = true) :
    readScalar first = readNumber [] first := by
  unfold readScalar
  split
  all_goals try exact absurd hdigit (by decide)
  rfl

theorem number_toDigits {magnitude : ℕ}
    (hfits : magnitude < 18446744073709551616) :
    number [] (Nat.toDigits 10 magnitude) [] = .int magnitude := by
  simp only [number, Nat.ofDigitChars_ten_toDigits]
  exact if_pos ⟨trivial, trivial, hfits⟩

theorem number_negative {magnitude : ℕ} (hpositive : 0 < magnitude)
    (hfits : magnitude ≤ 9223372036854775808) :
    number ['-'] (Nat.toDigits 10 magnitude) [] = .int (-(magnitude : Int)) := by
  simp only [number, Nat.ofDigitChars_ten_toDigits]
  rw [if_neg fun hsign => absurd hsign.2.1 (List.cons_ne_nil _ _),
    if_pos ⟨trivial, List.cons_ne_nil _ _, hpositive, hfits⟩]

/-- A literal of a number that is no integer. -/
def isFloat (literal : String) : Bool :=
  match literal.toList with
  | [] => false
  | first :: rest =>
      (first == '-' || first.isDigit) && '\n' ∉ rest &&
        match readScalar first rest with
        | some (.float other, []) => other == literal
        | _ => false

mutual

/-- A value whose numbers are read as they were printed, and whose containers
are no deeper than this. -/
def fits : ℕ → Json → Bool
  | _, .null | _, .bool _ | _, .string _ => true
  | _, .int value =>
      -9223372036854775808 ≤ value && value < 18446744073709551616
  | _, .float literal => isFloat literal
  | 0, .array _ | 0, .object _ => false
  | depth + 1, .array values => fitsValues depth values
  | depth + 1, .object fields => fitsFields depth fields

def fitsValues : ℕ → List Json → Bool
  | _, [] => true
  | depth, value :: values => fits depth value && fitsValues depth values

def fitsFields : ℕ → List (String × Json) → Bool
  | _, [] => true
  | depth, (_, value) :: fields => fits depth value && fitsFields depth fields

end

def fieldText (field : String × Json) : List Char :=
  quote field.1 ++ ':' :: field.2.characters

theorem valueCharacters_eq (values : List Json) :
    valueCharacters values = joined ',' (values.map characters) := by
  induction values with
  | nil => rfl
  | cons value values ih =>
      cases values with
      | nil => rfl
      | cons other values =>
          rw [List.map_cons, List.map_cons, joined_cons_cons, ← List.map_cons,
            ← ih]
          rfl

theorem fieldCharacters_eq (fields : List (String × Json)) :
    fieldCharacters fields = joined ',' (fields.map fieldText) := by
  induction fields with
  | nil => rfl
  | cons field fields ih =>
      cases fields with
      | nil => rfl
      | cons other fields =>
          rw [List.map_cons, List.map_cons, joined_cons_cons, ← List.map_cons,
            ← ih, fieldText, List.append_assoc]
          rfl

theorem nextMark_cons {character : Char} (hplain : isBlank character = false)
    (rest : List Char) :
    nextMark (character :: rest) = some (character, rest) :=
  nextAfter_cons hplain rest

/-- A character a scalar may begin with: it is no blank, and it opens or closes
no container. -/
def opensScalar (character : Char) : Bool :=
  character ∈ ['n', 't', 'f', '"', '-'] || character.isDigit

theorem of_opensScalar {character : Char} (hopens : opensScalar character) :
    isBlank character = false ∧ character ≠ ']' ∧ character ≠ '[' ∧
      character ≠ '\x7b' := by
  have hblank : isBlank character = false := by
    rw [isBlank, decide_eq_false_iff_not]
    intro hmem
    have hall : [' ', '\n', '\t', '\r'].all fun other => !opensScalar other := by
      decide
    have hother := List.all_eq_true.mp hall character hmem
    rw [hopens] at hother
    cases hother
  refine ⟨hblank, ?_, ?_, ?_⟩ <;>
  · rintro rfl
    cases hopens

theorem opensScalar_of_isDigit {character : Char}
    (hdigit : character.isDigit = true) : opensScalar character := by
  rw [opensScalar, hdigit, Bool.or_true]

theorem scalar_int {value : Int} (hlow : -9223372036854775808 ≤ value)
    (hhigh : value < 18446744073709551616) :
    ∃ first rest, (int value).characters = first :: rest ∧
      opensScalar first ∧ readScalar first rest = some (int value, []) := by
  obtain ⟨first, others, hdigits, hdigit⟩ := toDigits_eq_cons value.natAbs
  have hnumeral : isNumeral (first :: others) := by
    rw [← hdigits]
    exact isNumeral_toDigits value.natAbs
  rw [characters, hdigits]
  split
  · next hnegative =>
      have hvalue : -(value.natAbs : Int) = value := by omega
      have hfirst : next (first :: others) = some (first, others) := rfl
      refine ⟨'-', first :: others, rfl, by decide, ?_⟩
      have hminus : readScalar '-' = next >>= readNumber ['-'] := rfl
      rw [hminus, bind_apply hfirst, readNumber_digits _ hnumeral, ← hdigits,
        number_negative (by omega) (by omega), hvalue]
  · next hnonnegative =>
      have hvalue : (value.natAbs : Int) = value := by omega
      refine ⟨first, others, rfl, opensScalar_of_isDigit hdigit, ?_⟩
      rw [readScalar_digit hdigit, readNumber_digits _ hnumeral, ← hdigits,
        number_toDigits (by omega), hvalue]

theorem scalar_float {literal : String} (hliteral : isFloat literal) :
    ∃ first rest, (float literal).characters = first :: rest ∧
      opensScalar first ∧ readScalar first rest = some (float literal, []) := by
  unfold isFloat at hliteral
  split at hliteral
  · cases hliteral
  · next first rest htext =>
      simp only [Bool.and_eq_true, Bool.or_eq_true, beq_iff_eq,
        decide_eq_true_eq] at hliteral
      obtain ⟨⟨hfirst, hlines⟩, hread⟩ := hliteral
      have hopens : opensScalar first := by
        rcases hfirst with rfl | hdigit
        · rfl
        · exact opensScalar_of_isDigit hdigit
      have hline : first ≠ '\n' := by
        rintro rfl
        cases hopens
      have hcharacters : (float literal).characters = first :: rest := by
        rw [characters, htext, List.filter_eq_self]
        intro character hmem
        rw [decide_eq_true_eq]
        rintro rfl
        exact (List.mem_cons.mp hmem).elim (fun heq => hline heq.symm) hlines
      refine ⟨first, rest, hcharacters, hopens, ?_⟩
      split at hread
      · next other hother =>
          rw [hother, eq_of_beq hread]
      · cases hread

/-- A scalar is read back from its first character on. -/
theorem scalar_read {depth : ℕ} {value : Json} (hfits : value.fits depth)
    (harray : value.asArray = none) (hobject : value.asObject = none) :
    ∃ first rest, value.characters = first :: rest ∧
      opensScalar first ∧ readScalar first rest = some (value, []) := by
  cases value with
  | null => exact ⟨_, _, rfl, rfl, rfl⟩
  | bool value => cases value <;> exact ⟨_, _, rfl, rfl, rfl⟩
  | int value =>
      simp only [fits, Bool.and_eq_true, decide_eq_true_eq] at hfits
      exact scalar_int hfits.1 hfits.2
  | float literal =>
      rw [fits] at hfits
      exact scalar_float hfits
  | string text =>
      exact ⟨_, _, rfl, rfl, map_apply (readString_escaped text) string⟩
  | array values => cases harray
  | object fields => cases hobject

/-- What a value is printed as begins with a character that closes nothing. -/
theorem exists_first {depth : ℕ} {value : Json} (hfits : value.fits depth) :
    ∃ first rest, nextMark value.characters = some (first, rest) ∧
      first ≠ ']' := by
  cases value with
  | array values => exact ⟨_, _, rfl, by decide⟩
  | object fields => exact ⟨_, _, rfl, by decide⟩
  | _ =>
      obtain ⟨first, rest, htext, hopens, -⟩ := scalar_read hfits rfl rfl
      refine ⟨first, rest, ?_, (of_opensScalar hopens).2.1⟩
      rw [htext, nextMark_cons (of_opensScalar hopens).1]

theorem readValue_scalar {depth : ℕ} {value : Json} (hfits : value.fits depth)
    (harray : value.asArray = none) (hobject : value.asObject = none) :
    readValue depth value.characters = some (value, []) := by
  obtain ⟨first, rest, htext, hopens, hread⟩ :=
    scalar_read hfits harray hobject
  obtain ⟨hblank, -, hbracket, hbrace⟩ := of_opensScalar hopens
  rw [htext]
  cases depth with
  | zero => rw [readValue, bind_apply (nextMark_cons hblank rest), hread]
  | succ depth =>
      rw [readValue, bind_apply (nextMark_cons hblank rest), if_neg hbracket,
        if_neg hbrace, hread]

theorem exists_of_readField {value : Reader Char Json} {text rest : List Char}
    {field : String × Json}
    (hread : readField value text = some (field, rest)) :
    ∃ before after, value before = some (field.2, after) := by
  obtain ⟨quote, behind, -, hread⟩ := bind_eq_some_iff.mp hread
  split at hread
  · obtain ⟨key, behind, -, hread⟩ := bind_eq_some_iff.mp hread
    obtain ⟨colon, behind, -, hread⟩ := bind_eq_some_iff.mp hread
    split at hread
    · obtain ⟨value, hvalue, rfl⟩ := map_eq_some_iff.mp hread
      exact ⟨_, _, hvalue⟩
    · cases hread
  · cases hread

theorem readField_fieldText {depth : ℕ} {key : String} {value : Json}
    (hread : readValue depth value.characters = some (value, [])) :
    readField (readValue depth) (fieldText (key, value)) =
      some ((key, value), []) := by
  have hquote : nextMark (fieldText (key, value)) =
      some ('"', key.toList.flatMap escape ++ ['"'] ++
        ':' :: value.characters) := rfl
  have hkey := firm_readString.read (readString_escaped key)
    (':' :: value.characters)
  have hcolon : nextMark (':' :: value.characters) =
      some (':', value.characters) := rfl
  rw [readField, bind_apply hquote, if_pos rfl, bind_apply hkey,
    bind_apply hcolon, if_pos rfl]
  exact map_apply hread _

theorem nextMark_comma (rest : List Char) :
    nextMark (',' :: rest) = some (',', rest) :=
  nextMark_cons rfl rest

theorem inNumber_comma : inNumber ',' = false := rfl

mutual

theorem readValue_characters (depth : ℕ) (value : Json)
    (hfits : value.fits depth) :
    readValue depth value.characters = some (value, []) := by
  match depth, value with
  | depth + 1, .array values =>
      have hopen : nextMark (characters (.array values)) =
          some ('[', joined ',' (values.map characters) ++ [']']) := by
        rw [← valueCharacters_eq]
        rfl
      have hclose : ∀ rest, nextMark (']' :: rest) = some (']', rest) :=
        nextMark_cons rfl
      have hread := bracketed_read firm_nextMark rfl (extends_readValue depth)
        nextMark_comma hclose inNumber_comma rfl (by decide)
        (readValue_valueCharacters depth values (by rwa [fits] at hfits))
      rw [readValue, bind_apply hopen, if_pos rfl]
      exact map_apply hread array
  | depth + 1, .object fields =>
      have hopen : nextMark (characters (.object fields)) =
          some ('\x7b', joined ',' (fields.map fieldText) ++ ['\x7d']) := by
        rw [← fieldCharacters_eq]
        rfl
      have hclose : ∀ rest, nextMark ('\x7d' :: rest) = some ('\x7d', rest) :=
        nextMark_cons rfl
      have hread := bracketed_read firm_nextMark rfl
        (extends_readField (extends_readValue depth)) nextMark_comma hclose
        inNumber_comma rfl (by decide)
        (readField_fieldCharacters depth fields (by rwa [fits] at hfits))
      rw [readValue, bind_apply hopen, if_neg (by decide), if_pos rfl]
      exact map_apply hread object
  | 0, .array values => simp [fits] at hfits
  | 0, .object fields => simp [fits] at hfits
  | depth, .null => exact readValue_scalar hfits rfl rfl
  | depth, .bool value => exact readValue_scalar hfits rfl rfl
  | depth, .int value => exact readValue_scalar hfits rfl rfl
  | depth, .float literal => exact readValue_scalar hfits rfl rfl
  | depth, .string text => exact readValue_scalar hfits rfl rfl

theorem readValue_valueCharacters (depth : ℕ) (values : List Json)
    (hfits : fitsValues depth values) :
    ∀ value ∈ values,
      readValue depth value.characters = some (value, []) ∧
        ∃ symbol rest, nextMark value.characters = some (symbol, rest) ∧
          symbol ≠ ']' := by
  match values with
  | [] => exact fun value hmem => absurd hmem List.not_mem_nil
  | value :: values =>
      rw [fitsValues, Bool.and_eq_true] at hfits
      have hvalue := readValue_characters depth value hfits.1
      have hvalues := readValue_valueCharacters depth values hfits.2
      rw [List.forall_mem_cons]
      exact ⟨⟨hvalue, exists_first hfits.1⟩, hvalues⟩

theorem readField_fieldCharacters (depth : ℕ) (fields : List (String × Json))
    (hfits : fitsFields depth fields) :
    ∀ field ∈ fields,
      readField (readValue depth) (fieldText field) = some (field, []) ∧
        ∃ symbol rest, nextMark (fieldText field) = some (symbol, rest) ∧
          symbol ≠ '\x7d' := by
  match fields with
  | [] => exact fun field hmem => absurd hmem List.not_mem_nil
  | (key, value) :: fields =>
      rw [fitsFields, Bool.and_eq_true] at hfits
      have hvalue := readValue_characters depth value hfits.1
      have hfields := readField_fieldCharacters depth fields hfits.2
      rw [List.forall_mem_cons]
      exact ⟨⟨readField_fieldText hvalue, '"', _, rfl, by decide⟩, hfields⟩

end

/-- A value is read back from what it was printed as. -/
theorem read_print {value : Json} (hfits : value.fits maxDepth) :
    read value.print = .ok value := by
  rw [read, print, String.toList_ofList,
    readValue_characters maxDepth value hfits]
  rfl

/-- No proper beginning of a printed object is read as anything. -/
theorem read_torn {fields : List (String × Json)}
    (hfits : (object fields).fits maxDepth) {torn rest : String}
    (hprint : (object fields).print = torn ++ rest) (hrest : rest ≠ "") :
    ∃ error, read torn = .error error := by
  have htext : (object fields).characters = torn.toList ++ rest.toList := by
    rw [← String.toList_append, ← hprint, print, String.toList_ofList]
  have hwhole := readValue_characters maxDepth (.object fields) hfits
  rw [htext] at hwhole
  cases htorn : torn.toList with
  | nil =>
      rw [read, htorn]
      exact ⟨_, rfl⟩
  | cons first tail =>
      have hfirst : first = '\x7b' := by
        rw [htorn, characters, List.cons_append, List.cons.injEq] at htext
        exact htext.1.symm
      have hopen : ∀ behind, nextMark ('\x7b' :: behind) =
          some ('\x7b', behind) := nextMark_cons rfl
      have hobject : ∀ behind, readValue maxDepth ('\x7b' :: behind) =
          (object <$> bracketed nextMark ',' '\x7d'
            (readField (readValue 126))) behind := by
        intro behind
        rw [maxDepth, readValue, bind_apply (hopen behind),
          if_neg (by decide), if_pos rfl]
      have hfirm := (firm_bracketed firm_nextMark rfl ',' '\x7d'
        (extends_readField (extends_readValue 126))).map object
      rw [htorn, hfirst, List.cons_append, hobject] at hwhole
      rw [read, htorn, hfirst, hobject]
      split
      · exact ⟨_, rfl⟩
      · next value left hread =>
          rw [hfirm.append hread rest.toList] at hwhole
          have hleft : left ++ rest.toList = [] :=
            (Prod.mk.inj (Option.some.inj hwhole)).2
          have hempty := List.append_eq_nil_iff.mp hleft
          exact absurd (String.toList_eq_nil_iff.mp hempty.2) hrest

/-! ## Values that are nested too deep -/

theorem readNumber_notContainer {sign : List Char} {first : Char}
    {text rest : List Char} {value : Json}
    (hread : readNumber sign first text = some (value, rest)) :
    value.asArray = none ∧ value.asObject = none := by
  obtain ⟨others, behind, -, hread⟩ := bind_eq_some_iff.mp hread
  split at hread
  · obtain ⟨fraction, behind, -, hread⟩ := bind_eq_some_iff.mp hread
    obtain ⟨exponent, behind, -, hread⟩ := bind_eq_some_iff.mp hread
    cases hread
    unfold number
    dsimp only
    split
    · exact ⟨rfl, rfl⟩
    · split <;> exact ⟨rfl, rfl⟩
  · cases hread

/-- What begins as no container is none. -/
theorem readScalar_notContainer {first : Char} {text rest : List Char}
    {value : Json} (hread : readScalar first text = some (value, rest)) :
    value.asArray = none ∧ value.asObject = none := by
  unfold readScalar at hread
  split at hread
  · obtain ⟨word, -, rfl⟩ := map_eq_some_iff.mp hread
    exact ⟨rfl, rfl⟩
  · obtain ⟨word, -, rfl⟩ := map_eq_some_iff.mp hread
    exact ⟨rfl, rfl⟩
  · obtain ⟨word, -, rfl⟩ := map_eq_some_iff.mp hread
    exact ⟨rfl, rfl⟩
  · obtain ⟨word, -, rfl⟩ := map_eq_some_iff.mp hread
    exact ⟨rfl, rfl⟩
  · obtain ⟨digit, behind, -, hread⟩ := bind_eq_some_iff.mp hread
    exact readNumber_notContainer hread
  · exact readNumber_notContainer hread

theorem readNumber_of_not_digit {first : Char} (hfirst : first.isDigit = false)
    (text : List Char) : readNumber [] first text = none := by
  have hnumeral : ∀ others, isNumeral (first :: others) = false := by
    intro others
    simp [isNumeral, decimal, hfirst]
  have hothers : longest Char.isDigit text =
      some (text.takeWhile Char.isDigit, text.dropWhile Char.isDigit) := rfl
  rw [readNumber, bind_apply hothers, hnumeral, if_neg Bool.false_ne_true]
  rfl

theorem readField_covers {wide narrow : Reader Char Json}
    (hcovers : Covers wide narrow) :
    Covers (readField wide) (readField narrow) := by
  rw [readField, readField]
  apply Covers.bind
  intro quote
  split
  · apply Covers.bind
    intro key
    apply Covers.bind
    intro colon
    split
    · exact hcovers.map _
    · exact id
  · exact id

/-- A reader that may open more reads what one that may open fewer does. -/
theorem readValue_covers {depth more : ℕ} (hmore : depth ≤ more) :
    Covers (readValue more) (readValue depth) := by
  induction depth generalizing more with
  | zero =>
      cases more with
      | zero => exact id
      | succ more =>
          rw [readValue, readValue]
          apply Covers.bind
          intro first text found hfound
          by_cases hbracket : first = '['
          · rw [hbracket] at hfound
            exact absurd ((readNumber_of_not_digit rfl text).symm.trans hfound)
              nofun
          · by_cases hbrace : first = '\x7b'
            · rw [hbrace] at hfound
              exact absurd ((readNumber_of_not_digit rfl text).symm.trans hfound)
                nofun
            · rw [if_neg hbracket, if_neg hbrace]
              exact hfound
  | succ depth ih =>
      obtain ⟨more, rfl⟩ : ∃ fewer, more = fewer + 1 := ⟨more - 1, by omega⟩
      have hcovers : Covers (readValue more) (readValue depth) :=
        ih (Nat.le_of_succ_le_succ hmore)
      rw [readValue, readValue]
      apply Covers.bind
      intro first
      split
      · apply Covers.map
        exact bracketed_covers nextMark ',' ']' hcovers
      · split
        · apply Covers.map
          exact bracketed_covers nextMark ',' '\x7d' (readField_covers hcovers)
        · exact id

theorem fitsValues_iff {depth : ℕ} {values : List Json} :
    fitsValues depth values ↔ ∀ value ∈ values, value.fits depth := by
  induction values with
  | nil => simp [fitsValues]
  | cons value values ih =>
      rw [fitsValues, Bool.and_eq_true, ih, List.forall_mem_cons]

theorem fitsFields_iff {depth : ℕ} {fields : List (String × Json)} :
    fitsFields depth fields ↔ ∀ field ∈ fields, field.2.fits depth := by
  induction fields with
  | nil => simp [fitsFields]
  | cons field fields ih =>
      rw [fitsFields, Bool.and_eq_true, ih, List.forall_mem_cons]

/-- A scalar fits whatever the depth. -/
theorem fits_scalar {depth bound : ℕ} {value : Json} (hfits : value.fits bound)
    (harray : value.asArray = none) (hobject : value.asObject = none) :
    value.fits depth := by
  cases value with
  | null => rfl
  | bool => rfl
  | string => rfl
  | int => simpa only [fits] using hfits
  | float => simpa only [fits] using hfits
  | array => cases harray
  | object => cases hobject

/-- What is read is nested no deeper than was allowed. -/
theorem fits_of_readValue {depth bound : ℕ} {text rest : List Char}
    {value : Json} (hread : readValue depth text = some (value, rest))
    (hfits : value.fits bound) : value.fits depth := by
  induction depth generalizing bound text rest value with
  | zero =>
      obtain ⟨first, behind, -, hread⟩ := bind_eq_some_iff.mp hread
      obtain ⟨harray, hobject⟩ := readScalar_notContainer hread
      exact fits_scalar hfits harray hobject
  | succ depth ih =>
      obtain ⟨first, behind, -, hread⟩ := bind_eq_some_iff.mp hread
      split at hread
      · obtain ⟨values, hvalues, rfl⟩ := map_eq_some_iff.mp hread
        cases bound with
        | zero => cases hfits
        | succ bound =>
            rw [fits, fitsValues_iff] at hfits ⊢
            intro value hmem
            obtain ⟨before, after, hvalue⟩ := exists_of_bracketed hvalues hmem
            exact ih hvalue (hfits value hmem)
      · split at hread
        · obtain ⟨fields, hfields, rfl⟩ := map_eq_some_iff.mp hread
          cases bound with
          | zero => cases hfits
          | succ bound =>
              rw [fits, fitsFields_iff] at hfits ⊢
              intro field hmem
              obtain ⟨before, after, hfield⟩ := exists_of_bracketed hfields hmem
              obtain ⟨before, after, hvalue⟩ := exists_of_readField hfield
              exact ih hvalue (hfits field hmem)
        · obtain ⟨harray, hobject⟩ := readScalar_notContainer hread
          exact fits_scalar hfits harray hobject

theorem fits_succ {depth : ℕ} {value : Json} (hfits : value.fits depth) :
    value.fits (depth + 1) :=
  fits_of_readValue (readValue_covers (Nat.le_succ depth)
    (readValue_characters depth value hfits)) hfits

/-- Of the values whose numbers can be read, exactly those are read back that
are not nested too deep. -/
theorem read_print_iff {bound : ℕ} {value other : Json}
    (hfits : value.fits bound) :
    read value.print = .ok other ↔ value.fits maxDepth ∧ other = value := by
  constructor
  · intro hread
    unfold read at hread
    split at hread
    · cases hread
    · next found rest hvalue =>
        rw [print, String.toList_ofList] at hvalue
        have hwide := readValue_covers (Nat.le_max_left maxDepth bound) hvalue
        have hwhole := readValue_covers (Nat.le_max_right maxDepth bound)
          (readValue_characters bound value hfits)
        cases hwide.symm.trans hwhole
        cases hread
        exact ⟨fits_of_readValue hvalue hfits, rfl⟩
  · intro hsame
    rw [hsame.2]
    exact read_print hsame.1

/-! ## What is known of a reader and a printer -/

/-- The reader reads back what the printer wrote, within its bound on open
containers, and reads no proper beginning of an object. -/
structure Lawful (fromStr : String → Except String Json)
    (toStr : Json → String) : Prop where
  reads_back : ∀ {value}, value.fits maxDepth →
    fromStr (toStr value) = .ok value
  one_line : ∀ value, '\n' ∉ (toStr value).toList
  braces : ∀ fields, ∃ inside,
    (toStr (.object fields)).toList = '\x7b' :: (inside ++ ['\x7d'])
  torn : ∀ {fields torn rest}, (object fields).fits maxDepth →
    toStr (.object fields) = torn ++ rest → rest ≠ "" →
      ∃ error, fromStr torn = .error error

theorem print_lawful : Lawful read print where
  reads_back := read_print
  one_line := print_compactly.one_line
  braces fields := ⟨fieldCharacters fields, String.toList_ofList⟩
  torn hfits hline hrest := read_torn hfits hline hrest

/-- Nothing is trimmed off an object. -/
theorem trim_braces (inside : List Char) :
    Text.trim ('\x7b' :: (inside ++ ['\x7d'])) =
      '\x7b' :: (inside ++ ['\x7d']) := by
  have hopen : ¬ Text.isWhiteSpace '\x7b' = true := by decide
  have hclose : ¬ Text.isWhiteSpace '\x7d' = true := by decide
  have hreverse : ('\x7b' :: (inside ++ ['\x7d'])).reverse =
      '\x7d' :: ('\x7b' :: inside).reverse := by
    rw [← List.cons_append, List.reverse_append]
    rfl
  rw [Text.trim, List.dropWhile_cons_of_neg hopen, hreverse,
    List.dropWhile_cons_of_neg hclose, ← hreverse, List.reverse_reverse]

end Mandala.Data.Json
