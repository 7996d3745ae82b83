import Mandala.Data.Json
import Mathlib.Data.List.Basic

/-!
# Printing JSON values

A compact printer writes no spaces, escapes what may not stand in a string, and
so takes no more bytes than a count over the value says.  Nothing it writes
contains a newline.
-/

namespace Mandala.Data

/-- How many bytes characters take. -/
def utf8Length : List Char → ℕ
  | [] => 0
  | character :: text => character.utf8Size + utf8Length text

@[simp]
theorem utf8Length_nil : utf8Length [] = 0 := rfl

@[simp]
theorem utf8Length_cons (character : Char) (text : List Char) :
    utf8Length (character :: text) =
      character.utf8Size + utf8Length text := rfl

@[simp]
theorem utf8Length_append (left right : List Char) :
    utf8Length (left ++ right) = utf8Length left + utf8Length right := by
  induction left with
  | nil => rw [List.nil_append, utf8Length_nil, Nat.zero_add]
  | cons character left ih =>
      rw [List.cons_append, utf8Length_cons, ih, utf8Length_cons, Nat.add_assoc]

theorem utf8ByteSize_ofList (text : List Char) :
    (String.ofList text).utf8ByteSize = utf8Length text := by
  induction text with
  | nil => rfl
  | cons character text ih =>
      rw [String.ofList_cons, String.utf8ByteSize_append,
        String.utf8ByteSize_singleton, ih, utf8Length_cons]

theorem utf8Length_toList (text : String) :
    utf8Length text.toList = text.utf8ByteSize := by
  rw [← utf8ByteSize_ofList, String.ofList_toList]

theorem utf8Length_filter_le (keeps : Char → Bool) (text : List Char) :
    utf8Length (text.filter keeps) ≤ utf8Length text := by
  induction text with
  | nil => exact Nat.le_refl 0
  | cons character text ih =>
      rw [List.filter_cons]
      split
      · simpa using ih
      · rw [utf8Length_cons]
        omega

/-- Digits take a byte each. -/
theorem utf8Length_digits {digits : List Char}
    (hdigits : ∀ character ∈ digits, character.isDigit = true) :
    utf8Length digits = digits.length := by
  induction digits with
  | nil => rfl
  | cons character digits ih =>
      have hsize : character.utf8Size = 1 := by
        have hdigit := hdigits character List.mem_cons_self
        rw [Char.isDigit, Bool.and_eq_true, decide_eq_true_eq,
          decide_eq_true_eq] at hdigit
        have hsmall : character.val ≤ 127 :=
          Nat.le_trans (UInt32.le_iff_toNat_le.mp hdigit.2) (by decide)
        exact Char.utf8Size_eq_one_iff.mpr hsmall
      rw [utf8Length_cons, hsize, List.length_cons,
        ih fun other hmem => hdigits other (List.mem_cons_of_mem _ hmem)]
      omega

namespace Json

mutual

/-- How many bytes a value may take: an escape takes six at most. -/
def weight : Json → ℕ
  | .null => 4
  | .bool _ => 5
  | .int value => (Nat.toDigits 10 value.natAbs).length + 1
  | .float literal => literal.utf8ByteSize
  | .string text => 6 * text.utf8ByteSize + 2
  | .array values => weightValues values + 2
  | .object fields => weightFields fields + 2

def weightValues : List Json → ℕ
  | [] => 0
  | value :: values => value.weight + 1 + weightValues values

def weightFields : List (String × Json) → ℕ
  | [] => 0
  | (key, value) :: fields =>
      6 * key.utf8ByteSize + 3 + value.weight + 1 + weightFields fields

end

/-- What is known of `serde_json::to_vec`. -/
structure PrintsCompactly (toVec : Json → String) : Prop where
  size_le : ∀ value, (toVec value).utf8ByteSize ≤ value.weight
  one_line : ∀ value, '\n' ∉ (toVec value).toList

/-- A number of 64 bits takes no more than twenty bytes. -/
theorem weight_int_le {number : Int}
    (hnumber : number.natAbs ≤ 9223372036854775808) :
    (int number).weight ≤ 20 := by
  have hdigits : (Nat.toDigits 10 number.natAbs).length ≤ 19 :=
    (Nat.length_toDigits_le_iff (by decide) (by decide)).mpr (by omega)
  rw [weight]
  omega

/-! ## A compact printer -/

def hexDigit (digit : ℕ) : Char := "0123456789abcdef".toList.getD digit '0'

/-- Quotes, backslashes and control characters are escaped. -/
def escape (character : Char) : List Char :=
  match character with
  | '"' => ['\\', '"']
  | '\\' => ['\\', '\\']
  | '\n' => ['\\', 'n']
  | '\r' => ['\\', 'r']
  | '\t' => ['\\', 't']
  | '\x08' => ['\\', 'b']
  | '\x0c' => ['\\', 'f']
  | _ =>
      if character.toNat < 32 then
        ['\\', 'u', '0', '0', hexDigit (character.toNat / 16),
          hexDigit (character.toNat % 16)]
      else [character]

def quote (text : String) : List Char :=
  '"' :: (text.toList.flatMap escape ++ ['"'])

mutual

/-- A number that is not an integer is printed as its literal, which is one
line. -/
def characters : Json → List Char
  | .null => "null".toList
  | .bool value => (if value then "true" else "false").toList
  | .int value =>
      (if value < 0 then ['-'] else []) ++ Nat.toDigits 10 value.natAbs
  | .float literal => literal.toList.filter (· ≠ '\n')
  | .string text => quote text
  | .array values => '[' :: (valueCharacters values ++ [']'])
  | .object fields => '\x7b' :: (fieldCharacters fields ++ ['\x7d'])

def valueCharacters : List Json → List Char
  | [] => []
  | [value] => value.characters
  | value :: values => value.characters ++ ',' :: valueCharacters values

def fieldCharacters : List (String × Json) → List Char
  | [] => []
  | [(key, value)] => quote key ++ ':' :: value.characters
  | (key, value) :: fields =>
      quote key ++ ':' :: (value.characters ++ ',' :: fieldCharacters fields)

end

def print (value : Json) : String := String.ofList value.characters

theorem hexDigit_cases (digit : ℕ) :
    (hexDigit digit).utf8Size = 1 ∧ hexDigit digit ≠ '\n' := by
  by_cases hdigit : digit < 16
  · revert digit
    decide
  · rw [hexDigit, List.getD_eq_getElem?_getD, List.getElem?_eq_none (Nat.le_of_not_lt hdigit)]
    decide

theorem utf8Length_escape_le (character : Char) :
    utf8Length (escape character) ≤ 6 * character.utf8Size := by
  have hpositive := character.utf8Size_pos
  have hhigh := (hexDigit_cases (character.toNat / 16)).1
  have hlow := (hexDigit_cases (character.toNat % 16)).1
  have hsizes : '\\'.utf8Size = 1 ∧ 'u'.utf8Size = 1 ∧ '0'.utf8Size = 1 := by
    decide
  unfold escape
  split
  all_goals try decide
  split
  · simp only [utf8Length_cons, utf8Length_nil, hhigh, hlow, hsizes]
    omega
  · rw [utf8Length_cons, utf8Length_nil]
    omega

theorem newline_notMem_escape (character : Char) :
    '\n' ∉ escape character := by
  have hhigh := (hexDigit_cases (character.toNat / 16)).2
  have hlow := (hexDigit_cases (character.toNat % 16)).2
  unfold escape
  split
  all_goals try decide
  next hnewline _ _ _ _ =>
    split
    · simp [hhigh.symm, hlow.symm]
    · rw [List.mem_singleton]
      exact fun heq => hnewline heq.symm

theorem utf8Length_quote_le (text : String) :
    utf8Length (quote text) ≤ 6 * text.utf8ByteSize + 2 := by
  have hquote : '"'.utf8Size = 1 := by decide
  have hescaped : ∀ characters : List Char,
      utf8Length (characters.flatMap escape) ≤ 6 * utf8Length characters := by
    intro characters
    induction characters with
    | nil => exact Nat.le_refl 0
    | cons character characters ih =>
        have hfirst := utf8Length_escape_le character
        rw [List.flatMap_cons, utf8Length_append, utf8Length_cons]
        omega
  have hbody := hescaped text.toList
  rw [utf8Length_toList] at hbody
  rw [quote, utf8Length_cons, utf8Length_append, utf8Length_cons,
    utf8Length_nil, hquote]
  omega

theorem newline_notMem_quote (text : String) : '\n' ∉ quote text := by
  rw [quote, List.mem_cons, List.mem_append, List.mem_flatMap]
  rintro (hquote | ⟨character, -, hescaped⟩ | hquote)
  · exact absurd hquote (by decide)
  · exact newline_notMem_escape character hescaped
  · exact absurd hquote (by decide)

theorem mem_digits (number : ℕ) :
    ∀ character ∈ Nat.toDigits 10 number, character.isDigit = true :=
  fun _ hmem => Nat.isDigit_of_mem_toDigits (by decide) (by decide) hmem

mutual

theorem utf8Length_characters_le (value : Json) :
    utf8Length value.characters ≤ value.weight := by
  match value with
  | .null => decide
  | .bool value => cases value <;> decide
  | .int value =>
      have hsign : utf8Length (if value < 0 then ['-'] else []) ≤ 1 := by
        split <;> decide
      rw [characters, weight, utf8Length_append,
        utf8Length_digits (mem_digits _)]
      omega
  | .float literal =>
      rw [characters, weight, ← utf8Length_toList]
      exact utf8Length_filter_le _ _
  | .string text => exact utf8Length_quote_le text
  | .array values =>
      have hvalues := utf8Length_valueCharacters_le values
      have hbrackets : '['.utf8Size = 1 ∧ ']'.utf8Size = 1 := by decide
      rw [characters, weight, utf8Length_cons, utf8Length_append,
        utf8Length_cons, utf8Length_nil, hbrackets.1, hbrackets.2]
      omega
  | .object fields =>
      have hfields := utf8Length_fieldCharacters_le fields
      have hbrackets : '\x7b'.utf8Size = 1 ∧ '\x7d'.utf8Size = 1 := by decide
      rw [characters, weight, utf8Length_cons, utf8Length_append,
        utf8Length_cons, utf8Length_nil, hbrackets.1, hbrackets.2]
      omega

theorem utf8Length_valueCharacters_le (values : List Json) :
    utf8Length (valueCharacters values) ≤ weightValues values := by
  have hcomma : ','.utf8Size = 1 := by decide
  match values with
  | [] => exact Nat.le_refl 0
  | [value] =>
      have hvalue := utf8Length_characters_le value
      rw [valueCharacters, weightValues]
      omega
  | value :: other :: values =>
      have hvalue := utf8Length_characters_le value
      have hrest := utf8Length_valueCharacters_le (other :: values)
      rw [valueCharacters, weightValues, utf8Length_append, utf8Length_cons,
        hcomma]
      · omega
      · rintro ⟨⟩

theorem utf8Length_fieldCharacters_le (fields : List (String × Json)) :
    utf8Length (fieldCharacters fields) ≤ weightFields fields := by
  have hsigns : ','.utf8Size = 1 ∧ ':'.utf8Size = 1 := by decide
  match fields with
  | [] => exact Nat.le_refl 0
  | [(key, value)] =>
      have hkey := utf8Length_quote_le key
      have hvalue := utf8Length_characters_le value
      rw [fieldCharacters, weightFields, utf8Length_append, utf8Length_cons,
        hsigns.2]
      omega
  | (key, value) :: other :: fields =>
      have hkey := utf8Length_quote_le key
      have hvalue := utf8Length_characters_le value
      have hrest := utf8Length_fieldCharacters_le (other :: fields)
      rw [fieldCharacters, weightFields, utf8Length_append, utf8Length_cons,
        utf8Length_append, utf8Length_cons, hsigns.1, hsigns.2]
      · omega
      · rintro ⟨⟩

end

mutual

theorem newline_notMem_characters (value : Json) :
    '\n' ∉ value.characters := by
  match value with
  | .null => decide
  | .bool value => cases value <;> decide
  | .int value =>
      rw [characters, List.mem_append]
      rintro (hsign | hdigit)
      · split at hsign
        · exact absurd hsign (by decide)
        · cases hsign
      · exact absurd (mem_digits _ _ hdigit) (by decide)
  | .float literal =>
      rw [characters, List.mem_filter]
      rintro ⟨-, hkept⟩
      exact absurd hkept (by decide)
  | .string text => exact newline_notMem_quote text
  | .array values =>
      have hvalues := newline_notMem_valueCharacters values
      simp [characters, hvalues]
  | .object fields =>
      have hfields := newline_notMem_fieldCharacters fields
      simp [characters, hfields]

theorem newline_notMem_valueCharacters (values : List Json) :
    '\n' ∉ valueCharacters values := by
  match values with
  | [] => exact List.not_mem_nil
  | [value] => exact newline_notMem_characters value
  | value :: other :: values =>
      have hvalue := newline_notMem_characters value
      have hrest := newline_notMem_valueCharacters (other :: values)
      rw [valueCharacters]
      · simp [hvalue, hrest]
      · rintro ⟨⟩

theorem newline_notMem_fieldCharacters (fields : List (String × Json)) :
    '\n' ∉ fieldCharacters fields := by
  match fields with
  | [] => exact List.not_mem_nil
  | [(key, value)] =>
      have hkey := newline_notMem_quote key
      have hvalue := newline_notMem_characters value
      simp [fieldCharacters, hkey, hvalue]
  | (key, value) :: other :: fields =>
      have hkey := newline_notMem_quote key
      have hvalue := newline_notMem_characters value
      have hrest := newline_notMem_fieldCharacters (other :: fields)
      rw [fieldCharacters]
      · simp [hkey, hvalue, hrest]
      · rintro ⟨⟩

end

theorem print_compactly : PrintsCompactly print where
  size_le value := by
    rw [print, utf8ByteSize_ofList]
    exact utf8Length_characters_le value
  one_line value := by
    rw [print, String.toList_ofList]
    exact newline_notMem_characters value

end Json

end Mandala.Data
