import Mathlib.Tactic.Common
import Mathlib.Data.Nat.Notation

/-!
# UTF-8 text

Files hold bytes and programs read text.  Decoding is the partial inverse of
encoding, and a newline byte in a valid encoding is always a newline character,
so a text ends with a newline exactly when its bytes do.  The string operations
are those of the Rust standard library, on lists of characters.
-/

namespace Mandala.Text

def encodeUtf8 (text : String) : List UInt8 :=
  text.toList.flatMap String.utf8EncodeChar

/-- `String::from_utf8`. -/
def decodeUtf8 (bytes : List UInt8) : Option String :=
  String.fromUTF8? bytes.toByteArray

/-- The byte of a newline character. -/
def newlineByte : UInt8 := 10

theorem toByteArray_eq_encodeUtf8 (text : String) :
    text.toByteArray = (encodeUtf8 text).toByteArray := by
  rw [← String.utf8Encode_toList]
  rfl

theorem decodeUtf8_eq_some_iff {bytes : List UInt8} {text : String} :
    decodeUtf8 bytes = some text ↔ encodeUtf8 text = bytes := by
  have hbytes : encodeUtf8 text = bytes ↔ text.toByteArray = bytes.toByteArray := by
    rw [toByteArray_eq_encodeUtf8]
    constructor
    · intro hencode
      rw [hencode]
    · intro harray
      rw [← List.toList_data_toByteArray (l := encodeUtf8 text), harray,
        List.toList_data_toByteArray]
  rw [hbytes]
  unfold decodeUtf8 String.fromUTF8?
  split
  · next hvalid =>
      rw [Option.some.injEq, ← String.toByteArray_inj]
      exact eq_comm
  · next hvalid =>
      constructor
      · intro hnone
        cases hnone
      · intro harray
        exact absurd (harray ▸ text.isValidUTF8) hvalid

@[simp]
theorem decodeUtf8_encodeUtf8 (text : String) :
    decodeUtf8 (encodeUtf8 text) = some text :=
  decodeUtf8_eq_some_iff.mpr rfl

theorem encodeUtf8_append (left right : String) :
    encodeUtf8 (left ++ right) = encodeUtf8 left ++ encodeUtf8 right := by
  simp [encodeUtf8]

theorem length_encodeUtf8 (text : String) :
    (encodeUtf8 text).length = text.utf8ByteSize := by
  rw [← String.size_toByteArray, toByteArray_eq_encodeUtf8]
  simp

/-- Only a newline character is encoded with a newline byte. -/
theorem newlineByte_mem_utf8EncodeChar {character : Char} :
    newlineByte ∈ String.utf8EncodeChar character ↔ character = '\n' := by
  have hbyte (n : ℕ) : newlineByte = UInt8.ofNat n ↔ n % 256 = 10 := by
    rw [← UInt8.toNat_inj, UInt8.toNat_ofNat']
    simp [newlineByte, eq_comm]
  constructor
  · intro hmem
    rw [Char.ext_iff, ← UInt32.toNat_inj]
    change character.val.toNat = 10
    unfold String.utf8EncodeChar at hmem
    simp only at hmem
    split at hmem
    · simp only [List.mem_singleton, hbyte] at hmem
      omega
    · split at hmem
      · simp only [List.mem_cons, List.not_mem_nil,
          or_false, hbyte] at hmem
        omega
      · split at hmem <;>
        · simp only [List.mem_cons, List.not_mem_nil,
          or_false, hbyte] at hmem
          omega
  · intro hcharacter
    subst hcharacter
    decide

theorem newlineByte_mem_encodeUtf8 {text : String} :
    newlineByte ∈ encodeUtf8 text ↔ '\n' ∈ text.toList := by
  simp [encodeUtf8, newlineByte_mem_utf8EncodeChar]

theorem newline_notMem_of_bytes {text : String}
    (hbytes : newlineByte ∉ text.toByteArray.data.toList) :
    '\n' ∉ text.toList := by
  rw [← newlineByte_mem_encodeUtf8]
  rwa [toByteArray_eq_encodeUtf8, List.data_toByteArray,
    List.toList_toArray] at hbytes

/-- A text whose bytes end with a newline byte ends with a newline. -/
theorem getLast?_of_encodeUtf8_eq {text : String} {line : List UInt8}
    (hencode : encodeUtf8 text = line ++ [newlineByte]) :
    text.toList.getLast? = some '\n' := by
  rcases List.eq_nil_or_concat text.toList with hnil | ⟨before, last, hlast⟩
  · simp [encodeUtf8, hnil] at hencode
  · rw [List.concat_eq_append] at hlast
    have hbytes : encodeUtf8 text =
        before.flatMap String.utf8EncodeChar ++ String.utf8EncodeChar last := by
      simp [encodeUtf8, hlast]
    have hne : String.utf8EncodeChar last ≠ [] := String.utf8EncodeChar_ne_nil
    have hmem : newlineByte ∈ String.utf8EncodeChar last := by
      have hend := congrArg List.getLast? (hbytes.symm.trans hencode)
      simp only [List.getLast?_append, List.getLast?_eq_some_getLast hne,
        List.getLast?_singleton, Option.some_or, Option.some.injEq] at hend
      exact hend ▸ List.getLast_mem hne
    rw [hlast, newlineByte_mem_utf8EncodeChar.mp hmem,
      List.getLast?_append, List.getLast?_singleton]
    rfl

/-! ## Lossy decoding -/

/-- The second bytes that may follow a leading byte. -/
def validSecondByte (first second : UInt8) : Bool :=
  if first = 0xe0 then 0xa0 ≤ second && second ≤ 0xbf
  else if first = 0xed then 0x80 ≤ second && second ≤ 0x9f
  else if first = 0xf0 then 0x90 ≤ second && second ≤ 0xbf
  else if first = 0xf4 then 0x80 ≤ second && second ≤ 0x8f
  else 0x80 ≤ second && second ≤ 0xbf

def isContinuation (byte : UInt8) : Bool := 0x80 ≤ byte && byte ≤ 0xbf

/-- How many bytes the character starting with this byte takes, `0` for a byte
no character starts with. -/
def encodedWidth (first : UInt8) : ℕ :=
  if first ≤ 0x7f then 1
  else if 0xc2 ≤ first && first ≤ 0xdf then 2
  else if 0xe0 ≤ first && first ≤ 0xef then 3
  else if 0xf0 ≤ first && first ≤ 0xf4 then 4
  else 0

/-- How many of the bytes after a leading byte belong to its character, stopping
at the first that cannot. -/
def validContinuations (first : UInt8) (rest : List UInt8) : ℕ :=
  let wanted := encodedWidth first - 1
  match rest with
  | [] => 0
  | second :: later =>
      if wanted = 0 || !validSecondByte first second then 0
      else 1 + ((later.take (wanted - 1)).takeWhile isContinuation).length

/-- `String::from_utf8_lossy`, on at most `fuel` characters: every maximal
broken sequence becomes one replacement character. -/
def decodeLossy : ℕ → List UInt8 → List Char
  | _, [] => []
  | 0, _ :: _ => []
  | fuel + 1, first :: rest =>
      let found := validContinuations first rest
      let width := encodedWidth first
      let decoded := decodeUtf8 (first :: rest.take found)
      let char := if width = found + 1 then
          (decoded.bind fun text => text.toList.head?).getD '\uFFFD'
        else '\uFFFD'
      char :: decodeLossy fuel (rest.drop found)

/-- `String::from_utf8_lossy`: valid text is returned as it is. -/
def fromUtf8Lossy (bytes : List UInt8) : String :=
  match decodeUtf8 bytes with
  | some text => text
  | none => String.ofList (decodeLossy bytes.length bytes)

/-! ## Trimming, lines and fields -/

/-- `char::is_whitespace`. -/
def isWhiteSpace (character : Char) : Bool :=
  let code := character.toNat
  (9 ≤ code && code ≤ 13) || code = 0x20 || code = 0x85 || code = 0xa0 ||
    code = 0x1680 || (0x2000 ≤ code && code ≤ 0x200a) || code = 0x2028 ||
    code = 0x2029 || code = 0x202f || code = 0x205f || code = 0x3000

/-- `str::trim`. -/
def trim (text : List Char) : List Char :=
  ((text.dropWhile isWhiteSpace).reverse.dropWhile isWhiteSpace).reverse

/-- `str::lines`: a carriage return before a newline is part of the line end,
and an empty last line is none. -/
def lines (text : List Char) : List (List Char) :=
  go [] text
where
  go (current : List Char) : List Char → List (List Char)
    | [] => if current = [] then [] else [current]
    | '\n' :: rest =>
        (if current.getLast? = some '\r' then current.dropLast
          else current) :: go [] rest
    | character :: rest => go (current ++ [character]) rest

theorem trim_of_not_whiteSpace {text : List Char}
    (htext : ∀ character ∈ text, isWhiteSpace character = false) :
    trim text = text := by
  have hkeep (chars : List Char)
      (hchars : ∀ character ∈ chars, isWhiteSpace character = false) :
      chars.dropWhile isWhiteSpace = chars := by
    cases chars with
    | nil => rfl
    | cons character chars =>
        rw [List.dropWhile_cons_of_neg]
        simp [hchars character (List.mem_cons_self ..)]
  rw [trim, hkeep text htext, hkeep text.reverse (by simpa using htext),
    List.reverse_reverse]

/-! ## Joined and split lists -/

/-- Joining parts that hold no separator and splitting the result gives the
parts back. -/
theorem splitOnP_intercalate {isSeparator : Char → Bool} {separator : Char}
    (hseparator : isSeparator separator) {parts : List (List Char)}
    (hparts : ∀ part ∈ parts, ∀ character ∈ part,
      isSeparator character = false) (hne : parts ≠ []) :
    ([separator].intercalate parts).splitOnP isSeparator = parts := by
  induction parts with
  | nil => exact absurd rfl hne
  | cons part parts ih =>
      have hpart := hparts part List.mem_cons_self
      cases parts with
      | nil =>
          rw [List.intercalate_singleton]
          exact List.splitOnP_eq_singleton hpart
      | cons next rest =>
          have hrest := ih (fun other hmem =>
            hparts other (List.mem_cons_of_mem _ hmem)) (List.cons_ne_nil _ _)
          rw [List.intercalate_cons_cons, List.append_assoc,
            List.singleton_append, List.splitOnP_append_cons_of_forall_mem hpart
              separator hseparator, hrest]

end Mandala.Text
