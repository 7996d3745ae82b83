import Mandala.Core.Text

/-!
# ASCII text

Below 128 a character is its own byte, so the bytes of an ASCII text can be cut
wherever its characters can.
-/

namespace Mandala.Text

def charOfByte (byte : UInt8) : Char := Char.ofNat byte.toNat

def byteOfChar (character : Char) : UInt8 := UInt8.ofNat character.toNat

def IsAscii (bytes : List UInt8) : Prop := ∀ byte ∈ bytes, byte.toNat < 128

theorem toNat_charOfByte {byte : UInt8} (hbyte : byte.toNat < 128) :
    (charOfByte byte).toNat = byte.toNat := by
  have hvalid : byte.toNat.isValidChar := .inl (by omega)
  rw [charOfByte, Char.ofNat, dif_pos hvalid]
  rfl

theorem byteOfChar_charOfByte {byte : UInt8} (hbyte : byte.toNat < 128) :
    byteOfChar (charOfByte byte) = byte := by
  rw [byteOfChar, toNat_charOfByte hbyte, UInt8.ofNat_toNat]

theorem utf8EncodeChar_ascii {character : Char}
    (hascii : character.toNat < 128) :
    String.utf8EncodeChar character = [byteOfChar character] := by
  have hsmall : character.val.toNat ≤ 127 := Nat.le_of_lt_succ hascii
  unfold String.utf8EncodeChar
  simp only [hsmall, if_true]
  rfl

theorem encodeUtf8_ascii {chars : List Char}
    (hascii : ∀ character ∈ chars, character.toNat < 128) :
    encodeUtf8 (String.ofList chars) = chars.map byteOfChar := by
  rw [encodeUtf8, String.toList_ofList]
  induction chars with
  | nil => rfl
  | cons character chars ih =>
      rw [List.flatMap_cons, utf8EncodeChar_ascii
        (hascii character List.mem_cons_self), ih fun other hmem =>
          hascii other (List.mem_cons_of_mem _ hmem)]
      rfl

/-- ASCII bytes are the text of their own characters. -/
theorem decodeUtf8_ascii {bytes : List UInt8} (hascii : IsAscii bytes) :
    decodeUtf8 bytes = some (String.ofList (bytes.map charOfByte)) := by
  rw [decodeUtf8_eq_some_iff, encodeUtf8_ascii, List.map_map]
  · calc bytes.map (byteOfChar ∘ charOfByte)
      _ = bytes.map id := List.map_congr_left fun byte hmem =>
          byteOfChar_charOfByte (hascii byte hmem)
      _ = bytes := List.map_id bytes
  · intro character hmem
    obtain ⟨byte, hbyte, rfl⟩ := List.mem_map.mp hmem
    rw [toNat_charOfByte (hascii byte hbyte)]
    exact hascii byte hbyte

theorem toList_of_ascii {text : String} (hascii : IsAscii (encodeUtf8 text)) :
    text.toList = (encodeUtf8 text).map charOfByte := by
  have hdecode := decodeUtf8_ascii hascii
  rw [decodeUtf8_encodeUtf8, Option.some.injEq] at hdecode
  rw [← String.toList_ofList (l := (encodeUtf8 text).map charOfByte), ← hdecode]

/-- A byte below 128 only stands for itself. -/
theorem eq_charOfByte_of_mem {byte : UInt8} {character : Char}
    (hbyte : byte.toNat < 128) (hmem : byte ∈ String.utf8EncodeChar character) :
    character = charOfByte byte := by
  rw [Char.ext_iff, ← UInt32.toNat_inj]
  change character.val.toNat = (charOfByte byte).toNat
  rw [toNat_charOfByte hbyte]
  have heq (n : ℕ) : byte = UInt8.ofNat n ↔ byte.toNat = n % 256 := by
    rw [← UInt8.toNat_inj, UInt8.toNat_ofNat']
  unfold String.utf8EncodeChar at hmem
  simp only at hmem
  split at hmem
  · rw [List.mem_singleton, heq] at hmem
    omega
  · split at hmem
    · simp only [List.mem_cons, List.not_mem_nil, or_false, heq] at hmem
      omega
    · split at hmem <;>
      · simp only [List.mem_cons, List.not_mem_nil, or_false, heq] at hmem
        omega

/-! ## Bytes read as characters -/

/-- The text that has a character for every byte. -/
def latin1 (text : String) : String :=
  String.ofList ((encodeUtf8 text).map charOfByte)

theorem charOfByte_injective : Function.Injective charOfByte := by
  intro left right heq
  have htoNat (byte : UInt8) : (charOfByte byte).toNat = byte.toNat := by
    have hbyte := byte.toNat_lt
    have hvalid : byte.toNat.isValidChar := .inl (by omega)
    rw [charOfByte, Char.ofNat, dif_pos hvalid]
    rfl
  rw [← UInt8.toNat_inj, ← htoNat left, ← htoNat right, heq]

theorem latin1_injective : Function.Injective latin1 := by
  intro left right heq
  have hchars := String.ofList_injective heq
  have hbytes := (List.map_inj_right fun _ _ hsame => charOfByte_injective hsame).mp
    hchars
  have hdecode := decodeUtf8_encodeUtf8 left
  rw [hbytes, decodeUtf8_encodeUtf8] at hdecode
  exact (Option.some.inj hdecode).symm

theorem length_latin1 (text : String) :
    (latin1 text).length = (encodeUtf8 text).length := by
  rw [latin1, String.length_ofList, List.length_map]

theorem isAscii_of_single {character : Char}
    (hsingle : (String.utf8EncodeChar character).length = 1) :
    IsAscii (String.utf8EncodeChar character) := by
  unfold String.utf8EncodeChar at hsingle ⊢
  simp only at hsingle ⊢
  split at hsingle
  · next hsmall =>
      intro byte hmem
      rw [if_pos hsmall, List.mem_singleton] at hmem
      rw [hmem, UInt8.toNat_ofNat']
      omega
  · split at hsingle
    · cases hsingle
    · split at hsingle <;> cases hsingle

/-- Bytes are at least as many as characters, and more when one is not ASCII. -/
theorem length_le_encodeUtf8 (chars : List Char) :
    chars.length ≤ (chars.flatMap String.utf8EncodeChar).length ∧
      ((chars.flatMap String.utf8EncodeChar).length = chars.length →
        IsAscii (chars.flatMap String.utf8EncodeChar)) := by
  induction chars with
  | nil => exact ⟨Nat.le_refl 0, fun _ => nofun⟩
  | cons character chars ih =>
      obtain ⟨hle, hascii⟩ := ih
      have hpos : 0 < (String.utf8EncodeChar character).length :=
        List.length_pos_iff.mpr String.utf8EncodeChar_ne_nil
      rw [List.flatMap_cons, List.length_append, List.length_cons]
      refine ⟨by omega, fun heq => ?_⟩
      intro byte hmem
      rcases List.mem_append.mp hmem with hmem | hmem
      · exact isAscii_of_single (by omega) byte hmem
      · exact hascii (by omega) byte hmem

/-- A text is read as itself where it is ASCII, and as a longer one elsewhere. -/
theorem latin1_eq_iff (text : String) :
    latin1 text = text ↔ IsAscii (encodeUtf8 text) := by
  constructor
  · intro heq
    have hlength := congrArg String.length heq
    rw [length_latin1] at hlength
    exact (length_le_encodeUtf8 text.toList).2 hlength
  · intro hascii
    rw [latin1, ← toList_of_ascii hascii, String.ofList_toList]

theorem length_lt_latin1 {text : String} (hne : latin1 text ≠ text) :
    text.length < (latin1 text).length := by
  obtain ⟨hle, hascii⟩ := length_le_encodeUtf8 text.toList
  rw [length_latin1]
  refine Nat.lt_of_le_of_ne hle fun heq => hne ?_
  exact (latin1_eq_iff text).mpr (hascii heq.symm)

end Mandala.Text
