import Mandala.Core.Ascii
import Mandala.Core.ControlSequences

/-!
# The text of a log pane

Lines of other programs carry cursor movements besides colours.  A filter on
their bytes keeps the colours and drops the rest before a line is shown.
-/

namespace Mandala.Panes

open Mandala.ControlSequences Mandala.Text

/-! ## The filter -/

/-- The classes of the scanner: `ESC`, the bracket, digits with `;` and `?`, the
intermediates from the blank on, `m`, the other final bytes from `@` to `~`, and
the controls but `ESC`, tab and newline. -/
def byteKind (byte : UInt8) : Kind :=
  if byte = 0x1b then .escape
  else if byte = 0x5b then .bracket
  else if (0x30 ≤ byte ∧ byte ≤ 0x39) ∨ byte = 0x3b ∨ byte = 0x3f then .parameter
  else if 0x20 ≤ byte ∧ byte ≤ 0x2f then .intermediate
  else if byte = 0x6d then .color
  else if 0x40 ≤ byte ∧ byte ≤ 0x7e then .final
  else if byte ≤ 0x08 ∨ (0x0b ≤ byte ∧ byte ≤ 0x1a) ∨ (0x1c ≤ byte ∧ byte ≤ 0x1f) ∨
      byte = 0x7f then .control
  else .plain

def filterBytes (bytes : List UInt8) : List UInt8 :=
  filter byteKind bytes

def filterAnsi (input : String) : String :=
  let out := filterBytes (encodeUtf8 input)
  (decodeUtf8 out).getD (fromUtf8Lossy out)

/-- What the filter owes the panes. -/
structure Safe (input : String) : Prop where
  /-- The bytes that are left are text as they are. -/
  valid : decodeUtf8 (filterBytes (encodeUtf8 input)) = some (filterAnsi input)
  onlyColors : ∀ sequence final, IsSequence byteKind sequence final →
    byteKind final ≠ .color → ¬ sequence <:+: encodeUtf8 (filterAnsi input)
  noControl : ∀ byte ∈ encodeUtf8 (filterAnsi input), byteKind byte ≠ .control
  /-- All but the dropped sequences and controls is kept in order. -/
  kept : Filtered byteKind (encodeUtf8 input) (encodeUtf8 (filterAnsi input))
  idempotent : filterAnsi (filterAnsi input) = filterAnsi input

/-! ## What is left is text -/

theorem byteKind_of_large {byte : UInt8} (hlarge : 128 ≤ byte.toNat) :
    byteKind byte = .plain := by
  have hne (small : UInt8) (hsmall : small.toNat < 128) : byte ≠ small := by
    rintro rfl
    omega
  have hnotLe (small : UInt8) (hsmall : small.toNat < 128) : ¬ byte ≤ small := by
    rw [UInt8.le_iff_toNat_le]
    omega
  simp (disch := decide) only [byteKind, hne, hnotLe, and_false, or_false, if_false]

theorem toNat_lt_of_ne_plain {byte : UInt8} (hkind : byteKind byte ≠ .plain) :
    byte.toNat < 128 := by
  by_contra hlarge
  exact hkind (byteKind_of_large (not_lt.mp hlarge))

theorem isAscii_of_isSequence {sequence : List UInt8} {final : UInt8}
    (hsequence : IsSequence byteKind sequence final) : IsAscii sequence :=
  fun byte hmem => toNat_lt_of_ne_plain (hsequence.ne_plain byte hmem)

/-- A character is one byte below 128 or has none of them. -/
theorem utf8EncodeChar_cases (character : Char) :
    (∃ byte : UInt8, String.utf8EncodeChar character = [byte]) ∨
      ∀ byte ∈ String.utf8EncodeChar character, byteKind byte = .plain := by
  by_cases hascii : character.toNat < 128
  · exact .inl ⟨_, utf8EncodeChar_ascii hascii⟩
  · right
    intro byte hmem
    apply byteKind_of_large
    by_contra hsmall
    have hcharacter := eq_charOfByte_of_mem (not_le.mp hsmall) hmem
    rw [hcharacter, toNat_charOfByte (not_le.mp hsmall)] at hascii
    omega

/-- ASCII bytes in front of a text are the characters in front of it. -/
theorem exists_chars_of_ascii {chars : List Char} {front rest : List UInt8}
    (hascii : IsAscii front)
    (heq : chars.flatMap String.utf8EncodeChar = front ++ rest) :
    ∃ before after, chars = before ++ after ∧
      front = before.flatMap String.utf8EncodeChar ∧
      rest = after.flatMap String.utf8EncodeChar := by
  induction front generalizing chars with
  | nil => exact ⟨[], chars, rfl, rfl, heq.symm⟩
  | cons byte front ih =>
      have hbyte : byte.toNat < 128 := hascii byte List.mem_cons_self
      cases chars with
      | nil => contradiction
      | cons character chars =>
          rw [List.flatMap_cons] at heq
          obtain ⟨first, others, hencode⟩ :=
            List.exists_cons_of_ne_nil (@String.utf8EncodeChar_ne_nil character)
          have hfirst : first = byte := by
            rw [hencode] at heq
            exact (List.cons.inj heq).1
          have hmem : byte ∈ String.utf8EncodeChar character := by
            rw [hencode, hfirst]
            exact List.mem_cons_self
          have hcharacter := eq_charOfByte_of_mem hbyte hmem
          have hsmall : character.toNat < 128 := by
            rw [hcharacter, toNat_charOfByte hbyte]
            exact hbyte
          have hone : String.utf8EncodeChar character = [byte] := by
            rw [utf8EncodeChar_ascii hsmall, hcharacter, byteOfChar_charOfByte hbyte]
          rw [hone] at heq
          obtain ⟨before, after, rfl, rfl, rfl⟩ :=
            ih (fun other hmem => hascii other (List.mem_cons_of_mem _ hmem))
              (List.cons.inj heq).2
          exact ⟨character :: before, after, rfl, by rw [List.flatMap_cons, hone]; rfl, rfl⟩

/-- A sequence in front of a text is some of its characters. -/
theorem exists_chars_of_isSequence {chars : List Char} {sequence rest : List UInt8}
    {final : UInt8} (hsequence : IsSequence byteKind sequence final)
    (heq : chars.flatMap String.utf8EncodeChar = sequence ++ rest) :
    ∃ before after : List Char, after.length < chars.length ∧
      sequence = before.flatMap String.utf8EncodeChar ∧
      rest = after.flatMap String.utf8EncodeChar := by
  obtain ⟨before, after, rfl, rfl, rfl⟩ :=
    exists_chars_of_ascii (isAscii_of_isSequence hsequence) heq
  refine ⟨before, after, ?_, rfl, rfl⟩
  cases before with
  | nil =>
      obtain ⟨escape, inner, hcons, -, -⟩ := hsequence.exists_cons
      contradiction
  | cons character before =>
      rw [List.length_append, List.length_cons]
      omega

/-- Of a text the filter leaves a text. -/
theorem exists_chars_of_filtered {chars : List Char} {out : List UInt8}
    (hfiltered : Filtered byteKind (chars.flatMap String.utf8EncodeChar) out) :
    ∃ kept : List Char, out = kept.flatMap String.utf8EncodeChar := by
  induction hlength : chars.length using Nat.strong_induction_on generalizing chars out with
  | _ length ih =>
      have hshorter {after : List Char} {kept : List UInt8} (hlt : after.length < chars.length)
          (hafter : Filtered byteKind (after.flatMap String.utf8EncodeChar) kept) :=
        ih after.length (hlength ▸ hlt) hafter rfl
      cases chars with
      | nil => exact ⟨[], hfiltered.of_nil⟩
      | cons character chars =>
          have hlt : chars.length < (character :: chars).length := Nat.lt_succ_self _
          rcases utf8EncodeChar_cases character with ⟨byte, hone⟩ | hplain
          · have hbytes : (character :: chars).flatMap String.utf8EncodeChar =
                byte :: chars.flatMap String.utf8EncodeChar := by
              rw [List.flatMap_cons, hone, List.singleton_append]
            rw [hbytes] at hfiltered
            cases hfiltered with
            | colored hsequence _ htext hrest =>
                obtain ⟨before, after, hless, rfl, rfl⟩ :=
                  exists_chars_of_isSequence hsequence (hbytes.trans htext)
                obtain ⟨kept, rfl⟩ := hshorter hless hrest
                exact ⟨before ++ kept, List.flatMap_append.symm⟩
            | dropped hsequence _ htext hrest =>
                obtain ⟨before, after, hless, rfl, rfl⟩ :=
                  exists_chars_of_isSequence hsequence (hbytes.trans htext)
                exact hshorter hless hrest
            | control _ hrest => exact hshorter hlt hrest
            | kept _ _ hrest =>
                obtain ⟨kept, rfl⟩ := hshorter hlt hrest
                exact ⟨character :: kept, by rw [List.flatMap_cons, hone]; rfl⟩
          · rw [List.flatMap_cons] at hfiltered
            obtain ⟨rest, rfl, hrest⟩ := hfiltered.of_plain hplain
            obtain ⟨kept, rfl⟩ := hshorter hlt hrest
            exact ⟨character :: kept, rfl⟩

/-- The lossy fallback is never taken. -/
theorem decodeUtf8_filterBytes (input : String) :
    decodeUtf8 (filterBytes (encodeUtf8 input)) = some (filterAnsi input) := by
  have hfiltered : Filtered byteKind (encodeUtf8 input) (filterBytes (encodeUtf8 input)) :=
    filtered_filter _
  obtain ⟨kept, hkept⟩ := exists_chars_of_filtered hfiltered
  have hdecode : decodeUtf8 (filterBytes (encodeUtf8 input)) =
      some (String.ofList kept) := by
    rw [decodeUtf8_eq_some_iff, encodeUtf8, String.toList_ofList]
    exact hkept.symm
  rw [filterAnsi, hdecode, Option.getD_some]

theorem encodeUtf8_filterAnsi (input : String) :
    encodeUtf8 (filterAnsi input) = filterBytes (encodeUtf8 input) :=
  decodeUtf8_eq_some_iff.mp (decodeUtf8_filterBytes input)

theorem filtered_filterAnsi (input : String) :
    Filtered byteKind (encodeUtf8 input) (encodeUtf8 (filterAnsi input)) := by
  rw [encodeUtf8_filterAnsi]
  exact filtered_filter _

/-! ## Interrupted sequences -/

/-- The filter does what it should exactly where no sequence that sets no
colour is interrupted by what the filter drops. -/
theorem safe_iff (input : String) :
    Safe input ↔ ¬ Interrupted byteKind (encodeUtf8 input) := by
  have hfiltered := filtered_filterAnsi input
  constructor
  · intro hsafe hinterrupted
    obtain ⟨sequence, final, hsequence, hcolor, hpart⟩ :=
      (exists_sequence_iff hfiltered).mpr hinterrupted
    exact hsafe.onlyColors sequence final hsequence hcolor hpart
  · intro hnone
    have honly : ∀ sequence final, IsSequence byteKind sequence final →
        byteKind final ≠ .color → ¬ sequence <:+: encodeUtf8 (filterAnsi input) :=
      fun sequence final hsequence hcolor hpart => hnone
        ((exists_sequence_iff hfiltered).mp ⟨sequence, final, hsequence, hcolor, hpart⟩)
    refine ⟨decodeUtf8_filterBytes input, honly, hfiltered.kind_ne_control, hfiltered, ?_⟩
    -- a second pass finds nothing to drop
    have hsecond := (filtered_filterAnsi (filterAnsi input)).eq_self
      hfiltered.kind_ne_control honly
    have hdecode := congrArg decodeUtf8 hsecond
    rw [decodeUtf8_encodeUtf8, decodeUtf8_encodeUtf8] at hdecode
    exact Option.some.inj hdecode

/-- A bell between the escape and the bracket of an erased line. -/
theorem not_safe_of_bell : ¬ ∀ input, Safe input := by
  intro hall
  have hidempotent := (hall "\x1b\x07[2K").idempotent
  revert hidempotent
  decide +kernel

example : filterAnsi "\x1b[2K\x1b[1G\x1b[31mred\x1b[0m ok" = "\x1b[31mred\x1b[0m ok" := by
  decide +kernel

end Mandala.Panes
