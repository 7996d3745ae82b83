import Mandala.Core.Ascii
import Mathlib.Data.List.TakeWhile
import Mathlib.Tactic.Common

/-!
# Lossy lines

Decoding with replacement characters is decoding where nothing is broken, and
no broken character goes over a newline.  So bytes may be cut behind a newline
before they are decoded and split into lines, and nowhere else.
-/

namespace Mandala.Text

/-! ## Bytes as numbers -/

theorem encodedWidth_eq (first : UInt8) :
    encodedWidth first =
      if first.toNat ≤ 127 then 1
      else if 194 ≤ first.toNat ∧ first.toNat ≤ 223 then 2
      else if 224 ≤ first.toNat ∧ first.toNat ≤ 239 then 3
      else if 240 ≤ first.toNat ∧ first.toNat ≤ 244 then 4
      else 0 := by
  simp only [encodedWidth, UInt8.le_iff_toNat_le, Bool.and_eq_true, decide_eq_true_eq]
  rfl

theorem validSecondByte_iff (first second : UInt8) :
    validSecondByte first second ↔
      128 ≤ second.toNat ∧ second.toNat ≤ 191 ∧
        (first.toNat = 224 → 160 ≤ second.toNat) ∧
        (first.toNat = 237 → second.toNat ≤ 159) ∧
        (first.toNat = 240 → 144 ≤ second.toNat) ∧
        (first.toNat = 244 → second.toNat ≤ 143) := by
  have hnumber (n : ℕ) (hn : n < 256) : (UInt8.ofNat n).toNat = n := by
    rw [UInt8.toNat_ofNat', Nat.mod_eq_of_lt hn]
  have he0 : (0xe0 : UInt8).toNat = 224 := hnumber 224 (by decide)
  have hed : (0xed : UInt8).toNat = 237 := hnumber 237 (by decide)
  have hf0 : (0xf0 : UInt8).toNat = 240 := hnumber 240 (by decide)
  have hf4 : (0xf4 : UInt8).toNat = 244 := hnumber 244 (by decide)
  have ha0 : (0xa0 : UInt8).toNat = 160 := hnumber 160 (by decide)
  have hbf : (0xbf : UInt8).toNat = 191 := hnumber 191 (by decide)
  have h80 : (0x80 : UInt8).toNat = 128 := hnumber 128 (by decide)
  have h9f : (0x9f : UInt8).toNat = 159 := hnumber 159 (by decide)
  have h90 : (0x90 : UInt8).toNat = 144 := hnumber 144 (by decide)
  have h8f : (0x8f : UInt8).toNat = 143 := hnumber 143 (by decide)
  simp only [validSecondByte, UInt8.le_iff_toNat_le, ← UInt8.toNat_inj, he0, hed, hf0,
    hf4, ha0, hbf, h80, h9f, h90, h8f]
  split_ifs <;> simp only [Bool.and_eq_true, decide_eq_true_eq] <;> omega

theorem isContinuation_iff (byte : UInt8) :
    isContinuation byte ↔ 128 ≤ byte.toNat ∧ byte.toNat ≤ 191 := by
  simp only [isContinuation, UInt8.le_iff_toNat_le, Bool.and_eq_true, decide_eq_true_eq]
  rfl

theorem isContinuation_ofNat {n : ℕ} : isContinuation (UInt8.ofNat (n % 64 + 128)) := by
  rw [isContinuation_iff, UInt8.toNat_ofNat']
  omega

/-! ## Whole characters -/

theorem validContinuations_of_single {first : UInt8} (hwidth : encodedWidth first = 1)
    (rest : List UInt8) : validContinuations first rest = 0 := by
  cases rest with
  | nil => rfl
  | cons second later => simp [validContinuations, hwidth]

theorem validContinuations_eq {first second : UInt8} {tails : List UInt8}
    (hwidth : encodedWidth first = tails.length + 2)
    (hsecond : validSecondByte first second)
    (htails : ∀ byte ∈ tails, isContinuation byte) (rest : List UInt8) :
    validContinuations first (second :: tails ++ rest) = tails.length + 1 := by
  have htake : ((tails ++ rest).take tails.length).takeWhile isContinuation = tails := by
    rw [List.take_left, List.takeWhile_eq_self_iff]
    exact htails
  have hwanted : tails.length + 2 - 1 = tails.length + 1 := rfl
  rw [List.cons_append, validContinuations, hwidth, hwanted, Nat.add_sub_cancel, htake]
  simp [hsecond, Nat.add_comm]

/-- A first byte with as many continuations as it asks for. -/
theorem exists_multibyte {first second : UInt8} {tails : List UInt8}
    (hwidth : encodedWidth first = tails.length + 2)
    (hsecond : validSecondByte first second)
    (htails : ∀ byte ∈ tails, isContinuation byte) :
    ∃ head others, first :: second :: tails = head :: others ∧
      encodedWidth head = others.length + 1 ∧
      ∀ rest, validContinuations head (others ++ rest) = others.length :=
  ⟨first, second :: tails, rfl, hwidth, validContinuations_eq hwidth hsecond htails⟩

/-- The bytes of a character are the first one and its continuations. -/
theorem exists_utf8EncodeChar (character : Char) :
    ∃ first others, String.utf8EncodeChar character = first :: others ∧
      encodedWidth first = others.length + 1 ∧
      ∀ rest, validContinuations first (others ++ rest) = others.length := by
  have hvalid : character.val.toNat < 55296 ∨
      (57343 < character.val.toNat ∧ character.val.toNat < 1114112) := character.valid
  unfold String.utf8EncodeChar
  simp only
  split
  · have hwidth : encodedWidth (UInt8.ofNat character.val.toNat) = 1 := by
      rw [encodedWidth_eq, UInt8.toNat_ofNat', if_pos (by omega)]
    exact ⟨_, [], rfl, hwidth, validContinuations_of_single hwidth⟩
  · split
    · apply exists_multibyte
      · rw [encodedWidth_eq, UInt8.toNat_ofNat', if_neg (by omega), if_pos (by omega)]
        rfl
      · rw [validSecondByte_iff, UInt8.toNat_ofNat', UInt8.toNat_ofNat']
        omega
      · simp
    · split
      · apply exists_multibyte
        · rw [encodedWidth_eq, UInt8.toNat_ofNat', if_neg (by omega), if_neg (by omega),
            if_pos (by omega)]
          rfl
        · rw [validSecondByte_iff, UInt8.toNat_ofNat', UInt8.toNat_ofNat']
          omega
        · exact List.forall_mem_singleton.mpr isContinuation_ofNat
      · apply exists_multibyte
        · rw [encodedWidth_eq, UInt8.toNat_ofNat', if_neg (by omega), if_neg (by omega),
            if_neg (by omega), if_pos (by omega)]
          rfl
        · rw [validSecondByte_iff, UInt8.toNat_ofNat', UInt8.toNat_ofNat']
          omega
        · exact List.forall_mem_cons.mpr
            ⟨isContinuation_ofNat, List.forall_mem_singleton.mpr isContinuation_ofNat⟩

theorem decodeLossy_char (character : Char) (rest : List UInt8) (fuel : ℕ) :
    decodeLossy (fuel + 1) (String.utf8EncodeChar character ++ rest) =
      character :: decodeLossy fuel rest := by
  obtain ⟨first, others, hencode, hwidth, hfound⟩ := exists_utf8EncodeChar character
  have hdecode : decodeUtf8 (first :: others) = some (String.ofList [character]) := by
    rw [decodeUtf8_eq_some_iff, encodeUtf8, String.toList_ofList, ← hencode]
    simp
  rw [hencode, List.cons_append, decodeLossy, hfound, hwidth, List.take_left,
    List.drop_left, hdecode]
  simp

theorem decodeLossy_chars (chars : List Char) {fuel : ℕ} (hfuel : chars.length ≤ fuel) :
    decodeLossy fuel (chars.flatMap String.utf8EncodeChar) = chars := by
  induction chars generalizing fuel with
  | nil => cases fuel <;> rfl
  | cons character chars ih =>
      obtain ⟨fuel, rfl⟩ := Nat.exists_eq_add_of_lt (Nat.lt_of_lt_of_le (Nat.succ_pos _) hfuel)
      rw [Nat.zero_add, List.flatMap_cons, decodeLossy_char, ih]
      rw [List.length_cons] at hfuel
      omega

/-- Where nothing is broken there is nothing to replace. -/
theorem toList_fromUtf8Lossy (bytes : List UInt8) :
    (fromUtf8Lossy bytes).toList = decodeLossy bytes.length bytes := by
  rw [fromUtf8Lossy]
  cases hdecode : decodeUtf8 bytes with
  | none => rw [String.toList_ofList]
  | some text =>
      rw [decodeUtf8_eq_some_iff] at hdecode
      rw [← hdecode]
      exact (decodeLossy_chars text.toList (length_le_encodeUtf8 text.toList).1).symm

/-! ## Across a newline -/

theorem decodeLossy_fuel {left right : ℕ} {bytes : List UInt8}
    (hleft : bytes.length ≤ left) (hright : bytes.length ≤ right) :
    decodeLossy left bytes = decodeLossy right bytes := by
  induction left generalizing right bytes with
  | zero =>
      rw [List.length_eq_zero_iff.mp (Nat.le_zero.mp hleft)]
      cases right <;> rfl
  | succ left ih =>
      cases bytes with
      | nil => cases right <;> rfl
      | cons first rest =>
          rw [List.length_cons] at hleft hright
          obtain ⟨right, rfl⟩ := Nat.exists_eq_succ_of_ne_zero (by omega : right ≠ 0)
          have hdrop := List.length_drop (l := rest) (i := validContinuations first rest)
          rw [decodeLossy, decodeLossy, @ih right _ (by omega) (by omega)]

theorem takeWhile_stop {A : Type} {p : A → Bool} {stop : A} (hstop : p stop = false)
    (front rest : List A) :
    (front ++ stop :: rest).takeWhile p = front.takeWhile p := by
  induction front with
  | nil => simp [hstop]
  | cons first front ih => rw [List.cons_append, List.takeWhile_cons, List.takeWhile_cons, ih]

theorem not_isContinuation_newline : isContinuation newlineByte = false := by
  decide

/-- A broken character ends before the newline. -/
theorem validContinuations_newline (first : UInt8) (front : List UInt8) :
    ∃ found, found ≤ front.length ∧ ∀ rest,
      validContinuations first (front ++ newlineByte :: rest) = found := by
  cases front with
  | nil =>
      refine ⟨0, le_rfl, fun rest => ?_⟩
      have hsecond : validSecondByte first newlineByte = false := by
        rw [← Bool.not_eq_true, validSecondByte_iff]
        exact fun hbyte => absurd hbyte.1 (by decide)
      rw [List.nil_append, validContinuations, hsecond]
      simp
  | cons second later =>
      by_cases hstops : (encodedWidth first - 1 = 0 || !validSecondByte first second) = true
      · refine ⟨0, Nat.zero_le _, fun rest => ?_⟩
        rw [List.cons_append, validContinuations, if_pos hstops]
      · refine ⟨1 + ((later.take (encodedWidth first - 1 - 1)).takeWhile
          isContinuation).length, ?_, fun rest => ?_⟩
        · have hwhile := (List.takeWhile_prefix isContinuation
            (l := later.take (encodedWidth first - 1 - 1))).length_le
          have htake := List.length_take_le' (encodedWidth first - 1 - 1) later
          rw [List.length_cons]
          omega
        · rw [List.cons_append, validContinuations, if_neg hstops, ← List.take_takeWhile,
            takeWhile_stop not_isContinuation_newline, List.take_takeWhile]

theorem decodeLossy_newline (front : List UInt8) :
    ∃ before, ∀ rest, decodeLossy (front ++ newlineByte :: rest).length
        (front ++ newlineByte :: rest) =
      before ++ '\n' :: decodeLossy rest.length rest := by
  induction hlength : front.length using Nat.strong_induction_on generalizing front with
  | _ length ih =>
      cases front with
      | nil =>
          refine ⟨[], fun rest => ?_⟩
          have hnewline : String.utf8EncodeChar '\n' = [newlineByte] := by decide
          have hstep := decodeLossy_char '\n' rest rest.length
          rwa [hnewline] at hstep
      | cons first others =>
          obtain ⟨found, hfound, hcontinuations⟩ := validContinuations_newline first others
          obtain ⟨before, hbefore⟩ := ih (others.drop found).length
            (by rw [List.length_drop, ← hlength, List.length_cons]; omega) _ rfl
          refine ⟨(if encodedWidth first = found + 1 then
              ((decodeUtf8 (first :: others.take found)).bind fun text =>
                text.toList.head?).getD '\uFFFD'
            else '\uFFFD') :: before, fun rest => ?_⟩
          have hshorter : (others.drop found ++ newlineByte :: rest).length ≤
              (others ++ newlineByte :: rest).length := by
            rw [List.length_append, List.length_append, List.length_drop]
            omega
          rw [List.cons_append, List.length_cons, decodeLossy, hcontinuations,
            List.take_append_of_le_length hfound, List.drop_append_of_le_length hfound,
            decodeLossy_fuel hshorter le_rfl, hbefore]
          rfl

/-- Bytes are decoded on both sides of a newline for themselves. -/
theorem fromUtf8Lossy_newline (front : List UInt8) :
    ∃ before, ∀ rest, (fromUtf8Lossy (front ++ newlineByte :: rest)).toList =
      before ++ '\n' :: (fromUtf8Lossy rest).toList := by
  obtain ⟨before, hbefore⟩ := decodeLossy_newline front
  refine ⟨before, fun rest => ?_⟩
  rw [toList_fromUtf8Lossy, toList_fromUtf8Lossy, hbefore]

/-! ## Lines -/

theorem go_newline (current before after : List Char) :
    lines.go current (before ++ '\n' :: after) =
      lines.go current (before ++ ['\n']) ++ lines after := by
  induction before generalizing current with
  | nil => simp [lines.go, lines]
  | cons character before ih =>
      by_cases hnewline : character = '\n'
      · subst hnewline
        rw [List.cons_append, List.cons_append, lines.go, lines.go, ih, List.cons_append]
      · rw [List.cons_append, List.cons_append, lines.go, lines.go, ih]
        · exact hnewline
        · exact hnewline

/-- The rows a file's bytes are shown as. -/
def lossyLines (bytes : List UInt8) : List (List Char) :=
  lines (fromUtf8Lossy bytes).toList

/-- Behind a newline, the lines go on with those of the rest. -/
theorem lossyLines_newline (front rest : List UInt8) :
    lossyLines (front ++ newlineByte :: rest) =
      lossyLines (front ++ [newlineByte]) ++ lossyLines rest := by
  obtain ⟨before, hbefore⟩ := fromUtf8Lossy_newline front
  have hempty : (fromUtf8Lossy []).toList = [] := by decide +kernel
  rw [lossyLines, lossyLines, lossyLines, hbefore, hbefore, hempty, lines, go_newline]
  rfl

end Mandala.Text
