import Mandala.Core.Decimal
import Mandala.Core.Ascii
import Mandala.Registry.Liveness

/-!
# Run ids

A run id is a time stamp and the pid of the engine.  Observers take it from
untrusted places, so it is checked before it is joined to the registry's path.
The pid is read into a machine word whose scaling saturates while the addition
does not.
-/

namespace Mandala.Registry

open Mandala.Data Mandala.Text Mandala.Decimal

/-- Whether a text is a time in the ids' format. -/
abbrev TimestampParser := String → Bool

variable (parsesTimestamp : TimestampParser)

/-! ## The check -/

/-- What a check of an id comes to: its answer, with an addition that wraps, and
whether the addition overflowed. -/
structure IdCheck where
  accepted : Bool
  overflowed : Bool
  deriving DecidableEq, Repr

def IdCheck.refused : IdCheck := { accepted := false, overflowed := false }

/-- `u64::MAX`. -/
def u64Max : ℕ := 18446744073709551615

/-- `u8::is_ascii_digit`. -/
def isAsciiDigit (byte : UInt8) : Bool := 48 ≤ byte && byte ≤ 57

def digitOfByte (byte : UInt8) : ℕ := (byte - 48).toNat

/-- `is_valid_run_id`; nothing when the time stamp cannot be sliced off. -/
def isValidRunId (runId : String) : Option IdCheck :=
  let bytes := encodeUtf8 runId
  if bytes.length < 24 || bytes[8]? ≠ some 84 || bytes[15]? ≠ some 95 ||
      bytes[22]? ≠ some 45 then some .refused
  else if !(bytes.take 8 ++ (bytes.drop 9).take 6 ++
      (bytes.drop 16).take 6).all isAsciiDigit then some .refused
  else match decodeUtf8 (bytes.take 22) with
    | none => none
    | some timestamp =>
        if !parsesTimestamp timestamp then some .refused
        else if !(bytes.drop 23).all isAsciiDigit then some .refused
        else
          let pid := ((bytes.drop 23).map digitOfByte).foldl
            (pushDigit 10 u64Max) (0, false)
          some { accepted := 0 < pid.1, overflowed := pid.2 }

/-- Whether an id is taken for one, in a build whose addition wraps. -/
def acceptsRunId (runId : String) : Bool :=
  (isValidRunId parsesTimestamp runId).any IdCheck.accepted

/-! ## What is meant to be accepted -/

/-- A time stamp as ids hold it, shape and time. -/
structure ValidTimestamp (timestamp : List Char) : Prop where
  shape : ∃ date time fraction : List Char,
    timestamp = date ++ 'T' :: (time ++ '_' :: fraction) ∧
      date.length = 8 ∧ time.length = 6 ∧ fraction.length = 6 ∧
      ∀ character ∈ date ++ time ++ fraction, character.isDigit
  parses : parsesTimestamp (String.ofList timestamp)

/-- A run id whose pid is written in any number of digits. -/
structure Written (runId : String) (timestamp pid : List Char) : Prop where
  parts : runId.toList = timestamp ++ '-' :: pid
  timestamp : ValidTimestamp parsesTimestamp timestamp
  nonempty : pid ≠ []
  digits : ∀ character ∈ pid, character.isDigit

def digitOfChar (character : Char) : ℕ := character.toNat - 48

/-- A time stamp and a pid other than zero. -/
def IsRunId (runId : String) : Prop :=
  ∃ timestamp pid, Written parsesTimestamp runId timestamp pid ∧
    value 10 (pid.map digitOfChar) ≠ 0

/-- The pid, without its trailing zeros, fits a machine word. -/
def PidFits (runId : String) : Prop :=
  ∀ timestamp pid, Written parsesTimestamp runId timestamp pid →
    value 10 (significant (pid.map digitOfChar)) ≤ u64Max

/-! ## Paths -/

/-- `Path::join`, on the text of a path. -/
def joinPath (base name : String) : String :=
  if name.toList.head? = some '/' then name
  else if base = "" ∨ base.toList.getLast? = some '/' then base ++ name
  else base ++ "/" ++ name

def isComponent (part : List Char) : Bool := part ≠ [] && part ≠ ['.']

/-- The components among the parts of a path: a dot counts only in front. -/
def componentsOf : List (List Char) → List (List Char)
  | ['.'] :: parts => ['.'] :: parts.filter isComponent
  | parts => parts.filter isComponent

/-- `Path::components`, below the root. -/
def components (path : String) : List (List Char) :=
  componentsOf (path.toList.splitOnP (· = '/'))

/-- One component that names an entry of a directory. -/
structure SingleComponent (name : String) : Prop where
  nonempty : name ≠ ""
  noSeparator : '/' ∉ name.toList
  notHere : name ≠ "."
  notParent : name ≠ ".."

/-- A run that was opened, with the path it was found at. -/
structure OpenedRun where
  runId : String
  path : String
  run : ObservedRun

/-- `open_run_in`, over what the file system holds at a path. -/
def openRunIn (readDirectory : String → Option RunDirectory)
    (base runId : String) : Option OpenedRun :=
  if !acceptsRunId parsesTimestamp runId then none
  else
    let path := joinPath base runId
    (readDirectory path).map fun directory =>
      { runId, path, run := openRun directory }

/-- What the check can be relied on for. -/
structure CheckExact (runId : String) : Prop where
  total : ∃ check, isValidRunId parsesTimestamp runId = some check ∧
    check.overflowed = false ∧
    (check.accepted = true ↔ IsRunId parsesTimestamp runId)
  component : acceptsRunId parsesTimestamp runId = true → SingleComponent runId
  opens : ∀ readDirectory base opened,
    openRunIn parsesTimestamp readDirectory base runId = some opened →
      components opened.path = components base ++ [runId.toList]

/-! ## Ids as bytes -/

variable {parsesTimestamp}

theorem isAsciiDigit_iff {byte : UInt8} :
    isAsciiDigit byte = true ↔ 48 ≤ byte.toNat ∧ byte.toNat ≤ 57 := by
  simp [isAsciiDigit, UInt8.le_iff_toNat_le]

theorem isDigit_iff {character : Char} :
    character.isDigit = true ↔ 48 ≤ character.toNat ∧ character.toNat ≤ 57 := by
  simp [Char.isDigit, UInt32.le_iff_toNat_le]

theorem isDigit_charOfByte {byte : UInt8} (hdigit : isAsciiDigit byte = true) :
    (charOfByte byte).isDigit = true := by
  rw [isAsciiDigit_iff] at hdigit
  rw [isDigit_iff, toNat_charOfByte (by omega)]
  exact hdigit

theorem toNat_byteOfChar {character : Char} (hascii : character.toNat < 128) :
    (byteOfChar character).toNat = character.toNat := by
  rw [byteOfChar, UInt8.toNat_ofNat']
  omega

theorem isAsciiDigit_byteOfChar {character : Char}
    (hdigit : character.isDigit = true) :
    isAsciiDigit (byteOfChar character) = true := by
  rw [isDigit_iff] at hdigit
  rw [isAsciiDigit_iff, toNat_byteOfChar (by omega)]
  exact hdigit

theorem digitOfByte_byteOfChar {character : Char}
    (hdigit : character.isDigit = true) :
    digitOfByte (byteOfChar character) = digitOfChar character := by
  rw [isDigit_iff] at hdigit
  have hbyte : (byteOfChar character).toNat = character.toNat :=
    toNat_byteOfChar (by omega)
  rw [digitOfByte, UInt8.toNat_sub_of_le, hbyte]
  · rfl
  · rw [UInt8.le_iff_toNat_le, hbyte]
    exact hdigit.1

/-- A list around its entry at a place. -/
theorem split_at {A : Type} {entries : List A} {place : ℕ} {entry : A}
    (hentry : entries[place]? = some entry) :
    entries = entries.take place ++ entry :: entries.drop (place + 1) ∧
      (entries.take place).length = place := by
  obtain ⟨hlt, hget⟩ := List.getElem?_eq_some_iff.mp hentry
  constructor
  · rw [← hget, ← List.drop_eq_getElem_cons hlt, List.take_append_drop]
  · rw [List.length_take, Nat.min_eq_left (Nat.le_of_lt hlt)]

/-- The parts of an id as bytes, with the marks between them. -/
structure ByteParts (bytes date time fraction pid : List UInt8) : Prop where
  bytes_eq : bytes = date ++ 84 :: (time ++ 95 :: (fraction ++ 45 :: pid))
  date_length : date.length = 8
  time_length : time.length = 6
  fraction_length : fraction.length = 6
  nonempty : pid ≠ []

theorem byteParts_of_marks {bytes : List UInt8} (hlength : 24 ≤ bytes.length)
    (hdate : bytes[8]? = some 84) (htime : bytes[15]? = some 95)
    (hfraction : bytes[22]? = some 45) :
    ∃ date time fraction pid, ByteParts bytes date time fraction pid := by
  obtain ⟨hsplit, hlength8⟩ := split_at hdate
  have htime' : (bytes.drop 9)[6]? = some 95 := by
    rw [List.getElem?_drop]
    exact htime
  have hfraction' : (bytes.drop 16)[6]? = some 45 := by
    rw [List.getElem?_drop]
    exact hfraction
  obtain ⟨hsplit9, hlength6⟩ := split_at htime'
  obtain ⟨hsplit16, hlength6'⟩ := split_at hfraction'
  rw [List.drop_drop] at hsplit9 hsplit16
  refine ⟨bytes.take 8, (bytes.drop 9).take 6, (bytes.drop 16).take 6,
    bytes.drop 23, ⟨?_, hlength8, hlength6, hlength6', ?_⟩⟩
  · calc bytes
      _ = bytes.take 8 ++ 84 :: bytes.drop 9 := hsplit
      _ = bytes.take 8 ++ 84 :: ((bytes.drop 9).take 6 ++ 95 :: bytes.drop 16) :=
          by rw [← hsplit9]
      _ = _ := by rw [← hsplit16]
  · intro hnil
    rw [List.drop_eq_nil_iff] at hnil
    omega

variable {runId : String} {date time fraction pid : List UInt8}

/-- The time stamp's text of an id's parts. -/
def stampText (date time fraction : List UInt8) : List Char :=
  (date ++ 84 :: (time ++ 95 :: fraction)).map charOfByte

theorem lt_of_isAsciiDigit {byte : UInt8} (hdigit : isAsciiDigit byte = true) :
    byte.toNat < 128 := by
  rw [isAsciiDigit_iff] at hdigit
  omega

/-- Where the check cuts an id in parts. -/
structure Cuts (bytes date time fraction pid : List UInt8) : Prop where
  length : 24 ≤ bytes.length
  mark8 : bytes[8]? = some 84
  mark15 : bytes[15]? = some 95
  mark22 : bytes[22]? = some 45
  date_eq : bytes.take 8 = date
  time_eq : (bytes.drop 9).take 6 = time
  fraction_eq : (bytes.drop 16).take 6 = fraction
  stamp_eq : bytes.take 22 = date ++ 84 :: (time ++ 95 :: fraction)
  pid_eq : bytes.drop 23 = pid

theorem ByteParts.cuts {bytes : List UInt8}
    (hparts : ByteParts bytes date time fraction pid) :
    Cuts bytes date time fraction pid := by
  obtain ⟨hbytes, hdate, htime, hfraction, hpid⟩ := hparts
  have hone : 1 ≤ pid.length := List.length_pos_iff.mpr hpid
  constructor <;>
    simp (disch := omega) [hbytes, List.take_append, List.drop_append,
      List.getElem?_append, List.getElem?_cons_zero, List.drop_of_length_le,
      List.take_of_length_le, hdate, htime, hfraction]
  omega

/-- The check of an id in parts. -/
theorem isValidRunId_of_parts
    (hparts : ByteParts (encodeUtf8 runId) date time fraction pid) :
    isValidRunId parsesTimestamp runId =
      if (date ++ time ++ fraction).all isAsciiDigit = true ∧
          parsesTimestamp (String.ofList (stampText date time fraction)) = true ∧
          pid.all isAsciiDigit = true then
        let read := (pid.map digitOfByte).foldl (pushDigit 10 u64Max) (0, false)
        some { accepted := 0 < read.1, overflowed := read.2 }
      else some .refused := by
  have hcuts := hparts.cuts
  have hmarked : (decide ((encodeUtf8 runId).length < 24) ||
      decide ((encodeUtf8 runId)[8]? ≠ some 84) ||
      decide ((encodeUtf8 runId)[15]? ≠ some 95) ||
      decide ((encodeUtf8 runId)[22]? ≠ some 45)) = false := by
    simp [hcuts.mark8, hcuts.mark15, hcuts.mark22, hcuts.length]
  rw [isValidRunId]
  dsimp only
  rw [hmarked, hcuts.date_eq, hcuts.time_eq, hcuts.fraction_eq, hcuts.stamp_eq,
    hcuts.pid_eq]
  cases hdigits : (date ++ time ++ fraction).all isAsciiDigit with
  | false => simp
  | true =>
      have hascii : IsAscii (date ++ 84 :: (time ++ 95 :: fraction)) := by
        have hbyte (byte : UInt8) (hmem : byte ∈ date ++ time ++ fraction) :=
          lt_of_isAsciiDigit (List.all_eq_true.mp hdigits byte hmem)
        intro byte hmem
        simp only [List.mem_append, List.mem_cons] at hmem hbyte
        rcases hmem with hmem | rfl | hmem | rfl | hmem
        · exact hbyte byte (.inl (.inl hmem))
        · decide
        · exact hbyte byte (.inl (.inr hmem))
        · decide
        · exact hbyte byte (.inr hmem)
      rw [decodeUtf8_ascii hascii]
      cases hparses : parsesTimestamp
          (String.ofList (stampText date time fraction)) with
      | false => simp [stampText] at hparses ⊢; simp [hparses]
      | true =>
          cases hpid : pid.all isAsciiDigit with
          | false => simp
          | true => simp [stampText] at hparses ⊢; simp [hparses]

/-- An id that does not come apart is refused. -/
theorem isValidRunId_of_no_parts
    (hnone : ¬ ∃ date time fraction pid,
      ByteParts (encodeUtf8 runId) date time fraction pid) :
    isValidRunId parsesTimestamp runId = some .refused := by
  rw [isValidRunId]
  dsimp only
  rw [if_pos]
  by_contra hmarked
  simp only [Bool.not_eq_true, Bool.or_eq_false_iff, decide_eq_false_iff_not,
    not_not, Nat.not_lt] at hmarked
  obtain ⟨⟨⟨hlength, hdate⟩, htime⟩, hfraction⟩ := hmarked
  exact hnone (byteParts_of_marks hlength hdate htime hfraction)

/-! ## Ids as they are written -/

/-- An id whose parts are digits is written as one. -/
theorem written_of_parts
    (hparts : ByteParts (encodeUtf8 runId) date time fraction pid)
    (hdigits : (date ++ time ++ fraction).all isAsciiDigit = true)
    (hparses : parsesTimestamp (String.ofList (stampText date time fraction)) =
      true) (hpid : pid.all isAsciiDigit = true) :
    Written parsesTimestamp runId (stampText date time fraction)
      (pid.map charOfByte) := by
  have hbyte := List.all_eq_true.mp hdigits
  have hpidByte := List.all_eq_true.mp hpid
  have hascii : IsAscii (encodeUtf8 runId) := by
    intro byte hmem
    simp only [hparts.bytes_eq, List.mem_append, List.mem_cons] at hmem hbyte
    rcases hmem with hmem | rfl | hmem | rfl | hmem | rfl | hmem
    · exact lt_of_isAsciiDigit (hbyte byte (.inl (.inl hmem)))
    · decide
    · exact lt_of_isAsciiDigit (hbyte byte (.inl (.inr hmem)))
    · decide
    · exact lt_of_isAsciiDigit (hbyte byte (.inr hmem))
    · decide
    · exact lt_of_isAsciiDigit (hpidByte byte hmem)
  constructor
  · rw [toList_of_ascii hascii, hparts.bytes_eq, stampText]
    simp only [List.map_append, List.map_cons, List.append_assoc,
      List.cons_append]
    rfl
  · refine ⟨⟨date.map charOfByte, time.map charOfByte,
      fraction.map charOfByte, ?_, ?_, ?_, ?_, ?_⟩, hparses⟩
    · simp only [stampText, List.map_append, List.map_cons]
      rfl
    · rw [List.length_map, hparts.date_length]
    · rw [List.length_map, hparts.time_length]
    · rw [List.length_map, hparts.fraction_length]
    · rw [← List.map_append, ← List.map_append]
      intro character hmem
      obtain ⟨byte, hin, rfl⟩ := List.mem_map.mp hmem
      exact isDigit_charOfByte (hbyte byte hin)
  · exact fun hnil => hparts.nonempty (List.map_eq_nil_iff.mp hnil)
  · intro character hmem
    obtain ⟨byte, hin, rfl⟩ := List.mem_map.mp hmem
    exact isDigit_charOfByte (hpidByte byte hin)

theorem lt_of_isDigit {character : Char} (hdigit : character.isDigit = true) :
    character.toNat < 128 := by
  rw [isDigit_iff] at hdigit
  omega

theorem charOfByte_byteOfChar {character : Char}
    (hascii : character.toNat < 128) :
    charOfByte (byteOfChar character) = character := by
  rw [charOfByte, toNat_byteOfChar hascii, Char.ofNat_toNat]

theorem map_charOfByte_digits {chars : List Char}
    (hdigits : ∀ character ∈ chars, character.isDigit = true) :
    (chars.map byteOfChar).map charOfByte = chars := by
  rw [List.map_map]
  calc chars.map (charOfByte ∘ byteOfChar)
    _ = chars.map id := List.map_congr_left fun character hmem =>
        charOfByte_byteOfChar (lt_of_isDigit (hdigits character hmem))
    _ = chars := List.map_id chars

theorem all_isAsciiDigit_digits {chars : List Char}
    (hdigits : ∀ character ∈ chars, character.isDigit = true) :
    (chars.map byteOfChar).all isAsciiDigit = true := by
  rw [List.all_eq_true]
  intro byte hmem
  obtain ⟨character, hin, rfl⟩ := List.mem_map.mp hmem
  exact isAsciiDigit_byteOfChar (hdigits character hin)

/-- A written id has the digits of its pid read into a word. -/
theorem isValidRunId_of_written {timestamp digits : List Char}
    (hwritten : Written parsesTimestamp runId timestamp digits) :
    isValidRunId parsesTimestamp runId =
      let read := (digits.map digitOfChar).foldl (pushDigit 10 u64Max) (0, false)
      some { accepted := 0 < read.1, overflowed := read.2 } := by
  obtain ⟨hrunId, ⟨⟨date, time, fraction, hstamp, hdate, htime, hfraction,
    hdigits⟩, hparses⟩, hnonempty, hpid⟩ := hwritten
  subst hstamp
  have hascii : ∀ character ∈ runId.toList, character.toNat < 128 := by
    intro character hmem
    simp only [hrunId, List.append_assoc, List.cons_append, List.mem_append,
      List.mem_cons] at hmem hdigits
    rcases hmem with hmem | rfl | hmem | rfl | hmem | rfl | hmem
    · exact lt_of_isDigit (hdigits character (.inl hmem))
    · decide
    · exact lt_of_isDigit (hdigits character (.inr (.inl hmem)))
    · decide
    · exact lt_of_isDigit (hdigits character (.inr (.inr hmem)))
    · decide
    · exact lt_of_isDigit (hpid character hmem)
  have hencode : encodeUtf8 runId = runId.toList.map byteOfChar := by
    rw [← encodeUtf8_ascii hascii, String.ofList_toList]
  have hparts : ByteParts (encodeUtf8 runId) (date.map byteOfChar)
      (time.map byteOfChar) (fraction.map byteOfChar)
      (digits.map byteOfChar) := by
    refine ⟨?_, by simpa using hdate, by simpa using htime,
      by simpa using hfraction,
      fun hnil => hnonempty (List.map_eq_nil_iff.mp hnil)⟩
    rw [hencode, hrunId]
    simp only [List.map_append, List.map_cons, List.append_assoc,
      List.cons_append]
    rfl
  have hdate' : ∀ character ∈ date, character.isDigit = true :=
    fun character hmem => hdigits character (by simp [hmem])
  have htime' : ∀ character ∈ time, character.isDigit = true :=
    fun character hmem => hdigits character (by simp [hmem])
  have hfraction' : ∀ character ∈ fraction, character.isDigit = true :=
    fun character hmem => hdigits character (by simp [hmem])
  have hstamp : stampText (date.map byteOfChar) (time.map byteOfChar)
      (fraction.map byteOfChar) = date ++ 'T' :: (time ++ '_' :: fraction) := by
    rw [stampText, List.map_append, List.map_cons, List.map_append,
      List.map_cons, map_charOfByte_digits hdate', map_charOfByte_digits htime',
      map_charOfByte_digits hfraction']
    rfl
  have hread : (digits.map byteOfChar).map digitOfByte =
      digits.map digitOfChar := by
    rw [List.map_map]
    exact List.map_congr_left fun character hmem =>
      digitOfByte_byteOfChar (hpid character hmem)
  rw [isValidRunId_of_parts hparts, if_pos, hread]
  refine ⟨?_, by rwa [hstamp], all_isAsciiDigit_digits hpid⟩
  rw [← List.map_append, ← List.map_append]
  exact all_isAsciiDigit_digits hdigits

/-- Anything else is refused, without a slip. -/
theorem isValidRunId_of_not_written
    (hnone : ¬ ∃ timestamp digits,
      Written parsesTimestamp runId timestamp digits) :
    isValidRunId parsesTimestamp runId = some .refused := by
  by_cases hparts : ∃ date time fraction pid,
      ByteParts (encodeUtf8 runId) date time fraction pid
  · obtain ⟨date, time, fraction, pid, hparts⟩ := hparts
    rw [isValidRunId_of_parts hparts, if_neg]
    rintro ⟨hdigits, hparses, hpid⟩
    exact hnone ⟨_, _, written_of_parts hparts hdigits hparses hpid⟩
  · exact isValidRunId_of_no_parts hparts

/-! ## Accepted ids as paths -/

theorem written_of_accepts (haccepts : acceptsRunId parsesTimestamp runId = true) :
    ∃ timestamp digits, Written parsesTimestamp runId timestamp digits := by
  by_contra hnone
  rw [acceptsRunId, isValidRunId_of_not_written hnone] at haccepts
  cases haccepts

theorem Written.length {timestamp digits : List Char}
    (hwritten : Written parsesTimestamp runId timestamp digits) :
    22 ≤ runId.toList.length := by
  obtain ⟨date, time, fraction, rfl, hdate, htime, hfraction, -⟩ :=
    hwritten.timestamp.shape
  rw [hwritten.parts]
  simp only [List.length_append, List.length_cons]
  omega

theorem Written.noSeparator {timestamp digits : List Char}
    (hwritten : Written parsesTimestamp runId timestamp digits) :
    '/' ∉ runId.toList := by
  obtain ⟨hrunId, ⟨⟨date, time, fraction, rfl, -, -, -, hdigits⟩, -⟩, -,
    hpid⟩ := hwritten
  have hslash : Char.isDigit '/' = false := by decide
  intro hmem
  simp only [hrunId, List.append_assoc, List.cons_append, List.mem_append,
    List.mem_cons] at hmem hdigits
  rcases hmem with hmem | hmark | hmem | hmark | hmem | hmark | hmem
  · exact Bool.false_ne_true (hslash.symm.trans (hdigits _ (.inl hmem)))
  · cases hmark
  · exact Bool.false_ne_true (hslash.symm.trans (hdigits _ (.inr (.inl hmem))))
  · cases hmark
  · exact Bool.false_ne_true (hslash.symm.trans (hdigits _ (.inr (.inr hmem))))
  · cases hmark
  · exact Bool.false_ne_true (hslash.symm.trans (hpid _ hmem))

/-- Every accepted id, overflowed or not, is a single path component. -/
theorem singleComponent_of_accepts
    (haccepts : acceptsRunId parsesTimestamp runId = true) :
    SingleComponent runId := by
  obtain ⟨timestamp, digits, hwritten⟩ := written_of_accepts haccepts
  have hlength := hwritten.length
  refine ⟨?_, hwritten.noSeparator, ?_, ?_⟩ <;>
  · rintro rfl
    revert hlength
    decide

theorem componentsOf_append {parts : List (List Char)} (hparts : parts ≠ [])
    (last : List Char) : componentsOf (parts ++ [last]) =
      componentsOf parts ++ [last].filter isComponent := by
  cases parts with
  | nil => exact absurd rfl hparts
  | cons first parts =>
      by_cases hdot : first = ['.']
      · subst hdot
        rw [List.cons_append, componentsOf, componentsOf, List.filter_append]
        rfl
      · have hplain (rest : List (List Char)) :
            componentsOf (first :: rest) = (first :: rest).filter isComponent := by
          rw [componentsOf]
          rintro _ heq
          exact hdot (List.cons.inj heq).1
        rw [List.cons_append, hplain, hplain, ← List.cons_append,
          List.filter_append]

theorem splitOnP_slash (front back : List Char) :
    (front ++ '/' :: back).splitOnP (· = '/') =
      front.splitOnP (· = '/') ++ back.splitOnP (· = '/') :=
  List.splitOnP_append_cons _ _ (decide_eq_true rfl)

/-- A single component joined to a path is its last one. -/
theorem components_joinPath (base : String) {name : String}
    (hname : SingleComponent name) :
    components (joinPath base name) = components base ++ [name.toList] := by
  have hchars : name.toList ≠ [] := fun hnil =>
    hname.nonempty (String.toList_inj.mp hnil)
  have hsplit : name.toList.splitOnP (· = '/') = [name.toList] := by
    apply List.splitOnP_eq_singleton
    intro character hmem
    rw [decide_eq_false_iff_not]
    rintro rfl
    exact hname.noSeparator hmem
  have hkept : isComponent name.toList = true := by
    have hdot : name.toList ≠ ['.'] := fun heq =>
      hname.notHere (String.toList_inj.mp heq)
    simp [isComponent, hchars, hdot]
  have hrelative : ¬ name.toList.head? = some '/' := by
    intro hhead
    exact hname.noSeparator (List.mem_of_head? hhead)
  have happend (front : List Char) :
      componentsOf ((front ++ '/' :: name.toList).splitOnP (· = '/')) =
        componentsOf (front.splitOnP (· = '/')) ++ [name.toList] := by
    rw [splitOnP_slash, hsplit,
      componentsOf_append (List.splitOnP_ne_nil _ _), List.filter_cons_of_pos
      hkept, List.filter_nil]
  rw [joinPath, if_neg hrelative]
  split
  · next hbase =>
      rcases hbase with rfl | hslash
      · rw [components, String.toList_append, components]
        change componentsOf (([] ++ name.toList).splitOnP (· = '/')) =
          componentsOf ([].splitOnP (· = '/')) ++ [name.toList]
        rw [List.nil_append, hsplit]
        have hdot : name.toList ≠ ['.'] := fun heq =>
          hname.notHere (String.toList_inj.mp heq)
        rw [componentsOf, List.filter_cons_of_pos hkept]
        · rfl
        · rintro _ heq
          exact hdot (List.cons.inj heq).1
      · obtain ⟨front, hfront⟩ := List.getLast?_eq_some_iff.mp hslash
        rw [components, components, String.toList_append, hfront,
          List.append_assoc, List.singleton_append, happend,
          splitOnP_slash, List.splitOnP_nil, componentsOf_append (List.splitOnP_ne_nil _ _)]
        simp [isComponent]
  · rw [components, components, String.toList_append, String.toList_append,
      List.append_assoc]
    exact happend base.toList

theorem components_of_openRunIn {readDirectory : String → Option RunDirectory}
    {base : String} {opened : OpenedRun}
    (hopened : openRunIn parsesTimestamp readDirectory base runId =
      some opened) :
    components opened.path = components base ++ [runId.toList] := by
  rw [openRunIn] at hopened
  split at hopened
  · cases hopened
  · next haccepts =>
      rw [Bool.not_eq_true', Bool.not_eq_false] at haccepts
      obtain ⟨directory, -, rfl⟩ := Option.map_eq_some_iff.mp hopened
      exact components_joinPath base (singleComponent_of_accepts haccepts)

/-! ## When the check is exact -/

theorem foldl_pushDigit_word {digits : List Char}
    (hfits : value 10 (significant (digits.map digitOfChar)) ≤ u64Max) :
    (digits.map digitOfChar).foldl (pushDigit 10 u64Max) (0, false) =
      (min (value 10 (digits.map digitOfChar)) u64Max, false) := by
  have hexact := (foldl_pushDigit_exact (by decide : 0 < 10)
    (Nat.zero_le u64Max) (digits.map digitOfChar)).mpr hfits
  exact Prod.ext (@foldl_pushDigit_value 10 (by decide) u64Max 0 _ hexact) hexact

/-- The check is exact, and finishes without an overflow, exactly when the pid
fits a machine word once its trailing zeros are dropped. -/
theorem checkExact_iff (parsesTimestamp : TimestampParser) (runId : String) :
    CheckExact parsesTimestamp runId ↔ PidFits parsesTimestamp runId := by
  constructor
  · intro hcheck timestamp digits hwritten
    obtain ⟨check, hresult, hoverflowed, -⟩ := hcheck.total
    rw [isValidRunId_of_written hwritten, Option.some.injEq] at hresult
    rw [← hresult] at hoverflowed
    exact (foldl_pushDigit_exact (by decide) (Nat.zero_le u64Max) _).mp
      hoverflowed
  · intro hfits
    refine ⟨?_, singleComponent_of_accepts,
      fun readDirectory base opened => components_of_openRunIn⟩
    by_cases hwritten : ∃ timestamp digits,
        Written parsesTimestamp runId timestamp digits
    · obtain ⟨timestamp, digits, hwritten⟩ := hwritten
      have hread := isValidRunId_of_written hwritten
      rw [foldl_pushDigit_word (hfits _ _ hwritten)] at hread
      refine ⟨_, hread, rfl, ?_⟩
      constructor
      · intro haccepted
        refine ⟨timestamp, digits, hwritten, ?_⟩
        intro hzero
        rw [hzero] at haccepted
        cases haccepted
      · rintro ⟨stamp, other, hother, hvalue⟩
        have hagain := isValidRunId_of_written hother
        rw [foldl_pushDigit_word (hfits _ _ hother), hread,
          Option.some.injEq] at hagain
        rw [hagain]
        have hpositive : 0 < min (value 10 (other.map digitOfChar)) u64Max :=
          Nat.lt_min.mpr ⟨Nat.pos_of_ne_zero hvalue, by decide⟩
        exact decide_eq_true hpositive
    · refine ⟨.refused, isValidRunId_of_not_written hwritten, rfl, ?_⟩
      constructor
      · intro haccepted
        cases haccepted
      · rintro ⟨timestamp, digits, hother, -⟩
        exact absurd ⟨timestamp, digits, hother⟩ hwritten

/-- A parser that knows one time. -/
def newYear : TimestampParser := (· = "20240101T000000_000000")

example : isValidRunId newYear "20240101T000000_000000-4711" =
    some { accepted := true, overflowed := false } := by decide +kernel

/-- A pid of two to the sixty-fourth overflows, and wraps around to zero. -/
theorem checkExact_fails_overlong :
    isValidRunId newYear "20240101T000000_000000-18446744073709551616" =
        some { accepted := false, overflowed := true } ∧
      ¬ CheckExact newYear "20240101T000000_000000-18446744073709551616" := by
  have hresult : isValidRunId newYear
      "20240101T000000_000000-18446744073709551616" =
        some { accepted := false, overflowed := true } := by decide +kernel
  refine ⟨hresult, fun hcheck => ?_⟩
  obtain ⟨check, hcheck, hoverflowed, -⟩ := hcheck.total
  rw [hresult, Option.some.injEq] at hcheck
  rw [← hcheck] at hoverflowed
  cases hoverflowed

end Mandala.Registry
