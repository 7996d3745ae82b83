import Mandala.Core.Ascii
import Mandala.Core.Cursor
import Mandala.Forest.Summary
import Mathlib.Data.List.Induction
import Mathlib.Data.List.Nodup

/-!
# Derivation files

A `.drv` file is a term of strings, lists and tuples.  The parser walks over its
bytes and reads every byte of a string as one character.
-/

namespace Mandala.Forest.Drv

open Mandala.Data
open Mandala.Text
open Mandala.Scan

/-! ## The parser -/

inductive Term where
  | app (name : String) (args : List Term)
  | list (terms : List Term)
  | tuple (terms : List Term)
  | str (value : String)

/-- `u8::is_ascii_whitespace`. -/
def isWhitespace (byte : UInt8) : Bool :=
  byte ∈ ([32, 9, 10, 12, 13] : List UInt8)

def skipWs (parser : Cursor) : Cursor := (parser.spanWhile isWhitespace).2

/-- Whether the byte comes next, behind whitespace, which is passed over either
way. -/
def take (byte : UInt8) (parser : Cursor) : Bool × Cursor :=
  match skipWs parser with
  | ⟨position, next :: rest⟩ =>
      if next = byte then (true, ⟨position + 1, rest⟩)
      else (false, ⟨position, next :: rest⟩)
  | ⟨position, []⟩ => (false, ⟨position, []⟩)

def expect (byte : UInt8) (parser : Cursor) : Except Halt (Unit × Cursor) :=
  match take byte parser with
  | (true, parser) => .ok ((), parser)
  | (false, parser) => parser.refuse "unexpected token"

/-- `[A-Za-z0-9_-]`. -/
def isIdent (byte : UInt8) : Bool :=
  (48 ≤ byte && byte ≤ 57) || (65 ≤ byte && byte ≤ 90) ||
    (97 ≤ byte && byte ≤ 122) || byte = 95 || byte = 45

def ident (parser : Cursor) : Except Halt (String × Cursor) :=
  match (skipWs parser).spanWhile isIdent with
  | ([], parser) => parser.refuse "expected constructor name"
  | (taken, parser) => .ok (String.ofList (taken.map charOfByte), parser)

/-- The character an escape stands for. -/
def unescape (escaped : UInt8) : Char :=
  if escaped = 110 then '\n'
  else if escaped = 114 then '\r'
  else if escaped = 116 then '\t'
  else charOfByte escaped

/-- The loop over a string's bytes, from a position on. -/
def stringFrom : List UInt8 → ℕ → List Char → Except Halt (String × Cursor)
  | [], position, _ => .error (.refused position "unterminated string")
  | 34 :: rest, position, out => .ok (String.ofList out, ⟨position + 1, rest⟩)
  | [92], position, _ => .error (.refused (position + 1) "unterminated escape")
  | 92 :: escaped :: rest, position, out =>
      stringFrom rest (position + 2) (out ++ [unescape escaped])
  | byte :: rest, position, out =>
      stringFrom rest (position + 1) (out ++ [charOfByte byte])

def string (parser : Cursor) : Except Halt (String × Cursor) := do
  let (_, parser) ← expect 34 parser
  stringFrom parser.rest parser.position []

mutual

/-- Enough fuel for every byte makes the recursion end. -/
def term : ℕ → Cursor → Except Halt (Term × Cursor)
  | 0, _ => .error .fuel
  | fuel + 1, parser =>
      let parser := skipWs parser
      match parser.rest with
      | [] => parser.refuse "unexpected end of input"
      | 34 :: _ => do
          let (value, parser) ← string parser
          .ok (.str value, parser)
      | 91 :: _ => do
          let (terms, parser) ← sequence fuel 91 93 parser
          .ok (.list terms, parser)
      | 40 :: _ => do
          let (terms, parser) ← sequence fuel 40 41 parser
          .ok (.tuple terms, parser)
      | _ => do
          let (name, parser) ← ident parser
          let (_, parser) ← expect 40 parser
          let (args, parser) ← commaTerms fuel 41 parser
          .ok (.app name args, parser)

def sequence : ℕ → UInt8 → UInt8 → Cursor → Except Halt (List Term × Cursor)
  | 0, _, _, _ => .error .fuel
  | fuel + 1, opening, close, parser => do
      let (_, parser) ← expect opening parser
      commaTerms fuel close parser

def commaTerms : ℕ → UInt8 → Cursor → Except Halt (List Term × Cursor)
  | 0, _, _ => .error .fuel
  | fuel + 1, close, parser =>
      match take close (skipWs parser) with
      | (true, parser) => .ok ([], parser)
      | (false, parser) => moreTerms fuel close parser

/-- The loop of `commaTerms`. -/
def moreTerms : ℕ → UInt8 → Cursor → Except Halt (List Term × Cursor)
  | 0, _, _ => .error .fuel
  | fuel + 1, close, parser => do
      let (first, parser) ← term fuel parser
      match take close parser with
      | (true, parser) => .ok ([first], parser)
      | (false, parser) => do
          let (_, parser) ← expect 44 parser
          let (terms, parser) ← moreTerms fuel close parser
          .ok (first :: terms, parser)

end

def asStr : Term → Option String
  | .str value => some value
  | _ => none

def insertOutput (outputs : BTreeMap String) (entry : Term) : BTreeMap String :=
  match entry with
  | .tuple fields =>
      match fields[0]?.bind asStr, fields[1]?.bind asStr with
      | some name, some path => outputs.insert name path
      | _, _ => outputs
  | _ => outputs

/-- The names in a list of strings; there are none in another term. -/
def namesOf : Option Term → List String
  | some (.list names) => names.filterMap asStr
  | _ => []

def insertInput (inputDrvs : BTreeMap (List String)) (entry : Term) :
    BTreeMap (List String) :=
  match entry with
  | .tuple fields =>
      match fields[0]?.bind asStr with
      | none => inputDrvs
      | some path =>
          inputDrvs.insert path (namesOf fields[1]?)
  | _ => inputDrvs

/-- The entries of a list, and none of another term. -/
def entries : Term → List Term
  | .list entries => entries
  | _ => []

def fuelFor (bytes : List UInt8) : ℕ := 4 * bytes.length + 1

/-- What is left to check and to read once a term has been read. -/
def derivationOf (input : List UInt8) (parser : Cursor) (term : Term) :
    Except Halt Derivation :=
  if parser.position ≠ input.length then
    .error (.refused parser.position "trailing input")
  else
    match term with
    | .app name args =>
        match args with
        | outputs :: inputDrvs :: _ =>
            if name ≠ "Derive" then
              .error (.refused parser.position
                "expected Derive outputs and inputDrvs")
            else
              .ok
                { outputs := (entries outputs).foldl insertOutput ∅
                  inputDrvs := (entries inputDrvs).foldl insertInput ∅ }
        | _ =>
            .error (.refused parser.position
              "expected Derive outputs and inputDrvs")
    | _ => .error (.refused parser.position "expected Derive application")

def parseDerivation (input : String) : Except Halt Derivation := do
  let bytes := encodeUtf8 input
  let (term, parser) ← term (fuelFor bytes) ⟨0, bytes⟩
  derivationOf bytes (skipWs parser) term

/-! ## The parser stops -/

theorem ahead_skipWs (parser : Cursor) : parser.Ahead 0 (skipWs parser) :=
  (Cursor.ahead_spanWhile isWhitespace parser).mono (Nat.zero_le _)

theorem ahead_take {byte : UInt8} {parser next : Cursor} {found : Bool}
    (htake : take byte parser = (found, next)) :
    parser.Ahead found.toNat next := by
  have hskip := ahead_skipWs parser
  rw [take] at htake
  split at htake
  · next position next rest heq =>
      rw [heq] at hskip
      split at htake
      · cases htake
        have hnext : (⟨position, next :: rest⟩ : Cursor).Ahead 1
            ⟨position + 1, rest⟩ :=
          ⟨by simp only [Cursor.total, List.length_cons]; omega, Nat.le_refl _⟩
        exact hskip.trans hnext
      · cases htake
        exact hskip
  · next position heq =>
      cases htake
      exact heq ▸ hskip

theorem settles_expect (byte : UInt8) (parser : Cursor) :
    Settles parser 1 (expect byte parser) := by
  rw [expect]
  split
  · next next htake => exact ahead_take htake
  · next next htake =>
      exact ((settles_refuse "unexpected token").of_ahead (ahead_take htake)).mono
        (Nat.le_refl (0 + 1))

theorem settles_ident (parser : Cursor) : Settles parser 1 (ident parser) := by
  have hspan := Cursor.ahead_spanWhile isIdent (skipWs parser)
  have hahead := (ahead_skipWs parser).trans hspan
  rw [ident]
  split
  · next next heq =>
      rw [heq] at hahead
      exact ((settles_refuse "expected constructor name").of_ahead hahead).mono
        (Nat.le_add_left 1 _)
  · next taken next hne heq =>
      rw [heq] at hahead
      have hpos : 1 ≤ taken.length := by
        cases taken with
        | nil => exact absurd rfl hne
        | cons => exact Nat.le_add_left 1 _
      exact hahead.mono (Nat.le_trans hpos (Nat.le_add_left _ 0))

theorem settles_stringFrom (rest : List UInt8) (position : ℕ) (out : List Char) :
    Settles ⟨position, rest⟩ 1 (stringFrom rest position out) := by
  fun_induction stringFrom rest position out with
  | case1 position => exact Nat.le_add_right _ _
  | case2 rest position =>
      exact ⟨by simp only [Cursor.total, List.length_cons]; omega, Nat.le_refl _⟩
  | case3 position => exact Nat.le_refl _
  | case4 escaped rest position out ih =>
      have hahead : (⟨position, 92 :: escaped :: rest⟩ : Cursor).Ahead 2
          ⟨position + 2, rest⟩ :=
        ⟨by simp only [Cursor.total, List.length_cons]; omega, Nat.le_refl _⟩
      exact (ih.of_ahead hahead).mono (by omega)
  | case5 byte rest position out _ _ _ ih =>
      have hahead : (⟨position, byte :: rest⟩ : Cursor).Ahead 1
          ⟨position + 1, rest⟩ :=
        ⟨by simp only [Cursor.total, List.length_cons]; omega, Nat.le_refl _⟩
      exact (ih.of_ahead hahead).mono (by omega)

theorem settles_string (parser : Cursor) : Settles parser 1 (string parser) :=
  ((settles_expect 34 parser).bind 1 fun _ next _ =>
    settles_stringFrom next.rest next.position []).mono (by omega)

/-- Fuel that is enough for what is left of the input. -/
structure Enough (fuel : ℕ) : Prop where
  term : ∀ parser : Cursor, 4 * parser.rest.length + 1 ≤ fuel →
    Settles parser 1 (term fuel parser)
  sequence : ∀ (opening close : UInt8) (parser : Cursor), 0 < parser.rest.length →
    4 * parser.rest.length ≤ fuel →
      Settles parser 1 (sequence fuel opening close parser)
  commaTerms : ∀ (close : UInt8) (parser : Cursor),
    4 * parser.rest.length + 3 ≤ fuel → Settles parser 1 (commaTerms fuel close parser)
  moreTerms : ∀ (close : UInt8) (parser : Cursor),
    4 * parser.rest.length + 2 ≤ fuel → Settles parser 1 (moreTerms fuel close parser)

namespace Enough

variable {fuel : ℕ}

theorem term_succ (henough : Enough fuel) (parser : Cursor)
    (hfuel : 4 * parser.rest.length + 1 ≤ fuel + 1) :
    Settles parser 1 (Drv.term (fuel + 1) parser) := by
  have hskip := ahead_skipWs parser
  have hrest := hskip.2
  have hafter {A : Type} {read : Except Halt (A × Cursor)}
      (hsettles : Settles (skipWs parser) 1 read) : Settles parser 1 read :=
    (hsettles.of_ahead hskip).mono (by omega)
  have hsequence (opening close : UInt8) (hne : (skipWs parser).rest ≠ []) :
      Settles (skipWs parser) 1 (Drv.sequence fuel opening close (skipWs parser)) :=
    henough.sequence opening close _ (List.length_pos_iff.mpr hne) (by omega)
  rw [Drv.term]
  refine hafter ?_
  split
  · exact settles_refuse _
  · exact (settles_string _).map Term.str
  · next heq =>
      exact (hsequence 91 93 (heq ▸ List.cons_ne_nil _ _)).map Term.list
  · next heq =>
      exact (hsequence 40 41 (heq ▸ List.cons_ne_nil _ _)).map Term.tuple
  · refine ((settles_ident _).bind 1 fun name next hname => ?_).mono
      (by omega)
    refine ((settles_expect 40 next).bind 1 fun _ opened hopen => ?_).mono
      (by omega)
    have hleft := hname.2
    have hleft' := hopen.2
    exact (henough.commaTerms 41 opened (by omega)).map (Term.app name)

theorem sequence_succ (henough : Enough fuel) (opening close : UInt8)
    (parser : Cursor) (hfuel : 4 * parser.rest.length ≤ fuel + 1) :
    Settles parser 1 (Drv.sequence (fuel + 1) opening close parser) := by
  rw [Drv.sequence]
  refine ((settles_expect opening parser).bind 1 fun _ next hopen => ?_).mono
    (by omega)
  have hleft := hopen.2
  exact henough.commaTerms close next (by omega)

theorem commaTerms_succ (henough : Enough fuel) (close : UInt8) (parser : Cursor)
    (hfuel : 4 * parser.rest.length + 3 ≤ fuel + 1) :
    Settles parser 1 (Drv.commaTerms (fuel + 1) close parser) := by
  have hskip := ahead_skipWs parser
  rw [Drv.commaTerms]
  split
  · next next htake => exact (hskip.trans (ahead_take htake)).mono (by decide)
  · next next htake =>
      have hahead := hskip.trans (ahead_take htake)
      have hleft := hahead.2
      exact ((henough.moreTerms close next (by omega)).of_ahead hahead).mono (by omega)

theorem moreTerms_succ (henough : Enough fuel) (close : UInt8) (parser : Cursor)
    (hfuel : 4 * parser.rest.length + 2 ≤ fuel + 1) :
    Settles parser 1 (Drv.moreTerms (fuel + 1) close parser) := by
  rw [Drv.moreTerms]
  refine ((henough.term parser (by omega)).bind 0 fun first next hfirst =>
    ?_).mono (by omega)
  have hleft := hfirst.2
  dsimp only
  split
  · next last htake => exact (ahead_take htake).mono (Nat.zero_le _)
  · next last htake =>
      have hahead := ahead_take htake
      have hleft' := hahead.2
      refine Settles.mono (Settles.of_ahead hahead
        ((settles_expect 44 last).bind 1 fun _ item hcomma => ?_)) (Nat.zero_le _)
      have hleft'' := hcomma.2
      exact (henough.moreTerms close item (by omega)).map (first :: ·)

theorem of_fuel (fuel : ℕ) : Enough fuel := by
  induction fuel with
  | zero =>
      exact
        { term := fun _ hfuel => absurd hfuel (by omega)
          sequence := fun _ _ _ hpos hfuel => absurd hfuel (by omega)
          commaTerms := fun _ _ hfuel => absurd hfuel (by omega)
          moreTerms := fun _ _ hfuel => absurd hfuel (by omega) }
  | succ fuel henough =>
      exact
        { term := henough.term_succ
          sequence := fun opening close parser _ =>
            henough.sequence_succ opening close parser
          commaTerms := henough.commaTerms_succ
          moreTerms := henough.moreTerms_succ }

end Enough

/-- The parser has stopped, at an offset within the input if it refuses it. -/
def Stops (input : String) : Except Halt Derivation → Prop
  | .ok _ => True
  | .error (.refused offset _) => offset ≤ (encodeUtf8 input).length
  | .error .fuel => False

theorem derivationOf_stops {input : String} {parser : Cursor}
    (hoffset : parser.position ≤ (encodeUtf8 input).length) (term : Term) :
    Stops input (derivationOf (encodeUtf8 input) parser term) := by
  unfold derivationOf
  split
  · exact hoffset
  · split
    · split
      · split
        · exact hoffset
        · trivial
      · exact hoffset
    · exact hoffset

theorem parseDerivation_stops (input : String) :
    Stops input (parseDerivation input) := by
  have hterm : Settles ⟨0, encodeUtf8 input⟩ 1
      (term (fuelFor (encodeUtf8 input)) ⟨0, encodeUtf8 input⟩) :=
    (Enough.of_fuel _).term _ (Nat.le_refl _)
  have htotal : (⟨0, encodeUtf8 input⟩ : Cursor).total = (encodeUtf8 input).length :=
    Nat.zero_add _
  rw [parseDerivation]
  generalize term (fuelFor (encodeUtf8 input)) ⟨0, encodeUtf8 input⟩ = read at hterm
  match read, hterm with
  | .error (.refused _ _), hoffset => exact Nat.le_trans hoffset (Nat.le_of_eq htotal)
  | .ok (term, parser), hahead =>
      have hskip := (ahead_skipWs parser).1.trans hahead.1
      refine derivationOf_stops ?_ term
      rw [htotal, Cursor.total] at hskip
      omega

/-! ## Printed terms -/

def White (bytes : List UInt8) : Prop := ∀ byte ∈ bytes, isWhitespace byte

/-- A character inside a printed string. -/
def escape (character : Char) : List UInt8 :=
  if character = '"' then [92, 34]
  else if character = '\\' then [92, 92]
  else if character = '\n' then [92, 110]
  else if character = '\r' then [92, 114]
  else if character = '\t' then [92, 116]
  else String.utf8EncodeChar character

def quoted (value : String) : List UInt8 :=
  34 :: (value.toList.flatMap escape ++ [34])

mutual

/-- The spellings of a term: whitespace is free in front of every token. -/
inductive Printed : Term → List UInt8 → Prop where
  | str {white : List UInt8} (value : String) :
      White white → Printed (.str value) (white ++ quoted value)
  | list {white body : List UInt8} {terms : List Term} :
      White white → PrintedAll 93 terms body →
      Printed (.list terms) (white ++ 91 :: body)
  | tuple {white body : List UInt8} {terms : List Term} :
      White white → PrintedAll 41 terms body →
      Printed (.tuple terms) (white ++ 40 :: body)
  | app {white name gap body : List UInt8} {args : List Term} :
      White white → name ≠ [] → (∀ byte ∈ name, isIdent byte) → White gap →
      PrintedAll 41 args body →
      Printed (.app (String.ofList (name.map charOfByte)) args)
        (white ++ name ++ gap ++ 40 :: body)

/-- Terms with commas between them, up to the closing bracket. -/
inductive PrintedAll : UInt8 → List Term → List UInt8 → Prop where
  | nil {close : UInt8} {white : List UInt8} :
      White white → PrintedAll close [] (white ++ [close])
  | last {close : UInt8} {term : Term} {bytes white : List UInt8} :
      Printed term bytes → White white →
      PrintedAll close [term] (bytes ++ white ++ [close])
  | cons {close : UInt8} {term : Term} {terms : List Term}
      {bytes white rest : List UInt8} :
      Printed term bytes → White white → terms ≠ [] →
      PrintedAll close terms rest →
      PrintedAll close (term :: terms) (bytes ++ white ++ 44 :: rest)

end

mutual

/-- A term whose texts are read byte by byte. -/
def Term.latin1 : Term → Term
  | .app name args => .app name (latin1All args)
  | .list terms => .list (latin1All terms)
  | .tuple terms => .tuple (latin1All terms)
  | .str value => .str (Text.latin1 value)

def latin1All : List Term → List Term
  | [] => []
  | term :: terms => term.latin1 :: latin1All terms

end

theorem latin1All_eq_map (terms : List Term) :
    latin1All terms = terms.map Term.latin1 := by
  induction terms with
  | nil => rfl
  | cons term terms ih => rw [latin1All, ih, List.map_cons]

/-! ### Tokens -/

theorem skipWs_white {white : List UInt8} (hwhite : White white) (position : ℕ)
    (rest : List UInt8) :
    skipWs ⟨position, white ++ rest⟩ = skipWs ⟨position + white.length, rest⟩ := by
  rw [skipWs, skipWs, Cursor.spanWhile_append hwhite]

theorem skipWs_cons {byte : UInt8} (hbyte : isWhitespace byte = false)
    (position : ℕ) (rest : List UInt8) :
    skipWs ⟨position, byte :: rest⟩ = ⟨position, byte :: rest⟩ := by
  simp [skipWs, Cursor.spanWhile, hbyte]

theorem skipWs_token {white : List UInt8} (hwhite : White white) {byte : UInt8}
    (hbyte : isWhitespace byte = false) (position : ℕ) (rest : List UInt8) :
    skipWs ⟨position, white ++ byte :: rest⟩ =
      ⟨position + white.length, byte :: rest⟩ := by
  rw [skipWs_white hwhite, skipWs_cons hbyte]

theorem skipWs_skipWs (parser : Cursor) : skipWs (skipWs parser) = skipWs parser := by
  have hhead := List.head?_dropWhile_not isWhitespace parser.rest
  rcases hskip : skipWs parser with ⟨position, _ | ⟨byte, rest⟩⟩
  · rfl
  · have hrest : parser.rest.dropWhile isWhitespace = byte :: rest :=
      congrArg Cursor.rest hskip
    rw [hrest] at hhead
    exact skipWs_cons hhead position rest

theorem take_token {white : List UInt8} (hwhite : White white) {byte : UInt8}
    (hbyte : isWhitespace byte = false) (position : ℕ) (rest : List UInt8) :
    take byte ⟨position, white ++ byte :: rest⟩ =
      (true, ⟨position + white.length + 1, rest⟩) := by
  rw [take, skipWs_token hwhite hbyte]
  exact if_pos rfl

theorem take_other {white : List UInt8} (hwhite : White white) {byte other : UInt8}
    (hother : isWhitespace other = false) (hne : other ≠ byte) (position : ℕ)
    (rest : List UInt8) :
    take byte ⟨position, white ++ other :: rest⟩ =
      (false, ⟨position + white.length, other :: rest⟩) := by
  rw [take, skipWs_token hwhite hother]
  exact if_neg hne

theorem expect_token {white : List UInt8} (hwhite : White white) {byte : UInt8}
    (hbyte : isWhitespace byte = false) (position : ℕ) (rest : List UInt8) :
    expect byte ⟨position, white ++ byte :: rest⟩ =
      .ok ((), ⟨position + white.length + 1, rest⟩) := by
  rw [expect, take_token hwhite hbyte]

theorem not_isIdent_of_isWhitespace {byte : UInt8} (hwhite : isWhitespace byte) :
    isIdent byte = false := by
  rw [isWhitespace, decide_eq_true_eq] at hwhite
  simp only [List.mem_cons, List.not_mem_nil, or_false] at hwhite
  rcases hwhite with rfl | rfl | rfl | rfl | rfl <;> decide

theorem not_isWhitespace_of_isIdent {byte : UInt8} (hident : isIdent byte) :
    isWhitespace byte = false := by
  by_contra hspace
  rw [not_isIdent_of_isWhitespace (Bool.not_eq_false _ ▸ hspace)] at hident
  cases hident

theorem ident_token {name tail : List UInt8} (hne : name ≠ [])
    (hname : ∀ byte ∈ name, isIdent byte)
    (htail : ∀ byte ∈ tail.head?, isIdent byte = false) (position : ℕ) :
    ident ⟨position, name ++ tail⟩ =
      .ok (String.ofList (name.map charOfByte), ⟨position + name.length, tail⟩) := by
  obtain ⟨first, letters, rfl⟩ := List.exists_cons_of_ne_nil hne
  have hfirst := not_isWhitespace_of_isIdent (hname first List.mem_cons_self)
  have hstop : Cursor.spanWhile isIdent
      ⟨position + (first :: letters).length, tail⟩ =
        ([], ⟨position + (first :: letters).length, tail⟩) := by
    cases tail with
    | nil => rfl
    | cons next tail => simp [Cursor.spanWhile, htail next rfl]
  have hspan : Cursor.spanWhile isIdent ⟨position, (first :: letters) ++ tail⟩ =
      (first :: letters, ⟨position + (first :: letters).length, tail⟩) := by
    rw [Cursor.spanWhile_append hname, hstop, List.append_nil]
  rw [ident, List.cons_append, skipWs_cons hfirst, ← List.cons_append, hspan]

/-! ### Strings -/

/-- Bytes other than a quote and a backslash are read one by one. -/
theorem stringFrom_plain {bytes : List UInt8}
    (hplain : ∀ byte ∈ bytes, byte ≠ 34 ∧ byte ≠ 92) (tail : List UInt8)
    (position : ℕ) (out : List Char) :
    stringFrom (bytes ++ tail) position out =
      stringFrom tail (position + bytes.length) (out ++ bytes.map charOfByte) := by
  induction bytes generalizing position out with
  | nil => simp
  | cons byte bytes ih =>
      obtain ⟨⟨hquote, hslash⟩, hplain⟩ := List.forall_mem_cons.mp hplain
      rw [List.cons_append, stringFrom.eq_5 _ _ _ _ hquote (by
        intro hbyte
        exact absurd hbyte hslash) (by
        intro _ _ hbyte
        exact absurd hbyte hslash), ih hplain]
      simp [Nat.add_assoc, Nat.add_comm 1]

theorem stringFrom_escape (character : Char) (tail : List UInt8) (position : ℕ)
    (out : List Char) :
    stringFrom (escape character ++ tail) position out =
      stringFrom tail (position + (escape character).length)
        (out ++ (String.utf8EncodeChar character).map charOfByte) := by
  rw [escape]
  split
  · next hquote =>
      subst hquote
      rfl
  · split
    · next hslash =>
        subst hslash
        rfl
    · split
      · next hnewline =>
          subst hnewline
          rfl
      · split
        · next hreturn =>
            subst hreturn
            rfl
        · split
          · next htab =>
              subst htab
              rfl
          · next hquote hslash _ _ _ =>
              refine stringFrom_plain (fun byte hmem => ⟨?_, ?_⟩) tail position out
              · rintro rfl
                exact hquote (eq_charOfByte_of_mem (by decide) hmem)
              · rintro rfl
                exact hslash (eq_charOfByte_of_mem (by decide) hmem)

theorem stringFrom_escaped (chars : List Char) (tail : List UInt8) (position : ℕ)
    (out : List Char) :
    stringFrom (chars.flatMap escape ++ 34 :: tail) position out =
      .ok (String.ofList
          (out ++ (chars.flatMap String.utf8EncodeChar).map charOfByte),
        ⟨position + (chars.flatMap escape).length + 1, tail⟩) := by
  induction chars generalizing position out with
  | nil => simp [stringFrom]
  | cons character chars ih =>
      rw [List.flatMap_cons, List.append_assoc, stringFrom_escape, ih]
      simp [Nat.add_assoc]

/-- A printed string is read with a character for every byte. -/
theorem string_quoted {white : List UInt8} (hwhite : White white) (value : String)
    (position : ℕ) (rest : List UInt8) :
    string ⟨position, white ++ (quoted value ++ rest)⟩ =
      .ok (Text.latin1 value,
        ⟨position + white.length + (quoted value).length, rest⟩) := by
  rw [quoted, List.cons_append, List.append_assoc, List.singleton_append, string,
    expect_token hwhite rfl]
  change stringFrom _ _ _ = _
  rw [stringFrom_escaped, List.nil_append, Text.latin1, encodeUtf8]
  simp [Nat.add_assoc, Nat.add_comm 1]

/-! ### Terms -/

/-- What a printed term begins with. -/
theorem Printed.exists_head {term : Term} {bytes : List UInt8}
    (hprinted : Printed term bytes) :
    ∃ (white : List UInt8) (head : UInt8) (tail : List UInt8), White white ∧
      bytes = white ++ head :: tail ∧ isWhitespace head = false ∧
      head ≠ 93 ∧ head ≠ 41 := by
  cases hprinted with
  | str value hwhite => exact ⟨_, 34, _, hwhite, rfl, rfl, by decide, by decide⟩
  | list hwhite => exact ⟨_, 91, _, hwhite, rfl, rfl, by decide, by decide⟩
  | tuple hwhite => exact ⟨_, 40, _, hwhite, rfl, rfl, by decide, by decide⟩
  | app hwhite hne hname =>
      obtain ⟨first, letters, rfl⟩ := List.exists_cons_of_ne_nil hne
      have hfirst := hname first List.mem_cons_self
      refine ⟨_, first, _, hwhite, by rw [List.append_assoc, List.append_assoc]; rfl,
        ?_, ?_, ?_⟩
      · exact not_isWhitespace_of_isIdent hfirst
      · rintro rfl
        cases hfirst
      · rintro rfl
        cases hfirst

theorem term_skipWs (fuel : ℕ) (parser : Cursor) :
    term fuel (skipWs parser) = term fuel parser := by
  cases fuel with
  | zero => rfl
  | succ fuel => rw [term, term, skipWs_skipWs]

theorem moreTerms_skipWs (fuel : ℕ) (close : UInt8) (parser : Cursor) :
    moreTerms fuel close (skipWs parser) = moreTerms fuel close parser := by
  cases fuel with
  | zero => rfl
  | succ fuel => rw [moreTerms, moreTerms, term_skipWs]

/-- A term that begins with a letter is an application. -/
theorem term_ident {fuel : ℕ} {parser next : Cursor} {head : UInt8}
    (hskip : skipWs parser = next) (hhead : next.rest.head? = some head)
    (hident : isIdent head) :
    term (fuel + 1) parser =
      ident next >>= fun named =>
        expect 40 named.2 >>= fun opened =>
          commaTerms fuel 41 opened.2 >>= fun args =>
            .ok (.app named.1 args.1, args.2) := by
  rw [term, hskip]
  dsimp only
  split
  · next heq =>
      rw [heq] at hhead
      cases hhead
  · next heq =>
      rw [heq] at hhead
      cases hhead
      cases hident
  · next heq =>
      rw [heq] at hhead
      cases hhead
      cases hident
  · next heq =>
      rw [heq] at hhead
      cases hhead
      cases hident
  · rfl

theorem take_printed {close : UInt8} (hclose : close = 93 ∨ close = 41) {term : Term}
    {bytes : List UInt8} (hprinted : Printed term bytes) (position : ℕ)
    (rest : List UInt8) :
    take close ⟨position, bytes ++ rest⟩ =
      (false, skipWs ⟨position, bytes ++ rest⟩) := by
  obtain ⟨white, head, tail, hwhite, rfl, hhead, hlist, htuple⟩ :=
    hprinted.exists_head
  rw [List.append_assoc, List.cons_append, take_other hwhite hhead,
    skipWs_token hwhite hhead]
  rcases hclose with rfl | rfl
  · exact hlist
  · exact htuple

theorem PrintedAll.exists_first {close : UInt8} {terms : List Term}
    {bytes : List UInt8} (hall : PrintedAll close terms bytes) (hne : terms ≠ []) :
    ∃ (term : Term) (first tail : List UInt8), Printed term first ∧
      bytes = first ++ tail := by
  cases hall with
  | nil => exact absurd rfl hne
  | last hprinted => exact ⟨_, _, _, hprinted, List.append_assoc _ _ _⟩
  | cons hprinted => exact ⟨_, _, _, hprinted, List.append_assoc _ _ _⟩

theorem commaTerms_printed {close : UInt8} (hclose : close = 93 ∨ close = 41)
    {terms : List Term} {bytes : List UInt8} (hall : PrintedAll close terms bytes)
    {fuel position : ℕ} {rest : List UInt8}
    (hmore : terms ≠ [] → moreTerms fuel close ⟨position, bytes ++ rest⟩ =
      .ok (latin1All terms, ⟨position + bytes.length, rest⟩)) :
    commaTerms (fuel + 1) close ⟨position, bytes ++ rest⟩ =
      .ok (latin1All terms, ⟨position + bytes.length, rest⟩) := by
  have hspace : isWhitespace close = false := by
    rcases hclose with rfl | rfl <;> decide
  have htake (parser : Cursor) : take close (skipWs parser) = take close parser := by
    rw [take, take, skipWs_skipWs]
  rw [commaTerms, htake]
  by_cases hne : terms = []
  · subst hne
    cases hall with
    | nil hwhite =>
        rw [List.append_assoc, List.singleton_append, take_token hwhite hspace]
        simp [latin1All, Nat.add_assoc]
  · obtain ⟨term, first, tail, hprinted, rfl⟩ := hall.exists_first hne
    rw [List.append_assoc, take_printed hclose hprinted, ← List.append_assoc]
    rw [← hmore hne]
    exact moreTerms_skipWs fuel close _

mutual

/-- A printed term is read, with a character for every byte of its texts. -/
theorem term_printed {term : Term} {bytes : List UInt8}
    (hprinted : Printed term bytes) (fuel : ℕ) (hfuel : 4 * bytes.length + 1 ≤ fuel)
    (position : ℕ) (rest : List UInt8) :
    Drv.term fuel ⟨position, bytes ++ rest⟩ =
      .ok (term.latin1, ⟨position + bytes.length, rest⟩) := by
  match fuel with
  | 0 => omega
  | fuel + 1 =>
  cases hprinted with
  | @str white value hwhite =>
      have hskip : skipWs ⟨position, white ++ (quoted value ++ rest)⟩ =
          ⟨position + white.length, quoted value ++ rest⟩ :=
        skipWs_token hwhite rfl _ _
      have hstring : string ⟨position + white.length, quoted value ++ rest⟩ =
          .ok (Text.latin1 value,
            ⟨position + white.length + (quoted value).length, rest⟩) :=
        @string_quoted [] nofun value (position + white.length) rest
      rw [List.append_assoc, Drv.term, hskip]
      change string ⟨position + white.length, quoted value ++ rest⟩ >>= _ = _
      rw [hstring, ok_bind, List.length_append, Nat.add_assoc]
      rfl
  | @list white body terms hwhite hall =>
      simp only [List.length_append, List.length_cons] at hfuel
      have hlist := sequence_printed 91 rfl (.inl rfl) hall fuel (by omega)
        (position + white.length) rest
      rw [List.append_assoc, List.cons_append, Drv.term, skipWs_token hwhite rfl]
      dsimp only
      rw [hlist, ok_bind, List.length_append, List.length_cons, Nat.add_assoc]
      rfl
  | @tuple white body terms hwhite hall =>
      simp only [List.length_append, List.length_cons] at hfuel
      have htuple := sequence_printed 40 rfl (.inr rfl) hall fuel (by omega)
        (position + white.length) rest
      rw [List.append_assoc, List.cons_append, Drv.term, skipWs_token hwhite rfl]
      dsimp only
      rw [htuple, ok_bind, List.length_append, List.length_cons, Nat.add_assoc]
      rfl
  | @app white name gap body args hwhite hne hname hgap hall =>
      simp only [List.length_append, List.length_cons] at hfuel
      have hargs := commaTerms_all (.inr rfl) hall fuel (by omega)
        (position + white.length + name.length + gap.length + 1) rest
      obtain ⟨first, letters, rfl⟩ := List.exists_cons_of_ne_nil hne
      have hfirst := hname first List.mem_cons_self
      have hskip : skipWs ⟨position, white ++
            (first :: letters ++ (gap ++ 40 :: (body ++ rest)))⟩ =
          ⟨position + white.length,
            first :: letters ++ (gap ++ 40 :: (body ++ rest))⟩ :=
        skipWs_token hwhite (not_isWhitespace_of_isIdent hfirst) _ _
      have hgap' : ∀ byte ∈ (gap ++ 40 :: (body ++ rest)).head?,
          isIdent byte = false := by
        cases gap with
        | nil =>
            intro byte hbyte
            cases hbyte
            rfl
        | cons space gap =>
            intro byte hbyte
            cases hbyte
            exact not_isIdent_of_isWhitespace (hgap space List.mem_cons_self)
      have hident := ident_token hne hname hgap' (position + white.length)
      have hopen := expect_token hgap (show isWhitespace 40 = false from rfl)
        (position + white.length + (first :: letters).length) (body ++ rest)
      have hbytes : white ++ (first :: letters) ++ gap ++ 40 :: body ++ rest =
          white ++ (first :: letters ++ (gap ++ 40 :: (body ++ rest))) := by simp
      have hposition : position + white.length + (first :: letters).length + gap.length +
            1 + body.length =
          position + (white ++ (first :: letters) ++ gap ++ 40 :: body).length := by
        simp only [List.length_append, List.length_cons]
        omega
      rw [hbytes, term_ident hskip rfl hfirst, hident, ok_bind, hopen, ok_bind, hargs,
        ok_bind, hposition, Term.latin1]
termination_by fuel

theorem sequence_printed (opening : UInt8) {close : UInt8}
    (hopening : isWhitespace opening = false) (hclose : close = 93 ∨ close = 41)
    {terms : List Term} {bytes : List UInt8} (hall : PrintedAll close terms bytes)
    (fuel : ℕ) (hfuel : 4 * (bytes.length + 1) ≤ fuel) (position : ℕ)
    (rest : List UInt8) :
    sequence fuel opening close ⟨position, opening :: (bytes ++ rest)⟩ =
      .ok (latin1All terms, ⟨position + (bytes.length + 1), rest⟩) := by
  match fuel with
  | 0 => omega
  | fuel + 1 =>
      have hexpect : expect opening ⟨position, opening :: (bytes ++ rest)⟩ =
          .ok ((), ⟨position + 1, bytes ++ rest⟩) :=
        @expect_token [] nofun opening hopening position (bytes ++ rest)
      rw [sequence, hexpect, ok_bind]
      dsimp only
      rw [commaTerms_all hclose hall fuel (by omega), Nat.add_comm bytes.length,
        Nat.add_assoc]
termination_by fuel

theorem commaTerms_all {close : UInt8} (hclose : close = 93 ∨ close = 41)
    {terms : List Term} {bytes : List UInt8} (hall : PrintedAll close terms bytes)
    (fuel : ℕ) (hfuel : 4 * bytes.length + 3 ≤ fuel) (position : ℕ)
    (rest : List UInt8) :
    commaTerms fuel close ⟨position, bytes ++ rest⟩ =
      .ok (latin1All terms, ⟨position + bytes.length, rest⟩) := by
  match fuel with
  | 0 => omega
  | fuel + 1 =>
      exact commaTerms_printed hclose hall fun hne =>
        moreTerms_printed hclose hall hne fuel (by omega) position rest
termination_by fuel

theorem moreTerms_printed {close : UInt8} (hclose : close = 93 ∨ close = 41)
    {terms : List Term} {bytes : List UInt8} (hall : PrintedAll close terms bytes)
    (hne : terms ≠ []) (fuel : ℕ) (hfuel : 4 * bytes.length + 2 ≤ fuel)
    (position : ℕ) (rest : List UInt8) :
    moreTerms fuel close ⟨position, bytes ++ rest⟩ =
      .ok (latin1All terms, ⟨position + bytes.length, rest⟩) := by
  have hspace : isWhitespace close = false := by
    rcases hclose with rfl | rfl <;> decide
  have hcomma : (44 : UInt8) ≠ close := by
    rcases hclose with rfl | rfl <;> decide
  match fuel with
  | 0 => omega
  | fuel + 1 =>
  cases hall with
  | nil => exact absurd rfl hne
  | @last _ term bytes white hprinted hwhite =>
      simp only [List.length_append, List.length_singleton] at hfuel
      have hfirst := term_printed hprinted fuel (by omega) position
        (white ++ close :: rest)
      rw [List.append_assoc, List.append_assoc, List.singleton_append, moreTerms,
        hfirst, ok_bind]
      dsimp only
      rw [take_token hwhite hspace]
      simp [latin1All, Nat.add_assoc]
  | @cons _ term terms bytes white body hprinted hwhite hmore hall =>
      simp only [List.length_append, List.length_cons] at hfuel
      have hfirst := term_printed hprinted fuel (by omega) position
        (white ++ 44 :: (body ++ rest))
      have hexpect : expect 44
          ⟨position + bytes.length + white.length, 44 :: (body ++ rest)⟩ =
            .ok ((), ⟨position + bytes.length + white.length + 1, body ++ rest⟩) :=
        @expect_token [] nofun 44 rfl _ (body ++ rest)
      have hrest := moreTerms_printed hclose hall hmore fuel (by omega)
        (position + bytes.length + white.length + 1) rest
      rw [List.append_assoc, List.append_assoc, List.cons_append, moreTerms, hfirst,
        ok_bind]
      dsimp only
      rw [take_other hwhite rfl hcomma]
      dsimp only
      rw [hexpect, ok_bind]
      dsimp only
      rw [hrest, ok_bind]
      simp [latin1All, Nat.add_assoc, Nat.add_comm 1]
termination_by fuel

end

/-! ## Derivation files -/

structure Output where
  name : String
  path : String
  hashAlgo : String
  hash : String

def Output.term (output : Output) : Term :=
  .tuple [.str output.name, .str output.path, .str output.hashAlgo, .str output.hash]

def inputTerm (input : String × List String) : Term :=
  .tuple [.str input.1, .list (input.2.map .str)]

/-- A derivation as it is written to its file: two maps, printed as lists, and
whatever arguments follow. -/
structure DrvFile where
  outputs : List Output
  inputDrvs : List (String × List String)
  others : List Term
  names : (outputs.map Output.name).Nodup
  paths : (inputDrvs.map Prod.fst).Nodup

namespace DrvFile

variable (drv : DrvFile)

def term : Term :=
  .app "Derive"
    (.list (drv.outputs.map Output.term) :: .list (drv.inputDrvs.map inputTerm) ::
      drv.others)

/-- The texts that print the derivation. -/
def Prints (input : String) : Prop :=
  ∃ bytes white, Printed drv.term bytes ∧ White white ∧
    encodeUtf8 input = bytes ++ white

/-- Exactly the two maps of the derivation. -/
def Holds (derivation : Derivation) : Prop :=
  (∀ name path, derivation.outputs[name]? = some path ↔
    ∃ output ∈ drv.outputs, output.name = name ∧ output.path = path) ∧
  ∀ path names, derivation.inputDrvs[path]? = some names ↔
    (path, names) ∈ drv.inputDrvs

def Read (result : Except Halt Derivation) : Prop :=
  ∃ derivation, result = .ok derivation ∧ drv.Holds derivation

/-- The texts of the two maps are ASCII; the other arguments may be any text. -/
def Ascii : Prop :=
  (∀ output ∈ drv.outputs,
    IsAscii (encodeUtf8 output.name) ∧ IsAscii (encodeUtf8 output.path)) ∧
  ∀ input ∈ drv.inputDrvs, IsAscii (encodeUtf8 input.1) ∧
    ∀ name ∈ input.2, IsAscii (encodeUtf8 name)

end DrvFile

/-! ### The maps that are read -/

/-- What a list keeps under a function that raises a weight wherever it moves,
stays where it is. -/
theorem fixed_of_closed {A : Type} {change : A → A} {weight : A → ℕ}
    (hinj : Function.Injective change)
    (hgrow : ∀ element, change element ≠ element →
      weight element < weight (change element))
    {elements : List A} (hclosed : ∀ element ∈ elements, change element ∈ elements) :
    ∀ element ∈ elements, change element = element := by
  have hbound : ∃ bound, ∀ element ∈ elements, weight element < bound := by
    clear hclosed
    induction elements with
    | nil => exact ⟨0, nofun⟩
    | cons element elements ih =>
        obtain ⟨bound, hbound⟩ := ih
        refine ⟨max bound (weight element + 1), List.forall_mem_cons.mpr
          ⟨by omega, fun other hmem => ?_⟩⟩
        have hother := hbound other hmem
        omega
  obtain ⟨bound, hbound⟩ := hbound
  intro element hmem
  by_contra hmoved
  have hheavy (count : ℕ) : ∃ heavy ∈ elements, change heavy ≠ heavy ∧
      count ≤ weight heavy := by
    induction count with
    | zero => exact ⟨element, hmem, hmoved, Nat.zero_le _⟩
    | succ count ih =>
        obtain ⟨heavy, hheavy, hmoves, hcount⟩ := ih
        exact ⟨change heavy, hclosed heavy hheavy, fun hfixed => hmoves (hinj hfixed),
          Nat.lt_of_le_of_lt hcount (hgrow heavy hmoves)⟩
  obtain ⟨heavy, hheavy, -, hcount⟩ := hheavy bound
  exact Nat.lt_irrefl _ (Nat.lt_of_le_of_lt hcount (hbound heavy hheavy))

section Maps

variable {V : Type}

def insertPair (map : BTreeMap V) (pair : String × V) : BTreeMap V :=
  map.insert pair.1 pair.2

theorem getElem?_foldl_insertPair {pairs : List (String × V)}
    (hnodup : (pairs.map Prod.fst).Nodup) (key : String) (value : V) :
    (pairs.foldl insertPair ∅)[key]? = some value ↔ (key, value) ∈ pairs := by
  induction pairs using List.reverseRecOn with
  | nil => simp
  | append_singleton pairs pair ih =>
      rw [List.map_append, List.nodup_append] at hnodup
      obtain ⟨hnodup, -, hdisjoint⟩ := hnodup
      rw [List.foldl_append, List.foldl_cons, List.foldl_nil, insertPair,
        Std.TreeMap.getElem?_insert, List.mem_append, List.mem_singleton]
      split
      · next hsame =>
          obtain rfl := Std.LawfulEqCmp.eq_of_compare hsame
          have hfresh : (pair.1, value) ∉ pairs := fun hmem =>
            hdisjoint pair.1 (List.mem_map.mpr ⟨_, hmem, rfl⟩) pair.1
              List.mem_cons_self rfl
          constructor
          · intro hvalue
            exact .inr (Prod.ext rfl (Option.some.inj hvalue).symm)
          · intro hmem
            exact congrArg some (congrArg Prod.snd (hmem.resolve_left hfresh)).symm
      · next hother =>
          rw [ih hnodup]
          refine ⟨.inl, fun hmem => hmem.resolve_right fun heq => hother ?_⟩
          rw [← heq]
          exact Std.ReflCmp.compare_self

/-- A map is read as it was printed when reading moves none of its entries. -/
theorem lookups_iff {change : String × V → String × V} {weight : String × V → ℕ}
    (hinj : Function.Injective change)
    (hgrow : ∀ pair, change pair ≠ pair → weight pair < weight (change pair))
    {pairs : List (String × V)}
    (hnodup : ((pairs.map change).map Prod.fst).Nodup) :
    (∀ key value, ((pairs.map change).foldl insertPair ∅)[key]? = some value ↔
      (key, value) ∈ pairs) ↔ ∀ pair ∈ pairs, change pair = pair := by
  constructor
  · intro hlookups
    refine fixed_of_closed hinj hgrow fun pair hmem => ?_
    exact (hlookups _ _).mp ((getElem?_foldl_insertPair hnodup _ _).mpr
      (List.mem_map_of_mem hmem))
  · intro hfixed key value
    have hsame : pairs.map change = pairs :=
      (List.map_congr_left hfixed).trans (List.map_id _)
    rw [getElem?_foldl_insertPair hnodup, hsame]

end Maps

namespace DrvFile

variable (drv : DrvFile)

def latin1Output (pair : String × String) : String × String :=
  (latin1 pair.1, latin1 pair.2)

def latin1Input (pair : String × List String) : String × List String :=
  (latin1 pair.1, pair.2.map latin1)

theorem insertOutput_latin1 (outputs : List Output) :
    (entries (Term.list (outputs.map Output.term)).latin1).foldl insertOutput ∅ =
      ((outputs.map fun output => (output.name, output.path)).map
        latin1Output).foldl insertPair ∅ := by
  rw [Term.latin1, entries, latin1All_eq_map, List.map_map, List.foldl_map,
    List.map_map, List.foldl_map]
  rfl

theorem insertInput_latin1 (inputs : List (String × List String)) :
    (entries (Term.list (inputs.map inputTerm)).latin1).foldl insertInput ∅ =
      (inputs.map latin1Input).foldl insertPair ∅ := by
  have hnames (names : List String) :
      (latin1All (names.map Term.str)).filterMap asStr = names.map latin1 := by
    induction names with
    | nil => rfl
    | cons name names ih => exact congrArg (latin1 name :: ·) ih
  have hinsert (map : BTreeMap (List String)) (input : String × List String) :
      insertInput map (inputTerm input).latin1 = insertPair map (latin1Input input) :=
    congrArg (map.insert (latin1 input.1)) (hnames input.2)
  rw [Term.latin1, entries, latin1All_eq_map, List.map_map, List.foldl_map,
    List.foldl_map]
  exact congrArg (fun step => inputs.foldl step ∅)
    (funext fun map => funext (hinsert map))

/-- The maps with a character for every byte of their texts. -/
def latin1Derivation : Derivation :=
  { outputs := ((drv.outputs.map fun output => (output.name, output.path)).map
      latin1Output).foldl insertPair ∅
    inputDrvs := (drv.inputDrvs.map latin1Input).foldl insertPair ∅ }

/-- What the parser makes of a printed derivation. -/
theorem parseDerivation_printed {input : String} (hprints : drv.Prints input) :
    parseDerivation input = .ok drv.latin1Derivation := by
  obtain ⟨bytes, white, hprinted, hwhite, hinput⟩ := hprints
  have hterm := term_printed hprinted (fuelFor (bytes ++ white)) (by
    rw [fuelFor, List.length_append]
    omega) 0 white
  have hend : skipWs ⟨0 + bytes.length, white⟩ =
      ⟨(bytes ++ white).length, []⟩ := by
    have hskip := skipWs_white hwhite (0 + bytes.length) []
    rw [List.append_nil] at hskip
    rw [hskip, List.length_append, Nat.zero_add]
    rfl
  have hlatin1 : drv.term.latin1 = .app "Derive"
      ((Term.list (drv.outputs.map Output.term)).latin1 ::
        (Term.list (drv.inputDrvs.map inputTerm)).latin1 :: latin1All drv.others) := rfl
  rw [parseDerivation, hinput]
  dsimp only
  rw [hterm, ok_bind]
  dsimp only
  rw [hend, derivationOf.eq_def, if_neg (by simp), hlatin1]
  dsimp only
  rw [if_neg (by simp), insertOutput_latin1, insertInput_latin1, latin1Derivation]

/-! ### When the maps are exact -/

theorem latin1Output_injective : Function.Injective latin1Output := by
  rintro ⟨name, path⟩ ⟨name', path'⟩ heq
  obtain ⟨hname, hpath⟩ := Prod.ext_iff.mp heq
  exact Prod.ext (latin1_injective hname) (latin1_injective hpath)

theorem latin1Input_injective : Function.Injective latin1Input := by
  rintro ⟨path, names⟩ ⟨path', names'⟩ heq
  obtain ⟨hpath, hnames⟩ := Prod.ext_iff.mp heq
  exact Prod.ext (latin1_injective hpath)
    ((List.map_inj_right fun _ _ hsame => latin1_injective hsame).mp hnames)

theorem length_le_latin1 (text : String) : text.length ≤ (latin1 text).length := by
  by_cases hfixed : latin1 text = text
  · exact Nat.le_of_eq (congrArg String.length hfixed).symm
  · exact Nat.le_of_lt (length_lt_latin1 hfixed)

/-- The characters of several texts. -/
def charsOf (names : List String) : List Char := names.flatMap String.toList

theorem length_le_charsOf (names : List String) :
    (charsOf names).length ≤ (charsOf (names.map latin1)).length ∧
      (names.map latin1 ≠ names →
        (charsOf names).length < (charsOf (names.map latin1)).length) := by
  induction names with
  | nil => exact ⟨Nat.le_refl 0, fun hne => absurd rfl hne⟩
  | cons name names ih =>
      have hname := length_le_latin1 name
      have hcons (name : String) (names : List String) :
          (charsOf (name :: names)).length = name.length + (charsOf names).length := by
        rw [charsOf, List.flatMap_cons, List.length_append, charsOf,
          String.length_toList]
      rw [List.map_cons, hcons, hcons]
      refine ⟨by omega, fun hne => ?_⟩
      by_cases hfixed : latin1 name = name
      · have hrest := ih.2 fun hsame => hne (by rw [hfixed, hsame])
        omega
      · have hlonger := length_lt_latin1 hfixed
        omega

theorem weight_lt_latin1Output (pair : String × String)
    (hmoved : latin1Output pair ≠ pair) :
    pair.1.length + pair.2.length <
      (latin1Output pair).1.length + (latin1Output pair).2.length := by
  have hname := length_le_latin1 pair.1
  have hpath := length_le_latin1 pair.2
  simp only [latin1Output]
  by_cases hfixed : latin1 pair.1 = pair.1
  · have hlonger := length_lt_latin1 fun hsame =>
      hmoved (Prod.ext hfixed hsame : latin1Output pair = pair)
    omega
  · have hlonger := length_lt_latin1 hfixed
    omega

theorem weight_lt_latin1Input (pair : String × List String)
    (hmoved : latin1Input pair ≠ pair) :
    pair.1.length + (charsOf pair.2).length <
      (latin1Input pair).1.length + (charsOf (latin1Input pair).2).length := by
  have hpath := length_le_latin1 pair.1
  obtain ⟨hle, hlt⟩ := length_le_charsOf pair.2
  simp only [latin1Input]
  by_cases hfixed : latin1 pair.1 = pair.1
  · have hlonger := hlt fun hsame =>
      hmoved (Prod.ext hfixed hsame : latin1Input pair = pair)
    omega
  · have hlonger := length_lt_latin1 hfixed
    omega

theorem nodup_latin1 {keys : List String} (hnodup : keys.Nodup) :
    (keys.map latin1).Nodup := hnodup.map latin1_injective

theorem latin1Input_eq_iff (input : String × List String) :
    latin1Input input = input ↔
      IsAscii (encodeUtf8 input.1) ∧ ∀ name ∈ input.2, IsAscii (encodeUtf8 name) := by
  have hnames : input.2.map latin1 = input.2 ↔
      ∀ name ∈ input.2, IsAscii (encodeUtf8 name) := by
    have hfixed := @List.map_inj_left _ _ input.2 latin1 id
    rw [List.map_id] at hfixed
    rw [hfixed]
    exact forall₂_congr fun name _ => latin1_eq_iff name
  rw [latin1Input, Prod.ext_iff, latin1_eq_iff, hnames]

theorem latin1Output_eq_iff (output : Output) :
    latin1Output (output.name, output.path) = (output.name, output.path) ↔
      IsAscii (encodeUtf8 output.name) ∧ IsAscii (encodeUtf8 output.path) := by
  rw [latin1Output, Prod.ext_iff, latin1_eq_iff, latin1_eq_iff]

theorem holds_latin1_iff : drv.Holds drv.latin1Derivation ↔ drv.Ascii := by
  have hnames : (((drv.outputs.map fun output => (output.name, output.path)).map
      latin1Output).map Prod.fst).Nodup := by
    have hkeys := nodup_latin1 drv.names
    simpa [latin1Output, Function.comp_def] using hkeys
  have hpaths : ((drv.inputDrvs.map latin1Input).map Prod.fst).Nodup := by
    have hkeys := nodup_latin1 drv.paths
    simpa [latin1Input, Function.comp_def] using hkeys
  have houtputs := lookups_iff latin1Output_injective weight_lt_latin1Output hnames
  have hinputs := lookups_iff latin1Input_injective weight_lt_latin1Input hpaths
  simp only [List.mem_map, Prod.mk.injEq, forall_exists_index, and_imp,
    forall_apply_eq_imp_iff₂, latin1Output_eq_iff] at houtputs
  simp only [latin1Input_eq_iff] at hinputs
  exact and_congr houtputs hinputs

/-- A printed derivation is read exactly when its maps hold ASCII texts only. -/
theorem read_iff_ascii {input : String} (hprints : drv.Prints input) :
    drv.Read (parseDerivation input) ↔ drv.Ascii := by
  rw [Read, drv.parseDerivation_printed hprints, ← drv.holds_latin1_iff]
  simp only [Except.ok.injEq, exists_eq_left']

end DrvFile

/-- The parser stops on every input, and it reads the derivations that are
printed as the input exactly when their maps hold ASCII texts only. -/
theorem parseDerivation_iff_ascii (input : String) :
    (∀ drv : DrvFile, drv.Prints input → drv.Read (parseDerivation input)) ∧
        Stops input (parseDerivation input) ↔
      ∀ drv : DrvFile, drv.Prints input → drv.Ascii := by
  rw [and_iff_left (parseDerivation_stops input)]
  exact forall₂_congr fun drv hprints => drv.read_iff_ascii hprints

/-- A derivation with one output, at the given path. -/
def oneOutput (path : String) : DrvFile :=
  { outputs := [⟨"out", path, "", ""⟩]
    inputDrvs := []
    others := []
    names := List.nodup_singleton _
    paths := List.nodup_nil }

/-- A path that is not ASCII is read as another one. -/
theorem parseDerivation_not_ascii :
    (oneOutput "/é").Prints "Derive([(\"out\",\"/é\",\"\",\"\")],[])" ∧
      ¬ (oneOutput "/é").Read
        (parseDerivation "Derive([(\"out\",\"/é\",\"\",\"\")],[])") := by
  have hprints : (oneOutput "/é").Prints
      "Derive([(\"out\",\"/é\",\"\",\"\")],[])" := by
    have hstr (value : String) : Printed (.str value) (quoted value) :=
      @Printed.str [] value nofun
    have houtput : Printed (Output.term ⟨"out", "/é", "", ""⟩) _ :=
      @Printed.tuple [] _ _ nofun
        (@PrintedAll.cons _ _ _ _ [] _ (hstr "out") nofun nofun
          (@PrintedAll.cons _ _ _ _ [] _ (hstr "/é") nofun nofun
            (@PrintedAll.cons _ _ _ _ [] _ (hstr "") nofun nofun
              (@PrintedAll.last _ _ _ [] (hstr "") nofun))))
    have houtputs : Printed (.list [Output.term ⟨"out", "/é", "", ""⟩]) _ :=
      @Printed.list [] _ _ nofun (@PrintedAll.last _ _ _ [] houtput nofun)
    have hinputs : Printed (.list []) _ :=
      @Printed.list [] _ _ nofun (@PrintedAll.nil _ [] nofun)
    have hname : ([68, 101, 114, 105, 118, 101] : List UInt8).all isIdent = true :=
      rfl
    have hterm : Printed (oneOutput "/é").term _ :=
      @Printed.app [] [68, 101, 114, 105, 118, 101] [] _ _ nofun nofun
        (List.all_eq_true.mp hname) nofun
        (@PrintedAll.cons _ _ _ _ [] _ houtputs nofun nofun
          (@PrintedAll.last _ _ _ [] hinputs nofun))
    exact ⟨_, [], hterm, nofun, by decide +kernel⟩
  refine ⟨hprints, fun hread => ?_⟩
  have hascii := ((oneOutput "/é").read_iff_ascii hprints).mp hread
  have hpath := (hascii.1 _ List.mem_cons_self).2 0xc3 (by decide)
  revert hpath
  decide

end Mandala.Forest.Drv
