import Mathlib.Tactic.Common

/-!
# Shell words

A POSIX shell takes a line apart into words: blanks end a word, single quotes
keep everything between them, double quotes all but a few characters, and a
backslash the character after it.  A character that would be an operator, an
expansion, a pattern or a comment makes the line more than a list of words.
-/

namespace Mandala.ShellWords

/-- Where in a word the splitting is. -/
inductive Mode where
  | bare
  /-- After a backslash. -/
  | escaped
  | single
  | double
  /-- After a backslash between double quotes. -/
  | doubleEscaped
  deriving DecidableEq, Repr

def isBlank (character : Char) : Bool := character = ' ' || character = '\t'

/-- Characters that mean something else than themselves outside of quotes. -/
def isSpecial (character : Char) : Bool :=
  character ∈ ['|', '&', ';', '<', '>', '(', ')', '$', '`', '\n', '*', '?', '[',
    '#', '~']

/-- Characters that a backslash keeps between double quotes. -/
def isEscapable (character : Char) : Bool :=
  character ∈ ['$', '`', '"', '\\']

/-- The words of a text, the one that was begun first. -/
def wordsFrom : Mode → Option (List Char) → List Char → Option (List (List Char))
  | .bare, word, [] => some word.toList
  | .bare, word, character :: rest =>
      if isBlank character then
        (wordsFrom .bare none rest).map (word.toList ++ ·)
      else if character = '\\' then wordsFrom .escaped word rest
      else if character = '\'' then wordsFrom .single (some (word.getD [])) rest
      else if character = '"' then wordsFrom .double (some (word.getD [])) rest
      else if isSpecial character then none
      else wordsFrom .bare (some (word.getD [] ++ [character])) rest
  | .escaped, word, character :: rest =>
      if character = '\n' then wordsFrom .bare word rest
      else wordsFrom .bare (some (word.getD [] ++ [character])) rest
  | .single, word, character :: rest =>
      if character = '\'' then wordsFrom .bare word rest
      else wordsFrom .single (some (word.getD [] ++ [character])) rest
  | .double, word, character :: rest =>
      if character = '"' then wordsFrom .bare word rest
      else if character = '\\' then wordsFrom .doubleEscaped word rest
      else if isEscapable character then none
      else wordsFrom .double (some (word.getD [] ++ [character])) rest
  | .doubleEscaped, word, character :: rest =>
      if character = '\n' then wordsFrom .double word rest
      else if isEscapable character then
        wordsFrom .double (some (word.getD [] ++ [character])) rest
      else wordsFrom .double (some (word.getD [] ++ ['\\', character])) rest
  -- a quote that is not closed, a backslash at the end
  | _, _, [] => none

/-- The words a shell makes of a line, if it is nothing but words. -/
def shellWords (line : String) : Option (List String) :=
  (wordsFrom .bare none line.toList).map (List.map String.ofList)

/-! ## Texts that are one word -/

/-- The text begins a word, and spells `value` so far. -/
def Spells (text value : List Char) : Prop :=
  ∀ rest, wordsFrom .bare none (text ++ rest) = wordsFrom .bare (some value) rest

/-- Characters that are neither blank, quotes nor special. -/
def isPlain (character : Char) : Bool :=
  !isBlank character && character ≠ '\\' && character ≠ '\'' &&
    character ≠ '"' && !isSpecial character

theorem wordsFrom_plain {character : Char} (hplain : isPlain character)
    (word : Option (List Char)) (rest : List Char) :
    wordsFrom .bare word (character :: rest) =
      wordsFrom .bare (some (word.getD [] ++ [character])) rest := by
  simp only [isPlain, Bool.and_eq_true, Bool.not_eq_true', decide_eq_true_eq] at hplain
  obtain ⟨⟨⟨⟨hblank, hbackslash⟩, hsingle⟩, hdouble⟩, hspecial⟩ := hplain
  rw [wordsFrom, if_neg (by simp [hblank]), if_neg hbackslash, if_neg hsingle,
    if_neg hdouble, if_neg (by simp [hspecial])]

theorem wordsFrom_plains {value : List Char} (hplain : ∀ c ∈ value, isPlain c)
    (word rest : List Char) :
    wordsFrom .bare (some word) (value ++ rest) =
      wordsFrom .bare (some (word ++ value)) rest := by
  induction value generalizing word with
  | nil => rw [List.nil_append, List.append_nil]
  | cons first value ih =>
      obtain ⟨hfirst, hvalue⟩ := List.forall_mem_cons.mp hplain
      rw [List.cons_append, wordsFrom_plain hfirst, ih hvalue, Option.getD_some,
        List.append_assoc, List.singleton_append]

/-- A text of plain characters spells itself. -/
theorem spells_plain {value : List Char} (hne : value ≠ [])
    (hplain : ∀ c ∈ value, isPlain c) : Spells value value := by
  intro rest
  cases value with
  | nil => exact absurd rfl hne
  | cons first value =>
      obtain ⟨hfirst, hvalue⟩ := List.forall_mem_cons.mp hplain
      rw [List.cons_append, wordsFrom_plain hfirst, wordsFrom_plains hvalue]
      rfl

/-- Between single quotes, a single quote is written `'"'"'`. -/
def quoteSingle (value : List Char) : List Char :=
  value.flatMap fun character =>
    if character = '\'' then ['\'', '"', '\'', '"', '\''] else [character]

theorem wordsFrom_quoteSingle (value word rest : List Char) :
    wordsFrom .single (some word) (quoteSingle value ++ '\'' :: rest) =
      wordsFrom .bare (some (word ++ value)) rest := by
  induction value generalizing word with
  | nil => simp [quoteSingle, wordsFrom]
  | cons first value ih =>
      rw [quoteSingle, List.flatMap_cons, ← quoteSingle, List.append_assoc]
      by_cases hquote : first = '\''
      · rw [if_pos hquote, hquote]
        simp only [List.cons_append, List.nil_append, wordsFrom, if_true,
          Option.getD_some]
        simpa [isBlank, isEscapable] using ih (word ++ ['\''])
      · rw [if_neg hquote, List.singleton_append, wordsFrom, if_neg hquote,
          Option.getD_some, ih, List.append_assoc, List.singleton_append]

/-- Any text spells itself between single quotes. -/
theorem spells_quoted (value : List Char) :
    Spells ('\'' :: (quoteSingle value ++ ['\''])) value := by
  intro rest
  rw [List.cons_append, List.append_assoc, List.singleton_append, wordsFrom]
  simpa [isBlank] using wordsFrom_quoteSingle value [] rest

/-! ## Lines of such texts -/

theorem Spells.words_single {text value : List Char} (hspells : Spells text value) :
    wordsFrom .bare none text = some [value] := by
  have hword := hspells []
  rw [List.append_nil] at hword
  rw [hword]
  rfl

theorem Spells.words_cons {text value rest : List Char}
    (hspells : Spells text value) :
    wordsFrom .bare none (text ++ ' ' :: rest) =
      (wordsFrom .bare none rest).map (value :: ·) := by
  rw [hspells (' ' :: rest), wordsFrom, if_pos (by decide)]
  rfl

/-- Texts with a blank between any two are taken apart again. -/
theorem words_of_spells {Word : Type} (text value : Word → List Char)
    (hspells : ∀ word, Spells (text word) (value word)) :
    ∀ words : List Word,
      wordsFrom .bare none ([' '].intercalate (words.map text)) =
        some (words.map value)
  | [] => rfl
  | [word] => by
      rw [List.map_singleton, List.map_singleton, List.intercalate_singleton]
      exact (hspells word).words_single
  | word :: next :: words => by
      have hrest := words_of_spells text value hspells (next :: words)
      rw [List.map_cons, List.map_cons, List.intercalate_cons_cons,
        ← List.map_cons, List.append_assoc, List.singleton_append,
        (hspells word).words_cons, hrest]
      rfl

end Mandala.ShellWords
