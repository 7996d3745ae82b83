import Mathlib.Data.List.Infix

/-!
# Search patterns of literals and anchors

A pattern is searched for: it matches a text when it matches from some position
on.  Only the literal characters and the two anchors are read here; a pattern
that uses any other operator is not one of these.
-/

namespace Mandala.Search

inductive Atom where
  | literal (character : Char)
  | textStart
  | textEnd
  deriving DecidableEq, Repr

abbrev Pattern := List Atom

/-- The characters that need a backslash to stand for themselves. -/
def isOperator (character : Char) : Bool :=
  "\\[\x7b()^$?*+|.".toList.contains character

/-- Read a pattern; an escape is only known before an operator. -/
def parse : List Char → Option Pattern
  | [] => some []
  | '^' :: rest => (parse rest).map (.textStart :: ·)
  | '$' :: rest => (parse rest).map (.textEnd :: ·)
  | '\\' :: character :: rest =>
      if isOperator character then (parse rest).map (.literal character :: ·)
      else none
  | character :: rest =>
      if isOperator character then none
      else (parse rest).map (.literal character :: ·)

/-- The pattern matches a prefix of the text; `first` says whether the text
starts here. -/
def matchesAt (first : Bool) : Pattern → List Char → Bool
  | [], _ => true
  | .literal _ :: _, [] => false
  | .literal character :: atoms, next :: rest =>
      next = character && matchesAt false atoms rest
  | .textStart :: atoms, text => first && matchesAt first atoms text
  | .textEnd :: atoms, text => text.isEmpty && matchesAt first atoms text

/-- The pattern matches from some position on. -/
def search (first : Bool) (pattern : Pattern) : List Char → Bool
  | [] => matchesAt first pattern []
  | next :: rest =>
      matchesAt first pattern (next :: rest) || search false pattern rest

/-- `regexp.MatchString`, for patterns of literals and anchors. -/
def matchString (pattern text : String) : Bool :=
  (parse pattern.toList).any fun pattern => search true pattern text.toList

/-- A backslash before every operator. -/
def escape (word : List Char) : List Char :=
  word.flatMap fun character =>
    if isOperator character then ['\\', character] else [character]

/-! ## A word at the end of a text -/

/-- The pattern of a word that ends the text. -/
def ending (word : List Char) : Pattern :=
  word.map Atom.literal ++ [.textEnd]

theorem parse_literal {character : Char} {rest : List Char}
    (hplain : isOperator character = false) :
    parse (character :: rest) = (parse rest).map (.literal character :: ·) := by
  have hmark {mark : Char} (hoperator : isOperator mark) :
      character ≠ mark := by
    rintro rfl
    rw [hplain] at hoperator
    cases hoperator
  rw [parse, hplain, if_neg Bool.false_ne_true]
  · exact hmark rfl
  · exact hmark rfl
  · exact fun _ _ heq _ => hmark rfl heq

/-- An escaped word is read back as its literals. -/
theorem parse_escape (word : List Char) :
    parse (escape word ++ ['$']) = some (ending word) := by
  induction word with
  | nil => rfl
  | cons character word ih =>
      rw [escape, List.flatMap_cons, ← escape, List.append_assoc]
      cases hoperator : isOperator character with
      | true =>
          rw [if_pos rfl]
          change parse ('\\' :: character :: (escape word ++ ['$'])) = _
          rw [parse, if_pos hoperator, ih]
          rfl
      | false =>
          rw [if_neg Bool.false_ne_true, List.singleton_append,
            parse_literal hoperator, ih]
          rfl

theorem matchesAt_ending {first : Bool} {word text : List Char} :
    matchesAt first (ending word) text ↔ text = word := by
  induction word generalizing first text with
  | nil => cases text <;> simp [ending, matchesAt]
  | cons character word ih =>
      cases text with
      | nil => simp [ending, matchesAt]
      | cons next rest =>
          change (decide (next = character) &&
            matchesAt false (ending word) rest) = true ↔ _
          rw [Bool.and_eq_true, decide_eq_true_eq, ih, List.cons.injEq]

theorem search_ending {first : Bool} {word text : List Char} :
    search first (ending word) text ↔ word <:+ text := by
  induction text generalizing first with
  | nil => rw [search, matchesAt_ending, List.suffix_nil, eq_comm]
  | cons next rest ih =>
      rw [search, Bool.or_eq_true, matchesAt_ending, ih, List.suffix_cons_iff,
        eq_comm]

/-- An escaped word with only its end anchored matches every text that ends in
it. -/
theorem matchString_escape {word text : String} :
    matchString (String.ofList (escape word.toList) ++ "$") text ↔
      word.toList <:+ text.toList := by
  rw [matchString, String.toList_append, String.toList_ofList]
  change (parse (escape word.toList ++ ['$'])).any _ = true ↔ _
  rw [parse_escape, Option.any_some, search_ending]

end Mandala.Search
