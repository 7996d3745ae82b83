import Mandala.Core.Text
import Mathlib.Data.List.Perm.Basic
import Mathlib.Logic.Relation

/-!
# Lists written with separators

A list of names is written with separators between them and blanks around them.
What the text lists are its trimmed, non-empty pieces.  Reordering the pieces,
writing another separator, or adding a blank or an empty piece changes at most
the order in which they are listed.
-/

namespace Mandala.Text

variable {isSeparator : Char → Bool}

/-- The trimmed pieces between the separators, without the empty ones. -/
def pieces (isSeparator : Char → Bool) (text : List Char) : List (List Char) :=
  ((text.splitOnP isSeparator).map trim).filter (· ≠ [])

/-- A place where a piece begins: the start of the text, or after a
separator. -/
def EndsPiece (isSeparator : Char → Bool) (before : List Char) : Prop :=
  ∀ last ∈ before.getLast?, isSeparator last

/-- A place where a piece ends: the end of the text, or before a separator. -/
def StartsPiece (isSeparator : Char → Bool) (after : List Char) : Prop :=
  ∀ first ∈ after.head?, isSeparator first

/-- The ways to write the same list differently. -/
inductive Rewritten (isSeparator : Char → Bool) :
    List Char → List Char → Prop
  /-- The pieces come in another order. -/
  | permute {separator : Char} (hseparator : isSeparator separator)
      {left right : List (List Char)}
      (hpieces : ∀ piece ∈ left, ∀ character ∈ piece,
        isSeparator character = false) (hperm : left.Perm right) :
      Rewritten isSeparator ([separator].intercalate left)
        ([separator].intercalate right)
  /-- A separator is replaced by another. -/
  | separator {old new : Char} (hold : isSeparator old)
      (hnew : isSeparator new) (before after : List Char) :
      Rewritten isSeparator (before ++ old :: after) (before ++ new :: after)
  /-- A blank is added where a piece begins or ends. -/
  | blank {space : Char} (hspace : isWhiteSpace space) {before after : List Char}
      (hplace : EndsPiece isSeparator before ∨ StartsPiece isSeparator after) :
      Rewritten isSeparator (before ++ after) (before ++ space :: after)
  /-- An empty piece is added. -/
  | empty {separator : Char} (hseparator : isSeparator separator)
      {before after : List Char}
      (hplace : EndsPiece isSeparator before ∨ StartsPiece isSeparator after) :
      Rewritten isSeparator (before ++ after) (before ++ separator :: after)

/-! ## Trimming -/

theorem trim_cons {space : Char} (hspace : isWhiteSpace space)
    (text : List Char) : trim (space :: text) = trim text := by
  rw [trim, List.dropWhile_cons_of_pos hspace]
  rfl

theorem trim_concat {space : Char} (hspace : isWhiteSpace space)
    (text : List Char) : trim (text ++ [space]) = trim text := by
  rw [trim, List.dropWhile_append]
  split
  · next hblank =>
      rw [trim, List.isEmpty_iff.mp hblank,
        List.dropWhile_cons_of_pos hspace]
      rfl
  · rw [List.reverse_append, List.reverse_singleton, List.singleton_append,
      List.dropWhile_cons_of_pos hspace]
    rfl

/-! ## The pieces of a text -/

theorem pieces_append_cons {separator : Char}
    (hseparator : isSeparator separator) (before after : List Char) :
    pieces isSeparator (before ++ separator :: after) =
      pieces isSeparator before ++ pieces isSeparator after := by
  rw [pieces, List.splitOnP_append_cons _ _ hseparator, List.map_append,
    List.filter_append]
  rfl

theorem pieces_nil : pieces isSeparator [] = [] := rfl

/-- The pieces on both sides of a place where one begins or ends. -/
theorem pieces_append {before after : List Char}
    (hplace : EndsPiece isSeparator before ∨ StartsPiece isSeparator after) :
    pieces isSeparator (before ++ after) =
      pieces isSeparator before ++ pieces isSeparator after := by
  rcases hplace with hends | hstarts
  · rcases List.eq_nil_or_concat before with rfl | ⟨start, last, rfl⟩
    · rfl
    · rw [List.concat_eq_append] at hends ⊢
      have hlast : isSeparator last := hends last (by simp)
      rw [List.append_assoc, List.singleton_append,
        pieces_append_cons hlast, pieces_append_cons hlast, pieces_nil,
        List.append_nil]
  · cases after with
    | nil => rw [pieces_nil, List.append_nil, List.append_nil]
    | cons first rest =>
        have hfirst : isSeparator first := hstarts first rfl
        rw [pieces_append_cons hfirst, ← List.nil_append (first :: rest),
          pieces_append_cons hfirst, pieces_nil, List.nil_append]

theorem pieces_of_single {text : List Char}
    (htext : ∀ character ∈ text, isSeparator character = false) :
    pieces isSeparator text = [trim text].filter (· ≠ []) := by
  rw [pieces, List.splitOnP_eq_singleton htext]
  rfl

/-- A blank at the end of a text belongs to its last piece. -/
theorem pieces_concat_space {space : Char} (hspace : isWhiteSpace space)
    (hother : isSeparator space = false) (text : List Char) :
    pieces isSeparator (text ++ [space]) = pieces isSeparator text := by
  by_cases hsplit : ∃ separator ∈ text, isSeparator separator
  · obtain ⟨separator, hmem, hseparator⟩ := hsplit
    obtain ⟨before, after, htext⟩ := List.append_of_mem hmem
    have hshorter : after.length < text.length := by
      rw [htext, List.length_append, List.length_cons]
      omega
    rw [htext, List.append_assoc, List.cons_append,
      pieces_append_cons hseparator, pieces_append_cons hseparator,
      pieces_concat_space hspace hother after]
  · have hsingle (character : Char) (hmem : character ∈ text) :
        isSeparator character = false := by
      rw [← Bool.not_eq_true]
      exact fun hseparator => hsplit ⟨character, hmem, hseparator⟩
    have hlonger : ∀ character ∈ text ++ [space],
        isSeparator character = false := by
      intro character hmem
      rcases List.mem_append.mp hmem with hmem | hmem
      · exact hsingle character hmem
      · exact List.mem_singleton.mp hmem ▸ hother
    rw [pieces_of_single hsingle, pieces_of_single hlonger,
      trim_concat hspace]
termination_by text.length

/-- A blank at the start of a text belongs to its first piece. -/
theorem pieces_cons_space {space : Char} (hspace : isWhiteSpace space)
    (hother : isSeparator space = false) (text : List Char) :
    pieces isSeparator (space :: text) = pieces isSeparator text := by
  rw [pieces, List.splitOnP_cons_eq_if_modifyHead, hother]
  cases hpieces : text.splitOnP isSeparator with
  | nil => exact absurd hpieces (List.splitOnP_ne_nil isSeparator text)
  | cons first rest =>
      rw [pieces, hpieces]
      simp [trim_cons hspace]

theorem pieces_intercalate {separator : Char}
    (hseparator : isSeparator separator) {parts : List (List Char)}
    (hparts : ∀ part ∈ parts, ∀ character ∈ part,
      isSeparator character = false) :
    pieces isSeparator ([separator].intercalate parts) =
      (parts.map trim).filter (· ≠ []) := by
  by_cases hnil : parts = []
  · rw [hnil]
    rfl
  · rw [pieces, splitOnP_intercalate hseparator hparts hnil]

/-- However a list is rewritten, it lists the same pieces. -/
theorem perm_pieces_of_rewritten
    (hblank : ∀ space, isWhiteSpace space → isSeparator space = false)
    {left right : List Char} (hrewritten : Rewritten isSeparator left right) :
    (pieces isSeparator left).Perm (pieces isSeparator right) := by
  cases hrewritten with
  | permute hseparator hpieces hperm =>
      rw [pieces_intercalate hseparator hpieces,
        pieces_intercalate hseparator fun piece hmem =>
          hpieces piece (hperm.mem_iff.mpr hmem)]
      exact (hperm.map trim).filter _
  | separator hold hnew before after =>
      rw [pieces_append_cons hold, pieces_append_cons hnew]
  | @blank space hspace before after hplace =>
      rw [pieces_append hplace]
      rcases hplace with hends | hstarts
      · rw [pieces_append (.inl hends),
          pieces_cons_space hspace (hblank space hspace)]
      · rw [List.append_cons, pieces_append (.inr hstarts),
          pieces_concat_space hspace (hblank space hspace)]
  | empty hseparator hplace =>
      rw [pieces_append hplace, pieces_append_cons hseparator]

theorem perm_pieces_of_eqvGen
    (hblank : ∀ space, isWhiteSpace space → isSeparator space = false)
    {left right : List Char}
    (hrewritten : Relation.EqvGen (Rewritten isSeparator) left right) :
    (pieces isSeparator left).Perm (pieces isSeparator right) := by
  induction hrewritten with
  | rel left right hstep => exact perm_pieces_of_rewritten hblank hstep
  | refl text => exact .refl _
  | symm left right _ ih => exact ih.symm
  | trans left middle right _ _ ihleft ihright => exact ihleft.trans ihright

end Mandala.Text
