import Mathlib.Data.List.Induction
import Mathlib.Logic.Function.Basic

/-!
# What a stream of openings and closings leaves open

Activities announce themselves under a key when they begin, and once more when
they end.  Where no key is used twice, whoever follows the announcements knows
which activities are going on, even when some announcements were lost.
-/

namespace Mandala.Brackets

inductive Mark (Key Entry : Type*) where
  | opened (key : Key) (entry : Entry)
  | closed (key : Key)

variable {Key Entry : Type*}

def Mark.key : Mark Key Entry → Key
  | .opened key _ => key
  | .closed key => key

def Mark.opens : Mark Key Entry → Prop
  | .opened .. => True
  | .closed _ => False

/-- No mark of a key stands before an opening of it. -/
def Fresh (marks : List (Mark Key Entry)) : Prop :=
  marks.Pairwise fun earlier later => later.opens → earlier.key ≠ later.key

theorem Fresh.nil : Fresh ([] : List (Mark Key Entry)) := List.Pairwise.nil

/-- Losing marks does no harm. -/
theorem Fresh.sublist {marks fewer : List (Mark Key Entry)} (hfresh : Fresh marks)
    (hfewer : fewer.Sublist marks) : Fresh fewer :=
  List.Pairwise.sublist hfewer hfresh

theorem fresh_snoc_iff {marks : List (Mark Key Entry)} {mark : Mark Key Entry} :
    Fresh (marks ++ [mark]) ↔
      Fresh marks ∧ ∀ earlier ∈ marks, mark.opens → earlier.key ≠ mark.key := by
  simp [Fresh, List.pairwise_append]

/-! ## Following the marks -/

section Follow
variable [DecidableEq Key]

/-- The table of what is open, one mark later. -/
def track (table : Key → Option Entry) : Mark Key Entry → Key → Option Entry
  | .opened key entry => Function.update table key (some entry)
  | .closed key => Function.update table key none

/-- What is open after the marks. -/
def openAfter (marks : List (Mark Key Entry)) : Key → Option Entry :=
  marks.foldl track fun _ => none

@[simp]
theorem openAfter_nil (key : Key) :
    openAfter ([] : List (Mark Key Entry)) key = none := rfl

theorem openAfter_snoc (marks : List (Mark Key Entry)) (mark : Mark Key Entry) :
    openAfter (marks ++ [mark]) = track (openAfter marks) mark := by
  rw [openAfter, List.foldl_append]
  rfl

/-- Under fresh keys, open is what was opened and has not been closed. -/
theorem openAfter_eq_some_iff {marks : List (Mark Key Entry)}
    (hfresh : Fresh marks) {key : Key} {entry : Entry} :
    openAfter marks key = some entry ↔
      .opened key entry ∈ marks ∧ .closed key ∉ marks := by
  induction marks using List.reverseRecOn with
  | nil => simp
  | append_singleton marks mark ih =>
      obtain ⟨hbefore, hnew⟩ := fresh_snoc_iff.mp hfresh
      rw [openAfter_snoc, List.mem_append, List.mem_append, List.mem_singleton,
        List.mem_singleton]
      cases mark with
      | opened other found =>
          by_cases hsame : key = other
          · subst hsame
            have hclosed : Mark.closed key ∉ marks := fun hmem =>
              hnew _ hmem trivial rfl
            have hopened : Mark.opened key entry ∉ marks := fun hmem =>
              hnew _ hmem trivial rfl
            simp [track, hclosed, hopened, eq_comm]
          · rw [track, Function.update_of_ne hsame, ih hbefore]
            simp [hsame]
      | closed other =>
          by_cases hsame : key = other
          · subst hsame
            simp [track]
          · rw [track, Function.update_of_ne hsame, ih hbefore]
            simp [hsame]

end Follow

end Mandala.Brackets
