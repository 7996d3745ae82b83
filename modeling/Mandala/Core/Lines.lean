import Mathlib.Data.List.Basic

/-!
# Newline-terminated lines of a growing file

A reader of an append-only file consumes whole lines and leaves an unfinished
last line for later.  What it can consume of a longer file extends what it
could consume before, and the bytes consumed always end at a line boundary.
-/

namespace Mandala.Lines

variable {Symbol : Type*} [DecidableEq Symbol]

/-- The first line of `content`, without its newline, and what follows it. -/
def nextLine (newline : Symbol) :
    List Symbol → Option (List Symbol × List Symbol)
  | [] => none
  | symbol :: rest =>
      if symbol = newline then some ([], rest)
      else (nextLine newline rest).map fun found => (symbol :: found.1, found.2)

theorem nextLine_eq_none_iff {newline : Symbol} {content : List Symbol} :
    nextLine newline content = none ↔ newline ∉ content := by
  induction content with
  | nil => simp [nextLine]
  | cons symbol rest ih =>
      by_cases hsymbol : symbol = newline
      · simp [nextLine, hsymbol]
      · simp [nextLine, hsymbol, ih, Ne.symm hsymbol]

theorem nextLine_append_newline {newline : Symbol} {line : List Symbol}
    (hline : newline ∉ line) (rest : List Symbol) :
    nextLine newline (line ++ newline :: rest) = some (line, rest) := by
  induction line with
  | nil => simp [nextLine]
  | cons symbol line ih =>
      rw [List.mem_cons, not_or] at hline
      simp [nextLine, Ne.symm hline.1, ih hline.2]

theorem nextLine_eq_some_iff {newline : Symbol}
    {content line rest : List Symbol} :
    nextLine newline content = some (line, rest) ↔
      content = line ++ newline :: rest ∧ newline ∉ line := by
  constructor
  · induction content generalizing line with
    | nil => simp [nextLine]
    | cons symbol tail ih =>
        by_cases hsymbol : symbol = newline
        · subst hsymbol
          simp only [nextLine, ↓reduceIte, Option.some.injEq, Prod.mk.injEq]
          rintro ⟨rfl, rfl⟩
          simp
        · simp only [nextLine, hsymbol, ↓reduceIte, Option.map_eq_some_iff]
          rintro ⟨⟨head, after⟩, hfound, hpair⟩
          obtain ⟨rfl, rfl⟩ := Prod.mk.injEq .. ▸ hpair
          obtain ⟨rfl, hhead⟩ := ih hfound
          exact ⟨rfl, by simp [hhead, Ne.symm hsymbol]⟩
  · rintro ⟨rfl, hline⟩
    exact nextLine_append_newline hline rest

theorem nextLine_length_lt {newline : Symbol}
    {content line rest : List Symbol}
    (hnext : nextLine newline content = some (line, rest)) :
    rest.length < content.length := by
  obtain ⟨rfl, -⟩ := nextLine_eq_some_iff.mp hnext
  simp only [List.length_append, List.length_cons]
  omega

/-- The newline-terminated lines of `content`, in order. -/
def completeLines (newline : Symbol) (content : List Symbol) :
    List (List Symbol) :=
  match _hnext : nextLine newline content with
  | none => []
  | some (line, rest) => line :: completeLines newline rest
termination_by content.length
decreasing_by exact nextLine_length_lt _hnext

/-- Lay lines out again, each with its newline. -/
def joinLines (newline : Symbol) (lines : List (List Symbol)) : List Symbol :=
  lines.flatMap fun line => line ++ [newline]

omit [DecidableEq Symbol] in
@[simp]
theorem joinLines_nil (newline : Symbol) : joinLines newline [] = [] := rfl

omit [DecidableEq Symbol] in
@[simp]
theorem joinLines_cons (newline : Symbol) (line : List Symbol)
    (lines : List (List Symbol)) :
    joinLines newline (line :: lines) =
      line ++ newline :: joinLines newline lines := by
  simp [joinLines]

omit [DecidableEq Symbol] in
theorem joinLines_append (newline : Symbol) (left right : List (List Symbol)) :
    joinLines newline (left ++ right) =
      joinLines newline left ++ joinLines newline right := by
  simp [joinLines]

theorem completeLines_of_not_mem {newline : Symbol} {content : List Symbol}
    (hcontent : newline ∉ content) : completeLines newline content = [] := by
  rw [completeLines]
  split
  · rfl
  · next hnext =>
      rw [nextLine_eq_none_iff.mpr hcontent] at hnext
      cases hnext

theorem completeLines_line_append {newline : Symbol} {line : List Symbol}
    (hline : newline ∉ line) (rest : List Symbol) :
    completeLines newline (line ++ newline :: rest) =
      line :: completeLines newline rest := by
  rw [completeLines]
  split
  · next hnext =>
      rw [nextLine_append_newline hline] at hnext
      cases hnext
  · next found after hnext =>
      rw [nextLine_append_newline hline] at hnext
      cases hnext
      rfl

/-- Whole lines in front of any content come out unchanged. -/
theorem completeLines_joinLines_append {newline : Symbol}
    {lines : List (List Symbol)} (hlines : ∀ line ∈ lines, newline ∉ line)
    (rest : List Symbol) :
    completeLines newline (joinLines newline lines ++ rest) =
      lines ++ completeLines newline rest := by
  induction lines with
  | nil => rfl
  | cons line lines ih =>
      rw [joinLines_cons, List.append_assoc, List.cons_append,
        completeLines_line_append (hlines line (by simp)),
        ih fun other hmem => hlines other (by simp [hmem])]
      rfl

theorem newline_notMem_of_mem_completeLines {newline : Symbol}
    {content line : List Symbol}
    (hmem : line ∈ completeLines newline content) : newline ∉ line := by
  induction content using completeLines.induct newline with
  | case1 content hnone =>
      rw [completeLines_of_not_mem (nextLine_eq_none_iff.mp hnone)] at hmem
      cases hmem
  | case2 content first rest hnext ih =>
      obtain ⟨rfl, hfirst⟩ := nextLine_eq_some_iff.mp hnext
      rw [completeLines_line_append hfirst] at hmem
      rcases List.mem_cons.mp hmem with rfl | hmem
      · exact hfirst
      · exact ih hmem

/-- Every file is its complete lines followed by an unfinished one. -/
theorem exists_unfinished_tail (newline : Symbol) (content : List Symbol) :
    ∃ tail, content = joinLines newline (completeLines newline content) ++ tail ∧
      newline ∉ tail := by
  induction content using completeLines.induct newline with
  | case1 content hnone =>
      have hcontent := nextLine_eq_none_iff.mp hnone
      exact ⟨content, by simp [completeLines_of_not_mem hcontent], hcontent⟩
  | case2 content line rest hnext ih =>
      obtain ⟨rfl, hline⟩ := nextLine_eq_some_iff.mp hnext
      obtain ⟨tail, hrest, htail⟩ := ih
      refine ⟨tail, ?_, htail⟩
      rw [completeLines_line_append hline, joinLines_cons, List.append_assoc,
        List.cons_append, ← hrest]

/-- Appending only adds lines after the ones already complete. -/
theorem completeLines_prefix_append (newline : Symbol)
    (content chunk : List Symbol) :
    completeLines newline content <+:
      completeLines newline (content ++ chunk) := by
  obtain ⟨tail, hcontent, -⟩ := exists_unfinished_tail newline content
  refine ⟨completeLines newline (tail ++ chunk), ?_⟩
  conv_rhs => rw [hcontent, List.append_assoc]
  exact (completeLines_joinLines_append
    (fun line hmem => newline_notMem_of_mem_completeLines hmem) _).symm

/-- A reader that has consumed some of the complete lines finds the others
behind the bytes it consumed. -/
theorem completeLines_drop_consumed {newline : Symbol}
    {content : List Symbol} {consumed rest : List (List Symbol)}
    (hlines : completeLines newline content = consumed ++ rest) :
    completeLines newline
        (content.drop (joinLines newline consumed).length) = rest := by
  obtain ⟨tail, hcontent, htail⟩ := exists_unfinished_tail newline content
  have hwhole : ∀ line ∈ rest, newline ∉ line := fun line hmem =>
    newline_notMem_of_mem_completeLines (by rw [hlines]; simp [hmem])
  have hdrop : content.drop (joinLines newline consumed).length =
      joinLines newline rest ++ tail := by
    conv_lhs => rw [hcontent, hlines, joinLines_append, List.append_assoc]
    exact List.drop_left
  rw [hdrop, completeLines_joinLines_append hwhole,
    completeLines_of_not_mem htail, List.append_nil]

end Mandala.Lines
