import Mathlib.Algebra.Ring.Parity
import Mandala.Data.Json

/-!
# The selection of a table

Rows are selected one by one or by a range that follows the cursor.  What is
selected is told from the history alone: the rows toggled since the selection
was last cleared, and the range of the last extension, unless a toggle dropped
it.
-/

namespace Mandala.Explorer

open Mandala.Data

structure SelectTable where
  names : List String
  /-- The toggled rows and those of the range. -/
  selected : BTreeSet
  /-- Rows toggled one by one. -/
  sticky : BTreeSet
  anchor : Option ℕ
  cursor : ℕ

def usizeMax : ℕ := 18446744073709551615

/-- `usize::saturating_add_signed`. -/
def saturatingAddSigned (value : ℕ) (delta : Int) : ℕ :=
  min ((value : Int) + delta).toNat usizeMax

/-- `names[low..=high]`. -/
def rowsBetween (names : List String) (low high : ℕ) : List String :=
  (names.drop low).take (high + 1 - low)

namespace SelectTable

/-- `SelectTable::default`. -/
def empty : SelectTable :=
  { names := [], selected := ∅, sticky := ∅, anchor := none, cursor := 0 }

/-- `reset_rows`: nothing of the table before is left. -/
def resetRows (names : List String) : SelectTable :=
  { names, selected := ∅, sticky := ∅, anchor := none, cursor := 0 }

variable (table : SelectTable)

def cursorName : Option String :=
  if table.names = [] then none
  else table.names[min table.cursor (table.names.length - 1)]?

/-- Selected names in the order of the table. -/
def selectedNames : List String :=
  table.names.filter table.selected.contains

def isSelected (name : String) : Bool := table.selected.contains name

/-- The cursor moved by `delta`, inside the table. -/
def clamped (delta : Int) : ℕ :=
  min (saturatingAddSigned table.cursor delta) (table.names.length - 1)

/-- A toggle drops the range. -/
def toggle : SelectTable :=
  match table.cursorName with
  | none => table
  | some name =>
      let sticky :=
        if table.sticky.contains name then table.sticky.erase name
        else table.sticky.insert name
      { table with sticky, anchor := some table.cursor, selected := sticky }

/-- Every extension replaces the range of the one before. -/
def extend (delta : Int) : SelectTable :=
  if table.names = [] then table
  else
    let anchor := table.anchor.getD table.cursor
    let row := table.clamped delta
    let range :=
      if anchor ≤ row then rowsBetween table.names anchor row
      else rowsBetween table.names row anchor
    { table with
      anchor := some anchor
      cursor := row
      selected := table.sticky.insertMany range }

def skip (delta : Int) : SelectTable :=
  if table.names = [] then table
  else { table with cursor := table.clamped delta }

def clearSelection : SelectTable :=
  { table with sticky := ∅, anchor := none, selected := ∅ }

/-- `move_cursor`, with whether the cursor moved. -/
def moveCursor (delta : Int) : SelectTable × Bool :=
  if table.names = [] then (table, false)
  else
    let next := table.clamped delta
    ({ table with cursor := next }, next ≠ table.cursor)

end SelectTable

/-! ## The history of a table -/

/-- What happened to a selection. -/
inductive Happened where
  | toggled (row : ℕ)
  /-- The range was extended: where the cursor was, and where it moved to. -/
  | extended (start stop : ℕ)
  | cleared
  deriving DecidableEq, Repr

/-- Events since the table was filled, the newest first. -/
abbrev History := List Happened

/-- How often a row was toggled since the last clear. -/
def toggleCount (names : List String) (name : String) : History → ℕ
  | [] => 0
  | .cleared :: _ => 0
  | .extended _ _ :: past => toggleCount names name past
  | .toggled row :: past =>
      toggleCount names name past + if names[row]? = some name then 1 else 0

/-- Where the last toggle since a clear was, else where the first extension
started from. -/
def anchorOf : History → Option ℕ
  | [] => none
  | .cleared :: _ => none
  | .toggled row :: _ => some row
  | .extended start _ :: past => some ((anchorOf past).getD start)

/-- The range of the last extension, if nothing was toggled or cleared after. -/
def liveRange : History → Option (ℕ × ℕ)
  | .extended start stop :: past => some ((anchorOf past).getD start, stop)
  | _ => none

/-- The row of a name lies between both ends, in whichever order they are. -/
def InRange (names : List String) (range : ℕ × ℕ) (name : String) : Prop :=
  ∃ row, min range.1 range.2 ≤ row ∧ row ≤ max range.1 range.2 ∧
    names[row]? = some name

/-- The rows a history selects. -/
def Applied (names : List String) (past : History) (name : String) : Prop :=
  Odd (toggleCount names name past) ∨
    ∃ range, liveRange past = some range ∧ InRange names range name

inductive TableOp where
  | toggle
  | extend (delta : Int)
  | skip (delta : Int)
  | moveCursor (delta : Int)
  | clearSelection
  deriving DecidableEq, Repr

namespace TableOp

def apply (table : SelectTable) : TableOp → SelectTable
  | toggle => table.toggle
  | extend delta => table.extend delta
  | skip delta => table.skip delta
  | moveCursor delta => (table.moveCursor delta).1
  | clearSelection => table.clearSelection

/-- What an operation adds to the history: nothing happens on an empty table. -/
def record (table : SelectTable) (past : History) : TableOp → History
  | toggle => if table.names = [] then past else .toggled table.cursor :: past
  | extend delta =>
      if table.names = [] then past
      else .extended table.cursor (table.clamped delta) :: past
  | skip _ | moveCursor _ => past
  | clearSelection => .cleared :: past

end TableOp

/-- A table shows what its history selects. -/
structure Shows (past : History) (table : SelectTable) : Prop where
  cursor : table.names ≠ [] → table.cursor < table.names.length
  anchor : table.anchor = anchorOf past
  anchored : ∀ row, table.anchor = some row → row < table.names.length
  sticky : ∀ name, name ∈ table.sticky ↔ Odd (toggleCount table.names name past)
  selected : ∀ name, name ∈ table.selected ↔ Applied table.names past name

/-! ## Rows of a range -/

theorem mem_rowsBetween_iff {names : List String} {low high : ℕ} {name : String} :
    name ∈ rowsBetween names low high ↔
      ∃ row, low ≤ row ∧ row ≤ high ∧ names[row]? = some name := by
  rw [rowsBetween, List.mem_iff_getElem?]
  constructor
  · rintro ⟨index, hindex⟩
    rw [List.getElem?_take] at hindex
    split at hindex
    · next hlt =>
        rw [List.getElem?_drop] at hindex
        exact ⟨low + index, by omega, by omega, hindex⟩
    · cases hindex
  · rintro ⟨row, hlow, hhigh, hname⟩
    refine ⟨row - low, ?_⟩
    rw [List.getElem?_take, if_pos (by omega), List.getElem?_drop,
      Nat.add_sub_cancel' hlow]
    exact hname

/-- The rows of a range do not depend on which end is the anchor. -/
theorem mem_range_iff {names : List String} {anchor row : ℕ} {name : String} :
    name ∈ (if anchor ≤ row then rowsBetween names anchor row
      else rowsBetween names row anchor) ↔ InRange names (anchor, row) name := by
  split
  · next hle =>
      rw [mem_rowsBetween_iff, InRange, min_eq_left hle, max_eq_right hle]
  · next hlt =>
      have hle : row ≤ anchor := le_of_not_ge hlt
      rw [mem_rowsBetween_iff, InRange, min_eq_right hle, max_eq_left hle]

/-! ## What a table shows -/

namespace SelectTable

variable {table : SelectTable}

theorem clamped_lt (hrows : table.names ≠ []) (delta : Int) :
    table.clamped delta < table.names.length := by
  have hpos : 0 < table.names.length := List.length_pos_iff.mpr hrows
  rw [clamped]
  omega

theorem cursorName_eq (hrows : table.names ≠ [])
    (hcursor : table.cursor < table.names.length) :
    table.cursorName = table.names[table.cursor]? := by
  rw [cursorName, if_neg hrows, min_eq_left (by omega)]

theorem cursorName_of_nil (hrows : table.names = []) : table.cursorName = none := by
  rw [cursorName, if_pos hrows]

@[simp]
theorem names_toggle : table.toggle.names = table.names := by
  rw [toggle]
  split <;> rfl

@[simp]
theorem names_extend (delta : Int) : (table.extend delta).names = table.names := by
  rw [extend]
  split <;> rfl

@[simp]
theorem names_skip (delta : Int) : (table.skip delta).names = table.names := by
  rw [skip]
  split <;> rfl

@[simp]
theorem names_moveCursor (delta : Int) :
    (table.moveCursor delta).1.names = table.names := by
  rw [moveCursor]
  split <;> rfl

/-- No operation adds or drops a row. -/
@[simp]
theorem names_apply (operation : TableOp) :
    (operation.apply table).names = table.names := by
  cases operation with
  | toggle => exact names_toggle
  | extend delta => exact names_extend delta
  | skip delta => exact names_skip delta
  | moveCursor delta => exact names_moveCursor delta
  | clearSelection => rfl

end SelectTable

variable {past : History} {table : SelectTable}

theorem shows_resetRows (names : List String) :
    Shows [] (SelectTable.resetRows names) where
  cursor hrows := List.length_pos_iff.mpr hrows
  anchor := rfl
  anchored row hrow := by cases hrow
  sticky name := by simp [SelectTable.resetRows, toggleCount]
  selected name := by simp [SelectTable.resetRows, Applied, toggleCount, liveRange]

/-- Moving the cursor inside the table leaves everything else as it is. -/
theorem Shows.moved (hshows : Shows past table) {row : ℕ}
    (hrow : table.names ≠ [] → row < table.names.length) :
    Shows past { table with cursor := row } :=
  ⟨hrow, hshows.anchor, hshows.anchored, hshows.sticky, hshows.selected⟩

theorem Shows.cleared (hshows : Shows past table) :
    Shows (.cleared :: past) table.clearSelection where
  cursor := hshows.cursor
  anchor := rfl
  anchored row hrow := by cases hrow
  sticky name := by simp [SelectTable.clearSelection, toggleCount]
  selected name := by
    simp [SelectTable.clearSelection, Applied, toggleCount, liveRange]

/-- A toggle changes the row of the cursor, and only that one. -/
theorem mem_toggle_iff {sticky : BTreeSet} {row name : String} :
    name ∈ (if sticky.contains row then sticky.erase row else sticky.insert row) ↔
      if row = name then name ∉ sticky else name ∈ sticky := by
  by_cases hname : row = name
  · subst hname
    by_cases hrow : row ∈ sticky
    · simp [hrow]
    · simp [hrow]
  · by_cases hrow : row ∈ sticky
    · simp [hrow, hname]
    · simp [hrow, hname]

theorem Shows.toggled (hshows : Shows past table) (hrows : table.names ≠ []) :
    Shows (.toggled table.cursor :: past) table.toggle := by
  have hcursor := hshows.cursor hrows
  obtain ⟨row, hrow⟩ : ∃ row, table.names[table.cursor]? = some row :=
    ⟨_, List.getElem?_eq_getElem hcursor⟩
  have hname : table.cursorName = some row := by
    rw [SelectTable.cursorName_eq hrows hcursor, hrow]
  have hsticky (name : String) :
      name ∈ (if table.sticky.contains row then table.sticky.erase row
          else table.sticky.insert row) ↔
        Odd (toggleCount table.names name (.toggled table.cursor :: past)) := by
    rw [mem_toggle_iff, toggleCount, hrow]
    by_cases hsame : row = name
    · subst hsame
      rw [if_pos rfl, if_pos rfl, hshows.sticky, Nat.odd_add_one]
    · rw [if_neg hsame, if_neg fun heq => hsame (Option.some.inj heq), add_zero,
        hshows.sticky]
  rw [SelectTable.toggle, hname]
  exact
    { cursor := hshows.cursor
      anchor := rfl
      anchored := fun anchor hanchor => Option.some.inj hanchor ▸ hcursor
      sticky := hsticky
      selected := fun name => (hsticky name).trans (by simp [Applied, liveRange]) }

theorem Shows.extended (hshows : Shows past table) (hrows : table.names ≠ [])
    (delta : Int) :
    Shows (.extended table.cursor (table.clamped delta) :: past)
      (table.extend delta) := by
  have hrow := SelectTable.clamped_lt hrows delta
  rw [SelectTable.extend, if_neg hrows]
  constructor
  · exact fun _ => hrow
  · rw [anchorOf, ← hshows.anchor]
  · intro anchor hanchor
    cases hanchor
    cases hold : table.anchor with
    | none => exact hshows.cursor hrows
    | some anchor => exact hshows.anchored anchor hold
  · exact hshows.sticky
  · intro name
    dsimp only
    rw [Std.TreeSet.mem_insertMany_list, List.contains_iff_mem, mem_range_iff,
      hshows.sticky, hshows.anchor, Applied, liveRange]
    simp [toggleCount]

/-- Every operation keeps what a table shows in step with its history. -/
theorem Shows.apply (hshows : Shows past table) (operation : TableOp) :
    Shows (operation.record table past) (operation.apply table) := by
  cases operation with
  | toggle =>
      by_cases hrows : table.names = []
      · rw [TableOp.record, if_pos hrows, TableOp.apply, SelectTable.toggle,
          SelectTable.cursorName_of_nil hrows]
        exact hshows
      · rw [TableOp.record, if_neg hrows]
        exact hshows.toggled hrows
  | extend delta =>
      by_cases hrows : table.names = []
      · rw [TableOp.record, if_pos hrows, TableOp.apply, SelectTable.extend,
          if_pos hrows]
        exact hshows
      · rw [TableOp.record, if_neg hrows]
        exact hshows.extended hrows delta
  | skip delta =>
      rw [TableOp.record, TableOp.apply, SelectTable.skip]
      split
      · exact hshows
      · next hrows =>
          exact hshows.moved fun _ => SelectTable.clamped_lt hrows delta
  | moveCursor delta =>
      rw [TableOp.record, TableOp.apply, SelectTable.moveCursor]
      split
      · exact hshows
      · next hrows =>
          exact hshows.moved fun _ => SelectTable.clamped_lt hrows delta
  | clearSelection => exact hshows.cleared

/-! ## The selected rows -/

theorem exists_row_of_toggled {names : List String} {name : String}
    (hcount : Odd (toggleCount names name past)) :
    ∃ row : ℕ, names[row]? = some name := by
  induction past with
  | nil => cases Nat.not_odd_zero hcount
  | cons event past ih =>
      cases event with
      | cleared => cases Nat.not_odd_zero hcount
      | extended start stop => exact ih hcount
      | toggled row =>
          by_cases hrow : names[row]? = some name
          · exact ⟨row, hrow⟩
          · rw [toggleCount, if_neg hrow] at hcount
            exact ih hcount

/-- Only rows of the table are selected. -/
theorem Applied.mem {names : List String} {name : String}
    (happlied : Applied names past name) : name ∈ names := by
  rcases happlied with hcount | ⟨range, -, row, -, -, hrow⟩
  · obtain ⟨row, hrow⟩ := exists_row_of_toggled hcount
    exact List.mem_of_getElem? hrow
  · exact List.mem_of_getElem? hrow

theorem Shows.mem_selectedNames_iff (hshows : Shows past table) {name : String} :
    name ∈ table.selectedNames ↔ Applied table.names past name := by
  rw [SelectTable.selectedNames, List.mem_filter, Std.TreeSet.contains_iff_mem,
    hshows.selected]
  exact and_iff_right_of_imp Applied.mem

end Mandala.Explorer
