import Mathlib.Data.Nat.Notation
import Mathlib.Data.List.Basic

/-!
# Reading bytes from a position

A recursive reader walks over the bytes of an input, and stops at a position or
ends.  That it stops, and where, follows from what each of its steps leaves.
-/

namespace Mandala.Scan

/-- A position in the input and the bytes from there on. -/
structure Cursor where
  position : ℕ
  rest : List UInt8
  deriving DecidableEq, Repr

/-- Why a reader stops: at an offset, or because its recursion has used up the
fuel it was given. -/
inductive Halt where
  | refused (offset : ℕ) (message : String)
  | fuel
  deriving DecidableEq, Repr

namespace Cursor

def total (cursor : Cursor) : ℕ := cursor.position + cursor.rest.length

/-- The bytes up to the first that the test refuses. -/
def spanWhile (test : UInt8 → Bool) (cursor : Cursor) : List UInt8 × Cursor :=
  let taken := cursor.rest.takeWhile test
  (taken, ⟨cursor.position + taken.length, cursor.rest.dropWhile test⟩)

def refuse {A : Type} (cursor : Cursor) (message : String) :
    Except Halt (A × Cursor) :=
  .error (.refused cursor.position message)

/-- Reached from a cursor within one input, a number of bytes further on. -/
def Ahead (start : Cursor) (least : ℕ) (next : Cursor) : Prop :=
  next.total = start.total ∧ next.rest.length + least ≤ start.rest.length

theorem Ahead.trans {start middle next : Cursor} {first second : ℕ}
    (hfirst : start.Ahead first middle) (hsecond : middle.Ahead second next) :
    start.Ahead (first + second) next := by
  obtain ⟨htotal, hlength⟩ := hfirst
  obtain ⟨htotal', hlength'⟩ := hsecond
  exact ⟨htotal'.trans htotal, by omega⟩

theorem Ahead.mono {start next : Cursor} {least fewer : ℕ}
    (hahead : start.Ahead least next) (hfewer : fewer ≤ least) :
    start.Ahead fewer next :=
  ⟨hahead.1, Nat.le_trans (Nat.add_le_add_left hfewer _) hahead.2⟩

theorem ahead_spanWhile (test : UInt8 → Bool) (cursor : Cursor) :
    cursor.Ahead (cursor.spanWhile test).1.length (cursor.spanWhile test).2 := by
  have hlength : (cursor.rest.takeWhile test).length +
      (cursor.rest.dropWhile test).length = cursor.rest.length := by
    rw [← List.length_append, List.takeWhile_append_dropWhile]
  rw [spanWhile, Ahead, total, total]
  simp only
  omega

/-- What was taken is passed over, whatever follows. -/
theorem spanWhile_append {test : UInt8 → Bool} {taken : List UInt8}
    (htaken : ∀ byte ∈ taken, test byte) (position : ℕ) (rest : List UInt8) :
    spanWhile test ⟨position, taken ++ rest⟩ =
      (taken ++ (spanWhile test ⟨position + taken.length, rest⟩).1,
        (spanWhile test ⟨position + taken.length, rest⟩).2) := by
  rw [spanWhile, spanWhile]
  simp only [List.takeWhile_append_of_pos htaken, List.dropWhile_append_of_pos htaken,
    List.length_append, Nat.add_assoc]

end Cursor

open Cursor

/-- A reader that has stopped: having taken at least some bytes of its input, or
at an offset within it. -/
def Settles {A : Type} (start : Cursor) (least : ℕ) :
    Except Halt (A × Cursor) → Prop
  | .ok (_, next) => start.Ahead least next
  | .error (.refused offset _) => offset ≤ start.total
  | .error .fuel => False

variable {A B : Type} {start : Cursor} {least : ℕ}

theorem settles_refuse (message : String) :
    Settles start least (start.refuse message : Except Halt (A × Cursor)) :=
  Nat.le_add_right _ _

theorem Settles.of_ahead {next : Cursor} {passed : ℕ}
    (hahead : start.Ahead passed next) {read : Except Halt (A × Cursor)}
    (hsettles : Settles next least read) : Settles start (passed + least) read := by
  match read, hsettles with
  | .ok _, hsettles => exact hahead.trans hsettles
  | .error (.refused _ _), hsettles =>
      exact Nat.le_trans hsettles (Nat.le_of_eq hahead.1)

theorem Settles.mono {read : Except Halt (A × Cursor)}
    (hsettles : Settles start least read) {fewer : ℕ} (hfewer : fewer ≤ least) :
    Settles start fewer read := by
  match read, hsettles with
  | .ok _, hsettles => exact Ahead.mono hsettles hfewer
  | .error (.refused _ _), hsettles => exact hsettles

theorem Settles.bind {first : Except Halt (A × Cursor)}
    {rest : A × Cursor → Except Halt (B × Cursor)}
    (hfirst : Settles start least first) (more : ℕ)
    (hrest : ∀ value next, start.Ahead least next →
      Settles next more (rest (value, next))) :
    Settles start (least + more) (first >>= rest) := by
  match first, hfirst with
  | .ok (value, next), hahead => exact (hrest value next hahead).of_ahead hahead
  | .error (.refused _ _), hoffset => exact hoffset

theorem ok_bind (read : A × Cursor) (rest : A × Cursor → Except Halt B) :
    Except.ok read >>= rest = rest read := rfl

theorem Settles.map {first : Except Halt (A × Cursor)}
    (hfirst : Settles start least first) (change : A → B) :
    Settles start least (first >>= fun read => .ok (change read.1, read.2)) := by
  match first, hfirst with
  | .ok (value, next), hahead => exact hahead
  | .error (.refused _ _), hoffset => exact hoffset

end Mandala.Scan
