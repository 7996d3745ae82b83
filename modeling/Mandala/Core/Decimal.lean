import Mathlib.Tactic.Common
import Mathlib.Data.Nat.Notation

/-!
# Numerals read into a bounded number

A numeral is read digit by digit: scale what was read so far, add the digit.
With a bounded number the scaling may saturate and the addition may still
overflow.  It never does exactly when the numeral without its trailing zeros is
within the bound, and then the number read is the numeral's value cut off at
the bound.
-/

namespace Mandala.Decimal

variable (base : ℕ)

/-- The value of a numeral behind the digits of `start`. -/
def valueFrom (start : ℕ) (digits : List ℕ) : ℕ :=
  digits.foldl (fun number digit => number * base + digit) start

def value (digits : List ℕ) : ℕ := valueFrom base 0 digits

/-- A numeral without its trailing zeros. -/
def significant : List ℕ → List ℕ
  | [] => []
  | digit :: digits =>
      if digit = 0 ∧ significant digits = [] then []
      else digit :: significant digits

/-- Scale, saturating, and add a digit, wrapping around with a mark. -/
def pushDigit (bound : ℕ) (read : ℕ × Bool) (digit : ℕ) : ℕ × Bool :=
  let sum := min (read.1 * base) bound + digit
  (sum % (bound + 1), read.2 || decide (bound < sum))

@[simp]
theorem valueFrom_nil (start : ℕ) : valueFrom base start [] = start := rfl

@[simp]
theorem valueFrom_cons (start digit : ℕ) (digits : List ℕ) :
    valueFrom base start (digit :: digits) =
      valueFrom base (start * base + digit) digits := rfl

variable {base}

theorem le_valueFrom (hbase : 0 < base) (start : ℕ) (digits : List ℕ) :
    start ≤ valueFrom base start digits := by
  induction digits generalizing start with
  | nil => exact Nat.le_refl _
  | cons digit digits ih =>
      have hscaled : start ≤ start * base := Nat.le_mul_of_pos_right start hbase
      rw [valueFrom_cons]
      exact Nat.le_trans (Nat.le_add_right_of_le hscaled) (ih _)

/-- A numeral that ends in no zero exceeds what stands before it. -/
theorem lt_valueFrom_significant (hbase : 0 < base) (start : ℕ)
    {digits : List ℕ} (hsome : significant digits ≠ []) :
    start < valueFrom base start (significant digits) := by
  induction digits generalizing start with
  | nil => exact absurd rfl hsome
  | cons digit digits ih =>
      rw [significant] at hsome ⊢
      split at hsome
      · exact absurd rfl hsome
      · next hkept =>
          rw [if_neg hkept, valueFrom_cons]
          have hscaled : start ≤ start * base :=
            Nat.le_mul_of_pos_right start hbase
          by_cases hnil : significant digits = []
          · rw [hnil, valueFrom_nil]
            have hdigit : digit ≠ 0 := fun hzero => hkept ⟨hzero, hnil⟩
            omega
          · have hrest := ih (start * base + digit) hnil
            omega

/-- An overflow is remembered. -/
theorem foldl_pushDigit_overflowed (bound : ℕ) {read : ℕ × Bool}
    (hover : read.2 = true) (digits : List ℕ) :
    (digits.foldl (pushDigit base bound) read).2 = true := by
  induction digits generalizing read with
  | nil => exact hover
  | cons digit digits ih =>
      rw [List.foldl_cons]
      apply ih
      rw [pushDigit, hover]
      rfl

/-- A step whose sum stays within the bound. -/
theorem pushDigit_of_le {bound number digit : ℕ}
    (hsum : min (number * base) bound + digit ≤ bound) :
    pushDigit base bound (number, false) digit =
      (min (number * base) bound + digit, false) := by
  rw [pushDigit]
  dsimp only
  rw [Nat.mod_eq_of_lt (Nat.lt_succ_of_le hsum), Bool.false_or,
    decide_eq_false (Nat.not_lt.mpr hsum)]

theorem pushDigit_of_lt {bound number digit : ℕ}
    (hsum : bound < min (number * base) bound + digit) :
    (pushDigit base bound (number, false) digit).2 = true := by
  rw [pushDigit, Bool.false_or]
  exact decide_eq_true hsum

theorem valueFrom_significant_le_of_fits {bound start digit : ℕ}
    {digits : List ℕ} (hfits : start * base + digit ≤ bound)
    (hstart : start ≤ bound) :
    valueFrom base start (significant (digit :: digits)) ≤ bound ↔
      valueFrom base (start * base + digit) (significant digits) ≤ bound := by
  rw [significant]
  split
  · next hzeros =>
      rw [hzeros.2, valueFrom_nil, valueFrom_nil]
      exact iff_of_true hstart hfits
  · rfl

/-- When reading a numeral never overflows. -/
theorem foldl_pushDigit_exact (hbase : 0 < base) {bound start : ℕ}
    (hstart : start ≤ bound) (digits : List ℕ) :
    (digits.foldl (pushDigit base bound) (start, false)).2 = false ↔
      valueFrom base start (significant digits) ≤ bound := by
  induction digits generalizing start with
  | nil => exact iff_of_true rfl hstart
  | cons digit digits ih =>
      rw [List.foldl_cons]
      by_cases hsum : min (start * base) bound + digit ≤ bound
      · rw [pushDigit_of_le hsum, ih hsum]
        by_cases hfits : start * base ≤ bound
        · rw [Nat.min_eq_left hfits] at hsum ⊢
          exact (valueFrom_significant_le_of_fits hsum hstart).symm
        · -- The scaling saturated, so only zeros may follow.
          rw [Nat.min_eq_right (Nat.le_of_not_le hfits)] at hsum ⊢
          obtain rfl : digit = 0 := by omega
          rw [Nat.add_zero, significant]
          by_cases hnil : significant digits = []
          · rw [hnil, if_pos ⟨rfl, rfl⟩]
            exact iff_of_true (Nat.le_refl _) hstart
          · rw [if_neg fun hzeros => hnil hzeros.2, valueFrom_cons]
            have hafter := lt_valueFrom_significant hbase bound hnil
            have hscaled := lt_valueFrom_significant hbase (start * base + 0) hnil
            exact iff_of_false (by omega) (by omega)
      · have hmarked := @foldl_pushDigit_overflowed base bound _
          (pushDigit_of_lt (Nat.lt_of_not_le hsum)) digits
        have hlarge : bound < valueFrom base start
            (significant (digit :: digits)) := by
          rw [significant, if_neg fun hzeros => by omega, valueFrom_cons]
          have hgrows :=
            le_valueFrom hbase (start * base + digit) (significant digits)
          omega
        rw [hmarked]
        exact iff_of_false (Bool.noConfusion) (Nat.not_le.mpr hlarge)

/-- What a reading that never overflows has read. -/
theorem foldl_pushDigit_value (hbase : 0 < base) {bound start : ℕ}
    {digits : List ℕ}
    (hexact : (digits.foldl (pushDigit base bound) (min start bound, false)).2 =
      false) :
    (digits.foldl (pushDigit base bound) (min start bound, false)).1 =
      min (valueFrom base start digits) bound := by
  induction digits generalizing start with
  | nil => rfl
  | cons digit digits ih =>
      rw [List.foldl_cons] at hexact ⊢
      by_cases hsum : min (min start bound * base) bound + digit ≤ bound
      · have hread : min (min start bound * base) bound + digit =
            min (start * base + digit) bound := by
          rcases Nat.le_total start bound with hle | hle
          · rw [Nat.min_eq_left hle] at hsum ⊢
            omega
          · have hscaled : bound ≤ bound * base :=
              Nat.le_mul_of_pos_right bound hbase
            have hlarge : bound * base ≤ start * base :=
              Nat.mul_le_mul_right base hle
            rw [Nat.min_eq_right hle] at hsum ⊢
            omega
        rw [pushDigit_of_le hsum, hread] at hexact ⊢
        rw [ih hexact, valueFrom_cons]
      · rw [foldl_pushDigit_overflowed bound
          (pushDigit_of_lt (Nat.lt_of_not_le hsum)) digits] at hexact
        cases hexact

end Mandala.Decimal
