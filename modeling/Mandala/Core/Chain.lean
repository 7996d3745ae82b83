import Mathlib.Data.Nat.Notation
import Mathlib.Logic.Relation

/-!
# Chains of a partial function

Following a partial function from a start either stops where the function has
no value, or goes on for ever; the second is what a cycle means.
-/

namespace Mandala.Chain

open Relation

variable {K : Type}

/-- Where a number of steps leads. -/
def follow (next : K → Option K) : ℕ → K → Option K
  | 0, start => some start
  | steps + 1, start => (next start).bind (follow next steps)

def Step (next : K → Option K) (start finish : K) : Prop :=
  next start = some finish

variable {next : K → Option K}

theorem step_rightUnique : Relator.RightUnique (Step next) := by
  intro start first second hfirst hsecond
  exact Option.some.inj (hfirst.symm.trans hsecond)

theorem follow_succ {start second : K} (hstep : Step next start second)
    (steps : ℕ) : follow next (steps + 1) start = follow next steps second := by
  have hnext : next start = some second := hstep
  rw [follow, hnext, Option.bind_some]

theorem reflTransGen_of_follow {steps : ℕ} {start finish : K}
    (hfollow : follow next steps start = some finish) :
    ReflTransGen (Step next) start finish := by
  induction steps generalizing start with
  | zero =>
      cases hfollow
      exact .refl
  | succ steps ih =>
      obtain ⟨second, hstep, hrest⟩ := Option.bind_eq_some_iff.mp hfollow
      exact .head hstep (ih hrest)

/-- Where a chain stops no cycle was on its way. -/
theorem not_cycle_of_stops {start finish : K}
    (hreach : ReflTransGen (Step next) start finish)
    (hstop : next finish = none) : ¬ TransGen (Step next) start start := by
  induction hreach using ReflTransGen.head_induction_on with
  | refl =>
      intro hcycle
      obtain ⟨second, hstep, -⟩ := TransGen.head'_iff.mp hcycle
      rw [Step, hstop] at hstep
      cases hstep
  | head hstep _ ih =>
      intro hcycle
      obtain ⟨second, hfirst, hback⟩ := TransGen.head'_iff.mp hcycle
      cases step_rightUnique hstep hfirst
      exact ih (.tail' hback hstep)

end Mandala.Chain
