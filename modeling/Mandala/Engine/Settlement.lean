import Mandala.Engine.Data

/-!
# Settling a fan-out

Every host ends in one of four states.  The run's return code follows from
their counts and from the return code of the batch build.
-/

namespace Mandala.Engine

open Mandala.Data Mandala.Events

/-- Whole-run counts, kept in `meta.json`. -/
structure DeploySummary where
  total : ℕ
  confirmed : ℕ
  rebootPending : ℕ
  failed : ℕ
  rolledBack : ℕ
  deriving DecidableEq, Repr

/-- How many hosts ended in a state. -/
def countState (results : BTreeMap HostDeployResult) (state : HostState) : ℕ :=
  results.values.countP (·.state = state)

def summarize (results : BTreeMap HostDeployResult) : DeploySummary :=
  { total := results.size
    confirmed := countState results .confirmed
    rebootPending := countState results .rebootPending
    failed := countState results .failed
    rolledBack := countState results .rolledBack }

/-- A settled fan-out: `processRc` is the controller's own return code, `rc`
the one of the fleet. -/
structure DeployOutcome where
  results : BTreeMap HostDeployResult
  summary : DeploySummary
  processRc : Int
  rc : Int

/-- The batch build recorded a return code other than zero. -/
def buildFailed (payload : Meta) : Bool :=
  (payload.getI64 "build_rc").any (· ≠ 0)

/-- What `settle_fan_out` returns once the registry took its fields. -/
def settleFanOut (payload : Meta) (results : BTreeMap HostDeployResult) :
    DeployOutcome :=
  let summary := summarize results
  { results
    summary
    processRc := 0
    rc := if buildFailed payload || summary.failed > 0 ||
        summary.rolledBack > 0 then 1 else 0 }

def DeploySummary.toValue (summary : DeploySummary) : Json :=
  .object
    [("total", .int summary.total), ("confirmed", .int summary.confirmed),
      ("reboot_pending", .int summary.rebootPending),
      ("failed", .int summary.failed), ("rolled_back", .int summary.rolledBack)]

/-- What `settle_fan_out` leaves in `meta.json`. -/
def settledMeta (payload : Meta) (finishedAt : Json)
    (outcome : DeployOutcome) : Meta :=
  payload.update
    [("process_rc", .int outcome.processRc), ("rc", .int outcome.rc),
      ("finished_at", finishedAt), ("summary", outcome.summary.toValue)]

/-! ## The counts partition the hosts -/

theorem countP_states (results : List HostDeployResult)
    (hterminal : ∀ result ∈ results, isTerminal result.state) :
    results.countP (·.state = .confirmed) +
        results.countP (·.state = .rebootPending) +
        results.countP (·.state = .failed) +
        results.countP (·.state = .rolledBack) = results.length := by
  induction results with
  | nil => rfl
  | cons result results ih =>
      have hrest := ih fun other hmem =>
        hterminal other (List.mem_cons_of_mem _ hmem)
      have hstate := hterminal result List.mem_cons_self
      simp only [List.countP_cons, List.length_cons, ← hrest]
      -- A state that is not terminal contradicts the hypothesis.
      generalize result.state = state at hstate ⊢
      cases state with
      | confirmed | rebootPending | rolledBack | failed => simp; omega
      | _ => cases hstate

/-- No host is counted twice and none is left out. -/
theorem summarize_total (results : BTreeMap HostDeployResult)
    (hterminal : ∀ (host : String) result, results[host]? = some result →
      isTerminal result.state) :
    (summarize results).confirmed + (summarize results).rebootPending +
        (summarize results).failed + (summarize results).rolledBack =
      (summarize results).total := by
  have hvalues : ∀ result ∈ results.values, isTerminal result.state := by
    intro result hmem
    obtain ⟨host, hresult⟩ := BTreeMap.mem_values_iff.mp hmem
    exact hterminal host result hresult
  rw [summarize, ← BTreeMap.length_values, ← countP_states _ hvalues]
  rfl

theorem countState_pos_iff {results : BTreeMap HostDeployResult}
    {state : HostState} :
    0 < countState results state ↔
      ∃ (host : String) (result : HostDeployResult),
        results[host]? = some result ∧ result.state = state := by
  rw [countState, List.countP_pos_iff]
  constructor
  · intro hcount
    obtain ⟨result, hmem, hstate⟩ := hcount
    obtain ⟨host, hresult⟩ := BTreeMap.mem_values_iff.mp hmem
    exact ⟨host, result, hresult, of_decide_eq_true hstate⟩
  · intro hresult
    obtain ⟨host, result, hresult, hstate⟩ := hresult
    exact ⟨result, BTreeMap.mem_values_iff.mpr ⟨host, hresult⟩,
      decide_eq_true hstate⟩

theorem buildFailed_eq_false_iff {payload : Meta} :
    buildFailed payload = false ↔
      payload.getI64 "build_rc" = none ∨
        payload.getI64 "build_rc" = some 0 := by
  rw [buildFailed]
  cases payload.getI64 "build_rc" with
  | none => simp
  | some rc => simp

/-- The run succeeded exactly when its build did and no host went wrong. -/
theorem settleFanOut_rc_iff (payload : Meta)
    (results : BTreeMap HostDeployResult) :
    (settleFanOut payload results).rc = 0 ↔
      (payload.getI64 "build_rc" = none ∨
        payload.getI64 "build_rc" = some 0) ∧
      ∀ (host : String) result, results[host]? = some result →
        result.state ≠ .failed ∧ result.state ≠ .rolledBack := by
  have hcount (state : HostState) : ¬ 0 < countState results state ↔
      ∀ (host : String) result, results[host]? = some result →
        result.state ≠ state := by
    rw [countState_pos_iff]
    push Not
    rfl
  rw [← buildFailed_eq_false_iff]
  have hrc : (settleFanOut payload results).rc = 0 ↔
      buildFailed payload = false ∧ ¬ 0 < countState results .failed ∧
        ¬ 0 < countState results .rolledBack := by
    simp [settleFanOut, summarize, and_assoc]
  rw [hrc, hcount, hcount]
  constructor
  · intro hgood
    exact ⟨hgood.1, fun host result hresult =>
      ⟨hgood.2.1 host result hresult, hgood.2.2 host result hresult⟩⟩
  · intro hgood
    exact ⟨hgood.1, fun host result hresult => (hgood.2 host result hresult).1,
      fun host result hresult => (hgood.2 host result hresult).2⟩

end Mandala.Engine
