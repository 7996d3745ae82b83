import Mandala.Server.DriftTool

/-!
# The evidence behind a drift report

A judgement needs a usable snapshot and an expectation that evaluated.  A host
without either is told apart from one that was compared, unless its expectation
is missing without an error: then there is nothing to differ from, and it reads
as if it agreed.
-/

namespace Mandala.Server

open Mandala.Data Mandala.Drift Mandala.Ordering

/-! ## What a judgement is about -/

/-- The statuses that judge a host against its expectation. -/
def judged : List DriftStatus := [.inSync, .drift, .rebootPending, .activated]

/-- A booted generation other than the current one. -/
def Split (snapshot : Snapshot) : Prop :=
  snapshot.booted.any (· ≠ "") = true ∧ snapshot.booted ≠ snapshot.current

instance (snapshot : Snapshot) : Decidable (Split snapshot) :=
  inferInstanceAs (Decidable (_ ∧ _))

variable (reading : Reading)

/-- A snapshot of a reachable host that is complete and recent enough. -/
structure Usable (snapshot : Snapshot) (maxAge : Option Int) (now : Int) :
    Prop where
  reachable : jsonTruthy reading snapshot.unreachable = false
  complete : snapshot.current.isSome
  recent : tooOld reading snapshot.capturedAt maxAge now = false

/-- The evidence one entry of a report needs. -/
structure Evidenced (snapshots : BTreeMap Snapshot) (expected : Toplevels)
    (maxAge : Option Int) (now : Int) (entry : DriftEntry) : Prop where
  /-- Agreement is with an expectation that is known. -/
  agreement : entry.status = .inSync ∨ entry.status = .activated →
    ∃ path, expected.paths[entry.host]? = some path ∧
      entry.expected = some path ∧ entry.current = some path
  unsplit : entry.status = .inSync →
    ¬ (entry.booted.any (· ≠ "") = true ∧ entry.booted ≠ entry.current)
  evaluated : expected.errors[entry.host]? ≠ none → entry.status ∉ judged
  surveyed : entry.status ∈ judged → ∃ snapshot,
    snapshots[entry.host]? = some snapshot ∧
      Usable reading snapshot maxAge now

/-- What a drift report can be relied on for. -/
structure Honest (nodes : List String) (snapshots : BTreeMap Snapshot)
    (expected : Toplevels) (maxAge : Option Int) (now : Int) : Prop where
  /-- One entry for each node, in order. -/
  entries : let hosts := (Drift.compare reading nodes snapshots (some expected)
      maxAge now).map DriftEntry.host
    hosts.Perm nodes ∧ hosts.Pairwise (· ≤ ·)
  evidenced : ∀ entry ∈ Drift.compare reading nodes snapshots (some expected)
      maxAge now,
    Evidenced reading snapshots expected maxAge now entry
  /-- The tool answers with the entries of this report that were wanted. -/
  answered : maxAge = some defaultMaxAge → ∀ tool inputs,
    inputs.snapshots = snapshots → inputs.now = now →
      inputs.expected tool = some expected →
        (toolDrift reading nodes tool inputs).get "entries" =
          some (.array ((wantedEntries tool.statuses (Drift.compare reading nodes
            snapshots (some expected) maxAge now)).map entryValue))

/-- A usable snapshot with nothing to compare it with: the expectation neither
evaluated nor failed, and no boot-critical change is pending either. -/
structure Uncompared (snapshots : BTreeMap Snapshot) (expected : Toplevels)
    (maxAge : Option Int) (now : Int) (node : String) (snapshot : Snapshot) :
    Prop where
  surveyed : snapshots[node]? = some snapshot
  usable : Usable reading snapshot maxAge now
  noError : expected.errors[node]? = none
  noPath : expected.paths[node]? = none
  booted : ¬ (Split snapshot ∧ bootCriticalChanged reading snapshot = true)

/-! ## The cascade -/

variable {reading} {snapshot : Snapshot} {maxAge : Option Int} {now : Int}
  {expected evalError : Option String}

/-- Only a usable snapshot of a host without an evaluation error is judged. -/
theorem usable_of_judged
    (hjudged : judge reading snapshot expected evalError maxAge now ∈ judged) :
    Usable reading snapshot maxAge now ∧ evalError = none := by
  unfold judge at hjudged
  split at hjudged
  · simp [judged] at hjudged
  · next hreachable =>
      split at hjudged
      · simp [judged] at hjudged
      · next hcomplete =>
          split at hjudged
          · simp [judged] at hjudged
          · next hrecent =>
              split at hjudged
              · simp [judged] at hjudged
              · next herror =>
                  refine ⟨⟨?_, ?_, ?_⟩, ?_⟩
                  · simpa using hreachable
                  · simpa [Option.isNone_iff_eq_none,
                      Option.isSome_iff_ne_none] using hcomplete
                  · simpa using hrecent
                  · simpa using herror

theorem usable_of_agreement
    (hagrees : judge reading snapshot expected evalError maxAge now = .inSync ∨
      judge reading snapshot expected evalError maxAge now = .activated) :
    Usable reading snapshot maxAge now ∧ evalError = none := by
  apply @usable_of_judged reading snapshot maxAge now expected evalError
  rcases hagrees with hstatus | hstatus <;>
  · rw [hstatus]
    simp [judged]

/-- The part of the cascade that compares. -/
theorem judge_of_usable (husable : Usable reading snapshot maxAge now) :
    judge reading snapshot expected none maxAge now =
      if expected.isSome ∧ snapshot.current ≠ expected ∧
          snapshot.systemProfile = expected then .rebootPending
      else if expected.isSome ∧ snapshot.current ≠ expected then .drift
      else if Split snapshot then
        if bootCriticalChanged reading snapshot then .rebootPending
        else .activated
      else .inSync := by
  have hcurrent : snapshot.current.isNone = false := by
    simpa [Option.isSome_iff_ne_none] using husable.complete
  rw [judge, husable.reachable, hcurrent, husable.recent]
  rfl

/-- A host that agrees has no expectation it differs from. -/
theorem current_of_agreement (husable : Usable reading snapshot maxAge now)
    (hagrees : judge reading snapshot expected none maxAge now = .inSync ∨
      judge reading snapshot expected none maxAge now = .activated) :
    expected = none ∨ snapshot.current = expected := by
  rw [judge_of_usable husable] at hagrees
  by_cases hdiffers : expected.isSome ∧ snapshot.current ≠ expected
  · by_cases hstaged : snapshot.systemProfile = expected
    · rw [if_pos ⟨hdiffers.1, hdiffers.2, hstaged⟩] at hagrees
      simp at hagrees
    · rw [if_neg fun hall => hstaged hall.2.2, if_pos hdiffers] at hagrees
      simp at hagrees
  · cases expected with
    | none => exact .inl rfl
    | some path =>
        refine .inr (Decidable.not_not.mp fun hne => ?_)
        exact hdiffers ⟨rfl, hne⟩

theorem not_split_of_inSync (husable : Usable reading snapshot maxAge now)
    (hinSync : judge reading snapshot expected none maxAge now = .inSync) :
    ¬ Split snapshot := by
  intro hsplit
  rw [judge_of_usable husable, if_pos hsplit] at hinSync
  split at hinSync
  · cases hinSync
  · split at hinSync
    · cases hinSync
    · split at hinSync <;> cases hinSync

/-- Without an expectation the boot facts alone decide. -/
theorem judge_of_unknown (husable : Usable reading snapshot maxAge now) :
    judge reading snapshot none none maxAge now =
      if Split snapshot then
        if bootCriticalChanged reading snapshot then .rebootPending
        else .activated
      else .inSync := by
  rw [judge_of_usable husable]
  simp

theorem agreement_of_unknown (husable : Usable reading snapshot maxAge now) :
    (judge reading snapshot none none maxAge now = .inSync ∨
        judge reading snapshot none none maxAge now = .activated) ↔
      ¬ (Split snapshot ∧ bootCriticalChanged reading snapshot = true) := by
  rw [judge_of_unknown husable]
  by_cases hsplit : Split snapshot
  · cases hcritical : bootCriticalChanged reading snapshot <;> simp [hsplit]
  · simp [hsplit]

/-! ## One entry -/

variable {snapshots : BTreeMap Snapshot} {toplevels : Toplevels}

/-- An entry has the evidence it needs unless its node has nothing to compare
with. -/
theorem evidenced_compareHost_iff (node : String) :
    Evidenced reading snapshots toplevels maxAge now
        (compareHost reading snapshots toplevels maxAge now node) ↔
      ∀ snapshot, ¬ Uncompared reading snapshots toplevels maxAge now node
        snapshot := by
  cases hsurveyed : snapshots[node]? with
  | none =>
      refine ⟨fun _ snapshot huncompared => ?_, fun _ => ?_⟩
      · rw [huncompared.surveyed] at hsurveyed
        cases hsurveyed
      · rw [compareHost, hsurveyed]
        constructor <;> simp [judged]
  | some snapshot =>
      rw [compareHost, hsurveyed]
      constructor
      · rintro hevidenced other ⟨hother, husable, herror, hpath, hbooted⟩
        rw [hsurveyed] at hother
        cases hother
        rw [herror, hpath] at hevidenced
        obtain ⟨path, hknown, -⟩ :=
          hevidenced.agreement ((agreement_of_unknown husable).mpr hbooted)
        rw [hpath] at hknown
        cases hknown
      · intro hcompared
        constructor
        · intro hagrees
          change judge reading snapshot toplevels.paths[node]?
              toplevels.errors[node]? maxAge now = .inSync ∨
            judge reading snapshot toplevels.paths[node]?
              toplevels.errors[node]? maxAge now = .activated at hagrees
          obtain ⟨husable, herror⟩ := usable_of_agreement hagrees
          rw [herror] at hagrees
          cases hpath : toplevels.paths[node]? with
          | none =>
              rw [hpath] at hagrees
              exact absurd ⟨hsurveyed, husable, herror, hpath,
                (agreement_of_unknown husable).mp hagrees⟩ (hcompared snapshot)
          | some path =>
              rw [hpath] at hagrees
              exact ⟨path, rfl, rfl, (current_of_agreement husable
                hagrees).resolve_left (Option.some_ne_none path)⟩
        · intro hinSync
          change judge reading snapshot toplevels.paths[node]?
            toplevels.errors[node]? maxAge now = .inSync at hinSync
          obtain ⟨husable, herror⟩ := usable_of_agreement (.inl hinSync)
          rw [herror] at hinSync
          exact not_split_of_inSync husable hinSync
        · intro herror hjudged
          exact herror (usable_of_judged hjudged).2
        · intro hjudged
          exact ⟨snapshot, hsurveyed, (usable_of_judged hjudged).1⟩

/-! ## A whole report -/

theorem hosts_compare (nodes : List String) :
    (Drift.compare reading nodes snapshots (some toplevels) maxAge now).map
      DriftEntry.host = sortNames nodes := by
  rw [Drift.compare, List.map_map]
  exact List.map_id'' (host_compareHost reading snapshots toplevels maxAge now) _

/-- A report judged against an expectation claims agreement with it only, exactly
when no node has a usable snapshot and nothing to compare it with. -/
theorem honest_iff (reading : Reading) (nodes : List String)
    (snapshots : BTreeMap Snapshot) (expected : Toplevels)
    (maxAge : Option Int) (now : Int) :
    Honest reading nodes snapshots expected maxAge now ↔
      ∀ node ∈ nodes, ∀ snapshot,
        ¬ Uncompared reading snapshots expected maxAge now node snapshot := by
  have hentries : (∀ entry ∈ Drift.compare reading nodes snapshots
        (some expected) maxAge now,
      Evidenced reading snapshots expected maxAge now entry) ↔
      ∀ node ∈ nodes, ∀ snapshot,
        ¬ Uncompared reading snapshots expected maxAge now node snapshot := by
    simp only [Drift.compare, List.forall_mem_map, Option.getD_some,
      mem_sortNames, evidenced_compareHost_iff]
  constructor
  · intro hhonest
    exact hentries.mp hhonest.evidenced
  · intro hcompared
    refine ⟨?_, hentries.mpr hcompared, ?_⟩
    · rw [hosts_compare]
      exact ⟨List.perm_insertionSort _ _, List.pairwise_insertionSort _ _⟩
    · rintro rfl tool inputs rfl rfl hexpected
      rw [toolDrift_entries, hexpected]

/-! ## A member no configuration was found for -/

def plainReading : Reading :=
  { parseIso := fun _ => none
    floatTruthy := fun _ => false
    sameValue := fun _ _ => false }

def webSnapshot : Snapshot :=
  { current := some "/nix/store/aaa-web", booted := some "/nix/store/aaa-web"
    systemProfile := some "/nix/store/aaa-web", capturedAt := none
    unreachable := .null, currentBoot := .null, bootedBoot := .null }

def webSnapshots : BTreeMap Snapshot :=
  (∅ : BTreeMap Snapshot).insert "web" webSnapshot

/-- What an evaluation returns that found no configuration for its member. -/
def noToplevels : Toplevels := { paths := ∅, errors := ∅ }

/-- A host nothing was evaluated for is reported in sync. -/
theorem honest_fails_web :
    (Drift.compare plainReading ["web"] webSnapshots (some noToplevels)
        (some defaultMaxAge) 0).map DriftEntry.status = [.inSync] ∧
      ¬ Honest plainReading ["web"] webSnapshots noToplevels
        (some defaultMaxAge) 0 := by
  have hstatus : (Drift.compare plainReading ["web"] webSnapshots
      (some noToplevels) (some defaultMaxAge) 0).map DriftEntry.status =
        [.inSync] := by decide +kernel
  refine ⟨hstatus, fun hhonest => ?_⟩
  obtain ⟨entry, hreport, hinSync⟩ := List.map_eq_singleton_iff.mp hstatus
  have hentry := hhonest.evidenced entry (by rw [hreport]; exact .head _)
  obtain ⟨path, hpath, -⟩ := hentry.agreement (.inl hinSync)
  rw [noToplevels, Std.TreeMap.getElem?_emptyc] at hpath
  cases hpath

end Mandala.Server
