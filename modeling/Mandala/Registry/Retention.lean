import Mandala.Core.Newest
import Mandala.Registry.RunId
import Mathlib.Data.String.Basic

/-!
# Retention of registered runs

Allocating a run prunes the dead ones: of those the newest are kept unless they
are too old.  A run that is alive is never counted.  A run without metadata is
being allocated, and is alive while the process named in its id is.
-/

namespace Mandala.Registry

open Mandala.Data Mandala.Text Mandala.Newest Mandala.Decimal

/-! ## Numbers in names -/

/-- The digits of a number no greater than a bound. -/
def parseDigits (bound : ℕ) (digits : List Char) : Option ℕ :=
  if digits ≠ [] ∧ digits.all Char.isDigit then
    let number := value 10 (digits.map digitOfChar)
    if number ≤ bound then some number else none
  else none

/-- `str::parse` of an unsigned integer, which may be written with a plus. -/
def parseUnsigned (bound : ℕ) : List Char → Option ℕ
  | '+' :: digits => parseDigits bound digits
  | digits => parseDigits bound digits

def i64Max : ℕ := 9223372036854775807

/-- `str::parse::<i64>`. -/
def parseI64 : List Char → Option Int
  | '-' :: digits => (parseDigits (i64Max + 1) digits).map fun number => -number
  | digits => (parseUnsigned i64Max digits).map Int.ofNat

/-! ## The registry's directory -/

inductive EntryKind where
  | directory
  | symlink
  | other
  deriving DecidableEq, Repr

/-- An entry of the registry's directory, as `symlink_metadata` and `read_meta`
find it. -/
structure RunEntry where
  name : List UInt8
  kind : EntryKind
  payload : Meta

namespace RunEntry

/-- A name that is not UTF-8 is read as no name. -/
def runId (entry : RunEntry) : String := (decodeUtf8 entry.name).getD ""

def pid (entry : RunEntry) : Option Int := entry.payload.getI64 "pid"

def supervisorPid (entry : RunEntry) : Option Int :=
  entry.payload.getI64 "supervisor_pid"

/-- The process named in the id of a run whose metadata is not there yet. -/
def allocatingPid (entry : RunEntry) : Option Int :=
  if entry.payload.isEmpty ∧ '-' ∈ entry.runId.toList then
    parseI64 (entry.runId.toList.reverse.takeWhile (· ≠ '-')).reverse
  else none

/-- The time stamp of an id. -/
def stamp (entry : RunEntry) : String :=
  String.ofList (entry.runId.toList.take 22)

end RunEntry

/-- What a directory lists: no two entries have one name. -/
structure Listing (Entry : Type) (nameOf : Entry → List UInt8) where
  entries : List Entry
  distinct : (entries.map nameOf).Nodup

abbrev RunListing := Listing RunEntry RunEntry.name

section Prune
variable (timeOf : String → Option Int) (processExists : Int → Bool)

/-- The parser of time stamps, as far as the check of ids needs it. -/
def timestampParser : TimestampParser := fun text => (timeOf text).isSome

def isRun (entry : RunEntry) : Bool :=
  decide (entry.kind = .directory) &&
    acceptsRunId (timestampParser timeOf) entry.runId

/-- `list_runs_in`. -/
def listRunsIn (entries : List RunEntry) : List RunEntry :=
  newestFirst RunEntry.runId (entries.filter (isRun timeOf))

def isAlive (entry : RunEntry) : Bool :=
  pidAlive processExists entry.pid ||
    pidAlive processExists entry.supervisorPid ||
      pidAlive processExists entry.allocatingPid

/-- A day, in the unit of the clock. -/
def dayNanos : ℕ := 86400 * 1000000000

/-- Times are in nanoseconds; a duration in days is truncated. -/
def isExpired (maxAgeDays : ℕ) (now : Int) (entry : RunEntry) : Bool :=
  decide (0 < maxAgeDays) && (timeOf entry.stamp).any fun started =>
    decide (((min maxAgeDays i64Max : ℕ) : Int) ≤
      (now - started).tdiv dayNanos)

/-- `prune_policy`: the runs it removes. -/
def prunePolicy (keep maxAgeDays : ℕ) (now : Int) (entries : List RunEntry) :
    List RunEntry :=
  sweep (isAlive processExists) (isExpired timeOf maxAgeDays now) keep 0
    (listRunsIn timeOf entries)

end Prune

/-- What is left of a directory. -/
def without {Entry : Type} (nameOf : Entry → List UInt8)
    (removed entries : List Entry) : List Entry :=
  entries.filter fun entry => decide (nameOf entry ∉ removed.map nameOf)

/-! ## What pruning is for -/

section Retained
variable (timeOf : String → Option Int) (processExists : Int → Bool)

/-- A run nobody works on: a directory under a run id none of whose processes
is alive. -/
structure DeadRun (entry : RunEntry) : Prop where
  directory : entry.kind = .directory
  named : acceptsRunId (timestampParser timeOf) entry.runId = true
  engine : pidAlive processExists entry.pid = false
  supervisor : pidAlive processExists entry.supervisorPid = false
  allocator : pidAlive processExists entry.allocatingPid = false

/-- A run that started so many days ago; no days are never. -/
structure ExpiredRun (maxAgeDays : ℕ) (now : Int) (entry : RunEntry) : Prop where
  limited : 0 < maxAgeDays
  old : ∃ started, timeOf entry.stamp = some started ∧
    ((min maxAgeDays i64Max * dayNanos : ℕ) : Int) ≤ now - started

/-- The dead runs of a directory. -/
def deadRuns (entries : List RunEntry) : List RunEntry :=
  (entries.filter (isRun timeOf)).filter (!isAlive processExists ·)

/-- Pruning removes the dead runs that are expired or have enough newer dead
ones, and nothing else; then it has nothing left to do. -/
structure RunsRetained (keep maxAgeDays : ℕ) (now : Int)
    (listing : RunListing) : Prop where
  exact : ∀ entry,
    entry ∈ prunePolicy timeOf processExists keep maxAgeDays now
        listing.entries ↔
      entry ∈ listing.entries ∧ DeadRun timeOf processExists entry ∧
        (ExpiredRun timeOf maxAgeDays now entry ∨
          keep ≤ (deadRuns timeOf processExists listing.entries).countP
            (fun other => entry.runId < other.runId))
  again : prunePolicy timeOf processExists keep maxAgeDays now
    (without RunEntry.name
      (prunePolicy timeOf processExists keep maxAgeDays now listing.entries)
      listing.entries) = []

end Retained

/-! ## The dead runs -/

section Proofs
variable {timeOf : String → Option Int} {processExists : Int → Bool}
  {keep maxAgeDays : ℕ} {now : Int}

theorem mem_deadRuns_iff {entries : List RunEntry} {entry : RunEntry} :
    entry ∈ deadRuns timeOf processExists entries ↔
      entry ∈ entries ∧ DeadRun timeOf processExists entry := by
  rw [deadRuns, List.mem_filter, List.mem_filter, isRun, isAlive,
    Bool.not_eq_true', Bool.or_eq_false_iff, Bool.or_eq_false_iff,
    Bool.and_eq_true, decide_eq_true_eq]
  constructor
  · rintro ⟨⟨hmem, hkind, hnamed⟩, ⟨hengine, hsupervisor⟩, hallocator⟩
    exact ⟨hmem, hkind, hnamed, hengine, hsupervisor, hallocator⟩
  · rintro ⟨hmem, hkind, hnamed, hengine, hsupervisor, hallocator⟩
    exact ⟨⟨hmem, hkind, hnamed⟩, ⟨hengine, hsupervisor⟩, hallocator⟩

theorem not_accepts_empty (parsesTimestamp : TimestampParser) :
    acceptsRunId parsesTimestamp "" = false := by
  rw [acceptsRunId, isValidRunId]
  rfl

/-- Two runs with one id are the same entry. -/
theorem name_of_runId {left right : RunEntry}
    (hleft : acceptsRunId (timestampParser timeOf) left.runId = true)
    (hsame : left.runId = right.runId) : left.name = right.name := by
  have hencoded (entry : RunEntry)
      (haccepts : acceptsRunId (timestampParser timeOf) entry.runId = true) :
      encodeUtf8 entry.runId = entry.name := by
    rw [RunEntry.runId] at haccepts ⊢
    cases hname : decodeUtf8 entry.name with
    | none =>
        rw [hname, Option.getD_none, not_accepts_empty] at haccepts
        cases haccepts
    | some text => exact decodeUtf8_eq_some_iff.mp hname
  rw [← hencoded left hleft, ← hencoded right (hsame ▸ hleft), hsame]

/-- A number of days is over when the time in it is. -/
theorem le_tdiv_iff {days : ℕ} (hdays : 0 < days) (elapsed : Int) :
    (days : Int) ≤ elapsed.tdiv dayNanos ↔
      ((days * dayNanos : ℕ) : Int) ≤ elapsed := by
  rcases Int.lt_or_le elapsed 0 with hneg | hpos
  · constructor
    · intro hle
      have hsmall : 0 ≤ (-elapsed).tdiv dayNanos :=
        Int.tdiv_nonneg (by omega) (by decide)
      rw [Int.neg_tdiv] at hsmall
      omega
    · intro hle
      have hnat : (0 : Int) ≤ ((days * dayNanos : ℕ) : Int) := Int.natCast_nonneg _
      omega
  · rw [Int.tdiv_eq_ediv_of_nonneg hpos, Int.le_ediv_iff_mul_le (by decide)]
    push_cast
    rfl

theorem isExpired_iff {entry : RunEntry} :
    isExpired timeOf maxAgeDays now entry = true ↔
      ExpiredRun timeOf maxAgeDays now entry := by
  rw [isExpired, Bool.and_eq_true, decide_eq_true_eq, Option.any_eq_true]
  constructor
  · rintro ⟨hlimited, started, hstarted, hold⟩
    have hdays : 0 < min maxAgeDays i64Max := lt_min hlimited (by decide)
    exact ⟨hlimited, started, hstarted,
      (le_tdiv_iff hdays _).mp (of_decide_eq_true hold)⟩
  · rintro ⟨hlimited, started, hstarted, hold⟩
    have hdays : 0 < min maxAgeDays i64Max := lt_min hlimited (by decide)
    exact ⟨hlimited, started, hstarted,
      decide_eq_true ((le_tdiv_iff hdays _).mpr hold)⟩

/-- Pruning is the rule on the dead runs. -/
theorem prunePolicy_eq (entries : List RunEntry) :
    prunePolicy timeOf processExists keep maxAgeDays now entries =
      overdue keep (isExpired timeOf maxAgeDays now)
        (newestFirst RunEntry.runId
          (deadRuns timeOf processExists entries)) := by
  rw [prunePolicy, sweep_eq_overdue, listRunsIn, filter_newestFirst]
  rfl

theorem nodup_entries {Entry : Type} {nameOf : Entry → List UInt8}
    (listing : Listing Entry nameOf) : listing.entries.Nodup :=
  listing.distinct.of_map nameOf

theorem eq_of_name {Entry : Type} {nameOf : Entry → List UInt8}
    (listing : Listing Entry nameOf) {left right : Entry}
    (hleft : left ∈ listing.entries) (hright : right ∈ listing.entries)
    (hname : nameOf left = nameOf right) : left = right :=
  List.inj_on_of_nodup_map listing.distinct hleft hright hname

/-- Removing by name keeps what was not removed. -/
theorem mem_without_iff {Entry : Type} {nameOf : Entry → List UInt8}
    {removed entries : List Entry} {entry : Entry} :
    entry ∈ without nameOf removed entries ↔
      entry ∈ entries ∧ nameOf entry ∉ removed.map nameOf := by
  rw [without, List.mem_filter, decide_eq_true_eq]

/-- A dead run is removed by its age or by the newer dead ones. -/
theorem mem_prune_iff (listing : RunListing) {entry : RunEntry}
    (hdead : entry ∈ deadRuns timeOf processExists listing.entries) :
    entry ∈ overdue keep (isExpired timeOf maxAgeDays now)
        (newestFirst RunEntry.runId
          (deadRuns timeOf processExists listing.entries)) ↔
      ExpiredRun timeOf maxAgeDays now entry ∨
        keep ≤ (deadRuns timeOf processExists listing.entries).countP
          (fun other => entry.runId < other.runId) := by
  have hnodup : (deadRuns timeOf processExists listing.entries).Nodup :=
    ((nodup_entries listing).filter _).filter _
  obtain ⟨front, back, hsplit⟩ := List.append_of_mem hdead
  have hdistinct : ∀ other ∈ front, other.runId ≠ entry.runId := by
    intro other hfront hsame
    have hother : other ∈ deadRuns timeOf processExists listing.entries := by
      rw [hsplit]
      exact List.mem_append_left _ hfront
    have hotherDead := mem_deadRuns_iff.mp hother
    have hname := name_of_runId hotherDead.2.named hsame
    have heq := eq_of_name listing hotherDead.1 (mem_deadRuns_iff.mp hdead).1
      hname
    rw [hsplit] at hnodup
    exact (List.nodup_append.mp hnodup).2.2 other hfront entry
      List.mem_cons_self heq
  rw [hsplit] at hnodup ⊢
  rw [mem_overdue_newestFirst_iff hnodup, newer_of_distinct hdistinct,
    isExpired_iff, or_comm]

/-- Removing other entries leaves the dead runs that are left. -/
theorem deadRuns_without (removed entries : List RunEntry) :
    deadRuns timeOf processExists (without RunEntry.name removed entries) =
      (deadRuns timeOf processExists entries).filter fun entry =>
        decide (entry.name ∉ removed.map RunEntry.name) := by
  rw [deadRuns, deadRuns, without]
  simp only [List.filter_filter]
  refine List.filter_congr fun entry _ => ?_
  rw [← Bool.and_assoc, Bool.and_comm]

variable (timeOf processExists keep maxAgeDays now)

/-- Pruning the registry is safe and exact. -/
theorem runs_retained (listing : RunListing) :
    RunsRetained timeOf processExists keep maxAgeDays now listing := by
  have hnodup : (deadRuns timeOf processExists listing.entries).Nodup :=
    ((nodup_entries listing).filter _).filter _
  constructor
  · intro entry
    rw [prunePolicy_eq, ← and_assoc, ← mem_deadRuns_iff]
    refine ⟨fun hmem => ?_, fun ⟨hdead, hrule⟩ => ?_⟩
    · have hdead := (perm_newestFirst _).mem_iff.mp (mem_of_mem_overdue hmem)
      exact ⟨hdead, (mem_prune_iff listing hdead).mp hmem⟩
    · exact (mem_prune_iff listing hdead).mpr hrule
  · rw [prunePolicy_eq, List.eq_nil_iff_forall_not_mem]
    intro entry hagain
    have hleft : deadRuns timeOf processExists
        (without RunEntry.name
          (prunePolicy timeOf processExists keep maxAgeDays now listing.entries)
          listing.entries) = _ := deadRuns_without _ _
    rw [hleft, ← filter_newestFirst] at hagain
    have hkept := (List.mem_filter.mp (mem_of_mem_overdue hagain)).2
    have hremoved := mem_overdue_of_filter
      ((perm_newestFirst _).nodup_iff.mpr hnodup) hagain
    rw [← prunePolicy_eq] at hremoved
    exact of_decide_eq_true hkept (List.mem_map_of_mem hremoved)

end Proofs

end Mandala.Registry
