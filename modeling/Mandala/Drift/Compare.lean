import Mandala.Core.Ordering
import Mandala.Core.Text
import Mandala.Data.Json

/-!
# Drift

A host is judged by the snapshot of its state against the toplevel its
configuration evaluates to.  Every status that needs the expectation comes
after those the snapshot decides alone.
-/

namespace Mandala.Drift

open Mandala.Data Mandala.Ordering Mandala.Text

inductive DriftStatus where
  | inSync
  | drift
  | rebootPending
  | activated
  | stale
  | incomplete
  | noSnapshot
  | unreachable
  | evalFailed
  deriving DecidableEq, Repr

def DriftStatus.asStr : DriftStatus → String
  | inSync => "in-sync"
  | drift => "drift"
  | rebootPending => "reboot-pending"
  | activated => "activated"
  | stale => "stale"
  | incomplete => "incomplete"
  | noSnapshot => "no-snapshot"
  | unreachable => "unreachable"
  | evalFailed => "eval-failed"

structure DriftEntry where
  host : String
  status : DriftStatus
  expected : Option String
  current : Option String
  booted : Option String
  systemProfile : Option String
  capturedAt : Option String
  evalError : Option String
  deriving DecidableEq, Repr

structure Snapshot where
  current : Option String
  booted : Option String
  systemProfile : Option String
  capturedAt : Option String
  unreachable : Json
  currentBoot : Json
  bootedBoot : Json

/-- Expected toplevels, with the members that failed to evaluate. -/
structure Toplevels where
  paths : BTreeMap String
  errors : BTreeMap String

def Toplevels.isComplete (toplevels : Toplevels) : Bool :=
  toplevels.errors.isEmpty

/-- `From<BTreeMap<String, String>>`. -/
def Toplevels.ofPaths (paths : BTreeMap String) : Toplevels :=
  { paths, errors := ∅ }

/-- How a snapshot's timestamps and values are read. -/
structure Reading where
  /-- An ISO-8601 time, in nanoseconds. -/
  parseIso : String → Option Int
  /-- Whether a number that is no integer is other than zero. -/
  floatTruthy : String → Bool
  sameValue : Json → Json → Bool

section Judging

variable (reading : Reading)

/-- `json_truthy`. -/
def jsonTruthy : Json → Bool
  | .null => false
  | .bool value => value
  | .int value => value ≠ 0
  | .float literal => reading.floatTruthy literal
  | .string value => value ≠ ""
  | .array values => !values.isEmpty
  | .object fields => !fields.isEmpty

/-- `too_old`. -/
def tooOld (capturedAt : Option String) (maxAge : Option Int) (now : Int) :
    Bool :=
  match maxAge, capturedAt with
  | some maxAge, some capturedAt =>
      if capturedAt = "" then false
      else match reading.parseIso capturedAt with
        | none => true
        | some time => maxAge < now - time
  | _, _ => false

/-- `BOOT_CRITICAL`. -/
def bootCritical : List String :=
  ["kernel", "kernel_modules", "initrd", "kernel_params"]

/-- `normalize_tokens`. -/
def normalizeTokens (text : String) : String :=
  " ".intercalate
    (((text.toList.splitOnP isWhiteSpace).filter (· ≠ [])).map String.ofList)

/-- A boot fact that is missing or empty on either side counts as changed. -/
def criticalChanged (key : String) (current booted : Option Json) : Bool :=
  match current, booted with
  | some current, some booted =>
      if jsonTruthy reading current && jsonTruthy reading booted then
        if key = "kernel_params" then
          match current.asStr, booted.asStr with
          | some current, some booted =>
              normalizeTokens current ≠ normalizeTokens booted
          | _, _ => !reading.sameValue current booted
        else !reading.sameValue current booted
      else true
  | _, _ => true

/-- `boot_critical_changed`. -/
def bootCriticalChanged (snapshot : Snapshot) : Bool :=
  match snapshot.currentBoot.asObject, snapshot.bootedBoot.asObject with
  | some current, some booted =>
      bootCritical.any fun key =>
        criticalChanged reading key (current.lookup key) (booted.lookup key)
  | _, _ => true

/-- The status of a host that has a snapshot. -/
def judge (snapshot : Snapshot) (expected evalError : Option String)
    (maxAge : Option Int) (now : Int) : DriftStatus :=
  if jsonTruthy reading snapshot.unreachable then .unreachable
  else if snapshot.current.isNone then .incomplete
  else if tooOld reading snapshot.capturedAt maxAge now then .stale
  else if evalError.isSome then .evalFailed
  else if expected.isSome ∧ snapshot.current ≠ expected ∧
      snapshot.systemProfile = expected then .rebootPending
  else if expected.isSome ∧ snapshot.current ≠ expected then .drift
  else if snapshot.booted.any (· ≠ "") ∧ snapshot.booted ≠ snapshot.current then
    if bootCriticalChanged reading snapshot then .rebootPending else .activated
  else .inSync

/-- What `compare` says of one host; a host without a snapshot shows no
expectation. -/
def compareHost (snapshots : BTreeMap Snapshot) (expected : Toplevels)
    (maxAge : Option Int) (now : Int) (host : String) : DriftEntry :=
  let evalError := expected.errors[host]?
  match snapshots[host]? with
  | none =>
      { host
        status := .noSnapshot
        expected := none
        current := none
        booted := none
        systemProfile := none
        capturedAt := none
        evalError }
  | some snapshot =>
      { host
        status := judge reading snapshot expected.paths[host]? evalError maxAge now
        expected := expected.paths[host]?
        current := snapshot.current
        booted := snapshot.booted
        systemProfile := snapshot.systemProfile
        capturedAt := snapshot.capturedAt
        evalError }

theorem host_compareHost (snapshots : BTreeMap Snapshot) (expected : Toplevels)
    (maxAge : Option Int) (now : Int) (host : String) :
    (compareHost reading snapshots expected maxAge now host).host = host := by
  rw [compareHost]
  split <;> rfl

/-- `compare`. -/
def compare (deployNodes : List String) (snapshots : BTreeMap Snapshot)
    (expected : Option Toplevels) (maxAge : Option Int) (now : Int) :
    List DriftEntry :=
  (sortNames deployNodes).map
    (compareHost reading snapshots (expected.getD (.ofPaths ∅)) maxAge now)

end Judging

/-- `default_max_age`: twenty-four hours. -/
def defaultMaxAge : Int := 24 * 60 * 60 * 1000000000

/-! ## The key of the expectation cache -/

def isDirty (rev : String) : Bool :=
  "-dirty".toList.isSuffixOf rev.toList

/-- `cache_fresh`. -/
def cacheFresh (cachedRev currentRev : Option String) : Bool :=
  match cachedRev, currentRev with
  | some cached, some current => cached = current && !isDirty current
  | _, _ => false

theorem eq_of_cacheFresh {cachedRev currentRev : Option String}
    (hfresh : cacheFresh cachedRev currentRev) :
    ∃ rev, cachedRev = some rev ∧ currentRev = some rev ∧ isDirty rev = false := by
  cases cachedRev with
  | none => cases hfresh
  | some cached =>
      cases currentRev with
      | none => cases hfresh
      | some current =>
          have hboth : cached = current ∧ isDirty current = false := by
            simpa [cacheFresh] using hfresh
          exact ⟨current, congrArg some hboth.1, rfl, hboth.2⟩

theorem isDirty_append (hash : String) : isDirty (hash ++ "-dirty") := by
  rw [isDirty, String.toList_append, List.isSuffixOf_iff_suffix]
  exact List.suffix_append _ _

/-- A commit; no hash looks like that of a dirty tree. -/
structure Commit where
  hash : String
  clean : isDirty hash = false

/-- What is checked out: a commit, and what was edited since. -/
structure Checkout (Edits : Type) where
  head : Commit
  edits : Option Edits

variable {Edits : Type}

/-- `repo_rev`, from what the two `git` calls said. -/
def repoRev (head : Commit) (isClean : Bool) : String :=
  if isClean then head.hash else head.hash ++ "-dirty"

/-- The clean checkout of a commit. -/
def Commit.checkout (commit : Commit) : Checkout Edits :=
  { head := commit, edits := none }

theorem commit_eq_of_hash {left right : Commit} (heq : left.hash = right.hash) :
    left = right := by
  cases left
  cases right
  cases heq
  rfl

theorem isDirty_repoRev (head : Commit) (isClean : Bool) :
    isDirty (repoRev head isClean) = !isClean := by
  cases isClean with
  | true => exact head.clean
  | false => exact isDirty_append head.hash

end Mandala.Drift
