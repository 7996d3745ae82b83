import Mandala.Registry.Retention
import Mandala.Runner.Discovery

/-!
# Retention of launches

A launch leaves a directory for the supervisor and its log.  Launches are pruned
by the rule for runs, but whether one is inactive is asked in several places:
its lock, its activity file, the process that allocated it while there is no
such file, and the engine whose run id starts its log.
-/

namespace Mandala.Runner

open Mandala.Data Mandala.Text Mandala.Newest Mandala.Registry

/-! ## The launches' directory -/

/-- What reading a file comes to. -/
inductive FileRead where
  | bytes (content : List UInt8)
  | notFound
  | failed
  deriving DecidableEq, Repr

/-- `active.lock`: whether it can be opened and taken, and taken once more when
its launch is to be removed. -/
structure LaunchLock where
  isSymlink : Bool
  opens : Bool
  free : Bool
  freeLater : Bool
  deriving DecidableEq, Repr

structure LaunchEntry where
  name : List UInt8
  kind : EntryKind
  lock : LaunchLock
  /-- `active.json`. -/
  active : FileRead
  commandLog : Option (List UInt8)
  deriving DecidableEq, Repr

abbrev LaunchListing := Listing LaunchEntry LaunchEntry.name

/-- What the name of a launch says. -/
structure Allocation where
  stamp : ℕ
  allocator : Int
  sequence : ℕ
  deriving DecidableEq, Repr

def u128Max : ℕ := 340282366920938463463374607431768211455

def u32Max : ℕ := 4294967295

def allocationOf (name : List UInt8) : Option Allocation := do
  let text ← decodeUtf8 name
  match text.toList.splitOn '-' with
  | [stamp, allocator, sequence] =>
      let stamp ← parseUnsigned u128Max stamp
      let allocator ← parseI64 allocator
      let sequence ← parseUnsigned u32Max sequence
      if 0 < allocator then some { stamp, allocator, sequence } else none
  | _ => none

section Prune
variable (parsesTimestamp : TimestampParser) (base : String)
  (readDirectory : String → Option RunDirectory) (processExists : Int → Bool)
  (parseBytes : List UInt8 → Option Json)

/-! ## The engine of a launch -/

/-- `BufRead::lines`, before decoding: nothing after a last newline is none. -/
def bufLines (content : List UInt8) : List (List UInt8) :=
  let parts := content.splitOn newlineByte
  if parts.getLast? = some [] then parts.dropLast else parts

/-- The run whose id is the first to be found among the first lines. -/
def engineOf (entry : LaunchEntry) : Option OpenedRun :=
  entry.commandLog.bind fun content =>
    (((bufLines (content.take 65536)).take 32).filterMap decodeUtf8).findSome?
      fun line => openRunIn parsesTimestamp readDirectory base (trimLine line)

/-- `launch_engine_alive`. -/
def launchEngineAlive (entry : LaunchEntry) : Bool :=
  match engineOf parsesTimestamp base readDirectory entry with
  | none => false
  | some opened =>
      pidAlive processExists opened.run.directory.pid ||
        pidAlive processExists
          (opened.run.directory.payload.getI64 "supervisor_pid")

/-- The pid of an activity file. -/
def recordedPid (content : List UInt8) : Option Int :=
  (parseBytes content).bind fun value => (value.get "pid").bind Json.asI64

/-- Whether a launch is active, where that can be told. -/
def isActive (entry : LaunchEntry) (allocator : Int) : Option Bool :=
  match entry.active with
  | .bytes content =>
      (recordedPid parseBytes content).map fun pid =>
        pidAlive processExists (some pid)
  | .notFound =>
      some (pidAlive processExists (some allocator) ||
        launchEngineAlive parsesTimestamp base readDirectory processExists entry)
  | .failed => none

/-- The time stamp of a launch that is inactive. -/
def inactiveStamp (entry : LaunchEntry) : Option ℕ := do
  guard (entry.kind = .directory)
  let allocation ← allocationOf entry.name
  guard (!entry.lock.isSymlink && entry.lock.opens && entry.lock.free)
  let active ← isActive parsesTimestamp base readDirectory processExists
    parseBytes entry allocation.allocator
  guard (!active &&
    !launchEngineAlive parsesTimestamp base readDirectory processExists entry)
  return allocation.stamp

def inactiveLaunches (entries : List LaunchEntry) : List (ℕ × LaunchEntry) :=
  entries.filterMap fun entry =>
    (inactiveStamp parsesTimestamp base readDirectory processExists parseBytes
      entry).map (·, entry)

/-- Whether a stamp is too old; the clock stands still before its epoch. -/
def isOld (days : ℕ) (now : Int) (stamp : ℕ) : Bool :=
  decide (0 < days) && decide (days * dayNanos ≤ now.toNat - stamp)

/-- `prune_deploy_launches`: the launches it removes. -/
def pruneDeployLaunches (keep days : ℕ) (now : Int)
    (entries : List LaunchEntry) : List LaunchEntry :=
  ((overdue keep (fun launch => isOld days now launch.1)
    (newestFirst Prod.fst (inactiveLaunches parsesTimestamp base readDirectory
      processExists parseBytes entries))).map Prod.snd).filter
        (·.lock.freeLater)

/-! ## What pruning is for -/

/-- A launch nobody works on, as far as its lock, its activity file, its name
and the first lines of its log tell. -/
structure InactiveLaunch (entry : LaunchEntry) (stamp : ℕ) : Prop where
  directory : entry.kind = .directory
  unlocked : entry.lock.isSymlink = false ∧ entry.lock.opens = true ∧
    entry.lock.free = true
  named : ∃ allocation, allocationOf entry.name = some allocation ∧
    allocation.stamp = stamp ∧
      ((∃ content pid, entry.active = .bytes content ∧
          recordedPid parseBytes content = some pid ∧
            pidAlive processExists (some pid) = false) ∨
        (entry.active = .notFound ∧
          pidAlive processExists (some allocation.allocator) = false))
  engine : ∀ opened, engineOf parsesTimestamp base readDirectory entry =
      some opened →
    pidAlive processExists opened.run.directory.pid = false ∧
      pidAlive processExists
        (opened.run.directory.payload.getI64 "supervisor_pid") = false

structure ExpiredLaunch (days : ℕ) (now : Int) (stamp : ℕ) : Prop where
  limited : 0 < days
  old : stamp + days * dayNanos ≤ now.toNat

/-- Pruning removes the inactive launches that are expired or have enough newer
inactive ones (of one stamp, those listed before), unless their lock is taken;
then it has nothing left to do. -/
structure LaunchesRetained (keep days : ℕ) (now : Int)
    (listing : LaunchListing) : Prop where
  only : ∀ entry ∈ pruneDeployLaunches parsesTimestamp base readDirectory
      processExists parseBytes keep days now listing.entries,
    entry ∈ listing.entries
  exact : ∀ front entry back, listing.entries = front ++ entry :: back →
    (entry ∈ pruneDeployLaunches parsesTimestamp base readDirectory
        processExists parseBytes keep days now listing.entries ↔
      ∃ stamp,
        InactiveLaunch parsesTimestamp base readDirectory processExists
            parseBytes entry stamp ∧
          entry.lock.freeLater = true ∧
          (ExpiredLaunch days now stamp ∨
            keep ≤ newer Prod.fst
              (inactiveLaunches parsesTimestamp base readDirectory
                processExists parseBytes front) (stamp, entry)
              (inactiveLaunches parsesTimestamp base readDirectory
                processExists parseBytes back)))
  again : pruneDeployLaunches parsesTimestamp base readDirectory processExists
    parseBytes keep days now
    (without LaunchEntry.name
      (pruneDeployLaunches parsesTimestamp base readDirectory processExists
        parseBytes keep days now listing.entries) listing.entries) = []

end Prune

/-! ## The inactive launches -/

section Proofs
variable {parsesTimestamp : TimestampParser} {base : String}
  {readDirectory : String → Option RunDirectory} {processExists : Int → Bool}
  {parseBytes : List UInt8 → Option Json} {keep days : ℕ} {now : Int}
  {entry : LaunchEntry} {stamp : ℕ}

theorem launchEngineAlive_eq_false_iff :
    launchEngineAlive parsesTimestamp base readDirectory processExists entry =
        false ↔
      ∀ opened, engineOf parsesTimestamp base readDirectory entry =
          some opened →
        pidAlive processExists opened.run.directory.pid = false ∧
          pidAlive processExists
            (opened.run.directory.payload.getI64 "supervisor_pid") = false := by
  rw [launchEngineAlive]
  cases engineOf parsesTimestamp base readDirectory entry with
  | none => simp
  | some opened => simp

/-- A launch without an engine is inactive as its activity file tells. -/
theorem isActive_eq_false_iff {allocator : Int}
    (hengine : launchEngineAlive parsesTimestamp base readDirectory
      processExists entry = false) :
    isActive parsesTimestamp base readDirectory processExists parseBytes entry
        allocator = some false ↔
      (∃ content pid, entry.active = .bytes content ∧
          recordedPid parseBytes content = some pid ∧
            pidAlive processExists (some pid) = false) ∨
        (entry.active = .notFound ∧
          pidAlive processExists (some allocator) = false) := by
  rw [isActive]
  cases hactive : entry.active with
  | bytes content =>
      dsimp only
      rw [Option.map_eq_some_iff]
      constructor
      · rintro ⟨pid, hpid, halive⟩
        exact .inl ⟨content, pid, rfl, hpid, halive⟩
      · rintro (⟨own, pid, hown, hpid, halive⟩ | ⟨hown, -⟩)
        · cases hown
          exact ⟨pid, hpid, halive⟩
        · cases hown
  | notFound => simp [hengine]
  | failed => simp

theorem inactiveStamp_eq_some_iff :
    inactiveStamp parsesTimestamp base readDirectory processExists parseBytes
        entry = some stamp ↔
      InactiveLaunch parsesTimestamp base readDirectory processExists parseBytes
        entry stamp := by
  rw [inactiveStamp]
  simp only [Option.bind_eq_bind, Option.bind_eq_some_iff, Option.guard_eq_some',
    exists_const, Bool.and_eq_true, Bool.not_eq_true', Option.pure_def,
    Option.some.injEq]
  constructor
  · rintro ⟨hkind, allocation, hname, ⟨⟨hlink, hopens⟩, hfree⟩, active, hactive,
      ⟨hquiet, hengine⟩, hstamp⟩
    subst hquiet
    exact ⟨hkind, ⟨hlink, hopens, hfree⟩,
      ⟨allocation, hname, hstamp, (isActive_eq_false_iff hengine).mp hactive⟩,
      launchEngineAlive_eq_false_iff.mp hengine⟩
  · rintro ⟨hkind, ⟨hlink, hopens, hfree⟩, ⟨allocation, hname, hstamp, hgone⟩,
      hengine⟩
    have hdead := launchEngineAlive_eq_false_iff.mpr hengine
    exact ⟨hkind, allocation, hname, ⟨⟨hlink, hopens⟩, hfree⟩, false,
      (isActive_eq_false_iff hdead).mpr hgone, ⟨rfl, hdead⟩, hstamp⟩

theorem isOld_iff : isOld days now stamp = true ↔ ExpiredLaunch days now stamp := by
  rw [isOld, Bool.and_eq_true, decide_eq_true_eq, decide_eq_true_eq]
  constructor
  · rintro ⟨hlimited, hold⟩
    have hsome : 0 < days * dayNanos := Nat.mul_pos hlimited (by decide)
    exact ⟨hlimited, by omega⟩
  · rintro ⟨hlimited, hold⟩
    exact ⟨hlimited, by omega⟩

theorem inactiveLaunches_split (front : List LaunchEntry)
    (back : List LaunchEntry)
    (hstamp : inactiveStamp parsesTimestamp base readDirectory processExists
      parseBytes entry = some stamp) :
    inactiveLaunches parsesTimestamp base readDirectory processExists parseBytes
        (front ++ entry :: back) =
      inactiveLaunches parsesTimestamp base readDirectory processExists
          parseBytes front ++ (stamp, entry) ::
        inactiveLaunches parsesTimestamp base readDirectory processExists
          parseBytes back := by
  rw [inactiveLaunches, List.filterMap_append, List.filterMap_cons_some]
  · rfl
  · rw [hstamp, Option.map_some]

theorem mem_inactiveLaunches_iff {entries : List LaunchEntry} :
    (stamp, entry) ∈ inactiveLaunches parsesTimestamp base readDirectory
        processExists parseBytes entries ↔
      entry ∈ entries ∧ inactiveStamp parsesTimestamp base readDirectory
        processExists parseBytes entry = some stamp := by
  rw [inactiveLaunches, List.mem_filterMap]
  constructor
  · rintro ⟨own, hmem, hown⟩
    obtain ⟨time, htime, heq⟩ := Option.map_eq_some_iff.mp hown
    cases heq
    exact ⟨hmem, htime⟩
  · rintro ⟨hmem, hstamp⟩
    exact ⟨entry, hmem, by rw [hstamp, Option.map_some]⟩

theorem nodup_inactiveLaunches {entries : List LaunchEntry}
    (hnodup : entries.Nodup) :
    (inactiveLaunches parsesTimestamp base readDirectory processExists
      parseBytes entries).Nodup := by
  refine hnodup.filterMap fun left right launch hleft hright => ?_
  obtain ⟨_, -, rfl⟩ := Option.map_eq_some_iff.mp hleft
  obtain ⟨_, -, heq⟩ := Option.map_eq_some_iff.mp hright
  exact (Prod.mk.inj heq).2.symm

theorem inactiveLaunches_filter (keeps : LaunchEntry → Bool)
    (entries : List LaunchEntry) :
    inactiveLaunches parsesTimestamp base readDirectory processExists parseBytes
        (entries.filter keeps) =
      (inactiveLaunches parsesTimestamp base readDirectory processExists
        parseBytes entries).filter fun launch => keeps launch.2 := by
  rw [inactiveLaunches, inactiveLaunches, List.filterMap_filter,
    List.filter_filterMap]
  refine List.filterMap_congr fun entry _ => ?_
  cases inactiveStamp parsesTimestamp base readDirectory processExists parseBytes
      entry with
  | none => simp
  | some stamp =>
      rw [Option.map_some, Option.filter_some]

/-- The inactive launches in the order in which they are pruned. -/
theorem mem_pruneDeployLaunches_iff {entries : List LaunchEntry} :
    entry ∈ pruneDeployLaunches parsesTimestamp base readDirectory processExists
        parseBytes keep days now entries ↔
      entry.lock.freeLater = true ∧ ∃ stamp,
        (stamp, entry) ∈ overdue keep (fun launch => isOld days now launch.1)
          (newestFirst Prod.fst (inactiveLaunches parsesTimestamp base
            readDirectory processExists parseBytes entries)) := by
  rw [pruneDeployLaunches, List.mem_filter, List.mem_map, and_comm]
  refine and_congr_right fun _ => ?_
  constructor
  · rintro ⟨⟨stamp, own⟩, hmem, rfl⟩
    exact ⟨stamp, hmem⟩
  · rintro ⟨stamp, hmem⟩
    exact ⟨(stamp, entry), hmem, rfl⟩

theorem inactive_of_overdue {entries : List LaunchEntry}
    (hmem : (stamp, entry) ∈ overdue keep
      (fun launch => isOld days now launch.1)
      (newestFirst Prod.fst (inactiveLaunches parsesTimestamp base readDirectory
        processExists parseBytes entries))) :
    entry ∈ entries ∧ inactiveStamp parsesTimestamp base readDirectory
      processExists parseBytes entry = some stamp :=
  mem_inactiveLaunches_iff.mp
    ((perm_newestFirst _).mem_iff.mp (mem_of_mem_overdue hmem))

variable (parsesTimestamp base readDirectory processExists parseBytes keep days
  now)

/-- Pruning the launches is safe and exact. -/
theorem launches_retained (listing : LaunchListing) :
    LaunchesRetained parsesTimestamp base readDirectory processExists parseBytes
      keep days now listing := by
  have hnodup : (inactiveLaunches parsesTimestamp base readDirectory
      processExists parseBytes listing.entries).Nodup :=
    nodup_inactiveLaunches (nodup_entries listing)
  refine ⟨?_, ?_, ?_⟩
  · intro entry hmem
    obtain ⟨-, stamp, hoverdue⟩ := mem_pruneDeployLaunches_iff.mp hmem
    exact (inactive_of_overdue hoverdue).1
  · intro front entry back hsplit
    rw [hsplit] at hnodup
    rw [mem_pruneDeployLaunches_iff, hsplit]
    have hrule {stamp : ℕ}
        (hstamp : inactiveStamp parsesTimestamp base readDirectory processExists
          parseBytes entry = some stamp) :
        (stamp, entry) ∈ overdue keep (fun launch => isOld days now launch.1)
            (newestFirst Prod.fst (inactiveLaunches parsesTimestamp base
              readDirectory processExists parseBytes
                (front ++ entry :: back))) ↔
          ExpiredLaunch days now stamp ∨ keep ≤ newer Prod.fst
            (inactiveLaunches parsesTimestamp base readDirectory processExists
              parseBytes front) (stamp, entry)
            (inactiveLaunches parsesTimestamp base readDirectory processExists
              parseBytes back) := by
      rw [inactiveLaunches_split front back hstamp] at hnodup ⊢
      rw [mem_overdue_newestFirst_iff hnodup, isOld_iff, or_comm]
    constructor
    · rintro ⟨hfree, stamp, hoverdue⟩
      have hstamp := (inactive_of_overdue hoverdue).2
      exact ⟨stamp, inactiveStamp_eq_some_iff.mp hstamp, hfree,
        (hrule hstamp).mp hoverdue⟩
    · rintro ⟨stamp, hinactive, hfree, hlate⟩
      exact ⟨hfree, stamp,
        (hrule (inactiveStamp_eq_some_iff.mpr hinactive)).mpr hlate⟩
  · rw [List.eq_nil_iff_forall_not_mem]
    intro entry hagain
    obtain ⟨hfree, stamp, hoverdue⟩ := mem_pruneDeployLaunches_iff.mp hagain
    have hleft := (mem_without_iff.mp (inactive_of_overdue hoverdue).1).2
    rw [without, inactiveLaunches_filter, ← filter_newestFirst] at hoverdue
    have hbefore := mem_overdue_of_filter
      ((perm_newestFirst _).nodup_iff.mpr hnodup) hoverdue
    exact hleft (List.mem_map_of_mem
      (mem_pruneDeployLaunches_iff.mpr ⟨hfree, stamp, hbefore⟩))

variable (timeOf : String → Option Int) (runsNow : Int)

/-- **Retention.** Whatever the directories hold and whichever processes are
alive, pruning the registry removes exactly the dead runs and pruning the
launches exactly the inactive ones that the rule selects, and once more removes
nothing. -/
theorem retention (runs : RunListing) (launches : LaunchListing) :
    RunsRetained timeOf processExists keep days runsNow runs ∧
      LaunchesRetained (timestampParser timeOf) base readDirectory processExists
        parseBytes keep days now launches :=
  ⟨runs_retained timeOf processExists keep days runsNow runs,
    launches_retained (timestampParser timeOf) base readDirectory processExists
      parseBytes keep days now launches⟩

end Proofs

/-! ### A launch whose allocator outlives its engine -/

/-- A launch of process 7 that has published process 3. -/
def publishedLaunch : LaunchEntry where
  name := encodeUtf8 "1-7-0"
  kind := .directory
  lock := { isSymlink := false, opens := true, free := true, freeLater := true }
  active := .bytes []
  commandLog := none

/-- Pruned while the process that allocated it is alive. -/
theorem publishedLaunch_pruned :
    ¬ ∀ (launches : LaunchListing) (parseBytes : List UInt8 → Option Json)
        (processExists : Int → Bool) (keep : ℕ) (entry : LaunchEntry),
      entry ∈ pruneDeployLaunches (fun _ => false) "" (fun _ => none)
          processExists parseBytes keep 0 0 launches.entries →
        ∀ allocation, allocationOf entry.name = some allocation →
          pidAlive processExists (some allocation.allocator) = false := by
  intro hsafe
  have hallocation : allocationOf publishedLaunch.name =
      some { stamp := 1, allocator := 7, sequence := 0 } := by
    decide +kernel
  have halive := hsafe
    { entries := [publishedLaunch], distinct := List.nodup_singleton _ }
    (fun _ => some (.object [("pid", .int 3)])) (· = 7) 0 publishedLaunch
    (by decide +kernel) _ hallocation
  exact absurd halive (by decide)

end Mandala.Runner
