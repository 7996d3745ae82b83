import Mandala.Core.Transition
import Mandala.Registry.Retention

/-!
# Processes that share the registry

Every allocation prunes first, from a listing that the others have long changed,
and asks for one pid after the other whether anybody still works on a run.
Between its creation and its metadata a run is known by its id alone.
-/

namespace Mandala.Registry

open Mandala.Data Mandala.Text Mandala.Transition

/-! ## Threads -/

/-- `now_id`. -/
def nowId (stamp : String) (pid : ℕ) : String := stamp ++ "-" ++ toString pid

/-- The pids whose processes `prune_policy` looks for, in its order. -/
def RunEntry.asked (entry : RunEntry) : List (Option Int) :=
  [entry.pid, entry.supervisorPid, entry.allocatingPid]

/-- Where a thread that allocates a run stands. -/
inductive ThreadPhase where
  | listing (seen : List RunEntry)
  /-- The entry was looked at, its metadata was not. -/
  | reading (seen : List RunEntry) (name : List UInt8) (kind : EntryKind)
  | pruning (todo : List RunEntry) (survivors : ℕ)
  /-- These pids have still to be asked for. -/
  | probing (entry : RunEntry) (asked : List (Option Int))
      (todo : List RunEntry) (survivors : ℕ)
  | removing (entry : RunEntry) (todo : List RunEntry) (survivors : ℕ)
  | claiming
  /-- The directory is there, its metadata is not. -/
  | holding (runId : String)
  /-- The recorded process works; its metadata may be about to be merged. -/
  | working (runId : String) (pid : ℕ) (read : Option Meta)
  /-- No process works on the run any more, but its end may be recorded. -/
  | settling (runId : String) (read : Option Meta)

structure Thread where
  pid : ℕ
  /-- The time its pruning goes by. -/
  now : Int
  phase : ThreadPhase

/-- The registry's directory by name, and the names that were ever in it. -/
structure Shared where
  alive : ℕ → Bool
  entries : List UInt8 → Option (EntryKind × Meta)
  known : List UInt8 → Bool
  threads : ℕ → Option Thread

inductive Operation where
  | stat (name : List UInt8)
  | readMeta
  | sort
  | advance
  | wipe
  | unlink
  | abandon
  | claim (stamp : String)
  | publish (pid : Option ℕ) (payload : Meta)
  | load
  | store (fields : List (String × Json))
  | reap

inductive RegistryLabel where
  | spawn (pid : ℕ)
  | exit (pid : ℕ)
  | begin (id pid : ℕ) (now : Int)
  | operate (id : ℕ) (operation : Operation)
  | leave (id : ℕ)

/-- What the registry is pruned by, and the operating system's answer about a
pid. -/
structure Retention where
  timeOf : String → Option Int
  keep : ℕ
  maxAgeDays : ℕ
  processExists : (ℕ → Bool) → Int → Bool

section Steps
variable (rules : Retention)

/-- The next step of `prune_policy`. -/
def Thread.advance (alive : ℕ → Bool) (thread : Thread) : Option ThreadPhase :=
  match thread.phase with
  | .pruning [] _ => some .claiming
  | .pruning (entry :: todo) survivors =>
      some (.probing entry entry.asked todo survivors)
  | .probing entry (pid :: asked) todo survivors =>
      if pidAlive (rules.processExists alive) pid then
        some (.pruning todo survivors)
      else some (.probing entry asked todo survivors)
  | .probing entry [] todo survivors =>
      if rules.keep < survivors + 1 ∨
          isExpired rules.timeOf rules.maxAgeDays thread.now entry = true then
        some (.removing entry todo (survivors + 1))
      else some (.pruning todo (survivors + 1))
  | _ => none

namespace Shared

variable (shared : Shared)

def setThread (id : ℕ) (thread : Option Thread) : Shared :=
  { shared with threads := Function.update shared.threads id thread }

def setEntry (name : List UInt8) (entry : Option (EntryKind × Meta)) :
    Shared :=
  { shared with entries := Function.update shared.entries name entry }

/-- `create_dir`. -/
def createDir (runId : String) : Shared :=
  { shared.setEntry (encodeUtf8 runId) (some (.directory, ∅)) with
    known := Function.update shared.known (encodeUtf8 runId) true }

/-- `read_meta`. -/
def readMeta (name : List UInt8) : Meta :=
  match shared.entries name with
  | some (_, payload) => payload
  | none => ∅

/-- `write_meta`, which needs the directory. -/
def writeMeta (runId : String) (payload : Meta) : Shared :=
  match shared.entries (encodeUtf8 runId) with
  | some (kind, _) => shared.setEntry (encodeUtf8 runId) (some (kind, payload))
  | none => shared

/-- What an operation of a thread makes of the registry and of the thread. -/
def operate (thread : Thread) : Operation → Option (Shared × ThreadPhase)
  | .stat name =>
      match thread.phase, shared.entries name with
      | .listing seen, some (kind, _) => some (shared, .reading seen name kind)
      | _, _ => none
  | .readMeta =>
      match thread.phase with
      | .reading seen name kind => some
          (shared, .listing (seen ++ [⟨name, kind, shared.readMeta name⟩]))
      | _ => none
  | .sort =>
      match thread.phase with
      | .listing seen =>
          some (shared, .pruning (listRunsIn rules.timeOf seen) 0)
      | _ => none
  | .advance => (thread.advance rules shared.alive).map (shared, ·)
  | .wipe =>
      match thread.phase with
      | .removing entry todo survivors => some
          (shared.setEntry entry.name
            ((shared.entries entry.name).map fun found => (found.1, ∅)),
            .removing entry todo survivors)
      | _ => none
  | .unlink =>
      match thread.phase with
      | .removing entry todo survivors =>
          some (shared.setEntry entry.name none, .pruning todo survivors)
      | _ => none
  | .abandon =>
      match thread.phase with
      | .removing _ todo survivors => some (shared, .pruning todo survivors)
      | _ => none
  | .claim stamp =>
      match thread.phase with
      | .claiming =>
          let runId := nowId stamp thread.pid
          if (shared.entries (encodeUtf8 runId)).isSome then
            some (shared, .claiming)
          else some (shared.createDir runId, .holding runId)
      | _ => none
  | .publish pid payload =>
      match thread.phase, pid with
      | .holding runId, some pid =>
          if shared.alive pid ∧ payload.getI64 "pid" = some (pid : Int) then
            some (shared.writeMeta runId payload, .working runId pid none)
          else none
      | .holding runId, none =>
          some (shared.writeMeta runId payload, .settling runId none)
      | _, _ => none
  | .load =>
      match thread.phase with
      | .working runId pid _ => some (shared,
          .working runId pid (some (shared.readMeta (encodeUtf8 runId))))
      | .settling runId _ => some (shared,
          .settling runId (some (shared.readMeta (encodeUtf8 runId))))
      | _ => none
  | .store fields =>
      match thread.phase with
      | .working runId pid (some read) => some
          (shared.writeMeta runId (read.update fields), .working runId pid none)
      | .settling runId (some read) => some
          (shared.writeMeta runId (read.update fields), .settling runId none)
      | _ => none
  | .reap =>
      match thread.phase with
      | .working runId _ _ => some (shared, .settling runId none)
      | _ => none

/-- A process comes or goes, and with it its threads; a thread sets about an
allocation, takes a step in it or gives it up. -/
def act : RegistryLabel → Option Shared
  | .spawn pid =>
      if 0 < pid ∧ pid < 4294967296 ∧ shared.alive pid = false then
        some { shared with alive := Function.update shared.alive pid true }
      else none
  | .exit pid => some
      { shared with
        alive := Function.update shared.alive pid false
        threads := fun id =>
          (shared.threads id).filter fun thread => thread.pid ≠ pid }
  | .begin id pid now =>
      if (shared.threads id).isNone ∧ shared.alive pid = true then
        some (shared.setThread id (some ⟨pid, now, .listing []⟩))
      else none
  | .operate id operation => do
      let thread ← shared.threads id
      let (next, phase) ← shared.operate rules thread operation
      return next.setThread id (some { thread with phase })
  | .leave id => some (shared.setThread id none)

end Shared

/-- No id comes back once its directory is gone, no pid while its process has
not been waited for; a merge leaves the recorded pid alone. -/
def Permitted (shared : Shared) : RegistryLabel → Prop
  | .exit pid => ∀ id thread runId read,
      shared.threads id = some thread →
        thread.phase = .working runId pid read → thread.pid = pid
  | .operate id (.claim stamp) => ∀ thread,
      shared.threads id = some thread →
        shared.known (encodeUtf8 (nowId stamp thread.pid)) = true →
          shared.entries (encodeUtf8 (nowId stamp thread.pid)) ≠ none
  | .operate _ (.store fields) => ∀ field ∈ fields, field.1 ≠ "pid"
  | _ => True

/-- Before the first thread, whatever earlier runs have left. -/
structure Untouched (shared : Shared) : Prop where
  unused : ∀ id, shared.threads id = none
  noted : ∀ name, shared.entries name ≠ none → shared.known name = true
  bounded : ∀ pid, shared.alive pid = true → 0 < pid ∧ pid < 4294967296

abbrev RegistryRuns : Shared → Prop :=
  Reachable Untouched (fun before label after =>
    before.act rules label = some after) Permitted

end Steps

/-! ## What the registry owes a run -/

/-- The run a thread allocated, and the processes that still work on it. -/
def Thread.workedOn (thread : Thread) : Option (String × List ℕ) :=
  match thread.phase with
  | .holding runId => some (runId, [thread.pid])
  | .working runId pid _ => some (runId, [thread.pid, pid])
  | _ => none

/-- The directory of a run that is worked on is there, as its one thread made
it or with the metadata that names the process at work. -/
structure RunsHeld (shared : Shared) : Prop where
  allocated : ∀ id thread runId, shared.threads id = some thread →
    thread.phase = .holding runId →
      shared.entries (encodeUtf8 runId) = some (.directory, ∅)
  recorded : ∀ id thread runId pid read, shared.threads id = some thread →
    thread.phase = .working runId pid read →
      shared.alive pid = true ∧ ∃ payload,
        shared.entries (encodeUtf8 runId) = some (.directory, payload) ∧
          payload.getI64 "pid" = some (pid : Int)
  unshared : ∀ id other thread found run, shared.threads id = some thread →
    shared.threads other = some found → thread.workedOn = some run →
      found.workedOn.map Prod.fst = some run.1 → id = other
  spared : ∀ id other thread found run entry todo survivors,
    shared.threads id = some thread → shared.threads other = some found →
      thread.workedOn = some run →
        found.phase = .removing entry todo survivors →
          entry.name ≠ encodeUtf8 run.1

/-! ## The pid in an id -/

theorem value_toDigits (number : ℕ) :
    Decimal.value 10 ((Nat.toDigits 10 number).map digitOfChar) = number := by
  calc Decimal.value 10 ((Nat.toDigits 10 number).map digitOfChar)
      = (Nat.toDigits 10 number).foldl
          (fun read character => read * 10 + digitOfChar character) 0 :=
        List.foldl_map
    _ = Nat.ofDigitChars 10 (Nat.toDigits 10 number) 0 := by
        rw [Nat.ofDigitChars]
        congr 1
        funext read character
        rw [Nat.mul_comm]
        rfl
    _ = number := Nat.ofDigitChars_ten_toDigits

theorem all_isDigit_toDigits (number : ℕ) :
    (Nat.toDigits 10 number).all Char.isDigit = true :=
  List.all_eq_true.mpr fun _ hmem =>
    Nat.isDigit_of_mem_toDigits (by decide) (by decide) hmem

theorem parseI64_toDigits {number : ℕ} (hbound : number ≤ i64Max) :
    parseI64 (Nat.toDigits 10 number) = some (number : Int) := by
  have hne : Nat.toDigits 10 number ≠ [] :=
    List.ne_nil_of_length_pos Nat.length_toDigits_pos
  have hread : parseDigits i64Max (Nat.toDigits 10 number) = some number := by
    rw [parseDigits, if_pos ⟨hne, all_isDigit_toDigits number⟩, value_toDigits,
      if_pos hbound]
  have hdigit := all_isDigit_toDigits number
  cases hdigits : Nat.toDigits 10 number with
  | nil => exact absurd hdigits hne
  | cons first rest =>
      rw [hdigits] at hread hdigit
      have hfirst : first.isDigit = true := by
        rw [List.all_cons, Bool.and_eq_true] at hdigit
        exact hdigit.1
      have hplus : first ≠ '+' := by rintro rfl; exact absurd hfirst (by decide)
      have hminus : first ≠ '-' := by rintro rfl; exact absurd hfirst (by decide)
      rw [parseI64, parseUnsigned, hread]
      · rfl
      · exact fun _ heq => hplus (List.cons.inj heq).1
      · exact fun _ heq => hminus (List.cons.inj heq).1

theorem notMem_toDigits (number : ℕ) : '-' ∉ Nat.toDigits 10 number := by
  intro hmem
  have hdigit := Nat.isDigit_of_mem_toDigits (by decide) (by decide) hmem
  exact absurd hdigit (by decide)

theorem toList_nowId (stamp : String) (pid : ℕ) :
    (nowId stamp pid).toList =
      stamp.toList ++ '-' :: Nat.toDigits 10 pid := by
  rw [nowId, String.toList_append, String.toList_append, List.append_assoc]
  congr 1
  have hpid : (toString pid).toList = Nat.toDigits 10 pid :=
    String.toList_ofList
  rw [hpid]
  rfl

/-- A run whose metadata is not there yet names the process that allocates
it. -/
theorem allocatingPid_nowId (stamp : String) {pid : ℕ} (hpid : pid ≤ i64Max)
    (kind : EntryKind) :
    RunEntry.allocatingPid ⟨encodeUtf8 (nowId stamp pid), kind, ∅⟩ =
      some (pid : Int) := by
  have hrun : RunEntry.runId ⟨encodeUtf8 (nowId stamp pid), kind, ∅⟩ =
      nowId stamp pid := by
    rw [RunEntry.runId, decodeUtf8_encodeUtf8, Option.getD_some]
  have hdash : '-' ∈ (nowId stamp pid).toList := by
    rw [toList_nowId]
    exact List.mem_append_right _ List.mem_cons_self
  have hback : ((nowId stamp pid).toList.reverse.takeWhile (· ≠ '-')).reverse =
      Nat.toDigits 10 pid := by
    rw [toList_nowId, List.reverse_append, List.reverse_cons, List.append_assoc,
      List.takeWhile_append_of_pos]
    · simp
    · intro character hmem
      refine decide_eq_true fun heq => ?_
      exact notMem_toDigits pid (heq ▸ List.mem_reverse.mp hmem)
  rw [RunEntry.allocatingPid, hrun, if_pos ⟨Std.TreeMap.isEmpty_emptyc, hdash⟩,
    hback, parseI64_toDigits hpid]

end Mandala.Registry
