import Mathlib.Data.Int.Notation
import Mathlib.Tactic.Common

/-!
# Processes, process groups and signals

A pid names at most one process at a time, and is given to a new process only
when no process and no process group is left with it.  Every process is told
apart from later ones of its pid by its birth, and every group from later ones
of its id by the birth of the process that founded it.
-/

namespace Mandala.Processes

structure Process where
  pid : ℤ
  birth : ℕ
  pgid : ℤ
  /-- The birth of the process that founded its group. -/
  founder : ℕ
  /-- The status of a process that exited and was not waited for yet. -/
  exited : Option ℤ
  /-- The caller may signal it. -/
  permitted : Bool
  deriving DecidableEq, Repr

/-- The process is in the group it founded, or in that of one of `processes`. -/
def Grouped (processes : List Process) (process : Process) : Prop :=
  (process.pgid = process.pid ∧ process.founder = process.birth) ∨
    ∃ member ∈ processes,
      process.pgid = member.pgid ∧ process.founder = member.founder

/-- Only the group, the status or the credentials of a process may change, and
a status only once. -/
structure Changed (processes : List Process) (process changed : Process) :
    Prop where
  pid : changed.pid = process.pid
  birth : changed.birth = process.birth
  exited : process.exited.isSome → changed.exited = process.exited
  grouped : Grouped processes changed

theorem Grouped.of_mem {processes : List Process} {process : Process}
    (hmem : process ∈ processes) : Grouped processes process :=
  .inr ⟨process, hmem, rfl, rfl⟩

/-- Whether a system with these processes may give the pid to a new one. -/
def Free (processes : List Process) (pid : ℤ) : Prop :=
  (1 < pid ∧ pid < 2147483648) ∧
    ∀ process ∈ processes, process.pid ≠ pid ∧ process.pgid ≠ pid

instance (processes : List Process) (pid : ℤ) :
    Decidable (Free processes pid) :=
  inferInstanceAs (Decidable (_ ∧ _))

/-- The processes of a system that has had `births` of them. -/
structure WellFormed (processes : List Process) (births : ℕ) : Prop where
  distinct : ∀ process ∈ processes, ∀ other ∈ processes,
    process.pid = other.pid ∨ process.birth = other.birth → process = other
  bounded : ∀ process ∈ processes, 0 < process.pid ∧ process.pid < 2147483648
  born : ∀ process ∈ processes,
    process.birth < births ∧ process.founder < births
  /-- A group with the pid of a process was founded by that process. -/
  founded : ∀ leader ∈ processes, ∀ member ∈ processes,
    member.pgid = leader.pid → member.founder = leader.birth

namespace WellFormed

variable {processes : List Process} {births : ℕ}

theorem founder_lt (hprocesses : WellFormed processes births)
    {process : Process} (hgrouped : Grouped processes process) :
    process.founder < births ∨ process.founder = process.birth := by
  rcases hgrouped with ⟨-, hfounder⟩ | ⟨member, hmem, -, hfounder⟩
  · exact .inr hfounder
  · exact .inl (hfounder ▸ (hprocesses.born member hmem).2)

/-- A process born into a pid that is free. -/
theorem cons (hprocesses : WellFormed processes births) {newcomer : Process}
    (hfree : Free processes newcomer.pid) (hbirth : newcomer.birth = births)
    (hgrouped : Grouped processes newcomer) :
    WellFormed (newcomer :: processes) (births + 1) := by
  have hother : ∀ process ∈ processes,
      ¬ (newcomer.pid = process.pid ∨ newcomer.birth = process.birth) := by
    intro process hmem hsame
    have hborn := (hprocesses.born process hmem).1
    rcases hsame with hpid | hsame
    · exact (hfree.2 process hmem).1 hpid.symm
    · omega
  constructor
  · simp only [List.forall_mem_cons]
    refine ⟨⟨fun _ => trivial, ?_⟩, fun process hprocess => ⟨?_, ?_⟩⟩
    · exact fun other hmem hsame => absurd hsame (hother other hmem)
    · exact fun hsame =>
        absurd (hsame.imp Eq.symm Eq.symm) (hother process hprocess)
    · exact hprocesses.distinct process hprocess
  · have hpid := hfree.1
    exact List.forall_mem_cons.mpr ⟨⟨by omega, hpid.2⟩, hprocesses.bounded⟩
  · refine List.forall_mem_cons.mpr ⟨?_, fun process hmem => ?_⟩
    · have hfounder := hprocesses.founder_lt hgrouped
      omega
    · have hborn := hprocesses.born process hmem
      omega
  · simp only [List.forall_mem_cons]
    refine ⟨⟨fun hown => ?_, ?_⟩, fun leader hleader => ⟨fun hpgid => ?_, ?_⟩⟩
    · rcases hgrouped with ⟨-, hfounder⟩ | ⟨other, hmem, hgroup, -⟩
      · exact hfounder
      · exact absurd (hgroup.symm.trans hown) (hfree.2 other hmem).2
    · exact fun member hmember hpgid =>
        absurd hpgid (hfree.2 member hmember).2
    · rcases hgrouped with ⟨hown, -⟩ | ⟨other, hmem, hgroup, hfounder⟩
      · exact absurd (hpgid.symm.trans hown) (hfree.2 leader hleader).1
      · rw [hfounder]
        exact hprocesses.founded leader hleader other hmem
          (hgroup.symm.trans hpgid)
    · exact hprocesses.founded leader hleader

/-- Processes changed in place, their groups included. -/
theorem map (hprocesses : WellFormed processes births)
    {change : Process → Process}
    (hchange : ∀ process ∈ processes,
      Changed processes process (change process)) :
    WellFormed (processes.map change) births := by
  constructor
  · simp only [List.forall_mem_map]
    intro process hprocess other hmem hsame
    rw [(hchange process hprocess).pid, (hchange process hprocess).birth,
      (hchange other hmem).pid, (hchange other hmem).birth] at hsame
    rw [hprocesses.distinct process hprocess other hmem hsame]
  · simp only [List.forall_mem_map]
    intro process hmem
    rw [(hchange process hmem).pid]
    exact hprocesses.bounded process hmem
  · simp only [List.forall_mem_map]
    intro process hmem
    have hborn := (hprocesses.born process hmem).1
    have hfounder := hprocesses.founder_lt (hchange process hmem).grouped
    rw [(hchange process hmem).birth] at hfounder ⊢
    omega
  · simp only [List.forall_mem_map]
    intro leader hleader member hmember hpgid
    have hchanged := hchange member hmember
    rw [(hchange leader hleader).pid] at hpgid
    rw [(hchange leader hleader).birth]
    rcases hchanged.grouped with ⟨hown, hfounder⟩ | ⟨other, hmem, hgroup, hfounder⟩
    · rw [hchanged.pid] at hown
      rw [hfounder, hchanged.birth, hprocesses.distinct member hmember leader
        hleader (.inl (hown.symm.trans hpgid))]
    · rw [hfounder]
      exact hprocesses.founded leader hleader other hmem
        (hgroup.symm.trans hpgid)

theorem filter (hprocesses : WellFormed processes births)
    (keep : Process → Bool) :
    WellFormed (processes.filter keep) births := by
  have hmem : ∀ process ∈ processes.filter keep, process ∈ processes :=
    fun process hprocess => (List.mem_filter.mp hprocess).1
  constructor
  · exact fun process hprocess other hother =>
      hprocesses.distinct process (hmem process hprocess) other (hmem other hother)
  · exact fun process hprocess =>
      hprocesses.bounded process (hmem process hprocess)
  · exact fun process hprocess => hprocesses.born process (hmem process hprocess)
  · exact fun leader hleader member hmember =>
      hprocesses.founded leader (hmem leader hleader) member (hmem member hmember)

end WellFormed

structure Table where
  processes : List Process
  births : ℕ
  wellFormed : WellFormed processes births

namespace Table

def find (table : Table) (pid : ℤ) :
    Option { process : Process // process ∈ table.processes } :=
  table.processes.attach.find? (·.1.pid = pid)

theorem find_pid {table : Table} {pid : ℤ}
    {process : { process : Process // process ∈ table.processes }}
    (hfind : table.find pid = some process) : process.1.pid = pid := by
  simpa using List.find?_some hfind

theorem find_eq_none {table : Table} {pid : ℤ} (hfind : table.find pid = none) :
    ∀ process ∈ table.processes, process.pid ≠ pid := by
  intro process hmem
  simpa using List.find?_eq_none.mp hfind ⟨process, hmem⟩ (List.mem_attach _ _)

theorem find_eq_some {table : Table} {process : Process}
    (hmem : process ∈ table.processes) :
    table.find process.pid = some ⟨process, hmem⟩ := by
  cases hfind : table.find process.pid with
  | none => exact absurd rfl (find_eq_none hfind process hmem)
  | some found =>
      have hsame := table.wellFormed.distinct found.1 found.2 process hmem
        (.inl (find_pid hfind))
      rw [Option.some.injEq]
      exact Subtype.ext hsame

end Table

/-! ## What happens to processes -/

inductive Event where
  /-- `parent` has a child, in a group of its own or in its parent's. -/
  | fork (parent pid : ℤ) (leads permitted : Bool)
  /-- The process founds a group, or joins that of another. -/
  | regroup (pid : ℤ) (target : Option ℤ)
  | exit (pid status : ℤ)
  /-- Its parent waited for the process. -/
  | reap (pid : ℤ)
  /-- The process changed its credentials. -/
  | permit (pid : ℤ) (permitted : Bool)
  deriving DecidableEq, Repr

namespace Process

/-- A child of the process. -/
def forked (parent : Process) (pid : ℤ) (birth : ℕ) (leads permitted : Bool) :
    Process :=
  { pid, birth, permitted
    pgid := if leads then pid else parent.pgid
    founder := if leads then birth else parent.founder
    exited := none }

/-- Change the process with the pid, and no other. -/
def changedAt (pid : ℤ) (change : Process → Process) (process : Process) :
    Process :=
  if process.pid = pid then change process else process

/-- Found a group. -/
def lead (process : Process) : Process :=
  { process with pgid := process.pid, founder := process.birth }

def join (member process : Process) : Process :=
  { process with pgid := member.pgid, founder := member.founder }

def exit (status : ℤ) (process : Process) : Process :=
  { process with exited := process.exited.or (some status) }

def permit (permitted : Bool) (process : Process) : Process :=
  { process with permitted }

theorem grouped_forked {processes : List Process} {parent : Process}
    (hparent : parent ∈ processes) (pid : ℤ) (birth : ℕ)
    (leads permitted : Bool) :
    Grouped processes (parent.forked pid birth leads permitted) := by
  cases leads with
  | true => exact .inl ⟨rfl, rfl⟩
  | false => exact .inr ⟨parent, hparent, rfl, rfl⟩

section Changes

variable {processes : List Process}

theorem changed_changedAt {change : Process → Process} (pid : ℤ)
    (hchange : ∀ process ∈ processes,
      Changed processes process (change process)) :
    ∀ process ∈ processes,
      Changed processes process (changedAt pid change process) := by
  intro process hmem
  unfold changedAt
  split
  · exact hchange process hmem
  · exact ⟨rfl, rfl, fun _ => rfl, .of_mem hmem⟩

theorem changed_lead :
    ∀ process ∈ processes, Changed processes process process.lead :=
  fun _ _ => ⟨rfl, rfl, fun _ => rfl, .inl ⟨rfl, rfl⟩⟩

theorem changed_join {member : Process} (hmember : member ∈ processes) :
    ∀ process ∈ processes, Changed processes process (member.join process) :=
  fun _ _ => ⟨rfl, rfl, fun _ => rfl, .inr ⟨member, hmember, rfl, rfl⟩⟩

theorem changed_exit (status : ℤ) :
    ∀ process ∈ processes, Changed processes process (process.exit status) := by
  intro process hmem
  refine ⟨rfl, rfl, fun hexited => ?_, .inr ⟨process, hmem, rfl, rfl⟩⟩
  exact Option.or_of_isSome hexited

theorem changed_permit (permitted : Bool) :
    ∀ process ∈ processes,
      Changed processes process (process.permit permitted) :=
  fun process hmem => ⟨rfl, rfl, fun _ => rfl, .inr ⟨process, hmem, rfl, rfl⟩⟩

end Changes

end Process

namespace Table

def changeAt (table : Table) (pid : ℤ) (change : Process → Process)
    (hchange : ∀ process ∈ table.processes,
      Changed table.processes process (change process)) : Table :=
  { processes := table.processes.map (Process.changedAt pid change)
    births := table.births
    wellFormed := table.wellFormed.map (Process.changed_changedAt pid hchange) }

def remove (table : Table) (pid : ℤ) : Table :=
  { processes := table.processes.filter (·.pid ≠ pid)
    births := table.births
    wellFormed := table.wellFormed.filter _ }

/-- What an event makes of the processes, when it can happen. -/
def apply (table : Table) : Event → Option Table
  | .fork parent pid leads permitted =>
      (table.find parent).bind fun parent =>
        if hfree : Free table.processes pid then
          some
            { processes := parent.1.forked pid table.births leads permitted ::
                table.processes
              births := table.births + 1
              wellFormed := table.wellFormed.cons hfree rfl
                (Process.grouped_forked parent.2 pid table.births leads permitted) }
        else none
  | .regroup pid none => some (table.changeAt pid Process.lead Process.changed_lead)
  | .regroup pid (some member) =>
      (table.find member).map fun member =>
        table.changeAt pid member.1.join (Process.changed_join member.2)
  | .exit pid status =>
      some (table.changeAt pid (Process.exit status) (Process.changed_exit status))
  | .reap pid =>
      (table.find pid).bind fun process =>
        if process.1.exited.isSome then some (table.remove pid) else none
  | .permit pid permitted =>
      some (table.changeAt pid (Process.permit permitted)
        (Process.changed_permit permitted))

/-- The process was born into the pid the event gave away. -/
structure Newborn (before : Table) (event : Event) (process : Process) : Prop where
  fork : ∃ parent leads permitted,
    event = .fork parent process.pid leads permitted
  free : Free before.processes process.pid
  birth : process.birth = before.births
  grouped : Grouped before.processes process

/-- What an event can make of a table. -/
structure Evolves (before : Table) (event : Event) (after : Table) : Prop where
  births : before.births ≤ after.births
  earlier : ∀ process ∈ after.processes,
    (∃ old ∈ before.processes, Changed before.processes old process) ∨
      before.Newborn event process
  later : ∀ process ∈ before.processes,
    (event = .reap process.pid ∧ process.exited.isSome) ∨
      ∃ new ∈ after.processes, Changed before.processes process new

theorem Evolves.changeAt {table : Table} {event : Event} {pid : ℤ}
    {change : Process → Process}
    (hchange : ∀ process ∈ table.processes,
      Changed table.processes process (change process)) :
    table.Evolves event (table.changeAt pid change hchange) := by
  have hchanged := Process.changed_changedAt pid hchange
  refine ⟨Nat.le_refl _, ?_, ?_⟩
  · intro process hmem
    obtain ⟨old, hold, rfl⟩ := List.mem_map.mp hmem
    exact .inl ⟨old, hold, hchanged old hold⟩
  · intro process hmem
    exact .inr ⟨_, List.mem_map_of_mem hmem, hchanged process hmem⟩

/-- What a fork adds to the table. -/
theorem apply_fork {before after : Table} {parent pid : ℤ}
    {leads permitted : Bool}
    (happly : before.apply (.fork parent pid leads permitted) = some after) :
    ∃ newcomer : Process, after.processes = newcomer :: before.processes ∧
      after.births = before.births + 1 ∧ newcomer.pid = pid ∧
      before.Newborn (.fork parent pid leads permitted) newcomer ∧
      newcomer.permitted = permitted ∧
      (leads → newcomer.pgid = pid ∧ newcomer.founder = before.births) := by
  obtain ⟨found, -, hfork⟩ := Option.bind_eq_some_iff.mp happly
  split at hfork
  · next hfree =>
      cases hfork
      refine ⟨_, rfl, rfl, rfl, ?_, rfl, fun hleads => ?_⟩
      · exact ⟨⟨parent, leads, permitted, rfl⟩, hfree, rfl,
          Process.grouped_forked found.2 pid before.births leads permitted⟩
      · exact ⟨if_pos hleads, if_pos hleads⟩
  · cases hfork

theorem evolves_of_apply {before after : Table} {event : Event}
    (happly : before.apply event = some after) :
    before.Evolves event after := by
  have hself : ∀ process ∈ before.processes,
      Changed before.processes process process :=
    fun process hmem => ⟨rfl, rfl, fun _ => rfl, .of_mem hmem⟩
  cases event with
  | fork parent pid leads permitted =>
      obtain ⟨newcomer, hafter, hbirths, -, hborn, -⟩ := apply_fork happly
      refine ⟨hbirths ▸ Nat.le_succ _, ?_, ?_⟩
      · rw [hafter]
        exact List.forall_mem_cons.mpr ⟨.inr hborn, fun process hmem =>
          .inl ⟨process, hmem, hself process hmem⟩⟩
      · intro process hmem
        exact .inr ⟨process, hafter ▸ List.mem_cons_of_mem _ hmem,
          hself process hmem⟩
  | regroup pid target =>
      cases target with
      | none =>
          cases happly
          exact .changeAt _
      | some member =>
          obtain ⟨found, -, rfl⟩ := Option.map_eq_some_iff.mp happly
          exact .changeAt _
  | exit pid status =>
      cases happly
      exact .changeAt _
  | reap pid =>
      obtain ⟨found, hfind, hreap⟩ := Option.bind_eq_some_iff.mp happly
      split at hreap
      · next hexited =>
          cases hreap
          refine ⟨Nat.le_refl _, ?_, ?_⟩
          · intro process hmem
            have hold := (List.mem_filter.mp hmem).1
            exact .inl ⟨process, hold, hself process hold⟩
          · intro process hmem
            by_cases hpid : process.pid = pid
            · have hsame := before.wellFormed.distinct process hmem found.1
                found.2 (.inl (hpid.trans (find_pid hfind).symm))
              exact .inl ⟨hpid ▸ rfl, hsame ▸ hexited⟩
            · exact .inr ⟨process, List.mem_filter.mpr ⟨hmem, by simpa using hpid⟩,
                hself process hmem⟩
      · cases hreap
  | permit pid permitted =>
      cases happly
      exact .changeAt _

/-- A process born before the event was there before it. -/
theorem Evolves.old {before after : Table} {event : Event}
    (hevolves : before.Evolves event after) {process : Process}
    (hmem : process ∈ after.processes) (hborn : process.birth < before.births) :
    ∃ old ∈ before.processes, Changed before.processes old process := by
  rcases hevolves.earlier process hmem with hold | hnew
  · exact hold
  · exact absurd hnew.birth (Nat.ne_of_lt hborn)

theorem Evolves.one_lt_pid_of_newborn {before after : Table} {event : Event}
    (hevolves : before.Evolves event after) {process : Process}
    (hmem : process ∈ after.processes) (hbirth : process.birth = before.births) :
    1 < process.pid := by
  rcases hevolves.earlier process hmem with ⟨old, hold, hchanged⟩ | hborn
  · have hlt := (before.wellFormed.born old hold).1
    rw [← hchanged.birth, hbirth] at hlt
    exact absurd hlt (Nat.lt_irrefl _)
  · exact hborn.free.1.1

end Table

/-! ## Signals -/

inductive Errno where
  /-- No such process or group. -/
  | esrch
  /-- None of those there are may be signalled. -/
  | eperm
  | einval
  deriving DecidableEq, Repr

/-- The process that sends signals. -/
structure Caller where
  pid : ℤ
  pgid : ℤ
  deriving DecidableEq, Repr

/-- Whether `kill(target, ..)` is meant for the process. -/
def Caller.meant (caller : Caller) (target : ℤ) (process : Process) : Bool :=
  if 0 < target then process.pid = target
  else if target = 0 then process.pgid = caller.pgid
  else if target = -1 then process.pid ≠ 1 && process.pid ≠ caller.pid
  else process.pgid = -target

namespace Table

variable (table : Table) (caller : Caller)

/-- The processes a signal reaches. -/
def killed (target : ℤ) : List Process :=
  table.processes.filter fun process =>
    caller.meant target process && process.permitted

/-- `kill(target, ..)`. -/
def kill (target : ℤ) : Except Errno Unit :=
  if table.processes.any (caller.meant target) then
    if (table.killed caller target).isEmpty then .error .eperm else .ok ()
  else .error .esrch

/-- The processes a signal to a group reaches. -/
def killedGroup (pgrp : ℤ) : List Process :=
  if pgrp < 0 then [] else table.killed caller (-pgrp)

/-- `killpg(pgrp, ..)`. -/
def killpg (pgrp : ℤ) : Except Errno Unit :=
  if pgrp < 0 then .error .einval else table.kill caller (-pgrp)

variable {table caller} {process : Process} {pid : ℤ}

theorem pid_of_mem_killed (hpid : 0 < pid)
    (hmem : process ∈ table.killed caller pid) :
    process ∈ table.processes ∧ process.pid = pid := by
  obtain ⟨hprocess, hmeant⟩ := List.mem_filter.mp hmem
  rw [Bool.and_eq_true, Caller.meant, if_pos hpid, decide_eq_true_eq] at hmeant
  exact ⟨hprocess, hmeant.1⟩

/-- A group other than those of pid 0 and 1, which stand for others. -/
theorem pgid_of_mem_killedGroup (hpid : 1 < pid)
    (hmem : process ∈ table.killedGroup caller pid) :
    process ∈ table.processes ∧ process.pgid = pid := by
  rw [killedGroup, if_neg (by omega)] at hmem
  obtain ⟨hprocess, hmeant⟩ := List.mem_filter.mp hmem
  rw [Bool.and_eq_true, Caller.meant, if_neg (by omega), if_neg (by omega),
    if_neg (by omega), decide_eq_true_eq] at hmeant
  exact ⟨hprocess, by omega⟩

theorem kill_of_absent (hpid : 0 < pid)
    (habsent : ∀ process ∈ table.processes, process.pid ≠ pid) :
    table.kill caller pid = .error .esrch := by
  have hnone : table.processes.any (caller.meant pid) = false := by
    rw [List.any_eq_false]
    intro process hmem
    simpa [Caller.meant, hpid] using habsent process hmem
  rw [kill, hnone]
  rfl

end Table

end Mandala.Processes
