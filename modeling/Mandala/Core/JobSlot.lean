import Mathlib.Data.List.Basic
import Mathlib.Order.Nat

/-!
# A slot for one job at a time

Two kinds of jobs share a slot.  Leading jobs are queued behind whatever runs,
and any number of them queue as one; a mark asked of one of them is kept until a
job that carries it starts.  A trailing job asked for during a leading one runs
once no leading job is queued any more; asked for during a trailing one, it is
the one that runs.
-/

namespace Mandala.JobSlot

variable {Ticket : Type}

inductive Slot (Ticket : Type) where
  | idle
  | leading (ticket : Ticket) (marked : Bool) (queued : Option Bool)
      (trailAsked : Bool)
  | trailing (queued : Option Bool)

/-- What the log of a slot records. -/
inductive Entry where
  | markAsked
  | leadStarted (marked : Bool)
  | leadSettled
  | trailAsked (duringLead : Bool)
  | trailStarted
  | trailSettled
  deriving DecidableEq, Repr

namespace Slot

/-- The leading job that is queued, and whether it is marked. -/
def queued : Slot Ticket → Option Bool
  | .idle => none
  | .leading _ _ queued _ => queued
  | .trailing queued => queued

def wantsTrail : Slot Ticket → Bool
  | .leading _ _ _ trailAsked => trailAsked
  | _ => false

def isIdle : Slot Ticket → Bool
  | .idle => true
  | _ => false

def isTrailing : Slot Ticket → Bool
  | .trailing _ => true
  | _ => false

def askedEntries (marked : Bool) : List Entry :=
  if marked then [.markAsked] else []

def askLead (ticket : Ticket) (marked : Bool) :
    Slot Ticket → Slot Ticket × List Entry
  | .idle =>
      (.leading ticket marked none false,
        askedEntries marked ++ [.leadStarted marked])
  | .leading running now queued trailAsked =>
      (.leading running now (some (queued.getD false || marked)) trailAsked,
        askedEntries marked)
  | .trailing queued =>
      (.trailing (some (queued.getD false || marked)), askedEntries marked)

def askTrail : Slot Ticket → Slot Ticket × List Entry
  | .idle => (.trailing none, [.trailAsked false, .trailStarted])
  | .leading running now queued _ =>
      (.leading running now queued true, [.trailAsked true])
  | .trailing queued => (.trailing queued, [.trailAsked false])

/-- The job in the slot settles; `ticket` is for the job that follows it. -/
def settle (ticket : Ticket) : Slot Ticket → Slot Ticket × List Entry
  | .idle => (.idle, [])
  | .leading _ _ (some marked) trailAsked =>
      (.leading ticket marked none trailAsked, [.leadSettled, .leadStarted marked])
  | .leading _ _ none true => (.trailing none, [.leadSettled, .trailStarted])
  | .leading _ _ none false => (.idle, [.leadSettled])
  | .trailing (some marked) =>
      (.leading ticket marked none false, [.trailSettled, .leadStarted marked])
  | .trailing none => (.idle, [.trailSettled])

end Slot

/-! ## What the log shows -/

/-- Every mark asked for is followed by the start of a marked job. -/
def MarksServed (log : List Entry) : Prop :=
  ∀ asked : ℕ, log[asked]? = some .markAsked →
    ∃ started : ℕ, asked < started ∧ log[started]? = some (.leadStarted true)

/-- At this position no trailing job starts, and a leading job that settles is
followed by the next at once. -/
def Leading (log : List Entry) (position : ℕ) : Prop :=
  log[position]? ≠ some .trailStarted ∧
    (log[position]? = some .leadSettled →
      ∃ marked, log[position + 1]? = some (.leadStarted marked))

/-- From some position on, only leading jobs run. -/
def Waiting (log : List Entry) (asked : ℕ) : Prop :=
  ∀ position, asked < position → Leading log position

/-- The last of the leading jobs after some position settles, and the trailing
job starts directly after it. -/
def TrailServed (log : List Entry) (asked : ℕ) : Prop :=
  ∃ settled : ℕ, asked < settled ∧ log[settled]? = some .leadSettled ∧
    log[settled + 1]? = some .trailStarted ∧
    ∀ position, asked < position → position < settled → Leading log position

/-- Between two starts of a trailing job it is asked for again. -/
def TrailsSpaced (log : List Entry) : Prop :=
  ∀ earlier later : ℕ, earlier < later → log[earlier]? = some .trailStarted →
    log[later]? = some .trailStarted →
      ∃ between during, earlier < between ∧ between < later ∧
        log[between]? = some (.trailAsked during)

/-- Everything asked for so far has been started, or is still in the slot. -/
structure Scheduled (slot : Slot Ticket) (log : List Entry) : Prop where
  marks : slot.queued ≠ some true → MarksServed log
  served : ∀ asked : ℕ, log[asked]? = some (.trailAsked true) →
    TrailServed log asked ∨ slot.wantsTrail = true ∧ Waiting log asked
  wanted : slot.wantsTrail = true →
    ∃ asked : ℕ, log[asked]? = some (.trailAsked true) ∧ Waiting log asked
  spaced : TrailsSpaced log

theorem lt_of_getElem?_eq_some {log : List Entry} {position : ℕ} {entry : Entry}
    (hentry : log[position]? = some entry) : position < log.length :=
  (List.getElem?_eq_some_iff.mp hentry).1

/-- An entry of a log that grew is an old one or one of the new ones. -/
theorem getElem?_append_cases {log entries : List Entry} {position : ℕ}
    {entry : Entry} (hentry : (log ++ entries)[position]? = some entry) :
    log[position]? = some entry ∨
      log.length ≤ position ∧ entries[position - log.length]? = some entry := by
  by_cases hold : position < log.length
  · rw [List.getElem?_append_left hold] at hentry
    exact .inl hentry
  · have hnew : log.length ≤ position := Nat.not_lt.mp hold
    rw [List.getElem?_append_right hnew] at hentry
    exact .inr ⟨hnew, hentry⟩

theorem getElem?_append_of_some {log : List Entry} {position : ℕ} {entry : Entry}
    (hentry : log[position]? = some entry) (entries : List Entry) :
    (log ++ entries)[position]? = some entry := by
  rw [List.getElem?_append_left (lt_of_getElem?_eq_some hentry)]
  exact hentry

/-! ### Marks -/

theorem MarksServed.append {log entries : List Entry} (hserved : MarksServed log)
    (hnone : Entry.markAsked ∉ entries) : MarksServed (log ++ entries) := by
  intro asked hasked
  rcases getElem?_append_cases hasked with hold | ⟨-, hnew⟩
  · obtain ⟨started, hlater, hstarted⟩ := hserved asked hold
    exact ⟨started, hlater, getElem?_append_of_some hstarted entries⟩
  · exact absurd (List.mem_of_getElem? hnew) hnone

/-- A marked job serves every mark asked for before it. -/
theorem marksServed_leadStarted (log : List Entry) :
    MarksServed (log ++ [.leadStarted true]) := by
  intro asked hasked
  rcases getElem?_append_cases hasked with hold | ⟨-, hnew⟩
  · refine ⟨log.length, lt_of_getElem?_eq_some hold, ?_⟩
    rw [List.getElem?_concat_length]
  · cases List.mem_singleton.mp (List.mem_of_getElem? hnew)

/-! ### Trailing jobs -/

theorem Leading.append {log : List Entry} {position : ℕ}
    (hleading : Leading log position) (hold : position < log.length)
    (entries : List Entry) : Leading (log ++ entries) position := by
  rw [Leading, List.getElem?_append_left hold]
  refine ⟨hleading.1, ?_⟩
  intro hsettled
  obtain ⟨marked, hstarted⟩ := hleading.2 hsettled
  exact ⟨marked, getElem?_append_of_some hstarted entries⟩

theorem TrailServed.append {log : List Entry} {asked : ℕ}
    (hserved : TrailServed log asked) (entries : List Entry) :
    TrailServed (log ++ entries) asked := by
  obtain ⟨settled, hlater, hsettled, hstarted, hbetween⟩ := hserved
  refine ⟨settled, hlater, getElem?_append_of_some hsettled entries,
    getElem?_append_of_some hstarted entries, ?_⟩
  intro position hafter hbefore
  exact (hbetween position hafter hbefore).append
    (hbefore.trans (lt_of_getElem?_eq_some hsettled)) entries

/-- Entries that leave a waiting trailing job waiting. -/
def Quiet (entries : List Entry) : Prop :=
  ∀ position, Leading entries position

theorem Waiting.append {log entries : List Entry} {asked : ℕ}
    (hwaiting : Waiting log asked) (hquiet : Quiet entries) :
    Waiting (log ++ entries) asked := by
  intro position hafter
  by_cases hold : position < log.length
  · exact (hwaiting position hafter).append hold entries
  · have hnew : log.length ≤ position := Nat.not_lt.mp hold
    have hnext : position + 1 - log.length = position - log.length + 1 := by omega
    rw [Leading, List.getElem?_append_right hnew,
      List.getElem?_append_right (hnew.trans (Nat.le_succ _)), hnext]
    exact hquiet (position - log.length)

/-- The trailing job starts after the last leading job. -/
theorem Waiting.trailServed {log : List Entry} {asked : ℕ}
    (hwaiting : Waiting log asked) (hasked : asked < log.length) :
    TrailServed (log ++ [.leadSettled, .trailStarted]) asked := by
  refine ⟨log.length, hasked, ?_, ?_, ?_⟩
  · rw [List.getElem?_append_right (Nat.le_refl _), Nat.sub_self]
    rfl
  · have hnext : log.length + 1 - log.length = 1 := by omega
    rw [List.getElem?_append_right (Nat.le_succ _), hnext]
    rfl
  · intro position hafter hbefore
    exact (hwaiting position hafter).append hbefore _

theorem TrailsSpaced.append {log entries : List Entry} (hspaced : TrailsSpaced log)
    (hnone : Entry.trailStarted ∉ entries) : TrailsSpaced (log ++ entries) := by
  intro earlier later hlt hearlier hlater
  rcases getElem?_append_cases hlater with hold | ⟨-, hnew⟩
  · rw [List.getElem?_append_left
      (hlt.trans (lt_of_getElem?_eq_some hold))] at hearlier
    obtain ⟨between, during, hafter, hbefore, hasked⟩ :=
      hspaced earlier later hlt hearlier hold
    exact ⟨between, during, hafter, hbefore, getElem?_append_of_some hasked entries⟩
  · exact absurd (List.mem_of_getElem? hnew) hnone

/-- A trailing job may start when it was asked for since the last one did. -/
theorem TrailsSpaced.start {log : List Entry} (hspaced : TrailsSpaced log)
    {asked : ℕ} {during : Bool} (hasked : log[asked]? = some (.trailAsked during))
    (hsince : ∀ position : ℕ, asked < position →
      log[position]? ≠ some .trailStarted) :
    TrailsSpaced (log ++ [.trailStarted]) := by
  intro earlier later hlt hearlier hlater
  rcases getElem?_append_cases hlater with hold | ⟨hlast, -⟩
  · rw [List.getElem?_append_left
      (hlt.trans (lt_of_getElem?_eq_some hold))] at hearlier
    obtain ⟨between, during, hafter, hbefore, hbetween⟩ :=
      hspaced earlier later hlt hearlier hold
    exact ⟨between, during, hafter, hbefore, getElem?_append_of_some hbetween _⟩
  · have hlater := lt_of_getElem?_eq_some hlater
    rw [List.length_append, List.length_singleton] at hlater
    rw [List.getElem?_append_left (by omega)] at hearlier
    have hbefore : earlier < asked := by
      by_contra hnot
      rcases Nat.lt_or_eq_of_le (Nat.not_lt.mp hnot) with hafter | heq
      · exact hsince earlier hafter hearlier
      · rw [← heq, hasked] at hearlier
        cases hearlier
    exact ⟨asked, during, hbefore, (lt_of_getElem?_eq_some hasked).trans_le hlast,
      getElem?_append_of_some hasked _⟩

/-! ### The operations keep the schedule -/

theorem quiet_of_not_mem {entries : List Entry} (hsettled : Entry.leadSettled ∉ entries)
    (hstarted : Entry.trailStarted ∉ entries) : Quiet entries := by
  intro position
  constructor
  · intro hentry
    exact hstarted (List.mem_of_getElem? hentry)
  · intro hentry
    exact absurd (List.mem_of_getElem? hentry) hsettled

theorem quiet_nextLead (marked : Bool) :
    Quiet [.leadSettled, .leadStarted marked] := by
  intro position
  match position with
  | 0 => exact ⟨by simp, fun _ => ⟨marked, rfl⟩⟩
  | 1 => exact ⟨by simp, by simp⟩
  | _ + 2 => exact ⟨by simp, by simp⟩

/-- Entries that start no trailing job and ask for none, while the slot wants
one exactly when it did before. -/
theorem Scheduled.extend {slot after : Slot Ticket} {log entries : List Entry}
    (hslot : Scheduled slot log)
    (hmarks : after.queued ≠ some true → MarksServed (log ++ entries))
    (hwants : after.wantsTrail = slot.wantsTrail)
    (hquiet : slot.wantsTrail = true → Quiet entries)
    (hasks : Entry.trailAsked true ∉ entries)
    (hstarts : Entry.trailStarted ∉ entries) : Scheduled after (log ++ entries) where
  marks := hmarks
  served := by
    intro asked hasked
    rcases getElem?_append_cases hasked with hold | ⟨-, hnew⟩
    · rcases hslot.served asked hold with hserved | ⟨hwanted, hwaiting⟩
      · exact .inl (hserved.append entries)
      · exact .inr ⟨hwants.trans hwanted, hwaiting.append (hquiet hwanted)⟩
    · exact absurd (List.mem_of_getElem? hnew) hasks
  wanted := by
    intro hafter
    have hwanted : slot.wantsTrail = true := hwants.symm.trans hafter
    obtain ⟨asked, hasked, hwaiting⟩ := hslot.wanted hwanted
    exact ⟨asked, getElem?_append_of_some hasked entries,
      hwaiting.append (hquiet hwanted)⟩
  spaced := hslot.spaced.append hstarts

theorem scheduled_idle : Scheduled (.idle : Slot Ticket) [] where
  marks := by
    intro _ asked hasked
    cases hasked
  served := by
    intro asked hasked
    cases hasked
  wanted := by
    intro hwanted
    cases hwanted
  spaced := by
    intro earlier later _ hearlier
    cases hearlier

theorem markAsked_not_mem {marked : Bool} (hmarked : marked = false) :
    Entry.markAsked ∉ Slot.askedEntries marked := by
  subst hmarked
  exact List.not_mem_nil

theorem mem_askedEntries {marked : Bool} {entry : Entry}
    (hentry : entry ∈ Slot.askedEntries marked) : entry = .markAsked := by
  cases marked with
  | false => cases hentry
  | true => exact List.mem_singleton.mp hentry

/-- A leading job that queues keeps every mark that is queued already. -/
theorem Scheduled.marks_queued {slot : Slot Ticket} {log : List Entry}
    (hslot : Scheduled slot log) {marked : Bool}
    (hqueued : (some (slot.queued.getD false || marked)) ≠ some true) :
    MarksServed (log ++ Slot.askedEntries marked) := by
  rw [Ne, Option.some.injEq, Bool.or_eq_true, not_or, Bool.not_eq_true] at hqueued
  obtain ⟨hbefore, hmarked⟩ := hqueued
  have hserved : MarksServed log := by
    apply hslot.marks
    intro hmark
    rw [hmark] at hbefore
    cases hbefore
  exact hserved.append (markAsked_not_mem (Bool.not_eq_true _ ▸ hmarked))

theorem Scheduled.askLead {slot : Slot Ticket} {log : List Entry}
    (hslot : Scheduled slot log) (ticket : Ticket) (marked : Bool) :
    Scheduled (slot.askLead ticket marked).1
      (log ++ (slot.askLead ticket marked).2) := by
  have hquiet : Quiet (Slot.askedEntries marked) := by
    apply quiet_of_not_mem <;>
      · intro hentry
        cases mem_askedEntries hentry
  have hasks : Entry.trailAsked true ∉ Slot.askedEntries marked := by
    intro hentry
    cases mem_askedEntries hentry
  have hstarts : Entry.trailStarted ∉ Slot.askedEntries marked := by
    intro hentry
    cases mem_askedEntries hentry
  cases slot with
  | idle =>
      refine hslot.extend ?_ rfl (fun hwanted => by cases hwanted) ?_ ?_
      · intro _
        cases marked with
        | false =>
            apply (hslot.marks (by simp [Slot.queued])).append
            simp [Slot.askLead, Slot.askedEntries]
        | true =>
            change MarksServed (log ++ [.markAsked, .leadStarted true])
            rw [List.append_cons]
            exact marksServed_leadStarted _
      · simpa [Slot.askLead] using hasks
      · simpa [Slot.askLead] using hstarts
  | leading running now queued trailAsked =>
      exact hslot.extend hslot.marks_queued rfl (fun _ => hquiet) hasks hstarts
  | trailing queued =>
      exact hslot.extend hslot.marks_queued rfl (fun _ => hquiet) hasks hstarts

theorem Scheduled.askTrail {slot : Slot Ticket} {log : List Entry}
    (hslot : Scheduled slot log) :
    Scheduled slot.askTrail.1 (log ++ slot.askTrail.2) := by
  cases slot with
  | idle =>
      have hmarks : MarksServed log := hslot.marks (by simp [Slot.queued])
      have hspaced : TrailsSpaced (log ++ [.trailAsked false]) :=
        hslot.spaced.append (by simp)
      have hasked : (log ++ [.trailAsked false])[log.length]? =
          some (.trailAsked false) := List.getElem?_concat_length
      have hsince (position : ℕ) (hafter : log.length < position) :
          (log ++ [.trailAsked false])[position]? ≠ some .trailStarted := by
        have hlength : (log ++ [Entry.trailAsked false]).length ≤ position := by
          rw [List.length_append, List.length_singleton]
          exact hafter
        rw [List.getElem?_eq_none hlength]
        simp
      exact {
        marks := fun _ => hmarks.append (by simp [Slot.askTrail])
        served := by
          intro asked hentry
          rcases getElem?_append_cases hentry with hold | ⟨-, hnew⟩
          · rcases hslot.served asked hold with hserved | ⟨hwanted, -⟩
            · exact .inl (hserved.append _)
            · cases hwanted
          · exact absurd (List.mem_of_getElem? hnew) (by simp [Slot.askTrail])
        wanted := by
          intro hwanted
          cases hwanted
        spaced := by
          change TrailsSpaced (log ++ [.trailAsked false, .trailStarted])
          rw [List.append_cons]
          exact hspaced.start hasked hsince }
  | leading running now queued trailAsked =>
      have hnow : Waiting (log ++ [.trailAsked true]) log.length := by
        intro position hafter
        have hlength : (log ++ [Entry.trailAsked true]).length ≤ position := by
          rw [List.length_append, List.length_singleton]
          exact hafter
        rw [Leading, List.getElem?_eq_none hlength]
        simp
      have hquiet : Quiet [.trailAsked true] :=
        quiet_of_not_mem (by simp) (by simp)
      exact {
        marks := fun hqueued => (hslot.marks hqueued).append (by simp [Slot.askTrail])
        served := by
          intro asked hentry
          rcases getElem?_append_cases hentry with hold | ⟨hlast, -⟩
          · rcases hslot.served asked hold with hserved | ⟨-, hwaiting⟩
            · exact .inl (hserved.append _)
            · exact .inr ⟨rfl, hwaiting.append hquiet⟩
          · have hbound := lt_of_getElem?_eq_some hentry
            change asked < (log ++ [_]).length at hbound
            rw [List.length_append, List.length_singleton] at hbound
            have heq : asked = log.length := by omega
            rw [heq]
            exact .inr ⟨rfl, hnow⟩
        wanted := fun _ => ⟨log.length, List.getElem?_concat_length, hnow⟩
        spaced := hslot.spaced.append (by simp [Slot.askTrail]) }
  | trailing queued =>
      refine hslot.extend ?_ rfl (fun hwanted => by cases hwanted)
        (by simp [Slot.askTrail]) (by simp [Slot.askTrail])
      intro hqueued
      exact (hslot.marks hqueued).append (by simp [Slot.askTrail])

theorem Scheduled.settle {slot : Slot Ticket} {log : List Entry}
    (hslot : Scheduled slot log) (ticket : Ticket) :
    Scheduled (slot.settle ticket).1 (log ++ (slot.settle ticket).2) := by
  have hnext (settled : Entry) (hnone : settled ≠ .markAsked) (marked : Bool)
      (hqueued : slot.queued = some marked) :
      MarksServed (log ++ [settled, .leadStarted marked]) := by
    cases marked with
    | false =>
        apply (hslot.marks (by simp [hqueued])).append
        simp [hnone.symm]
    | true =>
        rw [List.append_cons]
        exact marksServed_leadStarted _
  cases slot with
  | idle =>
      change Scheduled (.idle : Slot Ticket) (log ++ [])
      rw [List.append_nil]
      exact hslot
  | leading running now queued trailAsked =>
      cases queued with
      | some marked =>
          exact hslot.extend (fun _ => hnext .leadSettled (by simp) marked rfl) rfl
            (fun _ => quiet_nextLead marked) (by simp [Slot.settle])
            (by simp [Slot.settle])
      | none =>
          have hmarks : MarksServed log := hslot.marks (by simp [Slot.queued])
          cases trailAsked with
          | false =>
              exact hslot.extend (fun _ => hmarks.append (by simp [Slot.settle]))
                rfl (fun hwanted => by cases hwanted) (by simp [Slot.settle])
                (by simp [Slot.settle])
          | true =>
              obtain ⟨asked, hasked, hwaiting⟩ := hslot.wanted rfl
              have hspaced : TrailsSpaced (log ++ [.leadSettled]) :=
                hslot.spaced.append (by simp)
              have hsince (position : ℕ) (hafter : asked < position) :
                  (log ++ [.leadSettled])[position]? ≠ some .trailStarted := by
                intro hstarted
                rcases getElem?_append_cases hstarted with hold | ⟨-, hnew⟩
                · exact (hwaiting position hafter).1 hold
                · cases List.mem_singleton.mp (List.mem_of_getElem? hnew)
              exact {
                marks := fun _ => hmarks.append (by simp [Slot.settle])
                served := by
                  intro asked hentry
                  rcases getElem?_append_cases hentry with hold | ⟨-, hnew⟩
                  · rcases hslot.served asked hold with hserved | ⟨-, hlast⟩
                    · exact .inl (hserved.append _)
                    · exact .inl (hlast.trailServed (lt_of_getElem?_eq_some hold))
                  · exact absurd (List.mem_of_getElem? hnew) (by simp [Slot.settle])
                wanted := by
                  intro hwanted
                  cases hwanted
                spaced := by
                  change TrailsSpaced (log ++ [.leadSettled, .trailStarted])
                  rw [List.append_cons]
                  exact hspaced.start (getElem?_append_of_some hasked _) hsince }
  | trailing queued =>
      cases queued with
      | some marked =>
          exact hslot.extend (fun _ => hnext .trailSettled (by simp) marked rfl) rfl
            (fun hwanted => by cases hwanted) (by simp [Slot.settle])
            (by simp [Slot.settle])
      | none =>
          have hmarks : MarksServed log := hslot.marks (by simp [Slot.queued])
          exact hslot.extend (fun _ => hmarks.append (by simp [Slot.settle])) rfl
            (fun hwanted => by cases hwanted) (by simp [Slot.settle])
            (by simp [Slot.settle])

end Mandala.JobSlot
