import Mandala.Runner.Events
import Mathlib.Data.List.Induction

/-!
# The state a host ends in

A host's state is sticky: the first event that ends its deploy decides it, and
only a rollback still overrules that.  So the state after any stream of events
can be read off the stream without following the states in between.
-/

namespace Mandala.Events

open Mandala.Data

/-! ## What an event says -/

/-- The state a milestone event names. -/
def milestoneNamed (event : Json) : Option HostState :=
  if event.getStr "event" = some "milestone" then
    milestoneState ((event.getStr "milestone").getD "")
  else none

def rollsBack (event : Json) : Bool :=
  milestoneNamed event = some .rolledBack

/-- A `status done` record with a return code other than zero. -/
def reportsFailure (event : Json) : Bool :=
  event.getStr "event" = some "status" && event.getStr "state" = some "done" &&
    (event.getI64 "rc").any (· ≠ 0)

/-- The state an event ends a deploy in, rollbacks apart. -/
def endsIn (event : Json) : Option HostState :=
  match milestoneNamed event with
  | some .confirmed => some .confirmed
  | some .rebootPending => some .rebootPending
  | _ => if reportsFailure event then some .failed else none

/-- The state of a host whose deploy was told by these events. -/
def finalState (events : List Json) : HostState :=
  if events.any rollsBack then .rolledBack
  else match events.findSome? endsIn with
    | some state => state
    | none => (events.reverse.findSome? milestoneNamed).getD .pending

/-- An event that tells a host's state nothing: a line, a record of an unknown
kind or without a readable one, a milestone no state is known for, and a
status that is not `done` or has no readable return code. -/
inductive Silent (event : Json) : Prop where
  | line (hkind : event.getStr "event" = some "line")
  | unknown (hmilestone : event.getStr "event" ≠ some "milestone")
      (hstatus : event.getStr "event" ≠ some "status")
  | unnamed (hkind : event.getStr "event" = some "milestone")
      (hname : (event.getStr "milestone").bind milestoneState = none)
  | notDone (hkind : event.getStr "event" = some "status")
      (hstate : event.getStr "state" ≠ some "done")
  | unreadable (hkind : event.getStr "event" = some "status")
      (hrc : event.getI64 "rc" = none)

/-! ## One event -/

namespace HostRun

/-- The state after a milestone that names one. -/
theorem state_feed_of_milestone (run : HostRun) {event : Json}
    {next : HostState} (hnamed : milestoneNamed event = some next) :
    (run.feed event).state =
      if !isTerminal run.state then next
      else if next = .rolledBack then .rolledBack else run.state := by
  unfold milestoneNamed at hnamed
  split at hnamed
  · next hmilestone =>
      rw [feed, hmilestone, if_neg (by decide), if_pos rfl]
      dsimp only
      rw [stateAfterMilestone, hnamed]
  · cases hnamed

/-- The state after any other event. -/
theorem state_feed_of_unnamed (run : HostRun) {event : Json}
    (hunnamed : milestoneNamed event = none) :
    (run.feed event).state =
      if reportsFailure event && !isTerminal run.state then .failed
      else run.state := by
  unfold feed reportsFailure
  by_cases hline : event.getStr "event" = some "line"
  · simp [hline]
  · rw [if_neg hline]
    by_cases hmilestone : event.getStr "event" = some "milestone"
    · rw [milestoneNamed, if_pos hmilestone] at hunnamed
      simp [hmilestone, stateAfterMilestone, hunnamed]
    · rw [if_neg hmilestone]
      by_cases hdone : event.getStr "event" = some "status" ∧
          event.getStr "state" = some "done"
      · rw [if_pos hdone]
        cases hrc : event.getI64 "rc" with
        | none => simp [stateAfterDone, hdone]
        | some rc => simp [stateAfterDone, hdone]
      · rw [if_neg hdone]
        have hneither : (decide (event.getStr "event" = some "status") &&
            decide (event.getStr "state" = some "done")) = false := by
          simpa using hdone
        rw [hneither]
        rfl

theorem state_feed_of_silent (run : HostRun) {event : Json}
    (hsilent : Silent event) : (run.feed event).state = run.state := by
  have hsaid : milestoneNamed event = none ∧ reportsFailure event = false := by
    cases hsilent with
    | line hkind => simp [milestoneNamed, reportsFailure, hkind]
    | unknown hmilestone hstatus =>
        simp [milestoneNamed, reportsFailure, hmilestone, hstatus]
    | unnamed hkind hname =>
        refine ⟨?_, by simp [reportsFailure, hkind]⟩
        rw [milestoneNamed, if_pos hkind]
        cases hread : event.getStr "milestone" with
        | none => rfl
        | some name => rwa [hread] at hname
    | notDone hkind hstate =>
        simp [milestoneNamed, reportsFailure, hkind, hstate]
    | unreadable hkind hrc =>
        simp [milestoneNamed, reportsFailure, hkind, hrc]
  rw [run.state_feed_of_unnamed hsaid.1, hsaid.2]
  rfl

end HostRun

/-! ## A stream of events -/

theorem milestoneState_ne_failed (name : String) :
    milestoneState name ≠ some .failed := by
  unfold milestoneState
  split_ifs <;> exact nofun

/-- Naming a state that ends a deploy is ending it, or rolling it back. -/
theorem not_terminal_of_milestoneNamed {event : Json} {state : HostState}
    (hnamed : milestoneNamed event = some state)
    (hrolls : rollsBack event = false) (hends : endsIn event = none) :
    isTerminal state = false := by
  rw [rollsBack, hnamed] at hrolls
  rw [endsIn, hnamed] at hends
  cases state with
  | confirmed => cases hends
  | rebootPending => cases hends
  | rolledBack => cases hrolls
  | failed =>
      rw [milestoneNamed] at hnamed
      split at hnamed
      · exact absurd hnamed (milestoneState_ne_failed _)
      · cases hnamed
  | _ => rfl

/-- A milestone is no `status` record. -/
theorem reportsFailure_of_milestoneNamed {event : Json} {state : HostState}
    (hnamed : milestoneNamed event = some state) :
    reportsFailure event = false := by
  unfold milestoneNamed at hnamed
  split at hnamed
  · next hmilestone => simp [reportsFailure, hmilestone]
  · cases hnamed

/-- Before anything ended the deploy its state is not a sticky one. -/
theorem not_terminal_last {events : List Json}
    (hrolls : events.any rollsBack = false)
    (hends : events.findSome? endsIn = none) :
    isTerminal ((events.reverse.findSome? milestoneNamed).getD .pending) =
      false := by
  cases hlast : events.reverse.findSome? milestoneNamed with
  | none => rfl
  | some state =>
      obtain ⟨event, hmem, hnamed⟩ := List.exists_of_findSome?_eq_some hlast
      rw [List.mem_reverse] at hmem
      refine not_terminal_of_milestoneNamed hnamed ?_ ?_
      · rw [← Bool.not_eq_true]
        exact fun hrolled => Bool.false_ne_true
          (hrolls.symm.trans (List.any_eq_true.mpr ⟨event, hmem, hrolled⟩))
      · exact List.findSome?_eq_none_iff.mp hends event hmem

/-- A rollback overrules every other event. -/
theorem finalState_of_rollsBack {events : List Json}
    (hrolls : events.any rollsBack = true) : finalState events = .rolledBack := by
  rw [finalState, if_pos hrolls]

/-- The first event that ends a deploy decides it. -/
theorem finalState_of_endsIn {events : List Json} {state : HostState}
    (hrolls : events.any rollsBack = false)
    (hends : events.findSome? endsIn = some state) :
    finalState events = state := by
  rw [finalState, hrolls, hends]
  rfl

theorem finalState_of_under_way {events : List Json}
    (hrolls : events.any rollsBack = false)
    (hends : events.findSome? endsIn = none) :
    finalState events =
      (events.reverse.findSome? milestoneNamed).getD .pending := by
  rw [finalState, hrolls, hends]
  rfl

theorem terminal_of_endsIn {event : Json} {state : HostState}
    (hends : endsIn event = some state) : isTerminal state = true := by
  unfold endsIn at hends
  split at hends
  · cases hends
    rfl
  · cases hends
    rfl
  · split at hends <;> cases hends
    rfl

theorem any_rollsBack_snoc (events : List Json) (event : Json) :
    (events ++ [event]).any rollsBack =
      (events.any rollsBack || rollsBack event) := by
  simp

theorem findSome_endsIn_snoc (events : List Json) (event : Json) :
    (events ++ [event]).findSome? endsIn =
      (events.findSome? endsIn).or (endsIn event) := by
  simp [List.findSome?_append]

theorem findSome_milestone_snoc (events : List Json) (event : Json) :
    (events ++ [event]).reverse.findSome? milestoneNamed =
      (milestoneNamed event).or (events.reverse.findSome? milestoneNamed) := by
  rw [List.reverse_append, List.findSome?_append]
  simp

/-- An event after the end changes nothing. -/
theorem finalState_snoc_of_ended {events : List Json} {event : Json}
    {state : HostState} (hrolls : events.any rollsBack = false)
    (hrolled : rollsBack event = false)
    (hends : events.findSome? endsIn = some state) :
    finalState (events ++ [event]) = finalState events := by
  have hany : (events ++ [event]).any rollsBack = false := by
    rw [any_rollsBack_snoc, hrolls, hrolled]
    rfl
  have hfirst : (events ++ [event]).findSome? endsIn = some state := by
    rw [findSome_endsIn_snoc, hends, Option.some_or]
  rw [finalState_of_endsIn hany hfirst, finalState_of_endsIn hrolls hends]

/-- Before the end the newest event decides. -/
theorem finalState_snoc_under_way {events : List Json} {event : Json}
    (hrolls : events.any rollsBack = false) (hrolled : rollsBack event = false)
    (hends : events.findSome? endsIn = none) :
    finalState (events ++ [event]) =
      match milestoneNamed event with
      | some next => next
      | none =>
          if reportsFailure event then .failed
          else (events.reverse.findSome? milestoneNamed).getD .pending := by
  have hany : (events ++ [event]).any rollsBack = false := by
    rw [any_rollsBack_snoc, hrolls, hrolled]
    rfl
  have hfirst := findSome_endsIn_snoc events event
  rw [hends, Option.none_or] at hfirst
  cases hending : endsIn event with
  | some state =>
      rw [finalState_of_endsIn hany (hfirst.trans hending)]
      unfold endsIn at hending
      split at hending
      · next hnamed =>
          cases hending
          rw [hnamed]
      · next hnamed =>
          cases hending
          rw [hnamed]
      · next hother =>
          split at hending
          · next hfailed =>
              cases hending
              cases hnamed : milestoneNamed event with
              | none => simp [hfailed]
              | some next =>
                  rw [reportsFailure_of_milestoneNamed hnamed] at hfailed
                  cases hfailed
          · cases hending
  | none =>
      rw [finalState_of_under_way hany (hfirst.trans hending),
        findSome_milestone_snoc]
      cases hnamed : milestoneNamed event with
      | some next => rfl
      | none =>
          have hfine : reportsFailure event = false := by
            rw [endsIn, hnamed] at hending
            simpa using hending
          simp [hfine]

/-- A sticky state stays; otherwise the newest event decides. -/
theorem finalState_snoc (events : List Json) (event : Json) :
    finalState (events ++ [event]) =
      match milestoneNamed event with
      | some next =>
          if !isTerminal (finalState events) then next
          else if next = .rolledBack then .rolledBack else finalState events
      | none =>
          if reportsFailure event && !isTerminal (finalState events) then .failed
          else finalState events := by
  cases hrolls : events.any rollsBack with
  | true =>
      have hany := any_rollsBack_snoc events event
      rw [hrolls, Bool.true_or] at hany
      rw [finalState_of_rollsBack hrolls, finalState_of_rollsBack hany]
      cases milestoneNamed event <;> simp [isTerminal]
  | false =>
      cases hrolled : rollsBack event with
      | true =>
          have hany := any_rollsBack_snoc events event
          rw [hrolled, Bool.or_true] at hany
          rw [finalState_of_rollsBack hany, of_decide_eq_true hrolled]
          simp
      | false =>
          cases hends : events.findSome? endsIn with
          | some state =>
              obtain ⟨ending, -, hending⟩ :=
                List.exists_of_findSome?_eq_some hends
              rw [finalState_snoc_of_ended hrolls hrolled hends,
                finalState_of_endsIn hrolls hends, terminal_of_endsIn hending]
              cases hnamed : milestoneNamed event with
              | none => simp
              | some next =>
                  have hother : next ≠ .rolledBack := by
                    rintro rfl
                    rw [rollsBack, hnamed] at hrolled
                    cases hrolled
                  simp [hother]
          | none =>
              rw [finalState_snoc_under_way hrolls hrolled hends,
                finalState_of_under_way hrolls hends,
                not_terminal_last hrolls hends]
              cases milestoneNamed event <;> simp

/-- What a host's run makes of a stream of events: its state is the one the
whole stream tells, and no silent event changes it. -/
theorem state_foldl_feed (name : String) (events : List Json) :
    (events.foldl HostRun.feed (HostRun.new name)).state = finalState events ∧
      ∀ (run : HostRun) (event : Json), Silent event →
        (run.feed event).state = run.state := by
  refine ⟨?_, fun run event => run.state_feed_of_silent⟩
  induction events using List.reverseRecOn with
  | nil => rfl
  | append_singleton events event ih =>
      rw [List.foldl_append, finalState_snoc, ← ih]
      cases hnamed : milestoneNamed event with
      | some next => exact HostRun.state_feed_of_milestone _ hnamed
      | none => exact HostRun.state_feed_of_unnamed _ hnamed

end Mandala.Events
