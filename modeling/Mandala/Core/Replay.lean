import Mathlib.Tactic.Common

/-!
# Replaying a filtered stream

A state machine fed only what a filter keeps of a stream stays related to one
fed the whole stream, when every kept event keeps the relation and every
dropped event keeps it with the replaying machine standing still.  The two
machines may run at different times.
-/

namespace Mandala.Replay

variable {Event State Filter Ghost Time : Type}

/-- What a filter with a state of its own keeps of a stream. -/
def kept (retain : Filter → Event → Filter × Bool) :
    Filter → List Event → List Event
  | _, [] => []
  | filter, event :: events =>
      let decision := retain filter event
      if decision.2 then event :: kept retain decision.1 events
      else kept retain decision.1 events

/-- Feed a timed stream. -/
def run (step : Time → State → Event → State) (state : State)
    (stream : List (Time × Event)) : State :=
  stream.foldl (fun state timed => step timed.1 state timed.2) state

/-- Every event of the stream is allowed where it stands. -/
def Disciplined (allowed : Ghost → Event → Prop) (next : Ghost → Event → Ghost) :
    Ghost → List Event → Prop
  | _, [] => True
  | ghost, event :: events =>
      allowed ghost event ∧ Disciplined allowed next (next ghost event) events

/-- The two runs end related. -/
theorem related_run_kept {retain : Filter → Event → Filter × Bool}
    {step : Time → State → Event → State} {allowed : Ghost → Event → Prop}
    {next : Ghost → Event → Ghost}
    {related : Ghost → Filter → State → State → Prop}
    (hkept : ∀ ghost filter whole replayed time time' event,
      allowed ghost event → related ghost filter whole replayed →
        (retain filter event).2 = true →
          related (next ghost event) (retain filter event).1
            (step time whole event) (step time' replayed event))
    (hdropped : ∀ ghost filter whole replayed time event,
      allowed ghost event → related ghost filter whole replayed →
        (retain filter event).2 = false →
          related (next ghost event) (retain filter event).1
            (step time whole event) replayed)
    {stream replay : List (Time × Event)} {ghost : Ghost} {filter : Filter}
    {whole replayed : State}
    (hreplay : replay.map Prod.snd = kept retain filter (stream.map Prod.snd))
    (hdisciplined : Disciplined allowed next ghost (stream.map Prod.snd))
    (hrelated : related ghost filter whole replayed) :
    ∃ ghost' filter',
      related ghost' filter' (run step whole stream) (run step replayed replay) := by
  induction stream generalizing replay ghost filter whole replayed with
  | nil =>
      rw [List.map_nil, kept, List.map_eq_nil_iff] at hreplay
      rw [hreplay]
      exact ⟨ghost, filter, hrelated⟩
  | cons timed stream ih =>
      rw [List.map_cons] at hdisciplined hreplay
      obtain ⟨hallowed, hrest⟩ := hdisciplined
      cases hkeep : (retain filter timed.2).2 with
      | false =>
          simp only [kept, hkeep, Bool.false_eq_true, if_false] at hreplay
          exact ih hreplay hrest
            (hdropped _ _ _ _ timed.1 timed.2 hallowed hrelated hkeep)
      | true =>
          simp only [kept, hkeep, if_true] at hreplay
          cases replay with
          | nil => cases hreplay
          | cons retimed replay =>
              rw [List.map_cons, List.cons.injEq] at hreplay
              obtain ⟨hevent, hreplay⟩ := hreplay
              have hnext := hkept ghost filter whole replayed timed.1 retimed.1
                timed.2 hallowed hrelated hkeep
              rw [← hevent] at hnext
              rw [← hevent] at hreplay hrest
              change ∃ ghost' filter', related ghost' filter'
                (run step (step timed.1 whole timed.2) stream)
                (run step (step retimed.1 replayed retimed.2) replay)
              rw [← hevent]
              exact ih hreplay hrest hnext

end Mandala.Replay
