import Mandala.Eval.Teardown

/-!
# The invariant of the teardown

The registry holds the pids of exactly those children whose tasks have pushed
them and not yet taken them off, and none of these is reaped.  A sweep owns the
registry while it goes through it, and the second look at the latch happens
under the same lock, so a child is either registered before the sweep or turned
away after it.
-/

namespace Mandala.Eval.Teardown

open Function Mandala.Transition

namespace WorkerPhase

/-- The task is inside a critical section. -/
def holdsLock : WorkerPhase → Bool
  | .locked | .pushing | .pushed | .turnedAway => true
  | .deregistering | .deregistered => true
  | _ => false

/-- Its pid is in the registry. -/
def registered : WorkerPhase → Bool
  | .pushed | .owned | .dropping | .deregistering => true
  | _ => false

/-- It has a child it has not reaped. -/
def hasChild : WorkerPhase → Bool
  | .idle | .started | .cleared | .failed | .dropped => false
  | _ => true

/-- Where a spawn that begins after a sweep can be. -/
def turnedDown : WorkerPhase → Bool
  | .started | .failed => true
  | _ => false

theorem hasChild_of_registered {phase : WorkerPhase}
    (hregistered : phase.registered = true) : phase.hasChild = true := by
  cases phase <;> first | rfl | cases hregistered

end WorkerPhase

def Child.doomed (child : Child) : Bool :=
  child.killed || child.exited

/-- The spawn began after a sweep returned. -/
def Late (history : List Event) (task : ℕ) : Prop :=
  ∃ before sweep after, history = before ++ .returned sweep :: after ∧
    .began task ∈ after

structure Sound (state : State) : Prop where
  holder : ∀ task, (state.workers task).holdsLock = true ↔
    state.lock = some (.worker task)
  sweeper : ∀ sweep, (∃ rest, state.sweeps sweep = .sweeping rest) ↔
    state.lock = some (.sweep sweep)
  present : ∀ task, (state.workers task).hasChild = true →
    ∃ child, state.children task = some child ∧ child.reaped = false
  gone : ∀ task child, (state.workers task).hasChild = false →
    state.children task = some child → child.reaped = true
  exited : ∀ task child, state.children task = some child →
    child.reaped = true → child.exited = true
  distinct : ∀ task other child rival, state.children task = some child →
    state.children other = some rival → child.reaped = false →
      rival.reaped = false → child.pid = rival.pid → task = other
  live : ∀ pid, pid ∈ state.live ↔ ∃ task child,
    (state.workers task).registered = true ∧
      state.children task = some child ∧ child.pid = pid
  latched : ∀ sweep, state.sweeps sweep ≠ .idle →
    state.sweeps sweep ≠ .started → state.latch = true
  swept : ∀ sweep rest, state.sweeps sweep = .sweeping rest →
    (∀ pid ∈ rest, pid ∈ state.live) ∧
      ∀ task child, (state.workers task).registered = true →
        state.children task = some child →
          child.pid ∈ rest ∨ child.doomed = true
  returned : (∃ sweep, state.sweeps sweep = .returned) →
    ∀ task, state.workers task ≠ .pushing ∧
      ((state.workers task).registered = true →
        ∀ child, state.children task = some child → child.doomed = true)
  noted : ∀ sweep, .returned sweep ∈ state.history →
    state.sweeps sweep = .returned
  named : ∀ task, state.workers task = .idle →
    .began task ∉ state.history ∧ .yielded task ∉ state.history
  late : ∀ task, Late state.history task →
    (state.workers task).turnedDown = true ∧ .yielded task ∉ state.history

theorem sound_initial : Sound State.initial where
  holder _ := ⟨Bool.noConfusion, fun hlock => by cases hlock⟩
  sweeper _ := ⟨fun ⟨_, hphase⟩ => SweepPhase.noConfusion hphase,
    fun hlock => by cases hlock⟩
  present _ := Bool.noConfusion
  gone _ _ _ hchild := by cases hchild
  exited _ _ hchild := by cases hchild
  distinct _ _ _ _ hchild := by cases hchild
  live _ := ⟨fun hmem => absurd hmem List.not_mem_nil,
    fun ⟨_, _, hphase, _⟩ => Bool.noConfusion hphase⟩
  latched _ hidle := absurd rfl hidle
  swept _ _ := SweepPhase.noConfusion
  returned := fun ⟨_, hphase⟩ => SweepPhase.noConfusion hphase
  noted _ hmem := absurd hmem List.not_mem_nil
  named _ _ := ⟨List.not_mem_nil, List.not_mem_nil⟩
  late _ := fun ⟨before, _, _, heq, _⟩ => by
    cases before <;> cases heq

/-! ## Moves of a worker's task -/

@[simp]
theorem workers_goto (state : State) (task : ℕ) (phase : WorkerPhase) :
    (state.goto task phase).workers task = phase :=
  update_self ..

theorem workers_goto_of_ne {state : State} {task other : ℕ}
    {phase : WorkerPhase} (hne : other ≠ task) :
    (state.goto task phase).workers other = state.workers other :=
  update_of_ne hne ..

/-- What a task may do between two states without touching the registry or its
child. -/
structure Moves (state : State) (task : ℕ) (phase : WorkerPhase)
    (lock : Option Holder) : Prop where
  registered : phase.registered = (state.workers task).registered
  hasChild : phase.hasChild = (state.workers task).hasChild
  holder : ∀ other,
    ((state.goto task phase).workers other).holdsLock = true ↔
      lock = some (.worker other)
  sweeper : ∀ sweep,
    lock = some (.sweep sweep) ↔ state.lock = some (.sweep sweep)
  pushing : phase = .pushing → state.latch = false
  busy : phase ≠ .idle
  late : Late state.history task → phase.turnedDown = true

/-- Past the latch, a spawn began before any sweep returned. -/
theorem Sound.not_late {state : State} (hsound : Sound state) {task : ℕ}
    (hpast : (state.workers task).turnedDown = false) :
    ¬ Late state.history task := by
  intro hlate
  rw [(hsound.late task hlate).1] at hpast
  cases hpast

/-- A sweep that returned has left the latch set. -/
theorem Sound.latch_of_late {state : State} (hsound : Sound state) {task : ℕ}
    (hlate : Late state.history task) : state.latch = true := by
  obtain ⟨before, sweep, after, heq, -⟩ := hlate
  have hphase := hsound.noted sweep
    (heq ▸ List.mem_append_right _ List.mem_cons_self)
  exact hsound.latched sweep (hphase ▸ nofun) (hphase ▸ nofun)

theorem Sound.move {state : State} {task : ℕ} {phase : WorkerPhase}
    {lock : Option Holder} (hsound : Sound state)
    (hmoves : Moves state task phase lock) :
    Sound ((state.goto task phase).withLock lock) := by
  have hregistered (other : ℕ) :
      ((state.goto task phase).workers other).registered =
        (state.workers other).registered := by
    by_cases hsame : other = task
    · subst hsame
      rw [workers_goto, hmoves.registered]
    · rw [workers_goto_of_ne hsame]
  have hhasChild (other : ℕ) :
      ((state.goto task phase).workers other).hasChild =
        (state.workers other).hasChild := by
    by_cases hsame : other = task
    · subst hsame
      rw [workers_goto, hmoves.hasChild]
    · rw [workers_goto_of_ne hsame]
  refine
    { holder := hmoves.holder
      sweeper := fun sweep =>
        (hsound.sweeper sweep).trans (hmoves.sweeper sweep).symm
      present := fun other hchild => hsound.present other (hhasChild other ▸ hchild)
      gone := fun other child hchild =>
        hsound.gone other child (hhasChild other ▸ hchild)
      exited := hsound.exited
      distinct := hsound.distinct
      live := fun pid => ?_
      latched := hsound.latched
      swept := fun sweep rest hphase =>
        ⟨(hsound.swept sweep rest hphase).1, fun other child hphase' =>
          (hsound.swept sweep rest hphase).2 other child
            (hregistered other ▸ hphase')⟩
      returned := fun hreturned other => ?_
      noted := hsound.noted
      named := fun other hidle => ?_
      late := fun other hlate => ?_ }
  · refine (hsound.live pid).trans ?_
    constructor
    · rintro ⟨other, child, hphase, hfound⟩
      exact ⟨other, child, (hregistered other).trans hphase, hfound⟩
    · rintro ⟨other, child, hphase, hfound⟩
      exact ⟨other, child, (hregistered other).symm.trans hphase, hfound⟩
  · obtain ⟨hpushing, hdoomed⟩ := hsound.returned hreturned other
    refine ⟨?_, fun hphase => hdoomed (hregistered other ▸ hphase)⟩
    by_cases hsame : other = task
    · subst hsame
      change (state.goto other phase).workers other ≠ _
      rw [workers_goto]
      intro heq
      obtain ⟨sweep, hsweep⟩ := hreturned
      have hlatch := hsound.latched sweep (hsweep ▸ nofun) (hsweep ▸ nofun)
      rw [hmoves.pushing heq] at hlatch
      cases hlatch
    · change (state.goto task phase).workers other ≠ _
      rw [workers_goto_of_ne hsame]
      exact hpushing
  · by_cases hsame : other = task
    · subst hsame
      change (state.goto other phase).workers other = _ at hidle
      rw [workers_goto] at hidle
      exact absurd hidle hmoves.busy
    · change (state.goto task phase).workers other = _ at hidle
      rw [workers_goto_of_ne hsame] at hidle
      exact hsound.named other hidle
  · obtain ⟨hturned, hnever⟩ := hsound.late other hlate
    refine ⟨?_, hnever⟩
    change ((state.goto task phase).workers other).turnedDown = true
    by_cases hsame : other = task
    · subst hsame
      rw [workers_goto]
      exact hmoves.late hlate
    · rw [workers_goto_of_ne hsame]
      exact hturned

/-- A task that neither takes nor gives back the lock. -/
theorem Moves.stay {state : State} {task : ℕ} {phase : WorkerPhase}
    (hsound : Sound state)
    (hregistered : phase.registered = (state.workers task).registered)
    (hhasChild : phase.hasChild = (state.workers task).hasChild)
    (hholds : phase.holdsLock = (state.workers task).holdsLock)
    (hpushing : phase = .pushing → state.latch = false)
    (hbusy : phase ≠ .idle)
    (hlate : Late state.history task → phase.turnedDown = true) :
    Moves state task phase state.lock where
  registered := hregistered
  hasChild := hhasChild
  holder other := by
    rw [← hsound.holder other]
    by_cases hsame : other = task
    · subst hsame
      rw [workers_goto, hholds]
    · rw [workers_goto_of_ne hsame]
  sweeper _ := Iff.rfl
  pushing := hpushing
  busy := hbusy
  late := hlate

theorem Moves.take {state : State} {task : ℕ} {phase : WorkerPhase}
    (hsound : Sound state) (hfree : state.lock = none)
    (hregistered : phase.registered = (state.workers task).registered)
    (hhasChild : phase.hasChild = (state.workers task).hasChild)
    (hholds : phase.holdsLock = true) (hpushing : phase ≠ .pushing)
    (hbusy : phase ≠ .idle)
    (hlate : (state.workers task).turnedDown = false) :
    Moves state task phase (some (.worker task)) where
  registered := hregistered
  hasChild := hhasChild
  holder other := by
    by_cases hsame : other = task
    · subst hsame
      rw [workers_goto, hholds]
      exact ⟨fun _ => rfl, fun _ => rfl⟩
    · rw [workers_goto_of_ne hsame, hsound.holder other, hfree]
      simp [Ne.symm hsame]
  sweeper sweep := by
    rw [hfree]
    simp only [reduceCtorEq, Option.some.injEq]
  pushing heq := absurd heq hpushing
  busy := hbusy
  late hbegan := absurd hbegan (hsound.not_late hlate)

theorem Moves.release {state : State} {task : ℕ} {phase : WorkerPhase}
    (hsound : Sound state) (hheld : (state.workers task).holdsLock = true)
    (hregistered : phase.registered = (state.workers task).registered)
    (hhasChild : phase.hasChild = (state.workers task).hasChild)
    (hholds : phase.holdsLock = false) (hpushing : phase ≠ .pushing)
    (hbusy : phase ≠ .idle)
    (hlate : (state.workers task).turnedDown = false) :
    Moves state task phase none where
  registered := hregistered
  hasChild := hhasChild
  holder other := by
    by_cases hsame : other = task
    · subst hsame
      rw [workers_goto, hholds]
      simp only [reduceCtorEq, Bool.false_eq_true]
    · rw [workers_goto_of_ne hsame, hsound.holder other,
        (hsound.holder task).mp hheld]
      simp [Ne.symm hsame]
  sweeper sweep := by
    rw [(hsound.holder task).mp hheld]
    simp only [reduceCtorEq, Option.some.injEq]
  pushing heq := absurd heq hpushing
  busy := hbusy
  late hbegan := absurd hbegan (hsound.not_late hlate)

/-- A step of one task that changes its child or the registry, and leaves the
lock and the sweeps alone. -/
structure Touches (state after : State) (task : ℕ) : Prop where
  workers : ∀ other, other ≠ task → after.workers other = state.workers other
  children : ∀ other, other ≠ task →
    after.children other = state.children other
  sweeps : after.sweeps = state.sweeps
  latch : after.latch = state.latch
  lock : after.lock = state.lock
  history : after.history = state.history
  holdsLock : (after.workers task).holdsLock = (state.workers task).holdsLock
  present : (after.workers task).hasChild = true →
    ∃ child, after.children task = some child ∧ child.reaped = false
  gone : (after.workers task).hasChild = false →
    ∀ child, after.children task = some child → child.reaped = true
  exited : ∀ child, after.children task = some child →
    child.reaped = true → child.exited = true
  distinct : ∀ child other rival, after.children task = some child →
    other ≠ task → state.children other = some rival → child.reaped = false →
      rival.reaped = false → child.pid ≠ rival.pid
  live : ∀ pid, pid ∈ after.live ↔ ∃ owner child,
    (after.workers owner).registered = true ∧
      after.children owner = some child ∧ child.pid = pid
  swept : ∀ sweep rest, state.sweeps sweep = .sweeping rest →
    after.live = state.live ∧ (after.workers task).registered = false
  returned : (∃ sweep, state.sweeps sweep = .returned) →
    after.workers task ≠ .pushing ∧ (after.workers task).registered = false
  busy : after.workers task ≠ .idle
  late : (state.workers task).turnedDown = true →
    (after.workers task).turnedDown = true

theorem Sound.touch {state after : State} {task : ℕ} (hsound : Sound state)
    (htouches : Touches state after task) : Sound after where
  holder other := by
    rw [htouches.lock, ← hsound.holder other]
    by_cases hsame : other = task
    · subst hsame
      rw [htouches.holdsLock]
    · rw [htouches.workers other hsame]
  sweeper sweep := by
    rw [htouches.lock, htouches.sweeps]
    exact hsound.sweeper sweep
  present other hchild := by
    by_cases hsame : other = task
    · subst hsame
      exact htouches.present hchild
    · rw [htouches.workers other hsame] at hchild
      rw [htouches.children other hsame]
      exact hsound.present other hchild
  gone other child hchild hfound := by
    by_cases hsame : other = task
    · subst hsame
      exact htouches.gone hchild child hfound
    · rw [htouches.workers other hsame] at hchild
      rw [htouches.children other hsame] at hfound
      exact hsound.gone other child hchild hfound
  exited other child hfound hreaped := by
    by_cases hsame : other = task
    · subst hsame
      exact htouches.exited child hfound hreaped
    · rw [htouches.children other hsame] at hfound
      exact hsound.exited other child hfound hreaped
  distinct left right child rival hchild hrival hleft hright hpid := by
    by_cases hfirst : left = task
    · by_cases hsecond : right = task
      · rw [hfirst, hsecond]
      · subst hfirst
        rw [htouches.children right hsecond] at hrival
        exact absurd hpid (htouches.distinct child right rival hchild hsecond
          hrival hleft hright)
    · rw [htouches.children left hfirst] at hchild
      by_cases hsecond : right = task
      · subst hsecond
        exact absurd hpid.symm (htouches.distinct rival left child hrival
          hfirst hchild hright hleft)
      · rw [htouches.children right hsecond] at hrival
        exact hsound.distinct left right child rival hchild hrival hleft
          hright hpid
  live := htouches.live
  latched sweep := by
    rw [htouches.sweeps, htouches.latch]
    exact hsound.latched sweep
  swept sweep rest hphase := by
    rw [htouches.sweeps] at hphase
    obtain ⟨hlive, hfree⟩ := htouches.swept sweep rest hphase
    obtain ⟨hrest, hdoomed⟩ := hsound.swept sweep rest hphase
    refine ⟨hlive ▸ hrest, fun other child hregistered hfound => ?_⟩
    by_cases hsame : other = task
    · subst hsame
      rw [hfree] at hregistered
      cases hregistered
    · rw [htouches.workers other hsame] at hregistered
      rw [htouches.children other hsame] at hfound
      exact hdoomed other child hregistered hfound
  returned hreturned other := by
    rw [htouches.sweeps] at hreturned
    by_cases hsame : other = task
    · subst hsame
      obtain ⟨hpushing, hfree⟩ := htouches.returned hreturned
      refine ⟨hpushing, fun hregistered => ?_⟩
      rw [hfree] at hregistered
      cases hregistered
    · rw [htouches.workers other hsame, htouches.children other hsame]
      exact hsound.returned hreturned other
  noted sweep := by
    rw [htouches.history, htouches.sweeps]
    exact hsound.noted sweep
  named other hidle := by
    rw [htouches.history]
    by_cases hsame : other = task
    · exact absurd (hsame ▸ hidle) htouches.busy
    · rw [htouches.workers other hsame] at hidle
      exact hsound.named other hidle
  late other hlate := by
    rw [htouches.history] at hlate ⊢
    obtain ⟨hturned, hnever⟩ := hsound.late other hlate
    refine ⟨?_, hnever⟩
    by_cases hsame : other = task
    · subst hsame
      exact htouches.late hturned
    · rw [htouches.workers other hsame]
      exact hturned

/-- The pid of an unreaped child is nobody else's. -/
theorem Sound.rival {state : State} (hsound : Sound state) {task other : ℕ}
    {child rival : Child} (hchild : state.children task = some child)
    (hunreaped : child.reaped = false) (hne : other ≠ task)
    (hrival : state.children other = some rival)
    (hother : rival.reaped = false) : child.pid ≠ rival.pid := by
  intro hpid
  exact hne (hsound.distinct task other child rival hchild hrival hunreaped
    hother hpid).symm

/-- While a task has the lock, no sweep goes through the registry. -/
theorem Sound.no_sweep {state : State} (hsound : Sound state) {task : ℕ}
    (hheld : (state.workers task).holdsLock = true) {sweep : ℕ}
    {rest : List ℕ} (hphase : state.sweeps sweep = .sweeping rest) : False := by
  have hsweep := (hsound.sweeper sweep).mp ⟨rest, hphase⟩
  rw [(hsound.holder task).mp hheld] at hsweep
  cases hsweep

/-- The registry of a state in which only the task has changed, and is not in
it before or after. -/
theorem ne_of_registered {workers : ℕ → WorkerPhase} {owner task : ℕ}
    (hfree : (workers task).registered = false)
    (hregistered : (workers owner).registered = true) : owner ≠ task := by
  rintro rfl
  cases hfree.symm.trans hregistered

theorem Sound.live_of_unregistered {state after : State} {task : ℕ}
    (hsound : Sound state)
    (hworkers : ∀ other, other ≠ task →
      after.workers other = state.workers other)
    (hchildren : ∀ other, other ≠ task →
      after.children other = state.children other)
    (hlive : after.live = state.live)
    (hbefore : (state.workers task).registered = false)
    (hafter : (after.workers task).registered = false) (pid : ℕ) :
    pid ∈ after.live ↔ ∃ owner child,
      (after.workers owner).registered = true ∧
        after.children owner = some child ∧ child.pid = pid := by
  rw [hlive, hsound.live pid]
  constructor
  · rintro ⟨owner, child, hregistered, hfound⟩
    have hne := ne_of_registered hbefore hregistered
    refine ⟨owner, child, ?_, ?_⟩
    · rw [hworkers owner hne]
      exact hregistered
    · rw [hchildren owner hne]
      exact hfound
  · rintro ⟨owner, child, hregistered, hfound⟩
    have hne := ne_of_registered hafter hregistered
    rw [hworkers owner hne] at hregistered
    rw [hchildren owner hne] at hfound
    exact ⟨owner, child, hregistered, hfound⟩

theorem Sound.startChild {state : State} {task pid : ℕ}
    (hsound : Sound state) (hphase : state.workers task = .cleared)
    (hfree : ∀ owner child, state.children owner = some child →
      child.reaped = false → child.pid ≠ pid) :
    Sound ((state.goto task .piped).startChild task pid) := by
  have hworkers (other : ℕ) (hne : other ≠ task) :
      ((state.goto task .piped).startChild task pid).workers other =
        state.workers other := workers_goto_of_ne hne
  have hself : ((state.goto task .piped).startChild task pid).workers task =
      .piped := workers_goto state task .piped
  have hchildren (other : ℕ) (hne : other ≠ task) :
      ((state.goto task .piped).startChild task pid).children other =
        state.children other := update_of_ne hne ..
  have hchild : ((state.goto task .piped).startChild task pid).children task =
      some { pid, killed := false, exited := false, reaped := false } :=
    update_self ..
  refine hsound.touch
    { workers := hworkers, children := hchildren, sweeps := rfl, latch := rfl
      lock := rfl, history := rfl
      holdsLock := by rw [hself, hphase]; rfl
      present := fun _ => ⟨_, hchild, rfl⟩
      gone := fun hnone => by rw [hself] at hnone; cases hnone
      exited := fun child hfound hreaped => ?_
      distinct := fun child other rival hfound _ hrival _ hunreaped => ?_
      live := hsound.live_of_unregistered hworkers hchildren rfl
        (by rw [hphase]; rfl) (by rw [hself]; rfl)
      swept := fun _ _ _ => ⟨rfl, by rw [hself]; rfl⟩
      returned := fun _ => by rw [hself]; exact ⟨nofun, rfl⟩
      busy := by rw [hself]; nofun
      late := fun hturned => by rw [hphase] at hturned; cases hturned }
  · rw [hchild] at hfound
    cases hfound
    cases hreaped
  · rw [hchild] at hfound
    cases hfound
    exact (hfree other rival hrival hunreaped).symm

/-- A task that waits for its child is no longer registered. -/
theorem Sound.waitChild {state after : State} {task : ℕ}
    {phase : WorkerPhase} (hsound : Sound state)
    (hchildless : phase.hasChild = false) (hholds : phase.holdsLock = false)
    (hfree : phase.registered = false) (hpushing : phase ≠ .pushing)
    (hbusy : phase ≠ .idle)
    (hbefore : (state.workers task).holdsLock = false)
    (hunregistered : (state.workers task).registered = false)
    (hturned : (state.workers task).turnedDown = false)
    (hstep : (state.goto task phase).waitChild task = some after) :
    Sound after := by
  unfold State.waitChild at hstep
  split at hstep
  · next child hfound =>
      split at hstep
      · next hexited =>
          cases hstep
          have hworkers (other : ℕ) (hne : other ≠ task) :
              (state.goto task phase).workers other = state.workers other :=
            workers_goto_of_ne hne
          have hself := workers_goto state task phase
          have hchildren (other : ℕ) (hne : other ≠ task) :
              update state.children task (some { child with reaped := true })
                other = state.children other := update_of_ne hne ..
          have hchild : update state.children task
              (some { child with reaped := true }) task =
                some { child with reaped := true } := update_self ..
          refine hsound.touch
            { workers := hworkers, children := hchildren, sweeps := rfl
              latch := rfl, lock := rfl, history := rfl
              holdsLock := (congrArg _ hself).trans (hholds.trans hbefore.symm)
              present := fun hsome => ?_
              gone := fun _ other hother => ?_
              exited := fun other hother _ => ?_
              distinct := fun other rival third hother _ _ hunreaped => ?_
              live := hsound.live_of_unregistered hworkers hchildren rfl
                hunregistered ((congrArg _ hself).trans hfree)
              swept := fun _ _ _ => ⟨rfl, (congrArg _ hself).trans hfree⟩
              returned := fun _ =>
                ⟨hself.trans_ne hpushing, (congrArg _ hself).trans hfree⟩
              busy := hself.trans_ne hbusy
              late := fun hlate => by rw [hturned] at hlate; cases hlate }
          · rw [congrArg WorkerPhase.hasChild hself, hchildless] at hsome
            cases hsome
          · cases hchild.symm.trans hother
            rfl
          · cases hchild.symm.trans hother
            exact hexited
          · cases hchild.symm.trans hother
            cases hunreaped
      · cases hstep
  · cases hstep

/-- Registering a child, or taking it off the registry. -/
theorem Sound.register {state after : State} {task : ℕ}
    {phase : WorkerPhase} {child : Child} (hsound : Sound state)
    (hheld : (state.workers task).holdsLock = true)
    (hchild : state.children task = some child)
    (hsome : (state.workers task).hasChild = true)
    (hlater : phase.hasChild = true) (hholds : phase.holdsLock = true)
    (hafter : after = { state.goto task phase with live := after.live })
    (hlive : ∀ pid, pid ∈ after.live ↔ ∃ owner found,
      (after.workers owner).registered = true ∧
        after.children owner = some found ∧ found.pid = pid)
    (hlast : (∃ sweep, state.sweeps sweep = .returned) →
      phase ≠ .pushing ∧ phase.registered = false)
    (hturned : (state.workers task).turnedDown = false) : Sound after := by
  obtain ⟨found, hfound, hunreaped⟩ := hsound.present task hsome
  rw [hchild] at hfound
  cases hfound
  have hself : after.workers task = phase := by
    rw [hafter]
    exact workers_goto state task phase
  have hkeeps : after.children = state.children := by
    rw [hafter]
    rfl
  refine hsound.touch
    { workers := fun other hne => by
        rw [hafter]
        exact workers_goto_of_ne hne
      children := fun other _ => by rw [hkeeps]
      sweeps := by rw [hafter]; rfl
      latch := by rw [hafter]; rfl
      lock := by rw [hafter]; rfl
      history := by rw [hafter]; rfl
      holdsLock := by rw [hself, hholds, hheld]
      present := fun _ => ⟨child, by rw [hkeeps, hchild], hunreaped⟩
      gone := fun hnone => by rw [hself, hlater] at hnone; cases hnone
      exited := fun other hother => by
        rw [hkeeps] at hother
        exact hsound.exited task other hother
      distinct := fun other rival third hother hne hthird hleft hright => by
        rw [hkeeps] at hother
        exact hsound.rival hother hleft hne hthird hright
      live := hlive
      swept := fun sweep rest hphase => (hsound.no_sweep hheld hphase).elim
      returned := fun hreturned => by
        rw [hself]
        exact hlast hreturned
      busy := by
        rw [hself]
        rintro rfl
        cases hlater
      late := fun hlate => by rw [hturned] at hlate; cases hlate }

theorem Sound.push {state after : State} {task : ℕ} (hsound : Sound state)
    (hphase : state.workers task = .pushing)
    (hstep : (state.goto task .pushed).push task = some after) :
    Sound after := by
  obtain ⟨child, hchild, rfl⟩ := Option.map_eq_some_iff.mp hstep
  change state.children task = some child at hchild
  refine hsound.register (by rw [hphase]; rfl) hchild (by rw [hphase]; rfl)
    rfl rfl rfl (fun pid => ?_) (fun hreturned => ?_) (by rw [hphase]; rfl)
  · change pid ∈ state.live ++ [child.pid] ↔ ∃ owner found,
      ((state.goto task .pushed).workers owner).registered = true ∧
        state.children owner = some found ∧ found.pid = pid
    rw [List.mem_append, List.mem_singleton, hsound.live pid]
    constructor
    · rintro (⟨owner, found, hregistered, hfound⟩ | rfl)
      · have hne := ne_of_registered (congrArg _ hphase) hregistered
        refine ⟨owner, found, ?_, hfound⟩
        rw [workers_goto_of_ne hne]
        exact hregistered
      · exact ⟨task, child, by rw [workers_goto]; rfl, hchild, rfl⟩
    · rintro ⟨owner, found, hregistered, hfound, rfl⟩
      by_cases hsame : owner = task
      · subst hsame
        rw [hchild] at hfound
        cases hfound
        exact .inr rfl
      · rw [workers_goto_of_ne hsame] at hregistered
        exact .inl ⟨owner, found, hregistered, hfound, rfl⟩
  · exact absurd hphase (hsound.returned hreturned task).1

theorem Sound.retain {state after : State} {task : ℕ} (hsound : Sound state)
    (hphase : state.workers task = .deregistering)
    (hstep : (state.goto task .deregistered).retain task = some after) :
    Sound after := by
  obtain ⟨child, hchild, rfl⟩ := Option.map_eq_some_iff.mp hstep
  change state.children task = some child at hchild
  have hsome : (state.workers task).hasChild = true := by rw [hphase]; rfl
  obtain ⟨found, hfound, hunreaped⟩ := hsound.present task hsome
  rw [hchild] at hfound
  cases hfound
  refine hsound.register (by rw [hphase]; rfl) hchild hsome
    rfl rfl rfl (fun pid => ?_) (fun _ => ⟨nofun, rfl⟩) (by rw [hphase]; rfl)
  change pid ∈ state.live.filter (· ≠ child.pid) ↔ ∃ owner found,
    ((state.goto task .deregistered).workers owner).registered = true ∧
      state.children owner = some found ∧ found.pid = pid
  rw [List.mem_filter, decide_eq_true_iff, hsound.live pid]
  constructor
  · rintro ⟨⟨owner, found, hregistered, hfound, rfl⟩, hother⟩
    have hne : owner ≠ task := by
      rintro rfl
      rw [hchild] at hfound
      cases hfound
      exact hother rfl
    refine ⟨owner, found, ?_, hfound, rfl⟩
    rw [workers_goto_of_ne hne]
    exact hregistered
  · rintro ⟨owner, found, hregistered, hfound, rfl⟩
    have hne :=
      ne_of_registered (congrArg _ (workers_goto state task _)) hregistered
    rw [workers_goto_of_ne hne] at hregistered
    refine ⟨⟨owner, found, hregistered, hfound, rfl⟩, ?_⟩
    obtain ⟨other, hother, hlives⟩ := hsound.present owner
      (WorkerPhase.hasChild_of_registered hregistered)
    rw [hfound] at hother
    cases hother
    exact (hsound.rival hchild hunreaped hne hfound hlives).symm

/-! ## Signals and exits -/

/-- What a signal or an exit makes of a child. -/
structure Ages (change : ℕ → Child → Child) : Prop where
  pid : ∀ task child, (change task child).pid = child.pid
  reaped : ∀ task child, (change task child).reaped = child.reaped
  exited : ∀ task child, child.exited = true →
    (change task child).exited = true
  doomed : ∀ task child, child.doomed = true →
    (change task child).doomed = true

theorem Sound.mark {state : State} {change : ℕ → Child → Child}
    (hsound : Sound state) (hages : Ages change) : Sound (state.mark change) where
  holder := hsound.holder
  sweeper := hsound.sweeper
  present task hchild := by
    obtain ⟨child, hfound, hunreaped⟩ := hsound.present task hchild
    refine ⟨change task child, ?_, (hages.reaped task child).trans hunreaped⟩
    exact Option.map_eq_some_iff.mpr ⟨child, hfound, rfl⟩
  gone task child hchild hfound := by
    obtain ⟨old, hold, rfl⟩ := Option.map_eq_some_iff.mp hfound
    exact (hages.reaped task old).trans (hsound.gone task old hchild hold)
  exited task child hfound hreaped := by
    obtain ⟨old, hold, rfl⟩ := Option.map_eq_some_iff.mp hfound
    exact hages.exited task old
      (hsound.exited task old hold ((hages.reaped task old).symm.trans hreaped))
  distinct task other child rival hchild hrival hleft hright hpid := by
    obtain ⟨old, hold, rfl⟩ := Option.map_eq_some_iff.mp hchild
    obtain ⟨second, hsecond, rfl⟩ := Option.map_eq_some_iff.mp hrival
    rw [hages.pid, hages.pid] at hpid
    rw [hages.reaped] at hleft hright
    exact hsound.distinct task other old second hold hsecond hleft hright hpid
  live pid := by
    refine (hsound.live pid).trans ?_
    constructor
    · rintro ⟨task, child, hregistered, hfound, rfl⟩
      exact ⟨task, change task child, hregistered,
        Option.map_eq_some_iff.mpr ⟨child, hfound, rfl⟩, hages.pid task child⟩
    · rintro ⟨task, child, hregistered, hfound, rfl⟩
      obtain ⟨old, hold, rfl⟩ := Option.map_eq_some_iff.mp hfound
      exact ⟨task, old, hregistered, hold, (hages.pid task old).symm⟩
  latched := hsound.latched
  swept sweep rest hphase := by
    obtain ⟨hrest, hdoomed⟩ := hsound.swept sweep rest hphase
    refine ⟨hrest, fun task child hregistered hfound => ?_⟩
    obtain ⟨old, hold, rfl⟩ := Option.map_eq_some_iff.mp hfound
    rw [hages.pid]
    exact (hdoomed task old hregistered hold).imp_right (hages.doomed task old)
  returned hreturned task := by
    obtain ⟨hpushing, hdoomed⟩ := hsound.returned hreturned task
    refine ⟨hpushing, fun hregistered child hfound => ?_⟩
    obtain ⟨old, hold, rfl⟩ := Option.map_eq_some_iff.mp hfound
    exact hages.doomed task old (hdoomed hregistered old hold)
  noted := hsound.noted
  named := hsound.named
  late := hsound.late

theorem ages_kill (hit : ℕ → Child → Prop) [∀ task, DecidablePred (hit task)] :
    Ages fun task child =>
      if hit task child then { child with killed := true } else child where
  pid task child := by split <;> rfl
  reaped task child := by split <;> rfl
  exited task child hexited := by split <;> exact hexited
  doomed task child hdoomed := by
    split
    · rfl
    · exact hdoomed

theorem Sound.killChild {state : State} (hsound : Sound state) (task : ℕ) :
    Sound (state.killChild task) :=
  hsound.mark (ages_kill fun owner _ => owner = task)

theorem Sound.exitChild {state : State} (hsound : Sound state) (task : ℕ) :
    Sound (state.exitChild task) := by
  refine hsound.mark ⟨?_, ?_, ?_, ?_⟩
  · intro owner child
    split <;> rfl
  · intro owner child
    split <;> rfl
  · intro owner child hexited
    split
    · rfl
    · exact hexited
  · intro owner child hdoomed
    split
    · exact Bool.or_true _
    · exact hdoomed

/-! ## Moves of a sweep -/

/-- What a sweep may do to the latch, the lock and itself. -/
structure Sweeps (state : State) (id : ℕ) (phase : SweepPhase)
    (lock : Option Holder) (latch : Bool) : Prop where
  keeps : state.latch = true → latch = true
  latched : phase ≠ .idle → phase ≠ .started → latch = true
  sweeper : ∀ sweep,
    (∃ rest, (state.sweepTo id phase).sweeps sweep = .sweeping rest) ↔
      lock = some (.sweep sweep)
  holder : ∀ task,
    state.lock = some (.worker task) ↔ lock = some (.worker task)
  swept : ∀ rest, phase = .sweeping rest →
    (∀ pid ∈ rest, pid ∈ state.live) ∧
      ∀ task child, (state.workers task).registered = true →
        state.children task = some child →
          child.pid ∈ rest ∨ child.doomed = true
  returned : phase = .returned → ∀ task, state.workers task ≠ .pushing ∧
    ((state.workers task).registered = true →
      ∀ child, state.children task = some child → child.doomed = true)
  final : state.sweeps id ≠ .returned

theorem Sound.sweep {state : State} {id : ℕ} {phase : SweepPhase}
    {lock : Option Holder} {latch : Bool} (hsound : Sound state)
    (hsweeps : Sweeps state id phase lock latch) :
    Sound { (state.sweepTo id phase).withLock lock with latch } where
  holder task := (hsound.holder task).trans (hsweeps.holder task)
  sweeper := hsweeps.sweeper
  present := hsound.present
  gone := hsound.gone
  exited := hsound.exited
  distinct := hsound.distinct
  live := hsound.live
  latched sweep := by
    intro hidle hstarted
    by_cases hsame : sweep = id
    · subst hsame
      have hself : (state.sweepTo sweep phase).sweeps sweep = phase :=
        update_self ..
      exact hsweeps.latched (hself ▸ hidle) (hself ▸ hstarted)
    · have hother : (state.sweepTo id phase).sweeps sweep =
          state.sweeps sweep := update_of_ne hsame ..
      exact hsweeps.keeps
        (hsound.latched sweep (hother ▸ hidle) (hother ▸ hstarted))
  swept sweep rest hphase := by
    by_cases hsame : sweep = id
    · subst hsame
      exact hsweeps.swept rest ((update_self ..).symm.trans hphase)
    · exact hsound.swept sweep rest
        ((update_of_ne hsame ..).symm.trans hphase)
  returned := by
    rintro ⟨sweep, hphase⟩
    by_cases hsame : sweep = id
    · subst hsame
      exact hsweeps.returned ((update_self ..).symm.trans hphase)
    · exact hsound.returned
        ⟨sweep, (update_of_ne hsame ..).symm.trans hphase⟩
  noted sweep hmem := by
    have hold := hsound.noted sweep hmem
    have hne : sweep ≠ id := by
      rintro rfl
      exact hsweeps.final hold
    exact (update_of_ne hne ..).trans hold
  named := hsound.named
  late := hsound.late

/-- A sweep that is not in its critical section, before or after. -/
theorem Sweeps.outside {state : State} {id : ℕ} {phase : SweepPhase}
    {latch : Bool} (hsound : Sound state)
    (hbefore : ∀ rest, state.sweeps id ≠ .sweeping rest)
    (hfinal : state.sweeps id ≠ .returned)
    (hafter : ∀ rest, phase ≠ .sweeping rest) (hreturned : phase ≠ .returned)
    (hkeeps : state.latch = true → latch = true)
    (hlatched : phase ≠ .idle → phase ≠ .started → latch = true) :
    Sweeps state id phase state.lock latch where
  keeps := hkeeps
  latched := hlatched
  sweeper sweep := by
    rw [← hsound.sweeper sweep]
    by_cases hsame : sweep = id
    · subst hsame
      have hself : (state.sweepTo sweep phase).sweeps sweep = phase :=
        update_self ..
      rw [hself]
      exact ⟨fun ⟨rest, hrest⟩ => absurd hrest (hafter rest),
        fun ⟨rest, hrest⟩ => absurd hrest (hbefore rest)⟩
    · have hother : (state.sweepTo id phase).sweeps sweep =
          state.sweeps sweep := update_of_ne hsame ..
      rw [hother]
  holder _ := Iff.rfl
  swept rest heq := absurd heq (hafter rest)
  returned heq := absurd heq hreturned
  final := hfinal

theorem Sound.sweepLock {state : State} {id : ℕ} (hsound : Sound state)
    (hphase : state.sweeps id = .latched) (hfree : state.lock = none) :
    Sound ((state.sweepTo id (.sweeping state.live)).withLock
      (some (.sweep id))) := by
  have hlatch := hsound.latched id (hphase ▸ nofun) (hphase ▸ nofun)
  refine @Sound.sweep state id (.sweeping state.live) (some (.sweep id))
    state.latch hsound
    { keeps := fun hlatch => hlatch
      latched := fun _ _ => hlatch
      sweeper := fun sweep => ?_
      holder := fun task => by rw [hfree]; simp only [reduceCtorEq, Option.some.injEq]
      swept := fun rest heq => ?_
      returned := nofun
      final := hphase ▸ nofun }
  · by_cases hsame : sweep = id
    · subst hsame
      exact ⟨fun _ => rfl, fun _ => ⟨state.live, update_self ..⟩⟩
    · have hother : (state.sweepTo id (.sweeping state.live)).sweeps sweep =
          state.sweeps sweep := update_of_ne hsame ..
      rw [hother, hsound.sweeper sweep, hfree]
      simp [Ne.symm hsame]
  · cases heq
    refine ⟨fun pid hmem => hmem, fun task child hregistered hfound => ?_⟩
    exact .inl ((hsound.live child.pid).mpr
      ⟨task, child, hregistered, hfound, rfl⟩)

/-- SIGKILL reaches the child the pid was registered for. -/
theorem Sound.sweepKill {state : State} {id pid : ℕ} {rest : List ℕ}
    (hsound : Sound state)
    (hphase : state.sweeps id = .sweeping (pid :: rest)) :
    Sound ((state.sweepTo id (.sweeping rest)).killPid pid) := by
  have hmarked : Sound (state.killPid pid) :=
    hsound.mark (ages_kill fun _ child =>
      child.pid = pid ∧ child.reaped = false)
  have hlock := (hsound.sweeper id).mp ⟨_, hphase⟩
  obtain ⟨hrest, hdoomed⟩ := hsound.swept id _ hphase
  refine @Sound.sweep (state.killPid pid) id (.sweeping rest) state.lock
    state.latch hmarked
    { keeps := fun hlatch => hlatch
      latched := fun _ _ => hsound.latched id (hphase ▸ nofun) (hphase ▸ nofun)
      sweeper := fun sweep => ?_
      holder := fun _ => Iff.rfl
      swept := fun left heq => ?_
      returned := nofun
      final := fun heq => by
        change state.sweeps id = .returned at heq
        rw [hphase] at heq
        cases heq }
  · by_cases hsame : sweep = id
    · subst hsame
      exact ⟨fun _ => hlock, fun _ => ⟨rest, update_self ..⟩⟩
    · rw [← hsound.sweeper sweep]
      have hother : ((state.killPid pid).sweepTo id (.sweeping rest)).sweeps
          sweep = state.sweeps sweep := update_of_ne hsame ..
      rw [hother]
  · cases heq
    refine ⟨fun other hmem => hrest other (List.mem_cons_of_mem _ hmem), ?_⟩
    intro task child hregistered hfound
    change (state.workers task).registered = true at hregistered
    obtain ⟨old, hold, rfl⟩ := Option.map_eq_some_iff.mp hfound
    obtain ⟨found, hfound, hunreaped⟩ := hsound.present task
      (WorkerPhase.hasChild_of_registered hregistered)
    rw [hold] at hfound
    cases hfound
    beta_reduce
    by_cases hhit : old.pid = pid
    · rw [if_pos ⟨hhit, hunreaped⟩]
      exact .inr rfl
    · rw [if_neg fun hboth => hhit hboth.1]
      refine (hdoomed task old hregistered hold).imp_left fun hmem => ?_
      exact (List.mem_cons.mp hmem).resolve_left hhit

/-- When nothing is left to kill, every registered child is doomed. -/
theorem Sound.sweepUnlock {state : State} {id : ℕ} (hsound : Sound state)
    (hphase : state.sweeps id = .sweeping []) :
    Sound ((state.sweepTo id .returned).withLock none) := by
  have hlock := (hsound.sweeper id).mp ⟨_, hphase⟩
  refine @Sound.sweep state id .returned none state.latch hsound
    { keeps := fun hlatch => hlatch
      latched := fun _ _ => hsound.latched id (hphase ▸ nofun) (hphase ▸ nofun)
      sweeper := fun sweep => ?_
      holder := fun task => by rw [hlock]; simp only [reduceCtorEq, Option.some.injEq]
      swept := nofun
      returned := fun _ task => ?_
      final := hphase ▸ nofun }
  · by_cases hsame : sweep = id
    · subst hsame
      have hself : (state.sweepTo sweep .returned).sweeps sweep = .returned :=
        update_self ..
      rw [hself]
      simp only [reduceCtorEq, exists_false]
    · have hother : (state.sweepTo id .returned).sweeps sweep =
          state.sweeps sweep := update_of_ne hsame ..
      rw [hother, hsound.sweeper sweep, hlock]
      simp [Ne.symm hsame]
  · refine ⟨fun hpushing => ?_, fun hregistered child hfound => ?_⟩
    · exact @Sound.no_sweep state hsound task (by rw [hpushing]; rfl) id [] hphase
    · exact ((hsound.swept id [] hphase).2 task child hregistered hfound
        ).resolve_left List.not_mem_nil

/-! ## What is noted -/

theorem late_snoc {history : List Event} {event : Event} {task : ℕ}
    (hlate : Late (history ++ [event]) task) :
    Late history task ∨ event = .began task := by
  obtain ⟨before, sweep, after, heq, hbegan⟩ := hlate
  rcases snoc_eq_append_cons heq with
    ⟨rfl, -, rfl⟩ | ⟨rest, hhistory, rfl⟩
  · exact absurd hbegan List.not_mem_nil
  · rcases List.mem_append.mp hbegan with hrest | hnew
    · exact .inl ⟨before, sweep, rest, hhistory, hrest⟩
    · exact .inr (List.mem_singleton.mp hnew).symm

/-- What a task or a sweep may say of itself. -/
structure Says (state : State) (event : Event) : Prop where
  returned : ∀ sweep, event = .returned sweep →
    state.sweeps sweep = .returned
  began : ∀ task, event = .began task →
    state.workers task = .started ∧ .yielded task ∉ state.history
  yielded : ∀ task, event = .yielded task → state.workers task = .owned

theorem Sound.note {state : State} {event : Event} (hsound : Sound state)
    (hsaid : Says state event) : Sound (state.note event) :=
  { hsound with
    noted := fun sweep hmem => by
      rcases List.mem_append.mp hmem with hold | hnew
      · exact hsound.noted sweep hold
      · exact hsaid.returned sweep (List.mem_singleton.mp hnew).symm
    named := fun task hidle => by
      change state.workers task = .idle at hidle
      obtain ⟨hbegan, hyielded⟩ := hsound.named task hidle
      refine ⟨fun hmem => ?_, fun hmem => ?_⟩
      · rcases List.mem_append.mp hmem with hold | hnew
        · exact hbegan hold
        · have hstarted :=
            (hsaid.began task (List.mem_singleton.mp hnew).symm).1
          rw [hidle] at hstarted
          cases hstarted
      · rcases List.mem_append.mp hmem with hold | hnew
        · exact hyielded hold
        · have howned := hsaid.yielded task (List.mem_singleton.mp hnew).symm
          rw [hidle] at howned
          cases howned
    late := fun task hlate => by
      have hboth : (state.workers task).turnedDown = true ∧
          .yielded task ∉ state.history := by
        rcases late_snoc hlate with hold | heq
        · exact hsound.late task hold
        · obtain ⟨hstarted, hnever⟩ := hsaid.began task heq
          exact ⟨by rw [hstarted]; rfl, hnever⟩
      refine ⟨hboth.1, fun hmem => ?_⟩
      rcases List.mem_append.mp hmem with hold | hnew
      · exact hboth.2 hold
      · have howned := hsaid.yielded task (List.mem_singleton.mp hnew).symm
        have hturned := hboth.1
        rw [howned] at hturned
        cases hturned }

/-! ## Every step -/

/-- A move by itself, the lock being as it was. -/
theorem Sound.goto {state : State} {task : ℕ} {phase : WorkerPhase}
    (hsound : Sound state) (hmoves : Moves state task phase state.lock) :
    Sound (state.goto task phase) :=
  hsound.move hmoves

/-- A task that goes to a phase which tells the same of its lock and child. -/
theorem Sound.stay {state : State} {task : ℕ} {old phase : WorkerPhase}
    (hsound : Sound state) (hphase : state.workers task = old)
    (hregistered : phase.registered = old.registered)
    (hhasChild : phase.hasChild = old.hasChild)
    (hholds : phase.holdsLock = old.holdsLock)
    (hpushing : phase = .pushing → state.latch = false) (hbusy : phase ≠ .idle)
    (hlate : Late state.history task → phase.turnedDown = true) :
    Sound (state.goto task phase) := by
  subst hphase
  exact hsound.goto
    (.stay hsound hregistered hhasChild hholds hpushing hbusy hlate)

/-- Past the latch, no sweep had returned when the spawn began. -/
theorem Sound.stayPast {state : State} {task : ℕ} {old phase : WorkerPhase}
    (hsound : Sound state) (hphase : state.workers task = old)
    (hpast : old.turnedDown = false)
    (hregistered : phase.registered = old.registered)
    (hhasChild : phase.hasChild = old.hasChild)
    (hholds : phase.holdsLock = old.holdsLock)
    (hpushing : phase = .pushing → state.latch = false)
    (hbusy : phase ≠ .idle) : Sound (state.goto task phase) := by
  have hnever : ¬ Late state.history task :=
    hsound.not_late (by rw [hphase, hpast])
  exact hsound.stay hphase hregistered hhasChild hholds hpushing hbusy
    fun hlate => absurd hlate hnever

theorem Sound.unlock {state : State} {task : ℕ} {old phase : WorkerPhase}
    (hsound : Sound state) (hphase : state.workers task = old)
    (hheld : old.holdsLock = true) (hpast : old.turnedDown = false)
    (hregistered : phase.registered = old.registered)
    (hhasChild : phase.hasChild = old.hasChild)
    (hholds : phase.holdsLock = false) (hpushing : phase ≠ .pushing)
    (hbusy : phase ≠ .idle) :
    Sound ((state.goto task phase).withLock none) := by
  subst hphase
  exact hsound.move (.release hsound hheld hregistered hhasChild hholds hpushing
    hbusy hpast)

theorem Sound.lockFor {state after : State} {task : ℕ} {old phase : WorkerPhase}
    (hsound : Sound state) (hphase : state.workers task = old)
    (hpast : old.turnedDown = false)
    (hregistered : phase.registered = old.registered)
    (hhasChild : phase.hasChild = old.hasChild)
    (hholds : phase.holdsLock = true) (hpushing : phase ≠ .pushing)
    (hbusy : phase ≠ .idle)
    (hstep : state.lockFor task phase = some after) : Sound after := by
  subst hphase
  unfold State.lockFor at hstep
  split at hstep
  · next hfree =>
      cases hstep
      exact hsound.move (.take hsound hfree hregistered hhasChild hholds
        hpushing hbusy hpast)
  · cases hstep

/-- The spawn reads the latch for the first time. -/
theorem Sound.readLatch {state : State} {task : ℕ} (hsound : Sound state)
    (hphase : state.workers task = .started) :
    Sound (state.goto task (if state.latch then .failed else .cleared)) := by
  cases hlatch : state.latch with
  | true => exact hsound.stay hphase rfl rfl rfl nofun nofun fun _ => rfl
  | false =>
      refine hsound.stay hphase rfl rfl rfl nofun nofun fun hlate => ?_
      rw [hsound.latch_of_late hlate] at hlatch
      cases hlatch

/-- It reads the latch again, under the lock. -/
theorem Sound.recheck {state : State} {task : ℕ} (hsound : Sound state)
    (hphase : state.workers task = .locked) :
    Sound (state.goto task (if state.latch then .turnedAway else .pushing)) := by
  cases hlatch : state.latch with
  | true => exact hsound.stayPast hphase rfl rfl rfl rfl nofun nofun
  | false =>
      exact hsound.stayPast hphase rfl rfl rfl rfl (fun _ => hlatch) nofun

theorem Sound.actWorker {state after : State} {task : ℕ} {move : WorkerMove}
    (hsound : Sound state) (hpid : PidIsFree state (.worker task move))
    (hstep : state.actWorker task move = some after) : Sound after := by
  unfold State.actWorker at hstep
  split at hstep
  · next hphase =>
      -- the spawn is called
      cases hstep
      have hnever := (hsound.named task hphase).2
      have hmoved : Sound (state.goto task .started) :=
        hsound.stay hphase rfl rfl rfl nofun nofun fun _ => rfl
      refine hmoved.note ⟨nofun, fun other heq => ?_, nofun⟩
      cases heq
      exact ⟨workers_goto .., hnever⟩
  · next hphase =>
      cases hstep
      exact hsound.readLatch hphase
  · next hphase =>
      cases hstep
      exact hsound.stay hphase rfl rfl rfl nofun nofun fun _ => rfl
  · next pid hphase =>
      cases hstep
      exact hsound.startChild hphase hpid
  · next ok hphase =>
      cases hstep
      cases ok with
      | true => exact hsound.stayPast hphase rfl rfl rfl rfl nofun nofun
      | false => exact hsound.stayPast hphase rfl rfl rfl rfl nofun nofun
  · next hphase =>
      exact @Sound.lockFor state after task .registering .locked hsound hphase
        rfl rfl rfl rfl nofun nofun hstep
  · next hphase =>
      cases hstep
      exact hsound.recheck hphase
  · next hphase =>
      cases hstep
      exact hsound.unlock hphase rfl rfl rfl rfl rfl nofun nofun
  · next hphase => exact hsound.push hphase hstep
  · next hphase =>
      cases hstep
      have hmoved : Sound ((state.goto task .owned).withLock none) :=
        hsound.unlock hphase rfl rfl rfl rfl rfl nofun nofun
      refine hmoved.note ⟨nofun, nofun, fun other heq => ?_⟩
      cases heq
      exact workers_goto ..
  · next hphase =>
      cases hstep
      have hmoved : Sound (state.goto task .rejected) :=
        hsound.stayPast hphase rfl rfl rfl rfl nofun nofun
      exact hmoved.killChild task
  · next hphase =>
      exact @Sound.waitChild state after task .failed hsound rfl rfl rfl
        nofun nofun (by rw [hphase]; rfl)
        (by rw [hphase]; rfl) (by rw [hphase]; rfl) hstep
  · next hphase =>
      cases hstep
      exact hsound.stayPast hphase rfl rfl rfl rfl nofun nofun
  · next hphase =>
      exact @Sound.lockFor state after task .dropping .deregistering hsound
        hphase rfl rfl rfl rfl nofun nofun hstep
  · next hphase => exact hsound.retain hphase hstep
  · next hphase =>
      cases hstep
      exact hsound.unlock hphase rfl rfl rfl rfl rfl nofun nofun
  · next hphase =>
      cases hstep
      have hmoved : Sound (state.goto task .reaping) :=
        hsound.stayPast hphase rfl rfl rfl rfl nofun nofun
      exact hmoved.killChild task
  · next hphase =>
      exact @Sound.waitChild state after task .dropped hsound rfl rfl rfl
        nofun nofun (by rw [hphase]; rfl)
        (by rw [hphase]; rfl) (by rw [hphase]; rfl) hstep
  · cases hstep

theorem Sound.actSweep {state after : State} {id : ℕ} {move : SweepMove}
    (hsound : Sound state) (hstep : state.actSweep id move = some after) :
    Sound after := by
  unfold State.actSweep at hstep
  split at hstep
  · next hphase =>
      cases hstep
      exact hsound.sweep (.outside hsound (hphase ▸ nofun) (hphase ▸ nofun)
        nofun nofun (fun hlatch => hlatch) fun _ hstarted => absurd rfl hstarted)
  · next hphase =>
      cases hstep
      exact hsound.sweep (.outside hsound (hphase ▸ nofun) (hphase ▸ nofun)
        nofun nofun (fun _ => rfl) fun _ _ => rfl)
  · next hphase =>
      split at hstep
      · next hfree =>
          cases hstep
          exact hsound.sweepLock hphase hfree
      · cases hstep
  · next pid rest hphase =>
      cases hstep
      exact hsound.sweepKill hphase
  · next hphase =>
      cases hstep
      refine (hsound.sweepUnlock hphase).note ⟨fun sweep heq => ?_, nofun, nofun⟩
      cases heq
      exact update_self ..
  · cases hstep

theorem Sound.step {before after : State} {label : Label}
    (hsound : Sound before) (hstep : Step before label after) :
    Sound after := by
  obtain ⟨hpid, hact⟩ := hstep
  cases label with
  | worker task move => exact hsound.actWorker hpid hact
  | sweep id move => exact hsound.actSweep hact
  | exits task =>
      cases hact
      exact hsound.exitChild task

theorem Reaches.sound {state : State} (hreach : Reaches state) :
    Sound state := by
  have hrun : Reachable (· = State.initial) Step anyStep state := hreach
  refine hrun.invariant ?_ ?_
  · rintro start rfl
    exact sound_initial
  · intro before label after hsound _ hstep
    exact hsound.step hstep

theorem Sound.complete {state : State} (hsound : Sound state) :
    Complete state where
  killed := by
    rintro ⟨sweep, hreturned⟩ hquiet task child hfound halive
    have hunreaped : child.reaped = false := by
      by_contra hreaped
      rw [Bool.not_eq_false] at hreaped
      rw [hsound.exited task child hfound hreaped] at halive
      cases halive
    have hdoomed := (hsound.returned ⟨sweep, hsound.noted sweep hreturned⟩ task).2
    have hgone := hsound.gone task child
    rcases hquiet task with hphase | hphase | hphase | hphase
    · rw [hgone (by rw [hphase]; rfl) hfound] at hunreaped
      cases hunreaped
    · rw [hgone (by rw [hphase]; rfl) hfound] at hunreaped
      cases hunreaped
    · have heither := hdoomed (by rw [hphase]; rfl) child hfound
      rw [Child.doomed, halive, Bool.or_false] at heither
      exact heither
    · rw [hgone (by rw [hphase]; rfl) hfound] at hunreaped
      cases hunreaped
  latched before sweep after task heq hbegan :=
    (hsound.late task ⟨before, sweep, after, heq, hbegan⟩).2
  unreaped sweep pid rest hphase := by
    obtain ⟨hrest, -⟩ := hsound.swept sweep _ hphase
    obtain ⟨task, child, hregistered, hfound, hpid⟩ :=
      (hsound.live pid).mp (hrest pid List.mem_cons_self)
    obtain ⟨other, hother, hunreaped⟩ := hsound.present task
      (WorkerPhase.hasChild_of_registered hregistered)
    rw [hfound] at hother
    cases hother
    exact ⟨task, child, hfound, hpid, hunreaped⟩

/-- **Teardown.** In every interleaving of spawns, drops and sweeps, a returned
sweep leaves no worker alive that was not sent SIGKILL, once the spawns and
drops in progress have finished; no later spawn yields a worker; and a sweep
kills no pid that has been reaped. -/
theorem shutdownWorkers_complete (state : State) (hreach : Reaches state) :
    Complete state :=
  hreach.sound.complete

/-! ### A worker that is swept -/

theorem Reaches.act {before after : State} {label : Label}
    (hreach : Reaches before) (hpid : PidIsFree before label)
    (hact : before.act label = some after) : Reaches after :=
  Reachable.step hreach trivial ⟨hpid, hact⟩

def sweptRun : List Label :=
  [.worker 0 (.takePipes true), .worker 0 .lock, .worker 0 .recheck,
    .worker 0 .push, .worker 0 .unlock, .sweep 0 .begin, .sweep 0 .store,
    .sweep 0 .lock, .sweep 0 .kill, .sweep 0 .unlock]

/-- The steps that start no process. -/
def actOld (state : State) (label : Label) : Option State :=
  match label with
  | .worker _ (.startChild _) => none
  | _ => state.act label

theorem step_of_actOld {before after : State} {label : Label}
    (hact : actOld before label = some after) : Step before label after := by
  cases label with
  | worker task move =>
      cases move with
      | startChild pid => cases hact
      | _ => exact ⟨trivial, hact⟩
  | sweep id move => exact ⟨trivial, hact⟩
  | exits task => exact ⟨trivial, hact⟩

def cleared : State :=
  ((State.initial.goto 0 .started).note (.began 0)).goto 0 .cleared

theorem reaches_piped : Reaches ((cleared.goto 0 .piped).startChild 0 7) := by
  have hinitial : Reaches State.initial := .initial rfl
  have hbegan : Reaches ((State.initial.goto 0 .started).note (.began 0)) :=
    @Reaches.act _ _ (.worker 0 .begin) hinitial trivial rfl
  have hcleared : Reaches cleared :=
    @Reaches.act _ _ (.worker 0 .readLatch) hbegan trivial rfl
  refine @Reaches.act _ _ (.worker 0 (.startChild (some 7))) hcleared ?_ rfl
  intro owner child hchild
  cases hchild

theorem shutdownWorkers_complete_swept :
    ∃ state, Reaches state ∧
      state.history = [.began 0, .yielded 0, .returned 0] ∧ Complete state := by
  have hevents : (sweptRun.foldlM actOld
      ((cleared.goto 0 .piped).startChild 0 7)).map State.history =
        some [.began 0, .yielded 0, .returned 0] := by
    decide +kernel
  obtain ⟨state, hrun, hhistory⟩ := Option.map_eq_some_iff.mp hevents
  have hstart : Reachable (· = State.initial) Step anyStep
      ((cleared.goto 0 .piped).startChild 0 7) := reaches_piped
  have hact (before : State) (label : Label) (after : State)
      (hold : actOld before label = some after) :
      anyStep before label ∧ Step before label after :=
    ⟨trivial, step_of_actOld hold⟩
  have hreach : Reaches state := hstart.foldlM hact hrun
  exact ⟨state, hreach, hhistory, shutdownWorkers_complete state hreach⟩

end Mandala.Eval.Teardown
