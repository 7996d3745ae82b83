import Mandala.Deploy.ChildGroup

/-!
# Ownership of process groups

The registry holds the pid of every group whose leader was not reaped and whose
`ChildGroup` is held, and nothing else.  A second unregistration under a pid that
was given to another group in between is what can break this.
-/

namespace Mandala.Deploy.ChildGroups

open Function Mandala.Transition

/-! ## One task of the state -/

section Tasks
variable {state : State} {id other : ℕ} {task changed : Task}

theorem tasks_withTask (state : State) (id other : ℕ) (changed : Task) :
    (state.withTask id changed).tasks other =
      if other = id then some changed else state.tasks other :=
  update_apply ..

/-- What is said of some task, after one was changed. -/
theorem exists_withTask (property : Task → Prop) :
    (∃ task, (state.withTask id changed).tasks other = some task ∧
        property task) ↔
      if other = id then property changed
      else ∃ task, state.tasks other = some task ∧ property task := by
  rw [tasks_withTask]
  split
  · constructor
    · rintro ⟨task, hfound, hproperty⟩
      cases hfound
      exact hproperty
    · exact fun hproperty => ⟨changed, rfl, hproperty⟩
  · rfl

theorem exists_of_found (hfound : state.tasks id = some task)
    (property : Task → Prop) :
    (∃ task, state.tasks id = some task ∧ property task) ↔ property task := by
  rw [hfound]
  constructor
  · rintro ⟨found, heq, hproperty⟩
    cases heq
    exact hproperty
  · exact fun hproperty => ⟨task, rfl, hproperty⟩

end Tasks

/-! ## The registry -/

/-- The task's group is to be registered, under that pid. -/
def Task.Owns (task : Task) (pid : ℕ) : Prop :=
  task.group.isSome = true ∧ task.leader.reaped = false ∧ task.leader.pid = pid

structure Registered (state : State) : Prop where
  groups : ∀ pid, pid ∈ state.children.groups ↔
    ∃ id task, state.tasks id = some task ∧ task.Owns pid
  group : ∀ id task group, state.tasks id = some task →
    task.group = some group →
      group.pgid = task.leader.pid ∧ group.reaped = task.leader.reaped
  distinct : ∀ id other task sibling, state.tasks id = some task →
    state.tasks other = some sibling → task.leader.reaped = false →
      sibling.leader.reaped = false →
        task.leader.pid = sibling.leader.pid → id = other

namespace Registered
variable {state : State} {id : ℕ} {task changed : Task}

/-- What a change may do to a task. -/
structure Change (task changed : Task) : Prop where
  pid : changed.leader.pid = task.leader.pid
  reaped : changed.leader.reaped = false → task.leader.reaped = false
  group : ∀ group, changed.group = some group →
    group.pgid = changed.leader.pid ∧ group.reaped = changed.leader.reaped

theorem group_withTask (hregistered : Registered state)
    (hchange : Change task changed) (other : ℕ) (found : Task)
    (group : ChildGroup)
    (hfound : (state.withTask id changed).tasks other = some found)
    (hgroup : found.group = some group) :
    group.pgid = found.leader.pid ∧ group.reaped = found.leader.reaped := by
  obtain ⟨rfl, rfl⟩ | ⟨-, hfound⟩ := update_eq_some hfound
  · exact hchange.group group hgroup
  · exact hregistered.group other found group hfound hgroup

/-- An unreaped task of the changed state was one before. -/
theorem unreaped_withTask (hfound : state.tasks id = some task)
    (hchange : Change task changed) {other : ℕ} {found : Task}
    (hother : (state.withTask id changed).tasks other = some found)
    (hreaped : found.leader.reaped = false) :
    ∃ earlier, state.tasks other = some earlier ∧
      earlier.leader.reaped = false ∧ earlier.leader.pid = found.leader.pid := by
  obtain ⟨rfl, rfl⟩ | ⟨-, hother⟩ := update_eq_some hother
  · exact ⟨task, hfound, hchange.reaped hreaped, hchange.pid.symm⟩
  · exact ⟨found, hother, hreaped, rfl⟩

theorem distinct_withTask (hregistered : Registered state)
    (hfound : state.tasks id = some task) (hchange : Change task changed)
    (first second : ℕ) (left right : Task)
    (hleft : (state.withTask id changed).tasks first = some left)
    (hright : (state.withTask id changed).tasks second = some right)
    (hleftReaped : left.leader.reaped = false)
    (hrightReaped : right.leader.reaped = false)
    (hpid : left.leader.pid = right.leader.pid) : first = second := by
  obtain ⟨left', hleft', hreaped, heq⟩ :=
    unreaped_withTask hfound hchange hleft hleftReaped
  obtain ⟨right', hright', hreaped', heq'⟩ :=
    unreaped_withTask hfound hchange hright hrightReaped
  exact hregistered.distinct first second left' right' hleft' hright' hreaped
    hreaped' (heq.trans (hpid.trans heq'.symm))

/-- A change that leaves what the task owns as it was. -/
theorem keep (hregistered : Registered state)
    (hfound : state.tasks id = some task) (hchange : Change task changed)
    (howns : ∀ pid, changed.Owns pid ↔ task.Owns pid) :
    Registered (state.withTask id changed) where
  groups pid := by
    refine (hregistered.groups pid).trans (exists_congr fun other => ?_)
    rw [exists_withTask]
    split
    · next hsame =>
        rw [hsame, exists_of_found hfound, howns]
    · rfl
  group := hregistered.group_withTask hchange
  distinct := hregistered.distinct_withTask hfound hchange

/-- A change after which the task owns nothing, its pid unregistered. -/
theorem unregister (hregistered : Registered state)
    (hfound : state.tasks id = some task) (hchange : Change task changed)
    (howns : ∀ pid, ¬ changed.Owns pid)
    (hclear : task.leader.reaped = true →
      task.leader.pid ∉ state.children.groups) :
    Registered ((state.withTask id changed).unregister task.leader.pid) where
  groups pid := by
    change pid ∈ state.children.groups.erase task.leader.pid ↔
      ∃ other found, (state.withTask id changed).tasks other = some found ∧
        found.Owns pid
    rw [Std.TreeSet.mem_erase, ne_eq, Std.LawfulEqCmp.compare_eq_iff_eq,
      hregistered.groups]
    constructor
    · rintro ⟨hne, other, owner, hother, howner⟩
      have hothers : other ≠ id := by
        rintro rfl
        cases hfound.symm.trans hother
        exact hne howner.2.2
      refine ⟨other, owner, ?_, howner⟩
      rw [tasks_withTask, if_neg hothers]
      exact hother
    · rintro ⟨other, owner, hother, howner⟩
      obtain ⟨rfl, rfl⟩ | ⟨hothers, hother⟩ := update_eq_some hother
      · exact absurd howner (howns pid)
      · refine ⟨fun heq => ?_, other, owner, hother, howner⟩
        have hpid : owner.leader.pid = task.leader.pid :=
          howner.2.2.trans heq.symm
        cases hreaped : task.leader.reaped with
        | true =>
            refine hclear hreaped ((hregistered.groups _).mpr ?_)
            exact ⟨other, owner, hother, howner.1, howner.2.1, hpid⟩
        | false =>
            exact hothers (hregistered.distinct other id owner task hother
              hfound howner.2.1 hreaped hpid)
  group := hregistered.group_withTask hchange
  distinct := hregistered.distinct_withTask hfound hchange

/-- A new task, registered under a pid that was free. -/
theorem register (hregistered : Registered state)
    (hnew : state.tasks id = none) (howns : changed.Owns changed.leader.pid)
    (hgroup : ∀ group, changed.group = some group →
      group.pgid = changed.leader.pid ∧ group.reaped = changed.leader.reaped)
    (hfree : ∀ other task, state.tasks other = some task →
      task.leader.reaped = false → task.leader.pid ≠ changed.leader.pid) :
    Registered ((state.withTask id changed).register changed.leader.pid) where
  groups pid := by
    change pid ∈ state.children.groups.insert changed.leader.pid ↔
      ∃ other found, (state.withTask id changed).tasks other = some found ∧
        found.Owns pid
    rw [Std.TreeSet.mem_insert, Std.LawfulEqCmp.compare_eq_iff_eq,
      hregistered.groups]
    constructor
    · rintro (rfl | ⟨other, owner, hother, howner⟩)
      · refine ⟨id, changed, ?_, howns⟩
        rw [tasks_withTask, if_pos rfl]
      · exact ⟨other, owner, update_absent hnew hother, howner⟩
    · rintro ⟨other, owner, hother, howner⟩
      obtain ⟨rfl, rfl⟩ | ⟨-, hother⟩ := update_eq_some hother
      · exact .inl howner.2.2
      · exact .inr ⟨other, owner, hother, howner⟩
  group other found group hfound hfoundGroup := by
    obtain ⟨rfl, rfl⟩ | ⟨-, hfound⟩ := update_eq_some hfound
    · exact hgroup group hfoundGroup
    · exact hregistered.group other found group hfound hfoundGroup
  distinct first second left right hleft hright hleftReaped hrightReaped
      hpid := by
    obtain ⟨rfl, rfl⟩ | ⟨-, hleft⟩ := update_eq_some hleft
    · obtain ⟨rfl, -⟩ | ⟨-, hright⟩ := update_eq_some hright
      · rfl
      · exact absurd hpid.symm (hfree second right hright hrightReaped)
    · obtain ⟨rfl, rfl⟩ | ⟨-, hright⟩ := update_eq_some hright
      · exact absurd hpid (hfree first left hleft hleftReaped)
      · exact hregistered.distinct first second left right hleft hright
          hleftReaped hrightReaped hpid

end Registered

/-! ## The history -/

/-- What the history says of the tasks is so. -/
structure Noted (state : State) : Prop where
  spawned : ∀ id pid, .spawned id pid ∈ state.history ↔
    ∃ task, state.tasks id = some task ∧ task.leader.pid = pid
  reaped : ∀ id, .reaped id ∈ state.history ↔
    ∃ task, state.tasks id = some task ∧ task.leader.reaped = true
  dropped : ∀ id, (∃ killed, .dropped id killed ∈ state.history) ↔
    ∃ task, state.tasks id = some task ∧ task.group = none
  stopping : stoppingAfter state.history = state.children.stopping

theorem stoppingAfter_snoc (history : List Event) (event : Event) :
    stoppingAfter (history ++ [event]) =
      match event with
      | .signalled signal _ => stoppingAfter history || signal.registered
      | .released => false
      | _ => stoppingAfter history := by
  rw [stoppingAfter, List.foldl_append]
  rfl

/-- One more event, and the tasks it speaks of changed with it. -/
structure Adds (before after : State) (event : Event) : Prop where
  history : after.history = before.history ++ [event]
  spawned : ∀ id pid,
    (∃ task, after.tasks id = some task ∧ task.leader.pid = pid) ↔
      (∃ task, before.tasks id = some task ∧ task.leader.pid = pid) ∨
        event = .spawned id pid
  reaped : ∀ id,
    (∃ task, after.tasks id = some task ∧ task.leader.reaped = true) ↔
      (∃ task, before.tasks id = some task ∧ task.leader.reaped = true) ∨
        event = .reaped id
  dropped : ∀ id, (∃ task, after.tasks id = some task ∧ task.group = none) ↔
    (∃ task, before.tasks id = some task ∧ task.group = none) ∨
      ∃ killed, event = .dropped id killed
  stopping : stoppingAfter after.history = after.children.stopping

theorem Noted.snoc {before after : State} {event : Event}
    (hnoted : Noted before) (hadds : Adds before after event) :
    Noted after where
  spawned id pid := by
    rw [hadds.spawned, ← hnoted.spawned, hadds.history, List.mem_append,
      List.mem_singleton, eq_comm]
  reaped id := by
    rw [hadds.reaped, ← hnoted.reaped, hadds.history, List.mem_append,
      List.mem_singleton, eq_comm]
  dropped id := by
    rw [hadds.dropped, ← hnoted.dropped, hadds.history, ← exists_or]
    refine exists_congr fun killed => ?_
    rw [List.mem_append, List.mem_singleton, eq_comm]
  stopping := hadds.stopping

namespace Noted
variable {state : State} {id : ℕ} {task changed : Task}

/-- A change no event speaks of. -/
theorem keep (hnoted : Noted state) (hfound : state.tasks id = some task)
    (hpid : changed.leader.pid = task.leader.pid)
    (hreaped : changed.leader.reaped = task.leader.reaped)
    (hgroup : changed.group = task.group) :
    Noted (state.withTask id changed) where
  spawned other pid := by
    rw [exists_withTask]
    split
    · next hsame =>
        rw [hsame, hpid]
        exact (hnoted.spawned id pid).trans (exists_of_found hfound _)
    · exact hnoted.spawned other pid
  reaped other := by
    rw [exists_withTask]
    split
    · next hsame =>
        rw [hsame, hreaped]
        exact (hnoted.reaped id).trans (exists_of_found hfound _)
    · exact hnoted.reaped other
  dropped other := by
    rw [exists_withTask]
    split
    · next hsame =>
        rw [hsame, hgroup]
        exact (hnoted.dropped id).trans (exists_of_found hfound _)
    · exact hnoted.dropped other
  stopping := hnoted.stopping

/-- An event that speaks of the changed task. -/
theorem change {after : State} {event : Event} (hnoted : Noted state)
    (hfound : state.tasks id = some task)
    (hpid : changed.leader.pid = task.leader.pid)
    (hevent : event = .reaped id ∨ ∃ killed, event = .dropped id killed)
    (hreaped : changed.leader.reaped = true ↔
      task.leader.reaped = true ∨ event = .reaped id)
    (hgroup : changed.group = none ↔
      task.group = none ∨ ∃ killed, event = .dropped id killed)
    (htasks : after.tasks = (state.withTask id changed).tasks)
    (hhistory : after.history = state.history ++ [event])
    (hstopping : after.children.stopping = state.children.stopping) :
    Noted after := by
  refine hnoted.snoc
    { history := hhistory
      spawned := fun other pid => ?_
      reaped := fun other => ?_
      dropped := fun other => ?_
      stopping := ?_ }
  · have hspawned : event ≠ .spawned other pid := by
      rcases hevent with rfl | ⟨killed, rfl⟩ <;> nofun
    rw [htasks, exists_withTask, or_iff_left hspawned]
    split
    · next hsame =>
        rw [hsame, hpid]
        exact (exists_of_found hfound fun task => task.leader.pid = pid).symm
    · rfl
  · rw [htasks, exists_withTask]
    split
    · next hsame =>
        rw [hsame, hreaped]
        exact or_congr_left
          (exists_of_found hfound fun task => task.leader.reaped = true).symm
    · next hother =>
        refine (or_iff_left ?_).symm
        rcases hevent with rfl | ⟨killed, rfl⟩
        · exact fun heq => hother (Event.reaped.inj heq).symm
        · nofun
  · rw [htasks, exists_withTask]
    split
    · next hsame =>
        rw [hsame, hgroup]
        exact or_congr_left
          (exists_of_found hfound fun task => task.group = none).symm
    · next hother =>
        refine (or_iff_left ?_).symm
        rintro ⟨killed, hkilled⟩
        rcases hevent with rfl | ⟨killed', rfl⟩
        · cases hkilled
        · exact hother (Event.dropped.inj hkilled).1.symm
  · rw [hhistory, stoppingAfter_snoc, hstopping, ← hnoted.stopping]
    rcases hevent with rfl | ⟨killed, rfl⟩ <;> rfl

theorem spawn (hnoted : Noted state) (hnew : state.tasks id = none)
    (hreaped : changed.leader.reaped = false)
    (hgroup : changed.group ≠ none) :
    Noted (((state.withTask id changed).register changed.leader.pid).note
      (.spawned id changed.leader.pid)) := by
  have hnone (property : Task → Prop) :
      ¬ ∃ task, state.tasks id = some task ∧ property task := by
    rintro ⟨task, hfound, -⟩
    rw [hnew] at hfound
    cases hfound
  refine hnoted.snoc
    { history := rfl
      spawned := fun other pid => ?_
      reaped := fun other => ?_
      dropped := fun other => ?_
      stopping := ?_ }
  · refine (exists_withTask _).trans ?_
    split
    · next hsame =>
        rw [hsame, or_iff_right (hnone _)]
        simp
    · next hother =>
        refine (or_iff_left fun heq => ?_).symm
        exact hother (Event.spawned.inj heq).1.symm
  · refine (exists_withTask _).trans ?_
    rw [or_iff_left (by nofun)]
    split
    · next hsame =>
        rw [hsame, hreaped]
        exact iff_of_false Bool.false_ne_true (hnone _)
    · rfl
  · refine (exists_withTask _).trans ?_
    rw [or_iff_left (by nofun)]
    split
    · next hsame =>
        rw [hsame]
        exact iff_of_false hgroup (hnone _)
    · rfl
  · exact (stoppingAfter_snoc ..).trans hnoted.stopping

/-- An event of a forwarder. -/
theorem forwarder {after : State} {event : Event} (hnoted : Noted state)
    (htasks : after.tasks = state.tasks)
    (hhistory : after.history = state.history ++ [event])
    (hevent : (∃ signal pgids, event = .signalled signal pgids) ∨
      event = .released)
    (hstopping : stoppingAfter after.history = after.children.stopping) :
    Noted after := by
  refine hnoted.snoc
    { history := hhistory
      spawned := fun other pid => ?_
      reaped := fun other => ?_
      dropped := fun other => ?_
      stopping := hstopping }
  · rw [htasks, or_iff_left]
    rcases hevent with ⟨signal, pgids, rfl⟩ | rfl <;> nofun
  · rw [htasks, or_iff_left]
    rcases hevent with ⟨signal, pgids, rfl⟩ | rfl <;> nofun
  · rw [htasks, or_iff_left]
    rcases hevent with ⟨signal, pgids, rfl⟩ | rfl <;> nofun

end Noted

/-! ## Every step -/

structure Sound (state : State) : Prop where
  registered : Registered state
  noted : Noted state
  owned : EachMeets Owned state.history

namespace Sound
variable {state after : State} {id : ℕ} {task changed : Task}

/-- The change of a leader or a handle that nobody is told of. -/
theorem keep (hsound : Sound state) (hfound : state.tasks id = some task)
    (hpid : changed.leader.pid = task.leader.pid)
    (hreaped : changed.leader.reaped = task.leader.reaped)
    (hgroup : changed.group = task.group) :
    Sound (state.withTask id changed) where
  registered := by
    refine hsound.registered.keep hfound ⟨hpid, fun h => hreaped ▸ h, ?_⟩ ?_
    · intro group hsome
      rw [hpid, hreaped]
      exact hsound.registered.group id task group hfound (hgroup ▸ hsome)
    · intro pid
      rw [Task.Owns, Task.Owns, hpid, hreaped, hgroup]
  noted := hsound.noted.keep hfound hpid hreaped hgroup
  owned := hsound.owned

theorem spawn (hsound : Sound state) (hnew : state.tasks id = none)
    {runtime : Runtime} {pid : Option ℕ}
    (hfree : PidIsFree state (.spawn id runtime pid))
    (hstep : state.spawn id runtime pid = some after) : Sound after := by
  unfold State.spawn at hstep
  split at hstep
  · cases hstep
    exact hsound
  · next pid =>
      split at hstep
      · cases hstep
        exact hsound
      · next hrunning =>
          cases hstep
          have hregistered : Registered
              ((state.withTask id (.spawn runtime pid)).register pid) := by
            refine hsound.registered.register hnew ⟨rfl, rfl, rfl⟩ ?_ hfree
            intro group hgroup
            cases hgroup
            exact ⟨rfl, rfl⟩
          refine
            { registered := { hregistered with }
              noted := @Noted.spawn state id (.spawn runtime pid) hsound.noted hnew
                rfl nofun
              owned := hsound.owned.snoc ?_ }
          exact hsound.noted.stopping.trans (Bool.eq_false_iff.mpr hrunning)

theorem reaped_iff (hsound : Sound state) (hfound : state.tasks id = some task) :
    task.leader.reaped = true ↔ .reaped id ∈ state.history :=
  ((hsound.noted.reaped id).trans
    (exists_of_found hfound fun task => task.leader.reaped = true)).symm

theorem wait (hsound : Sound state) (hfound : state.tasks id = some task)
    {ok : Bool} (hundisturbed : Undisturbed state (.wait id ok))
    (hstep : state.wait id ok task = some after) : Sound after := by
  unfold State.wait at hstep
  split at hstep
  · cases hstep
  · next group hgroup =>
      obtain ⟨hpgid, hreaped⟩ :=
        hsound.registered.group id task group hfound hgroup
      split at hstep
      · cases hstep
      · split at hstep
        · next hready =>
            cases hstep
            obtain ⟨rfl, -⟩ := hready
            have hregistered : Registered
                ((state.withTask id task.poll.reap).unregister
                  task.leader.pid) := by
              refine hsound.registered.unregister hfound ⟨rfl, nofun, ?_⟩ ?_ ?_
              · intro changed hchanged
                obtain ⟨group', hgroup', rfl⟩ :=
                  Option.map_eq_some_iff.mp hchanged
                cases hgroup.symm.trans hgroup'
                exact ⟨hpgid, rfl⟩
              · rintro pid ⟨-, hnot, -⟩
                cases hnot
              · intro halready
                rw [← hpgid]
                exact hundisturbed task group hfound hgroup
                  (hreaped.trans halready)
            rw [← hpgid] at hregistered
            refine
              { registered := { hregistered with }
                noted := ?_
                owned := hsound.owned.snoc trivial }
            refine @Noted.change state id task task.poll.reap _ (.reaped id)
              hsound.noted hfound rfl (.inl rfl) ?_ ?_ rfl rfl rfl
            · exact iff_of_true rfl (.inr rfl)
            · change task.group.map _ = none ↔ _
              rw [hgroup]
              simp
        · cases hstep
          exact hsound.keep hfound rfl rfl rfl

theorem dropGroup (hsound : Sound state) (hfound : state.tasks id = some task)
    (hundisturbed : Undisturbed state (.dropGroup id))
    (hstep : state.dropGroup id task = some after) : Sound after := by
  obtain ⟨group, hgroup, rfl⟩ := Option.map_eq_some_iff.mp hstep
  obtain ⟨hpgid, hreaped⟩ := hsound.registered.group id task group hfound hgroup
  have hregistered : Registered
      ((state.withTask id { task with group := none }).unregister
        task.leader.pid) := by
    refine hsound.registered.unregister hfound ⟨rfl, fun h => h, nofun⟩ ?_ ?_
    · rintro pid ⟨hheld, -⟩
      cases hheld
    · intro halready
      rw [← hpgid]
      exact hundisturbed task group hfound hgroup (hreaped.trans halready)
  rw [← hpgid] at hregistered
  refine
    { registered := { hregistered with }
      noted := ?_
      owned := hsound.owned.snoc ⟨fun hmem => ?_, fun hnever => ?_⟩ }
  · refine @Noted.change state id task { task with group := none } _ _
      hsound.noted hfound rfl (.inr ⟨_, rfl⟩) ?_ ?_ rfl rfl rfl
    · simp
    · exact iff_of_true rfl (.inr ⟨_, rfl⟩)
  · rw [if_pos (hreaped.trans ((hsound.reaped_iff hfound).mpr hmem))]
  · have hunreaped : ¬ group.reaped = true := by
      rw [hreaped, hsound.reaped_iff hfound]
      exact hnever
    refine ⟨group.pgid, (hsound.noted.spawned id _).mpr ?_, if_neg hunreaped⟩
    exact ⟨task, hfound, hpgid.symm⟩

theorem dropChild (hsound : Sound state) (hfound : state.tasks id = some task)
    (hstep : state.dropChild id task = some after) : Sound after := by
  unfold State.dropChild at hstep
  split at hstep
  · cases hstep
  · cases hstep
    exact hsound.keep hfound rfl rfl rfl

theorem reapDropped (hsound : Sound state)
    (hfound : state.tasks id = some task)
    (hundisturbed : Undisturbed state (.reapDropped id))
    (hstep : state.reapDropped id task = some after) : Sound after := by
  have hnone : task.group = none := hundisturbed task hfound
  unfold State.reapDropped at hstep
  split at hstep
  · cases hstep
    have hregistered : Registered (state.withTask id task.reapDropped) := by
      refine hsound.registered.keep hfound ⟨rfl, nofun, ?_⟩ ?_
      · intro group hgroup
        cases hnone.symm.trans hgroup
      · intro pid
        refine iff_of_false ?_ ?_
        · rintro ⟨-, hnot, -⟩
          cases hnot
        · rintro ⟨hheld, -⟩
          rw [hnone] at hheld
          cases hheld
    refine
      { registered := { hregistered with }
        noted := ?_
        owned := hsound.owned.snoc trivial }
    refine @Noted.change state id task task.reapDropped _ (.reaped id)
      hsound.noted hfound rfl (.inl rfl) ?_ ?_ rfl rfl rfl
    · exact iff_of_true rfl (.inr rfl)
    · simp [Task.reapDropped]
  · cases hstep

/-- What a forwarder signals are the groups that are owned. -/
theorem signalled (hsound : Sound state) (signal : Signal) :
    Owned state.history
      (.signalled signal state.children.groups.toList) := by
  refine ⟨fun pgid hmem => ?_, fun id pid hspawned hnever hheld => ?_⟩
  · rw [Std.TreeSet.mem_toList, hsound.registered.groups] at hmem
    obtain ⟨id, task, hfound, -, hreaped, hpid⟩ := hmem
    refine ⟨id, (hsound.noted.spawned id pgid).mpr ⟨task, hfound, hpid⟩, ?_⟩
    rw [← hsound.reaped_iff hfound, hreaped]
    exact Bool.false_ne_true
  · obtain ⟨task, hfound, hpid⟩ := (hsound.noted.spawned id pid).mp hspawned
    rw [Std.TreeSet.mem_toList, hsound.registered.groups]
    rw [← hsound.reaped_iff hfound, Bool.not_eq_true] at hnever
    refine ⟨id, task, hfound, ?_, hnever, hpid⟩
    cases hgroup : task.group with
    | some group => rfl
    | none =>
        obtain ⟨killed, hdropped⟩ :=
          (hsound.noted.dropped id).mpr ⟨task, hfound, hgroup⟩
        exact absurd hdropped (hheld killed)

theorem signalAll (hsound : Sound state) {signal : Signal} {stopping : Bool}
    (hstopping : stopping = (state.children.stopping || signal.registered))
    (phases : ℕ → ForwarderPhase) (exited : Bool) :
    Sound
      { (state.withStopping stopping).signalAll signal with
        forwarders := phases, exited } where
  registered := { hsound.registered with }
  noted := by
    refine hsound.noted.forwarder rfl rfl (.inl ⟨_, _, rfl⟩) ?_
    refine (stoppingAfter_snoc ..).trans ?_
    change (stoppingAfter state.history || signal.registered) = stopping
    rw [hsound.noted.stopping, hstopping]
  owned := hsound.owned.snoc (hsound.signalled signal)

theorem release (hsound : Sound state) (phases : ℕ → ForwarderPhase) :
    Sound ({ state with forwarders := phases }.withStopping false |>.note
      .released) where
  registered := { hsound.registered with }
  noted := by
    refine hsound.noted.forwarder rfl rfl (.inr rfl) ?_
    exact stoppingAfter_snoc ..
  owned := hsound.owned.snoc trivial

theorem withForwarder (hsound : Sound state) (phase : ForwarderPhase) :
    Sound (state.withForwarder id phase) where
  registered := { hsound.registered with }
  noted := { hsound.noted with }
  owned := hsound.owned

theorem forward (hsound : Sound state) {signal : Signal}
    (hstep : state.forward id signal = some after) : Sound after := by
  have hforwarded (hregistered : signal.registered = true) (engine : Bool) :
      Sound (if engine then ((state.withStopping true).signalAll
        signal).withForwarder id .escalating
      else (state.withStopping true).signalAll signal) := by
    have hstopping : true = (state.children.stopping || signal.registered) := by
      rw [hregistered, Bool.or_true]
    cases engine with
    | true => exact hsound.signalAll hstopping _ _
    | false => exact hsound.signalAll hstopping _ _
  unfold State.forward at hstep
  split at hstep
  · next hregistered =>
      split at hstep
      · cases hstep
        exact hforwarded hregistered _
      · cases hstep
        exact hforwarded hregistered _
      · cases hstep
  · cases hstep

theorem actForwarder (hsound : Sound state) {label : Label}
    (hstep : state.actForwarder label = some after) : Sound after := by
  cases label with
  | install id engine =>
      dsimp only [State.actForwarder] at hstep
      split at hstep
      · cases hstep
        exact hsound.withForwarder _
      · cases hstep
  | forward id signal => exact hsound.forward hstep
  | escalate id =>
      dsimp only [State.actForwarder] at hstep
      unfold State.escalate at hstep
      split at hstep
      · cases hstep
        exact hsound.signalAll (Bool.or_false _).symm _ true
      · cases hstep
  | close id =>
      dsimp only [State.actForwarder] at hstep
      split at hstep
      · cases hstep
        exact hsound.withForwarder _
      · cases hstep
  | release id =>
      dsimp only [State.actForwarder] at hstep
      split at hstep
      · cases hstep
        exact hsound.release _
      · cases hstep
  | _ => cases hstep

theorem step (hsound : Sound state) {label : Label}
    (hundisturbed : Undisturbed state label)
    (hstep : Step state label after) : Sound after := by
  obtain ⟨hfree, hact⟩ := hstep
  unfold State.act at hact
  split at hact
  · cases hact
  · cases label with
    | spawn id runtime pid =>
        dsimp only at hact
        split at hact
        · next hnew => exact hsound.spawn hnew hfree hact
        · cases hact
    | exits id =>
        obtain ⟨task, hfound, rfl⟩ := Option.map_eq_some_iff.mp hact
        exact hsound.keep hfound rfl rfl rfl
    | wait id ok =>
        obtain ⟨task, hfound, hwait⟩ := Option.bind_eq_some_iff.mp hact
        exact hsound.wait hfound hundisturbed hwait
    | dropGroup id =>
        obtain ⟨task, hfound, hdrop⟩ := Option.bind_eq_some_iff.mp hact
        exact hsound.dropGroup hfound hundisturbed hdrop
    | dropChild id =>
        obtain ⟨task, hfound, hdrop⟩ := Option.bind_eq_some_iff.mp hact
        exact hsound.dropChild hfound hdrop
    | reapDropped id =>
        obtain ⟨task, hfound, hreap⟩ := Option.bind_eq_some_iff.mp hact
        exact hsound.reapDropped hfound hundisturbed hreap
    | _ => exact hsound.actForwarder hact

end Sound

theorem sound_initial : Sound State.initial where
  registered :=
    { groups := fun pid => by
        refine iff_of_false Std.TreeSet.not_mem_emptyc ?_
        rintro ⟨id, task, hfound, -⟩
        cases hfound
      group := by
        intro id task group hfound
        cases hfound
      distinct := by
        intro id other task sibling hfound
        cases hfound }
  noted :=
    { spawned := fun id pid => by simp [State.initial]
      reaped := fun id => by simp [State.initial]
      dropped := fun id => by simp [State.initial]
      stopping := rfl }
  owned := .nil

/-- **Process-group ownership.** In every interleaving that disturbs no group, a
signal goes to the groups that are held and whose leader was not reaped, all of
them and no others; a group dropped before its leader was reaped is killed; and
no spawn succeeds while a forwarder is stopping. -/
theorem signals_owned (state : State)
    (hreach : Reachable (· = State.initial) Step Undisturbed state) :
    EachMeets Owned state.history := by
  have hsound : Sound state := by
    refine hreach.invariant ?_ ?_
    · rintro start rfl
      exact sound_initial
    · intro before label after hbefore hundisturbed hstep
      exact hbefore.step hundisturbed hstep
  exact hsound.owned

/-! ### A pid that is recycled -/

/-- The process with the pid 7 was spawned. -/
def spawned : State :=
  ((State.initial.withTask 0 (.spawn .std 7)).register 7).note (.spawned 0 7)

theorem step_spawned : Step State.initial (.spawn 0 .std (some 7)) spawned := by
  refine ⟨?_, rfl⟩
  intro id task hfound
  cases hfound

theorem signals_owned_spawned :
    EachMeets Owned (((spawned.withForwarder 0 (.listening false)).withStopping
      true).signalAll .terminate).history := by
  have hinitial : Reachable (· = State.initial) Step Undisturbed
      State.initial := .initial rfl
  have hspawned : Reachable (· = State.initial) Step Undisturbed spawned :=
    @Reachable.step _ _ _ _ _ _ _ (.spawn 0 .std (some 7)) hinitial trivial
      step_spawned
  have hinstalled : Reachable (· = State.initial) Step Undisturbed
      (spawned.withForwarder 0 (.listening false)) :=
    @Reachable.step _ _ _ _ _ _ _ (.install 0 false) hspawned trivial
      ⟨trivial, rfl⟩
  exact signals_owned _ (@Reachable.step _ _ _ _ _ _ _ (.forward 0 .terminate)
    hinstalled trivial ⟨trivial, rfl⟩)

/-- Its leader was reaped, its `ChildGroup` is still held. -/
def reaped : State :=
  (((spawned.withTask 0 (Task.spawn .std 7).exit).withTask 0
    (Task.spawn .std 7).exit.poll.reap).unregister 7).note (.reaped 0)

theorem reachable_reaped :
    Reachable (· = State.initial) Step anyStep reaped := by
  have hinitial : Reachable (· = State.initial) Step anyStep
      State.initial := .initial rfl
  have hspawned : Reachable (· = State.initial) Step anyStep spawned :=
    hinitial.step trivial step_spawned
  have hexited : Reachable (· = State.initial) Step anyStep
      (spawned.withTask 0 (Task.spawn .std 7).exit) :=
    @Reachable.step _ _ _ _ _ _ _ (.exits 0) hspawned trivial ⟨trivial, rfl⟩
  exact @Reachable.step _ _ _ _ _ _ _ (.wait 0 true) hexited trivial
    ⟨trivial, rfl⟩

/-- The next process has the same pid. -/
def recycled : State :=
  ((reaped.withTask 1 (.spawn .std 7)).register 7).note (.spawned 1 7)

theorem step_recycled : Step reaped (.spawn 1 .std (some 7)) recycled := by
  refine ⟨?_, rfl⟩
  intro id task hfound hreaped
  by_cases hid : id = 0
  · subst hid
    cases hfound
    cases hreaped
  · have hnone : reaped.tasks id = none := by
      change update (update (update (fun _ => none) 0 _) 0 _) 0 _ id = none
      rw [update_of_ne hid, update_of_ne hid, update_of_ne hid]
    rw [hnone] at hfound
    cases hfound

/-- The steps that start no process. -/
def actOld (state : State) (label : Label) : Option State :=
  match label with
  | .spawn .. => none
  | _ => state.act label

theorem step_of_actOld {before after : State} {label : Label}
    (hact : actOld before label = some after) : Step before label after := by
  cases label with
  | spawn id runtime pid => cases hact
  | _ => exact ⟨trivial, hact⟩

/-- Dropping the first group unregisters the second, which then misses the
signal. -/
theorem recycled_not_owned :
    ¬ ∀ state, Reachable (· = State.initial) Step anyStep state →
      EachMeets Owned state.history := by
  intro howned
  have hrecycled : Reachable (· = State.initial) Step anyStep recycled :=
    reachable_reaped.step trivial step_recycled
  have hrest : ([.dropGroup 0, .install 0 false, .forward 0 .terminate].foldlM
      actOld recycled).map State.history =
        some [.spawned 0 7, .reaped 0, .spawned 1 7, .dropped 0 none,
          .signalled .terminate []] := by
    decide +kernel
  obtain ⟨state, hrun, hhistory⟩ := Option.map_eq_some_iff.mp hrest
  have hact (before : State) (label : Label) (after : State)
      (hold : actOld before label = some after) :
      anyStep before label ∧ Step before label after :=
    ⟨trivial, step_of_actOld hold⟩
  obtain ⟨-, hevery⟩ := howned state (hrecycled.foldlM hact hrun)
    [.spawned 0 7, .reaped 0, .spawned 1 7, .dropped 0 none]
    (.signalled .terminate []) [] hhistory
  have hmissed : 7 ∈ ([] : List ℕ) :=
    hevery 1 7 (by decide) (by decide) fun killed => by simp
  exact absurd hmissed List.not_mem_nil

end Mandala.Deploy.ChildGroups
