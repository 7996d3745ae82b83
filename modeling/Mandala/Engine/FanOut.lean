import Mathlib.Algebra.GroupWithZero.Nat
import Mathlib.Data.List.Nodup
import Mathlib.Data.Set.Finite.Basic
import Mandala.Core.Transition
import Mandala.Engine.HostPipeline
import Mandala.Engine.Settlement

/-!
# One task per host, bounded by the throttle

The controller first visits every target: a host whose profile could not be
built is failed on the spot, every other host gets a task.  Tasks wait for a
permit, run, and return or panic in any order; the controller joins them one by
one.  A task is known by its id, and the host of a panicked task is looked up
there.
-/

namespace Mandala.Engine

open Mandala.Data Mandala.Deploy Mandala.Effects Mandala.Events
  Mandala.Transition

/-- The most permits a `tokio` semaphore takes: `usize::MAX >> 3`. -/
def maxPermits : ℕ := 2305843009213693951

inductive TaskPhase where
  /-- Waiting for a permit. -/
  | queued
  | running
  /-- Returned a result, or panicked. -/
  | finished (outcome : Option HostDeployResult)

/-- A spawned task that was not joined yet. -/
structure HostTask where
  id : ℕ
  host : String
  phase : TaskPhase

/-- The controller's state: the targets it has not visited yet, the join set,
`task_hosts`, the results so far and the permits left. -/
structure FanOut where
  pending : List String
  tasks : List HostTask
  taskHosts : ℕ → Option String
  results : BTreeMap HostDeployResult
  permits : ℕ

/-- No target was visited yet, and every permit is free. -/
def FanOut.start (plan : DeployPlan) : FanOut :=
  { pending := plan.targets
    tasks := []
    taskHosts := fun _ => none
    results := ∅
    permits := plan.throttle.toNat }

inductive FanOutStart where
  | refused (error : IoError)
  /-- `Semaphore::new` panics beyond its limit. -/
  | panicked
  | started (state : FanOut)

/-- `fan_out_with`, up to its first target. -/
def fanOutStart (plan : DeployPlan) : FanOutStart :=
  if plan.throttle < 0 then
    .refused "validated deploy throttle is outside usize"
  else if plan.throttle = 0 then .refused "validated deploy throttle is zero"
  else if maxPermits < plan.throttle.toNat then .panicked
  else .started (FanOut.start plan)

inductive FanOutEvent where
  | buildFailed (host : String)
  | spawned (host : String)
  | running (host : String)
  /-- The task returned a result, or panicked. -/
  | finished (host : String) (outcome : Option HostDeployResult)
  | joined (host : String)

section Steps

variable (fromValue : Json → Except String FlattenedDeploySettings)
  (run : RegisteredDeployRun) (built : BuiltProfiles)

/-- What `deploy_host` may return for a host. -/
def DeployHost (host : String) (result : HostDeployResult) : Prop :=
  ∃ trace slot, Executes
    ((deployHostWith fromValue run built host
      { nix := none, ssh := none, environment := [] }).run none)
    trace (result, slot)

/-- What `abnormal_host` may return for a host. -/
def AbnormalHost (host error : String) (result : HostDeployResult) : Prop :=
  ∃ trace slot, Executes ((abnormalHost run host error).run none) trace
    (result, slot)

/-- One step of the controller or of a task.  Joining starts once every target
was visited. -/
inductive FanOutStep : FanOut → FanOutEvent → FanOut → Prop where
  | buildFailed {state : FanOut} {host error : String} {rest : List String}
      {result : HostDeployResult} (hpending : state.pending = host :: rest)
      (hfailure : built.failures[host]? = some error)
      (hresult : AbnormalHost run host error result) :
      FanOutStep state (.buildFailed host)
        { state with
          pending := rest
          results := state.results.insert host result }
  | spawn {state : FanOut} {host : String} {rest : List String} {id : ℕ}
      (hpending : state.pending = host :: rest)
      (hbuilt : built.failures[host]? = none)
      (hfresh : ∀ task ∈ state.tasks, task.id ≠ id) :
      FanOutStep state (.spawned host)
        { state with
          pending := rest
          tasks := state.tasks ++ [⟨id, host, .queued⟩]
          taskHosts := Function.update state.taskHosts id (some host) }
  | acquire {state : FanOut} {before after : List HostTask} {id : ℕ}
      {host : String}
      (htasks : state.tasks = before ++ ⟨id, host, .queued⟩ :: after)
      (hpermit : 0 < state.permits) :
      FanOutStep state (.running host)
        { state with
          tasks := before ++ ⟨id, host, .running⟩ :: after
          permits := state.permits - 1 }
  | finish {state : FanOut} {before after : List HostTask} {id : ℕ}
      {host : String} {outcome : Option HostDeployResult}
      (htasks : state.tasks = before ++ ⟨id, host, .running⟩ :: after)
      (hresult : ∀ result ∈ outcome, DeployHost fromValue run built host result) :
      FanOutStep state (.finished host outcome)
        { state with
          tasks := before ++ ⟨id, host, .finished outcome⟩ :: after
          permits := state.permits + 1 }
  | join {state : FanOut} {before after : List HostTask} {id : ℕ}
      {host : String} {result : HostDeployResult}
      (hvisited : state.pending = [])
      (htasks : state.tasks =
        before ++ ⟨id, host, .finished (some result)⟩ :: after) :
      FanOutStep state (.joined host)
        { state with
          tasks := before ++ after
          taskHosts := Function.update state.taskHosts id none
          results := state.results.insert result.host result }
  | joinPanicked {state : FanOut} {before after : List HostTask} {id : ℕ}
      {host error : String} {result : HostDeployResult}
      (hvisited : state.pending = [])
      (htasks : state.tasks =
        before ++ ⟨id, host, .finished none⟩ :: after)
      (hresult : AbnormalHost run
        ((state.taskHosts id).getD "unknown-host") error result) :
      FanOutStep state (.joined host)
        { state with
          tasks := before ++ after
          taskHosts := Function.update state.taskHosts id none
          results := state.results.insert
            ((state.taskHosts id).getD "unknown-host") result }

end Steps

namespace FanOut

/-- Nothing is left to visit or to join. -/
def Settled (state : FanOut) : Prop := state.pending = [] ∧ state.tasks = []

def isRunning (task : HostTask) : Bool :=
  match task.phase with
  | .running => true
  | _ => false

/-- How many tasks run right now. -/
def running (state : FanOut) : ℕ := state.tasks.countP isRunning

/-- The hosts still under way. -/
def hosts (state : FanOut) : List String :=
  state.tasks.map HostTask.host ++ state.pending

/-- How many steps a task is away from being joined. -/
def distance (task : HostTask) : ℕ :=
  match task.phase with
  | .queued => 3
  | .running => 2
  | .finished _ => 1

/-- How many steps are left at most. -/
def stepsLeft (state : FanOut) : ℕ :=
  4 * state.pending.length + (state.tasks.map distance).sum

end FanOut

open FanOut

section Invariants

variable {fromValue : Json → Except String FlattenedDeploySettings}
  {run : RegisteredDeployRun} {built : BuiltProfiles}

theorem DeployHost.settledFor {host : String} {result : HostDeployResult}
    (hresult : DeployHost fromValue run built host result) :
    SettledFor host result := by
  obtain ⟨trace, slot, hexec⟩ := hresult
  exact settles_deployHostWith host fromValue run built _ none trace
    (result, slot) hexec

theorem AbnormalHost.failedFor {host error : String}
    {result : HostDeployResult} (hresult : AbnormalHost run host error result) :
    FailedFor host result := by
  obtain ⟨trace, slot, hexec⟩ := hresult
  exact hostEnsures_abnormalHost host run error none trace (result, slot) hexec

/-! ## The throttle -/

@[simp]
theorem isRunning_queued (id : ℕ) (host : String) :
    isRunning ⟨id, host, .queued⟩ = false := rfl

@[simp]
theorem isRunning_running (id : ℕ) (host : String) :
    isRunning ⟨id, host, .running⟩ = true := rfl

@[simp]
theorem isRunning_finished (id : ℕ) (host : String)
    (outcome : Option HostDeployResult) :
    isRunning ⟨id, host, .finished outcome⟩ = false := rfl

/-- Every permit is either free or held by a running task. -/
theorem permits_step {state next : FanOut} {event : FanOutEvent}
    (hstep : FanOutStep fromValue run built state event next) :
    next.permits + next.running = state.permits + state.running := by
  cases hstep with
  | buildFailed => rfl
  | spawn => simp [running]
  | acquire htasks hpermit =>
      simp only [running, htasks, List.countP_append, List.countP_cons,
        isRunning_queued, isRunning_running]
      simp
      omega
  | finish htasks =>
      simp only [running, htasks, List.countP_append, List.countP_cons,
        isRunning_finished, isRunning_running]
      simp
      omega
  | join _ htasks => simp [running, htasks]
  | joinPanicked _ htasks => simp [running, htasks]

/-! ## Steps left -/

theorem stepsLeft_step {state next : FanOut} {event : FanOutEvent}
    (hstep : FanOutStep fromValue run built state event next) :
    next.stepsLeft < state.stepsLeft := by
  cases hstep with
  | buildFailed hpending => simp [stepsLeft, hpending]
  | spawn hpending => simp [stepsLeft, hpending, distance]; omega
  | acquire htasks => simp [stepsLeft, htasks, distance]
  | finish htasks => simp [stepsLeft, htasks, distance]
  | join _ htasks => simp [stepsLeft, htasks, distance]
  | joinPanicked _ htasks => simp [stepsLeft, htasks, distance]

/-! ## Where every host is -/

/-- Every target is under way or has a result, and never both. -/
structure Placed (targets : List String) (state : FanOut) : Prop where
  nodup : state.hosts.Nodup
  complete : ∀ host,
    host ∈ targets ↔ state.results[host]? ≠ none ∨ host ∈ state.hosts
  disjoint : ∀ host ∈ state.hosts, state.results[host]? = none

theorem Placed.same {targets : List String} {state next : FanOut}
    (hplaced : Placed targets state) (hhosts : next.hosts = state.hosts)
    (hresults : next.results = state.results) : Placed targets next := by
  constructor
  · rw [hhosts]
    exact hplaced.nodup
  · rw [hhosts, hresults]
    exact hplaced.complete
  · rw [hhosts, hresults]
    exact hplaced.disjoint

/-- A host leaves the others for the results. -/
theorem Placed.settle {targets : List String} {state next : FanOut}
    {host : String} {result : HostDeployResult}
    (hplaced : Placed targets state)
    (hhosts : state.hosts.Perm (host :: next.hosts))
    (hresults : next.results = state.results.insert host result) :
    Placed targets next := by
  obtain ⟨hnew, hnodup⟩ :=
    List.nodup_cons.mp (hhosts.nodup_iff.mp hplaced.nodup)
  have hlookup (other : String) : next.results[other]? =
      if host = other then some result else state.results[other]? := by
    rw [hresults, Std.TreeMap.getElem?_insert]
    simp
  constructor
  · exact hnodup
  · intro other
    rw [hplaced.complete, hlookup, hhosts.mem_iff, List.mem_cons]
    by_cases hother : host = other
    · simp [hother]
    · simp [hother, Ne.symm hother]
  · intro other hmem
    have hne : host ≠ other := by
      intro heq
      exact hnew (heq ▸ hmem)
    rw [hlookup, if_neg hne]
    apply hplaced.disjoint
    rw [hhosts.mem_iff]
    exact List.mem_cons_of_mem _ hmem

/-- Every task is found under its id, and belongs to a host that was built. -/
structure Tracked (built : BuiltProfiles) (state : FanOut) : Prop where
  ids : (state.tasks.map HostTask.id).Nodup
  known : ∀ task ∈ state.tasks, state.taskHosts task.id = some task.host
  built : ∀ task ∈ state.tasks, built.failures[task.host]? = none

/-- A task only changed its phase. -/
theorem Tracked.rephase {state next : FanOut} {before after : List HostTask}
    {id : ℕ} {host : String} {old new : TaskPhase}
    (htracked : Tracked built state)
    (htasks : state.tasks = before ++ ⟨id, host, old⟩ :: after)
    (hnext : next.tasks = before ++ ⟨id, host, new⟩ :: after)
    (hsame : next.taskHosts = state.taskHosts) : Tracked built next := by
  obtain ⟨hids, hknown, hbuilt⟩ := htracked
  rw [htasks] at hids hknown hbuilt
  constructor
  · simpa [hnext] using hids
  · rw [hnext, hsame]
    simpa only [List.forall_mem_append, List.forall_mem_cons] using hknown
  · rw [hnext]
    simpa only [List.forall_mem_append, List.forall_mem_cons] using hbuilt

/-- A joined task is forgotten. -/
theorem Tracked.join {state next : FanOut} {before after : List HostTask}
    {id : ℕ} {host : String} {phase : TaskPhase}
    (htracked : Tracked built state)
    (htasks : state.tasks = before ++ ⟨id, host, phase⟩ :: after)
    (hnext : next.tasks = before ++ after)
    (hforgotten : next.taskHosts =
      Function.update state.taskHosts id none) : Tracked built next := by
  obtain ⟨hids, hknown, hbuilt⟩ := htracked
  rw [htasks] at hids hknown hbuilt
  have hkept : ∀ task ∈ before ++ after,
      task ∈ before ++ ⟨id, host, phase⟩ :: after := by
    intro task hmem
    rw [List.mem_append] at hmem ⊢
    exact hmem.imp_right (List.mem_cons_of_mem _)
  have hmiddle : (id :: (before ++ after).map HostTask.id).Nodup := by
    rw [List.map_append, List.map_cons] at hids
    rw [List.map_append]
    exact List.nodup_middle.mp hids
  obtain ⟨hnew, hnodup⟩ := List.nodup_cons.mp hmiddle
  constructor
  · rw [hnext]
    exact hnodup
  · intro task hmem
    rw [hnext] at hmem
    have hne : task.id ≠ id := by
      intro heq
      exact hnew (heq ▸ List.mem_map_of_mem hmem)
    rw [hforgotten, Function.update_of_ne hne]
    exact hknown task (hkept task hmem)
  · intro task hmem
    rw [hnext] at hmem
    exact hbuilt task (hkept task hmem)

theorem tracked_step {state next : FanOut} {event : FanOutEvent}
    (hstep : FanOutStep fromValue run built state event next)
    (htracked : Tracked built state) : Tracked built next := by
  cases hstep with
  | buildFailed => exact ⟨htracked.ids, htracked.known, htracked.built⟩
  | @spawn host rest id hpending hbuilt hfresh =>
      have hnotMem : id ∉ state.tasks.map HostTask.id := by
        intro hmem
        obtain ⟨task, htask, hid⟩ := List.mem_map.mp hmem
        exact hfresh task htask hid
      constructor
      · rw [List.map_append, List.map_cons, List.map_nil]
        exact List.nodup_append_comm.mp
          (List.nodup_cons.mpr ⟨hnotMem, htracked.ids⟩)
      · intro task hmem
        change Function.update state.taskHosts id (some host) task.id = _
        rcases List.mem_append.mp hmem with hold | hnew
        · rw [Function.update_of_ne (hfresh task hold)]
          exact htracked.known task hold
        · rw [List.mem_singleton.mp hnew]
          exact Function.update_self ..
      · intro task hmem
        rcases List.mem_append.mp hmem with hold | hnew
        · exact htracked.built task hold
        · rw [List.mem_singleton.mp hnew]
          exact hbuilt
  | acquire htasks => exact htracked.rephase htasks rfl rfl
  | finish htasks => exact htracked.rephase htasks rfl rfl
  | join _ htasks => exact htracked.join htasks rfl rfl
  | joinPanicked _ htasks => exact htracked.join htasks rfl rfl

/-! ## What every result rests on -/

/-- A result keeps what its task ended with; a panic counts as a failure. -/
def Keeps (outcome : Option HostDeployResult) (result : HostDeployResult) :
    Prop :=
  match outcome with
  | some returned => result = returned
  | none => result.state = .failed

/-- The controller's account of a run with these events. -/
structure Explained (built : BuiltProfiles) (events : List FanOutEvent)
    (state : FanOut) : Prop where
  ran : ∀ host, .running host ∈ events → built.failures[host]? = none
  waiting : ∀ task ∈ state.tasks, ∀ outcome, task.phase = .finished outcome →
    FanOutEvent.finished task.host outcome ∈ events ∧
      ∀ result ∈ outcome, SettledFor task.host result
  ended : ∀ host outcome, .finished host outcome ∈ events →
    (∃ task ∈ state.tasks, task.host = host ∧
        task.phase = .finished outcome) ∨
      ∃ result, state.results[host]? = some result ∧ Keeps outcome result
  results : ∀ (host : String) result, state.results[host]? = some result →
    SettledFor host result ∧
      (built.failures[host]? ≠ none ∧ result.state = .failed ∨
        built.failures[host]? = none ∧
          ∃ outcome, FanOutEvent.finished host outcome ∈ events ∧
            Keeps outcome result)

theorem mem_tasks_of_split {state : FanOut} {before after : List HostTask}
    {task : HostTask} (htasks : state.tasks = before ++ task :: after) :
    task ∈ state.tasks := by
  rw [htasks]
  exact List.mem_append_right _ List.mem_cons_self

theorem mem_rephased {before after : List HostTask} {old new task : HostTask}
    (hmem : task ∈ before ++ old :: after) (hne : task ≠ old) :
    task ∈ before ++ new :: after := by
  rw [List.mem_append, List.mem_cons] at hmem ⊢
  rcases hmem with hbefore | heq | hafter
  · exact .inl hbefore
  · exact absurd heq hne
  · exact .inr (.inr hafter)

/-- A task moved on, and the event tells what it did. -/
theorem Explained.rephase {events : List FanOutEvent} {event : FanOutEvent}
    {state next : FanOut} {before after : List HostTask} {id : ℕ}
    {host : String} {old new : TaskPhase}
    (hexplained : Explained built events state)
    (htasks : state.tasks = before ++ ⟨id, host, old⟩ :: after)
    (hnext : next.tasks = before ++ ⟨id, host, new⟩ :: after)
    (hresults : next.results = state.results)
    (hold : ∀ outcome, old ≠ .finished outcome)
    (hran : ∀ other, event = .running other →
      built.failures[other]? = none)
    (hevent : ∀ other outcome, event = .finished other outcome →
      other = host ∧ new = .finished outcome)
    (hnew : ∀ outcome, new = .finished outcome →
      event = .finished host outcome ∧
        ∀ result ∈ outcome, SettledFor host result) :
    Explained built (events ++ [event]) next := by
  constructor
  · intro other hmem
    rcases List.mem_append.mp hmem with hbefore | hlast
    · exact hexplained.ran other hbefore
    · exact hran other (List.mem_singleton.mp hlast).symm
  · intro task hmem outcome hphase
    rw [hnext, List.mem_append, List.mem_cons] at hmem
    have hwaiting (hstate : task ∈ state.tasks) :=
      (hexplained.waiting task hstate outcome hphase).imp_left
        (List.mem_append_left [event])
    rcases hmem with hbefore | rfl | hafter
    · apply hwaiting
      rw [htasks]
      exact List.mem_append_left _ hbefore
    · obtain ⟨heq, hsettled⟩ := hnew outcome hphase
      exact ⟨List.mem_append_right _ (List.mem_singleton.mpr heq.symm), hsettled⟩
    · apply hwaiting
      rw [htasks]
      exact List.mem_append_right _ (List.mem_cons_of_mem _ hafter)
  · intro other outcome hmem
    rw [hresults, hnext]
    rcases List.mem_append.mp hmem with hbefore | hlast
    · rcases hexplained.ended other outcome hbefore with
        ⟨task, htask, hhost, hphase⟩ | hresult
      · refine .inl ⟨task, mem_rephased (htasks ▸ htask) ?_, hhost, hphase⟩
        intro heq
        rw [heq] at hphase
        exact hold outcome hphase
      · exact .inr hresult
    · obtain ⟨rfl, rfl⟩ :=
        hevent other outcome (List.mem_singleton.mp hlast).symm
      exact .inl ⟨_, List.mem_append_right _ List.mem_cons_self, rfl, rfl⟩
  · intro other result hresult
    rw [hresults] at hresult
    obtain ⟨hsettled, hreason⟩ := hexplained.results other result hresult
    refine ⟨hsettled, hreason.imp_right ?_⟩
    intro hended
    obtain ⟨hbuilt, outcome, hmem, hkeeps⟩ := hended
    exact ⟨hbuilt, outcome, List.mem_append_left _ hmem, hkeeps⟩

/-- A host got its result: its build had failed, or its task had ended. -/
theorem Explained.settle {events : List FanOutEvent} {event : FanOutEvent}
    {state next : FanOut} {host : String} {result : HostDeployResult}
    (hexplained : Explained built events state)
    (hrunning : ∀ other, event ≠ .running other)
    (hfinished : ∀ other outcome, event ≠ .finished other outcome)
    (hfirst : state.results[host]? = none)
    (htasks : ∀ task ∈ next.tasks, task ∈ state.tasks)
    (hkept : ∀ task ∈ state.tasks, task ∈ next.tasks ∨
      task.host = host ∧
        ∀ outcome, task.phase = .finished outcome → Keeps outcome result)
    (hresults : next.results = state.results.insert host result)
    (hsettled : SettledFor host result)
    (hreason : built.failures[host]? ≠ none ∧ result.state = .failed ∨
      built.failures[host]? = none ∧
        ∃ outcome, FanOutEvent.finished host outcome ∈ events ∧
          Keeps outcome result) :
    Explained built (events ++ [event]) next := by
  have hlookup (other : String) : next.results[other]? =
      if host = other then some result else state.results[other]? := by
    rw [hresults, Std.TreeMap.getElem?_insert]
    simp
  constructor
  · intro other hmem
    rcases List.mem_append.mp hmem with hbefore | hlast
    · exact hexplained.ran other hbefore
    · exact absurd (List.mem_singleton.mp hlast).symm (hrunning other)
  · intro task hmem outcome hphase
    exact (hexplained.waiting task (htasks task hmem) outcome hphase).imp_left
      (List.mem_append_left _)
  · intro other outcome hmem
    rcases List.mem_append.mp hmem with hbefore | hlast
    · rcases hexplained.ended other outcome hbefore with
        ⟨task, htask, hhost, hphase⟩ | ⟨earlier, hearlier, hkeeps⟩
      · rcases hkept task htask with hstill | ⟨hjoined, hkeeps⟩
        · exact .inl ⟨task, hstill, hhost, hphase⟩
        · refine .inr ⟨result, ?_, hkeeps outcome hphase⟩
          rw [hlookup, if_pos (hjoined.symm.trans hhost)]
      · refine .inr ⟨earlier, ?_, hkeeps⟩
        have hne : host ≠ other := by
          intro heq
          rw [← heq, hfirst] at hearlier
          cases hearlier
        rw [hlookup, if_neg hne, hearlier]
    · exact absurd (List.mem_singleton.mp hlast).symm (hfinished other outcome)
  · intro other found hfound
    rw [hlookup] at hfound
    have hlater : (∃ outcome, FanOutEvent.finished other outcome ∈ events ∧
        Keeps outcome found) → ∃ outcome,
        FanOutEvent.finished other outcome ∈ events ++ [event] ∧
          Keeps outcome found := by
      intro hended
      obtain ⟨outcome, hmem, hkeeps⟩ := hended
      exact ⟨outcome, List.mem_append_left _ hmem, hkeeps⟩
    by_cases hother : host = other
    · rw [if_pos hother] at hfound
      cases hfound
      subst hother
      exact ⟨hsettled, hreason.imp_right fun hended =>
        hended.imp_right hlater⟩
    · rw [if_neg hother] at hfound
      obtain ⟨hfor, hwhy⟩ := hexplained.results other found hfound
      exact ⟨hfor, hwhy.imp_right fun hended => hended.imp_right hlater⟩

/-! ## The whole account -/

/-- What holds after every run of the fan-out. -/
structure Accounts (built : BuiltProfiles) (throttle : ℕ)
    (targets : List String) (events : List FanOutEvent) (state : FanOut) :
    Prop where
  permits : state.permits + state.running = throttle
  steps : events.length + state.stepsLeft ≤ 4 * targets.length
  placed : Placed targets state
  tracked : Tracked built state
  explained : Explained built events state

section Account

variable {throttle : ℕ} {targets : List String} {events : List FanOutEvent}
  {state next : FanOut} {event : FanOutEvent}

theorem Accounts.buildFailed {host error : String} {rest : List String}
    {result : HostDeployResult}
    (haccounts : Accounts built throttle targets events state)
    (hpending : state.pending = host :: rest)
    (hfailure : built.failures[host]? = some error)
    (hresult : FailedFor host result) (hrest : next.pending = rest)
    (htasks : next.tasks = state.tasks)
    (hresults : next.results = state.results.insert host result) :
    Placed targets next ∧
      Explained built (events ++ [.buildFailed host]) next := by
  have hhosts : state.hosts.Perm (host :: next.hosts) := by
    rw [hosts, hosts, htasks, hpending, hrest]
    exact List.perm_middle
  have hfirst : state.results[host]? = none := by
    apply haccounts.placed.disjoint
    rw [hhosts.mem_iff]
    exact List.mem_cons_self
  refine ⟨haccounts.placed.settle hhosts hresults, ?_⟩
  apply haccounts.explained.settle (fun _ heq => by cases heq)
    (fun _ _ heq => by cases heq) hfirst _ _ hresults hresult.settledFor
  · exact .inl ⟨by simp [hfailure], hresult.failed⟩
  · rw [htasks]
    exact fun _ hmem => hmem
  · rw [htasks]
    exact fun _ hmem => .inl hmem

/-- Joining a task moves its host's outcome to the results. -/
theorem Accounts.join {before after : List HostTask} {id : ℕ} {host : String}
    {outcome : Option HostDeployResult} {result : HostDeployResult}
    (haccounts : Accounts built throttle targets events state)
    (htasks : state.tasks = before ++ ⟨id, host, .finished outcome⟩ :: after)
    (hnext : next.tasks = before ++ after)
    (hpending : next.pending = state.pending)
    (hresults : next.results = state.results.insert host result)
    (hsettled : SettledFor host result) (hkeeps : Keeps outcome result) :
    Placed targets next ∧ Explained built (events ++ [.joined host]) next := by
  have hjoined : (⟨id, host, .finished outcome⟩ : HostTask) ∈ state.tasks :=
    mem_tasks_of_split htasks
  have hhosts : state.hosts.Perm (host :: next.hosts) := by
    simp only [hosts, htasks, hnext, hpending, List.map_append, List.map_cons,
      List.append_assoc, List.cons_append]
    exact List.perm_middle
  have hfirst : state.results[host]? = none := by
    apply haccounts.placed.disjoint
    rw [hhosts.mem_iff]
    exact List.mem_cons_self
  refine ⟨haccounts.placed.settle hhosts hresults, ?_⟩
  apply haccounts.explained.settle (fun _ heq => by cases heq)
    (fun _ _ heq => by cases heq) hfirst _ _ hresults hsettled
  · have hended := haccounts.explained.waiting _ hjoined outcome rfl
    exact .inr ⟨haccounts.tracked.built _ hjoined, outcome, hended.1, hkeeps⟩
  · intro task hmem
    rw [hnext, List.mem_append] at hmem
    rw [htasks, List.mem_append]
    exact hmem.imp_right (List.mem_cons_of_mem _)
  · intro task hmem
    rw [htasks, List.mem_append, List.mem_cons] at hmem
    rw [hnext, List.mem_append]
    rcases hmem with hbefore | rfl | hafter
    · exact .inl (.inl hbefore)
    · refine .inr ⟨rfl, fun other heq => ?_⟩
      cases heq
      exact hkeeps
    · exact .inl (.inr hafter)

/-- Every step keeps the account. -/
theorem accounts_step
    (haccounts : Accounts built throttle targets events state)
    (hstep : FanOutStep fromValue run built state event next) :
    Accounts built throttle targets (events ++ [event]) next := by
  have hpermits : next.permits + next.running = throttle := by
    rw [permits_step hstep]
    exact haccounts.permits
  have hsteps : (events ++ [event]).length + next.stepsLeft ≤
      4 * targets.length := by
    have hless := stepsLeft_step hstep
    have hbefore := haccounts.steps
    rw [List.length_append, List.length_singleton]
    omega
  have htracked := tracked_step hstep haccounts.tracked
  have hmoved : Placed targets next ∧ Explained built (events ++ [event]) next := by
    cases hstep with
    | buildFailed hpending hfailure hresult =>
        exact haccounts.buildFailed hpending hfailure hresult.failedFor rfl rfl
          rfl
    | @spawn host rest id hpending _ _ =>
        constructor
        · refine haccounts.placed.same ?_ rfl
          simp [hosts, hpending]
        · obtain ⟨hran, hwaiting, hended, hresults⟩ := haccounts.explained
          constructor
          · simpa using hran
          · simpa [or_imp, forall_and] using hwaiting
          · simpa [or_and_right, exists_or] using hended
          · simpa using hresults
    | @acquire before after id host htasks _ =>
        constructor
        · refine haccounts.placed.same ?_ rfl
          simp [hosts, htasks]
        · refine haccounts.explained.rephase htasks rfl rfl ?_ ?_ ?_ ?_
          · exact fun _ heq => by cases heq
          · intro other heq
            cases heq
            exact haccounts.tracked.built _ (mem_tasks_of_split htasks)
          · exact fun _ _ heq => by cases heq
          · exact fun _ heq => by cases heq
    | finish htasks hresult =>
        constructor
        · refine haccounts.placed.same ?_ rfl
          simp [hosts, htasks]
        · refine haccounts.explained.rephase htasks rfl rfl ?_ ?_ ?_ ?_
          · exact fun _ heq => by cases heq
          · exact fun _ heq => by cases heq
          · intro other outcome heq
            cases heq
            exact ⟨rfl, rfl⟩
          · intro outcome heq
            cases heq
            exact ⟨rfl, fun result hmem => (hresult result hmem).settledFor⟩
    | @join before after id host result _ htasks =>
        have hjoined : (⟨id, host, .finished (some result)⟩ : HostTask) ∈
            state.tasks := mem_tasks_of_split htasks
        have hsettled : SettledFor host result :=
          (haccounts.explained.waiting _ hjoined _ rfl).2 result rfl
        exact haccounts.join htasks rfl rfl (by rw [hsettled.host_eq]) hsettled
          rfl
    | @joinPanicked before after id host error result _ htasks hresult =>
        have hjoined : (⟨id, host, .finished none⟩ : HostTask) ∈
            state.tasks := mem_tasks_of_split htasks
        have hhost : (state.taskHosts id).getD "unknown-host" = host := by
          rw [haccounts.tracked.known _ hjoined]
          rfl
        rw [hhost] at hresult
        exact haccounts.join htasks rfl rfl (by rw [hhost])
          hresult.failedFor.settledFor hresult.failedFor.failed
  exact ⟨hpermits, hsteps, hmoved.1, htracked, hmoved.2⟩

end Account

end Invariants

/-! ## Conservation -/

section Conservation

variable (fromValue : Json → Except String FlattenedDeploySettings)
  (run : RegisteredDeployRun) (built : BuiltProfiles)

/-- What a settled fan-out owes its targets. -/
structure Conserved (events : List FanOutEvent) (state : FanOut) : Prop where
  targets : ∀ host, state.results[host]? ≠ none ↔ host ∈ run.plan.targets
  keyed : ∀ (host : String) result,
    state.results[host]? = some result → result.host = host
  unbuilt : ∀ host ∈ run.plan.targets, built.failures[host]? ≠ none →
    ∃ result, state.results[host]? = some result ∧ result.state = .failed
  ran : ∀ host ∈ run.plan.targets, built.failures[host]? = none →
    ∃ outcome, .finished host outcome ∈ events
  kept : ∀ host outcome, .finished host outcome ∈ events →
    ∃ result, state.results[host]? = some result ∧ Keeps outcome result
  total : (summarize state.results).total = run.plan.targets.length
  partition : (summarize state.results).confirmed +
      (summarize state.results).rebootPending +
      (summarize state.results).failed + (summarize state.results).rolledBack =
    (summarize state.results).total
  rc : ∀ payload, (settleFanOut payload state.results).rc = 0 ↔
    (payload.getI64 "build_rc" = none ∨ payload.getI64 "build_rc" = some 0) ∧
      ∀ (host : String) result, state.results[host]? = some result →
        result.state ≠ .failed ∧ result.state ≠ .rolledBack

/-- What holds at every point of a fan-out.  It never gets stuck and takes a
bounded number of steps, so it returns. -/
structure Sound (events : List FanOutEvent) (state : FanOut) : Prop where
  bounded : events.length ≤ 4 * run.plan.targets.length
  progress : state.Settled ∨
    ∃ event next, FanOutStep fromValue run built state event next
  throttled : state.running ≤ run.plan.throttle.toNat
  neverRun : ∀ host, .running host ∈ events → built.failures[host]? = none
  conserved : state.Settled → Conserved run built events state

/-- The fan-out starts, and every run of it is sound. -/
def Conserves : Prop :=
  ∃ start, fanOutStart run.plan = .started start ∧
    ∀ events state, Run (FanOutStep fromValue run built) start events state →
      Sound fromValue run built events state

/-- A reply to any request, when it does not matter which. -/
def someReply : (effect : EngineEffects.Request) → EngineEffects.Reply effect
  | .inl _ => .ok ()
  | .inr (.spawn _) => .ok ()
  | .inr (.await _) => .ok (exitedWith 0)
  | .inr (.poll _) => none
  | .inr (.race _ _) => .first (.ok (exitedWith 0))

theorem exists_abnormalHost (host error : String) :
    ∃ result, AbnormalHost run host error result :=
  ⟨_, _, _, executes_runAgainst someReply _⟩

theorem exists_deployHost (host : String) :
    ∃ result, DeployHost fromValue run built host result :=
  ⟨_, _, _, executes_runAgainst someReply _⟩

variable {fromValue run built}
variable {throttle : ℕ} {targets : List String} {events : List FanOutEvent}
  {state : FanOut}

theorem exists_fresh (tasks : List HostTask) :
    ∃ id, ∀ task ∈ tasks, task.id ≠ id := by
  obtain ⟨id, hid⟩ :=
    Infinite.exists_notMem_finset (tasks.map HostTask.id).toFinset
  refine ⟨id, fun task hmem heq => hid ?_⟩
  rw [List.mem_toFinset, ← heq]
  exact List.mem_map_of_mem hmem

/-- A running task can always end. -/
theorem exists_step_of_running {task : HostTask} (hmem : task ∈ state.tasks)
    (hrunning : isRunning task) :
    ∃ event next, FanOutStep fromValue run built state event next := by
  obtain ⟨id, host, phase⟩ := task
  obtain ⟨before, after, htasks⟩ := List.append_of_mem hmem
  cases phase with
  | running =>
      obtain ⟨result, hresult⟩ := exists_deployHost fromValue run built host
      have hresults : ∀ other ∈ some result,
          DeployHost fromValue run built host other := by
        intro other hother
        cases hother
        exact hresult
      exact ⟨_, _, .finish htasks hresults⟩
  | queued => cases hrunning
  | finished _ => cases hrunning

/-- While something is left, some step is possible. -/
theorem exists_step (hthrottle : 0 < throttle)
    (haccounts : Accounts built throttle targets events state) :
    state.Settled ∨
      ∃ event next, FanOutStep fromValue run built state event next := by
  cases hpending : state.pending with
  | cons host rest =>
      right
      cases hfailure : built.failures[host]? with
      | some error =>
          obtain ⟨result, hresult⟩ := exists_abnormalHost run host error
          exact ⟨_, _, .buildFailed hpending hfailure hresult⟩
      | none =>
          obtain ⟨id, hfresh⟩ := exists_fresh state.tasks
          exact ⟨_, _, .spawn hpending hfailure hfresh⟩
  | nil =>
      cases htasks : state.tasks with
      | nil => exact .inl ⟨hpending, htasks⟩
      | cons task after =>
          right
          have hsplit : state.tasks = [] ++ task :: after := htasks
          obtain ⟨id, host, phase⟩ := task
          cases phase with
          | queued =>
              -- Without a free permit some other task holds one.
              by_cases hpermit : 0 < state.permits
              · exact ⟨_, _, .acquire hsplit hpermit⟩
              · have hrunning : 0 < state.running := by
                  have hall := haccounts.permits
                  omega
                obtain ⟨holder, hmem, hholds⟩ := List.countP_pos_iff.mp hrunning
                exact exists_step_of_running hmem hholds
          | running =>
              exact exists_step_of_running (mem_tasks_of_split hsplit) rfl
          | finished outcome =>
              cases outcome with
              | some result => exact ⟨_, _, .join hpending hsplit⟩
              | none =>
                  obtain ⟨result, hresult⟩ := exists_abnormalHost run
                    ((state.taskHosts id).getD "unknown-host") ""
                  exact ⟨_, _, .joinPanicked hpending hsplit hresult⟩

theorem accounts_start {plan : DeployPlan} (hnodup : plan.targets.Nodup) :
    Accounts built plan.throttle.toNat plan.targets [] (start plan) where
  permits := rfl
  steps := by simp [stepsLeft, start]
  placed := by
    constructor
    · simpa [hosts, start] using hnodup
    · simp [hosts, start]
    · simp [start]
  tracked := by constructor <;> simp [start]
  explained := by constructor <;> simp [start]

theorem Accounts.conserved
    (haccounts : Accounts built throttle run.plan.targets events state)
    (hnodup : run.plan.targets.Nodup) (hsettled : state.Settled) :
    Conserved run built events state := by
  obtain ⟨hpending, htasks⟩ := hsettled
  have hhosts : state.hosts = [] := by
    rw [hosts, hpending, htasks]
    rfl
  have htargets (host : String) :
      state.results[host]? ≠ none ↔ host ∈ run.plan.targets := by
    rw [haccounts.placed.complete, hhosts]
    simp
  have hresult : ∀ host ∈ run.plan.targets,
      ∃ result, state.results[host]? = some result := by
    intro host hmem
    exact Option.ne_none_iff_exists'.mp ((htargets host).mpr hmem)
  have hkeys : state.results.keys.Perm run.plan.targets := by
    apply (List.perm_ext_iff_of_nodup Std.TreeMap.nodup_keys hnodup).mpr
    intro host
    rw [BTreeMap.mem_keys_iff, htargets]
  refine
    { targets := htargets
      keyed := ?_
      unbuilt := ?_
      ran := ?_
      kept := ?_
      total := ?_
      partition := ?_
      rc := fun payload => settleFanOut_rc_iff payload state.results }
  · intro host result hfound
    exact (haccounts.explained.results host result hfound).1.host_eq
  · intro host hmem hunbuilt
    obtain ⟨result, hfound⟩ := hresult host hmem
    rcases (haccounts.explained.results host result hfound).2 with
      ⟨-, hfailed⟩ | ⟨hbuilt, -⟩
    · exact ⟨result, hfound, hfailed⟩
    · exact absurd hbuilt hunbuilt
  · intro host hmem hbuilt
    obtain ⟨result, hfound⟩ := hresult host hmem
    rcases (haccounts.explained.results host result hfound).2 with
      ⟨hunbuilt, -⟩ | ⟨-, outcome, hended, -⟩
    · exact absurd hbuilt hunbuilt
    · exact ⟨outcome, hended⟩
  · intro host outcome hended
    rcases haccounts.explained.ended host outcome hended with
      ⟨task, hmem, -⟩ | hkept
    · rw [htasks] at hmem
      cases hmem
    · exact hkept
  · rw [← hkeys.length_eq, Std.TreeMap.length_keys]
    rfl
  · apply summarize_total
    intro host result hfound
    exact (haccounts.explained.results host result hfound).1.terminal

/-- For a validated throttle the fan-out conserves its hosts exactly when the
semaphore can hold that many permits. -/
theorem conserves_iff (hnodup : run.plan.targets.Nodup)
    (hthrottle : 0 < run.plan.throttle) :
    Conserves fromValue run built ↔ run.plan.throttle ≤ maxPermits := by
  have hstart : ¬ run.plan.throttle < 0 ∧ ¬ run.plan.throttle = 0 := by
    constructor <;> omega
  constructor
  · intro hconserves
    obtain ⟨start, hstarted, -⟩ := hconserves
    by_contra hlarge
    have hpanics : maxPermits < run.plan.throttle.toNat := by omega
    rw [fanOutStart, if_neg hstart.1, if_neg hstart.2, if_pos hpanics]
      at hstarted
    cases hstarted
  · intro hsmall
    have hfits : ¬ maxPermits < run.plan.throttle.toNat := by omega
    refine ⟨start run.plan, ?_, ?_⟩
    · rw [fanOutStart, if_neg hstart.1, if_neg hstart.2, if_neg hfits]
    · intro events state hrun
      have haccounts : Accounts built run.plan.throttle.toNat run.plan.targets
          events state :=
        hrun.invariant (accounts_start hnodup)
          fun _ _ _ _ haccounts hstep => accounts_step haccounts hstep
      have hpermits := haccounts.permits
      have hsteps := haccounts.steps
      exact
        { bounded := by omega
          progress := exists_step (by omega) haccounts
          throttled := by omega
          neverRun := haccounts.explained.ran
          conserved := haccounts.conserved hnodup }

/-- A run of one target under a throttle of four. -/
theorem webRun_conserves :
    Conserves (fun _ => .ok webSettings) webRun webBuilt :=
  (conserves_iff (by decide) (by decide)).mpr (by decide)

/-- A throttle the command line and the plan accept. -/
def unboundedRun : RegisteredDeployRun :=
  { webRun with plan := { webRun.plan with throttle := 4611686018427387904 } }

/-- The controller panics before it visits a target. -/
theorem unboundedRun_not_conserves :
    ¬ Conserves (fun _ => .ok webSettings) unboundedRun webBuilt := by
  intro hconserves
  obtain ⟨start, hstarted, -⟩ := hconserves
  have hpanics : fanOutStart unboundedRun.plan = .panicked := by rfl
  rw [hpanics] at hstarted
  cases hstarted

end Conservation

end Mandala.Engine
