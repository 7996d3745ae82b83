import Mandala.Core.Transition
import Mandala.Runner.Terminate

/-!
# How far terminating a run reaches

Every call of `terminate` is judged in the world it is served in, with the
system at liberty to move between any two of them.
-/

namespace Mandala.Runner.Terminate

open Mandala.Data Mandala.Effects Mandala.Processes Mandala.Transition

variable (caller : Caller)

/-! ## One call -/

section Calls

variable {caller} {runDir : String} {run : DeployRun} {settled : Prop}

/-- The state during a call on `run`; `settled` says that the run had exited when
the call began. -/
structure During (runDir : String) (run : DeployRun) (settled : Prop)
    (world : World) : Prop where
  sound : Sound runDir ⟨world, run⟩
  exited : settled → State.Exited ⟨world, run⟩

/-- What is proved of every call. -/
structure Fine (caller : Caller) (settled : Prop) (call : Call signature World) :
    Prop where
  own : ∀ process ∈ signalled caller call, call.world.Own process
  exited : settled → isSignal call.effect = false

theorem Fine.of_question {effect : Request} {world : World}
    (hquestion : isSignal effect = false) : Fine caller settled ⟨effect, world⟩ := by
  refine ⟨?_, fun _ => hquestion⟩
  cases effect with
  | killpg | kill => cases hquestion
  | tryWait | readMeta | pidAlive =>
      exact fun process hmem => absurd hmem List.not_mem_nil

theorem stable_during :
    Stable (Moves (Careful runDir) run) (During runDir run settled) := by
  rintro before after hduring ⟨happening, hcareful, hhappen⟩
  have hhappened := happened_of_happen hhappen
  exact ⟨hduring.sound.happen hcareful hhappened, fun hsettled =>
    (hduring.exited hsettled).happen hduring.sound.kept hhappened⟩

/-- The meta of a careful run keeps the pid it records. -/
theorem stable_recorded (hrun : run.exited = none) (pid : ℤ) :
    Stable (Moves (Careful runDir) run) fun world =>
      recordedPid (world.registry runDir) = some pid := by
  rintro before after hrecorded ⟨happening, hcareful, hhappen⟩
  simp only [Careful, hrun, Option.isSome_none, Bool.false_eq_true,
    false_or] at hcareful
  cases happened_of_happen hhappen with
  | system => exact hrecorded
  | engine => exact hrecorded
  | registry path payload =>
      change recordedPid (Function.update before.registry path payload runDir) =
        some pid
      by_cases hpath : path = runDir
      · subst hpath
        rw [Function.update_self]
        rcases hcareful rfl with hsame | ⟨hnone, -⟩
        · exact hsame.trans hrecorded
        · rw [hrecorded] at hnone
          cases hnone
      · rw [Function.update_of_ne (Ne.symm hpath)]
        exact hrecorded

/-- The pid is the one the registry records, or that of the child. -/
def Names (runDir : String) (world : World) (pid : ℤ) : Prop :=
  recordedPid (world.registry runDir) = some pid ∨ world.unreaped = some pid

theorem stable_names (hrun : run.exited = none) (pid : ℤ) :
    Stable (Moves (Careful runDir) run) fun world => Names runDir world pid := by
  rintro before after (hrecorded | hunreaped) hmoves
  · exact .inl (stable_recorded hrun pid before after hrecorded hmoves)
  · obtain ⟨happening, -, hhappen⟩ := hmoves
    cases happened_of_happen hhappen <;> exact .inr hunreaped

/-- Whatever a signal to that pid or group can reach is the run's own. -/
theorem own_of_names {world : World} {pid : ℤ} (hkept : Kept world)
    (hnamed : Named runDir world) (hnames : Names runDir world pid) :
    1 < pid ∧ ∀ process ∈ world.table.processes,
      process.pid = pid ∨ process.pgid = pid → world.Own process := by
  rcases hnames with hrecorded | hunreaped
  · obtain ⟨hpid, birth, hengine, hall⟩ := hnamed pid hrecorded
    refine ⟨hpid, fun process hmem hreached => ⟨birth, .inl hengine, ?_⟩⟩
    exact hreached.imp (hall process hmem).1 (hall process hmem).2
  · obtain ⟨hpid, child, hchild, hsame, hlauncher⟩ := hkept.launched pid hunreaped
    refine ⟨hpid, fun process hmem hreached =>
      ⟨child.birth, .inr hlauncher, hreached.imp (fun h => ?_) fun h => ?_⟩⟩
    · rw [world.table.wellFormed.distinct process hmem child hchild
        (.inl (h.trans hsame.symm))]
    · exact world.table.wellFormed.founded child hchild process hmem
        (h.trans hsame.symm)

/-- A signal to the recorded pid or to the child, of a run that is not settled. -/
theorem Fine.of_names {world : World} {pid : ℤ} {effect : Request}
    (hrun : run.exited = none) (hsettled : ¬ settled)
    (hworld : During runDir run settled world ∧ Names runDir world pid)
    (heffect : effect = .killpg pid ∨ effect = .kill pid) :
    Fine caller settled ⟨effect, world⟩ := by
  obtain ⟨hpid, hown⟩ := own_of_names hworld.1.sound.kept
    (hworld.1.sound.named hrun) hworld.2
  refine ⟨fun process hmem => ?_, fun h => absurd h hsettled⟩
  rcases heffect with rfl | rfl
  · obtain ⟨hprocess, hpgid⟩ := Table.pgid_of_mem_killedGroup hpid hmem
    exact hown process hprocess (.inr hpgid)
  · obtain ⟨hprocess, hsame⟩ := Table.pid_of_mem_killed (by omega) hmem
    exact hown process hprocess (.inl hsame)

theorem terminateDeployGroup_guarantees (hrun : run.exited = none)
    (hsettled : ¬ settled) (pid : ℤ) :
    Guarantees (serve caller) (Moves (Careful runDir) run)
      (fun world => During runDir run settled world ∧ Names runDir world pid)
      (terminateDeployGroup pid) (Fine caller settled)
      fun _ world => During runDir run settled world := by
  have hstable : Stable (Moves (Careful runDir) run) fun world =>
      During runDir run settled world ∧ Names runDir world pid :=
    stable_during.and (stable_names hrun pid)
  refine .query hstable
    (fun world hworld => .of_names hrun hsettled hworld (.inl rfl))
    (fun _ => rfl) fun reply => ?_
  cases reply with
  | ok sent => exact .done hstable fun world hworld => hworld.1
  | error errno =>
      refine .query hstable
        (fun world hworld => .of_names hrun hsettled hworld (.inr rfl))
        (fun _ => rfl) fun _ => ?_
      exact .done hstable fun world hworld => hworld.1

theorem asI32_of_range {pid : ℤ} (hlow : -2147483648 ≤ pid)
    (hhigh : pid < 2147483648) : asI32 pid = pid :=
  Int.bmod_eq_of_le (by omega) (by omega)

theorem range_of_toI32 {pid same : ℤ} (htoI32 : toI32 pid = some same) :
    same = pid ∧ -2147483648 ≤ pid ∧ pid < 2147483648 := by
  unfold toI32 at htoI32
  split at htoI32
  · next hrange => exact ⟨(Option.some.inj htoI32).symm, hrange⟩
  · cases htoI32

/-- A pid of no process is never alive. -/
theorem processExists_of_absent (caller : Caller) {table : Table} {pid : ℤ}
    (hpid : 0 < pid) (hhigh : pid < 2147483648)
    (habsent : ∀ process ∈ table.processes, process.pid ≠ pid) :
    processExists caller table pid = false := by
  rw [processExists, asI32_of_range (by omega) hhigh,
    Table.kill_of_absent hpid habsent]

/-- The engine of an attached run that has exited has left no process with the
recorded pid. -/
theorem not_alive_of_exited (caller : Caller) {world : World} {pid : ℤ}
    (hnamed : Named runDir world)
    (hrecorded : recordedPid (world.registry runDir) = some pid)
    (hhigh : pid < 2147483648) (hattached : run.attached)
    (hexited : State.Exited ⟨world, run⟩) :
    Registry.pidAlive (processExists caller world.table) (some pid) = false := by
  unfold State.Exited at hexited
  rw [if_pos hattached] at hexited
  obtain ⟨gone, hgone, habsent⟩ := hexited
  obtain ⟨hpid, birth, hengine, hall⟩ := hnamed pid hrecorded
  have hsame : birth = gone := Option.some.inj (hengine.symm.trans hgone)
  have hexists := processExists_of_absent caller (by omega) hhigh
    fun process hmem hprocess =>
      habsent process hmem (hsame ▸ (hall process hmem).1 hprocess)
  rw [Registry.pidAlive, hexists, Bool.and_false]

/-- The pid found is the recorded one, and the run is not settled. -/
def Found (runDir : String) (settled : Prop) (found : Option ℤ) (world : World) :
    Prop :=
  ∀ pid, found.bind toI32 = some pid →
    ¬ settled ∧ recordedPid (world.registry runDir) = some pid

theorem stable_found (hrun : run.exited = none) (found : Option ℤ) :
    Stable (Moves (Careful runDir) run) (Found runDir settled found) := by
  intro before after hfound hmoves pid hpid
  obtain ⟨hsettled, hrecorded⟩ := hfound pid hpid
  exact ⟨hsettled, stable_recorded hrun pid before after hrecorded hmoves⟩

/-- A settled run is an attached one, from `poll_exit` on. -/
def Polled (runDir : String) (run : DeployRun) (settled : Prop) (world : World) :
    Prop :=
  During runDir run settled world ∧ (settled → run.attached)

theorem stable_polled :
    Stable (Moves (Careful runDir) run) (Polled runDir run settled) :=
  stable_during.and fun _ _ hattached _ => hattached

theorem recordedPid_of_getI64 {payload : Meta} {pid same : ℤ}
    (hpid : payload.getI64 "pid" = some pid) (hzero : pid ≠ 0)
    (htoI32 : toI32 pid = some same) : recordedPid payload = some pid := by
  simp [recordedPid, hpid, hzero, htoI32]

/-- A meta was read, which a careful run leaves as it was read. -/
def Read (runDir : String) (run : DeployRun) (settled : Prop) (payload : Meta)
    (world : World) : Prop :=
  Polled runDir run settled world ∧ ∀ pid, recordedPid payload = some pid →
    recordedPid (world.registry runDir) = some pid

theorem stable_read (hrun : run.exited = none) (payload : Meta) :
    Stable (Moves (Careful runDir) run) (Read runDir run settled payload) :=
  stable_polled.and fun before after hread hmoves pid hpid =>
    stable_recorded hrun pid before after (hread pid hpid) hmoves

/-- The recorded pid was probed. -/
def Probed (runDir : String) (run : DeployRun) (settled : Prop) (pid : ℤ)
    (alive : Bool) (world : World) : Prop :=
  Polled runDir run settled world ∧
    Found runDir settled (if alive then some pid else none) world

/-- What the liveness probe establishes of the pid of a meta just read. -/
theorem probed_of_read {world : World} {payload : Meta} {pid : ℤ}
    (hrun : run.exited = none) (hread : Read runDir run settled payload world)
    (hpid : payload.getI64 "pid" = some pid) :
    Probed runDir run settled pid
      (Registry.pidAlive (processExists caller world.table) (some pid)) world := by
  refine ⟨hread.1, fun found hfound => ?_⟩
  cases halive : Registry.pidAlive (processExists caller world.table) (some pid) with
  | false =>
      rw [halive] at hfound
      cases hfound
  | true =>
      rw [halive] at hfound
      change toI32 pid = some found at hfound
      obtain ⟨rfl, hlow, hhigh⟩ := range_of_toI32 hfound
      have hzero : found ≠ 0 := by
        rintro rfl
        cases halive
      have hrecorded := hread.2 found (recordedPid_of_getI64 hpid hzero hfound)
      refine ⟨fun hsettled => ?_, hrecorded⟩
      have hdead := not_alive_of_exited caller (hread.1.1.sound.named hrun)
        hrecorded hhigh (hread.1.2 hsettled) (hread.1.1.exited hsettled)
      rw [halive] at hdead
      cases hdead

theorem deployedPid_guarantees (hrun : run.exited = none) :
    Guarantees (serve caller) (Moves (Careful runDir) run)
      (Polled runDir run settled) run.deployedPid (Fine caller settled)
      fun found world => Polled runDir run settled world ∧
        Found runDir settled found world := by
  have hnone : Guarantees (serve caller) (Moves (Careful runDir) run)
      (Polled runDir run settled) (Program.done none) (Fine caller settled)
      fun found world => Polled runDir run settled world ∧
        Found runDir settled found world :=
    .done stable_polled fun world hpolled =>
      ⟨hpolled, fun pid hpid => absurd hpid (Option.some_ne_none pid).symm⟩
  unfold DeployRun.deployedPid
  cases hdirectory : run.eventsDir with
  | none => exact hnone
  | some path =>
      have hread : ∀ world, Polled runDir run settled world →
          Read runDir run settled (serve caller (.readMeta path) world).1
            (serve caller (.readMeta path) world).2 := by
        intro world hpolled
        refine ⟨hpolled, fun pid hrecorded => ?_⟩
        rw [← hpolled.1.sound.directory path hdirectory]
        exact hrecorded
      refine .request stable_polled (fun world _ => .of_question rfl) hread ?_
      intro payload
      simp only [Program.bind]
      cases hpid : payload.getI64 "pid" with
      | none => exact hnone.of_pre fun world hworld => hworld.1
      | some pid =>
          have hprobed : ∀ world, Read runDir run settled payload world →
              Probed runDir run settled pid
                (serve caller (.pidAlive (some pid)) world).1
                (serve caller (.pidAlive (some pid)) world).2 :=
            fun world hworld => probed_of_read hrun hworld hpid
          refine .request (stable_read hrun payload)
            (fun world _ => .of_question rfl) hprobed fun alive => ?_
          exact .done (stable_polled.and (stable_found hrun _))
            fun world hworld => hworld

/-- What `poll_exit` leaves behind. -/
structure AfterPoll (runDir : String) (run : DeployRun) (settled : Prop)
    (polled : Option ℤ × DeployRun) (world : World) : Prop where
  ended : polled.1.isSome →
    polled.2.exited.isSome ∧ Sound runDir ⟨world, polled.2⟩
  running : polled.1 = none → polled.2 = run ∧ Polled runDir run settled world

theorem stable_afterPoll (polled : Option ℤ × DeployRun) :
    Stable (Moves (Careful runDir) run) (AfterPoll runDir run settled polled) := by
  intro before after hbefore hmoves
  refine ⟨fun hended => ?_, fun hnone => ?_⟩
  · obtain ⟨hexited, hsound⟩ := hbefore.ended hended
    obtain ⟨happening, -, hhappen⟩ := hmoves
    exact ⟨hexited, hsound.happen (.inl hexited) (happened_of_happen hhappen)⟩
  · obtain ⟨hsame, hpolled⟩ := hbefore.running hnone
    exact ⟨hsame, stable_polled before after hpolled hmoves⟩

/-- The answer to a wait for the child, which is still in the table. -/
theorem serve_tryWait (caller : Caller) {world : World} {pid : ℤ}
    (hkept : Kept world) (hunreaped : world.unreaped = some pid) :
    ∃ process ∈ world.table.processes, world.launcher = some process.birth ∧
      ((process.exited = none ∧ serve caller (.tryWait pid) world = (none, world)) ∨
        ∃ status, process.exited = some status ∧
          serve caller (.tryWait pid) world = (some status,
            { world with table := world.table.remove pid, unreaped := none })) := by
  obtain ⟨-, process, hmem, rfl, hlauncher⟩ := hkept.launched pid hunreaped
  refine ⟨process, hmem, hlauncher, ?_⟩
  cases hexited : process.exited with
  | none => exact .inl (by simp [serve, Table.find_eq_some hmem, hexited])
  | some status =>
      exact .inr ⟨status, by
        simp [serve, Table.find_eq_some hmem, hexited, hunreaped]⟩

theorem Kept.reaped {world : World} (hkept : Kept world) (pid : ℤ) :
    Kept { world with table := world.table.remove pid, unreaped := none } :=
  ⟨fun _ hnone => absurd hnone (Option.some_ne_none _).symm, hkept.engineBorn,
    hkept.launcherBorn, fun process hmem =>
      hkept.engineForked process (List.mem_filter.mp hmem).1⟩

theorem afterPoll_tryWait (caller : Caller) {world : World} {child : Child}
    (hrun : run.exited = none) (hchild : run.child = some child)
    (hduring : During runDir run settled world) :
    AfterPoll runDir run settled
      ((serve caller (.tryWait child.pid) world).1,
        { run with
          child := some { child with
            done := (serve caller (.tryWait child.pid) world).1 }
          exited := (serve caller (.tryWait child.pid) world).1 })
      (serve caller (.tryWait child.pid) world).2 := by
  have hsound := hduring.sound
  obtain ⟨hdone, hunreaped⟩ := hsound.child child hchild hrun
  have hattached : run.attached = false := by
    rw [← Bool.not_eq_true]
    intro hattached
    have hnone := hsound.attached hattached
    rw [hchild] at hnone
    cases hnone
  obtain ⟨process, hmem, hlauncher, hserved⟩ :=
    serve_tryWait caller hsound.kept hunreaped
  rcases hserved with ⟨hexited, hserve⟩ | ⟨status, -, hserve⟩
  · rw [hserve]
    refine ⟨fun hsome => absurd hsome Bool.false_ne_true, fun _ => ⟨?_, hduring, ?_⟩⟩
    · rw [← hdone, ← hchild, hdone, ← hrun]
    · intro hsettled
      have hsettled := hduring.exited hsettled
      unfold State.Exited at hsettled
      rw [if_neg (by simp [hattached])] at hsettled
      obtain ⟨birth, hbirth, hended⟩ := hsettled
      have hsame : process.birth = birth :=
        Option.some.inj (hlauncher.symm.trans hbirth)
      have hsome := hended process hmem hsame
      rw [hexited] at hsome
      cases hsome
  · rw [hserve]
    refine ⟨fun _ => ⟨rfl, ?_⟩, fun hnone => absurd hnone (Option.some_ne_none _)⟩
    refine ⟨hsound.kept.reaped child.pid, ?_, ?_, ?_, ?_, hsound.directory⟩
    · exact fun hnone => absurd hnone (Option.some_ne_none _)
    · exact fun _ _ hnone => absurd hnone (Option.some_ne_none _)
    · exact fun hnone => absurd hnone (Option.some_ne_none _)
    · intro hsome
      rw [hattached] at hsome
      cases hsome

/-- What the fields of a run say of its child before any exit was seen. -/
theorem Sound.running {world : World} (hsound : Sound runDir ⟨world, run⟩)
    (hrun : run.exited = none) :
    (∀ child, run.child = some child → child.done = none) ∧
      (run.attached → run.child = none) :=
  ⟨fun child hchild => (hsound.child child hchild hrun).1, hsound.attached⟩

theorem pollExit_guarantees (hrun : run.exited = none)
    (hdone : ∀ child, run.child = some child → child.done = none) :
    Guarantees (serve caller) (Moves (Careful runDir) run)
      (During runDir run settled) run.pollExit (Fine caller settled)
      (AfterPoll runDir run settled) := by
  unfold DeployRun.pollExit
  cases hchild : run.child with
  | none =>
      rw [hrun]
      refine .done stable_during fun world hduring => ⟨?_, fun _ => ⟨rfl, hduring, ?_⟩⟩
      · exact fun hsome => absurd hsome Bool.false_ne_true
      · intro hsettled
        have hexited := hduring.exited hsettled
        unfold State.Exited at hexited
        split at hexited
        · next hattached => exact hattached
        · obtain ⟨birth, hlauncher, -⟩ := hexited
          rw [hduring.sound.unlaunched hchild] at hlauncher
          cases hlauncher
  | some child =>
      rw [hrun]
      simp only [Child.tryWait, hdone child hchild]
      exact .request stable_during (fun world _ => .of_question rfl)
        (fun world hduring => afterPoll_tryWait caller hrun hchild hduring)
        fun status => .done (stable_afterPoll _) fun world hworld => hworld

/-- The end of `terminate`, at the pid it came by. -/
theorem signalled_guarantees (hrun : run.exited = none) {pre : World → Prop}
    {pid : ℤ} (hpre : ∀ world, pre world →
      ¬ settled ∧ During runDir run settled world ∧ Names runDir world pid) :
    Guarantees (serve caller) (Moves (Careful runDir) run) pre
      (terminateDeployGroup pid >>= fun _ => pure run) (Fine caller settled)
      fun terminated world => Sound runDir ⟨world, terminated⟩ := by
  by_cases hsettled : settled
  · intro before calls value after hbefore hcall
    exact absurd hsettled (hpre before hbefore).1
  · exact ((terminateDeployGroup_guarantees hrun hsettled pid).of_pre
      fun world hworld => (hpre world hworld).2).bind fun _ =>
        .done stable_during fun world hduring => hduring.sound

/-- The pid of a child that was not waited for is its launcher's. -/
theorem names_of_child {world : World} {child : Child} (hrun : run.exited = none)
    (hchild : run.child = some child) (hsound : Sound runDir ⟨world, run⟩) :
    Names runDir world (asI32 child.pid) := by
  obtain ⟨-, hunreaped⟩ := hsound.child child hchild hrun
  obtain ⟨-, process, hmem, hpid, -⟩ := hsound.kept.launched child.pid hunreaped
  have hbounded := world.table.wellFormed.bounded process hmem
  rw [hpid] at hbounded
  rw [asI32_of_range (by omega) hbounded.2]
  exact .inr hunreaped

theorem terminate_guarantees
    (hrunning : run.exited = none →
      (∀ child, run.child = some child → child.done = none) ∧
        (run.attached → run.child = none)) :
    Guarantees (serve caller) (Moves (Careful runDir) run)
      (During runDir run settled) run.terminate (Fine caller settled)
      fun terminated world => Sound runDir ⟨world, terminated⟩ := by
  cases hrun : run.exited with
  | some status =>
      have hpoll : run.pollExit = Program.done (some status, run) := by
        rw [DeployRun.pollExit, hrun]
        rfl
      rw [DeployRun.terminate, hpoll]
      exact .done stable_during fun world hduring => hduring.sound
  | none =>
      obtain ⟨hdone, hattached⟩ := hrunning hrun
      refine .bind (pollExit_guarantees hrun hdone) fun polled => ?_
      obtain ⟨ended, after⟩ := polled
      cases ended with
      | some status =>
          exact .done (stable_afterPoll _) fun world hworld => (hworld.ended rfl).2
      | none =>
          by_cases hsame : after = run
          swap
          · intro before calls value world hbefore
            exact absurd (hbefore.running rfl).1 hsame
          subst hsame
          refine .bind ((deployedPid_guarantees hrun).of_pre
            fun world hworld => (hworld.running rfl).2) fun found => ?_
          cases hfound : found.bind toI32 with
          | some pid =>
              refine signalled_guarantees hrun fun world hworld => ?_
              obtain ⟨hsettled, hrecorded⟩ := hworld.2 pid hfound
              exact ⟨hsettled, hworld.1.1, .inl hrecorded⟩
          | none =>
              cases hchild : after.child with
              | none =>
                  exact .done (stable_polled.and (stable_found hrun found))
                    fun world hworld => hworld.1.1.sound
              | some child =>
                  have hid : child.id = some child.pid := by
                    simp [Child.id, hdone child hchild]
                  rw [Option.bind_some, hid]
                  refine signalled_guarantees hrun fun world hworld => ⟨?_, hworld.1.1,
                    names_of_child hrun hchild hworld.1.1.sound⟩
                  intro hsettled
                  have hnone := hattached (hworld.1.2 hsettled)
                  rw [hchild] at hnone
                  cases hnone

/-- Any call of `poll_exit` keeps the invariant. -/
theorem pollExit_sound (caller : Caller) {before : World}
    (hsound : Sound runDir ⟨before, run⟩) :
    ∀ calls polled after,
      RunsIn (serve caller) (Moves (Careful runDir) run) run.pollExit before calls
        polled after → Sound runDir ⟨after, polled.2⟩ := by
  intro calls polled after hcall
  have hduring : During runDir run False before := ⟨hsound, False.elim⟩
  cases hrun : run.exited with
  | some status =>
      have hpoll : run.pollExit = Program.done (some status, run) := by
        rw [DeployRun.pollExit, hrun]
        rfl
      rw [hpoll] at hcall
      have hguarantees : Guarantees (serve caller) (Moves (Careful runDir) run)
          (During runDir run False) (Program.done (some status, run))
          (Fine caller False) fun polled world => Sound runDir ⟨world, polled.2⟩ :=
        .done stable_during fun world hworld => hworld.sound
      exact (hguarantees before calls polled after hduring hcall).2
  | none =>
      obtain ⟨-, hafter⟩ := pollExit_guarantees hrun
        (hsound.running hrun).1 before calls polled after hduring hcall
      cases hended : polled.1 with
      | some status => exact (hafter.ended (by rw [hended]; rfl)).2
      | none =>
          obtain ⟨hsame, hpolled⟩ := hafter.running hended
          rw [hsame]
          exact hpolled.1.sound

end Calls

/-! ## Every run -/

section Runs

variable {caller} {runDir : String}

theorem Sound.initial {state : State} (hinitial : state.Initial runDir) :
    Sound runDir state := by
  obtain ⟨world, run⟩ := state
  obtain ⟨hrecorded, hengine, hlauncher, hunreaped, hrun⟩ := hinitial
  dsimp only at hrecorded hengine hlauncher hunreaped hrun
  subst hrun
  refine ⟨⟨?_, ?_, ?_, ?_⟩, fun _ pid hpid => ?_, ?_, fun _ => hlauncher, ?_, ?_⟩
  · simp [hunreaped]
  · simp [hengine]
  · simp [hlauncher]
  · simp [hengine]
  · rw [hrecorded] at hpid
    cases hpid
  · exact fun child hchild => absurd hchild (Option.some_ne_none child).symm
  · exact fun hattached => absurd hattached Bool.false_ne_true
  · exact fun path hpath => absurd hpath (Option.some_ne_none path).symm

theorem Sound.start {world : World} {table : Table} {pid : ℤ}
    {permitted inline : Bool} (hsound : Sound runDir ⟨world, .new⟩)
    (hallowed : Careful runDir ⟨world, .new⟩
      (.system (.fork caller.pid pid true permitted)))
    (hfork : world.table.apply (.fork caller.pid pid true permitted) = some table)
    (hinline : inline → world.engine = none) :
    Sound runDir
      ⟨{ world with
          table
          engine := if inline then some world.table.births else world.engine
          launcher := some world.table.births
          unreaped := some pid },
        { DeployRun.new with child := some ⟨pid, none⟩ }⟩ := by
  obtain ⟨newcomer, htable, hbirths, hpid, hborn, -⟩ := Table.apply_fork hfork
  have hevolves := Table.evolves_of_apply hfork
  have hkept := hsound.kept.evolve hevolves (by simp)
  have hlt : world.table.births < table.births := hbirths ▸ Nat.lt_succ_self _
  have hnamed : Named runDir { world with table } := by
    refine (hsound.named rfl).evolve hevolves ?_
    rintro parent pid leads permitted ⟨⟩
    exact hallowed.resolve_left Bool.false_ne_true
  refine ⟨⟨?_, ?_, ?_, ?_⟩, fun _ recorded hrecorded => ?_, ?_, ?_, ?_, ?_⟩
  · intro found hfound
    cases hfound
    exact ⟨hpid ▸ hborn.free.1.1, newcomer, htable ▸ List.mem_cons_self, hpid,
      hborn.birth ▸ rfl⟩
  · intro birth hbirth
    dsimp only at hbirth
    split at hbirth
    · exact Option.some.inj hbirth ▸ hlt
    · exact hkept.engineBorn birth hbirth
  · intro birth hbirth
    exact Option.some.inj hbirth ▸ hlt
  · intro process hmem hbirth
    dsimp only at hbirth
    split at hbirth
    · exact hevolves.one_lt_pid_of_newborn hmem (Option.some.inj hbirth).symm
    · exact hkept.engineForked process hmem hbirth
  · obtain ⟨hlarge, birth, hengine, hall⟩ := hnamed recorded hrecorded
    refine ⟨hlarge, birth, ?_, hall⟩
    cases inline with
    | false => exact hengine
    | true =>
        rw [hinline rfl] at hengine
        cases hengine
  · intro child hchild _
    cases hchild
    exact ⟨rfl, rfl⟩
  · exact fun hnone => absurd hnone (Option.some_ne_none _)
  · exact fun hattached => absurd hattached Bool.false_ne_true
  · exact fun path hpath => absurd hpath (Option.some_ne_none path).symm

/-- Every step of a careful run keeps the invariant. -/
theorem Sound.step {before after : State} (hsound : Sound runDir before)
    (hstep : Step caller runDir (Careful runDir) before after) :
    Sound runDir after := by
  cases hstep with
  | happens hmoves =>
      obtain ⟨happening, hcareful, hhappen⟩ := hmoves
      exact hsound.happen hcareful (happened_of_happen hhappen)
  | start pid permitted inline hallowed hfork hfresh hinline =>
      obtain ⟨rfl, -⟩ := hfresh
      exact hsound.start hallowed hfork hinline
  | discover hchild =>
      exact ⟨hsound.kept, hsound.named, hsound.child, hsound.unlaunched,
        hsound.attached, fun path hpath => (Option.some.inj hpath).symm⟩
  | attach hfresh =>
      refine ⟨hsound.kept, hsound.named, ?_, fun _ => hfresh, fun _ => rfl, ?_⟩
      · exact fun child hchild => absurd hchild (Option.some_ne_none child).symm
      · exact fun path hpath => (Option.some.inj hpath).symm
  | pollExit hcall => exact pollExit_sound caller hsound _ _ _ hcall
  | terminate hcall =>
      exact (terminate_guarantees hsound.running _ _ _ _
        ⟨hsound, False.elim⟩ hcall).2

/-- A state of a run, whose world moves only as is allowed. -/
def Reached (caller : Caller) (runDir : String)
    (allowed : State → Happening → Prop) (state : State) : Prop :=
  Reachable (State.Initial runDir)
    (fun before (_ : Unit) after => Step caller runDir allowed before after)
    anyStep state

theorem sound_of_reached {state : State}
    (hreached : Reached caller runDir (Careful runDir) state) :
    Sound runDir state :=
  hreached.invariant (fun _ hinitial => .initial hinitial)
    fun _ _ _ hsound _ hstep => hsound.step hstep

end Runs

/-- A run that is only attached, whose recorded pid can be signalled. -/
theorem runsIn_terminate_attached {move : World → World → Prop} {world : World}
    {path : String} {pid : ℤ}
    (hpid : (world.registry path).getI64 "pid" = some pid)
    (hrange : toI32 pid = some pid)
    (halive : Registry.pidAlive (processExists caller world.table) (some pid) = true)
    (hsent : world.table.killpg caller pid = .ok ()) :
    RunsIn (serve caller) move (DeployRun.attach path).terminate world
      [⟨.readMeta path, world⟩, ⟨.pidAlive (some pid), world⟩, ⟨.killpg pid, world⟩]
      (.attach path) world := by
  have hdeployed : RunsIn (serve caller) move
      (DeployRun.attach path).deployedPid world
      [⟨.readMeta path, world⟩, ⟨.pidAlive (some pid), world⟩] (some pid) world := by
    refine .request ?_
    simp only [Program.bind, serve, hpid]
    refine .request ?_
    simp only [Program.bind, serve, halive]
    exact .done
  have hgroup : RunsIn (serve caller) move (terminateDeployGroup pid) world
      [⟨.killpg pid, world⟩] () world := by
    refine .request ?_
    simp only [Program.bind, serve, hsent]
    exact .done
  refine hdeployed.bind ?_
  rw [Option.bind_some, hrange]
  exact hgroup.bind .done

/-! ## A recycled pid -/

theorem Reached.happens {caller : Caller} {runDir : String} {run : DeployRun}
    {happenings : List Happening} {world after : World}
    (hreached : Reached caller runDir (fun _ _ => True) ⟨world, run⟩)
    (hhappen : happenings.foldlM World.happen world = some after) :
    Reached caller runDir (fun _ _ => True) ⟨after, run⟩ := by
  induction happenings generalizing world with
  | nil =>
      cases hhappen
      exact hreached
  | cons happening happenings ih =>
      rw [List.foldlM_cons] at hhappen
      obtain ⟨next, hnext, hrest⟩ := Option.bind_eq_some_iff.mp hhappen
      have hallowed : anyStep (⟨world, run⟩ : State) () := trivial
      exact ih (hreached.step hallowed
        (.happens ⟨happening, trivial, hnext⟩)) hrest

def frontend : Caller := { pid := 100, pgid := 100 }

/-- A system with its init and the frontend. -/
def booted : World :=
  { table :=
      { processes :=
          [{ pid := 1, birth := 0, pgid := 1, founder := 0, exited := none,
             permitted := false },
           { pid := 100, birth := 1, pgid := 100, founder := 1, exited := none,
             permitted := true }]
        births := 2
        wellFormed := by constructor <;> decide }
    registry := fun _ => ∅
    engine := none
    launcher := none
    unreaped := none }

theorem booted_initial : State.Initial "run" ⟨booted, .new⟩ :=
  ⟨by decide +kernel, rfl, rfl, rfl, rfl⟩

/-- The engine starts and registers its run. -/
def registered : List Happening :=
  [.engine 1 4242 true true,
   .registry "run" ((∅ : Meta).insert "pid" (.int 4242))]

/-- It exits, and its pid is given to a process that leads its own group. -/
def recycled : List Happening :=
  [.system (.exit 4242 0), .system (.reap 4242),
   .system (.fork 1 4242 true true)]

/-- That process. -/
def stranger : Process :=
  { pid := 4242, birth := 3, pgid := 4242, founder := 3, exited := none,
    permitted := true }

def worldAfter (happenings : List Happening) : World :=
  (happenings.foldlM World.happen booted).getD booted

theorem foldlM_happen_eq {happenings : List Happening}
    (hsome : (happenings.foldlM World.happen booted).isSome) :
    happenings.foldlM World.happen booted = some (worldAfter happenings) := by
  obtain ⟨after, hafter⟩ := Option.isSome_iff_exists.mp hsome
  rw [worldAfter, hafter]
  rfl

/-- What `terminate` does at the recycled pid. -/
theorem runsIn_recycled :
    RunsIn (serve frontend) (Moves (fun _ _ => True) (.attach "run"))
      (DeployRun.attach "run").terminate (worldAfter (registered ++ recycled))
      [⟨.readMeta "run", worldAfter (registered ++ recycled)⟩,
        ⟨.pidAlive (some 4242), worldAfter (registered ++ recycled)⟩,
        ⟨.killpg 4242, worldAfter (registered ++ recycled)⟩]
      (.attach "run") (worldAfter (registered ++ recycled)) :=
  runsIn_terminate_attached frontend (by decide +kernel) (by decide)
    (by decide +kernel) (by rfl)

theorem reached_recycled :
    Reached frontend "run" (fun _ _ => True)
      ⟨worldAfter (registered ++ recycled), .attach "run"⟩ := by
  have hattached : Reached frontend "run" (fun _ _ => True)
      ⟨booted, .attach "run"⟩ := by
    have hallowed : anyStep (⟨booted, .new⟩ : State) () := trivial
    exact (Reachable.initial booted_initial).step hallowed (.attach rfl)
  exact hattached.happens (foldlM_happen_eq (by decide +kernel))

theorem reached_registered :
    Reached frontend "run" (Careful "run") ⟨worldAfter registered, .attach "run"⟩ := by
  have hattached : Reached frontend "run" (Careful "run")
      ⟨booted, .attach "run"⟩ := by
    have hallowed : anyStep (⟨booted, .new⟩ : State) () := trivial
    exact (Reachable.initial booted_initial).step hallowed (.attach rfl)
  have hstarted : Reached frontend "run" (Careful "run")
      ⟨worldAfter [.engine 1 4242 true true], .attach "run"⟩ := by
    have hallowed : anyStep (⟨booted, .attach "run"⟩ : State) () := trivial
    exact hattached.step hallowed
      (.happens ⟨.engine 1 4242 true true, .inr trivial, by rfl⟩)
  have hallowed : anyStep (⟨worldAfter [.engine 1 4242 true true],
      .attach "run"⟩ : State) () := trivial
  refine hstarted.step hallowed (.happens ⟨.registry "run"
    ((∅ : Meta).insert "pid" (.int 4242)), .inr fun _ => .inr ⟨?_, ?_⟩, by rfl⟩)
  · decide +kernel
  · refine ⟨{ stranger with birth := 2, founder := 2 }, ?_⟩
    decide +kernel

/-! ## Staying inside the run -/

/-- In every run whose world is careful, `terminate` signals only processes of
the run, whatever happens while it does, and none once the run has exited. -/
theorem terminate_staysInside {caller : Caller} {runDir : String} {before : State}
    {calls : List (Call signature World)} {terminated : DeployRun} {after : World}
    (hreached : Reached caller runDir (Careful runDir) before)
    (hcall : RunsIn (serve caller) (Moves (Careful runDir) before.run)
      before.run.terminate before.world calls terminated after) :
    Inside caller before calls := by
  have hsound := sound_of_reached hreached
  have hguarantees := @terminate_guarantees caller runDir before.run
    before.Exited hsound.running
  obtain ⟨hcalls, -⟩ := hguarantees _ _ _ _ ⟨hsound, id⟩ hcall
  exact ⟨fun call hmem => (hcalls call hmem).own,
    fun hexited call hmem => (hcalls call hmem).exited hexited⟩

/-- The engine of a run that is attached is signalled, as its group is. -/
theorem terminate_staysInside_attached :
    Inside frontend ⟨worldAfter registered, .attach "run"⟩
      [⟨.readMeta "run", worldAfter registered⟩,
        ⟨.pidAlive (some 4242), worldAfter registered⟩,
        ⟨.killpg 4242, worldAfter registered⟩] :=
  terminate_staysInside reached_registered
    (runsIn_terminate_attached frontend (by decide +kernel) (by decide)
      (by decide +kernel) (by rfl))

/-- The process that got the pid of an engine that is long gone is signalled. -/
theorem recycled_pid_signalled :
    ¬ ∀ (before : State) (calls : List (Call signature World))
      (terminated : DeployRun) (after : World),
      Reached frontend "run" (fun _ _ => True) before →
      RunsIn (serve frontend) (Moves (fun _ _ => True) before.run)
        before.run.terminate before.world calls terminated after →
      Inside frontend before calls := by
  intro hall
  have hinside := hall _ _ _ _ reached_recycled runsIn_recycled
  have hmem : stranger ∈ signalled frontend
      ⟨.killpg 4242, worldAfter (registered ++ recycled)⟩ := by
    decide +kernel
  obtain ⟨birth, hrun, hprocess⟩ :=
    hinside.own ⟨.killpg 4242, _⟩ (by simp) _ hmem
  have hengine : (worldAfter (registered ++ recycled)).engine = some 2 := by
    decide +kernel
  have hlauncher : (worldAfter (registered ++ recycled)).launcher = none := by
    decide +kernel
  rw [hengine, hlauncher] at hrun
  rcases hrun with hbirth | hbirth
  · cases hbirth
    revert hprocess
    decide
  · cases hbirth

end Mandala.Runner.Terminate
