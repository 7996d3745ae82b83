import Mathlib.Algebra.GroupWithZero.Nat
import Mathlib.Algebra.Ring.Int.Defs
import Mandala.Context.HelloGate

/-!
# The context endpoint and its shutdown

Any number of connections share one counter of unsettled calls.  The shutdown
refuses new connections, waits for the counter to come down to zero or for its
grace to run out, and then closes every connection.
-/

namespace Mandala.Context.Endpoint

open Mandala.Data Mandala.Transition

variable (fromLine : String → Except String Frame)

/-! ## Progress of one connection -/

/-- The steps that bring a frame on its way nearer to its end.  A write that has
begun ends, with or without an error. -/
def ConnLabel.settling : ConnLabel → Prop
  | .readerSends | .callSends _ | .backgroundSends _ | .take | .write _
  | .drain => True
  | _ => False

theorem ConnLabel.settling_cases
    {motive : (label : ConnLabel) → label.settling → Prop}
    (readerSends : motive .readerSends trivial)
    (callSends : ∀ index, motive (.callSends index) trivial)
    (backgroundSends : ∀ index, motive (.backgroundSends index) trivial)
    (take : motive .take trivial) (write : ∀ ok, motive (.write ok) trivial)
    (drain : motive .drain trivial) (label : ConnLabel)
    (hsettling : label.settling) : motive label hsettling := by
  cases label with
  | readerSends => exact readerSends
  | callSends index => exact callSends index
  | backgroundSends index => exact backgroundSends index
  | take => exact take
  | write ok => exact write ok
  | drain => exact drain
  | line | eof | readerStops | callEnds | callPanics | tick | event
  | backgroundEnds | writerStops | leave => exact hsettling.elim

/-- The steps a send still takes, the writer's included. -/
def sendWork (permit : Bool) : ℕ := if permit then 3 else 4

theorem sendWork_pos (permit : Bool) : 0 < sendWork permit := by
  cases permit <;> decide

def CallTask.work (task : CallTask) : ℕ :=
  match task.stage with
  | .dispatching => 0
  | .sending _ permit => sendWork permit

def Background.work (task : Background) : ℕ :=
  match task.sending with
  | some sending => sendWork sending.permit
  | none => 0

namespace Conn

def replyWork (conn : Conn) : ℕ :=
  match conn.reply with
  | some reply => sendWork reply.sending.permit
  | none => 0

def work (conn : Conn) : ℕ :=
  conn.replyWork + (conn.calls.map CallTask.work).sum +
    (conn.background.map Background.work).sum + 2 * conn.queue.length +
      conn.held.length

theorem readerSends_work {conn after : Conn} {delta : Int}
    (hstep : conn.readerSends = some (after, delta)) :
    after.work < conn.work := by
  unfold readerSends at hstep
  split at hstep
  · next reply hreply =>
      have hpos := sendWork_pos reply.sending.permit
      have hspawned :
          (((reply.spawns.map fun kind =>
            ({ kind, sending := none } : Background)).toList).map
              Background.work).sum = 0 := by
        cases reply.spawns <;> rfl
      split at hstep
      · cases hstep
      · cases hstep
        simp only [work, replyWork, replied, held, hreply, List.map_append,
          List.sum_append, hspawned]
        omega
      · next hattempt =>
          cases hstep
          have hfree := attempt_reserved_free hattempt
          simp only [work, replyWork, held, hreply, hfree, sendWork]
          simp
      · next hattempt =>
          cases hstep
          have hpermit := attempt_pushed hattempt
          simp only [work, replyWork, replied, held, hreply, hpermit,
            List.map_append, List.sum_append, hspawned, sendWork,
            List.length_append, List.length_singleton, if_true]
          omega
  · cases hstep

/-- Moving or removing one of the tasks changes the work by that task's. -/
theorem sum_work_set {Task : Type} (weight : Task → ℕ) {tasks : List Task}
    {index : ℕ} {task : Task} (hfound : tasks[index]? = some task)
    (moved : Task) :
    ((tasks.set index moved).map weight).sum + weight task =
      (tasks.map weight).sum + weight moved := by
  obtain ⟨before, after, hsplit, hset, -⟩ := exists_split_of_getElem? hfound
  rw [hset, hsplit]
  simp only [List.map_append, List.map_cons, List.sum_append, List.sum_cons]
  omega

theorem sum_work_erase {Task : Type} (weight : Task → ℕ) {tasks : List Task}
    {index : ℕ} {task : Task} (hfound : tasks[index]? = some task) :
    ((tasks.eraseIdx index).map weight).sum + weight task =
      (tasks.map weight).sum := by
  obtain ⟨before, after, hsplit, -, herase⟩ := exists_split_of_getElem? hfound
  rw [herase, hsplit]
  simp only [List.map_append, List.map_cons, List.sum_append, List.sum_cons]
  omega

theorem callSends_work {conn after : Conn} {index : ℕ} {delta : Int}
    (hstep : conn.callSends index = some (after, delta)) :
    after.work < conn.work := by
  unfold callSends at hstep
  split at hstep
  · next call outcome permit hfound =>
      have hpos := sendWork_pos permit
      have hweight : CallTask.work { call, stage := .sending outcome permit } =
          sendWork permit := rfl
      have herase := sum_work_erase CallTask.work hfound
      have hset := sum_work_set CallTask.work hfound
        { call, stage := .sending outcome true }
      split at hstep
      · cases hstep
      · cases hstep
        simp only [work, replyWork, held]
        omega
      · next hattempt =>
          cases hstep
          rw [hweight, attempt_reserved_free hattempt] at hset
          simp only [CallTask.work, sendWork, if_true, Bool.false_eq_true,
            if_false] at hset
          simp only [work, replyWork, held]
          omega
      · next hattempt =>
          cases hstep
          rw [hweight, attempt_pushed hattempt, sendWork, if_pos rfl] at herase
          simp only [work, replyWork, held, List.length_append,
            List.length_singleton]
          omega
  · cases hstep

theorem backgroundSends_work {conn after : Conn} {index : ℕ} {delta : Int}
    (hstep : conn.backgroundSends index = some (after, delta)) :
    after.work < conn.work := by
  unfold backgroundSends at hstep
  split at hstep
  · next kind sending hfound =>
      have hpos := sendWork_pos sending.permit
      have hweight : Background.work { kind, sending := some sending } =
          sendWork sending.permit := rfl
      have herase := sum_work_erase Background.work hfound
      have hset := sum_work_set Background.work hfound
      split at hstep
      · cases hstep
      · cases hstep
        simp only [work, replyWork, held]
        omega
      · next hattempt =>
          cases hstep
          have hmoved := hset
            { kind, sending := some { sending with permit := true } }
          rw [hweight, attempt_reserved_free hattempt] at hmoved
          simp only [Background.work, sendWork, if_true, Bool.false_eq_true,
            if_false] at hmoved
          simp only [work, replyWork, held]
          omega
      · next hattempt =>
          cases hstep
          have hmoved := hset { kind, sending := none }
          rw [hweight, attempt_pushed hattempt, sendWork, if_pos rfl] at hmoved
          simp only [Background.work] at hmoved
          simp only [work, replyWork, held, List.length_append,
            List.length_singleton]
          omega
  · cases hstep

/-- Every settling step uses up work. -/
theorem settling_work {conn after : Conn} {shared : Shared}
    {label : ConnLabel} {delta : Int} (hsettling : label.settling)
    (hstep : conn.act fromLine shared label = some (after, delta)) :
    after.work < conn.work := by
  cases label, hsettling using ConnLabel.settling_cases with
  | readerSends => exact readerSends_work hstep
  | callSends index => exact callSends_work hstep
  | backgroundSends index => exact backgroundSends_work hstep
  | take =>
      change conn.take = _ at hstep
      unfold take at hstep
      split at hstep
      · next frame rest hwriter hqueue =>
          cases hstep
          simp only [work, replyWork, held, hwriter, hqueue, List.length_cons,
            List.length_nil]
          omega
      · cases hstep
  | write ok =>
      change conn.write ok = _ at hstep
      unfold write at hstep
      split at hstep
      · next frame hwriter =>
          cases hstep
          simp only [work, replyWork, held, hwriter, List.length_cons,
            List.length_nil]
          omega
      · cases hstep
  | drain =>
      change conn.drain = _ at hstep
      unfold drain at hstep
      split at hstep
      · next frame rest hwriter hqueue =>
          cases hstep
          simp only [work, replyWork, held, hwriter, hqueue,
            List.length_cons, List.length_nil]
          omega
      · cases hstep

/-- Some settling step can be taken. -/
def CanSettle (shared : Shared) (conn : Conn) : Prop :=
  ∃ label, label.settling ∧ (conn.act fromLine shared label).isSome

theorem attempt_permit (conn : Conn) : conn.attempt true = .pushed := rfl

theorem canSettle_of_call {shared : Shared} {conn : Conn} {index : ℕ}
    {call : Call} {outcome : Outcome} {permit : Bool}
    (hfound : conn.calls[index]? =
      some { call, stage := .sending outcome permit })
    (hattempt : conn.attempt permit ≠ .waits) :
    CanSettle fromLine shared conn := by
  refine ⟨.callSends index, trivial, ?_⟩
  change (conn.callSends index).isSome
  simp only [callSends, hfound]
  cases hcase : conn.attempt permit with
  | waits => exact absurd hcase hattempt
  | refused => rfl
  | reserved => rfl
  | pushed => rfl

/-- Who has reserved a place can put its frame there. -/
theorem canSettle_of_permit {shared : Shared} {conn : Conn}
    (hpermits : 0 < conn.permits) : CanSettle fromLine shared conn := by
  by_cases hreply : conn.replyHasPermit = true
  · refine ⟨.readerSends, trivial, ?_⟩
    change conn.readerSends.isSome
    unfold replyHasPermit at hreply
    cases hsome : conn.reply with
    | none => simp [hsome] at hreply
    | some reply =>
        simp only [hsome] at hreply
        simp [readerSends, hsome, hreply, attempt_permit]
  · by_cases hcalls : 0 < conn.calls.countP CallTask.hasPermit
    · obtain ⟨⟨call, stage⟩, hmem, hpermit⟩ := List.countP_pos_iff.mp hcalls
      obtain ⟨index, hfound⟩ := List.getElem?_of_mem hmem
      cases stage with
      | dispatching => cases hpermit
      | sending outcome permit =>
          change permit = true at hpermit
          apply canSettle_of_call fromLine hfound
          rw [hpermit, attempt_permit]
          exact Attempt.noConfusion
    · have hbackground : 0 < conn.background.countP Background.hasPermit := by
        have hnone : conn.replyHasPermit = false := Bool.eq_false_iff.mpr hreply
        rw [permits, hnone, Bool.toNat_false] at hpermits
        omega
      obtain ⟨⟨kind, sending⟩, hmem, hpermit⟩ :=
        List.countP_pos_iff.mp hbackground
      obtain ⟨index, hfound⟩ := List.getElem?_of_mem hmem
      cases sending with
      | none => cases hpermit
      | some sending =>
          change sending.permit = true at hpermit
          refine ⟨.backgroundSends index, trivial, ?_⟩
          change (conn.backgroundSends index).isSome
          simp [backgroundSends, hfound, hpermit, attempt_permit]

/-- A result that waits for room waits for frames ahead of it. -/
theorem canSettle_of_waiting {shared : Shared} {conn : Conn} {permit : Bool}
    (hqueue : conn.queue = []) (hattempt : conn.attempt permit = .waits) :
    CanSettle fromLine shared conn := by
  apply canSettle_of_permit fromLine
  have hfull : conn.hasRoom = false := by
    unfold attempt at hattempt
    grind
  rw [hasRoom, hqueue, List.length_nil, Nat.zero_add, decide_eq_false_iff_not,
    Nat.not_lt] at hfull
  exact Nat.lt_of_lt_of_le (by decide) hfull

/-- The task of a call whose dispatch has ended is sending. -/
theorem canSettle_of_calls {shared : Shared} {conn : Conn}
    (hended : ∀ task ∈ conn.calls, task.stage ≠ .dispatching)
    (hcalls : conn.calls ≠ [])
    (hready : ∀ permit, conn.attempt permit = .waits →
      CanSettle fromLine shared conn) :
    CanSettle fromLine shared conn := by
  obtain ⟨⟨call, stage⟩, rest, hsplit⟩ := List.exists_cons_of_ne_nil hcalls
  have hfound : conn.calls[0]? = some (CallTask.mk call stage) := by simp [hsplit]
  cases stage with
  | dispatching =>
      exact absurd rfl (hended _ (List.mem_of_getElem? hfound))
  | sending outcome permit =>
      by_cases hattempt : conn.attempt permit = .waits
      · exact hready permit hattempt
      · exact canSettle_of_call fromLine hfound hattempt

/-- As long as results are in progress and every dispatch has ended, some step
brings one of them nearer to its end. -/
theorem Sound.canSettle {shared : Shared} {conn : Conn}
    (hsound : Sound fromLine shared conn)
    (hended : ∀ task ∈ conn.calls, task.stage ≠ .dispatching)
    (hprogress : conn.inProgress ≠ []) : CanSettle fromLine shared conn := by
  have hclosed (hshut : conn.closed = true) (permit : Bool)
      (hattempt : conn.attempt permit = .waits) :
      CanSettle fromLine shared conn := by
    unfold attempt at hattempt
    grind
  cases hwriter : conn.writer with
  | holding frame =>
      refine ⟨.write true, trivial, ?_⟩
      change (conn.write true).isSome
      simp [Conn.write, hwriter]
  | receiving =>
      cases hqueue : conn.queue with
      | cons frame rest =>
          refine ⟨.take, trivial, ?_⟩
          change conn.take.isSome
          simp [Conn.take, hwriter, hqueue]
      | nil =>
          apply canSettle_of_calls fromLine hended
          · intro hcalls
            simp [inProgress, held, hcalls, hwriter, hqueue] at hprogress
          · intro permit hattempt
            exact canSettle_of_waiting fromLine hqueue hattempt
  | draining =>
      have hshut : conn.closed = true := by rw [Conn.closed, hwriter]
      cases hqueue : conn.queue with
      | cons frame rest =>
          refine ⟨.drain, trivial, ?_⟩
          change conn.drain.isSome
          simp [Conn.drain, hwriter, hqueue]
      | nil =>
          apply canSettle_of_calls fromLine hended
          · intro hcalls
            simp [inProgress, held, hcalls, hwriter, hqueue] at hprogress
          · exact hclosed hshut
  | gone =>
      obtain ⟨hqueue, -⟩ := hsound.gone hwriter
      apply canSettle_of_calls fromLine hended
      · intro hcalls
        simp [inProgress, held, hcalls, hwriter, hqueue] at hprogress
      · exact hclosed (closed_of_gone hwriter)

/-- A settling step starts no dispatch. -/
theorem settling_ended {conn after : Conn} {shared : Shared}
    {label : ConnLabel} {delta : Int} (hsettling : label.settling)
    (hstep : conn.act fromLine shared label = some (after, delta))
    (hended : ∀ task ∈ conn.calls, task.stage ≠ .dispatching) :
    ∀ task ∈ after.calls, task.stage ≠ .dispatching := by
  cases label, hsettling using ConnLabel.settling_cases with
  | readerSends =>
      change conn.readerSends = _ at hstep
      unfold readerSends at hstep
      split at hstep
      · split at hstep <;> cases hstep <;> exact hended
      · cases hstep
  | callSends index =>
      change conn.callSends index = _ at hstep
      unfold callSends at hstep
      split at hstep
      · split at hstep
        · cases hstep
        · cases hstep
          exact fun task hmem => hended task (List.mem_of_mem_eraseIdx hmem)
        · cases hstep
          intro task hmem
          rcases List.mem_or_eq_of_mem_set hmem with hold | rfl
          · exact hended task hold
          · exact Stage.noConfusion
        · cases hstep
          exact fun task hmem => hended task (List.mem_of_mem_eraseIdx hmem)
      · cases hstep
  | backgroundSends index =>
      change conn.backgroundSends index = _ at hstep
      unfold backgroundSends at hstep
      split at hstep
      · split at hstep <;> cases hstep <;> exact hended
      · cases hstep
  | take =>
      change conn.take = _ at hstep
      unfold take at hstep
      split at hstep
      · cases hstep
        exact hended
      · cases hstep
  | write ok =>
      change conn.write ok = _ at hstep
      unfold write at hstep
      split at hstep
      · cases hstep
        exact hended
      · cases hstep
  | drain =>
      change conn.drain = _ at hstep
      unfold drain at hstep
      split at hstep
      · cases hstep
        exact hended
      · cases hstep

theorem orderly_of_settling {conn : Conn} {label : ConnLabel}
    (hsettling : label.settling) : conn.Orderly label := by
  cases label, hsettling using ConnLabel.settling_cases <;> trivial

/-! ## The count of one connection -/

/-- Every accepted call is answered, given up or in progress. -/
def Counted (conn : Conn) : Prop :=
  ∀ id, conn.acceptedIds.count id =
    conn.writtenIds.count id + conn.abandoned.count id +
      conn.inProgress.count id

theorem Counted.step {conn after : Conn} {label : ConnLabel} {delta : Int}
    (hcounted : conn.Counted) (haccounts : Accounts conn after delta label)
    (horderly : conn.Orderly label) : after.Counted := by
  obtain ⟨took, wrote, gaveUp, lost, hmoves, -, hlost⟩ := haccounts.moves
  have hnone : lost = [] := by
    apply hlost
    rintro index rfl
    exact horderly
  intro id
  have hbefore := hcounted id
  have hprogress := hmoves.inProgress id
  rw [hnone, List.count_nil] at hprogress
  rw [hmoves.accepted, hmoves.written, hmoves.abandoned, List.count_append,
    List.count_append, List.count_append]
  omega

theorem Counted.awaiting_eq {conn : Conn} (hcounted : conn.Counted) :
    conn.awaiting = conn.inProgress.length := by
  have hperm : conn.acceptedIds.Perm
      (conn.writtenIds ++ (conn.abandoned ++ conn.inProgress)) := by
    rw [List.perm_iff_count]
    intro id
    rw [hcounted id, List.count_append, List.count_append, Nat.add_assoc]
  have hlength := hperm.length_eq
  rw [List.length_append, List.length_append] at hlength
  unfold awaiting
  omega

/-- The counter moves with the number of calls that wait, whatever the step. -/
theorem Accounts.awaiting {conn after : Conn} {label : ConnLabel} {delta : Int}
    (haccounts : Accounts conn after delta label) :
    after.awaiting = conn.awaiting + delta := by
  obtain ⟨took, wrote, gaveUp, lost, hmoves, hdelta, -⟩ := haccounts.moves
  simp only [Conn.awaiting, hmoves.accepted, hmoves.written, hmoves.abandoned,
    List.length_append]
  omega

/-- A new token and the shutdown leave a connection as it was. -/
theorem Sound.mono {shared later : Shared} {conn : Conn}
    (hsound : Sound fromLine shared conn) (hflake : later.flake = shared.flake)
    (hshutdown : shared.shutdown = true → later.shutdown = true) :
    Sound fromLine later conn where
  gate hnone := by
    rw [hflake]
    exact hsound.gate hnone
  greeting := hsound.greeting
  closed hclosed := (hsound.closed hclosed).imp_left hshutdown
  abandoned hsome := (hsound.abandoned hsome).imp_right hshutdown
  gone := hsound.gone

end Conn

/-! ## The host -/

structure RunningHost where
  shared : Shared
  /-- Connections are accepted and dropped before the hello. -/
  refusing : Bool
  unsettled : Int
  conns : List Conn

inductive Label where
  | connect
  | rotateToken (fresh : String)
  | refuse
  | close (expired : Bool)
  | drop
  | conn (index : ℕ) (label : ConnLabel)

namespace RunningHost

def actConn (host : RunningHost) (index : ℕ) (label : ConnLabel) :
    Option RunningHost :=
  match host.conns[index]? with
  | some conn =>
      match conn.act fromLine host.shared label with
      | some (after, delta) =>
          some { host with
            unsettled := host.unsettled + delta
            conns := host.conns.set index after }
      | none => none
  | none => none

/-- A refused connection is dropped before it is served. -/
def accept (host : RunningHost) : Option RunningHost :=
  if host.refusing ∨ host.shared.shutdown then none
  else some { host with conns := host.conns ++ [Conn.new] }

/-- `shutdown` closes the connections once nothing is unsettled or its grace has
expired. -/
def close (host : RunningHost) (expired : Bool) : Option RunningHost :=
  if host.refusing ∧ (host.unsettled = 0 ∨ expired) then
    some { host with shared := { host.shared with shutdown := true } }
  else none

def act (host : RunningHost) : Label → Option RunningHost
  | .connect => host.accept
  | .rotateToken fresh =>
      some { host with shared := { host.shared with token := fresh } }
  | .refuse => some { host with refusing := true }
  | .close expired => host.close expired
  | .drop => some { host with shared := { host.shared with shutdown := true } }
  | .conn index label => host.actConn fromLine index label

def step (before : RunningHost) (label : Label) (after : RunningHost) : Prop :=
  before.act fromLine label = some after

/-- `RunningHost::start`. -/
def start (host : RunningHost) : Prop :=
  host.shared.shutdown = false ∧ host.refusing = false ∧
    host.unsettled = 0 ∧ host.conns = []

/-- What the steps of the connections have to observe. -/
def Orderly (host : RunningHost) : Label → Prop
  | .conn index label =>
      ∀ conn, host.conns[index]? = some conn → conn.Orderly label
  | _ => True

/-- Every dispatch has ended. -/
def Ended (host : RunningHost) : Prop :=
  ∀ conn ∈ host.conns, ∀ task ∈ conn.calls, task.stage ≠ .dispatching

/-- The host brings a frame on its way nearer to its end. -/
def Settles (before after : RunningHost) : Prop :=
  ∃ index label, label.settling ∧
    step fromLine before (.conn index label) after

/-- What the endpoint owes its clients. -/
structure Serves (host : RunningHost) : Prop where
  /-- Without a hello nothing is dispatched and one error frame at most is
  written. -/
  gate : ∀ conn ∈ host.conns, conn.greeted = none →
    conn.accepted = [] ∧ conn.calls = [] ∧
      conn.written.Sublist [unauthorizedFrame host.shared.flake]
  greeting : ∀ conn ∈ host.conns, ∀ text token,
    conn.greeted = some (text, token) →
      ∃ v client flake, fromLine text = .ok (.hello v token client flake)
  answers : ∀ conn ∈ host.conns, conn.Counted
  abandons : ∀ conn ∈ host.conns, conn.abandoned ≠ [] →
    conn.broken ∨ host.shared.shutdown
  unsettled : host.unsettled = (host.conns.map Conn.awaiting).sum
  nonnegative : 0 ≤ host.unsettled
  settled : host.unsettled = 0 → ∀ conn ∈ host.conns, conn.inProgress = []
  drains : host.Ended →
    Inevitable (Settles fromLine) (fun later => later.unsettled = 0) host

/-! ## Runs -/

structure Sound (host : RunningHost) : Prop where
  conns : ∀ conn ∈ host.conns, Conn.Sound fromLine host.shared conn
  counted : ∀ conn ∈ host.conns, conn.Counted
  unsettled : host.unsettled = (host.conns.map Conn.awaiting).sum

theorem Sound.start {host : RunningHost} (hstart : host.start) :
    Sound fromLine host := by
  obtain ⟨-, -, hunsettled, hconns⟩ := hstart
  constructor
  · simp [hconns]
  · simp [hconns]
  · simp [hconns, hunsettled]

theorem sum_awaiting_set {conns : List Conn} {index : ℕ} {conn after : Conn}
    {delta : Int} (hfound : conns[index]? = some conn)
    (hawaiting : after.awaiting = conn.awaiting + delta) :
    ((conns.set index after).map Conn.awaiting).sum =
      (conns.map Conn.awaiting).sum + delta := by
  obtain ⟨before, later, hsplit, hset, -⟩ := exists_split_of_getElem? hfound
  rw [hset, hsplit]
  simp only [List.map_append, List.map_cons, List.sum_append, List.sum_cons,
    hawaiting]
  omega

theorem actConn_eq_some {host after : RunningHost} {index : ℕ}
    {label : ConnLabel} (hstep : host.actConn fromLine index label = some after) :
    ∃ conn moved delta, host.conns[index]? = some conn ∧
      conn.act fromLine host.shared label = some (moved, delta) ∧
      after = { host with
        unsettled := host.unsettled + delta
        conns := host.conns.set index moved } := by
  unfold actConn at hstep
  split at hstep
  · next conn hfound =>
      split at hstep
      · next moved delta hact =>
          exact ⟨conn, moved, delta, hfound, hact, (Option.some.inj hstep).symm⟩
      · cases hstep
  · cases hstep

theorem Sound.conn_step {host after : RunningHost} {index : ℕ}
    {label : ConnLabel} (hsound : Sound fromLine host)
    (horderly : host.Orderly (.conn index label))
    (hstep : host.actConn fromLine index label = some after) :
    Sound fromLine after := by
  obtain ⟨conn, moved, delta, hfound, hact, rfl⟩ :=
    actConn_eq_some fromLine hstep
  have hmem := List.mem_of_getElem? hfound
  have hlabel := horderly conn hfound
  have haccounts := Conn.act_accounts fromLine hact
  constructor
  · intro other hother
    rcases List.mem_or_eq_of_mem_set hother with hold | rfl
    · exact hsound.conns other hold
    · exact (hsound.conns conn hmem).act fromLine hlabel hact
  · intro other hother
    rcases List.mem_or_eq_of_mem_set hother with hold | rfl
    · exact hsound.counted other hold
    · exact (hsound.counted conn hmem).step haccounts hlabel
  · rw [sum_awaiting_set hfound haccounts.awaiting, ← hsound.unsettled]

theorem Sound.step {host after : RunningHost} {label : Label}
    (hsound : Sound fromLine host) (horderly : host.Orderly label)
    (hstep : RunningHost.step fromLine host label after) :
    Sound fromLine after := by
  cases label with
  | connect =>
      change host.accept = _ at hstep
      unfold accept at hstep
      split at hstep
      · cases hstep
      · cases hstep
        constructor
        · intro conn hmem
          rcases List.mem_append.mp hmem with hold | hnew
          · exact hsound.conns conn hold
          · rw [List.mem_singleton.mp hnew]
            exact Conn.Sound.new fromLine host.shared
        · intro conn hmem
          rcases List.mem_append.mp hmem with hold | hnew
          · exact hsound.counted conn hold
          · rw [List.mem_singleton.mp hnew]
            intro id
            rfl
        · rw [List.map_append, List.sum_append, ← hsound.unsettled]
          exact (Int.add_zero _).symm
  | rotateToken fresh =>
      cases hstep
      exact ⟨fun conn hmem => (hsound.conns conn hmem).mono fromLine rfl id,
        hsound.counted, hsound.unsettled⟩
  | refuse =>
      cases hstep
      exact ⟨hsound.conns, hsound.counted, hsound.unsettled⟩
  | close expired =>
      change host.close expired = _ at hstep
      unfold close at hstep
      split at hstep
      · cases hstep
        exact ⟨fun conn hmem =>
          (hsound.conns conn hmem).mono fromLine rfl fun _ => rfl,
          hsound.counted, hsound.unsettled⟩
      · cases hstep
  | drop =>
      cases hstep
      exact ⟨fun conn hmem =>
        (hsound.conns conn hmem).mono fromLine rfl fun _ => rfl,
        hsound.counted, hsound.unsettled⟩
  | conn index label => exact hsound.conn_step fromLine horderly hstep

/-- The counter is the number of results in progress, over all connections. -/
theorem Sound.unsettled_eq {host : RunningHost} (hsound : Sound fromLine host) :
    host.unsettled =
      ((host.conns.map fun conn => conn.inProgress.length).sum : ℕ) := by
  rw [hsound.unsettled]
  have hcounted := hsound.counted
  generalize host.conns = conns at hcounted
  induction conns with
  | nil => rfl
  | cons conn conns ih =>
      rw [List.map_cons, List.sum_cons, List.map_cons, List.sum_cons,
        (hcounted conn List.mem_cons_self).awaiting_eq,
        ih fun other hmem => hcounted other (List.mem_cons_of_mem _ hmem)]
      omega

theorem Sound.settled {host : RunningHost} (hsound : Sound fromLine host)
    (hzero : host.unsettled = 0) {conn : Conn} (hmem : conn ∈ host.conns) :
    conn.inProgress = [] := by
  have hsum : (host.conns.map fun conn => conn.inProgress.length).sum = 0 := by
    have heq := hsound.unsettled_eq
    omega
  obtain ⟨before, after, hsplit⟩ := List.append_of_mem hmem
  rw [hsplit, List.map_append, List.map_cons, List.sum_append,
    List.sum_cons] at hsum
  exact List.eq_nil_of_length_eq_zero (by omega)

def work (host : RunningHost) : ℕ := (host.conns.map Conn.work).sum

/-- A settling step keeps the account, starts no dispatch and uses up work. -/
theorem Sound.settles {host after : RunningHost} (hsound : Sound fromLine host)
    (hended : host.Ended) (hstep : Settles fromLine host after) :
    (Sound fromLine after ∧ after.Ended) ∧ after.work < host.work := by
  obtain ⟨index, label, hsettling, hstep⟩ := hstep
  have horderly : host.Orderly (.conn index label) :=
    fun _ _ => Conn.orderly_of_settling hsettling
  have hafter : Sound fromLine after := hsound.step fromLine horderly hstep
  refine ⟨⟨hafter, ?_⟩, ?_⟩
  · obtain ⟨conn, moved, delta, hfound, hact, rfl⟩ :=
      actConn_eq_some fromLine hstep
    intro other hother
    rcases List.mem_or_eq_of_mem_set hother with hold | rfl
    · exact hended other hold
    · exact Conn.settling_ended fromLine hsettling hact
        (hended conn (List.mem_of_getElem? hfound))
  · obtain ⟨conn, moved, delta, hfound, hact, rfl⟩ :=
      actConn_eq_some fromLine hstep
    have hless := Conn.settling_work fromLine hsettling hact
    have hsum := Conn.sum_work_set Conn.work hfound moved
    simp only [work]
    omega

theorem Sound.settles_enabled {host : RunningHost}
    (hsound : Sound fromLine host) (hended : host.Ended) :
    host.unsettled = 0 ∨ ∃ after, Settles fromLine host after := by
  by_cases hprogress : ∀ conn ∈ host.conns, conn.inProgress = []
  · left
    have hzero (conns : List Conn)
        (hnone : ∀ conn ∈ conns, conn.inProgress = []) :
        (conns.map fun conn => conn.inProgress.length).sum = 0 := by
      rw [List.sum_eq_zero_iff_forall_eq_nat]
      intro amount hmem
      obtain ⟨conn, hconn, rfl⟩ := List.mem_map.mp hmem
      rw [hnone conn hconn, List.length_nil]
    rw [hsound.unsettled_eq, hzero host.conns hprogress]
    rfl
  · right
    push Not at hprogress
    obtain ⟨conn, hmem, hsome⟩ := hprogress
    obtain ⟨index, hfound⟩ := List.getElem?_of_mem hmem
    obtain ⟨label, hsettling, hact⟩ :=
      (hsound.conns conn hmem).canSettle fromLine (hended conn hmem) hsome
    obtain ⟨⟨moved, delta⟩, hact⟩ := Option.isSome_iff_exists.mp hact
    refine ⟨{ host with
      unsettled := host.unsettled + delta
      conns := host.conns.set index moved }, index, label, hsettling, ?_⟩
    change host.actConn fromLine index label = _
    simp only [actConn, hfound, hact]

theorem Sound.serves {host : RunningHost} (hsound : Sound fromLine host) :
    Serves fromLine host where
  gate conn hmem hnone := by
    have hgate := (hsound.conns conn hmem).gate hnone
    exact ⟨hgate.accepted, hgate.calls,
      (List.sublist_append_left conn.written _).trans hgate.outgoing⟩
  greeting conn hmem := (hsound.conns conn hmem).greeting
  answers := hsound.counted
  abandons conn hmem := (hsound.conns conn hmem).abandoned
  unsettled := hsound.unsettled
  nonnegative := by
    rw [hsound.unsettled_eq]
    exact Int.natCast_nonneg _
  settled hzero conn hmem := hsound.settled fromLine hzero hmem
  drains hended := by
    let draining (host : RunningHost) : Prop := Sound fromLine host ∧ host.Ended
    have hstart : draining host := ⟨hsound, hended⟩
    have hstep (before after : RunningHost) (hbefore : draining before)
        (hsettles : Settles fromLine before after) :
        draining after ∧ after.work < before.work :=
      hbefore.1.settles fromLine hbefore.2 hsettles
    have henabled (later : RunningHost) (hlater : draining later) :
        later.unsettled = 0 ∨ ∃ after, Settles fromLine later after :=
      hlater.1.settles_enabled fromLine hlater.2
    exact Inevitable.of_measure work hstep henabled hstart

/-- The endpoint serves its clients in every run in which no dispatch panics and
no writer goes while a call's task has reserved a place in the channel. -/
theorem serves_of_orderly {host : RunningHost}
    (hreach : Reachable start (step fromLine) Orderly host) :
    Serves fromLine host := by
  have hsound : Sound fromLine host :=
    hreach.invariant (fun _ hstart => Sound.start fromLine hstart)
      fun _ _ _ hbefore horderly hstep =>
        hbefore.step fromLine horderly hstep
  exact hsound.serves fromLine

/-! ## One call that ends and one that panics -/

def helloLine : String :=
  "\x7b\"type\":\"hello\",\"v\":1,\"token\":\"t\",\"client\":\"cli\",\"flake\":\"/f\"\x7d"

def callLine : String :=
  "\x7b\"type\":\"call\",\"id\":7,\"tool\":\"ping\"\x7d"

def fromSampleLine (line : String) : Except String Frame :=
  if line = helloLine then .ok (.hello 1 "t" "cli" "/f")
  else if line = callLine then .ok (.call 7 "ping" ∅)
  else .error "expected value at line 1 column 1"

def idleHost : RunningHost :=
  { shared := { token := "t", flake := "/f", pid := 1, shutdown := false }
    refusing := false, unsettled := 0, conns := [] }

/-- A client says hello, is welcomed and calls. -/
def oneCall : List Label :=
  [.connect, .conn 0 (.line helloLine), .conn 0 .readerSends,
    .conn 0 .readerSends, .conn 0 .take, .conn 0 (.write true),
    .conn 0 (.line callLine)]

def answer : List Label :=
  [.conn 0 (.callEnds 0 (.ok .null)), .conn 0 (.callSends 0),
    .conn 0 (.callSends 0), .conn 0 .take, .conn 0 (.write true)]

/-- A step that is orderly whatever the state. -/
def ordinary : Label → Bool
  | .conn _ (.callPanics _) | .conn _ .leave => false
  | _ => true

theorem orderly_of_ordinary {label : Label} (hordinary : ordinary label)
    (host : RunningHost) : host.Orderly label := by
  cases label with
  | conn index label =>
      intro conn _
      cases label with
      | callPanics index => cases hordinary
      | leave => cases hordinary
      | _ => trivial
  | _ => trivial

/-- The calls of the one connection: taken up, answered and in progress, with the
counter. -/
def ledger (host : RunningHost) : List (List ℕ × List ℕ × List ℕ) × Int :=
  (host.conns.map fun conn =>
    (conn.acceptedIds, conn.writtenIds, conn.inProgress), host.unsettled)

theorem answeredCall_serves :
    ∃ host, ledger host = ([([7], [7], [])], 0) ∧
      Serves fromSampleLine host := by
  have hrun : ((oneCall ++ answer).foldlM
      (fun host label =>
        if ordinary label then host.act fromSampleLine label else none)
      idleHost).any (fun host => ledger host = ([([7], [7], [])], 0)) = true := by
    decide +kernel
  obtain ⟨host, hhost, hledger⟩ := (Option.any_eq_true _ _).mp hrun
  have hreach : Reachable start (step fromSampleLine) Orderly host := by
    apply Reachable.foldlM ?_ (Reachable.initial ⟨rfl, rfl, rfl, rfl⟩) hhost
    intro before label after hact
    split at hact
    · next hordinary => exact ⟨orderly_of_ordinary hordinary before, hact⟩
    · cases hact
  exact ⟨host, of_decide_eq_true hledger,
    serves_of_orderly fromSampleLine hreach⟩

/-- The dispatch panics: the call is never answered on an open connection, and
the counter stays at one with nothing in progress. -/
theorem panickedCall_reachable :
    ∃ host, Reachable start (step fromSampleLine) anyStep host ∧
      ledger host = ([([7], [], [])], 1) ∧ host.Ended ∧
      (∀ conn ∈ host.conns, conn.broken = false) ∧
      host.shared.shutdown = false ∧ ¬ Serves fromSampleLine host := by
  have hrun : ((oneCall ++ [Label.conn 0 (.callPanics 0)]).foldlM
      (RunningHost.act fromSampleLine) idleHost).any
        (fun host => ledger host = ([([7], [], [])], 1) &&
          host.conns.all (fun conn => conn.calls.isEmpty && !conn.broken) &&
          !host.shared.shutdown) = true := by
    decide +kernel
  obtain ⟨host, hhost, hcheck⟩ := (Option.any_eq_true _ _).mp hrun
  simp only [Bool.and_eq_true, decide_eq_true_eq, List.all_eq_true,
    List.isEmpty_iff, Bool.not_eq_true'] at hcheck
  obtain ⟨⟨hledger, hconns⟩, hshutdown⟩ := hcheck
  have hreach : Reachable start (step fromSampleLine) anyStep host :=
    Reachable.foldlM (fun _ _ _ hact => ⟨trivial, hact⟩)
      (Reachable.initial ⟨rfl, rfl, rfl, rfl⟩) hhost
  have hended : host.Ended := by
    intro conn hmem task htask
    rw [(hconns conn hmem).1] at htask
    cases htask
  refine ⟨host, hreach, hledger, hended, fun conn hmem => (hconns conn hmem).2,
    hshutdown, ?_⟩
  intro hserves
  obtain ⟨conn, hsingle, hentry⟩ :=
    List.map_eq_singleton_iff.mp (Prod.mk.inj hledger).1
  have hmem : conn ∈ host.conns := by simp [hsingle]
  have hkept : conn.abandoned = [] := by
    by_contra hsome
    rcases hserves.abandons conn hmem hsome with hbroken | hclosed
    · rw [(hconns conn hmem).2] at hbroken
      cases hbroken
    · rw [hshutdown] at hclosed
      cases hclosed
  have hcounted := hserves.answers conn hmem 7
  simp only [Prod.mk.injEq] at hentry
  obtain ⟨haccepted, hwritten, hprogress⟩ := hentry
  rw [haccepted, hwritten, hprogress, hkept] at hcounted
  cases hcounted

end RunningHost

end Mandala.Context.Endpoint
