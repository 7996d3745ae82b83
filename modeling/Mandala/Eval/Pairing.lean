import Mandala.Eval.Worker
import Mathlib.Data.List.Nodup

/-!
# Every answer belongs to a request of its own call

Ids come from one counter that no worker resets, and the slot is emptied by
every failure, so a line that answers an earlier request is either read by the
call that sent it or by no call at all.
-/

namespace Mandala.Eval

open Mandala.Data Mandala.Transition

variable (host : Host)

/-- The requests a call sent. -/
def requests (call : ℕ) (history : List Event) : List Json :=
  history.filterMap fun
    | .sent caller _ line => if caller = call then some line else none
    | _ => none

/-- The ids of the requests a worker was sent. -/
def requestIds (worker : ℕ) (history : List Event) : List (Option Int) :=
  history.filterMap fun
    | .sent _ receiver line =>
        if receiver = worker then some (requestId line) else none
    | _ => none

/-- What the caller got came from the worker: a value, or an error the worker
reported. -/
def Ending.FromWorker (ending : Ending) : Prop :=
  (∃ value, ending.result host = .ok value) ∨ ∃ reply, ending = .answered reply

/-- The reply has the id of a request the call sent, and is what a line drained
afterwards from the worker it was sent to says. -/
def OwnReply (before : List Event) (call : ℕ) (reply : Reply) : Prop :=
  ∃ id worker line text early late,
    before = early ++ .sent call worker line :: late ∧
    requestId line = some id ∧ reply.id = some id ∧
    .drained worker (.ok text) ∈ late ∧
    host.fromStr (String.ofList (Text.trim text.toList)) = .ok (.object reply)

structure Paired (history : List Event) : Prop where
  answered : ∀ before call ending after,
    history = before ++ .returned call ending :: after →
      ending.FromWorker host →
        ∃ reply, ending = .answered reply ∧ OwnReply host before call reply
  distinct : ∀ worker, (requestIds worker history).Nodup
  bounded : ∀ call, (requests call history).length ≤ 2
  abandoned : history.Pairwise fun earlier later => ∀ worker error,
    earlier = .failed worker error → later.worker ≠ some worker

variable {host}

theorem Ending.FromWorker.answered {ending : Ending}
    (hworker : ending.FromWorker host) : ∃ reply, ending = .answered reply := by
  rcases hworker with ⟨value, hvalue⟩ | hreply
  · obtain ⟨reply, hanswered, -⟩ := answered_of_ok hvalue
    exact ⟨reply, hanswered⟩
  · exact hreply

theorem mem_requestIds {worker : ℕ} {history : List Event} {id : Option Int}
    (hmem : id ∈ requestIds worker history) :
    ∃ call line, .sent call worker line ∈ history ∧ requestId line = id := by
  obtain ⟨event, hevent, hid⟩ := List.mem_filterMap.mp hmem
  cases event with
  | sent call receiver line =>
      simp only [Option.ite_none_right_eq_some, Option.some.injEq] at hid
      exact ⟨call, line, hid.1 ▸ hevent, hid.2⟩
  | drained receiver received => cases hid
  | failed receiver error => cases hid
  | returned call ending => cases hid

theorem requests_append (call : ℕ) (before after : List Event) :
    requests call (before ++ after) =
      requests call before ++ requests call after :=
  List.filterMap_append

theorem requestIds_append (worker : ℕ) (before after : List Event) :
    requestIds worker (before ++ after) =
      requestIds worker before ++ requestIds worker after :=
  List.filterMap_append

/-- Only a request adds to what a call has sent. -/
theorem requests_snoc_of_not_sent {call : ℕ} {history : List Event}
    {event : Event}
    (hother : ∀ caller worker line, event ≠ .sent caller worker line) :
    requests call (history ++ [event]) = requests call history := by
  rw [requests_append]
  cases event with
  | sent caller worker line => exact absurd rfl (hother caller worker line)
  | drained worker received => exact List.append_nil _
  | failed worker error => exact List.append_nil _
  | returned caller ending => exact List.append_nil _

theorem requestIds_snoc_of_not_sent {worker : ℕ} {history : List Event}
    {event : Event}
    (hother : ∀ caller receiver line, event ≠ .sent caller receiver line) :
    requestIds worker (history ++ [event]) = requestIds worker history := by
  rw [requestIds_append]
  cases event with
  | sent caller receiver line => exact absurd rfl (hother caller receiver line)
  | drained receiver received => exact List.append_nil _
  | failed receiver error => exact List.append_nil _
  | returned caller ending => exact List.append_nil _

theorem requests_snoc_sent (call caller worker : ℕ) (history : List Event)
    (line : Json) :
    requests call (history ++ [.sent caller worker line]) =
      requests call history ++ if caller = call then [line] else [] := by
  rw [requests_append]
  by_cases hcaller : caller = call
  · simp [requests, hcaller]
  · simp [requests, hcaller]

theorem requestIds_snoc_sent (worker caller receiver : ℕ)
    (history : List Event) (line : Json) :
    requestIds worker (history ++ [.sent caller receiver line]) =
      requestIds worker history ++
        if receiver = worker then [requestId line] else [] := by
  rw [requestIds_append]
  by_cases hreceiver : receiver = worker
  · simp [requestIds, hreceiver]
  · simp [requestIds, hreceiver]

/-- What a new event owes to those before it. -/
structure Follows (host : Host) (history : List Event) (event : Event) :
    Prop where
  answer : ∀ call ending, event = .returned call ending →
    ending.FromWorker host →
      ∃ reply, ending = .answered reply ∧ OwnReply host history call reply
  request : ∀ call worker line, event = .sent call worker line →
    requestId line ∉ requestIds worker history ∧
      (requests call history).length < 2
  live : ∀ worker error, event.worker = some worker →
    .failed worker error ∉ history

theorem Paired.distinct_snoc {history : List Event} {event : Event}
    (hpaired : Paired host history) (hfollows : Follows host history event)
    (worker : ℕ) : (requestIds worker (history ++ [event])).Nodup := by
  by_cases hsent : ∃ call receiver line, event = .sent call receiver line
  · obtain ⟨call, receiver, line, rfl⟩ := hsent
    rw [requestIds_snoc_sent]
    split
    · next hreceiver =>
        subst hreceiver
        exact List.nodup_append.mpr ⟨hpaired.distinct receiver,
          List.nodup_singleton _, fun id hid other hother => by
            rw [List.mem_singleton.mp hother]
            rintro rfl
            exact (hfollows.request call receiver line rfl).1 hid⟩
    · rw [List.append_nil]
      exact hpaired.distinct worker
  · rw [requestIds_snoc_of_not_sent fun call receiver line heq =>
      hsent ⟨call, receiver, line, heq⟩]
    exact hpaired.distinct worker

theorem Paired.bounded_snoc {history : List Event} {event : Event}
    (hpaired : Paired host history) (hfollows : Follows host history event)
    (call : ℕ) : (requests call (history ++ [event])).length ≤ 2 := by
  by_cases hsent : ∃ caller worker line, event = .sent caller worker line
  · obtain ⟨caller, worker, line, rfl⟩ := hsent
    rw [requests_snoc_sent]
    split
    · next hcaller =>
        subst hcaller
        rw [List.length_append, List.length_singleton]
        exact (hfollows.request caller worker line rfl).2
    · rw [List.append_nil]
      exact hpaired.bounded call
  · rw [requests_snoc_of_not_sent fun caller worker line heq =>
      hsent ⟨caller, worker, line, heq⟩]
    exact hpaired.bounded call

theorem Paired.snoc {history : List Event} {event : Event}
    (hpaired : Paired host history) (hfollows : Follows host history event) :
    Paired host (history ++ [event]) where
  answered before call ending after heq hworker := by
    rcases Transition.snoc_eq_append_cons heq with
      ⟨rfl, hlast, -⟩ | ⟨rest, hrest, -⟩
    · exact hfollows.answer call ending hlast hworker
    · exact hpaired.answered before call ending rest hrest hworker
  distinct := hpaired.distinct_snoc hfollows
  bounded := hpaired.bounded_snoc hfollows
  abandoned := by
    refine List.pairwise_append.mpr ⟨hpaired.abandoned,
      List.pairwise_singleton _ _, ?_⟩
    intro earlier hearlier later hlater worker error hfailed husing
    rw [List.mem_singleton.mp hlater] at husing
    exact hfollows.live worker error husing (hfailed ▸ hearlier)

/-! ## The evaluator keeps it -/

/-- What every state keeps, whatever the call in progress. -/
structure Kept (host : Host) (evaluator : Evaluator) : Prop where
  paired : Paired host evaluator.history
  sent : ∀ call worker line, .sent call worker line ∈ evaluator.history →
    call ≤ evaluator.calls ∧
      ∃ id < evaluator.nextId, requestId line = some (id : Int)
  spawned : ∀ event ∈ evaluator.history, ∀ worker,
    event.worker = some worker → worker < evaluator.spawned
  live : ∀ worker, evaluator.worker = some worker →
    worker.serial < evaluator.spawned ∧
      ∀ error, .failed worker.serial error ∉ evaluator.history

/-- How far the call in progress has come. -/
def InCall (evaluator : Evaluator) : Prop :=
  match evaluator.phase with
  | .idle => True
  | .panicked => True
  | .attempting _ attempt =>
      attempt < 2 ∧
        (requests evaluator.calls evaluator.history).length = attempt
  | .awaiting request attempt id =>
      attempt < 2 ∧
        (requests evaluator.calls evaluator.history).length = attempt + 1 ∧
        requestId (request.line id) = some (id : Int) ∧
        ∃ worker, evaluator.worker = some worker ∧
          .sent evaluator.calls worker.serial (request.line id) ∈
            evaluator.history

/-- An event other than a request that uses no worker but a live one. -/
theorem Kept.record {evaluator : Evaluator} {event : Event}
    (hkept : Kept host evaluator)
    (hfollows : Follows host evaluator.history event)
    (hother : ∀ caller worker line, event ≠ .sent caller worker line)
    (hspawned : ∀ worker, event.worker = some worker →
      worker < evaluator.spawned)
    (hlive : ∀ worker, evaluator.worker = some worker →
      ∀ error, event ≠ .failed worker.serial error) :
    Kept host (evaluator.record event) where
  paired := hkept.paired.snoc hfollows
  sent call worker line hmem := by
    rcases List.mem_append.mp hmem with hold | hnew
    · exact hkept.sent call worker line hold
    · exact absurd (List.mem_singleton.mp hnew).symm (hother call worker line)
  spawned earlier hmem worker hworker := by
    rcases List.mem_append.mp hmem with hold | hnew
    · exact hkept.spawned earlier hold worker hworker
    · rw [List.mem_singleton.mp hnew] at hworker
      exact hspawned worker hworker
  live worker hworker := by
    refine ⟨(hkept.live worker hworker).1, fun error hmem => ?_⟩
    rcases List.mem_append.mp hmem with hold | hnew
    · exact (hkept.live worker hworker).2 error hold
    · exact hlive worker hworker error (List.mem_singleton.mp hnew).symm

theorem Kept.finish {evaluator : Evaluator} {ending : Ending}
    (hkept : Kept host evaluator)
    (hanswer : ending.FromWorker host → ∃ reply, ending = .answered reply ∧
      OwnReply host evaluator.history evaluator.calls reply) :
    Kept host (evaluator.finish ending) := by
  have hrecord : Kept host
      (evaluator.record (.returned evaluator.calls ending)) :=
    hkept.record
      ⟨fun call other heq => by cases heq; exact hanswer, nofun, nofun⟩
      nofun nofun nofun
  exact ⟨hrecord.paired, hrecord.sent, hrecord.spawned, hrecord.live⟩

/-- The slot is emptied and the failure noted. -/
theorem Kept.drop {evaluator : Evaluator} {worker : Worker}
    {error : RoundtripError} (hkept : Kept host evaluator)
    (hworker : evaluator.worker = some worker) :
    Kept host { evaluator.record (.failed worker.serial error) with
      worker := none } := by
  obtain ⟨hspawned, hlive⟩ := hkept.live worker hworker
  have hempty : Kept host { evaluator with worker := none } :=
    ⟨hkept.paired, hkept.sent, hkept.spawned, nofun⟩
  refine hempty.record ⟨nofun, nofun, ?_⟩ nofun ?_ nofun
  · intro serial earlier heq
    cases heq
    exact hlive earlier
  · intro serial heq
    cases heq
    exact hspawned

theorem Kept.giveUp {evaluator : Evaluator} {worker : Worker}
    {request : Request} {attempt : ℕ} {error : RoundtripError}
    (hkept : Kept host evaluator) (hworker : evaluator.worker = some worker)
    (hattempt : attempt < 2)
    (hcount : (requests evaluator.calls evaluator.history).length =
      attempt + 1) :
    Kept host (evaluator.giveUp request attempt worker.serial error) ∧
      InCall (evaluator.giveUp request attempt worker.serial error) := by
  have hdropped : Kept host
      { evaluator.record (.failed worker.serial error) with worker := none } :=
    hkept.drop hworker
  have hsilent (ending : Ending) (hending : ∀ reply, ending ≠ .answered reply) :
      ¬ ending.FromWorker host := by
    intro hfrom
    obtain ⟨reply, heq⟩ := hfrom.answered
    exact hending reply heq
  unfold Evaluator.giveUp
  cases error with
  | timeout bound =>
      exact ⟨hdropped.finish fun hfrom => absurd hfrom (hsilent _ nofun),
        trivial⟩
  | transport why =>
      by_cases hlast : attempt = 1
      · simp only [if_pos hlast]
        exact ⟨hdropped.finish fun hfrom => absurd hfrom (hsilent _ nofun),
          trivial⟩
      · simp only [if_neg hlast]
        refine ⟨⟨hdropped.paired, hdropped.sent, hdropped.spawned,
          hdropped.live⟩, ?_⟩
        refine ⟨by omega, ?_⟩
        exact (congrArg List.length
          (requests_snoc_of_not_sent fun _ _ _ => Event.noConfusion)).trans hcount

/-- The ids a worker was sent are older than the counter. -/
theorem Kept.fresh {evaluator : Evaluator} (hkept : Kept host evaluator)
    (worker : ℕ) :
    some (evaluator.nextId : Int) ∉
      requestIds worker evaluator.history := by
  intro hmem
  obtain ⟨call, line, hsent, hline⟩ := mem_requestIds hmem
  obtain ⟨-, id, hold, hid⟩ := hkept.sent call worker line hsent
  rw [hline] at hid
  have hsame : (evaluator.nextId : Int) = id := Option.some.inj hid
  omega

/-- A new call has sent nothing. -/
theorem Kept.requests_next {evaluator : Evaluator}
    (hkept : Kept host evaluator) :
    requests (evaluator.calls + 1) evaluator.history = [] := by
  apply List.filterMap_eq_nil_iff.mpr
  intro event hmem
  cases event with
  | sent caller worker line =>
      have hcaller := (hkept.sent caller worker line hmem).1
      exact if_neg (by omega)
  | drained worker received => rfl
  | failed worker error => rfl
  | returned caller ending => rfl

theorem keeps_begin {evaluator after : Evaluator} {request : Request}
    (hkept : Kept host evaluator)
    (hstep : evaluator.begin request = some after) :
    Kept host after ∧ InCall after := by
  unfold Evaluator.begin at hstep
  split at hstep
  · cases hstep
    refine ⟨⟨hkept.paired, ?_, hkept.spawned, hkept.live⟩, by decide, ?_⟩
    · intro call worker line hmem
      obtain ⟨hcall, hid⟩ := hkept.sent call worker line hmem
      exact ⟨Nat.le_succ_of_le hcall, hid⟩
    · exact congrArg List.length hkept.requests_next
  · cases hstep

theorem keeps_reload {evaluator after : Evaluator}
    (hkept : Kept host evaluator) (hstep : evaluator.reload = some after) :
    Kept host after ∧ InCall after := by
  unfold Evaluator.reload at hstep
  split at hstep
  · next hphase =>
      cases hstep
      refine ⟨⟨hkept.paired, hkept.sent, hkept.spawned, nofun⟩, ?_⟩
      simp only [InCall, hphase]
  · cases hstep

theorem keeps_spawn {evaluator after : Evaluator} {failure : Option String}
    (hkept : Kept host evaluator) (hcall : InCall evaluator)
    (hstep : evaluator.spawn failure = some after) :
    Kept host after ∧ InCall after := by
  unfold Evaluator.spawn at hstep
  split at hstep
  · cases hstep
    refine ⟨hkept.finish fun hfrom => ?_, trivial⟩
    obtain ⟨reply, heq⟩ := hfrom.answered
    cases heq
  · next hphase hworker =>
      cases hstep
      refine ⟨⟨hkept.paired, hkept.sent, ?_, ?_⟩, ?_⟩
      · intro event hmem worker hused
        exact Nat.lt_succ_of_lt (hkept.spawned event hmem worker hused)
      · intro worker heq
        cases heq
        refine ⟨Nat.lt_succ_self _, fun error hmem => ?_⟩
        exact Nat.lt_irrefl _ (hkept.spawned _ hmem _ rfl)
      · simp only [InCall, hphase] at hcall ⊢
        exact hcall
  · cases hstep

theorem keeps_send {evaluator after : Evaluator} {failure : Option String}
    (hkept : Kept host evaluator) (hcall : InCall evaluator)
    (hstep : evaluator.send failure = some after) :
    Kept host after ∧ InCall after := by
  unfold Evaluator.send at hstep
  split at hstep
  · next request attempt worker hphase hworker =>
      split at hstep
      · next hsize =>
          simp only [InCall, hphase] at hcall
          obtain ⟨hattempt, hcount⟩ := hcall
          obtain ⟨hspawned, hlive⟩ := hkept.live worker hworker
          have hid := requestId_line request (Nat.lt_of_succ_lt hsize)
          have hmore : (requests evaluator.calls (evaluator.history ++
              [.sent evaluator.calls worker.serial
                (request.line evaluator.nextId)])).length = attempt + 1 := by
            rw [requests_snoc_sent, if_pos rfl, List.length_append, hcount]
            rfl
          have hsent : Kept host { evaluator.record (.sent evaluator.calls
              worker.serial (request.line evaluator.nextId)) with
                nextId := evaluator.nextId + 1 } := by
            refine ⟨hkept.paired.snoc ⟨nofun, ?_, ?_⟩, ?_, ?_, ?_⟩
            · intro call serial line heq
              cases heq
              rw [hid, hcount]
              exact ⟨hkept.fresh worker.serial, hattempt⟩
            · intro serial error heq
              cases heq
              exact hlive error
            · intro call serial line hmem
              rcases List.mem_append.mp hmem with hold | hnew
              · obtain ⟨hle, id, hless, hline⟩ :=
                  hkept.sent call serial line hold
                exact ⟨hle, id, Nat.lt_succ_of_lt hless, hline⟩
              · cases List.mem_singleton.mp hnew
                exact ⟨Nat.le_refl _, _, Nat.lt_succ_self _, hid⟩
            · intro event hmem serial hused
              rcases List.mem_append.mp hmem with hold | hnew
              · exact hkept.spawned event hold serial hused
              · cases List.mem_singleton.mp hnew
                cases hused
                exact hspawned
            · intro other hother
              refine ⟨(hkept.live other hother).1, fun error hmem => ?_⟩
              rcases List.mem_append.mp hmem with hold | hnew
              · exact (hkept.live other hother).2 error hold
              · cases List.mem_singleton.mp hnew
          cases failure with
          | some error =>
              cases hstep
              exact hsent.giveUp hworker hattempt hmore
          | none =>
              cases hstep
              refine ⟨⟨hsent.paired, hsent.sent, hsent.spawned, hsent.live⟩,
                hattempt, hmore, hid, worker, hworker, ?_⟩
              exact List.mem_append_right _ (List.mem_singleton_self _)
      · cases hstep
        exact ⟨⟨hkept.paired, hkept.sent, hkept.spawned, hkept.live⟩, trivial⟩
  · cases hstep

/-- A line is taken from the channel. -/
theorem Kept.drain {evaluator : Evaluator} {worker : Worker}
    {received : Except String String} {rest : List (Except String String)}
    (hkept : Kept host evaluator) (hworker : evaluator.worker = some worker) :
    Kept host { evaluator.record (.drained worker.serial received) with
      worker := some { worker with lines := rest } } := by
  obtain ⟨hspawned, hlive⟩ := hkept.live worker hworker
  have hrecord : Kept host
      (evaluator.record (.drained worker.serial received)) :=
    hkept.record
      ⟨nofun, nofun, fun serial error heq => by cases heq; exact hlive error⟩
      nofun (fun serial heq => by cases heq; exact hspawned) nofun
  refine ⟨hrecord.paired, hrecord.sent, hrecord.spawned, ?_⟩
  intro other heq
  cases heq
  exact hrecord.live worker hworker

theorem keeps_receive {evaluator after : Evaluator}
    (hkept : Kept host evaluator) (hcall : InCall evaluator)
    (hstep : evaluator.receive host = some after) :
    Kept host after ∧ InCall after := by
  unfold Evaluator.receive at hstep
  split at hstep
  · next request attempt id worker hphase hworker =>
      simp only [InCall, hphase] at hcall
      obtain ⟨hattempt, hcount, hid, sender, hsender, hsent⟩ := hcall
      rw [hworker] at hsender
      cases hsender
      split at hstep
      · next received rest hlines =>
          have hdrained := @Kept.drain _ _ _ received rest hkept hworker
          split at hstep
          · next reply hread =>
              cases hstep
              obtain ⟨hreply, text, rfl, htext⟩ := readReply_eq_ok hread
              refine ⟨hdrained.finish fun _ => ⟨reply, rfl, ?_⟩, trivial⟩
              obtain ⟨early, late, hsplit⟩ := List.append_of_mem hsent
              refine ⟨id, worker.serial, request.line id, text, early,
                late ++ [.drained worker.serial (.ok text)], ?_, hid, hreply,
                List.mem_append_right _ (List.mem_singleton_self _), htext⟩
              change evaluator.history ++ _ = _
              rw [hsplit, List.append_assoc, List.cons_append]
              rfl
          · next error hread =>
              cases hstep
              have hsame : requests evaluator.calls (evaluator.history ++
                  [.drained worker.serial received]) =
                    requests evaluator.calls evaluator.history :=
                requests_snoc_of_not_sent nofun
              exact @Kept.giveUp _ _ { worker with lines := rest } _ _ _
                hdrained rfl hattempt ((congrArg List.length hsame).trans hcount)
      · split at hstep
        · cases hstep
        · cases hstep
          exact hkept.giveUp hworker hattempt hcount
  · cases hstep

theorem keeps_expire {evaluator after : Evaluator}
    (hkept : Kept host evaluator) (hcall : InCall evaluator)
    (hstep : evaluator.expire = some after) :
    Kept host after ∧ InCall after := by
  unfold Evaluator.expire at hstep
  split at hstep
  · next request attempt id worker bound hphase hworker htimeout =>
      cases hstep
      simp only [InCall, hphase] at hcall
      exact hkept.giveUp hworker hcall.1 hcall.2.1
  · cases hstep

/-- What the worker does on its own touches its channel only. -/
theorem keeps_fill {evaluator : Evaluator} {worker filled : Worker}
    (hkept : Kept host evaluator) (hcall : InCall evaluator)
    (hworker : evaluator.worker = some worker)
    (hserial : filled.serial = worker.serial) :
    Kept host { evaluator with worker := some filled } ∧
      InCall { evaluator with worker := some filled } := by
  refine ⟨⟨hkept.paired, hkept.sent, hkept.spawned, ?_⟩, ?_⟩
  · intro other heq
    cases heq
    rw [hserial]
    exact hkept.live worker hworker
  · unfold InCall at hcall ⊢
    cases hphase : evaluator.phase with
    | idle => trivial
    | panicked => trivial
    | attempting request attempt =>
        simp only [hphase] at hcall ⊢
        exact hcall
    | awaiting request attempt id =>
        simp only [hphase] at hcall ⊢
        obtain ⟨hattempt, hcount, hid, sender, hsender, hsent⟩ := hcall
        rw [hworker] at hsender
        cases hsender
        exact ⟨hattempt, hcount, hid, filled, rfl, hserial ▸ hsent⟩

theorem keeps_act {evaluator after : Evaluator} {label : Label}
    (hkept : Kept host evaluator) (hcall : InCall evaluator)
    (hstep : Step host evaluator label after) :
    Kept host after ∧ InCall after := by
  unfold Step at hstep
  cases label with
  | call request => exact keeps_begin hkept hstep
  | reload => exact keeps_reload hkept hstep
  | spawn failure => exact keeps_spawn hkept hcall hstep
  | send failure => exact keeps_send hkept hcall hstep
  | receive => exact keeps_receive hkept hcall hstep
  | expire => exact keeps_expire hkept hcall hstep
  | workerWrites received =>
      change evaluator.workerWrites received = _ at hstep
      unfold Evaluator.workerWrites at hstep
      split at hstep
      · next worker hworker =>
          split at hstep
          · cases hstep
            exact keeps_fill hkept hcall hworker rfl
          · cases hstep
      · cases hstep
  | workerCloses =>
      change evaluator.workerCloses = _ at hstep
      unfold Evaluator.workerCloses at hstep
      split at hstep
      · next worker hworker =>
          split at hstep
          · cases hstep
            exact keeps_fill hkept hcall hworker rfl
          · cases hstep
      · cases hstep

theorem kept_new (timeout : Option Duration) :
    Kept host (Evaluator.new timeout) where
  paired :=
    { answered := fun before call ending after heq =>
        absurd heq.symm (by simp [Evaluator.new])
      distinct := fun _ => List.nodup_nil
      bounded := fun _ => Nat.zero_le 2
      abandoned := List.Pairwise.nil }
  sent _ _ _ hmem := absurd hmem List.not_mem_nil
  spawned _ hmem := absurd hmem List.not_mem_nil
  live := nofun

theorem Reaches.kept {timeout : Option Duration} {evaluator : Evaluator}
    (hreach : Reaches host timeout evaluator) :
    Kept host evaluator ∧ InCall evaluator := by
  have hinvariant := @Reachable.invariant _ _ (· = Evaluator.new timeout)
    (Step host) anyStep fun state => Kept host state ∧ InCall state
  refine hinvariant ?_ ?_ hreach
  · rintro state rfl
    exact ⟨kept_new timeout, trivial⟩
  · intro before label after hbefore _ hstep
    exact keeps_act hbefore.1 hbefore.2 hstep

def replyText : String := "\x7b\"id\":2,\"ok\":true,\"value\":null\x7d\n"

def sampleHost : Host :=
  { fromStr := fun text =>
      if text.toList ++ ['\n'] = replyText.toList then
        .ok (.object [("id", .int 2), ("ok", .bool true), ("value", .null)])
      else
        .error "expected value at line 1 column 1"
    toStr := fun _ => "null"
    debugStr := fun text => text
    secsF64 := fun _ => "600" }

def restartedRun : List Label :=
  [.call ⟨"aggregate", ".", none, none⟩, .spawn none, .send none,
    .workerCloses, .receive, .spawn none, .send none,
    .workerWrites (.ok replyText), .receive]

end Mandala.Eval
