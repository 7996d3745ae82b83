import Mandala.Eval.Served

/-!
# What a caller of the worker is answered

Between two calls nothing is on its way.  During a call it is the request, the
response or what a dying worker left of it, so what a caller is answered is what
its own request was evaluated to, after all that this worker was asked before.
-/

namespace Mandala.Eval

open Mandala.Data Mandala.Transition

variable {σ : Type} (service : Service σ)

/-! ## What a history has to meet -/

/-- Why a worker is given up. -/
inductive Lost : RoundtripError → Prop where
  | unwritten (error : String) : Lost (.transport s!"write: {error}")
  | unread (error : String) : Lost (.transport s!"read: {error}")
  | ended : Lost (.transport "worker closed stdout")
  | silent (bound : Duration) : Lost (.timeout bound)
  | torn {response : Response} {torn cut : String}
      (hline : service.encode response = torn ++ cut) (hcut : cut ≠ "")
      (error : String) :
      Lost (.transport
        s!"bad worker response {service.host.debugStr torn}: {error}")

/-- The response to a request of the call, by a worker that was sent nothing
before but what it is evaluated after. -/
def Answers (before : List Event) (call : ℕ) (response : Response) : Prop :=
  ∃ early late worker request id,
    before = early ++ .sent call worker (request.line id) :: late ∧
    response = service.answer (service.after (sentTo worker early)) request id

def Meets (faults : Bool) (before : List Event) : Event → Prop
  | .returned call (.answered reply) =>
      ∃ response, reply = response.fields ∧ Answers service before call response
  | .returned _ _ => faults = true
  | .failed _ error => faults = true ∧ Lost service error
  | _ => True

/-! ## The exchange with a worker -/

/-- What the channel ends on: an error is the last the reader thread sends. -/
def Ends (faults reading : Bool) (lines : List (Except String String)) : Prop :=
  lines = [] ∧ (reading = true ∨ faults = true) ∨
    faults = true ∧ reading = false ∧ ∃ error, lines = [.error error]

/-- The process has read all that it was sent. -/
def Rests (faults : Bool) (sent : List Json) (process : Option (Process σ)) :
    Prop :=
  process = some { stdin := [], nix := service.after sent } ∨
    faults = true ∧ process = none

inductive Exchange (faults reading : Bool) :
    Phase → List Json → Option (Process σ) → List (Except String String) →
      Prop where
  | quiet {phase : Phase} {sent : List Json} {process : Option (Process σ)}
      {lines : List (Except String String)}
      (hphase : ∀ request attempt id, phase ≠ .awaiting request attempt id)
      (hrests : Rests service faults sent process)
      (hends : Ends faults reading lines) :
      Exchange faults reading phase sent process lines
  | asked {request : Request} {attempt id : ℕ} {earlier : List Json}
      {lines : List (Except String String)} (hid : id < 18446744073709551616)
      (hends : Ends faults reading lines) :
      Exchange faults reading (.awaiting request attempt id)
        (earlier ++ [request.line id])
        (some { stdin := [service.host.toStr (request.line id)]
                nix := service.after earlier }) lines
  | answered {request : Request} {attempt id : ℕ} {earlier : List Json}
      {process : Option (Process σ)} {text : String}
      {lines : List (Except String String)} (hid : id < 18446744073709551616)
      (hrests : Rests service faults (earlier ++ [request.line id]) process)
      (htext : text = service.encode
          (service.answer (service.after earlier) request id) ∨
        text = service.encode
          (service.answer (service.after earlier) request id) ++ "\n")
      (hends : Ends faults reading lines) :
      Exchange faults reading (.awaiting request attempt id)
        (earlier ++ [request.line id]) process (.ok text :: lines)
  | torn {request : Request} {attempt id : ℕ} {earlier : List Json}
      {torn cut : String} {lines : List (Except String String)}
      (hid : id < 18446744073709551616) (hfaults : faults = true)
      (hline : service.encode
        (service.answer (service.after earlier) request id) = torn ++ cut)
      (hcut : cut ≠ "") (hends : Ends faults reading lines) :
      Exchange faults reading (.awaiting request attempt id)
        (earlier ++ [request.line id]) none (.ok torn :: lines)
  | unheard {request : Request} {attempt id : ℕ} {sent : List Json}
      {process : Option (Process σ)} {lines : List (Except String String)}
      (hfaults : faults = true) (hrests : Rests service faults sent process)
      (hends : Ends faults reading lines) :
      Exchange faults reading (.awaiting request attempt id) sent process lines

structure Attended (faults : Bool) (system : System σ) : Prop where
  exchange : ∀ worker, system.client.worker = some worker →
    Exchange service faults worker.reading system.client.phase
      (sentTo worker.serial system.client.history) system.process worker.lines
  gone : system.client.worker = none → system.process = none
  meets : EachMeets (Meets service faults) system.client.history

variable {service} {faults : Bool}

/-! ## Histories -/

theorem sentTo_snoc_of_not_sent {worker : ℕ} {history : List Event}
    {event : Event}
    (hother : ∀ call receiver line, event ≠ .sent call receiver line) :
    sentTo worker (history ++ [event]) = sentTo worker history := by
  rw [sentTo, List.filterMap_append]
  cases event with
  | sent call receiver line => exact absurd rfl (hother call receiver line)
  | drained receiver received => exact List.append_nil _
  | failed receiver error => exact List.append_nil _
  | returned call ending => exact List.append_nil _

theorem sentTo_snoc_sent (worker call : ℕ) (history : List Event) (line : Json) :
    sentTo worker (history ++ [.sent call worker line]) =
      sentTo worker history ++ [line] := by
  rw [sentTo, List.filterMap_append]
  simp [sentTo]

/-- The ids of a worker's requests tell them apart. -/
theorem requestIds_eq_map (worker : ℕ) (history : List Event) :
    requestIds worker history = (sentTo worker history).map requestId := by
  rw [requestIds, sentTo, List.map_filterMap]
  refine List.filterMap_congr fun event _ => ?_
  cases event with
  | sent call receiver line => simp only [Option.map_if]
  | drained receiver received => rfl
  | failed receiver error => rfl
  | returned call ending => rfl

theorem sentTo_early {worker call : ℕ} {early late : List Event} {line : Json}
    {earlier : List Json}
    (hnodup : (requestIds worker
      (early ++ .sent call worker line :: late)).Nodup)
    (hsent : sentTo worker (early ++ .sent call worker line :: late) =
      earlier ++ [line]) :
    sentTo worker early = earlier := by
  have hsplit : sentTo worker (early ++ .sent call worker line :: late) =
      sentTo worker early ++ line :: sentTo worker late := by
    rw [sentTo, List.filterMap_append, List.filterMap_cons_some (b := line)]
    · rfl
    · exact if_pos rfl
  rw [requestIds_eq_map, hsent] at hnodup
  rw [hsent] at hsplit
  rcases snoc_eq_append_cons hsplit with ⟨hsame, -, -⟩ | ⟨rest, hrest, -⟩
  · exact hsame.symm
  · rw [hrest, List.map_append, List.nodup_append] at hnodup
    have hmem : requestId line ∈
        (sentTo worker early ++ line :: rest).map requestId :=
      List.mem_map_of_mem (List.mem_append_cons_self)
    exact absurd rfl (hnodup.2.2 _ hmem _ (List.mem_singleton_self _))

/-! ## The caller -/

theorem client_hears (client : Evaluator) (text : String) :
    client.hears text = client ∨
      ∃ label, Step service.host client label (client.hears text) := by
  cases hwrites : client.workerWrites (.ok text) with
  | none => exact .inl (by rw [Evaluator.hears, hwrites, Option.getD_none])
  | some heard =>
      refine .inr ⟨.workerWrites (.ok text), ?_⟩
      rw [Evaluator.hears, hwrites, Option.getD_some]
      exact hwrites

theorem client_delivered (system : System σ) (client : Evaluator) :
    (system.delivered service client).client = client := by
  rw [System.delivered]
  split <;> rfl

/-- What a system does to its client is a step of the client's, or nothing. -/
theorem client_act {system after : System σ} {label : SystemLabel}
    (hact : system.act service label = some after) :
    after.client = system.client ∨
      ∃ label, Step service.host system.client label after.client := by
  cases label with
  | call request =>
      obtain ⟨client, hclient, rfl⟩ := Option.map_eq_some_iff.mp hact
      exact .inr ⟨.call request, hclient⟩
  | reload =>
      obtain ⟨client, hclient, rfl⟩ := Option.map_eq_some_iff.mp hact
      exact .inr ⟨.reload, hclient⟩
  | spawn failure =>
      obtain ⟨client, hclient, rfl⟩ := Option.map_eq_some_iff.mp hact
      refine .inr ⟨.spawn failure, hclient.trans (congrArg some ?_)⟩
      split <;> rfl
  | send failure =>
      obtain ⟨client, hclient, rfl⟩ := Option.map_eq_some_iff.mp hact
      exact .inr ⟨.send failure, hclient.trans
        (congrArg some (client_delivered system client).symm)⟩
  | receive =>
      obtain ⟨client, hclient, rfl⟩ := Option.map_eq_some_iff.mp hact
      exact .inr ⟨.receive, hclient⟩
  | expire =>
      obtain ⟨client, hclient, rfl⟩ := Option.map_eq_some_iff.mp hact
      exact .inr ⟨.expire, hclient⟩
  | serve =>
      change system.serve service = some after at hact
      unfold System.serve at hact
      split at hact
      · split at hact
        · cases hact
          exact .inl rfl
        · cases hact
          exact client_hears system.client _
      · cases hact
  | dies written =>
      change system.dies service written = some after at hact
      unfold System.dies at hact
      split at hact
      · cases hact
      · cases hact
        dsimp only
        split
        · exact .inl rfl
        · exact client_hears system.client _
  | closes =>
      change (if _ then _ else _) = some after at hact
      split at hact
      · obtain ⟨client, hclient, rfl⟩ := Option.map_eq_some_iff.mp hact
        exact .inr ⟨.workerCloses, hclient⟩
      · cases hact
  | readFails error =>
      obtain ⟨client, hclient, rfl⟩ := Option.map_eq_some_iff.mp hact
      exact .inr ⟨.workerWrites (.error error), hclient⟩

/-! ## What a step keeps -/

/-- Outside of a roundtrip nothing is on its way. -/
theorem Exchange.quiet_of {reading : Bool} {phase : Phase} {sent : List Json}
    {process : Option (Process σ)} {lines : List (Except String String)}
    (hexchange : Exchange service faults reading phase sent process lines)
    (hphase : ∀ request attempt id, phase ≠ .awaiting request attempt id) :
    Rests service faults sent process ∧ Ends faults reading lines := by
  cases hexchange with
  | quiet _ hrests hends => exact ⟨hrests, hends⟩
  | asked => exact absurd rfl (hphase _ _ _)
  | answered => exact absurd rfl (hphase _ _ _)
  | torn => exact absurd rfl (hphase _ _ _)
  | unheard => exact absurd rfl (hphase _ _ _)

theorem attended_follow {system : System σ} {client : Evaluator}
    (hexchange : ∀ worker, client.worker = some worker →
      Exchange service faults worker.reading client.phase
        (sentTo worker.serial client.history) system.process worker.lines)
    (hmeets : EachMeets (Meets service faults) client.history) :
    Attended service faults (system.follow client) where
  exchange worker hworker := by
    have hprocess : (system.follow client).process = system.process := by
      rw [System.follow, show client.worker = some worker from hworker]
      rfl
    rw [hprocess]
    exact hexchange worker hworker
  gone hworker := by
    rw [System.follow, show client.worker = none from hworker]
    rfl
  meets := hmeets

theorem worker_giveUp (client : Evaluator) (request : Request)
    (attempt worker : ℕ) (error : RoundtripError) :
    (client.giveUp request attempt worker error).worker = none := by
  cases error with
  | timeout bound => rfl
  | transport why =>
      rw [Evaluator.giveUp]
      dsimp only
      split <;> rfl

theorem pending_giveUp (client : Evaluator) (request : Request)
    (attempt worker : ℕ) (error : RoundtripError) :
    (client.giveUp request attempt worker error).pending = none := by
  cases error with
  | timeout bound => rfl
  | transport why =>
      rw [Evaluator.giveUp]
      dsimp only
      split <;> rfl

theorem meets_giveUp {client : Evaluator} {error : RoundtripError}
    (hmeets : EachMeets (Meets service faults) client.history)
    (hfaults : faults = true) (hlost : Lost service error) (request : Request)
    (attempt worker : ℕ) :
    EachMeets (Meets service faults)
      (client.giveUp request attempt worker error).history := by
  have hfailed : EachMeets (Meets service faults)
      (client.history ++ [.failed worker error]) :=
    hmeets.snoc ⟨hfaults, hlost⟩
  cases error with
  | timeout bound => exact hfailed.snoc hfaults
  | transport why =>
      rw [Evaluator.giveUp]
      dsimp only
      split
      · exact hfailed.snoc hfaults
      · exact hfailed

/-- A worker that is given up is killed. -/
theorem attended_giveUp {system : System σ} {client : Evaluator}
    {error : RoundtripError}
    (hmeets : EachMeets (Meets service faults) client.history)
    (hfaults : faults = true) (hlost : Lost service error) (request : Request)
    (attempt worker : ℕ) :
    Attended service faults
      (system.follow (client.giveUp request attempt worker error)) := by
  refine attended_follow (fun worker hworker => ?_)
    (meets_giveUp hmeets hfaults hlost request attempt _)
  rw [worker_giveUp] at hworker
  cases hworker

/-- A request reaches the process, if it still lives. -/
theorem Exchange.sent {reading : Bool} {sent : List Json}
    {process : Option (Process σ)} {lines : List (Except String String)}
    (hrests : Rests service faults sent process)
    (hends : Ends faults reading lines) (request : Request) (attempt : ℕ)
    {id : ℕ} (hid : id < 18446744073709551616) :
    Exchange service faults reading (.awaiting request attempt id)
      (sent ++ [request.line id])
      (process.map fun process =>
        { process with
          stdin := process.stdin ++ [service.host.toStr (request.line id)] })
      lines := by
  rcases hrests with rfl | ⟨hfaults, rfl⟩
  · exact .asked hid hends
  · exact .unheard hfaults (.inr ⟨hfaults, rfl⟩) hends

/-- A line that is read is the answer, or the worker has failed. -/
theorem Exchange.read (hwrites : service.Writes) {reading : Bool}
    {request : Request} {attempt id : ℕ} {sent : List Json}
    {process : Option (Process σ)} {received : Except String String}
    {rest : List (Except String String)}
    (hexchange : Exchange service faults reading (.awaiting request attempt id)
      sent process (received :: rest)) :
    (∃ earlier, sent = earlier ++ [request.line id] ∧
      readReply service.host id received =
        .ok (service.answer (service.after earlier) request id).fields ∧
      Rests service faults sent process ∧ Ends faults reading rest) ∨
    faults = true ∧ ∃ error,
      readReply service.host id received = .error error ∧ Lost service error := by
  have hfailed : Ends faults reading (received :: rest) →
      faults = true ∧ ∃ error, readReply service.host id received =
        .error error ∧ Lost service error := by
    rintro (⟨hnil, -⟩ | ⟨hfaults, -, error, hlines⟩)
    · cases hnil
    · cases hlines
      exact ⟨hfaults, _, rfl, .unread error⟩
  cases hexchange with
  | quiet hphase => exact absurd rfl (hphase _ _ _)
  | asked _ hends => exact .inr (hfailed hends)
  | answered hid hrests htext hends =>
      exact .inl ⟨_, rfl, hwrites.readReply_whole hid htext, hrests, hends⟩
  | torn hid hfaults hline hcut hends =>
      obtain ⟨error, hread⟩ := hwrites.readReply_torn hid hline hcut
      exact .inr ⟨hfaults, _, hread, .torn hline hcut error⟩
  | unheard _ _ hends => exact .inr (hfailed hends)

/-- A caller waits as long as the process may answer. -/
theorem Exchange.silent {reading : Bool} {request : Request} {attempt id : ℕ}
    {sent : List Json} {process : Option (Process σ)}
    (hexchange : Exchange service faults reading (.awaiting request attempt id)
      sent process []) (hreading : reading ≠ true) : faults = true := by
  have hends : Ends faults reading [] := by
    cases hexchange with
    | quiet hphase => exact absurd rfl (hphase _ _ _)
    | asked _ hends => exact hends
    | unheard _ _ hends => exact hends
  rcases hends with ⟨-, hopen⟩ | ⟨hfaults, -⟩
  · exact hopen.resolve_left hreading
  · exact hfaults

/-- The request of the call in progress is the last the worker was sent. -/
theorem answers_of_awaiting {client : Evaluator} {worker : Worker}
    {request : Request} {attempt id : ℕ} {earlier : List Json} {event : Event}
    (hkept : Kept service.host client) (hcall : InCall client)
    (hphase : client.phase = .awaiting request attempt id)
    (hworker : client.worker = some worker)
    (hsent : sentTo worker.serial client.history =
      earlier ++ [request.line id]) :
    Answers service (client.history ++ [event]) client.calls
      (service.answer (service.after earlier) request id) := by
  rw [InCall, hphase] at hcall
  obtain ⟨-, -, -, other, hother, hmem⟩ := hcall
  cases hworker.symm.trans hother
  obtain ⟨early, late, hsplit⟩ := List.append_of_mem hmem
  have hnodup := hkept.paired.distinct worker.serial
  rw [hsplit] at hnodup hsent
  refine ⟨early, late ++ [event], worker.serial, request, id, ?_, ?_⟩
  · rw [hsplit, List.append_assoc, List.cons_append]
  · rw [sentTo_early hnodup hsent]

section Steps
variable {system : System σ} {client : Evaluator}
variable (hattended : Attended service faults system)
include hattended

theorem attended_begin {request : Request}
    (hstep : system.client.begin request = some client) :
    Attended service faults (system.follow client) := by
  unfold Evaluator.begin at hstep
  split at hstep
  · next hidle =>
      cases hstep
      refine attended_follow (fun worker hworker => ?_) hattended.meets
      obtain ⟨hrests, hends⟩ := (hattended.exchange worker hworker).quiet_of
        (by rw [hidle]; exact nofun)
      exact .quiet nofun hrests hends
  · cases hstep

theorem attended_reload (hstep : system.client.reload = some client) :
    Attended service faults (system.follow client) := by
  unfold Evaluator.reload at hstep
  split at hstep
  · cases hstep
    exact attended_follow nofun hattended.meets
  · cases hstep

theorem attended_spawnFailed {error : String} (hfaults : faults = true)
    (hstep : system.client.spawn (some error) = some client) :
    Attended service faults (system.follow client) := by
  unfold Evaluator.spawn at hstep
  split at hstep
  · next hworker hfailure =>
      cases hstep
      refine attended_follow (fun worker hsome => ?_)
        (hattended.meets.snoc hfaults)
      exact absurd (hworker.symm.trans hsome) nofun
  · next hfailure => cases hfailure
  · cases hstep

/-- A new worker has been sent nothing. -/
theorem attended_spawned (hkept : Kept service.host system.client)
    (hstep : system.client.spawn none = some client) :
    Attended service faults
      { client, process := some { stdin := [], nix := service.nix.fresh } } := by
  unfold Evaluator.spawn at hstep
  split at hstep
  · next hfailure => cases hfailure
  · next hphase hworker hfailure =>
      cases hstep
      have hnone : sentTo system.client.spawned system.client.history = [] := by
        apply List.filterMap_eq_nil_iff.mpr
        intro event hmem
        cases event with
        | sent call receiver line =>
            have hold := hkept.spawned _ hmem receiver rfl
            exact if_neg (Nat.ne_of_lt hold)
        | drained receiver received => rfl
        | failed receiver error => rfl
        | returned call ending => rfl
      refine ⟨fun worker hsome => ?_, nofun, hattended.meets⟩
      cases hsome
      refine .quiet (by rw [hphase]; exact nofun) (.inl ?_) (.inl ⟨rfl, .inl rfl⟩)
      rw [hnone]
      rfl
  · cases hstep

theorem attended_send {failure : Option String}
    (hfailure : failure ≠ none → faults = true)
    (hstep : system.client.send failure = some client) :
    Attended service faults (system.delivered service client) := by
  unfold Evaluator.send at hstep
  split at hstep
  · next request attempt worker hphase hworker =>
      obtain ⟨hrests, hends⟩ := (hattended.exchange worker hworker).quiet_of
        (by rw [hphase]; exact nofun)
      split at hstep
      · next hroom =>
          have hid : system.client.nextId < 18446744073709551616 :=
            Nat.lt_of_succ_lt hroom
          have hmeets : EachMeets (Meets service faults)
              (system.client.history ++ [.sent system.client.calls worker.serial
                (request.line system.client.nextId)]) :=
            hattended.meets.snoc trivial
          cases failure with
          | some error =>
              cases hstep
              rw [System.delivered, pending_giveUp]
              exact attended_giveUp hmeets (hfailure nofun) (.unwritten error)
                request attempt worker.serial
          | none =>
              cases hstep
              refine ⟨fun other hsome => ?_,
                fun hnone => absurd (hworker.symm.trans hnone) nofun, hmeets⟩
              cases hworker.symm.trans hsome
              have hsent := Exchange.sent hrests hends request attempt hid
              rw [← sentTo_snoc_sent worker.serial system.client.calls] at hsent
              exact hsent
      · cases hstep
        refine attended_follow (fun other hsome => ?_) hattended.meets
        cases hworker.symm.trans hsome
        exact .quiet nofun hrests hends
  · cases hstep

theorem attended_receive (hwrites : service.Writes)
    (hkept : Kept service.host system.client) (hcall : InCall system.client)
    (hstep : system.client.receive service.host = some client) :
    Attended service faults (system.follow client) := by
  unfold Evaluator.receive at hstep
  split at hstep
  · next request attempt id worker hphase hworker =>
      have hexchange := hattended.exchange worker hworker
      rw [hphase] at hexchange
      split at hstep
      · next received rest hlines =>
          rw [hlines] at hexchange
          have hdrained : EachMeets (Meets service faults)
              (system.client.history ++ [.drained worker.serial received]) :=
            hattended.meets.snoc trivial
          rcases hexchange.read hwrites with
            ⟨earlier, hsent, hread, hrests, hends⟩ | ⟨hfaults, error, hread, hlost⟩
          · rw [hread] at hstep
            cases hstep
            refine attended_follow (fun other hsome => ?_) (hdrained.snoc ?_)
            · cases hsome
              refine .quiet nofun ?_ hends
              have hunchanged : sentTo worker.serial (system.client.history ++
                  [.drained worker.serial received] ++ [.returned
                    system.client.calls (.answered (service.answer
                      (service.after earlier) request id).fields)]) =
                    sentTo worker.serial system.client.history := 
                (sentTo_snoc_of_not_sent fun _ _ _ => Event.noConfusion).trans
                  (sentTo_snoc_of_not_sent fun _ _ _ => Event.noConfusion)
              exact hunchanged ▸ hrests
            · exact ⟨_, rfl, answers_of_awaiting hkept hcall hphase hworker hsent⟩
          · rw [hread] at hstep
            cases hstep
            exact attended_giveUp hdrained hfaults hlost request attempt _
      · next hlines =>
          rw [hlines] at hexchange
          split at hstep
          · cases hstep
          · next hreading =>
              cases hstep
              exact attended_giveUp hattended.meets
                (hexchange.silent hreading) .ended request attempt _
  · cases hstep

theorem attended_expire (hfaults : faults = true)
    (hstep : system.client.expire = some client) :
    Attended service faults (system.follow client) := by
  unfold Evaluator.expire at hstep
  split at hstep
  · next request attempt id worker bound hphase hworker hbound =>
      cases hstep
      exact attended_giveUp hattended.meets hfaults (.silent bound) request
        attempt _
  · cases hstep

end Steps

/-! ## The process -/

theorem Ends.nil_of_reading {reading : Bool} {lines : List (Except String String)}
    (hends : Ends faults reading lines) (hreading : reading = true) :
    lines = [] := by
  rcases hends with ⟨hnil, -⟩ | ⟨-, hclosed, -⟩
  · exact hnil
  · exact absurd (hreading.symm.trans hclosed) nofun

theorem Ends.faults_of_closed {reading : Bool}
    {lines : List (Except String String)} (hends : Ends faults reading lines)
    (hclosed : reading = false) : faults = true := by
  rcases hends with ⟨-, hopen | hfaults⟩ | ⟨hfaults, -⟩
  · exact absurd (hopen.symm.trans hclosed) nofun
  · exact hfaults
  · exact hfaults

/-- The reader thread ends. -/
theorem Exchange.ended {phase : Phase} {sent : List Json}
    {process : Option (Process σ)} {lines last : List (Except String String)}
    (hexchange : Exchange service faults true phase sent process lines)
    (hlast : Ends faults false last) :
    Exchange service faults false phase sent process (lines ++ last) := by
  cases hexchange with
  | quiet hphase hrests hends =>
      rw [hends.nil_of_reading rfl]
      exact .quiet hphase hrests hlast
  | asked hid hends =>
      rw [hends.nil_of_reading rfl]
      exact .asked hid hlast
  | answered hid hrests htext hends =>
      rw [hends.nil_of_reading rfl]
      exact .answered hid hrests htext hlast
  | torn hid hfaults hline hcut hends =>
      rw [hends.nil_of_reading rfl]
      exact .torn hid hfaults hline hcut hlast
  | unheard hfaults hrests hends =>
      rw [hends.nil_of_reading rfl]
      exact .unheard hfaults hrests hlast

/-- The process ends without a word. -/
theorem Exchange.dead {reading : Bool} {phase : Phase} {sent : List Json}
    {process : Option (Process σ)} {lines : List (Except String String)}
    (hexchange : Exchange service faults reading phase sent process lines)
    (hfaults : faults = true) :
    Exchange service faults reading phase sent none lines := by
  cases hexchange with
  | quiet hphase _ hends => exact .quiet hphase (.inr ⟨hfaults, rfl⟩) hends
  | asked _ hends => exact .unheard hfaults (.inr ⟨hfaults, rfl⟩) hends
  | answered hid _ htext hends =>
      exact .answered hid (.inr ⟨hfaults, rfl⟩) htext hends
  | torn hid _ hline hcut hends => exact .torn hid hfaults hline hcut hends
  | unheard _ _ hends => exact .unheard hfaults (.inr ⟨hfaults, rfl⟩) hends

/-- What the process has not read is the request of the call. -/
theorem Exchange.asked_of_unread {reading : Bool} {phase : Phase}
    {sent : List Json} {line : String} {stdin : List String} {nix : σ}
    {lines : List (Except String String)}
    (hexchange : Exchange service faults reading phase sent
      (some { stdin := line :: stdin, nix }) lines) :
    ∃ request attempt id earlier, phase = .awaiting request attempt id ∧
      id < 18446744073709551616 ∧ sent = earlier ++ [request.line id] ∧
      line = service.host.toStr (request.line id) ∧ stdin = [] ∧
      nix = service.after earlier ∧ Ends faults reading lines := by
  have hbusy : ¬ Rests service faults sent
      (some { stdin := line :: stdin, nix }) := by
    rintro (hsome | ⟨-, hnone⟩)
    · cases hsome
    · cases hnone
  cases hexchange with
  | quiet _ hrests => exact absurd hrests hbusy
  | asked hid hends =>
      exact ⟨_, _, _, _, rfl, hid, rfl, rfl, rfl, rfl, hends⟩
  | answered _ hrests => exact absurd hrests hbusy
  | unheard _ hrests => exact absurd hrests hbusy

theorem take_line (line : String) (written : ℕ) :
    let words := String.ofList ((line.toList ++ ['\n']).take written)
    words = line ∨ words = line ++ "\n" ∨ ∃ cut ≠ "", line = words ++ cut := by
  intro words
  rcases Nat.lt_trichotomy written line.toList.length with hless | heq | hmore
  · right; right
    refine ⟨String.ofList (line.toList.drop written), ?_, ?_⟩
    · intro hempty
      have hdrop : line.toList.drop written = [] := by
        rw [← String.toList_ofList (l := line.toList.drop written), hempty]
        rfl
      exact absurd (List.drop_eq_nil_iff.mp hdrop) (Nat.not_le.mpr hless)
    · apply String.toList_injective
      rw [String.toList_append, String.toList_ofList, String.toList_ofList,
        List.take_append_of_le_length hless.le, List.take_append_drop]
  · left
    apply String.toList_injective
    rw [String.toList_ofList, List.take_append_of_le_length heq.le, heq,
      List.take_length]
  · right; left
    apply String.toList_injective
    rw [String.toList_ofList, String.toList_append, List.take_of_length_le]
    · rfl
    · rw [List.length_append, List.length_singleton]
      omega

section Process
variable {system : System σ} (hattended : Attended service faults system)
include hattended

/-- A process is that of the worker in the slot. -/
theorem exists_worker {process : Process σ}
    (hprocess : system.process = some process) :
    ∃ worker, system.client.worker = some worker := by
  refine Option.ne_none_iff_exists'.mp fun hnone => ?_
  exact absurd (hprocess.symm.trans (hattended.gone hnone)) nofun

/-- A line is put on the channel of a reader thread that still reads. -/
theorem attended_hears {worker : Worker} {process : Option (Process σ)}
    {text : String} (hworker : system.client.worker = some worker)
    (hheard : worker.reading = true →
      Exchange service faults true system.client.phase
        (sentTo worker.serial system.client.history) process
        (worker.lines ++ [.ok text]))
    (hunheard : worker.reading = false →
      Exchange service faults false system.client.phase
        (sentTo worker.serial system.client.history) process worker.lines) :
    Attended service faults
      { client := system.client.hears text, process } := by
  rw [Evaluator.hears, Evaluator.workerWrites, hworker]
  by_cases hreading : worker.reading = true
  · simp only [if_pos hreading, Option.getD_some]
    refine ⟨fun other hsome => ?_, nofun, hattended.meets⟩
    cases hsome
    exact hheard hreading
  · simp only [if_neg hreading, Option.getD_none]
    refine ⟨fun other hsome => ?_, fun hnone => ?_, hattended.meets⟩
    · cases hworker.symm.trans hsome
      have hclosed := Bool.eq_false_of_not_eq_true hreading
      rw [hclosed]
      exact hunheard hclosed
    · exact absurd (hworker.symm.trans hnone) nofun

theorem attended_serve (hwrites : service.Writes) {after : System σ}
    (hstep : system.serve service = some after) :
    Attended service faults after := by
  unfold System.serve at hstep
  split at hstep
  · next line stdin nix hprocess =>
      obtain ⟨worker, hworker⟩ := exists_worker hattended hprocess
      have hexchange := hattended.exchange worker hworker
      rw [hprocess] at hexchange
      obtain ⟨request, attempt, id, earlier, hphase, hid, hsent, rfl, rfl, rfl,
        hends⟩ := hexchange.asked_of_unread
      rw [hwrites.respond_line _ request hid] at hstep
      cases hstep
      refine attended_hears hattended hworker ?_ ?_
      · intro hreading
        rw [hphase, hsent, hends.nil_of_reading hreading,
          ← hwrites.after_snoc earlier request hid]
        exact .answered hid (.inl rfl) (.inr rfl) (.inl ⟨rfl, .inl rfl⟩)
      · intro hclosed
        rw [hphase, hsent, ← hwrites.after_snoc earlier request hid]
        rw [hclosed] at hends
        exact .unheard (hends.faults_of_closed rfl) (.inl rfl) hends
  · cases hstep

/-- What is left of the answer is read at the end of the file. -/
theorem attended_words (hfaults : faults = true) {worker : Worker}
    {request : Request} {attempt id : ℕ} {earlier : List Json} {words : String}
    (hworker : system.client.worker = some worker)
    (hphase : system.client.phase = .awaiting request attempt id)
    (hid : id < 18446744073709551616)
    (hsent : sentTo worker.serial system.client.history =
      earlier ++ [request.line id])
    (hends : Ends faults worker.reading worker.lines)
    (hwords : words = service.encode
        (service.answer (service.after earlier) request id) ∨
      words = service.encode
        (service.answer (service.after earlier) request id) ++ "\n" ∨
      ∃ cut ≠ "", service.encode
        (service.answer (service.after earlier) request id) = words ++ cut) :
    Attended service faults
      { client := system.client.hears words, process := none } := by
  have hgone : ∀ sent, Rests service faults sent none :=
    fun sent => .inr ⟨hfaults, rfl⟩
  refine attended_hears hattended hworker ?_ ?_
  · intro hreading
    rw [hphase, hsent, hends.nil_of_reading hreading]
    have hnone : Ends faults true ([] : List (Except String String)) :=
      .inl ⟨rfl, .inl rfl⟩
    rcases hwords with hwhole | hended | ⟨cut, hcut, hline⟩
    · exact .answered hid (hgone _) (.inl hwhole) hnone
    · exact .answered hid (hgone _) (.inr hended) hnone
    · exact .torn hid hfaults hline hcut hnone
  · intro hclosed
    rw [hphase]
    rw [hclosed] at hends
    exact .unheard hfaults (hgone _) hends

theorem attended_dies (hwrites : service.Writes) (hfaults : faults = true)
    {written : ℕ} {after : System σ}
    (hstep : system.dies service written = some after) :
    Attended service faults after := by
  unfold System.dies at hstep
  split at hstep
  · cases hstep
  · next process hprocess =>
      cases hstep
      obtain ⟨worker, hworker⟩ := exists_worker hattended hprocess
      have hexchange := hattended.exchange worker hworker
      by_cases hwords : system.lastWords service written = ""
      · simp only [if_pos hwords]
        refine ⟨fun other hsome => ?_, fun _ => rfl, hattended.meets⟩
        exact (hattended.exchange other hsome).dead hfaults
      · simp only [if_neg hwords]
        obtain ⟨stdin, nix⟩ := process
        rw [System.lastWords, hprocess] at hwords ⊢
        cases stdin with
        | nil => exact absurd rfl hwords
        | cons line stdin =>
            rw [hprocess] at hexchange
            obtain ⟨request, attempt, id, earlier, hphase, hid, hsent, rfl, rfl,
              rfl, hends⟩ := hexchange.asked_of_unread
            simp only [hwrites.respond_line _ request hid]
            exact attended_words hattended hfaults hworker hphase hid hsent hends
              (take_line _ written)

theorem attended_closes (hfaults : faults = true) {client : Evaluator}
    (hstep : system.client.workerCloses = some client) :
    Attended service faults (system.follow client) := by
  unfold Evaluator.workerCloses at hstep
  split at hstep
  · next worker hworker =>
      split at hstep
      · next hreading =>
          cases hstep
          refine attended_follow (fun other hsome => ?_) hattended.meets
          cases hsome
          have hexchange := hattended.exchange worker hworker
          rw [hreading] at hexchange
          have hnone : Ends faults false [] := .inl ⟨rfl, .inr hfaults⟩
          have hended := hexchange.ended hnone
          rw [List.append_nil] at hended
          exact hended
      · cases hstep
  · cases hstep

theorem attended_readFails (hfaults : faults = true) {client : Evaluator}
    {error : String}
    (hstep : system.client.workerWrites (.error error) = some client) :
    Attended service faults (system.follow client) := by
  unfold Evaluator.workerWrites at hstep
  split at hstep
  · next worker hworker =>
      split at hstep
      · next hreading =>
          cases hstep
          refine attended_follow (fun other hsome => ?_) hattended.meets
          cases hsome
          have hexchange := hattended.exchange worker hworker
          rw [hreading] at hexchange
          exact hexchange.ended (.inr ⟨hfaults, rfl, error, rfl⟩)
      · cases hstep
  · cases hstep

end Process

/-! ## Runs -/

theorem attended_act (hwrites : service.Writes) {system after : System σ}
    {label : SystemLabel} (hattended : Attended service faults system)
    (hkept : Kept service.host system.client) (hcall : InCall system.client)
    (hadmits : Admits faults system label)
    (hact : system.act service label = some after) :
    Attended service faults after := by
  cases label with
  | call request =>
      obtain ⟨client, hclient, rfl⟩ := Option.map_eq_some_iff.mp hact
      exact attended_begin hattended hclient
  | reload =>
      obtain ⟨client, hclient, rfl⟩ := Option.map_eq_some_iff.mp hact
      exact attended_reload hattended hclient
  | spawn failure =>
      obtain ⟨client, hclient, rfl⟩ := Option.map_eq_some_iff.mp hact
      cases failure with
      | none => exact attended_spawned hattended hkept hclient
      | some error =>
          exact attended_spawnFailed hattended (hadmits.resolve_right nofun)
            hclient
  | send failure =>
      obtain ⟨client, hclient, rfl⟩ := Option.map_eq_some_iff.mp hact
      refine attended_send hattended (fun hsome => ?_) hclient
      refine hadmits.resolve_right fun hcalm => hsome ?_
      exact Option.isNone_iff_eq_none.mp hcalm
  | receive =>
      obtain ⟨client, hclient, rfl⟩ := Option.map_eq_some_iff.mp hact
      exact attended_receive hattended hwrites hkept hcall hclient
  | expire =>
      obtain ⟨client, hclient, rfl⟩ := Option.map_eq_some_iff.mp hact
      exact attended_expire hattended (hadmits.resolve_right nofun) hclient
  | serve => exact attended_serve hattended hwrites hact
  | dies written =>
      exact attended_dies hattended hwrites (hadmits.resolve_right nofun) hact
  | closes =>
      change (if _ then _ else _) = some after at hact
      split at hact
      · obtain ⟨client, hclient, rfl⟩ := Option.map_eq_some_iff.mp hact
        exact attended_closes hattended (hadmits.resolve_right nofun) hclient
      · cases hact
  | readFails error =>
      obtain ⟨client, hclient, rfl⟩ := Option.map_eq_some_iff.mp hact
      exact attended_readFails hattended (hadmits.resolve_right nofun) hclient

theorem Serves.attended (hwrites : service.Writes) {timeout : Option Duration}
    {system : System σ} (hserves : Serves service faults timeout system) :
    Reaches service.host timeout system.client ∧
      Attended service faults system := by
  have hinvariant := @Reachable.invariant _ _ (· = System.start timeout)
    (System.Step service) (Admits faults) fun system =>
      Reaches service.host timeout system.client ∧
        Attended service faults system
  refine hinvariant ?_ ?_ hserves
  · rintro system rfl
    exact ⟨.initial rfl, nofun, fun _ => rfl, .nil⟩
  · rintro before label after ⟨hreach, hattended⟩ hadmits hact
    obtain ⟨hkept, hcall⟩ := hreach.kept
    refine ⟨?_, attended_act hwrites hattended hkept hcall hadmits hact⟩
    rcases client_act hact with hsame | ⟨label, hstep⟩
    · rw [hsame]
      exact hreach
    · exact hreach.step trivial hstep

/-- An evaluator that tells what it has evaluated. -/
def sampleService : Service (List String) :=
  { host := printingHost
    refusal := fun _ => "missing field"
    nix :=
      { fresh := []
        aggregate := fun flakes flake =>
          (flakes ++ [flake], .ok (.array (flakes.map .string)))
        hostToplevel := fun flakes _ _ => (flakes, .ok none)
        expectedToplevels := fun flakes _ _ => (flakes, .error "no fleet") } }

theorem sampleService_writes : sampleService.Writes where
  lawful := Json.print_lawful
  fits flakes flake value hvalue := by
    cases hvalue
    exact fitsValues_strings 125 flakes

def tornRun : List SystemLabel :=
  [.call ⟨"aggregate", "a", none, none⟩, .spawn none, .send none, .serve,
    .receive, .call ⟨"aggregate", "b", none, none⟩, .send none, .dies 9,
    .receive, .spawn none, .send none, .serve, .receive]

end Mandala.Eval
