import Mandala.Core.Text
import Mandala.Core.Transition
import Mandala.Data.Json
import Mathlib.Data.List.Pairwise
import Mathlib.Data.Nat.Notation
import Mathlib.Tactic.Common

/-!
# Requests to the evaluation worker

`worker_call` keeps one supervised worker in a slot.  The worker writes what it
likes whenever it likes, so a line its reader thread has drained may belong to
a request that was given up, or to one that has not been sent yet.
-/

namespace Mandala.Eval

open Mandala.Data Mandala.Transition

/-- The bound on a roundtrip. -/
structure Duration where
  nanos : ℕ
  deriving DecidableEq, Repr

/-- What the evaluator takes from the libraries around it: `serde_json`'s
reader and writer, and two ways of printing. -/
structure Host where
  fromStr : String → Except String Json
  toStr : Json → String
  debugStr : String → String
  secsF64 : Duration → String

structure Request where
  op : String
  flake : String
  member : Option String
  members : Option (List String)

/-- The line of a request. -/
def Request.line (request : Request) (id : ℕ) : Json :=
  .object <|
    [("id", .int id), ("op", .string request.op),
      ("flake", .string request.flake)] ++
    (request.member.map fun member => ("member", .string member)).toList ++
    (request.members.map fun members =>
      ("members", .array (members.map .string))).toList

/-- The object a worker answered with. -/
abbrev Reply := List (String × Json)

def Reply.id (reply : Reply) : Option Int :=
  (reply.lookup "id").bind Json.asU64

/-- The id a request carries. -/
def requestId (line : Json) : Option Int :=
  (line.get "id").bind Json.asU64

theorem requestId_line (request : Request) {id : ℕ} (hid : id < UInt64.size) :
    requestId (request.line id) = some (id : Int) := by
  have hget : (request.line id).get "id" = some (.int id) := rfl
  rw [requestId, hget, Option.bind_some, Json.asU64_int hid]

inductive RoundtripError where
  | transport (why : String)
  | timeout (bound : Duration)

def showId : Option Int → String
  | none => "None"
  | some id => s!"Some({id})"

/-- The last part of `roundtrip`: what it makes of the line it received. -/
def readReply (host : Host) (id : ℕ) (received : Except String String) :
    Except RoundtripError Reply :=
  match received with
  | .error error => .error (.transport s!"read: {error}")
  | .ok resp =>
      match host.fromStr (String.ofList (Text.trim resp.toList)) with
      | .error error =>
          .error (.transport s!"bad worker response {host.debugStr resp}: {error}")
      | .ok value =>
          match value.asObject with
          | none => .error (.transport "worker response not an object")
          | some reply =>
              if Reply.id reply = some (id : Int) then
                .ok reply
              else
                .error (.transport <|
                  s!"worker reply id {showId (Reply.id reply)} " ++
                    s!"does not match request id {id}")

theorem readReply_eq_ok {host : Host} {id : ℕ} {received : Except String String}
    {reply : Reply} (hread : readReply host id received = .ok reply) :
    Reply.id reply = some (id : Int) ∧
      ∃ text, received = .ok text ∧
        host.fromStr (String.ofList (Text.trim text.toList)) =
          .ok (.object reply) := by
  unfold readReply at hread
  split at hread
  · cases hread
  · next text =>
      split at hread
      · cases hread
      · next value hvalue =>
          split at hread
          · cases hread
          · next fields hobject =>
              split at hread
              · next hid =>
                  cases hread
                  refine ⟨hid, text, rfl, ?_⟩
                  cases value <;> cases hobject
                  exact hvalue
              · cases hread

/-- How a call came to an end. -/
inductive Ending where
  | spawnFailed (error : String)
  | answered (reply : Reply)
  | timedOut (bound : Duration)
  | unavailable (transport : String)

/-- What the call returns. -/
def Ending.result (host : Host) : Ending → Except String (Option Json)
  | .spawnFailed error => .error error
  | .answered reply =>
      if ((reply.lookup "ok").bind Json.asBool).getD false then
        .ok (reply.lookup "value")
      else
        .error (((reply.lookup "error").bind Json.asStr).getD
          "unknown worker error")
  | .timedOut bound =>
      .error <| s!"eval worker timed out after {host.secsF64 bound}s and " ++
        "was killed (MANDALA_EVAL_TIMEOUT raises the bound; 0 disables it)"
  | .unavailable transport => .error s!"eval worker unavailable: {transport}"

/-- A call that returns a value was answered with it. -/
theorem Ending.answered_of_ok {host : Host} {ending : Ending}
    {value : Option Json} (hresult : ending.result host = .ok value) :
    ∃ reply, ending = .answered reply ∧ value = reply.lookup "value" ∧
      (reply.lookup "ok").bind Json.asBool = some true := by
  cases ending with
  | answered reply =>
      simp only [result] at hresult
      split at hresult
      · next hok =>
          cases hresult
          refine ⟨reply, rfl, rfl, ?_⟩
          cases hflag : (reply.lookup "ok").bind Json.asBool with
          | none => simp [hflag] at hok
          | some flag =>
              rw [hflag, Option.getD_some] at hok
              rw [hok]
      · cases hresult
  | spawnFailed error => cases hresult
  | timedOut bound => cases hresult
  | unavailable transport => cases hresult

/-! ## The evaluator and its worker -/

/-- A worker, told apart from every other by the order they were spawned in.
`lines` is the channel its reader thread fills. -/
structure Worker where
  serial : ℕ
  lines : List (Except String String)
  reading : Bool

/-- What has happened, calls being numbered from 1. -/
inductive Event where
  | sent (call worker : ℕ) (line : Json)
  | drained (worker : ℕ) (received : Except String String)
  | failed (worker : ℕ) (error : RoundtripError)
  | returned (call : ℕ) (ending : Ending)

/-- The worker an event uses. -/
def Event.worker : Event → Option ℕ
  | .sent _ worker _ => some worker
  | .drained worker _ => some worker
  | .failed worker _ => some worker
  | .returned .. => none

inductive Phase where
  | idle
  | attempting (request : Request) (attempt : ℕ)
  | awaiting (request : Request) (attempt id : ℕ)
  | panicked

structure Evaluator where
  worker : Option Worker
  nextId : ℕ
  timeout : Option Duration
  phase : Phase
  /-- How many workers have been spawned, and how many calls have been made. -/
  spawned : ℕ
  calls : ℕ
  history : List Event

/-- `Evaluator::new` with its bound. -/
def Evaluator.new (timeout : Option Duration) : Evaluator :=
  { worker := none, nextId := 1, timeout, phase := .idle
    spawned := 0, calls := 0, history := [] }

/-- What the caller does, how the operating system answers, and what the worker
does; `expire` is a wait that has used up its bound. -/
inductive Label where
  | call (request : Request)
  | reload
  | spawn (failure : Option String)
  | send (failure : Option String)
  | receive
  | expire
  | workerWrites (received : Except String String)
  | workerCloses

namespace Evaluator

def record (evaluator : Evaluator) (event : Event) : Evaluator :=
  { evaluator with history := evaluator.history ++ [event] }

/-- `worker_call` returns. -/
def finish (evaluator : Evaluator) (ending : Ending) : Evaluator :=
  { evaluator.record (.returned evaluator.calls ending) with phase := .idle }

/-- The arms of `worker_call` for a failed roundtrip. -/
def giveUp (evaluator : Evaluator) (request : Request) (attempt worker : ℕ)
    (error : RoundtripError) : Evaluator :=
  let dropped := { evaluator.record (.failed worker error) with worker := none }
  match error with
  | .timeout bound => dropped.finish (.timedOut bound)
  | .transport why =>
      if attempt = 1 then
        dropped.finish (.unavailable why)
      else
        { dropped with phase := .attempting request (attempt + 1) }

def begin (evaluator : Evaluator) (request : Request) : Option Evaluator :=
  match evaluator.phase with
  | .idle => some
      { evaluator with
        phase := .attempting request 0, calls := evaluator.calls + 1 }
  | _ => none

def reload (evaluator : Evaluator) : Option Evaluator :=
  match evaluator.phase with
  | .idle => some { evaluator with worker := none }
  | _ => none

def spawn (evaluator : Evaluator) (failure : Option String) :
    Option Evaluator :=
  match evaluator.phase, evaluator.worker, failure with
  | .attempting .., none, some error => some (evaluator.finish (.spawnFailed error))
  | .attempting .., none, none => some
      { evaluator with
        worker := some { serial := evaluator.spawned, lines := [], reading := true }
        spawned := evaluator.spawned + 1 }
  | _, _, _ => none

/-- The request takes the next id, whose counter may not overflow, and is
written to the worker. -/
def send (evaluator : Evaluator) (failure : Option String) :
    Option Evaluator :=
  match evaluator.phase, evaluator.worker with
  | .attempting request attempt, some worker =>
      if evaluator.nextId + 1 < UInt64.size then
        let id := evaluator.nextId
        let sent := { evaluator.record
            (.sent evaluator.calls worker.serial (request.line id)) with
          nextId := id + 1 }
        match failure with
        | some error =>
            some (sent.giveUp request attempt worker.serial
              (.transport s!"write: {error}"))
        | none => some { sent with phase := .awaiting request attempt id }
      else some { evaluator with phase := .panicked }
  | _, _ => none

/-- A line from the channel, which is closed once the reader thread has ended
and every line was taken. -/
def receive (host : Host) (evaluator : Evaluator) : Option Evaluator :=
  match evaluator.phase, evaluator.worker with
  | .awaiting request attempt id, some worker =>
      match worker.lines with
      | received :: rest =>
          let drained := { evaluator.record
              (.drained worker.serial received) with
            worker := some { worker with lines := rest } }
          match readReply host id received with
          | .ok reply => some (drained.finish (.answered reply))
          | .error error =>
              some (drained.giveUp request attempt worker.serial error)
      | [] =>
          if worker.reading then none
          else some (evaluator.giveUp request attempt worker.serial
            (.transport "worker closed stdout"))
  | _, _ => none

def expire (evaluator : Evaluator) : Option Evaluator :=
  match evaluator.phase, evaluator.worker, evaluator.timeout with
  | .awaiting request attempt _, some worker, some bound =>
      some (evaluator.giveUp request attempt worker.serial (.timeout bound))
  | _, _, _ => none

/-- The reader thread, which ends at the first error. -/
def workerWrites (evaluator : Evaluator) (received : Except String String) :
    Option Evaluator :=
  match evaluator.worker with
  | some worker =>
      if worker.reading then some
        { evaluator with worker := some { worker with
            lines := worker.lines ++ [received]
            reading := received.isOk } }
      else none
  | none => none

def workerCloses (evaluator : Evaluator) : Option Evaluator :=
  match evaluator.worker with
  | some worker =>
      if worker.reading then
        some { evaluator with worker := some { worker with reading := false } }
      else none
  | none => none

def act (host : Host) (evaluator : Evaluator) : Label → Option Evaluator
  | .call request => evaluator.begin request
  | .reload => evaluator.reload
  | .spawn failure => evaluator.spawn failure
  | .send failure => evaluator.send failure
  | .receive => evaluator.receive host
  | .expire => evaluator.expire
  | .workerWrites received => evaluator.workerWrites received
  | .workerCloses => evaluator.workerCloses

end Evaluator

def Step (host : Host) (before : Evaluator) (label : Label)
    (after : Evaluator) : Prop :=
  before.act host label = some after

def Reaches (host : Host) (timeout : Option Duration) (evaluator : Evaluator) :
    Prop :=
  Reachable (· = Evaluator.new timeout) (Step host) anyStep evaluator

end Mandala.Eval
