import Mandala.Data.Derive
import Mandala.Data.Reading
import Mandala.Eval.Pairing
import Mandala.Eval.Toplevels

/-!
# The worker behind the requests

The worker reads a request off its standard input, evaluates it and writes one
line back, and keeps what it has evaluated for the next request.  It may die at
any moment, also within a line.
-/

namespace Mandala.Eval

open Mandala.Data Mandala.Data.Derive Mandala.Drift Mandala.Transition

/-! ## Requests and responses -/

/-- A request as the worker reads it. -/
structure WorkerRequest where
  id : ℕ
  op : String
  flake : String
  member : Option String
  members : Option (List String)

/-- The worker's reader of a request. -/
def WorkerRequest.ofValue (value : Json) : Option WorkerRequest := do
  let content ← contentOf value
  let id ← content.required 0 "id" asWord64
  let op ← content.required 1 "op" Json.asStr
  let flake ← content.defaulted 2 "flake" Json.asStr ""
  let member ← content.optional 3 "member" Json.asStr
  let members ← content.optional 4 "members" asStrings
  content.finished 5
  some { id, op, flake, member, members }

/-- The request a line carries. -/
def Request.received (request : Request) (id : ℕ) : WorkerRequest :=
  { id, op := request.op, flake := request.flake, member := request.member
    members := request.members }

structure Response where
  id : ℕ
  ok : Bool
  value : Option Json
  error : Option String

namespace Response

/-- `Response::ok`. -/
def ofOk (id : ℕ) (value : Option Json) : Response :=
  { id, ok := true, value, error := none }

/-- `Response::err`. -/
def ofErr (id : ℕ) (error : String) : Response :=
  { id, ok := false, value := none, error := some error }

/-- What a response is serialized as. -/
def fields (response : Response) : Reply :=
  ("id", .int response.id) :: ("ok", .bool response.ok) ::
    ((response.value.map fun value => ("value", value)).toList ++
      (response.error.map fun error => ("error", Json.string error)).toList)

/-- What the caller makes of a response. -/
def result (response : Response) : Except String (Option Json) :=
  if response.ok then .ok response.value
  else .error (response.error.getD "unknown worker error")

end Response

/-- The evaluator in the worker, over what the Nix library keeps. -/
structure Nix (σ : Type) where
  fresh : σ
  aggregate : σ → String → σ × Except String Json
  hostToplevel : σ → String → String → σ × Except String (Option String)
  expectedToplevels : σ → String → List String → σ × Except String Toplevels

/-- The two programs and what they take from their libraries; `refusal` is what
`serde_json` says of a value that is no request. -/
structure Service (σ : Type) where
  host : Host
  refusal : Json → String
  nix : Nix σ

namespace Service

variable {σ : Type} (service : Service σ)

def handle (state : σ) (request : WorkerRequest) : σ × Response :=
  match request.op with
  | "ping" => (state, .ofOk request.id none)
  | "aggregate" =>
      match service.nix.aggregate state request.flake with
      | (next, .ok value) => (next, .ofOk request.id (some value))
      | (next, .error error) => (next, .ofErr request.id error)
  | "host_eval" =>
      match request.member with
      | none => (state, .ofErr request.id "host_eval requires 'member'")
      | some member =>
          match service.nix.hostToplevel state request.flake member with
          | (next, .ok path) =>
              (next, .ofOk request.id
                (some ((path.map Json.string).getD .null)))
          | (next, .error error) => (next, .ofErr request.id error)
  | "expected_toplevels" | "toplevel" =>
      match service.nix.expectedToplevels state request.flake
          (request.members.getD []) with
      | (next, .ok toplevels) =>
          (next, .ofOk request.id (some (toplevelsValue toplevels)))
      | (next, .error error) => (next, .ofErr request.id error)
  | other => (state, .ofErr request.id
      s!"unknown op {service.host.debugStr other}")

def encode (response : Response) : String :=
  service.host.toStr (.object response.fields)

/-- One round of the loop in `run`: a blank line is skipped, and what is no
request is answered under the id 0. -/
def respond (state : σ) (line : String) : σ × Option String :=
  if Text.trim line.toList = [] then (state, none)
  else match service.host.fromStr line with
    | .error error =>
        (state, some (service.encode (.ofErr 0 ("bad request: " ++ error))))
    | .ok value =>
        match WorkerRequest.ofValue value with
        | none => (state, some (service.encode
            (.ofErr 0 ("bad request: " ++ service.refusal value))))
        | some request =>
            let (next, response) := service.handle state request
            (next, some (service.encode response))

/-- What a request is answered. -/
def answer (state : σ) (request : Request) (id : ℕ) : Response :=
  (service.handle state (request.received id)).2

/-- What the worker keeps after these lines. -/
def after (lines : List Json) : σ :=
  lines.foldl (fun state line =>
    (service.respond state (service.host.toStr line)).1) service.nix.fresh

end Service

/-! ## The caller and the process -/

/-- A running worker: the lines it has not read, and its evaluator. -/
structure Process (σ : Type) where
  stdin : List String
  nix : σ

/-- The process is that of the worker in the slot, as long as it lives. -/
structure System (σ : Type) where
  client : Evaluator
  process : Option (Process σ)

inductive SystemLabel where
  | call (request : Request)
  | reload
  | spawn (failure : Option String)
  | send (failure : Option String)
  | receive
  | expire
  | serve
  /-- The process ends within its next line, after so many characters. -/
  | dies (written : ℕ)
  | closes
  | readFails (error : String)

/-- The lines a worker was sent. -/
def sentTo (worker : ℕ) (history : List Event) : List Json :=
  history.filterMap fun
    | .sent _ receiver line => if receiver = worker then some line else none
    | _ => none

/-- The line of the request that is being waited for. -/
def Evaluator.pending (client : Evaluator) : Option Json :=
  match client.phase with
  | .awaiting request _ id => some (request.line id)
  | _ => none

/-- A line reaches the reader thread, if it still reads. -/
def Evaluator.hears (client : Evaluator) (text : String) : Evaluator :=
  (client.workerWrites (.ok text)).getD client

namespace System

variable {σ : Type} (service : Service σ)

def start (timeout : Option Duration) : System σ :=
  { client := .new timeout, process := none }

/-- A worker that has left the slot has been killed. -/
def follow (system : System σ) (client : Evaluator) : System σ :=
  { client
    process := if client.worker.isNone then none else system.process }

/-- What was written reaches the process. -/
def delivered (system : System σ) (client : Evaluator) : System σ :=
  match client.pending with
  | some line =>
      { client
        process := system.process.map fun process =>
          { process with stdin := process.stdin ++ [service.host.toStr line] } }
  | none => system.follow client

/-- What the process writes before it ends. -/
def lastWords (system : System σ) (written : ℕ) : String :=
  match system.process with
  | some { stdin := line :: _, nix } =>
      match (service.respond nix line).2 with
      | some text => String.ofList ((text.toList ++ ['\n']).take written)
      | none => ""
  | _ => ""

def serve (system : System σ) : Option (System σ) :=
  match system.process with
  | some { stdin := line :: stdin, nix } =>
      match service.respond nix line with
      | (nix, none) => some { system with process := some { stdin, nix } }
      | (nix, some text) =>
          some { client := system.client.hears (text ++ "\n")
                 process := some { stdin, nix } }
  | _ => none

/-- An unfinished line is read at the end of the file. -/
def dies (system : System σ) (written : ℕ) : Option (System σ) :=
  match system.process with
  | none => none
  | some _ =>
      let words := system.lastWords service written
      some { client := if words = "" then system.client
               else system.client.hears words
             process := none }

def act (system : System σ) : SystemLabel → Option (System σ)
  | .call request => (system.client.begin request).map system.follow
  | .reload => system.client.reload.map system.follow
  | .spawn failure => (system.client.spawn failure).map fun client =>
      if failure.isNone then
        { client, process := some { stdin := [], nix := service.nix.fresh } }
      else system.follow client
  | .send failure => (system.client.send failure).map (system.delivered service)
  | .receive => (system.client.receive service.host).map system.follow
  | .expire => system.client.expire.map system.follow
  | .serve => system.serve service
  | .dies written => system.dies service written
  | .closes =>
      if system.process.isNone then
        system.client.workerCloses.map system.follow
      else none
  | .readFails error =>
      (system.client.workerWrites (.error error)).map system.follow

def Step (before : System σ) (label : SystemLabel) (after : System σ) : Prop :=
  before.act service label = some after

end System

/-- The steps on which nothing goes wrong. -/
def SystemLabel.calm : SystemLabel → Bool
  | .spawn failure | .send failure => failure.isNone
  | .expire | .dies _ | .closes | .readFails _ => false
  | _ => true

/-- Faults may be excluded. -/
def Admits {σ : Type} (faults : Bool) (_ : System σ) (label : SystemLabel) :
    Prop :=
  faults = true ∨ label.calm = true

def Serves {σ : Type} (service : Service σ) (faults : Bool)
    (timeout : Option Duration) (system : System σ) : Prop :=
  Reachable (· = System.start timeout) (System.Step service) (Admits faults)
    system

end Mandala.Eval
