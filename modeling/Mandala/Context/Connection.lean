import Mandala.Core.Text
import Mandala.Core.Transition
import Mandala.Data.Json
import Mathlib.Data.Nat.Notation
import Mathlib.Tactic.Common

/-!
# One connection of the context endpoint

`serve_conn` is a reader, a writer fed by a bounded channel, one task for each
accepted call, a heartbeat and the subscription forwarders.  A task's step is
what it does between two of its waits.  A send is two such steps, since a
sender that has reserved its place in the channel may put its frame there after
the receiving half has been closed.
-/

namespace Mandala.Context.Endpoint

open Mandala.Data Mandala.Text Mandala.Transition

/-- `PROTOCOL_VERSION`. -/
def protocolVersion : ℕ := 1

/-- `UNAUTHORIZED`. -/
def unauthorized : String := "unauthorized"

inductive Frame where
  | hello (v : ℕ) (token client flake : String)
  | welcome (v : ℕ) (flake : String) (pid : ℕ)
  | error (error : String) (flake : Option String)
  | call (id : ℕ) (tool : String) (args : BTreeMap Json)
  | callResult (id : ℕ) (ok : Bool) (result : Option Json)
      (error : Option String)
  | subscribe
  | subscribed
  | event (event : Json)
  | ping
  | pong
  | heartbeat

/-- The call a result frame is for. -/
def Frame.resultId : Frame → Option ℕ
  | .callResult id .. => some id
  | _ => none

def unauthorizedFrame (flake : String) : Frame :=
  .error unauthorized (some flake)

/-- What the connections of an endpoint share. -/
structure Shared where
  token : String
  flake : String
  pid : ℕ
  shutdown : Bool
  deriving DecidableEq, Repr

/-! ## The tasks of a connection -/

structure Call where
  id : ℕ
  tool : String
  args : BTreeMap Json
  /-- The client the hello named. -/
  origin : String

/-- A call's task: its dispatch is running, or its result is being sent. -/
inductive Stage where
  | dispatching
  | sending (outcome : Except String Json) (permit : Bool)

structure CallTask where
  call : Call
  stage : Stage

def resultFrame (id : ℕ) : Except String Json → Frame
  | .ok result => .callResult id true (some result) none
  | .error error => .callResult id false none (some error)

@[simp]
theorem resultId_resultFrame (id : ℕ) (outcome : Except String Json) :
    (resultFrame id outcome).resultId = some id := by
  cases outcome <;> rfl

/-- A frame other than a result on its way into the channel. -/
structure Sending where
  frame : Frame
  permit : Bool
  plain : frame.resultId = none := by rfl

inductive BackgroundKind where
  | heartbeat
  | subscription
  deriving DecidableEq, Repr

/-- The heartbeat or a subscription forwarder, between frames when it is sending
none. -/
structure Background where
  kind : BackgroundKind
  sending : Option Sending

/-- The reader's own frame, and the task the reader spawns once it is sent. -/
structure Reply where
  sending : Sending
  spawns : Option BackgroundKind

inductive Reader where
  | hello
  | serving (client : String)
  | closing
  deriving DecidableEq, Repr

/-- `draining`: the writer has left its loop and closed the channel. -/
inductive Writer where
  | receiving
  | holding (frame : Frame)
  | draining
  | gone

structure Conn where
  reader : Reader
  reply : Option Reply
  calls : List CallTask
  background : List Background
  queue : List Frame
  writer : Writer
  broken : Bool
  inFlight : Int
  /-- The line that authenticated the connection, with the token of that
  moment. -/
  greeted : Option (String × String)
  /-- Every call that was accepted. -/
  accepted : List Call
  /-- Every frame that reached the socket. -/
  written : List Frame
  /-- The ids of the results that were given up. -/
  abandoned : List ℕ

def Conn.new : Conn :=
  { reader := .hello, reply := none, calls := [], background := [], queue := []
    writer := .receiving, broken := false, inFlight := 0, greeted := none
    accepted := [], written := [], abandoned := [] }

/-! ## The channel -/

/-- The capacity of `mpsc::channel`. -/
def channelCapacity : ℕ := 64

def CallTask.hasPermit (task : CallTask) : Bool :=
  match task.stage with
  | .dispatching => false
  | .sending _ permit => permit

def Background.hasPermit (task : Background) : Bool :=
  match task.sending with
  | some sending => sending.permit
  | none => false

namespace Conn

def replyHasPermit (conn : Conn) : Bool :=
  match conn.reply with
  | some reply => reply.sending.permit
  | none => false

/-- The places reserved in the channel. -/
def permits (conn : Conn) : ℕ :=
  conn.replyHasPermit.toNat + conn.calls.countP CallTask.hasPermit +
    conn.background.countP Background.hasPermit

def hasRoom (conn : Conn) : Bool :=
  conn.queue.length + conn.permits < channelCapacity

/-- The receiving half is closed. -/
def closed (conn : Conn) : Bool :=
  match conn.writer with
  | .draining | .gone => true
  | .receiving | .holding _ => false

/-- Every sender is gone. -/
def noSenders (conn : Conn) : Bool :=
  conn.reader = .closing && conn.reply.isNone && conn.calls.isEmpty &&
    conn.background.isEmpty

end Conn

/-- What the next step of a send does. -/
inductive Attempt where
  | waits
  | refused
  | reserved
  | pushed
  deriving DecidableEq, Repr

def Conn.attempt (conn : Conn) (permit : Bool) : Attempt :=
  if permit then .pushed
  else if conn.closed then .refused
  else if conn.hasRoom then .reserved
  else .waits

/-! ## The steps -/

variable (fromLine : String → Except String Frame)

/-- How a dispatch ends, short of a panic. -/
abbrev Outcome := Except String Json

inductive ConnLabel where
  | line (text : String)
  | eof
  | readerStops
  | readerSends
  | callEnds (index : ℕ) (outcome : Outcome)
  | callPanics (index : ℕ)
  | callSends (index : ℕ)
  | tick (index : ℕ)
  | event (index : ℕ) (event : Json)
  | backgroundSends (index : ℕ)
  | backgroundEnds (index : ℕ)
  | take
  | write (ok : Bool)
  | writerStops
  | drain
  | leave

namespace Conn

def reject (shared : Shared) (conn : Conn) : Conn :=
  { conn with
    reader := .closing
    reply := some
      { sending := { frame := unauthorizedFrame shared.flake, permit := false }
        spawns := none } }

/-- The first line: anything but a hello with the token in force is answered
with one error frame, after which the connection closes. -/
def greet (shared : Shared) (text : String) (conn : Conn) : Conn :=
  match fromLine text with
  | .ok (.hello _ token client _) =>
      if token = shared.token then
        { conn with
          reader := .serving client
          greeted := some (text, shared.token)
          reply := some
            { sending :=
                { frame := .welcome protocolVersion shared.flake shared.pid
                  permit := false }
              spawns := some .heartbeat } }
      else conn.reject shared
  | _ => conn.reject shared

def replyWith (conn : Conn) (sending : Sending)
    (spawns : Option BackgroundKind) : Conn :=
  { conn with reply := some { sending, spawns } }

/-- A call counts as unsettled from here on. -/
def accept (conn : Conn) (call : Call) : Conn :=
  { conn with
    calls := conn.calls ++ [{ call, stage := .dispatching }]
    inFlight := conn.inFlight + 1
    accepted := conn.accepted ++ [call] }

/-- One line of an authenticated client, with what it adds to the counter. -/
def serve (client text : String) (conn : Conn) : Conn × Int :=
  if trim text.toList = [] then (conn, 0)
  else match fromLine text with
    | .ok (.call id tool args) =>
        (conn.accept { id, tool, args, origin := client }, 1)
    | .ok .subscribe =>
        (conn.replyWith { frame := .subscribed, permit := false }
          (some .subscription), 0)
    | .ok .ping => (conn.replyWith { frame := .pong, permit := false } none, 0)
    | .ok _ =>
        (conn.replyWith
          { frame := .error "unexpected frame" none, permit := false } none, 0)
    | .error error =>
        (conn.replyWith
          { frame := .error ("bad frame: " ++ error) none, permit := false }
          none, 0)

/-- The reader takes a line only when its last reply is on its way. -/
def readLine (shared : Shared) (text : String) (conn : Conn) :
    Option (Conn × Int) :=
  match conn.reply, conn.reader with
  | none, .hello => some (conn.greet fromLine shared text, 0)
  | none, .serving client => some (conn.serve fromLine client text)
  | _, _ => none

/-- End of file, a read error, or the hello's timeout. -/
def readEof (conn : Conn) : Option (Conn × Int) :=
  match conn.reply, conn.reader with
  | none, .hello | none, .serving _ => some ({ conn with reader := .closing }, 0)
  | _, _ => none

def readerStops (shared : Shared) (conn : Conn) : Option (Conn × Int) :=
  match conn.reply, conn.reader with
  | none, .serving _ =>
      if shared.shutdown then some ({ conn with reader := .closing }, 0)
      else none
  | _, _ => none

/-- The reader goes on, whether or not its frame went out. -/
def replied (conn : Conn) (reply : Reply) : Conn :=
  { conn with
    reply := none
    background := conn.background ++
      (reply.spawns.map fun kind => { kind, sending := none }).toList }

def readerSends (conn : Conn) : Option (Conn × Int) :=
  match conn.reply with
  | some reply =>
      match conn.attempt reply.sending.permit with
      | .waits => none
      | .refused => some (conn.replied reply, 0)
      | .reserved =>
          some ({ conn with
            reply := some
              { reply with
                sending := { reply.sending with permit := true } } }, 0)
      | .pushed =>
          some ({ conn.replied reply with
            queue := conn.queue ++ [reply.sending.frame] }, 0)
  | none => none

def callEnds (index : ℕ) (outcome : Outcome) (conn : Conn) :
    Option (Conn × Int) :=
  match conn.calls[index]? with
  | some { call, stage := .dispatching } =>
      some ({ conn with
        inFlight := conn.inFlight - 1
        calls := conn.calls.set index
          { call, stage := .sending outcome false } }, 0)
  | _ => none

/-- A panic unwinds the task: nothing after the dispatch is run. -/
def callPanics (index : ℕ) (conn : Conn) : Option (Conn × Int) :=
  match conn.calls[index]? with
  | some { stage := .dispatching, .. } =>
      some ({ conn with calls := conn.calls.eraseIdx index }, 0)
  | _ => none

/-- A result whose send fails is settled by its own task. -/
def callSends (index : ℕ) (conn : Conn) : Option (Conn × Int) :=
  match conn.calls[index]? with
  | some { call, stage := .sending outcome permit } =>
      match conn.attempt permit with
      | .waits => none
      | .refused =>
          some ({ conn with
            calls := conn.calls.eraseIdx index
            abandoned := conn.abandoned ++ [call.id] }, -1)
      | .reserved =>
          some ({ conn with
            calls := conn.calls.set index
              { call, stage := .sending outcome true } }, 0)
      | .pushed =>
          some ({ conn with
            calls := conn.calls.eraseIdx index
            queue := conn.queue ++ [resultFrame call.id outcome] }, 0)
  | _ => none

/-- The heartbeat sends a frame only while calls are in flight. -/
def tick (index : ℕ) (conn : Conn) : Option (Conn × Int) :=
  match conn.background[index]? with
  | some { kind := .heartbeat, sending := none } =>
      if 0 < conn.inFlight then
        some ({ conn with
          background := conn.background.set index
            { kind := .heartbeat
              sending := some { frame := .heartbeat, permit := false } } }, 0)
      else some (conn, 0)
  | _ => none

def forward (index : ℕ) (event : Json) (conn : Conn) : Option (Conn × Int) :=
  match conn.background[index]? with
  | some { kind := .subscription, sending := none } =>
      some ({ conn with
        background := conn.background.set index
          { kind := .subscription
            sending := some { frame := .event event, permit := false } } }, 0)
  | _ => none

def backgroundSends (index : ℕ) (conn : Conn) : Option (Conn × Int) :=
  match conn.background[index]? with
  | some { kind, sending := some sending } =>
      match conn.attempt sending.permit with
      | .waits => none
      | .refused =>
          some ({ conn with background := conn.background.eraseIdx index }, 0)
      | .reserved =>
          some ({ conn with
            background := conn.background.set index
              { kind, sending := some { sending with permit := true } } }, 0)
      | .pushed =>
          some ({ conn with
            background := conn.background.set index { kind, sending := none }
            queue := conn.queue ++ [sending.frame] }, 0)
  | _ => none

/-- The reader is done with the connection, the host shuts down, or the
activity stream of a forwarder is closed. -/
def backgroundEnds (shared : Shared) (index : ℕ) (conn : Conn) :
    Option (Conn × Int) :=
  match conn.background[index]? with
  | some { kind, sending := none } =>
      if conn.reader = .closing ∧ conn.reply.isNone ∨ shared.shutdown ∨
          kind = .subscription then
        some ({ conn with background := conn.background.eraseIdx index }, 0)
      else none
  | _ => none

def take (conn : Conn) : Option (Conn × Int) :=
  match conn.writer, conn.queue with
  | .receiving, frame :: rest =>
      some ({ conn with writer := .holding frame, queue := rest }, 0)
  | _, _ => none

/-- A result the writer does not write is given up; either way the writer
settles it. -/
def settle (conn : Conn) (frame : Frame) (wrote : Bool) : Conn × Int :=
  ({ conn with
    written := if wrote then conn.written ++ [frame] else conn.written
    abandoned :=
      if wrote then conn.abandoned
      else conn.abandoned ++ frame.resultId.toList },
    if frame.resultId.isSome then -1 else 0)

/-- After a write error the writer goes on without writing. -/
def write (ok : Bool) (conn : Conn) : Option (Conn × Int) :=
  match conn.writer with
  | .holding frame =>
      let broken := conn.broken || !ok
      some ({ conn with writer := .receiving, broken }.settle frame !broken)
  | _ => none

/-- The writer's loop ends when every sender is gone or the host shuts down. -/
def writerStops (shared : Shared) (conn : Conn) : Option (Conn × Int) :=
  match conn.writer with
  | .receiving =>
      if shared.shutdown ∨ conn.noSenders ∧ conn.queue = [] then
        some ({ conn with writer := .draining }, 0)
      else none
  | _ => none

def drain (conn : Conn) : Option (Conn × Int) :=
  match conn.writer, conn.queue with
  | .draining, frame :: rest =>
      some ({ conn with queue := rest }.settle frame false)
  | _, _ => none

/-- `try_recv` finds the channel empty, whether or not places are reserved. -/
def leave (conn : Conn) : Option (Conn × Int) :=
  match conn.writer, conn.queue with
  | .draining, [] => some ({ conn with writer := .gone }, 0)
  | _, _ => none

/-- One step of the connection, with what it adds to the shared counter. -/
def act (shared : Shared) (conn : Conn) : ConnLabel → Option (Conn × Int)
  | .line text => conn.readLine fromLine shared text
  | .eof => conn.readEof
  | .readerStops => conn.readerStops shared
  | .readerSends => conn.readerSends
  | .callEnds index outcome => conn.callEnds index outcome
  | .callPanics index => conn.callPanics index
  | .callSends index => conn.callSends index
  | .tick index => conn.tick index
  | .event index event => conn.forward index event
  | .backgroundSends index => conn.backgroundSends index
  | .backgroundEnds index => conn.backgroundEnds shared index
  | .take => conn.take
  | .write ok => conn.write ok
  | .writerStops => conn.writerStops shared
  | .drain => conn.drain
  | .leave => conn.leave

/-! ## What a step does with the calls -/

def acceptedIds (conn : Conn) : List ℕ := conn.accepted.map Call.id

/-- The ids of the results that reached the socket. -/
def writtenIds (conn : Conn) : List ℕ := conn.written.filterMap Frame.resultId

/-- The frame the writer has taken out of the channel. -/
def held (conn : Conn) : List Frame :=
  match conn.writer with
  | .holding frame => [frame]
  | _ => []

/-- The ids of the calls whose results are still to come. -/
def inProgress (conn : Conn) : List ℕ :=
  conn.calls.map (fun task => task.call.id) ++
    (conn.queue ++ conn.held).filterMap Frame.resultId

/-- The accepted calls whose results were neither written nor given up. -/
def awaiting (conn : Conn) : Int :=
  conn.acceptedIds.length - conn.writtenIds.length - conn.abandoned.length

/-- The ids of calls taken up, of results written and given up, and of calls
that come to nothing in one step. -/
structure Moves (before after : Conn) (took wrote gaveUp lost : List ℕ) :
    Prop where
  accepted : after.acceptedIds = before.acceptedIds ++ took
  written : after.writtenIds = before.writtenIds ++ wrote
  abandoned : after.abandoned = before.abandoned ++ gaveUp
  inProgress : ∀ id,
    before.inProgress.count id + took.count id =
      after.inProgress.count id + wrote.count id + gaveUp.count id +
        lost.count id

/-- A step that leaves the calls alone. -/
theorem Moves.idle {before after : Conn}
    (haccepted : after.accepted = before.accepted)
    (hwritten : after.written = before.written)
    (habandoned : after.abandoned = before.abandoned)
    (hprogress : after.inProgress = before.inProgress) :
    Moves before after [] [] [] [] where
  accepted := by simp [acceptedIds, haccepted]
  written := by simp [writtenIds, hwritten]
  abandoned := by simp [habandoned]
  inProgress id := by simp [hprogress]

/-- What a step adds to the shared counter is what its moves amount to, and only
a panic loses a call. -/
structure Accounts (before after : Conn) (delta : Int) (label : ConnLabel) :
    Prop where
  moves : ∃ took wrote gaveUp lost, Moves before after took wrote gaveUp lost ∧
    delta = took.length - wrote.length - gaveUp.length ∧
    ((∀ index, label ≠ .callPanics index) → lost = [])

theorem Accounts.idle {before after : Conn} {label : ConnLabel}
    (haccepted : after.accepted = before.accepted)
    (hwritten : after.written = before.written)
    (habandoned : after.abandoned = before.abandoned)
    (hprogress : after.inProgress = before.inProgress) :
    Accounts before after 0 label :=
  ⟨[], [], [], [], Moves.idle haccepted hwritten habandoned hprogress, rfl,
    fun _ => rfl⟩

theorem greet_inProgress (shared : Shared) (text : String) (conn : Conn) :
    (conn.greet fromLine shared text).inProgress = conn.inProgress ∧
      (conn.greet fromLine shared text).accepted = conn.accepted ∧
      (conn.greet fromLine shared text).written = conn.written ∧
      (conn.greet fromLine shared text).abandoned = conn.abandoned := by
  unfold greet
  split
  · split
    · exact ⟨rfl, rfl, rfl, rfl⟩
    · exact ⟨rfl, rfl, rfl, rfl⟩
  · exact ⟨rfl, rfl, rfl, rfl⟩

theorem accept_accounts (conn : Conn) (call : Call) (label : ConnLabel) :
    Accounts conn (conn.accept call) 1 label := by
  refine ⟨[call.id], [], [], [], ⟨?_, ?_, ?_, ?_⟩, rfl, fun _ => rfl⟩
  · simp [acceptedIds, accept]
  · simp [writtenIds, accept]
  · simp [accept]
  · intro id
    simp only [inProgress, held, accept, List.map_append, List.map_cons,
      List.map_nil, List.count_append, List.count_nil]
    omega

theorem serve_accounts (client text : String) (conn : Conn)
    (label : ConnLabel) :
    Accounts conn (conn.serve fromLine client text).1
      (conn.serve fromLine client text).2 label := by
  unfold serve
  split
  · exact Accounts.idle rfl rfl rfl rfl
  · split
    · exact accept_accounts conn _ label
    · exact Accounts.idle rfl rfl rfl rfl
    · exact Accounts.idle rfl rfl rfl rfl
    · exact Accounts.idle rfl rfl rfl rfl
    · exact Accounts.idle rfl rfl rfl rfl

theorem settle_accounts {conn : Conn} {frame : Frame} {next : Conn}
    (hnext : next.accepted = conn.accepted ∧ next.written = conn.written ∧
      next.abandoned = conn.abandoned)
    (hprogress : ∀ id, conn.inProgress.count id =
      next.inProgress.count id + frame.resultId.toList.count id)
    (wrote : Bool) (label : ConnLabel) :
    Accounts conn (next.settle frame wrote).1 (next.settle frame wrote).2
      label := by
  obtain ⟨haccepted, hwritten, habandoned⟩ := hnext
  have hsame : (next.settle frame wrote).1.inProgress = next.inProgress := rfl
  cases wrote with
  | true =>
      refine ⟨[], frame.resultId.toList, [], [], ⟨?_, ?_, ?_, ?_⟩, ?_,
        fun _ => rfl⟩
      · simp [acceptedIds, settle, haccepted]
      · simp only [writtenIds, settle, if_true, hwritten,
          List.filterMap_append, List.append_cancel_left_eq]
        cases hid : frame.resultId <;> simp [hid]
      · simp [settle, habandoned]
      · intro id
        have hcount := hprogress id
        simp only [hsame, List.count_nil]
        omega
      · cases hid : frame.resultId <;> simp [settle, hid]
  | false =>
      refine ⟨[], [], frame.resultId.toList, [], ⟨?_, ?_, ?_, ?_⟩, ?_,
        fun _ => rfl⟩
      · simp [acceptedIds, settle, haccepted]
      · simp [writtenIds, settle, hwritten]
      · simp [settle, habandoned]
      · intro id
        have hcount := hprogress id
        simp only [hsame, List.count_nil]
        omega
      · cases hid : frame.resultId <;> simp [settle, hid]

/-- Replacing a call's task by another of the same call keeps what is in
progress. -/
theorem inProgress_set {conn : Conn} {index : ℕ} {task moved : CallTask}
    (hfound : conn.calls[index]? = some task)
    (hcall : moved.call = task.call) :
    { conn with calls := conn.calls.set index moved }.inProgress =
      conn.inProgress := by
  obtain ⟨before, after, hcalls, hset, -⟩ := exists_split_of_getElem? hfound
  have hmoved := hset moved
  simp only [inProgress, held, hmoved]
  rw [hcalls]
  simp only [List.map_append, List.map_cons, hcall]

theorem inProgress_erase {conn : Conn} {index : ℕ} {task : CallTask}
    (hfound : conn.calls[index]? = some task) (id : ℕ) :
    conn.inProgress.count id =
      { conn with calls := conn.calls.eraseIdx index }.inProgress.count id +
        [task.call.id].count id := by
  obtain ⟨before, after, hcalls, -, herase⟩ := exists_split_of_getElem? hfound
  simp only [inProgress, held, herase]
  rw [hcalls]
  simp only [List.map_append, List.map_cons, List.count_append,
    List.count_cons, List.count_nil]
  omega

theorem callPanics_accounts {conn after : Conn} {index : ℕ} {delta : Int}
    (hstep : conn.callPanics index = some (after, delta)) :
    Accounts conn after delta (.callPanics index) := by
  unfold callPanics at hstep
  split at hstep
  · next call hfound =>
      cases hstep
      refine ⟨[], [], [], [call.id], ⟨?_, ?_, ?_, ?_⟩, rfl, ?_⟩
      · simp [acceptedIds]
      · simp [writtenIds]
      · simp
      · intro id
        exact inProgress_erase hfound id
      · intro hother
        exact absurd rfl (hother index)
  · cases hstep

theorem callSends_accounts {conn after : Conn} {index : ℕ} {delta : Int}
    (hstep : conn.callSends index = some (after, delta)) :
    Accounts conn after delta (.callSends index) := by
  unfold callSends at hstep
  split at hstep
  · next call outcome permit hfound =>
      split at hstep
      · cases hstep
      · cases hstep
        refine ⟨[], [], [call.id], [], ⟨?_, ?_, ?_, ?_⟩, rfl, fun _ => rfl⟩
        · simp [acceptedIds]
        · simp [writtenIds]
        · simp
        · intro id
          exact inProgress_erase hfound id
      · cases hstep
        exact Accounts.idle rfl rfl rfl (inProgress_set hfound rfl)
      · cases hstep
        refine ⟨[], [], [], [], ⟨?_, ?_, ?_, ?_⟩, rfl, fun _ => rfl⟩
        · simp [acceptedIds]
        · simp [writtenIds]
        · simp
        · intro id
          have hcount : conn.inProgress.count id =
              { conn with
                calls := conn.calls.eraseIdx index }.inProgress.count id +
                  [call.id].count id :=
            inProgress_erase hfound id
          simp only [inProgress, held, List.filterMap_append,
            List.count_append, List.filterMap_cons, resultId_resultFrame,
            List.filterMap_nil, List.count_nil] at hcount ⊢
          omega
  · cases hstep

theorem callEnds_accounts {conn after : Conn} {index : ℕ} {outcome : Outcome}
    {delta : Int} (hstep : conn.callEnds index outcome = some (after, delta)) :
    Accounts conn after delta (.callEnds index outcome) := by
  unfold callEnds at hstep
  split at hstep
  · next call hfound =>
      cases hstep
      exact Accounts.idle rfl rfl rfl (inProgress_set hfound rfl)
  · cases hstep

/-- A frame that is no result leaves the calls alone on its way. -/
theorem inProgress_plain (conn : Conn) {frame : Frame}
    (hplain : frame.resultId = none) :
    { conn with queue := conn.queue ++ [frame] }.inProgress =
      conn.inProgress := by
  simp [inProgress, held, hplain]

theorem readerSends_accounts {conn after : Conn} {delta : Int}
    (hstep : conn.readerSends = some (after, delta)) :
    Accounts conn after delta .readerSends := by
  unfold readerSends at hstep
  split at hstep
  · next reply hreply =>
      split at hstep
      · cases hstep
      · cases hstep
        exact Accounts.idle rfl rfl rfl rfl
      · cases hstep
        exact Accounts.idle rfl rfl rfl rfl
      · cases hstep
        exact Accounts.idle rfl rfl rfl
          (inProgress_plain conn reply.sending.plain)
  · cases hstep

theorem backgroundSends_accounts {conn after : Conn} {index : ℕ} {delta : Int}
    (hstep : conn.backgroundSends index = some (after, delta)) :
    Accounts conn after delta (.backgroundSends index) := by
  unfold backgroundSends at hstep
  split at hstep
  · next kind sending hfound =>
      split at hstep
      · cases hstep
      · cases hstep
        exact Accounts.idle rfl rfl rfl rfl
      · cases hstep
        exact Accounts.idle rfl rfl rfl rfl
      · cases hstep
        exact Accounts.idle rfl rfl rfl (inProgress_plain conn sending.plain)
  · cases hstep

theorem take_accounts {conn after : Conn} {delta : Int}
    (hstep : conn.take = some (after, delta)) :
    Accounts conn after delta .take := by
  unfold take at hstep
  split at hstep
  · next frame rest hwriter hqueue =>
      cases hstep
      refine ⟨[], [], [], [], ⟨?_, ?_, ?_, ?_⟩, rfl, fun _ => rfl⟩
      · simp [acceptedIds]
      · simp [writtenIds]
      · simp
      · intro id
        simp only [inProgress, held, hwriter, hqueue, List.append_nil,
          List.filterMap_append, List.count_append, List.count_nil]
        rw [show frame :: rest = [frame] ++ rest from rfl,
          List.filterMap_append, List.count_append]
        omega
  · cases hstep

theorem write_accounts {conn after : Conn} {ok : Bool} {delta : Int}
    (hstep : conn.write ok = some (after, delta)) :
    Accounts conn after delta (.write ok) := by
  unfold write at hstep
  split at hstep
  · next frame hwriter =>
      let next : Conn :=
        { conn with writer := .receiving, broken := conn.broken || !ok }
      have hprogress (id : ℕ) : conn.inProgress.count id =
          next.inProgress.count id + frame.resultId.toList.count id := by
        simp only [next, inProgress, held, hwriter, List.append_nil,
          List.filterMap_append, List.count_append]
        cases hid : frame.resultId with
        | none => simp [hid]
        | some result =>
            simp [hid]
            omega
      have haccounts := @settle_accounts conn frame next ⟨rfl, rfl, rfl⟩
        hprogress (!(conn.broken || !ok)) (.write ok)
      rw [Option.some.inj hstep] at haccounts
      exact haccounts
  · cases hstep

theorem drain_accounts {conn after : Conn} {delta : Int}
    (hstep : conn.drain = some (after, delta)) :
    Accounts conn after delta .drain := by
  unfold drain at hstep
  split at hstep
  · next frame rest hwriter hqueue =>
      let next : Conn := { conn with queue := rest }
      have hprogress (id : ℕ) : conn.inProgress.count id =
          next.inProgress.count id + frame.resultId.toList.count id := by
        simp only [next, inProgress, held, hwriter, hqueue, List.append_nil,
          List.count_append]
        cases hid : frame.resultId with
        | none => simp [hid]
        | some result =>
            simp [hid, List.count_cons]
            omega
      have haccounts := @settle_accounts conn frame next ⟨rfl, rfl, rfl⟩
        hprogress false .drain
      rw [Option.some.inj hstep] at haccounts
      exact haccounts
  · cases hstep

theorem readLine_accounts {conn after : Conn} {shared : Shared} {text : String}
    {delta : Int}
    (hstep : conn.readLine fromLine shared text = some (after, delta)) :
    Accounts conn after delta (.line text) := by
  unfold readLine at hstep
  split at hstep
  · cases hstep
    obtain ⟨hprogress, haccepted, hwritten, habandoned⟩ :=
      greet_inProgress fromLine shared text conn
    exact Accounts.idle haccepted hwritten habandoned hprogress
  · next client _ _ =>
      have haccounts := serve_accounts fromLine client text conn (.line text)
      rw [Option.some.inj hstep] at haccounts
      exact haccounts
  · cases hstep

theorem readEof_accounts {conn after : Conn} {delta : Int}
    (hstep : conn.readEof = some (after, delta)) :
    Accounts conn after delta .eof := by
  unfold readEof at hstep
  split at hstep
  · cases hstep
    exact Accounts.idle rfl rfl rfl rfl
  · cases hstep
    exact Accounts.idle rfl rfl rfl rfl
  · cases hstep

theorem readerStops_accounts {conn after : Conn} {shared : Shared} {delta : Int}
    (hstep : conn.readerStops shared = some (after, delta)) :
    Accounts conn after delta .readerStops := by
  unfold readerStops at hstep
  split at hstep
  · split at hstep
    · cases hstep
      exact Accounts.idle rfl rfl rfl rfl
    · cases hstep
  · cases hstep

theorem tick_accounts {conn after : Conn} {index : ℕ} {delta : Int}
    (hstep : conn.tick index = some (after, delta)) :
    Accounts conn after delta (.tick index) := by
  unfold tick at hstep
  split at hstep
  · split at hstep
    · cases hstep
      exact Accounts.idle rfl rfl rfl rfl
    · cases hstep
      exact Accounts.idle rfl rfl rfl rfl
  · cases hstep

theorem backgroundEnds_accounts {conn after : Conn} {shared : Shared}
    {index : ℕ} {delta : Int}
    (hstep : conn.backgroundEnds shared index = some (after, delta)) :
    Accounts conn after delta (.backgroundEnds index) := by
  unfold backgroundEnds at hstep
  split at hstep
  · split at hstep
    · cases hstep
      exact Accounts.idle rfl rfl rfl rfl
    · cases hstep
  · cases hstep

/-- The writer stops between two frames. -/
theorem writerStops_accounts {conn after : Conn} {shared : Shared}
    {delta : Int} (hstep : conn.writerStops shared = some (after, delta)) :
    Accounts conn after delta .writerStops := by
  unfold writerStops at hstep
  split at hstep
  · next hwriter =>
      split at hstep
      · cases hstep
        refine Accounts.idle rfl rfl rfl ?_
        simp [inProgress, held, hwriter]
      · cases hstep
  · cases hstep

theorem leave_accounts {conn after : Conn} {delta : Int}
    (hstep : conn.leave = some (after, delta)) :
    Accounts conn after delta .leave := by
  unfold leave at hstep
  split at hstep
  · next hwriter hqueue =>
      cases hstep
      refine Accounts.idle rfl rfl rfl ?_
      simp [inProgress, held, hwriter]
  · cases hstep

/-- The one account of all steps. -/
theorem act_accounts {conn after : Conn} {shared : Shared} {label : ConnLabel}
    {delta : Int}
    (hstep : conn.act fromLine shared label = some (after, delta)) :
    Accounts conn after delta label := by
  cases label with
  | line text => exact readLine_accounts fromLine hstep
  | eof => exact readEof_accounts hstep
  | readerStops => exact readerStops_accounts hstep
  | readerSends => exact readerSends_accounts hstep
  | callEnds index outcome => exact callEnds_accounts hstep
  | callPanics index => exact callPanics_accounts hstep
  | callSends index => exact callSends_accounts hstep
  | tick index => exact tick_accounts hstep
  | event index event =>
      change conn.forward index event = _ at hstep
      unfold forward at hstep
      split at hstep
      · cases hstep
        exact Accounts.idle rfl rfl rfl rfl
      · cases hstep
  | backgroundSends index => exact backgroundSends_accounts hstep
  | backgroundEnds index => exact backgroundEnds_accounts hstep
  | take => exact take_accounts hstep
  | write ok => exact write_accounts hstep
  | writerStops => exact writerStops_accounts hstep
  | drain => exact drain_accounts hstep
  | leave => exact leave_accounts hstep

end Conn

end Mandala.Context.Endpoint
