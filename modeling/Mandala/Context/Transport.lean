import Mandala.Context.Endpoint
import Mandala.Context.Wire

/-!
# What the peer of a connection receives

The endpoint hands frames to a socket, and the peer takes lines out of it.
Every frame an endpoint sends is one the peer can read, whatever lines it is
sent itself, so the peer receives what was written, up to where the stream was
cut.
-/

namespace Mandala.Context.Wire

open Mandala.Data Mandala.Data.Derive Mandala.Data.Json
  Mandala.Context.Endpoint Mandala.Transition

/-! ## Frames the endpoint sends -/

/-- A value that fits into a frame. -/
structure Payload (value : Json) : Prop where
  typed : valueOf value = value
  fits : value.fits 126

theorem sendable_result {id : ℕ} (hid : id < 18446744073709551616)
    {outcome : Outcome} (houtcome : ∀ value, outcome = .ok value → Payload value) :
    Sendable (resultFrame id outcome) := by
  cases outcome with
  | ok value =>
      have hpayload := houtcome value rfl
      constructor
      · refine ⟨hid, ?_⟩
        rintro other ⟨⟩
        exact hpayload.typed
      · rw [resultFrame, frameValue, tagged, maxDepth, fits]
        simp [resultFields, skipped, fitsFields, hpayload.fits, fits, hid]
  | error error =>
      constructor
      · refine ⟨hid, ?_⟩
        rintro other ⟨⟩
      · rw [resultFrame, frameValue, tagged, maxDepth, fits]
        simp [resultFields, skipped, fitsFields, fits, hid]

theorem sendable_event {event : Json} (hevent : Payload event) :
    Sendable (.event event) where
  typed := hevent.typed
  fits := by
    rw [frameValue, tagged, maxDepth, fits]
    simp [fitsFields, hevent.fits, fits]

theorem sendable_error (error : String) (flake : Option String) :
    Sendable (.error error flake) where
  typed := trivial
  fits := by
    rw [frameValue, tagged, maxDepth, fits]
    cases flake <;> simp [errorFields, skipped, fitsFields, fits]

theorem sendable_welcome (flake : String) {pid : ℕ} (hpid : pid < 4294967296) :
    Sendable (.welcome protocolVersion flake pid) where
  typed := ⟨by decide, hpid⟩
  fits := by
    have hlong : pid < 18446744073709551616 :=
      Nat.lt_trans hpid (by decide)
    rw [frameValue, tagged, maxDepth, fits]
    simp [fitsFields, fits, protocolVersion, hlong]

theorem sendable_subscribed : Sendable .subscribed := ⟨trivial, rfl⟩

theorem sendable_pong : Sendable .pong := ⟨trivial, rfl⟩

theorem sendable_heartbeat : Sendable .heartbeat := ⟨trivial, rfl⟩

theorem exists_of_required {α : Type} {content : Content} {index : ℕ}
    {key : String} {read : Json → Option α} {found : α}
    (hfound : content.required index key read = some found) :
    ∃ value, read value = some found := by
  obtain ⟨value, -, hread⟩ := Option.bind_eq_some_iff.mp hfound
  cases value with
  | none => cases hread
  | some value => exact ⟨value, hread⟩

/-- The id of a call that was read has 64 bits. -/
theorem id_lt_of_frameOf {kind : String} {content : Content} {id : ℕ}
    {tool : String} {args : BTreeMap Json}
    (hframe : frameOf kind content = some (.call id tool args)) :
    id < 18446744073709551616 := by
  unfold frameOf at hframe
  split at hframe
  case h_4 =>
    obtain ⟨found, hid, hframe⟩ := Option.bind_eq_some_iff.mp hframe
    obtain ⟨tool, -, hframe⟩ := Option.bind_eq_some_iff.mp hframe
    obtain ⟨args, -, hframe⟩ := Option.bind_eq_some_iff.mp hframe
    obtain ⟨_, -, hframe⟩ := Option.bind_eq_some_iff.mp hframe
    cases hframe
    obtain ⟨value, hvalue⟩ := exists_of_required hid
    exact lt_of_asUnsigned hvalue
  all_goals simp [bind, Option.bind_eq_some_iff] at hframe

theorem id_lt_of_fromLine {serde : Serde} {text : String} {id : ℕ}
    {tool : String} {args : BTreeMap Json}
    (hread : fromLine serde text = .ok (.call id tool args)) :
    id < 18446744073709551616 := by
  unfold fromLine at hread
  split at hread
  · cases hread
  · next value hvalue =>
      split at hread
      · next frame hframe =>
          cases hread
          unfold frameOfValue at hframe
          split at hframe
          · split at hframe
            · exact id_lt_of_frameOf hframe
            · cases hframe
          · exact id_lt_of_frameOf hframe
          · cases hframe
      · cases hread

/-! ## The frames of a connection -/

/-- A call whose result, once there is one, is a frame the peer can read. -/
structure SoundCall (task : CallTask) : Prop where
  id_lt : task.call.id < 18446744073709551616
  result : ∀ outcome permit, task.stage = .sending outcome permit →
    Sendable (resultFrame task.call.id outcome)

def SoundBackground (task : Background) : Prop :=
  ∀ sending, task.sending = some sending → Sendable sending.frame

/-- Every frame of a connection, on its way or still to be made, is one the peer
can read. -/
structure Carries (conn : Conn) : Prop where
  outgoing : ∀ frame ∈ conn.outgoing, Sendable frame
  calls : ∀ task ∈ conn.calls, SoundCall task
  background : ∀ task ∈ conn.background, SoundBackground task

theorem Carries.new : Carries Conn.new := by
  constructor
  · intro frame hmem
    cases hmem
  · intro task hmem
    cases hmem
  · intro task hmem
    cases hmem

theorem mem_outgoing {conn : Conn} {frame : Frame} :
    frame ∈ conn.outgoing ↔
      frame ∈ conn.written ∨ frame ∈ conn.held ∨ frame ∈ conn.queue ∨
        ∃ reply, conn.reply = some reply ∧ reply.sending.frame = frame := by
  rw [Conn.outgoing, List.mem_append, List.mem_append, List.mem_append,
    Option.mem_toList, Option.map_eq_some_iff]

/-- What a dispatch and the activity stream may come to. -/
def Allowed : ConnLabel → Prop
  | .callEnds _ (.ok value) => Payload value
  | .event _ event => Payload event
  | _ => True

variable {serde : Serde}

/-- The frames of a connection that has a new reply to send. -/
theorem Carries.replies {conn : Conn} (hcarries : Carries conn) {reply : Reply}
    (hreply : Sendable reply.sending.frame) {reader : Endpoint.Reader}
    {greeted : Option (String × String)} :
    Carries { conn with reader, greeted, reply := some reply } where
  outgoing frame hmem := by
    rcases mem_outgoing.mp hmem with
      hwritten | hheld | hqueue | ⟨other, hother, hframe⟩
    · exact hcarries.outgoing frame (mem_outgoing.mpr (.inl hwritten))
    · exact hcarries.outgoing frame (mem_outgoing.mpr (.inr (.inl hheld)))
    · exact hcarries.outgoing frame (mem_outgoing.mpr (.inr (.inr (.inl hqueue))))
    · cases hother
      exact hframe ▸ hreply
  calls := hcarries.calls
  background := hcarries.background

theorem Carries.greet {conn : Conn} (hcarries : Carries conn) {shared : Shared}
    (hpid : shared.pid < 4294967296) (text : String) :
    Carries (conn.greet (fromLine serde) shared text) := by
  have hrejected : Carries (conn.reject shared) :=
    hcarries.replies (sendable_error unauthorized (some shared.flake))
  unfold Conn.greet
  split
  · split
    · exact hcarries.replies (sendable_welcome shared.flake hpid)
    · exact hrejected
  · exact hrejected

theorem Carries.serve {conn : Conn} (hcarries : Carries conn)
    (client text : String) :
    Carries (conn.serve (fromLine serde) client text).1 := by
  unfold Conn.serve
  split
  · exact hcarries
  · split
    · next id tool args hread =>
        have hcalls : ∀ task ∈ conn.calls ++
            [{ call := { id, tool, args, origin := client }
               stage := .dispatching }], SoundCall task := by
          intro task hmem
          rcases List.mem_append.mp hmem with hold | hnew
          · exact hcarries.calls task hold
          · rw [List.mem_singleton.mp hnew]
            refine ⟨id_lt_of_fromLine hread, ?_⟩
            intro outcome permit hstage
            cases hstage
        exact ⟨hcarries.outgoing, hcalls, hcarries.background⟩
    · exact hcarries.replies sendable_subscribed
    · exact hcarries.replies sendable_pong
    · exact hcarries.replies (sendable_error _ _)
    · exact hcarries.replies (sendable_error _ _)

theorem Carries.readLine {conn after : Conn} (hcarries : Carries conn)
    {shared : Shared} (hpid : shared.pid < 4294967296) {text : String}
    {delta : Int}
    (hstep : conn.readLine (fromLine serde) shared text = some (after, delta)) :
    Carries after := by
  unfold Conn.readLine at hstep
  split at hstep
  · cases hstep
    exact hcarries.greet hpid text
  · next client _ _ =>
      have hafter : (conn.serve (fromLine serde) client text).1 = after :=
        congrArg Prod.fst (Option.some.inj hstep)
      rw [← hafter]
      exact hcarries.serve client text
  · cases hstep

/-- A reply that has been given up. -/
theorem outgoing_without_reply {before after : Conn}
    (hwritten : after.written = before.written)
    (hheld : after.held = before.held) (hqueue : after.queue = before.queue)
    (hreply : after.reply = none) :
    ∀ frame ∈ after.outgoing, frame ∈ before.outgoing := by
  intro frame hmem
  rw [mem_outgoing, hwritten, hheld, hqueue, hreply] at hmem
  rcases hmem with hmem | hmem | hmem | ⟨reply, hnone, -⟩
  · exact mem_outgoing.mpr (.inl hmem)
  · exact mem_outgoing.mpr (.inr (.inl hmem))
  · exact mem_outgoing.mpr (.inr (.inr (.inl hmem)))
  · cases hnone

/-- A frame is put into the channel, which may have been the reply. -/
theorem outgoing_push {before after : Conn} {new : Frame}
    (hwritten : after.written = before.written)
    (hheld : after.held = before.held)
    (hqueue : after.queue = before.queue ++ [new])
    (hreply : after.reply = before.reply ∨ after.reply = none) :
    ∀ frame ∈ after.outgoing, frame ∈ before.outgoing ∨ frame = new := by
  intro frame hmem
  rw [mem_outgoing, hwritten, hheld, hqueue, List.mem_append,
    List.mem_singleton] at hmem
  rw [mem_outgoing]
  rcases hmem with hmem | hmem | (hmem | hmem) | ⟨reply, hsome, hframe⟩
  · exact .inl (.inl hmem)
  · exact .inl (.inr (.inl hmem))
  · exact .inl (.inr (.inr (.inl hmem)))
  · exact .inr hmem
  · rcases hreply with hsame | hnone
    · exact .inl (.inr (.inr (.inr ⟨reply, hsame ▸ hsome, hframe⟩)))
    · rw [hnone] at hsome
      cases hsome

theorem Carries.readerSends {conn after : Conn} (hcarries : Carries conn)
    {delta : Int} (hstep : conn.readerSends = some (after, delta)) :
    Carries after := by
  unfold Conn.readerSends at hstep
  split at hstep
  · next reply hreply =>
      have hsendable : Sendable reply.sending.frame :=
        hcarries.outgoing _ (mem_outgoing.mpr
          (.inr (.inr (.inr ⟨reply, hreply, rfl⟩))))
      have hspawned : ∀ task ∈ conn.background ++
          (reply.spawns.map fun kind =>
            ({ kind, sending := none } : Background)).toList,
          SoundBackground task := by
        intro task hmem
        rcases List.mem_append.mp hmem with hold | hnew
        · exact hcarries.background task hold
        · obtain ⟨kind, -, rfl⟩ :=
            Option.map_eq_some_iff.mp (Option.mem_toList.mp hnew)
          intro sending hsending
          cases hsending
      split at hstep
      · cases hstep
      · cases hstep
        have houtgoing : ∀ frame ∈ (conn.replied reply).outgoing,
            frame ∈ conn.outgoing := outgoing_without_reply rfl rfl rfl rfl
        exact ⟨fun frame hmem => hcarries.outgoing frame (houtgoing frame hmem),
          hcarries.calls, hspawned⟩
      · cases hstep
        exact hcarries.replies
          (show Sendable ({ reply with sending :=
            { reply.sending with permit := true } } : Reply).sending.frame
            from hsendable)
      · cases hstep
        have houtgoing : ∀ frame ∈ ({ conn.replied reply with
            queue := conn.queue ++ [reply.sending.frame] } : Conn).outgoing,
            frame ∈ conn.outgoing ∨ frame = reply.sending.frame :=
          outgoing_push rfl rfl rfl (.inr rfl)
        refine ⟨fun frame hmem => ?_, hcarries.calls, hspawned⟩
        rcases houtgoing frame hmem with hold | rfl
        · exact hcarries.outgoing frame hold
        · exact hsendable
  · cases hstep

theorem SoundCall.set {tasks : List CallTask}
    (hsound : ∀ task ∈ tasks, SoundCall task) (index : ℕ) {moved : CallTask}
    (hmoved : SoundCall moved) : ∀ task ∈ tasks.set index moved, SoundCall task := by
  intro task hmem
  rcases List.mem_or_eq_of_mem_set hmem with hold | rfl
  · exact hsound task hold
  · exact hmoved

theorem Carries.callEnds {conn after : Conn} (hcarries : Carries conn)
    {index : ℕ} {outcome : Outcome} {delta : Int}
    (hallowed : Allowed (.callEnds index outcome))
    (hstep : conn.callEnds index outcome = some (after, delta)) :
    Carries after := by
  unfold Conn.callEnds at hstep
  split at hstep
  · next call hfound =>
      cases hstep
      have hid := (hcarries.calls _ (List.mem_of_getElem? hfound)).id_lt
      have hpayload : ∀ value, outcome = .ok value → Payload value := by
        rintro value rfl
        exact hallowed
      have hmoved : SoundCall { call, stage := .sending outcome false } := by
        refine ⟨hid, ?_⟩
        intro other permit hstage
        cases hstage
        exact sendable_result hid hpayload
      exact ⟨hcarries.outgoing, SoundCall.set hcarries.calls index hmoved,
        hcarries.background⟩
  · cases hstep

theorem Carries.callPanics {conn after : Conn} (hcarries : Carries conn)
    {index : ℕ} {delta : Int}
    (hstep : conn.callPanics index = some (after, delta)) : Carries after := by
  unfold Conn.callPanics at hstep
  split at hstep
  · cases hstep
    exact ⟨hcarries.outgoing,
      fun task hmem => hcarries.calls task (List.mem_of_mem_eraseIdx hmem),
      hcarries.background⟩
  · cases hstep

theorem Carries.callSends {conn after : Conn} (hcarries : Carries conn)
    {index : ℕ} {delta : Int}
    (hstep : conn.callSends index = some (after, delta)) : Carries after := by
  unfold Conn.callSends at hstep
  split at hstep
  · next call outcome permit hfound =>
      have htask := hcarries.calls _ (List.mem_of_getElem? hfound)
      have herased : ∀ task ∈ conn.calls.eraseIdx index, SoundCall task :=
        fun task hmem => hcarries.calls task (List.mem_of_mem_eraseIdx hmem)
      split at hstep
      · cases hstep
      · cases hstep
        exact ⟨hcarries.outgoing, herased, hcarries.background⟩
      · cases hstep
        have hmoved : SoundCall { call, stage := .sending outcome true } := by
          refine ⟨htask.id_lt, ?_⟩
          intro other reserved hstage
          cases hstage
          exact htask.result outcome permit rfl
        exact ⟨hcarries.outgoing, SoundCall.set hcarries.calls index hmoved,
          hcarries.background⟩
      · cases hstep
        have houtgoing : ∀ frame ∈ ({ conn with
            calls := conn.calls.eraseIdx index
            queue := conn.queue ++ [resultFrame call.id outcome] } :
              Conn).outgoing,
            frame ∈ conn.outgoing ∨ frame = resultFrame call.id outcome :=
          outgoing_push rfl rfl rfl (.inl rfl)
        refine ⟨fun frame hmem => ?_, herased, hcarries.background⟩
        rcases houtgoing frame hmem with hold | rfl
        · exact hcarries.outgoing frame hold
        · exact htask.result outcome permit rfl
  · cases hstep

theorem SoundBackground.set {tasks : List Background}
    (hsound : ∀ task ∈ tasks, SoundBackground task) (index : ℕ)
    {moved : Background} (hmoved : SoundBackground moved) :
    ∀ task ∈ tasks.set index moved, SoundBackground task := by
  intro task hmem
  rcases List.mem_or_eq_of_mem_set hmem with hold | rfl
  · exact hsound task hold
  · exact hmoved

theorem soundBackground_sending {kind : BackgroundKind} {sending : Sending}
    (hsendable : Sendable sending.frame) :
    SoundBackground { kind, sending := some sending } := by
  intro other hother
  cases hother
  exact hsendable

theorem Carries.tick {conn after : Conn} (hcarries : Carries conn)
    {index : ℕ} {delta : Int} (hstep : conn.tick index = some (after, delta)) :
    Carries after := by
  unfold Conn.tick at hstep
  split at hstep
  · split at hstep
    · cases hstep
      exact ⟨hcarries.outgoing, hcarries.calls,
        SoundBackground.set hcarries.background index
          (soundBackground_sending sendable_heartbeat)⟩
    · cases hstep
      exact hcarries
  · cases hstep

theorem Carries.forward {conn after : Conn} (hcarries : Carries conn)
    {index : ℕ} {event : Json} (hevent : Payload event) {delta : Int}
    (hstep : conn.forward index event = some (after, delta)) :
    Carries after := by
  unfold Conn.forward at hstep
  split at hstep
  · cases hstep
    exact ⟨hcarries.outgoing, hcarries.calls,
      SoundBackground.set hcarries.background index
        (soundBackground_sending (sendable_event hevent))⟩
  · cases hstep

theorem Carries.backgroundSends {conn after : Conn} (hcarries : Carries conn)
    {index : ℕ} {delta : Int}
    (hstep : conn.backgroundSends index = some (after, delta)) :
    Carries after := by
  unfold Conn.backgroundSends at hstep
  split at hstep
  · next kind sending hfound =>
      have hsendable : Sendable sending.frame :=
        hcarries.background _ (List.mem_of_getElem? hfound) sending rfl
      split at hstep
      · cases hstep
      · cases hstep
        exact ⟨hcarries.outgoing, hcarries.calls, fun task hmem =>
          hcarries.background task (List.mem_of_mem_eraseIdx hmem)⟩
      · cases hstep
        have hmoved : SoundBackground
            { kind, sending := some { sending with permit := true } } :=
          soundBackground_sending hsendable
        exact ⟨hcarries.outgoing, hcarries.calls,
          SoundBackground.set hcarries.background index hmoved⟩
      · cases hstep
        have houtgoing : ∀ frame ∈ ({ conn with
            background := conn.background.set index { kind, sending := none }
            queue := conn.queue ++ [sending.frame] } : Conn).outgoing,
            frame ∈ conn.outgoing ∨ frame = sending.frame :=
          outgoing_push rfl rfl rfl (.inl rfl)
        have hmoved : SoundBackground { kind, sending := none } := by
          intro other hother
          cases hother
        refine ⟨fun frame hmem => ?_, hcarries.calls,
          SoundBackground.set hcarries.background index hmoved⟩
        rcases houtgoing frame hmem with hold | rfl
        · exact hcarries.outgoing frame hold
        · exact hsendable
  · cases hstep

theorem Carries.backgroundEnds {conn after : Conn} (hcarries : Carries conn)
    {shared : Shared} {index : ℕ} {delta : Int}
    (hstep : conn.backgroundEnds shared index = some (after, delta)) :
    Carries after := by
  unfold Conn.backgroundEnds at hstep
  split at hstep
  · split at hstep
    · cases hstep
      exact ⟨hcarries.outgoing, hcarries.calls, fun task hmem =>
        hcarries.background task (List.mem_of_mem_eraseIdx hmem)⟩
    · cases hstep
  · cases hstep

theorem Carries.take {conn after : Conn} (hcarries : Carries conn)
    {delta : Int} (hstep : conn.take = some (after, delta)) :
    Carries after := by
  unfold Conn.take at hstep
  split at hstep
  · next frame rest hwriter hqueue =>
      cases hstep
      refine ⟨fun other hmem => hcarries.outgoing other (List.Sublist.subset ?_ hmem),
        hcarries.calls, hcarries.background⟩
      simp [Conn.outgoing, Conn.held, hwriter, hqueue]
  · cases hstep

theorem Carries.write {conn after : Conn} (hcarries : Carries conn) {ok : Bool}
    {delta : Int} (hstep : conn.write ok = some (after, delta)) :
    Carries after := by
  unfold Conn.write at hstep
  split at hstep
  · next frame hwriter =>
      cases hstep
      refine ⟨fun other hmem => hcarries.outgoing other (List.Sublist.subset ?_ hmem),
        hcarries.calls, hcarries.background⟩
      apply (Conn.settle_outgoing_sublist _ frame _).trans
      simp [Conn.outgoing, Conn.held, hwriter]
  · cases hstep

theorem Carries.drain {conn after : Conn} (hcarries : Carries conn)
    {delta : Int} (hstep : conn.drain = some (after, delta)) :
    Carries after := by
  unfold Conn.drain at hstep
  split at hstep
  · next frame rest hwriter hqueue =>
      cases hstep
      refine ⟨fun other hmem => hcarries.outgoing other (List.Sublist.subset ?_ hmem),
        hcarries.calls, hcarries.background⟩
      apply (Conn.settle_outgoing_sublist _ frame _).trans
      simp [Conn.outgoing, Conn.held, hwriter, hqueue]
  · cases hstep

/-- The steps that stop the reader or the writer. -/
theorem Carries.readEof {conn after : Conn} (hcarries : Carries conn)
    {delta : Int} (hstep : conn.readEof = some (after, delta)) :
    Carries after := by
  unfold Conn.readEof at hstep
  split at hstep
  · cases hstep
    exact ⟨hcarries.outgoing, hcarries.calls, hcarries.background⟩
  · cases hstep
    exact ⟨hcarries.outgoing, hcarries.calls, hcarries.background⟩
  · cases hstep

theorem Carries.readerStops {conn after : Conn} (hcarries : Carries conn)
    {shared : Shared} {delta : Int}
    (hstep : conn.readerStops shared = some (after, delta)) :
    Carries after := by
  unfold Conn.readerStops at hstep
  split at hstep
  · split at hstep
    · cases hstep
      exact ⟨hcarries.outgoing, hcarries.calls, hcarries.background⟩
    · cases hstep
  · cases hstep

theorem Carries.writerStops {conn after : Conn} (hcarries : Carries conn)
    {shared : Shared} {delta : Int}
    (hstep : conn.writerStops shared = some (after, delta)) :
    Carries after := by
  unfold Conn.writerStops at hstep
  split at hstep
  · next hwriter =>
      split at hstep
      · cases hstep
        refine ⟨fun other hmem => hcarries.outgoing other (List.Sublist.subset ?_ hmem),
          hcarries.calls, hcarries.background⟩
        simp [Conn.outgoing, Conn.held, hwriter]
      · cases hstep
  · cases hstep

theorem Carries.leave {conn after : Conn} (hcarries : Carries conn)
    {delta : Int} (hstep : conn.leave = some (after, delta)) :
    Carries after := by
  unfold Conn.leave at hstep
  split at hstep
  · next hwriter hqueue =>
      cases hstep
      refine ⟨fun other hmem => hcarries.outgoing other (List.Sublist.subset ?_ hmem),
        hcarries.calls, hcarries.background⟩
      simp [Conn.outgoing, Conn.held, hwriter]
  · cases hstep

/-- One step of a connection keeps it. -/
theorem Carries.act {conn after : Conn} (hcarries : Carries conn)
    {shared : Shared} (hpid : shared.pid < 4294967296) {label : ConnLabel}
    (hallowed : Allowed label) {delta : Int}
    (hstep : conn.act (fromLine serde) shared label = some (after, delta)) :
    Carries after := by
  cases label with
  | line text => exact hcarries.readLine hpid hstep
  | eof => exact hcarries.readEof hstep
  | readerStops => exact hcarries.readerStops hstep
  | readerSends => exact hcarries.readerSends hstep
  | callEnds index outcome => exact hcarries.callEnds hallowed hstep
  | callPanics index => exact hcarries.callPanics hstep
  | callSends index => exact hcarries.callSends hstep
  | tick index => exact hcarries.tick hstep
  | event index event => exact hcarries.forward hallowed hstep
  | backgroundSends index => exact hcarries.backgroundSends hstep
  | backgroundEnds index => exact hcarries.backgroundEnds hstep
  | take => exact hcarries.take hstep
  | write ok => exact hcarries.write hstep
  | writerStops => exact hcarries.writerStops hstep
  | drain => exact hcarries.drain hstep
  | leave => exact hcarries.leave hstep

/-! ## Runs of the endpoint -/

/-- The dispatches and the activity stream yield payloads. -/
def Yields (_ : RunningHost) : Label → Prop
  | .conn _ label => Allowed label
  | _ => True

def startWith (host : RunningHost) : Prop :=
  host.start ∧ host.shared.pid < 4294967296

/-- Over any run, every connection carries frames its peer can read. -/
theorem carries_of_reachable {host : RunningHost}
    (hreach : Reachable startWith (RunningHost.step (fromLine serde)) Yields
      host) :
    host.shared.pid < 4294967296 ∧ ∀ conn ∈ host.conns, Carries conn := by
  apply hreach.invariant
  · intro start hstart
    refine ⟨hstart.2, fun conn hmem => ?_⟩
    rw [hstart.1.2.2.2] at hmem
    cases hmem
  · intro before label after hinvariant hyields hstep
    obtain ⟨hpid, hcarries⟩ := hinvariant
    cases label with
    | connect =>
        change before.accept = _ at hstep
        unfold RunningHost.accept at hstep
        split at hstep
        · cases hstep
        · cases hstep
          refine ⟨hpid, fun conn hmem => ?_⟩
          rcases List.mem_append.mp hmem with hold | hnew
          · exact hcarries conn hold
          · rw [List.mem_singleton.mp hnew]
            exact .new
    | rotateToken fresh =>
        cases hstep
        exact ⟨hpid, hcarries⟩
    | refuse =>
        cases hstep
        exact ⟨hpid, hcarries⟩
    | close expired =>
        change before.close expired = _ at hstep
        unfold RunningHost.close at hstep
        split at hstep
        · cases hstep
          exact ⟨hpid, hcarries⟩
        · cases hstep
    | drop =>
        cases hstep
        exact ⟨hpid, hcarries⟩
    | conn index label =>
        obtain ⟨conn, moved, delta, hfound, hact, rfl⟩ :=
          RunningHost.actConn_eq_some (fromLine serde) hstep
        refine ⟨hpid, fun other hmem => ?_⟩
        rcases List.mem_or_eq_of_mem_set hmem with hold | rfl
        · exact hcarries other hold
        · exact (hcarries conn (List.mem_of_getElem? hfound)).act hpid hyields
            hact

/-- A step that yields nothing but `null`. -/
def quiet : Label → Bool
  | .conn _ (.callEnds _ (.ok .null)) => true
  | .conn _ (.callEnds _ (.ok _)) | .conn _ (.event ..) => false
  | _ => true

theorem yields_of_quiet {label : Label} (hquiet : quiet label)
    (host : RunningHost) : Yields host label := by
  cases label with
  | conn index label =>
      cases label with
      | callEnds task outcome =>
          cases outcome with
          | ok value =>
              cases value with
              | null => exact ⟨rfl, rfl⟩
              | _ => cases hquiet
          | error error => trivial
      | event task event => cases hquiet
      | _ => trivial
  | _ => trivial

end Mandala.Context.Wire
