import Mandala.Context.Connection

/-!
# The hello gate of a connection

What holds of a connection between any two of its steps: nothing is served
before the hello, a result is given up only on a broken or closed connection,
and a writer that is gone leaves no result behind.
-/

namespace Mandala.Context.Endpoint

open Mandala.Data Mandala.Text Mandala.Transition

variable (fromLine : String → Except String Frame)

namespace Conn

/-- The frames on their way to the peer, those it already has first. -/
def outgoing (conn : Conn) : List Frame :=
  conn.written ++ (conn.held ++ (conn.queue ++
    (conn.reply.map fun reply => reply.sending.frame).toList))

/-- Before a hello with the token in force nothing is dispatched, and the peer
is sent one error frame at most. -/
structure Unauthenticated (flake : String) (conn : Conn) : Prop where
  accepted : conn.accepted = []
  calls : conn.calls = []
  background : conn.background = []
  reader : ∀ client, conn.reader ≠ .serving client
  spawns : ∀ reply, conn.reply = some reply → reply.spawns = none
  outgoing : conn.outgoing.Sublist [unauthorizedFrame flake]
  silent : conn.reader = .hello → conn.outgoing = []

/-- A step that sends nothing new. -/
theorem Unauthenticated.sublist {flake : String} {before after : Conn}
    (hbefore : Unauthenticated flake before)
    (haccepted : after.accepted = before.accepted)
    (hcalls : after.calls = before.calls)
    (hbackground : after.background = before.background)
    (hreader : after.reader = before.reader ∨ after.reader = .closing)
    (hspawns : ∀ reply, after.reply = some reply → reply.spawns = none)
    (houtgoing : after.outgoing.Sublist before.outgoing) :
    Unauthenticated flake after where
  accepted := haccepted.trans hbefore.accepted
  calls := hcalls.trans hbefore.calls
  background := hbackground.trans hbefore.background
  reader client := by
    rcases hreader with hsame | hclosing
    · rw [hsame]
      exact hbefore.reader client
    · rw [hclosing]
      exact Reader.noConfusion
  spawns := hspawns
  outgoing := houtgoing.trans hbefore.outgoing
  silent hhello := by
    rcases hreader with hsame | hclosing
    · have hnothing := hbefore.silent (hsame ▸ hhello)
      rw [hnothing] at houtgoing
      exact List.sublist_nil.mp houtgoing
    · rw [hclosing] at hhello
      cases hhello

/-- The part of the account that does not count calls. -/
structure Sound (shared : Shared) (conn : Conn) : Prop where
  gate : conn.greeted = none → Unauthenticated shared.flake conn
  greeting : ∀ text token, conn.greeted = some (text, token) →
    ∃ v client flake, fromLine text = .ok (.hello v token client flake)
  closed : conn.closed → shared.shutdown ∨ conn.noSenders ∧ conn.queue = []
  abandoned : conn.abandoned ≠ [] → conn.broken ∨ shared.shutdown
  /-- Nothing the connection still has to send is a result. -/
  gone : conn.writer = .gone →
    conn.queue.filterMap Frame.resultId = [] ∧
      ∀ task ∈ conn.calls, task.hasPermit = false

theorem Sound.new (shared : Shared) : Sound fromLine shared Conn.new where
  gate _ := by
    constructor
    · rfl
    · rfl
    · rfl
    · intro client hreader
      cases hreader
    · intro reply hreply
      cases hreply
    · exact List.nil_sublist _
    · intro _
      rfl
  greeting _ _ hgreeted := by cases hgreeted
  closed hclosed := by cases hclosed
  abandoned habandoned := absurd rfl habandoned
  gone hgone := by cases hgone

/-- While a sender is left, the channel is closed only by the shutdown. -/
theorem Sound.shutdown_of_sender {shared : Shared} {conn : Conn}
    (hsound : Sound fromLine shared conn) (hclosed : conn.closed)
    (hsenders : conn.noSenders = false) : shared.shutdown = true := by
  rcases hsound.closed hclosed with hshutdown | ⟨hnone, -⟩
  · exact hshutdown
  · rw [hsenders] at hnone
    cases hnone

/-! ## The steps keep it -/

theorem Unauthenticated.no_call {flake : String} {conn : Conn}
    (hgate : Unauthenticated flake conn) {index : ℕ} {task : CallTask}
    (hfound : conn.calls[index]? = some task) : False := by
  rw [hgate.calls] at hfound
  cases hfound

theorem Unauthenticated.no_background {flake : String} {conn : Conn}
    (hgate : Unauthenticated flake conn) {index : ℕ} {task : Background}
    (hfound : conn.background[index]? = some task) : False := by
  rw [hgate.background] at hfound
  cases hfound

theorem noSenders_of_reader {conn : Conn} (hreader : conn.reader ≠ .closing) :
    conn.noSenders = false := by
  simp [noSenders, hreader]

theorem noSenders_of_reply {conn : Conn} {reply : Reply}
    (hreply : conn.reply = some reply) : conn.noSenders = false := by
  simp [noSenders, hreply]

theorem noSenders_of_call {conn : Conn} {index : ℕ} {task : CallTask}
    (hfound : conn.calls[index]? = some task) : conn.noSenders = false := by
  cases hcalls : conn.calls with
  | nil =>
      rw [hcalls] at hfound
      cases hfound
  | cons first rest => simp [noSenders, hcalls]

theorem noSenders_of_background {conn : Conn} {index : ℕ} {task : Background}
    (hfound : conn.background[index]? = some task) :
    conn.noSenders = false := by
  cases hbackground : conn.background with
  | nil =>
      rw [hbackground] at hfound
      cases hfound
  | cons first rest => simp [noSenders, hbackground]

theorem attempt_refused {conn : Conn} {permit : Bool}
    (hattempt : conn.attempt permit = .refused) : conn.closed = true := by
  unfold attempt at hattempt
  by_cases hclosed : conn.closed = true
  · exact hclosed
  · grind

theorem attempt_reserved {conn : Conn} {permit : Bool}
    (hattempt : conn.attempt permit = .reserved) : conn.closed = false := by
  unfold attempt at hattempt
  grind

theorem attempt_reserved_free {conn : Conn} {permit : Bool}
    (hattempt : conn.attempt permit = .reserved) : permit = false := by
  unfold attempt at hattempt
  grind

theorem attempt_pushed {conn : Conn} {permit : Bool}
    (hattempt : conn.attempt permit = .pushed) : permit = true := by
  unfold attempt at hattempt
  grind

theorem closed_of_gone {conn : Conn} (hgone : conn.writer = .gone) :
    conn.closed = true := by
  rw [closed, hgone]

/-- A step of a sender that gives up nothing. -/
theorem Sound.of_sender {shared : Shared} {before after : Conn}
    (hsound : Sound fromLine shared before)
    (hsender : before.noSenders = false)
    (hwriter : after.writer = before.writer)
    (hbroken : after.broken = before.broken)
    (habandoned : after.abandoned = before.abandoned)
    (hgreeted : after.greeted = before.greeted)
    (hgate : Unauthenticated shared.flake before →
      Unauthenticated shared.flake after)
    (hgone : before.writer = .gone →
      after.queue.filterMap Frame.resultId = [] ∧
        ∀ task ∈ after.calls, task.hasPermit = false) :
    Sound fromLine shared after where
  gate hnone := hgate (hsound.gate (hgreeted ▸ hnone))
  greeting text token hsome := hsound.greeting text token (hgreeted ▸ hsome)
  closed hclosed := by
    have hbefore : before.closed = true := by
      rw [Conn.closed, ← hwriter]
      exact hclosed
    exact .inl (hsound.shutdown_of_sender fromLine hbefore hsender)
  abandoned hsome := by
    rw [hbroken]
    exact hsound.abandoned (habandoned ▸ hsome)
  gone hafter := hgone (hwriter ▸ hafter)

theorem Sound.reject {shared : Shared} {conn : Conn}
    (hsound : Sound fromLine shared conn) (hreader : conn.reader = .hello)
    (hreply : conn.reply = none) :
    Sound fromLine shared (conn.reject shared) := by
  have hsender : conn.noSenders = false :=
    noSenders_of_reader (by simp [hreader])
  refine hsound.of_sender fromLine hsender rfl rfl rfl rfl ?_ hsound.gone
  intro hgate
  have hnothing := hgate.silent hreader
  simp only [outgoing, hreply, Option.map_none, Option.toList_none,
    List.append_nil] at hnothing
  constructor
  · exact hgate.accepted
  · exact hgate.calls
  · exact hgate.background
  · intro client
    exact Reader.noConfusion
  · intro reply hsome
    cases hsome
    rfl
  · have houtgoing : (conn.reject shared).outgoing =
        (conn.written ++ (conn.held ++ conn.queue)) ++
          [unauthorizedFrame shared.flake] := by
      simp [outgoing, Conn.reject, held]
    rw [houtgoing, hnothing]
    exact List.Sublist.refl _
  · intro hhello
    cases hhello

theorem Sound.greet {shared : Shared} {conn : Conn} (text : String)
    (hsound : Sound fromLine shared conn) (hreader : conn.reader = .hello)
    (hreply : conn.reply = none) :
    Sound fromLine shared (conn.greet fromLine shared text) := by
  have hsender : conn.noSenders = false :=
    noSenders_of_reader (by simp [hreader])
  unfold Conn.greet
  split
  · next v token client flake hline =>
      split
      · next htoken =>
          constructor
          · intro hnone
            cases hnone
          · intro other presented hsome
            cases hsome
            exact ⟨v, client, flake, htoken ▸ hline⟩
          · intro hclosed
            exact .inl (hsound.shutdown_of_sender fromLine hclosed hsender)
          · exact hsound.abandoned
          · exact hsound.gone
      · exact hsound.reject fromLine hreader hreply
  · exact hsound.reject fromLine hreader hreply

theorem Sound.serve {shared : Shared} {conn : Conn} {client : String}
    (text : String) (hsound : Sound fromLine shared conn)
    (hreader : conn.reader = .serving client) :
    Sound fromLine shared (conn.serve fromLine client text).1 := by
  have hsender : conn.noSenders = false :=
    noSenders_of_reader (by simp [hreader])
  have hreply (sending : Sending) (spawns : Option BackgroundKind) :
      Sound fromLine shared (conn.replyWith sending spawns) :=
    hsound.of_sender fromLine hsender rfl rfl rfl rfl
      (fun hgate => absurd hreader (hgate.reader client)) hsound.gone
  unfold Conn.serve
  split
  · exact hsound
  · split
    · next id tool args hline =>
        refine hsound.of_sender fromLine hsender rfl rfl rfl rfl
          (fun hgate => absurd hreader (hgate.reader client)) ?_
        intro hgone
        obtain ⟨hqueue, hpermits⟩ := hsound.gone hgone
        refine ⟨hqueue, ?_⟩
        intro task hmem
        rcases List.mem_append.mp hmem with hold | hnew
        · exact hpermits task hold
        · rw [List.mem_singleton.mp hnew]
          rfl
    · exact hreply _ _
    · exact hreply _ _
    · exact hreply _ _
    · exact hreply _ _

theorem Sound.closing {shared : Shared} {conn : Conn}
    (hsound : Sound fromLine shared conn) (hreader : conn.reader ≠ .closing) :
    Sound fromLine shared { conn with reader := .closing } :=
  hsound.of_sender fromLine (noSenders_of_reader hreader) rfl rfl rfl rfl
    (fun hgate => hgate.sublist rfl rfl rfl (.inr rfl) hgate.spawns
      (List.Sublist.refl _))
    hsound.gone

theorem Sound.readerSends {shared : Shared} {conn after : Conn} {delta : Int}
    (hsound : Sound fromLine shared conn)
    (hstep : conn.readerSends = some (after, delta)) :
    Sound fromLine shared after := by
  unfold Conn.readerSends at hstep
  split at hstep
  · next reply hreply =>
      have hsender := noSenders_of_reply hreply
      split at hstep
      · cases hstep
      · cases hstep
        refine hsound.of_sender fromLine hsender rfl rfl rfl rfl ?_ hsound.gone
        intro hgate
        have hspawns := hgate.spawns reply hreply
        refine hgate.sublist rfl rfl ?_ (.inl rfl) ?_ ?_
        · simp [replied, hspawns]
        · intro other hother
          cases hother
        · simp only [outgoing, held, replied, hreply, Option.map_none,
            Option.toList_none, List.append_nil]
          simp
      · cases hstep
        refine hsound.of_sender fromLine hsender rfl rfl rfl rfl ?_ hsound.gone
        intro hgate
        have hspawns := hgate.spawns reply hreply
        refine hgate.sublist rfl rfl rfl (.inl rfl) ?_ ?_
        · intro other hother
          cases hother
          exact hspawns
        · simp [outgoing, held, hreply]
      · cases hstep
        refine hsound.of_sender fromLine hsender rfl rfl rfl rfl ?_ ?_
        · intro hgate
          have hspawns := hgate.spawns reply hreply
          refine hgate.sublist rfl rfl ?_ (.inl rfl) ?_ ?_
          · simp [replied, hspawns]
          · intro other hother
            cases hother
          · simp [outgoing, held, replied, hreply]
        · intro hgone
          obtain ⟨hqueue, hpermits⟩ := hsound.gone hgone
          refine ⟨?_, hpermits⟩
          simp [hqueue, reply.sending.plain]
  · cases hstep

/-- A step of one call's task; the gate shuts it out before the hello. -/
theorem Sound.of_call {shared : Shared} {before after : Conn} {index : ℕ}
    {task : CallTask} (hsound : Sound fromLine shared before)
    (hfound : before.calls[index]? = some task)
    (hwriter : after.writer = before.writer)
    (hbroken : after.broken = before.broken)
    (habandoned : after.abandoned = before.abandoned)
    (hgreeted : after.greeted = before.greeted)
    (hgone : before.writer = .gone →
      after.queue.filterMap Frame.resultId = [] ∧
        ∀ task ∈ after.calls, task.hasPermit = false) :
    Sound fromLine shared after :=
  hsound.of_sender fromLine (noSenders_of_call hfound) hwriter hbroken
    habandoned hgreeted (fun hgate => (hgate.no_call hfound).elim) hgone

theorem Sound.callEnds {shared : Shared} {conn after : Conn} {index : ℕ}
    {outcome : Outcome} {delta : Int} (hsound : Sound fromLine shared conn)
    (hstep : conn.callEnds index outcome = some (after, delta)) :
    Sound fromLine shared after := by
  unfold Conn.callEnds at hstep
  split at hstep
  · next call hfound =>
      cases hstep
      refine hsound.of_call fromLine hfound rfl rfl rfl rfl ?_
      intro hgone
      obtain ⟨hqueue, hpermits⟩ := hsound.gone hgone
      refine ⟨hqueue, ?_⟩
      intro task hmem
      rcases List.mem_or_eq_of_mem_set hmem with hold | rfl
      · exact hpermits task hold
      · rfl
  · cases hstep

theorem Sound.callSends {shared : Shared} {conn after : Conn} {index : ℕ}
    {delta : Int} (hsound : Sound fromLine shared conn)
    (hstep : conn.callSends index = some (after, delta)) :
    Sound fromLine shared after := by
  unfold Conn.callSends at hstep
  split at hstep
  · next call outcome permit hfound =>
      have hsender := noSenders_of_call hfound
      split at hstep
      · cases hstep
      · next hattempt =>
          cases hstep
          have hshutdown := hsound.shutdown_of_sender fromLine
            (attempt_refused hattempt) hsender
          constructor
          · intro hnone
            exact ((hsound.gate hnone).no_call hfound).elim
          · exact hsound.greeting
          · intro _
            exact .inl hshutdown
          · intro _
            exact .inr hshutdown
          · intro hgone
            obtain ⟨hqueue, hpermits⟩ := hsound.gone hgone
            exact ⟨hqueue, fun task hmem =>
              hpermits task (List.mem_of_mem_eraseIdx hmem)⟩
      · next hattempt =>
          cases hstep
          refine hsound.of_call fromLine hfound rfl rfl rfl rfl ?_
          intro hgone
          have hopen := attempt_reserved hattempt
          rw [closed_of_gone hgone] at hopen
          cases hopen
      · next hattempt =>
          cases hstep
          refine hsound.of_call fromLine hfound rfl rfl rfl rfl ?_
          intro hgone
          have hpermit := (hsound.gone hgone).2 _ (List.mem_of_getElem? hfound)
          rw [CallTask.hasPermit, attempt_pushed hattempt] at hpermit
          cases hpermit
  · cases hstep

/-- A step of the heartbeat or of a forwarder that sends nothing yet. -/
theorem Sound.of_background {shared : Shared} {conn : Conn} {index : ℕ}
    {task : Background} (hsound : Sound fromLine shared conn)
    (hfound : conn.background[index]? = some task)
    (background : List Background) :
    Sound fromLine shared { conn with background } :=
  hsound.of_sender fromLine (noSenders_of_background hfound) rfl rfl rfl rfl
    (fun hgate => (hgate.no_background hfound).elim) hsound.gone

theorem Sound.backgroundSends {shared : Shared} {conn after : Conn}
    {index : ℕ} {delta : Int} (hsound : Sound fromLine shared conn)
    (hstep : conn.backgroundSends index = some (after, delta)) :
    Sound fromLine shared after := by
  unfold Conn.backgroundSends at hstep
  split at hstep
  · next kind sending hfound =>
      split at hstep
      · cases hstep
      · cases hstep
        exact hsound.of_background fromLine hfound _
      · cases hstep
        exact hsound.of_background fromLine hfound _
      · cases hstep
        refine hsound.of_sender fromLine (noSenders_of_background hfound) rfl
          rfl rfl rfl (fun hgate => (hgate.no_background hfound).elim) ?_
        intro hgone
        obtain ⟨hqueue, hpermits⟩ := hsound.gone hgone
        refine ⟨?_, hpermits⟩
        simp [hqueue, sending.plain]
  · cases hstep

/-! ## The writer -/

theorem settle_outgoing_sublist (conn : Conn) (frame : Frame) (wrote : Bool) :
    (conn.settle frame wrote).1.outgoing.Sublist
      (conn.written ++ ([frame] ++ (conn.held ++ (conn.queue ++
        (conn.reply.map fun reply => reply.sending.frame).toList)))) := by
  cases wrote with
  | true => simp [outgoing, settle, held]
  | false => simp [outgoing, settle, held]

theorem Sound.take {shared : Shared} {conn after : Conn} {delta : Int}
    (hsound : Sound fromLine shared conn)
    (hstep : conn.take = some (after, delta)) : Sound fromLine shared after := by
  unfold Conn.take at hstep
  split at hstep
  · next frame rest hwriter hqueue =>
      cases hstep
      constructor
      · intro hnone
        have hgate := hsound.gate hnone
        refine hgate.sublist rfl rfl rfl (.inl rfl) hgate.spawns ?_
        simp [outgoing, held, hwriter, hqueue]
      · exact hsound.greeting
      · intro hclosed
        cases hclosed
      · exact hsound.abandoned
      · intro hgone
        cases hgone
  · cases hstep

theorem Sound.write {shared : Shared} {conn after : Conn} {ok : Bool}
    {delta : Int} (hsound : Sound fromLine shared conn)
    (hstep : conn.write ok = some (after, delta)) :
    Sound fromLine shared after := by
  unfold Conn.write at hstep
  split at hstep
  · next frame hwriter =>
      cases hstep
      constructor
      · intro hnone
        have hgate := hsound.gate hnone
        refine hgate.sublist rfl rfl rfl (.inl rfl) hgate.spawns ?_
        refine (settle_outgoing_sublist _ frame _).trans ?_
        simp [outgoing, held, hwriter]
      · exact hsound.greeting
      · intro hclosed
        cases hclosed
      · intro hsome
        by_cases hbroken : (conn.broken || !ok) = true
        · exact .inl hbroken
        · rw [Bool.not_eq_true] at hbroken
          simp only [hbroken] at hsome
          rcases hsound.abandoned hsome with hold | hshutdown
          · simp [hold] at hbroken
          · exact .inr hshutdown
      · intro hgone
        cases hgone
  · cases hstep

theorem Sound.writerStops {shared : Shared} {conn after : Conn} {delta : Int}
    (hsound : Sound fromLine shared conn)
    (hstep : conn.writerStops shared = some (after, delta)) :
    Sound fromLine shared after := by
  unfold Conn.writerStops at hstep
  split at hstep
  · next hwriter =>
      split at hstep
      · next hends =>
          cases hstep
          constructor
          · intro hnone
            have hgate := hsound.gate hnone
            refine hgate.sublist rfl rfl rfl (.inl rfl) hgate.spawns ?_
            simp [outgoing, held, hwriter]
          · exact hsound.greeting
          · intro _
            exact hends
          · exact hsound.abandoned
          · intro hgone
            cases hgone
      · cases hstep
  · cases hstep

theorem Sound.drain {shared : Shared} {conn after : Conn} {delta : Int}
    (hsound : Sound fromLine shared conn)
    (hstep : conn.drain = some (after, delta)) : Sound fromLine shared after := by
  unfold Conn.drain at hstep
  split at hstep
  · next frame rest hwriter hqueue =>
      cases hstep
      have hclosed : conn.closed = true := by rw [Conn.closed, hwriter]
      have hshutdown : shared.shutdown = true := by
        rcases hsound.closed hclosed with hshutdown | ⟨-, hempty⟩
        · exact hshutdown
        · rw [hqueue] at hempty
          cases hempty
      constructor
      · intro hnone
        have hgate := hsound.gate hnone
        refine hgate.sublist rfl rfl rfl (.inl rfl) hgate.spawns ?_
        refine (settle_outgoing_sublist _ frame _).trans ?_
        simp [outgoing, held, hwriter, hqueue]
      · exact hsound.greeting
      · intro _
        exact .inl hshutdown
      · intro _
        exact .inr hshutdown
      · intro hgone
        change conn.writer = .gone at hgone
        rw [hwriter] at hgone
        cases hgone
  · cases hstep

/-- The writer may go once no call holds a place in the channel. -/
theorem Sound.leave {shared : Shared} {conn after : Conn} {delta : Int}
    (hsound : Sound fromLine shared conn)
    (hpermits : ∀ task ∈ conn.calls, task.hasPermit = false)
    (hstep : conn.leave = some (after, delta)) : Sound fromLine shared after := by
  unfold Conn.leave at hstep
  split at hstep
  · next hwriter hqueue =>
      cases hstep
      have hclosed : conn.closed = true := by rw [Conn.closed, hwriter]
      constructor
      · intro hnone
        have hgate := hsound.gate hnone
        refine hgate.sublist rfl rfl rfl (.inl rfl) hgate.spawns ?_
        simp [outgoing, held, hwriter]
      · exact hsound.greeting
      · intro _
        exact hsound.closed hclosed
      · exact hsound.abandoned
      · intro _
        exact ⟨by simp [hqueue], hpermits⟩
  · cases hstep

/-! ## The reader -/

theorem Sound.readLine {shared : Shared} {conn after : Conn} {text : String}
    {delta : Int} (hsound : Sound fromLine shared conn)
    (hstep : conn.readLine fromLine shared text = some (after, delta)) :
    Sound fromLine shared after := by
  unfold Conn.readLine at hstep
  split at hstep
  · next hreply hreader =>
      cases hstep
      exact hsound.greet fromLine text hreader hreply
  · next client hreply hreader =>
      have hserved := hsound.serve fromLine text hreader
      rw [Option.some.inj hstep] at hserved
      exact hserved
  · cases hstep

theorem Sound.readEof {shared : Shared} {conn after : Conn} {delta : Int}
    (hsound : Sound fromLine shared conn)
    (hstep : conn.readEof = some (after, delta)) :
    Sound fromLine shared after := by
  unfold Conn.readEof at hstep
  split at hstep
  · next hreply hreader =>
      cases hstep
      exact hsound.closing fromLine (by simp [hreader])
  · next hreply hreader =>
      cases hstep
      exact hsound.closing fromLine (by simp [hreader])
  · cases hstep

theorem Sound.readerStops {shared : Shared} {conn after : Conn} {delta : Int}
    (hsound : Sound fromLine shared conn)
    (hstep : conn.readerStops shared = some (after, delta)) :
    Sound fromLine shared after := by
  unfold Conn.readerStops at hstep
  split at hstep
  · next hreply hreader =>
      split at hstep
      · cases hstep
        exact hsound.closing fromLine (by simp [hreader])
      · cases hstep
  · cases hstep

/-! ## The background -/

theorem Sound.tick {shared : Shared} {conn after : Conn} {index : ℕ}
    {delta : Int} (hsound : Sound fromLine shared conn)
    (hstep : conn.tick index = some (after, delta)) :
    Sound fromLine shared after := by
  unfold Conn.tick at hstep
  split at hstep
  · next hfound =>
      split at hstep
      · cases hstep
        exact hsound.of_background fromLine hfound _
      · cases hstep
        exact hsound
  · cases hstep

theorem Sound.forward {shared : Shared} {conn after : Conn} {index : ℕ}
    {event : Json} {delta : Int} (hsound : Sound fromLine shared conn)
    (hstep : conn.forward index event = some (after, delta)) :
    Sound fromLine shared after := by
  unfold Conn.forward at hstep
  split at hstep
  · next hfound =>
      cases hstep
      exact hsound.of_background fromLine hfound _
  · cases hstep

theorem Sound.backgroundEnds {shared : Shared} {conn after : Conn}
    {index : ℕ} {delta : Int} (hsound : Sound fromLine shared conn)
    (hstep : conn.backgroundEnds shared index = some (after, delta)) :
    Sound fromLine shared after := by
  unfold Conn.backgroundEnds at hstep
  split at hstep
  · next kind hfound =>
      split at hstep
      · cases hstep
        exact hsound.of_background fromLine hfound _
      · cases hstep
  · cases hstep

/-! ## Any step -/

/-- No dispatch panics, and the writer does not go while a call's task has
reserved a place in the channel. -/
def Orderly (conn : Conn) : ConnLabel → Prop
  | .callPanics _ => False
  | .leave => ∀ task ∈ conn.calls, task.hasPermit = false
  | _ => True

theorem Sound.act {shared : Shared} {conn after : Conn} {label : ConnLabel}
    {delta : Int} (hsound : Sound fromLine shared conn)
    (horderly : conn.Orderly label)
    (hstep : conn.act fromLine shared label = some (after, delta)) :
    Sound fromLine shared after := by
  cases label with
  | line text => exact hsound.readLine fromLine hstep
  | eof => exact hsound.readEof fromLine hstep
  | readerStops => exact hsound.readerStops fromLine hstep
  | readerSends => exact hsound.readerSends fromLine hstep
  | callEnds index outcome => exact hsound.callEnds fromLine hstep
  | callPanics index => exact horderly.elim
  | callSends index => exact hsound.callSends fromLine hstep
  | tick index => exact hsound.tick fromLine hstep
  | event index event => exact hsound.forward fromLine hstep
  | backgroundSends index => exact hsound.backgroundSends fromLine hstep
  | backgroundEnds index => exact hsound.backgroundEnds fromLine hstep
  | take => exact hsound.take fromLine hstep
  | write ok => exact hsound.write fromLine hstep
  | writerStops => exact hsound.writerStops fromLine hstep
  | drain => exact hsound.drain fromLine hstep
  | leave => exact hsound.leave fromLine horderly hstep

end Conn

end Mandala.Context.Endpoint
