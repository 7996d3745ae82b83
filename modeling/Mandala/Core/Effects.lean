import Mathlib.Tactic.Common

/-!
# Effect programs and their executions

A program issues requests to its environment and continues with whatever reply
it gets.  An execution is one possible conversation: the list of exchanges
together with the value the program returned.  Quantifying over executions is
quantifying over every behaviour of the environment, so a safety statement
about a program is a statement about all of its executions.
-/

namespace Mandala.Effects

/-- The requests a program may issue and the replies each one can get. -/
structure Signature where
  Request : Type
  Reply : Request → Type

/-- A computation that returns a value after finitely many requests. -/
inductive Program (S : Signature) (A : Type) where
  | done (value : A) : Program S A
  | request (effect : S.Request) (next : S.Reply effect → Program S A) :
      Program S A

variable {S T : Signature} {A B : Type}

/-- One request together with the reply it got. -/
structure Exchange (S : Signature) where
  effect : S.Request
  reply : S.Reply effect

abbrev Trace (S : Signature) := List (Exchange S)

namespace Program

def bind : Program S A → (A → Program S B) → Program S B
  | done value, rest => rest value
  | request effect next, rest =>
      request effect fun reply => (next reply).bind rest

instance : Monad (Program S) where
  pure := done
  bind := bind

@[simp]
theorem pure_eq_done (value : A) : (pure value : Program S A) = done value :=
  rfl

@[simp]
theorem done_bind (value : A) (rest : A → Program S B) :
    done value >>= rest = rest value := rfl

@[simp]
theorem request_bind (effect : S.Request)
    (next : S.Reply effect → Program S A) (rest : A → Program S B) :
    request effect next >>= rest =
      request effect fun reply => next reply >>= rest := rfl

theorem bind_done (program : Program S A) : program >>= done = program := by
  induction program with
  | done value => rfl
  | request effect next ih =>
      rw [request_bind]
      congr 1
      funext reply
      exact ih reply

theorem bind_assoc' {C : Type} (program : Program S A)
    (first : A → Program S B) (second : B → Program S C) :
    program >>= first >>= second =
      program >>= fun value => first value >>= second := by
  induction program with
  | done value => rfl
  | request effect next ih =>
      simp only [request_bind]
      congr 1
      funext reply
      exact ih reply

instance : LawfulMonad (Program S) :=
  LawfulMonad.mk' (Program S) bind_done (fun _ _ => rfl) bind_assoc'

/-- Issue one request and return its reply. -/
def perform (effect : S.Request) : Program S (S.Reply effect) :=
  request effect done

end Program

open Program

/-- `Executes program trace value`: the program returned `value` after exactly
the exchanges of `trace`. -/
inductive Executes : Program S A → Trace S → A → Prop where
  | done (value : A) : Executes (Program.done value) [] value
  | request {effect : S.Request} {next : S.Reply effect → Program S A}
      {reply : S.Reply effect} {trace : Trace S} {value : A}
      (hrest : Executes (next reply) trace value) :
      Executes (Program.request effect next) (⟨effect, reply⟩ :: trace) value

@[simp]
theorem executes_done_iff {value result : A} {trace : Trace S} :
    Executes (Program.done value) trace result ↔
      trace = [] ∧ result = value := by
  constructor
  · rintro ⟨⟩
    exact ⟨rfl, rfl⟩
  · rintro ⟨rfl, rfl⟩
    exact .done result

@[simp]
theorem executes_request_iff {effect : S.Request}
    {next : S.Reply effect → Program S A} {trace : Trace S} {result : A} :
    Executes (Program.request effect next) trace result ↔
      ∃ reply rest, trace = ⟨effect, reply⟩ :: rest ∧
        Executes (next reply) rest result := by
  constructor
  · rintro (_ | hrest)
    exact ⟨_, _, rfl, hrest⟩
  · rintro ⟨reply, rest, rfl, hrest⟩
    exact .request hrest

/-- An execution of a sequence is an execution of its first part followed by
one of the rest. -/
theorem executes_bind_iff {program : Program S A} {rest : A → Program S B}
    {trace : Trace S} {result : B} :
    Executes (program >>= rest) trace result ↔
      ∃ first value second, trace = first ++ second ∧
        Executes program first value ∧
        Executes (rest value) second result := by
  induction program generalizing trace with
  | done value => simp
  | request effect next ih =>
      simp only [request_bind, executes_request_iff]
      constructor
      · rintro ⟨reply, tail, rfl, htail⟩
        obtain ⟨first, value, second, rfl, hfirst, hsecond⟩ :=
          (ih reply).mp htail
        exact ⟨⟨effect, reply⟩ :: first, value, second, rfl,
          ⟨reply, first, rfl, hfirst⟩, hsecond⟩
      · rintro ⟨_, value, second, rfl, ⟨reply, first, rfl, hfirst⟩, hsecond⟩
        exact ⟨reply, first ++ second, rfl,
          (ih reply).mpr ⟨first, value, second, rfl, hfirst, hsecond⟩⟩

/-- The conversation of a program with an environment that gives every request
a fixed answer. -/
def Program.runAgainst (answer : (effect : S.Request) → S.Reply effect) :
    Program S A → Trace S × A
  | .done value => ([], value)
  | .request effect next =>
      let rest := (next (answer effect)).runAgainst answer
      (⟨effect, answer effect⟩ :: rest.1, rest.2)

theorem executes_runAgainst (answer : (effect : S.Request) → S.Reply effect)
    (program : Program S A) :
    Executes program (program.runAgainst answer).1
      (program.runAgainst answer).2 := by
  induction program with
  | done value => exact .done value
  | request effect next ih => exact .request (ih (answer effect))

/-- Every exchange with such an environment got its fixed answer. -/
theorem reply_of_mem_runAgainst
    {answer : (effect : S.Request) → S.Reply effect} {program : Program S A}
    {exchange : Exchange S} (hmem : exchange ∈ (program.runAgainst answer).1) :
    exchange.reply = answer exchange.effect := by
  induction program with
  | done value => cases hmem
  | request effect next ih =>
      rcases List.mem_cons.mp hmem with rfl | hrest
      · rfl
      · exact ih (answer effect) hrest

/-! ## Postconditions -/

/-- Every execution of `program` satisfies the postcondition. -/
def Ensures (program : Program S A) (post : Trace S → A → Prop) : Prop :=
  ∀ trace value, Executes program trace value → post trace value

theorem Ensures.mono {program : Program S A} {post post' : Trace S → A → Prop}
    (hprogram : Ensures program post)
    (himp : ∀ trace value, post trace value → post' trace value) :
    Ensures program post' :=
  fun trace value hexec => himp trace value (hprogram trace value hexec)

@[simp]
theorem ensures_done_iff {value : A} {post : Trace S → A → Prop} :
    Ensures (Program.done value) post ↔ post [] value := by
  constructor
  · intro hpost
    exact hpost [] value (.done value)
  · rintro hpost trace result hexec
    obtain ⟨rfl, rfl⟩ := executes_done_iff.mp hexec
    exact hpost

@[simp]
theorem ensures_request_iff {effect : S.Request}
    {next : S.Reply effect → Program S A} {post : Trace S → A → Prop} :
    Ensures (Program.request effect next) post ↔
      ∀ reply, Ensures (next reply) fun trace value =>
        post (⟨effect, reply⟩ :: trace) value := by
  constructor
  · intro hpost reply trace value hexec
    exact hpost _ _ (.request hexec)
  · rintro hpost trace value hexec
    obtain ⟨reply, rest, rfl, hrest⟩ := executes_request_iff.mp hexec
    exact hpost reply rest value hrest

/-- Sequencing rule: the rest is judged on the whole conversation. -/
theorem ensures_bind_iff {program : Program S A} {rest : A → Program S B}
    {post : Trace S → B → Prop} :
    Ensures (program >>= rest) post ↔
      Ensures program fun first value =>
        Ensures (rest value) fun second result =>
          post (first ++ second) result := by
  constructor
  · intro hpost first value hfirst second result hsecond
    exact hpost _ _ (executes_bind_iff.mpr
      ⟨first, value, second, rfl, hfirst, hsecond⟩)
  · rintro hpost trace result hexec
    obtain ⟨first, value, second, rfl, hfirst, hsecond⟩ :=
      executes_bind_iff.mp hexec
    exact hpost first value hfirst second result hsecond

/-- Every exchange of every execution satisfies `allowed`. -/
def Only (allowed : Exchange S → Prop) (program : Program S A) : Prop :=
  Ensures program fun trace _ => ∀ exchange ∈ trace, allowed exchange

theorem Only.done {allowed : Exchange S → Prop} (value : A) :
    Only allowed (Program.done value) := by
  simp [Only]

theorem Only.request {allowed : Exchange S → Prop} {effect : S.Request}
    {next : S.Reply effect → Program S A}
    (heffect : ∀ reply, allowed ⟨effect, reply⟩)
    (hnext : ∀ reply, Only allowed (next reply)) :
    Only allowed (Program.request effect next) := by
  rw [Only, ensures_request_iff]
  intro reply trace value hexec exchange hmem
  rcases List.mem_cons.mp hmem with rfl | hmem
  · exact heffect reply
  · exact hnext reply trace value hexec exchange hmem

theorem Only.perform {allowed : Exchange S → Prop} {effect : S.Request}
    (heffect : ∀ reply, allowed ⟨effect, reply⟩) :
    Only allowed (Program.perform effect) :=
  Only.request heffect fun reply => Only.done reply

theorem Only.bind {allowed : Exchange S → Prop} {program : Program S A}
    {rest : A → Program S B} (hprogram : Only allowed program)
    (hrest : ∀ value, Only allowed (rest value)) :
    Only allowed (program >>= rest) := by
  rw [Only, ensures_bind_iff]
  intro first value hfirst second result hsecond exchange hmem
  rcases List.mem_append.mp hmem with hmem | hmem
  · exact hprogram first value hfirst exchange hmem
  · exact hrest value second result hsecond exchange hmem

/-! ## Serving one program's requests with another's -/

section Serving

variable {State : Type}

/-- Answer every request of a program by running `serve`, which may issue
requests of its own and keep a state. -/
def Program.serveWith
    (serve : (effect : S.Request) → StateT State (Program T) (S.Reply effect)) :
    Program S A → StateT State (Program T) A
  | .done value => pure value
  | .request effect next => do
      let reply ← serve effect
      serveWith serve (next reply)

/-- `Served serve inner before outer after`: answering the exchanges `inner`
took the server from `before` to `after` through the exchanges `outer`. -/
inductive Served
    (serve : (effect : S.Request) → StateT State (Program T) (S.Reply effect)) :
    Trace S → State → Trace T → State → Prop where
  | nil (state : State) : Served serve [] state [] state
  | cons {effect : S.Request} {reply : S.Reply effect} {inner : Trace S}
      {first second : Trace T} {before middle after : State}
      (hserve : Executes ((serve effect).run before) first (reply, middle))
      (hrest : Served serve inner middle second after) :
      Served serve (⟨effect, reply⟩ :: inner) before (first ++ second) after

/-- A served program behaves as the program does on its own, with its requests
answered by the server. -/
theorem executes_serveWith_iff
    {serve : (effect : S.Request) → StateT State (Program T) (S.Reply effect)}
    {program : Program S A} {before after : State} {outer : Trace T}
    {value : A} :
    Executes ((program.serveWith serve).run before) outer (value, after) ↔
      ∃ inner, Executes program inner value ∧
        Served serve inner before outer after := by
  induction program generalizing before outer with
  | done result =>
      simp only [Program.serveWith, StateT.run_pure, pure_eq_done,
        executes_done_iff, Prod.mk.injEq]
      constructor
      · rintro ⟨rfl, rfl, rfl⟩
        exact ⟨[], ⟨rfl, rfl⟩, .nil _⟩
      · rintro ⟨_, ⟨rfl, rfl⟩, ⟨⟩⟩
        exact ⟨rfl, rfl, rfl⟩
  | request effect next ih =>
      simp only [Program.serveWith, StateT.run_bind, executes_bind_iff,
        executes_request_iff]
      constructor
      · rintro ⟨first, ⟨reply, middle⟩, second, rfl, hserve, hrest⟩
        obtain ⟨inner, hinner, hserved⟩ := (ih reply).mp hrest
        exact ⟨_, ⟨reply, inner, rfl, hinner⟩, .cons hserve hserved⟩
      · rintro ⟨_, ⟨reply, inner, rfl, hinner⟩, hserved⟩
        cases hserved with
        | @cons _ _ _ first second _ middle _ hserve hrest =>
            exact ⟨first, (reply, middle), second, rfl, hserve,
              (ih reply).mpr ⟨inner, hinner, hrest⟩⟩

end Serving

/-! ## Two signatures side by side -/

/-- The requests of both signatures. -/
abbrev Signature.sum (S T : Signature) : Signature where
  Request := S.Request ⊕ T.Request
  Reply
    | .inl effect => S.Reply effect
    | .inr effect => T.Reply effect

section Sum

def rightExchange : Exchange (S.sum T) → Option (Exchange T)
  | ⟨.inl _, _⟩ => none
  | ⟨.inr effect, reply⟩ => some ⟨effect, reply⟩

/-- The part of a conversation held in the second signature. -/
def rightTrace (trace : Trace (S.sum T)) : Trace T :=
  trace.filterMap rightExchange

@[simp]
theorem rightTrace_nil : rightTrace ([] : Trace (S.sum T)) = [] := rfl

@[simp]
theorem rightTrace_append (first second : Trace (S.sum T)) :
    rightTrace (first ++ second) = rightTrace first ++ rightTrace second :=
  List.filterMap_append

@[simp]
theorem rightTrace_inl (effect : S.Request) (reply : S.Reply effect)
    (trace : Trace (S.sum T)) :
    rightTrace (⟨.inl effect, reply⟩ :: trace) = rightTrace trace := rfl

@[simp]
theorem rightTrace_inr (effect : T.Request) (reply : T.Reply effect)
    (trace : Trace (S.sum T)) :
    rightTrace (⟨.inr effect, reply⟩ :: trace) =
      ⟨effect, reply⟩ :: rightTrace trace := rfl

def leftExchange : Exchange (S.sum T) → Option (Exchange S)
  | ⟨.inl effect, reply⟩ => some ⟨effect, reply⟩
  | ⟨.inr _, _⟩ => none

/-- The part of a conversation held in the first signature. -/
def leftTrace (trace : Trace (S.sum T)) : Trace S :=
  trace.filterMap leftExchange

@[simp]
theorem leftTrace_nil : leftTrace ([] : Trace (S.sum T)) = [] := rfl

@[simp]
theorem leftTrace_append (first second : Trace (S.sum T)) :
    leftTrace (first ++ second) = leftTrace first ++ leftTrace second :=
  List.filterMap_append

@[simp]
theorem leftTrace_inl (effect : S.Request) (reply : S.Reply effect)
    (trace : Trace (S.sum T)) :
    leftTrace (⟨.inl effect, reply⟩ :: trace) =
      ⟨effect, reply⟩ :: leftTrace trace := rfl

@[simp]
theorem leftTrace_inr (effect : T.Request) (reply : T.Reply effect)
    (trace : Trace (S.sum T)) :
    leftTrace (⟨.inr effect, reply⟩ :: trace) = leftTrace trace := rfl

variable (answer : (effect : S.Request) → S.Reply effect)

/-- Answer the requests of the first signature on the spot. -/
def Program.answerLeft : Program (S.sum T) A → Program T A
  | .done value => .done value
  | .request (.inl effect) next => answerLeft (next (answer effect))
  | .request (.inr effect) next =>
      .request effect fun reply => answerLeft (next reply)

@[simp]
theorem answerLeft_done (value : A) :
    Program.answerLeft answer (.done value : Program (S.sum T) A) =
      .done value := rfl

@[simp]
theorem answerLeft_inl (effect : S.Request)
    (next : S.Reply effect → Program (S.sum T) A) :
    Program.answerLeft answer
        (.request (.inl effect) next) =
      (next (answer effect)).answerLeft answer := rfl

@[simp]
theorem answerLeft_inr (effect : T.Request)
    (next : T.Reply effect → Program (S.sum T) A) :
    Program.answerLeft answer
        (.request (.inr effect) next) =
      .request effect fun reply => (next reply).answerLeft answer := rfl

@[simp]
theorem answerLeft_bind (program : Program (S.sum T) A)
    (rest : A → Program (S.sum T) B) :
    (program >>= rest).answerLeft answer =
      program.answerLeft answer >>= fun value =>
        (rest value).answerLeft answer := by
  induction program with
  | done value => rfl
  | request effect next ih =>
      cases effect with
      | inl effect => exact ih (answer effect)
      | inr effect =>
          rw [request_bind, answerLeft_inr, answerLeft_inr, request_bind]
          congr 1
          funext reply
          exact ih reply

/-- When the first signature leaves no choice of reply, answering it on the
spot gives exactly the conversations held in the second one. -/
theorem executes_answerLeft_iff [∀ effect, Subsingleton (S.Reply effect)]
    {program : Program (S.sum T) A} {right : Trace T} {value : A} :
    Executes (program.answerLeft answer) right value ↔
      ∃ trace, rightTrace trace = right ∧ Executes program trace value := by
  induction program generalizing right with
  | done result =>
      simp only [answerLeft_done, executes_done_iff]
      constructor
      · intro hdone
        exact ⟨[], hdone.1.symm, rfl, hdone.2⟩
      · intro hdone
        obtain ⟨trace, htrace, hnil, hvalue⟩ := hdone
        exact ⟨by rw [← htrace, hnil, rightTrace_nil], hvalue⟩
  | request effect next ih =>
      cases effect with
      | inl effect =>
          rw [answerLeft_inl, ih (answer effect)]
          constructor
          · intro hrest
            obtain ⟨trace, htrace, hexec⟩ := hrest
            exact ⟨⟨.inl effect, answer effect⟩ :: trace, htrace, .request hexec⟩
          · intro hwhole
            obtain ⟨_, htrace, hexec⟩ := hwhole
            obtain ⟨reply, rest, rfl, hrest⟩ := executes_request_iff.mp hexec
            have hreply : reply = answer effect :=
              Subsingleton.elim (α := S.Reply effect) _ _
            subst hreply
            exact ⟨rest, htrace, hrest⟩
      | inr effect =>
          rw [answerLeft_inr, executes_request_iff]
          constructor
          · intro hrest
            obtain ⟨reply, rest, rfl, hrest⟩ := hrest
            obtain ⟨trace, rfl, hexec⟩ := (ih reply).mp hrest
            exact ⟨⟨.inr effect, reply⟩ :: trace, rfl, .request hexec⟩
          · intro hwhole
            obtain ⟨_, rfl, hexec⟩ := hwhole
            obtain ⟨reply, rest, rfl, hrest⟩ := executes_request_iff.mp hexec
            exact ⟨reply, rightTrace rest, rfl, (ih reply).mpr ⟨rest, rfl, hrest⟩⟩

end Sum

end Mandala.Effects
