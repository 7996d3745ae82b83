import Mandala.Core.Effects

/-!
# Effect programs that may fail

A program with an error result is judged by what it returns: nothing is asked of
an execution that fails.  A loop over a list keeps an invariant on the part of
the list it has done, on the conversation so far and on its state.
-/

namespace Mandala.Effects

variable {S : Signature} {E A B : Type}

abbrev Fallible (S : Signature) (E : Type) := ExceptT E (Program S)

/-- Every execution that returns a value satisfies the postcondition. -/
def Returns (program : Fallible S E A) (post : Trace S → A → Prop) : Prop :=
  Ensures program.run fun trace result =>
    ∀ value, result = .ok value → post trace value

theorem Returns.mono {program : Fallible S E A} {post post' : Trace S → A → Prop}
    (hprogram : Returns program post)
    (himp : ∀ trace value, post trace value → post' trace value) :
    Returns program post' :=
  Ensures.mono hprogram fun trace _ hpost value hvalue =>
    himp trace value (hpost value hvalue)

@[simp]
theorem returns_pure_iff {value : A} {post : Trace S → A → Prop} :
    Returns (pure value : Fallible S E A) post ↔ post [] value := by
  rw [Returns, ExceptT.run_pure, Program.pure_eq_done, ensures_done_iff]
  constructor
  · intro hpost
    exact hpost value rfl
  · intro hpost result hresult
    rw [← Except.ok.inj hresult]
    exact hpost

theorem returns_throw (error : E) (post : Trace S → A → Prop) :
    Returns (throw error : Fallible S E A) post := by
  refine ensures_done_iff.mpr ?_
  intro value hvalue
  cases hvalue

/-- Sequencing rule: a failure of the first part is one of the whole. -/
theorem returns_bind {program : Fallible S E A} {rest : A → Fallible S E B}
    {post : Trace S → B → Prop}
    (hprogram : Returns program fun first value =>
      Returns (rest value) fun second result => post (first ++ second) result) :
    Returns (program >>= rest) post := by
  rw [Returns, ExceptT.run_bind, ensures_bind_iff]
  refine Ensures.mono hprogram ?_
  intro first result hrest
  cases result with
  | error error =>
      refine ensures_done_iff.mpr ?_
      intro value hvalue
      cases hvalue
  | ok value => exact hrest value rfl

/-- A request whose reply is an error or a value, in the program's own errors. -/
theorem returns_request {effect : S.Request} {answer : S.Reply effect → Except E A}
    {post : Trace S → A → Prop}
    (hanswer : ∀ reply value, answer reply = .ok value →
      post [⟨effect, reply⟩] value) :
    Returns (ExceptT.mk (.request effect fun reply => .done (answer reply)))
      post := by
  refine ensures_request_iff.mpr ?_
  intro reply
  exact ensures_done_iff.mpr (hanswer reply)

/-- Loop rule: what one step preserves holds once every entry was done. -/
theorem returns_foldlM {J State : Type} {step : State → J → Fallible S E State}
    {invariant : List J → Trace S → State → Prop} {jobs : List J} {start : State}
    (hstart : invariant [] [] start)
    (hstep : ∀ finished job todo trace state, jobs = finished ++ job :: todo →
      invariant finished trace state →
        Returns (step state job) fun more next =>
          invariant (finished ++ [job]) (trace ++ more) next) :
    Returns (jobs.foldlM step start) (invariant jobs) := by
  -- The induction is on the entries still to do, from any loop state reached.
  have hrest (todo : List J) : ∀ finished trace state, jobs = finished ++ todo →
      invariant finished trace state →
        Returns (todo.foldlM step state) fun more last =>
          invariant jobs (trace ++ more) last := by
    induction todo with
    | nil =>
        intro finished trace state hjobs hstate
        rw [List.foldlM_nil, returns_pure_iff, hjobs, List.append_nil,
          List.append_nil]
        exact hstate
    | cons job todo ih =>
        intro finished trace state hjobs hstate
        rw [List.foldlM_cons]
        refine returns_bind ((hstep finished job todo trace state hjobs hstate).mono ?_)
        intro more next hnext
        refine (ih (finished ++ [job]) (trace ++ more) next ?_ hnext).mono ?_
        · rw [hjobs, List.append_assoc, List.singleton_append]
        · intro last value hlast
          rwa [← List.append_assoc]
  exact hrest jobs [] [] start rfl hstart

end Mandala.Effects
