import Mathlib.Data.Nat.Init
import Mathlib.Logic.Function.Basic
import Mathlib.Logic.Relation

/-!
# Reachable states of a labelled transition system

Safety of a protocol is a statement about every state some run reaches.  A run
may be restricted to the steps that meet a condition, so the same induction
covers a protocol that is safe only while its environment behaves.
-/

namespace Mandala.Transition

variable {State Label : Type*}

/-- One step of the system whose label is allowed in the state it starts in. -/
def GuardedStep (step : State → Label → State → Prop)
    (allowed : State → Label → Prop) (before after : State) : Prop :=
  ∃ label, allowed before label ∧ step before label after

/-- `state` ends a run from an initial state all of whose steps are allowed. -/
def Reachable (initial : State → Prop)
    (step : State → Label → State → Prop) (allowed : State → Label → Prop)
    (state : State) : Prop :=
  ∃ start, initial start ∧
    Relation.ReflTransGen (GuardedStep step allowed) start state

/-- A run of a system whose environment is not restricted. -/
def anyStep : State → Label → Prop := fun _ _ => True

theorem Reachable.initial {initial : State → Prop}
    {step : State → Label → State → Prop} {allowed : State → Label → Prop}
    {state : State} (hinitial : initial state) :
    Reachable initial step allowed state :=
  ⟨state, hinitial, .refl⟩

theorem Reachable.step {initial : State → Prop}
    {step : State → Label → State → Prop} {allowed : State → Label → Prop}
    {before after : State} {label : Label}
    (hbefore : Reachable initial step allowed before)
    (hallowed : allowed before label) (hstep : step before label after) :
    Reachable initial step allowed after := by
  obtain ⟨start, hinitial, hrun⟩ := hbefore
  exact ⟨start, hinitial, hrun.tail ⟨label, hallowed, hstep⟩⟩

/-- A run computed by a function all of whose results are allowed steps. -/
theorem Reachable.foldlM {initial : State → Prop}
    {step : State → Label → State → Prop} {allowed : State → Label → Prop}
    {act : State → Label → Option State}
    (hact : ∀ before label after, act before label = some after →
      allowed before label ∧ step before label after)
    {before after : State} (hbefore : Reachable initial step allowed before)
    {labels : List Label} (hrun : labels.foldlM act before = some after) :
    Reachable initial step allowed after := by
  induction labels generalizing before with
  | nil =>
      cases hrun
      exact hbefore
  | cons label labels ih =>
      rw [List.foldlM_cons] at hrun
      obtain ⟨next, hnext, hrest⟩ := Option.bind_eq_some_iff.mp hrun
      obtain ⟨hallowed, hstep⟩ := hact before label next hnext
      exact ih (hbefore.step hallowed hstep) hrest

/-- A property that holds initially and is kept by every allowed step holds in
every state a run of allowed steps reaches. -/
theorem Reachable.invariant {initial : State → Prop}
    {step : State → Label → State → Prop} {allowed : State → Label → Prop}
    {invariant : State → Prop}
    (hinitial : ∀ state, initial state → invariant state)
    (hstep : ∀ before label after, invariant before → allowed before label →
      step before label after → invariant after)
    {state : State} (hreach : Reachable initial step allowed state) :
    invariant state := by
  obtain ⟨start, hstart, hrun⟩ := hreach
  induction hrun with
  | refl => exact hinitial start hstart
  | tail _ hlast ih =>
      obtain ⟨label, hallowed, hlast⟩ := hlast
      exact hstep _ label _ ih hallowed hlast

/-- Restricting the environment loses runs, never gains them. -/
theorem Reachable.anyStep {initial : State → Prop}
    {step : State → Label → State → Prop} {allowed : State → Label → Prop}
    {state : State} (hreach : Reachable initial step allowed state) :
    Reachable initial step anyStep state := by
  obtain ⟨start, hstart, hrun⟩ := hreach
  refine ⟨start, hstart, Relation.ReflTransGen.mono ?_ _ _ hrun⟩
  rintro before after ⟨label, -, hstep⟩
  exact ⟨label, trivial, hstep⟩

/-- A run of allowed steps is one of the steps a weaker condition allows. -/
theorem Reachable.weaken {initial : State → Prop}
    {step : State → Label → State → Prop} {allowed weaker : State → Label → Prop}
    (hweaker : ∀ before label, allowed before label → weaker before label)
    {state : State} (hreach : Reachable initial step allowed state) :
    Reachable initial step weaker state := by
  obtain ⟨start, hstart, hrun⟩ := hreach
  refine ⟨start, hstart, Relation.ReflTransGen.mono ?_ _ _ hrun⟩
  rintro before after ⟨label, hallowed, hstep⟩
  exact ⟨label, hweaker before label hallowed, hstep⟩

/-! ## Runs with their labels -/

/-- `Run step start labels state`: the steps with these labels, in order, take
`start` to `state`. -/
inductive Run (step : State → Label → State → Prop) (start : State) :
    List Label → State → Prop where
  | nil : Run step start [] start
  | snoc {labels : List Label} {before after : State} {label : Label}
      (hrun : Run step start labels before)
      (hstep : step before label after) :
      Run step start (labels ++ [label]) after

/-- A relation between a run's labels and its state that every step keeps holds
of every run. -/
theorem Run.invariant {step : State → Label → State → Prop} {start : State}
    {invariant : List Label → State → Prop} (hstart : invariant [] start)
    (hstep : ∀ labels before label after, invariant labels before →
      step before label after → invariant (labels ++ [label]) after)
    {labels : List Label} {state : State} (hrun : Run step start labels state) :
    invariant labels state := by
  induction hrun with
  | nil => exact hstart
  | snoc _ hlast ih => exact hstep _ _ _ _ ih hlast

/-! ## Histories -/

section History
variable {Event : Type*}

/-- Where an event stands in a history with one more at its end. -/
theorem snoc_eq_append_cons {history before after : List Event}
    {last event : Event}
    (heq : history ++ [last] = before ++ event :: after) :
    (history = before ∧ last = event ∧ after = []) ∨
      ∃ rest, history = before ++ event :: rest ∧ after = rest ++ [last] := by
  rcases List.eq_nil_or_concat after with rfl | ⟨rest, newest, rfl⟩
  · obtain ⟨rfl, hlast⟩ := List.append_inj' heq rfl
    exact .inl ⟨rfl, (List.cons.inj hlast).1, rfl⟩
  · rw [List.concat_eq_append, ← List.cons_append, ← List.append_assoc] at heq
    obtain ⟨hhistory, hlast⟩ := List.append_inj' heq rfl
    refine .inr ⟨rest, hhistory, ?_⟩
    rw [List.concat_eq_append, hlast]

/-- Every event meets what it has to, given those before it. -/
def EachMeets (meets : List Event → Event → Prop) (history : List Event) :
    Prop :=
  ∀ before event after, history = before ++ event :: after → meets before event

theorem EachMeets.nil {meets : List Event → Event → Prop} :
    EachMeets meets [] := by
  intro before event after heq
  exact absurd heq.symm (List.append_ne_nil_of_right_ne_nil _ nofun)

theorem EachMeets.snoc {meets : List Event → Event → Prop}
    {history : List Event} {last : Event} (hhistory : EachMeets meets history)
    (hlast : meets history last) : EachMeets meets (history ++ [last]) := by
  intro before event after heq
  rcases snoc_eq_append_cons heq with ⟨rfl, rfl, -⟩ | ⟨rest, hrest, -⟩
  · exact hlast
  · exact hhistory before event rest hrest

end History

/-! ## Progress -/

/-- Whichever of the steps are taken, finitely many of them lead to `goal`, and
until then one can be taken. -/
inductive Inevitable (next : State → State → Prop) (goal : State → Prop) :
    State → Prop where
  | reached {state : State} (hgoal : goal state) : Inevitable next goal state
  | later {state : State} (henabled : ∃ after, next state after)
      (hnext : ∀ after, next state after → Inevitable next goal after) :
      Inevitable next goal state

/-- Steps that use up a measure, one of which is enabled short of the goal. -/
theorem Inevitable.of_measure {next : State → State → Prop}
    {goal invariant : State → Prop} (work : State → ℕ)
    (hstep : ∀ before after, invariant before → next before after →
      invariant after ∧ work after < work before)
    (henabled : ∀ state, invariant state →
      goal state ∨ ∃ after, next state after)
    {state : State} (hstate : invariant state) :
    Inevitable next goal state := by
  induction hwork : work state using Nat.strong_induction_on
    generalizing state with
  | _ amount ih =>
      rcases henabled state hstate with hgoal | hsome
      · exact .reached hgoal
      · refine .later hsome fun after hnext => ?_
        obtain ⟨hafter, hless⟩ := hstep state after hstate hnext
        exact ih (work after) (hwork ▸ hless) hafter rfl

/-! ## Systems of components -/

/-- Where a component stands in a list of them, and what moving or removing it
makes of the list. -/
theorem exists_split_of_getElem? {Component : Type*}
    {components : List Component} {index : ℕ} {component : Component}
    (hfound : components[index]? = some component) :
    ∃ before after, components = before ++ component :: after ∧
      (∀ moved, components.set index moved = before ++ moved :: after) ∧
      components.eraseIdx index = before ++ after := by
  obtain ⟨hbound, hget⟩ := List.getElem?_eq_some_iff.mp hfound
  refine ⟨components.take index, components.drop (index + 1), ?_, ?_, ?_⟩
  · rw [← hget, List.getElem_cons_drop, List.take_append_drop]
  · intro moved
    rw [List.set_eq_take_append_cons_drop, if_pos hbound]
  · exact List.eraseIdx_eq_take_drop_succ components index

/-! ## Tables of components -/

section Table
variable {Key Entry : Type*} [DecidableEq Key] {entries : Key → Option Entry}
variable {key other : Key} {entry found : Entry}

/-- An entry of the table is the one just written, or was there before. -/
theorem update_eq_some
    (hfound : Function.update entries key (some entry) other = some found) :
    (key = other ∧ entry = found) ∨ (other ≠ key ∧ entries other = some found) := by
  by_cases hsame : other = key
  · subst hsame
    rw [Function.update_self] at hfound
    exact .inl ⟨rfl, Option.some.inj hfound⟩
  · rw [Function.update_of_ne hsame] at hfound
    exact .inr ⟨hsame, hfound⟩

/-- A key not in the table yet takes the place of no entry. -/
theorem update_absent (hnew : entries key = none)
    (hfound : entries other = some found) :
    Function.update entries key (some entry) other = some found := by
  rw [Function.update_of_ne fun hsame => ?_]
  · exact hfound
  · rw [hsame, hnew] at hfound
    cases hfound

theorem update_ne_none (hfound : entries other ≠ none) :
    Function.update entries key (some entry) other ≠ none := by
  by_cases hsame : other = key
  · rw [hsame, Function.update_self]
    exact Option.some_ne_none entry
  · rw [Function.update_of_ne hsame]
    exact hfound

/-- An entry left in the table is another than the one removed. -/
theorem update_none_eq_some
    (hfound : Function.update entries key none other = some found) :
    other ≠ key ∧ entries other = some found := by
  by_cases hsame : other = key
  · rw [hsame, Function.update_self] at hfound
    cases hfound
  · rw [Function.update_of_ne hsame] at hfound
    exact ⟨hsame, hfound⟩

end Table

end Mandala.Transition
