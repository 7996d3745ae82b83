import Mandala.Core.Effects

/-!
# Programs in a world that moves on its own

The requests of a program are served by a world that other parties change
between any two of them.  What a program guarantees is proved from assertions
that survive those changes, one request at a time.
-/

namespace Mandala.Effects

variable {S : Signature} {A B World : Type}

/-- How a world answers the requests of a program, and what that makes of it. -/
abbrev Service (S : Signature) (World : Type) :=
  (effect : S.Request) → World → S.Reply effect × World

/-- A request, with the world it was served in. -/
structure Call (S : Signature) (World : Type) where
  effect : S.Request
  world : World

/-- `RunsIn serve move program before calls value after`: started in `before`,
the program returned `value` in `after`.  The world may have moved before each
of its `calls` and after the last one. -/
inductive RunsIn (serve : Service S World) (move : World → World → Prop) :
    Program S A → World → List (Call S World) → A → World → Prop where
  | done {value : A} {world : World} :
      RunsIn serve move (Program.done value) world [] value world
  | move {program : Program S A} {before middle after : World}
      {calls : List (Call S World)} {value : A} (hmove : move before middle)
      (hrest : RunsIn serve move program middle calls value after) :
      RunsIn serve move program before calls value after
  | request {effect : S.Request} {next : S.Reply effect → Program S A}
      {world after : World} {calls : List (Call S World)} {value : A}
      (hrest : RunsIn serve move (next (serve effect world).1)
        (serve effect world).2 calls value after) :
      RunsIn serve move (Program.request effect next) world
        (⟨effect, world⟩ :: calls) value after

variable {serve : Service S World} {move : World → World → Prop}

/-- A run of a sequence is a run of its first part followed by one of the rest. -/
theorem RunsIn.split {program : Program S A} {rest : A → Program S B}
    {before after : World} {calls : List (Call S World)} {value : B}
    (hrun : RunsIn serve move (program >>= rest) before calls value after) :
    ∃ first result middle second, calls = first ++ second ∧
      RunsIn serve move program before first result middle ∧
      RunsIn serve move (rest result) middle second value after := by
  generalize hwhole : program >>= rest = whole at hrun
  induction hrun generalizing program with
  | @done value world =>
      cases program with
      | done result =>
          exact ⟨[], result, world, [], rfl, .done, by
            rw [Program.done_bind] at hwhole
            exact hwhole ▸ .done⟩
      | request effect next => cases hwhole
  | move hmove _ ih =>
      obtain ⟨first, result, middle, second, hcalls, hfirst, hsecond⟩ :=
        ih hwhole
      exact ⟨first, result, middle, second, hcalls, .move hmove hfirst, hsecond⟩
  | @request effect next world after calls value hrest ih =>
      cases program with
      | done result =>
          exact ⟨[], result, world, _, rfl, .done, by
            rw [Program.done_bind] at hwhole
            exact hwhole ▸ .request hrest⟩
      | request effect following =>
          cases hwhole
          obtain ⟨calls, result, middle, second, rfl, hfirst, hsecond⟩ := ih rfl
          exact ⟨_ :: calls, result, middle, second, rfl, .request hfirst, hsecond⟩

theorem RunsIn.bind {program : Program S A} {rest : A → Program S B}
    {before middle after : World} {first second : List (Call S World)}
    {result : A} {value : B}
    (hfirst : RunsIn serve move program before first result middle)
    (hsecond : RunsIn serve move (rest result) middle second value after) :
    RunsIn serve move (program >>= rest) before (first ++ second) value after := by
  induction hfirst with
  | done => exact hsecond
  | move hmove _ ih => exact .move hmove (ih hsecond)
  | request _ ih => exact .request (ih hsecond)

/-! ## What is guaranteed whatever the others do -/

/-- No move of the others makes the assertion false. -/
def Stable (move : World → World → Prop) (assertion : World → Prop) : Prop :=
  ∀ before after, assertion before → move before after → assertion after

theorem Stable.and {left right : World → Prop} (hleft : Stable move left)
    (hright : Stable move right) :
    Stable move fun world => left world ∧ right world :=
  fun before after hboth hmove =>
    ⟨hleft before after hboth.1 hmove, hright before after hboth.2 hmove⟩

/-- Started in a world of `pre`, the program makes only allowed calls and ends
in a world of `post`. -/
def Guarantees (serve : Service S World) (move : World → World → Prop)
    (pre : World → Prop) (program : Program S A) (allowed : Call S World → Prop)
    (post : A → World → Prop) : Prop :=
  ∀ before calls value after, pre before →
    RunsIn serve move program before calls value after →
    (∀ call ∈ calls, allowed call) ∧ post value after

section Rules

variable {pre pre' : World → Prop} {allowed : Call S World → Prop}
  {post : A → World → Prop}

theorem Guarantees.of_pre {program : Program S A}
    (hprogram : Guarantees serve move pre' program allowed post)
    (himp : ∀ world, pre world → pre' world) :
    Guarantees serve move pre program allowed post :=
  fun before calls value after hbefore hrun =>
    hprogram before calls value after (himp before hbefore) hrun

theorem Guarantees.done {value : A} (hstable : Stable move pre)
    (hpost : ∀ world, pre world → post value world) :
    Guarantees serve move pre (Program.done value) allowed post := by
  intro before calls result after hbefore hrun
  generalize hprogram : Program.done value = program at hrun
  induction hrun with
  | done =>
      cases hprogram
      exact ⟨by simp, hpost _ hbefore⟩
  | move hmove _ ih => exact ih (hstable _ _ hbefore hmove) hprogram
  | request => cases hprogram

/-- The request is judged in whatever world it is served in, the rest of the
program on the reply it got. -/
theorem Guarantees.request {effect : S.Request}
    {next : S.Reply effect → Program S A}
    {middle : S.Reply effect → World → Prop} (hstable : Stable move pre)
    (hallowed : ∀ world, pre world → allowed ⟨effect, world⟩)
    (hserve : ∀ world, pre world →
      middle (serve effect world).1 (serve effect world).2)
    (hnext : ∀ reply,
      Guarantees serve move (middle reply) (next reply) allowed post) :
    Guarantees serve move pre (Program.request effect next) allowed post := by
  intro before calls result after hbefore hrun
  generalize hprogram : Program.request effect next = program at hrun
  induction hrun with
  | done => cases hprogram
  | move hmove _ ih => exact ih (hstable _ _ hbefore hmove) hprogram
  | @request _ _ world _ _ _ hrest _ =>
      cases hprogram
      obtain ⟨hcalls, hafter⟩ := hnext _ _ _ _ _ (hserve world hbefore) hrest
      exact ⟨List.forall_mem_cons.mpr ⟨hallowed world hbefore, hcalls⟩, hafter⟩

/-- A request that changes nothing, whatever is replied to it. -/
theorem Guarantees.query {effect : S.Request}
    {next : S.Reply effect → Program S A} (hstable : Stable move pre)
    (hallowed : ∀ world, pre world → allowed ⟨effect, world⟩)
    (hsame : ∀ world, (serve effect world).2 = world)
    (hnext : ∀ reply, Guarantees serve move pre (next reply) allowed post) :
    Guarantees serve move pre (Program.request effect next) allowed post := by
  have hserve : ∀ world, pre world →
      (fun _ => pre) (serve effect world).1 (serve effect world).2 := by
    intro world hworld
    rw [hsame world]
    exact hworld
  exact .request hstable hallowed hserve hnext

theorem Guarantees.bind {program : Program S A} {rest : A → Program S B}
    {final : B → World → Prop}
    (hprogram : Guarantees serve move pre program allowed post)
    (hrest : ∀ value, Guarantees serve move (post value) (rest value) allowed
      final) :
    Guarantees serve move pre (program >>= rest) allowed final := by
  intro before calls value after hbefore hrun
  obtain ⟨first, result, middle, second, rfl, hfirst, hsecond⟩ := hrun.split
  obtain ⟨hcalls, hmiddle⟩ := hprogram _ _ _ _ hbefore hfirst
  obtain ⟨hmore, hafter⟩ := hrest result _ _ _ _ hmiddle hsecond
  exact ⟨List.forall_mem_append.mpr ⟨hcalls, hmore⟩, hafter⟩

end Rules

end Mandala.Effects
