import Mandala.Context.Acquire

/-!
# What the discovery file records

A claim binds and then writes the file, a rotation swaps the token and then
rewrites the file, and a shutdown reads the file after its port is closed and
then removes it by its path.  Leaders of one checkout come and go, and any
number of rotations are under way, so each of these is two steps.
-/

namespace Mandala.Context.DiscoveryFile

open Function Mandala.Transition

/-! ## Leaders and their file -/

inductive LeaderPhase where
  /-- Bound, with discovery still to be written. -/
  | claiming
  | leading
  /-- `shutdown` until the listener drops. -/
  | draining
  | closed
  /-- The file was read, and found to be this leader's or not. -/
  | releasing (ours : Bool)
  | gone
  deriving DecidableEq, Repr

/-- A `RunningHost` with a claim. -/
structure Leader where
  pid : ℕ
  port : ℕ
  /-- The token it accepts. -/
  token : String
  phase : LeaderPhase
  /-- The tokens of rotations that have swapped theirs in and not rewritten the
  file yet. -/
  rotations : List String
  deriving DecidableEq, Repr

namespace Leader

/-- It holds its port. -/
def bound (leader : Leader) : Bool :=
  match leader.phase with
  | .claiming | .leading | .draining => true
  | _ => false

/-- It is not on its way out. -/
def current (leader : Leader) : Bool :=
  match leader.phase with
  | .claiming | .leading => true
  | _ => false

def record (flake : String) (leader : Leader) (token : String) : Discovery :=
  { address := some leader.port, token, pid := leader.pid, flake }

end Leader

structure State where
  leaders : ℕ → Option Leader
  file : Option Discovery

inductive Label where
  | bind (id pid port : ℕ) (token : String)
  | publish (id : ℕ)
  | publishFails (id : ℕ)
  /-- `rotate_token` up to the swap. -/
  | swap (id : ℕ) (fresh : String)
  | rewrite (id rotation : ℕ)
  | rewriteFails (id rotation : ℕ)
  | shutdown (id : ℕ)
  | close (id : ℕ)
  /-- `shutdown` reads the file. -/
  | read (id : ℕ)
  | remove (id : ℕ) (ok : Bool)
  | crash (id : ℕ)
  deriving DecidableEq, Repr

namespace State

def withLeader (state : State) (id : ℕ) (leader : Leader) : State :=
  { state with leaders := update state.leaders id (some leader) }

def moveTo (state : State) (id : ℕ) (leader : Leader) (phase : LeaderPhase) :
    State :=
  state.withLeader id { leader with phase }

def write (state : State) (discovery : Discovery) : State :=
  { state with file := some discovery }

/-- `discovery::write` of a rotation is one rename of a complete file. -/
def rewrite (flake : String) (state : State) (id rotation : ℕ)
    (leader : Leader) : Option State :=
  leader.rotations[rotation]?.map fun token =>
    (state.withLeader id
      { leader with
        rotations := leader.rotations.eraseIdx rotation }).write
          (leader.record flake token)

/-- The guard of `shutdown`'s release. -/
def records (state : State) (leader : Leader) : Bool :=
  state.file.any (claims leader.pid leader.port)

/-- A step of a leader that was bound.  `shutdown` takes the host by value, so
it begins once no rotation borrows it. -/
def actLeader (flake : String) (state : State) (id : ℕ) (leader : Leader) :
    Label → Option State
  | .publish _ =>
      if leader.phase = .claiming then
        some ((state.moveTo id leader .leading).write
          (leader.record flake leader.token))
      else none
  | .publishFails _ =>
      if leader.phase = .claiming then some (state.moveTo id leader .gone)
      else none
  | .swap _ fresh =>
      if leader.phase = .leading then
        some (state.withLeader id
          { leader with
            token := fresh
            rotations := leader.rotations ++ [fresh] })
      else none
  | .rewrite _ rotation =>
      if leader.phase = .leading then state.rewrite flake id rotation leader
      else none
  | .rewriteFails _ rotation =>
      if leader.phase = .leading then
        leader.rotations[rotation]?.map fun _ => state.withLeader id
          { leader with rotations := leader.rotations.eraseIdx rotation }
      else none
  | .shutdown _ =>
      if leader.phase = .leading ∧ leader.rotations = [] then
        some (state.moveTo id leader .draining)
      else none
  | .close _ =>
      if leader.phase = .draining then some (state.moveTo id leader .closed)
      else none
  | .read _ =>
      if leader.phase = .closed then
        some (state.moveTo id leader (.releasing (state.records leader)))
      else none
  | .remove _ ok =>
      match leader.phase with
      | .releasing ours =>
          let released := state.moveTo id leader .gone
          some (if ours && ok then { released with file := none } else released)
      | _ => none
  | .crash _ => some (state.moveTo id leader .gone)
  | .bind .. => none

end State

def Label.leader : Label → ℕ
  | .bind id .. | .publish id | .publishFails id | .swap id _ | .rewrite id _
  | .rewriteFails id _ | .shutdown id | .close id | .read id | .remove id _
  | .crash id => id

/-- One step of a leader of the flake; a port is bound once at a time. -/
inductive Step (flake : String) (before : State) : Label → State → Prop where
  | bind {id pid port : ℕ} {token : String}
      (hnew : before.leaders id = none)
      (hfree : ∀ other leader, before.leaders other = some leader →
        leader.bound = true → leader.port ≠ port) :
      Step flake before (.bind id pid port token)
        (before.withLeader id
          { pid, port, token, phase := .claiming, rotations := [] })
  | act {label : Label} {leader : Leader} {after : State}
      (hfound : before.leaders label.leader = some leader)
      (hact : before.actLeader flake label.leader leader label = some after) :
      Step flake before label after

/-- Nobody leads; a file may have been left behind. -/
def Initial (state : State) : Prop :=
  ∀ id, state.leaders id = none

/-! ## Convergence -/

/-- No step of a leader is in progress. -/
def Quiescent (state : State) : Prop :=
  ∀ id leader, state.leaders id = some leader →
    leader.phase = .gone ∨ leader.phase = .leading ∧ leader.rotations = []

/-- With a live leader, the file records its url and the token it accepts. -/
def Converged (flake : String) (state : State) : Prop :=
  Quiescent state → ∀ id leader, state.leaders id = some leader →
    leader.phase = .leading →
      state.file = some (leader.record flake leader.token)

/-- What a step may do, depending on the state it starts in. -/
def Orderly (state : State) : Label → Prop
  /- One leader at a time, besides those that shut down. -/
  | .bind .. => ∀ id leader, state.leaders id = some leader →
      leader.current = false
  /- A rewrite that leaves the token in force to none that is still to come
  writes that token. -/
  | .rewrite id rotation => ∀ leader token, state.leaders id = some leader →
      leader.rotations[rotation]? = some token →
        token = leader.token ∨
          leader.token ∈ leader.rotations.eraseIdx rotation
  | .rewriteFails id rotation => ∀ leader, state.leaders id = some leader →
      leader.token ∈ leader.rotations.eraseIdx rotation
  /- Nobody leads by now when the file is removed. -/
  | .remove id true => ∀ leader, state.leaders id = some leader →
      leader.phase = .releasing true → ∀ other rival,
        state.leaders other = some rival → rival.phase ≠ .leading
  | _ => True

structure Sound (flake : String) (state : State) : Prop where
  single : ∀ id other leader rival, state.leaders id = some leader →
    state.leaders other = some rival → leader.current = true →
      rival.current = true → id = other
  /-- The token in force is on file or about to be. -/
  recorded : ∀ id leader, state.leaders id = some leader →
    leader.phase = .leading →
      state.file = some (leader.record flake leader.token) ∨
        leader.token ∈ leader.rotations

namespace Sound
variable {flake : String} {state : State} {id : ℕ} {leader changed : Leader}

/-- One leader changes, and the file with it where nobody else leads. -/
theorem change (hsound : Sound flake state)
    (hcurrent : changed.current = true → ∀ other rival,
      state.leaders other = some rival → rival.current = true → other = id)
    {file : Option Discovery}
    (hrecorded : changed.phase = .leading →
      file = some (changed.record flake changed.token) ∨
        changed.token ∈ changed.rotations)
    (hfile : file = state.file ∨ ∀ other rival,
      state.leaders other = some rival → rival.phase = .leading →
        other = id) :
    Sound flake { state.withLeader id changed with file } where
  single first second left right hleft hright hleftCurrent hrightCurrent := by
    obtain ⟨rfl, rfl⟩ | ⟨hfirst, hleft⟩ := update_eq_some hleft
    · obtain ⟨rfl, -⟩ | ⟨hsecond, hright⟩ := update_eq_some hright
      · rfl
      · exact absurd (hcurrent hleftCurrent second right hright hrightCurrent)
          hsecond
    · obtain ⟨rfl, rfl⟩ | ⟨-, hright⟩ := update_eq_some hright
      · exact absurd (hcurrent hrightCurrent first left hleft hleftCurrent) hfirst
      · exact hsound.single first second left right hleft hright hleftCurrent
          hrightCurrent
  recorded other found hfound hleading := by
    obtain ⟨rfl, rfl⟩ | ⟨hother, hold⟩ := update_eq_some hfound
    · exact hrecorded hleading
    · rcases hfile with rfl | halone
      · exact hsound.recorded other found hold hleading
      · exact absurd (halone other found hold hleading) hother

theorem current_of_leading (hleading : leader.phase = .leading) :
    leader.current = true := by
  rw [Leader.current, hleading]

/-- There is no other current leader. -/
theorem alone (hsound : Sound flake state)
    (hfound : state.leaders id = some leader) (hcurrent : leader.current = true)
    (other : ℕ) (rival : Leader) (hother : state.leaders other = some rival)
    (hrival : rival.current = true) : other = id :=
  hsound.single other id rival leader hother hfound hrival hcurrent

/-- A step of the current leader. -/
theorem goOn (hsound : Sound flake state)
    (hfound : state.leaders id = some leader) (hcurrent : leader.current = true)
    {file : Option Discovery}
    (hrecorded : changed.phase = .leading →
      file = some (changed.record flake changed.token) ∨
        changed.token ∈ changed.rotations) :
    Sound flake { state.withLeader id changed with file } := by
  have halone := hsound.alone hfound hcurrent
  refine hsound.change (fun _ => halone) hrecorded (.inr ?_)
  intro other rival hother hleading
  exact halone other rival hother (current_of_leading hleading)

/-- A leader that is on its way out. -/
theorem leave (hsound : Sound flake state) (hcurrent : changed.current = false)
    (hphase : changed.phase ≠ .leading) :
    Sound flake (state.withLeader id changed) := by
  refine hsound.change ?_ (fun hleading => absurd hleading hphase) (.inl rfl)
  intro hstill
  cases hcurrent.symm.trans hstill

theorem act {label : Label} {after : State} (hsound : Sound flake state)
    (horderly : Orderly state label)
    (hfound : state.leaders label.leader = some leader)
    (hact : state.actLeader flake label.leader leader label = some after) :
    Sound flake after := by
  cases label with
  | bind => cases hact
  | publish id =>
      dsimp only [State.actLeader] at hact
      split at hact
      · next hphase =>
          cases hact
          have hcurrent : leader.current = true := by
            rw [Leader.current, hphase]
          exact hsound.goOn hfound hcurrent fun _ => .inl rfl
      · cases hact
  | publishFails id =>
      dsimp only [State.actLeader] at hact
      split at hact
      · cases hact
        exact hsound.leave rfl nofun
      · cases hact
  | swap id fresh =>
      dsimp only [State.actLeader] at hact
      split at hact
      · next hphase =>
          cases hact
          refine hsound.goOn hfound (current_of_leading hphase) fun _ => ?_
          exact .inr (List.mem_append_right _ (List.mem_singleton_self fresh))
      · cases hact
  | rewrite id rotation =>
      dsimp only [State.actLeader] at hact
      split at hact
      · next hphase =>
          obtain ⟨token, htoken, rfl⟩ := Option.map_eq_some_iff.mp hact
          refine hsound.goOn hfound (current_of_leading hphase) fun _ => ?_
          rcases horderly leader token hfound htoken with rfl | hlater
          · exact .inl rfl
          · exact .inr hlater
      · cases hact
  | rewriteFails id rotation =>
      dsimp only [State.actLeader] at hact
      split at hact
      · next hphase =>
          obtain ⟨token, -, rfl⟩ := Option.map_eq_some_iff.mp hact
          refine hsound.goOn hfound (current_of_leading hphase) fun _ => ?_
          exact .inr (horderly leader hfound)
      · cases hact
  | shutdown id =>
      dsimp only [State.actLeader] at hact
      split at hact
      · cases hact
        exact hsound.leave rfl nofun
      · cases hact
  | close id =>
      dsimp only [State.actLeader] at hact
      split at hact
      · cases hact
        exact hsound.leave rfl nofun
      · cases hact
  | read id =>
      dsimp only [State.actLeader] at hact
      split at hact
      · cases hact
        exact hsound.leave rfl nofun
      · cases hact
  | remove id ok =>
      dsimp only [State.actLeader] at hact
      split at hact
      · next ours hphase =>
          cases hact
          split
          · next hremoves =>
              rw [Bool.and_eq_true] at hremoves
              obtain ⟨rfl, rfl⟩ := hremoves
              refine hsound.change ?_ nofun (.inr ?_)
              · intro hstill
                cases hstill
              · intro other rival hother hleading
                exact absurd hleading
                  (horderly leader hfound hphase other rival hother)
          · exact hsound.leave rfl nofun
      · cases hact
  | crash id =>
      cases hact
      exact hsound.leave rfl nofun

theorem step {label : Label} {after : State} (hsound : Sound flake state)
    (horderly : Orderly state label) (hstep : Step flake state label after) :
    Sound flake after := by
  cases hstep with
  | bind hnew hfree =>
      refine hsound.change ?_ nofun (.inl rfl)
      intro _ other rival hother hcurrent
      cases (horderly other rival hother).symm.trans hcurrent
  | act hfound hact => exact hsound.act horderly hfound hact

theorem converged (hsound : Sound flake state) : Converged flake state := by
  intro hquiescent id leader hfound hleading
  rcases hquiescent id leader hfound with hgone | ⟨-, hrotations⟩
  · rw [hleading] at hgone
    cases hgone
  · refine (hsound.recorded id leader hfound hleading).resolve_right ?_
    rw [hrotations]
    exact List.not_mem_nil

end Sound

theorem sound_initial {flake : String} {state : State}
    (hinitial : Initial state) : Sound flake state where
  single id other leader rival hleader := by
    rw [hinitial id] at hleader
    cases hleader
  recorded id leader hleader := by
    rw [hinitial id] at hleader
    cases hleader

/-- **Discovery.** In every run of orderly steps, whenever nothing is in
progress and a leader is live, the file records it and the token it accepts. -/
theorem discovery_converged (flake : String) (state : State)
    (hreach : Reachable Initial (Step flake) Orderly state) :
    Converged flake state := by
  have hsound : Sound flake state := by
    refine hreach.invariant ?_ ?_
    · intro start hinitial
      exact sound_initial hinitial
    · intro before label after hbefore horderly hstep
      exact hbefore.step horderly hstep
  exact hsound.converged

/-! ### Rotations, one after the other and at once -/

/-- A leader that accepts the token, with those rotations under way. -/
def leading (token : String) (rotations : List String) : Leader :=
  { pid := 1, port := 27155, token, phase := .leading, rotations }

def alone (leader : Leader) (file : Option Discovery) : State :=
  { leaders := update (fun _ => none) 0 (some leader), file }

/-- The file records the leader with that token. -/
def recorded (token : String) : Option Discovery :=
  some ((leading token []).record "/checkout" token)

section Steps
variable {allowed : State → Label → Prop}

/-- What the lone leader does next. -/
theorem reachable_alone {before after : Leader} {label : Label}
    {file written : Option Discovery} (hleader : label.leader = 0)
    (hbefore : Reachable Initial (Step "/checkout") allowed
      (alone before file))
    (hallowed : allowed (alone before file) label)
    (hact : (alone before file).actLeader "/checkout" 0 before label =
      some { (alone before file).withLeader 0 after with file := written }) :
    Reachable Initial (Step "/checkout") allowed (alone after written) := by
  have hfound : (alone before file).leaders label.leader = some before := by
    rw [hleader]
    rfl
  have hstep : Step "/checkout" (alone before file) label
      { (alone before file).withLeader 0 after with file := written } :=
    .act hfound (hleader ▸ hact)
  have hafter : alone after written =
      { (alone before file).withLeader 0 after with file := written } := by
    rw [alone, alone, State.withLeader, update_idem]
  rw [hafter]
  exact hbefore.step hallowed hstep

end Steps

theorem reachable_leading :
    Reachable Initial (Step "/checkout") Orderly
      (alone (leading "one" []) (recorded "one")) := by
  have hstart : Reachable Initial (Step "/checkout") Orderly
      { leaders := fun _ => none, file := none } := .initial fun _ => rfl
  have hbind : Step "/checkout" { leaders := fun _ => none, file := none }
      (.bind 0 1 27155 "one")
      (alone { leading "one" [] with phase := .claiming } none) :=
    .bind rfl nofun
  have hallowed : Orderly { leaders := fun _ => none, file := none }
      (.bind 0 1 27155 "one") := nofun
  have hclaiming := hstart.step hallowed hbind
  exact @reachable_alone Orderly _ _ (.publish 0) _ _ rfl hclaiming trivial rfl

theorem quiescent_leading (token : String) (file : Option Discovery) :
    Quiescent (alone (leading token []) file) := by
  intro id leader hleader
  refine .inr ?_
  by_cases hid : id = 0
  · subst hid
    cases hleader
    exact ⟨rfl, rfl⟩
  · have hnone : update (fun _ => none) 0 (some (leading token [])) id =
        none := update_of_ne hid ..
    cases hnone.symm.trans hleader

theorem discovery_converged_rotated :
    Quiescent (alone (leading "two" []) (recorded "two")) ∧
      Converged "/checkout" (alone (leading "two" []) (recorded "two")) := by
  have hswapped : Reachable Initial (Step "/checkout") Orderly
      (alone (leading "two" ["two"]) (recorded "one")) :=
    @reachable_alone Orderly _ _ (.swap 0 "two") _ _ rfl reachable_leading
      trivial rfl
  have hallowed : Orderly (alone (leading "two" ["two"]) (recorded "one"))
      (.rewrite 0 0) := by
    intro leader token hleader htoken
    cases hleader
    cases htoken
    exact .inl rfl
  refine ⟨quiescent_leading _ _, ?_⟩
  exact discovery_converged "/checkout" _
    (@reachable_alone Orderly _ _ (.rewrite 0 0) _ _ rfl hswapped hallowed rfl)

/-- Two rotations rewrite the file in the other order than they swapped the
token. -/
theorem crossed_not_converged :
    ¬ ∀ state, Reachable Initial (Step "/checkout") anyStep state →
      Converged "/checkout" state := by
  intro hconverged
  have hfirst := @reachable_alone anyStep _ _ (.swap 0 "two") _ _ rfl
    reachable_leading.anyStep trivial rfl
  have hsecond := @reachable_alone anyStep _ _ (.swap 0 "three") _ _ rfl
    hfirst trivial rfl
  have hlater := @reachable_alone anyStep _ (leading "three" ["two"])
    (.rewrite 0 1) _ (recorded "three") rfl hsecond trivial rfl
  have hearlier := @reachable_alone anyStep _ (leading "three" [])
    (.rewrite 0 0) _ (recorded "two") rfl hlater trivial rfl
  have hfile := hconverged _ hearlier (quiescent_leading _ _) 0 (leading "three" []) rfl rfl
  have htokens : "two" = "three" :=
    congrArg Discovery.token (Option.some.inj hfile)
  exact absurd htokens (by decide)

end Mandala.Context.DiscoveryFile
