import Mandala.Context.Acquire

/-!
# One leader per checkout

Every contender walks the range in the same order, so the ports an acquisition
has passed are held against the others.  That argument needs the listeners to
stay: once a port is left behind it may be bound by somebody else, and nothing
looks back.  While no listener leaves a port that an acquisition relies on, and
no leader that is shutting down is passed over, at most one leader is bound.
-/

namespace Mandala.Context

open Mandala.Transition

/-! ## What an acquisition relies on -/

/-- How many ports of the range an acquisition found held and walked past. -/
def Phase.walkedPast : Phase → ℕ
  | probing (.walk index) _ _ => index
  | binding index _ => index
  | _ => 0

/-- How many ports of the range refused its bind. -/
def Phase.refusedBelow : Phase → ℕ
  | probing (.walk index) _ _ => index + 1
  | binding index _ => index
  | _ => 0

/-- How many ports of the range it scanned without finding a leader. -/
def Phase.scannedBelow (ports : List ℕ) : Phase → ℕ
  | probing (.scan index) _ _ => index
  | probing (.walk _) _ _ => ports.length
  | binding _ _ => ports.length
  | _ => 0

/-- The port a step takes a listener away from. -/
def frees (state : State) : Action → Option ℕ
  | .publishFails process _ => (state.phases process).bound
  | .close process => (state.phases process).bound
  | .crash process => (state.phases process).bound
  | .foreignLeaves port => some port
  | _ => none

/-- The port of the range an acquisition goes on from. -/
def leftBehind (ports : List ℕ) (place : Place) : Option ℕ :=
  match place with
  | .discovery _ => none
  | .scan index => ports[index]?
  | .walk index => ports[index]?

/-- The port of the range an acquisition leaves behind by a step. -/
def passes (ports : List ℕ) (state : State) : Action → Option ℕ
  | .probe process .foreign | .probe process .dead =>
      match state.phases process with
      | .probing place _ _ => leftBehind ports place
      | _ => none
  | _ => none

/-- A step that takes nothing away from an acquisition under way. -/
structure Undisturbed (ports : List ℕ) (state : State) (action : Action) :
    Prop where
  /-- No host of the checkout, draining or not, is left behind. -/
  passing : ∀ port host, passes ports state action = some port →
    state.listeners port ≠ some (.ours host)
  /-- No listener leaves a port that refused a bind. -/
  refused : ∀ port (index : ℕ), frees state action = some port →
    ports[index]? = some port →
      ∀ process, (state.phases process).refusedBelow ≤ index
  /-- No listener leaves a port before a leader's while an acquisition has
  already scanned past that leader. -/
  scanned : ∀ port (index leader : ℕ) held host, frees state action = some port →
    ports[index]? = some port → index < leader → ports[leader]? = some held →
      state.listeners held = some (.ours host) →
        ∀ process, (state.phases process).scannedBelow ports ≤ leader

/-! ## The invariant -/

/-- The listeners are what an acquisition in this phase takes them for. -/
structure Fits (ports : List ℕ) (listeners : ℕ → Option Listener)
    (phase : Phase) : Prop where
  walked : ∀ index port, index < phase.walkedPast → ports[index]? = some port →
    listeners port = some .foreign
  held : ∀ index attempt token port, phase = .probing (.walk index) attempt token →
    ports[index]? = some port → listeners port ≠ none
  scanned : ∀ leader port host index earlier,
    leader < phase.scannedBelow ports → ports[leader]? = some port →
      listeners port = some (.ours host) → index < leader →
        ports[index]? = some earlier → listeners earlier = some .foreign

structure Safe (ports : List ℕ) (state : State) : Prop where
  inRange : ∀ port host, state.listeners port = some (.ours host) →
    ∃ index : ℕ, ports[index]? = some port
  fits : ∀ process, Fits ports state.listeners (state.phases process)
  unique : AtMostOneLeader state

/-- A phase that walks and scans nothing relies on nothing. -/
theorem fits_of_quiet {ports : List ℕ} {listeners : ℕ → Option Listener}
    {phase : Phase} (hwalked : phase.refusedBelow = 0)
    (hscanned : phase.scannedBelow ports = 0) : Fits ports listeners phase := by
  have hwalkedPast : phase.walkedPast ≤ phase.refusedBelow := by
    rw [Phase.walkedPast.eq_def, Phase.refusedBelow.eq_def]
    split <;> simp
  constructor
  · intro index port hindex
    omega
  · rintro index attempt token port rfl
    cases hwalked
  · intro leader port host index earlier hleader
    omega

section Walking

variable {ports : List ℕ} {listeners : ℕ → Option Listener}

theorem fits_bindFrom {index : ℕ} {token : String}
    (hwalked : ∀ earlier port, earlier < index → ports[earlier]? = some port →
      listeners port = some .foreign)
    (hscanned : ∀ (leader : ℕ) port host (earlier : ℕ) earlierPort,
      ports[leader]? = some port → listeners port = some (.ours host) →
        earlier < leader → ports[earlier]? = some earlierPort →
          listeners earlierPort = some .foreign) :
    Fits ports listeners (bindFrom ports index token) := by
  rw [bindFrom]
  split
  · constructor
    · exact hwalked
    · intro _ _ _ _ heq
      cases heq
    · intro leader port host earlier earlierPort _ hleader
      exact hscanned leader port host earlier earlierPort hleader
  · exact fits_of_quiet rfl rfl

theorem fits_scanFrom {index : ℕ} {token : String}
    (hscanned : ∀ leader port host earlier earlierPort, leader < index →
      ports[leader]? = some port → listeners port = some (.ours host) →
        earlier < leader → ports[earlier]? = some earlierPort →
          listeners earlierPort = some .foreign) :
    Fits ports listeners (scanFrom ports index token) := by
  rw [scanFrom]
  split
  · constructor
    · intro earlier port hearlier
      cases hearlier
    · intro _ _ _ _ heq
      cases heq
    · exact hscanned
  · next hend =>
      apply fits_bindFrom
      · intro earlier port hearlier
        cases hearlier
      · intro leader port host earlier earlierPort hleader
        have hbound := (List.getElem?_eq_some_iff.mp hleader).1
        exact hscanned leader port host earlier earlierPort (by omega) hleader

/-- Going on past a port that no host of the checkout holds. -/
theorem fits_goOn {place : Place} {attempt address : ℕ} {token : String}
    (hfits : Fits ports listeners (.probing place attempt token))
    (haddress : addressOf ports place = some address)
    (hpassed : ∀ port host, leftBehind ports place = some port →
      listeners port ≠ some (.ours host)) :
    Fits ports listeners (goOn ports place token) := by
  cases place with
  | discovery other =>
      apply fits_scanFrom
      intro leader _ _ _ _ hleader
      cases hleader
  | scan index =>
      apply fits_scanFrom
      intro leader port host earlier earlierPort hleader hport hours
      rcases Nat.lt_succ_iff_lt_or_eq.mp hleader with hbefore | rfl
      · exact hfits.scanned leader port host earlier earlierPort hbefore hport hours
      · change ports[leader]? = some address at haddress
        rw [hport] at haddress
        cases haddress
        exact absurd hours (hpassed _ host hport)
  | walk index =>
      apply fits_bindFrom
      · intro earlier port hearlier hport
        rcases Nat.lt_succ_iff_lt_or_eq.mp hearlier with hbefore | rfl
        · exact hfits.walked earlier port hbefore hport
        · change ports[earlier]? = some address at haddress
          rw [hport] at haddress
          cases haddress
          have hheld := hfits.held earlier attempt token address rfl hport
          cases hlistener : listeners address with
          | none => exact absurd hlistener hheld
          | some listener =>
              cases listener with
              | foreign => rfl
              | ours host =>
                  exact absurd hlistener (hpassed address host hport)
      · intro leader port host earlier earlierPort hport hours
        exact hfits.scanned leader port host earlier earlierPort
          (List.getElem?_eq_some_iff.mp hport).1 hport hours

end Walking

/-! ## Changes of one listener -/

section Listeners

variable {ports : List ℕ} {listeners : ℕ → Option Listener} {phase : Phase}
  {port : ℕ}

/-- A foreign service on a free port disturbs nobody. -/
theorem Fits.foreignBinds (hfits : Fits ports listeners phase)
    (hfree : listeners port = none) :
    Fits ports (Function.update listeners port (some .foreign)) phase := by
  constructor
  · intro index other hindex hother
    exact update_absent hfree (hfits.walked index other hindex hother)
  · intro index attempt token other hphase hother
    exact update_ne_none (hfits.held index attempt token other hphase hother)
  · intro leader other host index earlier hleader hother hours hindex hearlier
    obtain ⟨-, heq⟩ | ⟨-, hours⟩ := update_eq_some hours
    · cases heq
    · exact update_absent hfree (hfits.scanned leader other host index earlier
        hleader hother hours hindex hearlier)

/-- A host of the checkout that stays on its port disturbs nobody. -/
theorem Fits.hostStays {host changed : Host} (hfits : Fits ports listeners phase)
    (hhost : listeners port = some (.ours host)) :
    Fits ports (Function.update listeners port (some (.ours changed))) phase := by
  have hkept {other : ℕ} (hforeign : listeners other = some .foreign) :
      Function.update listeners port (some (.ours changed)) other =
        some .foreign := by
    have hne : other ≠ port := by
      rintro rfl
      rw [hhost] at hforeign
      cases hforeign
    rw [Function.update_of_ne hne, hforeign]
  constructor
  · intro index other hindex hother
    exact hkept (hfits.walked index other hindex hother)
  · intro index attempt token other hphase hother
    exact update_ne_none (hfits.held index attempt token other hphase hother)
  · intro leader other held index earlier hleader hother hours hindex hearlier
    apply hkept
    obtain ⟨rfl, -⟩ | ⟨-, hours⟩ := update_eq_some hours
    · exact hfits.scanned leader port host index earlier hleader hother hhost
        hindex hearlier
    · exact hfits.scanned leader other held index earlier hleader hother hours
        hindex hearlier

/-- A listener may leave a port nobody relies on. -/
theorem Fits.leaves (hfits : Fits ports listeners phase)
    (hrefused : ∀ index : ℕ, ports[index]? = some port → phase.refusedBelow ≤ index)
    (hscanned : ∀ (index leader : ℕ) held host, ports[index]? = some port →
      index < leader → ports[leader]? = some held →
        listeners held = some (.ours host) →
          phase.scannedBelow ports ≤ leader) :
    Fits ports (Function.update listeners port none) phase := by
  constructor
  · intro index other hindex hother
    have hne : other ≠ port := by
      rintro rfl
      have hle := hrefused index hother
      have hwalked : phase.walkedPast ≤ phase.refusedBelow := by
        rw [Phase.walkedPast.eq_def, Phase.refusedBelow.eq_def]
        split <;> simp
      omega
    rw [Function.update_of_ne hne]
    exact hfits.walked index other hindex hother
  · rintro index attempt token other rfl hother
    have hne : other ≠ port := by
      rintro rfl
      exact Nat.not_succ_le_self index (hrefused index hother)
    rw [Function.update_of_ne hne]
    exact hfits.held index attempt token other rfl hother
  · intro leader other host index earlier hleader hother hours hindex hearlier
    replace hours := (update_none_eq_some hours).2
    have hearlierNe : earlier ≠ port := by
      rintro rfl
      have hle := hscanned index leader other host hearlier hindex hother hours
      omega
    rw [Function.update_of_ne hearlierNe]
    exact hfits.scanned leader other host index earlier hleader hother hours
      hindex hearlier

end Listeners

/-! ## Steps -/

section Steps

variable {identity : ContextIdentity} {state : State}

theorem Safe.setPhase (hsafe : Safe identity.ports state) {process : ℕ}
    {phase : Phase} (hfits : Fits identity.ports state.listeners phase) :
    Safe identity.ports (state.setPhase process phase) := by
  refine ⟨hsafe.inRange, ?_, hsafe.unique⟩
  intro other
  change Fits _ state.listeners (Function.update state.phases process phase other)
  by_cases heq : other = process
  · rw [heq, Function.update_self]
    exact hfits
  · rw [Function.update_of_ne heq]
    exact hsafe.fits other

theorem Safe.setDiscovery (hsafe : Safe identity.ports state)
    (discovery : Option Discovery) :
    Safe identity.ports (state.setDiscovery discovery) :=
  ⟨hsafe.inRange, hsafe.fits, hsafe.unique⟩

theorem Safe.foreignBinds (hsafe : Safe identity.ports state) {port : ℕ}
    (hfree : state.listeners port = none) :
    Safe identity.ports (state.setListener port (some .foreign)) := by
  have hours {other : ℕ} {host : Host}
      (hhost : (state.setListener port (some .foreign)).listeners other =
        some (.ours host)) : state.listeners other = some (.ours host) := by
    obtain ⟨-, heq⟩ | ⟨-, hhost⟩ := update_eq_some hhost
    · cases heq
    · exact hhost
  refine ⟨fun other host hhost => hsafe.inRange other host (hours hhost), ?_, ?_⟩
  · intro process
    exact (hsafe.fits process).foreignBinds hfree
  · intro left right host other hleft hright
    exact hsafe.unique left right host other (hours hleft) (hours hright)

theorem Safe.hostStays (hsafe : Safe identity.ports state) {port : ℕ}
    {host changed : Host} (hhost : state.listeners port = some (.ours host)) :
    Safe identity.ports (state.setListener port (some (.ours changed))) := by
  have hours {other : ℕ} {held : Host}
      (hheld : (state.setListener port (some (.ours changed))).listeners other =
        some (.ours held)) :
      ∃ before, state.listeners other = some (.ours before) := by
    obtain ⟨rfl, -⟩ | ⟨-, hheld⟩ := update_eq_some hheld
    · exact ⟨host, hhost⟩
    · exact ⟨held, hheld⟩
  refine ⟨?_, ?_, ?_⟩
  · intro other held hheld
    obtain ⟨before, hbefore⟩ := hours hheld
    exact hsafe.inRange other before hbefore
  · intro process
    exact (hsafe.fits process).hostStays hhost
  · intro left right held other hleft hright
    obtain ⟨before, hbefore⟩ := hours hleft
    obtain ⟨after, hafter⟩ := hours hright
    exact hsafe.unique left right before after hbefore hafter

theorem Safe.leaves (hsafe : Safe identity.ports state) {port : ℕ}
    {action : Action} (hundisturbed : Undisturbed identity.ports state action)
    (hfrees : frees state action = some port) :
    Safe identity.ports (state.setListener port none) := by
  have hours {other : ℕ} {host : Host}
      (hhost : (state.setListener port none).listeners other =
        some (.ours host)) : state.listeners other = some (.ours host) :=
    (update_none_eq_some hhost).2
  refine ⟨fun other host hhost => hsafe.inRange other host (hours hhost), ?_, ?_⟩
  · intro process
    apply (hsafe.fits process).leaves
    · intro index hport
      exact hundisturbed.refused port index hfrees hport process
    · intro index leader held host hport hlater hheld hhost
      exact hundisturbed.scanned port index leader held host hfrees hport hlater
        hheld hhost process
  · intro left right host other hleft hright
    exact hsafe.unique left right host other (hours hleft) (hours hright)

theorem Safe.drop (hsafe : Safe identity.ports state) {process : ℕ}
    {action : Action} (hundisturbed : Undisturbed identity.ports state action)
    (hfrees : frees state action = (state.phases process).bound) :
    Safe identity.ports (state.drop process) := by
  rw [State.drop]
  cases hbound : (state.phases process).bound with
  | none => exact hsafe
  | some port => exact hsafe.leaves hundisturbed (hfrees.trans hbound)

/-- When a walking acquisition finds its port free, nobody leads. -/
theorem Safe.unled_of_free (hsafe : Safe identity.ports state)
    {process index port : ℕ} {token : String}
    (hphase : state.phases process = .binding index token)
    (hport : identity.ports[index]? = some port)
    (hfree : state.listeners port = none) (other : ℕ) (host : Host) :
    state.listeners other ≠ some (.ours host) := by
  intro hhost
  have hfits := hsafe.fits process
  rw [hphase] at hfits
  obtain ⟨leader, hleader⟩ := hsafe.inRange other host hhost
  rcases Nat.lt_trichotomy leader index with hbefore | rfl | hafter
  · have hforeign := hfits.walked leader other hbefore hleader
    rw [hhost] at hforeign
    cases hforeign
  · rw [hport] at hleader
    cases hleader
    rw [hfree] at hhost
    cases hhost
  · have hforeign := hfits.scanned leader other host index port
      (List.getElem?_eq_some_iff.mp hleader).1 hleader hhost hafter hport
    rw [hfree] at hforeign
    cases hforeign

theorem Safe.bind (hsafe : Safe identity.ports state)
    {process index port : ℕ} {token : String}
    (hphase : state.phases process = .binding index token)
    (hport : identity.ports[index]? = some port)
    (hfree : state.listeners port = none) (host : Host) :
    Safe identity.ports
      ((state.setPhase process (.publishing port token)).setListener port
        (some (.ours host))) := by
  have hunled := hsafe.unled_of_free hphase hport hfree
  have hwalked := (hsafe.fits process).walked
  rw [hphase] at hwalked
  have honly {other : ℕ} {held : Host}
      (hheld : Function.update state.listeners port (some (.ours host)) other =
        some (.ours held)) : other = port := by
    obtain ⟨rfl, -⟩ | ⟨-, hheld⟩ := update_eq_some hheld
    · rfl
    · exact absurd hheld (hunled other held)
  refine ⟨?_, ?_, ?_⟩
  · intro other held hheld
    rw [honly hheld]
    exact ⟨index, hport⟩
  · intro other
    change Fits _ (Function.update state.listeners port _)
      (Function.update state.phases process _ other)
    by_cases heq : other = process
    · rw [heq, Function.update_self]
      exact fits_of_quiet rfl rfl
    · rw [Function.update_of_ne heq]
      have hfits := hsafe.fits other
      constructor
      · intro earlier earlierPort hearlier hearlierPort
        exact update_absent hfree
          (hfits.walked earlier earlierPort hearlier hearlierPort)
      · intro earlier attempt token earlierPort hwalk hearlierPort
        exact update_ne_none
          (hfits.held earlier attempt token earlierPort hwalk hearlierPort)
      · intro leader held heldHost earlier earlierPort _ hleader hheld hearlier
          hearlierPort
        rw [honly hheld, ← hport] at hleader
        have hbound := (List.getElem?_eq_some_iff.mp hport).1
        have hindex : leader = index := by
          by_contra hne
          exact hne ((List.getElem?_inj hbound identity.nodup_ports).mp
            hleader.symm).symm
        rw [hindex] at hearlier
        exact update_absent hfree
          (hwalked earlier earlierPort hearlier hearlierPort)
  · intro left right held other hleft hright
    rw [honly hleft, honly hright]

theorem Safe.afterProbe (hsafe : Safe identity.ports state)
    {process address attempt : ℕ} {place : Place} {token : String}
    {outcome : Probe}
    (hphase : state.phases process = .probing place attempt token)
    (haddress : addressOf identity.ports place = some address)
    (hundisturbed : Undisturbed identity.ports state (.probe process outcome)) :
    Fits identity.ports state.listeners
      (afterProbe identity.ports place address attempt token outcome) := by
  have hfits := hsafe.fits process
  rw [hphase] at hfits
  have hgoOn (hpasses : passes identity.ports state (.probe process outcome) =
      leftBehind identity.ports place) :
      Fits identity.ports state.listeners (goOn identity.ports place token) := by
    apply fits_goOn hfits haddress
    intro port host hleft
    exact hundisturbed.passing port host (hpasses.trans hleft)
  cases outcome with
  | ourLeader => exact fits_of_quiet rfl rfl
  | tokenMismatch => exact fits_of_quiet rfl rfl
  | busy =>
      rw [Context.afterProbe]
      split
      · refine ⟨?_, ?_, ?_⟩
        · cases place <;> exact hfits.walked
        · rintro index _ _ port heq hport
          cases heq
          exact hfits.held index attempt token port rfl hport
        · cases place <;> exact hfits.scanned
      · exact fits_of_quiet rfl rfl
  | foreign =>
      apply hgoOn
      rw [passes, hphase]
  | dead =>
      apply hgoOn
      rw [passes, hphase]

/-- Every undisturbed step keeps the invariant. -/
theorem Safe.step {action : Action} {after : State}
    (hsafe : Safe identity.ports state)
    (hundisturbed : Undisturbed identity.ports state action)
    (hstep : Step identity state action after) : Safe identity.ports after := by
  cases hstep with
  | start _ =>
      apply hsafe.setPhase
      rw [begin]
      split
      · exact fits_of_quiet rfl rfl
      · apply fits_scanFrom
        intro leader _ _ _ _ hleader
        cases hleader
  | probe hphase haddress _ =>
      exact hsafe.setPhase (hsafe.afterProbe hphase haddress hundisturbed)
  | bind hphase hport hfree => exact hsafe.bind hphase hport hfree _
  | inUse hphase hport hheld =>
      next process _ _ _ =>
        have hfits := hsafe.fits process
        rw [hphase] at hfits
        apply hsafe.setPhase
        refine ⟨hfits.walked, ?_, hfits.scanned⟩
        rintro index _ _ port heq hindex
        cases heq
        rw [hport] at hindex
        cases hindex
        exact hheld
  | bindFails _ => exact hsafe.setPhase (fits_of_quiet rfl rfl)
  | publish _ => exact (hsafe.setPhase (fits_of_quiet rfl rfl)).setDiscovery _
  | publishFails _ =>
      exact (hsafe.drop hundisturbed rfl).setPhase (fits_of_quiet rfl rfl)
  | refresh _ _ _ _ => exact hsafe.setPhase (fits_of_quiet rfl rfl)
  | expire _ => exact hsafe.setPhase (fits_of_quiet rfl rfl)
  | rotate _ hhost => exact hsafe.hostStays hhost
  | refuse _ hhost =>
      exact (hsafe.setPhase (fits_of_quiet rfl rfl)).hostStays hhost
  | close _ =>
      exact (hsafe.drop hundisturbed rfl).setPhase (fits_of_quiet rfl rfl)
  | retract _ => exact (hsafe.setPhase (fits_of_quiet rfl rfl)).setDiscovery _
  | crash =>
      exact (hsafe.drop hundisturbed rfl).setPhase (fits_of_quiet rfl rfl)
  | foreignBinds hfree => exact hsafe.foreignBinds hfree
  | foreignLeaves _ => exact hsafe.leaves hundisturbed rfl
  | rewrite => exact hsafe.setDiscovery _

theorem safe_of_initial (hinitial : Initial state) : Safe identity.ports state := by
  refine ⟨?_, ?_, ?_⟩
  · intro port host hhost
    exact absurd hhost (hinitial.unled port host)
  · intro process
    rw [hinitial.idle process]
    exact fits_of_quiet rfl rfl
  · intro left _ host _ hleft
    exact absurd hleft (hinitial.unled left host)

end Steps

/-- Along every run of undisturbed steps, of any number of processes, at most
one leader is bound. -/
theorem atMostOneLeader_of_undisturbed (identity : ContextIdentity)
    {state : State}
    (hreach : Reachable Initial (Step identity) (Undisturbed identity.ports)
      state) : AtMostOneLeader state :=
  (hreach.invariant (fun _ => safe_of_initial)
    (fun _ _ _ hsafe hundisturbed hstep => hsafe.step hundisturbed hstep)).unique

/-! ## A port that changes hands -/

def checkout : ContextIdentity :=
  { flake := "/checkout", hash := 0, base := 27155, range := 2
    positive := by decide }

/-- A foreign service holds the derived port, and discovery is empty. -/
def squatted : State :=
  { listeners := fun port => if port = 27155 then some .foreign else none
    phases := fun _ => .idle
    discovery := none }

theorem initial_squatted : Initial squatted := by
  refine ⟨fun _ => rfl, ?_⟩
  intro port host hhost
  change (if port = 27155 then some Listener.foreign else none) = _ at hhost
  split at hhost <;> cases hhost

/-- Two processes scan the range; one is refused at the derived port and binds
the next one; the foreign service leaves, and the other binds the port it left. -/
theorem splitCheckout_reachable :
    ∃ state, Reachable Initial (Step checkout) anyStep state ∧
      ¬ AtMostOneLeader state := by
  have hstart : Reachable Initial (Step checkout) anyStep squatted :=
    Reachable.initial initial_squatted
  have hstarted := (hstart.step trivial
    (@Step.start checkout _ 1 "one" rfl)).step trivial
      (@Step.start checkout _ 2 "two" rfl)
  have hfirstScanned := (hstarted.step trivial
    (@Step.probe checkout _ 1 27155 1 (.scan 0) "one" .foreign rfl rfl
      (.stranger _))).step trivial
        (@Step.probe checkout _ 1 27156 1 (.scan 1) "one" .dead rfl rfl
          (.nobody _))
  have hbothScanned := (hfirstScanned.step trivial
    (@Step.probe checkout _ 2 27155 1 (.scan 0) "two" .foreign rfl rfl
      (.stranger _))).step trivial
        (@Step.probe checkout _ 2 27156 1 (.scan 1) "two" .dead rfl rfl
          (.nobody _))
  have hrefused := (hbothScanned.step trivial
    (@Step.inUse checkout _ 1 0 27155 "one" rfl rfl
      (Option.some_ne_none Listener.foreign))).step trivial
        (@Step.probe checkout _ 1 27155 1 (.walk 0) "one" .foreign rfl rfl
          (.stranger _))
  have hleading := hrefused.step trivial
    (@Step.bind checkout _ 1 1 27156 "one" rfl rfl rfl)
  have hvacated := hleading.step trivial
    (@Step.foreignLeaves checkout _ 27155 rfl)
  have hsplit := hvacated.step trivial
    (@Step.bind checkout _ 2 0 27155 "two" rfl rfl rfl)
  refine ⟨_, hsplit, ?_⟩
  intro hunique
  have hsame : 27155 = 27156 := hunique 27155 27156 _ _ rfl rfl
  cases hsame

/-- While nobody leads, a step that takes no listener away disturbs nobody. -/
theorem undisturbed_of_unled {ports : List ℕ} {state : State} {action : Action}
    (hunled : ∀ port host, state.listeners port ≠ some (.ours host))
    (hfrees : frees state action = none) : Undisturbed ports state action := by
  constructor
  · intro port host _
    exact hunled port host
  · intro port index heq
    rw [hfrees] at heq
    cases heq
  · intro port index leader held host heq
    rw [hfrees] at heq
    cases heq

/-- A free range, and no discovery. -/
def vacant : State :=
  { listeners := fun _ => none, phases := fun _ => .idle, discovery := none }

/-- A process that finds the range free leads alone. -/
theorem loneLeader_atMostOne :
    ∃ state, AtMostOneLeader state ∧ state.listeners 27155 =
      some (.ours { pid := 1, token := "one", refusing := false }) := by
  have hquiet {state : State} (hlisteners : state.listeners = fun _ => none)
      (port : ℕ) (host : Host) : state.listeners port ≠ some (.ours host) := by
    rw [hlisteners]
    exact (Option.some_ne_none _).symm
  have hstart : Reachable Initial (Step checkout) (Undisturbed checkout.ports)
      vacant :=
    Reachable.initial ⟨fun _ => rfl, hquiet rfl⟩
  have hscanning := hstart.step (undisturbed_of_unled (hquiet rfl) rfl)
    (@Step.start checkout _ 1 "one" rfl)
  have hfirst := hscanning.step (undisturbed_of_unled (hquiet rfl) rfl)
    (@Step.probe checkout _ 1 27155 1 (.scan 0) "one" .dead rfl rfl (.nobody _))
  have hsecond := hfirst.step (undisturbed_of_unled (hquiet rfl) rfl)
    (@Step.probe checkout _ 1 27156 1 (.scan 1) "one" .dead rfl rfl (.nobody _))
  have hbound := hsecond.step (undisturbed_of_unled (hquiet rfl) rfl)
    (@Step.bind checkout _ 1 0 27155 "one" rfl rfl rfl)
  exact ⟨_, atMostOneLeader_of_undisturbed checkout hbound, rfl⟩

end Mandala.Context
