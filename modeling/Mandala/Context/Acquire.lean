import Mathlib.Data.List.Nodup
import Mathlib.Data.Nat.ModEq
import Mathlib.Logic.Function.Basic
import Mandala.Core.Transition

/-!
# Acquiring a fleet context

Any number of processes acquire the context of one checkout.  Each reads the
discovery file, probes the recorded endpoint, scans the port range for a live
leader and then walks the same range to bind a port; the bind is the lock.  A
probe and a bind are separate steps, and so are the ports of a range, so
leaders and foreign services come and go in between.
-/

namespace Mandala.Context

/-! ## Identity -/

/-- A checkout and the port range it walks. -/
structure ContextIdentity where
  flake : String
  hash : ℕ
  base : ℕ
  range : ℕ
  /-- A context has at least one candidate port. -/
  positive : 0 < range

def ContextIdentity.portOffset (identity : ContextIdentity) : ℕ :=
  identity.hash % identity.range

/-- The probe order: the derived port first, then the next ones, wrapping. -/
def ContextIdentity.ports (identity : ContextIdentity) : List ℕ :=
  (List.range identity.range).map fun step =>
    identity.base + (identity.portOffset + step) % identity.range

theorem ContextIdentity.nodup_ports (identity : ContextIdentity) :
    identity.ports.Nodup := by
  refine List.Nodup.map_on ?_ List.nodup_range
  intro left hleft right hright heq
  have hmod : (identity.portOffset + left) % identity.range =
      (identity.portOffset + right) % identity.range := Nat.add_left_cancel heq
  have hcongr : left % identity.range = right % identity.range :=
    Nat.ModEq.add_left_cancel' identity.portOffset hmod
  rwa [Nat.mod_eq_of_lt (List.mem_range.mp hleft),
    Nat.mod_eq_of_lt (List.mem_range.mp hright)] at hcongr

/-! ## Endpoints and probes -/

/-- A listener that `RunningHost::start` serves for the checkout. -/
structure Host where
  pid : ℕ
  token : String
  /-- Shutdown has begun: connections are dropped before the hello. -/
  refusing : Bool
  deriving DecidableEq, Repr

inductive Listener where
  | foreign
  | ours (host : Host)
  deriving DecidableEq, Repr

structure Discovery where
  /-- The address its url parses to. -/
  address : Option ℕ
  token : String
  pid : ℕ
  flake : String
  deriving DecidableEq, Repr

inductive Probe where
  | ourLeader
  | tokenMismatch
  | foreign
  | dead
  | busy
  deriving DecidableEq, Repr

/-- What a probe can make of an address: a refused connection is dead, a
connection closed before the welcome is foreign, and a silent one is busy. -/
inductive Reads : Option Listener → String → Probe → Prop where
  | nobody (token : String) : Reads none token .dead
  | gone (token : String) : Reads none token .foreign
  | stranger (token : String) : Reads (some .foreign) token .foreign
  | strangerReset (token : String) : Reads (some .foreign) token .dead
  | slow (listener : Listener) (token : String) :
      Reads (some listener) token .busy
  | welcome {host : Host} (hserving : host.refusing = false) :
      Reads (some (.ours host)) host.token .ourLeader
  | unauthorized {host : Host} {token : String}
      (hserving : host.refusing = false) (hstale : token ≠ host.token) :
      Reads (some (.ours host)) token .tokenMismatch
  | refused {host : Host} (token : String) (hrefusing : host.refusing = true) :
      Reads (some (.ours host)) token .foreign

/-! ## The phases of an acquisition -/

inductive AcquireError where
  | io (error : String)
  | portsExhausted
  | tokenUnavailable
  | leaderBusy
  deriving DecidableEq, Repr

/-- Where an acquisition probes, and what it goes on to. -/
inductive Place where
  | discovery (address : ℕ)
  | scan (index : ℕ)
  /-- The bind of this port was refused. -/
  | walk (index : ℕ)
  deriving DecidableEq, Repr

inductive Phase where
  | idle
  | probing (place : Place) (attempt : ℕ) (token : String)
  | binding (index : ℕ) (token : String)
  /-- Bound and serving, with discovery still to be written. -/
  | publishing (port : ℕ) (token : String)
  | leading (port : ℕ)
  | draining (port : ℕ)
  /-- The port is closed, the discovery claim still to be released. -/
  | releasing (port : ℕ)
  | refreshing (address : ℕ) (stale : String)
  | follower
  | failed (error : AcquireError)
  | gone
  deriving DecidableEq, Repr

/-- `BUSY_PROBE_ATTEMPTS`. -/
def busyProbeAttempts : ℕ := 3

section Walk

variable (ports : List ℕ)

/-- Bind the next port of the walk, if there is one. -/
def bindFrom (index : ℕ) (token : String) : Phase :=
  if index < ports.length then .binding index token else .failed .portsExhausted

/-- Probe the next port of the scan; a whole range without a leader is walked. -/
def scanFrom (index : ℕ) (token : String) : Phase :=
  if index < ports.length then .probing (.scan index) 1 token
  else bindFrom ports 0 token

/-- What follows a probe that found nobody to join. -/
def goOn (place : Place) (token : String) : Phase :=
  match place with
  | .discovery _ => scanFrom ports 0 token
  | .scan index => scanFrom ports (index + 1) token
  | .walk index => bindFrom ports (index + 1) token

def addressOf (place : Place) : Option ℕ :=
  match place with
  | .discovery address => some address
  | .scan index => ports[index]?
  | .walk index => ports[index]?

/-- What a probe outcome leads to; a busy endpoint is tried again. -/
def afterProbe (place : Place) (address attempt : ℕ) (token : String)
    (outcome : Probe) : Phase :=
  match outcome with
  | .ourLeader => .follower
  | .tokenMismatch => .refreshing address token
  | .busy =>
      if attempt < busyProbeAttempts then .probing place (attempt + 1) token
      else .failed .leaderBusy
  | .foreign => goOn ports place token
  | .dead => goOn ports place token

end Walk

/-! ## The system -/

structure State where
  listeners : ℕ → Option Listener
  phases : ℕ → Phase
  discovery : Option Discovery

namespace State

def setPhase (state : State) (process : ℕ) (phase : Phase) : State :=
  { state with phases := Function.update state.phases process phase }

def setListener (state : State) (port : ℕ) (listener : Option Listener) :
    State :=
  { state with listeners := Function.update state.listeners port listener }

def setDiscovery (state : State) (discovery : Option Discovery) : State :=
  { state with discovery }

end State

/-- The port a process holds bound. -/
def Phase.bound : Phase → Option ℕ
  | publishing port _ => some port
  | leading port => some port
  | draining port => some port
  | _ => none

/-- Drop the listener of a process, when it has one. -/
def State.drop (state : State) (process : ℕ) : State :=
  match (state.phases process).bound with
  | some port => state.setListener port none
  | none => state

/-- The discovery record an acquisition starts from. -/
def existing (identity : ContextIdentity) (state : State) : Option Discovery :=
  state.discovery.filter fun discovery =>
    discovery.flake = identity.flake && discovery.token ≠ ""

/-- The first phase of an acquisition. -/
def begin (identity : ContextIdentity) (state : State) (minted : String) :
    Phase :=
  let recorded := existing identity state
  let token := (recorded.map (·.token)).getD minted
  match recorded.bind (·.address) with
  | some address => .probing (.discovery address) 1 token
  | none => scanFrom identity.ports 0 token

/-- The claim of a process, as `shutdown` compares it. -/
def claims (process port : ℕ) (discovery : Discovery) : Bool :=
  discovery.pid = process && discovery.address = some port

inductive Action where
  | start (process : ℕ) (minted : String)
  | probe (process : ℕ) (outcome : Probe)
  | bind (process : ℕ)
  | bindFails (process : ℕ) (error : String)
  | publish (process : ℕ)
  | publishFails (process : ℕ) (error : String)
  | refresh (process : ℕ)
  | expire (process : ℕ)
  | rotate (process : ℕ) (token : String)
  | refuse (process : ℕ)
  | close (process : ℕ)
  | retract (process : ℕ)
  | crash (process : ℕ)
  | foreignBinds (port : ℕ)
  | foreignLeaves (port : ℕ)
  | rewrite (discovery : Option Discovery)
  deriving DecidableEq, Repr

/-- One step of a process or of its environment. -/
inductive Step (identity : ContextIdentity) : State → Action → State → Prop where
  | start {state : State} {process : ℕ} {minted : String}
      (hidle : state.phases process = .idle) :
      Step identity state (.start process minted)
        (state.setPhase process (begin identity state minted))
  | probe {state : State} {process address attempt : ℕ} {place : Place}
      {token : String} {outcome : Probe}
      (hphase : state.phases process = .probing place attempt token)
      (haddress : addressOf identity.ports place = some address)
      (hreads : Reads (state.listeners address) token outcome) :
      Step identity state (.probe process outcome)
        (state.setPhase process
          (afterProbe identity.ports place address attempt token outcome))
  | bind {state : State} {process index port : ℕ} {token : String}
      (hphase : state.phases process = .binding index token)
      (hport : identity.ports[index]? = some port)
      (hfree : state.listeners port = none) :
      Step identity state (.bind process)
        ((state.setPhase process (.publishing port token)).setListener port
          (some (.ours { pid := process, token, refusing := false })))
  | inUse {state : State} {process index port : ℕ} {token : String}
      (hphase : state.phases process = .binding index token)
      (hport : identity.ports[index]? = some port)
      (hheld : state.listeners port ≠ none) :
      Step identity state (.bind process)
        (state.setPhase process (.probing (.walk index) 1 token))
  | bindFails {state : State} {process index : ℕ} {token error : String}
      (hphase : state.phases process = .binding index token) :
      Step identity state (.bindFails process error)
        (state.setPhase process (.failed (.io error)))
  | publish {state : State} {process port : ℕ} {token : String}
      (hphase : state.phases process = .publishing port token) :
      Step identity state (.publish process)
        ((state.setPhase process (.leading port)).setDiscovery
          (some { address := some port, token, pid := process
                  flake := identity.flake }))
  | publishFails {state : State} {process port : ℕ} {token error : String}
      (hphase : state.phases process = .publishing port token) :
      Step identity state (.publishFails process error)
        ((state.drop process).setPhase process (.failed (.io error)))
  | refresh {state : State} {process address : ℕ} {stale : String}
      {discovery : Discovery}
      (hphase : state.phases process = .refreshing address stale)
      (hdiscovery : existing identity state = some discovery)
      (hfresh : discovery.token ≠ stale)
      (hreads : Reads (state.listeners address) discovery.token .ourLeader) :
      Step identity state (.refresh process) (state.setPhase process .follower)
  | expire {state : State} {process address : ℕ} {stale : String}
      (hphase : state.phases process = .refreshing address stale) :
      Step identity state (.expire process)
        (state.setPhase process (.failed .tokenUnavailable))
  | rotate {state : State} {process port : ℕ} {host : Host} {token : String}
      (hphase : state.phases process = .leading port)
      (hhost : state.listeners port = some (.ours host)) :
      Step identity state (.rotate process token)
        (state.setListener port (some (.ours { host with token })))
  | refuse {state : State} {process port : ℕ} {host : Host}
      (hphase : state.phases process = .leading port)
      (hhost : state.listeners port = some (.ours host)) :
      Step identity state (.refuse process)
        ((state.setPhase process (.draining port)).setListener port
          (some (.ours { host with refusing := true })))
  | close {state : State} {process port : ℕ}
      (hphase : state.phases process = .draining port) :
      Step identity state (.close process)
        ((state.drop process).setPhase process (.releasing port))
  | retract {state : State} {process port : ℕ}
      (hphase : state.phases process = .releasing port) :
      Step identity state (.retract process)
        ((state.setPhase process .gone).setDiscovery
          (state.discovery.filter fun discovery =>
            !claims process port discovery))
  | crash {state : State} {process : ℕ} :
      Step identity state (.crash process)
        ((state.drop process).setPhase process .gone)
  | foreignBinds {state : State} {port : ℕ}
      (hfree : state.listeners port = none) :
      Step identity state (.foreignBinds port)
        (state.setListener port (some .foreign))
  | foreignLeaves {state : State} {port : ℕ}
      (hforeign : state.listeners port = some .foreign) :
      Step identity state (.foreignLeaves port) (state.setListener port none)
  | rewrite {state : State} {discovery : Option Discovery} :
      Step identity state (.rewrite discovery) (state.setDiscovery discovery)

/-- Nobody has started yet; foreign services and an old discovery file may be
there. -/
structure Initial (state : State) : Prop where
  idle : ∀ process, state.phases process = .idle
  unled : ∀ port host, state.listeners port ≠ some (.ours host)

/-- No two ports are bound by a host of the checkout. -/
def AtMostOneLeader (state : State) : Prop :=
  ∀ left right host other, state.listeners left = some (.ours host) →
    state.listeners right = some (.ours other) → left = right

end Mandala.Context
