import Mandala.Data.Json
import Mathlib.Tactic.Common
import Mathlib.Data.Nat.Notation

/-!
# Event records and the state machines they drive

A run directory holds one JSONL stream per host plus the controller's build
stream.  Each record is gated by its protocol version and then routed by its
fields alone: to the build forest, to the build model, or to the run of the
host it names.
-/

namespace Mandala.Events

open Mandala.Data

/-- `SUPPORTED_EVENT_VERSIONS`. -/
def supportedEventVersions : List Int := [1, 2]

/-- `EVENT_PROTOCOL_VERSION`. -/
def eventProtocolVersion : Int := 2

def versionSupported (version : Option Int) : Bool :=
  match version with
  | some version => version ∈ supportedEventVersions
  | none => false

/-- `MAX_LINES` kept per host and `BUILD_MAX_LINES` kept in the build pane. -/
def maxLines : ℕ := 2000

def buildMaxLines : ℕ := 200

inductive HostState where
  | pending
  | evaluating
  | building
  | copying
  | activating
  | waiting
  | confirmed
  | rebootPending
  | rolledBack
  | failed
  deriving DecidableEq, Repr

def HostState.asStr : HostState → String
  | pending => "pending"
  | evaluating => "evaluating"
  | building => "building"
  | copying => "copying"
  | activating => "activating"
  | waiting => "waiting"
  | confirmed => "confirmed"
  | rebootPending => "reboot-pending"
  | rolledBack => "rolled-back"
  | failed => "failed"

/-- A milestone name outside this map leaves the state untouched. -/
def milestoneState (name : String) : Option HostState :=
  if name = "eval" then some .evaluating
  else if name = "build" then some .building
  else if name = "copy" then some .copying
  else if name = "activate" then some .activating
  else if name = "wait" then some .waiting
  else if name = "confirm" then some .confirmed
  else if name = "reboot-pending" then some .rebootPending
  else if name = "rollback" then some .rolledBack
  else none

/-- The sticky states. -/
def isTerminal : HostState → Bool
  | .confirmed | .rebootPending | .rolledBack | .failed => true
  | _ => false

/-- Append to a bounded queue, dropping the oldest entry when it is full. -/
def pushCapped (queue : List String) (entry : String) (cap : ℕ) :
    List String :=
  (if cap ≤ queue.length then queue.tail else queue) ++ [entry]

theorem length_pushCapped_le {queue : List String} {cap : ℕ}
    (hcap : 0 < cap) (hqueue : queue.length ≤ cap) (entry : String) :
    (pushCapped queue entry cap).length ≤ cap := by
  unfold pushCapped
  split <;> simp <;> omega

/-! ## One host's run -/

structure HostRun where
  name : String
  state : HostState
  lines : List String
  milestones : List String
  rc : Option Int
  deriving DecidableEq, Repr

namespace HostRun

def new (name : String) : HostRun :=
  { name, state := .pending, lines := [], milestones := [], rc := none }

/-- The state after a milestone: terminal states stick, except that a rollback
wins even over a confirmation. -/
def stateAfterMilestone (state : HostState) (name : String) : HostState :=
  match milestoneState name with
  | some next =>
      if !isTerminal state then next
      else if next = .rolledBack then .rolledBack
      else state
  | none => state

/-- The state after `status done`: a non-zero rc flags a failure unless a
terminal state already stuck. -/
def stateAfterDone (state : HostState) (rc : Option Int) : HostState :=
  if rc ≠ some 0 ∧ rc ≠ none ∧ !isTerminal state then .failed else state

def feed (run : HostRun) (event : Json) : HostRun :=
  if event.getStr "event" = some "line" then
    { run with
      lines := pushCapped run.lines ((event.getStr "line").getD "") maxLines }
  else if event.getStr "event" = some "milestone" then
    let name := (event.getStr "milestone").getD ""
    { run with
      milestones := run.milestones ++ [name]
      state := stateAfterMilestone run.state name }
  else if event.getStr "event" = some "status" ∧
      event.getStr "state" = some "done" then
    let rc := event.getI64 "rc"
    { run with rc, state := stateAfterDone run.state rc }
  else run

theorem stateAfterMilestone_terminal {state : HostState}
    (hterminal : isTerminal state) (name : String) :
    stateAfterMilestone state name = state ∨
      stateAfterMilestone state name = .rolledBack := by
  unfold stateAfterMilestone
  cases milestoneState name with
  | none => exact .inl rfl
  | some next =>
      by_cases hnext : next = .rolledBack
      · exact .inr (by simp [hterminal, hnext])
      · exact .inl (by simp [hterminal, hnext])

/-- A terminal state is only ever left for a rollback. -/
theorem feed_terminal {run : HostRun} (hterminal : isTerminal run.state)
    (event : Json) :
    (run.feed event).state = run.state ∨
      (run.feed event).state = .rolledBack := by
  unfold feed
  split
  · exact .inl rfl
  · split
    · exact stateAfterMilestone_terminal hterminal _
    · split
      · exact .inl (by simp [stateAfterDone, hterminal])
      · exact .inl rfl

/-- A host's rollback can never be lost again. -/
theorem feed_rolledBack {run : HostRun} (hstate : run.state = .rolledBack)
    (event : Json) : (run.feed event).state = .rolledBack := by
  have hterminal : isTerminal run.state := by simp [hstate, isTerminal]
  rcases feed_terminal hterminal event with hsame | hrolled
  · rw [hsame, hstate]
  · exact hrolled

end HostRun

/-! ## The build pane -/

structure BuildModel where
  built : Int
  finished : Int
  fetched : Int
  fetchedDone : Int
  errors : Int
  current : String
  lines : List String
  done : Bool
  rc : Option Int
  deriving DecidableEq, Repr

namespace BuildModel

def new : BuildModel :=
  { built := 0, finished := 0, fetched := 0, fetchedDone := 0, errors := 0
    current := "", lines := [], done := false, rc := none }

def feed (model : BuildModel) (event : Json) : BuildModel :=
  if event.getStr "event" = some "progress" then
    { model with
      built := (event.getI64 "built").getD model.built
      finished := (event.getI64 "finished").getD model.finished
      fetched := (event.getI64 "fetched").getD model.fetched
      fetchedDone := (event.getI64 "fetched_done").getD model.fetchedDone
      errors := (event.getI64 "errors").getD model.errors
      current := (event.getStr "current").getD model.current }
  else if event.getStr "event" = some "line" then
    { model with
      lines :=
        pushCapped model.lines ((event.getStr "line").getD "") buildMaxLines }
  else if event.getStr "event" = some "status" ∧
      event.getStr "state" = some "done" then
    { model with done := true, rc := event.getI64 "rc" }
  else model

end BuildModel

/-! ## Routing -/

/-- Where one record goes. -/
inductive Destination where
  | dropped
  | nixlog (line : String)
  | build
  | host (name : String)
  deriving DecidableEq, Repr

/-- The routing decision for a parsed record: unsupported versions are dropped,
`nixlog` goes to the forest whatever its plugin, the build plugin's records go
to the build model, and any other record to the host it names. -/
def destination (event : Json) : Destination :=
  if !versionSupported (event.getI64 "v") then .dropped
  else if event.getStr "event" = some "nixlog" then
    .nixlog ((event.getStr "line").getD "")
  else if event.getStr "plugin" = some "build" then .build
  else match event.getStr "host" with
    | some name => if name = "" then .dropped else .host name
    | none => .dropped

/-- What the streams of a run have told a reader so far.  `nixlog` holds the
raw lines handed to the build forest and to the presentation sink. -/
structure Streams where
  hosts : BTreeMap HostRun
  build : BuildModel
  nixlog : List String

namespace Streams

def new : Streams := { hosts := ∅, build := BuildModel.new, nixlog := [] }

def routeEvent (streams : Streams) (event : Json) : Streams :=
  match destination event with
  | .dropped => streams
  | .nixlog line => { streams with nixlog := streams.nixlog ++ [line] }
  | .build => { streams with build := streams.build.feed event }
  | .host name =>
      { streams with
        hosts := streams.hosts.insert name
          ((streams.hosts[name]?.getD (HostRun.new name)).feed event) }

/-- Feed one host's records, creating its run at the first of them. -/
def feedHost (name : String) (run : Option HostRun) (event : Json) :
    Option HostRun :=
  if destination event = .host name then
    some ((run.getD (HostRun.new name)).feed event)
  else run

def feedBuild (model : BuildModel) (event : Json) : BuildModel :=
  if destination event = .build then model.feed event else model

theorem routeEvent_hosts (streams : Streams) (event : Json) (name : String) :
    (streams.routeEvent event).hosts[name]? =
      feedHost name streams.hosts[name]? event := by
  unfold routeEvent feedHost
  cases hdestination : destination event with
  | dropped => simp
  | nixlog line => simp
  | build => simp
  | host other =>
      by_cases hname : other = name
      · subst hname
        simp
      · simp [Std.TreeMap.getElem?_insert, hname]

theorem routeEvent_build (streams : Streams) (event : Json) :
    (streams.routeEvent event).build = feedBuild streams.build event := by
  unfold routeEvent feedBuild
  cases hdestination : destination event <;> simp

/-- What a stream of records leaves of a host depends on that host's records
only. -/
theorem foldl_routeEvent_hosts (events : List Json) (streams : Streams)
    (name : String) :
    (events.foldl routeEvent streams).hosts[name]? =
      events.foldl (feedHost name) streams.hosts[name]? := by
  induction events generalizing streams with
  | nil => rfl
  | cons event events ih =>
      rw [List.foldl_cons, ih, routeEvent_hosts, List.foldl_cons]

theorem foldl_routeEvent_build (events : List Json) (streams : Streams) :
    (events.foldl routeEvent streams).build =
      events.foldl feedBuild streams.build := by
  induction events generalizing streams with
  | nil => rfl
  | cons event events ih =>
      rw [List.foldl_cons, ih, routeEvent_build, List.foldl_cons]

theorem foldl_feedHost_filter (events : List Json) (name : String)
    (run : Option HostRun) :
    events.foldl (feedHost name) run =
      (events.filter fun event => destination event = .host name).foldl
        (feedHost name) run := by
  induction events generalizing run with
  | nil => rfl
  | cons event events ih =>
      by_cases hevent : destination event = .host name
      · simp [hevent, ih]
      · simp [hevent, ih, feedHost]

theorem foldl_feedBuild_filter (events : List Json) (model : BuildModel) :
    events.foldl feedBuild model =
      (events.filter fun event => destination event = .build).foldl
        feedBuild model := by
  induction events generalizing model with
  | nil => rfl
  | cons event events ih =>
      by_cases hevent : destination event = .build
      · simp [hevent, ih]
      · simp [hevent, ih, feedBuild]

end Streams

/-- `has_unsuccessful_host`. -/
def hasUnsuccessfulHost (streams : Streams) : Bool :=
  streams.hosts.values.any fun run =>
    run.state = .failed || run.state = .rolledBack

end Mandala.Events
