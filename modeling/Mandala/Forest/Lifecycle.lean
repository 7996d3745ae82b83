import Mandala.Core.Transition
import Mandala.Forest.Life

/-!
# The lifecycle of a node

A node that is worked on has started and not finished, and one that was built
or failed has finished.  Nothing clears a finish, though, and nothing keeps the
activities of one derivation apart: the lifecycle lasts while no finished node
is started again and no build is disturbed by another activity of its node.
-/

namespace Mandala.Forest

open Mandala.Data Mandala.Transition

/-! ## A forest that is watched -/

/-- A forest, the time of its last event, and which of the activities under way
an error has named the derivation of since they started. -/
structure Watched where
  read : ReadForest
  clock : ℕ
  failedSince : ℕ → Bool

def ForestEvent.time : ForestEvent → Option ℕ
  | .line now _ => some now
  | .record now _ => some now
  | _ => none

namespace Watched

def start (durations : BTreeMap ℕ) : Watched :=
  { read := .new durations, clock := 0, failedSince := fun _ => false }

/-- Whether an error record names the derivation of an activity under way. -/
def namedByError (watched : Watched) (record : NixMessage) (id : ℕ) : Bool :=
  record.action = "msg" && (watched.read.forest.errandOf id).any fun errand =>
    errand.2.any fun path =>
      BuildForest.messageTouch record path = some .fail

def failedAfter (fromStr : List Char → Option NixMessage) (watched : Watched)
    (event : ForestEvent) (id : ℕ) : Bool :=
  match ReadForest.recordOf fromStr event with
  | none => watched.failedSince id
  | some (_, record) =>
      if record.action = "start" ∧ record.id = some id then false
      else watched.failedSince id || watched.namedByError record id

def feed (fromStr : List Char → Option NixMessage) (watched : Watched)
    (event : ForestEvent) : Watched :=
  { read := watched.read.feed fromStr event
    clock := event.time.getD watched.clock
    failedSince := watched.failedAfter fromStr event }

/-- A build under way whose derivation no error has named since it started. -/
def Building (watched : Watched) (id : ℕ) (path : String) : Prop :=
  watched.read.forest.errandOf id = some (.build, some path) ∧
    watched.failedSince id = false

/-- What the status and the times of nodes have to do with each other. -/
structure Lifecycle (watched : Watched) : Prop where
  finished : ∀ (path : String) node,
    watched.read.forest.nodes[path]? = some node →
      (node.finishedMs ≠ none ↔ node.status = .built ∨ node.status = .failed)
  ordered : ∀ (path : String) node started finished,
    watched.read.forest.nodes[path]? = some node →
      node.startedMs = some started → node.finishedMs = some finished →
        started ≤ finished
  building : ∀ (id : ℕ) activity path,
    watched.read.forest.activities[id]? = some activity →
      activity.kind = .build → activity.path = some path →
        watched.failedSince id = false →
          ∃ node, watched.read.forest.nodes[path]? = some node ∧
            node.status = .building

/-- A record that starts work on a derivation. -/
structure StartsFor (watched : Watched) (record : NixMessage)
    (path : String) : Prop where
  action : record.action = "start"
  touch : ∃ status ∈ working, watched.read.forest.startTouch
    (BuildForest.activityOf record) path = some (.start status)

/-- Failed nodes stay so, until work on them starts. -/
def FailuresStick (fromStr : List Char → Option NixMessage)
    (watched : Watched) : Prop :=
  ∀ event (path : String) node, watched.read.forest.nodes[path]? = some node →
    node.status = .failed →
      (∃ after, (watched.feed fromStr event).read.forest.nodes[path]? =
          some after ∧ after.status = .failed) ∨
        ∃ now record, ReadForest.recordOf fromStr event = some (now, record) ∧
          watched.StartsFor record path

end Watched

section Stream
variable (fromStr : List Char → Option NixMessage)

/-- One event; time does not go backwards. -/
def Watches (before : Watched) (event : ForestEvent) (after : Watched) : Prop :=
  (∀ now ∈ event.time, before.clock ≤ now) ∧ after = before.feed fromStr event

/-- A record that keeps the activities of a derivation apart. -/
structure RecordOrderly (watched : Watched) (record : NixMessage) : Prop where
  /-- No finished node is started again. -/
  unfinished : ∀ path status,
    watched.read.forest.touch record path = some (.start status) →
      (watched.read.forest.life path).finishedMs = none
  /-- What a build builds is a derivation. -/
  derivation : record.action = "start" →
    (BuildForest.activityOf record).kind = .build → ∀ path,
      (BuildForest.activityOf record).path = some path →
        ".drv".toList.isSuffixOf path.toList = true
  /-- No other activity stops on, or transfers to, the node of a build under
  way. -/
  undisturbed : ∀ id path, watched.Building id path → record.id ≠ some id →
    watched.read.forest.touch record path ≠ some .stop ∧
      ∀ status, watched.read.forest.touch record path = some (.start status) →
        status = .building

def Orderly (watched : Watched) (event : ForestEvent) : Prop :=
  ∀ now record, ReadForest.recordOf fromStr event = some (now, record) →
    RecordOrderly watched record

end Stream

/-! ## Lives in order -/

/-- The lifecycle, as lives tell it. -/
structure LivesInOrder (watched : Watched) : Prop where
  finished : ∀ path, (watched.read.forest.life path).finishedMs ≠ none ↔
    (watched.read.forest.life path).status = .built ∨
      (watched.read.forest.life path).status = .failed
  started : ∀ path started,
    (watched.read.forest.life path).startedMs = some started →
      started ≤ watched.clock
  ordered : ∀ path started finished,
    (watched.read.forest.life path).startedMs = some started →
      (watched.read.forest.life path).finishedMs = some finished →
        started ≤ finished
  building : ∀ id path, watched.Building id path →
    (watched.read.forest.life path).status = .building

namespace BuildForest

theorem life_of_node {forest : BuildForest} {path : String} {node : NodeState}
    (hnode : forest.nodes[path]? = some node) : forest.life path = node.life := by
  rw [life, Std.TreeMap.getD_eq_getD_getElem?, hnode, Option.getD_some]

/-- A life that has begun is that of a node. -/
theorem exists_node_of_life {forest : BuildForest} {path : String}
    (hlife : (forest.life path).status ≠ .unknown) :
    ∃ node, forest.nodes[path]? = some node ∧ node.life = forest.life path := by
  cases hnode : forest.nodes[path]? with
  | none =>
      rw [life, Std.TreeMap.getD_eq_getD_getElem?, hnode] at hlife
      exact absurd rfl hlife
  | some node => exact ⟨node, rfl, (life_of_node hnode).symm⟩

theorem errandOf_of_activity {forest : BuildForest} {id : ℕ}
    {activity : ActiveActivity} {path : String}
    (hactivity : forest.activities[id]? = some activity)
    (hkind : activity.kind = .build) (hpath : activity.path = some path) :
    forest.errandOf id = some (.build, some path) := by
  rw [errandOf, hactivity, Option.map_some, errand, hkind, hpath]

end BuildForest

theorem LivesInOrder.lifecycle {watched : Watched}
    (horder : LivesInOrder watched) : watched.Lifecycle where
  finished path node hnode := by
    have hlife := horder.finished path
    rw [BuildForest.life_of_node hnode] at hlife
    exact hlife
  ordered path node started finished hnode hstarted hfinished := by
    have hlife := horder.ordered path started finished
    rw [BuildForest.life_of_node hnode] at hlife
    exact hlife hstarted hfinished
  building id activity path hactivity hkind hpath hfailed := by
    have hstatus := horder.building id path
      ⟨BuildForest.errandOf_of_activity hactivity hkind hpath, hfailed⟩
    have hbegun : (watched.read.forest.life path).status ≠ .unknown := by
      rw [hstatus]
      decide
    obtain ⟨node, hnode, hlife⟩ := BuildForest.exists_node_of_life hbegun
    refine ⟨node, hnode, ?_⟩
    rw [← hlife] at hstatus
    exact hstatus

/-! ## One touch -/

section Touches
variable {life : Life} {now clock : ℕ}

/-- The order of one life, at a time. -/
structure LifeInOrder (clock : ℕ) (life : Life) : Prop where
  finished : life.finishedMs ≠ none ↔
    life.status = .built ∨ life.status = .failed
  started : ∀ started, life.startedMs = some started → started ≤ clock
  ordered : ∀ started finished, life.startedMs = some started →
    life.finishedMs = some finished → started ≤ finished

theorem LifeInOrder.later (horder : LifeInOrder clock life)
    (hclock : clock ≤ now) : LifeInOrder now life :=
  { horder with
    started := fun started hstarted =>
      Nat.le_trans (horder.started started hstarted) hclock }

theorem not_finished_of_working {status : DerivationStatus}
    (hworking : status ∈ working) : ¬ (status = .built ∨ status = .failed) := by
  rintro (rfl | rfl) <;> revert hworking <;> decide

/-- A life that finishes now finishes after its start. -/
theorem LifeInOrder.finish (horder : LifeInOrder clock life)
    (hclock : clock ≤ now) {status : DerivationStatus}
    (hstatus : status = .built ∨ status = .failed) :
    LifeInOrder now { life with status, finishedMs := some now } where
  finished := iff_of_true (Option.some_ne_none now) hstatus
  started started hstarted := Nat.le_trans (horder.started started hstarted) hclock
  ordered started finished hstarted hfinished := by
    cases hfinished
    exact Nat.le_trans (horder.started started hstarted) hclock

/-- Each touch keeps a life in order, if a start finds it unfinished. -/
theorem LifeInOrder.apply (horder : LifeInOrder clock life)
    (hclock : clock ≤ now) {touch : Touch}
    (hstart : ∀ status, touch = .start status →
      status ∈ working ∧ life.finishedMs = none) :
    LifeInOrder now (touch.apply now life) := by
  cases touch with
  | start status =>
      obtain ⟨hworking, hunfinished⟩ := hstart status rfl
      refine ⟨?_, ?_, ?_⟩
      · exact iff_of_false (fun hsome => hsome hunfinished)
          (not_finished_of_working hworking)
      · intro started hstarted
        change (life.startedMs <|> some now) = some started at hstarted
        cases hlife : life.startedMs with
        | none =>
            rw [hlife] at hstarted
            cases hstarted
            exact Nat.le_refl now
        | some first =>
            rw [hlife] at hstarted
            cases hstarted
            exact Nat.le_trans (horder.started _ hlife) hclock
      · intro started finished _ hfinished
        change life.finishedMs = some finished at hfinished
        rw [hunfinished] at hfinished
        cases hfinished
  | stop =>
      rw [Touch.apply]
      split
      · exact horder.later hclock
      · exact horder.finish hclock (.inl rfl)
  | fail => exact horder.finish hclock (.inr rfl)
  | plan =>
      rw [Touch.apply]
      split
      · next hunknown =>
          have hunfinished : life.finishedMs = none := by
            by_contra hsome
            rcases horder.finished.mp hsome with hbuilt | hfailed
            · rw [hunknown] at hbuilt
              cases hbuilt
            · rw [hunknown] at hfailed
              cases hfailed
          refine ⟨?_, (horder.later hclock).started, ?_⟩
          · refine iff_of_false (fun hsome => hsome hunfinished) ?_
            rintro (hbuilt | hfailed)
            · cases hbuilt
            · cases hfailed
          · exact horder.ordered
      · exact horder.later hclock

end Touches

theorem LivesInOrder.life {watched : Watched} (horder : LivesInOrder watched)
    (path : String) :
    LifeInOrder watched.clock (watched.read.forest.life path) :=
  ⟨horder.finished path, horder.started path, horder.ordered path⟩

/-! ## One event -/

section Steps
variable {fromStr : List Char → Option NixMessage} {watched : Watched}
  {event : ForestEvent} {now : ℕ} {record : NixMessage}

theorem time_of_recordOf
    (hrecord : ReadForest.recordOf fromStr event = some (now, record)) :
    event.time = some now := by
  cases event with
  | line time text =>
      rw [ReadForest.recordOf] at hrecord
      split at hrecord
      · cases hrecord
        rfl
      · cases hrecord
  | record time own =>
      cases hrecord
      rfl
  | _ => cases hrecord

theorem life_feed_record
    (hrecord : ReadForest.recordOf fromStr event = some (now, record))
    (path : String) :
    (watched.feed fromStr event).read.forest.life path =
      applyTouch now (watched.read.forest.touch record path)
        (watched.read.forest.life path) := by
  rw [Watched.feed, ReadForest.feed_of_recordOf watched.read hrecord]
  exact watched.read.forest.life_feedMessage now record path

theorem errandOf_feed_record
    (hrecord : ReadForest.recordOf fromStr event = some (now, record))
    (id : ℕ) :
    (watched.feed fromStr event).read.forest.errandOf id =
      BuildForest.errandAfter record id (watched.read.forest.errandOf id) := by
  rw [Watched.feed, ReadForest.feed_of_recordOf watched.read hrecord]
  exact watched.read.forest.errandOf_feedMessage now record id

/-- A build under way after a record was started by it or was under way. -/
theorem building_of_feed
    (hrecord : ReadForest.recordOf fromStr event = some (now, record))
    {id : ℕ} {path : String}
    (hbuilding : (watched.feed fromStr event).Building id path) :
    (record.action = "start" ∧
        (BuildForest.activityOf record).kind = .build ∧
        (BuildForest.activityOf record).path = some path ∧
        record.id ≠ none) ∨
      (watched.Building id path ∧
        ¬ (record.action = "start" ∧ record.id = some id) ∧
        ¬ (record.action = "stop" ∧ record.id = some id) ∧
        ¬ (record.action = "msg" ∧
          BuildForest.messageTouch record path = some .fail)) := by
  obtain ⟨herrand, hfailed⟩ := hbuilding
  rw [errandOf_feed_record hrecord, BuildForest.errandAfter] at herrand
  change watched.failedAfter fromStr event id = false at hfailed
  rw [Watched.failedAfter, hrecord] at hfailed
  dsimp only at hfailed
  by_cases hstart : record.action = "start" ∧ record.id = some id
  · rw [if_pos hstart, Option.some.injEq, BuildForest.errand,
      Prod.mk.injEq] at herrand
    exact .inl ⟨hstart.1, herrand.1, herrand.2,
      hstart.2 ▸ Option.some_ne_none id⟩
  · rw [if_neg hstart] at herrand hfailed
    by_cases hstop : record.action = "stop" ∧ record.id = some id
    · rw [if_pos hstop] at herrand
      cases herrand
    · rw [if_neg hstop] at herrand
      rw [Bool.or_eq_false_iff, Watched.namedByError, herrand] at hfailed
      refine .inr ⟨⟨herrand, hfailed.1⟩, hstart, hstop, ?_⟩
      rintro ⟨hmessage, hfail⟩
      have hnamed := hfailed.2
      simp [hmessage, hfail] at hnamed

/-- An orderly record keeps lives in order. -/
theorem LivesInOrder.afterRecord (horder : LivesInOrder watched)
    (hrecord : ReadForest.recordOf fromStr event = some (now, record))
    (hclock : watched.clock ≤ now) (horderly : RecordOrderly watched record) :
    LivesInOrder (watched.feed fromStr event) := by
  have hclockAfter : (watched.feed fromStr event).clock = now := by
    change event.time.getD watched.clock = now
    rw [time_of_recordOf hrecord]
    rfl
  have hlife (path : String) : LifeInOrder now
      ((watched.feed fromStr event).read.forest.life path) := by
    rw [life_feed_record hrecord]
    cases htouch : watched.read.forest.touch record path with
    | none => exact (horder.life path).later hclock
    | some touch =>
        refine (horder.life path).apply hclock fun status hstart => ?_
        subst hstart
        refine ⟨?_, horderly.unfinished path status htouch⟩
        rcases BuildForest.touch_cases htouch with
          ⟨-, -, own, hworking, heq⟩ | ⟨-, heq⟩ | ⟨-, -, heq | heq⟩
        · cases heq
          exact hworking
        · cases heq
        · cases heq
        · cases heq
  refine ⟨fun path => (hlife path).finished, ?_,
    fun path => (hlife path).ordered, ?_⟩
  · rw [hclockAfter]
    exact fun path => (hlife path).started
  · intro id path hbuilding
    rw [life_feed_record hrecord]
    rcases building_of_feed hrecord hbuilding with
      ⟨hstart, hkind, hpath, hid⟩ | ⟨hbefore, hstart, hstop, hfail⟩
    · have hdrv := horderly.derivation hstart hkind path hpath
      obtain ⟨own, hown⟩ := Option.ne_none_iff_exists'.mp hid
      have htouch : watched.read.forest.touch record path =
          some (.start .building) := by
        rw [BuildForest.touch, if_pos hstart, hown, Option.bind_some,
          BuildForest.startTouch.eq_def, hkind]
        exact if_pos ⟨hpath, hdrv⟩
      rw [htouch]
      rfl
    · have hstatus := horder.building id path hbefore
      cases htouch : watched.read.forest.touch record path with
      | none => exact hstatus
      | some touch =>
          rcases BuildForest.touch_cases htouch with
            ⟨haction, -, status, -, rfl⟩ | ⟨haction, rfl⟩ |
            ⟨haction, hmessage, rfl | rfl⟩
          · have hother : record.id ≠ some id := fun hid => hstart ⟨haction, hid⟩
            exact (horderly.undisturbed id path hbefore hother).2 status htouch
          · have hother : record.id ≠ some id := fun hid => hstop ⟨haction, hid⟩
            exact absurd htouch (horderly.undisturbed id path hbefore hother).1
          · exact absurd ⟨haction, hmessage⟩ hfail
          · rw [applyTouch, Touch.apply, if_neg]
            · exact hstatus
            · rw [hstatus]
              decide

/-- An event without a record keeps lives in order. -/
theorem LivesInOrder.keep (horder : LivesInOrder watched)
    (hrecord : ReadForest.recordOf fromStr event = none)
    (hclock : ∀ now ∈ event.time, watched.clock ≤ now) :
    LivesInOrder (watched.feed fromStr event) := by
  obtain ⟨hlife, hactivities⟩ := watched.read.keepsLives_feed hrecord
  have hlater : watched.clock ≤ (watched.feed fromStr event).clock := by
    change watched.clock ≤ event.time.getD watched.clock
    cases htime : event.time with
    | none => exact Nat.le_refl _
    | some now => exact hclock now htime
  change ∀ path, (watched.feed fromStr event).read.forest.life path = _ at hlife
  refine ⟨?_, ?_, ?_, ?_⟩
  · intro path
    rw [hlife]
    exact horder.finished path
  · intro path started hstarted
    rw [hlife] at hstarted
    exact Nat.le_trans (horder.started path started hstarted) hlater
  · intro path
    rw [hlife]
    exact horder.ordered path
  · rintro id path ⟨herrand, hfailed⟩
    rw [hlife]
    apply horder.building id path
    constructor
    · rw [BuildForest.errandOf] at herrand ⊢
      rwa [← hactivities]
    · change watched.failedAfter fromStr event id = false at hfailed
      rwa [Watched.failedAfter, hrecord] at hfailed

/-- Only a start takes a failure back. -/
theorem failuresStick (fromStr : List Char → Option NixMessage)
    (watched : Watched) : watched.FailuresStick fromStr := by
  intro event path node hnode hfailed
  have hbefore : (watched.read.forest.life path).status = .failed := by
    rw [BuildForest.life_of_node hnode]
    exact hfailed
  have hstays (hlife : ((watched.feed fromStr event).read.forest.life
      path).status = .failed) :
      ∃ after, (watched.feed fromStr event).read.forest.nodes[path]? =
        some after ∧ after.status = .failed := by
    have hbegun : ((watched.feed fromStr event).read.forest.life path).status ≠
        .unknown := by
      rw [hlife]
      decide
    obtain ⟨after, hafter, hsame⟩ := BuildForest.exists_node_of_life hbegun
    refine ⟨after, hafter, ?_⟩
    rw [← hsame] at hlife
    exact hlife
  cases hrecord : ReadForest.recordOf fromStr event with
  | none =>
      refine .inl (hstays ?_)
      have hlife := (watched.read.keepsLives_feed hrecord).life path
      exact (congrArg Life.status hlife).trans hbefore
  | some entry =>
      obtain ⟨now, record⟩ := entry
      have hlife : (watched.feed fromStr event).read.forest.life path = _ :=
        life_feed_record hrecord path
      cases htouch : watched.read.forest.touch record path with
      | none =>
          rw [htouch] at hlife
          exact .inl (hstays ((congrArg Life.status hlife).trans hbefore))
      | some touch =>
          rw [htouch] at hlife
          rcases BuildForest.touch_cases htouch with
            ⟨haction, hstart, status, hworking, rfl⟩ | ⟨-, rfl⟩ | ⟨-, -, rfl | rfl⟩
          · exact .inr ⟨now, record, rfl, haction, status, hworking, hstart⟩
          · rw [applyTouch, Touch.apply, if_pos hbefore] at hlife
            exact .inl (hstays ((congrArg Life.status hlife).trans hbefore))
          · exact .inl (hstays (congrArg Life.status hlife))
          · rw [applyTouch, Touch.apply, if_neg (by rw [hbefore]; decide)] at hlife
            exact .inl (hstays ((congrArg Life.status hlife).trans hbefore))

end Steps

/-! ## Whole runs -/

theorem life_start (durations : BTreeMap ℕ) (path : String) :
    (Watched.start durations).read.forest.life path = .blank := by
  change (NodeState.life ((∅ : BTreeMap NodeState).getD path .default)) = _
  rw [Std.TreeMap.getD_emptyc]
  rfl

/-- Nothing is built at first. -/
theorem not_building_start (durations : BTreeMap ℕ) (id : ℕ) (path : String) :
    ¬ (Watched.start durations).Building id path := by
  rintro ⟨herrand, -⟩
  change ((∅ : Std.TreeMap ℕ ActiveActivity compare)[id]?).map _ = _ at herrand
  rw [Std.TreeMap.getElem?_emptyc] at herrand
  cases herrand

theorem livesInOrder_start (durations : BTreeMap ℕ) :
    LivesInOrder (Watched.start durations) := by
  have hlife := life_start durations
  refine ⟨?_, ?_, ?_, ?_⟩
  · intro path
    rw [hlife]
    decide
  · intro path started hstarted
    rw [hlife] at hstarted
    cases hstarted
  · intro path started finished hstarted
    rw [hlife] at hstarted
    cases hstarted
  · intro id path hbuilding
    exact absurd hbuilding (not_building_start durations id path)

/-- **The lifecycle of nodes.** As long as no finished node is started again
and no build under way is disturbed, the status and the times of every node
agree in every state a stream and its reads reach. -/
theorem forest_lifecycle (fromStr : List Char → Option NixMessage)
    (durations : BTreeMap ℕ) (watched : Watched)
    (hreach : Reachable (· = Watched.start durations) (Watches fromStr)
      (Orderly fromStr) watched) :
    watched.Lifecycle ∧ watched.FailuresStick fromStr := by
  refine ⟨LivesInOrder.lifecycle ?_, failuresStick fromStr watched⟩
  refine hreach.invariant ?_ ?_
  · rintro state rfl
    exact livesInOrder_start durations
  · rintro before event after horder horderly ⟨hclock, rfl⟩
    cases hrecord : ReadForest.recordOf fromStr event with
    | none => exact horder.keep hrecord hclock
    | some entry =>
        obtain ⟨now, record⟩ := entry
        exact horder.afterRecord hrecord (hclock now (time_of_recordOf hrecord))
          (horderly now record hrecord)

/-! ### A derivation built twice -/

def buildRecord (action : String) (id : ℕ) : NixMessage :=
  { action, id := some id, level := none, typeCode := some 105, text := none
    msg := none, rawMsg := none, fields := [.string "web.drv"] }

/-- The first build of a derivation disturbs nothing. -/
theorem orderly_buildRecord :
    Orderly unparsed (Watched.start ∅) (.record 0 (buildRecord "start" 1)) := by
  rintro now record ⟨rfl, rfl⟩
  refine ⟨?_, ?_, ?_⟩
  · intro path status _
    rw [life_start]
    rfl
  · intro _ _ path hpath
    cases hpath
    decide
  · intro id path hbuilding
    exact absurd hbuilding (not_building_start ∅ id path)

theorem forest_lifecycle_build :
    ((Watched.start ∅).feed unparsed
        (.record 0 (buildRecord "start" 1))).Lifecycle ∧
      ((Watched.start ∅).feed unparsed
        (.record 0 (buildRecord "start" 1))).FailuresStick unparsed := by
  have hstart : Reachable (· = Watched.start ∅) (Watches unparsed)
      (Orderly unparsed) (Watched.start ∅) := .initial rfl
  exact forest_lifecycle unparsed ∅ _
    (hstart.step orderly_buildRecord ⟨fun _ _ => Nat.zero_le _, rfl⟩)

/-- A derivation that is built, and then built again. -/
def rebuilds : List ForestEvent :=
  [.record 0 (buildRecord "start" 1), .record 1 (buildRecord "stop" 1),
    .record 2 (buildRecord "start" 2)]

theorem rebuilt_building :
    ((rebuilds.foldl (·.feed unparsed) (Watched.start ∅)).read.forest.nodes[
      "web.drv"]?).map NodeState.life =
        some { status := .building, startedMs := some 0
               finishedMs := some 1 } := by
  decide +kernel

/-- A build that starts again is under way and finished at once. -/
theorem rebuilt_not_lifecycle :
    ¬ ∀ watched, Reachable (· = Watched.start ∅) (Watches unparsed) anyStep
      watched → watched.Lifecycle := by
  intro hlifecycle
  have hreach : Reachable (· = Watched.start ∅) (Watches unparsed) anyStep
      (rebuilds.foldl (·.feed unparsed) (Watched.start ∅)) := by
    have hstart : Reachable (· = Watched.start ∅) (Watches unparsed) anyStep
        (Watched.start ∅) := .initial rfl
    refine ((hstart.step trivial ⟨?_, rfl⟩).step trivial ⟨?_, rfl⟩).step
      trivial ⟨?_, rfl⟩
    · rintro now ⟨rfl⟩
      exact Nat.le_refl 0
    · rintro now ⟨rfl⟩
      exact Nat.zero_le 1
    · rintro now ⟨rfl⟩
      exact Nat.le_succ 1
  obtain ⟨node, hnode, hlife⟩ := Option.map_eq_some_iff.mp rebuilt_building
  have hstatus : node.status = .building := congrArg Life.status hlife
  have hfinished : node.finishedMs = some 1 := congrArg Life.finishedMs hlife
  have hsettled := ((hlifecycle _ hreach).finished "web.drv" node hnode).mp
    (by rw [hfinished]; exact Option.some_ne_none 1)
  rw [hstatus] at hsettled
  rcases hsettled with hbuilt | hfailed
  · cases hbuilt
  · cases hfailed

end Mandala.Forest
