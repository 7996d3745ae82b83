import Mandala.Forest.Summary

/-!
# The life of a derivation

Of all a node holds, its status and its two times are its life.  A record
touches the life of a node in one of four ways, or not at all, and which one is
decided by the record, the activities under way and the outputs known so far.
-/

namespace Mandala.Forest

open Mandala.Data

structure Life where
  status : DerivationStatus
  startedMs : Option ℕ
  finishedMs : Option ℕ
  deriving DecidableEq, Repr

def Life.blank : Life :=
  { status := .unknown, startedMs := none, finishedMs := none }

def NodeState.life (node : NodeState) : Life :=
  { status := node.status, startedMs := node.startedMs
    finishedMs := node.finishedMs }

/-- The ways a record touches a node. -/
inductive Touch where
  | start (status : DerivationStatus)
  | stop
  | fail
  | plan
  deriving DecidableEq, Repr

def Touch.apply (now : ℕ) (touch : Touch) (life : Life) : Life :=
  match touch with
  | .start status =>
      { life with status, startedMs := life.startedMs <|> some now }
  | .stop =>
      if life.status = .failed then life
      else { life with status := .built, finishedMs := some now }
  | .fail => { life with status := .failed, finishedMs := some now }
  | .plan =>
      if life.status = .unknown then { life with status := .planned } else life

/-- A touch, where there is one. -/
def applyTouch (now : ℕ) (touch : Option Touch) (life : Life) : Life :=
  match touch with
  | none => life
  | some touch => touch.apply now life

namespace BuildForest

/-- A derivation without a node has not been lived yet. -/
def life (forest : BuildForest) (path : String) : Life :=
  (forest.nodes.getD path .default).life

/-- The derivation an activity's output is known to come from. -/
def derivationOf (forest : BuildForest) (activity : ActiveActivity) :
    Option String :=
  activity.path.bind (forest.outputToDrv[·]?)

def startTouch (forest : BuildForest) (activity : ActiveActivity)
    (path : String) : Option Touch :=
  match activity.kind with
  | .build =>
      if activity.path = some path ∧ ".drv".toList.isSuffixOf path.toList then
        some (.start .building)
      else none
  | .copyPath | .fileTransfer =>
      if forest.derivationOf activity = some path then
        some (.start .downloading)
      else none
  | .substitute =>
      if forest.derivationOf activity = some path then
        some (.start .substituting)
      else none
  | _ => none

def stopTouch (forest : BuildForest) (activity : ActiveActivity)
    (path : String) : Option Touch :=
  match activity.kind with
  | .build => if activity.path = some path then some .stop else none
  | .copyPath | .fileTransfer | .substitute =>
      if forest.derivationOf activity = some path then some .stop else none
  | _ => none

/-- What a message does to a derivation it names. -/
def messageTouch (record : NixMessage) (path : String) : Option Touch :=
  match record.messageText with
  | none => none
  | some text =>
      if path ∈ drvPaths text then
        if record.level = some 0 then some .fail else some .plan
      else none

/-- How a record touches a derivation. -/
def touch (forest : BuildForest) (record : NixMessage) (path : String) :
    Option Touch :=
  if record.action = "start" then
    record.id.bind fun _ => forest.startTouch (activityOf record) path
  else if record.action = "stop" then
    (record.id.bind (forest.activities[·]?)).bind (forest.stopTouch · path)
  else if record.action = "result" then none
  else if record.action = "msg" then messageTouch record path
  else none

/-! ## What changes a life -/

variable (forest : BuildForest)

theorem life_updateNode (path other : String) (change : NodeState → NodeState) :
    (forest.updateNode path change).life other =
      if path = other then (change (forest.nodes.getD path .default)).life
      else forest.life other := by
  rw [life, updateNode, Std.TreeMap.getD_insert]
  by_cases heq : path = other
  · subst heq
    rw [if_pos Std.ReflCmp.compare_self, if_pos rfl]
  · rw [if_neg fun hsame => heq (Std.LawfulEqCmp.eq_of_compare hsame),
      if_neg heq]
    rfl

/-- Whatever keeps the life of every node keeps that of this one. -/
theorem life_updateNode_of_keeps (path other : String)
    {change : NodeState → NodeState}
    (hkeeps : ∀ node, (change node).life = node.life) :
    (forest.updateNode path change).life other = forest.life other := by
  rw [life_updateNode]
  split
  · next heq => rw [hkeeps, heq, life]
  · rfl

theorem life_addPending (path other : String) :
    (forest.addPending path).life other = forest.life other := rfl

theorem life_workOn (status : DerivationStatus) (host : Option String)
    (now : ℕ) (node : NodeState) :
    (workOn status host now node).life = (Touch.start status).apply now node.life :=
  rfl

theorem life_settle (now : ℕ) (node : NodeState) :
    (settle now node).life = Touch.stop.apply now node.life := by
  rw [settle, Touch.apply]
  by_cases hfailed : node.status = .failed
  · rw [if_pos hfailed, if_pos (show node.life.status = .failed from hfailed)]
  · rw [if_neg hfailed,
      if_neg (show ¬ node.life.status = .failed from hfailed)]
    rfl

theorem life_plan (node : NodeState) (now : ℕ) :
    (plan node).life = Touch.plan.apply now node.life := by
  rw [plan, Touch.apply]
  by_cases hunknown : node.status = .unknown
  · rw [if_pos hunknown, if_pos (show node.life.status = .unknown from hunknown)]
    rfl
  · rw [if_neg hunknown,
      if_neg (show ¬ node.life.status = .unknown from hunknown)]

/-- A change of one node that is a touch of its life. -/
theorem life_updateNode_touch (path other : String)
    {change : NodeState → NodeState} {now : ℕ} {touch : Touch}
    (hchange : ∀ node, (change node).life = touch.apply now node.life) :
    (forest.updateNode path change).life other =
      applyTouch now (if path = other then some touch else none)
        (forest.life other) := by
  rw [life_updateNode]
  split
  · next heq => rw [hchange, heq, life, applyTouch]
  · rfl

theorem life_markTransferNode (now : ℕ) (activity : ActiveActivity)
    (status : DerivationStatus) (path : String) :
    (forest.markTransferNode now activity.path status activity.host).life path =
      applyTouch now
        (if forest.derivationOf activity = some path then
          some (.start status) else none) (forest.life path) := by
  rw [markTransferNode, derivationOf]
  cases activity.path.bind (forest.outputToDrv[·]?) with
  | none => rfl
  | some owner =>
      rw [life_updateNode_touch forest owner path
        (life_workOn status activity.host now)]
      simp

/-- A build that starts, whatever it says. -/
theorem life_build (now : ℕ) (host said : Option String) (path other : String) :
    (forest.updateNode path fun node =>
      { workOn .building host now node with lastActivity := said }).life other =
        applyTouch now
          (if path = other then some (.start .building) else none)
          (forest.life other) :=
  life_updateNode_touch forest path other fun _ => rfl

theorem life_startNode (now : ℕ) (activity : ActiveActivity) (path : String) :
    (forest.startNode now activity).life path =
      applyTouch now (forest.startTouch activity path) (forest.life path) := by
  rw [startNode.eq_def, startTouch.eq_def]
  cases hkind : activity.kind with
  | build =>
      dsimp only
      cases hpath : activity.path with
      | none => simp [applyTouch]
      | some own =>
          by_cases hdrv : ".drv".toList.isSuffixOf own.toList = true
          · rw [Option.filter_some, if_pos hdrv]
            dsimp only
            rw [life_addPending, life_build]
            by_cases heq : own = path
            · subst heq
              rw [if_pos rfl, if_pos ⟨rfl, hdrv⟩]
            · rw [if_neg heq, if_neg fun hboth =>
                heq (Option.some.inj hboth.1)]
          · have hother : ¬ (some own = some path ∧
                ".drv".toList.isSuffixOf path.toList = true) := by
              rintro ⟨hown, hsuffix⟩
              rw [Option.some.injEq] at hown
              exact hdrv (hown ▸ hsuffix)
            rw [Option.filter_some, if_neg hdrv, if_neg hother]
            rfl
  | copyPath => exact forest.life_markTransferNode now activity .downloading path
  | fileTransfer =>
      exact forest.life_markTransferNode now activity .downloading path
  | substitute =>
      exact forest.life_markTransferNode now activity .substituting path
  | _ => rfl

theorem life_countActivityType (kind : ActivityType) (path : String) :
    (forest.countActivityType kind).life path = forest.life path := by
  rw [countActivityType.eq_def]
  split <;> rfl

theorem startTouch_countActivityType (kind : ActivityType)
    (activity : ActiveActivity) (path : String) :
    (forest.countActivityType kind).startTouch activity path =
      forest.startTouch activity path := by
  rw [countActivityType.eq_def]
  split <;> rfl

theorem life_start (now : ℕ) (record : NixMessage) (path : String) :
    (forest.start now record).life path =
      applyTouch now
        (record.id.bind fun _ => forest.startTouch (activityOf record) path)
        (forest.life path) := by
  rw [start]
  cases record.id with
  | none => rfl
  | some id =>
      change ((forest.countActivityType _).startNode now _).life path = _
      rw [life_startNode, life_countActivityType, startTouch_countActivityType]
      rfl

theorem life_stopNode (now : ℕ) (activity : ActiveActivity) (path : String) :
    (forest.stopNode now activity).life path =
      applyTouch now (forest.stopTouch activity path) (forest.life path) := by
  rw [stopNode.eq_def, stopTouch.eq_def]
  cases hkind : activity.kind with
  | build =>
      dsimp only
      cases activity.path with
      | none => rfl
      | some own =>
          dsimp only
          rw [life_updateNode_touch forest own path (life_settle now)]
          simp
  | copyPath | fileTransfer | substitute =>
      dsimp only
      rw [derivationOf]
      cases activity.path.bind (forest.outputToDrv[·]?) with
      | none => rfl
      | some owner =>
          simp only [Option.some.injEq]
          exact forest.life_updateNode_touch owner path (life_settle now)
  | _ => rfl

theorem life_stop (now : ℕ) (id : Option ℕ) (path : String) :
    (forest.stop now id).life path =
      applyTouch now
        ((id.bind (forest.activities[·]?)).bind (forest.stopTouch · path))
        (forest.life path) := by
  rw [stop.eq_def]
  cases id with
  | none => rfl
  | some id =>
      dsimp only
      rw [Option.bind_some]
      cases forest.activities[id]? with
      | none => rfl
      | some activity =>
          dsimp only
          rw [life_stopNode]
          rfl

theorem life_pushLog (path text other : String) :
    (forest.pushLog path text).life other = forest.life other := by
  have hlogged := forest.life_updateNode_of_keeps path other
    (fun node => show ({ node with
      lastActivity := some text
      logTail := pushBounded node.logTail text derivationLogTailLimit } :
        NodeState).life = node.life from rfl)
  exact hlogged

theorem life_updateActivity (id : ℕ)
    (change : ActiveActivity → ActiveActivity) (path : String) :
    (forest.updateActivity id change).life path = forest.life path := by
  rw [updateActivity]
  split <;> rfl

theorem life_report (id : ℕ) (own : Option String) (kind : Option ResultType)
    (fields : List Json) (path : String) :
    (forest.report id own kind fields).life path = forest.life path := by
  rw [report.eq_def]
  split
  · split
    · exact forest.life_pushLog _ _ path
    · rfl
  · split
    · exact forest.life_pushLog _ _ path
    · rfl
  · split
    · exact forest.life_updateNode_of_keeps _ path fun _ => rfl
    · rfl
  · split
    · exact forest.life_updateNode_of_keeps _ path fun _ => rfl
    · rfl
  · split
    · rfl
    · exact forest.life_updateActivity id _ path
  · split
    · rfl
    · exact forest.life_updateActivity id _ path
  · rfl

theorem life_countResultType (kind : Option ResultType) (path : String) :
    (forest.countResultType kind).life path = forest.life path := by
  rw [countResultType.eq_def]
  split <;> rfl

theorem life_result (record : NixMessage) (path : String) :
    (forest.result record).life path = forest.life path := by
  rw [result]
  split
  · exact forest.life_countResultType _ path
  · split
    · exact forest.life_countResultType _ path
    · rw [life_report]
      exact forest.life_countResultType _ path

/-- A touch that comes twice at once is one touch. -/
theorem Touch.apply_twice (now : ℕ) {touch : Touch}
    (htouch : touch = .fail ∨ touch = .plan) (life : Life) :
    touch.apply now (touch.apply now life) = touch.apply now life := by
  rcases htouch with rfl | rfl
  · rfl
  · rw [Touch.apply, Touch.apply]
    split <;> rfl

/-- A touch of every path a message names. -/
theorem life_foldl_touch {touchNode : BuildForest → String → BuildForest}
    {now : ℕ} {touch : Touch} (htouch : touch = .fail ∨ touch = .plan)
    (hnode : ∀ (forest : BuildForest) (path other : String),
      (touchNode forest path).life other =
        applyTouch now (if path = other then some touch else none)
          (forest.life other)) (paths : List String) (path : String) :
    (paths.foldl touchNode forest).life path =
      applyTouch now (if path ∈ paths then some touch else none)
        (forest.life path) := by
  induction paths generalizing forest with
  | nil => rfl
  | cons first paths ih =>
      rw [List.foldl_cons, ih, hnode]
      by_cases hfirst : first = path
      · subst hfirst
        rw [if_pos rfl, if_pos List.mem_cons_self]
        by_cases hagain : first ∈ paths
        · rw [if_pos hagain]
          exact Touch.apply_twice now htouch _
        · rw [if_neg hagain]
          rfl
      · have hmem : path ∈ first :: paths ↔ path ∈ paths := by
          rw [List.mem_cons]
          exact or_iff_right fun heq => hfirst heq.symm
        rw [if_neg hfirst, ← ite_congr (propext hmem) (fun _ => rfl) fun _ => rfl]
        rfl

theorem life_failPath (now : ℕ) (path other : String) :
    (forest.updateNode path (fail now)).life other =
      applyTouch now (if path = other then some .fail else none)
        (forest.life other) :=
  forest.life_updateNode_touch path other fun _ => rfl

theorem life_planPath (now : ℕ) (path other : String) :
    ((forest.updateNode path plan).addPending path).life other =
      applyTouch now (if path = other then some .plan else none)
        (forest.life other) := by
  rw [life_addPending]
  exact forest.life_updateNode_touch path other fun node => life_plan node now

theorem life_message (now : ℕ) (record : NixMessage) (path : String) :
    (forest.message now record).life path =
      applyTouch now (messageTouch record path) (forest.life path) := by
  rw [message, messageTouch]
  cases record.messageText with
  | none => rfl
  | some text =>
      dsimp only
      by_cases herror : record.level = some 0
      · rw [if_pos herror, if_pos herror,
          life_foldl_touch _ (.inl rfl) fun forest => forest.life_failPath now]
        simp only [Std.TreeSet.mem_toList]
        rfl
      · rw [if_neg herror, if_neg herror,
          life_foldl_touch _ (.inr rfl) fun forest => forest.life_planPath now]
        simp only [Std.TreeSet.mem_toList]

/-- The life of a derivation after a record is touched as the record says. -/
theorem life_feedMessage (now : ℕ) (record : NixMessage) (path : String) :
    (forest.feedMessage now record).life path =
      applyTouch now (forest.touch record path) (forest.life path) := by
  rw [feedMessage, touch]
  dsimp only
  split
  · rw [life_start]
    rfl
  · split
    · rw [life_stop]
      rfl
    · split
      · rw [life_result]
        rfl
      · split
        · rw [life_message]
          rfl
        · rfl

/-! ## The activities under way -/

/-- What of an activity decides how it touches nodes. -/
def errand (activity : ActiveActivity) : ActivityType × Option String :=
  (activity.kind, activity.path)

/-- The errand of an activity under way. -/
def errandOf (forest : BuildForest) (id : ℕ) :
    Option (ActivityType × Option String) :=
  (forest.activities[id]?).map errand

/-- The errands after a record: a start sets its own, a stop ends it. -/
def errandAfter (record : NixMessage) (id : ℕ)
    (before : Option (ActivityType × Option String)) :
    Option (ActivityType × Option String) :=
  if record.action = "start" ∧ record.id = some id then
    some (errand (activityOf record))
  else if record.action = "stop" ∧ record.id = some id then none
  else before

/-- What decides the touches of a record. -/
def frame (forest : BuildForest) :
    Std.TreeMap ℕ ActiveActivity compare × BTreeMap String :=
  (forest.activities, forest.outputToDrv)

theorem frame_markTransferNode (now : ℕ) (output : Option String)
    (status : DerivationStatus) (host : Option String) :
    (forest.markTransferNode now output status host).frame = forest.frame := by
  rw [markTransferNode]
  split <;> rfl

theorem frame_startNode (now : ℕ) (activity : ActiveActivity) :
    (forest.startNode now activity).frame = forest.frame := by
  rw [startNode.eq_def]
  split
  · split <;> rfl
  · exact forest.frame_markTransferNode now _ _ _
  · exact forest.frame_markTransferNode now _ _ _
  · exact forest.frame_markTransferNode now _ _ _
  · rfl

theorem frame_countActivityType (kind : ActivityType) :
    (forest.countActivityType kind).frame = forest.frame := by
  rw [countActivityType.eq_def]
  split <;> rfl

theorem frame_countResultType (kind : Option ResultType) :
    (forest.countResultType kind).frame = forest.frame := by
  rw [countResultType.eq_def]
  split <;> rfl

theorem frame_stopNode (now : ℕ) (activity : ActiveActivity) :
    (forest.stopNode now activity).frame = forest.frame := by
  rw [stopNode.eq_def]
  cases activity.kind with
  | build => cases activity.path <;> rfl
  | copyPath | fileTransfer | substitute =>
      cases activity.path.bind (forest.outputToDrv[·]?) <;> rfl
  | _ => rfl

theorem errandOf_of_frame {left right : BuildForest}
    (hframe : left.frame = right.frame) (id : ℕ) :
    left.errandOf id = right.errandOf id := by
  rw [errandOf, errandOf, (Prod.mk.inj hframe).1]

/-- A change of an activity that is not one of its errand. -/
theorem errandOf_updateActivity (id other : ℕ)
    {change : ActiveActivity → ActiveActivity}
    (hkeeps : ∀ activity, errand (change activity) = errand activity) :
    (forest.updateActivity id change).errandOf other = forest.errandOf other := by
  rw [updateActivity]
  cases hfound : forest.activities[id]? with
  | none => rfl
  | some activity =>
      rw [errandOf, errandOf, Std.TreeMap.getElem?_insert]
      by_cases heq : id = other
      · subst heq
        rw [if_pos Std.ReflCmp.compare_self, hfound, Option.map_some,
          Option.map_some, hkeeps]
      · rw [if_neg fun hsame => heq (Std.LawfulEqCmp.eq_of_compare hsame)]

theorem errandOf_report (id : ℕ) (own : Option String)
    (kind : Option ResultType) (fields : List Json) (other : ℕ) :
    (forest.report id own kind fields).errandOf other = forest.errandOf other := by
  rw [report.eq_def]
  split
  · split <;> rfl
  · split <;> rfl
  · split <;> rfl
  · split <;> rfl
  · split
    · rfl
    · exact forest.errandOf_updateActivity id other fun _ => rfl
  · split
    · rfl
    · exact forest.errandOf_updateActivity id other fun _ => rfl
  · rfl

theorem errandOf_result (record : NixMessage) (id : ℕ) :
    (forest.result record).errandOf id = forest.errandOf id := by
  have hcounted : (forest.countResultType record.resultType).errandOf id =
      forest.errandOf id :=
    errandOf_of_frame (forest.frame_countResultType _) id
  rw [result]
  split
  · exact hcounted
  · split
    · exact hcounted
    · rw [errandOf_report]
      exact hcounted

theorem frame_foldl {touchNode : BuildForest → String → BuildForest}
    (hnode : ∀ forest path, (touchNode forest path).frame = forest.frame)
    (paths : List String) :
    (paths.foldl touchNode forest).frame = forest.frame := by
  induction paths generalizing forest with
  | nil => rfl
  | cons path paths ih => rw [List.foldl_cons, ih, hnode]

theorem frame_message (now : ℕ) (record : NixMessage) :
    (forest.message now record).frame = forest.frame := by
  rw [message]
  split
  · rfl
  · dsimp only
    split
    · apply frame_foldl
      exact fun _ _ => rfl
    · apply frame_foldl
      exact fun _ _ => rfl

theorem errandOf_start (now : ℕ) (record : NixMessage) (id : ℕ) :
    (forest.start now record).errandOf id =
      if record.id = some id then some (errand (activityOf record))
      else forest.errandOf id := by
  rw [start]
  cases record.id with
  | none => rfl
  | some own =>
      have hkept : ((forest.countActivityType (activityOf record).kind).startNode
          now (activityOf record)).activities = forest.activities := by
        have hframe := (frame_startNode
          (forest.countActivityType (activityOf record).kind) now
            (activityOf record)).trans (forest.frame_countActivityType _)
        exact (Prod.mk.inj hframe).1
      dsimp only
      rw [errandOf, hkept, Std.TreeMap.getElem?_insert]
      by_cases heq : own = id
      · subst heq
        rw [if_pos Std.ReflCmp.compare_self, if_pos rfl]
        rfl
      · rw [if_neg fun hsame => heq (Std.LawfulEqCmp.eq_of_compare hsame),
          if_neg fun hsame => heq (Option.some.inj hsame)]
        rfl

theorem errandOf_stop (now : ℕ) (stopped : Option ℕ) (id : ℕ) :
    (forest.stop now stopped).errandOf id =
      if stopped = some id then none else forest.errandOf id := by
  rw [stop.eq_def]
  cases stopped with
  | none => rfl
  | some own =>
      dsimp only
      cases hfound : forest.activities[own]? with
      | none =>
          by_cases heq : own = id
          · subst heq
            rw [if_pos rfl]
            dsimp only
            rw [errandOf, hfound]
            rfl
          · rw [if_neg fun hsame => heq (Option.some.inj hsame)]
      | some activity =>
          dsimp only
          rw [errandOf_of_frame (frame_stopNode _ now activity), errandOf,
            Std.TreeMap.getElem?_erase]
          by_cases heq : own = id
          · subst heq
            rw [if_pos Std.ReflCmp.compare_self, if_pos rfl]
            rfl
          · rw [if_neg fun hsame => heq (Std.LawfulEqCmp.eq_of_compare hsame),
              if_neg fun hsame => heq (Option.some.inj hsame)]
            rfl

/-- The errands under way after a record. -/
theorem errandOf_feedMessage (now : ℕ) (record : NixMessage) (id : ℕ) :
    (forest.feedMessage now record).errandOf id =
      errandAfter record id (forest.errandOf id) := by
  rw [feedMessage, errandAfter]
  dsimp only
  by_cases hstart : record.action = "start"
  · rw [if_pos hstart, errandOf_start]
    simp only [hstart, true_and]
    rw [if_neg (fun hboth : _ ∧ _ => absurd hboth.1 (by decide))]
    rfl
  · rw [if_neg hstart]
    by_cases hstop : record.action = "stop"
    · rw [if_pos hstop, errandOf_stop]
      simp only [hstop, true_and]
      rw [if_neg (fun hboth : _ ∧ _ => absurd hboth.1 (by decide))]
      rfl
    · simp only [hstart, hstop, false_and, if_false]
      split
      · rw [errandOf_result]
        rfl
      · split
        · rw [errandOf_of_frame (frame_message _ now record)]
          rfl
        · rfl

/-! ## The outputs known -/

theorem outputToDrv_start (now : ℕ) (record : NixMessage) :
    (forest.start now record).outputToDrv = forest.outputToDrv := by
  rw [start]
  cases record.id with
  | none => rfl
  | some id =>
      have hframe := (frame_startNode
        (forest.countActivityType (activityOf record).kind) now
          (activityOf record)).trans (forest.frame_countActivityType _)
      exact (Prod.mk.inj hframe).2

theorem outputToDrv_stop (now : ℕ) (stopped : Option ℕ) :
    (forest.stop now stopped).outputToDrv = forest.outputToDrv := by
  rw [stop.eq_def]
  cases stopped with
  | none => rfl
  | some id =>
      dsimp only
      cases forest.activities[id]? with
      | none => rfl
      | some activity => exact (Prod.mk.inj (frame_stopNode _ now activity)).2

theorem outputToDrv_result (record : NixMessage) :
    (forest.result record).outputToDrv = forest.outputToDrv := by
  have hcounted : (forest.countResultType record.resultType).outputToDrv =
      forest.outputToDrv :=
    (Prod.mk.inj (forest.frame_countResultType _)).2
  rw [result]
  split
  · exact hcounted
  · split
    · exact hcounted
    · rw [report.eq_def]
      split <;> first | exact hcounted | skip
      all_goals split <;> first | exact hcounted | skip
      all_goals
        rw [updateActivity]
        split <;> exact hcounted

/-- Records name no new outputs. -/
theorem outputToDrv_feedMessage (now : ℕ) (record : NixMessage) :
    (forest.feedMessage now record).outputToDrv = forest.outputToDrv := by
  rw [feedMessage]
  dsimp only
  split
  · exact outputToDrv_start _ now record
  · split
    · exact outputToDrv_stop _ now record.id
    · split
      · exact outputToDrv_result _ record
      · split
        · exact (Prod.mk.inj (frame_message _ now record)).2
        · rfl

end BuildForest

namespace ReadForest

open BuildForest

variable (read : ReadForest)

/-! ## Reads -/

/-- What a read leaves as it is: every life, and the activities under way. -/
structure KeepsLives (before after : ReadForest) : Prop where
  life : ∀ path, after.forest.life path = before.forest.life path
  activities : after.forest.activities = before.forest.activities

theorem KeepsLives.trans {before between after : ReadForest}
    (hfirst : KeepsLives before between) (hsecond : KeepsLives between after) :
    KeepsLives before after :=
  ⟨fun path => (hsecond.life path).trans (hfirst.life path),
    hsecond.activities.trans hfirst.activities⟩

theorem keepsLives_updateDetail (path : String)
    (change : NodeDetail → NodeDetail) :
    KeepsLives read (read.updateDetail path change) :=
  ⟨fun other => read.forest.life_updateNode_of_keeps path other fun _ => rfl,
    rfl⟩

theorem keepsLives_addOutputs (path : String) (outputs : List String) :
    KeepsLives read (outputs.foldl (addOutput path) read) := by
  induction outputs generalizing read with
  | nil => exact ⟨fun _ => rfl, rfl⟩
  | cons output outputs ih =>
      have hadded : KeepsLives read (read.addOutput path output) :=
        ⟨fun _ => rfl, rfl⟩
      exact hadded.trans (ih _)

theorem keepsLives_addInputs (inputs : List String) :
    KeepsLives read (inputs.foldl addInput read) := by
  induction inputs generalizing read with
  | nil => exact ⟨fun _ => rfl, rfl⟩
  | cons input inputs ih =>
      have hadded : KeepsLives read (read.addInput input) := by
        have hentered (path : String) :
            (read.forest.updateNode input id).life path = read.forest.life path :=
          read.forest.life_updateNode_of_keeps input path fun _ => rfl
        rw [addInput]
        split
        · exact ⟨hentered, rfl⟩
        · exact ⟨hentered, rfl⟩
      exact hadded.trans (ih _)

theorem keepsLives_applyDerivation (path : String) (drv : Derivation) :
    KeepsLives read (read.applyDerivation path drv) := by
  have hfilled : KeepsLives read (read.backfill path drv) :=
    ((read.keepsLives_updateDetail path _).trans
      (keepsLives_addOutputs _ path _)).trans (keepsLives_addInputs _ _)
  exact ⟨hfilled.life, hfilled.activities⟩

theorem keepsLives_applyDerivationError (path note : String) :
    KeepsLives read (read.applyDerivationError path note) := by
  have hnoted := read.keepsLives_updateDetail path fun detail =>
    { detail with note := some note }
  exact ⟨hnoted.life, hnoted.activities⟩

/-- The record an event brings, with its time. -/
def recordOf (fromStr : List Char → Option NixMessage) :
    ForestEvent → Option (ℕ × NixMessage)
  | .line now text =>
      match parseNixLine fromStr text with
      | .record record => some (now, record)
      | _ => none
  | .record now record => some (now, record)
  | _ => none

theorem feed_of_recordOf {fromStr : List Char → Option NixMessage}
    {event : ForestEvent} {now : ℕ} {record : NixMessage}
    (hrecord : recordOf fromStr event = some (now, record)) :
    read.feed fromStr event =
      { read with forest := read.forest.feedMessage now record } := by
  cases event with
  | line time text =>
      rw [recordOf] at hrecord
      split at hrecord
      · next own hparsed =>
          cases hrecord
          rw [feed, feedLine, hparsed]
      · cases hrecord
  | record time own =>
      cases hrecord
      rfl
  | _ => cases hrecord

/-- An event that brings no record keeps every life. -/
theorem keepsLives_feed {fromStr : List Char → Option NixMessage}
    {event : ForestEvent} (hrecord : recordOf fromStr event = none) :
    KeepsLives read (read.feed fromStr event) := by
  cases event with
  | line now text =>
      rw [recordOf] at hrecord
      rw [feed, feedLine]
      cases hparsed : parseNixLine fromStr text with
      | record record =>
          rw [hparsed] at hrecord
          cases hrecord
      | ordinary => exact ⟨fun _ => rfl, rfl⟩
      | malformed => exact ⟨fun _ => rfl, rfl⟩
  | record now record => cases hrecord
  | read path drv => exact read.keepsLives_applyDerivation path drv
  | unread path note => exact read.keepsLives_applyDerivationError path note
  | take => exact ⟨fun _ => rfl, rfl⟩

end ReadForest

/-! ## Where touches come from -/

/-- The statuses of a node that is worked on. -/
def working : List DerivationStatus := [.building, .downloading, .substituting]

namespace BuildForest

variable {forest : BuildForest} {record : NixMessage} {path : String}
  {touch : Touch}

theorem startTouch_cases {activity : ActiveActivity}
    (htouch : forest.startTouch activity path = some touch) :
    ∃ status ∈ working, touch = .start status := by
  rw [startTouch.eq_def] at htouch
  split at htouch
  all_goals
    first
      | cases htouch
      | split at htouch
        · cases htouch
          exact ⟨_, by simp [working], rfl⟩
        · cases htouch

theorem stopTouch_cases {activity : ActiveActivity}
    (htouch : forest.stopTouch activity path = some touch) : touch = .stop := by
  rw [stopTouch.eq_def] at htouch
  split at htouch
  all_goals
    first
      | cases htouch
      | split at htouch
        · cases htouch
          rfl
        · cases htouch

theorem messageTouch_cases (htouch : messageTouch record path = some touch) :
    touch = .fail ∨ touch = .plan := by
  rw [messageTouch] at htouch
  split at htouch
  · cases htouch
  · split at htouch
    · split at htouch
      · cases htouch
        exact .inl rfl
      · cases htouch
        exact .inr rfl
    · cases htouch

/-- A node is touched by a start, a stop or a message. -/
theorem touch_cases (htouch : forest.touch record path = some touch) :
    (record.action = "start" ∧
        forest.startTouch (activityOf record) path = some touch ∧
        ∃ status ∈ working, touch = .start status) ∨
      (record.action = "stop" ∧ touch = .stop) ∨
      (record.action = "msg" ∧ messageTouch record path = some touch ∧
        (touch = .fail ∨ touch = .plan)) := by
  rw [BuildForest.touch] at htouch
  split at htouch
  · next haction =>
      obtain ⟨_, -, hstart⟩ := Option.bind_eq_some_iff.mp htouch
      exact .inl ⟨haction, hstart, startTouch_cases hstart⟩
  · split at htouch
    · next haction =>
        obtain ⟨_, -, hstop⟩ := Option.bind_eq_some_iff.mp htouch
        exact .inr (.inl ⟨haction, stopTouch_cases hstop⟩)
    · split at htouch
      · cases htouch
      · split at htouch
        · next haction =>
            exact .inr (.inr ⟨haction, htouch, messageTouch_cases htouch⟩)
        · cases htouch

end BuildForest

end Mandala.Forest
