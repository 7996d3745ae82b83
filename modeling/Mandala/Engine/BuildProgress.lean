import Mandala.Core.Transition
import Mandala.Data.Json
import Mathlib.Data.List.Basic
import Mathlib.Data.List.Induction

/-!
# What a build has fetched

The engine counts builds by the ids of their activities, but a stop of anything
else is put down to a copy while one is outstanding.  The counts of builds are
always right; the count of finished copies is right exactly when no other
activity stops while a copy is going on.
-/

namespace Mandala.Engine

open Mandala.Data
open Mandala.Transition

/-! ## The tracker -/

/-- `NIX_JSON_PREFIX`. -/
def nixJsonPrefix : String := "@nix "

def actCopyPath : Int := 100

def actCopyPaths : Int := 103

def actBuild : Int := 105

/-- `BuildTracker`; no stream is so long that its counters wrap. -/
structure BuildTracker where
  built : ℕ
  finished : ℕ
  fetched : ℕ
  fetchedDone : ℕ
  errors : ℕ
  current : String
  running : Std.TreeMap Int String compare
  errorMessages : List String

/-- `derivation_name`. -/
def derivationName (path : String) : String :=
  let basename := (path.toList.reverse.takeWhile (· ≠ '/')).reverse
  let base := (basename.dropSuffix? ".drv".toList).getD basename
  let hash := base.takeWhile (· ≠ '-')
  if base.contains '-' ∧ (String.ofList hash).utf8ByteSize = 32 then
    String.ofList (base.drop (hash.length + 1))
  else String.ofList base

namespace BuildTracker

def new : BuildTracker :=
  { built := 0, finished := 0, fetched := 0, fetchedDone := 0, errors := 0
    current := "", running := ∅, errorMessages := [] }

/-- A start: whether the counters have to be shown again comes with them. -/
def start (tracker : BuildTracker) (eventType id : Option Int)
    (derivation : String) : BuildTracker × Bool :=
  if eventType = some actBuild then
    match id with
    | none => (tracker, false)
    | some id =>
        let name := derivationName derivation
        ({ tracker with
            current := name
            running := tracker.running.insert id name
            built := tracker.built + 1 }, true)
  else if eventType = some actCopyPath ∨ eventType = some actCopyPaths then
    ({ tracker with fetched := tracker.fetched + 1 }, true)
  else (tracker, false)

def stop (tracker : BuildTracker) (id : Option Int) : BuildTracker × Bool :=
  match id.filter tracker.running.contains with
  | some id =>
      let running := tracker.running.erase id
      ({ tracker with
          running
          finished := tracker.finished + 1
          current := running.values.head?.getD tracker.current }, true)
  | none =>
      if tracker.fetchedDone < tracker.fetched then
        ({ tracker with fetchedDone := tracker.fetchedDone + 1 }, true)
      else (tracker, false)

/-- An error that says something. -/
def message (tracker : BuildTracker) (text : String) : BuildTracker × Bool :=
  if text ≠ "" then
    ({ tracker with
        errors := tracker.errors + 1
        errorMessages := tracker.errorMessages ++ [text] }, false)
  else (tracker, false)

def feedEvent (tracker : BuildTracker) (event : Json) : BuildTracker × Bool :=
  if event.getStr "action" = some "start" then
    let fields := (event.get "fields").bind Json.asArray
    tracker.start (event.getI64 "type") (event.getI64 "id")
      (((fields.bind List.head?).bind Json.asStr).getD "")
  else if event.getStr "action" = some "stop" then
    tracker.stop (event.getI64 "id")
  else if event.getStr "action" = some "msg" ∧
      event.getI64 "level" = some 0 then
    let text := ((event.get "raw_msg").or (event.get "msg")).or
      (event.get "text")
    tracker.message ((text.bind Json.asStr).getD "")
  else (tracker, false)

/-- The record a line of the build's output carries. -/
def eventOf (fromStr : List Char → Option Json) (line : String) : Option Json :=
  (line.toList.dropPrefix? nixJsonPrefix.toList).bind fromStr

def feed (fromStr : List Char → Option Json) (tracker : BuildTracker)
    (line : String) : BuildTracker × Bool :=
  match eventOf fromStr line with
  | none => (tracker, false)
  | some event => tracker.feedEvent event

/-- The tracker after a stream. -/
def after (fromStr : List Char → Option Json) (lines : List String) :
    BuildTracker :=
  lines.foldl (fun tracker line => (tracker.feed fromStr line).1) new

end BuildTracker

/-! ## What the stream says -/

inductive ActivityKind where
  | build
  | copy
  | other
  deriving DecidableEq, Repr

def ActivityKind.ofType (eventType : Option Int) : ActivityKind :=
  if eventType = some actBuild then .build
  else if eventType = some actCopyPath ∨ eventType = some actCopyPaths then
    .copy
  else .other

inductive ActivityRecord where
  | start (id : Option Int) (kind : ActivityKind)
  | stop (id : Option Int)
  deriving DecidableEq, Repr

def activityRecord (event : Json) : Option ActivityRecord :=
  if event.getStr "action" = some "start" then
    some (.start (event.getI64 "id") (.ofType (event.getI64 "type")))
  else if event.getStr "action" = some "stop" then
    some (.stop (event.getI64 "id"))
  else none

def recordOf (fromStr : List Char → Option Json) (line : String) :
    Option ActivityRecord :=
  (BuildTracker.eventOf fromStr line).bind activityRecord

/-- The activities that have started and not stopped, and how many copies have
started and have stopped. -/
structure Activities where
  live : List (Option Int × ActivityKind)
  copies : ℕ
  stoppedCopies : ℕ

/-- The activity a stop is about. -/
def isOf (id : Option Int) (activity : Option Int × ActivityKind) : Bool :=
  id.isSome && activity.1 = id

def isCopy (activity : Option Int × ActivityKind) : Bool :=
  activity.2 = .copy

namespace Activities

def none : Activities := { live := [], copies := 0, stoppedCopies := 0 }

def take (activities : Activities) : ActivityRecord → Activities
  | .start id kind =>
      { activities with
        live := (id, kind) :: activities.live
        copies := activities.copies + if kind = .copy then 1 else 0 }
  | .stop id =>
      { activities with
        live := activities.live.eraseP (isOf id)
        stoppedCopies := activities.stoppedCopies +
          if (activities.live.find? (isOf id)).any isCopy then 1 else 0 }

def takeLine (fromStr : List Char → Option Json) (activities : Activities)
    (line : String) : Activities :=
  (recordOf fromStr line).elim activities activities.take

def after (fromStr : List Char → Option Json) (lines : List String) :
    Activities :=
  lines.foldl (takeLine fromStr) none

end Activities

section Stream
variable (fromStr : List Char → Option Json)

/-- No id is given to another activity before the activity it was given to has
stopped. -/
def NotReused (lines : List String) : Prop :=
  EachMeets (fun before line => ∀ id kind,
    recordOf fromStr line = some (.start (some id) kind) →
    ∀ activity ∈ (Activities.after fromStr before).live,
      activity.1 ≠ some id) lines

/-- What stops while a copy is going on is a build or a copy. -/
def OnlyCopiesStop (lines : List String) : Prop :=
  EachMeets (fun before line => ∀ id,
    recordOf fromStr line = some (.stop id) →
    (∀ activity ∈ (Activities.after fromStr before).live,
      isOf id activity → activity.2 = .other) →
    ∀ activity ∈ (Activities.after fromStr before).live,
      activity.2 ≠ .copy) lines

/-- The counters say what has started and what has stopped. -/
structure Counts (tracker : BuildTracker) (activities : Activities) :
    Prop where
  builds : tracker.finished + tracker.running.size = tracker.built
  fetched : tracker.fetched = activities.copies
  fetchedDone : tracker.fetchedDone = activities.stoppedCopies
  complete : tracker.fetchedDone = tracker.fetched ↔
    ∀ activity ∈ activities.live, activity.2 ≠ .copy

end Stream

/-! ## What a line does -/

theorem feed_cases (fromStr : List Char → Option Json) (tracker : BuildTracker)
    (line : String) :
    (recordOf fromStr line = none ∧ ∃ errors errorMessages,
      (tracker.feed fromStr line).1 =
        { tracker with errors, errorMessages }) ∨
    (∃ eventType id derivation,
      recordOf fromStr line = some (.start id (.ofType eventType)) ∧
      (tracker.feed fromStr line).1 =
        (tracker.start eventType id derivation).1) ∨
    ∃ id, recordOf fromStr line = some (.stop id) ∧
      (tracker.feed fromStr line).1 = (tracker.stop id).1 := by
  rw [recordOf, BuildTracker.feed]
  cases BuildTracker.eventOf fromStr line with
  | none => exact .inl ⟨rfl, tracker.errors, tracker.errorMessages, rfl⟩
  | some event =>
      simp only [Option.bind_some, activityRecord, BuildTracker.feedEvent]
      by_cases hstart : event.getStr "action" = some "start"
      · rw [if_pos hstart, if_pos hstart]
        exact .inr (.inl ⟨_, _, _, rfl, rfl⟩)
      · rw [if_neg hstart, if_neg hstart]
        by_cases hstop : event.getStr "action" = some "stop"
        · rw [if_pos hstop, if_pos hstop]
          exact .inr (.inr ⟨_, rfl, rfl⟩)
        · rw [if_neg hstop, if_neg hstop]
          refine .inl ⟨rfl, ?_⟩
          split
          · unfold BuildTracker.message
            split
            · exact ⟨_, _, rfl⟩
            · exact ⟨tracker.errors, tracker.errorMessages, rfl⟩
          · exact ⟨tracker.errors, tracker.errorMessages, rfl⟩

/-! ## The activities that are live -/

theorem countP_eraseP {A : Type} (first counted : A → Bool) (items : List A) :
    (items.eraseP first).countP counted +
        (if (items.find? first).any counted then 1 else 0) =
      items.countP counted := by
  induction items with
  | nil => rfl
  | cons item items ih =>
      cases hfirst : first item with
      | true =>
          rw [List.eraseP_cons_of_pos hfirst, List.find?_cons_of_pos hfirst,
            List.countP_cons, Option.any_some]
      | false =>
          have hneg : ¬ first item = true := by simp [hfirst]
          rw [List.eraseP_cons_of_neg hneg, List.find?_cons_of_neg hneg,
            List.countP_cons, List.countP_cons, ← ih]
          omega

/-- Live activities have ids of their own. -/
def Distinct (live : List (Option Int × ActivityKind)) : Prop :=
  live.Pairwise fun left right => left.1 ≠ none → left.1 ≠ right.1

theorem Distinct.unique {live : List (Option Int × ActivityKind)}
    (hdistinct : Distinct live) {left right : Option Int × ActivityKind}
    (hleft : left ∈ live) (hright : right ∈ live) (hsame : left.1 = right.1)
    (hgiven : left.1 ≠ none) : left = right := by
  induction live with
  | nil => cases hleft
  | cons head live ih =>
      obtain ⟨hhead, hlive⟩ := List.pairwise_cons.mp hdistinct
      rcases List.mem_cons.mp hleft with rfl | hleftRest
      · rcases List.mem_cons.mp hright with rfl | hrightRest
        · rfl
        · exact absurd hsame (hhead right hrightRest hgiven)
      · rcases List.mem_cons.mp hright with rfl | hrightRest
        · exact absurd hsame.symm (hhead left hleftRest (hsame ▸ hgiven))
        · exact ih hlive hleftRest hrightRest

theorem mem_eraseP_isOf {live : List (Option Int × ActivityKind)}
    (hdistinct : Distinct live) {id : Int}
    {activity : Option Int × ActivityKind} :
    activity ∈ live.eraseP (isOf (some id)) ↔
      activity ∈ live ∧ activity.1 ≠ some id := by
  induction live with
  | nil => simp
  | cons head live ih =>
      obtain ⟨hhead, hlive⟩ := List.pairwise_cons.mp hdistinct
      by_cases hid : head.1 = some id
      · have hfirst : isOf (some id) head = true := by simp [isOf, hid]
        have hothers : activity ∈ live → activity.1 ≠ some id := by
          intro hmem
          rw [← hid]
          exact (hhead activity hmem (by simp [hid])).symm
        rw [List.eraseP_cons_of_pos hfirst, List.mem_cons]
        constructor
        · exact fun hmem => ⟨.inr hmem, hothers hmem⟩
        · rintro ⟨rfl | hmem, hne⟩
          · exact absurd hid hne
          · exact hmem
      · have hfirst : ¬ isOf (some id) head = true := by simp [isOf, hid]
        rw [List.eraseP_cons_of_neg hfirst, List.mem_cons, List.mem_cons,
          ih hlive]
        constructor
        · rintro (rfl | ⟨hmem, hne⟩)
          · exact ⟨.inl rfl, hid⟩
          · exact ⟨.inr hmem, hne⟩
        · rintro ⟨rfl | hmem, hne⟩
          · exact .inl rfl
          · exact .inr ⟨hmem, hne⟩

/-- The tracker knows the builds that are going on and counts them and the
copies that start. -/
structure Follows (tracker : BuildTracker) (activities : Activities) :
    Prop where
  running : ∀ id, id ∈ tracker.running ↔ (some id, .build) ∈ activities.live
  distinct : Distinct activities.live
  builds : tracker.finished + tracker.running.size = tracker.built
  fetched : tracker.fetched = activities.copies
  copies : activities.copies =
    activities.stoppedCopies + activities.live.countP isCopy

namespace Follows

theorem new : Follows .new .none where
  running _ := iff_of_false Std.TreeMap.not_mem_emptyc List.not_mem_nil
  distinct := .nil
  builds := rfl
  fetched := rfl
  copies := rfl

variable {tracker : BuildTracker} {activities : Activities}

theorem start (hfollows : Follows tracker activities)
    (eventType id : Option Int) (derivation : String)
    (hfresh : ∀ given, id = some given →
      ∀ activity ∈ activities.live, activity.1 ≠ some given) :
    Follows (tracker.start eventType id derivation).1
      (activities.take (.start id (.ofType eventType))) := by
  have hdistinct : Distinct ((id, .ofType eventType) :: activities.live) := by
    refine List.pairwise_cons.mpr ⟨?_, hfollows.distinct⟩
    intro activity hmem hgiven
    obtain ⟨given, rfl⟩ := Option.ne_none_iff_exists'.mp hgiven
    exact (hfresh given rfl activity hmem).symm
  have hcopies := hfollows.copies
  unfold BuildTracker.start
  by_cases hbuild : eventType = some actBuild
  · have hkind : ActivityKind.ofType eventType = .build := if_pos hbuild
    rw [if_pos hbuild]
    rw [hkind] at hdistinct ⊢
    cases id with
    | none =>
        exact { hfollows with
          distinct := hdistinct
          running := fun other => (hfollows.running other).trans (by
            simp [Activities.take])
          copies := by simpa [Activities.take, isCopy] using hcopies }
    | some id =>
        have hnew : id ∉ tracker.running := fun hmem =>
          hfresh id rfl _ ((hfollows.running id).mp hmem) rfl
        refine ⟨?_, hdistinct, ?_, hfollows.fetched, ?_⟩
        · intro other
          simp only [Activities.take, Std.TreeMap.mem_insert,
            Std.LawfulEqCmp.compare_eq_iff_eq, List.mem_cons,
            hfollows.running other, Prod.mk.injEq, Option.some.injEq,
            and_true, @eq_comm _ other id]
        · change tracker.finished +
            (tracker.running.insert id (derivationName derivation)).size =
              tracker.built + 1
          rw [Std.TreeMap.size_insert, if_neg fun hcontains =>
            hnew (Std.TreeMap.contains_iff_mem.mp hcontains)]
          have hbuilds := hfollows.builds
          omega
        · simpa [Activities.take, isCopy] using hcopies
  · rw [if_neg hbuild]
    have hnot : ActivityKind.ofType eventType ≠ .build := by
      rw [ActivityKind.ofType, if_neg hbuild]
      split <;> decide
    have hrunning (other : Int) : other ∈ tracker.running ↔
        (some other, .build) ∈
          (activities.take (.start id (.ofType eventType))).live := by
      rw [hfollows.running other]
      simp [Activities.take, hnot.symm]
    by_cases hcopy : eventType = some actCopyPath ∨
        eventType = some actCopyPaths
    · have hkind : ActivityKind.ofType eventType = .copy := by
        rw [ActivityKind.ofType, if_neg hbuild, if_pos hcopy]
      rw [if_pos hcopy]
      refine ⟨hrunning, hdistinct, hfollows.builds, ?_, ?_⟩
      · simp [Activities.take, hkind, hfollows.fetched]
      · simp only [Activities.take, hkind, List.countP_cons, isCopy,
          decide_true, if_true]
        omega
    · have hkind : ActivityKind.ofType eventType = .other := by
        rw [ActivityKind.ofType, if_neg hbuild, if_neg hcopy]
      rw [if_neg hcopy]
      refine ⟨hrunning, hdistinct, hfollows.builds, ?_, ?_⟩
      · simp [Activities.take, hkind, hfollows.fetched]
      · simpa [Activities.take, hkind, isCopy] using hcopies

theorem find?_isOf (hfollows : Follows tracker activities) {given : Int}
    {kind : ActivityKind} (hmem : (some given, kind) ∈ activities.live) :
    activities.live.find? (isOf (some given)) = some (some given, kind) := by
  have hsome : (activities.live.find? (isOf (some given))).isSome :=
    List.find?_isSome.mpr ⟨_, hmem, by simp [isOf]⟩
  obtain ⟨activity, hfound⟩ := Option.isSome_iff_exists.mp hsome
  have hid : activity.1 = some given := by
    simpa [isOf] using List.find?_some hfound
  have heq : activity = (some given, kind) :=
    hfollows.distinct.unique (List.mem_of_find?_eq_some hfound) hmem hid
      (hid ▸ Option.some_ne_none given)
  rw [hfound, heq]

/-- A stop is a build's if that build is running, and else of no build. -/
theorem stop_cases (hfollows : Follows tracker activities) (id : Option Int) :
    (∃ given, id = some given ∧ (some given, .build) ∈ activities.live ∧
      (tracker.stop id).1 =
        { tracker with
          running := tracker.running.erase given
          finished := tracker.finished + 1
          current := (tracker.running.erase given).values.head?.getD
            tracker.current }) ∨
    ((∀ activity ∈ activities.live, isOf id activity →
        activity.2 ≠ .build) ∧
      (tracker.stop id).1 =
        { tracker with
          fetchedDone := tracker.fetchedDone +
            if tracker.fetchedDone < tracker.fetched then 1 else 0 }) := by
  by_cases hbuild : ∃ given, id = some given ∧ given ∈ tracker.running
  · obtain ⟨given, rfl, hrunning⟩ := hbuild
    refine .inl ⟨given, rfl, (hfollows.running given).mp hrunning, ?_⟩
    rw [BuildTracker.stop, Option.filter_some,
      if_pos (Std.TreeMap.contains_iff_mem.mpr hrunning)]
  · refine .inr ⟨?_, ?_⟩
    · rintro ⟨other, kind⟩ hmem hid rfl
      simp only [isOf, Bool.and_eq_true, decide_eq_true_eq] at hid
      obtain ⟨given, rfl⟩ := Option.isSome_iff_exists.mp hid.1
      cases hid.2
      exact hbuild ⟨given, rfl, (hfollows.running given).mpr hmem⟩
    · have hnone : id.filter tracker.running.contains = none := by
        rw [Option.filter_eq_none_iff]
        intro given hgiven hcontains
        exact hbuild ⟨given, hgiven, Std.TreeMap.contains_iff_mem.mp hcontains⟩
      simp only [BuildTracker.stop, hnone]
      by_cases hless : tracker.fetchedDone < tracker.fetched
      · rw [if_pos hless, if_pos hless]
      · rw [if_neg hless, if_neg hless]
        rfl

theorem stop (hfollows : Follows tracker activities) (id : Option Int) :
    Follows (tracker.stop id).1 (activities.take (.stop id)) := by
  have hdistinct : Distinct (activities.live.eraseP (isOf id)) :=
    hfollows.distinct.sublist (List.eraseP_sublist)
  have hcopies : activities.copies = activities.stoppedCopies +
      (if (activities.live.find? (isOf id)).any isCopy then 1 else 0) +
        (activities.live.eraseP (isOf id)).countP isCopy := by
    have hcount := countP_eraseP (isOf id) isCopy activities.live
    have hall := hfollows.copies
    omega
  have hmem (other : Int) (hother : id ≠ some other) :
      (some other, .build) ∈ activities.live.eraseP (isOf id) ↔
        (some other, .build) ∈ activities.live := by
    cases id with
    | none =>
        rw [List.eraseP_of_forall_not]
        intro activity _ hnone
        simp [isOf] at hnone
    | some given =>
        rw [mem_eraseP_isOf hfollows.distinct]
        exact and_iff_left fun heq => hother (congrArg _ (Option.some.inj heq).symm)
  rcases hfollows.stop_cases id with
    ⟨given, rfl, hbuild, hstop⟩ | ⟨hnone, hstop⟩
  · rw [hstop]
    have hrunning := (hfollows.running given).mpr hbuild
    refine ⟨?_, hdistinct, ?_, hfollows.fetched, hcopies⟩
    · intro other
      change other ∈ tracker.running.erase given ↔
        (some other, .build) ∈ activities.live.eraseP (isOf (some given))
      rw [Std.TreeMap.mem_erase, hfollows.running other,
        mem_eraseP_isOf hfollows.distinct, and_comm]
      refine and_congr_right fun _ => not_congr ?_
      rw [Std.LawfulEqCmp.compare_eq_iff_eq, Option.some.injEq]
      exact eq_comm
    · change tracker.finished + 1 + (tracker.running.erase given).size =
        tracker.built
      have hsize : (tracker.running.erase given).size + 1 =
          tracker.running.size := by
        rw [Std.TreeMap.size_erase,
          if_pos (Std.TreeMap.contains_iff_mem.mpr hrunning)]
        have hpos : tracker.running.size ≠ 0 := fun hzero => by
          have hempty : tracker.running.isEmpty = true := by
            rw [Std.TreeMap.isEmpty_eq_size_eq_zero, hzero]
            rfl
          exact Std.TreeMap.isEmpty_iff_forall_not_mem.mp hempty given hrunning
        omega
      have hbuilds := hfollows.builds
      omega
  · rw [hstop]
    refine ⟨?_, hdistinct, hfollows.builds, hfollows.fetched, hcopies⟩
    intro other
    refine (hfollows.running other).trans ?_
    by_cases hid : id = some other
    · subst hid
      have habsent : (some other, ActivityKind.build) ∉ activities.live :=
        fun hin => hnone _ hin (by simp [isOf]) rfl
      exact iff_of_false habsent fun hin => habsent (List.mem_of_mem_eraseP hin)
    · exact (hmem other hid).symm

end Follows

/-! ## Over a stream -/

section Stream
variable {fromStr : List Char → Option Json}

theorem after_snoc (lines : List String) (line : String) :
    BuildTracker.after fromStr (lines ++ [line]) =
      ((BuildTracker.after fromStr lines).feed fromStr line).1 := by
  rw [BuildTracker.after, List.foldl_append]
  rfl

theorem activities_snoc (lines : List String) (line : String) :
    Activities.after fromStr (lines ++ [line]) =
      (Activities.after fromStr lines).takeLine fromStr line := by
  rw [Activities.after, List.foldl_append]
  rfl

theorem takeLine_of_record {activities : Activities} {line : String}
    {record : Option ActivityRecord} (hrecord : recordOf fromStr line = record) :
    activities.takeLine fromStr line =
      record.elim activities activities.take := by
  rw [Activities.takeLine, hrecord]

theorem follows_after {lines : List String} (hfresh : NotReused fromStr lines) :
    Follows (BuildTracker.after fromStr lines)
      (Activities.after fromStr lines) := by
  induction lines using List.reverseRecOn with
  | nil => exact .new
  | append_singleton lines line ih =>
      have hlines : NotReused fromStr lines := fun before other rest heq =>
        hfresh before other (rest ++ [line]) (by rw [heq]; simp)
      have hfollows := ih hlines
      have hline := hfresh lines line [] rfl
      rw [after_snoc, activities_snoc]
      rcases feed_cases fromStr (BuildTracker.after fromStr lines) line with
        ⟨hrecord, errors, messages, hfeed⟩ |
        ⟨eventType, id, derivation, hrecord, hfeed⟩ | ⟨id, hrecord, hfeed⟩
      · rw [hfeed, takeLine_of_record hrecord]
        exact { hfollows with }
      · rw [hfeed, takeLine_of_record hrecord]
        apply hfollows.start eventType id derivation
        rintro given rfl
        exact hline given _ hrecord
      · rw [hfeed, takeLine_of_record hrecord]
        exact hfollows.stop id

theorem forall_ne_copy_iff {activities : Activities} :
    (∀ activity ∈ activities.live, activity.2 ≠ .copy) ↔
      activities.live.countP isCopy = 0 := by
  rw [List.countP_eq_zero]
  simp [isCopy]

/-- The activity a stop is about is the only one with its id. -/
theorem isOf_unique {activities : Activities}
    (hdistinct : Distinct activities.live) {id : Option Int}
    {left right : Option Int × ActivityKind} (hleft : left ∈ activities.live)
    (hright : right ∈ activities.live) (hleftOf : isOf id left)
    (hrightOf : isOf id right) : left = right := by
  simp only [isOf, Bool.and_eq_true, decide_eq_true_eq] at hleftOf hrightOf
  obtain ⟨given, hgiven⟩ := Option.isSome_iff_exists.mp hleftOf.1
  apply hdistinct.unique hleft hright (hleftOf.2.trans hrightOf.2.symm)
  rw [hleftOf.2, hgiven]
  exact Option.some_ne_none given

/-- A stop of no build counts as a finished copy while one is outstanding: that
is right for a copy, and wrong for anything else. -/
theorem stop_counted_iff {activities : Activities}
    (hdistinct : Distinct activities.live) {id : Option Int}
    (hnone : ∀ activity ∈ activities.live, isOf id activity →
      activity.2 ≠ .build) :
    (0 < activities.live.countP isCopy ↔
        (activities.live.find? (isOf id)).any isCopy = true) ↔
      ((∀ activity ∈ activities.live, isOf id activity →
          activity.2 = .other) →
        ∀ activity ∈ activities.live, activity.2 ≠ .copy) := by
  rw [forall_ne_copy_iff]
  cases hfound : activities.live.find? (isOf id) with
  | none =>
      rw [List.find?_eq_none] at hfound
      have hforeign : ∀ activity ∈ activities.live, isOf id activity →
          activity.2 = .other :=
        fun activity hmem hid => absurd hid (hfound activity hmem)
      simp only [Option.any_none, Bool.false_eq_true, iff_false,
        Nat.pos_iff_ne_zero, not_not]
      exact ⟨fun hzero _ => hzero, fun himplies => himplies hforeign⟩
  | some activity =>
      have hmem := List.mem_of_find?_eq_some hfound
      have hid : isOf id activity := List.find?_some hfound
      rw [Option.any_some]
      cases hcopy : isCopy activity with
      | true =>
          have hpos := List.countP_pos_iff.mpr ⟨activity, hmem, hcopy⟩
          refine iff_of_true (iff_of_true hpos rfl) fun hforeign => ?_
          have hother := hforeign activity hmem hid
          rw [isCopy, hother] at hcopy
          cases hcopy
      | false =>
          have hother : activity.2 = .other := by
            cases hkind : activity.2 with
            | build => exact absurd hkind (hnone activity hmem hid)
            | copy =>
                rw [isCopy, hkind] at hcopy
                cases hcopy
            | other => rfl
          have hforeign : ∀ other ∈ activities.live, isOf id other →
              other.2 = .other := fun other hin hof =>
            isOf_unique hdistinct hmem hin hid hof ▸ hother
          simp only [Bool.false_eq_true, iff_false, Nat.pos_iff_ne_zero,
            not_not]
          exact ⟨fun hzero _ => hzero, fun himplies => himplies hforeign⟩

theorem fetchedDone_start (tracker : BuildTracker) (eventType id : Option Int)
    (derivation : String) :
    (tracker.start eventType id derivation).1.fetchedDone =
      tracker.fetchedDone := by
  unfold BuildTracker.start
  split
  · cases id <;> rfl
  · split <;> rfl

theorem ite_eq_ite_iff {left right : Prop} [Decidable left]
    [Decidable right] :
    ((if left then 1 else 0) = if right then 1 else 0) ↔ (left ↔ right) := by
  by_cases hleft : left <;> by_cases hright : right <;> simp [hleft, hright]

/-- A line keeps the count of finished copies right exactly when it does not
stop something else while a copy is going on. -/
theorem fetchedDone_feed_iff {tracker : BuildTracker} {activities : Activities}
    (hfollows : Follows tracker activities)
    (hexact : tracker.fetchedDone = activities.stoppedCopies) (line : String) :
    (tracker.feed fromStr line).1.fetchedDone =
        (activities.takeLine fromStr line).stoppedCopies ↔
      ∀ id, recordOf fromStr line = some (.stop id) →
        (∀ activity ∈ activities.live, isOf id activity →
          activity.2 = .other) →
        ∀ activity ∈ activities.live, activity.2 ≠ .copy := by
  rcases feed_cases fromStr tracker line with
    ⟨hrecord, errors, messages, hfeed⟩ |
    ⟨eventType, id, derivation, hrecord, hfeed⟩ | ⟨id, hrecord, hfeed⟩
  · rw [hfeed, takeLine_of_record hrecord, hrecord]
    exact iff_of_true hexact (by rintro _ ⟨⟩)
  · rw [hfeed, takeLine_of_record hrecord, hrecord]
    refine iff_of_true ?_ (by rintro _ ⟨⟩)
    exact (fetchedDone_start tracker eventType id derivation).trans hexact
  · rw [hfeed, takeLine_of_record hrecord, hrecord, Option.elim_some]
    have hstopped : (activities.take (.stop id)).stoppedCopies =
        activities.stoppedCopies +
          if (activities.live.find? (isOf id)).any isCopy then 1 else 0 := rfl
    have hid (condition : Option Int → Prop) :
        (∀ other, some (ActivityRecord.stop id) = some (.stop other) →
          condition other) ↔ condition id :=
      ⟨fun hall => hall id rfl, by rintro hcondition _ ⟨⟩; exact hcondition⟩
    rw [hid]
    rcases hfollows.stop_cases id with
      ⟨given, rfl, hbuild, hstop⟩ | ⟨hnone, hstop⟩
    · rw [hstop, hstopped, hfollows.find?_isOf hbuild]
      refine iff_of_true hexact fun hother => ?_
      cases hother _ hbuild (by simp [isOf])
    · rw [hstop, hstopped, ← stop_counted_iff hfollows.distinct hnone]
      have hcopies := hfollows.copies
      have hfetched := hfollows.fetched
      have hless : tracker.fetchedDone < tracker.fetched ↔
          0 < activities.live.countP isCopy := by omega
      rw [← hless, ← hexact]
      exact Nat.add_left_cancel_iff.trans ite_eq_ite_iff

theorem counts_iff {tracker : BuildTracker} {activities : Activities}
    (hfollows : Follows tracker activities) :
    Counts tracker activities ↔
      tracker.fetchedDone = activities.stoppedCopies := by
  constructor
  · exact Counts.fetchedDone
  · intro hexact
    refine ⟨hfollows.builds, hfollows.fetched, hexact, ?_⟩
    have hcopies := hfollows.copies
    have hfetched := hfollows.fetched
    rw [forall_ne_copy_iff]
    omega

/-- In a stream whose ids are not reused, the counters are right all along
exactly when nothing but builds and copies stops while a copy is going on. -/
theorem counts_iff_onlyCopiesStop (fromStr : List Char → Option Json)
    (lines : List String) (hfresh : NotReused fromStr lines) :
    (∀ before rest, lines = before ++ rest →
      Counts (BuildTracker.after fromStr before)
        (Activities.after fromStr before)) ↔
      OnlyCopiesStop fromStr lines := by
  have hearlier {before rest : List String} (heq : lines = before ++ rest) :
      NotReused fromStr before := fun first line later hbefore =>
    hfresh first line (later ++ rest) (by rw [heq, hbefore]; simp)
  constructor
  · intro hcounts before line rest heq
    have hline : lines = (before ++ [line]) ++ rest := by rw [heq]; simp
    have hexact := (hcounts before (line :: rest) heq).fetchedDone
    have hafter := (hcounts (before ++ [line]) rest hline).fetchedDone
    rw [after_snoc, activities_snoc] at hafter
    exact (fetchedDone_feed_iff (follows_after (hearlier heq)) hexact line).mp
      hafter
  · intro honly before
    induction before using List.reverseRecOn with
    | nil => exact fun rest _ => (counts_iff .new).mpr rfl
    | append_singleton before line ih =>
        intro rest heq
        have hbefore : lines = before ++ line :: rest := by rw [heq]; simp
        have hexact := (ih (line :: rest) hbefore).fetchedDone
        apply (counts_iff (follows_after (hearlier heq))).mpr
        rw [after_snoc, activities_snoc]
        exact (fetchedDone_feed_iff (follows_after (hearlier hbefore)) hexact
          line).mpr (honly before line rest hbefore)

end Stream

/-! ### A query that ends while a path is copied -/

def copyStarts : Json :=
  .object [("action", .string "start"), ("id", .int 1), ("type", .int 100)]

def queryStops : Json :=
  .object [("action", .string "stop"), ("id", .int 7)]

def copyPayload : String :=
  "\x7b\"action\":\"start\",\"id\":1,\"type\":100\x7d"

def queryPayload : String := "\x7b\"action\":\"stop\",\"id\":7\x7d"

/-- The two records as they are read. -/
def twoRecords (payload : List Char) : Option Json :=
  if payload = copyPayload.toList then some copyStarts
  else if payload = queryPayload.toList then some queryStops
  else none

def copyLine : String := nixJsonPrefix ++ copyPayload

def queryLine : String := nixJsonPrefix ++ queryPayload

theorem recordOf_copyLine :
    recordOf twoRecords copyLine = some (.start (some 1) .copy) := by
  decide +kernel

theorem recordOf_queryLine :
    recordOf twoRecords queryLine = some (.stop (some 7)) := by
  decide +kernel

theorem notReused_copyLine : NotReused twoRecords [copyLine] := by
  change EachMeets _ ([] ++ [copyLine])
  refine EachMeets.nil.snoc ?_
  intro id kind _ activity hmem
  cases hmem

theorem notReused_queryLine : NotReused twoRecords [copyLine, queryLine] := by
  apply notReused_copyLine.snoc
  intro id kind hrecord
  rw [recordOf_queryLine] at hrecord
  cases hrecord

theorem counts_iff_onlyCopiesStop_copy :
    Counts (BuildTracker.after twoRecords [copyLine])
      (Activities.after twoRecords [copyLine]) := by
  apply (counts_iff_onlyCopiesStop twoRecords [copyLine] notReused_copyLine).mpr
    _ [copyLine] [] rfl
  change EachMeets _ ([] ++ [copyLine])
  refine EachMeets.nil.snoc ?_
  intro id hrecord
  rw [recordOf_copyLine] at hrecord
  cases hrecord

/-- The query is counted as the copy, which is still going on. -/
theorem query_counted_as_copy :
    NotReused twoRecords [copyLine, queryLine] ∧
      ¬ Counts (BuildTracker.after twoRecords [copyLine, queryLine])
        (Activities.after twoRecords [copyLine, queryLine]) := by
  refine ⟨notReused_queryLine, fun hcounts => ?_⟩
  have hdone := hcounts.fetchedDone
  have hcounted :
      (BuildTracker.after twoRecords [copyLine, queryLine]).fetchedDone = 1 := by
    decide +kernel
  have hstopped :
      (Activities.after twoRecords [copyLine, queryLine]).stoppedCopies = 0 := by
    decide +kernel
  rw [hcounted, hstopped] at hdone
  cases hdone

end Mandala.Engine
