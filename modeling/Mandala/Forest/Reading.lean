import Mandala.Core.Transition
import Mandala.Forest.Named

/-!
# A forest and its reader

The derivations a stream names are handed to a reader, and whatever it reads is
applied between two records, with more derivations to read.  In the end, what
was read is what the records lead to.
-/

namespace Mandala.Forest

open Mandala.Data Mandala.Transition

/-! ## Runs with a reader -/

/-- A forest, and the derivations handed to the reader so far. -/
structure ReadingForest where
  read : ReadForest
  handed : List String

namespace ReadingForest

def start (durations : BTreeMap ℕ) : ReadingForest :=
  { read := .new durations, handed := [] }

def handedAfter (state : ReadingForest) : ForestEvent → List String
  | .take => state.handed ++ state.read.takePending.1
  | _ => state.handed

def feed (fromStr : List Char → Option NixMessage) (state : ReadingForest)
    (event : ForestEvent) : ReadingForest :=
  { read := state.read.feed fromStr event, handed := state.handedAfter event }

/-- The reader answers what it was handed, and always the same. -/
def Answers (reader : String → Option Derivation) (state : ReadingForest) :
    ForestEvent → Prop
  | .read path drv => path ∈ state.handed ∧ reader path = some drv
  | .unread path _ => path ∈ state.handed ∧ reader path = none
  | _ => True

/-- All reads are applied. -/
structure CaughtUp (state : ReadingForest) : Prop where
  handed : ∀ path ∈ state.handed, path ∈ state.read.drvCache
  pending : ∀ path ∈ state.read.forest.pendingDrvs, path ∈ state.read.drvCache

def statusOf (state : ReadingForest) (path : String) :
    Option DerivationStatus :=
  (state.read.forest.nodes[path]?).map NodeState.status

def counts (state : ReadingForest) (elapsedMs : ℕ) : ForestCounts :=
  (state.read.snapshot elapsedMs).counts

end ReadingForest

/-- The records of a stream, with their times. -/
def recordsOf (fromStr : List Char → Option NixMessage)
    (events : List ForestEvent) : List (ℕ × NixMessage) :=
  events.filterMap (ReadForest.recordOf fromStr)

/-- The derivations the records of a stream lead to. -/
inductive Wanted (reader : String → Option Derivation)
    (records : List (ℕ × NixMessage)) : String → Prop where
  | asked {now : ℕ} {record : NixMessage} {path : String}
      (hmem : (now, record) ∈ records)
      (hasks : BuildForest.AsksFor record path) : Wanted reader records path
  | input {own path : String} {drv : Derivation}
      (hown : Wanted reader records own) (hread : reader own = some drv)
      (hinput : path ∈ drv.inputDrvs.keys) : Wanted reader records path

section Runs
variable (fromStr : List Char → Option NixMessage)
  (reader : String → Option Derivation)

def Reads (before : ReadingForest) (event : ForestEvent)
    (after : ReadingForest) : Prop :=
  before.Answers reader event ∧ after = before.feed fromStr event

end Runs

/-! ## Reading on -/

namespace ReadingForest

/-- A derivation read, handed to the reader or waiting to be. -/
def Known (state : ReadingForest) (path : String) : Prop :=
  path ∈ state.read.drvCache ∨ path ∈ state.handed ∨
    path ∈ state.read.forest.pendingDrvs

/-- A node a read gave the forest. -/
def Entered (reader : String → Option Derivation) (state : ReadingForest)
    (path : String) : Prop :=
  path ∈ state.read.drvCache ∨ ∃ own drv, own ∈ state.read.drvCache ∧
    reader own = some drv ∧ path ∈ drv.inputDrvs.keys

variable {fromStr : List Char → Option NixMessage} {state : ReadingForest}
  {event : ForestEvent} {now : ℕ} {record : NixMessage}

/-- A record changes nothing but the forest. -/
theorem feed_record
    (hrecord : ReadForest.recordOf fromStr event = some (now, record)) :
    state.feed fromStr event =
      { state with read :=
          { state.read with forest :=
              state.read.forest.feedMessage now record } } := by
  have hhanded : state.handedAfter event = state.handed := by
    cases event with
    | take => cases hrecord
    | _ => rfl
  rw [feed, hhanded, ReadForest.feed_of_recordOf state.read hrecord]

theorem known_record
    (hrecord : ReadForest.recordOf fromStr event = some (now, record))
    (path : String) :
    (state.feed fromStr event).Known path ↔
      state.Known path ∨ BuildForest.AsksFor record path := by
  rw [feed_record hrecord, Known, Known, or_assoc, or_assoc]
  dsimp only
  rw [BuildForest.mem_pendingDrvs_feedMessage]

theorem known_read {own : String} {drv : Derivation} (hown : own ∈ state.handed)
    (path : String) :
    (state.feed fromStr (.read own drv)).Known path ↔
      state.Known path ∨ path ∈ drv.inputDrvs.keys := by
  change (path ∈ (state.read.applyDerivation own drv).drvCache ∨
    path ∈ state.handed ∨
      path ∈ (state.read.applyDerivation own drv).forest.pendingDrvs) ↔ _
  rw [ReadForest.drvCache_applyDerivation,
    ReadForest.mem_pendingDrvs_applyDerivation, Std.TreeMap.mem_insert,
    Std.LawfulEqCmp.compare_eq_iff_eq, Known]
  constructor
  · rintro ((rfl | hcached) | hhanded | hpending | hinput)
    · exact .inl (.inr (.inl hown))
    · exact .inl (.inl hcached)
    · exact .inl (.inr (.inl hhanded))
    · exact .inl (.inr (.inr hpending))
    · exact .inr hinput.1
  · rintro ((hcached | hhanded | hpending) | hinput)
    · exact .inl (.inr hcached)
    · exact .inr (.inl hhanded)
    · exact .inr (.inr (.inl hpending))
    · by_cases hcached : path ∈ state.read.drvCache
      · exact .inl (.inr hcached)
      · exact .inr (.inr (.inr ⟨hinput, hcached⟩))

theorem known_unread {own note : String} (hown : own ∈ state.handed)
    (path : String) :
    (state.feed fromStr (.unread own note)).Known path ↔ state.Known path := by
  change (path ∈ state.read.drvCache.insert own none ∨ path ∈ state.handed ∨
    path ∈ state.read.forest.pendingDrvs) ↔ _
  rw [Std.TreeMap.mem_insert, Std.LawfulEqCmp.compare_eq_iff_eq, Known]
  constructor
  · rintro ((rfl | hcached) | hother)
    · exact .inr (.inl hown)
    · exact .inl hcached
    · exact .inr hother
  · rintro (hcached | hother)
    · exact .inl (.inr hcached)
    · exact .inr hother

theorem known_take (path : String) :
    (state.feed fromStr .take).Known path ↔ state.Known path := by
  change (path ∈ state.read.drvCache ∨
    path ∈ state.handed ++ state.read.takePending.1 ∨
      path ∈ (∅ : BTreeSet)) ↔ _
  rw [List.mem_append, ReadForest.takePending, List.mem_filter,
    Std.TreeSet.mem_toList, Known]
  by_cases hcached : path ∈ state.read.drvCache
  · simp [hcached]
  · have huncached : state.read.drvCache.contains path = false :=
      by
      rw [← Bool.not_eq_true, Std.TreeMap.contains_iff_mem]
      exact hcached
    simp [hcached, huncached]

/-- A line without a record changes no more than counters. -/
theorem feed_quiet {text : List Char}
    (hrecord : ReadForest.recordOf fromStr (.line now text) = none) :
    (state.feed fromStr (.line now text)).handed = state.handed ∧
      (state.feed fromStr (.line now text)).read.drvCache =
        state.read.drvCache ∧
      (state.feed fromStr (.line now text)).read.forest.nodes =
        state.read.forest.nodes ∧
      (state.feed fromStr (.line now text)).read.forest.pendingDrvs =
        state.read.forest.pendingDrvs ∧
      (state.feed fromStr (.line now text)).read.forest.outputToDrv =
        state.read.forest.outputToDrv := by
  rw [ReadForest.recordOf] at hrecord
  rw [feed, ReadForest.feed, BuildForest.feedLine]
  cases hparsed : parseNixLine fromStr text with
  | record record =>
      rw [hparsed] at hrecord
      cases hrecord
  | ordinary => exact ⟨rfl, rfl, rfl, rfl, rfl⟩
  | malformed => exact ⟨rfl, rfl, rfl, rfl, rfl⟩

end ReadingForest

/-! ## What the reads know -/

theorem Wanted.mono {reader : String → Option Derivation}
    {records more : List (ℕ × NixMessage)} (hsub : records ⊆ more)
    {path : String} (hwanted : Wanted reader records path) :
    Wanted reader more path := by
  induction hwanted with
  | asked hmem hasks => exact .asked (hsub hmem) hasks
  | input _ hread hinput ih => exact .input ih hread hinput

/-- What the reads of a run so far have to do with its records. -/
structure Tracks (reader : String → Option Derivation)
    (records : List (ℕ × NixMessage)) (state : ReadingForest) : Prop where
  asked : ∀ now record path, (now, record) ∈ records →
    BuildForest.AsksFor record path → state.Known path
  inputs : ∀ (own : String) drv, state.read.drvCache[own]? = some (some drv) →
    ∀ path ∈ drv.inputDrvs.keys, state.Known path
  wanted : ∀ path, state.Known path → Wanted reader records path
  cached : ∀ (own : String) answer, state.read.drvCache[own]? = some answer →
    reader own = answer
  owned : ∀ (output path : String),
    state.read.forest.outputToDrv[output]? = some path →
      ∃ drv, state.read.drvCache[path]? = some (some drv) ∧
        output ∈ drv.outputs.values
  outputs : ∀ (path : String) drv,
    state.read.drvCache[path]? = some (some drv) →
      ∀ output ∈ drv.outputs.values,
        state.read.forest.outputToDrv[output]? ≠ none

namespace Tracks

variable {fromStr : List Char → Option NixMessage}
  {reader : String → Option Derivation} {records : List (ℕ × NixMessage)}
  {state : ReadingForest} {event : ForestEvent} {now : ℕ} {record : NixMessage}

theorem start (durations : BTreeMap ℕ) :
    Tracks reader [] (.start durations) where
  asked _ _ _ hmem := absurd hmem List.not_mem_nil
  inputs own drv hcached := by
    change (∅ : BTreeMap (Option Derivation))[own]? = _ at hcached
    rw [Std.TreeMap.getElem?_emptyc] at hcached
    cases hcached
  wanted path hknown := by
    rcases hknown with hcached | hhanded | hpending
    · exact absurd hcached Std.TreeMap.not_mem_emptyc
    · exact absurd hhanded List.not_mem_nil
    · exact absurd hpending Std.TreeSet.not_mem_emptyc
  cached own answer hcached := by
    change (∅ : BTreeMap (Option Derivation))[own]? = _ at hcached
    rw [Std.TreeMap.getElem?_emptyc] at hcached
    cases hcached
  owned output path howned := by
    change (∅ : BTreeMap String)[output]? = _ at howned
    rw [Std.TreeMap.getElem?_emptyc] at howned
    cases howned
  outputs path drv hcached := by
    change (∅ : BTreeMap (Option Derivation))[path]? = _ at hcached
    rw [Std.TreeMap.getElem?_emptyc] at hcached
    cases hcached

/-- The reads know the derivations of one more record. -/
theorem afterRecord (htracks : Tracks reader records state)
    (hrecord : ReadForest.recordOf fromStr event = some (now, record)) :
    Tracks reader (records ++ [(now, record)]) (state.feed fromStr event) := by
  have hknown (path : String) : (state.feed fromStr event).Known path ↔ _ :=
    ReadingForest.known_record hrecord path
  have hcache : (state.feed fromStr event).read.drvCache =
      state.read.drvCache := by rw [ReadingForest.feed_record hrecord]
  have howners : (state.feed fromStr event).read.forest.outputToDrv =
      state.read.forest.outputToDrv := by
    rw [ReadingForest.feed_record hrecord]
    exact BuildForest.outputToDrv_feedMessage _ now record
  refine ⟨?_, ?_, ?_, ?_, ?_, ?_⟩
  · intro time own path hmem hasks
    rw [hknown]
    rcases List.mem_append.mp hmem with hbefore | hlast
    · exact .inl (htracks.asked time own path hbefore hasks)
    · cases List.mem_singleton.mp hlast
      exact .inr hasks
  · intro own drv hcached path hinput
    rw [hcache] at hcached
    exact (hknown path).mpr (.inl (htracks.inputs own drv hcached path hinput))
  · intro path hpath
    rcases (hknown path).mp hpath with hbefore | hasks
    · exact (htracks.wanted path hbefore).mono (List.subset_append_left _ _)
    · exact .asked (List.mem_append_right _ List.mem_cons_self) hasks
  · rw [hcache]
    exact htracks.cached
  · rw [hcache, howners]
    exact htracks.owned
  · rw [hcache, howners]
    exact htracks.outputs

/-- An event that only moves what is known about. -/
theorem moved {after : ReadingForest} (htracks : Tracks reader records state)
    (hknown : ∀ path, after.Known path ↔ state.Known path)
    (hcache : after.read.drvCache = state.read.drvCache)
    (howners : after.read.forest.outputToDrv = state.read.forest.outputToDrv) :
    Tracks reader records after where
  asked now record path hmem hasks :=
    (hknown path).mpr (htracks.asked now record path hmem hasks)
  inputs own drv hcached path hinput := by
    rw [hcache] at hcached
    exact (hknown path).mpr (htracks.inputs own drv hcached path hinput)
  wanted path hpath := htracks.wanted path ((hknown path).mp hpath)
  cached := by
    rw [hcache]
    exact htracks.cached
  owned := by
    rw [hcache, howners]
    exact htracks.owned
  outputs := by
    rw [hcache, howners]
    exact htracks.outputs

theorem drvCache_read (own : String) (drv : Derivation) (path : String) :
    (state.feed fromStr (.read own drv)).read.drvCache[path]? =
      if own = path then some (some drv) else state.read.drvCache[path]? := by
  change (state.read.applyDerivation own drv).drvCache[path]? = _
  rw [ReadForest.drvCache_applyDerivation, Std.TreeMap.getElem?_insert]
  simp only [Std.LawfulEqCmp.compare_eq_iff_eq]

/-- A derivation in the cache is the one just read or was there before. -/
theorem drvCache_read_cases {own path : String} {drv : Derivation}
    {answer : Option Derivation}
    (hcached : (state.feed fromStr (.read own drv)).read.drvCache[path]? =
      some answer) :
    (own = path ∧ some drv = answer) ∨
      (own ≠ path ∧ state.read.drvCache[path]? = some answer) := by
  rw [drvCache_read] at hcached
  by_cases heq : own = path
  · rw [if_pos heq, Option.some.injEq] at hcached
    exact .inl ⟨heq, hcached⟩
  · rw [if_neg heq] at hcached
    exact .inr ⟨heq, hcached⟩

/-- A derivation that was read brings its inputs and its outputs. -/
theorem afterRead (htracks : Tracks reader records state) {own : String}
    {drv : Derivation} (hown : own ∈ state.handed)
    (hread : reader own = some drv) :
    Tracks reader records (state.feed fromStr (.read own drv)) := by
  have hknown (path : String) :
      (state.feed fromStr (.read own drv)).Known path ↔ _ :=
    ReadingForest.known_read hown path
  have howners (output : String) :
      (state.feed fromStr (.read own drv)).read.forest.outputToDrv[output]? =
        if output ∈ drv.outputs.values then some own
        else state.read.forest.outputToDrv[output]? :=
    state.read.outputToDrv_applyDerivation own drv output
  refine ⟨?_, ?_, ?_, ?_, ?_, ?_⟩
  · intro time record path hmem hasks
    exact (hknown path).mpr (.inl (htracks.asked time record path hmem hasks))
  · intro path answer hcached input hinput
    rw [hknown]
    rcases drvCache_read_cases hcached with ⟨rfl, hanswer⟩ | ⟨-, hbefore⟩
    · cases hanswer
      exact .inr hinput
    · exact .inl (htracks.inputs path answer hbefore input hinput)
  · intro path hpath
    rcases (hknown path).mp hpath with hbefore | hinput
    · exact htracks.wanted path hbefore
    · exact .input (htracks.wanted own (.inr (.inl hown))) hread hinput
  · intro path answer hcached
    rcases drvCache_read_cases hcached with ⟨rfl, hanswer⟩ | ⟨-, hbefore⟩
    · exact hread.trans hanswer
    · exact htracks.cached path answer hbefore
  · intro output path howned
    rw [howners] at howned
    by_cases houtput : output ∈ drv.outputs.values
    · rw [if_pos houtput, Option.some.injEq] at howned
      subst howned
      exact ⟨drv, by rw [drvCache_read, if_pos rfl], houtput⟩
    · rw [if_neg houtput] at howned
      obtain ⟨other, hother, hmem⟩ := htracks.owned output path howned
      by_cases heq : own = path
      · -- Read again, a derivation says the same.
        subst heq
        have hsame : some drv = some other :=
          hread.symm.trans (htracks.cached own _ hother)
        rw [Option.some.injEq] at hsame
        exact absurd (hsame ▸ hmem) houtput
      · exact ⟨other, by rw [drvCache_read, if_neg heq, hother], hmem⟩
  · intro path answer hcached output houtput
    rw [howners]
    split
    · exact Option.some_ne_none own
    · next hother =>
        rcases drvCache_read_cases hcached with ⟨-, hanswer⟩ | ⟨-, hbefore⟩
        · cases hanswer
          exact absurd houtput hother
        · exact htracks.outputs path answer hbefore output houtput

/-- A derivation that cannot be read brings nothing. -/
theorem afterUnread (htracks : Tracks reader records state) {own note : String}
    (hown : own ∈ state.handed) (hread : reader own = none) :
    Tracks reader records (state.feed fromStr (.unread own note)) := by
  have hknown (path : String) :
      (state.feed fromStr (.unread own note)).Known path ↔ _ :=
    ReadingForest.known_unread hown path
  have hcache (path : String) :
      (state.feed fromStr (.unread own note)).read.drvCache[path]? =
        if own = path then some none else state.read.drvCache[path]? := by
    change (state.read.drvCache.insert own none)[path]? = _
    rw [Std.TreeMap.getElem?_insert]
    simp only [Std.LawfulEqCmp.compare_eq_iff_eq]
  have hbefore {path : String} {drv : Derivation}
      (hcached : (state.feed fromStr (.unread own note)).read.drvCache[path]? =
        some (some drv)) :
      state.read.drvCache[path]? = some (some drv) := by
    rw [hcache] at hcached
    split at hcached
    · cases hcached
    · exact hcached
  refine ⟨?_, ?_, ?_, ?_, ?_, ?_⟩
  · intro time record path hmem hasks
    exact (hknown path).mpr (htracks.asked time record path hmem hasks)
  · intro path drv hcached input hinput
    exact (hknown input).mpr
      (htracks.inputs path drv (hbefore hcached) input hinput)
  · intro path hpath
    exact htracks.wanted path ((hknown path).mp hpath)
  · intro path answer hcached
    rw [hcache] at hcached
    split at hcached
    · next heq =>
        cases hcached
        exact heq ▸ hread
    · exact htracks.cached path answer hcached
  · intro output path howned
    obtain ⟨drv, hdrv, hmem⟩ := htracks.owned output path howned
    refine ⟨drv, ?_, hmem⟩
    rw [hcache, if_neg]
    · exact hdrv
    · rintro rfl
      have hsome := htracks.cached own _ hdrv
      rw [hread] at hsome
      cases hsome
  · intro path drv hcached
    exact htracks.outputs path drv (hbefore hcached)

/-- Every event keeps the reads and the records together. -/
theorem feed (htracks : Tracks reader records state)
    (hanswers : state.Answers reader event) :
    Tracks reader (records ++ recordsOf fromStr [event])
      (state.feed fromStr event) := by
  rw [recordsOf]
  cases hrecord : ReadForest.recordOf fromStr event with
  | some entry =>
      rw [List.filterMap_cons_some hrecord, List.filterMap_nil]
      exact htracks.afterRecord hrecord
  | none =>
      rw [List.filterMap_cons_none hrecord, List.filterMap_nil, List.append_nil]
      cases event with
      | line now text =>
          obtain ⟨hhanded, hcache, -, hpending, howners⟩ :=
            @ReadingForest.feed_quiet fromStr state now text hrecord
          refine htracks.moved (fun path => ?_) hcache howners
          rw [ReadingForest.Known, hhanded, hcache, hpending]
          rfl
      | record now record => cases hrecord
      | read own drv => exact htracks.afterRead hanswers.1 hanswers.2
      | unread own note => exact htracks.afterUnread hanswers.1 hanswers.2
      | take => exact htracks.moved ReadingForest.known_take rfl rfl

/-- Once all reads are applied, what was read is what the records lead to. -/
theorem mem_drvCache_iff (htracks : Tracks reader records state)
    (hcaught : state.CaughtUp) (path : String) :
    path ∈ state.read.drvCache ↔ Wanted reader records path := by
  have hread (path : String) (hknown : state.Known path) :
      path ∈ state.read.drvCache := by
    rcases hknown with hcached | hhanded | hpending
    · exact hcached
    · exact hcaught.handed path hhanded
    · exact hcaught.pending path hpending
  refine ⟨fun hcached => htracks.wanted path (.inl hcached), fun hwanted => ?_⟩
  induction hwanted with
  | asked hmem hasks => exact hread _ (htracks.asked _ _ _ hmem hasks)
  | @input own path drv _ hdrv hinput ih =>
      obtain ⟨answer, hanswer⟩ := Option.isSome_iff_exists.mp
        (Std.TreeMap.isSome_getElem?_iff_mem.mpr ih)
      have hsame := htracks.cached own answer hanswer
      rw [hdrv] at hsame
      subst hsame
      exact hread path (htracks.inputs own drv hanswer path hinput)

/-- The nodes the reads gave are the derivations wanted. -/
theorem entered_iff (htracks : Tracks reader records state)
    (hcaught : state.CaughtUp) (path : String) :
    state.Entered reader path ↔ Wanted reader records path := by
  constructor
  · rintro (hcached | ⟨own, drv, hcached, hread, hinput⟩)
    · exact htracks.wanted path (.inl hcached)
    · exact .input (htracks.wanted own (.inl hcached)) hread hinput
  · exact fun hwanted => .inl ((htracks.mem_drvCache_iff hcaught path).mpr hwanted)

end Tracks

end Mandala.Forest
