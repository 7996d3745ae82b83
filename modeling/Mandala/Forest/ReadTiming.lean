import Mandala.Forest.Reading

/-!
# When derivations are read

A transfer names an output, whose derivation is known only once its read is
applied; every other record names its derivations itself.  So a forest ends as
one that knew every output from the start, if no transfer starts or stops before
the read that it needs.
-/

namespace Mandala.Forest

open Mandala.Data Mandala.Transition

/-! ## Transfers in time -/

/-- A wanted derivation that has the output. -/
structure Owns (reader : String → Option Derivation) (wanted : String → Prop)
    (path output : String) : Prop where
  wanted : wanted path
  output : ∃ drv, reader path = some drv ∧ output ∈ drv.outputs.values

/-- The activity a record starts or stops. -/
def BuildForest.concerned (forest : BuildForest) (record : NixMessage) :
    Option ActiveActivity :=
  if record.action = "start" then record.id.map fun _ => activityOf record
  else if record.action = "stop" then record.id.bind (forest.activities[·]?)
  else none

/-- Whoever of the wanted derivations has the output of a transfer that starts
or stops, its read is applied, and no other has taken the output. -/
def Timely (reader : String → Option Derivation) (wanted : String → Prop)
    (forest : BuildForest) (record : NixMessage) : Prop :=
  ∀ activity output path, forest.concerned record = some activity →
    activity.kind.isTransfer → activity.path = some output →
      Owns reader wanted path output → forest.outputToDrv[output]? = some path

/-- An event that finds the reads it needs applied. -/
def ReadsInTime (fromStr : List Char → Option NixMessage)
    (reader : String → Option Derivation) (wanted : String → Prop)
    (before : ReadingForest)
    (event : ForestEvent) (after : ReadingForest) : Prop :=
  (∀ now record, ReadForest.recordOf fromStr event = some (now, record) →
      Timely reader wanted before.read.forest record) ∧
    Reads fromStr reader before event after

/-! ## A forest that knew every output -/

/-- The forest of a stream of records whose outputs are known from the start. -/
def foreseen (owners : BTreeMap String) (records : List (ℕ × NixMessage)) :
    BuildForest :=
  records.foldl (fun forest entry => forest.feedMessage entry.1 entry.2)
    { BuildForest.new with outputToDrv := owners }

theorem foreseen_snoc (owners : BTreeMap String)
    (records : List (ℕ × NixMessage)) (now : ℕ) (record : NixMessage) :
    foreseen owners (records ++ [(now, record)]) =
      (foreseen owners records).feedMessage now record := by
  rw [foreseen, List.foldl_append]
  rfl

theorem outputToDrv_foldl (forest : BuildForest)
    (records : List (ℕ × NixMessage)) :
    (records.foldl (fun forest entry => forest.feedMessage entry.1 entry.2)
      forest).outputToDrv = forest.outputToDrv := by
  induction records generalizing forest with
  | nil => rfl
  | cons entry records ih =>
      rw [List.foldl_cons, ih, BuildForest.outputToDrv_feedMessage]

theorem outputToDrv_foreseen (owners : BTreeMap String)
    (records : List (ℕ × NixMessage)) :
    (foreseen owners records).outputToDrv = owners :=
  outputToDrv_foldl _ records

namespace BuildForest

variable {left right : BuildForest} {record : NixMessage}

/-- A stop touches what its errand and the owner of its output say. -/
theorem stopTouch_congr {own other : ActiveActivity}
    (herrand : errand own = errand other)
    (howner : own.kind.isTransfer →
      left.derivationOf own = right.derivationOf other) (path : String) :
    left.stopTouch own path = right.stopTouch other path := by
  obtain ⟨hkind, hpath⟩ := Prod.mk.inj herrand
  rw [stopTouch.eq_def, stopTouch.eq_def, ← hkind, ← hpath]
  cases hown : own.kind with
  | copyPath | fileTransfer | substitute =>
      dsimp only
      rw [howner (by rw [hown]; rfl)]
  | _ => rfl

theorem startTouch_congr {activity : ActiveActivity}
    (howner : activity.kind.isTransfer →
      left.derivationOf activity = right.derivationOf activity)
    (path : String) :
    left.startTouch activity path = right.startTouch activity path := by
  rw [startTouch.eq_def, startTouch.eq_def]
  cases hown : activity.kind with
  | copyPath | fileTransfer | substitute =>
      dsimp only
      rw [howner (by rw [hown]; rfl)]
  | _ => rfl

/-- Two forests with the same errands under way are touched alike, if the
output concerned has the same owner in both. -/
theorem touch_congr (herrands : ∀ id, left.errandOf id = right.errandOf id)
    (howners : ∀ activity, left.concerned record = some activity →
      activity.kind.isTransfer →
        left.derivationOf activity = right.derivationOf activity)
    (path : String) : left.touch record path = right.touch record path := by
  rw [concerned] at howners
  rw [touch, touch]
  by_cases hstart : record.action = "start"
  · rw [if_pos hstart] at howners ⊢
    rw [if_pos hstart]
    cases hid : record.id with
    | none => rfl
    | some id =>
        rw [hid] at howners
        exact startTouch_congr (howners _ rfl) path
  · rw [if_neg hstart] at howners ⊢
    rw [if_neg hstart]
    by_cases hstop : record.action = "stop"
    · rw [if_pos hstop] at howners ⊢
      rw [if_pos hstop]
      cases hid : record.id with
      | none => rfl
      | some id =>
          have herrand := herrands id
          rw [hid, Option.bind_some] at howners
          rw [Option.bind_some, Option.bind_some]
          rw [errandOf, errandOf] at herrand
          cases hown : left.activities[id]? with
          | none =>
              rw [hown, Option.map_none] at herrand
              rw [Option.map_eq_none_iff.mp herrand.symm]
              rfl
          | some own =>
              rw [hown, Option.map_some] at herrand
              obtain ⟨other, hother, hsame⟩ :=
                Option.map_eq_some_iff.mp herrand.symm
              rw [hother, Option.bind_some, Option.bind_some]
              refine stopTouch_congr hsame.symm (fun htransfer => ?_) path
              have hpath : own.path = other.path := (Prod.mk.inj hsame).2.symm
              rw [howners own hown htransfer, derivationOf, derivationOf, hpath]
    · rw [if_neg hstop, if_neg hstop]

theorem toldPath_congr (herrands : ∀ id, left.errandOf id = right.errandOf id) :
    left.toldPath record = right.toldPath record := by
  have hsame : left.errandOf = right.errandOf := funext herrands
  rw [toldPath, toldPath, hsame]

end BuildForest

/-- The outputs are owned as the reads of the wanted derivations say. -/
structure OwnedBy (reader : String → Option Derivation)
    (wanted : String → Prop) (owners : BTreeMap String) : Prop where
  owns : ∀ (output path : String), owners[output]? = some path →
    Owns reader wanted path output
  known : ∀ output path, Owns reader wanted path output →
    owners[output]? ≠ none

/-- A forest is as the one that knew every output, but for the nodes its reads
gave it. -/
structure Follows (reader : String → Option Derivation)
    (state : ReadingForest) (seer : BuildForest) : Prop where
  errands : ∀ id, state.read.forest.errandOf id = seer.errandOf id
  lives : ∀ path, state.read.forest.life path = seer.life path
  nodes : ∀ path, path ∈ state.read.forest.nodes ↔
    path ∈ seer.nodes ∨ state.Entered reader path

section Following
variable {fromStr : List Char → Option NixMessage}
  {reader : String → Option Derivation} {wanted : String → Prop}
  {owners : BTreeMap String} {records : List (ℕ × NixMessage)}
  {state : ReadingForest} {event : ForestEvent} {now : ℕ} {record : NixMessage}

theorem follows_start (durations : BTreeMap ℕ) (owners : BTreeMap String) :
    Follows reader (.start durations) (foreseen owners []) where
  errands _ := rfl
  lives _ := rfl
  nodes path := by
    refine (or_iff_left ?_).symm
    rintro (hcached | ⟨own, drv, hcached, -⟩)
    · exact absurd hcached Std.TreeMap.not_mem_emptyc
    · exact absurd hcached Std.TreeMap.not_mem_emptyc

/-- In time, a transfer finds the owner its output has in the end. -/
theorem derivationOf_eq (htracks : Tracks reader records state)
    (hwanted : ∀ path, Wanted reader records path → wanted path)
    (howned : OwnedBy reader wanted owners)
    (htimely : Timely reader wanted state.read.forest record)
    {seer : BuildForest} (hseer : seer.outputToDrv = owners)
    {activity : ActiveActivity}
    (hconcerned : state.read.forest.concerned record = some activity)
    (htransfer : activity.kind.isTransfer) :
    state.read.forest.derivationOf activity = seer.derivationOf activity := by
  rw [BuildForest.derivationOf, BuildForest.derivationOf, hseer]
  cases hpath : activity.path with
  | none => rfl
  | some output =>
      rw [Option.bind_some, Option.bind_some]
      cases hfinal : owners[output]? with
      | some path =>
          exact htimely activity output path hconcerned htransfer hpath
            (howned.owns output path hfinal)
      | none =>
          cases hnow : state.read.forest.outputToDrv[output]? with
          | none => rfl
          | some path =>
              obtain ⟨drv, hcached, hmem⟩ := htracks.owned output path hnow
              have hcacheMem : path ∈ state.read.drvCache := by
                rw [← Std.TreeMap.isSome_getElem?_iff_mem, hcached]
                rfl
              have howns : Owns reader wanted path output :=
                ⟨hwanted path (htracks.wanted path (.inl hcacheMem)),
                  drv, htracks.cached path _ hcached, hmem⟩
              exact absurd hfinal (howned.known output path howns)

/-- A record in time is followed. -/
theorem Follows.afterRecord
    (hfollows : Follows reader state (foreseen owners records))
    (htracks : Tracks reader records state)
    (hwanted : ∀ path, Wanted reader records path → wanted path)
    (howned : OwnedBy reader wanted owners)
    (hrecord : ReadForest.recordOf fromStr event = some (now, record))
    (htimely : Timely reader wanted state.read.forest record) :
    Follows reader (state.feed fromStr event)
      (foreseen owners (records ++ [(now, record)])) := by
  have htouch := BuildForest.touch_congr hfollows.errands
    fun activity hconcerned htransfer =>
      derivationOf_eq htracks hwanted howned htimely
        (outputToDrv_foreseen owners records) hconcerned htransfer
  have htold : state.read.forest.toldPath record =
      (foreseen owners records).toldPath record :=
    BuildForest.toldPath_congr hfollows.errands
  rw [foreseen_snoc, ReadingForest.feed_record hrecord]
  refine ⟨?_, ?_, ?_⟩
  · intro id
    dsimp only
    rw [BuildForest.errandOf_feedMessage, BuildForest.errandOf_feedMessage,
      hfollows.errands]
  · intro path
    dsimp only
    rw [BuildForest.life_feedMessage, BuildForest.life_feedMessage, htouch,
      hfollows.lives]
  · intro path
    change _ ↔ _ ∨ state.Entered reader path
    dsimp only
    rw [BuildForest.mem_feedMessage, BuildForest.mem_feedMessage,
      BuildForest.Names, BuildForest.Names, htouch, htold, hfollows.nodes,
      or_right_comm]

theorem mem_drvCache_insert {cache : BTreeMap (Option Derivation)}
    {own path : String} {answer : Option Derivation} :
    path ∈ cache.insert own answer ↔ path ∈ cache ∨ own = path := by
  rw [Std.TreeMap.mem_insert, Std.LawfulEqCmp.compare_eq_iff_eq, or_comm]

/-- A read brings a node for its derivation and one for each input. -/
theorem entered_read {own : String} {drv : Derivation}
    (hread : reader own = some drv) (path : String) :
    (state.feed fromStr (.read own drv)).Entered reader path ↔
      state.Entered reader path ∨ own = path ∨ path ∈ drv.inputDrvs.keys := by
  have hcache : (state.feed fromStr (.read own drv)).read.drvCache =
      state.read.drvCache.insert own (some drv) :=
    state.read.drvCache_applyDerivation own drv
  rw [ReadingForest.Entered, ReadingForest.Entered, hcache]
  simp only [mem_drvCache_insert]
  constructor
  · rintro ((hcached | rfl) | ⟨other, found, hcached | rfl, hother, hinput⟩)
    · exact .inl (.inl hcached)
    · exact .inr (.inl rfl)
    · exact .inl (.inr ⟨other, found, hcached, hother, hinput⟩)
    · cases hread.symm.trans hother
      exact .inr (.inr hinput)
  · rintro ((hcached | ⟨other, found, hcached, hother, hinput⟩) | rfl | hinput)
    · exact .inl (.inl hcached)
    · exact .inr ⟨other, found, .inl hcached, hother, hinput⟩
    · exact .inl (.inr rfl)
    · exact .inr ⟨own, drv, .inr rfl, hread, hinput⟩

theorem entered_unread {own note : String} (hread : reader own = none)
    (path : String) :
    (state.feed fromStr (.unread own note)).Entered reader path ↔
      state.Entered reader path ∨ own = path := by
  have hcache : (state.feed fromStr (.unread own note)).read.drvCache =
      state.read.drvCache.insert own none := rfl
  rw [ReadingForest.Entered, ReadingForest.Entered, hcache]
  simp only [mem_drvCache_insert]
  constructor
  · rintro ((hcached | rfl) | ⟨other, found, hcached | rfl, hother, hinput⟩)
    · exact .inl (.inl hcached)
    · exact .inr rfl
    · exact .inl (.inr ⟨other, found, hcached, hother, hinput⟩)
    · cases hread.symm.trans hother
  · rintro ((hcached | ⟨other, found, hcached, hother, hinput⟩) | rfl)
    · exact .inl (.inl hcached)
    · exact .inr ⟨other, found, .inl hcached, hother, hinput⟩
    · exact .inl (.inr rfl)

/-- What brings no record brings no more than the nodes of a read. -/
theorem Follows.afterRead {seer : BuildForest}
    (hfollows : Follows reader state seer)
    (hanswers : state.Answers reader event)
    (hrecord : ReadForest.recordOf fromStr event = none) :
    Follows reader (state.feed fromStr event) seer := by
  obtain ⟨hlives, hactivities⟩ := state.read.keepsLives_feed hrecord
  refine ⟨?_, fun path => (hlives path).trans (hfollows.lives path), ?_⟩
  · intro id
    rw [← hfollows.errands, BuildForest.errandOf, BuildForest.errandOf]
    exact congrArg (fun activities => (activities[id]?).map BuildForest.errand)
      hactivities
  · intro path
    cases event with
    | line now text =>
        obtain ⟨-, hcache, hnodes, -, -⟩ :=
          @ReadingForest.feed_quiet fromStr state now text hrecord
        rw [hnodes, ReadingForest.Entered, hcache]
        exact hfollows.nodes path
    | record now record => cases hrecord
    | read own drv =>
        rw [entered_read hanswers.2, ← or_assoc, ← hfollows.nodes]
        exact state.read.mem_applyDerivation own drv path
    | unread own note =>
        rw [entered_unread hanswers.2, ← or_assoc, ← hfollows.nodes]
        exact state.read.mem_applyDerivationError own note path
    | take => exact hfollows.nodes path

theorem recordsOf_snoc (events : List ForestEvent) (event : ForestEvent) :
    recordsOf fromStr (events ++ [event]) =
      recordsOf fromStr events ++ recordsOf fromStr [event] :=
  List.filterMap_append

/-- Every run in time follows the forest that knew every output. -/
theorem follows_of_run (durations : BTreeMap ℕ)
    (howned : OwnedBy reader wanted owners) {events : List ForestEvent}
    {final : ReadingForest}
    (hrun : Run (ReadsInTime fromStr reader wanted) (.start durations) events
      final)
    (hwanted : ∀ path, Wanted reader (recordsOf fromStr events) path →
      wanted path) :
    Tracks reader (recordsOf fromStr events) final ∧
      Follows reader final (foreseen owners (recordsOf fromStr events)) := by
  induction hrun with
  | nil => exact ⟨.start durations, follows_start durations owners⟩
  | @snoc labels before after event hrun hstep ih =>
      obtain ⟨htimely, hanswers, rfl⟩ := hstep
      have hwantedBefore (path : String)
          (hpath : Wanted reader (recordsOf fromStr labels) path) :
          wanted path := by
        apply hwanted
        rw [recordsOf_snoc]
        exact hpath.mono (List.subset_append_left _ _)
      obtain ⟨htracks, hfollows⟩ := ih hwantedBefore
      rw [recordsOf_snoc]
      refine ⟨htracks.feed hanswers, ?_⟩
      rw [recordsOf.eq_def fromStr [event]]
      cases hrecord : ReadForest.recordOf fromStr event with
      | none =>
          rw [List.filterMap_cons_none hrecord, List.filterMap_nil,
            List.append_nil]
          exact hfollows.afterRead hanswers hrecord
      | some entry =>
          obtain ⟨now, record⟩ := entry
          rw [List.filterMap_cons_some hrecord, List.filterMap_nil]
          exact hfollows.afterRecord htracks hwantedBefore howned hrecord
            (htimely now record hrecord)

/-- A plain run tracks its records. -/
theorem tracks_of_run (durations : BTreeMap ℕ) {events : List ForestEvent}
    {final : ReadingForest}
    (hrun : Run (ReadsInTime fromStr reader wanted) (.start durations) events
      final) : Tracks reader (recordsOf fromStr events) final := by
  induction hrun with
  | nil => exact .start durations
  | snoc _ hstep ih =>
      obtain ⟨-, hanswers, rfl⟩ := hstep
      rw [recordsOf_snoc]
      exact ih.feed hanswers

/-- In the end the outputs are owned as the wanted derivations say. -/
theorem Tracks.ownedBy (htracks : Tracks reader records state)
    (hcaught : state.CaughtUp) :
    OwnedBy reader (Wanted reader records)
      state.read.forest.outputToDrv where
  owns output path howned := by
    obtain ⟨drv, hcached, hmem⟩ := htracks.owned output path howned
    refine ⟨htracks.wanted path (.inl ?_), drv, htracks.cached path _ hcached,
      hmem⟩
    rw [← Std.TreeMap.isSome_getElem?_iff_mem, hcached]
    rfl
  known output path howns := by
    obtain ⟨hwanted, drv, hread, hmem⟩ := howns
    have hcached := (htracks.mem_drvCache_iff hcaught path).mpr hwanted
    obtain ⟨answer, hanswer⟩ := Option.isSome_iff_exists.mp
      (Std.TreeMap.isSome_getElem?_iff_mem.mpr hcached)
    have hsame := htracks.cached path answer hanswer
    rw [hread] at hsame
    subst hsame
    exact htracks.outputs path drv hanswer output hmem

end Following

/-! ## Statuses and counts -/

/-- The paths and statuses of all nodes. -/
def statuses (read : ReadForest) : List (String × DerivationStatus) :=
  read.forest.nodes.toList.map fun entry => (entry.1, entry.2.status)

theorem mem_statuses {read : ReadForest} {path : String}
    {status : DerivationStatus} :
    (path, status) ∈ statuses read ↔
      (read.forest.nodes[path]?).map NodeState.status = some status := by
  rw [statuses, List.mem_map, Option.map_eq_some_iff]
  constructor
  · rintro ⟨⟨own, node⟩, hmem, heq⟩
    cases heq
    exact ⟨node, Std.TreeMap.mem_toList_iff_getElem?_eq_some.mp hmem, rfl⟩
  · rintro ⟨node, hnode, rfl⟩
    exact ⟨(path, node), Std.TreeMap.mem_toList_iff_getElem?_eq_some.mpr hnode,
      rfl⟩

theorem nodup_statuses (read : ReadForest) : (statuses read).Nodup := by
  refine List.Pairwise.map _ ?_ Std.TreeMap.distinct_keys_toList
  rintro ⟨left, _⟩ ⟨right, _⟩ hdistinct heq
  exact hdistinct (by rw [(Prod.mk.inj heq).1]; exact Std.ReflCmp.compare_self)

theorem countP_derivationNodes (read : ReadForest) (elapsedMs : ℕ)
    (status : DerivationStatus) :
    (read.derivationNodes elapsedMs).countP (·.status = status) =
      (statuses read).countP (·.2 = status) := by
  rw [ReadForest.derivationNodes, statuses, List.countP_map, List.countP_map]
  rfl

/-- Forests whose nodes have the same statuses count the same. -/
theorem counts_congr {left right : ReadingForest}
    (hsame : ∀ path, left.statusOf path = right.statusOf path)
    (leftMs rightMs : ℕ) : left.counts leftMs = right.counts rightMs := by
  have hperm : (statuses left.read).Perm (statuses right.read) := by
    rw [List.perm_ext_iff_of_nodup (nodup_statuses _) (nodup_statuses _)]
    rintro ⟨path, status⟩
    rw [mem_statuses, mem_statuses]
    exact Eq.congr_left (hsame path)
  have hcount (status : DerivationStatus) :
      (left.read.derivationNodes leftMs).countP (·.status = status) =
        (right.read.derivationNodes rightMs).countP (·.status = status) := by
    rw [countP_derivationNodes, countP_derivationNodes]
    exact hperm.countP_eq _
  rw [ReadingForest.counts, ReadingForest.counts]
  change countNodes (left.read.derivationNodes leftMs) =
    countNodes (right.read.derivationNodes rightMs)
  rw [countNodes, countNodes]
  simp only [hcount]

/-- Nodes that are there alike and live alike have the same status. -/
theorem statusOf_congr {left right : ReadingForest} {path : String}
    (hnodes : path ∈ left.read.forest.nodes ↔ path ∈ right.read.forest.nodes)
    (hlives : left.read.forest.life path = right.read.forest.life path) :
    left.statusOf path = right.statusOf path := by
  have hstatus (state : ReadingForest)
      (hmem : path ∈ state.read.forest.nodes) :
      state.statusOf path = some (state.read.forest.life path).status := by
    obtain ⟨node, hnode⟩ := Option.isSome_iff_exists.mp
      (Std.TreeMap.isSome_getElem?_iff_mem.mpr hmem)
    rw [ReadingForest.statusOf, BuildForest.life,
      Std.TreeMap.getD_eq_getD_getElem?, hnode]
    rfl
  have hmissing (state : ReadingForest)
      (hmem : path ∉ state.read.forest.nodes) : state.statusOf path = none := by
    rw [ReadingForest.statusOf, Std.TreeMap.getElem?_eq_none hmem]
    rfl
  by_cases hmem : path ∈ left.read.forest.nodes
  · rw [hstatus left hmem, hstatus right (hnodes.mp hmem), hlives]
  · rw [hmissing left hmem, hmissing right fun hright =>
      hmem (hnodes.mpr hright)]

/-- **Read timing.** However the reads of one stream are interleaved with its
records, the statuses and the counts end the same, as long as every transfer
starts and stops with its output's derivation read. -/
theorem statuses_independent (fromStr : List Char → Option NixMessage)
    (reader : String → Option Derivation) (durations : BTreeMap ℕ)
    (leftEvents rightEvents : List ForestEvent) (left right : ReadingForest)
    (hstream : recordsOf fromStr leftEvents = recordsOf fromStr rightEvents)
    (hleft : Run (ReadsInTime fromStr reader
      (Wanted reader (recordsOf fromStr leftEvents))) (.start durations)
        leftEvents left)
    (hright : Run (ReadsInTime fromStr reader
      (Wanted reader (recordsOf fromStr rightEvents))) (.start durations)
        rightEvents right)
    (hleftDone : left.CaughtUp) (hrightDone : right.CaughtUp) :
    (∀ path, left.statusOf path = right.statusOf path) ∧
      ∀ leftMs rightMs, left.counts leftMs = right.counts rightMs := by
  have howned := (tracks_of_run durations hleft).ownedBy hleftDone
  obtain ⟨hleftTracks, hleftFollows⟩ :=
    follows_of_run durations howned hleft fun _ => id
  rw [← hstream] at hright
  obtain ⟨hrightTracks, hrightFollows⟩ :=
    follows_of_run durations howned hright fun path hwanted => hstream ▸ hwanted
  rw [← hstream] at hrightTracks hrightFollows
  have hsame (path : String) : left.statusOf path = right.statusOf path := by
    refine statusOf_congr ?_ ?_
    · rw [hleftFollows.nodes, hrightFollows.nodes,
        hleftTracks.entered_iff hleftDone, hrightTracks.entered_iff hrightDone]
    · rw [hleftFollows.lives, hrightFollows.lives]
  exact ⟨hsame, counts_congr hsame⟩

/-! ### A copy that is over before its derivation is read -/

def planRecord : NixMessage :=
  { action := "msg", id := none, level := some 3, typeCode := none, text := none
    msg := some "/nix/store/web.drv", rawMsg := none, fields := [] }

def activityRecord (action : String) (typeCode : Int) (path : String) :
    NixMessage :=
  { action, id := some 1, level := none, typeCode := some typeCode, text := none
    msg := none, rawMsg := none, fields := [.string path] }

def webDerivation : Derivation :=
  { outputs := (∅ : BTreeMap String).insert "out" "/nix/store/web"
    inputDrvs := ∅ }

def webReader (path : String) : Option Derivation :=
  if path = "/nix/store/web.drv" then some webDerivation else none

/-- The read of the derivation, handed out and applied at once. -/
def readWeb : List ForestEvent :=
  [.take, .read "/nix/store/web.drv" webDerivation]

/-- A copy of the output, from its start to its stop. -/
def copyWeb : List ForestEvent :=
  [.record 1 (activityRecord "start" 100 "/nix/store/web"),
    .record 2 (activityRecord "stop" 100 "/nix/store/web")]

def buildWeb : List ForestEvent :=
  [.record 1 (activityRecord "start" 105 "/nix/store/web.drv")]

def runWeb (events : List ForestEvent) : ReadingForest :=
  (.record 0 planRecord :: events).foldl (·.feed unparsed ·) (.start ∅)

theorem caughtUp_of_lists {state : ReadingForest}
    (hhanded : ∀ path ∈ state.handed, path ∈ state.read.drvCache)
    (hpending : ∀ path ∈ state.read.forest.pendingDrvs.toList,
      path ∈ state.read.drvCache) : state.CaughtUp :=
  ⟨hhanded, fun path hpath => hpending path (Std.TreeSet.mem_toList.mpr hpath)⟩

/-- Only transfers have to wait. -/
theorem timely_of_not_transfer {reader : String → Option Derivation}
    {wanted : String → Prop} {forest : BuildForest} {record : NixMessage}
    (hother : ∀ activity, forest.concerned record = some activity →
      activity.kind.isTransfer = false) :
    Timely reader wanted forest record := by
  intro activity output path hconcerned htransfer
  rw [hother activity hconcerned] at htransfer
  exact absurd htransfer Bool.false_ne_true

section Steps
variable {wanted : String → Prop} {before : ReadingForest}

theorem readsInTime_plan : ReadsInTime unparsed webReader wanted before
    (.record 0 planRecord) (before.feed unparsed (.record 0 planRecord)) := by
  refine ⟨?_, trivial, rfl⟩
  rintro now record ⟨rfl, rfl⟩
  exact timely_of_not_transfer fun _ hconcerned => nomatch hconcerned

theorem readsInTime_build : ReadsInTime unparsed webReader wanted before
    (.record 1 (activityRecord "start" 105 "/nix/store/web.drv"))
    (before.feed unparsed
      (.record 1 (activityRecord "start" 105 "/nix/store/web.drv"))) := by
  refine ⟨?_, trivial, rfl⟩
  rintro now record ⟨rfl, rfl⟩
  refine timely_of_not_transfer fun activity hconcerned => ?_
  cases hconcerned
  rfl

theorem readsInTime_take : ReadsInTime unparsed webReader wanted before .take
    (before.feed unparsed .take) := by
  refine ⟨?_, trivial, rfl⟩
  intro now record hrecord
  cases hrecord

theorem readsInTime_read (hhanded : "/nix/store/web.drv" ∈ before.handed) :
    ReadsInTime unparsed webReader wanted before
      (.read "/nix/store/web.drv" webDerivation)
      (before.feed unparsed (.read "/nix/store/web.drv" webDerivation)) := by
  refine ⟨?_, ⟨hhanded, rfl⟩, rfl⟩
  intro now record hrecord
  cases hrecord

end Steps

theorem statuses_independent_build :
    (∀ path, (runWeb (readWeb ++ buildWeb)).statusOf path =
        (runWeb (buildWeb ++ readWeb)).statusOf path) ∧
      ∀ leftMs rightMs, (runWeb (readWeb ++ buildWeb)).counts leftMs =
        (runWeb (buildWeb ++ readWeb)).counts rightMs :=
  statuses_independent unparsed webReader ∅
    (.record 0 planRecord :: (readWeb ++ buildWeb))
    (.record 0 planRecord :: (buildWeb ++ readWeb)) _ _ rfl
    ((((Run.nil.snoc readsInTime_plan).snoc readsInTime_take).snoc
      (readsInTime_read (by decide +kernel))).snoc readsInTime_build)
    ((((Run.nil.snoc readsInTime_plan).snoc readsInTime_build).snoc
      readsInTime_take).snoc (readsInTime_read (by decide +kernel)))
    (caughtUp_of_lists (by decide +kernel) (by decide +kernel))
    (caughtUp_of_lists (by decide +kernel) (by decide +kernel))

/-- A copy that stops before the read leaves its derivation planned. -/
theorem statuses_not_independent :
    ¬ ∀ leftEvents rightEvents left right,
      recordsOf unparsed leftEvents = recordsOf unparsed rightEvents →
      Run (Reads unparsed webReader) (.start ∅) leftEvents left →
      Run (Reads unparsed webReader) (.start ∅) rightEvents right →
      left.CaughtUp → right.CaughtUp →
        ∀ path, left.statusOf path = right.statusOf path := by
  intro hindependent
  have hsame := hindependent (.record 0 planRecord :: (readWeb ++ copyWeb))
    (.record 0 planRecord :: (copyWeb ++ readWeb))
    (runWeb (readWeb ++ copyWeb)) (runWeb (copyWeb ++ readWeb)) rfl
    ((((Run.nil.snoc ⟨trivial, rfl⟩).snoc ⟨trivial, rfl⟩).snoc
      ⟨⟨by decide +kernel, rfl⟩, rfl⟩).snoc ⟨trivial, rfl⟩ |>.snoc
        ⟨trivial, rfl⟩)
    ((((Run.nil.snoc ⟨trivial, rfl⟩).snoc ⟨trivial, rfl⟩).snoc
      ⟨trivial, rfl⟩).snoc ⟨trivial, rfl⟩ |>.snoc
        ⟨⟨by decide +kernel, rfl⟩, rfl⟩)
    (caughtUp_of_lists (by decide +kernel) (by decide +kernel))
    (caughtUp_of_lists (by decide +kernel) (by decide +kernel))
    "/nix/store/web.drv"
  have hbuilt : (runWeb (readWeb ++ copyWeb)).statusOf "/nix/store/web.drv" =
      some .built := by decide +kernel
  have hplanned : (runWeb (copyWeb ++ readWeb)).statusOf "/nix/store/web.drv" =
      some .planned := by decide +kernel
  rw [hbuilt, hplanned] at hsame
  cases hsame

end Mandala.Forest
