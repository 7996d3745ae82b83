import Mandala.Core.Text
import Mandala.Core.Transition
import Mandala.Registry.Liveness

/-!
# One status snapshot of a deploy run

`run_snapshot` polls the event streams, renders the hosts, and only then asks
for the liveness verdict, which reads the payload again, looks at the recorded
processes and polls a second time.  The engine appends and publishes between
any two of these reads.
-/

namespace Mandala.Server.RunStatus

open Mandala.Data Mandala.Events Mandala.Registry Mandala.Tailer
open Mandala.Text Mandala.Transition

variable (parse : String → Option Json)

/-- What launched into the run directory. -/
def runKind (info : Meta) : String :=
  (info["kind"]?.bind Json.asStr).getD "deploy"

/-- `HOST_RAW_TAIL`. -/
def hostRawTail : ℕ := 200

inductive SnapshotDetail where
  | listing
  | full (forest forestNodes diagnostics : Bool)
  deriving DecidableEq, Repr

namespace SnapshotDetail

def isFull : SnapshotDetail → Bool
  | listing => false
  | full .. => true

def forest : SnapshotDetail → Bool
  | listing => false
  | full forest _ _ => forest

def diagnostics : SnapshotDetail → Bool
  | listing => false
  | full _ _ diagnostics => diagnostics

end SnapshotDetail

structure HostEntry where
  state : HostState
  rc : Option Int
  milestones : Option (List String)
  rawTail : Option (List String)
  rawLinesTotal : Option ℕ
  deriving DecidableEq, Repr

/-- One host's entry; only a failed or rolled-back host carries its raw tail. -/
def hostEntry (detail : SnapshotDetail) (run : HostRun) : HostEntry :=
  let triage := detail.isFull && (run.state = .failed || run.state = .rolledBack)
  { state := run.state
    rc := run.rc
    milestones := if detail.diagnostics then some run.milestones else none
    rawTail :=
      if triage then some (run.lines.drop (run.lines.length - hostRawTail))
      else none
    rawLinesTotal := if triage then some run.lines.length else none }

/-- What a snapshot holds before it asks for the verdict: the hosts as rendered
and a clone of the build model. -/
structure Shown where
  detail : SnapshotDetail
  hosts : BTreeMap HostEntry
  build : BuildModel

def render (detail : SnapshotDetail) (streams : Streams) : Shown :=
  { detail
    hosts := streams.hosts.map fun _ run => hostEntry detail run
    build := streams.build }

def Shown.states (shown : Shown) : List HostState :=
  shown.hosts.values.map HostEntry.state

/-- The keys `curated_meta` keeps. -/
def curatedKeys : List String :=
  ["summary", "rc", "process_rc", "build_rc", "limit", "dry_activate", "boot",
    "throttle", "pid", "started_at", "finished_at", "error"]

def curatedMeta (info : Meta) : Meta :=
  info.filter fun key _ => key ∈ curatedKeys

/-- The result of the tool.  `forest` holds the lines the build forest in it was
fed. -/
structure Snapshot where
  shown : Shown
  payload : Meta
  liveness : RunLiveness
  phase : String
  forest : Option (List String)

def snapshotPhase (shown : Shown) (liveness : RunLiveness) : String :=
  if liveness ≠ .running then "done"
  else if shown.hosts.isEmpty then "batch-build"
  else "fan-out"

/-- The snapshot once the verdict is in, with the streams as they are then. -/
def Shown.finish (shown : Shown) (info : Meta) (streams : Streams)
    (liveness : RunLiveness) : Snapshot :=
  { shown
    payload := if shown.detail.diagnostics then info else curatedMeta info
    liveness
    phase := snapshotPhase shown liveness
    forest := if shown.detail.forest then some streams.nixlog else none }

/-! ## The reads of one snapshot -/

/-- Which test of `liveness` gave the verdict. -/
inductive Basis where
  | supervisor
  | process
  | streams
  deriving DecidableEq, Repr

/-- Where a call of `run_snapshot` stands.  `polling` and `repolling` hold the
files still to be read, as the directory listed them. -/
inductive Phase where
  | idle
  | polling (detail : SnapshotDetail) (files : List String)
  | readingMeta (shown : Shown)
  | checkingSupervisor (shown : Shown)
  | checkingPid (shown : Shown)
  | repolling (shown : Shown) (files : List String)
  | returned (snapshot : Snapshot) (basis : Basis)

/-- The run directory and the processes, an observer of the run, and every line
the observer has routed. -/
structure World where
  directory : RunDirectory
  processes : Int → Bool
  info : Meta
  tailer : EventTailer
  routed : List Routed
  phase : Phase

inductive Label where
  | append (file : String) (chunk : List UInt8)
  | writeMeta (payload : Meta)
  | process (pid : Int) (alive : Bool)
  | begin (detail : SnapshotDetail)
  | readFile
  | readMeta
  | checkSupervisor
  | checkPid

/-- The event files a poll lists, in the order it reads them. -/
def listed (events : Directory) : List String :=
  (eventFiles events).map Prod.fst

/-- The complete lines of a file that the reader has not routed yet. -/
def unreadLines (events : Directory) (tailer : EventTailer) (file : String) :
    List String :=
  match events[file]? with
  | some content =>
      let offset := tailer.offsets[file]?.getD 0
      (readRecords (content.drop offset) offset).2
  | none => []

/-- One file of a poll; a file that cannot be opened is passed over. -/
def readFile (events : Directory) (state : EventTailer × List Routed)
    (file : String) : EventTailer × List Routed :=
  match events[file]? with
  | some content => pollFile parse state (file, content)
  | none => state

namespace World

def read (world : World) (file : String) : World :=
  let state :=
    RunStatus.readFile parse world.directory.events
      (world.tailer, world.routed) file
  { world with tailer := state.1, routed := state.2 }

/-- The verdict read off the streams, once no recorded process is left. -/
def settledLiveness (world : World) : RunLiveness :=
  ObservedRun.settledLiveness
    { directory := { world.directory with payload := world.info }
      tailer := world.tailer }

def returns (world : World) (shown : Shown) (liveness : RunLiveness)
    (basis : Basis) : World :=
  { world with
    phase := .returned
      (shown.finish world.info world.tailer.streams liveness) basis }

/-- The hosts are rendered when the first poll has read its last file, and the
verdict falls when the second has. -/
def readNext (world : World) : Option World :=
  match world.phase with
  | .polling detail (file :: files) =>
      some { world.read parse file with phase := .polling detail files }
  | .polling detail [] =>
      some { world with
        phase := .readingMeta (render detail world.tailer.streams) }
  | .repolling shown (file :: files) =>
      some { world.read parse file with phase := .repolling shown files }
  | .repolling shown [] =>
      some (world.returns shown world.settledLiveness .streams)
  | _ => none

/-- A snapshot begins by listing the event files; that of a command run, which
shows no hosts, is `command_snapshot`'s. -/
def begins (world : World) (detail : SnapshotDetail) : Option World :=
  if runKind world.info = "deploy" then
    match world.phase with
    | .idle | .returned _ _ =>
        some { world with
          phase := .polling detail (listed world.directory.events) }
    | _ => none
  else none

def readMeta (world : World) : Option World :=
  match world.phase with
  | .readingMeta shown =>
      some { world with
        info := world.directory.payload
        phase := .checkingSupervisor shown }
  | _ => none

def checkSupervisor (world : World) : Option World :=
  match world.phase with
  | .checkingSupervisor shown =>
      if world.info["rc"]? = none ∧
          supervisorGone world.processes world.info then
        some (world.returns shown .failed .supervisor)
      else some { world with phase := .checkingPid shown }
  | _ => none

/-- A live pid ends the call; otherwise the second poll begins. -/
def checkPid (world : World) : Option World :=
  match world.phase with
  | .checkingPid shown =>
      if pidAlive world.processes (world.info.getI64 "pid") then
        some (world.returns shown .running .process)
      else
        some { world with
          phase := .repolling shown (listed world.directory.events) }
  | _ => none

def act (world : World) : Label → Option World
  | .append file chunk =>
      some { world with
        directory := { world.directory with
          events := world.directory.events.insert file
            (world.directory.events[file]?.getD [] ++ chunk) } }
  | .writeMeta payload =>
      some { world with directory := { world.directory with payload } }
  | .process pid alive =>
      some { world with processes := Function.update world.processes pid alive }
  | .begin detail => world.begins detail
  | .readFile => world.readNext parse
  | .readMeta => world.readMeta
  | .checkSupervisor => world.checkSupervisor
  | .checkPid => world.checkPid

end World

def step (before : World) (label : Label) (after : World) : Prop :=
  before.act parse label = some after

/-- `open_run`, over whatever the run directory holds by then. -/
def start (world : World) : Prop :=
  world.info = world.directory.payload ∧ world.tailer = EventTailer.new ∧
    world.routed = [] ∧ world.phase = .idle

/-! ## What a snapshot has to say -/

/-- The states the snapshot returns for the hosts. -/
def Snapshot.states (snapshot : Snapshot) : List HostState :=
  snapshot.shown.states

def hasRolledBackHost (streams : Streams) : Bool :=
  streams.hosts.values.any fun run => run.state = .rolledBack

def allTerminal (streams : Streams) : Bool :=
  let states := streams.hosts.values.map HostRun.state
  !states.isEmpty && states.all isTerminal

/-- The batch build is over and its recorded code is not zero. -/
def buildDied (build : BuildModel) : Bool :=
  build.done && build.rc ≠ some 0 && build.rc ≠ none

/-- The verdict on given streams when `basis` is the test that decides. -/
def Basis.verdict (basis : Basis) (info : Meta) (streams : Streams) :
    RunLiveness :=
  match basis with
  | .supervisor => .failed
  | .process => .running
  | .streams =>
      ObservedRun.settledLiveness
        { directory := { payload := info, events := ∅ }
          tailer := { offsets := ∅, streams } }

/-- The hosts shown and the verdict are those of one prefix of what the observer
has routed. -/
def CommonPrefix (world : World) (snapshot : Snapshot) (basis : Basis) : Prop :=
  ∃ seen, seen <+: world.routed ∧
    snapshot.shown =
      render snapshot.shown.detail (replay parse Streams.new seen) ∧
    snapshot.liveness =
      basis.verdict world.info (replay parse Streams.new seen)

/-- A terminal verdict is borne out by the states returned with it, by the
recorded code, or by the loss of the supervisor. -/
structure Justified (world : World) (snapshot : Snapshot) (basis : Basis) :
    Prop where
  rolledBack : snapshot.liveness = .rolledBack →
    .rolledBack ∈ snapshot.states
  finished : snapshot.liveness = .finished →
    .failed ∉ snapshot.states ∧ .rolledBack ∉ snapshot.states ∧
      (world.info.getI64 "rc" = some 0 ∨
        world.info.getI64 "rc" = none ∧ snapshot.states ≠ [] ∧
          ∀ state ∈ snapshot.states, isTerminal state)
  failed : snapshot.liveness = .failed →
    basis = .supervisor ∧ world.info["rc"]? = none ∧
        (world.info.getI64 "supervisor_pid").isSome ∨
      .rolledBack ∉ snapshot.states ∧
        (.failed ∈ snapshot.states ∨
          (∃ rc, world.info.getI64 "rc" = some rc ∧ rc ≠ 0) ∨
          buildDied snapshot.shown.build)

/-- What the property of a snapshot is. -/
structure Consistent (world : World) : Prop where
  commonPrefix : ∀ snapshot basis, world.phase = .returned snapshot basis →
    CommonPrefix parse world snapshot basis
  justified : ∀ snapshot basis, world.phase = .returned snapshot basis →
    Justified world snapshot basis

/-- Nothing the verdict is read off differs: whether a host was rolled back or
is otherwise unsuccessful and, where no code is recorded and every host is
well, whether the hosts are all done and whether the build died. -/
structure SameOutlook (recordedRc : Option Int) (before after : Streams) :
    Prop where
  rolledBack : hasRolledBackHost after = hasRolledBackHost before
  unsuccessful : hasUnsuccessfulHost after = hasUnsuccessfulHost before
  unrecorded : recordedRc = none → hasUnsuccessfulHost before = false →
    allTerminal after = allTerminal before ∧
      buildDied after.build = buildDied before.build

/-- The records the second poll finds in a file leave the outlook as it is. -/
def quietRepoll (world : World) (label : Label) : Prop :=
  label = .readFile → ∀ shown file files,
    world.phase = .repolling shown (file :: files) →
      SameOutlook (world.info.getI64 "rc") world.tailer.streams
        ((unreadLines world.directory.events world.tailer file).foldl
          (route parse) world.tailer.streams)

/-! ## The verdict, read off the streams -/

theorem hasRolledBackHost_iff (streams : Streams) :
    hasRolledBackHost streams = true ↔
      HostState.rolledBack ∈ streams.hosts.values.map HostRun.state := by
  simp [hasRolledBackHost]

theorem rolledBack_unsuccessful {streams : Streams}
    (hrolled : hasRolledBackHost streams = true) :
    hasUnsuccessfulHost streams = true := by
  rw [hasRolledBackHost, List.any_eq_true] at hrolled
  obtain ⟨run, hmem, hstate⟩ := hrolled
  rw [hasUnsuccessfulHost, List.any_eq_true]
  exact ⟨run, hmem, by simp_all⟩

theorem settledLiveness_eq (run : ObservedRun) :
    run.settledLiveness =
      if hasRolledBackHost run.tailer.streams then .rolledBack
      else if hasUnsuccessfulHost run.tailer.streams then .failed
      else match run.directory.recordedRc with
        | some rc => if rc = 0 then .finished else .failed
        | none =>
            if allTerminal run.tailer.streams then .finished
            else if buildDied run.tailer.streams.build then .failed
            else .unknown := by
  have hrolled := hasRolledBackHost_iff run.tailer.streams
  have hunsuccessful := hasUnsuccessfulHost_iff run
  have hstates : run.states =
      run.tailer.streams.hosts.values.map HostRun.state := rfl
  rw [hstates] at hunsuccessful
  unfold ObservedRun.settledLiveness
  rw [hstates]
  by_cases hback : HostState.rolledBack ∈
      run.tailer.streams.hosts.values.map HostRun.state
  · rw [if_pos hback, if_pos (hrolled.mpr hback)]
  · have hnone : ¬ hasRolledBackHost run.tailer.streams = true :=
      fun hsome => hback (hrolled.mp hsome)
    rw [if_neg hback, if_neg hnone]
    by_cases hfailed : HostState.failed ∈
        run.tailer.streams.hosts.values.map HostRun.state
    · rw [if_pos hfailed, if_pos (hunsuccessful.mpr (.inl hfailed))]
    · have hwell : ¬ hasUnsuccessfulHost run.tailer.streams = true := by
        intro hbad
        rcases hunsuccessful.mp hbad with hbad | hbad
        · exact hfailed hbad
        · exact hback hbad
      rw [if_neg hfailed, if_neg hwell]
      rfl

theorem settledLiveness_rolledBack {run : ObservedRun}
    (hverdict : run.settledLiveness = .rolledBack) :
    .rolledBack ∈ run.states := by
  rw [settledLiveness_eq] at hverdict
  by_cases hback : hasRolledBackHost run.tailer.streams = true
  · exact (hasRolledBackHost_iff _).mp hback
  · rw [if_neg hback] at hverdict
    grind

theorem settledLiveness_finished {run : ObservedRun}
    (hverdict : run.settledLiveness = .finished) :
    .failed ∉ run.states ∧ .rolledBack ∉ run.states ∧
      (run.directory.recordedRc = some 0 ∨
        run.directory.recordedRc = none ∧ run.states ≠ [] ∧
          ∀ state ∈ run.states, isTerminal state) := by
  obtain ⟨hwell, hdone⟩ := (settledLiveness_finished_iff run).mp hverdict
  rw [← Bool.not_eq_true, hasUnsuccessfulHost_iff, not_or] at hwell
  exact ⟨hwell.1, hwell.2, hdone⟩

theorem settledLiveness_failed {run : ObservedRun}
    (hverdict : run.settledLiveness = .failed) :
    .rolledBack ∉ run.states ∧
      (.failed ∈ run.states ∨
        (∃ rc, run.directory.recordedRc = some rc ∧ rc ≠ 0) ∨
        buildDied run.tailer.streams.build) := by
  rw [settledLiveness_eq] at hverdict
  by_cases hback : hasRolledBackHost run.tailer.streams = true
  · rw [if_pos hback] at hverdict
    cases hverdict
  · have hnone : HostState.rolledBack ∉ run.states :=
      fun hmem => hback ((hasRolledBackHost_iff _).mpr hmem)
    rw [if_neg hback] at hverdict
    refine ⟨hnone, ?_⟩
    by_cases hunsuccessful : hasUnsuccessfulHost run.tailer.streams = true
    · rcases (hasUnsuccessfulHost_iff run).mp hunsuccessful with hbad | hbad
      · exact .inl hbad
      · exact absurd hbad hnone
    · right
      rw [if_neg hunsuccessful] at hverdict
      cases hrc : run.directory.recordedRc with
      | some rc =>
          left
          refine ⟨rc, rfl, ?_⟩
          rintro rfl
          simp [hrc] at hverdict
      | none =>
          right
          by_contra hdied
          simp only [hrc, hdied] at hverdict
          grind

theorem SameOutlook.refl (recordedRc : Option Int) (streams : Streams) :
    SameOutlook recordedRc streams streams where
  rolledBack := rfl
  unsuccessful := rfl
  unrecorded _ _ := ⟨rfl, rfl⟩

theorem SameOutlook.trans {recordedRc : Option Int}
    {first second third : Streams}
    (hfirst : SameOutlook recordedRc first second)
    (hsecond : SameOutlook recordedRc second third) :
    SameOutlook recordedRc first third where
  rolledBack := hsecond.rolledBack.trans hfirst.rolledBack
  unsuccessful := hsecond.unsuccessful.trans hfirst.unsuccessful
  unrecorded hnone hwell := by
    obtain ⟨hterminal, hdied⟩ := hfirst.unrecorded hnone hwell
    obtain ⟨hterminal', hdied'⟩ :=
      hsecond.unrecorded hnone (hfirst.unsuccessful.trans hwell)
    exact ⟨hterminal'.trans hterminal, hdied'.trans hdied⟩

/-- Streams of one outlook get one verdict. -/
theorem SameOutlook.verdict_eq {info : Meta} {before after : Streams}
    (hsame : SameOutlook (info.getI64 "rc") before after) (basis : Basis) :
    basis.verdict info after = basis.verdict info before := by
  cases basis with
  | supervisor => rfl
  | process => rfl
  | streams =>
      simp only [Basis.verdict, settledLiveness_eq, hsame.rolledBack,
        hsame.unsuccessful]
      cases hrc : info.getI64 "rc" with
      | some rc => simp [RunDirectory.recordedRc, hrc]
      | none =>
          by_cases hwell : hasUnsuccessfulHost before = true
          · simp [hwell]
          · obtain ⟨hterminal, hdied⟩ :=
              hsame.unrecorded hrc (Bool.eq_false_iff.mpr hwell)
            rw [hterminal, hdied]

/-! ## What the snapshot shows -/

theorem render_states (detail : SnapshotDetail) (streams : Streams) :
    (render detail streams).states =
      streams.hosts.values.map HostRun.state := by
  rw [Shown.states, render, BTreeMap.values_eq, Std.TreeMap.toList_map,
    BTreeMap.values_eq, List.map_map, List.map_map, List.map_map]
  rfl

theorem CommonPrefix.states {world : World} {snapshot : Snapshot}
    {basis : Basis} (hcommon : CommonPrefix parse world snapshot basis) :
    ∃ streams : Streams,
      snapshot.states = streams.hosts.values.map HostRun.state ∧
        snapshot.shown.build = streams.build ∧
        snapshot.liveness = basis.verdict world.info streams := by
  obtain ⟨seen, -, hshown, hliveness⟩ := hcommon
  refine ⟨replay parse Streams.new seen, ?_, ?_, hliveness⟩
  · rw [Snapshot.states, hshown, render_states]
  · rw [hshown]
    rfl

/-- A snapshot of one prefix bears its verdict out. -/
theorem CommonPrefix.justified {world : World} {snapshot : Snapshot}
    {basis : Basis} (hcommon : CommonPrefix parse world snapshot basis)
    (hsupervisor : basis = .supervisor → world.info["rc"]? = none ∧
      (world.info.getI64 "supervisor_pid").isSome) :
    Justified world snapshot basis := by
  obtain ⟨streams, hstates, hbuild, hliveness⟩ := hcommon.states parse
  cases basis with
  | supervisor =>
      have hfailed : snapshot.liveness = .failed := hliveness
      constructor
      · simp [hfailed]
      · simp [hfailed]
      · intro _
        exact .inl ⟨rfl, hsupervisor rfl⟩
  | process =>
      have hrunning : snapshot.liveness = .running := hliveness
      constructor <;> simp [hrunning]
  | streams =>
      constructor
      · intro hverdict
        rw [hstates]
        exact settledLiveness_rolledBack (hliveness.symm.trans hverdict)
      · intro hverdict
        rw [hstates]
        exact settledLiveness_finished (hliveness.symm.trans hverdict)
      · intro hverdict
        rw [hstates, hbuild]
        exact .inr (settledLiveness_failed (hliveness.symm.trans hverdict))

/-! ## Runs -/

theorem readFile_eq (events : Directory) (tailer : EventTailer)
    (routed : List Routed) (file : String) :
    (readFile parse events (tailer, routed) file).1.streams =
        (unreadLines events tailer file).foldl (route parse) tailer.streams ∧
      (readFile parse events (tailer, routed) file).2 = routed ++
        (unreadLines events tailer file).map (Routed.mk file) := by
  unfold readFile unreadLines
  cases hcontent : events[file]? with
  | none => simp
  | some content => exact ⟨rfl, rfl⟩

theorem replay_lines (streams : Streams) (file : String)
    (lines : List String) :
    replay parse streams (lines.map (Routed.mk file)) =
      lines.foldl (route parse) streams := by
  rw [replay, List.foldl_map]

/-- What a call in the middle of a snapshot has seen so far. -/
def PhaseSound (world : World) : Phase → Prop
  | .idle | .polling _ _ => True
  | .readingMeta shown | .checkingSupervisor shown | .checkingPid shown =>
      shown = render shown.detail (replay parse Streams.new world.routed)
  | .repolling shown _ =>
      ∃ seen, seen <+: world.routed ∧
        shown = render shown.detail (replay parse Streams.new seen) ∧
        SameOutlook (world.info.getI64 "rc") (replay parse Streams.new seen)
          world.tailer.streams
  | .returned snapshot basis =>
      CommonPrefix parse world snapshot basis ∧
        (basis = .supervisor → world.info["rc"]? = none ∧
          (world.info.getI64 "supervisor_pid").isSome)

structure Tracked (world : World) : Prop where
  streams_eq : world.tailer.streams = replay parse Streams.new world.routed
  phase : PhaseSound parse world world.phase

theorem Tracked.start {world : World} (hstart : RunStatus.start world) :
    Tracked parse world := by
  obtain ⟨-, htailer, hrouted, hphase⟩ := hstart
  constructor
  · rw [htailer, hrouted]
    rfl
  · rw [hphase]
    trivial

theorem Tracked.read_streams {world : World} (htracked : Tracked parse world)
    (file : String) :
    (world.read parse file).tailer.streams =
      replay parse Streams.new (world.read parse file).routed := by
  obtain ⟨hstreams, hrouted⟩ := readFile_eq parse world.directory.events
    world.tailer world.routed file
  change (RunStatus.readFile parse _ _ file).1.streams = replay parse _
    (RunStatus.readFile parse _ _ file).2
  rw [hstreams, hrouted, replay_append, replay_lines, ← htracked.streams_eq]

theorem read_routed_grows (world : World) (file : String) :
    world.routed <+: (world.read parse file).routed := by
  have hrouted := (readFile_eq parse world.directory.events world.tailer
    world.routed file).2
  exact ⟨_, hrouted.symm⟩

/-- A step of the poll keeps the account, as long as the second poll finds
nothing that bears on the verdict. -/
theorem Tracked.readNext {before after : World}
    (htracked : Tracked parse before) (hquiet : quietRepoll parse before .readFile)
    (hstep : before.readNext parse = some after) : Tracked parse after := by
  have hphase := htracked.phase
  unfold World.readNext at hstep
  split at hstep
  · next detail file files hpolling =>
      cases hstep
      exact ⟨htracked.read_streams parse file, trivial⟩
  · next detail hpolling =>
      cases hstep
      refine ⟨htracked.streams_eq, ?_⟩
      change render detail before.tailer.streams = _
      rw [htracked.streams_eq]
      rfl
  · next shown file files hrepolling =>
      cases hstep
      rw [hrepolling] at hphase
      obtain ⟨seen, hseen, hshown, hsame⟩ := hphase
      have hread := (readFile_eq parse before.directory.events before.tailer
        before.routed file).1
      have hnext := hquiet rfl shown file files hrepolling
      rw [← hread] at hnext
      refine ⟨htracked.read_streams parse file, seen, ?_, hshown, ?_⟩
      · exact hseen.trans (read_routed_grows parse before file)
      · exact hsame.trans hnext
  · next shown hrepolling =>
      cases hstep
      rw [hrepolling] at hphase
      obtain ⟨seen, hseen, hshown, hsame⟩ := hphase
      refine ⟨htracked.streams_eq, ⟨seen, hseen, hshown, ?_⟩, ?_⟩
      · exact hsame.verdict_eq .streams
      · intro hbasis
        cases hbasis
  · cases hstep

theorem Tracked.readMeta {before after : World}
    (htracked : Tracked parse before) (hstep : before.readMeta = some after) :
    Tracked parse after := by
  have hphase := htracked.phase
  unfold World.readMeta at hstep
  split at hstep
  · next shown hreading =>
      cases hstep
      rw [hreading] at hphase
      exact ⟨htracked.streams_eq, hphase⟩
  · cases hstep

theorem Tracked.checkSupervisor {before after : World}
    (htracked : Tracked parse before)
    (hstep : before.checkSupervisor = some after) : Tracked parse after := by
  have hphase := htracked.phase
  unfold World.checkSupervisor at hstep
  split at hstep
  · next shown hchecking =>
      rw [hchecking] at hphase
      split at hstep
      · next hgone =>
          cases hstep
          obtain ⟨habsent, hsupervisor⟩ := hgone
          rw [supervisorGone, Bool.and_eq_true] at hsupervisor
          have hcommon : CommonPrefix parse before
              (shown.finish before.info before.tailer.streams .failed)
              .supervisor := ⟨before.routed, List.prefix_rfl, hphase, rfl⟩
          exact ⟨htracked.streams_eq, hcommon,
            fun _ => ⟨habsent, hsupervisor.1⟩⟩
      · cases hstep
        exact ⟨htracked.streams_eq, hphase⟩
  · cases hstep

theorem Tracked.checkPid {before after : World}
    (htracked : Tracked parse before) (hstep : before.checkPid = some after) :
    Tracked parse after := by
  have hphase := htracked.phase
  unfold World.checkPid at hstep
  split at hstep
  · next shown hchecking =>
      rw [hchecking] at hphase
      split at hstep
      · cases hstep
        have hcommon : CommonPrefix parse before
            (shown.finish before.info before.tailer.streams .running)
            .process := ⟨before.routed, List.prefix_rfl, hphase, rfl⟩
        refine ⟨htracked.streams_eq, hcommon, ?_⟩
        intro hbasis
        cases hbasis
      · cases hstep
        have hsame : SameOutlook (before.info.getI64 "rc")
            (replay parse Streams.new before.routed) before.tailer.streams := by
          rw [← htracked.streams_eq]
          exact SameOutlook.refl _ _
        exact ⟨htracked.streams_eq, before.routed, List.prefix_rfl, hphase,
          hsame⟩
  · cases hstep

theorem Tracked.begins {before after : World} {detail : SnapshotDetail}
    (htracked : Tracked parse before)
    (hstep : before.begins detail = some after) : Tracked parse after := by
  unfold World.begins at hstep
  split at hstep
  · split at hstep
    · cases hstep
      exact ⟨htracked.streams_eq, trivial⟩
    · cases hstep
      exact ⟨htracked.streams_eq, trivial⟩
    · cases hstep
  · cases hstep

theorem Tracked.step {before after : World} {label : Label}
    (htracked : Tracked parse before) (hquiet : quietRepoll parse before label)
    (hstep : RunStatus.step parse before label after) : Tracked parse after := by
  cases label with
  | append file chunk =>
      cases hstep
      exact ⟨htracked.streams_eq, htracked.phase⟩
  | writeMeta payload =>
      cases hstep
      exact ⟨htracked.streams_eq, htracked.phase⟩
  | process pid alive =>
      cases hstep
      exact ⟨htracked.streams_eq, htracked.phase⟩
  | begin detail => exact htracked.begins parse hstep
  | readFile => exact htracked.readNext parse hquiet hstep
  | readMeta => exact htracked.readMeta parse hstep
  | checkSupervisor => exact htracked.checkSupervisor parse hstep
  | checkPid => exact htracked.checkPid parse hstep

theorem Tracked.consistent {world : World} (htracked : Tracked parse world) :
    Consistent parse world := by
  have hphase := htracked.phase
  constructor
  · intro snapshot basis hreturned
    rw [hreturned] at hphase
    exact hphase.1
  · intro snapshot basis hreturned
    rw [hreturned] at hphase
    exact hphase.1.justified parse hphase.2

/-- What a poll makes of the reader does not depend on the log it extends. -/
theorem foldl_pollFile_tailer (files : List (String × List UInt8))
    {left right : EventTailer × List Routed} (hsame : left.1 = right.1) :
    (files.foldl (pollFile parse) left).1 =
      (files.foldl (pollFile parse) right).1 := by
  induction files generalizing left right with
  | nil => exact hsame
  | cons file files ih =>
      apply ih
      simp only [pollFile, hsame]

/-- Read one after the other, the listed files are what a poll reads. -/
theorem foldl_readFile_listed (events : Directory) (tailer : EventTailer)
    (routed : List Routed) :
    ((listed events).foldl (readFile parse events) (tailer, routed)).1 =
      (poll parse events tailer).1 := by
  have hfiles (files : List (String × List UInt8))
      (hfound : ∀ file ∈ files, events[file.1]? = some file.2)
      (state : EventTailer × List Routed) :
      (files.map Prod.fst).foldl (readFile parse events) state =
        files.foldl (pollFile parse) state := by
    induction files generalizing state with
    | nil => rfl
    | cons file files ih =>
        have hread : readFile parse events state file.1 =
            pollFile parse state file := by
          rw [readFile, hfound file (List.mem_cons_self ..)]
        rw [List.map_cons, List.foldl_cons, List.foldl_cons, hread]
        exact ih (fun other hmem => hfound other (List.mem_cons_of_mem _ hmem)) _
  rw [listed, hfiles, poll]
  · exact foldl_pollFile_tailer parse _ rfl
  · intro file hmem
    exact (mem_eventFiles_iff.mp hmem).1

/-- The steps of the call itself. -/
def ofCall (_ : World) : Label → Prop
  | .append .. | .writeMeta _ | .process .. => False
  | _ => True

/-- The call goes on with nothing in between. -/
def Undisturbed : World → World → Prop :=
  Relation.ReflTransGen (GuardedStep (step parse) ofCall)

theorem Undisturbed.tail {first before after : World} (label : Label)
    (hrun : Undisturbed parse first before) (hcall : ofCall before label)
    (hstep : before.act parse label = some after) :
    Undisturbed parse first after :=
  Relation.ReflTransGen.tail hrun ⟨label, hcall, hstep⟩

/-- The files of the second poll. -/
theorem Undisturbed.repolling {first world : World} {shown : Shown}
    (files : List String) (hrun : Undisturbed parse first world)
    (hphase : world.phase = .repolling shown files) :
    let state := files.foldl (readFile parse world.directory.events)
      (world.tailer, world.routed)
    Undisturbed parse first
      { world with
        tailer := state.1, routed := state.2, phase := .repolling shown [] } := by
  induction files generalizing world with
  | nil =>
      obtain ⟨directory, processes, info, tailer, routed, phase⟩ := world
      cases hphase
      exact hrun
  | cons file files ih =>
      have hread : world.act parse .readFile =
          some { world.read parse file with
            phase := .repolling shown files } := by
        rw [World.act, World.readNext, hphase]
      exact ih (hrun.tail parse .readFile trivial hread) rfl

/-- With nothing in between, the reads from the payload on are one call of
`ObservedRun.liveness`. -/
theorem undisturbed_liveness {world : World} {shown : Shown}
    (hphase : world.phase = .readingMeta shown) :
    let judged := ObservedRun.liveness parse world.processes
      { directory := world.directory, tailer := world.tailer }
    ∃ (after : World) (basis : Basis),
      Undisturbed parse world after ∧
        after.tailer = judged.2.tailer ∧
        after.phase = .returned
          (shown.finish world.directory.payload after.tailer.streams judged.1)
          basis := by
  intro judged
  let checking : World :=
    { world with
      info := world.directory.payload, phase := .checkingSupervisor shown }
  let asking : World := { checking with phase := .checkingPid shown }
  have hchecking : Undisturbed parse world checking :=
    Undisturbed.tail parse .readMeta .refl trivial
      (by rw [World.act, World.readMeta, hphase])
  by_cases hgone : world.directory.payload["rc"]? = none ∧
      supervisorGone world.processes world.directory.payload
  · have hjudged : judged =
        (.failed, { directory := world.directory, tailer := world.tailer }) :=
      if_pos hgone
    rw [hjudged]
    exact ⟨checking.returns shown .failed .supervisor, .supervisor,
      hchecking.tail parse .checkSupervisor trivial (if_pos hgone), rfl, rfl⟩
  · have hasking : Undisturbed parse world asking :=
      hchecking.tail parse .checkSupervisor trivial (if_neg hgone)
    by_cases halive : pidAlive world.processes world.directory.pid
    · have hjudged : judged =
          (.running,
            { directory := world.directory, tailer := world.tailer }) := by
        simp only [judged, ObservedRun.liveness]
        rw [if_neg hgone, if_pos halive]
      rw [hjudged]
      exact ⟨asking.returns shown .running .process, .process,
        hasking.tail parse .checkPid trivial (if_pos halive), rfl, rfl⟩
    · have hrepolling := Undisturbed.repolling parse
        (listed world.directory.events)
        (hasking.tail parse .checkPid trivial (if_neg halive)) rfl
      have hjudged : judged =
          let polled := ObservedRun.poll parse
            { directory := world.directory, tailer := world.tailer }
          (polled.settledLiveness, polled) := by
        simp only [judged, ObservedRun.liveness]
        rw [if_neg hgone, if_neg halive]
      have htailer := foldl_readFile_listed parse world.directory.events
        world.tailer world.routed
      refine ⟨_, .streams, hrepolling.tail parse .readFile trivial rfl, ?_, ?_⟩
      · rw [hjudged]
        exact htailer
      · rw [hjudged, ObservedRun.poll, ← htailer]
        rfl

/-! ## One run with and one without a late record -/

def copyLine : String :=
  "\x7b\"v\":2,\"host\":\"web\",\"event\":\"milestone\",\"milestone\":\"copy\"\x7d\n"

def rollbackLine : String :=
  "\x7b\"v\":2,\"host\":\"web\",\"event\":\"milestone\",\"milestone\":\"rollback\"\x7d\n"

def milestoneOfWeb (name : String) : Json :=
  .object [("v", .int 2), ("host", .string "web"),
    ("event", .string "milestone"), ("milestone", .string name)]

def parseSample (line : String) : Option Json :=
  if line = copyLine then some (milestoneOfWeb "copy")
  else if line = rollbackLine then some (milestoneOfWeb "rollback")
  else none

def samplePayload (fields : List (String × Json)) : Meta :=
  Meta.update ∅ (("pid", .int 7) :: fields)

/-- A deploy in its fan-out: one host is copying and the engine is alive. -/
def copyingRun : World :=
  { directory :=
      { payload := samplePayload []
        events := (∅ : Directory).insert "web.jsonl" (encodeUtf8 copyLine) }
    processes := fun pid => pid = 7
    info := samplePayload []
    tailer := EventTailer.new
    routed := []
    phase := .idle }

/-- What the engine does at the end: the host rolls back, the code is recorded
and the process exits. -/
def engineEnds : List Label :=
  [.append "web.jsonl" (encodeUtf8 rollbackLine),
    .writeMeta (samplePayload [("rc", .int 1)]), .process 7 false]

def firstPoll : List Label := [.begin .listing, .readFile, .readFile]

def verdictReads : List Label :=
  [.readMeta, .checkSupervisor, .checkPid, .readFile, .readFile]

/-- The second poll is about to read a file that has nothing new. -/
def nothingUnread (world : World) : Bool :=
  match world.phase with
  | .repolling _ (file :: _) =>
      (unreadLines world.directory.events world.tailer file).isEmpty
  | _ => true

theorem quietRepoll_of_nothingUnread {world : World}
    (hnothing : nothingUnread world) (label : Label) :
    quietRepoll parse world label := by
  intro _ shown file files hphase
  rw [nothingUnread, hphase] at hnothing
  rw [List.isEmpty_iff.mp hnothing]
  exact SameOutlook.refl _ _

def returnedStates (liveness : RunLiveness) (states : List HostState)
    (world : World) : Bool :=
  match world.phase with
  | .returned snapshot _ =>
      snapshot.liveness = liveness && snapshot.states = states
  | _ => false

theorem returnedStates_iff {liveness : RunLiveness} {states : List HostState}
    {world : World} :
    returnedStates liveness states world = true ↔
      ∃ snapshot basis, world.phase = .returned snapshot basis ∧
        snapshot.liveness = liveness ∧ snapshot.states = states := by
  unfold returnedStates
  split
  · next snapshot basis hphase => simp [hphase]
  · next hother =>
      constructor
      · intro hfalse
        cases hfalse
      · intro hreturned
        obtain ⟨snapshot, basis, hphase, -⟩ := hreturned
        exact absurd hphase (hother snapshot basis)

end Mandala.Server.RunStatus
