import Mandala.Core.Pieces
import Mandala.Registry.RunId

/-!
# Discovering the run of a launched engine

A frontend that launches an engine learns its run id from the supervisor's log:
the engine prints it on a line of its own.  The frontend copies the complete
lines of the log to a bounded mirror, whoever looks at it, takes the first line
of the mirror that looks like a run id, and asks the registry for it.
-/

namespace Mandala.Runner

open Mandala.Data Mandala.Events Mandala.Lines Mandala.Tailer Mandala.Text
  Mandala.Registry

variable (parse : String → Option Json) (parsesTimestamp : TimestampParser)
  (base : String)

/-! ## The mirror -/

/-- `DEPLOY_OUTPUT_MAX`. -/
def deployOutputMax : ℕ := 4000

section Window
variable {A B : Type}

/-- `push_capped`. -/
def pushCapped (queue : List A) (entry : A) (cap : ℕ) : List A :=
  (if cap ≤ queue.length then queue.tail else queue) ++ [entry]

/-- The last entries of a list, as many as the cap allows. -/
def recent (cap : ℕ) (entries : List A) : List A :=
  entries.drop (entries.length - cap)

theorem recent_map (cap : ℕ) (f : A → B) (entries : List A) :
    recent cap (entries.map f) = (recent cap entries).map f := by
  rw [recent, recent, List.length_map, List.map_drop]

/-- Pushing keeps the last entries. -/
theorem pushCapped_recent {cap : ℕ} (hcap : 0 < cap) (entries : List A)
    (entry : A) :
    pushCapped (recent cap entries) entry cap =
      recent cap (entries ++ [entry]) := by
  rw [pushCapped, recent, recent, List.length_drop, List.length_append,
    List.length_singleton]
  by_cases hfull : cap ≤ entries.length
  · have hkept : cap ≤ entries.length - (entries.length - cap) := by omega
    have hdrop : entries.length + 1 - cap = entries.length - cap + 1 := by omega
    rw [if_pos hkept, hdrop, List.drop_append_of_le_length (by omega),
      List.tail_drop]
  · have hroom : ¬ cap ≤ entries.length - (entries.length - cap) := by omega
    have hall : entries.length - cap = 0 := by omega
    have hnone : entries.length + 1 - cap = 0 := by omega
    rw [if_neg hroom, hall, hnone, List.drop_zero, List.drop_zero]

theorem foldl_pushCapped {cap : ℕ} (hcap : 0 < cap) (before entries : List A) :
    entries.foldl (pushCapped · · cap) (recent cap before) =
      recent cap (before ++ entries) := by
  induction entries generalizing before with
  | nil => rw [List.append_nil, List.foldl_nil]
  | cons entry entries ih =>
      rw [List.foldl_cons, pushCapped_recent hcap, ih, List.append_assoc,
        List.singleton_append]

end Window

/-- `trim_end_matches(['\r', '\n'])`. -/
def cleanLine (line : String) : String :=
  String.ofList ((line.toList.reverse.dropWhile fun character =>
    character = '\r' || character = '\n').reverse)

def trimLine (line : String) : String := String.ofList (trim line.toList)

/-! ## The run -/

/-- `DeployRun`, as far as it launches an engine and looks for its run. -/
structure LaunchedRun where
  eventsDir : Option String
  runId : Option String
  tailer : Option EventTailer
  output : List String
  outputOffset : ℕ
  discoveryError : Option String
  metaPid : Option Int
  /-- The exit code of the engine's process, once reaped. -/
  exited : Option Int

namespace LaunchedRun

def new : LaunchedRun :=
  { eventsDir := none, runId := none, tailer := none, output := []
    outputOffset := 0, discoveryError := none, metaPid := none, exited := none }

def pushOutput (run : LaunchedRun) (line : String) : LaunchedRun :=
  { run with output := pushCapped run.output line deployOutputMax }

def syncOutputLog (log : List UInt8) (run : LaunchedRun) : LaunchedRun :=
  let read := readRecords (log.drop run.outputOffset) run.outputOffset
  { run with
    outputOffset := read.1
    output := (read.2.map cleanLine).foldl (pushCapped · · deployOutputMax)
      run.output }

/-- The first line of the mirror that looks like a run id. -/
def candidate (run : LaunchedRun) : Option String :=
  (run.output.find? fun line =>
    acceptsRunId parsesTimestamp (trimLine line)).map trimLine

/-- `poll_exit`, over what waiting for the process would say now. -/
def pollExit (childExit : Option Int) (run : LaunchedRun) : LaunchedRun :=
  { run with exited := run.exited.or childExit }

def undiscovered : Option String → String
  | none => "native deploy exited without publishing a run id"
  | some runId => "native deploy published " ++ runId ++
      ", but its registry run was not discoverable"

/-- The error of an engine that is gone without a run. -/
def giveUp (candidate : Option String) (run : LaunchedRun) :
    Except String Bool × LaunchedRun :=
  if run.exited = none then (.ok false, run)
  else
    let message := undiscovered candidate
    (.error message,
      { run.pushOutput ("mandala: " ++ message) with
        discoveryError := some message })

def discoverRun (readDirectory : String → Option RunDirectory)
    (log : List UInt8) (childExit : Option Int) (run : LaunchedRun) :
    Except String Bool × LaunchedRun :=
  if run.tailer.isSome then (.ok true, run)
  else match run.discoveryError with
    | some error => (.error error, run)
    | none =>
        let synced := run.syncOutputLog log
        let candidate := synced.candidate parsesTimestamp
        match candidate.bind (openRunIn parsesTimestamp readDirectory base) with
        | some observed =>
            (.ok true,
              { synced with
                metaPid := observed.run.directory.pid
                eventsDir := some observed.path
                runId := some observed.runId
                tailer := some observed.run.tailer })
        | none => giveUp candidate (synced.pollExit childExit)

/-- `poll`, on what the events directory holds now. -/
def poll (readDirectory : String → Option RunDirectory) (log : List UInt8)
    (run : LaunchedRun) : LaunchedRun :=
  let synced := run.syncOutputLog log
  { synced with
    tailer := synced.tailer.map fun tailer =>
      match synced.eventsDir.bind readDirectory with
      | some directory => (Tailer.poll parse directory.events tailer).1
      | none => tailer }

end LaunchedRun

/-! ## Runs of appends and calls -/

/-- The supervisor's log, the registry, what became of the process, and the
frontend's run. -/
structure Supervised where
  log : List UInt8
  readDirectory : String → Option RunDirectory
  childExit : Option Int
  run : LaunchedRun

inductive LaunchAction where
  | append (chunk : List UInt8)
  | registry (readDirectory : String → Option RunDirectory)
  | exit (rc : Int)
  | output
  | poll
  | discover

namespace Supervised

def new : Supervised :=
  { log := [], readDirectory := fun _ => none, childExit := none
    run := .new }

/-- What `discover_run` answers now, and the run after it. -/
def discover (world : Supervised) : Except String Bool × LaunchedRun :=
  world.run.discoverRun parsesTimestamp base world.readDirectory world.log
    world.childExit

def act (world : Supervised) : LaunchAction → Supervised
  | .append chunk => { world with log := world.log ++ chunk }
  | .registry readDirectory => { world with readDirectory }
  | .exit rc => { world with childExit := world.childExit.or (some rc) }
  | .output => { world with run := world.run.syncOutputLog world.log }
  | .poll =>
      { world with run := world.run.poll parse world.readDirectory world.log }
  | .discover => { world with run := (world.discover parsesTimestamp base).2 }

def after (actions : List LaunchAction) : Supervised :=
  actions.foldl (act parse parsesTimestamp base) new

end Supervised

/-! ## What discovery is for -/

/-- The run id a line of the log holds. -/
def idOfLine (line : List UInt8) : Option String :=
  ((decodeLine line).map trimLine).filter (acceptsRunId parsesTimestamp)

namespace Supervised

/-- The first run id in the log that is in the registry. -/
def published (world : Supervised) : Option String :=
  ((completeLines newlineByte world.log).filterMap
    (idOfLine parsesTimestamp)).find? fun runId =>
      (world.readDirectory (joinPath base runId)).isSome

/-- A call of `discover_run` now attaches if it can, and to the first run. -/
structure Attaches (world : Supervised) : Prop where
  attaches : ∀ runId, world.run.tailer = none →
    world.published parsesTimestamp base = some runId →
      ∃ after, world.discover parsesTimestamp base = (.ok true, after) ∧
        after.runId = some runId ∧
          after.eventsDir = some (joinPath base runId) ∧ after.tailer ≠ none
  stays : world.run.tailer ≠ none →
    world.discover parsesTimestamp base = (.ok true, world.run)

/-- The run id is the first one among the lines the mirror can hold: the last
ones before any that is not UTF-8.  And no call has failed before. -/
structure Findable (world : Supervised) (runId : String) : Prop where
  noError : world.run.discoveryError = none
  first : ∃ front line back,
    recent deployOutputMax (readableLines world.log) = front ++ line :: back ∧
      idOfLine parsesTimestamp line = some runId ∧
      ∀ other ∈ front, idOfLine parsesTimestamp other = none

end Supervised

/-! ## Lines and ids -/

theorem trim_append_blanks {tail : List Char}
    (htail : ∀ character ∈ tail, isWhiteSpace character = true)
    (front : List Char) : trim (front ++ tail) = trim front := by
  induction tail generalizing front with
  | nil => rw [List.append_nil]
  | cons character tail ih =>
      rw [List.append_cons, ih fun other hmem =>
          htail other (List.mem_cons_of_mem character hmem),
        trim_concat (htail character List.mem_cons_self)]

/-- Trimming takes off what was cleaned off before. -/
theorem trimLine_cleanLine (line : String) :
    trimLine (cleanLine line) = trimLine line := by
  let isEnd (character : Char) : Bool := character = '\r' || character = '\n'
  have hsplit : line.toList =
      (line.toList.reverse.dropWhile isEnd).reverse ++
        (line.toList.reverse.takeWhile isEnd).reverse := by
    rw [← List.reverse_append, List.takeWhile_append_dropWhile,
      List.reverse_reverse]
  have hblank (character : Char)
      (hmem : character ∈ (line.toList.reverse.takeWhile isEnd).reverse) :
      isWhiteSpace character = true := by
    have hend := List.mem_takeWhile_imp (List.mem_reverse.mp hmem)
    rcases Bool.or_eq_true_iff.mp hend with hreturn | hnewline
    · rw [of_decide_eq_true hreturn]
      decide
    · rw [of_decide_eq_true hnewline]
      decide
  rw [trimLine, trimLine, cleanLine, String.toList_ofList]
  conv_rhs => rw [hsplit, trim_append_blanks hblank]

/-- Readable lines all have a text. -/
theorem filterMap_decodeLine {lines : List (List UInt8)}
    (htext : ∀ line ∈ lines, (decodeLine line).isSome) :
    lines.filterMap decodeLine =
      lines.map fun line => (decodeLine line).getD "" := by
  rw [← List.filterMap_eq_map']
  refine List.filterMap_congr fun line hmem => ?_
  obtain ⟨text, htext⟩ := Option.isSome_iff_exists.mp (htext line hmem)
  rw [htext, Option.getD_some]

theorem isSome_of_mem_readableLines {content line : List UInt8}
    (hmem : line ∈ readableLines content) : (decodeLine line).isSome := by
  simpa using List.mem_takeWhile_imp hmem

/-- The first match of a list, as its first image. -/
theorem map_find?_eq_findSome? {A B : Type} {f : A → B} {qualifies : B → Bool}
    {image : A → Option B} {entries : List A}
    (himage : ∀ entry ∈ entries,
      image entry = (some (f entry)).filter qualifies) :
    (entries.find? fun entry => qualifies (f entry)).map f =
      entries.findSome? image := by
  induction entries with
  | nil => rfl
  | cons entry entries ih =>
      rw [List.find?_cons, List.findSome?_cons, himage entry List.mem_cons_self,
        Option.filter_some]
      cases hqualifies : qualifies (f entry) with
      | true => rfl
      | false =>
          exact ih fun other hmem => himage other (List.mem_cons_of_mem entry hmem)

/-! ## The mirror follows the log -/

/-- Until a call fails, the mirror holds the last of the lines consumed. -/
def Mirrors (world : Supervised) : Prop :=
  world.run.discoveryError = none →
    ∃ lines consumed rest,
      Consumed world.log world.run.outputOffset lines consumed rest ∧
        world.run.output = recent deployOutputMax (lines.map cleanLine)

/-- A call that looks at the log brings the mirror up to its last line that can
be read. -/
theorem Mirrors.sync {world : Supervised} (hmirrors : Mirrors world)
    (hnone : world.run.discoveryError = none) :
    ∃ rest, Consumed world.log (world.run.syncOutputLog world.log).outputOffset
        ((readableLines world.log).filterMap decodeLine)
        (readableLines world.log) rest ∧
      (world.run.syncOutputLog world.log).output =
        recent deployOutputMax
          (((readableLines world.log).filterMap decodeLine).map cleanLine) := by
  obtain ⟨lines, consumed, rest, hconsumed, houtput⟩ := hmirrors hnone
  have hread := hconsumed.read
  have hlines := hread.lines_eq
  rw [hlines] at hread
  refine ⟨_, hread, ?_⟩
  rw [LaunchedRun.syncOutputLog, ← hlines, List.map_append, houtput]
  exact foldl_pushCapped (by decide) _ _

variable {parse parsesTimestamp base}

/-- The candidate is the first run id among the last lines that can be read. -/
theorem candidate_sync {world : Supervised} (hmirrors : Mirrors world)
    (hnone : world.run.discoveryError = none) :
    (world.run.syncOutputLog world.log).candidate parsesTimestamp =
      (recent deployOutputMax (readableLines world.log)).findSome?
        (idOfLine parsesTimestamp) := by
  obtain ⟨rest, -, houtput⟩ := hmirrors.sync hnone
  have hreadable (line : List UInt8) (hmem : line ∈ readableLines world.log) :=
    isSome_of_mem_readableLines hmem
  rw [LaunchedRun.candidate, houtput, filterMap_decodeLine hreadable,
    List.map_map, recent_map, List.find?_map, Option.map_map]
  simp only [Function.comp_def, trimLine_cleanLine]
  refine map_find?_eq_findSome? fun line hmem => ?_
  obtain ⟨text, htext⟩ := Option.isSome_iff_exists.mp
    (hreadable line (List.mem_of_mem_drop hmem))
  rw [idOfLine, htext, Option.getD_some, Option.map_some]

namespace Supervised

variable {world : Supervised}

/-- The run after a call has brought the mirror up to date. -/
def synced (world : Supervised) : LaunchedRun :=
  world.run.syncOutputLog world.log

/-- A candidate the registry knows is attached to. -/
theorem discover_attached (htailer : world.run.tailer = none)
    (herror : world.run.discoveryError = none) {runId : String}
    {observed : OpenedRun}
    (hcandidate : world.synced.candidate parsesTimestamp = some runId)
    (hopen : openRunIn parsesTimestamp world.readDirectory base runId =
      some observed) :
    world.discover parsesTimestamp base =
      (.ok true,
        { world.synced with
          metaPid := observed.run.directory.pid
          eventsDir := some observed.path
          runId := some observed.runId
          tailer := some observed.run.tailer }) := by
  rw [synced] at hcandidate
  rw [discover, LaunchedRun.discoverRun, htailer, herror]
  dsimp only
  rw [if_neg (by simp), hcandidate, Option.bind_some, hopen]
  rfl

/-- Without one, the call asks what became of the process. -/
theorem discover_missed (htailer : world.run.tailer = none)
    (herror : world.run.discoveryError = none)
    (hmissed : (world.synced.candidate parsesTimestamp).bind
      (openRunIn parsesTimestamp world.readDirectory base) = none) :
    world.discover parsesTimestamp base =
      LaunchedRun.giveUp (world.synced.candidate parsesTimestamp)
        (world.synced.pollExit world.childExit) := by
  rw [synced] at hmissed ⊢
  rw [discover, LaunchedRun.discoverRun, htailer, herror]
  dsimp only
  rw [if_neg (by simp), hmissed]

/-- A call keeps the mirror it brought up to date, unless it fails. -/
theorem discover_keeps (htailer : world.run.tailer = none)
    (herror : world.run.discoveryError = none)
    (hkept : (world.discover parsesTimestamp base).2.discoveryError = none) :
    (world.discover parsesTimestamp base).2.outputOffset =
        world.synced.outputOffset ∧
      (world.discover parsesTimestamp base).2.output = world.synced.output := by
  cases hcandidate : (world.synced.candidate parsesTimestamp).bind
      (openRunIn parsesTimestamp world.readDirectory base) with
  | some observed =>
      obtain ⟨runId, hrunId, hopen⟩ := Option.bind_eq_some_iff.mp hcandidate
      rw [discover_attached htailer herror hrunId hopen]
      exact ⟨rfl, rfl⟩
  | none =>
      rw [discover_missed htailer herror hcandidate, LaunchedRun.giveUp]
        at hkept ⊢
      split at hkept
      · next hrunning =>
          rw [if_pos hrunning]
          exact ⟨rfl, rfl⟩
      · cases hkept

theorem discover_of_tailer (htailer : world.run.tailer ≠ none) :
    world.discover parsesTimestamp base = (.ok true, world.run) := by
  rw [discover, LaunchedRun.discoverRun,
    if_pos (Option.isSome_iff_ne_none.mpr htailer)]

theorem discover_of_error (htailer : world.run.tailer = none) {error : String}
    (herror : world.run.discoveryError = some error) :
    world.discover parsesTimestamp base = (.error error, world.run) := by
  rw [discover, LaunchedRun.discoverRun, htailer, herror]
  rfl

end Supervised

/-- A run that is brought up to date mirrors the log. -/
theorem Mirrors.after {world : Supervised} (hmirrors : Mirrors world)
    {run : LaunchedRun}
    (hfresh : run.discoveryError = none → world.run.discoveryError = none ∧
      run.outputOffset = world.synced.outputOffset ∧
        run.output = world.synced.output) :
    Mirrors { world with run } := by
  intro hnone
  obtain ⟨hbefore, hoffset, houtput⟩ := hfresh hnone
  obtain ⟨rest, hconsumed, hrecent⟩ := hmirrors.sync hbefore
  refine ⟨(readableLines world.log).filterMap decodeLine,
    readableLines world.log, rest, ?_, houtput.trans hrecent⟩
  dsimp only
  rw [hoffset]
  exact hconsumed

theorem Mirrors.act {world : Supervised} (hmirrors : Mirrors world)
    (action : LaunchAction) :
    Mirrors (world.act parse parsesTimestamp base action) := by
  cases action with
  | append chunk =>
      intro hnone
      obtain ⟨lines, consumed, rest, hconsumed, houtput⟩ := hmirrors hnone
      obtain ⟨more, hmore⟩ := hconsumed.append chunk
      exact ⟨lines, consumed, more, hmore, houtput⟩
  | registry readDirectory => exact hmirrors
  | exit rc => exact hmirrors
  | output => exact hmirrors.after fun hnone => ⟨hnone, rfl, rfl⟩
  | poll => exact hmirrors.after fun hnone => ⟨hnone, rfl, rfl⟩
  | discover =>
      by_cases htailer : world.run.tailer = none
      · cases herror : world.run.discoveryError with
        | none =>
            exact hmirrors.after fun hkept =>
              ⟨herror, Supervised.discover_keeps htailer herror hkept⟩
        | some error =>
            rw [Supervised.act, Supervised.discover_of_error htailer herror]
            exact hmirrors
      · rw [Supervised.act, Supervised.discover_of_tailer htailer]
        exact hmirrors

theorem mirrors_after (actions : List LaunchAction) :
    Mirrors (.after parse parsesTimestamp base actions) := by
  have hnew : Mirrors .new := by
    intro _
    refine ⟨[], [], [], ?_, rfl⟩
    exact ⟨completeLines_of_not_mem List.not_mem_nil, rfl,
      fun _ hmem => absurd hmem List.not_mem_nil, rfl⟩
  rw [Supervised.after]
  generalize Supervised.new = world at hnew
  induction actions generalizing world with
  | nil => exact hnew
  | cons action actions ih => exact ih _ (hnew.act action)

/-! ## When discovery attaches -/

namespace Supervised

variable {world : Supervised} {runId : String}

theorem accepts_of_idOfLine {line : List UInt8}
    (hid : idOfLine parsesTimestamp line = some runId) :
    acceptsRunId parsesTimestamp runId = true :=
  (Option.filter_eq_some_iff.mp hid).2

/-- A published run can be opened. -/
theorem exists_openRunIn
    (hpublished : world.published parsesTimestamp base = some runId) :
    ∃ observed, openRunIn parsesTimestamp world.readDirectory base runId =
        some observed ∧ observed.runId = runId ∧
          observed.path = joinPath base runId := by
  rw [published] at hpublished
  have hregistered :
      (world.readDirectory (joinPath base runId)).isSome = true := by
    simpa using List.find?_some hpublished
  obtain ⟨directory, hdirectory⟩ := Option.isSome_iff_exists.mp hregistered
  obtain ⟨line, -, hid⟩ := List.mem_filterMap.mp
    (List.mem_of_find?_eq_some hpublished)
  rw [openRunIn, accepts_of_idOfLine hid]
  dsimp only
  rw [hdirectory]
  exact ⟨_, rfl, rfl, rfl⟩

theorem runId_of_openRunIn {observed : OpenedRun}
    (hopen : openRunIn parsesTimestamp world.readDirectory base runId =
      some observed) : observed.runId = runId := by
  rw [openRunIn] at hopen
  split at hopen
  · cases hopen
  · obtain ⟨directory, -, rfl⟩ := Option.map_eq_some_iff.mp hopen
    rfl

/-- The candidate is what can be found. -/
theorem findable_iff (hmirrors : Mirrors world)
    (herror : world.run.discoveryError = none) :
    world.Findable parsesTimestamp runId ↔
      world.synced.candidate parsesTimestamp = some runId := by
  rw [synced, candidate_sync hmirrors herror, List.findSome?_eq_some_iff]
  exact ⟨Findable.first, fun hfirst => ⟨herror, hfirst⟩⟩

theorem attaches_of_findable (hmirrors : Mirrors world)
    (htailer : world.run.tailer = none)
    (hpublished : world.published parsesTimestamp base = some runId)
    (hfindable : world.Findable parsesTimestamp runId) :
    ∃ after, world.discover parsesTimestamp base = (.ok true, after) ∧
      after.runId = some runId ∧
        after.eventsDir = some (joinPath base runId) ∧ after.tailer ≠ none := by
  have herror := hfindable.noError
  have hcandidate := (findable_iff hmirrors herror).mp hfindable
  obtain ⟨observed, hopen, hrunId, hpath⟩ := exists_openRunIn hpublished
  refine ⟨_, discover_attached htailer herror hcandidate hopen, ?_, ?_, ?_⟩
  · exact congrArg some hrunId
  · exact congrArg some hpath
  · exact Option.some_ne_none _

theorem findable_of_attaches (hmirrors : Mirrors world)
    (htailer : world.run.tailer = none) {after : LaunchedRun}
    (hattached : world.discover parsesTimestamp base = (.ok true, after))
    (hafter : after.runId = some runId) :
    world.Findable parsesTimestamp runId := by
  cases herror : world.run.discoveryError with
  | some error =>
      rw [discover_of_error htailer herror] at hattached
      cases hattached
  | none =>
      rw [findable_iff hmirrors herror]
      cases hcandidate : world.synced.candidate parsesTimestamp with
      | none =>
          rw [discover_missed htailer herror (by rw [hcandidate]; rfl),
            LaunchedRun.giveUp] at hattached
          split at hattached
          · cases hattached
          · cases hattached
      | some found =>
          cases hopen : openRunIn parsesTimestamp world.readDirectory base
              found with
          | none =>
              rw [discover_missed htailer herror
                  (by rw [hcandidate, Option.bind_some, hopen]),
                LaunchedRun.giveUp] at hattached
              split at hattached
              · cases hattached
              · cases hattached
          | some observed =>
              rw [discover_attached htailer herror hcandidate hopen]
                at hattached
              cases hattached
              exact congrArg some (runId_of_openRunIn hopen) ▸ hafter

end Supervised

/-- **Run discovery.** After any appends, registrations, exits and calls, a
call of `discover_run` attaches to the first published run of the log exactly
when no call has failed before and that run id is the first one among the lines
the mirror can hold. -/
theorem attaches_iff (parse : String → Option Json)
    (parsesTimestamp : TimestampParser) (base : String)
    (actions : List LaunchAction) :
    (Supervised.after parse parsesTimestamp base actions).Attaches
        parsesTimestamp base ↔
      ∀ runId,
        (Supervised.after parse parsesTimestamp base actions).run.tailer = none →
        (Supervised.after parse parsesTimestamp base actions).published
            parsesTimestamp base = some runId →
          (Supervised.after parse parsesTimestamp base actions).Findable
            parsesTimestamp runId := by
  have hmirrors : Mirrors (.after parse parsesTimestamp base actions) :=
    mirrors_after actions
  constructor
  · intro hattaches runId htailer hpublished
    obtain ⟨after, hdiscover, hafter, -⟩ :=
      hattaches.attaches runId htailer hpublished
    exact Supervised.findable_of_attaches hmirrors htailer hdiscover hafter
  · intro hfindable
    refine ⟨?_, Supervised.discover_of_tailer⟩
    intro runId htailer hpublished
    exact Supervised.attaches_of_findable hmirrors htailer hpublished
      (hfindable runId htailer hpublished)

/-! ### A log with a line that is not text -/

/-- A line that is not UTF-8, the run id, and the registry with its run. -/
def garbledLaunch : List LaunchAction :=
  [.append ([0xff] ++ newlineByte ::
      (encodeUtf8 "20240101T000000_000000-7" ++ [newlineByte])),
    .registry fun path =>
      if path = "/runs/20240101T000000_000000-7" then
        some { payload := ∅, events := ∅ }
      else none]

/-- The mirror never gets past the garbled line. -/
theorem garbledLaunch_not_attaches :
    ¬ (Supervised.after (fun _ => none) newYear "/runs" garbledLaunch).Attaches
        newYear "/runs" := by
  intro hattaches
  have hcomplete : completeLines newlineByte
      (Supervised.after (fun _ => none) newYear "/runs" garbledLaunch).log =
        [[0xff], encodeUtf8 "20240101T000000_000000-7"] := by
    change completeLines newlineByte ([0xff] ++ newlineByte ::
      (encodeUtf8 "20240101T000000_000000-7" ++ [newlineByte])) = _
    rw [completeLines_line_append (by decide),
      completeLines_line_append (by decide +kernel),
      completeLines_of_not_mem List.not_mem_nil]
  have hpublished : (Supervised.after (fun _ => none) newYear "/runs"
      garbledLaunch).published newYear "/runs" =
        some "20240101T000000_000000-7" := by
    rw [Supervised.published, hcomplete]
    decide +kernel
  obtain ⟨after, hdiscover, hafter, -⟩ := hattaches.attaches _ rfl hpublished
  obtain ⟨-, front, line, back, hrecent, -⟩ := Supervised.findable_of_attaches
    (mirrors_after garbledLaunch) rfl hdiscover hafter
  have hreadable : readableLines
      (Supervised.after (fun _ => none) newYear "/runs" garbledLaunch).log =
        [] := by
    rw [readableLines, hcomplete]
    decide +kernel
  rw [hreadable] at hrecent
  exact List.append_ne_nil_of_right_ne_nil front (List.cons_ne_nil line back)
    hrecent.symm

end Mandala.Runner
