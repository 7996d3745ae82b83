import Mandala.Data.Printing
import Mandala.Runner.BuildLogCap

/-!
# The outcome of a build in its log

The engine ends a build with one final progress and one final status.  However
long the strings in them are, both fit the reserve of the log with the notice,
so that the log of any build has its outcome.  The reserve is not for more: a
flood of such records leaves no room for the first of another kind.
-/

namespace Mandala.Runner

open Mandala.Data Mandala.Events Mandala.Fleet Mandala.Forest

/-! ## What the engine emits at the end of a build -/

/-- `BuildTracker`, as far as its fields go into a record. -/
structure BuildTracker where
  built : Int64
  finished : Int64
  fetched : Int64
  fetchedDone : Int64
  errors : Int64
  current : String

namespace BuildTracker

/-- `BuildTracker::fields`, with the mark of a final record. -/
def finalFields (tracker : BuildTracker) : List (String × Json) :=
  [("built", .int tracker.built.toInt),
    ("current", .string tracker.current),
    ("errors", .int tracker.errors.toInt),
    ("fetched", .int tracker.fetched.toInt),
    ("fetched_done", .int tracker.fetchedDone.toInt),
    ("final", .bool true),
    ("finished", .int tracker.finished.toInt)]

end BuildTracker

def doneFields (rc : Int32) : List (String × Json) :=
  [("rc", .int rc.toInt), ("state", .string "done")]

/-- An emission at a clock reading, which takes 24 bytes at most; those that end
a build have the engine's fields, and all others any. -/
structure EngineEmission (emission : Emission) : Prop where
  clock : ∃ literal, emission.ts = .float literal ∧ literal.utf8ByteSize ≤ 24
  progress : emission.isFinalProgress = true →
    ∃ tracker : BuildTracker, emission.fields = tracker.finalFields
  status : emission.isDoneStatus = true →
    ∃ rc : Int32, emission.fields = doneFields rc

section Outcome
variable (toVec : Json → String) (fromStr : List Char → Option NixMessage)

/-- A build log has the first final progress and the first final status, unless
more than one record that ends a build came before. -/
structure OutcomeKept (writer : EventWriter) (emissions : List Emission) :
    Prop where
  progress : ∀ before emission after,
    emissions = before ++ emission :: after →
      emission.isFinalProgress = true →
        (∀ other ∈ before, other.isFinalProgress = false) →
          before.countP Emission.isTerminal ≤ 1 →
            writer.record emission ∈
              (writer.emitAll toVec fromStr emissions).2
  status : ∀ before emission after,
    emissions = before ++ emission :: after →
      emission.isDoneStatus = true →
        (∀ other ∈ before, other.isDoneStatus = false) →
          before.countP Emission.isTerminal ≤ 1 →
            writer.record emission ∈
              (writer.emitAll toVec fromStr emissions).2

end Outcome

section Proofs
variable {toVec : Json → String} {fromStr : List Char → Option NixMessage}
  {writer : EventWriter}

namespace EventWriter

/-! ## How much the outcome takes -/

theorem utf8Length_takeBytes_le (budget : ℕ) (text : List Char) :
    utf8Length (takeBytes budget text) ≤ budget := by
  induction text generalizing budget with
  | nil => exact Nat.zero_le budget
  | cons character text ih =>
      rw [takeBytes]
      split
      · have hrest := ih (budget - character.utf8Size)
        rw [utf8Length_cons]
        omega
      · exact Nat.zero_le budget

theorem size_boundText_le (text : String) :
    (boundText text).utf8ByteSize ≤ 8207 := by
  rw [boundText]
  split
  · omega
  · have hcut := utf8Length_takeBytes_le 8192 text.toList
    have hmark : "… [truncated]".utf8ByteSize = 15 := by decide
    rw [String.utf8ByteSize_append, utf8ByteSize_ofList, hmark]
    omega

/-- No key of these records is longer than twelve bytes. -/
theorem weightFields_le {fields : List (String × Json)}
    (hkeys : (fields.all fun field => field.1.utf8ByteSize ≤ 12) = true) :
    Json.weightFields fields ≤
      76 * fields.length + (fields.map fun field => field.2.weight).sum := by
  induction fields with
  | nil => exact Nat.le_refl 0
  | cons field fields ih =>
      obtain ⟨key, value⟩ := field
      rw [List.all_cons, Bool.and_eq_true, decide_eq_true_eq] at hkeys
      have hrest := ih hkeys.2
      rw [Json.weightFields, List.length_cons, List.map_cons, List.sum_cons]
      dsimp only at hkeys ⊢
      omega

theorem weight_string {text : String} {limit : ℕ}
    (hlimit : text.utf8ByteSize ≤ limit) :
    (Json.string text).weight ≤ 6 * limit + 2 := by
  rw [Json.weight]
  omega

theorem weight_int64_le (number : Int64) :
    (Json.int number.toInt).weight ≤ 20 := by
  have hlow := number.le_toInt
  have hhigh := number.toInt_lt
  exact Json.weight_int_le (by omega)

theorem weight_int32_le (number : Int32) :
    (Json.int number.toInt).weight ≤ 20 := by
  have hlow := number.le_toInt
  have hhigh := number.toInt_lt
  exact Json.weight_int_le (by omega)

/-- The labels and the clock of a record are short. -/
structure Labelled (record : EventRecord) : Prop where
  version : record.v = eventProtocolVersion
  host : record.host.utf8ByteSize ≤ 63
  plugin : record.plugin.utf8ByteSize ≤ 63
  event : record.event.utf8ByteSize ≤ 8
  clock : record.ts.weight ≤ 24

theorem size_le_of_labelled (hprints : Json.PrintsCompactly toVec)
    {record : EventRecord} (hlabelled : Labelled record)
    {rest : List (String × Json)}
    (hvalue : record.value = .object (record.envelope ++ rest))
    (hkeys : (rest.all fun field => field.1.utf8ByteSize ≤ 12) = true) :
    record.size toVec ≤
      76 * rest.length + (rest.map fun field => field.2.weight).sum + 1237 := by
  have hversion : (Json.int record.v).weight ≤ 20 :=
    Json.weight_int_le (by rw [hlabelled.version]; decide)
  have hhost := weight_string hlabelled.host
  have hplugin := weight_string hlabelled.plugin
  have hevent := weight_string hlabelled.event
  have hclock := hlabelled.clock
  have hall : ((record.envelope ++ rest).all
      fun field => field.1.utf8ByteSize ≤ 12) = true := by
    rw [List.all_append, hkeys, Bool.and_true]
    rfl
  have hlength : record.envelope.length = 5 := rfl
  have henvelope :
      (record.envelope.map fun field => field.2.weight).sum ≤ 854 := by
    simp only [EventRecord.envelope, List.map_cons, List.map_nil, List.sum_cons,
      List.sum_nil]
    omega
  have hfields := weightFields_le hall
  have hsize := hprints.size_le record.value
  rw [List.length_append, List.map_append, List.sum_append] at hfields
  rw [hvalue, Json.weight] at hsize
  rw [EventRecord.size, EventRecord.text, hvalue]
  omega

theorem weight_ts_le {emission : Emission} (hemission : EngineEmission emission) :
    emission.ts.weight ≤ 24 := by
  obtain ⟨literal, hliteral, hshort⟩ := hemission.clock
  rw [hliteral]
  exact hshort

theorem event_of_isFinalProgress {emission : Emission}
    (hfinal : emission.isFinalProgress = true) : emission.event = "progress" := by
  rw [Emission.isFinalProgress, Bool.and_eq_true, decide_eq_true_eq] at hfinal
  exact hfinal.1

theorem event_of_isDoneStatus {emission : Emission}
    (hdone : emission.isDoneStatus = true) : emission.event = "status" := by
  rw [Emission.isDoneStatus, Bool.and_eq_true, decide_eq_true_eq] at hdone
  exact hdone.1

theorem labelled_record (writer : EventWriter)
    (hhost : writer.host.utf8ByteSize ≤ 63)
    (hplugin : writer.plugin.utf8ByteSize ≤ 63) {emission : Emission}
    (hemission : EngineEmission emission) (hterminal : emission.isTerminal = true) :
    Labelled (writer.record emission) := by
  have hevent : emission.event.utf8ByteSize ≤ 8 := by
    rw [Emission.isTerminal, Bool.or_eq_true] at hterminal
    rcases hterminal with hfinal | hdone
    · rw [event_of_isFinalProgress hfinal]
      decide
    · rw [event_of_isDoneStatus hdone]
      decide
  exact ⟨rfl, hhost, hplugin, hevent, weight_ts_le hemission⟩

theorem fields_of_terminal (hbuild : writer.buildFilter.isSome = true)
    {emission : Emission} (hterminal : emission.isTerminal = true) :
    (writer.record emission).fields = boundFields emission.fields := by
  rw [record]
  dsimp only
  rw [if_pos ⟨hbuild, event_of_isTerminal hterminal⟩]

/-- The final progress of the engine, whatever it counted. -/
theorem size_finalProgress_le (hprints : Json.PrintsCompactly toVec)
    (hbuild : writer.buildFilter.isSome = true)
    (hhost : writer.host.utf8ByteSize ≤ 63)
    (hplugin : writer.plugin.utf8ByteSize ≤ 63) {emission : Emission}
    (hemission : EngineEmission emission)
    (hfinal : emission.isFinalProgress = true) :
    (writer.record emission).size toVec ≤ 51118 := by
  obtain ⟨tracker, hfields⟩ := hemission.progress hfinal
  have hterminal : emission.isTerminal = true := by
    rw [Emission.isTerminal, hfinal, Bool.true_or]
  have hlabelled := labelled_record writer hhost hplugin hemission hterminal
  have hevent : (writer.record emission).event = "progress" :=
    event_of_isFinalProgress hfinal
  have hvalue : (writer.record emission).value = .object
      ((writer.record emission).envelope ++
        [("built", .int tracker.built.toInt),
          ("finished", .int tracker.finished.toInt),
          ("fetched", .int tracker.fetched.toInt),
          ("fetched_done", .int tracker.fetchedDone.toInt),
          ("errors", .int tracker.errors.toInt),
          ("current", .string (boundText tracker.current)),
          ("final", .bool true)]) := by
    rw [EventRecord.value, fields_of_terminal hbuild hterminal, hfields, hevent]
    rfl
  have hsize := size_le_of_labelled hprints hlabelled hvalue rfl
  have hcurrent := weight_string (size_boundText_le tracker.current)
  have hbuilt := weight_int64_le tracker.built
  have hfinished := weight_int64_le tracker.finished
  have hfetched := weight_int64_le tracker.fetched
  have hdone := weight_int64_le tracker.fetchedDone
  have herrors := weight_int64_le tracker.errors
  have hmark : (Json.bool true).weight = 5 := rfl
  simp only [List.map_cons, List.map_nil, List.sum_cons, List.sum_nil,
    List.length_cons, List.length_nil] at hsize
  omega

/-- The final status of the engine. -/
theorem size_doneStatus_le (hprints : Json.PrintsCompactly toVec)
    (hbuild : writer.buildFilter.isSome = true)
    (hhost : writer.host.utf8ByteSize ≤ 63)
    (hplugin : writer.plugin.utf8ByteSize ≤ 63) {emission : Emission}
    (hemission : EngineEmission emission)
    (hdone : emission.isDoneStatus = true) :
    (writer.record emission).size toVec ≤ 1500 := by
  obtain ⟨rc, hfields⟩ := hemission.status hdone
  have hterminal : emission.isTerminal = true := by
    rw [Emission.isTerminal, hdone, Bool.or_true]
  have hlabelled := labelled_record writer hhost hplugin hemission hterminal
  have hevent : (writer.record emission).event = "status" :=
    event_of_isDoneStatus hdone
  have hvalue : (writer.record emission).value = .object
      ((writer.record emission).envelope ++
        [("rc", .int rc.toInt), ("state", .string "done")]) := by
    rw [EventRecord.value, fields_of_terminal hbuild hterminal, hfields, hevent]
    rfl
  have hsize := size_le_of_labelled hprints hlabelled hvalue rfl
  have hrc := weight_int32_le rc
  have hstate : (Json.string "done").weight ≤ 6 * 4 + 2 :=
    weight_string (by decide)
  simp only [List.map_cons, List.map_nil, List.sum_cons, List.sum_nil,
    List.length_cons, List.length_nil] at hsize
  omega

theorem size_notice_le (hprints : Json.PrintsCompactly toVec) {ts : Json}
    (hlabelled : Labelled (writer.notice ts)) :
    (writer.notice ts).size toVec ≤ 2200 := by
  have hvalue : (writer.notice ts).value = .object
      ((writer.notice ts).envelope ++ (writer.notice ts).fields) := rfl
  have hsize := size_le_of_labelled hprints hlabelled hvalue rfl
  have hline : (Json.string ("build log size cap reached; subsequent detail " ++
      "omitted (final counters/status retained)")).weight ≤ 6 * 100 + 2 :=
    weight_string (by decide)
  have hstream : (Json.string "mandala").weight ≤ 6 * 7 + 2 :=
    weight_string (by decide)
  simp only [notice, List.map_cons, List.map_nil, List.sum_cons, List.sum_nil,
    List.length_cons, List.length_nil] at hsize
  rw [notice]
  omega

theorem terminalSize_le {before : List Emission} {bound : ℕ}
    (hcount : before.countP Emission.isTerminal ≤ 1)
    (hsizes : ∀ other ∈ before, other.isTerminal = true →
      (writer.record other).size toVec ≤ bound) :
    writer.terminalSize toVec before ≤ bound := by
  have hterminal : ∀ other ∈ before.filter Emission.isTerminal,
      (writer.record other).size toVec ≤ bound := by
    intro other hmem
    obtain ⟨hbefore, hterminal⟩ := List.mem_filter.mp hmem
    exact hsizes other hbefore hterminal
  rw [List.countP_eq_length_filter] at hcount
  rw [terminalSize]
  cases hterminals : before.filter Emission.isTerminal with
  | nil => exact Nat.zero_le bound
  | cons other rest =>
      rw [hterminals] at hcount hterminal
      rw [List.length_cons] at hcount
      have hrest : rest = [] := List.eq_nil_of_length_eq_zero (by omega)
      rw [hrest, List.map_singleton, List.sum_singleton]
      exact hterminal other List.mem_cons_self

/-- What ends a build is written after at most one other such record, where both
fit the reserve with a notice. -/
theorem mem_emitAll_of_count (hbuild : writer.buildFilter.isSome = true)
    (hbytes : writer.bytes = 0) {before : List Emission} {emission : Emission}
    {first own noted : ℕ} (hterminal : emission.isTerminal = true)
    (hcount : before.countP Emission.isTerminal ≤ 1)
    (hfirst : ∀ other ∈ before, other.isTerminal = true →
      (writer.record other).size toVec ≤ first)
    (hown : (writer.record emission).size toVec ≤ own)
    (hnoted : ∀ other ∈ before, (writer.notice other.ts).size toVec ≤ noted)
    (hroom : first + own + noted ≤ terminalReserve) (after : List Emission) :
    writer.record emission ∈
      (writer.emitAll toVec fromStr (before ++ emission :: after)).2 := by
  have hbefore := terminalSize_le hcount hfirst
  refine mem_emitAll_of_reserve hbuild (spent_of_fresh hbytes noted) hterminal
    hnoted ?_ after
  rw [terminalSize_append, terminalSize_of_terminal hterminal]
  omega

/-- The writer of a build log has short labels. -/
theorem host_of_new {host plugin : String}
    (hnew : EventWriter.new "build" host plugin (.ok 0) = .ok writer) :
    writer.host.utf8ByteSize ≤ 63 := by
  rw [(labels_of_new hnew).1]
  rw [EventWriter.new] at hnew
  split at hnew
  · cases hnew
  · next hvalid =>
      rw [Bool.or_eq_true, not_or] at hvalid
      have hhost : isValidMemberName host = true := by simpa using hvalid.2
      simp only [isValidMemberName, Bool.and_eq_true, decide_eq_true_eq]
        at hhost
      exact hhost.1.1.1.1.2

/-- The engine's first final progress and first final status are kept. -/
theorem outcomeKept_of_new (hprints : Json.PrintsCompactly toVec)
    (fromStr : List Char → Option NixMessage) {host plugin : String}
    (hnew : EventWriter.new "build" host plugin (.ok 0) = .ok writer)
    (hplugin : plugin.utf8ByteSize ≤ 63) {emissions : List Emission}
    (hengine : ∀ emission ∈ emissions, EngineEmission emission) :
    OutcomeKept toVec fromStr writer emissions := by
  obtain ⟨hbytes, -, hbuild⟩ := fresh_of_new hnew
  have hhost := host_of_new hnew
  rw [← (labels_of_new hnew).2] at hplugin
  have hprogress {emission : Emission} (hmem : emission ∈ emissions) :=
    @size_finalProgress_le toVec writer hprints hbuild hhost hplugin emission
      (hengine emission hmem)
  have hstatus {emission : Emission} (hmem : emission ∈ emissions) :=
    @size_doneStatus_le toVec writer hprints hbuild hhost hplugin emission
      (hengine emission hmem)
  have hnotice {emission : Emission} (hmem : emission ∈ emissions) :
      (writer.notice emission.ts).size toVec ≤ 2200 :=
    size_notice_le hprints
      ⟨rfl, hhost, hplugin, (by decide : "line".utf8ByteSize ≤ 8),
        weight_ts_le (hengine emission hmem)⟩
  constructor
  · rintro before emission after rfl hfinal hnone hcount
    have hterminal : emission.isTerminal = true := by
      rw [Emission.isTerminal, hfinal, Bool.true_or]
    have hfirst : ∀ other ∈ before, other.isTerminal = true →
        (writer.record other).size toVec ≤ 1500 := by
      intro other hmem hother
      rw [Emission.isTerminal, hnone other hmem, Bool.false_or] at hother
      exact hstatus (List.mem_append_left _ hmem) hother
    have hown := hprogress
      (List.mem_append_right before List.mem_cons_self) hfinal
    exact mem_emitAll_of_count hbuild hbytes hterminal hcount hfirst hown
      (fun other hmem => hnotice (List.mem_append_left _ hmem)) (by decide) after
  · rintro before emission after rfl hdone hnone hcount
    have hterminal : emission.isTerminal = true := by
      rw [Emission.isTerminal, hdone, Bool.or_true]
    have hfirst : ∀ other ∈ before, other.isTerminal = true →
        (writer.record other).size toVec ≤ 51118 := by
      intro other hmem hother
      rw [Emission.isTerminal, hnone other hmem, Bool.or_false] at hother
      exact hprogress (List.mem_append_left _ hmem) hother
    have hown := hstatus
      (List.mem_append_right before List.mem_cons_self) hdone
    exact mem_emitAll_of_count hbuild hbytes hterminal hcount hfirst hown
      (fun other hmem => hnotice (List.mem_append_left _ hmem)) (by decide) after

end EventWriter

/-- **The cap on the build log.** A fresh build log keeps to its cap whatever is
emitted, and of what the engine emits it keeps the first final progress and the
first final status that come after at most one other. -/
theorem build_log_cap (hprints : Json.PrintsCompactly toVec)
    (fromStr : List Char → Option NixMessage) {host plugin : String}
    (hnew : EventWriter.new "build" host plugin (.ok 0) = .ok writer)
    (emissions : List Emission) :
    BuildLogCapped toVec fromStr writer emissions ∧
      (plugin.utf8ByteSize ≤ 63 →
        (∀ emission ∈ emissions, EngineEmission emission) →
          OutcomeKept toVec fromStr writer emissions) :=
  ⟨EventWriter.buildLogCapped_of_new hprints fromStr hnew emissions,
    fun hplugin hengine =>
      EventWriter.outcomeKept_of_new hprints fromStr hnew hplugin hengine⟩

end Proofs

/-! ### A build log without its final status -/

def controllerLog : EventWriter where
  host := "controller"
  plugin := "build"
  buildFilter := some BuildLogFilter.default
  bytes := 0
  truncated := false

def idleProgress : Emission where
  event := "progress"
  fields := BuildTracker.finalFields
    { built := 0, finished := 0, fetched := 0, fetchedDone := 0, errors := 0,
      current := "" }
  ts := .float "0.0"

def cleanStatus : Emission where
  event := "status"
  fields := doneFields 0
  ts := .float "0.0"

theorem engine_idleProgress : EngineEmission idleProgress where
  clock := ⟨"0.0", rfl, by decide⟩
  progress _ := ⟨_, rfl⟩
  status hdone := absurd hdone (by decide)

theorem engine_cleanStatus : EngineEmission cleanStatus where
  clock := ⟨"0.0", rfl, by decide⟩
  progress hfinal := absurd hfinal (by decide)
  status _ := ⟨0, rfl⟩

/-- One build: its final progress, then its final status. -/
theorem build_log_cap_controller :
    BuildLogCapped Json.print (fun _ => none) controllerLog
        [idleProgress, cleanStatus] ∧
      OutcomeKept Json.print (fun _ => none) controllerLog
        [idleProgress, cleanStatus] := by
  have hnew : EventWriter.new "build" "controller" "build" (.ok 0) =
      .ok controllerLog := by decide +kernel
  obtain ⟨hcapped, hkept⟩ := build_log_cap Json.print_compactly
    (fun _ => none) hnew [idleProgress, cleanStatus]
  refine ⟨hcapped, hkept (by decide) ?_⟩
  intro emission hmem
  rcases List.mem_pair.mp hmem with rfl | rfl
  · exact engine_idleProgress
  · exact engine_cleanStatus

open EventWriter

/-- The same final progress again and again fills the log, and the notice comes
on top. -/
theorem bytes_replicate {toVec : Json → String}
    {fromStr : List Char → Option NixMessage} {writer : EventWriter}
    (hbuild : writer.buildFilter.isSome = true)
    (hopen : writer.truncated = false)
    (hbytes : writer.bytes ≤ buildLogMaxBytes - 1024) {emission : Emission}
    (hterminal : emission.isTerminal = true)
    (hnotice : (writer.notice emission.ts).size toVec ≤ 1024) {count : ℕ}
    (hcrowded : buildLogMaxBytes - 1024 <
      writer.bytes + count * (writer.record emission).size toVec) :
    buildLogMaxBytes - 1024 + (writer.notice emission.ts).size toVec <
      (writer.emitAll toVec fromStr (List.replicate count emission)).1.bytes +
        (writer.record emission).size toVec := by
  have hmargin : buildLogMaxBytes - 1024 + 1024 = buildLogMaxBytes := by decide
  induction count generalizing writer with
  | zero => omega
  | succ count ih =>
      have hevent := event_of_isTerminal hterminal
      have hsame := (emitAt_cases toVec fromStr writer emission).1
      have hown := @build_emitAt toVec fromStr writer hbuild emission
      have hstep := @buildStep_emitAt toVec writer hbuild fromStr emission
      rw [List.replicate_succ, emitAll]
      dsimp only
      by_cases hroom : writer.bytes + (writer.record emission).size toVec ≤
          buildLogMaxBytes - 1024
      · have hfits : writer.full toVec (writer.record emission) = false := by
          rw [full_eq_false_iff hbuild, limit, if_pos hterminal]
          exact ⟨fun _ => hopen, hroom⟩
        have hlater := @ih
          (writer.emitAt toVec fromStr emission).1 hown
        rw [hsame.record_eq, hsame.notice_eq,
          emitAt_of_fits toVec fromStr hevent hfits] at hlater
        rw [emitAt_of_fits toVec fromStr hevent hfits]
        refine hlater hopen hroom hnotice ?_
        change buildLogMaxBytes - 1024 < writer.bytes +
          (writer.record emission).size toVec +
            count * (writer.record emission).size toVec
        rw [Nat.succ_mul] at hcrowded
        omega
      · have hfull : writer.full toVec (writer.record emission) = true := by
          rw [← Bool.not_eq_false, full_eq_false_iff hbuild, limit,
            if_pos hterminal]
          exact fun hfits => hroom hfits.2
        have hfirst : (writer.emitAt toVec fromStr emission).1.bytes =
            writer.bytes + (writer.notice emission.ts).size toVec := by
          rw [emitAt_of_not_nixlog toVec fromStr writer hevent, if_pos hfull,
            omitRecord, hopen]
          dsimp only
          rw [if_neg (by decide), if_pos (by omega)]
          rfl
        have hgrows := (@bytes_emitAll toVec fromStr _ hown
          (bytes_le_of_step hstep (by omega))
          (List.replicate count emission)).1
        omega

theorem size_print (record : EventRecord) :
    record.size Json.print = utf8Length record.value.characters + 1 := by
  rw [EventRecord.size, EventRecord.text, Json.print, utf8ByteSize_ofList]

/-- Once the log is crowded, there is no room for the final status. -/
theorem full_of_crowded {crowded : EventWriter}
    (hsame : SameStream crowded controllerLog)
    (hbytes : buildLogMaxBytes - 1024 +
        (controllerLog.notice idleProgress.ts).size Json.print <
      crowded.bytes + (controllerLog.record idleProgress).size Json.print) :
    crowded.full Json.print (crowded.record cleanStatus) = true := by
  have hsizes : (controllerLog.record idleProgress).size Json.print ≤
      (controllerLog.notice idleProgress.ts).size Json.print +
        (controllerLog.record cleanStatus).size Json.print := by
    rw [size_print, size_print, size_print]
    decide +kernel
  rw [← Bool.not_eq_false, full_eq_false_iff (hsame.bounded_eq.trans rfl),
    limit, if_pos (by decide), hsame.record_eq]
  rintro ⟨-, hroom⟩
  omega

theorem cleanStatus_notMem_of_full {crowded : EventWriter}
    (hfull : crowded.full Json.print (crowded.record cleanStatus) = true) :
    controllerLog.record cleanStatus ∉
      (crowded.emitAll Json.print (fun _ => none) [cleanStatus]).2 := by
  intro hmem
  have hrecords := emitAt_of_not_nixlog Json.print (fun _ => none) crowded
    (by decide : cleanStatus.event ≠ "nixlog")
  rw [if_pos hfull] at hrecords
  rw [emitAll, emitAll] at hmem
  dsimp only at hmem
  rw [hrecords, List.append_nil] at hmem
  obtain ⟨-, hnone | hnotice⟩ :=
    omitRecord_cases Json.print crowded cleanStatus.ts
  · rw [hnone] at hmem
    cases hmem
  · rw [hnotice, List.mem_singleton] at hmem
    exact absurd (congrArg EventRecord.event hmem) (by decide : "status" ≠ "line")

/-- Enough final progress leaves out the final status. -/
theorem cleanStatus_notMem {count : ℕ} (hcount : buildLogMaxBytes ≤ count) :
    controllerLog.record cleanStatus ∉
      (controllerLog.emitAll Json.print (fun _ => none)
        (List.replicate count idleProgress ++ [cleanStatus])).2 := by
  intro hmem
  have hprogress : 1 ≤ (controllerLog.record idleProgress).size Json.print := by
    rw [EventRecord.size]
    omega
  have hnotice :
      (controllerLog.notice idleProgress.ts).size Json.print ≤ 1024 := by
    rw [size_print]
    decide +kernel
  have hcrowded : buildLogMaxBytes - 1024 < controllerLog.bytes +
      count * (controllerLog.record idleProgress).size Json.print := by
    have hbudget : 0 < buildLogMaxBytes := by decide
    have hall := Nat.le_mul_of_pos_right count hprogress
    omega
  have hbytes := @bytes_replicate Json.print (fun _ => none) controllerLog rfl
    rfl (by decide) idleProgress (by decide) hnotice count hcrowded
  have hsame := sameStream_emitAll Json.print (fun _ => none) controllerLog
    (List.replicate count idleProgress)
  rw [emitAll_append] at hmem
  rcases List.mem_append.mp hmem with hbefore | hlast
  · obtain ⟨emission, hemission, hwritten⟩ := mem_emitAll
      Json.print (fun _ => none) hbefore
    rw [List.eq_of_mem_replicate hemission] at hwritten
    rcases hwritten with heq | heq
    · exact absurd (congrArg EventRecord.event heq)
        (by decide : "status" ≠ "progress")
    · exact absurd (congrArg EventRecord.event heq)
        (by decide : "status" ≠ "line")
  · exact cleanStatus_notMem_of_full (full_of_crowded hsame hbytes) hlast

/-- As many final records of a build as there are bytes in its log leave out its
final status. -/
theorem cleanStatus_not_kept :
    ¬ ∀ emissions : List Emission,
      (∀ emission ∈ emissions, EngineEmission emission) →
        ∀ before emission after, emissions = before ++ emission :: after →
          emission.isDoneStatus = true →
            (∀ other ∈ before, other.isDoneStatus = false) →
              controllerLog.record emission ∈
                (controllerLog.emitAll Json.print (fun _ => none)
                  emissions).2 := by
  intro hkept
  refine cleanStatus_notMem (Nat.le_refl buildLogMaxBytes)
    (hkept _ ?_ (List.replicate buildLogMaxBytes idleProgress) cleanStatus [] rfl
      (by decide) ?_)
  · intro emission hmem
    rcases List.mem_append.mp hmem with hfinal | hdone
    · rw [List.eq_of_mem_replicate hfinal]
      exact engine_idleProgress
    · rw [List.mem_singleton.mp hdone]
      exact engine_cleanStatus
  · intro other hother
    rw [List.eq_of_mem_replicate hother]
    decide

end Mandala.Runner
