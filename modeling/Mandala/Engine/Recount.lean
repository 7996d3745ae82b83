import Mandala.Engine.HostPipeline
import Mandala.Runner.Writer

/-!
# What a host's stream says of its deployment

A pipeline that could write all of its records tells how it ended: some records
on the way, the milestone of its verdict unless it failed, and the return code.
A reader gets the verdict from the last two, so it has it exactly when the
writer did not leave them out.
-/

namespace Mandala.Engine

open Mandala.Data Mandala.Deploy Mandala.Effects Mandala.Events Mandala.Runner
  Mandala.Forest

/-! ## The records of a pipeline -/

/-- The records of a conversation, in order. -/
def emitted (trace : Trace EngineEffects) : List RecordEffect :=
  (leftTrace trace).filterMap fun exchange =>
    match exchange.effect with
    | .emit event fields => some (.emit event fields)
    | .openStream .. => none

/-- Every record that was emitted could be written. -/
def EmitsOk (trace : Trace EngineEffects) : Prop :=
  ∀ exchange ∈ leftTrace trace, ∀ event fields,
    exchange.effect = .emit event fields → exchange.reply = .ok ()

/-- The stream was opened. -/
def opened (trace : Trace EngineEffects) : Bool :=
  (leftTrace trace).any fun exchange =>
    match exchange.effect, exchange.reply with
    | .openStream .., .ok () => true
    | _, _ => false

theorem emitted_append (first second : Trace EngineEffects) :
    emitted (first ++ second) = emitted first ++ emitted second := by
  rw [emitted, leftTrace_append, List.filterMap_append]
  rfl

theorem EmitsOk.of_append {first second : Trace EngineEffects}
    (hok : EmitsOk (first ++ second)) : EmitsOk second := by
  intro exchange hmem
  apply hok exchange
  rw [leftTrace_append]
  exact List.mem_append_right _ hmem

theorem EmitsOk.tail {exchange : Exchange EngineEffects}
    {trace : Trace EngineEffects} (hok : EmitsOk (exchange :: trace)) :
    EmitsOk trace :=
  EmitsOk.of_append (show EmitsOk ([exchange] ++ trace) from hok)

theorem EmitsOk.head {event : String} {fields : List (String × Json)}
    {reply : Except IoError Unit} {trace : Trace EngineEffects}
    (hok : EmitsOk (⟨.inl (.emit event fields), reply⟩ :: trace)) :
    reply = .ok () := by
  apply hok ⟨.emit event fields, reply⟩ _ event fields rfl
  rw [leftTrace_inl]
  exact List.mem_cons_self

/-- The return code a result stands for. -/
def HostDeployResult.rc (result : HostDeployResult) : Int :=
  if result.error.isSome then 1 else 0

/-- The records a result is told by. -/
inductive Ending : List RecordEffect → HostDeployResult → Prop where
  | failed (host error : String) :
      Ending [doneStatus 1] { host, state := .failed, error := some error }
  | outcome {host milestone : String} {state : HostState}
      {error : Option String} (houtcome : Outcome milestone state error) :
      Ending [milestoneRecord milestone,
        doneStatus ({ host, state, error : HostDeployResult }).rc]
        { host, state, error }

/-- Records on the way, then those that tell the result. -/
def Tells (host : String) (records : List RecordEffect)
    (result : HostDeployResult) : Prop :=
  ∃ before ending, records = before ++ ending ∧
    (∀ effect ∈ before, Passing host effect) ∧ Ending ending result

theorem Tells.append {host : String} {before records : List RecordEffect}
    {result : HostDeployResult} (htells : Tells host records result)
    (hbefore : ∀ effect ∈ before, Passing host effect) :
    Tells host (before ++ records) result := by
  obtain ⟨middle, ending, rfl, hmiddle, hending⟩ := htells
  refine ⟨before ++ middle, ending, (List.append_assoc ..).symm, ?_, hending⟩
  intro effect hmem
  rcases List.mem_append.mp hmem with hfirst | hlater
  · exact hbefore effect hfirst
  · exact hmiddle effect hlater

theorem Tells.cons {host : String} {effect : RecordEffect}
    {records : List RecordEffect} {result : HostDeployResult}
    (htells : Tells host records result) (heffect : Passing host effect) :
    Tells host (effect :: records) result := by
  have hbefore : ∀ other ∈ [effect], Passing host other := by
    intro other hmem
    rw [List.mem_singleton.mp hmem]
    exact heffect
  exact htells.append hbefore

theorem Passing.emitted_cons {host : String} {effect : RecordEffect}
    (heffect : Passing host effect) (reply : Except IoError Unit)
    (trace : Trace EngineEffects) :
    emitted (⟨.inl effect, reply⟩ :: trace) = effect :: emitted trace := by
  cases heffect <;> rfl

theorem OnlyLines.passing {host : String} {trace : Trace EngineEffects}
    (hlines : OnlyLines trace) :
    ∀ effect ∈ emitted trace, Passing host effect := by
  intro effect hmem
  obtain ⟨exchange, hexchange, heffect⟩ := List.mem_filterMap.mp hmem
  obtain ⟨line, hline⟩ := hlines exchange hexchange
  rw [hline] at heffect
  cases heffect
  exact .line line

/-- A pipeline that wrote all of its records told its result. -/
def Truthful (host : String) (trace : Trace EngineEffects)
    (result : HostDeployResult) : Prop :=
  EmitsOk trace → Tells host (emitted trace) result

theorem truthful_failedHost (host error : String) :
    HostEnsures (failedHost host error) (Truthful host) := by
  apply hostEnsures_bind
  apply hostEnsures_record
  intro line
  apply hostEnsures_bind
  apply hostEnsures_record
  intro written
  cases written with
  | error eventError =>
      apply hostEnsures_pure
      intro hok
      cases EmitsOk.head hok.tail
  | ok _ =>
      apply hostEnsures_pure
      intro _
      exact ⟨[lineRecord error], [doneStatus 1], rfl,
        by simpa using Passing.line error, .failed host error⟩

theorem carried_truthful (host : String) : Carried host (Truthful host) where
  passing effect heffect reply trace result htruthful := by
    intro hok
    rw [heffect.emitted_cons]
    exact (htruthful hok.tail).cons heffect
  reports outer hlines trace result htruthful := by
    intro hok
    rw [emitted_append]
    exact (htruthful hok.of_append).append hlines.passing
  failed error := truthful_failedHost host error
  concluded milestone state error houtcome message := by
    apply hostEnsures_bind
    apply hostEnsures_record
    intro written
    cases written with
    | error eventError =>
        apply (truthful_failedHost host _).mono
        intro trace result _ hok
        cases EmitsOk.head hok
    | ok _ =>
        apply hostEnsures_bind
        apply hostEnsures_record
        intro ended
        cases ended with
        | error eventError =>
            apply hostEnsures_pure
            intro hok
            cases EmitsOk.head hok.tail
        | ok _ =>
            apply hostEnsures_pure
            intro _
            exact ⟨[], _, rfl, fun _ hmem => (List.not_mem_nil hmem).elim,
              .outcome houtcome⟩

/-- What a host's conversation says once all of its records were written: its
result, unless the stream could not even be opened. -/
structure Recounted (host : String) (trace : Trace EngineEffects)
    (result : HostDeployResult) : Prop where
  told : opened trace → Tells host (emitted trace) result
  silent : opened trace = false → emitted trace = []

section Recounting

variable (host : String) (run : RegisteredDeployRun)

theorem recounted_open {directory stream plugin : String}
    {rest : HostProgram HostDeployResult}
    {onError : IoError → HostDeployResult}
    (hrest : HostEnsures rest (Truthful host)) :
    HostEnsures (do
        match ← record (.openStream directory stream host plugin) with
        | .error error => return onError error
        | .ok () => rest)
      fun trace result => EmitsOk trace → Recounted host trace result := by
  apply hostEnsures_bind
  apply hostEnsures_record
  intro reply
  cases reply with
  | error error =>
      apply hostEnsures_pure
      intro _
      exact ⟨fun hopened => (Bool.false_ne_true hopened).elim, fun _ => rfl⟩
  | ok _ =>
      apply hrest.mono
      intro trace result htruthful hok
      refine ⟨fun _ => htruthful hok.tail, ?_⟩
      intro hclosed
      cases hclosed

theorem recounted_deployHostWith
    (fromValue : Json → Except String FlattenedDeploySettings)
    (built : BuiltProfiles) (programs : DeployPrograms) :
    HostEnsures (deployHostWith fromValue run built host programs)
      fun trace result => EmitsOk trace → Recounted host trace result := by
  apply recounted_open
  apply hostEnsures_bind
  apply hostEnsures_record
  intro written
  cases written with
  | error error =>
      apply hostEnsures_pure
      intro hok
      cases EmitsOk.head hok
  | ok _ =>
      apply ((carried_truthful host).started fromValue run built programs).mono
      intro trace result htruthful hok
      exact (htruthful hok.tail).cons .start

theorem recounted_abnormalHost (error : String) :
    HostEnsures (abnormalHost run host error)
      fun trace result => EmitsOk trace → Recounted host trace result := by
  apply recounted_open
  apply (carried_truthful host).recorded .start
  intro _
  exact truthful_failedHost host error

end Recounting

/-! ## What a reader makes of the records -/

/-- What the pipeline asks for, at one time. -/
def stamped (ts : Json) : RecordEffect → Option Emission
  | .emit event fields => some { event, fields, ts }
  | .openStream .. => none

/-- An emission as the pipeline asked for it. -/
def emissionEffect (emission : Emission) : RecordEffect :=
  .emit emission.event emission.fields

theorem map_stamped (ts : Json) (trace : Trace EngineEffects) :
    ((emitted trace).filterMap (stamped ts)).map emissionEffect =
      emitted trace := by
  rw [emitted, List.filterMap_filterMap, List.map_filterMap]
  congr 1
  funext exchange
  obtain ⟨effect, reply⟩ := exchange
  cases effect <;> rfl

/-- A registry that takes every record. -/
theorem emitsOk_runAgainst {A : Type}
    {answer : (effect : EngineEffects.Request) → EngineEffects.Reply effect}
    (hanswer : ∀ effect, answer (.inl effect) = Except.ok ())
    (program : Program EngineEffects A) :
    EmitsOk (program.runAgainst answer).1 := by
  intro exchange hmem event fields _
  obtain ⟨outer, houter, hleft⟩ := List.mem_filterMap.mp hmem
  have hreply := reply_of_mem_runAgainst houter
  obtain ⟨effect, reply⟩ := outer
  cases effect with
  | inl effect =>
      cases hleft
      exact hreply.trans (hanswer effect)
  | inr effect => cases hleft

/-- No verdict yet. -/
structure Undecided (run : HostRun) : Prop where
  running : isTerminal run.state = false
  unsettled : run.rc = none

theorem feed_line {event : Json} (hevent : event.getStr "event" = some "line")
    (run : HostRun) :
    (run.feed event).state = run.state ∧ (run.feed event).rc = run.rc := by
  simp [HostRun.feed, hevent]

theorem feed_milestone {event : Json} {name : String}
    (hevent : event.getStr "event" = some "milestone")
    (hname : event.getStr "milestone" = some name) (run : HostRun) :
    (run.feed event).state = HostRun.stateAfterMilestone run.state name ∧
      (run.feed event).rc = run.rc := by
  simp [HostRun.feed, hevent, hname]

theorem feed_start {event : Json}
    (hevent : event.getStr "event" = some "status")
    (hstate : event.getStr "state" = some "start") (run : HostRun) :
    run.feed event = run := by
  simp [HostRun.feed, hevent, hstate]

theorem feed_done {event : Json} {rc : Int}
    (hevent : event.getStr "event" = some "status")
    (hstate : event.getStr "state" = some "done")
    (hrc : event.getI64 "rc" = some rc) (run : HostRun) :
    (run.feed event).state = HostRun.stateAfterDone run.state (some rc) ∧
      (run.feed event).rc = some rc := by
  simp [HostRun.feed, hevent, hstate, hrc]

/-- A short field is printed as it was emitted, on any stream. -/
theorem getStr_record (writer : EventWriter) {emission : Emission}
    {key text : String} (hkey : key ∉ EventRecord.envelopeKeys)
    (hfield : emission.fields.lookup key = some (.string text))
    (hshort : text.utf8ByteSize ≤ 8192) :
    (writer.record emission).value.getStr key = some text := by
  rw [Json.getStr, EventRecord.value_field _ hkey, EventWriter.record]
  dsimp only
  split
  · rw [boundFields_lookup, hfield]
    simp [boundStrings, boundText, hshort, Json.asStr]
  · rw [hfield]
    rfl

theorem getI64_record (writer : EventWriter) {emission : Emission}
    {key : String} {value : Int} (hkey : key ∉ EventRecord.envelopeKeys)
    (hfield : emission.fields.lookup key = some (.int value)) :
    (writer.record emission).value.getI64 key = Json.asI64 (.int value) := by
  rw [Json.getI64, EventRecord.value_field _ hkey, EventWriter.record]
  dsimp only
  split
  · rw [boundFields_lookup, hfield]
    simp [boundStrings]
  · rw [hfield]
    rfl

theorem feed_notice (writer : EventWriter) (ts : Json) (run : HostRun) :
    (run.feed (writer.notice ts).value).state = run.state ∧
      (run.feed (writer.notice ts).value).rc = run.rc :=
  feed_line ((writer.notice ts).value_event) run

theorem feed_milestoneRecord (writer : EventWriter) {emission : Emission}
    {name : String}
    (hemission : emissionEffect emission = milestoneRecord name)
    (hshort : name.utf8ByteSize ≤ 8192) (run : HostRun) :
    (run.feed (writer.record emission).value).state =
        HostRun.stateAfterMilestone run.state name ∧
      (run.feed (writer.record emission).value).rc = run.rc := by
  obtain ⟨hevent, hfields⟩ := RecordEffect.emit.inj hemission
  apply feed_milestone
  · rw [EventRecord.value_event]
    exact congrArg some hevent
  · apply getStr_record writer (by decide) _ hshort
    rw [hfields]
    rfl

theorem feed_passing (writer : EventWriter) {host : String}
    {emission : Emission}
    (hemission : Passing host (emissionEffect emission)) {run : HostRun}
    (hrun : Undecided run) :
    Undecided (run.feed (writer.record emission).value) := by
  generalize heffect : emissionEffect emission = effect at hemission
  cases hemission with
  | start =>
      obtain ⟨hevent, hfields⟩ := RecordEffect.emit.inj heffect
      rw [feed_start]
      · exact hrun
      · rw [EventRecord.value_event]
        exact congrArg some hevent
      · apply getStr_record writer (by decide) _ (by decide)
        rw [hfields]
        rfl
  | line text =>
      obtain ⟨hevent, -⟩ := RecordEffect.emit.inj heffect
      have hline : (writer.record emission).value.getStr "event" =
          some "line" := by
        rw [EventRecord.value_event]
        exact congrArg some hevent
      obtain ⟨hstate, hrc⟩ := feed_line hline run
      exact ⟨by rw [hstate, hrun.running], by rw [hrc, hrun.unsettled]⟩
  | milestone hname =>
      obtain ⟨hstate, hrc⟩ := feed_milestoneRecord writer heffect
        (by simp at hname; rcases hname with rfl | rfl | rfl <;> decide) run
      refine ⟨?_, by rw [hrc, hrun.unsettled]⟩
      have hopen := hrun.running
      simp only [List.mem_cons, List.not_mem_nil, or_false] at hname
      rw [hstate, HostRun.stateAfterMilestone, hopen]
      rcases hname with rfl | rfl | rfl <;> rfl

theorem feed_doneStatus (writer : EventWriter) {emission : Emission}
    {result : HostDeployResult}
    (hemission : emissionEffect emission = doneStatus result.rc)
    (run : HostRun) :
    (run.feed (writer.record emission).value).state =
        HostRun.stateAfterDone run.state (some result.rc) ∧
      (run.feed (writer.record emission).value).rc = some result.rc := by
  obtain ⟨hevent, hfields⟩ := RecordEffect.emit.inj hemission
  apply feed_done
  · rw [EventRecord.value_event]
    exact congrArg some hevent
  · apply getStr_record writer (by decide) _ (by decide)
    rw [hfields]
    rfl
  · have hfield : emission.fields.lookup "rc" = some (.int result.rc) := by
      rw [hfields]
      rfl
    rw [getI64_record writer (by decide) hfield]
    unfold HostDeployResult.rc
    split <;> rfl

/-- The records a reader takes a verdict from. -/
inductive Decisive : RecordEffect → Prop where
  | milestone {name : String} {state : HostState} {error : Option String}
      (houtcome : Outcome name state error) : Decisive (milestoneRecord name)
  | done (rc : Int) : Decisive (doneStatus rc)

theorem Passing.not_decisive {host : String} {effect : RecordEffect}
    (hpassing : Passing host effect) : ¬ Decisive effect := by
  intro hdecisive
  cases hpassing with
  | start =>
      generalize heffect : startStatus host = effect at hdecisive
      cases hdecisive with
      | milestone houtcome =>
          have hevent := (RecordEffect.emit.inj heffect).1
          exact absurd hevent (by decide)
      | done rc =>
          have hfields := (RecordEffect.emit.inj heffect).2
          simp at hfields
  | line text =>
      generalize heffect : lineRecord text = effect at hdecisive
      cases hdecisive with
      | milestone houtcome =>
          exact absurd (RecordEffect.emit.inj heffect).1 (by decide)
      | done rc => exact absurd (RecordEffect.emit.inj heffect).1 (by decide)
  | @milestone name hname =>
      generalize heffect : milestoneRecord name = effect at hdecisive
      cases hdecisive with
      | milestone houtcome =>
          have hfields := (RecordEffect.emit.inj heffect).2
          simp only [List.cons.injEq, Prod.mk.injEq, Json.string.injEq,
            true_and, and_true] at hfields
          subst hfields
          cases houtcome <;> simp at hname
      | done rc => exact absurd (RecordEffect.emit.inj heffect).1 (by decide)

section Verdict

variable (toVec : Json → String) (fromStr : List Char → Option NixMessage)

/-- Every decisive record still goes into the stream when its turn comes. -/
def KeepsVerdict (writer : EventWriter) : List Emission → Prop
  | [] => True
  | emission :: emissions =>
      (Decisive (emissionEffect emission) →
        writer.full toVec (writer.record emission) = false) ∧
      KeepsVerdict (writer.emitAt toVec fromStr emission).1 emissions

theorem keepsVerdict_append {writer : EventWriter} {before after : List Emission}
    (hbefore : ∀ emission ∈ before, ¬ Decisive (emissionEffect emission)) :
    KeepsVerdict toVec fromStr writer (before ++ after) ↔
      KeepsVerdict toVec fromStr
        (writer.emitAll toVec fromStr before).1 after := by
  induction before generalizing writer with
  | nil => exact Iff.rfl
  | cons emission before ih =>
      have hfirst := hbefore emission List.mem_cons_self
      have hrest := fun other hmem =>
        hbefore other (List.mem_cons_of_mem _ hmem)
      rw [List.cons_append, KeepsVerdict, ih hrest]
      exact ⟨fun hkeeps => hkeeps.2, fun hkeeps =>
        ⟨fun hdecisive => (hfirst hdecisive).elim, hkeeps⟩⟩

/-- A reader's run of a host after some of its records. -/
def feedRecords (run : HostRun) (records : List EventRecord) : HostRun :=
  records.foldl (fun run record => run.feed record.value) run

theorem feedRecords_append (run : HostRun) (left right : List EventRecord) :
    feedRecords run (left ++ right) = feedRecords (feedRecords run left) right :=
  List.foldl_append

theorem undecided_emitAll {host : String} (writer : EventWriter)
    {emissions : List Emission}
    (hpassing : ∀ emission ∈ emissions, Passing host (emissionEffect emission))
    {run : HostRun} (hrun : Undecided run) :
    Undecided
      (feedRecords run (writer.emitAll toVec fromStr emissions).2) := by
  induction emissions generalizing writer run with
  | nil => exact hrun
  | cons emission emissions ih =>
      rw [EventWriter.emitAll, feedRecords_append]
      apply ih _ fun other hmem => hpassing other (List.mem_cons_of_mem _ hmem)
      obtain ⟨-, hnone | hrecord | hnotice⟩ :=
        EventWriter.emitAt_cases toVec fromStr writer emission
      · rw [hnone]
        exact hrun
      · rw [hrecord]
        exact feed_passing writer (hpassing emission List.mem_cons_self) hrun
      · rw [hnotice]
        obtain ⟨hstate, hrc⟩ := feed_notice writer emission.ts run
        exact ⟨(congrArg isTerminal hstate).trans hrun.running,
          hrc.trans hrun.unsettled⟩

/-- Only the build stream ever leaves a record out. -/
theorem keepsVerdict_of_unbounded {writer : EventWriter}
    (hunbounded : writer.buildFilter.isSome = false)
    (emissions : List Emission) :
    KeepsVerdict toVec fromStr writer emissions := by
  induction emissions generalizing writer with
  | nil => trivial
  | cons emission emissions ih =>
      have hsame := (EventWriter.emitAt_cases toVec fromStr writer emission).1
      refine ⟨fun _ => ?_, ih (hsame.bounded_eq.trans hunbounded)⟩
      rw [EventWriter.full, hunbounded]
      rfl

/-- The build stream has used up what is not kept for the records that end a
stage. -/
structure Exhausted (writer : EventWriter) : Prop where
  bounded : writer.buildFilter.isSome
  spent : buildLogMaxBytes - terminalReserve - 1024 ≤ writer.bytes

theorem Exhausted.full {writer : EventWriter} (hspent : Exhausted writer)
    {record : EventRecord}
    (hrecord : EventWriter.isTerminalRecord record = false) :
    writer.full toVec record = true := by
  have hover : writer.bytes + record.size toVec >
      buildLogMaxBytes - terminalReserve - 1024 :=
    Nat.lt_of_le_of_lt hspent.spent (Nat.lt_add_of_pos_right (Nat.succ_pos _))
  simp [EventWriter.full, hspent.bounded, hrecord, hover]

theorem bytes_le_emitAt (writer : EventWriter) (emission : Emission) :
    writer.bytes ≤ (writer.emitAt toVec fromStr emission).1.bytes := by
  have haccepts : writer.bytes ≤ (writer.accepts fromStr emission).2.bytes := by
    unfold EventWriter.accepts
    split
    · split <;> exact Nat.le_refl _
    · exact Nat.le_refl _
  rw [EventWriter.emitAt]
  dsimp only
  split
  · exact haccepts
  · split
    · rw [EventWriter.omitRecord]
      split
      · exact haccepts
      · dsimp only
        split
        · exact Nat.le_trans haccepts (Nat.le_add_right ..)
        · exact haccepts
    · exact Nat.le_trans haccepts (Nat.le_add_right ..)

/-- Once the budget is spent, the milestone of a verdict is left out. -/
theorem not_keepsVerdict_of_exhausted {writer : EventWriter}
    (hspent : Exhausted writer) {emissions : List Emission} {name : String}
    {state : HostState} {error : Option String}
    (houtcome : Outcome name state error)
    (hmem : milestoneRecord name ∈ emissions.map emissionEffect) :
    ¬ KeepsVerdict toVec fromStr writer emissions := by
  induction emissions generalizing writer with
  | nil => cases hmem
  | cons emission emissions ih =>
      intro hkeeps
      have hsame := (EventWriter.emitAt_cases toVec fromStr writer emission).1
      have hlater : Exhausted (writer.emitAt toVec fromStr emission).1 :=
        ⟨hsame.bounded_eq.trans hspent.bounded,
          Nat.le_trans hspent.spent
            (bytes_le_emitAt toVec fromStr writer emission)⟩
      rw [List.map_cons, List.mem_cons] at hmem
      rcases hmem with hfirst | hrest
      · have hevent := (RecordEffect.emit.inj hfirst).1
        have hrecord : EventWriter.isTerminalRecord
            (writer.record emission) = false := by
          simp [EventWriter.isTerminalRecord, EventWriter.record, ← hevent]
        have hdecisive : Decisive (emissionEffect emission) :=
          hfirst ▸ .milestone houtcome
        have hfits := hkeeps.1 hdecisive
        rw [hspent.full toVec hrecord] at hfits
        cases hfits
      · exact ih hlater hrest hkeeps.2

/-- A record that goes in is read, one that does not changes nothing. -/
theorem feedRecords_emitAt (writer : EventWriter) {emission : Emission}
    (hevent : emission.event ≠ "nixlog") (run : HostRun) :
    let after := feedRecords run (writer.emitAt toVec fromStr emission).2
    (writer.full toVec (writer.record emission) = false →
      after = run.feed (writer.record emission).value) ∧
    (writer.full toVec (writer.record emission) = true →
      after.state = run.state ∧ after.rc = run.rc) := by
  rw [EventWriter.emitAt_of_not_nixlog toVec fromStr writer hevent]
  constructor
  · intro hfits
    rw [hfits]
    rfl
  · intro hfull
    rw [hfull, if_pos rfl]
    obtain ⟨-, hnone | hnotice⟩ :=
      EventWriter.omitRecord_cases toVec writer emission.ts
    · rw [hnone]
      exact ⟨rfl, rfl⟩
    · rw [hnotice]
      exact feed_notice writer emission.ts run

theorem event_ne_nixlog {effect : RecordEffect} (hdecisive : Decisive effect)
    {emission : Emission} (hemission : emissionEffect emission = effect) :
    emission.event ≠ "nixlog" := by
  cases hdecisive with
  | milestone _ =>
      rw [(RecordEffect.emit.inj hemission).1]
      decide
  | done _ =>
      rw [(RecordEffect.emit.inj hemission).1]
      decide

/-- The milestone of a verdict, when it goes in, decides an open run. -/
theorem feed_outcome (writer : EventWriter) {emission : Emission}
    {name : String} {state : HostState} {error : Option String}
    (houtcome : Outcome name state error)
    (hemission : emissionEffect emission = milestoneRecord name)
    {run : HostRun} (hrun : Undecided run) :
    let after := feedRecords run (writer.emitAt toVec fromStr emission).2
    (after.state = state ↔
      writer.full toVec (writer.record emission) = false) ∧
    after.rc = none := by
  have hevent := event_ne_nixlog (.milestone houtcome) hemission
  obtain ⟨hfits, hfull⟩ :=
    feedRecords_emitAt toVec fromStr writer hevent run
  have hterminal : isTerminal state := by cases houtcome <;> rfl
  have hshort : name.utf8ByteSize ≤ 8192 := by cases houtcome <;> decide
  obtain ⟨hstate, hrc⟩ := feed_milestoneRecord writer hemission hshort run
  have hafter : HostRun.stateAfterMilestone run.state name = state := by
    rw [HostRun.stateAfterMilestone, hrun.running]
    cases houtcome <;> rfl
  dsimp only
  cases hkept : writer.full toVec (writer.record emission) with
  | false =>
      rw [hfits hkept, hstate, hrc, hafter]
      exact ⟨by simp, hrun.unsettled⟩
  | true =>
      obtain ⟨hsame, hrc⟩ := hfull hkept
      have hopen := hrun.running
      rw [hsame, hrc]
      refine ⟨?_, hrun.unsettled⟩
      constructor
      · intro heq
        rw [heq, hterminal] at hopen
        cases hopen
      · intro hfalse
        cases hfalse

theorem stateAfterDone_of_terminal {state : HostState}
    (hterminal : isTerminal state) (rc : Option Int) :
    HostRun.stateAfterDone state rc = state := by
  simp [HostRun.stateAfterDone, hterminal]

theorem stateAfterDone_eq_of_ne_failed {state after : HostState}
    {rc : Option Int} (hafter : HostRun.stateAfterDone state rc = after)
    (hne : after ≠ .failed) : state = after := by
  unfold HostRun.stateAfterDone at hafter
  split at hafter
  · exact (hne hafter.symm).elim
  · exact hafter

/-- The last record sets the return code, when it goes in. -/
theorem feed_ended (writer : EventWriter) {emission : Emission}
    {result : HostDeployResult}
    (hemission : emissionEffect emission = doneStatus result.rc)
    {run : HostRun} (hrun : run.rc = none) :
    let after := feedRecords run (writer.emitAt toVec fromStr emission).2
    (after.rc = some result.rc ↔
      writer.full toVec (writer.record emission) = false) ∧
    (writer.full toVec (writer.record emission) = false →
      after.state = HostRun.stateAfterDone run.state (some result.rc)) := by
  have hevent := event_ne_nixlog (.done _) hemission
  obtain ⟨hfits, hfull⟩ :=
    feedRecords_emitAt toVec fromStr writer hevent run
  obtain ⟨hstate, hrc⟩ := feed_doneStatus writer hemission run
  dsimp only
  cases hkept : writer.full toVec (writer.record emission) with
  | false =>
      rw [hfits hkept, hrc, hstate]
      exact ⟨by simp, fun _ => rfl⟩
  | true =>
      rw [(hfull hkept).2, hrun]
      simp

/-- A reader of a stream that tells a result has exactly that result when no
decisive record was left out, and not otherwise. -/
theorem verdict_iff (writer : EventWriter) {host : String}
    {emissions : List Emission} {result : HostDeployResult}
    (htells : Tells host (emissions.map emissionEffect) result) :
    let read := feedRecords (HostRun.new host)
      (writer.emitAll toVec fromStr emissions).2
    (read.state = result.state ∧ read.rc = some result.rc) ↔
      KeepsVerdict toVec fromStr writer emissions := by
  obtain ⟨before, ending, hsplit, hpassing, hending⟩ := htells
  obtain ⟨first, last, rfl, rfl, hlast⟩ := List.map_eq_append_iff.mp hsplit
  have hfirst : ∀ emission ∈ first, Passing host (emissionEffect emission) :=
    fun emission hmem => hpassing _ (List.mem_map_of_mem hmem)
  have hopen : Undecided (feedRecords (HostRun.new host)
      (writer.emitAll toVec fromStr first).2) :=
    undecided_emitAll toVec fromStr writer hfirst ⟨rfl, rfl⟩
  rw [keepsVerdict_append toVec fromStr fun emission hmem =>
    (hfirst emission hmem).not_decisive]
  rw [EventWriter.emitAll_append]
  dsimp only
  rw [feedRecords_append]
  generalize feedRecords (HostRun.new host)
    (writer.emitAll toVec fromStr first).2 = run at hopen ⊢
  generalize (writer.emitAll toVec fromStr first).1 = writer
  cases hending with
  | failed host' error =>
      obtain ⟨emission, rfl, hemission⟩ := List.map_eq_singleton_iff.mp hlast
      have hdone : emissionEffect emission = doneStatus
          (HostDeployResult.mk host' .failed (some error)).rc := hemission
      obtain ⟨hrc, hstate⟩ :=
        feed_ended toVec fromStr writer hdone hopen.unsettled
      have hkeeps : KeepsVerdict toVec fromStr writer [emission] ↔
          writer.full toVec (writer.record emission) = false := by
        simp [KeepsVerdict, hemission, Decisive.done]
      rw [hkeeps, ← hrc, EventWriter.emitAll, EventWriter.emitAll,
        List.append_nil]
      constructor
      · intro hread
        exact hread.2
      · intro hread
        refine ⟨?_, hread⟩
        rw [hstate (hrc.mp hread), HostRun.stateAfterDone, hopen.running]
        rfl
  | @outcome host' name state error houtcome =>
      obtain ⟨milestone, rest, rfl, hmilestone, hrest⟩ :=
        List.map_eq_cons_iff.mp hlast
      obtain ⟨done, rfl, hdone⟩ := List.map_eq_singleton_iff.mp hrest
      obtain ⟨hstate, hnone⟩ :=
        feed_outcome toVec fromStr writer houtcome hmilestone hopen
      obtain ⟨hrc, hended⟩ := feed_ended toVec fromStr
        (writer.emitAt toVec fromStr milestone).1 hdone hnone
      have hkeeps : KeepsVerdict toVec fromStr writer [milestone, done] ↔
          writer.full toVec (writer.record milestone) = false ∧
            (writer.emitAt toVec fromStr milestone).1.full toVec
              ((writer.emitAt toVec fromStr milestone).1.record done) =
                false := by
        simp [KeepsVerdict, hmilestone, hdone, Decisive.done,
          Decisive.milestone houtcome]
      rw [hkeeps, ← hstate, ← hrc, EventWriter.emitAll, EventWriter.emitAll,
        EventWriter.emitAll, List.append_nil, feedRecords_append]
      constructor
      · intro hread
        refine ⟨?_, hread.2⟩
        -- A return code does not undo the milestone, nor stand in for it.
        have hafter := hread.1
        rw [hended (hrc.mp hread.2)] at hafter
        apply stateAfterDone_eq_of_ne_failed hafter
        cases houtcome <;> simp
      · intro hread
        refine ⟨?_, hread.2⟩
        rw [hended (hrc.mp hread.2), hread.1]
        apply stateAfterDone_of_terminal
        cases houtcome <;> rfl

end Verdict

end Mandala.Engine
