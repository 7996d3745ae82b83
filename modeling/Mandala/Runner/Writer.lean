import Mandala.Deploy.Process
import Mandala.Fleet.Aggregate
import Mandala.Forest.Message
import Mandala.Runner.Events
import Mathlib.Algebra.GroupWithZero.Nat

/-!
# Writing the event streams

A writer appends one record per event to the stream it opened.  The stream
named `build` is special: Nix's log records are filtered, long strings are cut,
and once the stream is about to outgrow its budget only a notice and the records
that end a stage are still written.  The printer of a JSON value and the reader
of Nix's log payloads are parameters.
-/

namespace Mandala.Runner

open Mandala.Data Mandala.Deploy Mandala.Events Mandala.Fleet Mandala.Forest
  Mandala.Text

variable (toVec : Json → String) (fromStr : List Char → Option NixMessage)

/-! ## The bounded build log -/

/-- `BUILD_LOG_MAX_BYTES`. -/
def buildLogMaxBytes : ℕ := 16 * 1024 * 1024

/-- `TERMINAL_RESERVE`. -/
def terminalReserve : ℕ := 64 * 1024

/-- The activities whose start was kept and whose stop is still to come. -/
structure BuildLogFilter where
  activities : List ℕ
  deriving DecidableEq, Repr

namespace BuildLogFilter

def default : BuildLogFilter := { activities := [] }

/-- Activities worth a record; path queries are not. -/
def startKind (code : Int) : Bool :=
  (100 ≤ code && code ≤ 105) || code = 108 || (110 ≤ code && code ≤ 112)

/-- Results worth a record; the lines of a build are not. -/
def resultKind (code : Int) : Bool :=
  (102 ≤ code && code ≤ 106) || code = 108

def retain (filter : BuildLogFilter) (line : String) : Bool × BuildLogFilter :=
  match parseNixLine fromStr line.toList with
  | .ordinary | .malformed => (false, filter)
  | .record message =>
      let id := message.id.getD 0
      if message.action = "start" ∧ message.typeCode.any startKind then
        (true, { activities := filter.activities.insert id })
      else if message.action = "stop" then
        (id ∈ filter.activities,
          { activities := filter.activities.filter (· ≠ id) })
      else if message.action = "result" then
        (id ∈ filter.activities ∧ message.typeCode.any resultKind, filter)
      else if message.action = "msg" then
        (message.level.any (· ≤ 1), filter)
      else (false, filter)

end BuildLogFilter

/-- The longest prefix that fits a number of bytes. -/
def takeBytes : ℕ → List Char → List Char
  | _, [] => []
  | budget, character :: rest =>
      if character.utf8Size ≤ budget then
        character :: takeBytes (budget - character.utf8Size) rest
      else []

def boundText (text : String) : String :=
  if text.utf8ByteSize ≤ 8192 then text
  else String.ofList (takeBytes 8192 text.toList) ++ "… [truncated]"

mutual

/-- `bound_strings`: cut every long string of a value. -/
def boundStrings : Json → Json
  | .string text => .string (boundText text)
  | .array values => .array (boundValues values)
  | .object fields => .object (boundFields fields)
  | value => value

def boundValues : List Json → List Json
  | [] => []
  | value :: values => boundStrings value :: boundValues values

def boundFields : List (String × Json) → List (String × Json)
  | [] => []
  | (key, value) :: fields => (key, boundStrings value) :: boundFields fields

end

theorem boundFields_lookup (fields : List (String × Json)) (key : String) :
    (boundFields fields).lookup key =
      (fields.lookup key).map boundStrings := by
  induction fields with
  | nil => rfl
  | cons field fields ih =>
      obtain ⟨name, value⟩ := field
      rw [boundFields, List.lookup_cons, List.lookup_cons]
      cases key == name with
      | true => rfl
      | false => exact ih

/-! ## Records -/

/-- The keys written first, in the order of the retired emitter. -/
def preferredKeys (event : String) (fields : List (String × Json)) :
    List String :=
  if event = "status" then
    if (fields.lookup "cmd").isSome then ["cmd", "state"] else ["rc", "state"]
  else if event = "line" then ["line", "stream"]
  else if event = "progress" then
    ["built", "finished", "fetched", "fetched_done", "errors", "current"]
  else if event = "nixlog" then ["line"]
  else []

/-- One record; `fields` is a map, listed in key order. -/
structure EventRecord where
  v : Int
  ts : Json
  host : String
  plugin : String
  event : String
  fields : List (String × Json)

namespace EventRecord

def envelope (record : EventRecord) : List (String × Json) :=
  [("v", .int record.v), ("ts", record.ts), ("host", .string record.host),
    ("plugin", .string record.plugin), ("event", .string record.event)]

/-- `EventRecord::serialize`. -/
def value (record : EventRecord) : Json :=
  let preferred := preferredKeys record.event record.fields
  .object (record.envelope ++
    preferred.filterMap
      (fun key => (record.fields.lookup key).map fun value => (key, value)) ++
    record.fields.filter fun field => field.1 ∉ preferred)

/-- The line of a record, without its newline. -/
def text (record : EventRecord) : String := toVec record.value

/-- How many bytes a record adds to its stream. -/
def size (record : EventRecord) : ℕ := (record.text toVec).utf8ByteSize + 1

end EventRecord

theorem lookup_preferred (fields : List (String × Json)) (preferred : List String)
    (key : String) :
    (preferred.filterMap fun key =>
        (fields.lookup key).map fun value => (key, value)).lookup key =
      if key ∈ preferred then fields.lookup key else none := by
  induction preferred with
  | nil => rfl
  | cons name preferred ih =>
      by_cases hname : key = name
      · subst hname
        cases hvalue : fields.lookup key with
        | none => simp [hvalue, ih]
        | some value => simp [hvalue]
      · have hkey : (key == name) = false := by simpa using hname
        cases hvalue : fields.lookup name with
        | none => simp [hvalue, ih, hname]
        | some value => simp [hvalue, List.lookup_cons, hkey, ih, hname]

namespace EventRecord

/-- The order the fields are written in does not change what a key is bound
to. -/
theorem value_get (record : EventRecord) (key : String) :
    record.value.get key =
      (record.envelope.lookup key).or (record.fields.lookup key) := by
  have hrest := BTreeMap.lookup_filter_key record.fields
    (fun name => decide
      (name ∉ preferredKeys record.event record.fields)) key
  rw [value, Json.get, List.append_assoc, List.lookup_append, List.lookup_append,
    lookup_preferred, hrest]
  congr 1
  by_cases hkey : key ∈ preferredKeys record.event record.fields
  · simp [hkey]
  · simp [hkey]

@[simp]
theorem value_v (record : EventRecord) :
    record.value.get "v" = some (.int record.v) := by
  rw [value_get]
  rfl

@[simp]
theorem value_host (record : EventRecord) :
    record.value.getStr "host" = some record.host := by
  rw [Json.getStr, value_get]
  rfl

@[simp]
theorem value_plugin (record : EventRecord) :
    record.value.getStr "plugin" = some record.plugin := by
  rw [Json.getStr, value_get]
  rfl

@[simp]
theorem value_event (record : EventRecord) :
    record.value.getStr "event" = some record.event := by
  rw [Json.getStr, value_get]
  rfl

/-- The keys every record starts with. -/
def envelopeKeys : List String := ["v", "ts", "host", "plugin", "event"]

theorem value_field (record : EventRecord) {key : String}
    (hkey : key ∉ envelopeKeys) :
    record.value.get key = record.fields.lookup key := by
  have henvelope : record.envelope.lookup key = none := by
    rw [List.lookup_eq_none_iff]
    intro field hfield
    have hmem : field.1 ∈ envelopeKeys := by
      have hkeys : record.envelope.map Prod.fst = envelopeKeys := rfl
      rw [← hkeys]
      exact List.mem_map_of_mem hfield
    exact bne_iff_ne.mpr fun heq => hkey (heq ▸ hmem)
  rw [value_get, henvelope, Option.none_or]

end EventRecord

/-! ## Writers -/

/-- What is emitted: an event with its fields, and the clock when it is. -/
structure Emission where
  event : String
  fields : List (String × Json)
  ts : Json

/-- An open stream; `buildFilter` is there exactly for the build stream. -/
structure EventWriter where
  host : String
  plugin : String
  buildFilter : Option BuildLogFilter
  bytes : ℕ
  truncated : Bool
  deriving DecidableEq, Repr

namespace EventWriter

/-- `EventWriter::new`; `opened` is what opening the file for append gives, with
the length the file already has. -/
def new (stream host plugin : String) (opened : Except IoError ℕ) :
    Except IoError EventWriter :=
  if !isValidMemberName stream || !isValidMemberName host then
    .error "event stream and host must be bare RFC 1123 labels"
  else opened.map fun bytes =>
    { host
      plugin
      buildFilter :=
        if stream = "build" then some BuildLogFilter.default else none
      bytes
      truncated := false }

theorem new_of_valid {stream host : String}
    (hstream : isValidMemberName stream) (hhost : isValidMemberName host)
    (plugin : String) (bytes : ℕ) :
    new stream host plugin (.ok bytes) =
      .ok {
        host
        plugin
        buildFilter :=
          if stream = "build" then some BuildLogFilter.default else none
        bytes
        truncated := false } := by
  simp [new, hstream, hhost, Except.map]

/-- An open writer has the labels it was opened with. -/
theorem labels_of_new {stream host plugin : String}
    {opened : Except IoError ℕ} {writer : EventWriter}
    (hnew : new stream host plugin opened = .ok writer) :
    writer.host = host ∧ writer.plugin = plugin := by
  rw [new] at hnew
  split at hnew
  · cases hnew
  · cases opened with
    | error error => cases hnew
    | ok bytes =>
        cases hnew
        exact ⟨rfl, rfl⟩

/-- The filter's verdict on a record of Nix's log; everything else passes. -/
def accepts (writer : EventWriter) (emission : Emission) : Bool × EventWriter :=
  match writer.buildFilter with
  | some filter =>
      if emission.event = "nixlog" then
        let line :=
          ((emission.fields.lookup "line").bind Json.asStr).getD ""
        let verdict := filter.retain fromStr line
        (verdict.1, { writer with buildFilter := some verdict.2 })
      else (true, writer)
  | none => (true, writer)

/-- The record of an emission; only the build stream cuts its strings. -/
def record (writer : EventWriter) (emission : Emission) : EventRecord :=
  { v := eventProtocolVersion
    ts := emission.ts
    host := writer.host
    plugin := writer.plugin
    event := emission.event
    fields :=
      if writer.buildFilter.isSome ∧ emission.event ≠ "nixlog" then
        boundFields emission.fields
      else emission.fields }

/-- The records that end a stage. -/
def isTerminalRecord (record : EventRecord) : Bool :=
  (record.event = "status" &&
    (record.fields.lookup "state").bind Json.asStr = some "done") ||
  (record.event = "progress" &&
    (record.fields.lookup "final").bind Json.asBool = some true)

/-- The record no longer goes into the stream.  Room for one notice is always
left, and more of it for the records that end a stage. -/
def full (writer : EventWriter) (record : EventRecord) : Bool :=
  let terminal := isTerminalRecord record
  let limit :=
    if terminal then buildLogMaxBytes else buildLogMaxBytes - terminalReserve
  writer.buildFilter.isSome &&
    ((!terminal && writer.truncated) ||
      writer.bytes + record.size toVec > limit - 1024)

/-- What the stream says in place of the first record left out. -/
def notice (writer : EventWriter) (ts : Json) : EventRecord :=
  { v := eventProtocolVersion
    ts
    host := writer.host
    plugin := writer.plugin
    event := "line"
    fields :=
      [("line", .string ("build log size cap reached; subsequent detail " ++
          "omitted (final counters/status retained)")),
        ("stream", .string "mandala")] }

/-- Append one record. -/
def write (writer : EventWriter) (record : EventRecord) :
    EventWriter × List EventRecord :=
  ({ writer with bytes := writer.bytes + record.size toVec }, [record])

/-- Leave a record out, with a notice the first time if that still fits. -/
def omitRecord (writer : EventWriter) (ts : Json) :
    EventWriter × List EventRecord :=
  if writer.truncated then (writer, [])
  else
    let after := { writer with truncated := true }
    if writer.bytes + (writer.notice ts).size toVec ≤ buildLogMaxBytes then
      after.write toVec (writer.notice ts)
    else (after, [])

/-- `emit_at`, when no write fails: the writer afterwards and the records it
appended. -/
def emitAt (writer : EventWriter) (emission : Emission) :
    EventWriter × List EventRecord :=
  let verdict := writer.accepts fromStr emission
  if !verdict.1 then (verdict.2, [])
  else
    let record := verdict.2.record emission
    if verdict.2.full toVec record then verdict.2.omitRecord toVec emission.ts
    else verdict.2.write toVec record

/-- One emission after the other. -/
def emitAll (writer : EventWriter) :
    List Emission → EventWriter × List EventRecord
  | [] => (writer, [])
  | emission :: emissions =>
      let first := writer.emitAt toVec fromStr emission
      let later := emitAll first.1 emissions
      (later.1, first.2 ++ later.2)

/-! ### What a writer leaves behind -/

/-- Writers of one stream, under one label. -/
structure SameStream (left right : EventWriter) : Prop where
  host_eq : left.host = right.host
  plugin_eq : left.plugin = right.plugin
  bounded_eq : left.buildFilter.isSome = right.buildFilter.isSome

theorem SameStream.refl (writer : EventWriter) : SameStream writer writer :=
  ⟨rfl, rfl, rfl⟩

theorem SameStream.trans {first second third : EventWriter}
    (hfirst : SameStream first second) (hsecond : SameStream second third) :
    SameStream first third where
  host_eq := hfirst.host_eq.trans hsecond.host_eq
  plugin_eq := hfirst.plugin_eq.trans hsecond.plugin_eq
  bounded_eq := hfirst.bounded_eq.trans hsecond.bounded_eq

theorem SameStream.record_eq {left right : EventWriter}
    (hsame : SameStream left right) (emission : Emission) :
    left.record emission = right.record emission := by
  rw [record, record, hsame.host_eq, hsame.plugin_eq, hsame.bounded_eq]

theorem SameStream.notice_eq {left right : EventWriter}
    (hsame : SameStream left right) (ts : Json) :
    left.notice ts = right.notice ts := by
  rw [notice, notice, hsame.host_eq, hsame.plugin_eq]

theorem sameStream_accepts (writer : EventWriter) (emission : Emission) :
    SameStream (writer.accepts fromStr emission).2 writer := by
  unfold accepts
  split
  · next filter hfilter =>
      split
      · exact ⟨rfl, rfl, by simp [hfilter]⟩
      · exact SameStream.refl writer
  · exact SameStream.refl writer

theorem sameStream_write (writer : EventWriter) (record : EventRecord) :
    SameStream (writer.write toVec record).1 writer := ⟨rfl, rfl, rfl⟩

theorem omitRecord_cases (writer : EventWriter) (ts : Json) :
    SameStream (writer.omitRecord toVec ts).1 writer ∧
      ((writer.omitRecord toVec ts).2 = [] ∨
        (writer.omitRecord toVec ts).2 = [writer.notice ts]) := by
  unfold omitRecord
  split
  · exact ⟨SameStream.refl writer, .inl rfl⟩
  · dsimp only
    split
    · exact ⟨⟨rfl, rfl, rfl⟩, .inr rfl⟩
    · exact ⟨⟨rfl, rfl, rfl⟩, .inl rfl⟩

/-- One emission leaves its record, a notice, or nothing. -/
theorem emitAt_cases (writer : EventWriter) (emission : Emission) :
    SameStream (writer.emitAt toVec fromStr emission).1 writer ∧
      ((writer.emitAt toVec fromStr emission).2 = [] ∨
        (writer.emitAt toVec fromStr emission).2 =
          [writer.record emission] ∨
        (writer.emitAt toVec fromStr emission).2 =
          [writer.notice emission.ts]) := by
  have haccepts := sameStream_accepts fromStr writer emission
  rw [emitAt, haccepts.record_eq]
  dsimp only
  split
  · exact ⟨haccepts, .inl rfl⟩
  · split
    · obtain ⟨hsame, homitted⟩ := omitRecord_cases toVec
        (writer.accepts fromStr emission).2 emission.ts
      rw [haccepts.notice_eq] at homitted
      exact ⟨hsame.trans haccepts, homitted.imp_right .inr⟩
    · exact ⟨(sameStream_write toVec _ _).trans haccepts, .inr (.inl rfl)⟩

/-- A record that still goes in is appended; in place of one that does not, at
most a notice is. -/
theorem emitAt_of_not_nixlog (writer : EventWriter) {emission : Emission}
    (hevent : emission.event ≠ "nixlog") :
    writer.emitAt toVec fromStr emission =
      if writer.full toVec (writer.record emission) then
        writer.omitRecord toVec emission.ts
      else writer.write toVec (writer.record emission) := by
  have haccepts : writer.accepts fromStr emission = (true, writer) := by
    unfold accepts
    split <;> simp [hevent]
  rw [emitAt, haccepts]
  rfl

theorem emitAll_append (writer : EventWriter) (left right : List Emission) :
    writer.emitAll toVec fromStr (left ++ right) =
      let first := writer.emitAll toVec fromStr left
      let later := first.1.emitAll toVec fromStr right
      (later.1, first.2 ++ later.2) := by
  induction left generalizing writer with
  | nil => rfl
  | cons emission left ih =>
      simp only [List.cons_append, emitAll, ih, List.append_assoc]

theorem sameStream_emitAll (writer : EventWriter) (emissions : List Emission) :
    SameStream (writer.emitAll toVec fromStr emissions).1 writer := by
  induction emissions generalizing writer with
  | nil => exact SameStream.refl writer
  | cons emission emissions ih =>
      exact (ih _).trans (emitAt_cases toVec fromStr writer emission).1

/-- Every record of a stream is one of its writer's, for an emission or in the
place of one. -/
theorem mem_emitAll {writer : EventWriter} {emissions : List Emission}
    {written : EventRecord}
    (hmem : written ∈ (writer.emitAll toVec fromStr emissions).2) :
    ∃ emission ∈ emissions, written = writer.record emission ∨
      written = writer.notice emission.ts := by
  induction emissions generalizing writer with
  | nil => cases hmem
  | cons emission emissions ih =>
      obtain ⟨hsame, hrecords⟩ := emitAt_cases toVec fromStr writer emission
      rcases List.mem_append.mp hmem with hfirst | hlater
      · refine ⟨emission, List.mem_cons_self, ?_⟩
        rcases hrecords with hnone | hrecord | hnotice
        · rw [hnone] at hfirst
          cases hfirst
        · rw [hrecord] at hfirst
          exact .inl (List.mem_singleton.mp hfirst)
        · rw [hnotice] at hfirst
          exact .inr (List.mem_singleton.mp hfirst)
      · obtain ⟨other, hother, hwritten⟩ := ih hlater
        refine ⟨other, List.mem_cons_of_mem _ hother, ?_⟩
        rwa [hsame.record_eq, hsame.notice_eq] at hwritten

theorem emitAt_of_fits {writer : EventWriter} {emission : Emission}
    (hevent : emission.event ≠ "nixlog")
    (hfits : writer.full toVec (writer.record emission) = false) :
    writer.emitAt toVec fromStr emission =
      writer.write toVec (writer.record emission) := by
  rw [emitAt_of_not_nixlog toVec fromStr writer hevent, hfits]
  rfl

/-- Any record goes in that leaves the reserve alone. -/
theorem full_of_room {writer : EventWriter} (hopen : writer.truncated = false)
    {record : EventRecord}
    (hroom : writer.bytes + record.size toVec ≤
      buildLogMaxBytes - terminalReserve - 1024) :
    writer.full toVec record = false := by
  have hreserve : buildLogMaxBytes - terminalReserve - 1024 ≤
      buildLogMaxBytes - 1024 :=
    Nat.sub_le_sub_right (Nat.sub_le ..) 1024
  have hplain : ¬ writer.bytes + record.size toVec >
      buildLogMaxBytes - terminalReserve - 1024 := Nat.not_lt.mpr hroom
  have hterminal : ¬ writer.bytes + record.size toVec >
      buildLogMaxBytes - 1024 := Nat.not_lt.mpr (Nat.le_trans hroom hreserve)
  cases hrecord : isTerminalRecord record with
  | true => simp [full, hrecord, hterminal]
  | false => simp [full, hrecord, hopen, hplain]

/-- As long as there is room, every record goes in. -/
theorem emitAll_of_room {writer : EventWriter} {emissions : List Emission}
    (hevents : ∀ emission ∈ emissions, emission.event ≠ "nixlog")
    (hopen : writer.truncated = false)
    (hroom : writer.bytes +
        (emissions.map fun emission =>
          (writer.record emission).size toVec).sum ≤
      buildLogMaxBytes - terminalReserve - 1024) :
    writer.emitAll toVec fromStr emissions =
      ({ writer with
          bytes := writer.bytes + (emissions.map fun emission =>
            (writer.record emission).size toVec).sum },
        emissions.map writer.record) := by
  induction emissions generalizing writer with
  | nil => rfl
  | cons emission emissions ih =>
      rw [List.map_cons, List.sum_cons, ← Nat.add_assoc] at hroom
      have hfits := full_of_room toVec hopen
        (Nat.le_trans (Nat.le_add_right ..) hroom)
      have hevent := hevents emission List.mem_cons_self
      have hlater := @ih (writer.write toVec (writer.record emission)).1
        (fun other hmem => hevents other (List.mem_cons_of_mem _ hmem)) hopen
        hroom
      rw [emitAll, emitAt_of_fits toVec fromStr hevent hfits, hlater,
        List.map_cons, List.sum_cons, ← Nat.add_assoc]
      rfl

end EventWriter

end Mandala.Runner
