import Mandala.Runner.Tailer
import Mandala.Runner.Writer

/-!
# Reading back what was written

The records of a run lie in the files their writers opened.  A reader that has
polled them all knows of each host exactly what that host's records say, as long
as every record reads back as what was printed.
-/

namespace Mandala.Runner

open Mandala.Data Mandala.Events Mandala.Lines Mandala.Tailer Mandala.Text

variable (toVec : Json → String) (parse : String → Option Json)

/-! ## Events that read alike -/

/-- Two events a reader cannot tell apart. -/
structure SameReading (left right : Json) : Prop where
  strings : ∀ key, left.getStr key = right.getStr key
  integers : ∀ key, left.getI64 key = right.getI64 key

theorem SameReading.destination_eq {left right : Json}
    (hsame : SameReading left right) :
    destination left = destination right := by
  simp only [destination, hsame.strings, hsame.integers]

theorem SameReading.feed_eq {left right : Json}
    (hsame : SameReading left right) (run : HostRun) :
    run.feed left = run.feed right := by
  simp only [HostRun.feed, hsame.strings, hsame.integers]

theorem SameReading.feedHost_eq {left right : Json}
    (hsame : SameReading left right) (name : String) (run : Option HostRun) :
    Streams.feedHost name run left = Streams.feedHost name run right := by
  simp only [Streams.feedHost, hsame.destination_eq, hsame.feed_eq]

/-- The line of a record, newline included. -/
def EventRecord.line (record : EventRecord) : String :=
  record.text toVec ++ "\n"

/-- A record adds its size to its file. -/
theorem length_line (record : EventRecord) :
    (encodeUtf8 (record.line toVec)).length = record.size toVec := by
  have hnewline : encodeUtf8 "\n" = [newlineByte] := by decide
  rw [EventRecord.line, encodeUtf8_append, List.length_append,
    length_encodeUtf8, hnewline]
  rfl

/-- Records one after the other are lines. -/
theorem flatMap_line (records : List EventRecord) :
    (records.flatMap fun record => encodeUtf8 (record.line toVec)) =
      joinLines newlineByte
        (records.map fun record => encodeUtf8 (record.text toVec)) := by
  have hnewline : encodeUtf8 "\n" = [newlineByte] := by decide
  rw [joinLines, List.flatMap_map]
  simp only [EventRecord.line, encodeUtf8_append, hnewline]

theorem completeLines_flatMap_line {records : List EventRecord}
    (hlines : ∀ record ∈ records, '\n' ∉ (record.text toVec).toList) :
    completeLines newlineByte
        (records.flatMap fun record => encodeUtf8 (record.line toVec)) =
      records.map fun record => encodeUtf8 (record.text toVec) := by
  have htexts : ∀ line ∈ records.map
      (fun record => encodeUtf8 (record.text toVec)),
      newlineByte ∉ line := by
    intro line hmem
    obtain ⟨record, hrecord, rfl⟩ := List.mem_map.mp hmem
    rw [newlineByte_mem_encodeUtf8]
    exact hlines record hrecord
  have hsplit := completeLines_joinLines_append htexts []
  rw [List.append_nil, completeLines_of_not_mem List.not_mem_nil,
    List.append_nil] at hsplit
  rw [flatMap_line, hsplit]

/-- A record is one line, and reading it gives back what was printed. -/
structure ReadsBack (record : EventRecord) : Prop where
  one_line : '\n' ∉ (record.text toVec).toList
  read_eq : ∃ event, parse (record.line toVec) = some event ∧
    SameReading event record.value

/-! ## The files of a run -/

/-- A record in the file it was appended to. -/
structure Written where
  file : String
  record : EventRecord

/-- The bytes of one file. -/
def content (file : String) (written : List Written) : List UInt8 :=
  (written.filter (·.file = file)).flatMap fun entry =>
    encodeUtf8 (entry.record.line toVec)

/-- The writers appended these records, in any chunks and with any polls in
between. -/
def Writes (written : List Written) (actions : List Action) : Prop :=
  ∀ file, appended file actions = content toVec file written

theorem length_content_cons (entry : Written) (written : List Written) :
    (content toVec entry.file (entry :: written)).length =
      entry.record.size toVec + (content toVec entry.file written).length := by
  rw [content, List.filter_cons_of_pos (by simp), List.flatMap_cons,
    List.length_append, length_line]
  rfl

/-- The records appended one by one. -/
def appends (written : List Written) : List Action :=
  written.map fun entry =>
    .append entry.file (encodeUtf8 (entry.record.line toVec))

theorem writes_appends (written : List Written) :
    Writes toVec written (appends toVec written) := by
  intro file
  induction written with
  | nil => rfl
  | cons entry written ih =>
      have hsplit := appended_append file
        [.append entry.file (encodeUtf8 (entry.record.line toVec))]
        (appends toVec written)
      rw [appends, List.map_cons, ← List.singleton_append]
      rw [← appends, hsplit, ih]
      by_cases hfile : entry.file = file
      · simp [appended, content, hfile]
      · simp [appended, content, hfile]

/-- A file holds its records. -/
theorem content_eq_flatMap (file : String) (written : List Written) :
    content toVec file written =
      ((written.filter (·.file = file)).map Written.record).flatMap
        fun record => encodeUtf8 (record.line toVec) := by
  rw [content, List.flatMap_map]

section ReadingBack

variable {toVec parse} {written : List Written}

/-- The bytes of a file split into the lines that were written to it. -/
theorem completeLines_content
    (hback : ∀ entry ∈ written, ReadsBack toVec parse entry.record)
    (file : String) :
    completeLines newlineByte (content toVec file written) =
      (written.filter (·.file = file)).map
        fun entry => encodeUtf8 (entry.record.text toVec) := by
  have hlines : ∀ record ∈
      (written.filter (·.file = file)).map Written.record,
      '\n' ∉ (record.text toVec).toList := by
    intro record hmem
    obtain ⟨entry, hentry, rfl⟩ := List.mem_map.mp hmem
    exact (hback entry (List.mem_of_mem_filter hentry)).one_line
  rw [content_eq_flatMap, completeLines_flatMap_line toVec hlines, List.map_map]
  rfl

theorem decodeLine_text (record : EventRecord) :
    decodeLine (encodeUtf8 (record.text toVec)) = some (record.line toVec) := by
  rw [decodeLine, decodeUtf8_eq_some_iff, EventRecord.line, encodeUtf8_append]
  rfl

theorem decodeLine_texts (entries : List Written) :
    (entries.map fun entry =>
        encodeUtf8 (entry.record.text toVec)).filterMap decodeLine =
      entries.map fun entry => entry.record.line toVec := by
  have htexts : (decodeLine ∘ fun entry : Written =>
      encodeUtf8 (entry.record.text toVec)) =
        some ∘ fun entry => entry.record.line toVec := by
    funext entry
    exact decodeLine_text entry.record
  rw [List.filterMap_map, htexts, List.filterMap_eq_map]

/-- What a reader gets to see of a file. -/
theorem readable_content
    (hback : ∀ entry ∈ written, ReadsBack toVec parse entry.record)
    (file : String) :
    (readableLines (content toVec file written)).filterMap decodeLine =
      (written.filter (·.file = file)).map
        fun entry => entry.record.line toVec := by
  have hall : readableLines (content toVec file written) =
      (written.filter (·.file = file)).map
        fun entry => encodeUtf8 (entry.record.text toVec) := by
    rw [readableLines, completeLines_content hback, List.takeWhile_eq_self_iff]
    intro line hmem
    obtain ⟨entry, -, rfl⟩ := List.mem_map.mp hmem
    rw [decodeLine_text]
    rfl
  rw [hall, decodeLine_texts]

theorem fileLines_content
    (hback : ∀ entry ∈ written, ReadsBack toVec parse entry.record)
    (file : String) :
    fileLines (content toVec file written) =
      (written.filter (·.file = file)).map
        fun entry => entry.record.line toVec := by
  rw [fileLines, completeLines_content hback, decodeLine_texts]

/-- Feeding what was read is feeding what was written. -/
theorem foldl_feedHost_records
    (hback : ∀ entry ∈ written, ReadsBack toVec parse entry.record)
    (name : String) (run : Option HostRun) :
    (records parse (written.map fun entry => entry.record.line toVec)).foldl
        (Streams.feedHost name) run =
      (written.map fun entry => entry.record.value).foldl
        (Streams.feedHost name) run := by
  induction written generalizing run with
  | nil => rfl
  | cons entry written ih =>
      obtain ⟨event, hparse, hsame⟩ :=
        (hback entry List.mem_cons_self).read_eq
      have hrest := fun other hmem =>
        hback other (List.mem_cons_of_mem _ hmem)
      rw [List.map_cons, records, List.filterMap_cons_some hparse,
        List.foldl_cons, hsame.feedHost_eq]
      exact ih hrest _

/-- The records for one host are those of its file. -/
theorem foldl_feedHost_file {name home : String}
    (hhome : ∀ entry ∈ written,
      destination entry.record.value = .host name → entry.file = home)
    (run : Option HostRun) :
    ((written.filter (·.file = home)).map
        fun entry => entry.record.value).foldl (Streams.feedHost name) run =
      (written.map fun entry => entry.record.value).foldl
        (Streams.feedHost name) run := by
  rw [Streams.foldl_feedHost_filter,
    Streams.foldl_feedHost_filter (written.map _), List.filter_map,
    List.filter_map, List.filter_filter]
  congr 2
  apply List.filter_congr
  intro entry hmem
  have hfile := hhome entry hmem
  by_cases hdestination : destination entry.record.value = .host name
  · simp [hdestination, hfile hdestination]
  · simp [hdestination]

/-- A host whose records all lie in one file is, to a reader that has polled
them, what these records make of it. -/
theorem hosts_written {actions : List Action} {name home : String}
    (hback : ∀ entry ∈ written, ReadsBack toVec parse entry.record)
    (hwrites : Writes toVec written actions)
    (hhome : ∀ entry ∈ written,
      destination entry.record.value = .host name → entry.file = home)
    (hevent : hasJsonlExtension home) :
    (run parse (actions ++ [.poll])).tailer.streams.hosts[name]? =
      (written.map fun entry => entry.record.value).foldl
        (Streams.feedHost name) none := by
  have hlives : LivesIn parse actions (.host name) home := by
    intro file _ line hline event hparse hdestination
    rw [hwrites, fileLines_content hback] at hline
    obtain ⟨entry, hentry, rfl⟩ := List.mem_map.mp hline
    obtain ⟨hmem, hfile⟩ := List.mem_filter.mp hentry
    obtain ⟨read, hread, hsame⟩ := (hback entry hmem).read_eq
    have hevent_eq : event = read :=
      Option.some.inj (hparse.symm.trans hread)
    rw [← of_decide_eq_true hfile]
    apply hhome entry hmem
    rw [← hsame.destination_eq, ← hevent_eq, hdestination]
  rw [hosts_run parse actions hlives, ← Streams.foldl_feedHost_filter,
    linesOf_run_poll, if_pos hevent, hwrites, readable_content hback,
    ← foldl_feedHost_file hhome]
  exact foldl_feedHost_records
    (fun entry hmem => hback entry (List.mem_of_mem_filter hmem)) name none

end ReadingBack

end Mandala.Runner
