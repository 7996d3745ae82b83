import Mandala.Core.Lines
import Mandala.Core.Text
import Mandala.Runner.Events
import Mathlib.Data.List.Induction
import Mathlib.Data.List.TakeWhile

/-!
# Tailing the event streams

A reader polls the event files of a run directory, resumes each from a byte
offset, and routes the lines that are complete.  Writers append bytes between
polls, split anywhere.  The parser of one line is a parameter: nothing about
which lines are routed depends on it.
-/

namespace Mandala.Tailer

open Mandala.Data Mandala.Events Mandala.Lines Mandala.Text

variable (parse : String → Option Json)

/-- The files of an events directory. -/
abbrev Directory := BTreeMap (List UInt8)

/-- `Path::extension` is `jsonl`; a name that is only the extension has none. -/
def hasJsonlExtension (name : String) : Bool :=
  decide (".jsonl".toList <:+ name.toList) && name != ".jsonl"

structure EventTailer where
  offsets : BTreeMap ℕ
  streams : Streams

def EventTailer.new : EventTailer := { offsets := ∅, streams := Streams.new }

/-- A line handed to the router, with the file it was read from. -/
structure Routed where
  file : String
  line : String
  deriving DecidableEq, Repr

/-- `EventTailer::route`: an unparseable line changes nothing. -/
def route (streams : Streams) (line : String) : Streams :=
  match parse line with
  | some event => streams.routeEvent event
  | none => streams

/-! ## Reading one file -/

/-- `BufRead::read_line`: the bytes up to and including the next newline, or up
to the end of the file; `none` is the error for bytes that are not UTF-8. -/
def readLine (unread : List UInt8) : Option String :=
  decodeUtf8 (match nextLine newlineByte unread with
    | some (line, _) => line ++ [newlineByte]
    | none => unread)

theorem readLine_length_le {unread : List UInt8} {line : String}
    (hline : readLine unread = some line) :
    line.utf8ByteSize ≤ unread.length := by
  have hbytes := decodeUtf8_eq_some_iff.mp hline
  rw [← length_encodeUtf8, hbytes]
  split
  · next first rest hnext =>
      obtain ⟨hunread, -⟩ := nextLine_eq_some_iff.mp hnext
      rw [hunread]
      simp
  · exact Nat.le_refl _

/-- The read loop of one file: the offset it stops at and the lines it routes.
It stops at the end of the file, at an unfinished line and at a read error. -/
def readRecords (unread : List UInt8) (offset : ℕ) : ℕ × List String :=
  match _hread : readLine unread with
  | none => (offset, [])
  | some line =>
      if _hline : line = "" then (offset, [])
      else if line.toList.getLast? ≠ some '\n' then (offset, [])
      else
        let later := readRecords (unread.drop line.utf8ByteSize)
          (offset + line.utf8ByteSize)
        (later.1, line :: later.2)
termination_by unread.length
decreasing_by
  have hsize := readLine_length_le _hread
  have hpos : line.utf8ByteSize ≠ 0 := by
    rwa [Ne, String.utf8ByteSize_eq_zero_iff]
  rw [List.length_drop]
  omega

/-- The text of one line, newline included, if its bytes are UTF-8. -/
def decodeLine (line : List UInt8) : Option String :=
  decodeUtf8 (line ++ [newlineByte])

/-- The lines a reader gets to before the first one that is not UTF-8. -/
def readableLines (content : List UInt8) : List (List UInt8) :=
  (completeLines newlineByte content).takeWhile fun line =>
    (decodeLine line).isSome

theorem readRecords_of_unfinished {unread : List UInt8}
    (hunread : newlineByte ∉ unread) (offset : ℕ) :
    readRecords unread offset = (offset, []) := by
  have hread : readLine unread = decodeUtf8 unread := by
    rw [readLine, nextLine_eq_none_iff.mpr hunread]
  rw [readRecords]
  split
  · rfl
  · next line hline =>
      rw [hread] at hline
      have hnewline : line.toList.getLast? ≠ some '\n' := by
        intro hlast
        apply hunread
        rw [← decodeUtf8_eq_some_iff.mp hline, newlineByte_mem_encodeUtf8]
        exact List.mem_of_getLast? hlast
      simp [hnewline]

theorem readRecords_line_append {line : List UInt8} {text : String}
    (hline : newlineByte ∉ line) (htext : decodeLine line = some text)
    (rest : List UInt8) (offset : ℕ) :
    readRecords (line ++ newlineByte :: rest) offset =
      let later := readRecords rest (offset + (line.length + 1))
      (later.1, text :: later.2) := by
  have hread : readLine (line ++ newlineByte :: rest) = some text := by
    rw [readLine, nextLine_append_newline hline]
    exact htext
  have hbytes : encodeUtf8 text = line ++ [newlineByte] :=
    decodeUtf8_eq_some_iff.mp htext
  have hsize : text.utf8ByteSize = line.length + 1 := by
    rw [← length_encodeUtf8, hbytes, List.length_append, List.length_singleton]
  have hempty : text ≠ "" := by
    intro hempty
    rw [hempty] at hsize
    simp at hsize
  have hlast := getLast?_of_encodeUtf8_eq hbytes
  have hdrop : (line ++ newlineByte :: rest).drop (line.length + 1) = rest := by
    simp
  rw [readRecords]
  split
  · next hnone =>
      rw [hread] at hnone
      cases hnone
  · next found hfound =>
      rw [hread] at hfound
      cases hfound
      simp [hempty, hlast, hsize, hdrop]

theorem readRecords_invalid_append {line : List UInt8}
    (hline : newlineByte ∉ line) (htext : decodeLine line = none)
    (rest : List UInt8) (offset : ℕ) :
    readRecords (line ++ newlineByte :: rest) offset = (offset, []) := by
  have hread : readLine (line ++ newlineByte :: rest) = none := by
    rw [readLine, nextLine_append_newline hline]
    exact htext
  rw [readRecords]
  split
  · rfl
  · next found hfound =>
      rw [hread] at hfound
      cases hfound

/-- The loop consumes exactly the readable lines. -/
theorem readRecords_eq (unread : List UInt8) (offset : ℕ) :
    readRecords unread offset =
      (offset + (joinLines newlineByte (readableLines unread)).length,
        (readableLines unread).filterMap decodeLine) := by
  induction unread using completeLines.induct newlineByte generalizing offset with
  | case1 unread hnone =>
      have hunread := nextLine_eq_none_iff.mp hnone
      rw [readRecords_of_unfinished hunread, readableLines,
        completeLines_of_not_mem hunread]
      rfl
  | case2 unread line rest hnext ih =>
      obtain ⟨hunread, hline⟩ := nextLine_eq_some_iff.mp hnext
      subst hunread
      cases htext : decodeLine line with
      | none =>
          have hreadable :
              readableLines (line ++ newlineByte :: rest) = [] := by
            rw [readableLines, completeLines_line_append hline]
            simp [htext]
          rw [readRecords_invalid_append hline htext, hreadable]
          rfl
      | some text =>
          have hreadable : readableLines (line ++ newlineByte :: rest) =
              line :: readableLines rest := by
            rw [readableLines, completeLines_line_append hline]
            simp [htext, readableLines]
          rw [readRecords_line_append hline htext, ih, hreadable]
          simp only [joinLines_cons, List.length_append, List.length_cons,
            List.filterMap_cons, htext, Prod.mk.injEq, and_true]
          omega

/-! ## Polling the directory -/

/-- The event files a poll visits, each once. -/
def eventFiles (directory : Directory) : List (String × List UInt8) :=
  directory.toList.filter fun file => hasJsonlExtension file.1

theorem mem_eventFiles_iff {directory : Directory} {name : String}
    {content : List UInt8} :
    (name, content) ∈ eventFiles directory ↔
      directory[name]? = some content ∧ hasJsonlExtension name := by
  rw [eventFiles, List.mem_filter,
    Std.TreeMap.mem_toList_iff_getElem?_eq_some]

theorem eventFiles_distinct (directory : Directory) :
    (eventFiles directory).Pairwise fun left right => left.1 ≠ right.1 := by
  exact directory.toList_distinct.filter _

/-- One file's share of a poll, with the lines routed so far. -/
def pollFile (state : EventTailer × List Routed)
    (file : String × List UInt8) : EventTailer × List Routed :=
  let offset := state.1.offsets[file.1]?.getD 0
  let read := readRecords (file.2.drop offset) offset
  ({ offsets := state.1.offsets.insert file.1 read.1
     streams := read.2.foldl (route parse) state.1.streams },
    state.2 ++ read.2.map fun line => { file := file.1, line })

/-- `EventTailer::poll`, with the lines it routed; their number is what the
source returns. -/
def poll (directory : Directory) (tailer : EventTailer) :
    EventTailer × List Routed :=
  (eventFiles directory).foldl (pollFile parse) (tailer, [])

/-- The lines of a log that came from one file. -/
def linesOf (file : String) (log : List Routed) : List String :=
  (log.filter fun routed => routed.file = file).map Routed.line

theorem linesOf_append (file : String) (left right : List Routed) :
    linesOf file (left ++ right) = linesOf file left ++ linesOf file right := by
  simp [linesOf]

theorem linesOf_same (file : String) (lines : List String) :
    linesOf file (lines.map fun line => { file, line }) = lines := by
  induction lines with
  | nil => rfl
  | cons line lines ih => simpa [linesOf] using ih

theorem linesOf_other {file other : String} (hfile : other ≠ file)
    (lines : List String) :
    linesOf file (lines.map fun line => { file := other, line }) = [] := by
  simp [linesOf, hfile]

/-- What the routed lines make of the streams, whatever file they came from. -/
def replay (streams : Streams) (log : List Routed) : Streams :=
  log.foldl (fun streams routed => route parse streams routed.line) streams

theorem replay_append (streams : Streams) (left right : List Routed) :
    replay parse streams (left ++ right) =
      replay parse (replay parse streams left) right := by
  simp [replay]

theorem foldl_pollFile_streams (files : List (String × List UInt8))
    (state : EventTailer × List Routed) {start : Streams}
    (hstreams : state.1.streams = replay parse start state.2) :
    (files.foldl (pollFile parse) state).1.streams =
      replay parse start (files.foldl (pollFile parse) state).2 := by
  induction files generalizing state with
  | nil => exact hstreams
  | cons file files ih =>
      rw [List.foldl_cons]
      apply ih
      simp only [pollFile, replay_append, ← hstreams]
      rw [replay, List.foldl_map]

/-- A poll leaves a file it does not visit alone. -/
theorem foldl_pollFile_other {files : List (String × List UInt8)}
    (state : EventTailer × List Routed) {name : String}
    (hname : ∀ file ∈ files, file.1 ≠ name) :
    (files.foldl (pollFile parse) state).1.offsets[name]? =
        state.1.offsets[name]? ∧
      linesOf name (files.foldl (pollFile parse) state).2 =
        linesOf name state.2 := by
  induction files generalizing state with
  | nil => exact ⟨rfl, rfl⟩
  | cons file files ih =>
      have hfile : file.1 ≠ name := hname file (List.mem_cons_self ..)
      rw [List.foldl_cons]
      obtain ⟨hoffset, hlines⟩ := ih (pollFile parse state file)
        fun other hmem => hname other (List.mem_cons_of_mem _ hmem)
      rw [hoffset, hlines]
      constructor
      · simp [pollFile, Std.TreeMap.getElem?_insert, hfile]
      · simp only [pollFile, linesOf_append, linesOf_other hfile,
          List.append_nil]

/-- A poll visits a file once, resuming from its offset. -/
theorem foldl_pollFile_visited {files : List (String × List UInt8)}
    (hdistinct : files.Pairwise fun left right => left.1 ≠ right.1)
    (state : EventTailer × List Routed) {name : String}
    {content : List UInt8} (hmem : (name, content) ∈ files) {offset : ℕ}
    (hoffset : state.1.offsets[name]?.getD 0 = offset) :
    (files.foldl (pollFile parse) state).1.offsets[name]? =
        some (readRecords (content.drop offset) offset).1 ∧
      linesOf name (files.foldl (pollFile parse) state).2 =
        linesOf name state.2 ++
          (readRecords (content.drop offset) offset).2 := by
  induction files generalizing state with
  | nil => cases hmem
  | cons file files ih =>
      obtain ⟨hhead, htail⟩ := List.pairwise_cons.mp hdistinct
      rw [List.foldl_cons]
      rcases List.mem_cons.mp hmem with hfile | hmem
      · have hothers : ∀ other ∈ files, other.1 ≠ name := by
          intro other hother heq
          apply hhead other hother
          rw [← hfile, heq]
        obtain ⟨hafter, hlines⟩ := foldl_pollFile_other parse
          (pollFile parse state file) hothers
        rw [hafter, hlines, ← hfile]
        simp only [pollFile, hoffset, linesOf_append, linesOf_same]
        simp
      · have hfile : file.1 ≠ name := hhead _ hmem
        have hsame : (pollFile parse state file).1.offsets[name]?.getD 0 =
            offset := by
          rw [← hoffset]
          simp [pollFile, Std.TreeMap.getElem?_insert, hfile]
        obtain ⟨hafter, hlines⟩ :=
          ih htail (pollFile parse state file) hmem hsame
        rw [hafter, hlines]
        refine ⟨rfl, ?_⟩
        simp only [pollFile, linesOf_append, linesOf_other hfile,
          List.append_nil]

/-! ## Runs of appends and polls -/

inductive Action where
  | append (file : String) (chunk : List UInt8)
  | poll
  deriving DecidableEq, Repr

/-- The files, the reader, and every line it routed so far. -/
structure World where
  directory : Directory
  tailer : EventTailer
  routed : List Routed

def World.new : World :=
  { directory := ∅, tailer := EventTailer.new, routed := [] }

def World.act (world : World) : Action → World
  | .append file chunk =>
      { world with
        directory := world.directory.insert file
          (world.directory[file]?.getD [] ++ chunk) }
  | .poll =>
      let polled := poll parse world.directory world.tailer
      { world with
        tailer := polled.1
        routed := world.routed ++ polled.2 }

def run (actions : List Action) : World :=
  actions.foldl (World.act parse) World.new

/-- The bytes the writers appended to one file. -/
def appended (file : String) (actions : List Action) : List UInt8 :=
  actions.flatMap fun action =>
    match action with
    | .append other chunk => if other = file then chunk else []
    | .poll => []

/-- The reader has consumed the first `consumed` lines of a file, all of them
text, and stands right behind them. -/
structure Consumed (content : List UInt8) (offset : ℕ) (lines : List String)
    (consumed rest : List (List UInt8)) : Prop where
  content_eq : completeLines newlineByte content = consumed ++ rest
  offset_eq : offset = (joinLines newlineByte consumed).length
  text : ∀ line ∈ consumed, (decodeLine line).isSome
  lines_eq : lines = consumed.filterMap decodeLine

theorem Consumed.append {content : List UInt8} {offset : ℕ}
    {lines : List String} {consumed rest : List (List UInt8)}
    (hconsumed : Consumed content offset lines consumed rest)
    (chunk : List UInt8) :
    ∃ rest', Consumed (content ++ chunk) offset lines consumed rest' := by
  obtain ⟨more, hmore⟩ := completeLines_prefix_append newlineByte content chunk
  refine ⟨rest ++ more, ?_, hconsumed.offset_eq, hconsumed.text,
    hconsumed.lines_eq⟩
  rw [← hmore, hconsumed.content_eq, List.append_assoc]

/-- Reading from where the reader stands gets it to the first line that is not
text, whatever it had consumed before. -/
theorem Consumed.read {content : List UInt8} {offset : ℕ}
    {lines : List String} {consumed rest : List (List UInt8)}
    (hconsumed : Consumed content offset lines consumed rest) :
    Consumed content (readRecords (content.drop offset) offset).1
        (lines ++ (readRecords (content.drop offset) offset).2)
        (readableLines content)
        (rest.dropWhile fun line => (decodeLine line).isSome) := by
  have hunread : completeLines newlineByte (content.drop offset) = rest := by
    rw [hconsumed.offset_eq]
    exact completeLines_drop_consumed hconsumed.content_eq
  have hreadable : readableLines content =
      consumed ++ readableLines (content.drop offset) := by
    rw [readableLines, readableLines, hunread, hconsumed.content_eq]
    exact List.takeWhile_append_of_pos hconsumed.text
  rw [readRecords_eq]
  constructor
  · rw [hreadable, readableLines, hunread, List.append_assoc,
      List.takeWhile_append_dropWhile, hconsumed.content_eq]
  · rw [hreadable, joinLines_append, List.length_append,
      ← hconsumed.offset_eq]
  · intro line hline
    simpa using List.mem_takeWhile_imp hline
  · rw [hreadable, List.filterMap_append, ← hconsumed.lines_eq]

/-- What holds between any two actions of a run. -/
structure Tracks (actions : List Action) (world : World) : Prop where
  content_eq : ∀ file,
    world.directory[file]?.getD [] = appended file actions
  consumed : ∀ file, ∃ consumed rest,
    Consumed (appended file actions) (world.tailer.offsets[file]?.getD 0)
      (linesOf file world.routed) consumed rest
  streams_eq : world.tailer.streams = replay parse Streams.new world.routed
  event_files : ∀ routed ∈ world.routed, hasJsonlExtension routed.file

theorem Tracks.new : Tracks parse [] World.new where
  content_eq file := by simp [World.new, appended]
  consumed file := by
    refine ⟨[], [], ?_, ?_, ?_, ?_⟩
    · exact completeLines_of_not_mem (List.not_mem_nil)
    · simp [World.new, EventTailer.new]
    · intro line hline
      cases hline
    · rfl
  streams_eq := rfl
  event_files routed hmem := by cases hmem

theorem appended_append (file : String) (left right : List Action) :
    appended file (left ++ right) =
      appended file left ++ appended file right :=
  List.flatMap_append

theorem Tracks.append {actions : List Action} {world : World}
    (htracks : Tracks parse actions world) (file : String)
    (chunk : List UInt8) :
    Tracks parse (actions ++ [.append file chunk])
      (world.act parse (.append file chunk)) where
  content_eq other := by
    have hcontent := htracks.content_eq other
    rw [appended_append]
    by_cases hfile : file = other
    · subst hfile
      simp [World.act, appended, hcontent]
    · simp [World.act, Std.TreeMap.getElem?_insert, appended, hfile, hcontent]
  consumed other := by
    obtain ⟨consumed, rest, hconsumed⟩ := htracks.consumed other
    rw [appended_append]
    exact ⟨consumed, hconsumed.append _⟩
  streams_eq := htracks.streams_eq
  event_files := htracks.event_files

/-- After a poll, a file's log is its text up to the first line that is not
text; a file the poll does not visit keeps its log. -/
theorem Tracks.poll_file {actions : List Action} {world : World}
    (htracks : Tracks parse actions world) (file : String) :
    let after := world.act parse .poll
    ∃ consumed rest,
      Consumed (appended file actions) (after.tailer.offsets[file]?.getD 0)
        (linesOf file after.routed) consumed rest ∧
      (hasJsonlExtension file →
        consumed = readableLines (appended file actions)) := by
  obtain ⟨consumed, rest, hconsumed⟩ := htracks.consumed file
  by_cases hvisited :
      ∃ content, (file, content) ∈ eventFiles world.directory
  · obtain ⟨content, hmem⟩ := hvisited
    have hcontent : content = appended file actions := by
      have hfound := (mem_eventFiles_iff.mp hmem).1
      rw [← htracks.content_eq file, hfound]
      rfl
    obtain ⟨hoffset, hlines⟩ := foldl_pollFile_visited parse
      (eventFiles_distinct world.directory) (world.tailer, []) hmem rfl
    have hread := (hcontent ▸ hconsumed).read
    rw [← hcontent]
    simp only [World.act, poll, linesOf_append, hoffset, hlines]
    exact ⟨_, _, hread, fun _ => rfl⟩
  · have hothers : ∀ other ∈ eventFiles world.directory, other.1 ≠ file := by
      intro other hmem heq
      exact hvisited ⟨other.2, heq ▸ hmem⟩
    obtain ⟨hoffset, hlines⟩ := foldl_pollFile_other parse
      (world.tailer, []) hothers
    refine ⟨consumed, rest, ?_, ?_⟩
    · simp only [World.act, poll, linesOf_append, hoffset, hlines]
      simpa [linesOf] using hconsumed
    · intro hevent
      have habsent : world.directory[file]? = none := by
        rw [Option.eq_none_iff_forall_not_mem]
        intro content hfound
        exact hvisited ⟨content, mem_eventFiles_iff.mpr ⟨hfound, hevent⟩⟩
      have hempty : appended file actions = [] := by
        rw [← htracks.content_eq file, habsent]
        rfl
      have hnone := hconsumed.content_eq
      rw [hempty, completeLines_of_not_mem List.not_mem_nil] at hnone
      rw [hempty, readableLines,
        completeLines_of_not_mem List.not_mem_nil]
      exact (List.append_eq_nil_iff.mp hnone.symm).1

theorem foldl_pollFile_files (files : List (String × List UInt8))
    (state : EventTailer × List Routed) {routed : Routed}
    (hmem : routed ∈ (files.foldl (pollFile parse) state).2) :
    routed ∈ state.2 ∨ ∃ file ∈ files, file.1 = routed.file := by
  induction files generalizing state with
  | nil => exact .inl hmem
  | cons file files ih =>
      rw [List.foldl_cons] at hmem
      rcases ih _ hmem with hhead | ⟨other, hother, heq⟩
      · simp only [pollFile, List.mem_append, List.mem_map] at hhead
        rcases hhead with hbefore | ⟨line, -, rfl⟩
        · exact .inl hbefore
        · exact .inr ⟨file, List.mem_cons_self .., rfl⟩
      · exact .inr ⟨other, List.mem_cons_of_mem _ hother, heq⟩

theorem Tracks.poll {actions : List Action} {world : World}
    (htracks : Tracks parse actions world) :
    Tracks parse (actions ++ [.poll]) (world.act parse .poll) := by
  have hsame (file : String) :
      appended file (actions ++ [.poll]) = appended file actions := by
    rw [appended_append]
    exact List.append_nil _
  constructor
  · intro file
    rw [hsame]
    exact htracks.content_eq file
  · intro file
    obtain ⟨consumed, rest, hconsumed, -⟩ := htracks.poll_file parse file
    rw [hsame]
    exact ⟨consumed, rest, hconsumed⟩
  · have hstart : world.tailer.streams =
        replay parse world.tailer.streams [] := rfl
    have hpolled := foldl_pollFile_streams parse (eventFiles world.directory)
      (world.tailer, []) hstart
    simp only [World.act, replay_append, ← htracks.streams_eq]
    exact hpolled
  · intro routed hmem
    rcases List.mem_append.mp hmem with hbefore | hpolled
    · exact htracks.event_files routed hbefore
    · rcases foldl_pollFile_files parse _ _ hpolled with hnone | hvisited
      · cases hnone
      · obtain ⟨file, hfile, heq⟩ := hvisited
        rw [← heq]
        exact (mem_eventFiles_iff.mp hfile).2

theorem tracks_run (actions : List Action) :
    Tracks parse actions (run parse actions) := by
  induction actions using List.reverseRecOn with
  | nil => exact Tracks.new parse
  | append_singleton actions action ih =>
      rw [run, List.foldl_append, List.foldl_cons, List.foldl_nil]
      cases action with
      | append file chunk => exact ih.append parse file chunk
      | poll => exact ih.poll parse

theorem run_poll (actions : List Action) :
    run parse (actions ++ [.poll]) = (run parse actions).act parse .poll := by
  rw [run, List.foldl_append]
  rfl

/-- The lines of a file as text, those that are not UTF-8 dropped. -/
def fileLines (content : List UInt8) : List String :=
  (completeLines newlineByte content).filterMap decodeLine

/-- Once every append is polled, a file's log depends on its bytes alone. -/
theorem linesOf_run_poll (actions : List Action) (file : String) :
    linesOf file (run parse (actions ++ [.poll])).routed =
      if hasJsonlExtension file then
        (readableLines (appended file actions)).filterMap decodeLine
      else [] := by
  rw [run_poll]
  obtain ⟨consumed, rest, hconsumed, hreadable⟩ :=
    (tracks_run parse actions).poll_file parse file
  split
  · next hevent => rw [hconsumed.lines_eq, hreadable hevent]
  · next hevent =>
      have hfiles := ((tracks_run parse actions).poll parse).event_files
      rw [linesOf, List.filter_eq_nil_iff.mpr, List.map_nil]
      intro routed hmem heq
      exact hevent (of_decide_eq_true heq ▸ hfiles routed hmem)

/-! ## Independence of the polls -/

/-- Every record for one destination is written to one file. -/
def LivesIn (actions : List Action) (target : Destination) (home : String) :
    Prop :=
  ∀ file, hasJsonlExtension file →
    ∀ line ∈ fileLines (appended file actions), ∀ event,
      parse line = some event → destination event = target → file = home

/-- Each host's records, and the build's, live in a file of their own. -/
structure Separated (actions : List Action) : Prop where
  hosts : ∀ name, ∃ home, LivesIn parse actions (.host name) home
  build : ∃ home, LivesIn parse actions .build home

/-- The parsed records of a log. -/
def records (lines : List String) : List Json := lines.filterMap parse

theorem replay_eq (streams : Streams) (log : List Routed) :
    replay parse streams log =
      (records parse (log.map Routed.line)).foldl Streams.routeEvent
        streams := by
  induction log generalizing streams with
  | nil => rfl
  | cons routed log ih =>
      rw [replay, List.foldl_cons, ← replay, ih]
      cases hparse : parse routed.line <;> simp [route, records, hparse]

theorem filter_records_of_home (log : List Routed) (keep : Json → Bool)
    {home : String}
    (hhome : ∀ routed ∈ log, ∀ event, parse routed.line = some event →
      keep event → routed.file = home) :
    (records parse (log.map Routed.line)).filter keep =
      (records parse (linesOf home log)).filter keep := by
  induction log with
  | nil => rfl
  | cons routed log ih =>
      have hrest := ih fun other hmem =>
        hhome other (List.mem_cons_of_mem _ hmem)
      have hfirst := hhome routed (List.mem_cons_self ..)
      simp only [records, linesOf] at hrest ⊢
      by_cases hfile : routed.file = home
      · cases hparse : parse routed.line with
        | none => simpa [hfile, hparse] using hrest
        | some event =>
            rw [List.map_cons, List.filter_cons_of_pos (by simp [hfile]),
              List.map_cons, List.filterMap_cons_some hparse,
              List.filterMap_cons_some hparse, List.filter_cons,
              List.filter_cons, hrest]
      · cases hparse : parse routed.line with
        | none => simpa [hfile, hparse] using hrest
        | some event =>
            have hdrop : ¬ keep event = true := fun hkeep =>
              hfile (hfirst event hparse hkeep)
            simpa [hfile, hparse, List.filter_cons, hdrop] using hrest

/-- The records for one destination that a polled run has routed. -/
theorem filter_records_run (actions : List Action) {target : Destination}
    {home : String} (hhome : LivesIn parse actions target home) :
    (records parse
        ((run parse (actions ++ [.poll])).routed.map Routed.line)).filter
          (fun event => destination event = target) =
      (records parse
        (linesOf home (run parse (actions ++ [.poll])).routed)).filter
          (fun event => destination event = target) := by
  apply filter_records_of_home
  intro routed hmem event hparse htarget
  have hfiles := (tracks_run parse (actions ++ [.poll])).event_files routed hmem
  have hline : routed.line ∈
      linesOf routed.file (run parse (actions ++ [.poll])).routed := by
    rw [linesOf, List.mem_map]
    exact ⟨routed, List.mem_filter.mpr ⟨hmem, by simp⟩, rfl⟩
  apply hhome routed.file hfiles routed.line _ event hparse
    (of_decide_eq_true htarget)
  rw [linesOf_run_poll, if_pos hfiles] at hline
  exact (List.Sublist.filterMap _ (List.takeWhile_sublist _)).subset hline

theorem hosts_run (actions : List Action) {name home : String}
    (hhome : LivesIn parse actions (.host name) home) :
    (run parse (actions ++ [.poll])).tailer.streams.hosts[name]? =
      ((records parse (linesOf home
        (run parse (actions ++ [.poll])).routed)).filter
          fun event => destination event = .host name).foldl
            (Streams.feedHost name) none := by
  rw [(tracks_run parse (actions ++ [Action.poll])).streams_eq, replay_eq,
    Streams.foldl_routeEvent_hosts, Streams.foldl_feedHost_filter,
    filter_records_run parse actions hhome]
  simp [Streams.new]

theorem build_run (actions : List Action) {home : String}
    (hhome : LivesIn parse actions .build home) :
    (run parse (actions ++ [.poll])).tailer.streams.build =
      ((records parse (linesOf home
        (run parse (actions ++ [.poll])).routed)).filter
          fun event => destination event = .build).foldl
            Streams.feedBuild BuildModel.new := by
  rw [(tracks_run parse (actions ++ [Action.poll])).streams_eq, replay_eq,
    Streams.foldl_routeEvent_build, Streams.foldl_feedBuild_filter,
    filter_records_run parse actions hhome]
  rfl

/-! ## Exactly-once tailing -/

/-- After the last append and one further poll, every line of an event file
has been routed once and in order, and what became of the hosts and of the
build does not depend on when the polls happened. -/
structure ExactlyOnce (actions : List Action) : Prop where
  lines : ∀ file, hasJsonlExtension file →
    linesOf file (run parse (actions ++ [.poll])).routed =
      fileLines (appended file actions)
  hosts : ∀ others,
    (∀ file, appended file others = appended file actions) →
    Separated parse actions → ∀ name : String,
      (run parse (others ++ [.poll])).tailer.streams.hosts[name]? =
        (run parse (actions ++ [.poll])).tailer.streams.hosts[name]?
  build : ∀ others,
    (∀ file, appended file others = appended file actions) →
    Separated parse actions →
      (run parse (others ++ [.poll])).tailer.streams.build =
        (run parse (actions ++ [.poll])).tailer.streams.build

/-- No line of text comes after one that is not UTF-8. -/
def NoTextAfterNonUtf8 (content : List UInt8) : Prop :=
  ∀ before line after,
    completeLines newlineByte content = before ++ line :: after →
    decodeLine line = none → ∀ later ∈ after, decodeLine later = none

theorem readable_eq_fileLines_iff (content : List UInt8) :
    (readableLines content).filterMap decodeLine = fileLines content ↔
      NoTextAfterNonUtf8 content := by
  unfold readableLines fileLines NoTextAfterNonUtf8
  generalize completeLines newlineByte content = lines
  induction lines with
  | nil => simp
  | cons line lines ih =>
      cases htext : decodeLine line with
      | none =>
          simp only [List.takeWhile_cons, htext, Option.isSome_none,
            Bool.false_eq_true, ↓reduceIte, List.filterMap_nil,
            List.filterMap_cons]
          rw [eq_comm, List.filterMap_eq_nil_iff]
          constructor
          · intro hnone before other after hlines _ later hlater
            rcases List.cons_eq_append_iff.mp hlines with
              ⟨rfl, hsame⟩ | ⟨before', rfl, rfl⟩
            · cases hsame
              exact hnone later hlater
            · apply hnone later
              simp [hlater]
          · intro hafter
            exact hafter [] line lines rfl htext
      | some text =>
          simp only [List.takeWhile_cons, htext, Option.isSome_some,
            ↓reduceIte, List.filterMap_cons, List.cons.injEq, true_and]
          rw [ih]
          constructor
          · intro hrest before other after hlines hother
            rcases List.cons_eq_append_iff.mp hlines with
              ⟨rfl, hsame⟩ | ⟨before', rfl, hsame⟩
            · cases hsame
              rw [htext] at hother
              cases hother
            · exact hrest before' other after hsame hother
          · intro hrest before other after hlines
            exact hrest (line :: before) other after (by rw [hlines]; rfl)

theorem linesOf_run_poll_congr {actions others : List Action}
    (hsame : ∀ file, appended file others = appended file actions)
    (file : String) :
    linesOf file (run parse (others ++ [.poll])).routed =
      linesOf file (run parse (actions ++ [.poll])).routed := by
  rw [linesOf_run_poll, linesOf_run_poll, hsame]

theorem LivesIn.congr {actions others : List Action} {target : Destination}
    {home : String} (hhome : LivesIn parse actions target home)
    (hsame : ∀ file, appended file others = appended file actions) :
    LivesIn parse others target home := by
  intro file hevent line hline
  rw [hsame] at hline
  exact hhome file hevent line hline

/-- Tailing is exactly-once on a run exactly when no event file gets a line of
text after a line that is not UTF-8: the reader never passes the latter. -/
theorem exactlyOnce_iff (actions : List Action) :
    ExactlyOnce parse actions ↔
      ∀ file, hasJsonlExtension file →
        NoTextAfterNonUtf8 (appended file actions) := by
  constructor
  · intro honce file hevent
    have hlines := honce.lines file hevent
    rw [linesOf_run_poll, if_pos hevent] at hlines
    exact (readable_eq_fileLines_iff _).mp hlines
  · intro htext
    constructor
    · intro file hevent
      rw [linesOf_run_poll, if_pos hevent]
      exact (readable_eq_fileLines_iff _).mpr (htext file hevent)
    · intro others hsame hseparated name
      obtain ⟨home, hhome⟩ := hseparated.hosts name
      rw [hosts_run parse others (hhome.congr parse hsame),
        hosts_run parse actions hhome, linesOf_run_poll_congr parse hsame]
    · intro others hsame hseparated
      obtain ⟨home, hhome⟩ := hseparated.build
      rw [build_run parse others (hhome.congr parse hsame),
        build_run parse actions hhome, linesOf_run_poll_congr parse hsame]

/-- A broken line followed by a record, as the two writes of a torn stream. -/
def tornStream : List Action :=
  [.append "build.jsonl" [0xff, 0x0a],
    .append "build.jsonl" [0x7b, 0x7d, 0x0a]]

/-- The record behind the broken line is never routed. -/
theorem tornStream_not_exactlyOnce :
    ¬ ExactlyOnce
      (fun line => if line = "{}\n" then some (.object []) else none)
      tornStream := by
  intro honce
  have hcontent : appended "build.jsonl" tornStream =
      [0xff] ++ newlineByte :: ([0x7b, 0x7d] ++ newlineByte :: []) := rfl
  have hcomplete :
      completeLines newlineByte (appended "build.jsonl" tornStream) =
        [[0xff], [0x7b, 0x7d]] := by
    rw [hcontent, completeLines_line_append (by decide),
      completeLines_line_append (by decide),
      completeLines_of_not_mem List.not_mem_nil]
  have hbroken : decodeLine [0xff] = none := by decide
  have hrecord : decodeLine [0x7b, 0x7d] = some "{}\n" := by decide
  have hlines := honce.lines "build.jsonl" (by decide)
  rw [linesOf_run_poll, if_pos (by decide), readableLines, fileLines,
    hcomplete] at hlines
  simp [hbroken, hrecord] at hlines

end Mandala.Tailer
