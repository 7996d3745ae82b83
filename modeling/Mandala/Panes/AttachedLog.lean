import Mandala.Core.LossyLines
import Mandala.Core.Transition
import Mandala.Panes.Scroll
import Mandala.Registry.Liveness

/-!
# The log of an attached run

A pane that owns no process polls the run's output file by byte offset and the
registry for the run's liveness.  Every poll takes what the file has gained for
whole lines, and once the run has settled no poll tells the scroll state of the
rows it adds.
-/

namespace Mandala.Panes

open Mandala.Registry Mandala.Text Mandala.Transition
open Mandala.Runner (pushCapped recent foldl_pushCapped)

inductive LogLine where
  | raw (line : String)
  | notice (text : String) (error : Bool)
  deriving DecidableEq, Repr

def LogLine.line : LogLine → Option String
  | .raw line => some line
  | .notice .. => none

def LogLine.isNotice : LogLine → Bool
  | .raw _ => false
  | .notice .. => true

structure AttachedLogState where
  runId : String
  offset : ℕ
  lines : List LogLine
  scroll : ScrollState
  settled : Bool
  deriving DecidableEq, Repr

def AttachedLogState.new (runId : String) : AttachedLogState :=
  { runId, offset := 0, lines := [], scroll := .new, settled := false }

/-- What a poll finds of a run that is registered: whether its log can be read,
and what `liveness` and the return code are afterwards. -/
structure Observation where
  readable : Bool
  liveness : RunLiveness
  rc : Option Int
  deriving DecidableEq, Repr

/-! ## A poll -/

def livenessText : RunLiveness → String
  | .running => "running"
  | .finished => "finished"
  | .failed => "failed"
  | .rolledBack => "rolled-back"
  | .unknown => "unknown"

def fmtRc (rc : Option Int) : String :=
  (rc.map toString).getD "None"

def goneNotice (runId : String) : LogLine :=
  .notice ("run " ++ runId ++ " is gone (pruned?)") true

def settledNotice (observed : Observation) : LogLine :=
  .notice ("— " ++ livenessText observed.liveness ++ " (rc=" ++ fmtRc observed.rc ++ ")")
    (decide (observed.liveness ≠ .finished))

/-- `read_from_offset`: the text behind the offset, and the offset behind it. -/
def readFromOffset (content : List UInt8) (readable : Bool) (offset : ℕ) : String × ℕ :=
  if readable then
    let buf := content.drop offset
    (fromUtf8Lossy buf, offset + buf.length)
  else ("", offset)

def rawRows (chunk : String) : List LogLine :=
  (Text.lines chunk.toList).map fun line => .raw (String.ofList line)

/-- `attached_pump` on the log's content and what there is of the run. -/
def attachedPump (state : AttachedLogState) (content : List UInt8) :
    Option Observation → AttachedLogState
  | none =>
      if state.settled then state
      else
        let lines := pushCapped state.lines (goneNotice state.runId) scrollbackMax
        { state with settled := true, lines, scroll := state.scroll.updateContent lines.length }
  | some observed =>
      let (chunk, offset) := readFromOffset content observed.readable state.offset
      let lines := (rawRows chunk).foldl (pushCapped · · scrollbackMax) state.lines
      if state.settled then { state with offset, lines }
      else
        let settles := decide (observed.liveness ≠ .running)
        let lines :=
          if settles then pushCapped lines (settledNotice observed) scrollbackMax
          else lines
        { state with
          offset, lines, settled := settles
          scroll := state.scroll.updateContent lines.length }

/-! ## The pane and the file -/

structure Attached where
  state : AttachedLogState
  /-- The file, as long as there is one. -/
  content : List UInt8
  /-- Every row there has been. -/
  all : List LogLine
  /-- The file when it was last read. -/
  seen : List UInt8
  deriving DecidableEq, Repr

def Attached.new (runId : String) : Attached :=
  { state := .new runId, content := [], all := [], seen := [] }

inductive Poll where
  | append (chunk : List UInt8)
  | pump (observed : Option Observation)
  | scrollUp (lines viewport : ℕ)
  | scrollDown (lines : ℕ)
  | toTop (viewport : ℕ)
  | toBottom

/-- The rows a pump adds. -/
def pumpRows (state : AttachedLogState) (content : List UInt8) :
    Option Observation → List LogLine
  | none => if state.settled then [] else [goneNotice state.runId]
  | some observed =>
      rawRows (readFromOffset content observed.readable state.offset).1 ++
        if state.settled ∨ observed.liveness = .running then []
        else [settledNotice observed]

namespace Attached

def scrolled (attached : Attached) (scroll : ScrollState) : Attached :=
  { attached with state := { attached.state with scroll } }

def act (attached : Attached) : Poll → Attached
  | .append chunk => { attached with content := attached.content ++ chunk }
  | .pump observed =>
      { attached with
        state := attachedPump attached.state attached.content observed
        all := attached.all ++ pumpRows attached.state attached.content observed
        seen :=
          if observed.any Observation.readable then attached.content
          else attached.seen }
  | .scrollUp lines viewport =>
      attached.scrolled (attached.state.scroll.scrollUp lines viewport)
  | .scrollDown lines => attached.scrolled (attached.state.scroll.scrollDown lines)
  | .toTop viewport => attached.scrolled (attached.state.scroll.toTop viewport)
  | .toBottom => attached.scrolled attached.state.scroll.toBottom

def Step (before : Attached) (move : Poll) (after : Attached) : Prop :=
  before.act move = after

/-- What the pane owes its reader. -/
structure Faithful (attached : Attached) : Prop where
  /-- The rows are the lines of the file as one pump reads them. -/
  rows : attached.all.filterMap LogLine.line =
    (lossyLines attached.seen).map String.ofList
  shown : attached.state.lines = recent scrollbackMax attached.all
  notices : attached.all.countP LogLine.isNotice ≤ 1
  content : attached.state.scroll.contentLen = attached.state.lines.length

/-- New bytes are only found behind a newline, and of a settled run only while
the scrollback is full. -/
def WholeLines (attached : Attached) : Poll → Prop
  | .pump (some observed) =>
      observed.readable →
        attached.content.length = attached.state.offset ∨
          (attached.state.offset = 0 ∨
              (attached.content.take attached.state.offset).getLast? = some newlineByte) ∧
            (attached.state.settled → attached.state.lines.length = scrollbackMax)
  | _ => True

instance (attached : Attached) (move : Poll) : Decidable (WholeLines attached move) :=
  match move with
  | .pump (some _) => by unfold WholeLines; infer_instance
  | .pump none | .append _ | .scrollUp .. | .scrollDown _ | .toTop _ | .toBottom =>
      .isTrue trivial

end Attached

/-! ## What one pump does -/

/-- The poll comes to a run that is over. -/
def settles (observed : Option Observation) : Bool :=
  observed.all fun observed => decide (observed.liveness ≠ .running)

section Pump
variable (state : AttachedLogState) (content : List UInt8) (observed : Option Observation)

theorem attachedPump_lines :
    (attachedPump state content observed).lines =
      (pumpRows state content observed).foldl (pushCapped · · scrollbackMax)
        state.lines := by
  cases observed with
  | none => cases hsettled : state.settled <;> simp [attachedPump, pumpRows, hsettled]
  | some observed =>
      cases hsettled : state.settled with
      | true => simp [attachedPump, pumpRows, hsettled]
      | false =>
          by_cases hrunning : observed.liveness = .running <;>
            simp [attachedPump, pumpRows, hsettled, hrunning, List.foldl_append]

theorem attachedPump_offset :
    (attachedPump state content observed).offset =
      if observed.any Observation.readable then
        state.offset + (content.drop state.offset).length
      else state.offset := by
  cases observed with
  | none => cases hsettled : state.settled <;> simp [attachedPump, hsettled]
  | some observed =>
      cases hreadable : observed.readable <;> cases hsettled : state.settled <;>
        simp [attachedPump, readFromOffset, hreadable, hsettled]

theorem attachedPump_settled :
    (attachedPump state content observed).settled =
      (state.settled || settles observed) := by
  cases observed with
  | none => cases hsettled : state.settled <;> simp [attachedPump, settles, hsettled]
  | some observed =>
      cases hsettled : state.settled <;> simp [attachedPump, settles, hsettled]

/-- Once settled, the scroll state is not told any more. -/
theorem attachedPump_scroll :
    (attachedPump state content observed).scroll =
      if state.settled then state.scroll
      else state.scroll.updateContent (attachedPump state content observed).lines.length := by
  cases observed with
  | none => cases hsettled : state.settled <;> simp [attachedPump, hsettled]
  | some observed => cases hsettled : state.settled <;> simp [attachedPump, hsettled]

theorem filterMap_rawRows (chunk : String) :
    (rawRows chunk).filterMap LogLine.line =
      (Text.lines chunk.toList).map String.ofList := by
  rw [rawRows, List.filterMap_map]
  change List.filterMap (some ∘ String.ofList) _ = _
  rw [List.filterMap_eq_map]

theorem filterMap_pumpRows :
    (pumpRows state content observed).filterMap LogLine.line =
      if observed.any Observation.readable then
        (lossyLines (content.drop state.offset)).map String.ofList
      else [] := by
  cases observed with
  | none => cases hsettled : state.settled <;> simp [pumpRows, hsettled, goneNotice, LogLine.line]
  | some observed =>
      have hnotices : (if state.settled ∨ observed.liveness = .running then []
          else [settledNotice observed]).filterMap LogLine.line = [] := by
        split_ifs <;> rfl
      rw [pumpRows, List.filterMap_append, hnotices, List.append_nil, filterMap_rawRows]
      cases hreadable : observed.readable with
      | true => simp [readFromOffset, hreadable, lossyLines]
      | false => simp [readFromOffset, hreadable, Text.lines, Text.lines.go]

theorem countP_rawRows (chunk : String) :
    (rawRows chunk).countP LogLine.isNotice = 0 := by
  rw [rawRows, List.countP_map, List.countP_eq_zero]
  exact fun _ _ => Bool.false_ne_true

theorem countP_pumpRows :
    (pumpRows state content observed).countP LogLine.isNotice =
      if state.settled = false ∧ settles observed then 1 else 0 := by
  cases observed with
  | none =>
      cases hsettled : state.settled <;>
        simp [pumpRows, hsettled, settles, goneNotice, LogLine.isNotice]
  | some observed =>
      rw [pumpRows, List.countP_append, countP_rawRows, Nat.zero_add]
      cases hsettled : state.settled with
      | true => simp
      | false =>
          by_cases hrunning : observed.liveness = .running <;>
            simp [hrunning, settles, settledNotice, LogLine.isNotice]

end Pump

theorem contentLen_updateContent (scroll : ScrollState) (newLen : ℕ) :
    (scroll.updateContent newLen).contentLen = newLen := by
  unfold ScrollState.updateContent
  dsimp only
  split_ifs <;> rfl

namespace Attached

/-! ## What every run keeps -/

structure Tracked (attached : Attached) : Prop where
  offset : attached.state.offset = attached.seen.length
  isPrefix : attached.seen <+: attached.content
  shown : attached.state.lines = recent scrollbackMax attached.all
  notices : attached.all.countP LogLine.isNotice ≤ if attached.state.settled then 1 else 0

variable {attached : Attached}

theorem tracked_new (runId : String) : Tracked (.new runId) where
  offset := rfl
  isPrefix := List.nil_prefix
  shown := by simp [Attached.new, AttachedLogState.new, recent]
  notices := Nat.zero_le _

theorem all_pump (attached : Attached) (observed : Option Observation) :
    (attached.act (.pump observed)).all =
      attached.all ++ pumpRows attached.state attached.content observed := rfl

theorem seen_pump (attached : Attached) (observed : Option Observation) :
    (attached.act (.pump observed)).seen =
      if observed.any Observation.readable then attached.content else attached.seen := rfl

theorem state_pump (attached : Attached) (observed : Option Observation) :
    (attached.act (.pump observed)).state =
      attachedPump attached.state attached.content observed := rfl

theorem Tracked.drop_offset (htracked : Tracked attached) :
    attached.content = attached.seen ++ attached.content.drop attached.state.offset := by
  obtain ⟨fresh, hfresh⟩ := htracked.isPrefix
  rw [htracked.offset, ← hfresh, List.drop_left]

theorem Tracked.pump (htracked : Tracked attached) (observed : Option Observation) :
    Tracked (attached.act (.pump observed)) := by
  have hcontent := congrArg List.length htracked.drop_offset
  rw [List.length_append] at hcontent
  refine ⟨?_, ?_, ?_, ?_⟩
  · rw [state_pump, seen_pump, attachedPump_offset]
    split_ifs
    · rw [hcontent, htracked.offset]
    · exact htracked.offset
  · rw [seen_pump]
    split_ifs
    · exact List.prefix_rfl
    · exact htracked.isPrefix
  · rw [state_pump, all_pump, attachedPump_lines, htracked.shown,
      foldl_pushCapped (by decide)]
  · have hnotices := htracked.notices
    rw [state_pump, all_pump, List.countP_append, countP_pumpRows, attachedPump_settled]
    cases hsettled : attached.state.settled <;> cases hsettles : settles observed <;>
      simp_all

theorem Tracked.scrolled (htracked : Tracked attached) (scroll : ScrollState) :
    Tracked (attached.scrolled scroll) :=
  ⟨htracked.offset, htracked.isPrefix, htracked.shown, htracked.notices⟩

theorem Tracked.act (htracked : Tracked attached) (move : Poll) :
    Tracked (attached.act move) := by
  cases move with
  | append chunk =>
      exact ⟨htracked.offset, htracked.isPrefix.trans (List.prefix_append _ _),
        htracked.shown, htracked.notices⟩
  | pump observed => exact htracked.pump observed
  | scrollUp | scrollDown | toTop | toBottom => exact htracked.scrolled _

/-! ## Whole lines -/

/-- The rows of two pumps are those of one, where the first ended with a line. -/
theorem lossyLines_append {seen fresh : List UInt8}
    (hwhole : seen = [] ∨ seen.getLast? = some newlineByte) :
    lossyLines (seen ++ fresh) = lossyLines seen ++ lossyLines fresh := by
  rcases hwhole with rfl | hlast
  · have hempty : lossyLines [] = [] := by decide +kernel
    rw [hempty, List.nil_append, List.nil_append]
  · obtain ⟨front, rfl⟩ := List.getLast?_eq_some_iff.mp hlast
    rw [List.append_assoc, List.singleton_append, lossyLines_newline]

/-- What the condition adds to the invariant. -/
structure Whole (attached : Attached) : Prop extends Tracked attached where
  rows : attached.all.filterMap LogLine.line =
    (lossyLines attached.seen).map String.ofList
  content : attached.state.scroll.contentLen = attached.state.lines.length

theorem whole_new (runId : String) : Whole (.new runId) where
  toTracked := tracked_new runId
  rows := by
    have hempty : lossyLines [] = [] := by decide +kernel
    exact (congrArg (List.map String.ofList) hempty).symm
  content := rfl

theorem Tracked.length_lines (htracked : Tracked attached) :
    attached.state.lines.length = min scrollbackMax attached.all.length := by
  rw [htracked.shown, recent, List.length_drop]
  omega

/-- Without new bytes a pump of a settled run adds no row. -/
theorem pumpRows_eq_nil (hsettled : attached.state.settled) {observed : Option Observation}
    (hnothing : observed.any Observation.readable →
      attached.content.length = attached.state.offset) :
    pumpRows attached.state attached.content observed = [] := by
  cases observed with
  | none => simp [pumpRows, hsettled]
  | some observed =>
      have hempty : rawRows (fromUtf8Lossy []) = [] := by decide +kernel
      cases hreadable : observed.readable with
      | true =>
          have hdrop : attached.content.drop attached.state.offset = [] :=
            List.drop_of_length_le (hnothing hreadable).le
          simp [pumpRows, readFromOffset, hreadable, hsettled, hdrop, hempty]
      | false =>
          simp [pumpRows, readFromOffset, hreadable, hsettled, rawRows, Text.lines,
            Text.lines.go]

/-- A settled run's pump adds no row, or one to a full scrollback. -/
theorem Whole.content_pump (hwhole : Whole attached) {observed : Option Observation}
    (hlines : WholeLines attached (.pump observed)) :
    (attachedPump attached.state attached.content observed).scroll.contentLen =
      (attachedPump attached.state attached.content observed).lines.length := by
  rw [attachedPump_scroll]
  split_ifs with hsettled
  · rw [hwhole.content]
    have hafter := (hwhole.toTracked.pump observed).length_lines
    rw [state_pump, all_pump, List.length_append] at hafter
    have hbefore := hwhole.toTracked.length_lines
    by_cases hnothing : observed.any Observation.readable →
        attached.content.length = attached.state.offset
    · rw [attachedPump_lines, pumpRows_eq_nil hsettled hnothing,
        List.foldl_nil]
    · obtain ⟨hreadable, hfresh⟩ := Classical.not_imp.mp hnothing
      cases observed with
      | none => contradiction
      | some observed =>
          have hfull := ((hlines hreadable).resolve_left hfresh).2 hsettled
          omega
  · exact contentLen_updateContent _ _

theorem Whole.rows_pump (hwhole : Whole attached) {observed : Option Observation}
    (hlines : WholeLines attached (.pump observed)) :
    (attached.act (.pump observed)).all.filterMap LogLine.line =
      (lossyLines (attached.act (.pump observed)).seen).map String.ofList := by
  rw [all_pump, seen_pump, List.filterMap_append, filterMap_pumpRows, hwhole.rows]
  cases observed with
  | none => simp
  | some observed =>
      by_cases hreadable : (some observed).any Observation.readable = true
      · rw [if_pos hreadable, if_pos hreadable, ← List.map_append]
        have hsplit := hwhole.toTracked.drop_offset
        rcases hlines hreadable with hnothing | ⟨hends, -⟩
        · have hdrop : attached.content.drop attached.state.offset = [] :=
            List.drop_of_length_le hnothing.le
          have hempty : lossyLines [] = [] := by decide +kernel
          rw [hdrop, List.append_nil] at hsplit
          rw [hdrop, hempty, List.append_nil, hsplit]
        · have htake : attached.content.take attached.state.offset = attached.seen := by
            rw [hsplit, hwhole.offset, List.take_left]
          have hseen : attached.seen = [] ∨ attached.seen.getLast? = some newlineByte := by
            rcases hends with hzero | hlast
            · exact .inl (List.length_eq_zero_iff.mp (hwhole.offset ▸ hzero))
            · exact .inr (htake ▸ hlast)
          rw [← lossyLines_append hseen, ← hsplit]
      · rw [if_neg hreadable, if_neg hreadable, List.append_nil]

theorem Whole.act (hwhole : Whole attached) {move : Poll}
    (hlines : WholeLines attached move) : Whole (attached.act move) := by
  have htracked := hwhole.toTracked.act move
  cases move with
  | append chunk => exact ⟨htracked, hwhole.rows, hwhole.content⟩
  | pump observed => exact ⟨htracked, hwhole.rows_pump hlines, hwhole.content_pump hlines⟩
  | scrollUp | scrollDown | toTop | toBottom =>
      exact ⟨htracked, hwhole.rows, hwhole.content⟩

theorem Whole.faithful (hwhole : Whole attached) : Faithful attached where
  rows := hwhole.rows
  shown := hwhole.shown
  notices := hwhole.notices.trans (by split_ifs <;> omega)
  content := hwhole.content

/-- In every run whose pumps find whole lines, the pane is faithful to the file. -/
theorem faithful_of_wholeLines {runId : String} {attached : Attached}
    (hreach : Reachable (· = .new runId) Step WholeLines attached) : Faithful attached := by
  have hwhole : Whole attached := by
    apply hreach.invariant
    · rintro start rfl
      exact whole_new runId
    · rintro before move after hbefore hlines rfl
      exact hbefore.act hlines
  exact hwhole.faithful

def running : Observation := { readable := true, liveness := .running, rc := none }

def finished : Observation := { readable := true, liveness := .finished, rc := some 0 }

/-- Two lines, the second with the run's end. -/
def wholeLines : List Poll :=
  [.append [97, 10], .pump (some running), .append [98, 10], .pump (some finished)]

theorem faithful_of_two_lines : Faithful (wholeLines.foldl act (.new "run")) := by
  have hrun : wholeLines.foldlM
      (fun attached move =>
        if WholeLines attached move then some (attached.act move) else none)
      (.new "run") = some (wholeLines.foldl act (.new "run")) := by
    decide +kernel
  have hact : ∀ before move after,
      (if WholeLines before move then some (before.act move) else none) = some after →
        WholeLines before move ∧ Step before move after := by
    intro before move after hact
    split_ifs at hact with hlines
    exact ⟨hlines, Option.some.inj hact⟩
  have hstart : Reachable (· = .new "run") Step WholeLines (.new "run") := .initial rfl
  exact faithful_of_wholeLines (hstart.foldlM hact hrun)

/-- A line of two letters, read after the first and after the second. -/
def halves : List Poll :=
  [.append [97], .pump (some running), .append [98, 10], .pump (some running)]

theorem not_faithful_of_halves :
    ¬ ∀ (runId : String) (attached : Attached),
      Reachable (· = .new runId) Step anyStep attached → Faithful attached := by
  intro hall
  have hrun : halves.foldlM (fun attached move => some (attached.act move))
      (.new "run") = some (halves.foldl act (.new "run")) := by
    decide +kernel
  have hact : ∀ before move after, some (Attached.act before move) = some after →
      anyStep before move ∧ Step before move after :=
    fun _ _ _ hact => ⟨trivial, Option.some.inj hact⟩
  have hstart : Reachable (· = .new "run") Step anyStep (.new "run") := .initial rfl
  have hrows := (hall "run" _ (hstart.foldlM hact hrun)).rows
  revert hrows
  decide +kernel

end Attached

end Mandala.Panes
