import Mandala.Core.LossyLines
import Mathlib.Data.List.Forall2

/-!
# Messages sent as lines

A sender writes each message as a line, and the stream may be cut anywhere.  A
reader takes the stream apart at its newlines and decodes each line, skipping
what decodes to nothing.  If no torn line decodes to anything, it has received
the messages whose lines came through whole, in their order, each once.
-/

namespace Mandala.Text

theorem go_of_notMem {line : List Char} (hline : '\n' ∉ line)
    (current : List Char) :
    lines.go current line =
      if current ++ line = [] then [] else [current ++ line] := by
  induction line generalizing current with
  | nil => rw [lines.go, List.append_nil]
  | cons character line ih =>
      rw [List.mem_cons, not_or] at hline
      rw [lines.go, ih hline.2, List.append_assoc, List.singleton_append]
      exact hline.1 ∘ Eq.symm

theorem lines_of_notMem {line : List Char} (hline : '\n' ∉ line)
    (hne : line ≠ []) : lines line = [line] := by
  rw [lines, go_of_notMem hline, List.nil_append, if_neg hne]

theorem go_line {line : List Char} (hline : '\n' ∉ line)
    (current : List Char) :
    lines.go current (line ++ ['\n']) =
      [if (current ++ line).getLast? = some '\r' then (current ++ line).dropLast
        else current ++ line] := by
  induction line generalizing current with
  | nil => rw [List.nil_append, List.append_nil, lines.go, lines.go, if_pos rfl]
  | cons character line ih =>
      rw [List.mem_cons, not_or] at hline
      rw [List.cons_append, lines.go, ih hline.2, List.append_assoc,
        List.singleton_append]
      exact hline.1 ∘ Eq.symm

/-- A line that does not end in a carriage return is taken off as it is. -/
theorem lines_line_append {line : List Char} (hline : '\n' ∉ line)
    (hreturn : line.getLast? ≠ some '\r') (rest : List Char) :
    lines (line ++ '\n' :: rest) = line :: lines rest := by
  have hnil : ([] : List Char) ++ line = line := rfl
  rw [lines, go_newline, go_line hline, hnil, if_neg hreturn]
  rfl

end Mandala.Text

namespace Mandala.LineFraming

open Mandala.Text

variable {Sent Received : Type}

def stream (encode : Sent → List Char) (messages : List Sent) : List Char :=
  messages.flatMap fun message => encode message ++ ['\n']

def received (decode : List Char → Option Received) (text : List Char) :
    List Received :=
  (lines text).filterMap decode

variable (encode : Sent → List Char) (decode : List Char → Option Received)
  (arrives : Sent → Received → Prop)

/-- The line of a message decodes to what arrives of it, and no proper beginning
of the line decodes to anything. -/
structure Framed (message : Sent) : Prop where
  ne_nil : encode message ≠ []
  one_line : '\n' ∉ encode message
  no_return : (encode message).getLast? ≠ some '\r'
  whole : ∃ found, decode (encode message) = some found ∧ arrives message found
  torn : ∀ cut rest, encode message = cut ++ rest → rest ≠ [] →
    decode cut = none

variable {encode decode arrives}

@[simp]
theorem stream_nil : stream encode [] = [] := rfl

theorem stream_cons (message : Sent) (messages : List Sent) :
    stream encode (message :: messages) =
      encode message ++ '\n' :: stream encode messages := by
  rw [stream, List.flatMap_cons, List.append_assoc]
  rfl

theorem length_le_stream (encode : Sent → List Char) (messages : List Sent) :
    messages.length ≤ (stream encode messages).length := by
  induction messages with
  | nil => exact Nat.le_refl 0
  | cons message messages ih =>
      rw [stream_cons, List.length_append, List.length_cons, List.length_cons]
      omega

theorem Framed.notMem_of_append {message : Sent}
    (hframed : Framed encode decode arrives message) {cut rest : List Char}
    (hcut : encode message = cut ++ rest) : '\n' ∉ cut := fun hmem =>
  hframed.one_line (hcut ▸ List.mem_append_left rest hmem)

/-- A prefix of a line and what is behind it ends within the line or behind
its newline. -/
theorem prefix_line_cases {line behind sent : List Char}
    (hsent : sent <+: line ++ '\n' :: behind) :
    (∃ rest, line = sent ++ rest) ∨
      ∃ tail, sent = line ++ '\n' :: tail ∧ tail <+: behind := by
  obtain ⟨after, hafter⟩ := hsent
  rcases List.append_eq_append_iff.mp hafter with
    ⟨rest, hline, -⟩ | ⟨tail, hline, htail⟩
  · exact .inl ⟨rest, hline⟩
  · cases tail with
    | nil => exact .inl ⟨[], by rw [hline, List.append_nil, List.append_nil]⟩
    | cons newline tail =>
        rw [List.cons_append, List.cons.injEq] at htail
        obtain ⟨rfl, hbehind⟩ := htail
        exact .inr ⟨tail, hline, after, hbehind.symm⟩

/-- So many messages have come through whole, but for the last newline. -/
def CameThrough (encode : Sent → List Char) (messages : List Sent)
    (sent : List Char) (count : ℕ) : Prop :=
  ∀ whole ≤ messages.length, whole ≤ count ↔
    (stream encode (messages.take whole)).length ≤ sent.length + 1

theorem length_stream_take_succ (message : Sent) (messages : List Sent)
    (whole : ℕ) :
    (stream encode ((message :: messages).take (whole + 1))).length =
      (encode message).length + 1 +
        (stream encode (messages.take whole)).length := by
  rw [List.take_succ_cons, stream_cons, List.length_append, List.length_cons]
  omega

theorem cameThrough_torn {message : Sent} {messages : List Sent}
    {sent : List Char} (hshort : sent.length < (encode message).length) :
    CameThrough encode (message :: messages) sent 0 := by
  intro whole hle
  cases whole with
  | zero => simp
  | succ whole =>
      rw [length_stream_take_succ]
      omega

theorem cameThrough_line (message : Sent) (messages : List Sent) :
    CameThrough encode (message :: messages) (encode message) 1 := by
  intro whole hle
  cases whole with
  | zero => simp
  | succ whole =>
      have hlonger := length_le_stream encode (messages.take whole)
      rw [List.length_take_of_le (Nat.le_of_succ_le_succ hle)] at hlonger
      rw [length_stream_take_succ]
      cases whole with
      | zero => simp
      | succ whole => omega

theorem CameThrough.behind {messages : List Sent} {tail : List Char} {count : ℕ}
    (hthrough : CameThrough encode messages tail count) (message : Sent) :
    CameThrough encode (message :: messages) (encode message ++ '\n' :: tail)
      (count + 1) := by
  intro whole hle
  cases whole with
  | zero => simp
  | succ whole =>
      have hequiv := hthrough whole (Nat.le_of_succ_le_succ hle)
      rw [length_stream_take_succ, List.length_append, List.length_cons,
        Nat.succ_le_succ_iff, hequiv]
      omega

theorem Framed.received_torn {message : Sent}
    (hframed : Framed encode decode arrives message) {cut rest : List Char}
    (hcut : encode message = cut ++ rest) (hrest : rest ≠ []) :
    received decode cut = [] := by
  by_cases hempty : cut = []
  · rw [hempty]
    rfl
  · rw [received, lines_of_notMem (hframed.notMem_of_append hcut) hempty,
      List.filterMap_cons_none (hframed.torn cut rest hcut hrest),
      List.filterMap_nil]

/-- The reader has received the messages that came through whole. -/
theorem received_cut {messages : List Sent}
    (hframed : ∀ message ∈ messages, Framed encode decode arrives message)
    {sent : List Char} (hsent : sent <+: stream encode messages) :
    ∃ count ≤ messages.length, CameThrough encode messages sent count ∧
      List.Forall₂ arrives (messages.take count) (received decode sent) := by
  induction messages generalizing sent with
  | nil =>
      obtain rfl : sent = [] := List.prefix_nil.mp hsent
      refine ⟨0, Nat.le_refl 0, ?_, .nil⟩
      intro whole hwhole
      simp [Nat.le_zero.mp hwhole]
  | cons message messages ih =>
      have hmessage := hframed message List.mem_cons_self
      obtain ⟨found, hfound, harrives⟩ := hmessage.whole
      rw [stream_cons] at hsent
      rcases prefix_line_cases hsent with ⟨rest, hline⟩ | ⟨tail, rfl, htail⟩
      · by_cases hrest : rest = []
        · obtain rfl : encode message = sent := by
            rw [hline, hrest, List.append_nil]
          refine ⟨1, Nat.le_add_left 1 _, cameThrough_line message messages, ?_⟩
          rw [received, lines_of_notMem hmessage.one_line hmessage.ne_nil,
            List.filterMap_cons_some hfound, List.filterMap_nil]
          exact .cons harrives .nil
        · have hshort : sent.length < (encode message).length := by
            have hpositive := List.length_pos_iff.mpr hrest
            rw [hline, List.length_append]
            omega
          refine ⟨0, Nat.zero_le _, cameThrough_torn hshort, ?_⟩
          rw [hmessage.received_torn hline hrest]
          exact .nil
      · have htaken := ih (fun other hmem =>
          hframed other (List.mem_cons_of_mem message hmem)) htail
        obtain ⟨count, hcount, hthrough, harrived⟩ := htaken
        refine ⟨count + 1, Nat.succ_le_succ hcount, hthrough.behind message, ?_⟩
        rw [received, lines_line_append hmessage.one_line hmessage.no_return,
          List.filterMap_cons_some hfound, List.take_succ_cons]
        exact .cons harrives harrived

end Mandala.LineFraming
