import Mandala.Context.Session
import Mandala.Core.LineFraming
import Mandala.Data.Derive
import Mandala.Data.Reading

/-!
# Frames as lines

A frame is written as one JSON object that names its kind in the field `type`.
A reader of the protocol takes the named fields of the object and ignores the
others; it also takes the fields by position, from an array that begins with
the kind.
-/

namespace Mandala.Context.Wire

open Mandala.Data Mandala.Data.Derive Mandala.Data.Json
  Mandala.Context.Endpoint

/-! ## Writing -/

def tagged (kind : String) (fields : List (String × Json)) : Json :=
  .object (("type", .string kind) :: fields)

/-- A field that is skipped where it is `None`. -/
def skipped (key : String) (value : Option Json) : List (String × Json) :=
  (value.map fun value => (key, value)).toList

def errorFields (error : String) (flake : Option String) :
    List (String × Json) :=
  ("error", .string error) :: skipped "flake" (flake.map .string)

def resultFields (id : ℕ) (ok : Bool) (result : Option Json)
    (error : Option String) : List (String × Json) :=
  ("id", .int id) :: ("ok", .bool ok) ::
    (skipped "result" result ++ skipped "error" (error.map .string))

/-- What a frame is serialized as. -/
def frameValue : Frame → Json
  | .hello v token client flake =>
      tagged "hello"
        [("v", .int v), ("token", .string token), ("client", .string client),
          ("flake", .string flake)]
  | .welcome v flake pid =>
      tagged "welcome" [("v", .int v), ("flake", .string flake), ("pid", .int pid)]
  | .error error flake =>
      tagged "error" (errorFields error flake)
  | .call id tool args =>
      tagged "call"
        [("id", .int id), ("tool", .string tool), ("args", .object args.toList)]
  | .callResult id ok result error =>
      tagged "result" (resultFields id ok result error)
  | .subscribe => tagged "subscribe" []
  | .subscribed => tagged "subscribed" []
  | .event event => tagged "event" [("event", event)]
  | .ping => tagged "ping" []
  | .pong => tagged "pong" []
  | .heartbeat => tagged "heartbeat" []

/-! ## Reading -/

/-- The frame of a kind. -/
def frameOf (kind : String) (content : Content) : Option Frame :=
  match kind with
  | "hello" => do
      let v ← content.required 0 "v" asWord32
      let token ← content.required 1 "token" asStr
      let client ← content.required 2 "client" asStr
      let flake ← content.required 3 "flake" asStr
      content.finished 4
      some (.hello v token client flake)
  | "welcome" => do
      let v ← content.required 0 "v" asWord32
      let flake ← content.required 1 "flake" asStr
      let pid ← content.required 2 "pid" asWord32
      content.finished 3
      some (.welcome v flake pid)
  | "error" => do
      let error ← content.required 0 "error" asStr
      let flake ← content.optional 1 "flake" asStr
      content.finished 2
      some (.error error flake)
  | "call" => do
      let id ← content.required 0 "id" asWord64
      let tool ← content.required 1 "tool" asStr
      let args ← content.defaulted 2 "args" asMap ∅
      content.finished 3
      some (.call id tool args)
  | "result" => do
      let id ← content.required 0 "id" asWord64
      let ok ← content.required 1 "ok" asBool
      let result ← content.optional 2 "result" (some ∘ valueOf)
      let error ← content.optional 3 "error" asStr
      content.finished 4
      some (.callResult id ok result error)
  | "event" => do
      let event ← content.required 0 "event" (some ∘ valueOf)
      content.finished 1
      some (.event event)
  | "subscribe" => (content.finished 0).map fun _ => .subscribe
  | "subscribed" => (content.finished 0).map fun _ => .subscribed
  | "ping" => (content.finished 0).map fun _ => .ping
  | "pong" => (content.finished 0).map fun _ => .pong
  | "heartbeat" => (content.finished 0).map fun _ => .heartbeat
  | _ => none

/-- `Frame`'s reader.  The kind may stand anywhere among the named fields. -/
def frameOfValue : Json → Option Frame
  | .object entries =>
      match (Content.named entries).find 0 "type" with
      | some (some (.string kind)) =>
          frameOf kind (.named (entries.filter (·.1 ≠ "type")))
      | _ => none
  | .array (.string kind :: values) => frameOf kind (.positional values)
  | _ => none

/-- What is used of `serde_json`; `refusal` is what it says of a value that is
no frame. -/
structure Serde where
  fromStr : String → Except String Json
  toStr : Json → String
  refusal : Json → String

/-- `Frame::to_line`. -/
def toLine (serde : Serde) (frame : Frame) : String :=
  serde.toStr (frameValue frame)

/-- `Frame::from_line`. -/
def fromLine (serde : Serde) (line : String) : Except String Frame :=
  match serde.fromStr line with
  | .error error => .error error
  | .ok value =>
      match frameOfValue value with
      | some frame => .ok frame
      | none => .error (serde.refusal value)

/-! ## What arrives of a frame -/

/-- The types of the source: integers of so many bits, and payloads that are
values. -/
def WellTyped : Frame → Prop
  | .hello v _ _ _ => v < 4294967296
  | .welcome v _ pid => v < 4294967296 ∧ pid < 4294967296
  | .call id _ args =>
      id < 18446744073709551616 ∧ ∀ entry ∈ args.toList, valueOf entry.2 = entry.2
  | .callResult id _ result _ =>
      id < 18446744073709551616 ∧ ∀ value ∈ result, valueOf value = value
  | .event event => valueOf event = event
  | _ => True

/-- A result that is `null` arrives as no result. -/
def arrived : Frame → Frame
  | .callResult id ok result error =>
      .callResult id ok (result.bind notNull) error
  | frame => frame

/-- Two maps are the same if they hold the same. -/
inductive Same : Frame → Frame → Prop where
  | refl (frame : Frame) : Same frame frame
  | call {id : ℕ} {tool : String} {sent received : BTreeMap Json}
      (args : ∀ key : String, sent[key]? = received[key]?) :
      Same (.call id tool sent) (.call id tool received)

def Arrives (sent received : Frame) : Prop := Same (arrived sent) received

/-- The kind is found, and the fields are those behind it. -/
theorem frameOfValue_tagged {kind : String} {fields : List (String × Json)}
    (hfields : ∀ field ∈ fields, field.1 ≠ "type") :
    frameOfValue (tagged kind fields) = frameOf kind (.named fields) := by
  have hnone : fields.filter (·.1 = "type") = [] := by
    rw [List.filter_eq_nil_iff]
    intro field hmem hkind
    exact hfields field hmem (of_decide_eq_true hkind)
  have hall : fields.filter (·.1 ≠ "type") = fields := by
    rw [List.filter_eq_self]
    exact fun field hmem => decide_eq_true (hfields field hmem)
  have hfind : (Content.named (("type", .string kind) :: fields)).find 0 "type" =
      some (some (.string kind)) := by
    rw [Content.find, List.filter_cons_of_pos (by simp), hnone]
  rw [tagged, frameOfValue, hfind]
  simp only
  rw [List.filter_cons_of_neg (by simp), hall]

theorem errorFields_distinct (error : String) (flake : Option String) :
    (errorFields error flake).Pairwise
      fun left right => left.1 ≠ right.1 := by
  cases flake <;> simp [errorFields, skipped]

theorem resultFields_distinct (id : ℕ) (ok : Bool) (result : Option Json)
    (error : Option String) :
    (resultFields id ok result error).Pairwise
      fun left right => left.1 ≠ right.1 := by
  cases result <;> cases error <;> simp [resultFields, skipped]

theorem notNull_string (text : String) :
    notNull (.string text) = some (.string text) := rfl

theorem frameOfValue_error (error : String) (flake : Option String) :
    frameOfValue (frameValue (.error error flake)) =
      some (.error error flake) := by
  have hdistinct := errorFields_distinct error flake
  have hflake : (errorFields error flake).lookup "flake" =
      flake.map .string := by
    cases flake <;> rfl
  rw [frameValue, frameOfValue_tagged]
  · simp only [frameOf]
    rw [required_named hdistinct rfl,
      optional_named hdistinct notNull_string (fun _ => rfl) hflake]
    rfl
  · cases flake <;> simp [errorFields, skipped]

theorem frameOfValue_result {id : ℕ} (hid : id < 18446744073709551616)
    (ok : Bool) {result : Option Json}
    (hresult : ∀ value ∈ result, valueOf value = value)
    (error : Option String) :
    frameOfValue (frameValue (.callResult id ok result error)) =
      some (arrived (.callResult id ok result error)) := by
  have hdistinct := resultFields_distinct id ok result error
  have hvalue : (resultFields id ok result error).lookup "result" = result := by
    cases result <;> cases error <;> rfl
  have herror : (resultFields id ok result error).lookup "error" =
      error.map .string := by
    cases result <;> cases error <;> rfl
  rw [frameValue, frameOfValue_tagged]
  · simp only [frameOf]
    rw [required_named hdistinct rfl, required_named hdistinct rfl,
      optional_value hdistinct hvalue hresult,
      optional_named hdistinct notNull_string (fun _ => rfl) herror, asWord64,
      asUnsigned_int hid]
    rfl
  · cases result <;> cases error <;> simp [resultFields, skipped]

theorem frameOfValue_call {id : ℕ} (hid : id < 18446744073709551616)
    (tool : String) {args : BTreeMap Json}
    (hvalues : ∀ entry ∈ args.toList, valueOf entry.2 = entry.2) :
    ∃ received, frameOfValue (frameValue (.call id tool args)) =
      some received ∧ Same (.call id tool args) received := by
  obtain ⟨received, hreceived, hsame⟩ := asMap_toList hvalues
  refine ⟨.call id tool received, ?_, .call hsame⟩
  have hdistinct : [("id", Json.int id), ("tool", .string tool),
      ("args", .object args.toList)].Pairwise
        fun left right => left.1 ≠ right.1 := by simp
  rw [frameValue, frameOfValue_tagged]
  · simp only [frameOf]
    rw [required_named hdistinct rfl,
      required_named hdistinct rfl,
      defaulted_named hdistinct rfl, hreceived, asWord64,
      asUnsigned_int hid]
    rfl
  · simp

theorem frameOfValue_hello {v : ℕ} (hv : v < 4294967296)
    (token client flake : String) :
    frameOfValue (frameValue (.hello v token client flake)) =
      some (.hello v token client flake) := by
  have hdistinct : [("v", Json.int v), ("token", .string token),
      ("client", .string client), ("flake", .string flake)].Pairwise
        fun left right => left.1 ≠ right.1 := by simp
  rw [frameValue, frameOfValue_tagged]
  · simp only [frameOf]
    rw [required_named hdistinct rfl,
      required_named hdistinct rfl,
      required_named hdistinct rfl,
      required_named hdistinct rfl, asWord32,
      asUnsigned_int hv]
    rfl
  · simp

theorem frameOfValue_welcome {v pid : ℕ} (hv : v < 4294967296)
    (flake : String) (hpid : pid < 4294967296) :
    frameOfValue (frameValue (.welcome v flake pid)) =
      some (.welcome v flake pid) := by
  have hdistinct : [("v", Json.int v), ("flake", .string flake),
      ("pid", .int pid)].Pairwise fun left right => left.1 ≠ right.1 := by simp
  rw [frameValue, frameOfValue_tagged]
  · simp only [frameOf]
    rw [required_named hdistinct rfl,
      required_named hdistinct rfl,
      required_named hdistinct rfl, asWord32,
      asUnsigned_int hv, asUnsigned_int hpid]
    rfl
  · simp

theorem frameOfValue_event {event : Json} (hevent : valueOf event = event) :
    frameOfValue (frameValue (.event event)) = some (.event event) := by
  have hdistinct : [("event", event)].Pairwise
      fun left right => left.1 ≠ right.1 := List.pairwise_singleton _ _
  rw [frameValue, frameOfValue_tagged]
  · simp only [frameOf]
    rw [required_named hdistinct rfl, Function.comp_apply,
      hevent]
    rfl
  · simp

/-- Every frame is read back from what it is serialized as. -/
theorem frameOfValue_frameValue {frame : Frame} (htyped : WellTyped frame) :
    ∃ received, frameOfValue (frameValue frame) = some received ∧
      Arrives frame received := by
  cases frame with
  | hello v token client flake =>
      exact ⟨_, frameOfValue_hello htyped token client flake, .refl _⟩
  | welcome v flake pid =>
      exact ⟨_, frameOfValue_welcome htyped.1 flake htyped.2, .refl _⟩
  | error error flake =>
      exact ⟨_, frameOfValue_error error flake, .refl _⟩
  | call id tool args => exact frameOfValue_call htyped.1 tool htyped.2
  | callResult id ok result error =>
      exact ⟨_, frameOfValue_result htyped.1 ok htyped.2 error, .refl _⟩
  | event event => exact ⟨_, frameOfValue_event htyped, .refl _⟩
  | subscribe => exact ⟨_, rfl, .refl _⟩
  | subscribed => exact ⟨_, rfl, .refl _⟩
  | ping => exact ⟨_, rfl, .refl _⟩
  | pong => exact ⟨_, rfl, .refl _⟩
  | heartbeat => exact ⟨_, rfl, .refl _⟩

/-! ## Lines of frames -/

/-- A frame the source's types admit, within the bound. -/
structure Sendable (frame : Frame) : Prop where
  typed : WellTyped frame
  fits : (frameValue frame).fits maxDepth

def encode (serde : Serde) (frame : Frame) : List Char :=
  (toLine serde frame).toList

/-- How a reader takes a line: one that is blank or no frame is skipped. -/
def decode (serde : Serde) (line : List Char) : Option Frame :=
  if Text.trim line = [] then none
  else (fromLine serde (String.ofList line)).toOption

theorem frameValue_object (frame : Frame) :
    ∃ fields, frameValue frame = .object fields := by
  cases frame <;> exact ⟨_, rfl⟩

theorem encode_braces {serde : Serde} (hserde : Lawful serde.fromStr serde.toStr)
    (frame : Frame) :
    ∃ inside, encode serde frame = '\x7b' :: (inside ++ ['\x7d']) := by
  obtain ⟨fields, hfields⟩ := frameValue_object frame
  rw [encode, toLine, hfields]
  exact hserde.braces fields

theorem decode_encode {serde : Serde} (hserde : Lawful serde.fromStr serde.toStr) {frame : Frame}
    (hsendable : Sendable frame) :
    ∃ received, decode serde (encode serde frame) = some received ∧
      Arrives frame received := by
  obtain ⟨received, hreceived, harrives⟩ :=
    frameOfValue_frameValue hsendable.typed
  obtain ⟨inside, hinside⟩ := encode_braces hserde frame
  have hblank : Text.trim (encode serde frame) ≠ [] := by
    rw [hinside, trim_braces]
    exact List.cons_ne_nil _ _
  have hread : fromLine serde (toLine serde frame) = .ok received := by
    rw [fromLine, toLine, hserde.reads_back hsendable.fits]
    simp only [hreceived]
  refine ⟨received, ?_, harrives⟩
  rw [decode, if_neg hblank, encode, String.ofList_toList, hread]
  rfl

theorem decode_torn {serde : Serde} (hserde : Lawful serde.fromStr serde.toStr) {frame : Frame}
    (hsendable : Sendable frame) {cut rest : List Char}
    (hcut : encode serde frame = cut ++ rest) (hrest : rest ≠ []) :
    decode serde cut = none := by
  obtain ⟨fields, hfields⟩ := frameValue_object frame
  have hfits := hsendable.fits
  rw [hfields] at hfits
  have hline : serde.toStr (.object fields) =
      String.ofList cut ++ String.ofList rest := by
    rw [← String.ofList_append, ← hcut, encode, toLine, hfields,
      String.ofList_toList]
  have hne : String.ofList rest ≠ "" := by
    intro hempty
    apply hrest
    rw [← String.toList_ofList (l := rest), hempty]
    rfl
  obtain ⟨error, herror⟩ := hserde.torn hfits hline hne
  unfold decode
  split
  · rfl
  · rw [fromLine, herror]
    rfl

/-- A frame has a line of its own, which is taken for it and for nothing
else. -/
theorem framed {serde : Serde} (hserde : Lawful serde.fromStr serde.toStr) {frame : Frame}
    (hsendable : Sendable frame) :
    LineFraming.Framed (encode serde) (decode serde) Arrives frame where
  ne_nil := by
    obtain ⟨inside, hinside⟩ := encode_braces hserde frame
    rw [hinside]
    exact List.cons_ne_nil _ _
  one_line := hserde.one_line (frameValue frame)
  no_return := by
    obtain ⟨inside, hinside⟩ := encode_braces hserde frame
    rw [hinside, ← List.cons_append, List.getLast?_concat]
    decide
  whole := decode_encode hserde hsendable
  torn _ _ := decode_torn hserde hsendable

/-! ## What the reader settles -/

theorem settlement_of_same {left right : Frame} (hsame : Same left right) :
    Session.settlement right = Session.settlement left := by
  cases hsame with
  | refl => rfl
  | call args => rfl

theorem settlement_arrived (frame : Frame) :
    Session.settlement (arrived frame) = Session.settlement frame := by
  cases frame with
  | callResult id ok result error =>
      cases result with
      | none => rfl
      | some value => cases value <;> rfl
  | _ => rfl

/-- What a call is settled with does not depend on how its result arrives. -/
theorem filterMap_settlement {sent received : List Frame}
    (harrives : List.Forall₂ Arrives sent received) :
    received.filterMap Session.settlement =
      sent.filterMap Session.settlement := by
  induction harrives with
  | nil => rfl
  | cons hfirst _ ih =>
      rw [List.filterMap_cons, List.filterMap_cons, ih,
        settlement_of_same hfirst, settlement_arrived]

/-- The compact printer, and the reader within its bound. -/
def compact : Serde :=
  { fromStr := read, toStr := print, refusal := fun _ => "not a frame" }

theorem compact_lawful : Lawful compact.fromStr compact.toStr := print_lawful

/-! ## Streams of frames -/

end Mandala.Context.Wire
