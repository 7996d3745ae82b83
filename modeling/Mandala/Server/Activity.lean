import Mandala.Core.Brackets
import Mandala.Core.Transition
import Mandala.Data.Json

/-!
# Tool calls, announced and audited

Every tool call goes through one wrapper.  It takes a number, announces its
start, dispatches, and announces how it settled; a settled mutation is appended
to the audit trail before that.  Calls run concurrently, and one that is
dropped while it is dispatched settles never.
-/

namespace Mandala.Server.Activity

open Mandala.Brackets Mandala.Data Mandala.Transition

/-- A tool call as the wrapper knows it. -/
structure ToolCall where
  seq : ℕ
  origin : Option String
  tool : String
  args : List (String × Json)

/-- `Map::insert`. -/
def insertField (fields : List (String × Json)) (key : String) (value : Json) :
    List (String × Json) :=
  fields.filter (fun field => field.1 ≠ key) ++ [(key, value)]

/-- `with_origin`: an event of the leader's own carries no origin at all. -/
def withOrigin (event : Json) (origin : Option String) : Json :=
  match origin, event with
  | some origin, .object fields =>
      .object (insertField fields "origin" (.string origin))
  | _, event => event

/-- `result_summary`: the fields a watcher acts on. -/
def resultSummary (result : Json) : Option Json :=
  result.asObject.bind fun fields =>
    let summary := ["ok", "refused", "run_id"].filterMap fun key =>
      (fields.lookup key).map fun value => (key, value)
    if summary.isEmpty then none else some (.object summary)

/-- What the wrapper announces.  The elapsed seconds are those of its clock. -/
inductive Announcement where
  | started (call : ToolCall)
  | settled (call : ToolCall) (outcome : Except String Json) (elapsed : String)

namespace Announcement

def call : Announcement → ToolCall
  | started call => call
  | settled call _ _ => call

/-- The activity event of an announcement. -/
def event : Announcement → Json
  | started call =>
      withOrigin
        (.object
          [("tool", .string call.tool), ("args", .object call.args),
            ("status", .string "start"), ("detail", .null),
            ("seq", .int call.seq)])
        call.origin
  | settled call (.ok value) elapsed =>
      withOrigin
        (.object
          [("tool", .string call.tool), ("args", .object call.args),
            ("status", .string "ok"), ("detail", .null), ("seq", .int call.seq),
            ("elapsed", .float elapsed),
            ("result", (resultSummary value).getD .null)])
        call.origin
  | settled call (.error error) elapsed =>
      withOrigin
        (.object
          [("tool", .string call.tool), ("args", .object call.args),
            ("status", .string "error"), ("detail", .string error),
            ("seq", .int call.seq), ("elapsed", .float elapsed)])
        call.origin

def status : Announcement → String
  | started _ => "start"
  | settled _ (.ok _) _ => "ok"
  | settled _ (.error _) _ => "error"

/-- The key an announcement is paired by. -/
def mark : Announcement → Mark ℕ ToolCall
  | started call => .opened call.seq call
  | settled call _ _ => .closed call.seq

@[simp]
theorem getStr_tool (announcement : Announcement) :
    announcement.event.getStr "tool" = some announcement.call.tool := by
  obtain ⟨seq, origin, tool, args⟩ | ⟨⟨seq, origin, tool, args⟩, _ | _, elapsed⟩ :=
    announcement <;> cases origin <;> rfl

@[simp]
theorem getStr_status (announcement : Announcement) :
    announcement.event.getStr "status" = some announcement.status := by
  obtain ⟨seq, origin, tool, args⟩ | ⟨⟨seq, origin, tool, args⟩, _ | _, elapsed⟩ :=
    announcement <;> cases origin <;> rfl

@[simp]
theorem getStr_origin (announcement : Announcement) :
    announcement.event.getStr "origin" = announcement.call.origin := by
  obtain ⟨seq, origin, tool, args⟩ | ⟨⟨seq, origin, tool, args⟩, _ | _, elapsed⟩ :=
    announcement <;> cases origin <;> rfl

@[simp]
theorem get_seq (announcement : Announcement) :
    announcement.event.get "seq" = some (.int announcement.call.seq) := by
  obtain ⟨seq, origin, tool, args⟩ | ⟨⟨seq, origin, tool, args⟩, _ | _, elapsed⟩ :=
    announcement <;> cases origin <;> rfl

@[simp]
theorem get_args (announcement : Announcement) :
    announcement.event.get "args" = some (.object announcement.call.args) := by
  obtain ⟨seq, origin, tool, args⟩ | ⟨⟨seq, origin, tool, args⟩, _ | _, elapsed⟩ :=
    announcement <;> cases origin <;> rfl

end Announcement

/-- `AUDITED`. -/
def audited : List String := ["deploy", "reboot", "restart_service", "reload"]

/-- `audit_event`: the line a settled mutation leaves, the time first. -/
def auditEvent (ts : String) (event : Json) : Option Json :=
  if event.getStr "status" = some "start" ∨
      (event.getStr "tool").getD "" ∉ audited then none
  else event.asObject.map fun fields =>
    .object (fields.foldl (fun line field => insertField line field.1 field.2)
      [("ts", .float ts)])

/-- A field just written is the one found. -/
theorem lookup_insertField (fields : List (String × Json)) (key : String)
    (value : Json) (other : String) :
    (insertField fields key value).lookup other =
      if other = key then some value else fields.lookup other := by
  rw [insertField, List.lookup_append,
    BTreeMap.lookup_filter_key fields (fun name => decide (name ≠ key))]
  by_cases hsame : other = key
  · subst hsame
    simp
  · have hbeq : (other == key) = false := beq_eq_false_iff_ne.mpr hsame
    simp [hsame, List.lookup_cons, hbeq]

theorem lookup_foldl_insertField {fields : List (String × Json)}
    (hdistinct : fields.Pairwise fun left right => left.1 ≠ right.1)
    (start : List (String × Json)) (key : String) :
    (fields.foldl (fun line field => insertField line field.1 field.2)
        start).lookup key = (fields.lookup key).or (start.lookup key) := by
  induction fields generalizing start with
  | nil => rfl
  | cons field fields ih =>
      rw [List.pairwise_cons] at hdistinct
      obtain ⟨hfirst, hrest⟩ := hdistinct
      rw [List.foldl_cons, ih hrest, lookup_insertField, List.lookup_cons]
      by_cases hsame : key = field.1
      · have hnone : fields.lookup key = none := by
          rw [List.lookup_eq_none_iff]
          intro other hmem
          rw [hsame]
          exact bne_iff_ne.mpr (hfirst other hmem)
        subst hsame
        simp [hnone]
      · have hbeq : (key == field.1) = false := beq_eq_false_iff_ne.mpr hsame
        rw [if_neg hsame, hbeq]

theorem Announcement.exists_fields (announcement : Announcement) :
    ∃ fields, announcement.event = .object fields ∧ fields.lookup "ts" = none ∧
      fields.Pairwise fun left right => left.1 ≠ right.1 := by
  obtain ⟨seq, origin, tool, args⟩ | ⟨⟨seq, origin, tool, args⟩, _ | _, elapsed⟩ :=
    announcement <;> cases origin <;> exact ⟨_, rfl, rfl, by simp [insertField]⟩

/-- The line is the event and the time. -/
def CopiesEvent (ts : String) (announcement : Announcement) (line : Json) : Prop :=
  line.get "ts" = some (.float ts) ∧
    ∀ key, key ≠ "ts" → line.get key = announcement.event.get key

theorem refused_iff {announcement : Announcement} :
    (announcement.event.getStr "status" = some "start" ∨
        (announcement.event.getStr "tool").getD "" ∉ audited) ↔
      announcement.status = "start" ∨ announcement.call.tool ∉ audited := by
  rw [Announcement.getStr_status, Announcement.getStr_tool, Option.getD_some,
    Option.some.injEq]

/-- Only a settled mutation leaves a line. -/
theorem auditEvent_eq_none {ts : String} {announcement : Announcement}
    (hread : announcement.status = "start" ∨ announcement.call.tool ∉ audited) :
    auditEvent ts announcement.event = none :=
  if_pos (refused_iff.mpr hread)

theorem auditEvent_eq_some (ts : String) {announcement : Announcement}
    (hsettled : announcement.status ≠ "start")
    (htool : announcement.call.tool ∈ audited) :
    ∃ line, auditEvent ts announcement.event = some line ∧
      CopiesEvent ts announcement line := by
  obtain ⟨fields, hevent, hts, hdistinct⟩ := announcement.exists_fields
  have hguard := mt refused_iff.mp (not_or.mpr ⟨hsettled, not_not.mpr htool⟩)
  have hlookup := lookup_foldl_insertField hdistinct [("ts", .float ts)]
  rw [auditEvent, if_neg hguard, hevent]
  refine ⟨_, rfl, ?_, fun key hkey => ?_⟩
  · change List.lookup _ _ = _
    rw [hlookup, hts]
    rfl
  · have hbeq : (key == "ts") = false := beq_eq_false_iff_ne.mpr hkey
    rw [hevent]
    change List.lookup _ _ = fields.lookup key
    rw [hlookup, List.lookup_cons, hbeq]
    exact Option.or_none

/-! ## Calls in progress -/

inductive CallPhase where
  | entered
  | dispatching
  /-- Audited, not yet given to the sink. -/
  | settled (outcome : Except String Json) (elapsed : String)
  | returned (outcome : Except String Json) (elapsed : String)
  /-- Dropped while it was dispatched. -/
  | abandoned

/-- What went to the audit trail, and whether the line could be written. -/
structure Audit where
  announcement : Announcement
  ts : String
  written : Bool

def Audit.line (audit : Audit) : Option Json :=
  if audit.written then auditEvent audit.ts audit.announcement.event else none

/-- The handler: the calls in the order they took their numbers, what the sink
was given and what the audit trail was offered. -/
structure Handler where
  nextSeq : ℕ
  calls : List (ToolCall × CallPhase)
  published : List Announcement
  audits : List Audit

/-- `audit.jsonl`. -/
def Handler.trail (handler : Handler) : List Json :=
  handler.audits.filterMap Audit.line

def Handler.new : Handler :=
  { nextSeq := 1, calls := [], published := [], audits := [] }

/-- Every step of every call; calls are told apart by their place. -/
inductive HandlerLabel where
  | enter (origin : Option String) (tool : String) (args : List (String × Json))
  | announce (index : ℕ)
  | settle (index : ℕ) (outcome : Except String Json) (elapsed ts : String)
    (written : Bool)
  | publish (index : ℕ)
  | abandon (index : ℕ)

namespace Handler

variable (handler : Handler)

def setPhase (index : ℕ) (call : ToolCall) (phase : CallPhase) : Handler :=
  { handler with calls := handler.calls.set index (call, phase) }

/-- `call_tool_from`, taken apart where another call may come between. -/
def act : HandlerLabel → Option Handler
  | .enter origin tool args => some
      { handler with
        nextSeq := (handler.nextSeq + 1) % UInt64.size
        calls := handler.calls ++
          [({ seq := handler.nextSeq, origin, tool, args }, .entered)] }
  | .announce index =>
      match handler.calls[index]? with
      | some (call, .entered) => some
          { handler.setPhase index call .dispatching with
            published := handler.published ++ [.started call] }
      | _ => none
  | .settle index outcome elapsed ts written =>
      match handler.calls[index]? with
      | some (call, .dispatching) => some
          { handler.setPhase index call (.settled outcome elapsed) with
            audits := handler.audits ++
              [{ announcement := .settled call outcome elapsed, ts, written }] }
      | _ => none
  | .publish index =>
      match handler.calls[index]? with
      | some (call, .settled outcome elapsed) => some
          { handler.setPhase index call (.returned outcome elapsed) with
            published := handler.published ++ [.settled call outcome elapsed] }
      | _ => none
  | .abandon index =>
      match handler.calls[index]? with
      | some (call, .dispatching) => some (handler.setPhase index call .abandoned)
      | _ => none

end Handler

def HandlerStep (before : Handler) (label : HandlerLabel) (after : Handler) : Prop :=
  before.act label = some after

/-- The counter of the calls does not run over. -/
def Counts (handler : Handler) : HandlerLabel → Prop
  | .enter .. => handler.nextSeq + 1 < UInt64.size
  | _ => True

/-! ## What a run announces and audits -/

/-- What has been announced of a call in this phase, in order. -/
def CallPhase.announcements (call : ToolCall) : CallPhase → List Announcement
  | .entered => []
  | .returned outcome elapsed => [.started call, .settled call outcome elapsed]
  | _ => [.started call]

/-- What the audit trail has been offered of a call in this phase. -/
def CallPhase.offers (call : ToolCall) : CallPhase → List Announcement
  | .settled outcome elapsed => [.settled call outcome elapsed]
  | .returned outcome elapsed => [.settled call outcome elapsed]
  | _ => []

/-- The announcements of one call. -/
def ofCall (call : ToolCall) (announcements : List Announcement) :
    List Announcement :=
  announcements.filter fun announcement => announcement.call.seq = call.seq

theorem ofCall_append (call : ToolCall) (earlier later : List Announcement) :
    ofCall call (earlier ++ later) = ofCall call earlier ++ ofCall call later :=
  List.filter_append earlier later

theorem ofCall_self {call : ToolCall} {announcements : List Announcement}
    (hmine : ∀ announcement ∈ announcements, announcement.call = call) :
    ofCall call announcements = announcements := by
  rw [ofCall, List.filter_eq_self]
  intro announcement hmem
  exact decide_eq_true (congrArg ToolCall.seq (hmine announcement hmem))

theorem ofCall_other {call other : ToolCall} {announcements : List Announcement}
    (hmine : ∀ announcement ∈ announcements, announcement.call = call)
    (hseq : call.seq ≠ other.seq) : ofCall other announcements = [] := by
  rw [ofCall, List.filter_eq_nil_iff]
  intro announcement hmem
  rw [hmine announcement hmem, decide_eq_true_eq]
  exact hseq

/-- The calls are numbered in order, and what was announced and audited of each
is what its phase says. -/
structure Kept (handler : Handler) : Prop where
  numbered : ∀ index call phase, handler.calls[index]? = some (call, phase) →
    call.seq = index + 1
  next : handler.nextSeq = handler.calls.length + 1
  bounded : handler.nextSeq < UInt64.size
  announced : ∀ call phase, (call, phase) ∈ handler.calls →
    ofCall call handler.published = phase.announcements call
  known : ∀ announcement ∈ handler.published,
    ∃ phase, (announcement.call, phase) ∈ handler.calls
  fresh : Fresh (handler.published.map Announcement.mark)
  offered : ∀ call phase, (call, phase) ∈ handler.calls →
    ofCall call (handler.audits.map Audit.announcement) = phase.offers call
  recorded : ∀ audit ∈ handler.audits,
    ∃ phase, (audit.announcement.call, phase) ∈ handler.calls

variable {handler : Handler}

/-- A number belongs to one call. -/
theorem Kept.same (hkept : Kept handler) {left right : ToolCall}
    {leftPhase rightPhase : CallPhase} (hleft : (left, leftPhase) ∈ handler.calls)
    (hright : (right, rightPhase) ∈ handler.calls) (hseq : left.seq = right.seq) :
    left = right ∧ leftPhase = rightPhase := by
  obtain ⟨leftIndex, hleft⟩ := List.mem_iff_getElem?.mp hleft
  obtain ⟨rightIndex, hright⟩ := List.mem_iff_getElem?.mp hright
  have hindex : leftIndex = rightIndex := by
    have hfirst := hkept.numbered leftIndex left leftPhase hleft
    have hsecond := hkept.numbered rightIndex right rightPhase hright
    omega
  rw [hindex, hright] at hleft
  cases hleft
  exact ⟨rfl, rfl⟩

/-- After one call moved on, a call is the one that moved or another one. -/
theorem Kept.mem_set (hkept : Kept handler) {index : ℕ} {call other : ToolCall}
    {before after phase : CallPhase}
    (hfound : handler.calls[index]? = some (call, before))
    (hmem : (other, phase) ∈ handler.calls.set index (call, after)) :
    (other = call ∧ phase = after) ∨
      ((other, phase) ∈ handler.calls ∧ call.seq ≠ other.seq) := by
  obtain ⟨place, hplace⟩ := List.mem_iff_getElem?.mp hmem
  rw [List.getElem?_set] at hplace
  split at hplace
  · split at hplace
    · cases hplace
      exact .inl ⟨rfl, rfl⟩
    · cases hplace
  · next hne =>
      refine .inr ⟨List.mem_of_getElem? hplace, ?_⟩
      rw [hkept.numbered place other phase hplace,
        hkept.numbered index call before hfound]
      omega

/-- Every call is still there after one of them moved on. -/
theorem exists_mem_set {index : ℕ} {call other : ToolCall}
    {before : CallPhase} (after : CallPhase)
    (hfound : handler.calls[index]? = some (call, before))
    (hother : ∃ phase, (other, phase) ∈ handler.calls) :
    ∃ phase, (other, phase) ∈ handler.calls.set index (call, after) := by
  obtain ⟨phase, hmem⟩ := hother
  obtain ⟨place, hplace⟩ := List.mem_iff_getElem?.mp hmem
  by_cases hsame : index = place
  · subst hsame
    rw [hfound] at hplace
    cases hplace
    exact ⟨after, List.mem_set (List.getElem?_eq_some_iff.mp hfound).1 _⟩
  · refine ⟨phase, List.mem_of_getElem? (i := place) ?_⟩
    rw [List.getElem?_set_ne hsame]
    exact hplace

/-- One call moves on, with the announcements and the audits that are new of it. -/
theorem Kept.move (hkept : Kept handler) {index : ℕ} {call : ToolCall}
    {before : CallPhase} (after : CallPhase) (news : List Announcement)
    (offers : List Audit)
    (hfound : handler.calls[index]? = some (call, before))
    (hannounced : after.announcements call = before.announcements call ++ news)
    (hnews : ∀ announcement ∈ news, announcement.call = call)
    (hfresh : Fresh ((handler.published ++ news).map Announcement.mark))
    (hoffered : after.offers call =
      before.offers call ++ offers.map Audit.announcement)
    (hoffers : ∀ audit ∈ offers, audit.announcement.call = call) :
    Kept { handler.setPhase index call after with
      published := handler.published ++ news, audits := handler.audits ++ offers } := by
  have hmem : (call, before) ∈ handler.calls := List.mem_of_getElem? hfound
  have hours : ∀ announcement ∈ offers.map Audit.announcement,
      announcement.call = call := by
    intro announcement hmap
    obtain ⟨audit, hin, rfl⟩ := List.mem_map.mp hmap
    exact hoffers audit hin
  have hcalls : ∃ phase, (call, phase) ∈ handler.calls := ⟨before, hmem⟩
  constructor
  · intro other found phase hother
    change (handler.calls.set index (call, after))[other]? = _ at hother
    rw [List.getElem?_set] at hother
    split at hother
    · next hsame =>
        subst hsame
        split at hother
        · cases hother
          exact hkept.numbered index call before hfound
        · cases hother
    · exact hkept.numbered other found phase hother
  · change handler.nextSeq = (handler.calls.set index (call, after)).length + 1
    rw [List.length_set]
    exact hkept.next
  · exact hkept.bounded
  · intro other phase hother
    change ofCall other (handler.published ++ news) = _
    rw [ofCall_append]
    rcases hkept.mem_set hfound hother with ⟨rfl, rfl⟩ | ⟨hold, hseq⟩
    · rw [hkept.announced other before hmem, ofCall_self hnews, hannounced]
    · rw [hkept.announced other phase hold, ofCall_other hnews hseq,
        List.append_nil]
  · intro announcement hpublished
    rcases List.mem_append.mp hpublished with hold | hnew
    · exact exists_mem_set after hfound (hkept.known announcement hold)
    · rw [hnews announcement hnew]
      exact exists_mem_set after hfound hcalls
  · exact hfresh
  · intro other phase hother
    change ofCall other ((handler.audits ++ offers).map Audit.announcement) = _
    rw [List.map_append, ofCall_append]
    rcases hkept.mem_set hfound hother with ⟨rfl, rfl⟩ | ⟨hold, hseq⟩
    · rw [hkept.offered other before hmem, ofCall_self hours, hoffered]
    · rw [hkept.offered other phase hold, ofCall_other hours hseq,
        List.append_nil]
  · intro audit haudit
    rcases List.mem_append.mp haudit with hold | hnew
    · exact exists_mem_set after hfound (hkept.recorded audit hold)
    · rw [hoffers audit hnew]
      exact exists_mem_set after hfound hcalls

theorem kept_new : Kept Handler.new where
  numbered index call phase hfound := by cases hfound
  next := rfl
  bounded := by decide
  announced call phase hmem := by cases hmem
  known announcement hmem := by cases hmem
  fresh := .nil
  offered call phase hmem := by cases hmem
  recorded audit hmem := by cases hmem

/-- A call that has just come has nothing to its name. -/
theorem Kept.ofCall_next (hkept : Kept handler) {announcements : List Announcement}
    (hknown : ∀ announcement ∈ announcements,
      ∃ phase, (announcement.call, phase) ∈ handler.calls)
    {call : ToolCall} (hseq : call.seq = handler.nextSeq) :
    ofCall call announcements = [] := by
  rw [ofCall, List.filter_eq_nil_iff]
  intro announcement hmem
  obtain ⟨phase, hcall⟩ := hknown announcement hmem
  obtain ⟨place, hplace⟩ := List.mem_iff_getElem?.mp hcall
  have hbound := (List.getElem?_eq_some_iff.mp hplace).1
  rw [decide_eq_true_eq, hseq, hkept.next,
    hkept.numbered place announcement.call phase hplace]
  omega

theorem Kept.enter (hkept : Kept handler) (origin : Option String) (tool : String)
    (args : List (String × Json)) (hcounts : handler.nextSeq + 1 < UInt64.size) :
    Kept
      { handler with
        nextSeq := (handler.nextSeq + 1) % UInt64.size
        calls := handler.calls ++
          [({ seq := handler.nextSeq, origin, tool, args }, .entered)] } := by
  have hrecorded : ∀ announcement ∈ handler.audits.map Audit.announcement,
      ∃ phase, (announcement.call, phase) ∈ handler.calls := by
    intro announcement hmap
    obtain ⟨audit, hin, rfl⟩ := List.mem_map.mp hmap
    exact hkept.recorded audit hin
  have hlater : ∀ call, (∃ phase, (call, phase) ∈ handler.calls) →
      ∃ phase, (call, phase) ∈ handler.calls ++
        [({ seq := handler.nextSeq, origin, tool, args }, .entered)] := by
    rintro call ⟨phase, hmem⟩
    exact ⟨phase, List.mem_append_left _ hmem⟩
  constructor
  · intro index call phase hfound
    rw [List.getElem?_append] at hfound
    split at hfound
    · exact hkept.numbered index call phase hfound
    · next hbound =>
        obtain ⟨hplace, hcall⟩ := List.getElem?_eq_some_iff.mp hfound
        rw [List.length_singleton] at hplace
        rw [List.getElem_singleton] at hcall
        cases hcall
        change handler.nextSeq = index + 1
        rw [hkept.next]
        omega
  · change (handler.nextSeq + 1) % UInt64.size = _
    rw [Nat.mod_eq_of_lt hcounts, List.length_append, List.length_singleton,
      hkept.next]
  · exact Nat.mod_lt _ (Nat.zero_lt_of_lt hcounts)
  · intro call phase hmem
    rcases List.mem_append.mp hmem with hold | hnew
    · exact hkept.announced call phase hold
    · cases List.mem_singleton.mp hnew
      exact hkept.ofCall_next hkept.known rfl
  · intro announcement hmem
    exact hlater _ (hkept.known announcement hmem)
  · exact hkept.fresh
  · intro call phase hmem
    rcases List.mem_append.mp hmem with hold | hnew
    · exact hkept.offered call phase hold
    · cases List.mem_singleton.mp hnew
      exact hkept.ofCall_next hrecorded rfl
  · intro audit hmem
    exact hlater _ (hkept.recorded audit hmem)

theorem Kept.announce (hkept : Kept handler) {index : ℕ} {call : ToolCall}
    (hfound : handler.calls[index]? = some (call, .entered)) :
    Kept { handler.setPhase index call .dispatching with
      published := handler.published ++ [.started call] } := by
  have hnone : ofCall call handler.published = [] :=
    hkept.announced call .entered (List.mem_of_getElem? hfound)
  have hmoved := hkept.move .dispatching [.started call] [] hfound rfl
    (by simp [Announcement.call]) ?_ rfl (by simp)
  · rw [List.append_nil] at hmoved
    exact hmoved
  · rw [List.map_append, List.map_singleton, fresh_snoc_iff]
    refine ⟨hkept.fresh, fun earlier hearlier _ hkey => ?_⟩
    obtain ⟨announcement, hpublished, rfl⟩ := List.mem_map.mp hearlier
    rw [ofCall, List.filter_eq_nil_iff] at hnone
    refine hnone announcement hpublished (decide_eq_true ?_)
    cases announcement <;> exact hkey

theorem Kept.settle (hkept : Kept handler) {index : ℕ} {call : ToolCall}
    (hfound : handler.calls[index]? = some (call, .dispatching))
    (outcome : Except String Json) (elapsed ts : String) (written : Bool) :
    Kept { handler.setPhase index call (.settled outcome elapsed) with
      audits := handler.audits ++
        [{ announcement := .settled call outcome elapsed, ts, written }] } := by
  have hmoved := hkept.move (.settled outcome elapsed) []
    [{ announcement := .settled call outcome elapsed, ts, written }] hfound rfl
    (by simp) (by rw [List.append_nil]; exact hkept.fresh) rfl (by simp [Announcement.call])
  rw [List.append_nil] at hmoved
  exact hmoved

theorem Kept.publish (hkept : Kept handler) {index : ℕ} {call : ToolCall}
    {outcome : Except String Json} {elapsed : String}
    (hfound : handler.calls[index]? = some (call, .settled outcome elapsed)) :
    Kept { handler.setPhase index call (.returned outcome elapsed) with
      published := handler.published ++ [.settled call outcome elapsed] } := by
  have hmoved := hkept.move (.returned outcome elapsed)
    [.settled call outcome elapsed] [] hfound rfl
    (by simp [Announcement.call]) ?_ rfl (by simp)
  · rw [List.append_nil] at hmoved
    exact hmoved
  · rw [List.map_append, List.map_singleton, fresh_snoc_iff]
    exact ⟨hkept.fresh, fun earlier _ hopens => hopens.elim⟩

theorem Kept.abandon (hkept : Kept handler) {index : ℕ} {call : ToolCall}
    (hfound : handler.calls[index]? = some (call, .dispatching)) :
    Kept (handler.setPhase index call .abandoned) := by
  have hmoved := hkept.move .abandoned [] [] hfound rfl (by simp) (by rw [List.append_nil]; exact hkept.fresh) rfl
    (by simp)
  rw [List.append_nil, List.append_nil] at hmoved
  exact hmoved

/-- Every step of every call keeps the accounts. -/
theorem Kept.step {after : Handler} {label : HandlerLabel} (hkept : Kept handler)
    (hcounts : Counts handler label) (hstep : HandlerStep handler label after) :
    Kept after := by
  cases label with
  | enter origin tool args =>
      cases hstep
      exact hkept.enter origin tool args hcounts
  | announce index =>
      simp only [HandlerStep, Handler.act] at hstep
      split at hstep
      · next call hfound =>
          cases hstep
          exact hkept.announce hfound
      · cases hstep
  | settle index outcome elapsed ts written =>
      simp only [HandlerStep, Handler.act] at hstep
      split at hstep
      · next call hfound =>
          cases hstep
          exact hkept.settle hfound outcome elapsed ts written
      · cases hstep
  | publish index =>
      simp only [HandlerStep, Handler.act] at hstep
      split at hstep
      · next call outcome elapsed hfound =>
          cases hstep
          exact hkept.publish hfound
      · cases hstep
  | abandon index =>
      simp only [HandlerStep, Handler.act] at hstep
      split at hstep
      · next call hfound =>
          cases hstep
          exact hkept.abandon hfound
      · cases hstep

theorem Reachable.kept
    (hreach : Reachable (· = Handler.new) HandlerStep Counts handler) :
    Kept handler :=
  hreach.invariant (fun _ hnew => hnew ▸ kept_new)
    fun _ _ _ hkept hcounts hstep => hkept.step hcounts hstep

/-! ## The audit trail -/

/-- The line is of this call. -/
def belongsTo (call : ToolCall) (line : Json) : Bool :=
  match line.get "seq" with
  | some (.int seq) => seq = call.seq
  | _ => false

theorem belongsTo_line {call : ToolCall} {audit : Audit} {line : Json}
    (hline : audit.line = some line) :
    belongsTo call line = decide (audit.announcement.call.seq = call.seq) := by
  rw [Audit.line] at hline
  split at hline
  · by_cases hread : audit.announcement.status = "start" ∨
        audit.announcement.call.tool ∉ audited
    · rw [auditEvent_eq_none hread] at hline
      cases hline
    · obtain ⟨hsettled, htool⟩ := not_or.mp hread
      obtain ⟨found, hfound, -, hcopies⟩ :=
        auditEvent_eq_some audit.ts hsettled (not_not.mp htool)
      rw [hfound] at hline
      cases hline
      rw [belongsTo, hcopies "seq" (by decide), Announcement.get_seq]
      exact decide_eq_decide.mpr Int.ofNat_inj
  · cases hline

/-- What the watchers and the audit trail are told of every call. -/
structure Accounted (handler : Handler) : Prop where
  /-- A call is announced when it starts and once more when it has settled. -/
  announced : ∀ call phase, (call, phase) ∈ handler.calls →
    ofCall call handler.published = phase.announcements call
  /-- The trail has of a call what was written of its one settlement. -/
  trailed : ∀ call phase, (call, phase) ∈ handler.calls →
    ∃ audits : List Audit,
      audits.map Audit.announcement = phase.offers call ∧
        handler.trail.filter (belongsTo call) = audits.filterMap Audit.line
  /-- A line could be written, and was due, exactly for settled mutations. -/
  lines : ∀ audit ∈ handler.audits,
    (audit.written = true ∧ audit.announcement.call.tool ∈ audited ∧
        ∃ line ∈ handler.trail, audit.line = some line ∧
          CopiesEvent audit.ts audit.announcement line) ∨
      (audit.line = none ∧
        (audit.written = false ∨ audit.announcement.call.tool ∉ audited))
  /-- Nothing is announced or recorded of anything else. -/
  known : (∀ announcement ∈ handler.published,
      ∃ phase, (announcement.call, phase) ∈ handler.calls) ∧
    ∀ line ∈ handler.trail, ∃ call phase, (call, phase) ∈ handler.calls ∧
      belongsTo call line = true

theorem trail_filter (call : ToolCall) (audits : List Audit) :
    (audits.filterMap Audit.line).filter (belongsTo call) =
      (audits.filter fun audit =>
        audit.announcement.call.seq = call.seq).filterMap Audit.line := by
  induction audits with
  | nil => rfl
  | cons audit audits ih =>
      rw [List.filterMap_cons, List.filter_cons]
      cases hline : audit.line with
      | none =>
          change ((audits.filterMap Audit.line).filter _) = _
          split
          · rw [List.filterMap_cons, hline, ih]
          · exact ih
      | some line =>
          change ((line :: audits.filterMap Audit.line).filter _) = _
          rw [List.filter_cons, belongsTo_line hline, ih]
          split
          · rw [List.filterMap_cons, hline]
          · rfl

/-- A line is due of what was offered exactly when a mutation has settled. -/
theorem Kept.line_cases (hkept : Kept handler) {audit : Audit}
    (haudit : audit ∈ handler.audits) :
    (audit.written = true ∧ audit.announcement.call.tool ∈ audited ∧
        ∃ line ∈ handler.trail, audit.line = some line ∧
          CopiesEvent audit.ts audit.announcement line) ∨
      (audit.line = none ∧
        (audit.written = false ∨ audit.announcement.call.tool ∉ audited)) := by
  obtain ⟨phase, hcall⟩ := hkept.recorded audit haudit
  have hoffered : audit.announcement ∈ phase.offers audit.announcement.call := by
    rw [← hkept.offered _ phase hcall, ofCall, List.mem_filter]
    exact ⟨List.mem_map_of_mem haudit, decide_eq_true rfl⟩
  have hsettled : audit.announcement.status ≠ "start" := by
    generalize audit.announcement.call = call at hoffered
    cases phase <;> simp only [CallPhase.offers, List.not_mem_nil,
      List.mem_singleton] at hoffered
    all_goals
      next outcome elapsed =>
        rw [hoffered]
        cases outcome <;> simp [Announcement.status]
  cases hwritten : audit.written with
  | false =>
      refine .inr ⟨?_, .inl rfl⟩
      simp [Audit.line, hwritten]
  | true =>
      have hline : audit.line = auditEvent audit.ts audit.announcement.event := by
        simp [Audit.line, hwritten]
      by_cases htool : audit.announcement.call.tool ∈ audited
      · obtain ⟨line, hsome, hcopies⟩ :=
          auditEvent_eq_some audit.ts hsettled htool
        rw [← hline] at hsome
        exact .inl ⟨rfl, htool, line,
          List.mem_filterMap.mpr ⟨audit, haudit, hsome⟩, hsome, hcopies⟩
      · exact .inr ⟨hline.trans (auditEvent_eq_none (.inr htool)), .inr htool⟩

/-- Whatever calls run beside one another, each is announced and audited once. -/
theorem accounted_run
    (hreach : Reachable (· = Handler.new) HandlerStep Counts handler) :
    Accounted handler := by
  have hkept := Reachable.kept hreach
  refine ⟨hkept.announced, ?_, fun audit haudit => hkept.line_cases haudit,
    hkept.known, ?_⟩
  · intro call phase hmem
    refine ⟨handler.audits.filter fun audit =>
      audit.announcement.call.seq = call.seq, ?_, trail_filter call handler.audits⟩
    rw [← hkept.offered call phase hmem, ofCall, List.filter_map]
    rfl
  · intro line hline
    obtain ⟨audit, haudit, hsome⟩ := List.mem_filterMap.mp hline
    obtain ⟨phase, hcall⟩ := hkept.recorded audit haudit
    refine ⟨audit.announcement.call, phase, hcall, ?_⟩
    rw [belongsTo_line hsome]
    exact decide_eq_true rfl

/-- Two calls at once, one of which is dropped while it is dispatched. -/
def twoCalls : List HandlerLabel :=
  [.enter none "deploy" [], .enter (some "claude") "drift" [], .announce 1,
    .announce 0, .abandon 1, .settle 0 (.ok .null) "0.5" "1.0" true, .publish 0]

/-- Far from running over, the counter counts. -/
theorem counts_of_few {before : Handler} (hfew : before.nextSeq < 100)
    (label : HandlerLabel) : Counts before label := by
  cases label with
  | enter origin tool args =>
      exact Nat.lt_trans (Nat.add_lt_add_right hfew 1) (by decide)
  | _ => trivial

theorem accounted_twoCalls :
    ∃ handler, twoCalls.foldlM Handler.act .new = some handler ∧
      handler.trail.length = 1 ∧ Accounted handler := by
  have hact : ∀ before label after,
      (if before.nextSeq < 100 then before.act label else none) = some after →
        Counts before label ∧ HandlerStep before label after := by
    intro before label after hact
    split at hact
    · next hfew => exact ⟨counts_of_few hfew label, hact⟩
    · cases hact
  have hnew : Reachable (· = Handler.new) HandlerStep Counts Handler.new :=
    .initial rfl
  have hreach := Reachable.foldlM hact hnew
    (show twoCalls.foldlM _ Handler.new = some _ from rfl)
  exact ⟨_, rfl, rfl, accounted_run hreach⟩

end Mandala.Server.Activity
