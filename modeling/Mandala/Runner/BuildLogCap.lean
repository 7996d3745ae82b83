import Mandala.Data.Printing
import Mandala.Runner.Stream

/-!
# The cap on the build log

A build log takes details until a reserve is left, then one notice, and from
then on only the records that end the build.  Whatever is emitted, the log stays
within its budget, and these records go in as long as they fit the reserve.
-/

namespace Mandala.Runner

open Mandala.Data Mandala.Events Mandala.Fleet Mandala.Forest Mandala.Lines
  Mandala.Text

/-! ## What ends a build -/

namespace Emission

def isFinalProgress (emission : Emission) : Bool :=
  emission.event = "progress" &&
    (emission.fields.lookup "final").bind Json.asBool = some true

def isDoneStatus (emission : Emission) : Bool :=
  emission.event = "status" &&
    (emission.fields.lookup "state").bind Json.asStr = some "done"

/-- The emissions that end a build. -/
def isTerminal (emission : Emission) : Bool :=
  emission.isFinalProgress || emission.isDoneStatus

end Emission

/-! ## What the cap is for -/

section Cap
variable (toVec : Json → String) (fromStr : List Char → Option NixMessage)

/-- The bytes of records. -/
def recordBytes (records : List EventRecord) : List UInt8 :=
  records.flatMap fun record => encodeUtf8 (record.line toVec)

namespace EventWriter

/-- What the emissions that end a build come to. -/
def terminalSize (writer : EventWriter) (emissions : List Emission) : ℕ :=
  ((emissions.filter Emission.isTerminal).map fun emission =>
    (writer.record emission).size toVec).sum

end EventWriter

/-- A build log is within its budget, made of whole lines, each of them the
record of an emission or the one notice; and it has every record that ends a
build as long as such records and a notice fit the reserve. -/
structure BuildLogCapped (writer : EventWriter) (emissions : List Emission) :
    Prop where
  bounded : (recordBytes toVec
    (writer.emitAll toVec fromStr emissions).2).length ≤ buildLogMaxBytes
  lines : completeLines newlineByte
      (recordBytes toVec (writer.emitAll toVec fromStr emissions).2) =
    (writer.emitAll toVec fromStr emissions).2.map
      fun record => encodeUtf8 (record.text toVec)
  whole : joinLines newlineByte (completeLines newlineByte
      (recordBytes toVec (writer.emitAll toVec fromStr emissions).2)) =
    recordBytes toVec (writer.emitAll toVec fromStr emissions).2
  noticed : ∃ front back : List Emission, ∃ notice : Option Emission,
    (writer.emitAll toVec fromStr emissions).2 =
        front.map writer.record ++
          (notice.toList.map fun emission => writer.notice emission.ts) ++
            back.map writer.record ∧
      (front ++ notice.toList ++ back).Sublist emissions
  reserved : ∀ before emission after,
    emissions = before ++ emission :: after → emission.isTerminal = true →
      (∀ other ∈ before ++ [emission],
        writer.terminalSize toVec (before ++ [emission]) +
          (writer.notice other.ts).size toVec ≤ terminalReserve) →
        writer.record emission ∈ (writer.emitAll toVec fromStr emissions).2

end Cap

/-! ## Records that end a build -/

section Proofs
variable {toVec : Json → String} {fromStr : List Char → Option NixMessage}
  {writer : EventWriter}

/-- Cutting a text does not make it the word that ends a build. -/
theorem boundText_eq_done_iff {text : String} :
    boundText text = "done" ↔ text = "done" := by
  rw [boundText]
  split
  · rfl
  · next hlong =>
      constructor
      · intro heq
        have hsize := congrArg String.utf8ByteSize heq
        have hmark : "… [truncated]".utf8ByteSize = 15 := by decide
        have hdone : "done".utf8ByteSize = 4 := by decide
        rw [String.utf8ByteSize_append, hmark, hdone] at hsize
        omega
      · rintro rfl
        exact absurd (by decide) hlong

theorem bind_asBool_boundStrings (value : Option Json) :
    (value.map boundStrings).bind Json.asBool = value.bind Json.asBool := by
  cases value with
  | none => rfl
  | some value => cases value <;> rfl

theorem bind_asStr_boundStrings (value : Option Json) :
    (value.map boundStrings).bind Json.asStr = some "done" ↔
      value.bind Json.asStr = some "done" := by
  cases value with
  | none => rfl
  | some value =>
      cases value with
      | string text =>
          change some (boundText text) = some "done" ↔ some text = some "done"
          rw [Option.some.injEq, Option.some.injEq, boundText_eq_done_iff]
      | null => rfl
      | bool value => rfl
      | int value => rfl
      | float literal => rfl
      | array values => simp [boundStrings, Json.asStr]
      | object fields => simp [boundStrings, Json.asStr]

namespace EventWriter

/-- A record ends a build as its emission does. -/
theorem isTerminalRecord_record (writer : EventWriter) (emission : Emission) :
    isTerminalRecord (writer.record emission) = emission.isTerminal := by
  have hfields : (writer.record emission).fields = emission.fields ∨
      (writer.record emission).fields = boundFields emission.fields := by
    rw [record]
    dsimp only
    split
    · exact .inr rfl
    · exact .inl rfl
  have hevent : (writer.record emission).event = emission.event := rfl
  rw [Bool.eq_iff_iff]
  simp only [isTerminalRecord, Emission.isTerminal, Emission.isFinalProgress,
    Emission.isDoneStatus, Bool.or_eq_true, Bool.and_eq_true, decide_eq_true_eq,
    hevent]
  rcases hfields with hfields | hfields
  · rw [hfields, or_comm]
  · rw [hfields, boundFields_lookup, boundFields_lookup,
      bind_asBool_boundStrings, bind_asStr_boundStrings, or_comm]

/-- What may be in the log after the record of an emission. -/
def limit (emission : Emission) : ℕ :=
  if emission.isTerminal then buildLogMaxBytes - 1024
  else buildLogMaxBytes - terminalReserve - 1024

theorem full_eq_false_iff (hbuild : writer.buildFilter.isSome = true)
    {emission : Emission} :
    writer.full toVec (writer.record emission) = false ↔
      (emission.isTerminal = false → writer.truncated = false) ∧
        writer.bytes + (writer.record emission).size toVec ≤
          limit emission := by
  rw [full, isTerminalRecord_record, hbuild, limit]
  cases emission.isTerminal with
  | true => simp
  | false => simp

theorem accepts_eq (writer : EventWriter) (emission : Emission) :
    (writer.accepts fromStr emission).2.bytes = writer.bytes ∧
      (writer.accepts fromStr emission).2.truncated = writer.truncated := by
  unfold accepts
  split
  · split
    · exact ⟨rfl, rfl⟩
    · exact ⟨rfl, rfl⟩
  · exact ⟨rfl, rfl⟩

/-- A record that ends a build is none of Nix's. -/
theorem event_of_isTerminal {emission : Emission}
    (hterminal : emission.isTerminal = true) : emission.event ≠ "nixlog" := by
  intro hevent
  rw [Emission.isTerminal, Emission.isFinalProgress, Emission.isDoneStatus,
    hevent] at hterminal
  exact absurd hterminal (by simp)

theorem limit_le (emission : Emission) : limit emission ≤ buildLogMaxBytes := by
  rw [limit]
  split
  · exact Nat.sub_le ..
  · exact Nat.le_trans (Nat.sub_le ..) (Nat.sub_le ..)

/-! ## One emission -/

/-- What an emission does to a build log. -/
inductive BuildStep (toVec : Json → String) (writer : EventWriter)
    (emission : Emission) : EventWriter → List EventRecord → Prop where
  /-- Nothing is written, of a record that ends the build only for want of
  room. -/
  | skipped {after} (bytes_eq : after.bytes = writer.bytes)
      (truncated : writer.truncated = true → after.truncated = true)
      (full : emission.isTerminal = true →
        writer.full toVec (writer.record emission) = true) :
      BuildStep toVec writer emission after []
  | appended {after}
      (bytes_eq : after.bytes =
        writer.bytes + (writer.record emission).size toVec)
      (truncated : after.truncated = writer.truncated)
      (room : writer.bytes + (writer.record emission).size toVec ≤
        limit emission) :
      BuildStep toVec writer emission after [writer.record emission]
  | noted {after}
      (bytes_eq : after.bytes =
        writer.bytes + (writer.notice emission.ts).size toVec)
      (before : writer.truncated = false) (truncated : after.truncated = true)
      (room : after.bytes ≤ buildLogMaxBytes)
      (full : writer.full toVec (writer.record emission) = true) :
      BuildStep toVec writer emission after [writer.notice emission.ts]

theorem full_accepts (writer : EventWriter) (emission : Emission)
    (record : EventRecord) :
    (writer.accepts fromStr emission).2.full toVec record =
      writer.full toVec record := by
  obtain ⟨hbytes, htruncated⟩ :=
    @accepts_eq fromStr writer emission
  rw [full, full, hbytes, htruncated,
    (sameStream_accepts fromStr writer emission).bounded_eq]

theorem buildStep_omitRecord {emission : Emission} {own : EventWriter}
    (hsame : SameStream own writer) (hbytes : own.bytes = writer.bytes)
    (htruncated : own.truncated = writer.truncated)
    (hfull : writer.full toVec (writer.record emission) = true) :
    BuildStep toVec writer emission (own.omitRecord toVec emission.ts).1
      (own.omitRecord toVec emission.ts).2 := by
  unfold omitRecord
  split
  · exact .skipped hbytes (fun htrue => htruncated.trans htrue) fun _ => hfull
  · next hopen =>
      dsimp only
      rw [hsame.notice_eq]
      split
      · next hroom =>
          refine .noted ?_ ?_ rfl hroom hfull
          · rw [← hbytes]
            rfl
          · rw [← htruncated]
            exact Bool.eq_false_iff.mpr hopen
      · exact .skipped hbytes (fun _ => rfl) fun _ => hfull

theorem buildStep_emitAt (hbuild : writer.buildFilter.isSome = true)
    (fromStr : List Char → Option NixMessage) (emission : Emission) :
    BuildStep toVec writer emission (writer.emitAt toVec fromStr emission).1
      (writer.emitAt toVec fromStr emission).2 := by
  obtain ⟨hbytes, htruncated⟩ :=
    @accepts_eq fromStr writer emission
  have hsame := sameStream_accepts fromStr writer emission
  rw [emitAt]
  dsimp only
  rw [hsame.record_eq, full_accepts]
  split
  · next hrejected =>
      refine .skipped hbytes (fun htrue => htruncated.trans htrue) ?_
      -- only Nix's records are rejected
      intro hterminal
      have hevent := event_of_isTerminal hterminal
      rw [accepts] at hrejected
      split at hrejected
      · rw [if_neg hevent] at hrejected
        cases hrejected
      · cases hrejected
  · split
    · next hfull => exact buildStep_omitRecord hsame hbytes htruncated hfull
    · next hfits =>
        rw [Bool.not_eq_true, full_eq_false_iff hbuild] at hfits
        refine .appended ?_ htruncated hfits.2
        rw [← hbytes]
        rfl

/-! ## The budget -/

theorem length_recordBytes_cons (record : EventRecord)
    (records : List EventRecord) :
    (recordBytes toVec (record :: records)).length =
      record.size toVec + (recordBytes toVec records).length := by
  rw [recordBytes, List.flatMap_cons, List.length_append, length_line]
  rfl

theorem recordBytes_append (left right : List EventRecord) :
    recordBytes toVec (left ++ right) =
      recordBytes toVec left ++ recordBytes toVec right := by
  rw [recordBytes, List.flatMap_append]
  rfl

theorem bytes_of_step {emission : Emission} {after : EventWriter}
    {records : List EventRecord}
    (hstep : BuildStep toVec writer emission after records) :
    after.bytes = writer.bytes + (recordBytes toVec records).length := by
  cases hstep with
  | skipped hbytes => exact hbytes
  | appended hbytes =>
      rw [hbytes, length_recordBytes_cons]
      rfl
  | noted hbytes =>
      rw [hbytes, length_recordBytes_cons]
      rfl

theorem bytes_le_of_step {emission : Emission} {after : EventWriter}
    {records : List EventRecord}
    (hstep : BuildStep toVec writer emission after records)
    (hbytes : writer.bytes ≤ buildLogMaxBytes) :
    after.bytes ≤ buildLogMaxBytes := by
  cases hstep with
  | skipped hkept => rwa [hkept]
  | appended hadded _ hroom =>
      rw [hadded]
      exact Nat.le_trans hroom (limit_le emission)
  | noted _ _ _ hroom => exact hroom

theorem build_emitAt (hbuild : writer.buildFilter.isSome = true)
    (emission : Emission) :
    (writer.emitAt toVec fromStr emission).1.buildFilter.isSome = true :=
  (emitAt_cases toVec fromStr writer emission).1.bounded_eq.trans hbuild

/-- A build log counts its bytes, and they stay within the budget. -/
theorem bytes_emitAll (hbuild : writer.buildFilter.isSome = true)
    (hbytes : writer.bytes ≤ buildLogMaxBytes) (emissions : List Emission) :
    (writer.emitAll toVec fromStr emissions).1.bytes =
        writer.bytes + (recordBytes toVec
          (writer.emitAll toVec fromStr emissions).2).length ∧
      (writer.emitAll toVec fromStr emissions).1.bytes ≤ buildLogMaxBytes := by
  induction emissions generalizing writer with
  | nil => exact ⟨rfl, hbytes⟩
  | cons emission emissions ih =>
      have hstep := @buildStep_emitAt toVec writer hbuild fromStr emission
      obtain ⟨hcount, hbounded⟩ := ih (build_emitAt hbuild emission)
        (bytes_le_of_step hstep hbytes)
      rw [emitAll]
      refine ⟨?_, hbounded⟩
      rw [recordBytes_append, List.length_append, hcount, bytes_of_step hstep,
        Nat.add_assoc]

/-! ## The notice -/

theorem records_of_step {emission : Emission} {after : EventWriter}
    {records : List EventRecord}
    (hstep : BuildStep toVec writer emission after records) :
    ((records = [] ∨ records = [writer.record emission]) ∧
        (writer.truncated = true → after.truncated = true)) ∨
      (records = [writer.notice emission.ts] ∧ writer.truncated = false ∧
        after.truncated = true) := by
  cases hstep with
  | skipped _ hstays => exact .inl ⟨.inl rfl, hstays⟩
  | appended _ hstays => exact .inl ⟨.inr rfl, hstays.trans⟩
  | noted _ hopen htruncated => exact .inr ⟨rfl, hopen, htruncated⟩

/-- After the notice, only records of emissions are written. -/
theorem records_of_truncated (hbuild : writer.buildFilter.isSome = true)
    (htruncated : writer.truncated = true) (emissions : List Emission) :
    ∃ back : List Emission,
      (writer.emitAll toVec fromStr emissions).2 = back.map writer.record ∧
        back.Sublist emissions := by
  induction emissions generalizing writer with
  | nil => exact ⟨[], rfl, List.Sublist.refl _⟩
  | cons emission emissions ih =>
      have hsame := (emitAt_cases toVec fromStr writer emission).1
      have hstep := @buildStep_emitAt toVec writer hbuild fromStr emission
      rcases records_of_step hstep with ⟨hrecords, hstays⟩ | ⟨-, hopen, -⟩
      · obtain ⟨back, hback, hsub⟩ :=
          ih (build_emitAt hbuild emission) (hstays htruncated)
        have hrecord :
            (writer.emitAt toVec fromStr emission).1.record = writer.record :=
          funext hsame.record_eq
        rw [hrecord] at hback
        rw [emitAll]
        dsimp only
        rcases hrecords with hnone | hone
        · exact ⟨back, by rw [hnone, hback, List.nil_append], hsub.cons _⟩
        · exact ⟨emission :: back, by rw [hone, hback]; rfl, hsub.cons_cons _⟩
      · rw [hopen] at htruncated
        cases htruncated

theorem noticed_emitAll (hbuild : writer.buildFilter.isSome = true)
    (emissions : List Emission) :
    ∃ front back : List Emission, ∃ notice : Option Emission,
      (writer.emitAll toVec fromStr emissions).2 =
          front.map writer.record ++
            (notice.toList.map fun emission => writer.notice emission.ts) ++
              back.map writer.record ∧
        (front ++ notice.toList ++ back).Sublist emissions := by
  induction emissions generalizing writer with
  | nil => exact ⟨[], [], none, rfl, List.Sublist.refl _⟩
  | cons emission emissions ih =>
      have hsame := (emitAt_cases toVec fromStr writer emission).1
      have hown := @build_emitAt toVec fromStr writer hbuild emission
      have hstep := @buildStep_emitAt toVec writer hbuild fromStr emission
      have hrecord :
          (writer.emitAt toVec fromStr emission).1.record = writer.record :=
        funext hsame.record_eq
      have hnotice :
          (writer.emitAt toVec fromStr emission).1.notice = writer.notice :=
        funext hsame.notice_eq
      rw [emitAll]
      dsimp only
      rcases records_of_step hstep with ⟨hrecords, -⟩ | ⟨hnoted, -, htruncated⟩
      · obtain ⟨front, back, notice, hlater, hsub⟩ := ih hown
        rw [hrecord, hnotice] at hlater
        rcases hrecords with hnone | hone
        · refine ⟨front, back, notice, ?_, hsub.cons _⟩
          rw [hnone, hlater, List.nil_append]
        · refine ⟨emission :: front, back, notice, ?_, hsub.cons_cons _⟩
          rw [hone, hlater]
          rfl
      · obtain ⟨back, hback, hsub⟩ :=
          @records_of_truncated toVec fromStr _ hown htruncated emissions
        rw [hrecord] at hback
        refine ⟨[], back, some emission, ?_, hsub.cons_cons _⟩
        rw [hnoted, hback]
        rfl

/-! ## The reserve -/

/-- A build log has spent its plain budget, what ended the build and, once that
is written, the notice. -/
def Spent (writer : EventWriter) (notice spent : ℕ) : Prop :=
  writer.bytes ≤ buildLogMaxBytes - terminalReserve - 1024 + spent +
    if writer.truncated then notice else 0

theorem terminalSize_append (toVec : Json → String) (writer : EventWriter)
    (left right : List Emission) :
    writer.terminalSize toVec (left ++ right) =
      writer.terminalSize toVec left + writer.terminalSize toVec right := by
  rw [terminalSize, List.filter_append, List.map_append, List.sum_append]
  rfl

theorem terminalSize_of_terminal {emission : Emission}
    (hterminal : emission.isTerminal = true) :
    writer.terminalSize toVec [emission] =
      (writer.record emission).size toVec := by
  rw [terminalSize, List.filter_cons_of_pos hterminal, List.filter_nil,
    List.map_singleton, List.sum_singleton]

theorem SameStream.terminalSize_eq {left right : EventWriter}
    (hsame : SameStream left right) (emissions : List Emission) :
    left.terminalSize toVec emissions = right.terminalSize toVec emissions := by
  have hrecord : left.record = right.record := funext hsame.record_eq
  rw [terminalSize, terminalSize, hrecord]

theorem spent_of_step {emission : Emission} {after : EventWriter}
    {records : List EventRecord} {notice spent : ℕ}
    (hstep : BuildStep toVec writer emission after records)
    (hnotice : (writer.notice emission.ts).size toVec ≤ notice)
    (hspent : writer.Spent notice spent) :
    after.Spent notice (spent + writer.terminalSize toVec [emission]) := by
  rw [Spent] at hspent ⊢
  cases hstep with
  | skipped hkept hstays =>
      rw [hkept]
      by_cases htruncated : writer.truncated = true
      · rw [if_pos htruncated] at hspent
        rw [if_pos (hstays htruncated)]
        omega
      · rw [if_neg htruncated] at hspent
        omega
  | appended hadded hstays hroom =>
      rw [hadded, hstays]
      cases hterminal : emission.isTerminal with
      | true =>
          rw [terminalSize_of_terminal hterminal]
          omega
      | false =>
          rw [limit, hterminal] at hroom
          exact Nat.le_trans hroom
            (Nat.le_trans (Nat.le_add_right ..) (Nat.le_add_right ..))
  | noted hadded hopen htruncated =>
      rw [hopen] at hspent
      rw [hadded, htruncated]
      simp only [Bool.false_eq_true, ↓reduceIte] at hspent ⊢
      omega

theorem spent_emitAll {notice spent : ℕ}
    (hbuild : writer.buildFilter.isSome = true) {emissions : List Emission}
    (hnotice : ∀ emission ∈ emissions,
      (writer.notice emission.ts).size toVec ≤ notice)
    (hspent : writer.Spent notice spent) :
    (writer.emitAll toVec fromStr emissions).1.Spent notice
      (spent + writer.terminalSize toVec emissions) := by
  induction emissions generalizing writer spent with
  | nil => exact hspent
  | cons emission emissions ih =>
      have hsame := (emitAt_cases toVec fromStr writer emission).1
      have hstep := @buildStep_emitAt toVec writer hbuild fromStr emission
      have hfirst := spent_of_step hstep
        (hnotice emission List.mem_cons_self) hspent
      have hrest : ∀ other ∈ emissions,
          ((writer.emitAt toVec fromStr emission).1.notice other.ts).size
            toVec ≤ notice := by
        intro other hmem
        rw [hsame.notice_eq]
        exact hnotice other (List.mem_cons_of_mem _ hmem)
      have hlater := ih (build_emitAt hbuild emission) hrest hfirst
      have hsplit := terminalSize_append toVec writer [emission] emissions
      rw [List.singleton_append] at hsplit
      rw [hsame.terminalSize_eq, Nat.add_assoc, ← hsplit] at hlater
      exact hlater

/-- What ends a build is written while there is room for it. -/
theorem records_of_room (hbuild : writer.buildFilter.isSome = true)
    {emission : Emission} (hterminal : emission.isTerminal = true)
    (hroom : writer.bytes + (writer.record emission).size toVec ≤
      buildLogMaxBytes - 1024) :
    (writer.emitAt toVec fromStr emission).2 = [writer.record emission] := by
  have hfits : writer.full toVec (writer.record emission) = false := by
    rw [full_eq_false_iff hbuild, limit, if_pos hterminal]
    refine ⟨fun hplain => ?_, hroom⟩
    rw [hterminal] at hplain
    cases hplain
  rw [emitAt_of_fits toVec fromStr (event_of_isTerminal hterminal) hfits]
  rfl

theorem mem_emitAll_of_reserve (hbuild : writer.buildFilter.isSome = true)
    {notice spent : ℕ} (hspent : writer.Spent notice spent)
    {before : List Emission} {emission : Emission}
    (hterminal : emission.isTerminal = true)
    (hnotice : ∀ other ∈ before, (writer.notice other.ts).size toVec ≤ notice)
    (hroom : spent + writer.terminalSize toVec (before ++ [emission]) + notice ≤
      terminalReserve) (after : List Emission) :
    writer.record emission ∈
      (writer.emitAll toVec fromStr (before ++ emission :: after)).2 := by
  have hsame := sameStream_emitAll toVec fromStr writer before
  have hown : (writer.emitAll toVec fromStr before).1.buildFilter.isSome =
      true := hsame.bounded_eq.trans hbuild
  have hbefore := @spent_emitAll toVec fromStr writer notice spent hbuild before
    hnotice hspent
  have hfits : (writer.emitAll toVec fromStr before).1.bytes +
      ((writer.emitAll toVec fromStr before).1.record emission).size toVec ≤
        buildLogMaxBytes - 1024 := by
    have hreserve : terminalReserve + 1024 ≤ buildLogMaxBytes := by decide
    have hnoted : (if (writer.emitAll toVec fromStr before).1.truncated then
        notice else 0) ≤ notice := by
      split
      · exact Nat.le_refl notice
      · exact Nat.zero_le notice
    rw [terminalSize_append, terminalSize_of_terminal hterminal] at hroom
    rw [Spent] at hbefore
    rw [hsame.record_eq]
    omega
  have hwritten := @records_of_room toVec fromStr _ hown emission hterminal hfits
  rw [hsame.record_eq] at hwritten
  rw [emitAll_append]
  refine List.mem_append_right _ ?_
  rw [emitAll]
  dsimp only
  rw [hwritten]
  exact List.mem_append_left _ (List.mem_singleton_self _)

/-! ## The cap -/

/-- The writer of a build log that has just been opened. -/
theorem fresh_of_new {host plugin : String}
    (hnew : EventWriter.new "build" host plugin (.ok 0) = .ok writer) :
    writer.bytes = 0 ∧ writer.truncated = false ∧
      writer.buildFilter.isSome = true := by
  rw [EventWriter.new] at hnew
  split at hnew
  · cases hnew
  · cases hnew
    exact ⟨rfl, rfl, rfl⟩

theorem spent_of_fresh (hbytes : writer.bytes = 0) (notice : ℕ) :
    writer.Spent notice 0 := by
  rw [Spent, hbytes]
  exact Nat.zero_le _

/-- A build log keeps to its cap, whatever is emitted. -/
theorem buildLogCapped_of_new (hprints : Json.PrintsCompactly toVec)
    (fromStr : List Char → Option NixMessage) {host plugin : String}
    (hnew : EventWriter.new "build" host plugin (.ok 0) = .ok writer)
    (emissions : List Emission) :
    BuildLogCapped toVec fromStr writer emissions := by
  obtain ⟨hbytes, hopen, hbuild⟩ := fresh_of_new hnew
  have hlines := @completeLines_flatMap_line toVec
    (writer.emitAll toVec fromStr emissions).2
    fun record _ => hprints.one_line record.value
  refine ⟨?_, hlines, ?_, noticed_emitAll hbuild emissions, ?_⟩
  · obtain ⟨hcount, hbounded⟩ := @bytes_emitAll toVec fromStr writer hbuild
      (hbytes ▸ Nat.zero_le _) emissions
    rwa [hcount, hbytes, Nat.zero_add] at hbounded
  · rw [recordBytes, hlines, flatMap_line]
  · rintro before emission after rfl hterminal hreserve
    have hown := hreserve emission
      (List.mem_append_right before (List.mem_singleton_self emission))
    refine mem_emitAll_of_reserve hbuild
      (spent_of_fresh hbytes (terminalReserve -
        writer.terminalSize toVec (before ++ [emission])))
      hterminal ?_ (by omega) after
    intro other hmem
    have hother := hreserve other (List.mem_append_left _ hmem)
    omega

end EventWriter

end Proofs

end Mandala.Runner
