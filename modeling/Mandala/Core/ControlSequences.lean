import Mathlib.Data.List.TakeWhile
import Mathlib.Tactic.Common

/-!
# Control sequences of a terminal

A control sequence is an escape symbol, a bracket, parameters, intermediates
and a final symbol.  A filter that reads a text once keeps the sequences that
set colours and drops the others, together with the control symbols.  What it
drops may have kept the parts of a sequence apart, so the text that it leaves
has another such sequence exactly where one was spread over the text before.
-/

namespace Mandala.ControlSequences

/-- What a symbol may be in a control sequence. -/
inductive Kind where
  | escape
  | bracket
  | parameter
  | intermediate
  /-- The final symbol of a sequence that sets colours. -/
  | color
  | final
  | control
  | plain
  deriving DecidableEq, Repr

/-- The bracket of an introducer is a final symbol elsewhere. -/
def Kind.isFinal : Kind → Bool
  | .bracket | .color | .final => true
  | _ => false

variable {S : Type} (kind : S → Kind)

/-! ## The grammar -/

/-- Parameters and then intermediates. -/
def IsBody (body : List S) : Prop :=
  ∃ parameters intermediates, body = parameters ++ intermediates ∧
    (∀ symbol ∈ parameters, kind symbol = .parameter) ∧
    ∀ symbol ∈ intermediates, kind symbol = .intermediate

structure IsSequence (sequence : List S) (final : S) : Prop where
  split : ∃ escape bracket body, sequence = escape :: bracket :: (body ++ [final]) ∧
    kind escape = .escape ∧ kind bracket = .bracket ∧ IsBody kind body
  ends : (kind final).isFinal

/-- What a text leaves when colours are kept and all other sequences and all
control symbols are dropped, from left to right. -/
inductive Filtered : List S → List S → Prop where
  | nil : Filtered [] []
  | colored {text sequence rest out : List S} {final : S}
      (hsequence : IsSequence kind sequence final) (hcolor : kind final = .color)
      (htext : text = sequence ++ rest) (hrest : Filtered rest out) :
      Filtered text (sequence ++ out)
  | dropped {text sequence rest out : List S} {final : S}
      (hsequence : IsSequence kind sequence final) (hcolor : kind final ≠ .color)
      (htext : text = sequence ++ rest) (hrest : Filtered rest out) :
      Filtered text out
  | control {symbol : S} {rest out : List S} (hcontrol : kind symbol = .control)
      (hrest : Filtered rest out) : Filtered (symbol :: rest) out
  | kept {symbol : S} {rest out : List S} (hcontrol : kind symbol ≠ .control)
      (hnone : ∀ sequence final after, IsSequence kind sequence final →
        symbol :: rest ≠ sequence ++ after)
      (hrest : Filtered rest out) : Filtered (symbol :: rest) (symbol :: out)

/-- Nothing but what the filter drops. -/
inductive Dropped : List S → Prop where
  | nil : Dropped []
  | control {symbol : S} {gap : List S} (hcontrol : kind symbol = .control)
      (hgap : Dropped gap) : Dropped (symbol :: gap)
  | sequence {sequence gap : List S} {final : S}
      (hsequence : IsSequence kind sequence final) (hcolor : kind final ≠ .color)
      (hgap : Dropped gap) : Dropped (sequence ++ gap)

/-- `Spread kind symbols text`: the symbols in order, each behind a gap. -/
inductive Spread : List S → List S → Prop where
  | nil : Spread [] []
  | cons {symbol : S} {symbols gap text : List S} (hgap : Dropped kind gap)
      (hrest : Spread symbols text) :
      Spread (symbol :: symbols) (gap ++ symbol :: text)

/-- Somewhere a sequence that sets no colour is interrupted by what the filter
drops. -/
def Interrupted (text : List S) : Prop :=
  ∃ before escape inner spread after final,
    IsSequence kind (escape :: inner) final ∧ kind final ≠ .color ∧
    Spread kind inner spread ∧ spread ≠ inner ∧
    text = before ++ escape :: spread ++ after

/-! ## The filter -/

/-- Behind an introducer: the body, the final symbol and the text after it. -/
def ending (text : List S) : Option (List S × S × List S) :=
  let parameters := text.takeWhile (kind · = .parameter)
  let afterParameters := text.dropWhile (kind · = .parameter)
  let intermediates := afterParameters.takeWhile (kind · = .intermediate)
  match afterParameters.dropWhile (kind · = .intermediate) with
  | final :: rest =>
      if (kind final).isFinal then some (parameters ++ intermediates, final, rest)
      else none
  | [] => none

/-- The complete sequence that a text starts with. -/
def sequenceAt (text : List S) : Option (List S × S × List S) :=
  match text with
  | escape :: bracket :: rest =>
      if kind escape = .escape ∧ kind bracket = .bracket then
        (ending kind rest).map fun (body, final, rest) =>
          (escape :: bracket :: (body ++ [final]), final, rest)
      else none
  | _ => none

/-- One pass over the text; its length is fuel enough. -/
def scan : ℕ → List S → List S
  | 0, _ => []
  | _ + 1, [] => []
  | fuel + 1, symbol :: text =>
      match sequenceAt kind (symbol :: text) with
      | some (sequence, final, rest) =>
          if kind final = .color then sequence ++ scan fuel rest else scan fuel rest
      | none =>
          if kind symbol = .control then scan fuel text else symbol :: scan fuel text

def filter (text : List S) : List S :=
  scan kind text.length text

variable {kind}

/-! ## Sequences -/

theorem takeWhile_kind {only : Kind} {front : List S} {next : S} (rest : List S)
    (hfront : ∀ symbol ∈ front, kind symbol = only) (hnext : kind next ≠ only) :
    (front ++ next :: rest).takeWhile (kind · = only) = front ∧
      (front ++ next :: rest).dropWhile (kind · = only) = next :: rest := by
  induction front with
  | nil => simp [hnext]
  | cons symbol front ih =>
      have hsymbol := hfront symbol List.mem_cons_self
      obtain ⟨htake, hdrop⟩ := ih fun other hmem =>
        hfront other (List.mem_cons_of_mem _ hmem)
      simp [hsymbol, htake, hdrop]

theorem isFinal_ne {kinds : Kind} (hfinal : kinds.isFinal) :
    kinds ≠ .parameter ∧ kinds ≠ .intermediate ∧ kinds ≠ .escape ∧ kinds ≠ .control := by
  cases kinds <;> simp_all [Kind.isFinal]

theorem ending_eq_some_iff {text body rest : List S} {final : S} :
    ending kind text = some (body, final, rest) ↔
      text = body ++ final :: rest ∧ IsBody kind body ∧ (kind final).isFinal := by
  constructor
  · intro hending
    have hparameters := @List.takeWhile_append_dropWhile _ (kind · = .parameter) text
    have hintermediates := @List.takeWhile_append_dropWhile _ (kind · = .intermediate)
      (text.dropWhile (kind · = .parameter))
    simp only [ending] at hending
    split at hending
    · rename_i found after hafter
      rw [Option.ite_none_right_eq_some, Option.some.injEq, Prod.mk.injEq,
        Prod.mk.injEq] at hending
      obtain ⟨hfinal, rfl, rfl, rfl⟩ := hending
      refine ⟨?_, ⟨_, _, rfl, ?_, ?_⟩, hfinal⟩
      · rw [List.append_assoc, ← hafter, hintermediates, hparameters]
      · exact fun symbol hmem => by simpa using List.mem_takeWhile_imp hmem
      · exact fun symbol hmem => by simpa using List.mem_takeWhile_imp hmem
    · contradiction
  · rintro ⟨rfl, ⟨parameters, intermediates, rfl, hparameters, hintermediates⟩, hfinal⟩
    obtain ⟨hnotParameter, hnotIntermediate, -, -⟩ := isFinal_ne hfinal
    -- behind the parameters comes an intermediate or the final symbol
    obtain ⟨next, after, hnext, hkind⟩ : ∃ next after,
        intermediates ++ final :: rest = next :: after ∧ kind next ≠ .parameter := by
      cases intermediates with
      | nil => exact ⟨final, rest, rfl, hnotParameter⟩
      | cons symbol intermediates =>
          refine ⟨symbol, intermediates ++ final :: rest, rfl, ?_⟩
          rw [hintermediates symbol List.mem_cons_self]
          decide
    obtain ⟨htake, hdrop⟩ := takeWhile_kind after hparameters hkind
    obtain ⟨htake', hdrop'⟩ := takeWhile_kind rest hintermediates hnotIntermediate
    simp only [ending, List.append_assoc, hnext, htake, hdrop]
    simp only [← hnext, htake', hdrop', hfinal, if_true]

theorem sequenceAt_eq_some_iff {text sequence rest : List S} {final : S} :
    sequenceAt kind text = some (sequence, final, rest) ↔
      text = sequence ++ rest ∧ IsSequence kind sequence final := by
  constructor
  · intro hsome
    unfold sequenceAt at hsome
    split at hsome
    · rename_i escape bracket text
      rw [Option.ite_none_right_eq_some, Option.map_eq_some_iff] at hsome
      obtain ⟨⟨hescape, hbracket⟩, ⟨body, found, after⟩, hending, heq⟩ := hsome
      rw [Prod.mk.injEq, Prod.mk.injEq] at heq
      obtain ⟨rfl, rfl, rfl⟩ := heq
      obtain ⟨rfl, hbody, hfinal⟩ := ending_eq_some_iff.mp hending
      exact ⟨by simp, ⟨escape, bracket, body, rfl, hescape, hbracket, hbody⟩, hfinal⟩
    · contradiction
  · rintro ⟨rfl, ⟨escape, bracket, body, rfl, hescape, hbracket, hbody⟩, hfinal⟩
    have hending : ending kind (body ++ final :: rest) = some (body, final, rest) :=
      ending_eq_some_iff.mpr ⟨rfl, hbody, hfinal⟩
    simp [sequenceAt, hescape, hbracket, hending]

theorem sequenceAt_eq_none_iff {text : List S} :
    sequenceAt kind text = none ↔ ∀ sequence final after,
      IsSequence kind sequence final → text ≠ sequence ++ after := by
  constructor
  · intro hnone sequence final after hsequence htext
    have hsome := sequenceAt_eq_some_iff.mpr ⟨htext, hsequence⟩
    rw [hnone] at hsome
    contradiction
  · intro hnone
    cases hsome : sequenceAt kind text with
    | none => rfl
    | some found =>
        obtain ⟨sequence, final, rest⟩ := found
        obtain ⟨htext, hsequence⟩ := sequenceAt_eq_some_iff.mp hsome
        exact absurd htext (hnone sequence final rest hsequence)

/-- Two sequences at one place are the same. -/
theorem IsSequence.unique {left right leftRest rightRest : List S} {final final' : S}
    (hleft : IsSequence kind left final) (hright : IsSequence kind right final')
    (heq : left ++ leftRest = right ++ rightRest) :
    left = right ∧ final = final' ∧ leftRest = rightRest := by
  have hfirst : sequenceAt kind (left ++ leftRest) = some (left, final, leftRest) :=
    sequenceAt_eq_some_iff.mpr ⟨rfl, hleft⟩
  have hsecond := sequenceAt_eq_some_iff.mpr ⟨heq, hright⟩
  simpa [hfirst] using hsecond

/-- Behind its escape symbol a sequence has a body and a final symbol; its
bracket is one elsewhere. -/
theorem IsSequence.exists_kinds {sequence : List S} {final : S}
    (hsequence : IsSequence kind sequence final) :
    ∃ escape inner, sequence = escape :: inner ∧ kind escape = .escape ∧
      ∀ symbol ∈ inner, kind symbol = .parameter ∨ kind symbol = .intermediate ∨
        (kind symbol).isFinal := by
  obtain ⟨⟨escape, bracket, body, rfl, hescape, hbracket, hbody⟩, hfinal⟩ := hsequence
  obtain ⟨parameters, intermediates, rfl, hparameters, hintermediates⟩ := hbody
  refine ⟨escape, _, rfl, hescape, ?_⟩
  intro symbol hmem
  simp only [List.mem_cons, List.mem_append, List.not_mem_nil, or_false] at hmem
  rcases hmem with rfl | (hmem | hmem) | rfl
  · exact .inr (.inr (by rw [hbracket]; rfl))
  · exact .inl (hparameters symbol hmem)
  · exact .inr (.inl (hintermediates symbol hmem))
  · exact .inr (.inr hfinal)

/-- A sequence is an escape symbol and symbols that the filter keeps. -/
theorem IsSequence.exists_cons {sequence : List S} {final : S}
    (hsequence : IsSequence kind sequence final) :
    ∃ escape inner, sequence = escape :: inner ∧ kind escape = .escape ∧
      ∀ symbol ∈ inner, kind symbol ≠ .escape ∧ kind symbol ≠ .control := by
  obtain ⟨escape, inner, hsplit, hescape, hkinds⟩ := hsequence.exists_kinds
  refine ⟨escape, inner, hsplit, hescape, ?_⟩
  intro symbol hmem
  rcases hkinds symbol hmem with hkind | hkind | hfinal
  · rw [hkind]
    decide
  · rw [hkind]
    decide
  · exact (isFinal_ne hfinal).2.2

theorem IsSequence.ne_plain {sequence : List S} {final : S}
    (hsequence : IsSequence kind sequence final) :
    ∀ symbol ∈ sequence, kind symbol ≠ .plain := by
  obtain ⟨escape, inner, rfl, hescape, hkinds⟩ := hsequence.exists_kinds
  intro symbol hmem hplain
  rcases List.mem_cons.mp hmem with rfl | hmem
  · cases hescape.symm.trans hplain
  · have hkind := hkinds symbol hmem
    rw [hplain] at hkind
    revert hkind
    decide

/-! ## The filter is the relation -/

theorem filtered_scan {fuel : ℕ} {text : List S} (hfuel : text.length ≤ fuel) :
    Filtered kind text (scan kind fuel text) := by
  induction fuel generalizing text with
  | zero =>
      rw [List.length_eq_zero_iff.mp (Nat.le_zero.mp hfuel)]
      exact .nil
  | succ fuel ih =>
      cases text with
      | nil => exact .nil
      | cons symbol text =>
          rw [List.length_cons, Nat.add_le_add_iff_right] at hfuel
          rw [scan]
          split
          · rename_i sequence final rest hsome
            obtain ⟨htext, hsequence⟩ := sequenceAt_eq_some_iff.mp hsome
            have hshorter : rest.length ≤ fuel := by
              obtain ⟨escape, inner, rfl, -, -⟩ := hsequence.exists_cons
              have hlength := congrArg List.length htext
              simp at hlength
              omega
            have hrest := ih hshorter
            split_ifs with hcolor
            · exact .colored hsequence hcolor htext hrest
            · exact .dropped hsequence hcolor htext hrest
          · rename_i hnone
            split_ifs with hcontrol
            · exact .control hcontrol (ih hfuel)
            · exact .kept hcontrol (sequenceAt_eq_none_iff.mp hnone) (ih hfuel)

theorem filtered_filter (text : List S) : Filtered kind text (filter kind text) :=
  filtered_scan le_rfl

/-! ## Reading a filtered text -/

theorem Filtered.of_nil {out : List S} (hfiltered : Filtered kind [] out) : out = [] := by
  cases hfiltered with
  | nil => rfl
  | colored hsequence _ htext _ | dropped hsequence _ htext _ =>
      obtain ⟨escape, inner, rfl, -, -⟩ := hsequence.exists_cons
      contradiction

/-- A sequence that sets no colour is gone. -/
theorem Filtered.of_dropped {text sequence rest out : List S} {final : S}
    (hfiltered : Filtered kind text out) (hsequence : IsSequence kind sequence final)
    (hcolor : kind final ≠ .color) (htext : text = sequence ++ rest) :
    Filtered kind rest out := by
  cases hfiltered with
  | nil =>
      obtain ⟨escape, inner, rfl, -, -⟩ := hsequence.exists_cons
      contradiction
  | colored hother hcolor' htext' _ =>
      obtain ⟨-, rfl, -⟩ := hsequence.unique hother (htext.symm.trans htext')
      exact absurd hcolor' hcolor
  | dropped hother _ htext' hrest =>
      obtain ⟨-, -, rfl⟩ := hsequence.unique hother (htext.symm.trans htext')
      exact hrest
  | control hcontrol _ =>
      obtain ⟨escape, inner, rfl, hescape, -⟩ := hsequence.exists_cons
      injection htext with hsymbol
      rw [hsymbol, hescape] at hcontrol
      contradiction
  | kept _ hnone _ => exact absurd htext (hnone _ _ _ hsequence)

theorem ne_sequence {symbol : S} {rest : List S} (hescape : kind symbol ≠ .escape)
    (sequence : List S) (final : S) (after : List S)
    (hsequence : IsSequence kind sequence final) :
    symbol :: rest ≠ sequence ++ after := by
  obtain ⟨escape, inner, rfl, hescape', -⟩ := hsequence.exists_cons
  intro heq
  injection heq with hsymbol
  exact hescape (hsymbol ▸ hescape')

theorem Filtered.of_control {symbol : S} {rest out : List S}
    (hfiltered : Filtered kind (symbol :: rest) out)
    (hcontrol : kind symbol = .control) : Filtered kind rest out := by
  have hescape : kind symbol ≠ .escape := by
    rw [hcontrol]
    decide
  cases hfiltered with
  | colored hsequence _ htext _ | dropped hsequence _ htext _ =>
      exact absurd htext (ne_sequence hescape _ _ _ hsequence)
  | control _ hrest => exact hrest
  | kept hcontrol' _ _ => exact absurd hcontrol hcontrol'

/-- A symbol that neither starts a sequence nor is a control stays. -/
theorem Filtered.of_kept {symbol : S} {rest out : List S}
    (hfiltered : Filtered kind (symbol :: rest) out) (hcontrol : kind symbol ≠ .control)
    (hnone : ∀ sequence final after, IsSequence kind sequence final →
      symbol :: rest ≠ sequence ++ after) :
    ∃ kept, out = symbol :: kept ∧ Filtered kind rest kept := by
  cases hfiltered with
  | colored hsequence _ htext _ | dropped hsequence _ htext _ =>
      exact absurd htext (hnone _ _ _ hsequence)
  | control hcontrol' _ => exact absurd hcontrol' hcontrol
  | kept _ _ hrest => exact ⟨_, rfl, hrest⟩

theorem Filtered.of_plain {front rest out : List S}
    (hfiltered : Filtered kind (front ++ rest) out)
    (hplain : ∀ symbol ∈ front, kind symbol = .plain) :
    ∃ kept, out = front ++ kept ∧ Filtered kind rest kept := by
  induction front generalizing out with
  | nil => exact ⟨out, rfl, hfiltered⟩
  | cons symbol front ih =>
      have hsymbol := hplain symbol List.mem_cons_self
      have hescape : kind symbol ≠ .escape := by
        rw [hsymbol]
        decide
      have hcontrol : kind symbol ≠ .control := by
        rw [hsymbol]
        decide
      obtain ⟨later, rfl, hlater⟩ := hfiltered.of_kept hcontrol (ne_sequence hescape)
      obtain ⟨kept, rfl, hrest⟩ :=
        ih hlater fun other hmem => hplain other (List.mem_cons_of_mem _ hmem)
      exact ⟨kept, rfl, hrest⟩

/-- A gap leaves nothing. -/
theorem Filtered.of_gap {gap rest out : List S} (hgap : Dropped kind gap)
    (hfiltered : Filtered kind (gap ++ rest) out) : Filtered kind rest out := by
  induction hgap with
  | nil => exact hfiltered
  | control hcontrol _ ih => exact ih (hfiltered.of_control hcontrol)
  | sequence hsequence hcolor _ ih =>
      exact ih (hfiltered.of_dropped hsequence hcolor (List.append_assoc _ _ _))

/-- What is spread comes together. -/
theorem Filtered.of_spread {symbols spread rest out : List S}
    (hspread : Spread kind symbols spread)
    (hsymbols : ∀ symbol ∈ symbols, kind symbol ≠ .escape ∧ kind symbol ≠ .control)
    (hfiltered : Filtered kind (spread ++ rest) out) :
    ∃ kept, out = symbols ++ kept ∧ Filtered kind rest kept := by
  induction hspread generalizing out with
  | nil => exact ⟨out, rfl, hfiltered⟩
  | cons hgap _ ih =>
      obtain ⟨hescape, hcontrol⟩ := hsymbols _ List.mem_cons_self
      rw [List.append_assoc, List.cons_append] at hfiltered
      obtain ⟨later, rfl, hlater⟩ :=
        (hfiltered.of_gap hgap).of_kept hcontrol (ne_sequence hescape)
      obtain ⟨kept, rfl, hrest⟩ := ih
        (fun symbol hmem => hsymbols symbol (List.mem_cons_of_mem _ hmem)) hlater
      exact ⟨kept, rfl, hrest⟩

/-- A list that does not hold an element ends before it. -/
theorem exists_rest_of_notMem {front back before after : List S} {symbol : S}
    (heq : front ++ back = before ++ symbol :: after) (hfront : symbol ∉ front) :
    ∃ rest, before = front ++ rest ∧ back = rest ++ symbol :: after := by
  rcases List.append_eq_append_iff.mp heq with ⟨rest, hbefore, hback⟩ | ⟨rest, hsplit, hback⟩
  · exact ⟨rest, hbefore, hback⟩
  · cases rest with
    | nil =>
        rw [List.append_nil] at hsplit
        exact ⟨[], by rw [List.append_nil, hsplit], hback.symm⟩
    | cons other rest =>
        injection hback with hother
        rw [hsplit, hother] at hfront
        exact absurd (List.mem_append_right _ List.mem_cons_self) hfront

theorem IsSequence.exists_between {sequence tail before rest : List S}
    {first escape final : S} (hsequence : IsSequence kind sequence final)
    (hescape : kind escape = .escape)
    (heq : sequence ++ tail = first :: before ++ escape :: rest) :
    ∃ between, tail = between ++ escape :: rest := by
  obtain ⟨_, inner, rfl, -, hinner⟩ := hsequence.exists_cons
  obtain ⟨between, -, hbetween⟩ := exists_rest_of_notMem (List.cons.inj heq).2
    fun hmem => (hinner _ hmem).1 hescape
  exact ⟨between, hbetween⟩

/-- No sequence goes over an escape symbol, so the filter comes to each. -/
theorem Filtered.exists_at_escape {text before rest out : List S} {escape : S}
    (hescape : kind escape = .escape) (hfiltered : Filtered kind text out)
    (htext : text = before ++ escape :: rest) :
    ∃ kept later, out = kept ++ later ∧ Filtered kind (escape :: rest) later := by
  induction hfiltered generalizing before with
  | nil => exact absurd htext.symm (List.append_ne_nil_of_right_ne_nil _ (List.cons_ne_nil _ _))
  | @colored _ sequence _ _ _ hsequence hcolor htext' hrest ih =>
      cases before with
      | nil => exact ⟨[], _, rfl, .colored hsequence hcolor (htext.symm.trans htext') hrest⟩
      | cons first before =>
          obtain ⟨between, hbetween⟩ :=
            hsequence.exists_between hescape (htext'.symm.trans htext)
          obtain ⟨kept, later, rfl, hlater⟩ := ih hbetween
          exact ⟨sequence ++ kept, later, (List.append_assoc _ _ _).symm, hlater⟩
  | dropped hsequence hcolor htext' hrest ih =>
      cases before with
      | nil => exact ⟨[], _, rfl, .dropped hsequence hcolor (htext.symm.trans htext') hrest⟩
      | cons first before =>
          obtain ⟨between, hbetween⟩ :=
            hsequence.exists_between hescape (htext'.symm.trans htext)
          exact ih hbetween
  | control hcontrol hrest ih =>
      cases before with
      | nil =>
          injection htext with hsymbol htail
          rw [hsymbol, hescape] at hcontrol
          contradiction
      | cons first before => exact ih (List.cons.inj htext).2
  | @kept symbol _ _ hcontrol hnone hrest ih =>
      cases before with
      | nil =>
          obtain ⟨rfl, rfl⟩ := List.cons.inj htext
          exact ⟨[], _, rfl, .kept hcontrol hnone hrest⟩
      | cons first before =>
          obtain ⟨kept, later, rfl, hlater⟩ := ih (List.cons.inj htext).2
          exact ⟨symbol :: kept, later, rfl, hlater⟩

/-! ## Interrupted sequences -/

theorem Dropped.head {gap rest : List S} {symbol : S} (hgap : Dropped kind gap)
    (heq : gap = symbol :: rest) : kind symbol = .escape ∨ kind symbol = .control := by
  cases hgap with
  | nil => contradiction
  | control hcontrol _ =>
      injection heq with hsymbol
      exact .inr (hsymbol ▸ hcontrol)
  | sequence hsequence _ _ =>
      obtain ⟨escape, inner, rfl, hescape, -⟩ := hsequence.exists_cons
      injection heq with hsymbol
      exact .inl (hsymbol ▸ hescape)

/-- Along symbols that the filter keeps a spread list is the list itself: it is
the whole list, or it goes on behind them. -/
theorem Spread.eq_or_longer {symbols spread after front rest : List S}
    (hspread : Spread kind symbols spread)
    (hfront : ∀ symbol ∈ front, kind symbol ≠ .escape ∧ kind symbol ≠ .control)
    (heq : spread ++ after = front ++ rest) :
    spread = symbols ∨ ∃ symbol more, symbols = front ++ symbol :: more := by
  induction hspread generalizing front with
  | nil => exact .inl rfl
  | @cons symbol symbols gap text hgap _ ih =>
      cases front with
      | nil => exact .inr ⟨symbol, symbols, rfl⟩
      | cons first front =>
          obtain ⟨hescape, hcontrol⟩ := hfront first List.mem_cons_self
          cases gap with
          | cons other gap =>
              injection heq with hsame
              rcases hgap.head rfl with hother | hother
              · exact absurd (hsame ▸ hother) hescape
              · exact absurd (hsame ▸ hother) hcontrol
          | nil =>
              injection heq with hsame hrest
              subst hsame
              have hlater : ∀ symbol ∈ front,
                  kind symbol ≠ .escape ∧ kind symbol ≠ .control :=
                fun symbol hmem => hfront symbol (List.mem_cons_of_mem _ hmem)
              rcases ih hlater hrest with rfl | ⟨next, more, rfl⟩
              · exact .inl rfl
              · exact .inr ⟨next, more, rfl⟩

/-- A spread sequence does not start with a sequence. -/
theorem not_sequence_of_spread {escape : S} {inner spread after : List S} {final : S}
    (hsequence : IsSequence kind (escape :: inner) final)
    (hspread : Spread kind inner spread) (hne : spread ≠ inner)
    (sequence : List S) (final' : S) (rest : List S)
    (hother : IsSequence kind sequence final') :
    escape :: (spread ++ after) ≠ sequence ++ rest := by
  intro heq
  obtain ⟨first, front, rfl, -, hfront⟩ := hother.exists_cons
  injection heq with hfirst hrest
  subst hfirst
  rcases hspread.eq_or_longer hfront hrest with hsame | ⟨symbol, more, rfl⟩
  · exact hne hsame
  · have hlonger : (escape :: (front ++ symbol :: more)) ++ [] =
        (escape :: front) ++ symbol :: more := by simp
    obtain ⟨-, -, hmore⟩ := hsequence.unique hother hlonger
    contradiction

/-- An interrupted sequence is whole in what the filter leaves. -/
theorem exists_sequence_of_interrupted {text out : List S}
    (hfiltered : Filtered kind text out) (hinterrupted : Interrupted kind text) :
    ∃ sequence final, IsSequence kind sequence final ∧ kind final ≠ .color ∧
      sequence <:+: out := by
  obtain ⟨before, escape, inner, spread, after, final, hsequence, hcolor, hspread, hne,
    htext⟩ := hinterrupted
  obtain ⟨first, inner', heq, hescape, hinner⟩ := hsequence.exists_cons
  injection heq with hfirst hinner'
  subst hfirst hinner'
  rw [List.append_assoc, List.cons_append] at htext
  obtain ⟨kept, later, rfl, hlater⟩ := hfiltered.exists_at_escape hescape htext
  have hcontrol : kind escape ≠ .control := by
    rw [hescape]
    decide
  obtain ⟨later, rfl, hlast⟩ := hlater.of_kept hcontrol
    (not_sequence_of_spread hsequence hspread hne)
  obtain ⟨rest, rfl, -⟩ := hlast.of_spread hspread hinner
  exact ⟨escape :: inner, final, hsequence, hcolor, kept, rest, by simp⟩

theorem Interrupted.append_left {text : List S} (hinterrupted : Interrupted kind text)
    (front : List S) : Interrupted kind (front ++ text) := by
  obtain ⟨before, escape, inner, spread, after, final, hsequence, hcolor, hspread, hne,
    rfl⟩ := hinterrupted
  exact ⟨front ++ before, escape, inner, spread, after, final, hsequence, hcolor, hspread,
    hne, by simp⟩

/-- Before a symbol that is left stands a gap. -/
theorem Filtered.exists_gap {text out kept : List S} {symbol : S}
    (hfiltered : Filtered kind text out) (hescape : kind symbol ≠ .escape)
    (hout : out = symbol :: kept) :
    ∃ gap rest, Dropped kind gap ∧ text = gap ++ symbol :: rest ∧ Filtered kind rest kept := by
  induction hfiltered with
  | nil => contradiction
  | colored hsequence _ _ _ _ =>
      exact absurd hout.symm (ne_sequence hescape _ _ _ hsequence)
  | @dropped _ sequence _ _ _ hsequence hcolor htext _ ih =>
      obtain ⟨gap, rest, hgap, rfl, hrest⟩ := ih hout
      exact ⟨sequence ++ gap, rest, .sequence hsequence hcolor hgap,
        htext.trans (List.append_assoc _ _ _).symm, hrest⟩
  | @control first _ _ hcontrol _ ih =>
      obtain ⟨gap, rest, hgap, rfl, hrest⟩ := ih hout
      exact ⟨first :: gap, rest, .control hcontrol hgap, rfl, hrest⟩
  | kept _ _ hrest _ =>
      obtain ⟨rfl, rfl⟩ := List.cons.inj hout
      exact ⟨[], _, .nil, rfl, hrest⟩

/-- What is left side by side was spread. -/
theorem Filtered.exists_spread {text symbols kept : List S}
    (hfiltered : Filtered kind text (symbols ++ kept))
    (hsymbols : ∀ symbol ∈ symbols, kind symbol ≠ .escape) :
    ∃ spread rest, Spread kind symbols spread ∧ text = spread ++ rest := by
  induction symbols generalizing text with
  | nil => exact ⟨[], text, .nil, rfl⟩
  | cons symbol symbols ih =>
      obtain ⟨gap, later, hgap, rfl, hlater⟩ :=
        hfiltered.exists_gap (hsymbols symbol List.mem_cons_self) rfl
      obtain ⟨spread, rest, hspread, rfl⟩ :=
        ih hlater fun other hmem => hsymbols other (List.mem_cons_of_mem _ hmem)
      exact ⟨gap ++ symbol :: spread, rest, .cons hgap hspread, by simp⟩

/-- A sequence in what the filter leaves was interrupted before. -/
theorem Filtered.interrupted {text out before after sequence : List S} {final : S}
    (hfiltered : Filtered kind text out) (hsequence : IsSequence kind sequence final)
    (hcolor : kind final ≠ .color) (hout : out = before ++ (sequence ++ after)) :
    Interrupted kind text := by
  obtain ⟨escape, inner, rfl, hescape, hinner⟩ := hsequence.exists_cons
  induction hfiltered generalizing before with
  | nil =>
      exact absurd hout.symm (List.append_ne_nil_of_right_ne_nil _ (by simp))
  | @colored _ colors rest out _ hcolors hcolor' htext _ ih =>
      subst htext
      cases before with
      | nil =>
          obtain ⟨-, rfl, -⟩ := hcolors.unique hsequence hout
          exact absurd hcolor' hcolor
      | cons first before =>
          obtain ⟨between, hbetween⟩ := hcolors.exists_between hescape hout
          exact (ih hbetween).append_left colors
  | @dropped _ other _ _ _ _ _ htext _ ih => exact htext ▸ (ih hout).append_left other
  | @control symbol _ _ _ _ ih => exact (ih hout).append_left [symbol]
  | @kept symbol rest out _ hnone hrest ih =>
      cases before with
      | nil =>
          obtain ⟨rfl, rfl⟩ := List.cons.inj hout
          obtain ⟨spread, later, hspread, rfl⟩ :=
            hrest.exists_spread fun symbol hmem => (hinner symbol hmem).1
          have hne : spread ≠ inner := by
            rintro rfl
            exact hnone _ _ later hsequence rfl
          exact ⟨[], _, inner, spread, later, final, hsequence, hcolor, hspread, hne, rfl⟩
      | cons first before =>
          exact (ih (List.cons.inj hout).2).append_left [symbol]

/-- A sequence that sets no colour is left exactly where one was interrupted. -/
theorem exists_sequence_iff {text out : List S} (hfiltered : Filtered kind text out) :
    (∃ sequence final, IsSequence kind sequence final ∧ kind final ≠ .color ∧
      sequence <:+: out) ↔ Interrupted kind text := by
  constructor
  · rintro ⟨sequence, final, hsequence, hcolor, before, after, rfl⟩
    exact hfiltered.interrupted hsequence hcolor (List.append_assoc _ _ _)
  · exact exists_sequence_of_interrupted hfiltered

/-! ## What is always left -/

theorem Filtered.kind_ne_control {text out : List S} (hfiltered : Filtered kind text out) :
    ∀ symbol ∈ out, kind symbol ≠ .control := by
  induction hfiltered with
  | nil => exact fun _ hmem => absurd hmem List.not_mem_nil
  | colored hsequence _ _ _ ih =>
      obtain ⟨escape, inner, rfl, hescape, hinner⟩ := hsequence.exists_cons
      intro symbol hmem
      rcases List.mem_append.mp hmem with hfront | hmem
      · rcases List.mem_cons.mp hfront with rfl | hmem
        · rw [hescape]
          decide
        · exact (hinner symbol hmem).2
      · exact ih symbol hmem
  | dropped _ _ _ _ ih | control _ _ ih => exact ih
  | kept hcontrol _ _ ih =>
      intro symbol hmem
      rcases List.mem_cons.mp hmem with rfl | hmem
      · exact hcontrol
      · exact ih symbol hmem

/-- A text without control symbols and without such sequences stays. -/
theorem Filtered.eq_self {text out : List S} (hfiltered : Filtered kind text out)
    (hcontrol : ∀ symbol ∈ text, kind symbol ≠ .control)
    (hnone : ∀ sequence final, IsSequence kind sequence final → kind final ≠ .color →
      ¬ sequence <:+: text) : out = text := by
  induction hfiltered with
  | nil => rfl
  | @colored _ sequence rest _ _ _ _ htext _ ih =>
      subst htext
      have hrest := ih (fun symbol hmem => hcontrol symbol (List.mem_append_right _ hmem))
        fun other final hother hcolor hpart =>
          hnone other final hother hcolor (hpart.trans (List.suffix_append _ _).isInfix)
      rw [hrest]
  | @dropped _ sequence rest _ final hsequence hcolor htext _ _ =>
      refine absurd ?_ (hnone sequence final hsequence hcolor)
      exact htext ▸ (List.prefix_append sequence rest).isInfix
  | control hcontrol' _ _ => exact absurd hcontrol' (hcontrol _ List.mem_cons_self)
  | @kept symbol rest _ _ _ _ ih =>
      have hrest := ih (fun other hmem => hcontrol other (List.mem_cons_of_mem _ hmem))
        fun other final hother hcolor hpart =>
          hnone other final hother hcolor (hpart.trans (List.suffix_cons _ _).isInfix)
      rw [hrest]

end Mandala.ControlSequences
