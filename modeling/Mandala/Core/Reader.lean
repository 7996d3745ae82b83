import Mathlib.Data.List.Basic
import Mathlib.Data.Nat.Notation

/-!
# Readers of a text

A reader takes a value off the front of a text and leaves the rest.  A reader is
firm if it sees where its value ends, so that what follows the text changes
nothing.  One that reads on as long as it can is only sure of an end it has
seen, or of one that nothing which follows can move.
-/

namespace Mandala

abbrev Reader (Symbol α : Type) := StateT (List Symbol) Option α

namespace Reader

variable {Symbol α β : Type}

/-! ## Readers of a symbol, and readers that repeat another -/

def next : Reader Symbol Symbol
  | [] => none
  | symbol :: rest => some (symbol, rest)

/-- The first symbol that is not skipped. -/
def nextAfter (skips : Symbol → Bool) : Reader Symbol Symbol :=
  fun text => next (text.dropWhile skips)

/-- As many of these symbols as stand there. -/
def longest (keeps : Symbol → Bool) : Reader Symbol (List Symbol) :=
  fun text => some (text.takeWhile keeps, text.dropWhile keeps)

/-- One of these symbols, if one stands there. -/
def optional (keeps : Symbol → Bool) : Reader Symbol (List Symbol)
  | [] => some ([], [])
  | symbol :: rest =>
      if keeps symbol then some ([symbol], rest) else some ([], symbol :: rest)

/-- Values up to the first time there is none. -/
def untilNone (item : Reader Symbol (Option α)) : ℕ → Reader Symbol (List α)
  | 0 => failure
  | fuel + 1 => do
      match ← item with
      | none => pure []
      | some value => (value :: ·) <$> untilNone item fuel

/-- Values with a separator after each but the last, which the closing symbol
follows. -/
def separated [DecidableEq Symbol] (mark : Reader Symbol Symbol)
    (separator close : Symbol) (item : Reader Symbol α) :
    ℕ → Reader Symbol (List α)
  | 0 => failure
  | fuel + 1 => do
      let value ← item
      let symbol ← mark
      if symbol = separator then
        (value :: ·) <$> separated mark separator close item fuel
      else if symbol = close then pure [value]
      else failure

/-- Every round takes a symbol at least. -/
def bounded (repeats : ℕ → Reader Symbol α) : Reader Symbol α :=
  fun text => repeats text.length text

/-- The closing symbol at once, or separated values before it. -/
def bracketed [DecidableEq Symbol] (mark : Reader Symbol Symbol)
    (separator close : Symbol) (item : Reader Symbol α) :
    Reader Symbol (List α) := fun text =>
  match mark text with
  | none => none
  | some (symbol, rest) =>
      if symbol = close then some ([], rest)
      else bounded (separated mark separator close item) text

/-! ## Firm readers -/

/-- Nothing is left of a text that has come to its end, and what follows a text
does not change what is read off its front. -/
structure Firm (read : Reader Symbol α) : Prop where
  stays : ∀ {value rest}, read [] = some (value, rest) → rest = []
  append : ∀ {text value rest}, read text = some (value, rest) →
    ∀ more, read (text ++ more) = some (value, rest ++ more)

/-- What follows does not begin with a symbol that a reader reads on over. -/
def Ends (joins : Symbol → Bool) (text : List Symbol) : Prop :=
  ∀ symbol ∈ text.head?, joins symbol = false

theorem ends_nil (joins : Symbol → Bool) : Ends joins [] := by
  intro symbol hhead
  cases hhead

theorem ends_cons {joins : Symbol → Bool} {symbol : Symbol}
    (hsymbol : joins symbol = false) (rest : List Symbol) :
    Ends joins (symbol :: rest) := by
  intro other hhead
  cases hhead
  exact hsymbol

structure Extends (joins : Symbol → Bool) (read : Reader Symbol α) : Prop where
  stays : ∀ {value rest}, read [] = some (value, rest) → rest = []
  append : ∀ {text value rest}, read text = some (value, rest) →
    ∀ more, rest ≠ [] ∨ Ends joins more →
      read (text ++ more) = some (value, rest ++ more)

theorem bind_eq_some_iff {read : Reader Symbol α} {next : α → Reader Symbol β}
    {text : List Symbol} {found : β × List Symbol} :
    (read >>= next) text = some found ↔
      ∃ value rest, read text = some (value, rest) ∧
        next value rest = some found := by
  have hbind : (read >>= next) text =
      (read text).bind fun pair => next pair.1 pair.2 := rfl
  rw [hbind, Option.bind_eq_some_iff, Prod.exists]

/-- A reader goes on from where the one before it left off. -/
theorem bind_apply {read : Reader Symbol α} {text : List Symbol} {value : α}
    {rest : List Symbol} (hread : read text = some (value, rest))
    (next : α → Reader Symbol β) : (read >>= next) text = next value rest := by
  have hbind : (read >>= next) text =
      (read text).bind fun pair => next pair.1 pair.2 := rfl
  rw [hbind, hread, Option.bind_some]

theorem map_apply {read : Reader Symbol α} {text : List Symbol} {value : α}
    {rest : List Symbol} (hread : read text = some (value, rest))
    (convert : α → β) :
    (convert <$> read) text = some (convert value, rest) := by
  have hmap : (convert <$> read) text =
      (read text).bind fun pair => some (convert pair.1, pair.2) := rfl
  rw [hmap, hread, Option.bind_some]

theorem map_eq_some_iff {read : Reader Symbol α} {convert : α → β}
    {text rest : List Symbol} {result : β} :
    (convert <$> read) text = some (result, rest) ↔
      ∃ value, read text = some (value, rest) ∧ convert value = result := by
  rw [← bind_pure_comp, bind_eq_some_iff]
  constructor
  · intro hread
    obtain ⟨value, behind, hvalue, hpure⟩ := hread
    cases hpure
    exact ⟨value, hvalue, rfl⟩
  · intro hread
    obtain ⟨value, hvalue, hresult⟩ := hread
    rw [← hresult]
    exact ⟨value, rest, hvalue, rfl⟩

theorem Firm.extends {read : Reader Symbol α} (hfirm : Firm read)
    (joins : Symbol → Bool) : Extends joins read where
  stays := hfirm.stays
  append hread more _ := hfirm.append hread more

theorem firm_pure (value : α) : Firm (pure value : Reader Symbol α) where
  stays hread := by cases hread; rfl
  append hread more := by cases hread; rfl

theorem firm_failure : Firm (failure : Reader Symbol α) where
  stays hread := by cases hread
  append hread := by cases hread

theorem Firm.bind {read : Reader Symbol α} {next : α → Reader Symbol β}
    (hread : Firm read) (hnext : ∀ value, Firm (next value)) :
    Firm (read >>= next) where
  stays hfound := by
    obtain ⟨value, rest, hvalue, hfound⟩ := bind_eq_some_iff.mp hfound
    rw [hread.stays hvalue] at hfound
    exact (hnext value).stays hfound
  append hfound more := by
    obtain ⟨value, rest, hvalue, hfound⟩ := bind_eq_some_iff.mp hfound
    rw [bind_apply (hread.append hvalue more)]
    exact (hnext value).append hfound more

theorem Firm.map {read : Reader Symbol α} (hread : Firm read)
    (convert : α → β) : Firm (convert <$> read) := by
  rw [← bind_pure_comp]
  exact hread.bind fun value => firm_pure (convert value)

theorem firm_next : Firm (next : Reader Symbol Symbol) where
  stays hread := by cases hread
  append {text} _ _ hread more := by
    cases text with
    | nil => cases hread
    | cons symbol text => cases hread; rfl

theorem nextAfter_cons {skips : Symbol → Bool} {symbol : Symbol}
    (hsymbol : skips symbol = false) (rest : List Symbol) :
    nextAfter skips (symbol :: rest) = some (symbol, rest) := by
  rw [nextAfter, List.dropWhile_cons_of_neg (by simp [hsymbol]), next]

theorem firm_nextAfter (skips : Symbol → Bool) : Firm (nextAfter skips) where
  stays hread := by cases hread
  append {text} _ _ hread more := by
    induction text with
    | nil => cases hread
    | cons symbol text ih =>
        by_cases hskips : skips symbol = true
        · rw [nextAfter, List.dropWhile_cons_of_pos hskips] at hread
          rw [List.cons_append, nextAfter, List.dropWhile_cons_of_pos hskips]
          exact ih hread
        · have hkeeps := eq_false_of_ne_true hskips
          rw [nextAfter_cons hkeeps] at hread
          cases hread
          rw [List.cons_append, nextAfter_cons hkeeps]

/-- A reader that reads what another reads, of every text that other reads. -/
def Covers (wide narrow : Reader Symbol α) : Prop :=
  ∀ {text found}, narrow text = some found → wide text = some found

theorem Covers.bind {read : Reader Symbol α} {wide narrow : α → Reader Symbol β}
    (hcovers : ∀ value, Covers (wide value) (narrow value)) :
    Covers (read >>= wide) (read >>= narrow) := by
  intro text found hfound
  obtain ⟨value, rest, hvalue, hfound⟩ := bind_eq_some_iff.mp hfound
  rw [bind_apply hvalue]
  exact hcovers value hfound

theorem Covers.map {wide narrow : Reader Symbol α} (hcovers : Covers wide narrow)
    (convert : α → β) : Covers (convert <$> wide) (convert <$> narrow) := by
  intro text found hfound
  rw [← bind_pure_comp] at hfound ⊢
  obtain ⟨value, rest, hvalue, hfound⟩ := bind_eq_some_iff.mp hfound
  rw [bind_apply (hcovers hvalue)]
  exact hfound

/-- More rounds than were needed change nothing. -/
theorem untilNone_covers (item : Reader Symbol (Option α)) {fuel rounds : ℕ}
    (hrounds : fuel ≤ rounds) :
    Covers (untilNone item rounds) (untilNone item fuel) := by
  induction fuel generalizing rounds with
  | zero => intro text found hfound; cases hfound
  | succ fuel ih =>
      obtain ⟨rounds, rfl⟩ : ∃ fewer, rounds = fewer + 1 :=
        ⟨rounds - 1, by omega⟩
      apply Covers.bind
      intro value
      cases value with
      | none => exact id
      | some value => exact Covers.map (ih (Nat.le_of_succ_le_succ hrounds)) _

theorem separated_covers [DecidableEq Symbol] (mark : Reader Symbol Symbol)
    (separator close : Symbol) (item : Reader Symbol α) {fuel rounds : ℕ}
    (hrounds : fuel ≤ rounds) :
    Covers (separated mark separator close item rounds)
      (separated mark separator close item fuel) := by
  induction fuel generalizing rounds with
  | zero => intro text found hfound; cases hfound
  | succ fuel ih =>
      obtain ⟨rounds, rfl⟩ : ∃ fewer, rounds = fewer + 1 :=
        ⟨rounds - 1, by omega⟩
      apply Covers.bind
      intro value
      apply Covers.bind
      intro symbol
      split
      · exact Covers.map (ih (Nat.le_of_succ_le_succ hrounds)) _
      · exact id

theorem separated_covers_item [DecidableEq Symbol] (mark : Reader Symbol Symbol)
    (separator close : Symbol) {wide narrow : Reader Symbol α}
    (hcovers : Covers wide narrow) (fuel : ℕ) :
    Covers (separated mark separator close wide fuel)
      (separated mark separator close narrow fuel) := by
  induction fuel with
  | zero => intro text found hfound; cases hfound
  | succ fuel ih =>
      intro text found hfound
      obtain ⟨value, rest, hvalue, hfound⟩ := bind_eq_some_iff.mp hfound
      rw [separated, bind_apply (hcovers hvalue)]
      revert hfound
      apply Covers.bind
      intro symbol
      split
      · exact Covers.map ih _
      · exact id

theorem bracketed_covers [DecidableEq Symbol] (mark : Reader Symbol Symbol)
    (separator close : Symbol) {wide narrow : Reader Symbol α}
    (hcovers : Covers wide narrow) :
    Covers (bracketed mark separator close wide)
      (bracketed mark separator close narrow) := by
  intro text found hfound
  unfold bracketed at hfound ⊢
  split at hfound
  · cases hfound
  · split at hfound
    · next hclose =>
        rw [if_pos hclose]
        exact hfound
    · next hclose =>
        rw [if_neg hclose]
        exact separated_covers_item mark separator close hcovers _ hfound

/-- Each value between brackets was read off some text. -/
theorem exists_of_separated [DecidableEq Symbol] {mark : Reader Symbol Symbol}
    {separator close : Symbol} {item : Reader Symbol α} {fuel : ℕ}
    {text rest : List Symbol} {values : List α}
    (hread : separated mark separator close item fuel text = some (values, rest))
    {value : α} (hmem : value ∈ values) :
    ∃ before after, item before = some (value, after) := by
  induction fuel generalizing text values with
  | zero => cases hread
  | succ fuel ih =>
      obtain ⟨first, behind, hfirst, hread⟩ := bind_eq_some_iff.mp hread
      obtain ⟨symbol, behind, -, hread⟩ := bind_eq_some_iff.mp hread
      split at hread
      · rw [← bind_pure_comp] at hread
        obtain ⟨others, behind, hothers, hpure⟩ := bind_eq_some_iff.mp hread
        cases hpure
        rcases List.mem_cons.mp hmem with rfl | hrest
        · exact ⟨_, _, hfirst⟩
        · exact ih hothers hrest
      · split at hread
        · cases hread
          rw [List.mem_singleton.mp hmem]
          exact ⟨_, _, hfirst⟩
        · cases hread

theorem exists_of_bracketed [DecidableEq Symbol] {mark : Reader Symbol Symbol}
    {separator close : Symbol} {item : Reader Symbol α} {text rest : List Symbol}
    {values : List α}
    (hread : bracketed mark separator close item text = some (values, rest))
    {value : α} (hmem : value ∈ values) :
    ∃ before after, item before = some (value, after) := by
  unfold bracketed at hread
  split at hread
  · cases hread
  · split at hread
    · cases hread
      cases hmem
    · exact exists_of_separated hread hmem

theorem firm_untilNone {item : Reader Symbol (Option α)} (hitem : Firm item)
    (fuel : ℕ) : Firm (untilNone item fuel) := by
  induction fuel with
  | zero => exact firm_failure
  | succ fuel ih =>
      apply hitem.bind
      intro value
      cases value with
      | none => exact firm_pure []
      | some value => exact ih.map _

/-- A reader of one value that does not see its end is followed by one that
does. -/
theorem Extends.bind_firm {joins : Symbol → Bool} {read : Reader Symbol α}
    {next : α → Reader Symbol β} (hread : Extends joins read)
    (hnext : ∀ value, Firm (next value))
    (htakes : ∀ value, next value [] = none) : Firm (read >>= next) where
  stays hfound := by
    obtain ⟨value, rest, hvalue, hfound⟩ := bind_eq_some_iff.mp hfound
    rw [hread.stays hvalue, htakes value] at hfound
    cases hfound
  append hfound more := by
    obtain ⟨value, rest, hvalue, hfound⟩ := bind_eq_some_iff.mp hfound
    have hrest : rest ≠ [] := by
      intro hnil
      rw [hnil, htakes value] at hfound
      cases hfound
    rw [bind_apply (hread.append hvalue more (.inl hrest))]
    exact (hnext value).append hfound more

theorem firm_separated [DecidableEq Symbol] {mark : Reader Symbol Symbol}
    (hmark : Firm mark) (htakes : mark [] = none) (separator close : Symbol)
    {joins : Symbol → Bool} {item : Reader Symbol α} (hitem : Extends joins item)
    (fuel : ℕ) : Firm (separated mark separator close item fuel) := by
  induction fuel with
  | zero => exact firm_failure
  | succ fuel ih =>
      apply hitem.bind_firm
      · intro value
        apply hmark.bind
        intro symbol
        split
        · exact ih.map _
        · split
          · exact firm_pure [value]
          · exact firm_failure
      · intro value
        have hbind : ∀ after : Symbol → Reader Symbol (List α),
            (mark >>= after) [] = none := by
          intro after
          have happly : (mark >>= after) [] =
              (mark []).bind fun pair => after pair.1 pair.2 := rfl
          rw [happly, htakes, Option.bind_none]
        exact hbind _

theorem firm_bounded {repeats : ℕ → Reader Symbol α}
    (hfirm : ∀ fuel, Firm (repeats fuel))
    (hcovers : ∀ {fuel rounds}, fuel ≤ rounds →
      Covers (repeats rounds) (repeats fuel)) :
    Firm (bounded repeats) where
  stays hread := (hfirm 0).stays hread
  append {text} _ _ hread more := by
    have hlonger : text.length ≤ (text ++ more).length := by
      rw [List.length_append]
      exact Nat.le_add_right _ _
    exact hcovers hlonger ((hfirm text.length).append hread more)

theorem firm_bracketed [DecidableEq Symbol] {mark : Reader Symbol Symbol}
    (hmark : Firm mark) (htakes : mark [] = none) (separator close : Symbol)
    {joins : Symbol → Bool} {item : Reader Symbol α}
    (hitem : Extends joins item) :
    Firm (bracketed mark separator close item) where
  stays hread := by
    rw [bracketed, htakes] at hread
    cases hread
  append {text} _ _ hread more := by
    unfold bracketed at hread ⊢
    split at hread
    · cases hread
    · next symbol rest hfirst =>
        rw [hmark.append hfirst more]
        simp only
        split at hread
        · next hclose => rw [if_pos hclose]; cases hread; rfl
        · next hclose =>
            rw [if_neg hclose]
            exact (firm_bounded (firm_separated hmark htakes separator close hitem)
              (separated_covers mark separator close item)).append hread more

/-! ## Readers that read on as long as they can -/

theorem Extends.bind {joins : Symbol → Bool} {read : Reader Symbol α}
    {next : α → Reader Symbol β} (hread : Extends joins read)
    (hnext : ∀ value, Extends joins (next value)) :
    Extends joins (read >>= next) where
  stays hfound := by
    obtain ⟨value, rest, hvalue, hfound⟩ := bind_eq_some_iff.mp hfound
    rw [hread.stays hvalue] at hfound
    exact (hnext value).stays hfound
  append hfound more hmore := by
    obtain ⟨value, rest, hvalue, hfound⟩ := bind_eq_some_iff.mp hfound
    have hends : rest ≠ [] ∨ Ends joins more := by
      apply hmore.imp_left
      intro hleft hnil
      rw [hnil] at hfound
      exact hleft ((hnext value).stays hfound)
    rw [bind_apply (hread.append hvalue more hends)]
    exact (hnext value).append hfound more hmore

theorem Extends.map {joins : Symbol → Bool} {read : Reader Symbol α}
    (hread : Extends joins read) (convert : α → β) :
    Extends joins (convert <$> read) := by
  rw [← bind_pure_comp]
  exact hread.bind fun value => (firm_pure (convert value)).extends joins

theorem extends_longest {joins keeps : Symbol → Bool}
    (hjoins : ∀ symbol, keeps symbol = true → joins symbol = true) :
    Extends joins (longest keeps) where
  stays hread := by cases hread; rfl
  append {text} _ _ hread more hmore := by
    cases hread
    induction text with
    | nil =>
        have hends := hmore.resolve_left fun hleft => hleft rfl
        cases more with
        | nil => rfl
        | cons symbol more =>
            have hstops : ¬ keeps symbol = true := fun hkeeps =>
              absurd (hjoins symbol hkeeps) (by simp [hends symbol rfl])
            rw [List.nil_append, longest, List.takeWhile_cons_of_neg hstops,
              List.dropWhile_cons_of_neg hstops]
            rfl
    | cons symbol text ih =>
        by_cases hkeeps : keeps symbol = true
        · have htext := ih (by rwa [List.dropWhile_cons_of_pos hkeeps] at hmore)
          simp only [longest, Option.some.injEq, Prod.mk.injEq] at htext
          rw [List.cons_append, longest, List.takeWhile_cons_of_pos hkeeps,
            List.dropWhile_cons_of_pos hkeeps, List.takeWhile_cons_of_pos hkeeps,
            List.dropWhile_cons_of_pos hkeeps, htext.1, htext.2]
        · rw [List.cons_append, longest, List.takeWhile_cons_of_neg hkeeps,
            List.dropWhile_cons_of_neg hkeeps, List.takeWhile_cons_of_neg hkeeps,
            List.dropWhile_cons_of_neg hkeeps, List.cons_append]

theorem extends_optional {joins keeps : Symbol → Bool}
    (hjoins : ∀ symbol, keeps symbol = true → joins symbol = true) :
    Extends joins (optional keeps) where
  stays hread := by cases hread; rfl
  append {text} _ _ hread more hmore := by
    cases text with
    | nil =>
        cases hread
        have hends := hmore.resolve_left fun hleft => hleft rfl
        cases more with
        | nil => rfl
        | cons symbol more =>
            have hstops : ¬ keeps symbol = true := fun hkeeps =>
              absurd (hjoins symbol hkeeps) (by simp [hends symbol rfl])
            rw [List.nil_append, optional, if_neg hstops]
    | cons symbol text =>
        rw [optional] at hread
        rw [List.cons_append, optional]
        split at hread
        · next hkeeps => rw [if_pos hkeeps]; cases hread; rfl
        · next hkeeps => rw [if_neg hkeeps]; cases hread; rfl

/-! ## Reading back what was laid out -/

/-- What a firm reader reads of a text it also reads in front of another. -/
theorem Firm.read {read : Reader Symbol α} (hfirm : Firm read)
    {text : List Symbol} {value : α} (hread : read text = some (value, []))
    (more : List Symbol) : read (text ++ more) = some (value, more) :=
  hfirm.append hread more

theorem Extends.read {joins : Symbol → Bool} {read : Reader Symbol α}
    (hextends : Extends joins read) {text : List Symbol} {value : α}
    (hread : read text = some (value, [])) {more : List Symbol}
    (hmore : Ends joins more) : read (text ++ more) = some (value, more) :=
  hextends.append hread more (.inr hmore)

theorem untilNone_read {item : Reader Symbol (Option α)} (hitem : Firm item)
    (htakes : item [] = none) {shows : α → List Symbol} {last : List Symbol}
    {values : List α}
    (hshows : ∀ value ∈ values, item (shows value) = some (some value, []))
    (hlast : item last = some (none, [])) :
    bounded (untilNone item) (values.flatMap shows ++ last) =
      some (values, []) := by
  have hrounds : ∀ fuel, values.length < fuel →
      untilNone item fuel (values.flatMap shows ++ last) =
        some (values, []) := by
    intro fuel hfuel
    induction values generalizing fuel with
    | nil =>
        obtain ⟨rounds, rfl⟩ : ∃ rounds, fuel = rounds + 1 :=
          ⟨fuel - 1, by rw [List.length_nil] at hfuel; omega⟩
        rw [List.flatMap_nil, List.nil_append, untilNone, bind_apply hlast]
        rfl
    | cons value values ih =>
        obtain ⟨rounds, rfl⟩ : ∃ rounds, fuel = rounds + 1 :=
          ⟨fuel - 1, by rw [List.length_cons] at hfuel; omega⟩
        have hvalue := hshows value List.mem_cons_self
        have hrest := ih (fun other hmem =>
          hshows other (List.mem_cons_of_mem value hmem)) rounds
            (by rw [List.length_cons] at hfuel; omega)
        rw [List.flatMap_cons, List.append_assoc, untilNone,
          bind_apply (hitem.read hvalue _)]
        exact map_apply hrest _
  apply hrounds
  have hne : ∀ {text : List Symbol} {found}, item text = some found →
      0 < text.length := by
    intro text found hfound
    apply List.length_pos_iff.mpr
    rintro rfl
    rw [htakes] at hfound
    cases hfound
  have hlength : values.length ≤ (values.flatMap shows).length := by
    clear hrounds
    induction values with
    | nil => exact Nat.le_refl 0
    | cons value values ih =>
        have hvalue := hne (hshows value List.mem_cons_self)
        have hrest := ih fun other hmem =>
          hshows other (List.mem_cons_of_mem value hmem)
        rw [List.flatMap_cons, List.length_append, List.length_cons]
        omega
  have hend := hne hlast
  rw [List.length_append]
  omega

/-- Texts with a separator between them. -/
def joined (separator : Symbol) : List (List Symbol) → List Symbol
  | [] => []
  | [text] => text
  | text :: texts => text ++ separator :: joined separator texts

theorem joined_cons_cons (separator : Symbol) (text other : List Symbol)
    (texts : List (List Symbol)) :
    joined separator (text :: other :: texts) =
      text ++ separator :: joined separator (other :: texts) := rfl

theorem length_le_joined {separator : Symbol} {texts : List (List Symbol)}
    (hne : ∀ text ∈ texts, text ≠ []) :
    texts.length ≤ (joined separator texts).length := by
  induction texts with
  | nil => exact Nat.le_refl 0
  | cons text texts ih =>
      have htext := List.length_pos_iff.mpr (hne text List.mem_cons_self)
      have hrest := ih fun other hmem => hne other (List.mem_cons_of_mem text hmem)
      cases texts with
      | nil => exact htext
      | cons other texts =>
          have hjoined : (joined separator (text :: other :: texts)).length =
              text.length + ((joined separator (other :: texts)).length + 1) := by
            rw [joined_cons_cons, List.length_append, List.length_cons]
          rw [List.length_cons, hjoined]
          omega

section Brackets
variable [DecidableEq Symbol] {mark : Reader Symbol Symbol}
  {separator close : Symbol} {joins : Symbol → Bool} {item : Reader Symbol α}
  {shows : α → List Symbol}

theorem separated_read (hitem : Extends joins item)
    (hseparates : ∀ rest, mark (separator :: rest) = some (separator, rest))
    (hcloses : ∀ rest, mark (close :: rest) = some (close, rest))
    (hseparator : joins separator = false) (hclose : joins close = false)
    (hdistinct : close ≠ separator) {value : α} {values : List α}
    (hshows : ∀ other ∈ value :: values, item (shows other) = some (other, []))
    {fuel : ℕ} (hfuel : values.length < fuel) :
    separated mark separator close item fuel
        (joined separator ((value :: values).map shows) ++ [close]) =
      some (value :: values, []) := by
  induction values generalizing value fuel with
  | nil =>
      obtain ⟨rounds, rfl⟩ : ∃ rounds, fuel = rounds + 1 :=
        ⟨fuel - 1, by rw [List.length_nil] at hfuel; omega⟩
      have hvalue := hshows value List.mem_cons_self
      rw [List.map_singleton, joined, separated,
        bind_apply (hitem.read hvalue (ends_cons hclose [])),
        bind_apply (hcloses []), if_neg hdistinct, if_pos rfl]
      rfl
  | cons other values ih =>
      obtain ⟨rounds, rfl⟩ : ∃ rounds, fuel = rounds + 1 :=
        ⟨fuel - 1, by rw [List.length_cons] at hfuel; omega⟩
      have hvalue := hshows value List.mem_cons_self
      have hrounds : values.length < rounds := by
        rw [List.length_cons] at hfuel
        omega
      have hrest := ih (fun another hmem =>
        hshows another (List.mem_cons_of_mem value hmem)) hrounds
      rw [List.map_cons, List.map_cons, joined_cons_cons, List.append_assoc,
        List.cons_append, separated,
        bind_apply (hitem.read hvalue (ends_cons hseparator _)),
        bind_apply (hseparates _), if_pos rfl]
      exact map_apply hrest _

theorem bracketed_read (hmark : Firm mark) (htakes : mark [] = none)
    (hitem : Extends joins item)
    (hseparates : ∀ rest, mark (separator :: rest) = some (separator, rest))
    (hcloses : ∀ rest, mark (close :: rest) = some (close, rest))
    (hseparator : joins separator = false) (hclose : joins close = false)
    (hdistinct : close ≠ separator) {values : List α}
    (hshows : ∀ value ∈ values, item (shows value) = some (value, []) ∧
      ∃ symbol rest, mark (shows value) = some (symbol, rest) ∧
        symbol ≠ close) :
    bracketed mark separator close item
        (joined separator (values.map shows) ++ [close]) =
      some (values, []) := by
  cases values with
  | nil =>
      rw [List.map_nil, joined, List.nil_append, bracketed, hcloses]
      exact if_pos rfl
  | cons value values =>
      obtain ⟨-, symbol, rest, hfirst, hopen⟩ := hshows value List.mem_cons_self
      obtain ⟨behind, hbehind⟩ : ∃ behind,
          joined separator ((value :: values).map shows) ++ [close] =
            shows value ++ behind := by
        cases values with
        | nil => exact ⟨[close], rfl⟩
        | cons other values =>
            refine ⟨separator :: joined separator ((other :: values).map shows) ++
              [close], ?_⟩
            rw [List.map_cons, List.map_cons, joined_cons_cons,
              List.append_assoc, ← List.map_cons]
      have hmarked := hmark.append hfirst behind
      rw [← hbehind] at hmarked
      rw [bracketed, hmarked]
      simp only [if_neg hopen]
      apply separated_read hitem hseparates hcloses hseparator hclose hdistinct
        fun other hmem => (hshows other hmem).1
      have hne : ∀ text ∈ (value :: values).map shows, text ≠ [] := by
        intro text hmem hnil
        obtain ⟨other, hother, rfl⟩ := List.mem_map.mp hmem
        obtain ⟨-, symbol, rest, hfirst, -⟩ := hshows other hother
        rw [hnil, htakes] at hfirst
        cases hfirst
      have hlength : ((value :: values).map shows).length ≤
          (joined separator ((value :: values).map shows)).length :=
        length_le_joined hne
      rw [List.length_map, List.length_cons] at hlength
      rw [List.length_append]
      omega

end Brackets

end Reader

end Mandala
