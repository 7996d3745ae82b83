import Mandala.Core.Transition
import Mandala.Runner.Discovery

/-!
# Scrolling through a bounded buffer

A pane keeps the last lines of its output and shows a window of them.  Where
the window stands is kept as its distance from the tail, which grows with the
buffer while the pane is unpinned.  A full buffer does not grow: what is
appended to it moves the window.
-/

namespace Mandala.Panes

open Mandala.Transition
open Mandala.Runner (pushCapped recent foldl_pushCapped)

/-- `SCROLLBACK_MAX`. -/
def scrollbackMax : ℕ := 8000

structure ScrollState where
  offsetFromTail : ℕ
  follow : Bool
  contentLen : ℕ
  deriving DecidableEq, Repr

namespace ScrollState

/-- The `Default` of the source. -/
def new : ScrollState := { offsetFromTail := 0, follow := true, contentLen := 0 }

def toBottom (scroll : ScrollState) : ScrollState :=
  { scroll with offsetFromTail := 0, follow := true }

def updateContent (scroll : ScrollState) (newLen : ℕ) : ScrollState :=
  let offset :=
    if scroll.follow then 0
    else if scroll.contentLen < newLen then
      scroll.offsetFromTail + (newLen - scroll.contentLen)
    else scroll.offsetFromTail
  let updated : ScrollState :=
    { scroll with contentLen := newLen, offsetFromTail := min offset (newLen - 1) }
  if newLen = 0 then updated.toBottom else updated

theorem updateContent_following {scroll : ScrollState} (hfollow : scroll.follow)
    (newLen : ℕ) :
    scroll.updateContent newLen =
      { offsetFromTail := 0, follow := true, contentLen := newLen } := by
  simp [updateContent, toBottom, hfollow]

/-- The distance grows with the content. -/
theorem updateContent_unpinned {scroll : ScrollState} {newLen : ℕ}
    (hfollow : scroll.follow = false)
    (hoffset : scroll.offsetFromTail < scroll.contentLen)
    (hgrows : scroll.contentLen ≤ newLen) :
    scroll.updateContent newLen =
      { offsetFromTail := scroll.offsetFromTail + (newLen - scroll.contentLen)
        follow := false, contentLen := newLen } := by
  have hpositive : newLen ≠ 0 := by omega
  have hdistance :
      (if scroll.contentLen < newLen then
          scroll.offsetFromTail + (newLen - scroll.contentLen)
        else scroll.offsetFromTail) =
        scroll.offsetFromTail + (newLen - scroll.contentLen) := by
    split_ifs <;> omega
  have hclamp : min (scroll.offsetFromTail + (newLen - scroll.contentLen))
      (newLen - 1) = scroll.offsetFromTail + (newLen - scroll.contentLen) := by
    omega
  simp only [updateContent, hfollow, Bool.false_eq_true, if_false, hdistance, hclamp,
    if_neg hpositive]

/-- The end of `scroll_up`, `scroll_down` and `to_top`. -/
def moveTo (scroll : ScrollState) (offset : ℕ) : ScrollState :=
  { scroll with offsetFromTail := offset, follow := offset = 0 }

def scrollUp (scroll : ScrollState) (lines viewport : ℕ) : ScrollState :=
  let maximum := scroll.contentLen - max viewport 1
  scroll.moveTo (min (scroll.offsetFromTail + lines) maximum)

def scrollDown (scroll : ScrollState) (lines : ℕ) : ScrollState :=
  scroll.moveTo (scroll.offsetFromTail - lines)

def toTop (scroll : ScrollState) (viewport : ℕ) : ScrollState :=
  scroll.moveTo (scroll.contentLen - max viewport 1)

/-- The end of the window, behind its last line. -/
def stop (scroll : ScrollState) : ℕ :=
  scroll.contentLen - scroll.offsetFromTail

def visibleRange (scroll : ScrollState) (viewport : ℕ) : ℕ × ℕ :=
  (scroll.stop - viewport, scroll.stop)

end ScrollState

/-! ## A pane -/

variable {A : Type}

structure Pane (A : Type) where
  lines : List A
  scroll : ScrollState
  /-- Every line there has been. -/
  all : List A

namespace Pane

def new : Pane A := { lines := [], scroll := .new, all := [] }

/-- Lines are pushed, and then the scroll state is told: `push_line` does it
with one line, a poll with those it has read. -/
def append (pane : Pane A) (batch : List A) : Pane A :=
  let lines := batch.foldl (pushCapped · · scrollbackMax) pane.lines
  { lines, scroll := pane.scroll.updateContent lines.length, all := pane.all ++ batch }

def pushLine (pane : Pane A) (line : A) : Pane A :=
  pane.append [line]

def visible (pane : Pane A) (viewport : ℕ) : List A :=
  let range := pane.scroll.visibleRange viewport
  (pane.lines.take range.2).drop range.1

/-- How many lines the buffer has dropped. -/
def evicted (pane : Pane A) : ℕ :=
  pane.all.length - pane.lines.length

end Pane

inductive Move (A : Type) where
  | append (batch : List A)
  | scrollUp (lines : ℕ)
  | scrollDown (lines : ℕ)
  | toTop
  | toBottom

def Pane.act (viewport : ℕ) (pane : Pane A) : Move A → Pane A
  | .append batch => pane.append batch
  | .scrollUp lines => { pane with scroll := pane.scroll.scrollUp lines viewport }
  | .scrollDown lines => { pane with scroll := pane.scroll.scrollDown lines }
  | .toTop => { pane with scroll := pane.scroll.toTop viewport }
  | .toBottom => { pane with scroll := pane.scroll.toBottom }

def Step (viewport : ℕ) (before : Pane A) (move : Move A) (after : Pane A) : Prop :=
  before.act viewport move = after

/-! ## What a pane promises -/

/-- The window is in the buffer, and a following one at its end. -/
structure WellPlaced (viewport : ℕ) (pane : Pane A) : Prop where
  ordered : (pane.scroll.visibleRange viewport).1 ≤ (pane.scroll.visibleRange viewport).2
  within : (pane.scroll.visibleRange viewport).2 ≤ pane.lines.length
  follow_iff : pane.scroll.follow ↔ pane.scroll.offsetFromTail = 0
  tail : pane.scroll.follow → (pane.scroll.visibleRange viewport).2 = pane.lines.length

def Appends (allowed : Pane A → Move A → Prop) (before after : Pane A) : Prop :=
  ∃ batch, allowed before (.append batch) ∧ before.append batch = after

/-- Unpinned, a pane shows the same lines after any number of appends, unless
one of these lines has been evicted. -/
def HoldsPosition (allowed : Pane A → Move A → Prop) (viewport : ℕ)
    (pane : Pane A) : Prop :=
  ∀ after, Relation.ReflTransGen (Appends allowed) pane after →
    pane.scroll.follow = false →
    after.evicted ≤ pane.evicted + (pane.scroll.visibleRange viewport).1 →
    after.visible viewport = pane.visible viewport

/-- Unpinned, a pane is appended to only while the buffer has room, or where a
visible line is evicted. -/
def RoomWhileUnpinned (viewport : ℕ) (pane : Pane A) : Move A → Prop
  | .append batch =>
      pane.scroll.follow ∨ pane.lines.length + batch.length ≤ scrollbackMax ∨
        scrollbackMax + (pane.scroll.visibleRange viewport).1 <
          pane.lines.length + batch.length
  | _ => True

/-! ## What every run keeps -/

structure Kept (pane : Pane A) : Prop where
  lines : pane.lines = recent scrollbackMax pane.all
  content : pane.scroll.contentLen = pane.lines.length
  follow_iff : pane.scroll.follow ↔ pane.scroll.offsetFromTail = 0
  offset_lt : pane.scroll.offsetFromTail = 0 ∨
    pane.scroll.offsetFromTail < pane.scroll.contentLen

variable {pane : Pane A}

theorem kept_new : Kept (.new : Pane A) where
  lines := by simp [Pane.new, recent]
  content := rfl
  follow_iff := iff_of_true rfl rfl
  offset_lt := .inl rfl

theorem Kept.length_lines (hkept : Kept pane) :
    pane.lines.length = min scrollbackMax pane.all.length := by
  rw [hkept.lines, recent, List.length_drop]
  omega

theorem Kept.evicted_eq (hkept : Kept pane) :
    pane.evicted = pane.all.length - scrollbackMax := by
  rw [Pane.evicted, hkept.length_lines]
  omega

theorem Kept.lines_append (hkept : Kept pane) (batch : List A) :
    (pane.append batch).lines = recent scrollbackMax (pane.all ++ batch) := by
  change batch.foldl (pushCapped · · scrollbackMax) pane.lines = _
  rw [hkept.lines, foldl_pushCapped (by decide)]

theorem Kept.length_append (hkept : Kept pane) (batch : List A) :
    (pane.append batch).lines.length =
      min scrollbackMax (pane.lines.length + batch.length) := by
  rw [hkept.lines_append, recent, List.length_drop, List.length_append,
    hkept.length_lines]
  omega

theorem Kept.moveTo (hkept : Kept pane) {offset : ℕ}
    (hoffset : offset = 0 ∨ offset < pane.scroll.contentLen) :
    Kept { pane with scroll := pane.scroll.moveTo offset } where
  lines := hkept.lines
  content := hkept.content
  follow_iff := decide_eq_true_iff
  offset_lt := hoffset

theorem Kept.offset_lt_of_unpinned (hkept : Kept pane)
    (hfollow : pane.scroll.follow = false) :
    pane.scroll.offsetFromTail < pane.scroll.contentLen ∧
      0 < pane.scroll.offsetFromTail := by
  have hnot : pane.scroll.offsetFromTail ≠ 0 := fun hzero => by
    rw [hkept.follow_iff.mpr hzero] at hfollow
    contradiction
  exact ⟨hkept.offset_lt.resolve_left hnot, Nat.pos_of_ne_zero hnot⟩

theorem Kept.length_le_append (hkept : Kept pane) (batch : List A) :
    pane.scroll.contentLen ≤ (pane.append batch).lines.length := by
  have hlength := hkept.length_lines
  rw [hkept.length_append, hkept.content]
  omega

theorem Kept.scroll_append_unpinned (hkept : Kept pane)
    (hfollow : pane.scroll.follow = false) (batch : List A) :
    (pane.append batch).scroll =
      { offsetFromTail := pane.scroll.offsetFromTail +
          ((pane.append batch).lines.length - pane.scroll.contentLen)
        follow := false, contentLen := (pane.append batch).lines.length } :=
  ScrollState.updateContent_unpinned hfollow (hkept.offset_lt_of_unpinned hfollow).1
    (hkept.length_le_append batch)

/-- The buffer never shrinks, so an unpinned pane never comes to its tail by an
append. -/
theorem Kept.append (hkept : Kept pane) (batch : List A) :
    Kept (pane.append batch) := by
  have hgrows := hkept.length_le_append batch
  cases hfollow : pane.scroll.follow with
  | true =>
      have hscroll : (pane.append batch).scroll =
          { offsetFromTail := 0, follow := true
            contentLen := (pane.append batch).lines.length } :=
        ScrollState.updateContent_following hfollow _
      refine ⟨hkept.lines_append batch, ?_, ?_, ?_⟩ <;> rw [hscroll]
      · exact iff_of_true rfl rfl
      · exact .inl rfl
  | false =>
      have hscroll := hkept.scroll_append_unpinned hfollow batch
      obtain ⟨hoffset, hpositive⟩ := hkept.offset_lt_of_unpinned hfollow
      refine ⟨hkept.lines_append batch, ?_, ?_, ?_⟩ <;> rw [hscroll]
      · exact iff_of_false Bool.false_ne_true (by dsimp only; omega)
      · right
        dsimp only
        omega

theorem Kept.act (hkept : Kept pane) (viewport : ℕ) (move : Move A) :
    Kept (pane.act viewport move) := by
  cases move with
  | append batch => exact hkept.append batch
  | scrollUp lines =>
      have hoffset := hkept.offset_lt
      exact hkept.moveTo (by omega)
  | scrollDown lines =>
      have hoffset := hkept.offset_lt
      exact hkept.moveTo (by omega)
  | toTop => exact hkept.moveTo (by omega)
  | toBottom =>
      exact ⟨hkept.lines, hkept.content, iff_of_true rfl rfl, .inl rfl⟩

theorem Kept.wellPlaced (hkept : Kept pane) (viewport : ℕ) :
    WellPlaced viewport pane := by
  have hcontent := hkept.content
  constructor
  · exact Nat.sub_le _ _
  · exact (Nat.sub_le _ _).trans hcontent.le
  · exact hkept.follow_iff
  · intro hfollow
    rw [ScrollState.visibleRange, ScrollState.stop, hkept.follow_iff.mp hfollow]
    exact hcontent

/-- The window over all lines there have been. -/
theorem Kept.visible_eq (hkept : Kept pane) (viewport : ℕ) :
    pane.visible viewport =
      (pane.all.take (pane.evicted + (pane.scroll.visibleRange viewport).2)).drop
        (pane.evicted + (pane.scroll.visibleRange viewport).1) := by
  rw [Pane.visible, hkept.evicted_eq, hkept.lines, recent, List.take_drop,
    List.drop_drop]

/-- With room in the buffer an append leaves an unpinned window where it is. -/
theorem Kept.position_append (hkept : Kept pane)
    (hfollow : pane.scroll.follow = false) {batch : List A}
    (hroom : pane.lines.length + batch.length ≤ scrollbackMax) :
    (pane.append batch).evicted = pane.evicted ∧
      (pane.append batch).scroll.stop = pane.scroll.stop := by
  have hlength := hkept.length_lines
  have hcontent := hkept.content
  have hafter := hkept.length_append batch
  have hall : (pane.append batch).all.length = pane.all.length + batch.length :=
    List.length_append
  constructor
  · rw [hkept.evicted_eq, (hkept.append batch).evicted_eq, hall]
    omega
  · rw [ScrollState.stop, ScrollState.stop, hkept.scroll_append_unpinned hfollow]
    dsimp only
    omega

/-- What a sequence of appends does to an unpinned window. -/
structure Held (viewport : ℕ) (pane after : Pane A) : Prop where
  kept : Kept after
  evicted_le : pane.evicted ≤ after.evicted
  isPrefix : pane.all <+: after.all
  stays : pane.scroll.follow = false →
    after.evicted ≤ pane.evicted + (pane.scroll.visibleRange viewport).1 →
    after.scroll.follow = false ∧ after.evicted = pane.evicted ∧
      after.scroll.stop = pane.scroll.stop

theorem Held.append {viewport : ℕ} {middle : Pane A}
    (hheld : Held viewport pane middle) {batch : List A}
    (hroom : RoomWhileUnpinned viewport middle (.append batch)) :
    Held viewport pane (middle.append batch) := by
  have hkept := hheld.kept
  have hafter := hkept.append batch
  have hall : (middle.append batch).all.length = middle.all.length + batch.length :=
    List.length_append
  have hevicted : middle.evicted ≤ (middle.append batch).evicted := by
    rw [hkept.evicted_eq, hafter.evicted_eq, hall]
    omega
  refine ⟨hafter, hheld.evicted_le.trans hevicted,
    hheld.isPrefix.trans (List.prefix_append _ _), ?_⟩
  intro hfollow hvisible
  obtain ⟨hmiddle, hsame, hstop⟩ := hheld.stays hfollow (hevicted.trans hvisible)
  rcases hroom with hpinned | hfits | hevicts
  · rw [hmiddle] at hpinned
    contradiction
  · obtain ⟨hsame', hstop'⟩ := hkept.position_append hmiddle hfits
    refine ⟨?_, hsame'.trans hsame, hstop'.trans hstop⟩
    rw [hkept.scroll_append_unpinned hmiddle]
  · -- the first visible line is evicted
    have hlength := hkept.length_lines
    rw [hafter.evicted_eq, hall, ← hsame, hkept.evicted_eq] at hvisible
    rw [ScrollState.visibleRange, hstop] at hevicts
    change _ ≤ _ + (pane.scroll.stop - viewport) at hvisible
    dsimp only at hevicts
    omega

theorem Kept.held (hkept : Kept pane) {viewport : ℕ} {after : Pane A}
    (happends : Relation.ReflTransGen (Appends (RoomWhileUnpinned viewport)) pane after) :
    Held viewport pane after := by
  induction happends with
  | refl => exact ⟨hkept, le_rfl, List.prefix_rfl, fun hfollow _ => ⟨hfollow, rfl, rfl⟩⟩
  | tail _ hlast ih =>
      obtain ⟨batch, hroom, rfl⟩ := hlast
      exact ih.append hroom

theorem Kept.holdsPosition (hkept : Kept pane) (viewport : ℕ) :
    HoldsPosition (RoomWhileUnpinned viewport) viewport pane := by
  intro after happends hfollow hvisible
  have hheld := hkept.held happends
  obtain ⟨-, hevicted, hstop⟩ := hheld.stays hfollow hvisible
  obtain ⟨more, hmore⟩ := hheld.isPrefix
  have hwithin : pane.evicted + (pane.scroll.visibleRange viewport).2 ≤
      pane.all.length := by
    have hplaced := (hkept.wellPlaced viewport).within
    have hlength := hkept.length_lines
    rw [hkept.evicted_eq]
    omega
  have hrange : after.scroll.visibleRange viewport = pane.scroll.visibleRange viewport := by
    rw [ScrollState.visibleRange, ScrollState.visibleRange, hstop]
  rw [hheld.kept.visible_eq, hkept.visible_eq, hevicted, hrange, ← hmore,
    List.take_append_of_le_length hwithin]

/-- In every run that appends to an unpinned pane only what the buffer has room
for, the window is well placed and, unpinned, holds its position. -/
theorem scrollback_holds (viewport : ℕ) {pane : Pane A}
    (hreach : Reachable (· = .new) (Step viewport) (RoomWhileUnpinned viewport) pane) :
    WellPlaced viewport pane ∧
      HoldsPosition (RoomWhileUnpinned viewport) viewport pane := by
  have hkept : Kept pane := by
    apply hreach.invariant
    · rintro start rfl
      exact kept_new
    · rintro before move after hbefore - rfl
      exact hbefore.act viewport move
  exact ⟨hkept.wellPlaced viewport, hkept.holdsPosition viewport⟩

theorem scrollback_holds_short :
    WellPlaced 1 ((Pane.new.append [1, 2, 3]).act 1 (.scrollUp 1)) ∧
      HoldsPosition (RoomWhileUnpinned 1) 1
        ((Pane.new.append [1, 2, 3]).act 1 (.scrollUp 1)) := by
  have hstart : Reachable (· = (.new : Pane ℕ)) (Step 1) (RoomWhileUnpinned 1) .new :=
    .initial rfl
  have happend : RoomWhileUnpinned 1 (.new : Pane ℕ) (.append [1, 2, 3]) := .inl rfl
  have hscroll : RoomWhileUnpinned 1 ((.new : Pane ℕ).append [1, 2, 3]) (.scrollUp 1) :=
    trivial
  exact scrollback_holds 1 ((hstart.step happend rfl).step hscroll rfl)

/-- At the cap the distance stays and the lines move on: the window ends one
line later. -/
theorem Kept.position_append_full (hkept : Kept pane)
    (hfollow : pane.scroll.follow = false) (line : A)
    (hfull : pane.lines.length = scrollbackMax) :
    (pane.pushLine line).evicted = pane.evicted + 1 ∧
      (pane.pushLine line).scroll.stop = pane.scroll.stop := by
  have hlength := hkept.length_lines
  have hcontent := hkept.content
  have hafter := hkept.length_append [line]
  have hall : (pane.append [line]).all.length = pane.all.length + 1 :=
    List.length_append
  constructor
  · rw [hkept.evicted_eq, Pane.pushLine, (hkept.append _).evicted_eq, hall]
    omega
  · rw [ScrollState.stop, ScrollState.stop, Pane.pushLine,
      hkept.scroll_append_unpinned hfollow]
    dsimp only
    rw [hafter, hcontent, hfull]
    omega

/-- A pane with these lines, scrolled up by one. -/
def scrolledUp (lines : List A) : Pane A :=
  (Pane.new.append lines).act 1 (.scrollUp 1)

theorem kept_scrolledUp (lines : List A) : Kept (scrolledUp lines) :=
  (kept_new.append lines).act 1 (.scrollUp 1)

theorem reachable_scrolledUp (lines : List A) :
    Reachable (· = .new) (Step 1) anyStep (scrolledUp lines) := by
  have hstart : Reachable (· = (.new : Pane A)) (Step 1) anyStep .new := .initial rfl
  have happend : Step 1 .new (.append lines) (Pane.new.append lines) := rfl
  have hscroll : Step 1 (Pane.new.append lines) (.scrollUp 1) (scrolledUp lines) := rfl
  exact (hstart.step trivial happend).step trivial hscroll

/-- A full buffer, seen from one line above the tail. -/
theorem scroll_scrolledUp {lines : List A} (hlength : lines.length = scrollbackMax) :
    (scrolledUp lines).scroll =
      { offsetFromTail := 1, follow := false, contentLen := 8000 } := by
  have hkept := (@kept_new A).length_append lines
  have hbuffer : (Pane.new.append lines).lines.length = scrollbackMax := by
    rw [hkept, hlength]
    exact Nat.min_eq_left (Nat.le_add_left _ _)
  have hfollowing : (Pane.new.append lines).scroll =
      { offsetFromTail := 0, follow := true
        contentLen := (Pane.new.append lines).lines.length } :=
    ScrollState.updateContent_following rfl _
  rw [scrolledUp, Pane.act, hfollowing, hbuffer]
  rfl

/-- The one visible line. -/
theorem visible_one (hkept : Kept pane) (hstop : 0 < pane.scroll.stop) :
    (pane.visible 1).head? = pane.all[pane.evicted + (pane.scroll.stop - 1)]? := by
  have hlt : pane.evicted + (pane.scroll.stop - 1) <
      pane.evicted + pane.scroll.stop := by omega
  rw [hkept.visible_eq, List.head?_drop]
  exact List.getElem?_take_of_lt hlt

/-- One more line on a full buffer, and the window shows another one, though
none of its lines has been evicted. -/
theorem not_scrollback_holds :
    ¬ ∀ (viewport : ℕ) (pane : Pane ℕ),
      Reachable (· = .new) (Step viewport) anyStep pane →
        WellPlaced viewport pane ∧ HoldsPosition anyStep viewport pane := by
  intro hall
  obtain ⟨lines, hlines⟩ : ∃ lines, lines = List.range scrollbackMax := ⟨_, rfl⟩
  have hlength : lines.length = scrollbackMax := by rw [hlines, List.length_range]
  have hkept := kept_scrolledUp lines
  have hscroll := scroll_scrolledUp hlength
  have hall' : (scrolledUp lines).all = lines := List.nil_append _
  have hunpinned : (scrolledUp lines).scroll.follow = false := by rw [hscroll]
  have hnone : (scrolledUp lines).evicted = 0 := by
    rw [hkept.evicted_eq, hall', hlength, Nat.sub_self]
  have hfull : (scrolledUp lines).lines.length = scrollbackMax := by
    rw [hkept.length_lines, hall', hlength, min_self]
  have hstop : (scrolledUp lines).scroll.stop = 7999 := by rw [hscroll]; rfl
  obtain ⟨hevicted, hstop'⟩ := hkept.position_append_full hunpinned 8000 hfull
  have hsame := (hall 1 _ (reachable_scrolledUp lines)).2 ((scrolledUp lines).pushLine 8000)
    (.single ⟨[8000], trivial, rfl⟩) hunpinned (by
      rw [hevicted, hnone, ScrollState.visibleRange, hstop]
      decide)
  have hfirst := congrArg List.head? hsame
  have hmore : ((scrolledUp lines).pushLine 8000).all = lines ++ [8000] := by
    rw [← hall']
    rfl
  have hpushed : Kept ((scrolledUp lines).pushLine 8000) := hkept.append [8000]
  rw [visible_one hkept (by rw [hstop]; decide),
    visible_one hpushed (by rw [hstop', hstop]; decide),
    hmore, hall', hstop', hstop, hevicted, hnone,
    List.getElem?_append_left (by rw [hlength]; decide), hlines,
    List.getElem?_range (by decide), List.getElem?_range (by decide)] at hfirst
  injection hfirst with hfirst
  contradiction

end Mandala.Panes
