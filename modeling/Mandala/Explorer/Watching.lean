import Mandala.Explorer.Activity

/-!
# An explorer that watches a leader

The announcements of the leader's calls reach the explorer in the order they
were made, but some may be missing: a subscriber that lags loses the oldest.
What the explorer shows is right for what it has heard.
-/

namespace Mandala.Explorer

open Mandala.Brackets Mandala.Data Mandala.Panes Mandala.Server.Activity
  Mandala.Transition
open Mandala.Runner (recent)

/-- The leader's calls, the announcements on their way to the explorer, and the
explorer.  What it has received and what it was asked to do is history. -/
structure Watching where
  handler : Handler
  inflight : List Announcement
  received : List Announcement
  lost : ℕ
  pane : ActivityPane
  followUps : List McpFollowUp

/-- A lagging subscriber loses announcements. -/
inductive WatchLabel where
  | serve (label : HandlerLabel)
  | deliver
  | lose (index : ℕ)

namespace Watching

def new (role : Option ContextRole) (client : Option String) : Watching :=
  { handler := .new
    inflight := []
    received := []
    lost := 0
    pane := .new role client
    followUps := [] }

variable (display : Display) (watching : Watching)

def act : WatchLabel → Option Watching
  | .serve label => (watching.handler.act label).map fun handler =>
      { watching with
        handler
        inflight := watching.inflight ++
          handler.published.drop watching.handler.published.length }
  | .deliver =>
      match watching.inflight with
      | [] => none
      | announcement :: rest =>
          let shown := watching.pane.onMcpActivity display announcement.event
          some
            { watching with
              inflight := rest
              received := watching.received ++ [announcement]
              pane := shown.1
              followUps := watching.followUps ++ shown.2.toList }
  | .lose index =>
      if index < watching.inflight.length then some
        { watching with
          inflight := watching.inflight.eraseIdx index
          lost := watching.lost + 1 }
      else none

end Watching

def WatchStep (display : Display) (before : Watching) (label : WatchLabel)
    (after : Watching) : Prop :=
  before.act display label = some after

def WatchCounts (watching : Watching) : WatchLabel → Prop
  | .serve label => Counts watching.handler label
  | _ => True

section Watched

variable (display : Display) (role : Option ContextRole) (client : Option String)

/-- A call that is not the explorer's own. -/
def foreignCall (call : ToolCall) : Bool :=
  !(ActivityPane.new role client).isOwnCall call.origin

def foreign (announcement : Announcement) : Bool :=
  foreignCall role client announcement.call

/-- The line an announcement leaves in the log. -/
def logged : Announcement → Option McpLogEntry
  | .started _ => none
  | .settled call outcome elapsed => some (shownSettled display call outcome elapsed)

/-- What an announcement asks for. -/
def requested : Announcement → Option McpFollowUp
  | .settled call (.ok answer) _ => requestedBy display call answer
  | _ => none

/-- The invariant: the pane is what the foreign announcements received make. -/
structure Follows (watching : Watching) : Prop where
  kept : Kept watching.handler
  channel : (watching.received ++ watching.inflight).Sublist
    watching.handler.published
  lossless : watching.lost = 0 →
    watching.received ++ watching.inflight = watching.handler.published
  owner : watching.pane.contextRole = role ∧ watching.pane.mcpClient = client
  pending : ∀ seq : ℕ, watching.pane.mcpPending[seq]? =
    (openAfter ((watching.received.filter (foreign role client)).map
      Announcement.mark) seq).map (shownPending display)
  log : watching.pane.mcpLog = recent mcpLogMax
    ((watching.received.filter (foreign role client)).filterMap (logged display))
  scroll : watching.pane.mcpScroll.contentLen = watching.pane.mcpLog.length
  asked : watching.followUps =
    (watching.received.filter (foreign role client)).filterMap (requested display)

variable {display role client}

theorem follows_new : Follows display role client (.new role client) where
  kept := kept_new
  channel := .refl _
  lossless := fun _ => rfl
  owner := ⟨rfl, rfl⟩
  pending := fun _ => Std.TreeMap.getElem?_emptyc
  log := List.drop_nil.symm
  scroll := rfl
  asked := rfl

theorem isOwnCall_eq {pane : ActivityPane} (hrole : pane.contextRole = role)
    (hclient : pane.mcpClient = client) (announcement : Announcement) :
    pane.isOwnCall (announcement.event.getStr "origin") =
      !foreign role client announcement := by
  rw [Announcement.getStr_origin, foreign, foreignCall, Bool.not_not, ActivityPane.isOwnCall,
    hrole, hclient]
  rfl

/-- A step of the leader's only adds announcements. -/
theorem exists_news {before after : Handler} {label : HandlerLabel}
    (hact : before.act label = some after) :
    ∃ news, after.published = before.published ++ news := by
  cases label with
  | enter origin tool args =>
      cases hact
      exact ⟨[], (List.append_nil _).symm⟩
  | announce index =>
      simp only [Handler.act] at hact
      split at hact
      · cases hact
        exact ⟨_, rfl⟩
      · cases hact
  | settle index outcome elapsed ts written =>
      simp only [Handler.act] at hact
      split at hact
      · cases hact
        exact ⟨[], (List.append_nil _).symm⟩
      · cases hact
  | publish index =>
      simp only [Handler.act] at hact
      split at hact
      · cases hact
        exact ⟨_, rfl⟩
      · cases hact
  | abandon index =>
      simp only [Handler.act] at hact
      split at hact
      · cases hact
        exact ⟨[], (List.append_nil _).symm⟩
      · cases hact

variable {watching : Watching}

theorem Follows.serve (hfollows : Follows display role client watching)
    {label : HandlerLabel} (hcounts : Counts watching.handler label)
    {handler : Handler} (hact : watching.handler.act label = some handler) :
    Follows display role client
      { watching with
        handler
        inflight := watching.inflight ++
          handler.published.drop watching.handler.published.length } := by
  obtain ⟨news, hnews⟩ := exists_news hact
  have hdrop : handler.published.drop watching.handler.published.length =
      news := by
    rw [hnews, List.drop_left]
  refine
    { hfollows with
      kept := hfollows.kept.step hcounts hact
      channel := ?_
      lossless := ?_ }
  · change (watching.received ++ (watching.inflight ++ _)).Sublist _
    rw [hdrop, hnews, ← List.append_assoc]
    exact hfollows.channel.append_right news
  · intro hlost
    change watching.received ++ (watching.inflight ++ _) = _
    rw [hdrop, hnews, ← List.append_assoc, hfollows.lossless hlost]

theorem Follows.lose (hfollows : Follows display role client watching)
    (index : ℕ) :
    Follows display role client
      { watching with
        inflight := watching.inflight.eraseIdx index
        lost := watching.lost + 1 } :=
  { hfollows with
    channel := ((List.eraseIdx_sublist _ index).append_left _).trans
      hfollows.channel
    lossless := fun hlost => absurd hlost (Nat.succ_ne_zero _) }

/-- Announcements on their way are of calls of the leader's. -/
theorem Follows.seq_lt (hfollows : Follows display role client watching)
    {announcement : Announcement}
    (hmem : announcement ∈ watching.handler.published) :
    announcement.call.seq < UInt64.size := by
  obtain ⟨phase, hcall⟩ := hfollows.kept.known announcement hmem
  obtain ⟨place, hplace⟩ := List.mem_iff_getElem?.mp hcall
  have hnumber := hfollows.kept.numbered place announcement.call phase hplace
  have hbound := (List.getElem?_eq_some_iff.mp hplace).1
  have hnext := hfollows.kept.next
  have hearlier : announcement.call.seq < watching.handler.nextSeq := by omega
  exact Nat.lt_trans hearlier hfollows.kept.bounded

/-- The pane does with an announcement what following it takes. -/
theorem getElem?_onMcpActivity {pane : ActivityPane} {announcement : Announcement}
    (hseq : announcement.call.seq < UInt64.size)
    (hforeign : pane.isOwnCall (announcement.event.getStr "origin") = false)
    {table : ℕ → Option ToolCall}
    (htable : ∀ seq : ℕ, pane.mcpPending[seq]? =
      (table seq).map (shownPending display)) (seq : ℕ) :
    (pane.onMcpActivity display announcement.event).1.mcpPending[seq]? =
      (track table announcement.mark seq).map (shownPending display) := by
  rw [ActivityPane.onMcpActivity, hforeign, statusOf_event]
  cases announcement with
  | started call =>
      change (pane.start display _).mcpPending[seq]? = _
      rw [ActivityPane.start, seqOf_event hseq, pendingOf_event]
      change (pane.mcpPending.insert call.seq (shownPending display call))[seq]? = _
      rw [Std.TreeMap.getElem?_insert, Announcement.mark, track, htable]
      by_cases hsame : seq = call.seq
      · subst hsame
        simp
      · rw [Function.update_of_ne hsame, if_neg]
        exact fun heq => hsame (Std.LawfulEqCmp.eq_of_compare heq).symm
  | settled call outcome elapsed =>
      have hstatus : (Announcement.settled call outcome elapsed).status ≠ "start" := by
        cases outcome <;> simp [Announcement.status]
      simp only [Bool.false_eq_true, if_false, if_neg hstatus]
      rw [ActivityPane.settle, seqOf_event hseq]
      change (pane.mcpPending.erase call.seq)[seq]? = _
      rw [Std.TreeMap.getElem?_erase, Announcement.mark, track, htable]
      by_cases hsame : seq = call.seq
      · subst hsame
        simp
      · rw [Function.update_of_ne hsame, if_neg]
        exact fun heq => hsame (Std.LawfulEqCmp.eq_of_compare heq).symm

/-- Popping from the front until the log fits keeps the last entries. -/
theorem recent_snoc {A : Type} (cap : ℕ) (entries : List A) (entry : A) :
    recent cap (recent cap entries ++ [entry]) = recent cap (entries ++ [entry]) := by
  rw [recent, recent, recent, List.length_append, List.length_append,
    List.length_drop, List.length_singleton]
  by_cases hfull : cap ≤ entries.length
  · have hall : entries.length - (entries.length - cap) = cap := by omega
    have hjoin : entries.drop (entries.length - cap) ++ [entry] =
        (entries ++ [entry]).drop (entries.length - cap) :=
      (List.drop_append_of_le_length (by omega)).symm
    rw [hall, hjoin, List.drop_drop]
    congr 1
    omega
  · have hnone : entries.length - cap = 0 := by omega
    rw [hnone, List.drop_zero, Nat.sub_zero]

/-- What the pane makes of an announcement, but for what is pending. -/
theorem onMcpActivity_foreign (display : Display) {pane : ActivityPane} {announcement : Announcement}
    (hforeign : pane.isOwnCall (announcement.event.getStr "origin") = false) :
    (pane.onMcpActivity display announcement.event).1.mcpLog =
        (logged display announcement).elim pane.mcpLog
          (fun entry => recent mcpLogMax (pane.mcpLog ++ [entry])) ∧
      (pane.onMcpActivity display announcement.event).1.mcpScroll =
        (logged display announcement).elim pane.mcpScroll
          (fun entry => pane.mcpScroll.updateContent
            (recent mcpLogMax (pane.mcpLog ++ [entry])).length) ∧
      (pane.onMcpActivity display announcement.event).2 =
        requested display announcement := by
  rw [ActivityPane.onMcpActivity, hforeign, statusOf_event]
  cases announcement with
  | started call =>
      change (pane.start display _).mcpLog = _ ∧ (pane.start display _).mcpScroll = _ ∧ _
      rw [ActivityPane.start]
      split <;> exact ⟨rfl, rfl, rfl⟩
  | settled call outcome elapsed =>
      have hstatus : (Announcement.settled call outcome elapsed).status ≠ "start" := by
        cases outcome <;> simp [Announcement.status]
      simp only [Bool.false_eq_true, if_false, if_neg hstatus]
      simp only [ActivityPane.settle, logEntryOf_event, logged, Option.elim_some,
        true_and]
      cases outcome with
      | ok answer => exact followUpOf_event call answer elapsed
      | error error => rfl

theorem filterMap_singleton {A B : Type} (f : A → Option B) (entry : A) :
    [entry].filterMap f = (f entry).toList := by
  cases hentry : f entry <;> simp [hentry]

theorem updateContent_contentLen (scroll : ScrollState) (newLen : ℕ) :
    (scroll.updateContent newLen).contentLen = newLen := by
  rw [ScrollState.updateContent]
  split <;> rfl

theorem onMcpActivity_owner (display : Display) (pane : ActivityPane) (event : Json) :
    (pane.onMcpActivity display event).1.contextRole = pane.contextRole ∧
      (pane.onMcpActivity display event).1.mcpClient = pane.mcpClient := by
  rw [ActivityPane.onMcpActivity]
  split
  · exact ⟨rfl, rfl⟩
  · split
    · rw [ActivityPane.start]
      split <;> exact ⟨rfl, rfl⟩
    · exact ⟨rfl, rfl⟩

theorem Follows.deliver (hfollows : Follows display role client watching)
    {announcement : Announcement} {rest : List Announcement}
    (hinflight : watching.inflight = announcement :: rest) :
    Follows display role client
      { watching with
        inflight := rest
        received := watching.received ++ [announcement]
        pane := (watching.pane.onMcpActivity display announcement.event).1
        followUps := watching.followUps ++
          (watching.pane.onMcpActivity display announcement.event).2.toList } := by
  have hpublished : announcement ∈ watching.handler.published :=
    hfollows.channel.subset (by rw [hinflight]; simp)
  have hcall := isOwnCall_eq hfollows.owner.1 hfollows.owner.2 announcement
  have hmoved : (watching.received ++ [announcement]) ++ rest =
      watching.received ++ watching.inflight := by
    rw [hinflight, List.append_assoc, List.singleton_append]
  have howner := onMcpActivity_owner display watching.pane
    announcement.event
  cases hforeign : foreign role client announcement with
  | false =>
      have hown : watching.pane.isOwnCall (announcement.event.getStr "origin") =
          true := by rw [hcall, hforeign]; rfl
      have hshown : watching.pane.onMcpActivity display announcement.event =
          (watching.pane, none) := by
        rw [ActivityPane.onMcpActivity, if_pos hown]
      have hfilter : (watching.received ++ [announcement]).filter
          (foreign role client) = watching.received.filter (foreign role client) := by
        simp [hforeign]
      rw [hshown]
      exact
        { kept := hfollows.kept
          channel := hmoved ▸ hfollows.channel
          lossless := fun hlost => hmoved.trans (hfollows.lossless hlost)
          owner := hfollows.owner
          pending := by rw [hfilter]; exact hfollows.pending
          log := by rw [hfilter]; exact hfollows.log
          scroll := hfollows.scroll
          asked := by
            rw [hfilter]
            exact (List.append_nil _).trans hfollows.asked }
  | true =>
      have hother : watching.pane.isOwnCall (announcement.event.getStr "origin") =
          false := by rw [hcall, hforeign]; rfl
      have hfilter : (watching.received ++ [announcement]).filter
          (foreign role client) =
            watching.received.filter (foreign role client) ++ [announcement] := by
        simp [hforeign]
      obtain ⟨hlog, hscroll, hasked⟩ := onMcpActivity_foreign display hother
      refine
        { kept := hfollows.kept
          channel := hmoved ▸ hfollows.channel
          lossless := fun hlost => hmoved.trans (hfollows.lossless hlost)
          owner := ⟨howner.1.trans hfollows.owner.1, howner.2.trans hfollows.owner.2⟩
          pending := ?_
          log := ?_
          scroll := ?_
          asked := ?_ }
      · intro seq
        rw [hfilter, List.map_append, List.map_singleton, openAfter_snoc]
        exact getElem?_onMcpActivity (hfollows.seq_lt hpublished) hother
          hfollows.pending seq
      · rw [hfilter, List.filterMap_append, filterMap_singleton]
        refine hlog.trans ?_
        cases hentry : logged display announcement with
        | none =>
            rw [Option.elim_none, Option.toList_none, List.append_nil, hfollows.log]
        | some entry =>
            rw [Option.elim_some, Option.toList_some, hfollows.log, recent_snoc]
      · change (watching.pane.onMcpActivity display _).1.mcpScroll.contentLen =
          (watching.pane.onMcpActivity display _).1.mcpLog.length
        rw [hlog, hscroll]
        cases logged display announcement with
        | none => exact hfollows.scroll
        | some entry =>
            rw [Option.elim_some, Option.elim_some, updateContent_contentLen]
      · change watching.followUps ++
          (watching.pane.onMcpActivity display announcement.event).2.toList = _
        rw [hasked, hfollows.asked, hfilter, List.filterMap_append,
          filterMap_singleton]

theorem Reachable.follows
    (hreach : Reachable (· = Watching.new role client) (WatchStep display)
      WatchCounts watching) :
    Follows display role client watching := by
  refine hreach.invariant (fun _ hnew => hnew ▸ follows_new) ?_
  intro before label after hfollows hcounts hstep
  cases label with
  | serve label =>
      simp only [WatchStep, Watching.act, Option.map_eq_some_iff] at hstep
      obtain ⟨handler, hact, rfl⟩ := hstep
      exact hfollows.serve hcounts hact
  | deliver =>
      simp only [WatchStep, Watching.act] at hstep
      split at hstep
      · cases hstep
      · next announcement rest hinflight =>
          cases hstep
          exact hfollows.deliver hinflight
  | lose index =>
      simp only [WatchStep, Watching.act] at hstep
      split at hstep
      · cases hstep
        exact hfollows.lose index
      · cases hstep

/-- What the explorer shows of the calls it has heard of. -/
structure Watched (display : Display) (role : Option ContextRole)
    (client : Option String) (watching : Watching) : Prop where
  /-- Of each call it has heard some of what was announced, in order. -/
  heard : ∀ call phase, (call, phase) ∈ watching.handler.calls →
    (ofCall call watching.received).Sublist (phase.announcements call)
  /-- Pending are the calls of others heard to start and not to settle. -/
  pending : ∀ (seq : ℕ) entry, watching.pane.mcpPending[seq]? = some entry ↔
    ∃ call, call.seq = seq ∧ foreignCall role client call ∧
      .started call ∈ watching.received ∧
      (∀ outcome elapsed, .settled call outcome elapsed ∉ watching.received) ∧
      entry = shownPending display call
  /-- Once all was heard, these are the ones announced and not yet answered,
  with those that were dropped. -/
  current : watching.lost = 0 → watching.inflight = [] →
    ∀ (seq : ℕ) entry, watching.pane.mcpPending[seq]? = some entry ↔
      ∃ call phase, (call, phase) ∈ watching.handler.calls ∧ call.seq = seq ∧
        foreignCall role client call ∧ phase.announcements call = [.started call] ∧
        entry = shownPending display call
  /-- The log has the last settlements heard, and the view its length. -/
  log : watching.pane.mcpLog = recent mcpLogMax
    ((watching.received.filter (foreign role client)).filterMap (logged display))
  scroll : watching.pane.mcpScroll.contentLen = watching.pane.mcpLog.length
  /-- The explorer is asked for what these settlements ask for, in order. -/
  asked : watching.followUps =
    (watching.received.filter (foreign role client)).filterMap (requested display)

theorem Follows.heard_sublist (hfollows : Follows display role client watching) :
    watching.received.Sublist watching.handler.published :=
  (List.sublist_append_left _ _).trans hfollows.channel

theorem Follows.fresh (hfollows : Follows display role client watching) :
    Fresh ((watching.received.filter (foreign role client)).map
      Announcement.mark) :=
  hfollows.kept.fresh.sublist
    ((List.filter_sublist.trans hfollows.heard_sublist).map _)

theorem mem_opened_iff {announcements : List Announcement} {seq : ℕ}
    {call : ToolCall} :
    Mark.opened seq call ∈
        (announcements.filter (foreign role client)).map Announcement.mark ↔
      call.seq = seq ∧ foreignCall role client call ∧
        .started call ∈ announcements := by
  rw [List.mem_map]
  constructor
  · rintro ⟨announcement, hmem, hmark⟩
    obtain ⟨hmem, hforeign⟩ := List.mem_filter.mp hmem
    cases announcement with
    | started other =>
        cases hmark
        exact ⟨rfl, hforeign, hmem⟩
    | settled other outcome elapsed => cases hmark
  · rintro ⟨rfl, hforeign, hmem⟩
    exact ⟨_, List.mem_filter.mpr ⟨hmem, hforeign⟩, rfl⟩

theorem mem_closed_iff {announcements : List Announcement} {seq : ℕ} :
    Mark.closed seq ∈
        (announcements.filter (foreign role client)).map Announcement.mark ↔
      ∃ call outcome elapsed, call.seq = seq ∧ foreignCall role client call ∧
        .settled call outcome elapsed ∈ announcements := by
  rw [List.mem_map]
  constructor
  · rintro ⟨announcement, hmem, hmark⟩
    obtain ⟨hmem, hforeign⟩ := List.mem_filter.mp hmem
    cases announcement with
    | started other => cases hmark
    | settled call outcome elapsed =>
        cases hmark
        exact ⟨call, outcome, elapsed, rfl, hforeign, hmem⟩
  · rintro ⟨call, outcome, elapsed, rfl, hforeign, hmem⟩
    exact ⟨_, List.mem_filter.mpr ⟨hmem, hforeign⟩, rfl⟩

theorem Follows.pending_iff (hfollows : Follows display role client watching)
    (seq : ℕ) (entry : McpPending) :
    watching.pane.mcpPending[seq]? = some entry ↔
      ∃ call, call.seq = seq ∧ foreignCall role client call ∧
        .started call ∈ watching.received ∧
        (∀ outcome elapsed, .settled call outcome elapsed ∉ watching.received) ∧
        entry = shownPending display call := by
  have hheard := hfollows.heard_sublist
  rw [hfollows.pending, Option.map_eq_some_iff]
  simp only [openAfter_eq_some_iff hfollows.fresh, mem_opened_iff, mem_closed_iff]
  constructor
  · rintro ⟨call, ⟨⟨hseq, hforeign, hstarted⟩, hopen⟩, rfl⟩
    refine ⟨call, hseq, hforeign, hstarted, ?_, rfl⟩
    intro outcome elapsed hsettled
    exact hopen ⟨call, outcome, elapsed, hseq, hforeign, hsettled⟩
  · rintro ⟨call, hseq, hforeign, hstarted, hopen, rfl⟩
    refine ⟨call, ⟨⟨hseq, hforeign, hstarted⟩, ?_⟩, rfl⟩
    rintro ⟨other, outcome, elapsed, hother, -, hsettled⟩
    obtain ⟨phase, hcall⟩ := hfollows.kept.known _ (hheard.subset hstarted)
    obtain ⟨otherPhase, hotherCall⟩ :=
      hfollows.kept.known _ (hheard.subset hsettled)
    obtain ⟨rfl, -⟩ := hfollows.kept.same hotherCall hcall (hother.trans hseq.symm)
    exact hopen outcome elapsed hsettled

/-- What has been announced of a call is what its phase says. -/
theorem mem_published_iff {handler : Handler} (hkept : Kept handler)
    {call : ToolCall} {phase : CallPhase} (hcall : (call, phase) ∈ handler.calls)
    {announcement : Announcement} (hof : announcement.call = call) :
    announcement ∈ handler.published ↔ announcement ∈ phase.announcements call := by
  rw [← hkept.announced call phase hcall, ofCall, List.mem_filter, hof]
  simp

theorem Follows.current (hfollows : Follows display role client watching)
    (hlost : watching.lost = 0) (hinflight : watching.inflight = [])
    (seq : ℕ) (entry : McpPending) :
    watching.pane.mcpPending[seq]? = some entry ↔
      ∃ call phase, (call, phase) ∈ watching.handler.calls ∧ call.seq = seq ∧
        foreignCall role client call ∧ phase.announcements call = [.started call] ∧
        entry = shownPending display call := by
  have hall : watching.received = watching.handler.published := by
    rw [← hfollows.lossless hlost, hinflight, List.append_nil]
  rw [hfollows.pending_iff, hall]
  constructor
  · rintro ⟨call, hseq, hforeign, hstarted, hopen, rfl⟩
    obtain ⟨phase, hcall⟩ : ∃ phase, (call, phase) ∈ watching.handler.calls :=
      hfollows.kept.known _ hstarted
    refine ⟨call, phase, hcall, hseq, hforeign, ?_, rfl⟩
    rw [mem_published_iff hfollows.kept hcall rfl] at hstarted
    cases phase with
    | entered => cases hstarted
    | returned outcome elapsed =>
        refine absurd ?_ (hopen outcome elapsed)
        rw [mem_published_iff hfollows.kept hcall rfl]
        simp [CallPhase.announcements]
    | _ => rfl
  · rintro ⟨call, phase, hcall, hseq, hforeign, hphase, rfl⟩
    refine ⟨call, hseq, hforeign, ?_, ?_, rfl⟩
    · rw [mem_published_iff hfollows.kept hcall rfl, hphase]
      exact List.mem_singleton_self _
    · intro outcome elapsed hsettled
      rw [mem_published_iff hfollows.kept hcall rfl, hphase,
        List.mem_singleton] at hsettled
      cases hsettled

/-- However calls run and whatever the explorer misses, it shows of them what
it has heard. -/
theorem watched_run
    (hreach : Reachable (· = Watching.new role client) (WatchStep display)
      WatchCounts watching) :
    Watched display role client watching := by
  have hfollows := Reachable.follows hreach
  refine ⟨?_, hfollows.pending_iff, hfollows.current, hfollows.log,
    hfollows.scroll, hfollows.asked⟩
  intro call phase hcall
  rw [← hfollows.kept.announced call phase hcall]
  exact hfollows.heard_sublist.filter _

end Watched

/-- One call is answered, one is heard to start, and its end is lost. -/
def watchedCalls : List WatchLabel :=
  [.serve (.enter (some "claude") "ping" []), .serve (.announce 0), .deliver,
    .serve (.enter (some "tui-1") "drift" []), .serve (.announce 1), .deliver,
    .serve (.settle 0 (.ok .null) "0.5" "1.0" true), .serve (.publish 0), .lose 0]

theorem watchCounts_of_few {before : Watching} (hfew : before.handler.nextSeq < 100)
    (label : WatchLabel) : WatchCounts before label := by
  cases label with
  | serve label => exact counts_of_few hfew label
  | _ => trivial

/-- A display for calls without arguments that took half a second. -/
def halfSecond : Display :=
  { json := fun _ => "null", tenths := fun _ => "0.5", floatTruthy := fun _ => true }

theorem watched_calls :
    ∃ watching, watchedCalls.foldlM (Watching.act halfSecond)
        (.new (some .observer) (some "tui-1")) = some watching ∧
      watching.lost = 1 ∧
        Watched halfSecond (some .observer) (some "tui-1") watching := by
  have hact : ∀ before label after,
      (if before.handler.nextSeq < 100 then before.act halfSecond label else none) =
          some after →
        WatchCounts before label ∧ WatchStep halfSecond before label after := by
    intro before label after hact
    split at hact
    · next hfew => exact ⟨watchCounts_of_few hfew label, hact⟩
    · cases hact
  have hnew : Reachable (· = Watching.new (some .observer) (some "tui-1"))
      (WatchStep halfSecond) WatchCounts (.new (some .observer) (some "tui-1")) :=
    .initial rfl
  have hreach := Reachable.foldlM hact hnew
    (show watchedCalls.foldlM _ (Watching.new _ _) = some _ from rfl)
  exact ⟨_, rfl, rfl, watched_run hreach⟩

end Mandala.Explorer
