import Mandala.Explorer.Refresh
import Mandala.Explorer.Selection
import Mandala.Fleet.SelectorAlgebra
import Mandala.Fleet.Taxonomy
import Mandala.Server.DriftEvidence

/-!
# What the highlighted rows deploy

Each tab has a table of its own.  The rows highlighted on the tab in front are
joined into a selector, a group spelled apart from a member of the same name,
and the selector resolves to what those rows stand for.
-/

namespace Mandala.Explorer

open Mandala.Data Mandala.Drift Mandala.Fleet Mandala.Ordering Mandala.Text
open Mandala.Server (plainReading)

inductive Tab where
  | members
  | groups
  | drift
  deriving DecidableEq, Repr

/-- The state with the tables of the tabs. -/
structure Browsing where
  state : AppState
  tab : Tab
  membersTable : SelectTable
  groupsTable : SelectTable
  driftTable : SelectTable

namespace Browsing

def new : Browsing :=
  { state := .new
    tab := .members
    membersTable := .empty
    groupsTable := .empty
    driftTable := .empty }

variable (browsing : Browsing)

def table : Tab → SelectTable
  | .members => browsing.membersTable
  | .groups => browsing.groupsTable
  | .drift => browsing.driftTable

def setTable (table : SelectTable) : Tab → Browsing
  | .members => { browsing with membersTable := table }
  | .groups => { browsing with groupsTable := table }
  | .drift => { browsing with driftTable := table }

/-- `active_table`. -/
def activeTable : SelectTable := browsing.table browsing.tab

/-- `target`. -/
def target : Option String :=
  let selected := browsing.activeTable.selectedNames
  if selected ≠ [] then some (",".intercalate selected)
  else browsing.activeTable.cursorName

/-- `deploy_target`: rows of the groups tab are spelled as groups. -/
def deployTarget : Option String :=
  browsing.target.map fun target =>
    if browsing.tab ≠ .groups then target
    else
      ",".intercalate ((target.toList.splitOnP (· = ',')).map fun group =>
        "@" ++ String.ofList group)

/-- The drift table is filled again with every repaint. -/
def repaint (state : AppState) : Browsing :=
  { browsing with
    state
    driftTable := .resetRows (state.driftRows.map DriftRow.name) }

section Refills

variable (reading : Reading)

/-- `fill`, with the tables it resets. -/
def fill (loaded : LoadedInventory) (snapshots : BTreeMap Snapshot) (now : Int) :
    Browsing :=
  let state := (browsing.state.fill reading loaded snapshots now).1
  { browsing.repaint state with
    membersTable := .resetRows (state.memberRows.map MemberRow.name)
    groupsTable := .resetRows (state.groupRows.map GroupRow.name) }

def onDriftEvalFinished (result : Except String (Option String × Toplevels))
    (snapshots : BTreeMap Snapshot) (now : Int) : Browsing :=
  browsing.repaint (browsing.state.onDriftEvalFinished reading result snapshots now).1

def onSurveyDone (n : ℕ) (rc : Int) (error : Option String)
    (snapshots : BTreeMap Snapshot) (now : Int) : Browsing :=
  browsing.repaint (browsing.state.onSurveyDone reading n rc error snapshots now)

def onMcpDriftLanded (rev cachedRev : Option String) (cached : BTreeMap String)
    (snapshots : BTreeMap Snapshot) (now : Int) : Browsing :=
  browsing.repaint
    (browsing.state.onMcpDriftLanded reading rev cachedRev cached snapshots now)

end Refills

end Browsing

/-! ## Sessions -/

inductive Operation where
  /-- An operation on the table in front. -/
  | table (operation : TableOp)
  | switchTab (tab : Tab)
  | fill (loaded : LoadedInventory) (snapshots : BTreeMap Snapshot) (now : Int)
  | driftEvalFinished (result : Except String (Option String × Toplevels))
      (snapshots : BTreeMap Snapshot) (now : Int)
  | surveyDone (n : ℕ) (rc : Int) (error : Option String)
      (snapshots : BTreeMap Snapshot) (now : Int)
  | mcpDriftLanded (rev cachedRev : Option String) (cached : BTreeMap String)
      (snapshots : BTreeMap Snapshot) (now : Int)

/-- The tables, with the history of each since it was filled. -/
structure Session where
  browsing : Browsing
  past : Tab → History

def Session.start : Session :=
  { browsing := .new, past := fun _ => [] }

section Running

variable (reading : Reading)

def Session.act (session : Session) : Operation → Session
  | .table operation =>
      let browsing := session.browsing
      { browsing :=
          browsing.setTable (operation.apply browsing.activeTable) browsing.tab
        past := Function.update session.past browsing.tab
          (operation.record browsing.activeTable (session.past browsing.tab)) }
  | .switchTab tab =>
      { session with browsing := { session.browsing with tab } }
  | .fill loaded snapshots now =>
      { browsing := session.browsing.fill reading loaded snapshots now
        past := fun _ => [] }
  | .driftEvalFinished result snapshots now =>
      { browsing :=
          session.browsing.onDriftEvalFinished reading result snapshots now
        past := Function.update session.past .drift [] }
  | .surveyDone n rc error snapshots now =>
      { browsing := session.browsing.onSurveyDone reading n rc error snapshots now
        past := Function.update session.past .drift [] }
  | .mcpDriftLanded rev cachedRev cached snapshots now =>
      { browsing :=
          session.browsing.onMcpDriftLanded reading rev cachedRev cached snapshots
            now
        past := Function.update session.past .drift [] }

def Session.run (operations : List Operation) : Session :=
  operations.foldl (Session.act reading) .start

end Running

/-! ## What a session can be relied on for -/

/-- What the aggregate and its deploy projection are written with. -/
structure Emitted (inventory : Inventory) : Prop where
  filled : ∀ (group : String) (names : List String),
    inventory.groups[group]? = some names → names ≠ []
  named : ∀ group : String, inventory.groups[group]? ≠ none →
    ∀ character ∈ group.toList, isGroupChar character
  nodes : ∀ node ∈ deployNodesOf inventory, inventory.IsMember node

/-- The inventory a fill brings in is one that is emitted. -/
def Operation.Emits : Operation → Prop
  | .fill loaded _ _ => Emitted loaded.inventory
  | _ => True

/-- A row of a tab stands for a member. -/
def StandsFor (inventory : Inventory) (tab : Tab) (row name : String) : Prop :=
  match tab with
  | .groups => ∃ names, inventory.groups[row]? = some names ∧ name ∈ names
  | .members | .drift => name = row

/-- A row is highlighted: it is selected, or the cursor is on it and none is. -/
def Marked (table : SelectTable) (past : History) (row : String) : Prop :=
  Applied table.names past row ∨
    (∀ other, ¬ Applied table.names past other) ∧
      table.names[table.cursor]? = some row

/-- What an operator sees, and what a deploy is started with. -/
structure Highlighted (session : Session) : Prop where
  cursor : ∀ tab, (session.browsing.table tab).names ≠ [] →
    (session.browsing.table tab).cursor <
      (session.browsing.table tab).names.length
  applied : ∀ tab name, (session.browsing.table tab).isSelected name = true ↔
    Applied (session.browsing.table tab).names (session.past tab) name
  /-- The selected names, in the order of the table. -/
  inOrder : ∀ tab (keep : String → Bool),
    (∀ name ∈ (session.browsing.table tab).names, keep name = true ↔
      Applied (session.browsing.table tab).names (session.past tab) name) →
    (session.browsing.table tab).selectedNames =
      (session.browsing.table tab).names.filter keep
  untargeted : session.browsing.activeTable.names = [] →
    session.browsing.deployTarget = none
  targeted : ∀ inventory, session.browsing.state.inventory = some inventory →
    session.browsing.activeTable.names ≠ [] →
      ∃ selector names, session.browsing.deployTarget = some selector ∧
        inventory.resolve selector = .ok names ∧ Ordered names ∧
        ∀ name, name ∈ names ↔ ∃ row,
          Marked session.browsing.activeTable (session.past session.browsing.tab)
            row ∧
          StandsFor inventory session.browsing.tab row name
  /-- Rows are only shown of an inventory. -/
  loaded : session.browsing.state.inventory = none →
    session.browsing.activeTable.names = []

/-! ## Rows and their atoms -/

/-- How a row is spelled in a selector. -/
def atomOf (tab : Tab) (row : String) : String :=
  match tab with
  | .groups => "@" ++ row
  | .members | .drift => row

/-- A row of a tab is one of the inventory. -/
def RowOf (inventory : Inventory) (tab : Tab) (row : String) : Prop :=
  match tab with
  | .groups => inventory.groups[row]? ≠ none
  | .members | .drift => inventory.IsMember row

section Rows

variable {inventory : Inventory} {tab : Tab} {row name : String}

theorem plainAtom_group (hchars : ∀ character ∈ row.toList, isGroupChar character) :
    Inventory.PlainAtom ("@" ++ row) where
  nonempty := by
    rw [Inventory.toList_group]
    exact List.cons_ne_nil _ _
  characters character hmem := by
    rw [Inventory.toList_group] at hmem
    rcases List.mem_cons.mp hmem with rfl | hmem
    · decide
    · obtain ⟨hspace, hmark⟩ := plain_of_isGroupChar (hchars character hmem)
      rw [isSelectorMark, Bool.or_eq_false_iff, Bool.or_eq_false_iff] at hmark
      exact ⟨hspace, hmark.1.1⟩
  included := by
    rw [Inventory.toList_group, List.head?_cons]
    simp

theorem plainAtom_atomOf (hemitted : Emitted inventory)
    (hrow : RowOf inventory tab row) : Inventory.PlainAtom (atomOf tab row) := by
  cases tab with
  | groups => exact plainAtom_group (hemitted.named row hrow)
  | members => exact .of_bareName hrow.bareName
  | drift => exact .of_bareName hrow.bareName

/-- No name of a group is taken apart where the selected groups are. -/
theorem ne_comma_of_group (hemitted : Emitted inventory)
    (hrow : RowOf inventory .groups row) :
    ∀ character ∈ row.toList, character ≠ ',' := by
  rintro _ hmem rfl
  have hgroup := hemitted.named row hrow _ hmem
  revert hgroup
  decide

theorem known_atomOf (hrow : RowOf inventory tab row) :
    inventory.Known (atomOf tab row) := by
  cases tab with
  | groups => exact .group hrow
  | members => exact .member hrow
  | drift => exact .member hrow

theorem denotes_atomOf (hrow : RowOf inventory tab row) :
    inventory.Denotes (atomOf tab row) name ↔ StandsFor inventory tab row name := by
  cases tab with
  | groups =>
      obtain ⟨names, hnames⟩ := Option.ne_none_iff_exists'.mp hrow
      rw [atomOf, StandsFor, Inventory.denotes_group hnames, hnames]
      simp
  | members =>
      rw [atomOf, StandsFor, Inventory.denotes_bareName hrow.bareName]
      constructor
      · exact fun hdenotes => hdenotes.1.symm
      · rintro rfl
        exact ⟨rfl, hrow⟩
  | drift =>
      rw [atomOf, StandsFor, Inventory.denotes_bareName hrow.bareName]
      constructor
      · exact fun hdenotes => hdenotes.1.symm
      · rintro rfl
        exact ⟨rfl, hrow⟩

theorem exists_standsFor (hemitted : Emitted inventory)
    (hrow : RowOf inventory tab row) : ∃ name, StandsFor inventory tab row name := by
  cases tab with
  | groups =>
      obtain ⟨names, hnames⟩ := Option.ne_none_iff_exists'.mp hrow
      obtain ⟨name, hname⟩ :=
        List.exists_mem_of_ne_nil names (hemitted.filled row names hnames)
      exact ⟨name, names, hnames, hname⟩
  | members => exact ⟨row, rfl⟩
  | drift => exact ⟨row, rfl⟩

/-- The rows of a tab, spelled in a selector, resolve to what they stand for. -/
theorem resolve_rows (hemitted : Emitted inventory) {rows : List String}
    (hrows : ∀ row ∈ rows, RowOf inventory tab row) (hsome : rows ≠ []) :
    ∃ names, inventory.resolve (",".intercalate (rows.map (atomOf tab))) =
        .ok names ∧ Ordered names ∧
      ∀ name, name ∈ names ↔ ∃ row ∈ rows, StandsFor inventory tab row name := by
  obtain ⟨first, hfirst⟩ := List.exists_mem_of_ne_nil rows hsome
  obtain ⟨member, hmember⟩ := exists_standsFor hemitted (hrows first hfirst)
  obtain ⟨names, hresolve, hordered, hmem⟩ :=
    @Inventory.resolve_atoms inventory (rows.map (atomOf tab))
      (List.forall_mem_map.mpr fun row hrow =>
        plainAtom_atomOf hemitted (hrows row hrow))
      (List.forall_mem_map.mpr fun row hrow => known_atomOf (hrows row hrow))
      ⟨atomOf tab first, List.mem_map_of_mem hfirst, member,
        (denotes_atomOf (hrows first hfirst)).mpr hmember⟩
  refine ⟨names, hresolve, hordered, fun name => ?_⟩
  rw [hmem]
  simp only [List.mem_map, exists_exists_and_eq_and]
  exact exists_congr fun row => and_congr_right fun hrow =>
    denotes_atomOf (hrows row hrow)

end Rows

/-! ## The rows in front -/

/-- The rows an action is started on. -/
def SelectTable.actionRows (table : SelectTable) : List String :=
  if table.selectedNames ≠ [] then table.selectedNames else table.cursorName.toList

section InFront

variable {table : SelectTable} {past : History} {browsing : Browsing}

theorem mem_actionRows_iff (hshows : Shows past table) {row : String} :
    row ∈ table.actionRows ↔ Marked table past row := by
  by_cases hselected : table.selectedNames = []
  · have hnone (other : String) : ¬ Applied table.names past other := by
      rw [← hshows.mem_selectedNames_iff, hselected]
      exact List.not_mem_nil
    rw [SelectTable.actionRows, if_neg (not_not.mpr hselected), Marked,
      or_iff_right (hnone row), and_iff_right hnone, Option.mem_toList]
    by_cases hrows : table.names = []
    · rw [SelectTable.cursorName_of_nil hrows, hrows]
      simp
    · rw [SelectTable.cursorName_eq hrows (hshows.cursor hrows)]
  · obtain ⟨first, hfirst⟩ := List.exists_mem_of_ne_nil _ hselected
    rw [SelectTable.actionRows, if_pos hselected, Marked,
      hshows.mem_selectedNames_iff]
    constructor
    · exact .inl
    · rintro (happlied | ⟨hnone, -⟩)
      · exact happlied
      · exact absurd (hshows.mem_selectedNames_iff.mp hfirst) (hnone first)

theorem Marked.mem {row : String} (hmarked : Marked table past row) :
    row ∈ table.names := by
  rcases hmarked with happlied | ⟨-, hcursor⟩
  · exact happlied.mem
  · exact List.mem_of_getElem? hcursor

/-- An action has rows as soon as the table has some. -/
theorem actionRows_eq_nil_iff (hshows : Shows past table) :
    table.actionRows = [] ↔ table.names = [] := by
  constructor
  · intro hnil
    by_contra hrows
    have hcursor := List.getElem?_eq_getElem (hshows.cursor hrows)
    rw [SelectTable.actionRows] at hnil
    split at hnil
    · next hselected => exact hselected hnil
    · rw [SelectTable.cursorName_eq hrows (hshows.cursor hrows), hcursor] at hnil
      cases hnil
  · intro hrows
    rw [SelectTable.actionRows, SelectTable.selectedNames,
      SelectTable.cursorName_of_nil hrows, hrows]
    rfl

theorem target_eq (browsing : Browsing) : browsing.target =
    if browsing.activeTable.actionRows = [] then none
    else some (",".intercalate browsing.activeTable.actionRows) := by
  rw [Browsing.target, SelectTable.actionRows]
  by_cases hselected : browsing.activeTable.selectedNames = []
  · rw [if_neg (not_not.mpr hselected), if_neg (not_not.mpr hselected)]
    cases browsing.activeTable.cursorName with
    | none => rfl
    | some row => simp
  · rw [if_pos hselected, if_pos hselected, if_neg hselected]

/-- On every tab a deploy is started on the rows of the action, each spelled as
its tab has it. -/
theorem deployTarget_eq
    (hcommas : browsing.tab = .groups → ∀ row ∈ browsing.activeTable.actionRows,
      ∀ character ∈ row.toList, character ≠ ',') :
    browsing.deployTarget =
      if browsing.activeTable.actionRows = [] then none
      else some (",".intercalate
        (browsing.activeTable.actionRows.map (atomOf browsing.tab))) := by
  rw [Browsing.deployTarget, target_eq]
  by_cases hnil : browsing.activeTable.actionRows = []
  · rw [if_pos hnil, if_pos hnil, Option.map_none]
  · rw [if_neg hnil, if_neg hnil, Option.map_some]
    by_cases htab : browsing.tab = .groups
    · rw [if_neg (not_not.mpr htab), htab, String.toList_intercalate]
      have hsplit : ([','].intercalate
          (browsing.activeTable.actionRows.map String.toList)).splitOnP (· = ',') =
            browsing.activeTable.actionRows.map String.toList := by
        apply splitOnP_intercalate (decide_eq_true rfl)
        · intro part hpart character hmem
          obtain ⟨row, hrow, rfl⟩ := List.mem_map.mp hpart
          exact decide_eq_false (hcommas htab row hrow character hmem)
        · simpa using hnil
      change some (",".intercalate (List.map _
        (([','].intercalate (browsing.activeTable.actionRows.map String.toList)).splitOnP
          (· = ',')))) = _
      have hatoms : (fun part => "@" ++ String.ofList part) ∘ String.toList =
          atomOf .groups := by
        funext row
        rw [Function.comp_apply, String.ofList_toList]
        rfl
      rw [hsplit, List.map_map, hatoms]
    · rw [if_pos htab]
      have hatoms : atomOf browsing.tab = id := by
        funext row
        cases hcase : browsing.tab with
        | groups => exact absurd hcase htab
        | members => rfl
        | drift => rfl
      rw [hatoms, List.map_id]

end InFront

/-! ## What the operations keep -/

/-- The tables show their histories, and their rows are of the inventory. -/
structure Sound (session : Session) : Prop where
  shows : ∀ tab, Shows (session.past tab) (session.browsing.table tab)
  blank : session.browsing.state.inventory = none →
    ∀ tab, (session.browsing.table tab).names = []
  rows : ∀ inventory, session.browsing.state.inventory = some inventory →
    Emitted inventory ∧
      ∀ tab, ∀ row ∈ (session.browsing.table tab).names, RowOf inventory tab row

section Steps

variable {session : Session}

@[simp]
theorem table_setTable (browsing : Browsing) (table : SelectTable) (tab : Tab) :
    (browsing.setTable table tab).table = Function.update browsing.table tab table := by
  funext other
  cases tab <;> cases other <;> rfl

@[simp]
theorem state_setTable (browsing : Browsing) (table : SelectTable) (tab : Tab) :
    (browsing.setTable table tab).state = browsing.state := by
  cases tab <;> rfl

theorem sound_start : Sound .start where
  shows tab := by
    cases tab <;> exact shows_resetRows []
  blank _ tab := by
    cases tab <;> rfl
  rows inventory hinventory := by cases hinventory

/-- Operations on the table in front leave the rows and the other tables. -/
theorem Sound.operate (hsound : Sound session) (reading : Reading)
    (operation : TableOp) : Sound (session.act reading (.table operation)) := by
  have hnames (tab : Tab) :
      ((session.act reading (.table operation)).browsing.table tab).names =
        (session.browsing.table tab).names := by
    rw [Session.act, table_setTable]
    by_cases hfront : tab = session.browsing.tab
    · rw [hfront, Function.update_self, SelectTable.names_apply]
      rfl
    · rw [Function.update_of_ne hfront]
  have hstate : (session.act reading (.table operation)).browsing.state =
      session.browsing.state := state_setTable _ _ _
  constructor
  · intro tab
    rw [Session.act, table_setTable]
    dsimp only
    by_cases hfront : tab = session.browsing.tab
    · rw [hfront, Function.update_self, Function.update_self]
      exact (hsound.shows session.browsing.tab).apply operation
    · rw [Function.update_of_ne hfront, Function.update_of_ne hfront]
      exact hsound.shows tab
  · intro hnone tab
    rw [hnames]
    exact hsound.blank (hstate ▸ hnone) tab
  · intro inventory hinventory
    rw [hstate] at hinventory
    refine ⟨(hsound.rows inventory hinventory).1, fun tab => ?_⟩
    rw [hnames]
    exact (hsound.rows inventory hinventory).2 tab

/-- The drift rows painted are nodes of an inventory that stays. -/
structure Repainted (before after : AppState) : Prop where
  inventory : after.inventory = before.inventory
  nodes : ∀ row ∈ after.driftRows.map DriftRow.name, row ∈ before.deployNodes

/-- A repaint fills the drift table only. -/
theorem Sound.repaint (hsound : Sound session) {state : AppState}
    (hpainted : Repainted session.browsing.state state) :
    Sound
      { browsing := session.browsing.repaint state
        past := Function.update session.past .drift [] } where
  shows tab := by
    cases tab with
    | members => exact hsound.shows .members
    | groups => exact hsound.shows .groups
    | drift => exact shows_resetRows _
  blank hnone tab := by
    have hbefore : session.browsing.state.inventory = none :=
      hpainted.inventory ▸ hnone
    cases tab with
    | members => exact hsound.blank hbefore .members
    | groups => exact hsound.blank hbefore .groups
    | drift =>
        have hnodes : session.browsing.state.deployNodes = [] := by
          rw [AppState.deployNodes, hbefore]
        refine List.eq_nil_iff_forall_not_mem.mpr fun row hrow => ?_
        have hnode := hpainted.nodes row hrow
        rw [hnodes] at hnode
        cases hnode
  rows inventory hinventory := by
    have hbefore : session.browsing.state.inventory = some inventory :=
      hpainted.inventory ▸ hinventory
    obtain ⟨hemitted, hrows⟩ := hsound.rows inventory hbefore
    refine ⟨hemitted, fun tab => ?_⟩
    cases tab with
    | members => exact hrows .members
    | groups => exact hrows .groups
    | drift =>
        intro row hrow
        have hnode := hpainted.nodes row hrow
        rw [AppState.deployNodes, hbefore] at hnode
        exact hemitted.nodes row hnode

section Painting

variable (reading : Reading) (snapshots : BTreeMap Snapshot) (now : Int)

theorem names_driftRows (nodes : List String) (expected : Option Toplevels)
    (maxAge : Option Int) :
    ((Drift.compare reading nodes snapshots expected maxAge now).map driftRow).map
      DriftRow.name = sortNames nodes := by
  rw [Drift.compare, List.map_map, List.map_map]
  exact List.map_id'' (host_compareHost reading snapshots _ maxAge now) _

theorem repainted_fillDrift {before state : AppState}
    (hinventory : state.inventory = before.inventory) :
    Repainted before (state.fillDrift reading snapshots now) where
  inventory := hinventory
  nodes row hrow := by
    rw [AppState.fillDrift, names_driftRows, mem_sortNames, AppState.deployNodes,
      hinventory] at hrow
    exact hrow

variable {before state : AppState}

theorem Repainted.setStatus (hpainted : Repainted before state) (text : String)
    (error : Bool) : Repainted before (state.setStatus text error) := by
  obtain ⟨hrows, hinventory, -⟩ := setStatus_frame state text error
  exact ⟨hinventory.trans hpainted.inventory, hrows ▸ hpainted.nodes⟩

theorem Repainted.consumePendingReload (hpainted : Repainted before state) :
    Repainted before state.consumePendingReload.1 :=
  ⟨(inputs_consumePendingReload state).1.trans hpainted.inventory,
    driftRows_consumePendingReload state ▸ hpainted.nodes⟩

theorem repainted_onDriftEvalFinished (state : AppState)
    (result : Except String (Option String × Toplevels)) :
    Repainted state (state.onDriftEvalFinished reading result snapshots now).1 := by
  have hfilled : Repainted state
      (({ state with busy := false, expectedEvalRunning := false } :
        AppState).adoptExpected result |>.fillDrift reading snapshots now) := by
    apply repainted_fillDrift
    cases result <;> rfl
  rw [AppState.onDriftEvalFinished]
  apply Repainted.consumePendingReload
  split
  · exact hfilled.setStatus _ _
  · exact hfilled.setStatus _ _

theorem repainted_onSurveyDone (state : AppState) (n : ℕ) (rc : Int)
    (error : Option String) :
    Repainted state (state.onSurveyDone reading n rc error snapshots now) := by
  rw [AppState.onSurveyDone]
  split
  · refine Repainted.setStatus ?_ _ _
    exact repainted_fillDrift reading snapshots now rfl
  · refine Repainted.setStatus ?_ _ _
    exact repainted_fillDrift reading snapshots now rfl

theorem repainted_onMcpDriftLanded (state : AppState)
    (rev cachedRev : Option String) (cached : BTreeMap String) :
    Repainted state
      (state.onMcpDriftLanded reading rev cachedRev cached snapshots now) := by
  rw [AppState.onMcpDriftLanded]
  refine Repainted.setStatus ?_ _ _
  exact repainted_fillDrift reading snapshots now rfl

/-- What a fill leaves of the inventory it brings in. -/
structure FilledFrom (inventory : Inventory) (after : AppState) : Prop where
  holds : after.inventory = some inventory
  members : after.memberRows.map MemberRow.name = inventory.members.keys
  groups : after.groupRows.map GroupRow.name = inventory.groups.keys
  nodes : ∀ row ∈ after.driftRows.map DriftRow.name,
    row ∈ deployNodesOf inventory

theorem FilledFrom.consumePendingReload {inventory : Inventory}
    (hfilled : FilledFrom inventory state) :
    FilledFrom inventory state.consumePendingReload.1 := by
  rw [AppState.consumePendingReload]
  split
  · rw [AppState.requestLoad]
    split <;>
    · exact ⟨hfilled.holds, hfilled.members, hfilled.groups, hfilled.nodes⟩
  · exact hfilled

theorem FilledFrom.setStatus {inventory : Inventory}
    (hfilled : FilledFrom inventory state) (text : String) (error : Bool) :
    FilledFrom inventory (state.setStatus text error) := by
  rw [AppState.setStatus]
  split
  · exact ⟨hfilled.holds, hfilled.members, hfilled.groups, hfilled.nodes⟩
  · exact hfilled

theorem filledFrom_fill (state : AppState) (loaded : LoadedInventory) :
    FilledFrom loaded.inventory (state.fill reading loaded snapshots now).1 := by
  have hpainted := @repainted_fillDrift reading snapshots now
    (state.adopt reading loaded) (state.adopt reading loaded) rfl
  have hadopted : FilledFrom loaded.inventory
      ((state.adopt reading loaded).fillDrift reading snapshots now) := by
    refine ⟨rfl, ?_, ?_, hpainted.nodes⟩
    · rw [← Std.TreeMap.map_fst_toList_eq_keys]
      exact List.map_map
    · rw [← Std.TreeMap.map_fst_toList_eq_keys]
      exact List.map_map
  rw [AppState.fill]
  apply FilledFrom.consumePendingReload
  refine FilledFrom.setStatus ?_ _ _
  exact ⟨hadopted.holds, hadopted.members, hadopted.groups, hadopted.nodes⟩

end Painting

/-- A fill shows the inventory it brings in, and nothing is selected. -/
theorem sound_fill (reading : Reading) (session : Session)
    (loaded : LoadedInventory) (snapshots : BTreeMap Snapshot) (now : Int)
    (hemitted : Emitted loaded.inventory) :
    Sound (session.act reading (.fill loaded snapshots now)) := by
  have hfilled := filledFrom_fill reading snapshots now session.browsing.state loaded
  constructor
  · intro tab
    cases tab <;> exact shows_resetRows _
  · intro hnone
    cases hfilled.holds.symm.trans hnone
  · intro inventory hinventory
    have hsame : inventory = loaded.inventory :=
      Option.some.inj (hinventory.symm.trans hfilled.holds)
    subst hsame
    refine ⟨hemitted, fun tab row hrow => ?_⟩
    cases tab with
    | members =>
        change row ∈ List.map _ _ at hrow
        rw [hfilled.members] at hrow
        exact BTreeMap.mem_keys_iff.mp hrow
    | groups =>
        change row ∈ List.map _ _ at hrow
        rw [hfilled.groups] at hrow
        exact BTreeMap.mem_keys_iff.mp hrow
    | drift => exact hemitted.nodes row (hfilled.nodes row hrow)

theorem Sound.act (hsound : Sound session) (reading : Reading)
    {operation : Operation} (hemits : operation.Emits) :
    Sound (session.act reading operation) := by
  cases operation with
  | table operation => exact hsound.operate reading operation
  | switchTab tab => exact ⟨hsound.shows, hsound.blank, hsound.rows⟩
  | fill loaded snapshots now =>
      exact sound_fill reading session loaded snapshots now hemits
  | driftEvalFinished result snapshots now =>
      exact hsound.repaint
        (repainted_onDriftEvalFinished reading snapshots now _ result)
  | surveyDone n rc error snapshots now =>
      exact hsound.repaint
        (repainted_onSurveyDone reading snapshots now _ n rc error)
  | mcpDriftLanded rev cachedRev cached snapshots now =>
      exact hsound.repaint
        (repainted_onMcpDriftLanded reading snapshots now _ rev cachedRev cached)

theorem sound_run (reading : Reading) (operations : List Operation)
    (hemits : ∀ operation ∈ operations, operation.Emits) :
    Sound (Session.run reading operations) := by
  rw [Session.run]
  have hfrom (start : Session) (hstart : Sound start) :
      Sound (operations.foldl (Session.act reading) start) := by
    induction operations generalizing start with
    | nil => exact hstart
    | cons operation operations ih =>
        obtain ⟨hfirst, hrest⟩ := List.forall_mem_cons.mp hemits
        exact ih hrest _ (hstart.act reading hfirst)
  exact hfrom .start sound_start

theorem Sound.highlighted (hsound : Sound session) : Highlighted session := by
  have hfront : Shows (session.past session.browsing.tab)
      session.browsing.activeTable := hsound.shows session.browsing.tab
  constructor
  · exact fun tab => (hsound.shows tab).cursor
  · intro tab name
    rw [SelectTable.isSelected, Std.TreeSet.contains_iff_mem,
      (hsound.shows tab).selected]
  · intro tab keep hkeep
    rw [SelectTable.selectedNames]
    apply List.filter_congr
    intro name hname
    rw [Bool.eq_iff_iff, Std.TreeSet.contains_iff_mem, (hsound.shows tab).selected,
      hkeep name hname]
  · intro hrows
    rw [Browsing.deployTarget, target_eq, if_pos
      ((actionRows_eq_nil_iff hfront).mpr hrows), Option.map_none]
  · intro inventory hinventory hrows
    obtain ⟨hemitted, hall⟩ := hsound.rows inventory hinventory
    have hknown (row : String) (hrow : row ∈ session.browsing.activeTable.actionRows) :
        RowOf inventory session.browsing.tab row :=
      hall session.browsing.tab row ((mem_actionRows_iff hfront).mp hrow).mem
    have hcommas (hgroups : session.browsing.tab = .groups) (row : String)
        (hrow : row ∈ session.browsing.activeTable.actionRows) :
        ∀ character ∈ row.toList, character ≠ ',' := by
      have hgroup := hknown row hrow
      rw [hgroups] at hgroup
      exact ne_comma_of_group hemitted hgroup
    have hnil : session.browsing.activeTable.actionRows ≠ [] := fun hnil =>
      hrows ((actionRows_eq_nil_iff hfront).mp hnil)
    obtain ⟨names, hresolve, hordered, hmem⟩ := resolve_rows hemitted hknown hnil
    refine ⟨_, names, ?_, hresolve, hordered, fun name => ?_⟩
    · rw [deployTarget_eq hcommas, if_neg hnil]
    · rw [hmem]
      exact exists_congr fun row => and_congr_left' (mem_actionRows_iff hfront)
  · exact fun hnone => hsound.blank hnone session.browsing.tab

end Steps

/-- After every sequence of operations the highlighted rows are the ones a deploy
is started on, and the selector it is started with resolves to exactly what they
stand for. -/
theorem highlighted_run (reading : Reading) (operations : List Operation)
    (hemits : ∀ operation ∈ operations, operation.Emits) :
    Highlighted (Session.run reading operations) :=
  (sound_run reading operations hemits).highlighted

/-! ## A member and a group of one name -/

def sharedAggregate : Aggregate :=
  { schemaVersion := .int 1
    members := ((∅ : BTreeMap Member).insert "edge"
      { fields := [("name", .string "edge")] }).insert "web"
        { fields := [("name", .string "web")] }
    groups := (∅ : BTreeMap (List String)).insert "edge" ["web"]
    extra :=
      [("projections", .object
        [("deploy", .object [("nodes", .array [.string "web"])])])] }

def sharedFleet : Inventory :=
  { aggregate := sharedAggregate, controllerPlatform := none, checked := by rfl }

theorem emitted_sharedFleet : Emitted sharedFleet := by
  have hgroups (group : String) : sharedFleet.groups[group]? =
      if "edge" = group then some ["web"] else none := by
    change ((∅ : BTreeMap (List String)).insert "edge" ["web"])[group]? = _
    rw [Std.TreeMap.getElem?_insert]
    simp [Std.LawfulEqCmp.compare_eq_iff_eq]
  constructor
  · intro group names hnames
    rw [hgroups] at hnames
    split at hnames
    · cases hnames
      exact List.cons_ne_nil _ _
    · cases hnames
  · intro group hgroup
    rw [hgroups] at hgroup
    split at hgroup
    · next hname =>
        subst hname
        exact List.all_eq_true.mp (by decide)
    · exact absurd rfl hgroup
  · intro node hnode
    have hnodes : deployNodesOf sharedFleet = ["web"] := by decide +kernel
    rw [hnodes, List.mem_singleton] at hnode
    subst hnode
    change ¬ sharedFleet.members["web"]? = none
    rw [← Option.isNone_iff_eq_none]
    decide +kernel

def sharedLoad : LoadedInventory :=
  { inventory := sharedFleet, rev := none, cachedRev := none, cached := ∅ }

/-- The group is toggled, not the member of the same name. -/
def groupSession : List Operation :=
  [.fill sharedLoad ∅ 0, .switchTab .groups, .table .toggle,
    .table (.moveCursor 10)]

theorem highlighted_groupSession :
    Highlighted (Session.run plainReading groupSession) ∧
      (Session.run plainReading groupSession).browsing.deployTarget =
        some "@edge" ∧
      (sharedFleet.resolve "@edge").toOption = some ["web"] := by
  refine ⟨highlighted_run plainReading groupSession ?_, by decide +kernel,
    by decide +kernel⟩
  intro operation hmem
  simp only [groupSession, List.mem_cons, List.not_mem_nil, or_false] at hmem
  rcases hmem with rfl | rfl | rfl | rfl
  · exact emitted_sharedFleet
  · trivial
  · trivial
  · trivial

end Mandala.Explorer
