import Mandala.Core.Transition
import Mandala.Drift.Compare
import Mathlib.Logic.Function.Basic

/-!
# The expectation cache

Three writers save what they evaluated under the revision they read: the drift
tool and the drift command read the revision first, the explorer reads it after
the evaluation.  No writer holds the checkout still, and the drift tool shares
a warm evaluator that keeps the checkout it locked first.
-/

namespace Mandala.Drift

open Mandala.Data Mandala.Transition

variable {Edits : Type}

inductive Writer where
  /-- The drift tool, with `do_eval`. -/
  | tool
  /-- `mandala drift --eval`. -/
  | command
  /-- The explorer's own evaluation. -/
  | explorer
  deriving DecidableEq, Repr

/-- How far a writer is with its two `git` calls. -/
inductive RevisionRead (Edits : Type) where
  | unread
  | head (seen : Checkout Edits)
  | status (headSeen statusSeen : Checkout Edits)
  | failed

/-- The revision a writer saves under. -/
def RevisionRead.rev : RevisionRead Edits → Option String
  | status headSeen statusSeen =>
      some (repoRev headSeen.head statusSeen.edits.isNone)
  | _ => none

/-- A writer is done with the revision, whatever `git` said. -/
def RevisionRead.settled : RevisionRead Edits → Bool
  | status _ _ => true
  | failed => true
  | _ => false

structure WriterJob (Edits : Type) where
  writer : Writer
  /-- The checkout whose inventory named the deploy nodes. -/
  inventory : Checkout Edits
  /-- What the writer's own evaluator is warm with. -/
  warm : Option (Checkout Edits)
  revision : RevisionRead Edits
  /-- The checkout the evaluator answered from. -/
  evaluated : Option (Checkout Edits)

structure SavedExpectations where
  rev : Option String
  toplevels : BTreeMap String

structure CacheState (Edits : Type) where
  checkout : Checkout Edits
  /-- What the server's evaluator is warm with. -/
  server : Option (Checkout Edits)
  cache : Option SavedExpectations
  jobs : ℕ → Option (WriterJob Edits)

inductive CacheAction (Edits : Type) where
  /-- A commit, a checkout or an edit. -/
  | move (checkout : Checkout Edits)
  | reload
  /-- Some other tool evaluates. -/
  | warmUp
  /-- The evaluator's worker dies. -/
  | respawn
  | start (id : ℕ) (writer : Writer) (inventory : Checkout Edits)
  /-- The explorer has no inventory, and evaluates one with its evaluator. -/
  | startCold (id : ℕ)
  | readHead (id : ℕ)
  | readStatus (id : ℕ)
  | gitFails (id : ℕ)
  | evaluate (id : ℕ)
  | save (id : ℕ)
  /-- The evaluation failed, for all or for some. -/
  | giveUp (id : ℕ)

/-- What a checkout evaluates to. -/
structure Contract (Edits : Type) where
  deployNodes : Checkout Edits → List String
  evalExpected : Checkout Edits → List String → Except String Toplevels

def CacheState.putJob (state : CacheState Edits) (id : ℕ)
    (job : Option (WriterJob Edits)) : CacheState Edits :=
  { state with jobs := Function.update state.jobs id job }

/-- Where a writer's evaluator answers from. -/
def CacheState.evaluatorFor (state : CacheState Edits) (job : WriterJob Edits) :
    Checkout Edits :=
  match job.writer with
  | .tool => state.server.getD state.checkout
  | .command => state.checkout
  | .explorer => job.warm.getD state.checkout

/-- The server's evaluator after a writer used one. -/
def CacheState.serverAfter (state : CacheState Edits) (job : WriterJob Edits) :
    Option (Checkout Edits) :=
  match job.writer with
  | .tool => some (state.server.getD state.checkout)
  | _ => state.server

/-- The explorer evaluates before it reads the revision, the others after. -/
def WriterJob.mayRead (job : WriterJob Edits) : Prop :=
  match job.writer with
  | .explorer => job.evaluated.isSome
  | _ => job.evaluated = none

def WriterJob.mayEvaluate (job : WriterJob Edits) : Prop :=
  job.evaluated = none ∧
    match job.writer with
    | .explorer => True
    | _ => job.revision.settled

inductive CacheStep (contract : Contract Edits) :
    CacheState Edits → CacheAction Edits → CacheState Edits → Prop
  | move (state : CacheState Edits) (checkout : Checkout Edits) :
      CacheStep contract state (.move checkout) { state with checkout }
  | reload (state : CacheState Edits) :
      CacheStep contract state .reload { state with server := some state.checkout }
  | warmUp (state : CacheState Edits) :
      CacheStep contract state .warmUp
        { state with server := some (state.server.getD state.checkout) }
  | respawn (state : CacheState Edits) :
      CacheStep contract state .respawn { state with server := none }
  | start (state : CacheState Edits) (id : ℕ) (writer : Writer)
      (inventory : Checkout Edits) (hfree : state.jobs id = none) :
      CacheStep contract state (.start id writer inventory)
        (state.putJob id (some
          { writer, inventory, warm := none, revision := .unread
            evaluated := none }))
  | startCold (state : CacheState Edits) (id : ℕ) (hfree : state.jobs id = none) :
      CacheStep contract state (.startCold id)
        (state.putJob id (some
          { writer := .explorer
            inventory := state.checkout
            warm := some state.checkout
            revision := .unread
            evaluated := none }))
  | readHead (state : CacheState Edits) (id : ℕ) (job : WriterJob Edits)
      (hjob : state.jobs id = some job) (hmay : job.mayRead)
      (hunread : job.revision = .unread) :
      CacheStep contract state (.readHead id)
        (state.putJob id (some { job with revision := .head state.checkout }))
  | readStatus (state : CacheState Edits) (id : ℕ) (job : WriterJob Edits)
      (seen : Checkout Edits) (hjob : state.jobs id = some job)
      (hhead : job.revision = .head seen) :
      CacheStep contract state (.readStatus id)
        (state.putJob id
          (some { job with revision := .status seen state.checkout }))
  | gitFails (state : CacheState Edits) (id : ℕ) (job : WriterJob Edits)
      (hjob : state.jobs id = some job) (hmay : job.mayRead)
      (hunsettled : job.revision.settled = false) :
      CacheStep contract state (.gitFails id)
        (state.putJob id (some { job with revision := .failed }))
  | evaluate (state : CacheState Edits) (id : ℕ) (job : WriterJob Edits)
      (hjob : state.jobs id = some job) (hmay : job.mayEvaluate) :
      CacheStep contract state (.evaluate id)
        { state.putJob id
            (some { job with evaluated := some (state.evaluatorFor job) }) with
          server := state.serverAfter job }
  | save (state : CacheState Edits) (id : ℕ) (job : WriterJob Edits)
      (evaluated : Checkout Edits) (toplevels : Toplevels)
      (hjob : state.jobs id = some job) (hsettled : job.revision.settled)
      (hevaluated : job.evaluated = some evaluated)
      (hok : contract.evalExpected evaluated (contract.deployNodes job.inventory) =
        .ok toplevels)
      (hcomplete : toplevels.isComplete) :
      CacheStep contract state (.save id)
        { state.putJob id none with
          cache := some { rev := job.revision.rev, toplevels := toplevels.paths } }
  | giveUp (state : CacheState Edits) (id : ℕ) :
      CacheStep contract state (.giveUp id) (state.putJob id none)

/-- No cache has been saved, and no writer runs. -/
structure CacheInitial (state : CacheState Edits) : Prop where
  cache : state.cache = none
  jobs : ∀ id, state.jobs id = none

/-! ## What a fresh cache holds -/

/-- The revision `repo_rev` reads while the checkout stands still. -/
def Checkout.rev (checkout : Checkout Edits) : Option String :=
  some (repoRev checkout.head checkout.edits.isNone)

/-- A fresh cache holds what the checkout evaluates to. -/
def CacheSound (contract : Contract Edits) (state : CacheState Edits) : Prop :=
  ∀ saved, state.cache = some saved → cacheFresh saved.rev state.checkout.rev →
    ∃ toplevels, contract.evalExpected state.checkout
        (contract.deployNodes state.checkout) = .ok toplevels ∧
      saved.toplevels = toplevels.paths

/-- A writer whose `git` calls read a clean revision evaluated the clean
checkout of that commit, for the nodes of that commit. -/
def Labelled (contract : Contract Edits) (state : CacheState Edits) :
    CacheAction Edits → Prop
  | .save id => ∀ job headSeen statusSeen, state.jobs id = some job →
      job.revision = .status headSeen statusSeen → statusSeen.edits = none →
        job.evaluated = some headSeen.head.checkout ∧
          contract.deployNodes job.inventory =
            contract.deployNodes headSeen.head.checkout
  | _ => True

/-- Whatever clean revision the cache is keyed by, it holds what that commit
evaluates to. -/
def KeyedByCommit (contract : Contract Edits) (state : CacheState Edits) : Prop :=
  ∀ saved (commit : Commit), state.cache = some saved → saved.rev = some commit.hash →
    ∃ toplevels, contract.evalExpected commit.checkout
        (contract.deployNodes commit.checkout) = .ok toplevels ∧
      saved.toplevels = toplevels.paths

theorem cacheSound_of_keyed {contract : Contract Edits} {state : CacheState Edits}
    (hkeyed : KeyedByCommit contract state) : CacheSound contract state := by
  intro saved hsaved hfresh
  obtain ⟨rev, hrev, hcurrent, hclean⟩ := eq_of_cacheFresh hfresh
  have hnow : repoRev state.checkout.head state.checkout.edits.isNone = rev :=
    Option.some.inj hcurrent
  have hnone : state.checkout.edits.isNone := by
    rw [← hnow, isDirty_repoRev] at hclean
    simpa using hclean
  have hcheckout : state.checkout = state.checkout.head.checkout := by
    rw [Option.isNone_iff_eq_none] at hnone
    rw [Commit.checkout, ← hnone]
  have hhash : saved.rev = some state.checkout.head.hash := by
    rw [hrev, ← hnow, hnone]
    rfl
  rw [hcheckout]
  exact hkeyed saved state.checkout.head hsaved hhash

/-- A save that is labelled right keeps the cache keyed by commits. -/
theorem KeyedByCommit.step {contract : Contract Edits}
    {before after : CacheState Edits} {action : CacheAction Edits}
    (hkeyed : KeyedByCommit contract before)
    (hlabelled : Labelled contract before action)
    (hstep : CacheStep contract before action after) :
    KeyedByCommit contract after := by
  cases hstep with
  | save id job evaluated toplevels hjob hsettled hevaluated hok hcomplete =>
      rintro saved commit hsaved hrev
      cases hsaved
      cases hrevision : job.revision with
      | unread =>
          rw [hrevision] at hsettled
          cases hsettled
      | head seen =>
          rw [hrevision] at hsettled
          cases hsettled
      | failed =>
          change job.revision.rev = _ at hrev
          rw [hrevision] at hrev
          cases hrev
      | status headSeen statusSeen =>
          change job.revision.rev = _ at hrev
          rw [hrevision] at hrev
          have hlabel : repoRev headSeen.head statusSeen.edits.isNone =
              commit.hash :=
            Option.some.inj hrev
          have hnone : statusSeen.edits.isNone := by
            have hclean := commit.clean
            rw [← hlabel, isDirty_repoRev] at hclean
            simpa using hclean
          have hcommit : headSeen.head = commit := by
            apply commit_eq_of_hash
            rw [← hlabel, hnone]
            rfl
          obtain ⟨hsame, hnodes⟩ := hlabelled job headSeen statusSeen hjob
            hrevision (Option.isNone_iff_eq_none.mp hnone)
          rw [hevaluated, Option.some.injEq, hcommit] at hsame
          rw [hsame, hnodes, hcommit] at hok
          exact ⟨toplevels, hok, rfl⟩
  | _ => exact hkeyed

/-- While every writer evaluates what it reads the revision of, a fresh cache
is sound. -/
theorem cacheSound_of_labelled (contract : Contract Edits)
    {state : CacheState Edits}
    (hreach : Reachable CacheInitial (CacheStep contract) (Labelled contract)
      state) :
    CacheSound contract state := by
  apply cacheSound_of_keyed
  refine hreach.invariant ?_ ?_
  · intro start hinitial saved commit hsaved
    rw [hinitial.cache] at hsaved
    cases hsaved
  · intro before action after hkeyed
    exact hkeyed.step

/-- A save under a clean revision that evaluates to something else leaves an
unsound cache behind once that commit is checked out. -/
theorem unsound_of_mislabelled {contract : Contract Edits}
    {state : CacheState Edits}
    (hreach : Reachable CacheInitial (CacheStep contract) anyStep state) {id : ℕ}
    {job : WriterJob Edits} {headSeen statusSeen evaluated : Checkout Edits}
    {toplevels : Toplevels} (hjob : state.jobs id = some job)
    (hrevision : job.revision = .status headSeen statusSeen)
    (hclean : statusSeen.edits = none) (hevaluated : job.evaluated = some evaluated)
    (hok : contract.evalExpected evaluated (contract.deployNodes job.inventory) =
      .ok toplevels)
    (hcomplete : toplevels.isComplete)
    (hother : ∀ expected, contract.evalExpected headSeen.head.checkout
      (contract.deployNodes headSeen.head.checkout) = .ok expected →
        toplevels.paths ≠ expected.paths) :
    ∃ later, Reachable CacheInitial (CacheStep contract) anyStep later ∧
      ¬ CacheSound contract later := by
  have hsettled : job.revision.settled := by rw [hrevision]; rfl
  have hsaved := hreach.step trivial
    (.save state id job evaluated toplevels hjob hsettled hevaluated hok hcomplete)
  have hmoved := hsaved.step trivial (.move _ headSeen.head.checkout)
  refine ⟨_, hmoved, ?_⟩
  intro hsound
  have hfresh : cacheFresh job.revision.rev
      (headSeen.head.checkout : Checkout Edits).rev := by
    have hrev : job.revision.rev = some headSeen.head.hash := by
      rw [hrevision, RevisionRead.rev, hclean]
      rfl
    rw [hrev]
    change (headSeen.head.hash = headSeen.head.hash &&
      !isDirty headSeen.head.hash : Bool) = true
    simp [headSeen.head.clean]
  obtain ⟨expected, hexpected, hsame⟩ := hsound _ rfl hfresh
  exact hother expected hexpected hsame

/-! ### A drift tool behind a warm evaluator -/

def baseCommit : Commit := { hash := "4f1c", clean := by rfl }

def nextCommit : Commit := { hash := "9ab0", clean := by rfl }

/-- One host, whose toplevel tells the commit it was evaluated at. -/
def oneHost : Contract Unit :=
  { deployNodes := fun _ => ["web"]
    evalExpected := fun checkout _ =>
      .ok (.ofPaths ((∅ : BTreeMap String).insert "web" checkout.head.hash)) }

def cleanRepo : CacheState Unit :=
  { checkout := baseCommit.checkout
    server := none
    cache := none
    jobs := fun _ => none }

theorem cacheInitial_cleanRepo : CacheInitial cleanRepo :=
  ⟨rfl, fun _ => rfl⟩

theorem toplevels_ne {left right : String} (hne : left ≠ right) :
    (∅ : BTreeMap String).insert "web" left ≠
      (∅ : BTreeMap String).insert "web" right := by
  intro heq
  have hvalue : ((∅ : BTreeMap String).insert "web" left)["web"]? =
      ((∅ : BTreeMap String).insert "web" right)["web"]? := by
    rw [heq]
  rw [Std.TreeMap.getElem?_insert_self, Std.TreeMap.getElem?_insert_self] at hvalue
  exact hne (Option.some.inj hvalue)

/-- The server loads its inventory, a commit lands, and the drift tool saves
what the warm evaluator says under the new revision. -/
theorem warmEvaluator_unsound :
    ∃ state, Reachable CacheInitial (CacheStep oneHost) anyStep state ∧
      ¬ CacheSound oneHost state := by
  have hstart : Reachable CacheInitial (CacheStep oneHost) anyStep cleanRepo :=
    Reachable.initial cacheInitial_cleanRepo
  have hmoved := (hstart.step trivial (.reload _)).step trivial
    (.move _ nextCommit.checkout)
  have hread := ((hmoved.step trivial
    (.start _ 0 .tool baseCommit.checkout rfl)).step trivial
      (.readHead _ 0 _ rfl rfl rfl)).step trivial (.readStatus _ 0 _ _ rfl rfl)
  have hevaluated := hread.step trivial (.evaluate _ 0 _ rfl ⟨rfl, rfl⟩)
  refine @unsound_of_mislabelled _ oneHost _ hevaluated 0 _ _ _ _ _ rfl rfl rfl
    rfl rfl rfl ?_
  rintro expected ⟨⟩
  apply toplevels_ne
  decide

/-- A drift tool whose evaluator locks the commit it read keeps a sound cache. -/
theorem coldEvaluator_sound :
    ∃ state : CacheState Unit, CacheSound oneHost state ∧
      state.cache = some
        { rev := some "4f1c"
          toplevels := (∅ : BTreeMap String).insert "web" "4f1c" } := by
  have hnext {before after : CacheState Unit} {action : CacheAction Unit}
      (hbefore : Reachable CacheInitial (CacheStep oneHost) (Labelled oneHost)
        before)
      (hstep : CacheStep oneHost before action after)
      (hlabelled : Labelled oneHost before action) :
      Reachable CacheInitial (CacheStep oneHost) (Labelled oneHost) after :=
    hbefore.step hlabelled hstep
  have hstart : Reachable CacheInitial (CacheStep oneHost) (Labelled oneHost)
      cleanRepo :=
    Reachable.initial cacheInitial_cleanRepo
  have hread := hnext (hnext (hnext hstart
    (.start _ 0 .tool baseCommit.checkout rfl) trivial)
      (.readHead _ 0 _ rfl rfl rfl) trivial) (.readStatus _ 0 _ _ rfl rfl) trivial
  have hevaluated := hnext hread (.evaluate _ 0 _ rfl ⟨rfl, rfl⟩) trivial
  have hsaved := hnext hevaluated
    (.save _ 0 _ _ _ rfl rfl rfl rfl rfl) (by
      rintro job headSeen statusSeen ⟨⟩ ⟨⟩ _
      exact ⟨rfl, rfl⟩)
  exact ⟨_, cacheSound_of_labelled oneHost hsaved, rfl⟩

end Mandala.Drift
