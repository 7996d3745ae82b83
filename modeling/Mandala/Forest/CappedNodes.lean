import Mandala.Core.Ordering
import Mandala.Forest.Summary
import Mathlib.Data.List.FinRange
import Mathlib.Data.Prod.Lex

/-!
# The capped graph

The nodes of a snapshot for a consumer that takes a bounded number of them:
what fails or runs comes first, what is settled last.
-/

namespace Mandala.Forest

open Mandala.Ordering

/-- `tier`: the lower, the more urgent. -/
def DerivationStatus.tier : DerivationStatus → ℕ
  | .failed => 0
  | .building => 1
  | .downloading => 2
  | .substituting => 2
  | .planned => 3
  | .built => 4
  | .unknown => 4

namespace ForestSnapshot

variable (snapshot : ForestSnapshot)

/-- What the nodes are sorted by. -/
def sortKey (index : Fin snapshot.nodes.length) :
    ℕ ×ₗ Fin snapshot.nodes.length :=
  toLex ((snapshot.nodes.get index).status.tier, index)

/-- `capped_nodes`: the kept nodes and how many were elided. -/
def cappedNodes (cap : ℕ) : List DerivationNode × ℕ :=
  let order := sortBy snapshot.sortKey (List.finRange snapshot.nodes.length)
  let elided := snapshot.nodes.length - cap
  let kept := (order.take cap).map snapshot.nodes.get
  (kept, elided)

/-- What the capped list owes its reader. -/
structure CappedView (cap : ℕ) (kept : List DerivationNode) (elided : ℕ) : Prop where
  length : kept.length = min cap snapshot.nodes.length
  total : kept.length + elided = snapshot.nodes.length
  distinct : (kept.map DerivationNode.path).Nodup
  /-- The kept nodes are nodes of the snapshot, by tier and then by index. -/
  ordered : ∃ indices : List (Fin snapshot.nodes.length),
    kept = indices.map snapshot.nodes.get ∧
    indices.Pairwise fun left right => snapshot.sortKey left < snapshot.sortKey right
  urgent : ∀ node ∈ snapshot.nodes, node.path ∉ kept.map DerivationNode.path →
    ∀ other ∈ kept, other.status.tier ≤ node.status.tier

theorem sortKey_injective : Function.Injective snapshot.sortKey := by
  intro left right heq
  exact congrArg (fun key => (ofLex key).2) heq

theorem tier_le_of_sortKey_le {left right : Fin snapshot.nodes.length}
    (hle : snapshot.sortKey left ≤ snapshot.sortKey right) :
    (snapshot.nodes.get left).status.tier ≤ (snapshot.nodes.get right).status.tier := by
  rcases Prod.Lex.le_iff.mp hle with hlt | ⟨heq, -⟩
  · exact hlt.le
  · exact heq.le

theorem path_injective (hdistinct : (snapshot.nodes.map DerivationNode.path).Nodup) :
    Function.Injective (DerivationNode.path ∘ snapshot.nodes.get) := by
  intro left right heq
  have hlength : (snapshot.nodes.map DerivationNode.path).length =
      snapshot.nodes.length := List.length_map _
  have hinjective := List.nodup_iff_injective_get.mp hdistinct
  have hcast := @hinjective (left.cast hlength.symm) (right.cast hlength.symm)
    (by simpa using heq)
  exact Fin.ext (by simpa using congrArg Fin.val hcast)

/-- However many nodes are taken, they are the most urgent ones, each once, and
the others are counted. -/
theorem cappedView_cappedNodes (cap : ℕ)
    (hdistinct : (snapshot.nodes.map DerivationNode.path).Nodup) :
    snapshot.CappedView cap (snapshot.cappedNodes cap).1 (snapshot.cappedNodes cap).2 := by
  have hlength : (snapshot.cappedNodes cap).1.length = min cap snapshot.nodes.length := by
    rw [cappedNodes, List.length_map, length_take_sortBy, List.length_finRange]
  have hnodup := List.nodup_finRange snapshot.nodes.length
  constructor
  · exact hlength
  · rw [hlength]
    change _ + (_ - _) = _
    omega
  · rw [cappedNodes, List.map_map]
    exact (nodup_take_sortBy cap hnodup).map (snapshot.path_injective hdistinct)
  · exact ⟨_, rfl, pairwise_take_sortBy cap hnodup snapshot.sortKey_injective⟩
  · intro node hnode hleft other hother
    obtain ⟨index, rfl⟩ := List.get_of_mem hnode
    obtain ⟨taken, htaken, rfl⟩ := List.mem_map.mp hother
    apply snapshot.tier_le_of_sortKey_le
    apply le_of_notMem_take_sortBy htaken (List.mem_finRange index)
    intro hmem
    exact hleft (List.mem_map_of_mem (List.mem_map_of_mem hmem))

/-- A settled node and a failed one. -/
def mixed : ForestSnapshot :=
  let node (path : String) (status : DerivationStatus) : DerivationNode :=
    { path, name := path, status, inputs := [], outputs := ∅, host := none
      lastActivity := none, logTail := [], note := none, startedMs := none
      finishedMs := none, etaSeconds := none }
  { (ReadForest.new ∅).snapshot 0 with
    nodes := [node "built.drv" .built, node "failed.drv" .failed] }

theorem cappedView_mixed :
    mixed.CappedView 1 (mixed.cappedNodes 1).1 (mixed.cappedNodes 1).2 :=
  mixed.cappedView_cappedNodes 1 (by decide)

example : ((mixed.cappedNodes 1).1.map DerivationNode.path, (mixed.cappedNodes 1).2) =
    (["failed.drv"], 1) := by decide

end ForestSnapshot

end Mandala.Forest
