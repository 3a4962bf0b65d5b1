import AgentHub.Lib.Dominators
import AgentHub.Storage.Runs.Base
import AgentHub.Workflow.DraftValidator
/-!
# Cycles, topological order, dominators

The graph algorithms of the validators and of the scheduler against what they are for: a graph has a cycle where a node can be
reached from itself, and a node dominates another where every path from a root passes through it.
-/

namespace AgentHub

open Lib

/-- Both ends of every edge are nodes. -/
def Closed (nodes : List WorkflowNode) (edges : List WorkflowEdge) : Prop :=
  ∀ e ∈ edges, e.fromNode ∈ nodeIds nodes ∧ e.toNode ∈ nodeIds nodes

/-- No node can be reached from itself. -/
def Acyclic (edges : List WorkflowEdge) : Prop := ∀ v, ¬ Relation.TransGen (Adjacent edges) v v

variable {nodes : List WorkflowNode} {edges : List WorkflowEdge} {u v : String}

/-! ## Cycles -/

def edgePairs (edges : List WorkflowEdge) : List (String × String) := edges.map fun e => (e.fromNode, e.toNode)

theorem mem_edgePairs {a b : String} : (a, b) ∈ edgePairs edges ↔ Adjacent edges a b := by
  simp [edgePairs, Adjacent]

theorem edgePairs_adjacent : (fun a b => (a, b) ∈ edgePairs edges) = Adjacent edges := by
  funext a b
  exact propext mem_edgePairs

theorem Closed.targets (h : Closed nodes edges) : ∀ p ∈ edgePairs edges, p.2 ∈ (nodeIds nodes).dedup := by
  intro p hp
  obtain ⟨e, he, rfl⟩ := List.mem_map.1 hp
  exact List.mem_dedup.2 (h e he).2

theorem Closed.sources (h : Closed nodes edges) : ∀ p ∈ edgePairs edges, p.1 ∈ (nodeIds nodes).dedup := by
  intro p hp
  obtain ⟨e, he, rfl⟩ := List.mem_map.1 hp
  exact List.mem_dedup.2 (h e he).1

theorem order_complete_iff_acyclic (h : Closed nodes edges) :
    (Kahn.order (nodeIds nodes).dedup (edgePairs edges)).length = (nodeIds nodes).dedup.length ↔ Acyclic edges := by
  rw [Kahn.order_complete_iff (List.nodup_dedup _) h.targets h.sources, edgePairs_adjacent]
  exact Iff.rfl

theorem containsCycle_eq_false (h : Closed nodes edges) : containsCycle nodes edges = false ↔ Acyclic edges := by
  rw [← order_complete_iff_acyclic h]
  exact decide_eq_false_iff_not.trans not_not

/-- An order of the nodes in which every edge goes forward. -/
structure Sorted (nodes : List WorkflowNode) (edges : List WorkflowEdge) (ids : List String) : Prop where
  perm : ids.Perm (nodeIds nodes)
  forward : ∀ e ∈ edges, ids.idxOf e.fromNode < ids.idxOf e.toNode

/-- The order is returned where there is no cycle, and else there is an error. -/
theorem topologicalOrder_cases {graph : CompiledGraph} (hids : (nodeIds graph.nodes).Nodup) (h : Closed graph.nodes graph.edges) :
    (Acyclic graph.edges ∧ ∃ ids, topologicalOrder graph = .ok ids ∧ Sorted graph.nodes graph.edges ids) ∨
      ¬ Acyclic graph.edges ∧ topologicalOrder graph = .error (.valueError "compiled snapshot contains a cycle") := by
  have hdedup : (nodeIds graph.nodes).dedup = nodeIds graph.nodes := hids.dedup
  have hends : graph.edges.find? (fun e => e.toNode ∉ (graph.nodes.map WorkflowNode.id).dedup) = none := by
    refine List.find?_eq_none.2 fun e he => ?_
    rw [decide_eq_true_eq, not_not]
    exact List.mem_dedup.2 (h e he).2
  have hrun : topologicalOrder graph =
      if (Kahn.order (nodeIds graph.nodes).dedup (edgePairs graph.edges)).length = graph.nodes.length
      then .ok (Kahn.order (nodeIds graph.nodes).dedup (edgePairs graph.edges))
      else .error (.valueError "compiled snapshot contains a cycle") := by
    simp only [topologicalOrder, hends]
    rfl
  have hlen : (nodeIds graph.nodes).dedup.length = graph.nodes.length := by rw [hdedup, nodeIds, List.length_map]
  have hiff := order_complete_iff_acyclic h
  rw [hlen] at hiff
  by_cases hacyclic : Acyclic graph.edges
  · refine .inl ⟨hacyclic, _, hrun.trans (if_pos (hiff.2 hacyclic)), ?_, fun e he => ?_⟩
    · have hsub := (Kahn.order_nodup (List.nodup_dedup _) h.targets).subperm (Kahn.order_sub (List.nodup_dedup _) h.targets)
      exact (hsub.perm_of_length_le (by rw [hlen, hiff.2 hacyclic])).trans (by rw [hdedup])
    · exact Kahn.idxOf_lt (List.nodup_dedup _) h.targets (by rw [hlen, hiff.2 hacyclic])
        (List.mem_map_of_mem (f := fun e : WorkflowEdge => (e.fromNode, e.toNode)) he)
  · exact .inr ⟨hacyclic, hrun.trans (if_neg fun heq => hacyclic (hiff.1 heq))⟩

/-- The cycle check is right, and the topological order is one, returned exactly where there is no cycle. -/
theorem cycle_check_and_order {graph : CompiledGraph} (hids : (nodeIds graph.nodes).Nodup) (h : Closed graph.nodes graph.edges) :
    (containsCycle graph.nodes graph.edges = false ↔ Acyclic graph.edges) ∧
      (Acyclic graph.edges → ∃ ids, topologicalOrder graph = .ok ids ∧ Sorted graph.nodes graph.edges ids) ∧
      ((∃ e, topologicalOrder graph = .error e) ↔ ¬ Acyclic graph.edges) := by
  refine ⟨containsCycle_eq_false h, ?_⟩
  rcases topologicalOrder_cases hids h with ⟨hacyclic, ids, hrun, hsorted⟩ | ⟨hcyclic, hrun⟩
  · refine ⟨fun _ => ⟨ids, hrun, hsorted⟩, ?_⟩
    rw [hrun]
    simp [hacyclic]
  · exact ⟨fun hacyclic => absurd hacyclic hcyclic, fun _ => hcyclic, fun _ => ⟨_, hrun⟩⟩

/-- Two nodes with two edges between them. -/
def twinGraph : CompiledGraph where
  sourceAuthorHash := ""
  integrationBaseCommit := ""
  policyVersion := ""
  agentCatalogSnapshotHash := ""
  nodes := [{ id := "b", nodeType := .output, title := "" }, { id := "a", nodeType := .input, title := "" }]
  edges := [{ id := "e1", fromNode := "a", toNode := "b" }, { id := "e2", fromNode := "a", toNode := "b" }]

theorem twinGraph_closed : Closed twinGraph.nodes twinGraph.edges := by
  intro e he
  simp only [twinGraph, List.mem_cons, List.not_mem_nil, or_false] at he
  rcases he with rfl | rfl <;> decide

theorem twinGraph_ordered : ∃ ids, topologicalOrder twinGraph = .ok ids ∧ Sorted twinGraph.nodes twinGraph.edges ids := by
  obtain ⟨hcycle, horder, -⟩ := @cycle_check_and_order twinGraph (by decide) twinGraph_closed
  exact horder (hcycle.1 (by decide +kernel))

/-! ## Dominators -/

theorem sortedIds_nodup (ids : List String) : (sortedIds ids).Nodup :=
  (List.perm_insertionSort _ _).nodup_iff.2 (List.nodup_dedup ids)

theorem mem_sortedIds {ids : List String} : u ∈ sortedIds ids ↔ u ∈ ids := by
  rw [sortedIds, (List.perm_insertionSort _ _).mem_iff, List.mem_dedup]

/-- The sources of the edges into a node. -/
def predecessors (edges : List WorkflowEdge) (id : String) : List String := (incoming edges id).map WorkflowEdge.fromNode

theorem edge_predecessors : Dominators.Edge (predecessors edges) = Adjacent edges := by
  funext a b
  simp [Dominators.Edge, predecessors, incoming, Adjacent, and_comm, and_assoc]

theorem updatedDominators_eq : DraftValidator.updatedDominators ids edges = Dominators.update ids (predecessors edges) := rfl

theorem dominatorPasses_eq (ids : List String) (n : Nat) (D : String → List String) :
    DraftValidator.dominatorPasses ids edges n D = Dominators.passes ids (predecessors edges) n D := by
  induction n generalizing D with
  | zero => rfl
  | succ n ih =>
    rw [DraftValidator.dominatorPasses, Dominators.passes]
    simp only [ih]
    rfl

theorem dominators_eq (nodes : List WorkflowNode) (edges : List WorkflowEdge) :
    DraftValidator.dominators nodes edges = Dominators.dominators (sortedIds (nodeIds nodes)) (predecessors edges) := by
  rw [DraftValidator.dominators, Dominators.dominators, dominatorPasses_eq]
  congr 1
  funext id
  rw [Dominators.start, predecessors, List.isEmpty_map]

/-- The dominators of a node are what every path to it passes through, and another update changes nothing. -/
theorem dominators_correct (h : Closed nodes edges) (hv : v ∈ nodeIds nodes) :
    (∀ u, u ∈ DraftValidator.dominators nodes edges v ↔ u ∈ nodeIds nodes ∧
      ∀ p r, r ∈ nodeIds nodes → incoming edges r = [] → Dominators.IsPath (Adjacent edges) p r v → u ∈ p) ∧
      DraftValidator.updatedDominators (sortedIds (nodeIds nodes)) edges (DraftValidator.dominators nodes edges) v =
        DraftValidator.dominators nodes edges v := by
  have hpreds : ∀ v, ∀ p ∈ predecessors edges v, v ∈ sortedIds (nodeIds nodes) ∧ p ∈ sortedIds (nodeIds nodes) := by
    intro v p hp
    obtain ⟨e, he, rfl⟩ := List.mem_map.1 hp
    obtain ⟨hmem, hto⟩ := List.mem_filter.1 he
    rw [mem_sortedIds, mem_sortedIds, ← of_decide_eq_true hto]
    exact ⟨(h e hmem).2, (h e hmem).1⟩
  have hids := sortedIds_nodup (nodeIds nodes)
  have hv' := mem_sortedIds.2 hv
  rw [dominators_eq, updatedDominators_eq]
  refine ⟨fun u => ?_, Dominators.update_dominators hpreds hids hv'⟩
  rw [Dominators.mem_dominators hpreds hids hv', mem_sortedIds, edge_predecessors]
  simp only [Dominators.Root, mem_sortedIds, predecessors, List.map_eq_nil_iff, and_imp]

theorem twinGraph_dominated : "a" ∈ DraftValidator.dominators twinGraph.nodes twinGraph.edges "b" ∧
    ∀ p r, r ∈ nodeIds twinGraph.nodes → incoming twinGraph.edges r = [] →
      Dominators.IsPath (Adjacent twinGraph.edges) p r "b" → "a" ∈ p := by
  have hmem : "a" ∈ DraftValidator.dominators twinGraph.nodes twinGraph.edges "b" := by decide +kernel
  exact ⟨hmem, (((dominators_correct twinGraph_closed (by decide)).1 "a").1 hmem).2⟩

end AgentHub
