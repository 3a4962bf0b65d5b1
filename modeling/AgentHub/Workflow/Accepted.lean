import AgentHub.Workflow.ExecutableValidator
import AgentHub.Lib.Token
/-!
# What acceptance implies

`WellFormed` is the shape of a graph the executable validator accepts: one input, one output, one edge
per source and outcome, joins on the output only, no cycle. It is a branching net with one token.
-/

namespace AgentHub

open Lib ExecutableValidator

/-- The validator reports no error. -/
def ExecutableValidator.Accepts (V : ExecutableValidator) (graph : CompiledGraph) : Prop :=
  (V.validate graph).errors = []

/-- The shape of an accepted graph. -/
structure WellFormed (graph : CompiledGraph) (input output : WorkflowNode) : Prop where
  nodup : (nodeIds graph.nodes).Nodup
  refs : ∀ e ∈ graph.edges, e.fromNode ∈ nodeIds graph.nodes ∧ e.toNode ∈ nodeIds graph.nodes
  inputs : graph.nodes.filter (fun n => n.nodeType = .input) = [input]
  outputs : graph.nodes.filter (fun n => n.nodeType = .output) = [output]
  no_incoming : ∀ e ∈ graph.edges, e.toNode ≠ input.id
  no_outgoing : ∀ e ∈ graph.edges, e.fromNode ≠ output.id
  reached : ∀ n ∈ graph.nodes, Relation.ReflTransGen (Adjacent graph.edges) input.id n.id
  finishes : ∀ n ∈ graph.nodes, Relation.ReflTransGen (Adjacent graph.edges) n.id output.id
  fanout : ∀ e ∈ graph.edges, ∀ e' ∈ graph.edges, e.fromNode = e'.fromNode → e.condition = e'.condition → e = e'
  joins : ∀ e ∈ graph.edges, ∀ e' ∈ graph.edges, e.toNode = e'.toNode → e.toNode ≠ output.id → e = e'
  acyclic : (Kahn.order (nodeIds graph.nodes) (graph.edges.map fun e => (e.fromNode, e.toNode))).length =
    graph.nodes.length

/-! ## Reading the passes -/

/-- What each pass of the validator found, when it found nothing. -/
structure Passes (V : ExecutableValidator) (graph : CompiledGraph) : Prop where
  duplicates : duplicateErrors graph = []
  nodes : ∀ n ∈ graph.nodes, V.nodeErrors graph.nodes n = []
  edges : ∀ e ∈ graph.edges, edgeErrors graph.nodes e = []
  cycle : (nodeIds graph.nodes).Nodup → containsCycle graph.nodes (validEdges graph.nodes graph.edges) = false
  boundaries : boundaryErrors graph.nodes (validEdges graph.nodes graph.edges) = []
  fanout : fanoutErrors graph.nodes (validEdges graph.nodes graph.edges) = []
  branches : branchErrors graph.nodes (validEdges graph.nodes graph.edges) = []
  security : ∀ n ∈ graph.nodes, isWriteTask n = true →
    chainErrors graph.nodes (validEdges graph.nodes graph.edges) n = []

theorem mem_byNodeId {nodes : List WorkflowNode} {n : WorkflowNode} : n ∈ byNodeId nodes ↔ n ∈ nodes :=
  (List.perm_insertionSort _ _).mem_iff

theorem mem_byEdgeId {edges : List WorkflowEdge} {e : WorkflowEdge} : e ∈ byEdgeId edges ↔ e ∈ edges :=
  (List.perm_insertionSort _ _).mem_iff

theorem ExecutableValidator.Accepts.passes {V : ExecutableValidator} {graph : CompiledGraph} (h : V.Accepts graph) :
    Passes V graph := by
  simp only [Accepts, validate, List.append_eq_nil_iff, List.flatMap_eq_nil_iff, mem_byNodeId, mem_byEdgeId,
    issueIf_nil, securityErrors, List.mem_filter, and_imp] at h
  obtain ⟨⟨⟨⟨⟨⟨⟨⟨⟨-, hdup⟩, hnodes⟩, hedges⟩, hcycle⟩, hbound⟩, hfan⟩, hbranch⟩, hsec⟩, -⟩ := h
  refine ⟨hdup, fun n hn => (hnodes n hn).2, hedges, fun hnd => ?_, hbound, hfan, hbranch, hsec⟩
  simpa [hnd] using hcycle

/-- The edges the passes look at are the edges of the graph. -/
theorem Passes.mem_edges {V : ExecutableValidator} {graph : CompiledGraph} (h : Passes V graph) {e : WorkflowEdge} :
    e ∈ validEdges graph.nodes graph.edges ↔ e ∈ graph.edges := by
  rw [mem_validEdges, and_iff_left_iff_imp]
  intro he
  have herr := h.edges e he
  unfold edgeErrors at herr
  split at herr
  · next source target hs ht =>
    have hmem : ∀ {id : String} {n : WorkflowNode}, nodeById graph.nodes id = some n → id ∈ nodeIds graph.nodes := by
      intro id n hn
      obtain ⟨hmem, hid⟩ := List.mem_filter.1 (List.mem_of_getLast? hn)
      exact List.mem_map.2 ⟨n, hmem, by simpa using hid⟩
    exact ⟨hmem hs, hmem ht⟩
  · simp at herr

theorem Passes.nodup {V : ExecutableValidator} {graph : CompiledGraph} (h : Passes V graph) :
    (nodeIds graph.nodes).Nodup := by
  have hdup := h.duplicates
  simp only [duplicateErrors, List.append_eq_nil_iff, List.map_eq_nil_iff, duplicates_eq_nil] at hdup
  exact hdup.1

theorem edge_ids_nodup {V : ExecutableValidator} {graph : CompiledGraph} (h : Passes V graph) :
    (graph.edges.map WorkflowEdge.id).Nodup := by
  have hdup := h.duplicates
  simp only [duplicateErrors, List.append_eq_nil_iff, List.map_eq_nil_iff, duplicates_eq_nil] at hdup
  exact hdup.2

theorem validEdges_perm {V : ExecutableValidator} {graph : CompiledGraph} (h : Passes V graph) :
    (validEdges graph.nodes graph.edges).Perm graph.edges := by
  have hall : ∀ e ∈ byEdgeId graph.edges, decide (e.fromNode ∈ nodeIds graph.nodes ∧ e.toNode ∈ nodeIds graph.nodes) = true := by
    intro e he
    exact decide_eq_true (mem_validEdges.1 (h.mem_edges.2 (mem_byEdgeId.1 he))).2
  rw [validEdges, List.filter_eq_self.2 hall]
  exact List.perm_insertionSort _ _

/-- Two members of a list of at most one element are equal. -/
theorem eq_of_length_le_one {α : Type} {l : List α} (h : l.length ≤ 1) {a b : α} (ha : a ∈ l) (hb : b ∈ l) : a = b := by
  match l, h with
  | [], _ => simp at ha
  | [x], _ => rw [List.mem_singleton.1 ha, List.mem_singleton.1 hb]

theorem Passes.one_edge {V : ExecutableValidator} {graph : CompiledGraph} (h : Passes V graph) {e e' : WorkflowEdge}
    (he : e ∈ graph.edges) (he' : e' ∈ graph.edges) (hfrom : e.fromNode = e'.fromNode)
    (hcond : e.condition = e'.condition) : e = e' := by
  have hfan := h.fanout
  simp only [fanoutErrors, List.append_eq_nil_iff, List.flatMap_eq_nil_iff, issueIf_nil, decide_eq_false_iff_not,
    Nat.not_lt] at hfan
  have hid : e.fromNode ∈ sortedIds ((validEdges graph.nodes graph.edges).map WorkflowEdge.fromNode) := by
    rw [sortedIds, (List.perm_insertionSort _ _).mem_iff, List.mem_dedup]
    exact List.mem_map_of_mem (h.mem_edges.2 he)
  have hone := hfan.1 _ hid e.condition (by cases e.condition <;> simp [allConditions])
  exact eq_of_length_le_one hone (mem_outgoingOn.2 ⟨h.mem_edges.2 he, rfl, rfl⟩)
    (mem_outgoingOn.2 ⟨h.mem_edges.2 he', hfrom.symm, hcond.symm⟩)

theorem Passes.one_incoming {V : ExecutableValidator} {graph : CompiledGraph} (h : Passes V graph)
    {e e' : WorkflowEdge} (he : e ∈ graph.edges) (he' : e' ∈ graph.edges) (hto : e.toNode = e'.toNode)
    {n : WorkflowNode} (hn : n ∈ graph.nodes) (hid : n.id = e.toNode) (htype : n.nodeType ≠ .output) : e = e' := by
  have hfan := h.fanout
  simp only [fanoutErrors, List.append_eq_nil_iff, List.flatMap_eq_nil_iff, issueIf_nil] at hfan
  have hone := hfan.2 n hn
  simp only [htype, ne_eq, not_false_eq_true, decide_true, Bool.and_true, decide_eq_false_iff_not, Nat.not_lt] at hone
  refine eq_of_length_le_one hone (List.mem_filter.2 ⟨h.mem_edges.2 he, ?_⟩) (List.mem_filter.2 ⟨h.mem_edges.2 he', ?_⟩)
  · simp [hid]
  · simp [hid, hto]

/-- The order of the edges does not matter to the sort. -/
theorem Passes.acyclic {V : ExecutableValidator} {graph : CompiledGraph} (h : Passes V graph)
    (hlen : (Kahn.order (nodeIds graph.nodes) ((validEdges graph.nodes graph.edges).map
      fun e => (e.fromNode, e.toNode))).length = (nodeIds graph.nodes).length) :
    (Kahn.order (nodeIds graph.nodes) (graph.edges.map fun e => (e.fromNode, e.toNode))).length =
      graph.nodes.length := by
  have hrefs : ∀ e ∈ graph.edges, e.fromNode ∈ nodeIds graph.nodes ∧ e.toNode ∈ nodeIds graph.nodes :=
    fun e he => (mem_validEdges.1 (h.mem_edges.2 he)).2
  have hmem : ∀ a b, (a, b) ∈ graph.edges.map (fun e => (e.fromNode, e.toNode)) ↔
      (a, b) ∈ (validEdges graph.nodes graph.edges).map (fun e => (e.fromNode, e.toNode)) := by
    intro a b
    exact ((validEdges_perm h).map _).mem_iff.symm
  have hends : ∀ p ∈ graph.edges.map (fun e => (e.fromNode, e.toNode)),
      p.1 ∈ nodeIds graph.nodes ∧ p.2 ∈ nodeIds graph.nodes := by
    intro p hp
    obtain ⟨e, he, rfl⟩ := List.mem_map.1 hp
    exact hrefs e he
  rw [show graph.nodes.length = (nodeIds graph.nodes).length by simp [nodeIds]]
  refine Kahn.order_complete h.nodup (fun p hp => (hends p hp).2) (fun p hp => (hends p hp).1)
    (fun v => (Kahn.order (nodeIds graph.nodes) ((validEdges graph.nodes graph.edges).map
      fun e => (e.fromNode, e.toNode))).idxOf v) ?_
  rintro ⟨a, b⟩ hp
  exact Kahn.idxOf_lt h.nodup (fun q hq => (hends q ((hmem q.1 q.2).2 hq)).2) hlen ((hmem a b).1 hp)

/-! ## The shape -/

theorem ExecutableValidator.Accepts.wellFormed {V : ExecutableValidator} {graph : CompiledGraph} (h : V.Accepts graph) :
    ∃ input output, WellFormed graph input output := by
  have hp := h.passes
  have hbound := hp.boundaries
  simp only [boundaryErrors, List.append_eq_nil_iff, List.flatMap_eq_nil_iff, issueIf_nil, decide_eq_false_iff_not,
    not_not] at hbound
  obtain ⟨⟨⟨⟨⟨⟨hin, hout⟩, hnoin⟩, hnoout⟩, -⟩, hreach⟩, hfinish⟩ := hbound
  obtain ⟨input, hinput⟩ := List.length_eq_one_iff.1 hin
  obtain ⟨output, houtput⟩ := List.length_eq_one_iff.1 hout
  simp only [hinput, houtput, issueIf_nil, Bool.not_eq_false', List.isEmpty_iff, List.map_eq_nil_iff,
    List.filter_eq_nil_iff] at hnoin hnoout hreach hfinish
  have hsorted : ∀ {n : WorkflowNode}, n ∈ graph.nodes → n.id ∈ sortedIds (nodeIds graph.nodes) := by
    intro n hn
    rw [sortedIds, (List.perm_insertionSort _ _).mem_iff, List.mem_dedup]
    exact List.mem_map_of_mem hn
  have hadj : Adjacent (validEdges graph.nodes graph.edges) = Adjacent graph.edges := by
    funext a b
    simp only [Adjacent, hp.mem_edges]
  have houtMem : output ∈ graph.nodes ∧ output.nodeType = .output := by
    have hmem : output ∈ graph.nodes.filter (fun n => n.nodeType = .output) := by simp [houtput]
    simpa using hmem
  refine ⟨input, output, hp.nodup, fun e he => (mem_validEdges.1 (hp.mem_edges.2 he)).2, hinput, houtput, ?_, ?_,
    ?_, ?_, fun e he e' he' hf hc => hp.one_edge he he' hf hc, ?_, ?_⟩
  · intro e he hto
    have hmem : e ∈ incoming (validEdges graph.nodes graph.edges) input.id :=
      List.mem_filter.2 ⟨hp.mem_edges.2 he, by simp [hto]⟩
    rw [hnoin] at hmem
    simp at hmem
  · intro e he hfrom
    have hmem : e ∈ outgoing (validEdges graph.nodes graph.edges) output.id :=
      List.mem_filter.2 ⟨hp.mem_edges.2 he, by simp [hfrom]⟩
    rw [hnoout] at hmem
    simp at hmem
  · intro n hn
    have hmem := hreach n.id (hsorted hn)
    simp only [decide_eq_true_eq, not_not, mem_reachable] at hmem
    exact hadj ▸ hmem
  · intro n hn
    have hmem := hfinish n.id (hsorted hn)
    simp only [decide_eq_true_eq, not_not, mem_reverseReachable] at hmem
    exact hadj ▸ hmem
  · intro e he e' he' hto hne
    obtain ⟨n, hn, hid⟩ := List.mem_map.1 (mem_validEdges.1 (hp.mem_edges.2 he)).2.2
    refine hp.one_incoming he he' hto hn hid fun htype => hne ?_
    have hmem : n ∈ graph.nodes.filter (fun n => n.nodeType = .output) := by simp [hn, htype]
    rw [houtput, List.mem_singleton] at hmem
    rw [← hid, hmem]
  · have hcycle := hp.cycle hp.nodup
    simp only [containsCycle, hp.nodup.dedup, decide_eq_false_iff_not, not_not] at hcycle
    exact hp.acyclic hcycle

end AgentHub
