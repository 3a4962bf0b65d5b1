import AgentHub.Workflow.OrderFree
/-!
# The edges of a compiled graph

Where each edge of a compiled graph comes from: it is the author's, or it stays inside the chain of a write task, or it
leaves a chain, to the output or to what followed the task (`Injected.edge_cases`).
-/

namespace AgentHub

open Lib Workspace

/-! ## The steps of a chain -/

theorem testSteps_types {source : WorkflowNode} {step : ChainStep} (h : step ∈ testSteps source) :
    step.nodeType = .test ∨ step.nodeType = .commandGuard := by
  unfold testSteps at h
  dsimp only at h
  split at h
  · obtain rfl := List.mem_singleton.1 h
    exact .inl rfl
  split at h
  · obtain ⟨pair, hpair, hstep⟩ := List.mem_flatten.1 h
    obtain ⟨i, _, rfl⟩ := List.mem_mapIdx.1 hpair
    simp only [List.mem_cons, List.not_mem_nil, or_false] at hstep
    rcases hstep with rfl | rfl
    · exact .inr rfl
    · exact .inl rfl
  · simp only [missingSteps, List.mem_cons, List.not_mem_nil, or_false] at h
    rcases h with rfl | rfl
    · exact .inr rfl
    · exact .inl rfl

/-- The node of a step of a chain, by its place. -/
theorem mem_chainIds {H : Host} {sourceId : String} {tests : List ChainStep} {p : String × NodeType} :
    p ∈ chainIds H sourceId tests ↔
      ∃ i step, (chainSteps tests)[i]? = some step ∧ p = (systemId H sourceId step.rule (i + 1), step.nodeType) := by
  rw [chainIds, List.mem_mapIdx]
  constructor
  · rintro ⟨i, hi, rfl⟩
    exact ⟨i, _, List.getElem?_eq_getElem hi, rfl⟩
  · rintro ⟨i, step, hstep, rfl⟩
    obtain ⟨hi, rfl⟩ := List.getElem?_eq_some_iff.1 hstep
    exact ⟨i, hi, rfl⟩

theorem chainNodes_types (H : Host) (source : WorkflowNode) (tests : List ChainStep) :
    (chainNodes H source tests).map (fun m => (m.id, m.nodeType)) = chainIds H source.id tests := by
  rw [chainNodes, chainIds, map_mapIdx]
  rfl

/-- A step past the tests is one of the three that end every chain. -/
theorem chainSteps_getElem? {tests : List ChainStep} {i : Nat} {step : ChainStep} (h : (chainSteps tests)[i]? = some step) :
    step ∈ tests ∨ step.nodeType = .patchGuard ∨ step.nodeType = .riskClassifier ∨
      (i = tests.length + 2 ∧ step.rule = "write.changeset_approval.v1" ∧ step.nodeType = .approval) ∨
      (i = tests.length + 3 ∧ step.rule = "write.merge_patch.v1" ∧ step.nodeType = .mergePatch) := by
  cases i with
  | zero =>
    simp only [chainSteps, List.cons_append, List.getElem?_cons_zero, Option.some.injEq] at h
    exact .inr (.inl (h ▸ rfl))
  | succ i =>
    simp only [chainSteps, List.cons_append, List.getElem?_cons_succ] at h
    by_cases hi : i < tests.length
    · rw [List.getElem?_append_left hi] at h
      exact .inl (List.mem_of_getElem? h)
    · rw [List.getElem?_append_right (by omega)] at h
      obtain ⟨k, hk⟩ : ∃ k, i = tests.length + k := ⟨i - tests.length, by omega⟩
      subst hk
      simp only [Nat.add_sub_cancel_left] at h
      -- after the tests come the risk classifier, the approval and the merge
      rcases k with _ | _ | _ | k
      · obtain rfl := Option.some.inj h
        exact .inr (.inr (.inl rfl))
      · obtain rfl := Option.some.inj h
        exact .inr (.inr (.inr (.inl ⟨rfl, rfl, rfl⟩)))
      · obtain rfl := Option.some.inj h
        exact .inr (.inr (.inr (.inr ⟨rfl, rfl, rfl⟩)))
      · simp at h

section
variable {H : Host} {source : WorkflowNode}

/-- The approval of a chain is where its edges say. -/
theorem approval_of_mem {id : String} (h : (id, NodeType.approval) ∈ chainIds H source.id (testSteps source)) :
    id = systemId H source.id "write.changeset_approval.v1" ((testSteps source).length + 3) := by
  obtain ⟨i, step, hstep, heq⟩ := mem_chainIds.1 h
  obtain ⟨rfl, htype⟩ := Prod.mk.inj heq
  rcases chainSteps_getElem? hstep with hmem | ht | ht | ⟨rfl, hrule, -⟩ | ⟨-, -, ht⟩
  · rcases testSteps_types hmem with ht | ht <;> rw [ht] at htype <;> cases htype
  · rw [ht] at htype
    cases htype
  · rw [ht] at htype
    cases htype
  · rw [hrule]
  · rw [ht] at htype
    cases htype

/-- So is its merge. -/
theorem merge_of_mem {id : String} (h : (id, NodeType.mergePatch) ∈ chainIds H source.id (testSteps source)) :
    id = systemId H source.id "write.merge_patch.v1" ((testSteps source).length + 4) := by
  obtain ⟨i, step, hstep, heq⟩ := mem_chainIds.1 h
  obtain ⟨rfl, htype⟩ := Prod.mk.inj heq
  rcases chainSteps_getElem? hstep with hmem | ht | ht | ⟨-, -, ht⟩ | ⟨rfl, hrule, -⟩
  · rcases testSteps_types hmem with ht | ht <;> rw [ht] at htype <;> cases htype
  · rw [ht] at htype
    cases htype
  · rw [ht] at htype
    cases htype
  · rw [ht] at htype
    cases htype
  · rw [hrule]

theorem approval_mem (H : Host) (sourceId : String) (tests : List ChainStep) :
    (systemId H sourceId "write.changeset_approval.v1" (tests.length + 3), NodeType.approval) ∈ chainIds H sourceId tests :=
  mem_chainIds.2 ⟨tests.length + 2, ⟨.approval, "write.changeset_approval.v1", "Approve final change set", none, none⟩,
    by simp [chainSteps], rfl⟩

theorem merge_mem (H : Host) (sourceId : String) (tests : List ChainStep) :
    (systemId H sourceId "write.merge_patch.v1" (tests.length + 4), NodeType.mergePatch) ∈ chainIds H sourceId tests :=
  mem_chainIds.2 ⟨tests.length + 3, ⟨.mergePatch, "write.merge_patch.v1", "Merge approved patch", none, none⟩,
    by simp [chainSteps], rfl⟩

end

/-! ## The edges of a chain -/

/-- When a node of a chain sends the run to the output: when it fails, or rejects, and the merge of a task that nothing
followed when it succeeds. -/
def StopsOn (last : Bool) (nodeType : NodeType) (c : EdgeCondition) : Prop :=
  nodeType = .approval ∧ c = .rejected ∨ nodeType ≠ .approval ∧ c = .failure ∨
    nodeType = .mergePatch ∧ last = true ∧ c = .success

section
variable {H : Host} {source : WorkflowNode} {original : List WorkflowEdge} {outputId : String} {spec : EdgeSpec}

/-- An edge of a chain leads on inside it, to the output, or from its merge to what followed the task. -/
theorem chainEdgeSpecs_cases (h : spec ∈ chainEdgeSpecs H source.id (testSteps source) original outputId) :
    ((spec.fromNode = source.id ∨ spec.fromNode ∈ (chainIds H source.id (testSteps source)).map Prod.fst) ∧
        spec.toNode ∈ (chainIds H source.id (testSteps source)).map Prod.fst) ∨
      (∃ p ∈ chainIds H source.id (testSteps source), spec.fromNode = p.1 ∧ spec.toNode = outputId ∧
        StopsOn original.isEmpty p.2 spec.condition) ∨
      ∃ e ∈ original, ∃ id, (id, NodeType.mergePatch) ∈ chainIds H source.id (testSteps source) ∧ spec.fromNode = id ∧
        spec.toNode = e.toNode ∧ spec.condition = .success := by
  have hfrom := chainEdgeSpecs_from h
  simp only [chainEdgeSpecs, List.mem_append, List.mem_singleton, List.mem_mapIdx, List.mem_map, List.mem_filter] at h
  -- the edge into the chain, those inside it, the rejection, the failures, what follows the merge
  rcases h with (((rfl | ⟨i, hi, rfl⟩) | rfl) | ⟨p, ⟨⟨i, hi, rfl⟩, hne⟩, rfl⟩) | h
  · refine .inl ⟨hfrom, List.mem_map.2 ⟨_, mem_chainIds.2 ⟨0, _, rfl, rfl⟩, rfl⟩⟩
  · refine .inl ⟨hfrom, List.mem_map_of_mem ?_⟩
    rw [List.getElem_zip]
    exact List.mem_of_mem_tail (List.getElem_mem _)
  · exact .inr (.inl ⟨_, approval_mem H source.id _, rfl, rfl, .inl ⟨rfl, rfl⟩⟩)
  · exact .inr (.inl ⟨_, List.getElem_mem hi, rfl, rfl, .inr (.inl ⟨of_decide_eq_true hne, rfl⟩)⟩)
  · split at h
    next hnil =>
      obtain rfl := List.mem_singleton.1 h
      exact .inr (.inl ⟨_, merge_mem H source.id _, rfl, rfl, .inr (.inr ⟨rfl, by simp [hnil], rfl⟩)⟩)
    · obtain ⟨i, hi, rfl⟩ := List.mem_mapIdx.1 h
      exact .inr (.inr ⟨_, List.getElem_mem hi, _, merge_mem H source.id _, rfl, rfl, rfl⟩)

/-- Every node of a chain has its edges to the output. -/
theorem stop_mem (outputId : String) {p : String × NodeType} (hp : p ∈ chainIds H source.id (testSteps source))
    {c : EdgeCondition} (hstop : StopsOn original.isEmpty p.2 c) :
    ∃ spec ∈ chainEdgeSpecs H source.id (testSteps source) original outputId,
      spec.fromNode = p.1 ∧ spec.toNode = outputId ∧ spec.condition = c := by
  obtain ⟨id, nodeType⟩ := p
  simp only [chainEdgeSpecs, List.mem_append, List.mem_singleton]
  rcases hstop with ⟨rfl, rfl⟩ | ⟨hne, rfl⟩ | ⟨rfl, hlast, rfl⟩
  · exact ⟨_, .inl (.inl (.inr rfl)), (approval_of_mem hp).symm, rfl, rfl⟩
  · obtain ⟨i, hi, hget⟩ := List.mem_iff_getElem.1 hp
    refine ⟨⟨id, outputId, "failure-output", i + 1, .failure⟩, .inl (.inr (List.mem_map.2 ⟨(i + 1, (id, nodeType)), ?_, rfl⟩)),
      rfl, rfl, rfl⟩
    exact List.mem_filter.2 ⟨List.mem_mapIdx.2 ⟨i, hi, by rw [hget]⟩, decide_eq_true hne⟩
  · refine ⟨⟨_, outputId, "finish", 0, .success⟩, .inr ?_, (merge_of_mem hp).symm, rfl, rfl⟩
    rw [if_pos (List.isEmpty_iff.1 hlast)]
    exact List.mem_singleton.2 rfl

/-- The merge of a chain has an edge to everything that followed the task. -/
theorem resume_mem (outputId : String) {id : String}
    (hp : (id, NodeType.mergePatch) ∈ chainIds H source.id (testSteps source)) {e : WorkflowEdge} (he : e ∈ original) :
    ∃ spec ∈ chainEdgeSpecs H source.id (testSteps source) original outputId,
      spec.fromNode = id ∧ spec.toNode = e.toNode ∧ spec.condition = .success := by
  obtain ⟨i, hi, hget⟩ := List.mem_iff_getElem.1 he
  refine ⟨⟨systemId H source.id "write.merge_patch.v1" ((testSteps source).length + 4), e.toNode, "resume-success", i + 1,
    .success⟩, ?_, (merge_of_mem hp).symm, rfl, rfl⟩
  simp only [chainEdgeSpecs, List.mem_append]
  rw [if_neg (List.ne_nil_of_mem he)]
  exact .inr (List.mem_mapIdx.2 ⟨i, hi, by rw [hget]⟩)

end

/-! ## The compiled graph -/

/-- What a graph that was compiled without errors is made of: the compiled nodes with the chains of the write tasks, and the
edges that are kept with those of the chains. -/
structure Injected (H : Host) (author : AuthorGraph) (g : CompiledGraph) (compiled : List WorkflowNode)
    (output : WorkflowNode) : Prop where
  compiles : List.Forall₂ Compiles (normalizeAuthorGraph author).nodes compiled
  outputs : compiled.filter (·.nodeType = .output) = [output]
  nodup : (nodeIds compiled).Nodup
  plain : ∀ n ∈ compiled, n.sourceNodeId = none
  nodes : g.nodes.Perm (compiled ++ (writeTasks compiled).flatMap fun source => chainNodes H source (testSteps source))
  edges : g.edges.Perm (keptEdges (nodeIds (writeTasks compiled)) (normalizeAuthorGraph author).edges ++
    (writeTasks compiled).flatMap (chainEdges H (normalizeAuthorGraph author).edges output.id))

theorem compile_injected {C : WorkflowCompiler} {author : AuthorGraph} {commit : String} {result : CompilationResult}
    {g : CompiledGraph} (h : C.compile author commit = .ok result) (hok : result.ok = true) (hg : result.graph = some g)
    (hnd : (nodeIds g.nodes).Nodup) : ∃ compiled output, Injected C.host author g compiled output := by
  obtain ⟨hvalid, compiled, hcompiled, -, hgnodes, hgedges⟩ := compile_graph h hok hg
  have hkeeps := compileNodes_forall₂ compileNode_keepsCommands hcompiled
  have hcompiles := compileNodes_compiles hcompiled
  obtain ⟨output, hout⟩ := compiled_output hvalid hcompiles
  have hcnd : (nodeIds compiled).Nodup := by
    rw [compiled_ids hcompiles]
    exact (normalized_ids author).nodup_iff.2 (compiled_valid hvalid).1
  have hnodes : g.nodes.Perm (inject C.host compiled (normalizeAuthorGraph author).edges).1 :=
    hgnodes ▸ List.perm_insertionSort _ _
  -- the ids of the chains are apart from the author's, as no id of the graph occurs twice
  have hapart : ∀ c ∈ compiledChains compiled, ∀ text ∈ c.idTexts, idOfText C.host text ∉ nodeIds compiled := by
    have hall := (hnodes.map WorkflowNode.id).nodup_iff.1 hnd
    change (nodeIds _).Nodup at hall
    rw [inject_nodes hout] at hall
    intro c hc text htext hmem
    exact (List.nodup_append.1 hall).2.2 _ hmem _ (List.mem_map_of_mem (List.mem_flatMap.2 ⟨c, hc, htext⟩)) rfl
  refine ⟨compiled, output, hcompiles, hout, hcnd, fun n hn => ?_, ?_, ?_⟩
  · obtain ⟨n', hn', hkept⟩ := forall₂_exists hkeeps.flip n hn
    obtain ⟨a, ha, rfl⟩ := mem_normalized.1 hn'
    exact hkept.source.trans (DraftValidator.commands_valid hvalid ha).1
  · simpa only [inject, hout] using hnodes
  · rw [hgedges, inject_edges_eq hout hcnd hapart]
    exact List.perm_insertionSort _ _

/-- The ids of the write tasks of an author graph. -/
def AuthorGraph.writeIds (author : AuthorGraph) : List String := nodeIds (writeTasks author.nodes)

/-- The success edges of write tasks, which their chains stand in for. -/
def AuthorGraph.ThroughChain (author : AuthorGraph) (e : WorkflowEdge) : Prop :=
  e.fromNode ∈ author.writeIds ∧ e.condition = .success

/-- No success edge leaves the task. -/
def AuthorGraph.isLast (author : AuthorGraph) (task : String) : Bool := (successEdges author.edges task).isEmpty

/-- A node of the chain of a task. -/
def CompiledGraph.ChainNode (g : CompiledGraph) (task : String) (m : WorkflowNode) : Prop :=
  m ∈ g.nodes ∧ m.sourceNodeId = some task

theorem mem_normalEdges {author : AuthorGraph} {e : WorkflowEdge} :
    e ∈ (normalizeAuthorGraph author).edges ↔ e ∈ author.edges := (List.perm_insertionSort _ _).mem_iff

theorem isLast_normal (author : AuthorGraph) (task : String) :
    (successEdges (normalizeAuthorGraph author).edges task).isEmpty = author.isLast task := by
  rw [AuthorGraph.isLast, Bool.eq_iff_iff, List.isEmpty_iff, List.isEmpty_iff, List.eq_nil_iff_forall_not_mem,
    List.eq_nil_iff_forall_not_mem]
  simp only [mem_successEdges, mem_normalEdges]

namespace Injected

variable {H : Host} {author : AuthorGraph} {g : CompiledGraph} {compiled : List WorkflowNode} {output : WorkflowNode}
  (I : Injected H author g compiled output)

include I

theorem mem_ids {v : String} : v ∈ nodeIds compiled ↔ v ∈ nodeIds author.nodes := by
  rw [compiled_ids I.compiles]
  exact (normalized_ids author).mem_iff

theorem mem_writeIds {v : String} : v ∈ nodeIds (writeTasks compiled) ↔ v ∈ author.writeIds := by
  constructor
  · intro hv
    obtain ⟨n, hn, rfl⟩ := List.mem_map.1 hv
    obtain ⟨hmem, htype, hwrite⟩ := mem_writeTasks.1 hn
    obtain ⟨n', hn', hcompiles⟩ := forall₂_exists I.compiles.flip n hmem
    obtain ⟨a, ha, rfl⟩ := mem_normalized.1 hn'
    refine List.mem_map.2 ⟨a, mem_writeTasks.2 ⟨ha, ?_, ?_⟩, hcompiles.id.symm⟩
    · exact hcompiles.nodeType.symm.trans htype
    · exact hcompiles.requiresWrite.symm.trans hwrite
  · intro hv
    obtain ⟨a, ha, rfl⟩ := List.mem_map.1 hv
    obtain ⟨hmem, htype, hwrite⟩ := mem_writeTasks.1 ha
    obtain ⟨n, hn, hcompiles⟩ := forall₂_exists I.compiles _ (mem_normalized.2 ⟨a, hmem, rfl⟩)
    exact List.mem_map.2 ⟨n, mem_writeTasks.2 ⟨hn, hcompiles.nodeType.trans htype, hcompiles.requiresWrite.trans hwrite⟩,
      hcompiles.id⟩

/-- The nodes of a chain are those that come from its task. -/
theorem chainNode_iff {source : WorkflowNode} (hs : source ∈ writeTasks compiled) {m : WorkflowNode} :
    g.ChainNode source.id m ↔ m ∈ chainNodes H source (testSteps source) := by
  have hfrom : ∀ (task c : WorkflowNode), c ∈ chainNodes H task (testSteps task) → c.sourceNodeId = some task.id := by
    intro task c hc
    obtain ⟨i, hi, rfl⟩ := List.mem_mapIdx.1 hc
    rfl
  rw [CompiledGraph.ChainNode, I.nodes.mem_iff, List.mem_append, List.mem_flatMap]
  constructor
  · rintro ⟨hm | ⟨task, htask, hm⟩, hid⟩
    · rw [I.plain m hm] at hid
      cases hid
    · have hsame : task.id = source.id := Option.some.inj ((hfrom task m hm).symm.trans hid)
      rwa [← List.inj_on_of_nodup_map (writeTasks_nodup I.nodup) htask hs hsame]
  · intro hm
    exact ⟨.inr ⟨source, hs, hm⟩, hfrom source m hm⟩

/-- A node of a chain by its id and type. -/
theorem mem_chain {source : WorkflowNode} (hs : source ∈ writeTasks compiled) {p : String × NodeType} :
    p ∈ chainIds H source.id (testSteps source) ↔ ∃ m, g.ChainNode source.id m ∧ (m.id, m.nodeType) = p := by
  rw [← chainNodes_types, List.mem_map]
  simp only [I.chainNode_iff hs]

theorem mem_chain_fst {source : WorkflowNode} (hs : source ∈ writeTasks compiled) {v : String} :
    v ∈ (chainIds H source.id (testSteps source)).map Prod.fst ↔ ∃ m, g.ChainNode source.id m ∧ m.id = v := by
  rw [List.mem_map]
  constructor
  · rintro ⟨p, hp, rfl⟩
    obtain ⟨m, hm, rfl⟩ := (I.mem_chain hs).1 hp
    exact ⟨m, hm, rfl⟩
  · rintro ⟨m, hm, rfl⟩
    exact ⟨_, (I.mem_chain hs).2 ⟨m, hm, rfl⟩, rfl⟩

theorem mem_edges {e : WorkflowEdge} : e ∈ g.edges ↔ (e ∈ author.edges ∧ ¬ author.ThroughChain e) ∨
    ∃ source ∈ writeTasks compiled, ∃ spec ∈ chainEdgeSpecs H source.id (testSteps source)
      (successEdges (normalizeAuthorGraph author).edges source.id) output.id, systemEdge H source.id spec = e := by
  rw [I.edges.mem_iff, List.mem_append, List.mem_flatMap, keptEdges, List.mem_filter, mem_normalEdges, decide_eq_true_eq,
    I.mem_writeIds]
  simp only [chainEdges, List.mem_map, AuthorGraph.ThroughChain]

/-- The write task of an id, compiled. -/
theorem source_of {task : String} (h : task ∈ author.writeIds) : ∃ source ∈ writeTasks compiled, source.id = task :=
  List.mem_map.1 (I.mem_writeIds.2 h)

/-- Where the edges of a compiled graph come from. -/
theorem edge_cases {e : WorkflowEdge} (he : e ∈ g.edges) : (e ∈ author.edges ∧ ¬ author.ThroughChain e) ∨
    ∃ task ∈ author.writeIds,
      ((e.fromNode = task ∨ ∃ m, g.ChainNode task m ∧ m.id = e.fromNode) ∧ ∃ m, g.ChainNode task m ∧ m.id = e.toNode) ∨
      (∃ m, g.ChainNode task m ∧ m.id = e.fromNode ∧ e.toNode = output.id ∧
        StopsOn (author.isLast task) m.nodeType e.condition) ∨
      ∃ a ∈ author.edges, a.fromNode = task ∧ a.condition = .success ∧ ∃ m, g.ChainNode task m ∧
        m.nodeType = .mergePatch ∧ m.id = e.fromNode ∧ e.toNode = a.toNode ∧ e.condition = .success := by
  rcases I.mem_edges.1 he with hkept | ⟨source, hs, spec, hspec, rfl⟩
  · exact .inl hkept
  refine .inr ⟨source.id, I.mem_writeIds.1 (List.mem_map_of_mem hs), ?_⟩
  rcases chainEdgeSpecs_cases hspec with ⟨hfrom, hto⟩ | ⟨p, hp, hfrom, hto, hstop⟩ | ⟨a, ha, id, hid, hfrom, hto, hc⟩
  · refine .inl ⟨?_, (I.mem_chain_fst hs).1 hto⟩
    exact hfrom.imp_right fun h => (I.mem_chain_fst hs).1 h
  · obtain ⟨m, hm, rfl⟩ := (I.mem_chain hs).1 hp
    rw [isLast_normal] at hstop
    exact .inr (.inl ⟨m, hm, hfrom.symm, hto, hstop⟩)
  · obtain ⟨m, hm, heq⟩ := (I.mem_chain hs).1 hid
    obtain ⟨rfl, htype⟩ := Prod.mk.inj heq
    obtain ⟨hmem, hafrom, hac⟩ := mem_successEdges.1 ha
    exact .inr (.inr ⟨a, mem_normalEdges.1 hmem, hafrom, hac, m, hm, htype, hfrom.symm, hto, hc⟩)

theorem kept_mem {e : WorkflowEdge} (he : e ∈ author.edges) (h : ¬ author.ThroughChain e) : e ∈ g.edges :=
  I.mem_edges.2 (.inl ⟨he, h⟩)

/-- A node of a chain has its edges to the output. -/
theorem stop_edge {task : String} (ht : task ∈ author.writeIds) {m : WorkflowNode} (hm : g.ChainNode task m)
    {c : EdgeCondition} (hstop : StopsOn (author.isLast task) m.nodeType c) :
    ∃ e ∈ g.edges, e.fromNode = m.id ∧ e.toNode = output.id ∧ e.condition = c := by
  obtain ⟨source, hs, rfl⟩ := I.source_of ht
  rw [← isLast_normal] at hstop
  obtain ⟨spec, hspec, hfrom, hto, hc⟩ := stop_mem output.id ((I.mem_chain hs).2 ⟨m, hm, rfl⟩) hstop
  exact ⟨_, I.mem_edges.2 (.inr ⟨source, hs, spec, hspec, rfl⟩), hfrom, hto, hc⟩

/-- The merge of a chain has an edge to everything that follows its task. -/
theorem resume_edge {a : WorkflowEdge} (ha : a ∈ author.edges) (hthrough : author.ThroughChain a) {m : WorkflowNode}
    (hm : g.ChainNode a.fromNode m) (htype : m.nodeType = .mergePatch) :
    ∃ e ∈ g.edges, e.fromNode = m.id ∧ e.toNode = a.toNode ∧ e.condition = .success := by
  obtain ⟨source, hs, hid⟩ := I.source_of hthrough.1
  rw [← hid] at hm
  have hmerge := (I.mem_chain hs).2 ⟨m, hm, by rw [htype]⟩
  have hsuccess : a ∈ successEdges (normalizeAuthorGraph author).edges source.id :=
    mem_successEdges.2 ⟨mem_normalEdges.2 ha, hid.symm, hthrough.2⟩
  obtain ⟨spec, hspec, hfrom, hto, hc⟩ := resume_mem output.id hmerge hsuccess
  exact ⟨_, I.mem_edges.2 (.inr ⟨source, hs, spec, hspec, rfl⟩), hfrom, hto, hc⟩

/-- The author's nodes are apart from those of the chains. -/
theorem not_chainNode (hnd : (nodeIds g.nodes).Nodup) {task : String} (ht : task ∈ author.writeIds) {m : WorkflowNode}
    (hm : g.ChainNode task m) : m.id ∉ nodeIds author.nodes := by
  obtain ⟨source, hs, rfl⟩ := I.source_of ht
  have hall := (I.nodes.map WorkflowNode.id).nodup_iff.1 hnd
  rw [List.map_append] at hall
  rw [← I.mem_ids]
  intro hmem
  refine (List.nodup_append.1 hall).2.2 _ hmem _ (List.mem_map_of_mem (List.mem_flatMap.2 ⟨source, hs, ?_⟩)) rfl
  exact (I.chainNode_iff hs).1 hm

/-- An author's output node has the id of the compiled one. -/
theorem output_id {n : WorkflowNode} (hn : n ∈ author.nodes) (htype : n.nodeType = .output) : n.id = output.id := by
  obtain ⟨m, hm, hcompiles⟩ := forall₂_exists I.compiles _ (mem_normalized.2 ⟨n, hn, rfl⟩)
  have hout : m ∈ compiled.filter (·.nodeType = .output) := by
    simp [hm, hcompiles.nodeType, normalizeNode, htype]
  rw [I.outputs, List.mem_singleton] at hout
  rw [← hout]
  exact hcompiles.id.symm

end Injected

end AgentHub
