import AgentHub.Workflow.Accepted
/-!
# The chain of a write task

What acceptance says about a write task: its system nodes are exactly the nodes of one happy path that
leaves the task, starts with its patch guard and ends risk classifier, approval, merge.
-/

namespace AgentHub

open ExecutableValidator

/-- The nodes of `chain` follow `current` one by one along happy edges, each a system node of `sourceId`. -/
def HappyPath (graph : CompiledGraph) (sourceId : String) : WorkflowNode → List WorkflowNode → Prop
  | _, [] => True
  | current, next :: rest =>
    next ∈ graph.nodes ∧ next.nodeType.isSystem = true ∧ next.sourceNodeId = some sourceId ∧
      (∃ e ∈ graph.edges, e.fromNode = current.id ∧ e.condition = happyCondition current ∧ e.toNode = next.id) ∧
      HappyPath graph sourceId next rest

/-- The chain of the write task `source`: every system node of the task, in the order they run. -/
structure SecurityChain (graph : CompiledGraph) (source : WorkflowNode) (chain : List WorkflowNode) : Prop where
  path : HappyPath graph source.id source chain
  nodup : (nodeIds chain).Nodup
  system : ∀ n ∈ graph.nodes, n.sourceNodeId = some source.id ↔ n ∈ chain
  ends : ∃ patch segment risk approval merge, chain = patch :: (segment ++ [risk, approval, merge]) ∧
    patch.nodeType = .patchGuard ∧ risk.nodeType = .riskClassifier ∧ approval.nodeType = .approval ∧
    merge.nodeType = .mergePatch
  one : ∀ t ∈ [NodeType.patchGuard, .riskClassifier, .approval, .mergePatch], ∀ n ∈ chain, ∀ n' ∈ chain,
    n.nodeType = t → n'.nodeType = t → n = n'
  tested : ∃ n ∈ chain, n.nodeType = .test
  exits : ∀ n ∈ chain, ∃ e ∈ graph.edges, e.fromNode = n.id ∧ e.condition = exitCondition n ∧
    ∃ output ∈ graph.nodes, output.nodeType = .output ∧ e.toNode = output.id

/-! ## The walk -/

section
variable {nodes : List WorkflowNode} {edges : List WorkflowEdge} {sourceId : String}

theorem walkChain_path {graph : CompiledGraph} (hnodes : nodes = graph.nodes) (hedges : ∀ e, e ∈ edges → e ∈ graph.edges)
    {fuel : Nat} : ∀ {seen : List String} {current : WorkflowNode},
    HappyPath graph sourceId current (walkChain nodes edges sourceId fuel seen current).1 := by
  induction fuel with
  | zero => intro seen current; trivial
  | succ fuel ih =>
    intro seen current
    simp only [walkChain]
    split
    · next edge hedge =>
      have hmem : edge ∈ outgoingOn edges current.id (happyCondition current) := by rw [hedge]; simp
      obtain ⟨he, hfrom, hcond⟩ := mem_outgoingOn.1 hmem
      split
      · trivial
      · next target htarget =>
        obtain ⟨htm, htid⟩ := List.mem_filter.1 (List.mem_of_getLast? htarget)
        split
        · trivial
        · next hsys =>
          simp only [not_or, Bool.not_eq_false, ne_eq, not_not] at hsys
          split
          · trivial
          · exact ⟨hnodes ▸ htm, hsys.1, hsys.2, ⟨edge, hedges _ he, hfrom, hcond, by simpa [eq_comm] using htid⟩, ih⟩
    · trivial

theorem walkChain_nodup {fuel : Nat} : ∀ {seen : List String} {current : WorkflowNode},
    (nodeIds (walkChain nodes edges sourceId fuel seen current).1).Nodup ∧
      ∀ id ∈ nodeIds (walkChain nodes edges sourceId fuel seen current).1, id ∉ seen := by
  induction fuel with
  | zero => intro seen current; simp [walkChain, nodeIds]
  | succ fuel ih =>
    intro seen current
    simp only [walkChain]
    split
    · split
      · simp [nodeIds]
      · next target _ =>
        split
        · simp [nodeIds]
        · split
          · simp [nodeIds]
          · next hseen =>
            obtain ⟨hnd, hout⟩ := @ih (seen ++ [target.id]) target
            simp only [nodeIds, List.map_cons, List.nodup_cons, List.mem_cons] at hnd hout ⊢
            refine ⟨⟨fun h => hout _ h (by simp), hnd⟩, ?_⟩
            rintro id (rfl | hid)
            · exact hseen
            · exact fun h => hout id hid (by simp [h])
    · simp [nodeIds]

/-- Fuel for every node still unseen is enough: more of it changes nothing. -/
theorem walkChain_fuel {fuel : Nat} : ∀ {seen : List String} {current : WorkflowNode}, seen.Nodup →
    seen ⊆ nodeIds nodes → nodes.length < seen.length + fuel →
    walkChain nodes edges sourceId (fuel + 1) seen current = walkChain nodes edges sourceId fuel seen current := by
  induction fuel with
  | zero =>
    intro seen current hnd hsub hlt
    have hle := (hnd.subperm hsub).length_le
    simp only [nodeIds, List.length_map] at hle
    omega
  | succ fuel ih =>
    intro seen current hnd hsub hlt
    rw [walkChain, walkChain]
    split
    · split
      · rfl
      · next target htarget =>
        split
        · rfl
        · split
          · rfl
          · next hseen =>
            have hmem : target.id ∈ nodeIds nodes :=
              List.mem_map_of_mem (List.mem_filter.1 (List.mem_of_getLast? htarget)).1
            simp only
            rw [ih (hnd.append (List.nodup_singleton _) (by simpa using hseen)) ?_ ?_]
            · intro id hid
              rcases List.mem_append.1 hid with hid | hid
              · exact hsub hid
              · rw [List.mem_singleton.1 hid]; exact hmem
            · simp only [List.length_append, List.length_singleton]; omega
    · rfl

end

theorem HappyPath.mem {graph : CompiledGraph} {sourceId : String} {chain : List WorkflowNode} :
    ∀ {current : WorkflowNode}, HappyPath graph sourceId current chain →
      ∀ n ∈ chain, n ∈ graph.nodes ∧ n.nodeType.isSystem = true ∧ n.sourceNodeId = some sourceId := by
  induction chain with
  | nil => intro current _ n hn; simp at hn
  | cons next rest ih =>
    rintro current ⟨hmem, hsys, hsource, -, hrest⟩ n hn
    rcases List.mem_cons.1 hn with rfl | hn
    · exact ⟨hmem, hsys, hsource⟩
    · exact ih hrest n hn

/-! ## What acceptance says -/

/-- The parts of the checks on one write task, when they found nothing. -/
structure ChainPasses (graph : CompiledGraph) (edges : List WorkflowEdge) (source : WorkflowNode) : Prop where
  one : ∀ t ∈ [NodeType.patchGuard, .riskClassifier, .approval, .mergePatch],
    (systemNodesOf graph.nodes source.id).countP (fun n => n.nodeType = t) = 1
  test : 1 ≤ (systemNodesOf graph.nodes source.id).countP (fun n => n.nodeType = .test)
  risk : source.policyRiskFloor ≠ some .l4
  patch : (chainOf graph.nodes edges source).1.head?.map WorkflowNode.nodeType = some .patchGuard
  sub : nodeIds (chainOf graph.nodes edges source).1 ⊆ nodeIds (systemNodesOf graph.nodes source.id)
  sup : nodeIds (systemNodesOf graph.nodes source.id) ⊆ nodeIds (chainOf graph.nodes edges source).1
  sequence : sequenceErrors source (chainOf graph.nodes edges source).1 = []
  exits : ∀ n ∈ systemNodesOf graph.nodes source.id, exitErrors graph.nodes edges n = []

theorem chainPasses {graph : CompiledGraph} {edges : List WorkflowEdge} {source : WorkflowNode}
    (h : chainErrors graph.nodes edges source = []) : ChainPasses graph edges source := by
  simp only [chainErrors, List.append_eq_nil_iff, List.flatMap_eq_nil_iff, issueIf_nil, decide_eq_false_iff_not,
    ne_eq, not_not, Nat.not_lt, Bool.not_eq_false', Bool.and_eq_true, decide_eq_true_eq] at h
  obtain ⟨⟨⟨⟨⟨⟨⟨⟨hone, htest⟩, -⟩, hrisk⟩, -⟩, hpatch⟩, hsub, hsup⟩, hseq⟩, hexit⟩ := h
  exact ⟨hone, htest, hrisk, hpatch, hsub, hsup, hseq, hexit⟩

/-- A chain that passes the sequence check ends risk classifier, approval, merge. -/
theorem sequence_ends {source : WorkflowNode} {chain : List WorkflowNode} (h : sequenceErrors source chain = [])
    (hpatch : chain.head?.map WorkflowNode.nodeType = some .patchGuard) :
    ∃ patch segment risk approval merge, chain = patch :: (segment ++ [risk, approval, merge]) ∧
      patch.nodeType = .patchGuard ∧ risk.nodeType = .riskClassifier ∧ approval.nodeType = .approval ∧
      merge.nodeType = .mergePatch ∧ testSegmentErrors source segment = [] ∧
      merge.systemRuleId = some "write.merge_patch.v1" ∧ approval.systemRuleId = some "write.changeset_approval.v1" ∧
      risk.systemRuleId = some "write.risk_classifier.v1" ∧ patch.systemRuleId = some "write.patch_guard.v1" := by
  unfold sequenceErrors at h
  cases chain with
  | nil => simp at hpatch
  | cons patch rest =>
    simp only at h
    split at h
    · simp at h
    · split at h
      · next merge approval risk segment hrev =>
        split at h
        · simp at h
        · next htypes =>
          simp only [not_or, ne_eq, not_not] at htypes
          simp only [List.append_eq_nil_iff, sealedRuleErrors, issueIf_nil, Bool.or_eq_false_iff, ne_eq,
            decide_eq_false_iff_not, not_not] at h
          obtain ⟨⟨⟨⟨⟨hp, hpr⟩, -, hrr⟩, -, har⟩, -, hmr⟩, hseg⟩ := h
          refine ⟨patch, segment.reverse, risk, approval, merge, ?_, hp, htypes.1, htypes.2.1, htypes.2.2, hseg, hmr,
            har, hrr, hpr⟩
          have := congrArg List.reverse hrev
          rw [List.reverse_reverse] at this
          simp [this]
      · simp at h

theorem exit_of {graph : CompiledGraph} {edges : List WorkflowEdge} {n : WorkflowNode}
    (h : exitErrors graph.nodes edges n = []) : ∃ e ∈ edges, e.fromNode = n.id ∧ e.condition = exitCondition n ∧
      ∃ output ∈ graph.nodes, output.nodeType = .output ∧ e.toNode = output.id := by
  unfold exitErrors at h
  simp only at h
  split at h
  · next edge hedge =>
    have hmem : edge ∈ outgoingOn edges n.id (exitCondition n) := by rw [hedge]; simp
    obtain ⟨he, hfrom, hcond⟩ := mem_outgoingOn.1 hmem
    simp only [issueIf_nil, decide_eq_false_iff_not, not_not, List.mem_map, List.mem_filter, decide_eq_true_eq] at h
    obtain ⟨output, ⟨ho, htype⟩, hto⟩ := h
    exact ⟨edge, he, hfrom, hcond, output, ho, htype, hto.symm⟩
  · simp at h

/-- What the walk from an accepted write task found. -/
theorem ExecutableValidator.Accepts.walked {V : ExecutableValidator} {graph : CompiledGraph} (h : V.Accepts graph)
    {source : WorkflowNode} (hs : source ∈ graph.nodes) (hw : isWriteTask source = true) : ∃ chain,
    SecurityChain graph source chain ∧ sequenceErrors source chain = [] := by
  have hp := h.passes
  have hc := chainPasses (hp.security source hs hw)
  have hpath : HappyPath graph source.id source (chainOf graph.nodes (validEdges graph.nodes graph.edges) source).1 :=
    walkChain_path rfl fun e he => (hp.mem_edges.1 he)
  have hsystem : ∀ n ∈ graph.nodes, n.sourceNodeId = some source.id ↔
      n ∈ (chainOf graph.nodes (validEdges graph.nodes graph.edges) source).1 := by
    intro n hn
    constructor
    · intro hsource
      have hmem : n.id ∈ nodeIds (systemNodesOf graph.nodes source.id) :=
        List.mem_map_of_mem (List.mem_filter.2 ⟨hn, by simp [hsource]⟩)
      obtain ⟨n', hn', hid⟩ := List.mem_map.1 (hc.sup hmem)
      rwa [List.inj_on_of_nodup_map hp.nodup (hpath.mem n' hn').1 hn hid] at hn'
    · exact fun hmem => (hpath.mem n hmem).2.2
  obtain ⟨patch, segment, risk, approval, merge, heq, h1, h2, h3, h4, -⟩ := sequence_ends hc.sequence hc.patch
  refine ⟨_, ⟨hpath, walkChain_nodup.1, hsystem, ⟨patch, segment, risk, approval, merge, heq, h1, h2, h3, h4⟩, ?_, ?_, ?_⟩,
    hc.sequence⟩
  · intro t ht n hn n' hn' hnt hnt'
    have hin : ∀ {x : WorkflowNode}, x ∈ (chainOf graph.nodes (validEdges graph.nodes graph.edges) source).1 →
        x.nodeType = t → x ∈ (systemNodesOf graph.nodes source.id).filter (fun n => n.nodeType = t) := by
      intro x hx hxt
      obtain ⟨hxm, -, hxs⟩ := hpath.mem x hx
      exact List.mem_filter.2 ⟨List.mem_filter.2 ⟨hxm, by simp [hxs]⟩, by simp [hxt]⟩
    have hone := hc.one t ht
    rw [List.countP_eq_length_filter] at hone
    exact eq_of_length_le_one (Nat.le_of_eq hone) (hin hn hnt) (hin hn' hnt')
  · obtain ⟨n, hn, htype⟩ := List.countP_pos_iff.1 hc.test
    obtain ⟨hmem, hsource⟩ := List.mem_filter.1 hn
    exact ⟨n, (hsystem n hmem).1 (by simpa using hsource), by simpa using htype⟩
  · intro n hn
    obtain ⟨hmem, -, hsource⟩ := hpath.mem n hn
    obtain ⟨e, he, hrest⟩ := exit_of (hc.exits n (List.mem_filter.2 ⟨hmem, by simp [hsource]⟩))
    exact ⟨e, hp.mem_edges.1 he, hrest⟩

theorem ExecutableValidator.Accepts.chain {V : ExecutableValidator} {graph : CompiledGraph} (h : V.Accepts graph)
    {source : WorkflowNode} (hs : source ∈ graph.nodes) (hw : isWriteTask source = true) :
    ∃ chain, SecurityChain graph source chain := by
  obtain ⟨chain, hchain, -⟩ := h.walked hs hw
  exact ⟨chain, hchain⟩

end AgentHub
