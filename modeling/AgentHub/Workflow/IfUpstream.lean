import AgentHub.Workflow.CompiledRun
/-!
# What an if node finds

The condition of an if node names a node that every path to it passes through. The run reaches the if node along the author's
edges and has finished every node on the way, so the named node has finished too (`if_upstream_finished`).
-/

namespace AgentHub

open Lib Workspace WorkflowRunRepository

/-! ## Dominance in a valid graph -/

namespace DraftValidator
variable {V : DraftValidator} {author : AuthorGraph}

theorem validEdges_closed (nodes : List WorkflowNode) (edges : List WorkflowEdge) : Closed nodes (validEdges nodes edges) :=
  fun _ he => (mem_validEdges.1 he).2

theorem adjacent_valid (h : V.errors author true = []) : Adjacent (validEdges author.nodes author.edges) = Adjacent author.edges := by
  funext a b
  simp only [Adjacent, mem_validEdges, eq_iff_iff]
  constructor
  · rintro ⟨e, ⟨he, -⟩, hends⟩
    exact ⟨e, he, hends⟩
  · rintro ⟨e, he, hends⟩
    exact ⟨e, ⟨he, edge_ends h he⟩, hends⟩

theorem acyclic_of_valid (h : V.errors author true = []) : Acyclic author.edges := by
  have hcycle : containsCycle author.nodes (validEdges author.nodes author.edges) = false := by
    have hids := (compiled_valid h).1
    simp only [errors, List.append_eq_nil_iff, issueIf_nil, hids, decide_true, Bool.true_and] at h
    exact h.1.2
  have hacyclic := (containsCycle_eq_false (validEdges_closed _ _)).1 hcycle
  rw [Acyclic, adjacent_valid h] at hacyclic
  exact hacyclic

/-- The input of a valid graph starts its paths. -/
theorem input_root (h : V.errors author true = []) {n : WorkflowNode} (hn : n ∈ author.nodes) (htype : n.nodeType = .input) :
    Dominators.Root (sortedIds (nodeIds author.nodes)) (predecessors (validEdges author.nodes author.edges)) n.id := by
  refine ⟨mem_sortedIds.2 (List.mem_map_of_mem hn), ?_⟩
  have hcomplete : completeGraphErrors author.nodes (validEdges author.nodes author.edges) = [] := by
    simp only [errors, List.append_eq_nil_iff, if_true] at h
    exact h.2
  simp only [completeGraphErrors, List.append_eq_nil_iff, issueIf_nil, decide_eq_false_iff_not, not_not] at hcomplete
  obtain ⟨input, hinput⟩ := List.length_eq_one_iff.1 hcomplete.1.1.1.1.1
  have hnoin := hcomplete.1.1.1.2
  simp only [hinput, issueIf_nil, Bool.not_eq_false', List.isEmpty_iff] at hnoin
  have hmem : n ∈ author.nodes.filter (fun n => n.nodeType = .input) := List.mem_filter.2 ⟨hn, decide_eq_true htype⟩
  rw [hinput, List.mem_singleton] at hmem
  rw [predecessors, hmem, hnoin]
  rfl

/-- The node that a condition names is another one, and there is no way around it. -/
theorem condition_dominates (h : V.errors author true = []) {n : WorkflowNode} (hn : n ∈ author.nodes)
    (htype : n.nodeType = .ifNode) : ∃ c, n.ifCondition = some c ∧ c.upstreamNodeId ∈ nodeIds author.nodes ∧
      n.id ≠ c.upstreamNodeId ∧ ∀ k, ¬ Dominators.Around (Adjacent author.edges)
        (Dominators.Root (sortedIds (nodeIds author.nodes)) (predecessors (validEdges author.nodes author.edges)))
        c.upstreamNodeId k n.id := by
  obtain ⟨c, hc, hknown, -⟩ := condition_valid h hn htype
  have hcondition := List.flatMap_eq_nil_iff.1 (errors_nil h).2 n (List.mem_filter.2 ⟨hn, by simp [htype]⟩)
  have hisSome : (nodeById author.nodes c.upstreamNodeId).isNone = false := by
    obtain ⟨u, hu, hid⟩ := List.mem_map.1 hknown
    rw [(nodeById_eq_some (compiled_valid h).1).2 ⟨hu, hid⟩]
    rfl
  simp only [hc, ifConditionErrors, hisSome, Bool.false_eq_true, if_false, List.append_eq_nil_iff] at hcondition
  obtain ⟨hupstream, -⟩ := hcondition
  split at hupstream
  · cases hupstream
  next hpred =>
    rw [issueIf_nil, Bool.not_eq_false', List.contains_iff_mem, dominators_eq] at hupstream
    -- the dominators are computed over the valid edges, whose ends are nodes of the graph
    have hpreds : ∀ v, ∀ p ∈ predecessors (validEdges author.nodes author.edges) v,
        v ∈ sortedIds (nodeIds author.nodes) ∧ p ∈ sortedIds (nodeIds author.nodes) := by
      intro v p hp
      obtain ⟨e, he, rfl⟩ := List.mem_map.1 hp
      obtain ⟨hmem, hto⟩ := List.mem_filter.1 he
      obtain ⟨hfrom, hin⟩ := validEdges_closed _ _ e hmem
      exact ⟨mem_sortedIds.2 (of_decide_eq_true hto ▸ hin), mem_sortedIds.2 hfrom⟩
    have hmem := (Dominators.mem_dominators hpreds (sortedIds_nodup _) (mem_sortedIds.2 (List.mem_map_of_mem hn))).1 hupstream
    refine ⟨c, hc, hknown, fun heq => ?_, fun k hk => ?_⟩
    -- a node that named itself would be its own predecessor, on a cycle
    · rw [not_not, transitivePredecessors, List.mem_dedup, List.mem_flatMap] at hpred
      obtain ⟨x, hx, hreach⟩ := hpred
      obtain ⟨e, he, rfl⟩ := List.mem_map.1 hx
      obtain ⟨hedge, hto⟩ := List.mem_filter.1 he
      rw [mem_reverseReachable, adjacent_valid h, ← heq] at hreach
      exact acyclic_of_valid h n.id
        (Relation.TransGen.tail' hreach ⟨e, (mem_validEdges.1 hedge).1, rfl, of_decide_eq_true hto⟩)
    · obtain ⟨p, r, hr, hpath, hu⟩ := hk.path
      rw [← adjacent_valid h, ← edge_predecessors] at hpath
      exact hu (hmem.2 p r hr hpath)

end DraftValidator

/-! ## The named node in a run -/

/-- On a path of nodes that the run passed, a node has been passed itself unless the path leads around it. -/
theorem passed_cases {author : AuthorGraph} {g : CompiledGraph} {s : RunState} {root : String → Prop} {input u v : String}
    (hroot : root input) (h : Relation.ReflTransGen (author.Passed g s) input v) :
    v = u ∨ (∃ k, Dominators.Around (Adjacent author.edges) root u k v) ∨ ∃ o, s.mark u = .done (some o) := by
  induction h with
  | refl =>
    by_cases hu : input = u
    · exact .inl hu
    · exact .inr (.inl ⟨0, .root hroot hu⟩)
  | @tail a b _ hstep ih =>
    obtain ⟨⟨e, he, hfrom, hto, -⟩, hdone⟩ := hstep
    rcases ih with rfl | ⟨k, hk⟩ | hu
    · exact .inr (.inr hdone)
    · by_cases hb : b = u
      · exact .inl hb
      · exact .inr (.inl ⟨k + 1, .step hk ⟨e, he, hfrom, hto⟩ hb⟩)
    · exact .inr (.inr hu)

/-- In every state of a run of a compiled graph, the node that the condition of an if node names has finished with an outcome
by the time the if node is ready: it is neither skipped nor superseded, and it is the one that the executor looks at. -/
theorem if_upstream_finished {C : WorkflowCompiler} {V : ExecutableValidator} {H : Digests} {author : AuthorGraph}
    {commit : String} {result : CompilationResult} {g : CompiledGraph} {rid : String} {db₀ db : Db} {s₀ s : RunState}
    (h : C.compile author commit = .ok result) (hok : result.ok = true) (hg : result.graph = some g) (haccept : V.Accepts g)
    (hfresh : FreshRun db₀ rid g s₀) (hrun : Relation.ReflTransGen (ScheduleStep H rid) db₀ db) (hs : db.runState rid = some s)
    {n : WorkflowNode} (hn : n ∈ author.nodes) (htype : n.nodeType = .ifNode) {r : NodeRunRow} (hr : r ∈ s.rows)
    (hid : r.nodeId = n.id) (hleft : r.status ≠ .pending) (hran : r.status ≠ .skipped) :
    ∃ c, n.ifCondition = some c ∧ ∃ u, GraphExecutor.conditionUpstream s c.upstreamNodeId = some u ∧
      u.status.isTerminal = true ∧ u.status ∉ [.skipped, .superseded] ∧ u.outcome ≠ none := by
  obtain ⟨input, output, W⟩ := haccept.wellFormed
  obtain ⟨s', hs', hinv⟩ := runInv_of_reachable W hfresh hrun
  obtain rfl : s = s' := Option.some.inj (hs.symm.trans hs')
  obtain ⟨compiled, out, I⟩ := compile_injected h hok hg W.nodup
  have A := compile_authored h hok hg
  have hvalid := (compile_graph h hok hg).1
  obtain ⟨c, hc, hknown, hne, haround⟩ := DraftValidator.condition_dominates hvalid hn htype
  obtain ⟨first, hfirst, hfid⟩ := A.input_mem W
  have hroot := DraftValidator.input_root hvalid hfirst ((A.input_iff W hfirst).2 hfid)
  have hpath := I.passed_of_ran A W hinv hn (by rw [htype]; decide) hr hid hleft hran
  -- no path to the if node avoids the named node, so the run passed it
  obtain ⟨o, ho⟩ : ∃ o, s.mark c.upstreamNodeId = .done (some o) := by
    rcases passed_cases (hfid ▸ hroot) hpath with heq | ⟨k, hk⟩ | hdone
    · exact absurd heq hne
    · exact absurd hk (haround k)
    · exact hdone
  -- the node run of the named node is the one the executor finds
  obtain ⟨m, hm, hmid⟩ := List.mem_map.1 hknown
  obtain ⟨m', hm', hcompiled⟩ := A.compiled m hm
  obtain ⟨row, hrow, hrowId⟩ := hinv.mem_row (List.mem_map_of_mem (f := WorkflowNode.id) hm')
  obtain ⟨u, hu, huid, hfound⟩ := conditionUpstream_of_mem hrow (hrowId.trans (hcompiled.id.trans hmid))
  rw [← huid, mark_of_mem hinv.node_nodup hu] at ho
  refine ⟨c, hc, u, hfound, mark_done.1 ⟨_, ho⟩, ?_, ?_⟩
  · unfold NodeRunRow.mark at ho
    cases hst : u.status <;> simp [hst] at ho ⊢
  · intro hnone
    unfold NodeRunRow.mark at ho
    cases hst : u.status <;> simp [hst, hnone] at ho

/-- The sample run when its first if node is claimed. -/
def conditionClaimed : Db :=
  (Tx.commit (claimNext conditionDigests .table "r" sampleLease sampleNow)
    (conditionStart (conditionRound conditionDb "rstart" .success))).2

theorem conditionClaimed_reached : Relation.ReflTransGen (ScheduleStep conditionDigests "r") conditionDb conditionClaimed :=
  ((conditionRound_reached conditionDb "rstart" .success).tail (.startAndReconcile _ _ _)).tail (.claimNext _ _ _)

theorem if_upstream_finished_sample : ∃ s, conditionClaimed.runState "r" = some s ∧
    (∃ r ∈ s.rows, r.nodeId = "done" ∧ r.status = .running) ∧
    ∃ u, GraphExecutor.conditionUpstream s "start" = some u ∧ u.status.isTerminal = true ∧ u.outcome ≠ none := by
  obtain ⟨result, hresult, hok, hg⟩ := conditionGraph_compiled
  have hclaimed : (conditionClaimed.runState "r").any (fun s => s.rows.any fun r => r.nodeId = "done" ∧ r.status = .running) = true := by
    decide +kernel
  obtain ⟨s, hs, hrows⟩ := Option.any_eq_true _ _ |>.1 hclaimed
  obtain ⟨r, hr, hrunning⟩ := List.any_eq_true.1 hrows
  obtain ⟨hid, hstatus⟩ := of_decide_eq_true hrunning
  have hnode : ∃ n ∈ conditionGraph.nodes, n.id = "done" ∧ n.nodeType = .ifNode ∧
      n.ifCondition = some ⟨"start", "status", .eq, .token "completed"⟩ := by
    decide
  obtain ⟨n, hn, hnid, htype, hcondition⟩ := hnode
  obtain ⟨c, hc, u, hu, hterminal, -, houtcome⟩ := if_upstream_finished hresult hok hg conditionCompiled_accepted
    conditionDb_created.toFreshRun conditionClaimed_reached hs hn htype hr (hid.trans hnid.symm) (by rw [hstatus]; decide)
    (by rw [hstatus]; decide)
  obtain rfl := Option.some.inj (hcondition.symm.trans hc)
  exact ⟨s, hs, ⟨r, hr, hid, hstatus⟩, u, hu, hterminal, houtcome⟩

end AgentHub
