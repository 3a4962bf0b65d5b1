import AgentHub.Storage.Runs.Scheduling
import AgentHub.Workflow.SecurityChain
/-!
# The merge gate

A node of a sealed chain has one incoming edge, so it runs only after the node before it took its happy
edge. Hence the merge of a write task runs only after its whole chain succeeded and was approved.
-/

namespace AgentHub

open Lib ExecutableValidator

section
variable {graph : CompiledGraph} {input output : WorkflowNode} {W : WellFormed graph input output} {s : RunState}

/-- A system node that ran was entered by the happy edge of the node before it. -/
theorem RunInv.entered (h : RunInv W s) {current next : WorkflowNode} {e : WorkflowEdge} (he : e ∈ graph.edges)
    (hfrom : e.fromNode = current.id) (hcond : e.condition = happyCondition current) (hto : e.toNode = next.id)
    (hmem : next ∈ graph.nodes) (hsys : next.nodeType.isSystem = true) (hlive : (s.mark next.id).Live) :
    ∃ o, s.mark current.id = .done (some o) ∧ o ∈ (happyCondition current).expected := by
  have hne : e.toNode ≠ output.id := by
    rw [hto]
    intro hid
    rw [W.eq_of_id hmem W.output_mem.1 hid, W.output_mem.2] at hsys
    cases hsys
  refine h.token.by_only_edge hlive (c := happyCondition current) ⟨e, he, hfrom, hcond, hto⟩ ?_
  rintro _ _ ⟨e', he', rfl, rfl, hto'⟩
  rw [W.joins e' he' e he (hto'.trans hto.symm) (by rw [hto', ← hto]; exact hne)]
  exact ⟨hfrom, hcond⟩

/-- When the last node of a happy path ran, every node before it took its happy edge. -/
theorem RunInv.before_last (h : RunInv W s) {sourceId : String} {chain : List WorkflowNode} {last : WorkflowNode}
    (hlive : (s.mark last.id).Live) : ∀ {current : WorkflowNode},
    HappyPath graph sourceId current (chain ++ [last]) → ∀ n ∈ current :: chain,
      ∃ o, s.mark n.id = .done (some o) ∧ o ∈ (happyCondition n).expected := by
  induction chain with
  | nil =>
    rintro current ⟨hmem, hsys, -, ⟨e, he, hfrom, hcond, hto⟩, -⟩ n hn
    rw [List.mem_singleton.1 hn]
    exact h.entered he hfrom hcond hto hmem hsys hlive
  | cons next rest ih =>
    rintro current ⟨hmem, hsys, -, ⟨e, he, hfrom, hcond, hto⟩, hrest⟩ n hn
    rcases List.mem_cons.1 hn with rfl | hn
    · obtain ⟨o, ho, -⟩ := ih hrest next (by simp)
      exact h.entered he hfrom hcond hto hmem hsys (by rw [ho]; simp [Token.Mark.Live])
    · exact ih hrest n hn

theorem completed_of_allowed {st : NodeRunStatus} {o : NodeOutcome} (h : o ∈ WorkflowRunRepository.allowedOutcomes st)
    (hgood : o = .approved ∨ o = .success) : st = .completed := by
  rcases hgood with rfl | rfl <;> cases st <;> simp [WorkflowRunRepository.allowedOutcomes] at h ⊢

/-- A node run that took its happy edge is completed, with success or, an approval, approved. -/
theorem RunInv.completed (h : RunInv W s) {n : WorkflowNode} (hn : n ∈ graph.nodes) {o : NodeOutcome}
    (ho : s.mark n.id = .done (some o)) (hexp : o ∈ (happyCondition n).expected) :
    ∃ r ∈ s.rows, r.nodeId = n.id ∧ r.status = .completed ∧
      r.outcome = some (if n.nodeType = .approval then .approved else .success) := by
  obtain ⟨r, hr, hid⟩ := h.mem_row (List.mem_map_of_mem hn)
  rw [← hid, mark_of_mem h.node_nodup hr] at ho
  have heq : o = if n.nodeType = .approval then .approved else .success := by
    unfold happyCondition at hexp
    split at hexp <;> simpa [EdgeCondition.expected, *] using hexp
  have hgood : o = .approved ∨ o = .success := by
    rw [heq]
    split
    · exact .inl rfl
    · exact .inr rfl
  obtain ⟨hout, hallowed⟩ := (h.outcomes r hr).of_mark ho
  exact ⟨r, hr, hid, completed_of_allowed hallowed hgood, heq ▸ hout⟩

end

/-- The merge of a write task is ready, running or succeeded only after the task, its patch guard, its tests, its
command guards and its risk classifier, all of which it has but for the command guards, succeeded and its approval
was approved. -/
theorem merge_gate {V : ExecutableValidator} {graph : CompiledGraph} {H : Digests} {rid : String} {db₀ db : Db}
    {s₀ : RunState} (haccept : V.Accepts graph) (hfresh : FreshRun db₀ rid graph s₀)
    (hrun : Relation.ReflTransGen (ScheduleStep H rid) db₀ db) {source merge : WorkflowNode}
    (hsource : source ∈ graph.nodes) (hwrite : isWriteTask source = true) (hmerge : merge ∈ graph.nodes)
    (htype : merge.nodeType = .mergePatch) (hof : merge.sourceNodeId = some source.id) {r : NodeRunRow}
    (hr : r ∈ db.rowsOf rid) (hnode : r.nodeId = merge.id)
    (hstatus : r.status = .ready ∨ r.status = .running ∨ (r.status = .completed ∧ r.outcome = some .success)) :
    (∀ t ∈ [NodeType.patchGuard, .test, .riskClassifier, .approval],
      ∃ n ∈ graph.nodes, n.sourceNodeId = some source.id ∧ n.nodeType = t) ∧
    ∀ n ∈ graph.nodes, n = source ∨ (n.sourceNodeId = some source.id ∧
        n.nodeType ∈ [.patchGuard, .commandGuard, .test, .riskClassifier, .approval]) →
      ∃ q ∈ db.rowsOf rid, q.nodeId = n.id ∧ q.status = .completed ∧
        q.outcome = some (if n.nodeType = .approval then .approved else .success) := by
  obtain ⟨input, output, W⟩ := haccept.wellFormed
  obtain ⟨s, hs, hinv⟩ := runInv_of_reachable W hfresh hrun
  rw [(runState_eq_some.1 hs).2] at hr ⊢
  obtain ⟨chain, hchain⟩ := haccept.chain hsource hwrite
  obtain ⟨patch, segment, risk, approval, last, heq, hpt, hrt, hat, hlast⟩ := hchain.ends
  have hlive : (s.mark merge.id).Live := by
    rw [← hnode, mark_of_mem hinv.node_nodup hr]
    rcases hstatus with hst | hst | ⟨hst, ho⟩ <;> simp [NodeRunRow.mark, Token.Mark.Live, *]
  have hml : merge = last := by
    refine hchain.one .mergePatch (by simp) merge ((hchain.system merge hmerge).1 hof) last (by simp [heq]) htype hlast
  subst hml
  have hsplit : chain = (patch :: (segment ++ [risk, approval])) ++ [merge] := by simp [heq]
  have hpath := hchain.path
  rw [hsplit] at hpath
  have hof' : ∀ n ∈ chain, n ∈ graph.nodes ∧ n.sourceNodeId = some source.id := by
    intro n hn
    obtain ⟨hmem, -, hns⟩ := hchain.path.mem n hn
    exact ⟨hmem, hns⟩
  refine ⟨fun t ht => ?_, fun n hn hcase => ?_⟩
  · have hex : ∃ n ∈ chain, n.nodeType = t := by
      simp only [List.mem_cons, List.not_mem_nil, or_false] at ht
      rcases ht with rfl | rfl | rfl | rfl
      · exact ⟨patch, by simp [heq], hpt⟩
      · exact hchain.tested
      · exact ⟨risk, by simp [heq], hrt⟩
      · exact ⟨approval, by simp [heq], hat⟩
    obtain ⟨n, hn, hnt⟩ := hex
    exact ⟨n, (hof' n hn).1, (hof' n hn).2, hnt⟩
  have hmem : n ∈ source :: (patch :: (segment ++ [risk, approval])) := by
    rcases hcase with rfl | ⟨hns, hnt⟩
    · simp
    · have hmem := (hchain.system n hn).1 hns
      rw [hsplit, List.mem_append, List.mem_singleton] at hmem
      rcases hmem with hmem | rfl
      · exact List.mem_cons_of_mem _ hmem
      · rw [htype] at hnt
        simp at hnt
  obtain ⟨o, ho, hexp⟩ := hinv.before_last hlive hpath n hmem
  exact hinv.completed hn ho hexp

/-- The sample run once its approval was approved. -/
def sampleApproved : Db := sampleStart (sampleAfter [("rin", .success), ("rwrite", .success), ("rw1", .success),
  ("rw2", .success), ("rw3", .success), ("rw4", .success), ("rw5", .approved)])

theorem merge_gate_sample : ∃ q ∈ sampleApproved.rowsOf "r", q.nodeId = "w3" ∧ q.status = .completed ∧
    q.outcome = some .success := by
  have hready : ∃ r ∈ sampleApproved.rowsOf "r", r.nodeId = "w6" ∧ r.status = .ready := by decide +kernel
  obtain ⟨r, hr, hnode, hstatus⟩ := hready
  have hgate := merge_gate sample_accepted sample_fresh ((sample_reaches _).tail (.startAndReconcile _ _ _))
    (List.getElem_mem (show 2 < sampleGraph.nodes.length by decide)) (by decide)
    (List.getElem_mem (show 8 < sampleGraph.nodes.length by decide)) (by decide) (by decide) hr hnode (.inl hstatus)
  exact hgate.2 _ (List.getElem_mem (show 5 < sampleGraph.nodes.length by decide)) (.inr (by decide))

end AgentHub
