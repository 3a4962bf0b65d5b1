import AgentHub.Workflow.Handlers.Guards
import AgentHub.Workflow.SecurityChain
/-!
# The tests of a write task

Between its patch guard and its risk classifier the chain of a write task has one static test, or a guard and its test for
each command the task was given. What the handlers read off the graph about their neighbours is what stands next to them
there.
-/

namespace AgentHub

open Lib ExecutableValidator

/-! ## Neighbours in a list -/

section
variable {α : Type} {a b c : α} {l l' : List α}

/-- A member of a list of distinct members splits it in one way. -/
theorem split_unique (hnd : (l ++ a :: l').Nodup) {m m' : List α} (h : l ++ a :: l' = m ++ a :: m') : l = m ∧ l' = m' := by
  obtain ⟨-, htail, hdisjoint⟩ := List.nodup_append.1 hnd
  have hleft : a ∉ l := fun hmem => hdisjoint a hmem a List.mem_cons_self rfl
  obtain ⟨hl, -, hl'⟩ := (List.append_cons_inj_of_notMem hleft (List.nodup_cons.1 htail).1).1 h
  exact ⟨hl, hl'⟩

/-- Where a list of distinct members is cut between two neighbours, they are at the cut. -/
theorem neighbours_at_cut (hnd : (l ++ l').Nodup) (h : [a, b] <:+: l ++ l') (ha : a ∈ l) (hb : b ∈ l') :
    ∃ front back, l = front ++ [a] ∧ l' = b :: back := by
  obtain ⟨before, after, heq⟩ := h
  obtain ⟨front, middle, rfl⟩ := List.append_of_mem ha
  have hdisjoint := (List.nodup_append.1 hnd).2.2
  simp only [List.append_assoc, List.cons_append, List.nil_append] at hnd heq
  obtain ⟨rfl, hrest⟩ := split_unique hnd heq.symm
  cases middle with
  | nil => exact ⟨front, after, rfl, hrest⟩
  | cons x middle =>
    obtain ⟨rfl, -⟩ := List.cons.inj hrest
    exact absurd rfl (hdisjoint x (by simp) x hb)

end

/-- Neighbours on a happy path are joined by the happy edge. -/
theorem HappyPath.link {graph : CompiledGraph} {sourceId : String} {a b : WorkflowNode} {chain : List WorkflowNode} :
    ∀ {current : WorkflowNode}, HappyPath graph sourceId current chain → [a, b] <:+: current :: chain →
      ∃ e ∈ graph.edges, e.fromNode = a.id ∧ e.condition = happyCondition a ∧ e.toNode = b.id := by
  induction chain with
  | nil =>
    intro current _ h
    exact absurd h.length_le (by simp)
  | cons next rest ih =>
    rintro current ⟨-, -, -, hedge, hrest⟩ h
    rcases List.infix_cons_iff.1 h with hprefix | h
    · obtain ⟨rfl, hsecond⟩ := List.cons_prefix_cons.1 hprefix
      obtain ⟨rfl, -⟩ := List.cons_prefix_cons.1 hsecond
      exact hedge
    · exact ih hrest h

/-! ## The segment -/

/-- The nodes between the patch guard and the risk classifier of a write task: one static test where it has no commands,
or a guard and a test for each command. -/
inductive Tested (source : WorkflowNode) : List WorkflowNode → Prop
  | docs (test : WorkflowNode) (htype : test.nodeType = .test) (hkind : test.testKind = some .docsStatic)
      (hcommands : source.effectiveAllowedCommands.getD [] = []) : Tested source [test]
  | commands (pairs : List (WorkflowNode × WorkflowNode)) (hsome : pairs ≠ [])
      (htypes : ∀ p ∈ pairs, p.1.nodeType = .commandGuard ∧ p.2.nodeType = .test ∧ p.2.testKind = some .command)
      (hcommands : pairs.map (fun p => p.2.testArgv.getD []) = source.effectiveAllowedCommands.getD []) :
      Tested source (pairs.flatMap fun p => [p.1, p.2])

/-- The chain of a write task, up to its risk classifier. -/
structure TestChain (graph : CompiledGraph) (source patch : WorkflowNode) (segment : List WorkflowNode)
    (risk : WorkflowNode) : Prop where
  accepted : ∃ V : ExecutableValidator, V.Accepts graph
  chain : ∃ approval merge, SecurityChain graph source (patch :: (segment ++ [risk, approval, merge])) ∧
    approval.nodeType = .approval ∧ merge.nodeType = .mergePatch
  patch : patch.nodeType = .patchGuard
  risk : risk.nodeType = .riskClassifier
  tested : Tested source segment

theorem commandPairs_passes {ordinal : Nat} {segment : List WorkflowNode} (heven : segment.length % 2 = 0)
    (h : (commandPairs ordinal segment).1 = []) :
    ∃ pairs : List (WorkflowNode × WorkflowNode), segment = pairs.flatMap (fun p => [p.1, p.2]) ∧
      (∀ p ∈ pairs, p.1.nodeType = .commandGuard ∧ p.2.nodeType = .test ∧ p.2.testKind = some .command) ∧
      pairs.map (fun p => p.2.testArgv.getD []) = (commandPairs ordinal segment).2 := by
  induction ordinal, segment using commandPairs.induct with
  | case1 ordinal guard test rest hbad ih =>
    rw [commandPairs, if_pos hbad] at h
    cases h
  | case2 ordinal guard test rest hgood ih =>
    rw [commandPairs, if_neg hgood] at h ⊢
    simp only [not_or, ne_eq, not_not] at hgood
    obtain ⟨-, hmore⟩ := List.append_eq_nil_iff.1 h
    obtain ⟨pairs, rfl, htypes, hargv⟩ := ih (by simp only [List.length_cons] at heven; omega) hmore
    refine ⟨(guard, test) :: pairs, by simp, ?_, by simp [hargv]⟩
    intro p hp
    rcases List.mem_cons.1 hp with rfl | hp
    · exact hgood
    · exact htypes p hp
  | case3 segment ordinal hshort =>
    cases segment with
    | nil => exact ⟨[], rfl, by simp, rfl⟩
    | cons guard rest =>
      cases rest with
      | nil => simp at heven
      | cons test rest => exact (hshort guard test rest rfl).elim

theorem tested_of_passes {source : WorkflowNode} {segment : List WorkflowNode} (h : testSegmentErrors source segment = []) :
    Tested source segment := by
  unfold testSegmentErrors at h
  dsimp only at h
  split at h
  · cases h
  · next test =>
    split at h
    · next htype =>
      simp only [List.append_eq_nil_iff, issueIf_nil, decide_eq_false_iff_not, not_not, ne_eq, Bool.not_eq_false',
        List.isEmpty_iff] at h
      exact .docs test htype h.1.1 h.1.2
    · cases h
  · next hsome _ =>
    split at h
    · cases h
    · next heven =>
      simp only [List.append_eq_nil_iff, issueIf_nil, decide_eq_false_iff_not, not_not, ne_eq] at h
      obtain ⟨pairs, rfl, htypes, hargv⟩ := commandPairs_passes (not_not.1 heven) h.1
      refine .commands pairs ?_ htypes (hargv.trans h.2)
      rintro rfl
      exact hsome rfl

theorem ExecutableValidator.Accepts.testChain {V : ExecutableValidator} {graph : CompiledGraph} (h : V.Accepts graph)
    {source : WorkflowNode} (hs : source ∈ graph.nodes) (hw : isWriteTask source = true) :
    ∃ patch segment risk, TestChain graph source patch segment risk := by
  obtain ⟨chain, hchain, hsequence⟩ := h.walked hs hw
  obtain ⟨patch, segment, risk, approval, merge, rfl, hpatch, -⟩ := hchain.ends
  obtain ⟨patch', segment', risk', approval', merge', heq, hpatch', hrisk', happroval', hmerge', hsegment, -⟩ :=
    sequence_ends hsequence (by simp [hpatch])
  rw [heq] at hchain
  exact ⟨patch', segment', risk', ⟨V, h⟩, ⟨approval', merge', hchain, happroval', hmerge'⟩, hpatch', hrisk',
    tested_of_passes hsegment⟩

/-! ## Around a node of the chain -/

theorem Tested.types {source : WorkflowNode} {segment : List WorkflowNode} (h : Tested source segment) :
    ∀ n ∈ segment, n.nodeType = .commandGuard ∨ n.nodeType = .test := by
  intro n hn
  cases h with
  | docs test htype =>
    rw [List.mem_singleton.1 hn]
    exact .inr htype
  | commands pairs _ htypes =>
    obtain ⟨p, hp, hn⟩ := List.mem_flatMap.1 hn
    simp only [List.mem_cons, List.not_mem_nil, or_false] at hn
    rcases hn with rfl | rfl
    · exact .inl (htypes p hp).1
    · exact .inr (htypes p hp).2.1

/-- A segment ends with a test. -/
theorem Tested.ends {source : WorkflowNode} {segment : List WorkflowNode} (h : Tested source segment) :
    ∃ front last, segment = front ++ [last] ∧ last.nodeType = .test := by
  cases h with
  | docs test htype => exact ⟨[], test, rfl, htype⟩
  | commands pairs hsome htypes =>
    obtain ⟨init, p, rfl⟩ : ∃ init p, pairs = init ++ [p] := ⟨_, _, (List.dropLast_concat_getLast hsome).symm⟩
    exact ⟨init.flatMap (fun p => [p.1, p.2]) ++ [p.1], p.2, by simp, (htypes p (by simp)).2.1⟩

namespace TestChain

variable {graph : CompiledGraph} {source patch risk : WorkflowNode} {segment : List WorkflowNode}

theorem mem (h : TestChain graph source patch segment risk) : ∀ n ∈ patch :: (segment ++ [risk]),
    n ∈ graph.nodes ∧ n.nodeType.isSystem = true ∧ n.sourceNodeId = some source.id := by
  obtain ⟨approval, merge, hchain, -⟩ := h.chain
  intro n hn
  refine hchain.path.mem n ?_
  simp only [List.mem_cons, List.mem_append, List.not_mem_nil, or_false] at hn ⊢
  tauto

theorem nodup (h : TestChain graph source patch segment risk) : (patch :: (segment ++ [risk])).Nodup := by
  obtain ⟨approval, merge, hchain, -⟩ := h.chain
  have hsplit : patch :: (segment ++ [risk, approval, merge]) = (patch :: (segment ++ [risk])) ++ [approval, merge] := by simp
  have hnd := List.Nodup.of_map _ hchain.nodup
  rw [hsplit] at hnd
  exact (List.nodup_append.1 hnd).1

theorem link (h : TestChain graph source patch segment risk) {a b : WorkflowNode}
    (hab : [a, b] <:+: patch :: (segment ++ [risk])) :
    ∃ e ∈ graph.edges, e.fromNode = a.id ∧ e.condition = happyCondition a ∧ e.toNode = b.id := by
  obtain ⟨approval, merge, hchain, -⟩ := h.chain
  refine hchain.path.link (hab.trans ⟨[source], [approval, merge], by simp⟩)

/-- The nodes of the task that a test, a guard or a risk classifier runs are those of the chain. -/
theorem mem_of_type (h : TestChain graph source patch segment risk) {n : WorkflowNode} (hn : n ∈ graph.nodes)
    (hsource : n.sourceNodeId = some source.id)
    (htype : n.nodeType = .commandGuard ∨ n.nodeType = .test ∨ n.nodeType = .riskClassifier) : n ∈ segment ++ [risk] := by
  obtain ⟨approval, merge, hchain, happroval, hmerge⟩ := h.chain
  have hmem := (hchain.system n hn).1 hsource
  simp only [List.mem_cons, List.mem_append, List.not_mem_nil, or_false] at hmem ⊢
  rcases hmem with rfl | hmem | rfl | rfl | rfl
  · rw [h.patch] at htype
    simp at htype
  · exact .inl hmem
  · exact .inr rfl
  · rw [happroval] at htype
    simp at htype
  · rw [hmerge] at htype
    simp at htype

theorem happy (h : TestChain graph source patch segment risk) : ∀ n ∈ patch :: (segment ++ [risk]), n.nodeType ≠ .approval := by
  intro n hn
  simp only [List.mem_cons, List.mem_append, List.not_mem_nil, or_false] at hn
  rcases hn with rfl | hn | rfl
  · simp [h.patch]
  · rcases h.tested.types n hn with htype | htype <;> simp [htype]
  · simp [h.risk]

/-- The edges of a node of the chain lead to the node behind it or to the output. -/
theorem leads (h : TestChain graph source patch segment risk) {a b : WorkflowNode}
    (hab : [a, b] <:+: patch :: (segment ++ [risk])) {e : WorkflowEdge} (he : e ∈ graph.edges) (hfrom : e.fromNode = a.id) :
    e.toNode = b.id ∨ ∃ output ∈ graph.nodes, output.nodeType = .output ∧ e.toNode = output.id := by
  obtain ⟨V, haccepts⟩ := h.accepted
  obtain ⟨approval, merge, hchain, -⟩ := h.chain
  have hp := haccepts.passes
  have ha : a ∈ patch :: (segment ++ [risk]) := hab.subset List.mem_cons_self
  have hhappy := h.happy a ha
  have hcondition : e.condition ∈ a.nodeType.conditions := by
    have herrors := hp.edges e he
    unfold edgeErrors at herrors
    split at herrors
    · next source' target hsource' _ =>
      obtain ⟨hmem, hid⟩ := (nodeById_eq_some hp.nodup).1 hsource'
      obtain rfl := List.inj_on_of_nodup_map hp.nodup hmem (h.mem a ha).1 (hid.trans hfrom)
      simpa [conditionErrors] using (List.append_eq_nil_iff.1 herrors).1
    · cases herrors
  have hsystem := (h.mem a ha).2.1
  have hboth : e.condition = .success ∨ e.condition = .failure := by
    cases htype : a.nodeType <;> rw [htype] at hcondition hsystem hhappy <;>
      simp [NodeType.conditions, NodeType.isSystem] at hcondition hsystem hhappy <;> exact hcondition
  rcases hboth with hsuccess | hfailure
  · obtain ⟨e', he', hfrom', hcondition', hto⟩ := h.link hab
    rw [happyCondition, if_neg hhappy] at hcondition'
    rw [hp.one_edge he he' (hfrom.trans hfrom'.symm) (hsuccess.trans hcondition'.symm)]
    exact .inl hto
  · have hmem : a ∈ patch :: (segment ++ [risk, approval, merge]) := by
      simp only [List.mem_cons, List.mem_append, List.not_mem_nil, or_false] at ha ⊢
      tauto
    obtain ⟨e', he', hfrom', hcondition', houtput⟩ := hchain.exits a hmem
    rw [exitCondition, if_neg hhappy] at hcondition'
    rw [hp.one_edge he he' (hfrom.trans hfrom'.symm) (hfailure.trans hcondition'.symm)]
    exact .inr houtput

/-- A successor of a node of the chain that is not an output is the node behind it. -/
theorem successor (h : TestChain graph source patch segment risk) {a b n : WorkflowNode}
    (hab : [a, b] <:+: patch :: (segment ++ [risk])) (hn : n ∈ graph.nodes) (htype : n.nodeType ≠ .output) :
    (successorIds graph a).contains n.id = true ↔ n = b := by
  obtain ⟨V, haccepts⟩ := h.accepted
  have hnd := haccepts.passes.nodup
  have hb := h.mem b (hab.subset (by simp))
  simp only [successorIds, outgoing, List.contains_iff_mem, List.mem_map, List.mem_filter, decide_eq_true_eq]
  constructor
  · rintro ⟨e, ⟨he, hfrom⟩, hto⟩
    rcases h.leads hab he hfrom with hnext | ⟨output, ho, hout, hnext⟩
    · exact List.inj_on_of_nodup_map hnd hn hb.1 (hto.symm.trans hnext)
    · exact absurd (by rw [List.inj_on_of_nodup_map hnd hn ho (hto.symm.trans hnext)]; exact hout) htype
  · rintro rfl
    obtain ⟨e, he, hfrom, -, hto⟩ := h.link hab
    exact ⟨e, ⟨he, hfrom⟩, hto⟩

/-- `_is_last_test` says whether a test of the segment is its last node. -/
theorem isLastTest_eq {front back : List WorkflowNode} {n : WorkflowNode}
    (h : TestChain graph source patch (front ++ n :: back) risk) (htype : n.nodeType = .test) :
    isLastTest graph n = .ok back.isEmpty := by
  obtain ⟨hmem, -, hsource⟩ := h.mem n (by simp)
  have hfound : n ∈ graph.nodes.filter fun m => m.nodeType = .test && m.sourceNodeId = n.sourceNodeId := by
    simp [hmem, htype]
  rw [isLastTest, if_neg (not_not.2 hfound)]
  congr 1
  cases back with
  | nil =>
    have hnext : [n, risk] <:+: patch :: (front ++ [n] ++ [risk]) := ⟨patch :: front, [], by simp⟩
    simp only [List.isEmpty_nil, Bool.not_eq_true', List.any_eq_false]
    intro m hm hfound
    simp only [Bool.and_eq_true, Bool.or_eq_true, decide_eq_true_eq] at hfound
    obtain ⟨⟨hmtype, hsuccessor⟩, -⟩ := hfound
    have hmout : m.nodeType ≠ .output := by rcases hmtype with htype | htype <;> simp [htype]
    rw [(h.successor hnext hm hmout).1 hsuccessor, h.risk] at hmtype
    simp at hmtype
  | cons b back =>
    have hnext : [n, b] <:+: patch :: (front ++ n :: b :: back ++ [risk]) := ⟨patch :: front, back ++ [risk], by simp⟩
    obtain ⟨hbmem, -, hbsource⟩ := h.mem b (by simp)
    have hbtype := h.tested.types b (by simp)
    have hbout : b.nodeType ≠ .output := by rcases hbtype with htype | htype <;> simp [htype]
    simp only [List.isEmpty_cons, Bool.not_eq_false', List.any_eq_true]
    refine ⟨b, hbmem, ?_⟩
    rw [(h.successor hnext hbmem hbout).2 rfl, hbsource, hsource]
    rcases hbtype with htype | htype <;> simp [htype]

end TestChain

end AgentHub
