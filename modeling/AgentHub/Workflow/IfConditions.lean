import AgentHub.Storage.Runs.Created
import AgentHub.Workflow.CompiledIds
import AgentHub.Workflow.Handlers.IfNode
/-!
# If conditions from the author to the run

The draft validator checks a condition against the author's nodes, the compiler freezes the nodes, and the handler reads
the node run of the upstream node. A condition can be evaluated exactly when it asks for the status or the outcome, or
for the risk of an agent task (`if_decides_iff`): no author can name a test node.
-/

namespace AgentHub

open Lib Workspace WorkflowRunRepository

/-! ## What the draft validator leaves -/

namespace DraftValidator

variable {V : DraftValidator} {author : AuthorGraph}

/-- The checks of a node and of the conditions, of a graph without errors. -/
theorem errors_nil (h : V.errors author true = []) : (∀ n ∈ author.nodes, V.nodeErrors n = []) ∧
    conditionErrors author.nodes (validEdges author.nodes author.edges) = [] := by
  simp only [errors, List.append_eq_nil_iff, List.flatMap_eq_nil_iff] at h
  obtain ⟨⟨⟨⟨⟨⟨-, hnodes⟩, -⟩, hconditions⟩, -⟩, -⟩, -⟩ := h
  exact ⟨fun n hn => hnodes n ((List.perm_insertionSort _ _).mem_iff.2 hn), hconditions⟩

/-- A valid node is of an author's type and has no risk floor. -/
theorem node_valid (h : V.errors author true = []) {n : WorkflowNode} (hn : n ∈ author.nodes) :
    n.nodeType ∈ authorNodeTypes ∧ n.policyRiskFloor = none := by
  have hnode := (errors_nil h).1 n hn
  simp only [nodeErrors, List.append_eq_nil_iff, issueIf_nil, Bool.not_eq_false', List.contains_iff_mem] at hnode
  obtain ⟨⟨⟨⟨htype, -⟩, hfields⟩, -⟩, -⟩ := hnode
  have hfloor := List.flatMap_eq_nil_iff.1 hfields ("policy_risk_floor", n.policyRiskFloor.isSome)
    (by simp [compilerOnlyFields])
  exact ⟨htype, by simpa using hfloor⟩

/-- A valid if node has a condition on an author's node, with an operand for its field. -/
theorem condition_valid (h : V.errors author true = []) {n : WorkflowNode} (hn : n ∈ author.nodes)
    (htype : n.nodeType = .ifNode) :
    ∃ c, n.ifCondition = some c ∧ c.upstreamNodeId ∈ nodeIds author.nodes ∧ operandErrors n c = [] := by
  have hnode := (errors_nil h).1 n hn
  simp only [nodeErrors, List.append_eq_nil_iff, htype, if_true, issueIf_nil, Option.isNone_eq_false_iff] at hnode
  obtain ⟨c, hc⟩ := Option.isSome_iff_exists.1 hnode.2
  have hcondition := List.flatMap_eq_nil_iff.1 (errors_nil h).2 n (List.mem_filter.2 ⟨hn, by simp [htype]⟩)
  simp only [hc, ifConditionErrors] at hcondition
  split at hcondition
  · cases hcondition
  next hknown =>
    obtain ⟨u, hu⟩ := Option.ne_none_iff_exists'.1 (fun hnone => hknown (Option.isNone_iff_eq_none.2 hnone))
    obtain ⟨hmem, hid⟩ := List.mem_filter.1 (List.mem_of_getLast? hu)
    exact ⟨c, hc, of_decide_eq_true hid ▸ List.mem_map_of_mem hmem, (List.append_eq_nil_iff.1 hcondition).2⟩

end DraftValidator

/-! ## What the compiler keeps -/

/-- What compiling leaves of a node: its id, type and condition, and a risk floor on agent tasks. -/
structure Keeps (node compiled : WorkflowNode) : Prop where
  id : compiled.id = node.id
  nodeType : compiled.nodeType = node.nodeType
  condition : compiled.ifCondition = node.ifCondition
  floor : node.policyRiskFloor = none → (compiled.policyRiskFloor.isSome = true ↔ node.nodeType = .agentTask)

theorem compileNode_keeps {C : WorkflowCompiler} {node : WorkflowNode} {compiled : Option WorkflowNode}
    (h : C.compileNode node = .ok (compiled, [])) : ∃ n, compiled = some n ∧ Keeps node n := by
  rcases compileNode_ok h with ⟨htype, rfl⟩ | ⟨htype, routed, existing, new, rfl⟩
  · exact ⟨node, rfl, rfl, rfl, rfl, fun hnone => by simp [hnone, htype]⟩
  · exact ⟨_, rfl, rfl, rfl, rfl, fun _ => by simp [WorkflowCompiler.resolved, htype]⟩

/-- A compiled node with the author's. -/
structure CompiledFrom (node compiled : WorkflowNode) : Prop where
  id : compiled.id = node.id
  nodeType : compiled.nodeType = node.nodeType
  condition : compiled.ifCondition = node.ifCondition.map normalizeCondition
  floor : compiled.policyRiskFloor.isSome = true ↔ node.nodeType = .agentTask

theorem Keeps.compiledFrom {node compiled : WorkflowNode} (h : Keeps (normalizeNode node) compiled)
    (hfloor : node.policyRiskFloor = none) : CompiledFrom node compiled :=
  ⟨h.id, h.nodeType, h.condition, h.floor hfloor⟩

/-- The nodes of a chain are the compiler's. -/
theorem chainNodes_system {H : Host} {source m : WorkflowNode} (h : m ∈ chainNodes H source (testSteps source)) :
    m.nodeType.isSystem = true := by
  have htests : ∀ step ∈ testSteps source, step.nodeType.isSystem = true := by
    intro step hstep
    unfold testSteps at hstep
    dsimp only at hstep
    split at hstep
    · obtain rfl := List.mem_singleton.1 hstep
      rfl
    split at hstep
    · obtain ⟨pair, hpair, hstep⟩ := List.mem_flatten.1 hstep
      obtain ⟨i, _, rfl⟩ := List.mem_mapIdx.1 hpair
      simp only [List.mem_cons, List.not_mem_nil, or_false] at hstep
      rcases hstep with rfl | rfl <;> rfl
    · simp only [missingSteps, List.mem_cons, List.not_mem_nil, or_false] at hstep
      rcases hstep with rfl | rfl <;> rfl
  obtain ⟨i, hi, rfl⟩ := List.mem_mapIdx.1 h
  have hstep : (chainSteps (testSteps source))[i] ∈ chainSteps (testSteps source) := List.getElem_mem hi
  simp only [chainSteps, List.cons_append, List.mem_cons, List.mem_append, List.not_mem_nil, or_false] at hstep
  rcases hstep with hstep | hstep | hstep | hstep | hstep
  · simp only [stepNode, chainSteps, List.cons_append, hstep, NodeType.isSystem]
  · exact htests _ hstep
  all_goals simp only [stepNode, chainSteps, List.cons_append, hstep, NodeType.isSystem]

section
variable {C : WorkflowCompiler} {author : AuthorGraph} {commit : String} {result : CompilationResult} {g : CompiledGraph}

/-- The nodes of a graph that was compiled without errors: the author's, and those of the chains. -/
theorem compile_keeps (h : C.compile author commit = .ok result) (hok : result.ok = true) (hg : result.graph = some g) :
    (∀ n ∈ author.nodes, ∃ m ∈ g.nodes, CompiledFrom n m) ∧
      ∀ m ∈ g.nodes, m.nodeType.isSystem = true ∨ ∃ n ∈ author.nodes, CompiledFrom n m := by
  obtain ⟨hvalid, compiled, hcompiled, -, hnodes, -⟩ := compile_graph h hok hg
  have hkeeps := compileNodes_forall₂ compileNode_keeps hcompiled
  have hmember : ∀ {m : WorkflowNode}, m ∈ g.nodes ↔
      m ∈ (inject C.host compiled (normalizeAuthorGraph author).edges).1 := by
    intro m
    rw [hnodes, byNodeId, (List.perm_insertionSort _ _).mem_iff]
  have hinject : ∀ m, m ∈ (inject C.host compiled (normalizeAuthorGraph author).edges).1 → m ∈ compiled ∨
      m.nodeType.isSystem = true := by
    intro m hm
    unfold inject at hm
    split at hm
    · rcases List.mem_append.1 hm with hm | hm
      · exact .inl hm
      · obtain ⟨source, -, hm⟩ := List.mem_flatMap.1 hm
        exact .inr (chainNodes_system hm)
    · exact .inl hm
  have hsubset : ∀ m ∈ compiled, m ∈ (inject C.host compiled (normalizeAuthorGraph author).edges).1 := by
    intro m hm
    unfold inject
    split
    · exact List.mem_append_left _ hm
    · exact hm
  constructor
  · intro n hn
    obtain ⟨m, hm, hkept⟩ := forall₂_exists hkeeps _ (mem_normalized.2 ⟨n, hn, rfl⟩)
    exact ⟨m, hmember.2 (hsubset m hm), hkept.compiledFrom (DraftValidator.node_valid hvalid hn).2⟩
  · intro m hm
    rcases hinject m (hmember.1 hm) with hm | hm
    · obtain ⟨n', hn', hid, htype, hcondition, hfloor⟩ := forall₂_exists hkeeps.flip m hm
      obtain ⟨n, hn, rfl⟩ := mem_normalized.1 hn'
      exact .inr ⟨n, hn, hid, htype, hcondition, hfloor (DraftValidator.node_valid hvalid hn).2⟩
    · exact .inl hm

end

/-! ## What the handler makes of a condition -/

theorem mem_sortedSet {l : List String} {t : String} : t ∈ sortedSet l ↔ t ∈ l := by
  rw [sortedSet, sorted, (List.perm_insertionSort _ _).mem_iff, List.mem_dedup]

/-- The compiler sorts the operands of `in`, which means the same. -/
theorem satisfies_normalize {value : IfValue} {c : IfCondition} :
    Satisfies value (normalizeCondition c).value (normalizeCondition c).operator ↔ Satisfies value c.value c.operator := by
  obtain ⟨upstream, field, operator, expected⟩ := c
  unfold normalizeCondition
  split
  · simp only at *
    subst_vars
    simp only [Satisfies, IfValue.tokens.injEq, exists_eq_left', mem_sortedSet]
  · rfl

theorem normalizeCondition_reads (c : IfCondition) :
    (normalizeCondition c).field = c.field ∧ (normalizeCondition c).upstreamNodeId = c.upstreamNodeId ∧
      (normalizeCondition c).operator = c.operator := by
  unfold normalizeCondition
  split <;> exact ⟨rfl, rfl, rfl⟩

namespace IfNodeHandler

theorem evaluate_ok {value expected : IfValue} {operator : IfOperator} {b : Bool}
    (h : evaluate value operator expected = .ok b) : b = true ↔ Satisfies value expected operator := by
  cases operator with
  | eq | ne =>
    simp only [evaluate, Except.ok.injEq] at h
    simp [← h, Satisfies]
  | isIn =>
    cases expected with
    | tokens l =>
      simp only [evaluate, Except.ok.injEq] at h
      simp [← h, Satisfies]
    | absent | token | truth => cases h
  | isTrue =>
    cases value with
    | truth b' =>
      simp only [evaluate, Except.ok.injEq] at h
      simp [← h, Satisfies]
    | absent | token | tokens => cases h
  | isFalse =>
    cases value with
    | truth b' =>
      simp only [evaluate, Except.ok.injEq] at h
      simp [← h, Satisfies]
    | absent | token | tokens => cases h

/-- A valid operand of a field other than `tests_passed` can be compared. -/
theorem evaluate_valid {n : WorkflowNode} {c : IfCondition} (h : DraftValidator.operandErrors n c = [])
    (hfield : c.field ≠ "tests_passed") (value : IfValue) :
    ∃ b, evaluate value (normalizeCondition c).operator (normalizeCondition c).value = .ok b := by
  obtain ⟨upstream, field, operator, expected⟩ := c
  cases operator with
  | eq | ne => exact ⟨_, rfl⟩
  | isIn =>
    cases expected with
    | tokens l => exact ⟨_, rfl⟩
    | absent | token | truth => simp [DraftValidator.operandErrors] at h
  | isTrue | isFalse => simp [DraftValidator.operandErrors, hfield] at h

/-- A field has at most the value the handler reads. -/
theorem reads_iff {g : CompiledGraph} (hnd : (nodeIds g.nodes).Nodup) {c : IfCondition} {u : NodeRunRow}
    (hid : u.nodeId = c.upstreamNodeId) {value : IfValue} : Reads g u c.field value ↔ actual g c u = .ok value := by
  have hfind : ∀ {n : WorkflowNode}, n ∈ g.nodes → n.id = u.nodeId →
      g.nodes.find? (fun n => n.id = c.upstreamNodeId) = some n := by
    intro n hn hnid
    exact (find?_key hnd).2 ⟨hn, hnid.trans hid⟩
  constructor
  · intro h
    generalize hf : c.field = f at h
    cases h with
    | status => simp [actual, hf]
    | outcome ho => simp [actual, hf, ho]
    | noOutcome ho => simp [actual, hf, ho]
    | risk hn hnid hfloor => simp [actual, hf, hfind hn hnid, hfloor]
    | tests htest hpassed =>
      rename_i passed
      cases passed <;> simp_all [actual]
  · intro h
    unfold actual at h
    split at h
    next hf =>
      obtain rfl := Except.ok.inj h
      exact hf ▸ .status
    split at h
    next hf =>
      rw [hf]
      split at h
      next o ho => exact Except.ok.inj h ▸ .outcome ho
      next ho => exact Except.ok.inj h ▸ .noOutcome ho
    split at h
    next hf =>
      rw [hf]
      split at h
      next level hlevel =>
        obtain ⟨n, hn, hfloor⟩ := Option.bind_eq_some_iff.1 hlevel
        obtain ⟨hmem, hnid⟩ := (find?_key hnd).1 hn
        exact Except.ok.inj h ▸ .risk hmem (hnid.trans hid.symm) hfloor
      · cases h
    split at h
    next hf =>
      rw [hf]
      split at h
      · cases h
      next htest => exact Except.ok.inj h ▸ .tests (not_not.1 htest) (by simp)
    · cases h

/-- The handler decides a condition exactly when its field has a value, and that value can be compared. -/
theorem execute_decides {g : CompiledGraph} (hnd : (nodeIds g.nodes).Nodup) {m : WorkflowNode} {c : IfCondition}
    (hm : m.ifCondition = some (normalizeCondition c)) {u : NodeRunRow} (hid : u.nodeId = c.upstreamNodeId)
    (hvalid : ∀ value, actual g c u = .ok value →
      ∃ b, evaluate value (normalizeCondition c).operator (normalizeCondition c).value = .ok b) :
    (execute ⟨g, m, some u⟩).Decides c g u ↔ ∃ value, actual g c u = .ok value := by
  obtain ⟨hfield, hupstream, hoperator⟩ := normalizeCondition_reads c
  have hactual : actual g (normalizeCondition c) u = actual g c u := by
    simp only [actual, hfield, hupstream]
  simp only [execute, hm, hactual]
  cases hvalue : actual g c u with
  | error summary =>
    simp only [reduceCtorEq, exists_false, iff_false]
    rintro ⟨hstatus, -⟩
    cases hstatus
  | ok value =>
    obtain ⟨b, hb⟩ := hvalid value hvalue
    have hholds : c.Holds g u ↔ b = true := by
      rw [evaluate_ok hb, satisfies_normalize]
      constructor
      · rintro ⟨value', hreads, hsatisfies⟩
        obtain rfl := Except.ok.inj (hvalue.symm.trans ((reads_iff hnd hid).1 hreads))
        exact hsatisfies
      · exact fun hsatisfies => ⟨value, (reads_iff hnd hid).2 hvalue, hsatisfies⟩
    simp only [hb]
    refine iff_of_true ⟨rfl, ?_⟩ ⟨value, rfl⟩
    cases b with
    | true => exact .inl ⟨rfl, hholds.2 rfl⟩
    | false => exact .inr ⟨rfl, fun h => nomatch hholds.1 h⟩

end IfNodeHandler

/-! ## Claimed if nodes -/

/-- The last row of a node in the list of node runs. -/
theorem conditionUpstream_of_mem {s : RunState} {v : String} {r : NodeRunRow} (hr : r ∈ s.rows) (hv : r.nodeId = v) :
    ∃ u ∈ s.rows, u.nodeId = v ∧ GraphExecutor.conditionUpstream s v = some u := by
  have hperm : (listNodes s.rows).Perm s.rows := List.perm_insertionSort _ _
  cases h : GraphExecutor.conditionUpstream s v with
  | some u =>
    obtain ⟨hu, huv⟩ := byNode_mem h
    exact ⟨u, hperm.mem_iff.1 hu, huv, rfl⟩
  | none =>
    have hmem : r ∈ (listNodes s.rows).filter fun r => r.nodeId = v :=
      List.mem_filter.2 ⟨hperm.mem_iff.2 hr, decide_eq_true hv⟩
    rw [List.getLast?_eq_none_iff.1 h] at hmem
    cases hmem

/-- The condition asks for the status or the outcome of its upstream node, or for the risk of an agent task. -/
def Evaluable (author : AuthorGraph) (c : IfCondition) : Prop :=
  c.field = "status" ∨ c.field = "outcome" ∨
    c.field = "effective_risk" ∧ ∃ n ∈ author.nodes, n.id = c.upstreamNodeId ∧ n.nodeType = .agentTask

/-- A node of an author's graph has a value for the fields of an evaluable condition only. -/
theorem actual_iff_evaluable {author : AuthorGraph} {g : CompiledGraph} (hnd : (nodeIds g.nodes).Nodup)
    (hids : (nodeIds author.nodes).Nodup) {c : IfCondition} {n m : WorkflowNode} {u : NodeRunRow} (hn : n ∈ author.nodes)
    (htype : n.nodeType ∈ DraftValidator.authorNodeTypes) (hid : n.id = c.upstreamNodeId) (hm : m ∈ g.nodes)
    (hfrom : CompiledFrom n m) (hu : u.nodeType = m.nodeType) :
    (∃ value, IfNodeHandler.actual g c u = .ok value) ↔ Evaluable author c := by
  have hfind : g.nodes.find? (fun n => n.id = c.upstreamNodeId) = some m :=
    (find?_key hnd).2 ⟨hm, hfrom.id.trans hid⟩
  have hagent : (∃ n' ∈ author.nodes, n'.id = c.upstreamNodeId ∧ n'.nodeType = .agentTask) ↔
      m.policyRiskFloor.isSome = true := by
    rw [hfrom.floor]
    constructor
    · rintro ⟨n', hn', hid', htask⟩
      rwa [List.inj_on_of_nodup_map hids hn hn' (hid.trans hid'.symm)]
    · exact fun htask => ⟨n, hn, hid, htask⟩
  have htest : u.nodeType ≠ .test := by
    intro h
    rw [← hfrom.nodeType, ← hu, h] at htype
    revert htype
    decide
  unfold IfNodeHandler.actual Evaluable
  rw [hagent]
  by_cases hstatus : c.field = "status"
  · simp [hstatus]
  by_cases houtcome : c.field = "outcome"
  · cases u.outcome <;> simp [houtcome]
  by_cases hrisk : c.field = "effective_risk"
  · rw [hfind]
    cases hfloor : m.policyRiskFloor <;> simp [hrisk, hfloor]
  · by_cases hpassed : c.field = "tests_passed" <;> simp [hstatus, houtcome, hrisk, hpassed, htest]

/-- In every state of a run of an accepted graph, an if node has an author's condition and its upstream node a node run,
and the handler decides the condition exactly when it is evaluable. -/
theorem if_decides_iff {C : WorkflowCompiler} {V : ExecutableValidator} {H : Digests} {author : AuthorGraph}
    {commit : String} {result : CompilationResult} {g : CompiledGraph} {db₀ db : Db} {rid : String} {s₀ s : RunState}
    {r : NodeRunRow} (hcompile : C.compile author commit = .ok result) (hok : result.ok = true)
    (hg : result.graph = some g) (haccept : V.Accepts g) (hcreated : CreatedRun db₀ rid g s₀)
    (hcalls : Relation.ReflTransGen (CallStep H) db₀ db) (hs : db.runState rid = some s) (hr : r ∈ s.rows)
    (htype : r.nodeType = .ifNode) :
    ∃ n ∈ author.nodes, n.id = r.nodeId ∧ ∃ c, n.ifCondition = some c ∧
      ∃ u, GraphExecutor.conditionUpstream s c.upstreamNodeId = some u ∧
        ((GraphExecutor.executeIf s r).Decides c g u ↔ Evaluable author c) := by
  have hvalid := (compile_graph hcompile hok hg).1
  obtain ⟨hids, -, -⟩ := compiled_valid hvalid
  obtain ⟨hauthor, horigin⟩ := compile_keeps hcompile hok hg
  have hnd : (nodeIds g.nodes).Nodup := haccept.passes.nodup
  have htyped := hcreated.reaches hcalls hs
  -- the if node of the snapshot is the author's
  obtain ⟨m, hm, hcolumn⟩ := List.mem_map.1 ((htyped.columns _).1 (List.mem_map_of_mem hr))
  obtain ⟨hmid, hmtype⟩ : m.id = r.nodeId ∧ m.nodeType = .ifNode := by
    obtain ⟨hmid, hmtype⟩ := Prod.mk.inj hcolumn
    exact ⟨hmid, hmtype.trans htype⟩
  obtain ⟨n, hn, hfrom⟩ := (horigin m hm).resolve_left (by simp [hmtype, NodeType.isSystem])
  obtain ⟨c, hc, hknown, hoperand⟩ := DraftValidator.condition_valid hvalid hn (hfrom.nodeType ▸ hmtype)
  -- its upstream node is an author's and has a node run of its type
  obtain ⟨up, hup, hupid⟩ := List.mem_map.1 hknown
  obtain ⟨mup, hmup, hupfrom⟩ := hauthor up hup
  obtain ⟨row, hrow, hrowcolumn⟩ := List.mem_map.1 ((htyped.columns _).2 (List.mem_map_of_mem hmup))
  obtain ⟨u, hu, huid, hupstream⟩ := conditionUpstream_of_mem hrow
    (((Prod.mk.inj hrowcolumn).1.trans hupfrom.id).trans hupid)
  obtain ⟨m', hm', hucolumn⟩ := List.mem_map.1 ((htyped.columns _).1 (List.mem_map_of_mem hu))
  obtain ⟨hm'id, hutype⟩ := Prod.mk.inj hucolumn
  obtain rfl : m' = mup := by
    refine List.inj_on_of_nodup_map hnd hm' hmup ?_
    exact (hm'id.trans huid).trans (hupfrom.id.trans hupid).symm
  refine ⟨n, hn, hfrom.id.symm.trans hmid, c, hc, u, hupstream, ?_⟩
  have hcondition : m.ifCondition = some (normalizeCondition c) := by
    rw [hfrom.condition, hc, Option.map_some]
  have hexecute : GraphExecutor.executeIf s r = IfNodeHandler.execute ⟨g, m, some u⟩ := by
    have hfind : g.nodes.find? (fun n => n.id = r.nodeId) = some m := (find?_key hnd).2 ⟨hm, hmid⟩
    rw [GraphExecutor.executeIf, htyped.snapshot, hfind]
    simp only [hcondition, Option.bind_some, (normalizeCondition_reads c).2.1, hupstream]
  have hactual := actual_iff_evaluable hnd hids hup (DraftValidator.node_valid hvalid hup).1 hupid hm' hupfrom hutype.symm
  rw [hexecute, IfNodeHandler.execute_decides hnd hcondition huid, hactual]
  intro value hvalue
  refine IfNodeHandler.evaluate_valid hoperand (fun hfield => ?_) value
  have hevaluable := hactual.1 ⟨value, hvalue⟩
  simp [Evaluable, hfield] at hevaluable

/-! ## A run with two conditions -/

/-- A compiler with one digest for every text. -/
def plainCompiler : WorkflowCompiler :=
  { sampleCompiler with host := { digestHost with sha256 := fun _ => filler 64 'd' } }

/-- The first condition asks for the status of the input, the second whether its tests passed. -/
def conditionGraph : AuthorGraph where
  nodes := [
    { id := "start", nodeType := .input, title := "Input" },
    { id := "done", nodeType := .ifNode, title := "Done",
      ifCondition := some ⟨"start", "status", .eq, .token "completed"⟩ },
    { id := "passed", nodeType := .ifNode, title := "Passed",
      ifCondition := some ⟨"start", "tests_passed", .isTrue, .absent⟩ },
    { id := "end", nodeType := .output, title := "Output" }]
  edges := [⟨"e1", "start", "done", .success, false⟩, ⟨"e2", "done", "passed", .matched, false⟩,
    ⟨"e3", "done", "end", .notMatched, false⟩, ⟨"e4", "passed", "end", .matched, false⟩,
    ⟨"e5", "passed", "end", .notMatched, false⟩]

def conditionCompiled : CompiledGraph where
  sourceAuthorHash := filler 64 'd'
  integrationBaseCommit := filler 40 'c'
  policyVersion := "demo-v1"
  agentCatalogSnapshotHash := filler 64 'b'
  nodes := byNodeId conditionGraph.nodes
  edges := conditionGraph.edges

theorem conditionGraph_small : DraftValidator.sizeErrors conditionGraph = [] := by
  have hwidth : Json.width noFloats conditionGraph.dump ≤ 100000 := by
    simp only [AuthorGraph.dump, WorkflowNode.dump, WorkflowEdge.dump, IfCondition.dump, IfValue.dump, conditionGraph,
      width_record, Json.widthFields, Json.width, Json.widthItems, listOf, optional, dumpCommands, List.map_cons,
      List.map_nil]
    decide +kernel
  have hbytes := length_canonicalJson_le conditionGraph.dump
  have hsize : (canonicalJson conditionGraph.dump).length ≤ maxAuthorGraphBytes := by
    rw [maxAuthorGraphBytes]
    omega
  simp only [DraftValidator.sizeErrors, List.append_eq_nil_iff, issueIf_nil, decide_eq_false_iff_not, not_lt]
  exact ⟨⟨by simp [conditionGraph, maxAuthorNodes], by simp [conditionGraph, maxAuthorEdges]⟩, hsize⟩

theorem conditionGraph_compiled : ∃ result, plainCompiler.compile conditionGraph (filler 40 'c') = .ok result ∧
    result.ok = true ∧ result.graph = some conditionCompiled := by
  have hvalid : plainCompiler.validator.errors conditionGraph true = [] := by
    simp only [DraftValidator.errors, conditionGraph_small, List.nil_append]
    decide +kernel
  have hcompiled : plainCompiler.compileNodes (normalizeAuthorGraph conditionGraph).nodes =
      .ok ((normalizeAuthorGraph conditionGraph).nodes, []) := rfl
  obtain ⟨result, hresult, herrors, hg⟩ := compile_of_valid hvalid hcompiled
    (show Workspace.isSha256Hex (filler 64 'd') = true by decide +kernel) (show isObjectId (filler 40 'c') = true by decide +kernel)
    (by decide) (by decide +kernel) (by decide +kernel) (by decide +kernel)
  refine ⟨result, hresult, ?_, hg⟩
  rw [CompilationResult.ok, hg, herrors]
  rfl


theorem conditionCompiled_accepted : sampleValidator.Accepts conditionCompiled := by
  unfold ExecutableValidator.Accepts
  decide +kernel

def conditionDigests : Digests := { sampleDigests with author := fun _ => filler 64 'd', catalog := fun _ => filler 64 'b' }

def conditionRunRow : WorkflowRunRow :=
  { sampleRunRow with
    integrationBaseCommit := filler 40 'c'
    currentCommit := filler 40 'c'
    authorSnapshot := conditionGraph
    authorSnapshotHash := filler 64 'd'
    compiledSnapshot := conditionCompiled
    policyVersion := "demo-v1"
    agentCatalogSnapshot := ⟨[], filler 64 'b'⟩
    agentCatalogSnapshotHash := filler 64 'b' }

/-- The run of the graph as it was created. -/
def conditionDb : Db :=
  { sampleDb with
    workflowRuns := ⟨[conditionRunRow], by decide, by decide⟩
    nodeRuns := ⟨conditionCompiled.nodes.map sampleNodeRun, by decide, by decide⟩ }

theorem conditionDb_created : CreatedRun conditionDb "r" conditionCompiled
    ⟨conditionRunRow.core, conditionCompiled.nodes.map sampleNodeRun⟩ where
  state := rfl
  snapshot := rfl
  pending := rfl
  uncancelled := rfl
  unmerged := rfl
  nodes := by
    rw [List.map_map]
    exact .refl _
  fresh := by decide
  columns := by
    rw [List.map_map]
    exact .refl _

def conditionCall (call : RunCall) : Invocation := ⟨call, .table, sampleLease, sampleNow⟩

/-- The calls that lead to a claim of the first if node. -/
def callsToDone : List Invocation :=
  [.startAndReconcile "r", .claimNext "r", .completeNode "rstart" .completed .success "" none none,
    .startAndReconcile "r", .claimNext "r"].map conditionCall

/-- The calls that then lead to a claim of the second. -/
def callsToPassed : List Invocation :=
  callsToDone ++ [.completeNode "rdone" .completed .matched "" none none, .startAndReconcile "r",
    .claimNext "r"].map conditionCall

/-- What the claim of node `id` finds. -/
def claimedAt (db : Db) (id : String) (status : NodeRunStatus) : Bool :=
  (db.runState "r").any fun s => s.rows.any fun r => r.nodeId = id ∧ r.nodeType = .ifNode ∧ r.status = .running ∧
    (GraphExecutor.executeIf s r).status = status ∧
    (GraphExecutor.conditionUpstream s "start").any fun u => u.status.isTerminal

theorem done_claimed : claimedAt (serve conditionDigests callsToDone conditionDb) "done" .completed = true := by
  decide +kernel

theorem passed_claimed : claimedAt (serve conditionDigests callsToPassed conditionDb) "passed" .failed = true := by
  decide +kernel

theorem claimedAt_iff {db : Db} {id : String} {status : NodeRunStatus} (h : claimedAt db id status = true) :
    ∃ s, db.runState "r" = some s ∧ ∃ r ∈ s.rows, r.nodeId = id ∧ r.nodeType = .ifNode ∧ r.status = .running ∧
      (GraphExecutor.executeIf s r).status = status ∧
      ∃ u, GraphExecutor.conditionUpstream s "start" = some u ∧ u.status.isTerminal = true := by
  obtain ⟨s, hs, h⟩ := Option.any_eq_true _ _ |>.1 h
  obtain ⟨r, hr, h⟩ := List.any_eq_true.1 h
  obtain ⟨hid, htype, hstatus, hresult, h⟩ := of_decide_eq_true h
  exact ⟨s, hs, r, hr, hid, htype, hstatus, hresult, Option.any_eq_true _ _ |>.1 h⟩

theorem if_decides_done : ∃ s r, (serve conditionDigests callsToDone conditionDb).runState "r" = some s ∧ r ∈ s.rows ∧
    r.nodeId = "done" ∧ r.status = .running ∧ ∃ u, GraphExecutor.conditionUpstream s "start" = some u ∧
      (GraphExecutor.executeIf s r).Decides ⟨"start", "status", .eq, .token "completed"⟩ conditionCompiled u := by
  obtain ⟨result, hresult, hok, hg⟩ := conditionGraph_compiled
  obtain ⟨s, hs, r, hr, hid, htype, hstatus, -⟩ := claimedAt_iff done_claimed
  obtain ⟨n, hn, hnid, c, hc, u, hu, hiff⟩ := if_decides_iff hresult hok hg conditionCompiled_accepted conditionDb_created
    (serve_reaches conditionDigests callsToDone conditionDb) hs hr htype
  have hcondition : ∀ n ∈ conditionGraph.nodes, n.id = "done" → n.ifCondition =
      some ⟨"start", "status", .eq, .token "completed"⟩ := by
    decide
  obtain rfl := Option.some.inj (hc.symm.trans (hcondition n hn (hnid.trans hid)))
  exact ⟨s, r, hs, hr, hid, hstatus, u, hu, hiff.2 (.inl rfl)⟩

/-- A condition on the tests of another node than a test passes every check, and its node can only fail. -/
theorem if_decides_passed :
    ¬ ∀ (C : WorkflowCompiler) (V : ExecutableValidator) (H : Digests) (author : AuthorGraph) (commit : String)
      (result : CompilationResult) (g : CompiledGraph) (db₀ db : Db) (rid : String) (s₀ s : RunState) (r : NodeRunRow),
      C.compile author commit = .ok result → result.ok = true → result.graph = some g → V.Accepts g →
      CreatedRun db₀ rid g s₀ → Relation.ReflTransGen (CallStep H) db₀ db → db.runState rid = some s → r ∈ s.rows →
      r.nodeType = .ifNode → r.status = .running →
      ∀ n ∈ author.nodes, n.id = r.nodeId → ∀ c, n.ifCondition = some c →
      ∀ u, GraphExecutor.conditionUpstream s c.upstreamNodeId = some u → u.status.isTerminal = true →
        (GraphExecutor.executeIf s r).Decides c g u := by
  intro h
  obtain ⟨result, hresult, hok, hg⟩ := conditionGraph_compiled
  obtain ⟨s, hs, r, hr, hid, htype, hstatus, hfailed, u, hu, hterminal⟩ := claimedAt_iff passed_claimed
  have hnode : ∃ n ∈ conditionGraph.nodes, n.id = "passed" ∧ n.ifCondition =
      some ⟨"start", "tests_passed", .isTrue, .absent⟩ := by
    decide
  obtain ⟨n, hn, hnid, hc⟩ := hnode
  have hdecides := h _ _ conditionDigests _ _ result _ _ _ _ _ s r hresult hok hg conditionCompiled_accepted
    conditionDb_created (serve_reaches conditionDigests callsToPassed conditionDb) hs hr htype hstatus n hn
    (hnid.trans hid.symm) _ hc u hu hterminal
  exact absurd (hfailed.symm.trans hdecides.status) (by decide)

end AgentHub
