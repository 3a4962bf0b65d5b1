import AgentHub.Storage.Runs.Progress
import AgentHub.Workflow.ChainEdges
/-!
# What a compiled run follows

The nodes of the author graph run as its edges say. A write task counts as successful only when the merge at the end of its
chain is, and a chain that ends otherwise leads to the output (`compiled_run_follows`).
-/

namespace AgentHub

open Lib Workspace WorkflowRunRepository

/-! ## The author's edges in a run -/

/-- The node run of a node took its edges of the condition. -/
def Takes (rows : List NodeRunRow) (v : String) (c : EdgeCondition) : Prop :=
  ∃ r ∈ rows, r.nodeId = v ∧ edgeSatisfied c r.status r.outcome = true

/-- The run took an edge of the author: the source's outcome satisfies it, or, when it is the success edge of a write task,
the merge of the task's chain succeeded. -/
def AuthorGraph.Taken (author : AuthorGraph) (g : CompiledGraph) (rows : List NodeRunRow) (e : WorkflowEdge) : Prop :=
  (¬ author.ThroughChain e ∧ Takes rows e.fromNode e.condition) ∨
    (author.ThroughChain e ∧ ∃ m, g.ChainNode e.fromNode m ∧ m.nodeType = .mergePatch ∧ Takes rows m.id .success)

/-- A chain ended at the output. -/
def AuthorGraph.ChainStopped (author : AuthorGraph) (g : CompiledGraph) (rows : List NodeRunRow) : Prop :=
  ∃ task ∈ author.writeIds, ∃ m c, g.ChainNode task m ∧ StopsOn (author.isLast task) m.nodeType c ∧ Takes rows m.id c

/-- The run went from one node of the author to another. -/
def AuthorGraph.Follows (author : AuthorGraph) (g : CompiledGraph) (rows : List NodeRunRow) (a b : String) : Prop :=
  ∃ e ∈ author.edges, e.fromNode = a ∧ e.toNode = b ∧ author.Taken g rows e

/-- The run went on from a node that it has finished. -/
def AuthorGraph.Passed (author : AuthorGraph) (g : CompiledGraph) (s : RunState) (a b : String) : Prop :=
  author.Follows g s.rows a b ∧ ∃ o, s.mark a = .done (some o)

section
variable {H : Host} {author : AuthorGraph} {g : CompiledGraph} {compiled : List WorkflowNode} {output : WorkflowNode}
  (I : Injected H author g compiled output)

include I

/-- A node of the author has a satisfied edge into it when an edge of the author was taken, or it is the output and a chain
stopped. -/
theorem Injected.someSatisfied_iff (hnd : (nodeIds g.nodes).Nodup) {rows : List NodeRunRow} {n : WorkflowNode}
    (hn : n ∈ author.nodes) : SomeSatisfied g rows n.id ↔
      (∃ e ∈ author.edges, e.toNode = n.id ∧ author.Taken g rows e) ∨ n.id = output.id ∧ author.ChainStopped g rows := by
  constructor
  · rintro ⟨e, he, hto, hsat⟩
    -- a kept edge, one inside a chain, a stop of a chain, or one that resumes the author's graph after it
    rcases I.edge_cases he with ⟨hmem, hkept⟩ | ⟨task, ht, ⟨-, m, hm, hid⟩ | ⟨m, hm, hid, hout, hstop⟩ |
      ⟨a, ha, hfrom, hc, m, hm, htype, hid, hto', hcond⟩⟩
    · exact .inl ⟨e, hmem, hto, .inl ⟨hkept, hsat⟩⟩
    · refine absurd (List.mem_map_of_mem hn) (?_ : n.id ∉ nodeIds author.nodes)
      rw [← hto, ← hid]
      exact I.not_chainNode hnd ht hm
    · refine .inr ⟨hto.symm.trans hout, task, ht, m, e.condition, hm, hstop, ?_⟩
      rw [hid]
      exact hsat
    · refine .inl ⟨a, ha, hto'.symm.trans hto, .inr ⟨⟨hfrom ▸ ht, hc⟩, m, hfrom ▸ hm, htype, ?_⟩⟩
      rw [hid, ← hcond]
      exact hsat
  · rintro (⟨e, he, hto, ⟨hkept, hsat⟩ | ⟨hthrough, m, hm, htype, hsat⟩⟩ | ⟨hout, task, ht, m, c, hm, hstop, hsat⟩)
    · exact ⟨e, I.kept_mem he hkept, hto, hsat⟩
    · obtain ⟨e', he', hfrom, hto', hc⟩ := I.resume_edge he hthrough hm htype
      refine ⟨e', he', hto'.trans hto, ?_⟩
      rw [hfrom, hc]
      exact hsat
    · obtain ⟨e', he', hfrom, hto', hc⟩ := I.stop_edge ht hm hstop
      refine ⟨e', he', hto'.trans hout.symm, ?_⟩
      rw [hfrom, hc]
      exact hsat

end

/-! ## Decided node runs -/

section
variable {graph : CompiledGraph} {input output : WorkflowNode} {W : WellFormed graph input output} {s : RunState}

/-- A node run past `pending` that was not skipped ran. -/
theorem RunInv.live_of_left (h : RunInv W s) {r : NodeRunRow} (hr : r ∈ s.rows) (hleft : r.status ≠ .pending)
    (hrun : r.status ≠ .skipped) : r.mark.Live := by
  rcases h.outcomes r hr with hst | hact | hst | ⟨o, ho, hallowed⟩
  · exact absurd hst hleft
  · rw [mark_active.2 hact]
    trivial
  · exact absurd hst hrun
  · unfold NodeRunRow.mark
    cases hst : r.status <;> simp [hst, allowedOutcomes, Token.Mark.Live, ho] at hleft hrun hallowed ⊢

/-- A node run past `pending` was skipped exactly when no edge into it is satisfied, the input's apart. -/
theorem RunInv.skipped_iff (h : RunInv W s) {r : NodeRunRow} (hr : r ∈ s.rows) (hleft : r.status ≠ .pending)
    (hin : r.nodeId ≠ input.id) :
    r.status = .skipped ↔ ¬ SomeSatisfied graph s.rows r.nodeId := by
  have hmark := mark_of_mem h.node_nodup hr
  have hne : s.mark r.nodeId ≠ .pending := by
    rw [hmark]
    exact fun hp => hleft (mark_pending.1 hp)
  rw [h.someSatisfied (h.predecessorsDone (h.token.ready _ hne))]
  constructor
  · intro hskip
    exact (h.token.skipped r.nodeId (by rw [hmark]; simp [NodeRunRow.mark, hskip])).2
  · intro hnot
    by_contra hrun
    exact hnot (h.token.fired r.nodeId hin (hmark ▸ h.live_of_left hr hleft hrun))

end

/-! ## The author's graph in a compiled run -/

theorem DraftValidator.edge_ends {V : DraftValidator} {author : AuthorGraph} (h : V.errors author true = [])
    {e : WorkflowEdge} (he : e ∈ author.edges) :
    e.fromNode ∈ nodeIds author.nodes ∧ e.toNode ∈ nodeIds author.nodes := by
  have hknown : ∀ {id : String}, (nodeById author.nodes id).isNone = false → id ∈ nodeIds author.nodes := by
    intro id hid
    rw [Option.isNone_eq_false_iff, Option.isSome_iff_exists] at hid
    obtain ⟨n, hn⟩ := hid
    obtain ⟨hmem, rfl⟩ := (nodeById_eq_some (compiled_valid h).1).1 hn
    exact List.mem_map_of_mem hmem
  simp only [errors, List.append_eq_nil_iff, List.flatMap_eq_nil_iff] at h
  obtain ⟨⟨⟨⟨⟨-, hedges⟩, -⟩, -⟩, -⟩, -⟩ := id h
  have hedge := hedges e ((List.perm_insertionSort _ _).mem_iff.2 he)
  simp only [edgeErrors, List.append_eq_nil_iff, issueIf_nil] at hedge
  exact ⟨hknown hedge.1.1.1.1, hknown hedge.1.1.1.2⟩

/-- What the nodes of a compiled graph are to the author. -/
structure Authored (author : AuthorGraph) (g : CompiledGraph) : Prop where
  ends : ∀ e ∈ author.edges, e.fromNode ∈ nodeIds author.nodes ∧ e.toNode ∈ nodeIds author.nodes
  compiled : ∀ n ∈ author.nodes, ∃ m ∈ g.nodes, CompiledFrom n m
  origin : ∀ m ∈ g.nodes, m.nodeType.isSystem = true ∨ ∃ n ∈ author.nodes, CompiledFrom n m

theorem compile_authored {C : WorkflowCompiler} {author : AuthorGraph} {commit : String} {result : CompilationResult}
    {g : CompiledGraph} (h : C.compile author commit = .ok result) (hok : result.ok = true) (hg : result.graph = some g) :
    Authored author g := by
  obtain ⟨hcompiled, horigin⟩ := compile_keeps h hok hg
  exact ⟨fun e he => DraftValidator.edge_ends (compile_graph h hok hg).1 he, hcompiled, horigin⟩

section
variable {H : Host} {author : AuthorGraph} {g : CompiledGraph} {compiled : List WorkflowNode} {out input output : WorkflowNode}
  (I : Injected H author g compiled out) (A : Authored author g) (W : WellFormed g input output)

include W

/-- The output that the chains lead to is the output of the compiled graph. -/
theorem Injected.out_eq (I : Injected H author g compiled out) : out = output := by
  have hmem : out ∈ compiled.filter (·.nodeType = .output) := by simp [I.outputs]
  obtain ⟨hcompiled, htype⟩ := List.mem_filter.1 hmem
  have hg : out ∈ g.nodes.filter (fun n => n.nodeType = .output) :=
    List.mem_filter.2 ⟨I.nodes.mem_iff.2 (List.mem_append_left _ hcompiled), htype⟩
  rw [W.outputs, List.mem_singleton] at hg
  exact hg

include A

/-- A node of the author is the input when its type says so. -/
theorem Authored.input_iff {n : WorkflowNode} (hn : n ∈ author.nodes) : n.nodeType = .input ↔ n.id = input.id := by
  obtain ⟨m, hm, hcompiled⟩ := A.compiled n hn
  rw [← hcompiled.nodeType, ← hcompiled.id]
  exact W.input_iff hm

theorem Authored.input_mem : ∃ n ∈ author.nodes, n.id = input.id := by
  rcases A.origin input W.input_mem.1 with hsystem | ⟨n, hn, hcompiled⟩
  · rw [W.input_mem.2] at hsystem
    cases hsystem
  · exact ⟨n, hn, hcompiled.id.symm⟩

include I

/-- A node of the author is the output when its type says so. -/
theorem Authored.output_iff {n : WorkflowNode} (hn : n ∈ author.nodes) : n.nodeType = .output ↔ n.id = out.id := by
  refine ⟨I.output_id hn, fun hid => ?_⟩
  obtain ⟨m, hm, hcompiled⟩ := A.compiled n hn
  rw [← hcompiled.nodeType, W.eq_of_id hm W.output_mem.1 (by rw [hcompiled.id, hid, I.out_eq W])]
  exact W.output_mem.2

variable {s : RunState} (hinv : RunInv W s)

include hinv

/-- Every node the run reached along satisfied edges, it reached along the author's: a node of the author itself, and the
task of a node of a chain, which it finished. -/
theorem Injected.passed_of_fired {v : String} (h : Relation.ReflTransGen (Token.Fired W.net s.mark) input.id v) :
    v = out.id ∨ ((v ∈ nodeIds author.nodes → Relation.ReflTransGen (author.Passed g s) input.id v) ∧
      ∀ task ∈ author.writeIds, ∀ m, g.ChainNode task m → m.id = v →
        Relation.ReflTransGen (author.Passed g s) input.id task ∧ ∃ o, s.mark task = .done (some o)) := by
  have hapart : ∀ {task : String} {m : WorkflowNode}, task ∈ author.writeIds → g.ChainNode task m →
      m.id ∉ nodeIds author.nodes := fun ht hm => I.not_chainNode W.nodup ht hm
  have hauthor : ∀ {v : String}, v ∈ nodeIds author.nodes → Relation.ReflTransGen (author.Passed g s) input.id v →
      v = out.id ∨ ((v ∈ nodeIds author.nodes → Relation.ReflTransGen (author.Passed g s) input.id v) ∧
        ∀ task ∈ author.writeIds, ∀ m, g.ChainNode task m → m.id = v →
          Relation.ReflTransGen (author.Passed g s) input.id task ∧ ∃ o, s.mark task = .done (some o)) := by
    intro v hv hpath
    exact .inr ⟨fun _ => hpath, fun task ht m hm hid => absurd (hid ▸ hv) (hapart ht hm)⟩
  -- along the path; inside a chain what is carried is that its task was passed and finished
  induction h with
  | refl =>
    obtain ⟨n, hn, hid⟩ := A.input_mem W
    exact hauthor (hid ▸ List.mem_map_of_mem hn) .refl
  | @tail u w _ hfired ih =>
    obtain ⟨c, o, ⟨e, he, rfl, rfl, rfl⟩, ho, hfires⟩ := hfired
    have htakes : Takes s.rows e.fromNode e.condition := by
      obtain ⟨r, hr, hid⟩ := hinv.mem_row (W.refs e he).1
      rw [← hid, mark_of_mem hinv.node_nodup hr] at ho
      exact ⟨r, hr, hid, (edgeSatisfied_iff (mark_done.1 ⟨_, ho⟩) _).2 ⟨o, ho, hfires⟩⟩
    obtain ⟨hown, hchain⟩ := ih.resolve_left fun hid => W.no_outgoing e he (by rw [hid, I.out_eq W])
    rcases I.edge_cases he with ⟨hmem, hkept⟩ | ⟨task, ht, ⟨hfrom, m', hm', hto⟩ | ⟨m, -, -, hto, -⟩ |
      ⟨a, ha, rfl, hc, m, hm, htype, hid, hto, hcond⟩⟩
    · refine hauthor (A.ends e hmem).2 ((hown (A.ends e hmem).1).tail ⟨⟨e, hmem, rfl, rfl, .inl ⟨hkept, htakes⟩⟩, o, ho⟩)
    -- the edge enters the chain of its task or goes on inside it
    · have htask : Relation.ReflTransGen (author.Passed g s) input.id task ∧ ∃ o, s.mark task = .done (some o) := by
        rcases hfrom with rfl | ⟨m, hm, hid⟩
        · obtain ⟨n, hn, hnid⟩ := List.mem_map.1 ht
          exact ⟨hown (hnid ▸ List.mem_map_of_mem (mem_writeTasks.1 hn).1), o, ho⟩
        · exact hchain task ht m hm hid
      refine .inr ⟨fun hw => absurd (hto ▸ hw) (hapart ht hm'), fun task' ht' m hm hid => ?_⟩
      obtain rfl : m = m' := W.eq_of_id hm.1 hm'.1 (hid.trans hto.symm)
      obtain rfl : task = task' := Option.some.inj (hm'.2.symm.trans hm.2)
      exact htask
    · exact .inl hto
    -- the merge of a chain resumes where the task's own edge led
    · rw [hto]
      obtain ⟨htask, hdone⟩ := hchain _ ht m hm hid
      refine hauthor (A.ends a ha).2 (htask.tail ⟨⟨a, ha, rfl, rfl, .inr ⟨⟨ht, hc⟩, m, hm, htype, ?_⟩⟩, hdone⟩)
      rw [hid, ← hcond]
      exact htakes

/-- So the run reached a node of the author that ran along the author's edges, and finished every node on the way. -/
theorem Injected.passed_of_ran {n : WorkflowNode} (hn : n ∈ author.nodes) (hout : n.nodeType ≠ .output) {r : NodeRunRow}
    (hr : r ∈ s.rows) (hid : r.nodeId = n.id) (hleft : r.status ≠ .pending) (hran : r.status ≠ .skipped) :
    Relation.ReflTransGen (author.Passed g s) input.id n.id := by
  have hlive : (s.mark n.id).Live := by
    rw [← hid, mark_of_mem hinv.node_nodup hr]
    exact hinv.live_of_left hr hleft hran
  rcases I.passed_of_fired A W hinv (hinv.token.live_reach hlive) with h | ⟨hown, -⟩
  · exact absurd ((A.output_iff I W hn).2 h) hout
  · exact hown (List.mem_map_of_mem hn)

/-- A node of the author past `pending` was skipped exactly when the run took no edge of the author to it, and no chain
stopped if it is the output. -/
theorem Injected.skipped_iff {n : WorkflowNode} (hn : n ∈ author.nodes) (hin : n.nodeType ≠ .input) {r : NodeRunRow}
    (hr : r ∈ s.rows) (hid : r.nodeId = n.id) (hleft : r.status ≠ .pending) : r.status = .skipped ↔
      ¬ ((∃ e ∈ author.edges, e.toNode = n.id ∧ author.Taken g s.rows e) ∨
        n.nodeType = .output ∧ author.ChainStopped g s.rows) := by
  have hne : r.nodeId ≠ input.id := by
    rw [hid]
    exact fun h => hin ((A.input_iff W hn).2 h)
  rw [hinv.skipped_iff hr hleft hne, hid, I.someSatisfied_iff W.nodup hn, A.output_iff I W hn]

/-- A node run of the author that ended ran exactly when the input reaches its node along the edges the run took. -/
theorem Injected.ran_iff {n : WorkflowNode} (hn : n ∈ author.nodes) (hout : n.nodeType ≠ .output) {r : NodeRunRow}
    (hr : r ∈ s.rows) (hid : r.nodeId = n.id) (hleft : r.status ≠ .pending) :
    r.status ≠ .skipped ↔ Relation.ReflTransGen (author.Follows g s.rows) input.id n.id := by
  constructor
  · intro hrun
    exact Relation.ReflTransGen.mono (fun _ _ h => h.1) _ _ (I.passed_of_ran A W hinv hn hout hr hid hleft hrun)
  · intro hpath hskip
    -- the input is not skipped, and any other node has an edge into it that was taken
    rcases Relation.ReflTransGen.cases_tail hpath with heq | ⟨u, -, e, he, -, hto, htaken⟩
    · refine (hinv.token.skipped input.id ?_).1 rfl
      rw [← heq, ← hid, mark_of_mem hinv.node_nodup hr]
      simp [NodeRunRow.mark, hskip]
    · by_cases hin : n.nodeType = .input
      · have hid' := (A.input_iff W hn).1 hin
        refine (hinv.token.skipped input.id ?_).1 rfl
        rw [← hid', ← hid, mark_of_mem hinv.node_nodup hr]
        simp [NodeRunRow.mark, hskip]
      · exact (I.skipped_iff A W hinv hn hin hr hid hleft).1 hskip (.inl ⟨e, he, hto, htaken⟩)

end

def conditionStart (db : Db) : Db :=
  (Tx.commit (startAndReconcile conditionDigests .table "r" sampleLease sampleNow) db).2

/-- Start the next node of the sample run, and complete it. -/
def conditionRound (db : Db) (nodeRunId : String) (outcome : NodeOutcome) : Db :=
  (Tx.commit (completeNode conditionDigests nodeRunId .completed outcome "" sampleLease none none sampleNow)
    (Tx.commit (claimNext conditionDigests .table "r" sampleLease sampleNow) (conditionStart db)).2).2

theorem conditionRound_reached (db : Db) (nodeRunId : String) (outcome : NodeOutcome) :
    Relation.ReflTransGen (ScheduleStep conditionDigests "r") db (conditionRound db nodeRunId outcome) :=
  ((Relation.ReflTransGen.single (.startAndReconcile _ _ _)).tail (.claimNext _ _ _)).tail (.completeNode _ _ _ _ _ _ _ _)

/-- The run whose first condition did not match. -/
def unmatchedDb : Db := conditionStart (conditionRound (conditionRound conditionDb "rstart" .success) "rdone" .notMatched)

theorem unmatchedDb_reached : Relation.ReflTransGen (ScheduleStep conditionDigests "r") conditionDb unmatchedDb :=
  ((conditionRound_reached conditionDb "rstart" .success).trans (conditionRound_reached _ "rdone" .notMatched)).tail
    (.startAndReconcile _ _ _)

end AgentHub
