import AgentHub.Storage.CallMoves
import AgentHub.Storage.Runs.Attempts
/-!
# Created runs

`create` leaves one node run of its type for each node of the graph (`create_created`), and no call takes a node or a
type from a run or brings another (`CreatedRun.reaches`).
-/

namespace AgentHub

open Lib WorkflowRunRepository

/-- What a node run has of its node. -/
def NodeRunRow.column (r : NodeRunRow) : String × NodeType := (r.nodeId, r.nodeType)

def WorkflowNode.column (n : WorkflowNode) : String × NodeType := (n.id, n.nodeType)

/-- The run as `create` leaves it: fresh, and every node run has the type of its node. -/
structure CreatedRun (db : Db) (rid : String) (graph : CompiledGraph) (s : RunState) : Prop extends
    FreshRun db rid graph s where
  columns : (s.rows.map NodeRunRow.column).Perm (graph.nodes.map WorkflowNode.column)

/-! ## Creation -/

section
variable {H : Digests} {sources : RunSources} {value : NewWorkflowRun} {lease : MasterLease} {ws : WorkspaceLease}
  {now : Instant} {rid : String} {db db' : Db}

/-- The node run of a node. -/
def newNodeRun (H : Digests) (rid : String) (now : Instant) (node : WorkflowNode) : NodeRunRow :=
  { id := H.nodeRunId rid node.id 1, workflowRunId := rid, nodeId := node.id, nodeType := node.nodeType, attempt := 1,
    status := .pending, assignedAgentId := node.resolvedAgentId, createdAt := utcNowText now }

theorem insertNodes_ok {nodes : List WorkflowNode} : ∀ {db : Db} {r : Unit × Db},
    (ApprovalRepository.forEach (insertNode H rid now) nodes).run db = .ok r →
    r.2.nodeRuns.rows = db.nodeRuns.rows ++ nodes.map (newNodeRun H rid now) ∧ r.2.workflowRuns = db.workflowRuns := by
  induction nodes with
  | nil =>
    intro db r h
    obtain rfl := Tx.pure_ok.1 h
    simp
  | cons node nodes ih =>
    intro db r h
    rw [ApprovalRepository.forEach, StateT.run_bind, Tx.bind_ok] at h
    obtain ⟨⟨_, db₁⟩, hinsert, h⟩ := h
    obtain ⟨t, ht, hs⟩ := TableRef.insert_ok.1 hinsert
    obtain rfl := (Prod.mk.inj hs).2
    obtain ⟨hrows, hruns⟩ := ih h
    refine ⟨?_, hruns⟩
    rw [hrows, List.map_cons, ← List.singleton_append, ← List.append_assoc]
    exact congrArg (· ++ _) (Table.insert_eq_some ht).1

/-- A run that is created is fresh, and its node runs have the types of the nodes. -/
theorem create_created {row : WorkflowRunRow} (hnone : db.rowsOf value.workflowRunId = [])
    (h : (create H sources value lease ws now).run db = .ok (row, db')) :
    ∃ s, CreatedRun db' value.workflowRunId value.compiledGraph s := by
  obtain ⟨_, -, h⟩ := (checkNewRun_readOnly H value).bind_ok h
  obtain ⟨_, -, h⟩ := (assertMaster_readOnly lease now).bind_ok h
  obtain ⟨_, -, h⟩ := (Tx.ReadOnly.ensure _ _).bind_ok h
  obtain ⟨_, -, h⟩ := (assertWorkspace_readOnly ws now).bind_ok h
  obtain ⟨session, -, h⟩ := (checkWorkflow_readOnly value).bind_ok h
  obtain ⟨_, -, h⟩ := (checkCompiled_readOnly sources value session).bind_ok h
  rw [StateT.run_bind] at h
  obtain ⟨⟨_, db₁⟩, hrun, h⟩ := Tx.bind_ok.1 h
  rw [StateT.run_bind] at h
  obtain ⟨⟨_, db₂⟩, hnodes, h⟩ := Tx.bind_ok.1 h
  rw [StateT.run_bind] at h
  obtain ⟨⟨_, db₃⟩, hevent, h⟩ := Tx.bind_ok.1 h
  obtain rfl : db' = db₃ := runRow_readOnly _ _ _ h
  simp only [insertRun, StateT.run_bind, Tx.bind_ok, Tx.read_ok, Tx.ensure_ok, TableRef.insert_ok] at hrun
  obtain ⟨_, rfl, _, ⟨-, rfl⟩, t, ht, hs⟩ := hrun
  obtain rfl := (Prod.mk.inj hs).2
  obtain ⟨hrows, hruns⟩ := insertNodes_ok hnodes
  have hquiet : Quiet db₂ db' := EventRepository.appendIn_quiet hevent
  -- the run has the node runs that were inserted and no other
  have hrowsOf : db₂.rowsOf value.workflowRunId = (value.compiledGraph.nodes.mergeSort fun a b => a.id ≤ b.id).map
      (newNodeRun H value.workflowRunId now) := by
    have hmine : ∀ r ∈ (value.compiledGraph.nodes.mergeSort fun a b => a.id ≤ b.id).map
        (newNodeRun H value.workflowRunId now), decide (r.workflowRunId = value.workflowRunId) = true := by
      intro r hr
      obtain ⟨n, -, rfl⟩ := List.mem_map.1 hr
      exact decide_eq_true rfl
    rw [Db.rowsOf] at hnone ⊢
    rw [hrows, List.filter_append, List.filter_eq_self.2 hmine]
    exact congrArg (· ++ _) hnone
  have hrow : db₂.run? value.workflowRunId = some (newRunRow H sources value now).core := by
    rw [Db.run?, hruns]
    exact congrArg _ ((Table.get?_insert ht _).trans (if_pos rfl))
  refine ⟨⟨(newRunRow H sources value now).core, db₂.rowsOf value.workflowRunId⟩,
    ⟨(hquiet.runState _).trans (runState_eq_some.2 ⟨hrow, rfl⟩), rfl, rfl, rfl, rfl, ?_, ?_⟩, ?_⟩
  · rw [hrowsOf, List.map_map]
    exact (List.mergeSort_perm _ _).map WorkflowNode.id
  · intro r hr
    rw [hrowsOf] at hr
    obtain ⟨n, -, rfl⟩ := List.mem_map.1 hr
    exact ⟨rfl, rfl, rfl⟩
  · rw [hrowsOf, List.map_map]
    exact (List.mergeSort_perm _ _).map WorkflowNode.column

end

/-! ## Steps -/

/-- The run has the nodes of the graph with their types, and its node runs are of these. -/
structure TypedRun (graph : CompiledGraph) (s : RunState) : Prop where
  snapshot : s.run.compiledSnapshot = graph
  columns : ∀ c, c ∈ s.rows.map NodeRunRow.column ↔ c ∈ graph.nodes.map WorkflowNode.column

theorem TypedRun.of_columns {graph : CompiledGraph} {s t : RunState} (h : TypedRun graph s)
    (hrun : t.run.compiledSnapshot = s.run.compiledSnapshot)
    (hrows : t.rows.map NodeRunRow.column = s.rows.map NodeRunRow.column) : TypedRun graph t :=
  ⟨hrun.trans h.snapshot, hrows ▸ h.columns⟩

/-- A step keeps the columns, but for the one more of a retry. -/
theorem RunStep.columns {s s' : RunState} (h : RunStep s s') :
    s'.run.compiledSnapshot = s.run.compiledSnapshot ∧
      (s'.rows.map NodeRunRow.column = s.rows.map NodeRunRow.column ∨
        ∃ c ∈ s.rows.map NodeRunRow.column, s'.rows.map NodeRunRow.column = s.rows.map NodeRunRow.column ++ [c]) := by
  have hset : ∀ (id : String) (f : NodeRunRow → NodeRunRow), (∀ x, (f x).column = x.column) →
      (s.setRow id f).rows.map NodeRunRow.column = s.rows.map NodeRunRow.column := fun _ _ => map_setRow
  have hmap : ∀ f : NodeRunRow → NodeRunRow, (∀ x, (f x).column = x.column) →
      (s.mapRows f).rows.map NodeRunRow.column = s.rows.map NodeRunRow.column := by
    intro f hf
    rw [RunState.mapRows, List.map_map]
    exact List.map_congr_left fun x _ => hf x
  cases h with
  | sched h =>
    cases h with
    | claim r now hr hready hrun hcancel => exact ⟨rfl, .inl (hset _ _ fun _ => rfl)⟩
    | move h =>
      cases h with
      | promote hrun h =>
        cases h
        exact ⟨rfl, .inl (hset _ _ fun _ => rfl)⟩
      | finish h =>
        cases h
        exact ⟨rfl, .inl rfl⟩
      | start now hrun hcancel => exact ⟨rfl, .inl rfl⟩
      | complete r target outcome artifact error now hr hrunning hrun hcancel =>
        exact ⟨rfl, .inl (hset _ _ fun _ => rfl)⟩
      | rejectRunning r now hr hrunning hrun hcancel => exact ⟨rfl, .inl (hset _ _ fun _ => rfl)⟩
      | wait r code hr hrunning hrun hcancel => exact ⟨rfl, .inl (hset _ _ fun _ => rfl)⟩
      | approve r hr hwaiting hrun hcancel => exact ⟨rfl, .inl (hset _ _ fun _ => rfl)⟩
      | reject r now hr hwaiting hrun hcancel => exact ⟨rfl, .inl (hset _ _ fun _ => rfl)⟩
  | insertRetry r t hr hwaiting hrun hcancel hfirst hlast hnode hpending =>
    have hcolumn : t.column = r.column := Prod.ext hnode.1 hnode.2.1
    refine ⟨rfl, .inr ⟨t.column, hcolumn ▸ List.mem_map_of_mem hr, ?_⟩⟩
    rw [List.map_append, List.map_singleton]
  | supersede r now hr hwaiting hrun hcancel hlater => exact ⟨rfl, .inl (hset _ _ fun _ => rfl)⟩
  | activate r hr hpending hcancel => exact ⟨rfl, .inl (hset _ _ fun _ => rfl)⟩
  | attach r artifactId hr hdone => exact ⟨rfl, .inl (hset _ _ fun _ => rfl)⟩
  | cancel now hrun hidle =>
    refine ⟨rfl, .inl (hmap _ fun x => ?_)⟩
    unfold NodeRunRow.cancelled
    split <;> rfl
  | orphan reason only finishedAt now hrun =>
    refine ⟨rfl, .inl (hmap _ fun x => ?_)⟩
    unfold NodeRunRow.orphaned
    split <;> rfl
  | wake | beginMerge | clearMerge | advance | mark => exact ⟨rfl, .inl rfl⟩

theorem RunStep.typed {graph : CompiledGraph} {s s' : RunState} (h : RunStep s s') (ht : TypedRun graph s) :
    TypedRun graph s' := by
  obtain ⟨hrun, hrows | ⟨c, hc, hrows⟩⟩ := h.columns
  · exact ht.of_columns hrun hrows
  · refine ⟨hrun.trans ht.snapshot, fun c' => ?_⟩
    rw [hrows, List.mem_append, List.mem_singleton, ht.columns]
    exact or_iff_left_of_imp fun heq => heq ▸ (ht.columns c).1 hc

/-- Every state the calls on the repository lead to has the nodes of the graph with their types. -/
theorem CreatedRun.reaches {H : Digests} {db₀ db : Db} {rid : String} {graph : CompiledGraph} {s₀ s : RunState}
    (h : CreatedRun db₀ rid graph s₀) (hcalls : Relation.ReflTransGen (CallStep H) db₀ db)
    (hs : db.runState rid = some s) : TypedRun graph s := by
  obtain ⟨t, ht, hsteps⟩ := refines_of_calls hcalls rid s₀ h.state
  obtain rfl := Option.some.inj (ht.symm.trans hs)
  clear ht hs
  induction hsteps with
  | refl => exact ⟨h.snapshot, fun _ => h.columns.mem_iff⟩
  | tail _ hstep ih => exact hstep.typed ih

end AgentHub
