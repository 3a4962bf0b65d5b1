import AgentHub.Storage.Runs.Nodes
/-!
# The state of one run

`Db.runState` is what the scheduler sees of a run: its row and its node runs. Each primitive write
changes the state of at most one run (`runState_nodeCas`, `runState_runCas`), and `Frame` is what the
scheduling operations leave alone in the rest of the database.
-/

namespace AgentHub

open Lib

structure RunState where
  run : WorkflowRunRow
  rows : List NodeRunRow

/-- The state of a run, its event counter aside. -/
def Db.runState (db : Db) (workflowRunId : String) : Option RunState :=
  (db.run? workflowRunId).map fun run => ⟨run, db.rowsOf workflowRunId⟩

/-- Rewrite the node run `id`. -/
def RunState.setRow (s : RunState) (id : String) (f : NodeRunRow → NodeRunRow) : RunState :=
  { s with rows := s.rows.map fun r => if r.id = id then f r else r }

/-- The columns of a node run that no operation changes. -/
def NodeRunRow.skeleton (r : NodeRunRow) : String × String × String × NodeType × Nat :=
  (r.id, r.workflowRunId, r.nodeId, r.nodeType, r.attempt)

theorem runState_eq_some {db : Db} {rid : String} {s : RunState} :
    db.runState rid = some s ↔ db.run? rid = some s.run ∧ db.rowsOf rid = s.rows := by
  obtain ⟨run, rows⟩ := s
  simp [Db.runState]

theorem mem_rowsOf {db : Db} {rid : String} {r : NodeRunRow} :
    r ∈ db.rowsOf rid ↔ r ∈ db.nodeRuns.rows ∧ r.workflowRunId = rid := by
  simp [Db.rowsOf]

/-- The node runs of a state taken from a database have distinct ids. -/
theorem ids_nodup {db : Db} {rid : String} {s : RunState} (h : db.runState rid = some s) :
    (s.rows.map NodeRunRow.id).Nodup := by
  rw [← (runState_eq_some.1 h).2]
  exact db.nodeRuns.key_nodup.sublist (List.filter_sublist.map _)

theorem run?_eq_some {db : Db} {rid : String} {run : WorkflowRunRow} (h : db.workflowRuns.get? rid = some run) :
    db.run? rid = some run.core := by
  simp [Db.run?, h]

theorem run?_of_core {db : Db} {rid : String} {run : WorkflowRunRow} (h : db.run? rid = some run) :
    ∃ row, db.workflowRuns.get? rid = some row ∧ row.core = run := by
  simpa [Db.run?] using h

theorem Quiet.runState {db db' : Db} (h : Quiet db db') (rid : String) : db'.runState rid = db.runState rid := by
  simp only [Db.runState, Db.rowsOf, h.runs, h.nodeRuns]

/-! ## Primitive writes -/

section
variable {db db' : Db} {k rid : String} {u : Unit} {e : StorageError}

theorem rowsOf_update (db : Db) (p : NodeRunRow → Bool) (f : NodeRunRow → NodeRunRow) (hk hu) (rid : String) :
    ({ db with nodeRuns := db.nodeRuns.update p f hk hu } : Db).rowsOf rid =
      (db.rowsOf rid).map fun r => if p r then f r else r := by
  have hrun : ∀ r, (f r).workflowRunId = r.workflowRunId := fun r => congrArg Prod.fst (hu r)
  unfold Db.rowsOf
  rw [Table.rows_update, List.filter_map]
  congr 2
  funext r
  by_cases hp : p r <;> simp [hp, hrun]

/-- A guarded write to a node run rewrites that row in its run's state and no other state. -/
theorem runState_nodeCas {g : NodeRunRow → Bool} {f : NodeRunRow → NodeRunRow} {hk hu}
    (h : (Db.nodeRunsT.cas k g f hk hu e).run db = .ok (u, db')) :
    ∃ r, db.nodeRuns.get? k = some r ∧ g r = true ∧
      db'.runState r.workflowRunId = (db.runState r.workflowRunId).map (·.setRow k f) ∧
      ∀ rid, rid ≠ r.workflowRunId → db'.runState rid = db.runState rid := by
  obtain ⟨⟨r, hr, hg⟩, hs⟩ := TableRef.cas_ok.1 h
  simp only [Prod.mk.injEq] at hs
  obtain ⟨-, rfl⟩ := hs
  have honly : ∀ r' ∈ db.nodeRuns.rows, r'.id = k → r' = r := by
    intro r' hr' hid
    have := Table.get?_of_mem hr'
    rw [hid, hr] at this
    exact (Option.some.inj this).symm
  refine ⟨r, hr, hg, ?_, fun rid hne => ?_⟩
  · simp only [Db.runState, rowsOf_update, Option.map_map]
    congr 1
    funext run
    simp only [Function.comp_apply, RunState.setRow]
    congr 1
    refine List.map_congr_left fun r' hr' => ?_
    by_cases hid : r'.id = k
    · have := honly r' (mem_rowsOf.1 hr').1 hid
      subst this
      simp [hid, hg]
    · simp [hid]
  · simp only [Db.runState, rowsOf_update]
    congr 1
    funext run
    congr 1
    refine (List.map_congr_left fun r' hr' => ?_).trans (List.map_id _)
    have hid : r'.id ≠ k := by
      intro hid
      have := honly r' (mem_rowsOf.1 hr').1 hid
      exact hne ((mem_rowsOf.1 hr').2.symm.trans (congrArg NodeRunRow.workflowRunId this))
    simp [hid]

/-- A guarded write to a run row rewrites that run's state and no other, when guard and write ignore the counter. -/
theorem runState_runCas {g : WorkflowRunRow → Bool} {f : WorkflowRunRow → WorkflowRunRow} {hk hu}
    (h : (Db.workflowRunsT.cas k g f hk hu e).run db = .ok (u, db')) (hg : ∀ r, g r.core = g r)
    (hf : ∀ r, (f r).core = f r.core) :
    (∃ run, db.run? k = some run ∧ g run = true) ∧
      db'.runState k = (db.runState k).map (fun s => { s with run := f s.run }) ∧
      ∀ rid, rid ≠ k → db'.runState rid = db.runState rid := by
  obtain ⟨⟨row, hrow, hgrow⟩, hs⟩ := TableRef.cas_ok.1 h
  simp only [Prod.mk.injEq] at hs
  obtain ⟨-, rfl⟩ := hs
  refine ⟨⟨row.core, run?_eq_some hrow, (hg row).trans hgrow⟩, ?_, fun rid hne => ?_⟩
  · have hw : (db.workflowRuns.update (fun r => decide (r.id = k) && g r) f hk hu).get? k =
        some (if g row then f row else row) := Table.get?_update_self hrow
    simp only [hgrow, if_true] at hw
    simp only [Db.runState, Db.run?, Db.rowsOf, hw, hrow, Option.map_some, hf]
  · simp only [Db.runState, Db.run?, Db.rowsOf, Table.get?_update_ne hne]

end

/-- An unguarded write to node runs rewrites them in every run's state. -/
theorem runState_nodeUpdate {p : NodeRunRow → Bool} {f : NodeRunRow → NodeRunRow} {hk hu} {db db' : Db} {n : Nat}
    (h : (Db.nodeRunsT.update p f hk hu : Op Nat).run db = .ok (n, db')) (rid : String) :
    db'.runState rid = (db.runState rid).map fun s => { s with rows := s.rows.map fun r => if p r then f r else r } := by
  simp only [TableRef.update_ok, Prod.mk.injEq] at h
  obtain ⟨-, rfl⟩ := h
  simp only [Db.runState, rowsOf_update, Option.map_map]
  rfl

/-- An unguarded write to run rows rewrites every run's state, when it ignores the counter. -/
theorem runState_runUpdate {p : WorkflowRunRow → Bool} {f : WorkflowRunRow → WorkflowRunRow} {hk hu} {db db' : Db}
    {n : Nat} (h : (Db.workflowRunsT.update p f hk hu : Op Nat).run db = .ok (n, db'))
    (hp : ∀ r, p r.core = p r) (hf : ∀ r, (f r).core = f r.core) (rid : String) :
    db'.runState rid = (db.runState rid).map fun s => { s with run := if p s.run then f s.run else s.run } := by
  simp only [TableRef.update_ok, Prod.mk.injEq] at h
  obtain ⟨-, rfl⟩ := h
  simp only [Db.runState, Db.run?, Db.rowsOf, Table.get?_update, Option.map_map]
  congr 1
  funext r
  by_cases hr : p r <;> simp [hp, hf, hr]

/-- A new node run joins the state of its run. -/
theorem runState_insert {row : NodeRunRow} {db db' : Db} {e : StorageError} {u : Unit}
    (h : (Db.nodeRunsT.insert row e).run db = .ok (u, db')) :
    db'.runState row.workflowRunId =
        (db.runState row.workflowRunId).map (fun s => { s with rows := s.rows ++ [row] }) ∧
      ∀ rid, rid ≠ row.workflowRunId → db'.runState rid = db.runState rid := by
  obtain ⟨t, ht, hs⟩ := TableRef.insert_ok.1 h
  simp only [Prod.mk.injEq] at hs
  obtain ⟨-, rfl⟩ := hs
  have hrows := (Table.insert_eq_some ht).1
  refine ⟨?_, fun rid hne => ?_⟩
  · simp only [Db.runState, Db.rowsOf, hrows, Option.map_map]
    congr 1
    funext run
    simp
  · simp only [Db.runState, Db.rowsOf, hrows]
    congr 1
    funext run
    simp [hne.symm]

/-! ## The rest of the database -/

/-- `db'` differs from `db` in its run rows, node runs and events only. -/
structure Frame (db db' : Db) : Prop where
  sessions : db'.sessions = db.sessions
  workflows : db'.workflows = db.workflows
  tasks : db'.tasks = db.tasks
  changeSets : db'.changeSets = db.changeSets
  artifacts : db'.artifacts = db.artifacts
  approvals : db'.approvals = db.approvals
  privilegeRequests : db'.privilegeRequests = db.privilegeRequests
  capabilityGrants : db'.capabilityGrants = db.capabilityGrants
  masterLeases : db'.masterLeases = db.masterLeases
  fileLocks : db'.fileLocks = db.fileLocks

theorem Frame.refl (db : Db) : Frame db db := ⟨rfl, rfl, rfl, rfl, rfl, rfl, rfl, rfl, rfl, rfl⟩

theorem Frame.trans {a b c : Db} (h : Frame a b) (h' : Frame b c) : Frame a c :=
  ⟨h'.sessions.trans h.sessions, h'.workflows.trans h.workflows, h'.tasks.trans h.tasks,
    h'.changeSets.trans h.changeSets, h'.artifacts.trans h.artifacts, h'.approvals.trans h.approvals,
    h'.privilegeRequests.trans h.privilegeRequests, h'.capabilityGrants.trans h.capabilityGrants,
    h'.masterLeases.trans h.masterLeases, h'.fileLocks.trans h.fileLocks⟩

theorem Quiet.frame {db db' : Db} (h : Quiet db db') : Frame db db' :=
  ⟨h.sessions, h.workflows, h.tasks, h.changeSets, h.artifacts, h.approvals, h.privilegeRequests,
    h.capabilityGrants, h.masterLeases, h.fileLocks⟩

theorem frame_nodeCas {db db' : Db} {k : String} {g f hk hu} {e : StorageError} {u : Unit}
    (h : (Db.nodeRunsT.cas k g f hk hu e).run db = .ok (u, db')) : Frame db db' := by
  obtain ⟨-, hs⟩ := TableRef.cas_ok.1 h
  simp only [Prod.mk.injEq] at hs
  obtain ⟨-, rfl⟩ := hs
  exact ⟨rfl, rfl, rfl, rfl, rfl, rfl, rfl, rfl, rfl, rfl⟩

theorem frame_runCas {db db' : Db} {k : String} {g f hk hu} {e : StorageError} {u : Unit}
    (h : (Db.workflowRunsT.cas k g f hk hu e).run db = .ok (u, db')) : Frame db db' := by
  obtain ⟨-, hs⟩ := TableRef.cas_ok.1 h
  simp only [Prod.mk.injEq] at hs
  obtain ⟨-, rfl⟩ := hs
  exact ⟨rfl, rfl, rfl, rfl, rfl, rfl, rfl, rfl, rfl, rfl⟩

end AgentHub
