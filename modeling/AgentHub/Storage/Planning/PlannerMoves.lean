import AgentHub.Storage.Planning.Drafts
/-!
# What the planner run repository changes

Every operation that returns makes changes of planner runs: one row gets another status, or comes into being, and one event
says so. The workflows change only when a planner run succeeds, with the workflow it made.
-/

namespace AgentHub

open Lib Workspace

variable {φ : Type} {H : PlanHost φ}

/-- A planner run's row changes, with one event of it. -/
structure PlannerChange (db db' : PlanDb) (id : String) (before : Option PlannerRunRow) (after : PlannerRunRow) : Prop where
  found : db.plannerRuns.get? id = before
  self : db'.plannerRuns.get? id = some after
  others : ∀ k, k ≠ id → db'.plannerRuns.get? k = db.plannerRuns.get? k
  events : ∃ e, db'.plannerEvents = db.plannerEvents ++ [e] ∧ e.plannerRunId = id ∧
    e.previousStatus = before.map PlannerRunRow.status ∧ e.status = after.status

namespace PlannerRunRepository

/-! ## The statements -/

theorem rowOf_readOnly (id : String) : Tx.ReadOnly (rowOf id) := .bind (.read _) fun _ => .require _ _

theorem rowOf_ok {id : String} {db : PlanDb} {r : PlannerRunRow × PlanDb} (h : (rowOf id).run db = .ok r) :
    db.plannerRuns.get? id = some r.1 ∧ r.2 = db := by
  simp only [rowOf, StateT.run_bind, Tx.bind_ok, TableRef.select_ok, Tx.require_ok] at h
  obtain ⟨_, rfl, hrow, hdb⟩ := h
  exact ⟨hrow, hdb⟩

theorem masterAssert_readOnly (lease : MasterLease) (now : Instant) : Tx.ReadOnly (MasterLeaseRepository.assertValidIn lease now) :=
  .bind (.read _) fun _ => .ensure _ _

theorem appendEvent_ok {lease : MasterLease} {id sessionId : String} {previous : Option PlannerRunStatus}
    {target : PlannerRunStatus} {code : Option String} {now : Instant} {db : PlanDb} {r : Unit × PlanDb}
    (h : (appendEvent lease id sessionId previous target code now).run db = .ok r) :
    ∃ e, r.2 = { db with plannerEvents := db.plannerEvents ++ [e] } ∧ e.plannerRunId = id ∧ e.previousStatus = previous ∧
      e.status = target := by
  unfold appendEvent at h
  obtain ⟨-, -, h⟩ := (Tx.ReadOnly.ensure _ _).bind_ok h
  obtain ⟨-, -, h⟩ := (Tx.ReadOnly.ensure _ _).bind_ok h
  obtain ⟨actor, -, h⟩ := (PlanOp.onRest_readOnly (WorkflowRepository.optionalEntityId_readOnly _)).bind_ok h
  obtain ⟨_, -, h⟩ := (PlanOp.onRest_readOnly (Tx.ReadOnly.read _)).bind_ok h
  obtain ⟨-, -, h⟩ := (Tx.ReadOnly.require _ _).bind_ok h
  exact ⟨_, congrArg Prod.snd (Tx.write_ok.1 h), rfl, rfl, rfl⟩

/-- A status update that changes one row, with its event. -/
theorem moved_change {id : String} {expected : PlannerRunStatus} {f : PlannerRunRow → PlannerRunRow} {hid : ∀ r, (f r).id = r.id}
    {lease : MasterLease} {sessionId : String} {target : PlannerRunStatus} {code : Option String} {now : Instant}
    {db db₁ : PlanDb} {changed : Nat} {r : Unit × PlanDb} (hset : (setStatus id expected f hid).run db = .ok (changed, db₁))
    (hone : changed = 1) (hf : ∀ row, (f row).status = target)
    (happend : (appendEvent lease id sessionId (some expected) target code now).run db₁ = .ok r) :
    r.2.workflows = db.workflows ∧
      ∃ row, row.status = expected ∧ PlannerChange db r.2 id (some row) (f row) := by
  simp only [setStatus, TableRef.update_ok] at hset
  obtain ⟨hchanged, rfl⟩ := Prod.mk.injEq .. ▸ hset
  rw [hchanged] at hone
  -- one row changed, so the planner run was there with the status that was expected
  obtain ⟨row, hrow, hstatus⟩ := Table.count_key_eq_one.1 hone
  obtain ⟨e, hdb, heid, hprevious, htarget⟩ := appendEvent_ok happend
  rw [hdb]
  refine ⟨rfl, row, of_decide_eq_true hstatus, hrow, ?_, fun k hk => ?_, e, rfl, heid, ?_, htarget.trans (hf row).symm⟩
  · dsimp only
    rw [Table.get?_update_self hrow]
    simp [of_decide_eq_true hstatus]
  · dsimp only
    rw [Table.get?_update_ne hk]
  · rw [hprevious, Option.map_some, of_decide_eq_true hstatus]

/-! ## The operations -/

theorem raiseConflict_ok {id : String} {expected : PlannerRunStatus} {db : PlanDb} {r : Unit × PlanDb} :
    (raiseConflict id expected).run db = .ok r ↔ False := by
  simp [raiseConflict, Tx.bind_ok]

theorem createIn_change {value : NewPlannerRun} {lease : MasterLease} {now : Instant} {db : PlanDb} {r : PlannerRunRow × PlanDb}
    (h : (createIn value lease now).run db = .ok r) :
    insertable value = true ∧ r.2.workflows = db.workflows ∧ PlannerChange db r.2 value.plannerRunId none (newRow value now) := by
  unfold createIn at h
  obtain ⟨-, -, h⟩ := (PlanOp.onRest_readOnly (masterAssert_readOnly lease now)).bind_ok h
  obtain ⟨_, -, h⟩ := (PlanOp.onRest_readOnly (Tx.ReadOnly.read _)).bind_ok h
  obtain ⟨_, -, h⟩ := (Tx.ReadOnly.require _ _).bind_ok h
  obtain ⟨-, -, h⟩ := (Tx.ReadOnly.ensure _ _).bind_ok h
  obtain ⟨-, -, h⟩ := (Tx.ReadOnly.ensure _ _).bind_ok h
  obtain ⟨_, hinsertable, h⟩ := (Tx.ReadOnly.ensure _ _).bind_ok h
  rw [StateT.run_bind, Tx.bind_ok] at h
  obtain ⟨_, hinsert, h⟩ := h
  obtain ⟨t, ht, rfl⟩ := TableRef.insert_ok.1 hinsert
  rw [StateT.run_bind, Tx.bind_ok] at h
  obtain ⟨_, happend, h⟩ := h
  obtain ⟨e, hdb, heid, hprevious, htarget⟩ := appendEvent_ok happend
  rw [(rowOf_ok h).2, hdb]
  exact ⟨(Tx.ensure_ok.1 hinsertable).1, rfl, (Table.insert_eq_some ht).2.1, (Table.get?_insert ht _).trans (if_pos rfl),
    fun k hk => (Table.get?_insert ht _).trans (if_neg (Ne.symm hk)), e, rfl, heid, hprevious, htarget⟩

theorem transition_change {id : String} {expected target : PlannerRunStatus} {lease : MasterLease} {result : PlannerResult}
    {now : Instant} {db : PlanDb} {r : PlannerRunRow × PlanDb}
    (h : (transition id expected target lease result now).run db = .ok r) :
    target ∈ expected.allowed ∧ r.2.workflows = db.workflows ∧
      ∃ row, row.status = expected ∧ PlannerChange db r.2 id (some row) (row.moved target result now) := by
  unfold transition at h
  obtain ⟨_, htarget, h⟩ := (Tx.ReadOnly.ensure _ _).bind_ok h
  refine ⟨of_decide_eq_true (Tx.ensure_ok.1 htarget).1, ?_⟩
  obtain ⟨-, -, h⟩ := (PlanOp.onRest_readOnly (masterAssert_readOnly lease now)).bind_ok h
  obtain ⟨_, -, h⟩ := (Tx.ReadOnly.read _).bind_ok h
  rw [StateT.run_bind, Tx.bind_ok] at h
  obtain ⟨changed, hset, h⟩ := h
  obtain ⟨-, -, h⟩ := (Tx.ReadOnly.ensure _ _).bind_ok h
  -- an update that changes no row ends in the conflict
  split at h
  · rw [StateT.run_bind, Tx.bind_ok] at h
    obtain ⟨_, hraise, -⟩ := h
    exact (raiseConflict_ok.1 hraise).elim
  · next hone =>
    obtain ⟨row, -, h⟩ := (rowOf_readOnly id).bind_ok h
    rw [StateT.run_bind, Tx.bind_ok] at h
    obtain ⟨_, happend, h⟩ := h
    obtain rfl : r = _ := Tx.pure_ok.1 h
    exact moved_change hset (not_not.1 hone) (fun _ => rfl) happend

theorem orphanOne_change {lease : MasterLease} {now : Instant} {current : PlannerRunRow} {db : PlanDb}
    {r : PlannerRunRow × PlanDb} (h : (orphanOne lease now current).run db = .ok r) :
    r.2.workflows = db.workflows ∧
      ∃ row, row.status = .running ∧ PlannerChange db r.2 current.id (some row) (row.orphaned orphanedCode now) := by
  unfold orphanOne at h
  rw [StateT.run_bind, Tx.bind_ok] at h
  obtain ⟨changed, hset, h⟩ := h
  obtain ⟨_, hone, h⟩ := (Tx.ReadOnly.ensure _ _).bind_ok h
  rw [StateT.run_bind, Tx.bind_ok] at h
  obtain ⟨_, happend, h⟩ := h
  rw [(rowOf_ok h).2]
  exact moved_change hset (of_decide_eq_true (Tx.ensure_ok.1 hone).1) (fun _ => rfl) happend

/-- One planner run that was found running is quarantined. -/
def Quarantines (db db' : PlanDb) : Prop :=
  db'.workflows = db.workflows ∧ ∃ id row now,
    row.status = PlannerRunStatus.running ∧ PlannerChange db db' id (some row) (row.orphaned orphanedCode now)

theorem orphanEach_changes {lease : MasterLease} {now : Instant} (rows : List PlannerRunRow) {db : PlanDb}
    {r : List PlannerRunRow × PlanDb} (h : (orphanEach lease now rows).run db = .ok r) :
    Relation.ReflTransGen Quarantines db r.2 := by
  induction rows generalizing db r with
  | nil =>
    obtain rfl : r = _ := Tx.pure_ok.1 h
    exact .refl
  | cons current rows ih =>
    unfold orphanEach at h
    rw [StateT.run_bind, Tx.bind_ok] at h
    obtain ⟨⟨_, db₁⟩, hone, h⟩ := h
    rw [StateT.run_bind, Tx.bind_ok] at h
    obtain ⟨⟨_, db₂⟩, heach, h⟩ := h
    obtain rfl : r = _ := Tx.pure_ok.1 h
    obtain ⟨hworkflows, row, hrow, hchange⟩ := orphanOne_change hone
    have hrest := ih heach
    exact .head ⟨hworkflows, _, row, now, hrow, hchange⟩ hrest

theorem orphanRunning_changes {lease : MasterLease} {now : Instant} {db : PlanDb} {r : List PlannerRunRow × PlanDb}
    (h : (orphanRunning lease now).run db = .ok r) : Relation.ReflTransGen Quarantines db r.2 := by
  unfold orphanRunning at h
  obtain ⟨-, -, h⟩ := (PlanOp.onRest_readOnly (masterAssert_readOnly lease now)).bind_ok h
  obtain ⟨rows, -, h⟩ := (Tx.ReadOnly.read _).bind_ok h
  exact orphanEach_changes rows h

/-- A planner run succeeds with the workflow it made, which is created in the same transaction. -/
theorem succeedWithWorkflow_change {id : String} {workflow : NewWorkflow H} {lease : MasterLease} {now : Instant} {db : PlanDb}
    {r : (PlannerRunRow × DraftRecord φ) × PlanDb} (h : (succeedWithWorkflow H id workflow lease now).run db = .ok r) :
    workflow.sourcePlannerRunId = some id ∧
    (∃ created db₁, (WorkflowRepository.createIn H workflow now).run db = .ok (created, db₁) ∧
      r.2.workflows = db₁.workflows) ∧
    ∃ row, row.status = .running ∧ row.sessionId = workflow.sessionId ∧
      PlannerChange db r.2 id (some row) (row.succeeded workflow.workflowId 1 now) := by
  unfold succeedWithWorkflow at h
  obtain ⟨_, hsource, h⟩ := (Tx.ReadOnly.ensure _ _).bind_ok h
  obtain ⟨-, -, h⟩ := (PlanOp.onRest_readOnly (masterAssert_readOnly lease now)).bind_ok h
  obtain ⟨_, hselect, h⟩ := (Tx.ReadOnly.read _).bind_ok h
  obtain rfl := congrArg Prod.fst (TableRef.select_ok.1 hselect)
  obtain ⟨current, hcurrent, h⟩ := (Tx.ReadOnly.require _ _).bind_ok h
  have hfound := (Tx.require_ok.1 hcurrent).1
  obtain ⟨-, -, h⟩ := (Tx.ReadOnly.ensure _ _).bind_ok h
  obtain ⟨_, hsession, h⟩ := (Tx.ReadOnly.ensure _ _).bind_ok h
  have hcheck : Tx.ReadOnly (checkSession workflow.sessionId current.integrationBaseCommit) :=
    .bind (PlanOp.onRest_readOnly (Tx.ReadOnly.read _)) fun _ => .bind (.require _ _) fun _ => .bind (.ensure _ _) fun _ =>
      .ensure _ _
  obtain ⟨-, -, h⟩ := hcheck.bind_ok h
  rw [StateT.run_bind, Tx.bind_ok] at h
  obtain ⟨⟨created, db₁⟩, hcreate, h⟩ := h
  rw [StateT.run_bind, Tx.bind_ok] at h
  obtain ⟨changed, hset, h⟩ := h
  obtain ⟨_, hone, h⟩ := (Tx.ReadOnly.ensure _ _).bind_ok h
  rw [StateT.run_bind, Tx.bind_ok] at h
  obtain ⟨_, happend, h⟩ := h
  obtain ⟨_, -, h⟩ := (rowOf_readOnly id).bind_ok h
  obtain rfl : r = _ := Tx.pure_ok.1 h
  obtain ⟨hworkflows, row, hrow, hchange⟩ :=
    moved_change hset (of_decide_eq_true (Tx.ensure_ok.1 hone).1) (fun _ => rfl) happend
  -- The creation leaves the planner runs as they were, and the row it succeeds is the one that was read.
  obtain ⟨-, ⟨t, -, hdb₁⟩, -, hrecord⟩ := WorkflowRepository.createIn_ok hcreate
  obtain rfl : db₁ = _ := hdb₁
  have hsame : row = current := Option.some.inj (hchange.found.symm.trans hfound)
  obtain ⟨hid, hversion⟩ := WorkflowRepository.newRow_record hrecord
  rw [hid, hversion, Nat.cast_one] at hchange
  refine ⟨of_decide_eq_true (Tx.ensure_ok.1 hsource).1, ⟨created, _, hcreate, hworkflows⟩, row, hrow, ?_, hchange.found,
    hchange.self, hchange.others, hchange.events⟩
  rw [hsame]
  exact of_decide_eq_true (Tx.ensure_ok.1 hsession).1

end PlannerRunRepository

end AgentHub
