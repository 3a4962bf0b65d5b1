import AgentHub.Storage.LedgerSteps
import AgentHub.Storage.Runs.Moves
/-!
# Runs: what their operations tell

Every operation of the workflow-run repository writes a status together with its event.
-/

namespace AgentHub

open Lib WorkflowRunRepository

variable {P : Licence}

theorem aside_within {α : Type} {x : Op α} (h : Tx.Within Aside x) : Tx.Within (Follows P) x :=
  fun _ _ _ hx => (h _ _ _ hx).follows

/-- The rows of a run belong to it. -/
theorem rowsOf_owner {db : Db} {rid : String} {row : NodeRunRow} (h : row ∈ db.rowsOf rid) :
    db.owner (.node row.id) = some rid := by
  obtain ⟨hmem, hrun⟩ := List.mem_filter.1 h
  simp only [Db.owner, Table.get?_of_mem hmem, Option.map_some, of_decide_eq_true hrun]

theorem nodeWithRun_owner {db : Db} {id : String} {p : NodeRunRow × WorkflowRunRow} (h : nodeWithRun db id = some p) :
    p.1.id = id ∧ db.owner (.node id) = some p.2.id := by
  obtain ⟨hnode, hrun⟩ := nodeWithRun_eq_some.1 h
  refine ⟨Table.get?_key hnode, ?_⟩
  simp only [Db.owner, hnode, Option.map_some, Table.get?_key hrun]

theorem nodeOfRun_owner {db : Db} {rid id : String} {p : NodeRunRow × WorkflowRunRow} (h : nodeOfRun db rid id = some p) :
    p.1.id = id ∧ db.owner (.node id) = some p.2.id :=
  nodeWithRun_owner (Option.filter_eq_some_iff.1 h).1

theorem nodeWithTask_owner {db : Db} {rid id : String} {p : NodeRunRow × WorkflowRunRow × TaskRow}
    (h : nodeWithTask db rid id = some p) : p.1.id = id ∧ db.owner (.node id) = some p.2.1.id ∧
      db.owner (.task p.2.2.id) = some p.2.1.id := by
  simp only [nodeWithTask, Option.bind_eq_some_iff, Option.map_eq_some_iff] at h
  obtain ⟨q, hq, task, htask, rfl⟩ := h
  obtain ⟨hid, howner⟩ := nodeOfRun_owner hq
  have hmem := List.mem_of_find?_eq_some htask
  have hnode : task.nodeRunId = id := by simpa using List.find?_some htask
  refine ⟨hid, howner, ?_⟩
  simp only [Db.owner, Table.get?_of_mem hmem, Option.bind_some, hnode]
  exact howner

/-- A node run belongs to a run. -/
def InRun (id rid : String) (s : Subject) (r : String) : Prop := s = .node id ∧ r = rid

/-! ## Reconciling -/

theorem promote_follows {run : WorkflowRunRow} {row : NodeRunRow} (h : P.owns (.node row.id) run.id) (lease : MasterLease)
    (target : NodeRunStatus) (now : Instant) : Tx.Within (Follows P) (promote run lease row target now) := by
  apply nodeMove_follows h
  · exact fun _ => rfl
  · exact fun r hr => of_decide_eq_true hr
  · intro r hr ho
    exact ⟨rfl, ho (by rw [of_decide_eq_true hr]; rfl)⟩
  · exact fun _ => rfl

theorem reconcilePass_follows {run : WorkflowRunRow} {rows : String → Option NodeRunRow}
    (h : ∀ v r, rows v = some r → P.owns (.node r.id) run.id) (lease : MasterLease) (now : Instant) (ids : List String) :
    Tx.Within (Follows P) (reconcilePass run lease rows now ids) := by
  induction ids with
  | nil => exact .pure _
  | cons id ids ih =>
    refine .found fun row hrow => .ite ih (.bind (.require _ _) fun node => ?_)
    refine .bind (lift_readOnly _).within fun target => ?_
    cases target with
    | none => exact ih
    | some target => exact .bind (promote_follows (h _ _ hrow) _ _ _) fun _ => .bind ih fun _ => .pure _

theorem mem_byNode {rows : List NodeRunRow} {v : String} {r : NodeRunRow} (h : byNode rows v = some r) : r ∈ rows :=
  (List.mem_filter.1 (List.mem_of_getLast? h)).1

/-- What reading the rows of a run tells. -/
def RowsInRun (rows : List NodeRunRow) (rid : String) (s : Subject) (r : String) : Prop :=
  r = rid ∧ ∃ row ∈ rows, s = .node row.id

theorem rowsInRun_read {ord : RowOrder} {k : Nat} {rid : String} {db : Db} {rows : List NodeRunRow}
    (h : (Tx.read fun db => ord.order k (db.rowsOf rid) : Op _).run db = .ok (rows, db)) (s : Subject) (r : String)
    (hs : RowsInRun rows rid s r) : db.owner s = some r := by
  obtain ⟨rfl, row, hrow, rfl⟩ := hs
  obtain rfl := (Prod.mk.inj (Tx.read_ok.1 h)).1
  exact rowsOf_owner ((ord.perm k _).mem_iff.1 hrow)

theorem reconcileLoop_follows (ord : RowOrder) (run : WorkflowRunRow) (lease : MasterLease) (now : Instant) (fuel : Nat) :
    ∀ (P : Licence) k, Tx.Within (Follows P) (reconcileLoop ord run lease now fuel k) := by
  induction fuel with
  | zero => exact fun _ _ => .fail _
  | succ fuel ih =>
    intro P k
    refine learn_follows (.read _) (fun db rows h _ => rowsInRun_read h) fun db rows _ => ?_
    refine .bind (lift_readOnly _).within fun ids => .bind ?_ fun changed => .ite (ih _ _) (.pure _)
    exact reconcilePass_follows (fun v r hr => Or.inr ⟨rfl, r, mem_byNode hr, rfl⟩) _ _ _

theorem finishRunIn_follows (run : WorkflowRunRow) (lease : MasterLease) (target : WorkflowRunStatus) (now : Instant) :
    Tx.Within (Follows P) (finishRunIn run lease target now) := by
  apply runMove_follows
  · exact fun _ => rfl
  · exact fun r hr => of_decide_eq_true hr
  · exact fun _ => rfl

theorem reconcileIn_follows (ord : RowOrder) (run : WorkflowRunRow) (lease : MasterLease) (now : Instant) :
    Tx.Within (Follows P) (reconcileIn ord run lease now) := by
  refine .bind (.read _) fun _ => .bind (reconcileLoop_follows _ _ _ _ _ _ _) fun _ => .bind (.read _) fun rows => ?_
  refine .ite (.bind (.require _ _) fun _ => .bind (.require _ _) fun _ => ?_) (.pure _)
  exact finishRunIn_follows _ _ _ _

/-! ## Scheduling -/

theorem startAndReconcile_follows (H : Digests) (ord : RowOrder) (rid : String) (lease : MasterLease) (now : Instant) :
    Tx.Within (Follows P) (startAndReconcile H ord rid lease now) := by
  refine .bind (assertMaster_readOnly _ _).within fun _ => .bind (runRow_readOnly _).within fun row => ?_
  refine .bind (validateSnapshots_readOnly _ _).within fun _ => .bind (.ite ?_ (.pure _)) fun row => ?_
  · refine pair_within (runMove_follows (fun _ => rfl) (fun r hr => ?_) fun _ => rfl) fun _ => (runRow_readOnly _).within
    exact (of_decide_eq_true hr).1
  · exact .bind (.ite (reconcileIn_follows _ _ _ _) (.pure _)) fun _ => (runRow_readOnly _).within

theorem claim_follows {run : WorkflowRunRow} {selected : NodeRunRow} (h : P.owns (.node selected.id) run.id)
    (lease : MasterLease) (now : Instant) : Tx.Within (Follows P) (claim run lease selected now) := by
  refine pair_within (nodeMove_follows h (fun _ => rfl) (fun r hr => of_decide_eq_true hr) (fun r hr ho => ?_) fun _ => rfl)
    fun _ => TableRef.select_within _
  exact ⟨rfl, ho (by rw [of_decide_eq_true hr]; rfl)⟩

/-- What follows the read of a run may use its id. -/
theorem runRow_within {α : Type} {R : Db → Db → Prop} {rid : String} {k : WorkflowRunRow → Op α}
    (h : ∀ run, run.id = rid → Tx.Within R (k run)) : Tx.Within R (runRow rid >>= k) := by
  intro db a db' hx
  rw [StateT.run_bind, Tx.bind_ok] at hx
  obtain ⟨⟨run, s⟩, hrun, hx⟩ := hx
  obtain ⟨hget, rfl⟩ := runRow_ok.1 hrun
  exact h run (Table.get?_key hget) _ _ _ hx

/-- What follows a pure computation may use what it returned. -/
theorem lift_within {α β : Type} {R : Db → Db → Prop} {x : Except StorageError β} {k : β → Op α}
    (h : ∀ b, x = .ok b → Tx.Within R (k b)) : Tx.Within R (Op.lift x >>= k) := by
  intro db a db' hx
  rw [StateT.run_bind, Tx.bind_ok] at hx
  obtain ⟨⟨b, s⟩, hlift, hx⟩ := hx
  obtain ⟨hb, rfl⟩ := lift_ok.1 hlift
  exact h b hb _ _ _ hx

theorem claimNext_follows (H : Digests) (ord : RowOrder) (rid : String) (lease : MasterLease) (now : Instant) :
    Tx.Within (Follows P) (claimNext H ord rid lease now) := by
  refine .bind (assertMaster_readOnly _ _).within fun _ => runRow_within fun run hid => ?_
  refine .bind (validateSnapshots_readOnly _ _).within fun _ => .ite (.pure _) ?_
  refine learn_follows (.read _) (fun db rows h _ => rowsInRun_read h) fun db rows _ => ?_
  refine .bind (lift_readOnly _).within fun ids => lift_within fun selected hselected => ?_
  cases selected with
  | none => exact .pure _
  | some row =>
    obtain ⟨v, -, hrow, -⟩ := firstReady_ok hselected
    exact claim_follows (Or.inr ⟨hid, row, mem_byNode hrow, rfl⟩) _ _

theorem completeNode_follows (H : Digests) (id : String) (target : NodeRunStatus) (outcome : NodeOutcome)
    (summary : String) (lease : MasterLease) (artifact error : Option String) (now : Instant) :
    Tx.Within (Follows P) (completeNode H id target outcome summary lease artifact error now) := by
  refine .check fun htarget => .bind (.ensure _ _) fun _ => .bind (.ensure _ _) fun _ => ?_
  refine .bind (assertMaster_readOnly _ _).within fun _ => ?_
  refine found_follows (fun db p h s r hs => ?_) (Q := fun p => InRun id p.2.id) fun db p _ => ?_
  · obtain ⟨rfl, rfl⟩ := hs
    exact (nodeWithRun_owner h).2
  obtain ⟨node, run⟩ := p
  refine .bind (.ensure _ _) fun _ => .bind (.ensure _ _) fun _ => ?_
  refine .bind (checkOutputArtifact_readOnly _ _ _ _ _).within fun _ => ?_
  refine .bind (checkAgentTask_readOnly _ _ _ _).within fun _ => ?_
  refine pair_within (nodeMove_follows (Or.inr ⟨rfl, rfl⟩) (fun _ => rfl) (fun r hr => of_decide_eq_true hr)
    (fun _ _ _ => ⟨rfl, rfl⟩) fun hlive => ?_) fun _ => TableRef.select_within _
  have hmem := of_decide_eq_true htarget
  cases target <;> simp [NodeRunStatus.isLive] at hmem hlive

/-! ## Waiting -/

/-- Two subjects owed and paid: nothing is owed. -/
theorem paid_both {D : Subject → List StateChange} {a b : Subject} {c d : List StateChange} (hD : ∀ s, D s = []) (s : Subject) :
    Function.update (Function.update (Function.update (Function.update D a c) b d) a []) b [] s = [] := by
  by_cases hb : s = b
  · rw [hb, Function.update_self]
  · by_cases ha : s = a
    · rw [Function.update_of_ne hb, ha, Function.update_self]
    · simp only [ne_eq, hb, ha, not_false_eq_true, Function.update_of_ne, hD]

theorem releaseWaiting_follows {node : NodeRunRow} {run : WorkflowRunRow} (h : P.owns (.node node.id) run.id)
    (ord : RowOrder) (approved : Bool) (lease : MasterLease) (now : Instant) :
    Tx.Within (Follows P) (releaseWaiting ord node run approved lease now) := by
  apply settled
  let target : NodeRunStatus := if approved then .ready else .completed
  let outcome : Option NodeOutcome := if approved then none else some .rejected
  refine @nodeCas_settles _ _ _ _ _ _ _ _ _ _ _ target outcome (fun _ => rfl) (fun r hr => of_decide_eq_true hr)
    (fun _ _ _ => ⟨rfl, rfl⟩) ?_ rfl fun _ => ?_
  rotate_left
  · refine runCas_settles (fun _ => rfl) (fun r hr => (of_decide_eq_true hr).1) (fun _ => rfl) (by simp) fun _ => ?_
    apply appendNodeState_settles (l := []) h (by simp [target, outcome])
    intro _
    apply appendRunState_settles (l := []) (by simp)
    intro _
    apply settles_rest (paid_both fun _ => rfl)
    exact .ite (.pure _) (.bind (runRow_readOnly _).within fun _ => reconcileIn_follows _ _ _ _)
  · intro hlive
    cases approved with
    | true => rfl
    | false => cases hlive

theorem resumeAfterApproval_follows (ord : RowOrder) (rid id : String) (approved : Bool) (lease : MasterLease)
    (now : Instant) : Tx.Within (Follows P) (resumeAfterApproval ord rid id approved lease now) := by
  refine .bind (assertMaster_readOnly _ _).within fun _ => ?_
  refine found_follows (fun db p h s r hs => ?_) (Q := fun p => InRun p.1.id p.2.id) fun db p _ => ?_
  · obtain ⟨rfl, rfl⟩ := hs
    obtain ⟨hid, howner⟩ := nodeOfRun_owner h
    rw [hid]
    exact howner
  obtain ⟨node, run⟩ := p
  refine .bind (.ensure _ _) fun _ => .bind (.ensure _ _) fun _ => ?_
  exact .bind (releaseWaiting_follows (Or.inr ⟨rfl, rfl⟩) _ _ _ _) fun _ => TableRef.select_within _

theorem rejectRunning_follows {node : NodeRunRow} {run : WorkflowRunRow} (h : P.owns (.node node.id) run.id)
    (ord : RowOrder) (approved : Bool) (lease : MasterLease) (now : Instant) :
    Tx.Within (Follows P) (rejectRunning ord node run approved lease now) := by
  refine .ite (.pure _) (.bind (.ensure _ _) fun _ => ?_)
  refine pair_within (nodeMove_follows h (fun _ => rfl) (fun r hr => of_decide_eq_true hr) (fun _ _ _ => ⟨rfl, rfl⟩)
    fun hlive => by cases hlive) fun _ => ?_
  exact .bind (runRow_readOnly _).within fun _ => reconcileIn_follows _ _ _ _

theorem resumeAfterApprovalIn_follows (ord : RowOrder) (rid id : String) (approved : Bool) (lease : MasterLease)
    (now : Instant) : Tx.Within (Follows P) (resumeAfterApprovalIn ord rid id approved lease now) := by
  refine found_follows (fun db p h s r hs => ?_) (Q := fun p => InRun p.1.id p.2.id) fun db p _ => ?_
  · obtain ⟨rfl, rfl⟩ := hs
    obtain ⟨hid, howner⟩ := nodeOfRun_owner h
    rw [hid]
    exact howner
  obtain ⟨node, run⟩ := p
  refine .bind (.ite ?_ (.ite (rejectRunning_follows (Or.inr ⟨rfl, rfl⟩) _ _ _ _) (.fail _))) fun _ => TableRef.select_within _
  exact .bind (.ensure _ _) fun _ => releaseWaiting_follows (Or.inr ⟨rfl, rfl⟩) _ _ _ _

theorem waitForApproval_follows {node : NodeRunRow} {run : WorkflowRunRow} (h : P.owns (.node node.id) run.id)
    (approvalId : String) (lease : MasterLease) (now : Instant) :
    Tx.Within (Follows P) (waitForApproval node run approvalId lease now) := by
  apply settled
  refine nodeCas_settles (fun _ => rfl) (fun r hr => of_decide_eq_true hr) (fun r hr ho => ⟨rfl, ho ?_⟩) (fun _ => rfl) rfl
    fun _ => ?_
  rotate_left
  · refine runCas_settles (fun _ => rfl) (fun r hr => (of_decide_eq_true hr).1) (fun _ => rfl) (by simp) fun _ => ?_
    apply appendNodeState_settles (l := []) h (by simp)
    intro _
    apply appendRunState_settles (l := []) (by simp)
    intro _
    exact settles_rest (paid_both fun _ => rfl) (TableRef.select_within _)
  · rw [of_decide_eq_true hr]
    rfl

theorem enterWaitingApproval_follows (ord : RowOrder) (id approvalId : String) (lease : MasterLease) (now : Instant) :
    Tx.Within (Follows P) (enterWaitingApproval ord id approvalId lease now) := by
  refine .bind (assertMaster_readOnly _ _).within fun _ => ?_
  refine found_follows (fun db p h s r hs => ?_) (Q := fun p => InRun p.1.id p.2.id) fun db p _ => ?_
  · obtain ⟨rfl, rfl⟩ := hs
    obtain ⟨hid, howner⟩ := nodeWithRun_owner h
    rw [hid]
    exact howner
  obtain ⟨node, run⟩ := p
  refine .bind (.ensure _ _) fun _ => .bind (.ensure _ _) fun _ => .bind (TableRef.select_within _) fun approval => ?_
  split
  · exact resumeAfterApprovalIn_follows _ _ _ _ _ _
  · exact resumeAfterApprovalIn_follows _ _ _ _ _ _
  · exact waitForApproval_follows (Or.inr ⟨rfl, rfl⟩) _ _ _

/-! ## Tasks -/

theorem claimPolicy_follows (taskId policyId : String) : Tx.Within (Follows P) (claimPolicy taskId policyId) :=
  aside_within (TableRef.cas_within fun _ _ => ⟨rfl, rfl, rfl, rfl, rfl⟩)

/-- The pending task of a privilege retry starts. -/
theorem startRetryTask_follows {α : Type} {run : WorkflowRunRow} {task : TaskRow} {k : Unit → Op α} {id : String}
    (h : task.nodeRunId = id → P.owns (.task task.id) run.id) (agentId base policyId : String) (lease : MasterLease)
    (now : Instant) (hk : ∀ u, Tx.Within (Follows P) (k u)) : Tx.Within (Follows P)
      (startRetryTask task id agentId base policyId >>= fun _ =>
        appendTaskState run lease id task.id (some .pending) .running none none now >>= k) := by
  unfold startRetryTask bindPolicy
  simp only [bind_assoc]
  refine .check fun hsame => .bind (.ite ?_ (.pure _)) fun _ => ?_
  · exact .bind (claimPolicy_follows _ _) fun _ => taskCas_follows fun _ => rfl
  · have howns := h (of_decide_eq_true hsame).1
    exact pair_within (taskMove_follows howns (fun r hr => of_decide_eq_true hr) fun _ => rfl) hk

/-- A statement on another table, between a write and its event. -/
theorem aside_settles {α β : Type} {D : Subject → List StateChange} {x : Op β} {k : β → Op α} (hx : Tx.Within Aside x)
    (h : ∀ b, Tx.Within (Settles P D) (k b)) : Tx.Within (Settles P D) (x >>= k) := by
  intro db a db' hrun
  rw [StateT.run_bind, Tx.bind_ok] at hrun
  obtain ⟨⟨b, db₁⟩, hx', hrun⟩ := hrun
  have haside := hx _ _ _ hx'
  exact .still haside.lawful (fun s _ => page_congr haside.events (haside.stored s)) ⟨haside.changeSets, haside.events⟩
    (h b _ _ _ hrun)

/-- A task belongs to the run of its node run. -/
def TaskInRun (P : Licence) (row : TaskRow) (s : Subject) (r : String) : Prop := s = .task row.id ∧ P.owns (.node row.nodeRunId) r

/-- A new task owes the records of its creation; from here on its run is known. -/
theorem taskInsert_settles {α : Type} {D : Subject → List StateChange} {row : TaskRow} {e : StorageError} {k : Unit → Op α}
    {l : List StateChange} (hD : D (.task row.id) = [])
    (hl : ∀ p : Page SubjectStatus SubjectValue, p.stored = none → Journal.Balanced Prod.fst (Subject.task row.id).initial p →
      Journal.Balanced Prod.fst (Subject.task row.id).initial ((p.set (.task row.status, none)).paid l))
    (h : ∀ u, Tx.Within (Settles (P.knowing (TaskInRun P row)) (Function.update D (.task row.id) l)) (k u)) :
    Tx.Within (Settles P D) (Db.tasksT.insert row e >>= k) := by
  intro db a db' hx
  rw [StateT.run_bind, Tx.bind_ok] at hx
  obtain ⟨⟨u, db₁⟩, hinsert, hx⟩ := hx
  obtain ⟨t, ht, hdb⟩ := TableRef.insert_ok.1 hinsert
  obtain rfl := (Prod.mk.inj hdb).2
  obtain ⟨hset, hnone⟩ := taskInsert_sets ht
  refine Settles.write (taskInsert_lawful ht) (fun _ => hset) (fun _ hb => hl _ hnone hb) ⟨rfl, rfl⟩ hD ?_
  refine (h u _ _ _ hx).knew fun hP s r hs => ?_
  obtain ⟨rfl, hs⟩ := hs
  have hnode := hP _ r hs
  simp only [Db.owner, Table.get?_insert ht, if_pos, Option.bind_some]
  exact hnode

/-- The records of a task that is inserted pending, and of one that starts at once. -/
theorem taskCreated {id : String} {p : Page SubjectStatus SubjectValue} (hnone : p.stored = none)
    (hb : Journal.Balanced Prod.fst (Subject.task id).initial p) : Journal.Balanced Prod.fst (Subject.task id).initial
      ((p.set (.task .pending, none)).paid [⟨none, .task .pending, none⟩]) := hb.create hnone rfl

theorem taskStarted {id : String} {p : Page SubjectStatus SubjectValue} (hnone : p.stored = none)
    (hb : Journal.Balanced Prod.fst (Subject.task id).initial p) : Journal.Balanced Prod.fst (Subject.task id).initial
      ((p.set (.task .running, none)).paid [⟨none, .task .pending, none⟩, ⟨some (.task .pending), .task .running, none⟩]) := by
  have hmove := (taskCreated hnone hb).move (c := ⟨some (.task .pending), .task .running, none⟩) rfl rfl
  simpa [Page.paid, Page.set, Page.record] using hmove

/-- A task that is there belongs to the run of its node run. -/
def TaskKnown (id rid : String) (existing : Option TaskRow) (s : Subject) (r : String) : Prop :=
  ∃ task, existing = some task ∧ task.nodeRunId = id ∧ s = .task task.id ∧ r = rid

theorem createAndStartTask_follows (taskId id agentId base policyId : String) (lease : MasterLease) (now : Instant) :
    Tx.Within (Follows P) (createAndStartTask taskId id agentId base policyId lease now) := by
  refine .bind (assertMaster_readOnly _ _).within fun _ => ?_
  refine found_follows (fun db p h s r hs => ?_) (Q := fun p => InRun id p.2.id) fun db p _ => ?_
  · obtain ⟨rfl, rfl⟩ := hs
    exact (nodeWithRun_owner h).2
  obtain ⟨node, run⟩ := p
  refine .bind (checkTaskNode_readOnly _ _ _ _).within fun _ => .bind (checkPolicy_readOnly _ _ _).within fun _ => ?_
  refine learn_follows (.read _) (Q := TaskKnown id run.id) (fun db existing h hP s r hs => ?_) fun db existing h => ?_
  · obtain ⟨task, rfl, hnode, rfl, rfl⟩ := hs
    have hget := (Prod.mk.inj (TableRef.select_ok.1 h)).1.symm
    rw [← Table.get?_key hget] at hget
    simp only [Db.owner, hget, Option.bind_some, hnode]
    exact hP _ _ (Or.inr ⟨rfl, rfl⟩)
  cases existing with
  | none =>
    dsimp only
    unfold insertTask
    rw [bind_assoc]
    refine settled (taskInsert_settles rfl (fun p => taskStarted) fun _ => ?_)
    have howns : TaskInRun ((P.knowing (InRun id run.id)).knowing (TaskKnown id run.id none))
      { id := taskId, nodeRunId := id, agentId := agentId, baseCommit := base, runtimePolicyArtifactId := some policyId,
        status := .running, createdAt := utcNowText now } (.task taskId) run.id := ⟨rfl, Or.inl (Or.inr ⟨rfl, rfl⟩)⟩
    refine aside_settles (TableRef.cas_within fun _ _ => ⟨rfl, rfl, rfl, rfl, rfl⟩) fun _ => ?_
    refine appendTaskState_settles (l := [⟨some (.task .pending), .task .running, none⟩]) (Or.inr howns) (by simp) fun _ => ?_
    refine appendTaskState_settles (l := []) (Or.inr howns) (by simp) fun _ => ?_
    refine settles_rest (fun s => ?_) (TableRef.select_within _)
    by_cases hs : s = .task taskId <;> simp [hs]
  | some task =>
    have hget := (Prod.mk.inj (TableRef.select_ok.1 h)).1.symm
    obtain rfl : task.id = taskId := Table.get?_key hget
    exact startRetryTask_follows (fun hnode => Or.inr ⟨task, rfl, hnode, rfl, rfl⟩) _ _ _ _ _ fun _ => TableRef.select_within _

theorem createTask_follows (taskId id agentId base : String) (lease : MasterLease) (now : Instant) :
    Tx.Within (Follows P) (createTask taskId id agentId base lease now) := by
  refine .bind (assertMaster_readOnly _ _).within fun _ => ?_
  refine found_follows (fun db p h s r hs => ?_) (Q := fun p => InRun id p.2.id) fun db p _ => ?_
  · obtain ⟨rfl, rfl⟩ := hs
    exact (nodeWithRun_owner h).2
  obtain ⟨node, run⟩ := p
  refine .bind (.ensure _ _) fun _ => .bind (.ensure _ _) fun _ => .bind (.ensure _ _) fun _ => ?_
  refine .bind (.ensure _ _) fun _ => settled ?_
  refine taskInsert_settles rfl (fun p => taskCreated) fun _ => ?_
  refine appendTaskState_settles (l := []) (Or.inr ⟨rfl, Or.inr ⟨rfl, rfl⟩⟩) (by simp) fun _ => ?_
  refine settles_rest (fun s => ?_) (TableRef.select_within _)
  by_cases hs : s = .task taskId <;> simp [hs]

theorem taskWithRun_owner {db : Db} {id : String} {p : TaskRow × NodeRunRow × WorkflowRunRow}
    (h : taskWithRun db id = some p) : p.1.id = id ∧ db.owner (.task id) = some p.2.2.id := by
  simp only [taskWithRun, Option.bind_eq_some_iff, Option.map_eq_some_iff] at h
  obtain ⟨task, htask, q, hq, rfl⟩ := h
  refine ⟨Table.get?_key htask, ?_⟩
  simp only [Db.owner, htask, Option.bind_some]
  exact (nodeWithRun_owner hq).2

/-- A task belongs to a run. -/
def OfRun (id rid : String) (s : Subject) (r : String) : Prop := s = .task id ∧ r = rid

theorem finishTask_follows (H : Digests) (taskId : String) (target : TaskStatus) (lease : MasterLease)
    (ws : Option WorkspaceLease) (error : Option String) (now : Instant) :
    Tx.Within (Follows P) (finishTask H taskId target lease ws error now) := by
  refine .bind (.ensure _ _) fun _ => .bind (.ensure _ _) fun _ => .bind (assertMaster_readOnly _ _).within fun _ => ?_
  refine found_follows (fun db p h s r hs => ?_) (Q := fun p => OfRun taskId p.2.2.id) fun db p _ => ?_
  · obtain ⟨rfl, rfl⟩ := hs
    exact (taskWithRun_owner h).2
  obtain ⟨task, node, run⟩ := p
  refine .bind (.ensure _ _) fun _ => .bind (.ensure _ _) fun _ => .bind (.ensure _ _) fun _ => ?_
  refine .bind (writesOf_readOnly _ _ _).within fun _ => .bind (checkTaskEnd_readOnly _ _ _ _ _ _).within fun _ => ?_
  refine pair_within (taskMove_follows (Or.inr ⟨rfl, rfl⟩) (fun r hr => of_decide_eq_true hr) fun _ => rfl) fun _ => ?_
  exact TableRef.select_within _

/-! ## Privilege retries -/

theorem insertPendingNode_follows {row : NodeRunRow} {e : StorageError} (h : row.status = .pending ∧ row.outcome = none) :
    Tx.Within (Follows P) (Db.nodeRunsT.insert row e) := by
  intro db u db' hinsert
  obtain ⟨t, ht, hs⟩ := TableRef.insert_ok.1 hinsert
  rw [(Prod.mk.inj hs).2]
  obtain ⟨hset, hnone⟩ := nodeInsert_sets ht
  rw [h.1, h.2] at hset
  exact ⟨⟨nodeInsert_lawful ht h.2, fun _ _ s _ hb => hset.enter hnone s hb⟩, .refl _, rfl⟩

theorem insertPendingTask_follows {row : TaskRow} {e : StorageError} (h : row.status = .pending) :
    Tx.Within (Follows P) (Db.tasksT.insert row e) := by
  intro db u db' hinsert
  obtain ⟨t, ht, hs⟩ := TableRef.insert_ok.1 hinsert
  rw [(Prod.mk.inj hs).2]
  obtain ⟨hset, hnone⟩ := taskInsert_sets ht
  rw [h] at hset
  exact ⟨⟨taskInsert_lawful ht, fun _ _ s _ hb => hset.enter hnone s hb⟩, .refl _, rfl⟩

theorem createPrivilegeRetryTargetIn_follows (H : Digests) (node : NodeRunRow) (task : TaskRow) (approvalId : String)
    (now : Instant) : Tx.Within (Follows P) (createPrivilegeRetryTargetIn H node task approvalId now) := by
  refine .bind (.ensure _ _) fun _ => .bind (.read _) fun _ => .bind (.ensure _ _) fun _ => ?_
  exact .bind (insertPendingNode_follows ⟨rfl, rfl⟩) fun _ => insertPendingTask_follows rfl

/-- What the source of a privilege request tells. -/
def SourceInRun (p : NodeRunRow × WorkflowRunRow × TaskRow) (s : Subject) (r : String) : Prop :=
  r = p.2.1.id ∧ (s = .node p.1.id ∨ s = .task p.2.2.id)

theorem sourceInRun {db : Db} {rid id : String} {p : NodeRunRow × WorkflowRunRow × TaskRow}
    (h : nodeWithTask db rid id = some p) (s : Subject) (r : String) (hs : SourceInRun p s r) : db.owner s = some r := by
  obtain ⟨hid, hnode, htask⟩ := nodeWithTask_owner h
  rw [← hid] at hnode
  rcases hs with ⟨rfl, rfl | rfl⟩
  · exact hnode
  · exact htask

/-- The source of a privilege request waits, and its run with it. -/
theorem sourceWaits_settles {α : Type} {D : Subject → List StateChange} {run : WorkflowRunRow} {node : NodeRunRow}
    {code : String} {k : Unit → Op α} {e e' : StorageError} {hk hu hk' hu'} (hnode : D (.node node.id) = [])
    (hrun : D (.run run.id) = [])
    (h : ∀ u, Tx.Within (Settles P (Function.update (Function.update D (.node node.id)
        [⟨some (.node .running), .node .waitingApproval, none⟩]) (.run run.id)
        [⟨some (.run .running), .run .waitingApproval, none⟩])) (k u)) :
    Tx.Within (Settles P D) (Db.nodeRunsT.cas node.id (fun r => r.status = .running)
        (fun r => { r with status := .waitingApproval, errorCode := some code, finishedAt := none }) hk hu e >>= fun _ =>
      Db.workflowRunsT.cas run.id (fun r => r.status = .running ∧ r.cancelRequestedAt = none)
        (fun r => { r with status := .waitingApproval }) hk' hu' e' >>= k) := by
  refine nodeCas_settles (fun _ => rfl) (fun r hr => of_decide_eq_true hr) (fun r hr ho => ⟨rfl, ho ?_⟩) (fun _ => rfl) hnode
    fun _ => ?_
  · rw [of_decide_eq_true hr]
    rfl
  · exact runCas_settles (fun _ => rfl) (fun r hr => (of_decide_eq_true hr).1) (fun _ => rfl) (by simpa using hrun) h

theorem preparePrivilegeRetry_follows (H : Digests) (rid id approvalId : String) (lease : MasterLease)
    (ws : WorkspaceLease) (now : Instant) :
    Tx.Within (Follows P) (preparePrivilegeRetry H rid id approvalId lease ws now) := by
  refine .bind (assertMaster_readOnly _ _).within fun _ => ?_
  refine found_follows (fun db p h => sourceInRun h) fun db p _ => ?_
  obtain ⟨node, run, task⟩ := p
  have hnode : SourceInRun (node, run, task) (.node node.id) run.id := ⟨rfl, .inl rfl⟩
  have htask : SourceInRun (node, run, task) (.task task.id) run.id := ⟨rfl, .inr rfl⟩
  refine .bind (.ensure _ _) fun _ => .bind (assertWorkspace_readOnly _ _).within fun _ => .bind (.ensure _ _) fun _ => ?_
  refine .bind (.ensure _ _) fun _ => .bind (.read _) fun _ => .bind (.ensure _ _) fun _ => settled ?_
  unfold requestPrivilege appendPrivilegeRequested
  by_cases hrunning : task.status = .running
  · simp only [hrunning, if_true]
    refine taskCas_settles (fun r hr => of_decide_eq_true hr) (fun _ => rfl) rfl fun _ => ?_
    refine sourceWaits_settles (by simp) (by simp) fun _ => ?_
    refine appendTaskState_settles (l := []) (Or.inr htask) (by simp) fun _ => ?_
    refine appendNodeState_settles (l := []) (Or.inr hnode) (by simp) fun _ => ?_
    refine appendRunState_settles (l := []) (by simp) fun _ => settles_rest (fun s => ?_) (.pure _)
    by_cases hr : s = .run run.id <;> by_cases hn : s = .node node.id <;> by_cases ht : s = .task task.id <;>
      simp [hr, hn, ht]
  · simp only [hrunning, if_false, pure_bind]
    refine sourceWaits_settles rfl rfl fun _ => ?_
    refine appendNodeState_settles (l := []) (Or.inr hnode) (by simp) fun _ => ?_
    refine appendRunState_settles (l := []) (by simp) fun _ => ?_
    exact settles_rest (paid_both fun _ => rfl) (.pure _)

theorem supersede_follows {run : WorkflowRunRow} {node : NodeRunRow} (h : P.owns (.node node.id) run.id)
    (lease : MasterLease) (now : Instant) : Tx.Within (Follows P) (supersede run lease node now) := by
  refine nodeMove_follows h (fun _ => rfl) (fun r hr => of_decide_eq_true hr) (fun _ _ _ => ⟨rfl, rfl⟩) fun hlive => ?_
  cases hlive

theorem resumePrivilegeAfterApprovalIn_follows (H : Digests) (rid id : String) (approved : Bool) (lease : MasterLease)
    (now : Instant) : Tx.Within (Follows P) (resumePrivilegeAfterApprovalIn H rid id approved lease now) := by
  refine found_follows (fun db p h => sourceInRun h) fun db p _ => ?_
  obtain ⟨node, run, task⟩ := p
  refine .bind (.ensure _ _) fun _ => .ite (.bind ?_ fun _ => ?_) (.fail _)
  · exact .bind (.read _) fun _ => .ite (createPrivilegeRetryTargetIn_follows _ _ _ _ _) (.pure _)
  · exact supersede_follows (Or.inr ⟨rfl, .inl rfl⟩) _ _

/-- The row count says whether the run moved, and only then there is an event. -/
theorem wakeRun_follows (run : WorkflowRunRow) (lease : MasterLease) (now : Instant) :
    Tx.Within (Follows P) (wakeRun run lease now) := by
  intro db u db' h
  unfold wakeRun at h
  rw [StateT.run_bind, Tx.bind_ok] at h
  obtain ⟨⟨changed, db₁⟩, hupdate, h⟩ := h
  obtain ⟨rfl, rfl⟩ := Prod.mk.inj (TableRef.update_ok.1 hupdate)
  dsimp only at h
  split at h
  · next hone =>
    let wake : Op Unit := Db.workflowRunsT.cas run.id (fun r => r.status = .waitingApproval ∧ r.cancelRequestedAt = none)
      (fun r => { r with status := .running }) (fun _ => rfl) (fun _ => rfl) .outOfFuel
    have hmove : Tx.Within (Follows P) (wake >>= fun _ => appendRunState run lease .waitingApproval .running now) :=
      runMove_follows (fun _ => rfl) (fun r hr => (of_decide_eq_true hr).1) fun _ => rfl
    refine hmove db u db' ?_
    rw [Tx.run_bind_of_ok (TableRef.cas_ok.2 ⟨Table.count_key_eq_one.1 hone, rfl⟩)]
    exact h
  · next hnone =>
    rw [(Prod.mk.inj (Tx.pure_ok.1 h)).2, Table.update_of_none]
    · exact refl_of (Follows P) db
    · intro r hr
      by_contra hp
      rw [Bool.not_eq_false] at hp
      obtain ⟨hkey, hg⟩ := Bool.and_eq_true_iff.1 hp
      have hget := Table.get?_of_mem hr
      rw [of_decide_eq_true hkey] at hget
      exact hnone (Table.count_key_eq_one.2 ⟨r, hget, hg⟩)

theorem activateCapabilityTargetIn_follows (taskId : String) (lease : MasterLease) (now : Instant) :
    Tx.Within (Follows P) (activateCapabilityTargetIn taskId lease now) := by
  refine found_follows (fun db p h s r hs => ?_) (Q := fun p => InRun p.1.id p.2.1.id) fun db p _ => ?_
  · obtain ⟨rfl, rfl⟩ := hs
    simp only [Option.bind_eq_some_iff, Option.map_eq_some_iff] at h
    obtain ⟨task, -, q, hq, rfl⟩ := h
    obtain ⟨hid, howner⟩ := nodeWithRun_owner hq
    rw [← hid] at howner
    exact howner
  obtain ⟨node, run, task⟩ := p
  refine .ite (.pure _) (.bind (.ensure _ _) fun _ => ?_)
  refine pair_within (nodeMove_follows (Or.inr ⟨rfl, rfl⟩) (fun _ => rfl) (fun r hr => of_decide_eq_true hr)
    (fun r hr ho => ⟨rfl, ho ?_⟩) fun _ => rfl) fun _ => wakeRun_follows _ _ _
  rw [of_decide_eq_true hr]
  rfl

/-! ## Merging -/

theorem beginMergeFinalizing_follows (rid : String) (ws : WorkspaceLease) (lease : MasterLease) (now : Instant) :
    Tx.Within (Follows P) (beginMergeFinalizing rid ws lease now) := by
  refine .bind (assertMaster_readOnly _ _).within fun _ => .bind (runRow_readOnly _).within fun _ => ?_
  refine .bind (.ensure _ _) fun _ => .bind (.read _) fun _ => .bind (.ensure _ _) fun _ => ?_
  refine .bind (assertWorkspace_readOnly _ _).within fun _ => .bind (.ensure _ _) fun _ => .bind (.ensure _ _) fun _ => ?_
  exact .bind (runCas_follows (fun _ => rfl) fun _ => rfl) fun _ => (runRow_readOnly _).within

theorem clearMergeFinalizing_follows (rid : String) (ws : WorkspaceLease) (lease : MasterLease) (now : Instant) :
    Tx.Within (Follows P) (clearMergeFinalizing rid ws lease now) := by
  refine .bind (assertMaster_readOnly _ _).within fun _ => .bind (runRow_readOnly _).within fun _ => ?_
  refine .bind (.ensure _ _) fun _ => .bind (.read _) fun _ => .bind (.ensure _ _) fun _ => ?_
  refine .bind (assertWorkspace_readOnly _ _).within fun _ => .bind ?_ fun _ => (runRow_readOnly _).within
  intro db n db' h
  rw [(Prod.mk.inj (TableRef.update_ok.1 h)).2]
  exact runUpdate_follows (fun _ => rfl) fun _ => rfl

theorem advanceHead_follows (run : WorkflowRunRow) (commit : String) (now : Instant) :
    Tx.Within (Follows P) (advanceHead run commit now) := by
  refine .bind (TableRef.select_within _) fun _ => .bind (.ensure _ _) fun _ => ?_
  refine .bind (aside_within (TableRef.cas_within fun _ _ => ⟨rfl, rfl, rfl, rfl, rfl⟩)) fun _ => ?_
  exact runCas_follows (fun _ => rfl) fun _ => rfl

theorem finalizeMerge_follows {changeSetId : String} (h : P.moves changeSetId .approved ∧ P.target = .merged)
    (ord : RowOrder) (id commit : String) (ws : WorkspaceLease) (lease : MasterLease) (summary : String) (now : Instant) :
    Tx.Within (Follows P) (finalizeMerge ord id changeSetId commit ws lease summary now) := by
  refine .bind (assertMaster_readOnly _ _).within fun _ => .bind (assertWorkspace_readOnly _ _).within fun _ => ?_
  refine found_follows (fun db p h s r hs => ?_) (Q := fun p => InRun id p.2.id) fun db p _ => ?_
  · obtain ⟨rfl, rfl⟩ := hs
    exact (nodeWithRun_owner h).2
  obtain ⟨node, run⟩ := p
  refine .bind (.ensure _ _) fun _ => .bind (.bind (.ensure _ _) fun _ => .ensure _ _) fun _ => ?_
  refine .bind (advanceHead_follows _ _ _) fun _ => .bind (changeSetCas_follows (fun _ => rfl) fun c _ hg => ?_) fun _ => ?_
  · rw [of_decide_eq_true hg]
    exact ⟨h.1, h.2.symm⟩
  refine pair_within (nodeMove_follows (Or.inr ⟨rfl, rfl⟩) (fun _ => rfl) (fun r hr => of_decide_eq_true hr)
    (fun _ _ _ => ⟨rfl, rfl⟩) fun hlive => by cases hlive) fun _ => ?_
  refine .bind (runRow_readOnly _).within fun _ => .bind (reconcileIn_follows _ _ _ _) fun _ => ?_
  exact TableRef.select_within _

theorem attachCompletedNodeArtifact_follows (id artifactId : String) (lease : MasterLease) (now : Instant) :
    Tx.Within (Follows P) (attachCompletedNodeArtifact id artifactId lease now) := by
  refine .bind (assertMaster_readOnly _ _).within fun _ => .bind (TableRef.select_within _) fun _ => ?_
  refine .bind (.require _ _) fun _ => .bind (.ensure _ _) fun _ => .bind (.ensure _ _) fun _ => .ite ?_ (.pure _)
  exact .bind (nodeCas_follows (fun _ => rfl) fun _ => rfl) fun _ => TableRef.select_within _

end AgentHub
