import AgentHub.Storage.Moves
/-!
# Runs: what their operations move

Statement by statement: each guarded write starts from a status that is not finished.
-/

namespace AgentHub

open Lib WorkflowRunRepository

variable {K : Powers}

theorem lift_readOnly {α : Type} (x : Except StorageError α) : Tx.ReadOnly (Op.lift x) := fun _ _ h => (lift_ok.1 h).2

/-! ## Reconciling -/

theorem promote_moves (run : WorkflowRunRow) (lease : MasterLease) (row : NodeRunRow) (target : NodeRunStatus)
    (now : Instant) : Tx.Within (Moves K) (promote run lease row target now) := by
  refine .bind (nodeCas_moves (fun _ => rfl) fun r hg hend => ?_) fun _ => appendIn_moves
  rw [of_decide_eq_true hg] at hend
  cases hend

theorem reconcilePass_moves (run : WorkflowRunRow) (lease : MasterLease) (rows : String → Option NodeRunRow)
    (now : Instant) (ids : List String) : Tx.Within (Moves K) (reconcilePass run lease rows now ids) := by
  induction ids with
  | nil => exact .pure _
  | cons id ids ih =>
    refine .bind (.require _ _) fun row => .ite ih (.bind (.require _ _) fun node => ?_)
    refine .bind (lift_readOnly _).within fun target => ?_
    cases target with
    | none => exact ih
    | some target => exact .bind (promote_moves _ _ _ _ _) fun _ => .bind ih fun _ => .pure _

theorem reconcileLoop_moves (ord : RowOrder) (run : WorkflowRunRow) (lease : MasterLease) (now : Instant) (fuel : Nat) :
    ∀ k, Tx.Within (Moves K) (reconcileLoop ord run lease now fuel k) := by
  induction fuel with
  | zero => exact fun _ => .fail _
  | succ fuel ih =>
    intro k
    refine .bind (.read _) fun rows => .bind (lift_readOnly _).within fun ids => ?_
    exact .bind (reconcilePass_moves _ _ _ _ _) fun changed => .ite (ih _) (.pure _)

theorem finishRunIn_moves (run : WorkflowRunRow) (lease : MasterLease) (target : WorkflowRunStatus) (now : Instant) :
    Tx.Within (Moves K) (finishRunIn run lease target now) := by
  refine .bind (runCas_moves (fun _ => rfl) (fun r hg hend => ?_) fun _ => rfl) fun _ => appendIn_moves
  rw [of_decide_eq_true hg] at hend
  cases hend

theorem reconcileIn_moves (ord : RowOrder) (run : WorkflowRunRow) (lease : MasterLease) (now : Instant) :
    Tx.Within (Moves K) (reconcileIn ord run lease now) := by
  refine .bind (.read _) fun _ => .bind (reconcileLoop_moves _ _ _ _ _ _) fun _ => .bind (.read _) fun rows => ?_
  refine .ite (.bind (.require _ _) fun _ => .bind (.require _ _) fun _ => ?_) (.pure _)
  exact finishRunIn_moves _ _ _ _

/-! ## Scheduling -/

theorem startAndReconcile_moves (H : Digests) (ord : RowOrder) (rid : String) (lease : MasterLease) (now : Instant) :
    Tx.Within (Moves K) (startAndReconcile H ord rid lease now) := by
  refine .bind (assertMaster_readOnly _ _).within fun _ => .bind (runRow_readOnly _).within fun row => ?_
  refine .bind (validateSnapshots_readOnly _ _).within fun _ => .bind (.ite ?_ (.pure _)) fun row => ?_
  · refine .bind (runCas_moves (fun _ => rfl) (fun r hg hend => ?_) fun _ => rfl) fun _ => ?_
    · rw [(of_decide_eq_true hg).1] at hend
      cases hend
    · exact .bind appendIn_moves fun _ => (runRow_readOnly _).within
  · exact .bind (.ite (reconcileIn_moves _ _ _ _) (.pure _)) fun _ => (runRow_readOnly _).within

theorem claim_moves (run : WorkflowRunRow) (lease : MasterLease) (selected : NodeRunRow) (now : Instant) :
    Tx.Within (Moves K) (claim run lease selected now) := by
  refine .bind (nodeCas_moves (fun _ => rfl) fun r hg hend => ?_) fun _ => .bind appendIn_moves fun _ => ?_
  · rw [of_decide_eq_true hg] at hend
    cases hend
  · exact TableRef.select_within _

theorem claimNext_moves (H : Digests) (ord : RowOrder) (rid : String) (lease : MasterLease) (now : Instant) :
    Tx.Within (Moves K) (claimNext H ord rid lease now) := by
  refine .bind (assertMaster_readOnly _ _).within fun _ => .bind (runRow_readOnly _).within fun run => ?_
  refine .bind (validateSnapshots_readOnly _ _).within fun _ => .ite (.pure _) ?_
  refine .bind (.read _) fun _ => .bind (lift_readOnly _).within fun _ => .bind (lift_readOnly _).within fun selected => ?_
  cases selected with
  | none => exact .pure _
  | some row => exact claim_moves _ _ _ _

theorem completeNode_moves (H : Digests) (id : String) (target : NodeRunStatus) (outcome : NodeOutcome)
    (summary : String) (lease : MasterLease) (artifact error : Option String) (now : Instant) :
    Tx.Within (Moves K) (completeNode H id target outcome summary lease artifact error now) := by
  refine .bind (.ensure _ _) fun _ => .bind (.ensure _ _) fun _ => .bind (.ensure _ _) fun _ => ?_
  refine .bind (assertMaster_readOnly _ _).within fun _ => .bind (.read _) fun _ => .bind (.require _ _) fun p => ?_
  obtain ⟨node, run⟩ := p
  refine .bind (.ensure _ _) fun _ => .bind (.ensure _ _) fun _ => ?_
  refine .bind (checkOutputArtifact_readOnly _ _ _ _ _).within fun _ => ?_
  refine .bind (checkAgentTask_readOnly _ _ _ _).within fun _ => ?_
  refine .bind (nodeCas_moves (fun _ => rfl) fun r hg hend => ?_) fun _ => .bind appendIn_moves fun _ => ?_
  · rw [of_decide_eq_true hg] at hend
    cases hend
  · exact TableRef.select_within _

/-! ## Waiting -/

theorem releaseWaiting_moves (ord : RowOrder) (node : NodeRunRow) (run : WorkflowRunRow) (approved : Bool)
    (lease : MasterLease) (now : Instant) : Tx.Within (Moves K) (releaseWaiting ord node run approved lease now) := by
  refine .bind (nodeCas_moves (fun _ => rfl) fun r hg hend => ?_) fun _ => ?_
  · rw [of_decide_eq_true hg] at hend
    cases hend
  refine .bind (runCas_moves (fun _ => rfl) (fun r hg hend => ?_) fun _ => rfl) fun _ => ?_
  · rw [(of_decide_eq_true hg).1] at hend
    cases hend
  refine .bind appendIn_moves fun _ => .bind appendIn_moves fun _ => .ite (.pure _) ?_
  exact .bind (runRow_readOnly _).within fun _ => reconcileIn_moves _ _ _ _

theorem resumeAfterApproval_moves (ord : RowOrder) (rid id : String) (approved : Bool) (lease : MasterLease)
    (now : Instant) : Tx.Within (Moves K) (resumeAfterApproval ord rid id approved lease now) := by
  refine .bind (assertMaster_readOnly _ _).within fun _ => .bind (.read _) fun _ => .bind (.require _ _) fun p => ?_
  obtain ⟨node, run⟩ := p
  refine .bind (.ensure _ _) fun _ => .bind (.ensure _ _) fun _ => .bind (releaseWaiting_moves _ _ _ _ _ _) fun _ => ?_
  exact TableRef.select_within _

theorem rejectRunning_moves (ord : RowOrder) (node : NodeRunRow) (run : WorkflowRunRow) (approved : Bool)
    (lease : MasterLease) (now : Instant) : Tx.Within (Moves K) (rejectRunning ord node run approved lease now) := by
  refine .ite (.pure _) (.bind (.ensure _ _) fun _ => ?_)
  refine .bind (nodeCas_moves (fun _ => rfl) fun r hg hend => ?_) fun _ => .bind appendIn_moves fun _ => ?_
  · rw [of_decide_eq_true hg] at hend
    cases hend
  · exact .bind (runRow_readOnly _).within fun _ => reconcileIn_moves _ _ _ _

theorem resumeAfterApprovalIn_moves (ord : RowOrder) (rid id : String) (approved : Bool) (lease : MasterLease)
    (now : Instant) : Tx.Within (Moves K) (resumeAfterApprovalIn ord rid id approved lease now) := by
  refine .bind (.read _) fun _ => .bind (.require _ _) fun p => ?_
  obtain ⟨node, run⟩ := p
  refine .bind (.ite ?_ (.ite (rejectRunning_moves _ _ _ _ _ _) (.fail _))) fun _ => TableRef.select_within _
  exact .bind (.ensure _ _) fun _ => releaseWaiting_moves _ _ _ _ _ _

theorem waitForApproval_moves (node : NodeRunRow) (run : WorkflowRunRow) (approvalId : String) (lease : MasterLease)
    (now : Instant) : Tx.Within (Moves K) (waitForApproval node run approvalId lease now) := by
  refine .bind (nodeCas_moves (fun _ => rfl) fun r hg hend => ?_) fun _ => ?_
  · rw [of_decide_eq_true hg] at hend
    cases hend
  refine .bind (runCas_moves (fun _ => rfl) (fun r hg hend => ?_) fun _ => rfl) fun _ => ?_
  · rw [(of_decide_eq_true hg).1] at hend
    cases hend
  exact .bind appendIn_moves fun _ => .bind appendIn_moves fun _ => TableRef.select_within _

theorem enterWaitingApproval_moves (ord : RowOrder) (id approvalId : String) (lease : MasterLease) (now : Instant) :
    Tx.Within (Moves K) (enterWaitingApproval ord id approvalId lease now) := by
  refine .bind (assertMaster_readOnly _ _).within fun _ => .bind (.read _) fun _ => .bind (.require _ _) fun p => ?_
  obtain ⟨node, run⟩ := p
  refine .bind (.ensure _ _) fun _ => .bind (.ensure _ _) fun _ => .bind (TableRef.select_within _) fun approval => ?_
  split
  · exact resumeAfterApprovalIn_moves _ _ _ _ _ _
  · exact resumeAfterApprovalIn_moves _ _ _ _ _ _
  · exact waitForApproval_moves _ _ _ _ _

/-! ## Tasks -/

theorem claimPolicy_moves (taskId policyId : String) : Tx.Within (Moves K) (claimPolicy taskId policyId) := by
  refine TableRef.cas_within fun db t => ?_
  exact Elsewhere.moves ⟨rfl, rfl, rfl, rfl, rfl, rfl, rfl⟩

theorem insertTask_moves {row : TaskRow} {e : StorageError} (h : K.creates row.nodeRunId) :
    Tx.Within (Moves K) (Db.tasksT.insert row e) := insert_moves (fun _ _ => Moves.tasksTo) h

theorem startRetryTask_moves {task : TaskRow} (h : K.starts task.id) (id agentId base policyId : String) :
    Tx.Within (Moves K) (startRetryTask task id agentId base policyId) := by
  refine .bind (.ensure _ _) fun _ => .bind (.ite ?_ (.pure _)) fun _ => ?_
  · refine .bind (claimPolicy_moves _ _) fun _ => ?_
    exact taskCas_moves (fun _ => rfl) (fun _ _ _ => rfl) fun _ _ _ => .inl rfl
  · refine taskCas_moves (fun _ => rfl) (fun t hg hend => ?_) fun _ _ _ => .inr h
    rw [of_decide_eq_true hg] at hend
    cases hend

theorem createAndStartTask_moves {taskId id : String} (hcreate : K.creates id) (hstart : K.starts taskId)
    (agentId base policyId : String) (lease : MasterLease) (now : Instant) :
    Tx.Within (Moves K) (createAndStartTask taskId id agentId base policyId lease now) := by
  refine .bind (assertMaster_readOnly _ _).within fun _ => .bind (.read _) fun _ => .bind (.require _ _) fun p => ?_
  obtain ⟨node, run⟩ := p
  refine .bind (checkTaskNode_readOnly _ _ _ _).within fun _ => .bind (checkPolicy_readOnly _ _ _).within fun _ => ?_
  refine TableRef.selected_within fun existing hid => ?_
  have hstarted : Tx.Within (Moves K) (do
      appendTaskState run lease id taskId (some .pending) .running none none now
      Db.tasksT.select taskId : Op (Option TaskRow)) :=
    .bind appendIn_moves fun _ => TableRef.select_within _
  cases existing with
  | none =>
    refine .bind (.bind (insertTask_moves hcreate) fun _ => claimPolicy_moves _ _) fun _ => ?_
    exact .bind appendIn_moves fun _ => hstarted
  | some task =>
    rw [← hid task rfl] at hstart
    exact .bind (startRetryTask_moves hstart _ _ _ _) fun _ => hstarted

theorem createTask_moves {id : String} (h : K.creates id) (taskId agentId base : String) (lease : MasterLease)
    (now : Instant) : Tx.Within (Moves K) (createTask taskId id agentId base lease now) := by
  refine .bind (assertMaster_readOnly _ _).within fun _ => .bind (.read _) fun _ => .bind (.require _ _) fun p => ?_
  obtain ⟨node, run⟩ := p
  refine .bind (.ensure _ _) fun _ => .bind (.ensure _ _) fun _ => .bind (.ensure _ _) fun _ => ?_
  refine .bind (.ensure _ _) fun _ => .bind (insertTask_moves h) fun _ => ?_
  exact .bind appendIn_moves fun _ => TableRef.select_within _

theorem writesOf_readOnly (H : Digests) (node : NodeRunRow) (run : WorkflowRunRow) :
    Tx.ReadOnly (writesOf H node run) :=
  .bind (.ensure _ _) fun _ => .bind (.require _ _) fun _ => .pure _

theorem checkTaskEnd_readOnly (write : Bool) (run : WorkflowRunRow) (taskId : String) (target : TaskStatus)
    (ws : Option WorkspaceLease) (now : Instant) : Tx.ReadOnly (checkTaskEnd write run taskId target ws now) := by
  refine .ite (.bind (.require _ _) fun _ => .bind (.ensure _ _) fun _ => ?_) (.ensure _ _)
  refine .bind (assertWorkspace_readOnly _ _) fun _ => .bind (.read _) fun _ => ?_
  exact .ite (.ensure _ _) (.ensure _ _)

theorem finishTask_moves (H : Digests) (taskId : String) (target : TaskStatus) (lease : MasterLease)
    (ws : Option WorkspaceLease) (error : Option String) (now : Instant) :
    Tx.Within (Moves K) (finishTask H taskId target lease ws error now) := by
  refine .check fun htarget => .bind (.ensure _ _) fun _ => .bind (assertMaster_readOnly _ _).within fun _ => ?_
  refine .bind (.read _) fun _ => .bind (.require _ _) fun p => ?_
  obtain ⟨task, node, run⟩ := p
  refine .bind (.ensure _ _) fun _ => .bind (.ensure _ _) fun _ => .bind (.ensure _ _) fun _ => ?_
  refine .bind (writesOf_readOnly _ _ _).within fun _ => .bind (checkTaskEnd_readOnly _ _ _ _ _ _).within fun _ => ?_
  refine .bind (taskCas_moves (fun _ => rfl) (fun t hg hend => ?_) fun t _ hs => ?_) fun _ => ?_
  · rw [of_decide_eq_true hg] at hend
    cases hend
  · have hmem := of_decide_eq_true htarget
    cases target <;> simp [TaskStatus.isStarted] at hmem hs
  · exact .bind appendIn_moves fun _ => TableRef.select_within _

/-! ## Privilege retries -/

theorem insertNodeRun_moves (row : NodeRunRow) (e : StorageError) : Tx.Within (Moves K) (Db.nodeRunsT.insert row e) :=
  insert_moves (fun _ _ => Moves.nodeRunsTo) trivial

theorem createPrivilegeRetryTargetIn_moves {H : Digests} {node : NodeRunRow} {task : TaskRow} {approvalId : String}
    {now : Instant} {db db' : Db} {u : Unit} (hnew : ∀ id, db.nodeRuns.get? id = none → K.creates id)
    (h : (createPrivilegeRetryTargetIn H node task approvalId now).run db = .ok (u, db')) : Moves K db db' := by
  simp only [createPrivilegeRetryTargetIn, StateT.run_bind, Tx.bind_ok, Tx.ensure_ok, Tx.read_ok] at h
  obtain ⟨_, ⟨-, rfl⟩, _, rfl, _, ⟨-, rfl⟩, ⟨_, db₁⟩, hnode, htask⟩ := h
  have hfree := (Table.insert_eq_some (TableRef.insert_ok.1 hnode).choose_spec.1).2.1
  exact trans_of (Moves K) (insertNodeRun_moves _ _ _ _ _ hnode) (insertTask_moves (hnew _ hfree) _ _ _ htask)

theorem preparePrivilegeRetry_moves (H : Digests) (rid id approvalId : String) (lease : MasterLease)
    (ws : WorkspaceLease) (now : Instant) :
    Tx.Within (Moves K) (preparePrivilegeRetry H rid id approvalId lease ws now) := by
  refine .bind (assertMaster_readOnly _ _).within fun _ => .bind (.read _) fun _ => .bind (.require _ _) fun p => ?_
  obtain ⟨node, run, task⟩ := p
  refine .bind (.ensure _ _) fun _ => .bind (assertWorkspace_readOnly _ _).within fun _ => .bind (.ensure _ _) fun _ => ?_
  refine .bind (.ensure _ _) fun _ => .bind (.read _) fun _ => .bind (.ensure _ _) fun _ => .bind (.ite ?_ (.pure _)) fun _ => ?_
  · refine taskCas_moves (fun _ => rfl) (fun t hg hend => ?_) fun _ _ hs => by cases hs
    rw [of_decide_eq_true hg] at hend
    cases hend
  refine .bind (nodeCas_moves (fun _ => rfl) fun r hg hend => ?_) fun _ => ?_
  · rw [of_decide_eq_true hg] at hend
    cases hend
  refine .bind (runCas_moves (fun _ => rfl) (fun r hg hend => ?_) fun _ => rfl) fun _ => ?_
  · rw [(of_decide_eq_true hg).1] at hend
    cases hend
  refine .bind (.ite appendIn_moves (.pure _)) fun _ => ?_
  exact .bind appendIn_moves fun _ => .bind appendIn_moves fun _ => .pure _

theorem supersede_moves (run : WorkflowRunRow) (lease : MasterLease) (node : NodeRunRow) (now : Instant) :
    Tx.Within (Moves K) (supersede run lease node now) := by
  refine .bind (nodeCas_moves (fun _ => rfl) fun r hg hend => ?_) fun _ => appendIn_moves
  rw [of_decide_eq_true hg] at hend
  cases hend

/-- An approval never gets past the statement that names a column the table lacks. -/
theorem approvePrivilegeIn_moves (H : Digests) (rid id approvalId : String) (now : Instant) :
    Tx.Within (Moves K) (approvePrivilegeIn H rid id approvalId now) := by
  exact fun _ _ _ h => absurd h approvePrivilegeIn_raises

theorem resumePrivilegeAfterApprovalIn_moves {H : Digests} {rid id : String} {approved : Bool} {lease : MasterLease}
    {now : Instant} {db db' : Db} {u : Unit} (hnew : approved = true → ∀ id, db.nodeRuns.get? id = none → K.creates id)
    (h : (resumePrivilegeAfterApprovalIn H rid id approved lease now).run db = .ok (u, db')) : Moves K db db' := by
  simp only [resumePrivilegeAfterApprovalIn, StateT.run_bind, Tx.bind_ok, Tx.ensure_ok, Tx.require_ok, Tx.read_ok] at h
  obtain ⟨_, rfl, ⟨⟨node, run, task⟩, _⟩, ⟨-, rfl⟩, _, ⟨-, rfl⟩, h⟩ := h
  dsimp only at h
  split at h
  · next happroved =>
    simp only [ensureRetryTarget, StateT.run_bind, Tx.bind_ok, Tx.read_ok] at h
    obtain ⟨⟨_, db₁⟩, ⟨_, rfl, htarget⟩, h⟩ := h
    refine trans_of (Moves K) ?_ (supersede_moves _ _ _ _ _ _ _ h)
    split at htarget
    · exact createPrivilegeRetryTargetIn_moves (hnew happroved) htarget
    · exact Tx.Within.pure _ _ _ _ htarget
  · exact (Tx.fail_ok.1 h).elim

/-- A rejection never gets past the statement that names a column the table lacks. -/
theorem rejectPrivilegeIn_moves (H : Digests) (rid id : String) (lease : MasterLease) (now : Instant) :
    Tx.Within (Moves K) (resumePrivilegeAfterApprovalIn H rid id false lease now) :=
  fun _ _ _ h => resumePrivilegeAfterApprovalIn_moves (fun h => by cases h) h

theorem wakeRun_moves (run : WorkflowRunRow) (lease : MasterLease) (now : Instant) :
    Tx.Within (Moves K) (wakeRun run lease now) := by
  refine .bind (update_moves (fun _ _ => Moves.workflowRunsTo) fun r hg => ?_) fun _ => .ite appendIn_moves (.pure _)
  refine ⟨rfl, fun hend => ?_, fun _ => rfl⟩
  rw [(of_decide_eq_true (Bool.and_eq_true_iff.1 hg).2).1] at hend
  cases hend

theorem activateCapabilityTargetIn_moves (taskId : String) (lease : MasterLease) (now : Instant) :
    Tx.Within (Moves K) (activateCapabilityTargetIn taskId lease now) := by
  refine .bind (.read _) fun _ => .bind (.require _ _) fun p => ?_
  obtain ⟨node, run, task⟩ := p
  refine .ite (.pure _) (.bind (.ensure _ _) fun _ => ?_)
  refine .bind (nodeCas_moves (fun _ => rfl) fun r hg hend => ?_) fun _ => .bind appendIn_moves fun _ => ?_
  · rw [of_decide_eq_true hg] at hend
    cases hend
  · exact wakeRun_moves _ _ _

/-! ## Merging -/

theorem beginMergeFinalizing_moves (rid : String) (ws : WorkspaceLease) (lease : MasterLease) (now : Instant) :
    Tx.Within (Moves K) (beginMergeFinalizing rid ws lease now) := by
  refine .bind (assertMaster_readOnly _ _).within fun _ => .bind (runRow_readOnly _).within fun _ => ?_
  refine .bind (.ensure _ _) fun _ => .bind (.read _) fun _ => .bind (.ensure _ _) fun _ => ?_
  refine .bind (assertWorkspace_readOnly _ _).within fun _ => .bind (.ensure _ _) fun _ => .bind (.ensure _ _) fun _ => ?_
  exact .bind (runCas_moves (fun _ => rfl) (fun _ _ _ => rfl) fun _ => rfl) fun _ => (runRow_readOnly _).within

theorem clearMergeFinalizing_moves (rid : String) (ws : WorkspaceLease) (lease : MasterLease) (now : Instant) :
    Tx.Within (Moves K) (clearMergeFinalizing rid ws lease now) := by
  refine .bind (assertMaster_readOnly _ _).within fun _ => .bind (runRow_readOnly _).within fun _ => ?_
  refine .bind (.ensure _ _) fun _ => .bind (.read _) fun _ => .bind (.ensure _ _) fun _ => ?_
  refine .bind (assertWorkspace_readOnly _ _).within fun _ => ?_
  refine .bind (update_moves (fun _ _ => Moves.workflowRunsTo) fun r _ => ?_) fun _ => (runRow_readOnly _).within
  exact ⟨rfl, fun _ => rfl, fun _ => rfl⟩

theorem advanceHead_moves (run : WorkflowRunRow) (commit : String) (now : Instant) :
    Tx.Within (Moves K) (advanceHead run commit now) := by
  refine .bind (TableRef.select_within _) fun _ => .bind (.ensure _ _) fun _ => ?_
  refine .bind (TableRef.cas_within fun db t => ?_) fun _ => runCas_moves (fun _ => rfl) (fun _ _ _ => rfl) fun _ => rfl
  exact Elsewhere.moves ⟨rfl, rfl, rfl, rfl, rfl, rfl, rfl⟩

theorem finalizeMerge_moves {changeSetId : String} (h : K.approves changeSetId .merged) (ord : RowOrder) (id commit : String)
    (ws : WorkspaceLease) (lease : MasterLease) (summary : String) (now : Instant) :
    Tx.Within (Moves K) (finalizeMerge ord id changeSetId commit ws lease summary now) := by
  refine .bind (assertMaster_readOnly _ _).within fun _ => .bind (assertWorkspace_readOnly _ _).within fun _ => ?_
  refine .bind (.read _) fun _ => .bind (.require _ _) fun p => ?_
  obtain ⟨node, run⟩ := p
  refine .bind (.ensure _ _) fun _ => .bind (.bind (.ensure _ _) fun _ => .ensure _ _) fun _ => ?_
  refine .bind (advanceHead_moves _ _ _) fun _ => ?_
  refine .bind (changeSetCas_moves (fun _ => rfl) fun _ _ _ _ => .inr h) fun _ => ?_
  refine .bind (nodeCas_moves (fun _ => rfl) fun r hg hend => ?_) fun _ => .bind appendIn_moves fun _ => ?_
  · rw [of_decide_eq_true hg] at hend
    cases hend
  refine .bind (runRow_readOnly _).within fun _ => .bind (reconcileIn_moves _ _ _ _) fun _ => ?_
  exact TableRef.select_within _

theorem attachCompletedNodeArtifact_moves (id artifactId : String) (lease : MasterLease) (now : Instant) :
    Tx.Within (Moves K) (attachCompletedNodeArtifact id artifactId lease now) := by
  refine .bind (assertMaster_readOnly _ _).within fun _ => .bind (TableRef.select_within _) fun _ => ?_
  refine .bind (.require _ _) fun _ => .bind (.ensure _ _) fun _ => .bind (.ensure _ _) fun _ => .ite ?_ (.pure _)
  exact .bind (nodeCas_moves (fun _ => rfl) fun _ _ _ => rfl) fun _ => TableRef.select_within _

end AgentHub
