import AgentHub.Storage.Runs.CallRefines
/-!
# Integration heads

Only the finalization of a merge moves the integration head of a session, and it does so for a run that is
not cancelled (`op_heads`).
-/

namespace AgentHub

open Lib WorkflowRunRepository

/-- The integration head of a session. -/
def Db.head? (db : Db) (sessionId : String) : Option String :=
  (db.sessions.get? sessionId).map SessionRow.integrationHeadCommit

/-- No session's head moved. -/
def SameHeads (db db' : Db) : Prop := ∀ sid, db'.head? sid = db.head? sid

instance : IsPreorder Db SameHeads where
  refl _ _ := rfl
  trans _ _ _ h h' sid := (h' sid).trans (h sid)

theorem SameHeads.of_sessions {db db' : Db} (h : db'.sessions = db.sessions) : SameHeads db db' := by
  intro sid
  unfold Db.head?
  rw [h]

theorem appendIn_heads {sid typ actor : String} {payload : EventPayload} {wid rid : String} {now : Instant} :
    Tx.Within SameHeads (EventRepository.appendIn sid typ actor payload wid rid now) :=
  fun _ _ _ h => .of_sessions (EventRepository.appendIn_quiet h).sessions

theorem SameRuns.heads {α : Type} {x : Op α} (h : Tx.Within SameRuns x) : Tx.Within SameHeads x :=
  fun s a s' hx => .of_sessions (h s a s' hx).sessions

theorem nodeRuns_heads {k : String} {g f hk hu} {e : StorageError} :
    Tx.Within SameHeads (Db.nodeRunsT.cas k g f hk hu e) := TableRef.cas_within fun _ _ _ => rfl

theorem workflowRuns_heads {k : String} {g f hk hu} {e : StorageError} :
    Tx.Within SameHeads (Db.workflowRunsT.cas k g f hk hu e) := TableRef.cas_within fun _ _ _ => rfl

/-! ## Operation by operation -/

theorem preparePrivilegeRetry_heads (H : Digests) (rid id approvalId : String) (lease : MasterLease) (ws : WorkspaceLease)
    (now : Instant) : Tx.Within SameHeads (preparePrivilegeRetry H rid id approvalId lease ws now) := by
  refine .bind (assertMaster_readOnly _ _).within fun _ => .bind (.read _) fun _ => .bind (.require _ _) fun p => ?_
  obtain ⟨node, run, task⟩ := p
  refine .bind (.ensure _ _) fun _ => .bind (assertWorkspace_readOnly _ _).within fun _ => .bind (.ensure _ _) fun _ => ?_
  refine .bind (.ensure _ _) fun _ => .bind (.read _) fun _ => .bind (.ensure _ _) fun _ => ?_
  refine .bind (SameRuns.heads (requestPrivilege_within _ _)) fun _ => .bind nodeRuns_heads fun _ => ?_
  refine .bind workflowRuns_heads fun _ => .bind (.ite appendIn_heads (.pure _)) fun _ => ?_
  exact .bind appendIn_heads fun _ => .bind appendIn_heads fun _ => .pure _

theorem createPrivilegeRetryTargetIn_heads (H : Digests) (node : NodeRunRow) (task : TaskRow) (approvalId : String)
    (now : Instant) : Tx.Within SameHeads (createPrivilegeRetryTargetIn H node task approvalId now) :=
  .bind (.ensure _ _) fun _ => .bind (.read _) fun _ => .bind (.ensure _ _) fun _ =>
    .bind (TableRef.insert_within fun _ _ _ => rfl) fun _ => TableRef.insert_within fun _ _ _ => rfl

theorem resumePrivilegeAfterApprovalIn_heads (H : Digests) (rid id : String) (approved : Bool) (lease : MasterLease)
    (now : Instant) : Tx.Within SameHeads (resumePrivilegeAfterApprovalIn H rid id approved lease now) := by
  refine .bind (.read _) fun _ => .bind (.require _ _) fun p => ?_
  obtain ⟨node, run, task⟩ := p
  refine .bind (.ensure _ _) fun _ => .ite (.bind (.bind (.read _) fun _ => .ite ?_ (.pure _)) fun _ => ?_) (.fail _)
  · exact createPrivilegeRetryTargetIn_heads _ _ _ _ _
  · exact .bind nodeRuns_heads fun _ => appendIn_heads

theorem activateCapabilityTargetIn_heads (taskId : String) (lease : MasterLease) (now : Instant) :
    Tx.Within SameHeads (activateCapabilityTargetIn taskId lease now) := by
  refine .bind (.read _) fun _ => .bind (.require _ _) fun p => ?_
  obtain ⟨node, run, task⟩ := p
  refine .ite (.pure _) (.bind (.ensure _ _) fun _ => .bind nodeRuns_heads fun _ => .bind appendIn_heads fun _ => ?_)
  exact .bind (TableRef.update_within fun _ _ _ => rfl) fun _ => .ite appendIn_heads (.pure _)

theorem beginMergeFinalizing_heads (rid : String) (ws : WorkspaceLease) (lease : MasterLease) (now : Instant) :
    Tx.Within SameHeads (beginMergeFinalizing rid ws lease now) :=
  .bind (assertMaster_readOnly _ _).within fun _ => .bind (runRow_readOnly _).within fun _ => .bind (.ensure _ _) fun _ =>
    .bind (.read _) fun _ => .bind (.ensure _ _) fun _ => .bind (assertWorkspace_readOnly _ _).within fun _ =>
      .bind (.ensure _ _) fun _ => .bind (.ensure _ _) fun _ => .bind workflowRuns_heads fun _ =>
        (runRow_readOnly _).within

theorem clearMergeFinalizing_heads (rid : String) (ws : WorkspaceLease) (lease : MasterLease) (now : Instant) :
    Tx.Within SameHeads (clearMergeFinalizing rid ws lease now) :=
  .bind (assertMaster_readOnly _ _).within fun _ => .bind (runRow_readOnly _).within fun _ => .bind (.ensure _ _) fun _ =>
    .bind (.read _) fun _ => .bind (.ensure _ _) fun _ => .bind (assertWorkspace_readOnly _ _).within fun _ =>
      .bind (TableRef.update_within fun _ _ _ => rfl) fun _ => (runRow_readOnly _).within

theorem attachCompletedNodeArtifact_heads (id artifactId : String) (lease : MasterLease) (now : Instant) :
    Tx.Within SameHeads (attachCompletedNodeArtifact id artifactId lease now) :=
  .bind (assertMaster_readOnly _ _).within fun _ => .bind (TableRef.select_within _) fun _ => .bind (.require _ _) fun _ =>
    .bind (.ensure _ _) fun _ => .bind (.ensure _ _) fun _ =>
      .ite (.bind nodeRuns_heads fun _ => TableRef.select_within _) (.pure _)

theorem requestCancel_heads (H : Digests) (rid : String) (lease : MasterLease) (now : Instant) :
    Tx.Within SameHeads (requestCancel H rid lease now) :=
  .bind (assertMaster_readOnly _ _).within fun _ => .bind (runRow_readOnly _).within fun _ =>
    .ite (runRecord_readOnly _ _).within (.bind (.ensure _ _) fun _ => .ite (runRecord_readOnly _ _).within
      (.bind workflowRuns_heads fun _ => (runRow_readOnly _).within))

theorem cancelNode_heads (run : WorkflowRunRow) (lease : MasterLease) (now : Instant) (x : NodeRunRow) :
    Tx.Within SameHeads (cancelNode run lease now x) :=
  .bind nodeRuns_heads fun _ => .bind (TableRef.update_within fun _ _ _ => rfl) fun _ => appendIn_heads

theorem endCancelled_heads (ord : RowOrder) (run : WorkflowRunRow) (lease : MasterLease) (now : Instant) :
    Tx.Within SameHeads (endCancelled ord run lease now) :=
  .bind (.ensure _ _) fun _ => .bind (.read _) fun _ => .bind (forEach_within (cancelNode_heads run lease now) _) fun _ =>
    .bind workflowRuns_heads fun _ => .bind appendIn_heads fun _ => (runRow_readOnly _).within

theorem completeCancel_heads (H : Digests) (ord : RowOrder) (rid : String) (lease : MasterLease) (now : Instant) :
    Tx.Within SameHeads (completeCancel H ord rid lease now) :=
  .bind (assertMaster_readOnly _ _).within fun _ => .bind (runRow_readOnly _).within fun _ =>
    .ite (runRecord_readOnly _ _).within (endCancelled_heads _ _ _ _)

theorem cancelWithCleanup_heads (H : Digests) (ord : RowOrder) (rid reason : String) (lease : MasterLease)
    (now : Instant) : Tx.Within SameHeads (cancelWithCleanup H ord rid lease reason now) := by
  refine .bind (assertMaster_readOnly _ _).within fun _ => .bind (runRow_readOnly _).within fun _ => ?_
  refine .ite (runRecord_readOnly _ _).within (.bind (.ensure _ _) fun _ => .bind ?_ fun _ => ?_)
  · exact .ite (.bind workflowRuns_heads fun _ => (runRow_readOnly _).within) (.pure _)
  · refine .bind (SameRuns.heads (invalidateForRunIn_within _ _ _ _)) fun _ => ?_
    refine .bind (SameRuns.heads (revokeUnconsumedForRunIn_within _ _ _ _)) fun _ => .bind ?_ fun _ => ?_
    · exact .bind (runRow_readOnly _).within fun _ => .ite (runRecord_readOnly _ _).within
        (.bind (endCancelled_heads _ _ _ _) fun _ => (runRecord_readOnly _ _).within)
    · refine .bind appendIn_heads fun _ => .bind (fun _ _ _ h => ?_) fun _ => .pure _
      exact .of_sessions (EventRepository.appendSecurityEventIn_quiet h).sessions

theorem orphanRun_heads (run : WorkflowRunRow) (lease : MasterLease) (now : Instant) :
    Tx.Within SameHeads (orphanRun run lease now) := by
  refine .ite (.bind (TableRef.update_within fun _ _ _ => rfl) fun _ => .bind ?_ fun _ => appendIn_heads) (.pure _)
  intro db n db' h sid
  simp only [TableRef.update_ok, Prod.mk.injEq] at h
  obtain ⟨-, rfl⟩ := h
  simp only [Db.head?, Table.get?_update, Option.map_map]
  congr 1
  funext s
  simp only [Function.comp_apply]
  split <;> rfl

theorem markOrphaned_heads (H : Digests) (ord : RowOrder) (rid reason : String) (only : Option String)
    (lease : MasterLease) (now : Instant) : Tx.Within SameHeads (markOrphaned H ord rid lease reason only now) := by
  refine .bind (assertMaster_readOnly _ _).within fun _ => .bind (runRow_readOnly _).within fun _ => ?_
  refine .ite (runRecord_readOnly _ _).within (.bind (.read _) fun _ => .bind (forEach_within (fun x => ?_) _) fun _ => ?_)
  · exact .ite (.pure _) (.bind (TableRef.update_within fun _ _ _ => rfl) fun _ => appendIn_heads)
  · exact .bind (orphanRun_heads _ _ _) fun _ => (runRow_readOnly _).within

/-! ## Every call -/

theorem GateSteps.heads {rid : String} {db db' : Db} (h : GateSteps rid db db') : SameHeads db db' :=
  .of_sessions h.schedules.frame.sessions

/-- A call moves no head, or it finalizes a merge of a run that is not cancelled. -/
theorem op_heads {H : Digests} {ord : RowOrder} {lease : MasterLease} {now : Instant} {call : RunCall} {db db' : Db}
    {o : Option NodeRunRow} (h : (call.op H ord lease now).run db = .ok (o, db')) :
    SameHeads db db' ∨ ∃ id changeSetId commit ws summary node run,
      call = .finalizeMerge id changeSetId commit ws summary ∧ nodeWithRun db id = some (node, run) ∧
        run.cancelRequestedAt = none := by
  cases call with
  | startAndReconcile rid =>
    obtain ⟨_, h⟩ := ignore_ok h
    exact .inl (.of_sessions (startAndReconcile_spec h).1.frame.sessions)
  | claimNext rid =>
    rcases claimNext_spec h with ⟨-, rfl⟩ | ⟨honly, -⟩
    · exact .inl (refl_of SameHeads _)
    · exact .inl (.of_sessions honly.frame.sessions)
  | completeNode id target outcome summary artifact error =>
    obtain ⟨node, run, -, honly, -⟩ := completeNode_spec h
    exact .inl (.of_sessions honly.frame.sessions)
  | createAndStartTask taskId id agentId base policyId =>
    obtain ⟨_, h⟩ := ignore_ok h
    exact .inl (SameRuns.heads (createAndStartTask_within _ _ _ _ _ _ _) _ _ _ h)
  | enterWaitingApproval id approvalId =>
    obtain ⟨node, run, -, hsteps⟩ := enterWaitingApproval_spec h
    exact .inl hsteps.heads
  | resumeAfterApproval rid id approved => exact .inl (resumeAfterApproval_spec h).heads
  | resumeAfterApprovalIn rid id approved => exact .inl (resumeAfterApprovalIn_spec h).heads
  | preparePrivilegeRetry rid id approvalId ws =>
    obtain ⟨_, h⟩ := ignore_ok h
    exact .inl (preparePrivilegeRetry_heads _ _ _ _ _ _ _ _ _ _ h)
  | approvePrivilegeIn rid id approvalId =>
    obtain ⟨_, h⟩ := ignore_ok h
    exact absurd h approvePrivilegeIn_raises
  | resumePrivilegeAfterApprovalIn rid id approved =>
    obtain ⟨_, h⟩ := ignore_ok h
    exact .inl (resumePrivilegeAfterApprovalIn_heads _ _ _ _ _ _ _ _ _ h)
  | activateCapabilityTargetIn taskId =>
    obtain ⟨_, h⟩ := ignore_ok h
    exact .inl (activateCapabilityTargetIn_heads _ _ _ _ _ _ h)
  | beginMergeFinalizing rid ws =>
    obtain ⟨_, h⟩ := ignore_ok h
    exact .inl (beginMergeFinalizing_heads _ _ _ _ _ _ _ h)
  | clearMergeFinalizing rid ws =>
    obtain ⟨_, h⟩ := ignore_ok h
    exact .inl (clearMergeFinalizing_heads _ _ _ _ _ _ _ h)
  | finalizeMerge id changeSetId commit ws summary =>
    simp only [RunCall.op, finalizeMerge, StateT.run_bind, Tx.bind_ok, Tx.read_ok, Tx.require_ok, Tx.ensure_ok,
      MasterLeaseRepository.assertValidIn_ok, WorkspaceLeaseRepository.assertValidIn_ok] at h
    obtain ⟨_, ⟨-, rfl⟩, _, ⟨-, rfl⟩, _, rfl, ⟨⟨node, run⟩, db₀⟩, ⟨hp, hdb⟩, _, ⟨hguard, -⟩, -⟩ := h
    exact .inr ⟨id, changeSetId, commit, ws, summary, node, run, rfl, hp, (of_decide_eq_true hguard).2.2.2⟩
  | attachCompletedNodeArtifact id artifactId => exact .inl (attachCompletedNodeArtifact_heads _ _ _ _ _ _ _ h)
  | requestCancel rid =>
    obtain ⟨_, h⟩ := ignore_ok h
    exact .inl (requestCancel_heads _ _ _ _ _ _ _ h)
  | completeCancel rid =>
    obtain ⟨_, h⟩ := ignore_ok h
    exact .inl (completeCancel_heads _ _ _ _ _ _ _ _ h)
  | cancelWithCleanup rid reason =>
    obtain ⟨_, h⟩ := ignore_ok h
    exact .inl (cancelWithCleanup_heads _ _ _ _ _ _ _ _ _ h)
  | markOrphaned rid reason only =>
    obtain ⟨_, h⟩ := ignore_ok h
    exact .inl (markOrphaned_heads _ _ _ _ _ _ _ _ _ _ h)

end AgentHub
