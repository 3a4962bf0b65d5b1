import AgentHub.Storage.Approvals.Moves
/-!
# What a call moves

The operations left: cancelling, creating a run, and ChangeSets. With them every call moves rows as `Moves`
says, and so does every run of commits (`StoreRun.moves`).
-/

namespace AgentHub

open Lib WorkflowRunRepository

variable {K : Powers}

/-! ## Cancelling -/

theorem markCancelled_moves (rid : String) (now : Instant) : Tx.Within (Moves K) (markCancelled rid now) := by
  refine cas_moves (fun _ _ => Moves.workflowRunsTo) fun r _ hg => ⟨rfl, fun _ => rfl, fun hc => ?_⟩
  exact absurd (of_decide_eq_true hg).1 hc

theorem requestCancel_moves (H : Digests) (rid : String) (lease : MasterLease) (now : Instant) :
    Tx.Within (Moves K) (requestCancel H rid lease now) := by
  refine .bind (assertMaster_readOnly _ _).within fun _ => .bind (runRow_readOnly _).within fun row => ?_
  refine .ite (runRecord_readOnly _ _).within (.bind (.ensure _ _) fun _ => .ite (runRecord_readOnly _ _).within ?_)
  exact .bind (markCancelled_moves _ _) fun _ => (runRow_readOnly _).within

theorem cancelNode_moves (run : WorkflowRunRow) (lease : MasterLease) (now : Instant) (row : NodeRunRow) :
    Tx.Within (Moves K) (cancelNode run lease now row) := by
  refine .bind (nodeCas_moves (fun _ => rfl) fun r hg hend => ?_) fun _ => ?_
  · cases hs : r.status <;> simp [hs, NodeRunStatus.isLive, NodeRunStatus.isTerminal] at hg hend
  refine .bind (update_moves (fun _ _ => Moves.tasksTo) fun t ht => ⟨rfl, fun hend => ?_, fun hs => by cases hs⟩)
    fun _ => appendIn_moves
  have hmem : t.status ∈ [TaskStatus.pending, .running, .privilegeRequested] :=
    of_decide_eq_true (Bool.and_eq_true_iff.1 ht).2
  cases hs : t.status <;> simp [hs, TaskStatus.isLive] at hmem hend

theorem endCancelled_moves (ord : RowOrder) (run : WorkflowRunRow) (lease : MasterLease) (now : Instant) :
    Tx.Within (Moves K) (endCancelled ord run lease now) := by
  refine .bind (.ensure _ _) fun _ => .bind (.read _) fun rows => ?_
  refine .bind (forEach_within (cancelNode_moves run lease now) _) fun _ => ?_
  refine .bind (runCas_moves (fun _ => rfl) (fun r hg hend => ?_) fun _ => rfl) fun _ => ?_
  · have hlive := (of_decide_eq_true hg).1
    rw [hend] at hlive
    cases hlive
  · exact .bind appendIn_moves fun _ => (runRow_readOnly _).within

theorem completeCancel_moves (H : Digests) (ord : RowOrder) (rid : String) (lease : MasterLease) (now : Instant) :
    Tx.Within (Moves K) (completeCancel H ord rid lease now) := by
  refine .bind (assertMaster_readOnly _ _).within fun _ => .bind (runRow_readOnly _).within fun row => ?_
  exact .ite (runRecord_readOnly _ _).within (endCancelled_moves _ _ _ _)

theorem cancelWithCleanup_moves (H : Digests) (ord : RowOrder) (rid reason : String) (lease : MasterLease)
    (now : Instant) : Tx.Within (Moves K) (cancelWithCleanup H ord rid lease reason now) := by
  refine .bind (assertMaster_readOnly _ _).within fun _ => .bind (runRow_readOnly _).within fun row => ?_
  refine .ite (runRecord_readOnly _ _).within (.bind (.ensure _ _) fun _ => .bind (.ite ?_ (.pure _)) fun run => ?_)
  · exact .bind (markCancelled_moves _ _) fun _ => (runRow_readOnly _).within
  refine .bind (ApprovalRepository.invalidateForRunIn_moves _ _ _ _) fun _ => ?_
  refine .bind (ApprovalRepository.revokeUnconsumedForRunIn_moves _ _ _ _) fun _ => .bind ?_ fun _ => ?_
  · refine .bind (runRow_readOnly _).within fun row => .ite (runRecord_readOnly _ _).within ?_
    exact .bind (endCancelled_moves _ _ _ _) fun _ => (runRecord_readOnly _ _).within
  · refine .bind appendIn_moves fun _ => .bind (fun _ _ _ h => ?_) fun _ => .pure _
    exact (EventRepository.appendSecurityEventIn_quiet h).moves

theorem orphanNode_moves (run : WorkflowRunRow) (lease : MasterLease) (reason : String) (only : Option String)
    (now : Instant) (row : NodeRunRow) : Tx.Within (Moves K) (orphanNode run lease reason only now row) := by
  unfold orphanNode
  refine .ite (.pure _) (.bind ?_ fun _ => appendIn_moves)
  apply update_moves fun _ _ => Moves.nodeRunsTo
  refine fun r hr => ⟨rfl, fun hend => ?_⟩
  have hmem : r.status ∈ [NodeRunStatus.running, .waitingApproval] :=
    of_decide_eq_true (Bool.and_eq_true_iff.1 hr).2
  cases hs : r.status <;> simp [hs, NodeRunStatus.isTerminal] at hmem hend

theorem orphanRun_moves (run : WorkflowRunRow) (lease : MasterLease) (now : Instant) :
    Tx.Within (Moves K) (orphanRun run lease now) := by
  unfold orphanRun
  refine .ite (.bind ?_ fun _ => .bind (TableRef.update_within fun db t => ?_) fun _ => appendIn_moves) (.pure _)
  · apply update_moves fun _ _ => Moves.workflowRunsTo
    refine fun r hr => ⟨rfl, fun hend => ?_, fun _ => rfl⟩
    have hmem : r.status ∈ [WorkflowRunStatus.pending, .running, .waitingApproval, .paused] :=
      of_decide_eq_true (Bool.and_eq_true_iff.1 hr).2
    cases hs : r.status <;> simp [hs, WorkflowRunStatus.isTerminal] at hmem hend
  · exact Elsewhere.moves ⟨rfl, rfl, rfl, rfl, rfl, rfl, rfl⟩

theorem markOrphaned_moves (H : Digests) (ord : RowOrder) (rid reason : String) (only : Option String)
    (lease : MasterLease) (now : Instant) : Tx.Within (Moves K) (markOrphaned H ord rid lease reason only now) := by
  refine .bind (assertMaster_readOnly _ _).within fun _ => .bind (runRow_readOnly _).within fun row => ?_
  refine .ite (runRecord_readOnly _ _).within (.bind (.read _) fun rows => ?_)
  refine .bind (forEach_within (orphanNode_moves row lease reason only now) _) fun _ => ?_
  exact .bind (orphanRun_moves _ _ _) fun _ => (runRow_readOnly _).within

/-! ## Creating a run -/

theorem checkNewRun_readOnly (H : Digests) (value : NewWorkflowRun) : Tx.ReadOnly (checkNewRun H value) := by
  refine .bind (.ensure _ _) fun _ => .bind (.ensure _ _) fun _ => .bind (.ensure _ _) fun _ => ?_
  refine .bind (.ensure _ _) fun _ => .bind (.ensure _ _) fun _ => .bind (.ensure _ _) fun _ => ?_
  exact .bind (.ensure _ _) fun _ => .bind (.ensure _ _) fun _ => .ensure _ _

theorem checkWorkflow_readOnly (value : NewWorkflowRun) : Tx.ReadOnly (checkWorkflow value) := by
  refine .bind (.read _) fun _ => .bind (.require _ _) fun p => ?_
  obtain ⟨workflow, session⟩ := p
  exact .bind (.ensure _ _) fun _ => .bind (.ensure _ _) fun _ => .bind (.ensure _ _) fun _ => .pure _

theorem checkCompiled_readOnly (sources : RunSources) (value : NewWorkflowRun) (session : SessionRow) :
    Tx.ReadOnly (checkCompiled sources value session) :=
  .bind (.ensure _ _) fun _ => .bind (.require _ _) fun _ => .bind (.ensure _ _) fun _ => lift_readOnly _

theorem create_moves (H : Digests) (sources : RunSources) (value : NewWorkflowRun) (lease : MasterLease)
    (ws : WorkspaceLease) (now : Instant) :
    Tx.Within (Moves K) (WorkflowRunRepository.create H sources value lease ws now) := by
  refine .bind (checkNewRun_readOnly _ _).within fun _ => .bind (assertMaster_readOnly _ _).within fun _ => ?_
  refine .bind (.ensure _ _) fun _ => .bind (assertWorkspace_readOnly _ _).within fun _ => ?_
  refine .bind (checkWorkflow_readOnly _).within fun _ => .bind (checkCompiled_readOnly _ _ _).within fun _ => ?_
  refine .bind (.bind (.read _) fun _ => .bind (.ensure _ _) fun _ => ?_) fun _ => ?_
  · exact insert_moves (fun _ _ => Moves.workflowRunsTo) trivial
  refine .bind (forEach_within (fun node => insertNodeRun_moves _ _) _) fun _ => ?_
  exact .bind appendIn_moves fun _ => (runRow_readOnly _).within

/-! ## ChangeSets -/

namespace ChangeSetRepository

theorem appendSystemIn_quiet {sid typ : String} {payload : EventPayload} {wid rid : String} {now : Instant}
    {db db' : Db} {u : Unit} (h : (appendSystemIn sid typ payload wid rid now).run db = .ok (u, db')) : Quiet db db' := by
  simp only [appendSystemIn, StateT.run_bind, Tx.bind_ok, Tx.require_ok, TableRef.select_ok, Tx.write_ok] at h
  obtain ⟨_, rfl, ⟨_, s⟩, ⟨-, rfl⟩, ⟨n, s⟩, hs, h⟩ := h
  rw [(Prod.mk.inj h).2]
  exact (EventRepository.allocateSeq_quiet hs).trans ⟨fun _ => rfl, rfl, rfl, rfl, rfl, rfl, rfl, rfl, rfl, rfl, rfl, rfl⟩

theorem appendStateEvent_quiet {lineage : TaskRow × NodeRunRow × WorkflowRunRow} {id sha : String}
    {previous : Option ChangeSetStatus} {status : ChangeSetStatus} {lease : MasterLease} {ws : Option WorkspaceLease}
    {reason : Option String} {now : Instant} {db db' : Db} {u : Unit}
    (h : (appendStateEvent lineage id sha previous status lease ws reason now).run db = .ok (u, db')) : Quiet db db' :=
  appendSystemIn_quiet h

theorem appendSecurityEvent_quiet {lineage : TaskRow × NodeRunRow × WorkflowRunRow} {id sha : String}
    {previous : Option ChangeSetStatus} {status : ChangeSetStatus} {reason severity : String} {lease : MasterLease}
    {ws : Option WorkspaceLease} {now : Instant} {db db' : Db} {u : Unit}
    (h : (appendSecurityEvent lineage id sha previous status reason severity lease ws now).run db = .ok (u, db')) :
    Quiet db db' := by
  rw [appendSecurityEvent, Tx.write_ok] at h
  rw [(Prod.mk.inj h).2]
  exact ⟨fun _ => rfl, rfl, rfl, rfl, rfl, rfl, rfl, rfl, rfl, rfl, rfl, rfl⟩

theorem checkLease_readOnly (ws : Option WorkspaceLease) (sid : String) (now : Instant) :
    Tx.ReadOnly (checkLease ws sid now) := by
  unfold checkLease
  split
  · exact .pure _
  · exact .bind (.ensure _ _) fun _ => assertWorkspace_readOnly _ _

theorem transition_moves {id : String} {target : ChangeSetStatus} (h : target.isApproved = true → K.approves id target)
    (expected : ChangeSetStatus) (lease : MasterLease) (ws : Option WorkspaceLease) (reason severity : Option String)
    (now : Instant) : Tx.Within (Moves K) (transition id expected target lease ws reason severity now) := by
  refine .bind (.ensure _ _) fun _ => .bind (.ensure _ _) fun _ => .bind (assertMaster_readOnly _ _).within fun _ => ?_
  refine .bind (.read _) fun _ => .bind (.require _ _) fun p => ?_
  obtain ⟨changeSet, lineage⟩ := p
  refine .bind (checkLease_readOnly _ _ _).within fun _ => ?_
  refine .bind (changeSetCas_moves (fun _ => rfl) fun _ _ _ hs => .inr (h hs)) fun _ => ?_
  refine .bind (fun _ _ _ h => (appendStateEvent_quiet h).moves) fun _ => ?_
  split
  · exact .pure _
  · exact fun _ _ _ h => (appendSecurityEvent_quiet h).moves

theorem validateLineage_readOnly (H : Digests) (lineage : TaskRow × NodeRunRow × WorkflowRunRow)
    (sid rid id base : String) : Tx.ReadOnly (validateLineage H lineage sid rid id base) := by
  obtain ⟨task, node, run⟩ := lineage
  refine .bind (.ensure _ _) fun _ => .bind (.ensure _ _) fun _ => .bind (.ensure _ _) fun _ => ?_
  refine .bind (.ensure _ _) fun _ => .bind (.ensure _ _) fun _ => .bind (.ensure _ _) fun _ => ?_
  refine .bind (.ensure _ _) fun _ => .bind (.ensure _ _) fun _ => .bind (.ensure _ _) fun _ => ?_
  exact .bind (.ensure _ _) fun _ => .bind (.ensure _ _) fun _ => .ensure _ _

theorem validateOwner_readOnly (record : ArtifactRow) (taskId : String) :
    Tx.ReadOnly (ArtifactRepository.validateOwner record taskId) := by
  refine .bind (.read _) fun _ => .bind (.require _ _) fun _ => .bind (.read _) fun _ => .bind (.require _ _) fun p => ?_
  obtain ⟨_, _, run⟩ := p
  exact .ensure _ _

theorem publishStaged_moves (limits : ArtifactLimits) (taskId : String) (record : ArtifactRow) :
    Tx.Within (Moves K) (ArtifactRepository.publishStaged limits taskId record) := by
  refine .bind (validateOwner_readOnly _ _).within fun _ => .bind (TableRef.select_within _) fun existing => ?_
  cases existing with
  | some existing => exact .ensure _ _
  | none =>
    refine .bind (.ensure _ _) fun _ => .bind (.read _) fun _ => .bind (.ensure _ _) fun _ => ?_
    exact TableRef.insert_within fun db t => Elsewhere.moves ⟨rfl, rfl, rfl, rfl, rfl, rfl, rfl⟩

theorem insertCapture_moves {status : ChangeSetStatus} (h : status.isApproved = false)
    (lineage : TaskRow × NodeRunRow × WorkflowRunRow) (capture : Capture) (reason : Option String)
    (lease : MasterLease) (ws : WorkspaceLease) (now : Instant) :
    Tx.Within (Moves K) (insertCapture lineage capture status reason lease ws now) := by
  obtain ⟨task, node, run⟩ := lineage
  refine .bind (insert_moves (fun _ _ => Moves.changeSetsTo) h) fun _ => ?_
  refine .bind (nodeCas_moves (fun _ => rfl) fun _ _ _ => rfl) fun _ => ?_
  refine .bind (fun _ _ _ h => (appendStateEvent_quiet h).moves) fun _ => .ite ?_ (.pure _)
  exact fun _ _ _ h => (appendSecurityEvent_quiet h).moves

/-- A capture is neither approved nor merged, and its task has ended. -/
theorem checkTargets_ok {status : ChangeSetStatus} {target : TaskStatus} {error : Option String} {db : Db} {r : Unit × Db}
    (h : (checkTargets status target error).run db = .ok r) :
    status.isApproved = false ∧ target.isStarted = false ∧ r.2 = db := by
  have hread : Tx.ReadOnly (checkTargets status target error) :=
    .bind (.ensure _ _) fun _ => .bind (.ensure _ _) fun _ => .ite (.ensure _ _) (.bind (.ensure _ _) fun _ => .ensure _ _)
  refine ⟨?_, ?_, hread _ _ h⟩
  all_goals
    simp only [checkTargets, StateT.run_bind, Tx.bind_ok, Tx.ensure_ok] at h
    obtain ⟨_, ⟨hstatus, rfl⟩, _, ⟨htarget, rfl⟩, -⟩ := h
  · rcases List.mem_pair.1 (of_decide_eq_true hstatus) with hs | hs <;> rw [hs] <;> rfl
  · have hmem := of_decide_eq_true htarget
    cases target <;> simp [TaskStatus.isStarted] at hmem ⊢

theorem persistCapture_moves (H : Digests) (limits : ArtifactLimits) (sid rid id taskId : String) (capture : Capture)
    (target : TaskStatus) (error : Option String) (status : ChangeSetStatus) (reason : Option String)
    (lease : MasterLease) (ws : WorkspaceLease) (now : Instant) : Tx.Within (Moves K)
      (persistCapture H limits sid rid id taskId capture target error status reason lease ws now) := by
  intro db a db' h
  unfold persistCapture at h
  rw [StateT.run_bind, Tx.bind_ok] at h
  obtain ⟨⟨_, s⟩, htargets, h⟩ := h
  obtain ⟨hstatus, htarget, rfl⟩ := checkTargets_ok htargets
  revert h
  refine Tx.Within.bind (assertMaster_readOnly _ _).within (fun _ => .bind (.ensure _ _) fun _ => ?_) _ _ _
  refine .bind (assertWorkspace_readOnly _ _).within fun _ => .bind (.ensure _ _) fun _ => ?_
  refine .bind (.read _) fun _ => .bind (.require _ _) fun lineage => ?_
  refine .bind (validateLineage_readOnly _ _ _ _ _ _).within fun _ => .bind (.read _) fun _ => .bind (.ensure _ _) fun _ => ?_
  refine .bind (forEach_within (publishStaged_moves limits taskId) _) fun _ => ?_
  refine .bind (insertCapture_moves hstatus _ _ _ _ _ _) fun _ => ?_
  obtain ⟨task, node, run⟩ := lineage
  refine .bind (taskCas_moves (fun _ => rfl) (fun t hg hend => ?_) fun t _ hs => ?_) fun _ => appendIn_moves
  · rw [of_decide_eq_true hg] at hend
    cases hend
  · rw [htarget] at hs
    cases hs

end ChangeSetRepository

/-! ## Every call -/

theorem ignore_within {R : Db → Db → Prop} [IsPreorder Db R] {α : Type} {x : Op α} (h : Tx.Within R x) :
    Tx.Within R x.ignore := .bind h fun _ => .pure _

theorem void_ok {α : Type} {x : Op α} {db db' : Db} {u : Unit} (h : x.void.run db = .ok (u, db')) :
    ∃ a, x.run db = .ok (a, db') := by
  simp only [Op.void, StateT.run_bind, Tx.bind_ok, StateT.run_pure, Tx.pure_ok, Prod.mk.injEq] at h
  obtain ⟨⟨a, _⟩, hx, -, rfl⟩ := h
  exact ⟨a, hx⟩

theorem void_within {R : Db → Db → Prop} [IsPreorder Db R] {α : Type} {x : Op α} (h : Tx.Within R x) :
    Tx.Within R x.void := .bind h fun _ => .pure _

/-- The powers a call may use in `db`. -/
def RunCall.Uses (K : Powers) (db : Db) : RunCall → Prop
  | .createAndStartTask taskId id _ _ _ => K.creates id ∧ K.starts taskId
  | .resumePrivilegeAfterApprovalIn _ _ true => ∀ id, db.nodeRuns.get? id = none → K.creates id
  | .finalizeMerge _ changeSetId _ _ _ => K.approves changeSetId .merged
  | _ => True

theorem RunCall.moves {H : Digests} {ord : RowOrder} {lease : MasterLease} {now : Instant} {call : RunCall} {db db' : Db}
    {o : Option NodeRunRow} (hpower : call.Uses K db) (h : (call.op H ord lease now).run db = .ok (o, db')) :
    Moves K db db' := by
  have within {α : Type} {x : Op α} {a : α} (hx : Tx.Within (Moves K) x) (h : x.run db = .ok (a, db')) : Moves K db db' :=
    hx _ _ _ h
  cases call with
  | startAndReconcile => exact within (ignore_within (startAndReconcile_moves _ _ _ _ _)) h
  | claimNext => exact within (claimNext_moves _ _ _ _ _) h
  | completeNode => exact within (completeNode_moves _ _ _ _ _ _ _ _ _) h
  | createAndStartTask => exact within (ignore_within (createAndStartTask_moves hpower.1 hpower.2 _ _ _ _ _)) h
  | enterWaitingApproval => exact within (enterWaitingApproval_moves _ _ _ _ _) h
  | resumeAfterApproval => exact within (resumeAfterApproval_moves _ _ _ _ _ _) h
  | resumeAfterApprovalIn => exact within (resumeAfterApprovalIn_moves _ _ _ _ _ _) h
  | preparePrivilegeRetry => exact within (ignore_within (preparePrivilegeRetry_moves _ _ _ _ _ _ _)) h
  | approvePrivilegeIn => exact within (ignore_within (approvePrivilegeIn_moves _ _ _ _ _)) h
  | resumePrivilegeAfterApprovalIn rid id approved =>
    obtain ⟨_, hrun⟩ := ignore_ok h
    refine resumePrivilegeAfterApprovalIn_moves (fun happroved => ?_) hrun
    subst happroved
    exact hpower
  | activateCapabilityTargetIn => exact within (ignore_within (activateCapabilityTargetIn_moves _ _ _)) h
  | beginMergeFinalizing => exact within (ignore_within (beginMergeFinalizing_moves _ _ _ _)) h
  | clearMergeFinalizing => exact within (ignore_within (clearMergeFinalizing_moves _ _ _ _)) h
  | finalizeMerge => exact within (finalizeMerge_moves hpower _ _ _ _ _ _ _) h
  | attachCompletedNodeArtifact => exact within (attachCompletedNodeArtifact_moves _ _ _ _) h
  | requestCancel => exact within (ignore_within (requestCancel_moves _ _ _ _)) h
  | completeCancel => exact within (ignore_within (completeCancel_moves _ _ _ _ _)) h
  | cancelWithCleanup => exact within (ignore_within (cancelWithCleanup_moves _ _ _ _ _ _)) h
  | markOrphaned => exact within (ignore_within (markOrphaned_moves _ _ _ _ _ _ _)) h

/-- The powers a call of any repository may use in `db`, at a time. -/
def StoreCall.Uses (K : Powers) (now : Instant) (db : Db) : StoreCall → Prop
  | .run call => call.Uses K db
  | .createTask _ id _ _ => K.creates id
  | .createApproval approval key => ApprovalRepository.Opens K key now approval
  | .decide request => ApprovalRepository.Decides K db request
  | .renewChangeset _ _ _ new => K.opens (ApprovalRepository.changeSetRow new none now)
  | .createGrant grant expiresAt rid _ => ∀ source target, ApprovalRepository.Issues db grant rid source target →
    K.grants (ApprovalRepository.grantRow grant source.request (utcNowText expiresAt))
  | .consumeGrant id _ _ _ _ => ∀ use lock, ApprovalRepository.Consumable db id now use lock → K.consumes id
  | .transition id _ target _ _ _ => target.isApproved = true → K.approves id target
  | _ => True

theorem StoreCall.moves {repo : ApprovalRepository} (hK : K.digests = repo.K) {ord : RowOrder} {lease : MasterLease}
    {now : Instant} {call : StoreCall} {db db' : Db} {u : Unit} (hpower : call.Uses K now db)
    (h : (call.op repo ord lease now).run db = .ok (u, db')) : Moves K db db' := by
  have within {x : Op Unit} (hx : Tx.Within (Moves K) x) (h : x.run db = .ok (u, db')) : Moves K db db' := hx _ _ _ h
  cases call with
  | run call =>
    obtain ⟨_, hrun⟩ := void_ok h
    exact RunCall.moves hpower hrun
  | createRun => exact within (void_within (create_moves _ _ _ _ _ _)) h
  | createTask => exact within (void_within (createTask_moves hpower _ _ _ _ _)) h
  | finishTask => exact within (void_within (finishTask_moves _ _ _ _ _ _ _)) h
  | createApproval => exact within (void_within (ApprovalRepository.create_moves hpower _)) h
  | createPrivilegeRequest => exact within (void_within (ApprovalRepository.createPrivilegeRequest_moves _ _ _ _ _)) h
  | createPrivilegeRequestAndApproval =>
    exact within (void_within (ApprovalRepository.createPrivilegeRequestAndApproval_moves _ _ _ _ _ _)) h
  | decide =>
    obtain ⟨_, hrun⟩ := void_ok h
    exact ApprovalRepository.decide_moves hK hpower hrun
  | expireDue => exact within (void_within (ApprovalRepository.expireDue_moves _ _ _ _)) h
  | renewChangeset => exact within (void_within (ApprovalRepository.renewChangeset_moves hpower _ _ _ _)) h
  | createGrant =>
    obtain ⟨_, hrun⟩ := void_ok h
    exact ApprovalRepository.createGrant_moves hpower hrun
  | consumeGrant =>
    obtain ⟨_, hrun⟩ := void_ok h
    exact ApprovalRepository.consumeGrant_moves hpower hrun
  | revokeUnconsumedForRun => exact within (void_within (ApprovalRepository.revokeUnconsumedForRun_moves _ _ _ _)) h
  | revokeUnconsumedForRunIn => exact within (void_within (ApprovalRepository.revokeUnconsumedForRunIn_moves _ _ _ _)) h
  | invalidateForRun => exact within (void_within (ApprovalRepository.invalidateForRun_moves _ _ _ _)) h
  | invalidateForRunIn => exact within (void_within (ApprovalRepository.invalidateForRunIn_moves _ _ _ _)) h
  | persistCapture => exact within (ChangeSetRepository.persistCapture_moves _ _ _ _ _ _ _ _ _ _ _ _ _ _) h
  | transition => exact within (ChangeSetRepository.transition_moves hpower _ _ _ _ _ _) h

/-- A call of the run repository uses no power but to create and start tasks and to merge ChangeSets. -/
theorem RunCall.uses_of (hcreates : ∀ id, K.creates id) (hstarts : ∀ id, K.starts id)
    (happroves : ∀ id, K.approves id .merged) (db : Db) (call : RunCall) : call.Uses K db := by
  unfold Uses
  split
  · exact ⟨hcreates _, hstarts _⟩
  · exact fun id _ => hcreates id
  · exact happroves _
  · trivial

/-- Every call may use every power. -/
theorem StoreCall.uses_all (digests : ApprovalDigests) (now : Instant) (db : Db) (call : StoreCall) :
    call.Uses (.all digests) now db := by
  cases call with
  | run call => exact call.uses_of (fun _ => trivial) (fun _ => trivial) (fun _ => trivial) db
  | createApproval approval key => cases approval <;> trivial
  | decide request => exact fun _ _ _ => ⟨trivial, fun _ _ => trivial⟩
  | transition => exact fun _ => trivial
  | createGrant => exact fun _ _ _ => trivial
  | consumeGrant => exact fun _ _ _ => trivial
  | _ => trivial

theorem StoreInvocation.moves {repo : ApprovalRepository} (hK : K.digests = repo.K) {i : StoreInvocation} {db : Db}
    (hpower : i.call.Uses K i.now db) : Moves K db (i.commit repo db).2 := by
  unfold commit
  rcases Tx.commit_cases (i.call.op repo i.ord i.lease i.now) db with hs | ⟨_, h⟩
  · rw [hs]
    exact refl_of (Moves K) db
  · exact StoreCall.moves hK hpower h

theorem StoreStep.moves {repo : ApprovalRepository} {db db' : Db} (h : StoreStep repo db db') :
    Moves (.all repo.K) db db' := by
  cases h with
  | call i => exact StoreInvocation.moves rfl (StoreCall.uses_all _ _ _ _)
  | other h => exact h.moves

theorem StoreRun.moves {repo : ApprovalRepository} {db db' : Db} (h : StoreRun repo db db') :
    Moves (.all repo.K) db db' := by
  induction h with
  | refl => exact refl_of (Moves _) db
  | tail _ hstep ih => exact trans_of (Moves _) ih hstep.moves

end AgentHub
