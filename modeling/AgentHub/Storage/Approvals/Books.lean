import AgentHub.Storage.Approvals.Moves
import AgentHub.Storage.Runs.Books
/-!
# Approvals: what their operations tell

No operation of the approval repository writes a status of a run, node run or task but through the run
repository. Those that move a ChangeSet do it without an event, so they need a licence to.
-/

namespace AgentHub

open Lib WorkflowRunRepository

variable {P : Licence}

namespace ApprovalRepository

/-! ## Statements -/

theorem approvalCas_follows {id : String} {g : ApprovalRow → Bool} {f : ApprovalRow → ApprovalRow} {hk hu}
    {e : StorageError} : Tx.Within (Follows P) (Db.approvalsT.cas id g f hk hu e) :=
  aside_within (TableRef.cas_within fun _ _ => ⟨rfl, rfl, rfl, rfl, rfl⟩)

theorem requestCas_follows {id : String} {g : PrivilegeRequestRow → Bool} {f : PrivilegeRequestRow → PrivilegeRequestRow}
    {hk hu} {e : StorageError} : Tx.Within (Follows P) (Db.privilegeRequestsT.cas id g f hk hu e) :=
  aside_within (TableRef.cas_within fun _ _ => ⟨rfl, rfl, rfl, rfl, rfl⟩)

theorem requestUpdate_follows {p : PrivilegeRequestRow → Bool} {f : PrivilegeRequestRow → PrivilegeRequestRow} {hk hu} :
    Tx.Within (Follows P) (Db.privilegeRequestsT.update p f hk hu : Op Nat) :=
  aside_within (TableRef.update_within fun _ _ => ⟨rfl, rfl, rfl, rfl, rfl⟩)

theorem grantCas_follows {id : String} {g : CapabilityGrantRow → Bool} {f : CapabilityGrantRow → CapabilityGrantRow}
    {hk hu} {e : StorageError} : Tx.Within (Follows P) (Db.capabilityGrantsT.cas id g f hk hu e) :=
  aside_within (TableRef.cas_within fun _ _ => ⟨rfl, rfl, rfl, rfl, rfl⟩)

theorem grantUpdate_follows {p : CapabilityGrantRow → Bool} {f : CapabilityGrantRow → CapabilityGrantRow} {hk hu} :
    Tx.Within (Follows P) (Db.capabilityGrantsT.update p f hk hu : Op Nat) :=
  aside_within (TableRef.update_within fun _ _ => ⟨rfl, rfl, rfl, rfl, rfl⟩)

/-- Binding a task to a grant, or unbinding it, keeps its status. -/
theorem bindTasks_follows {p : TaskRow → Bool} {f : TaskRow → TaskRow} {hk hu} (hstatus : ∀ t, (f t).status = t.status) :
    Tx.Within (Follows P) (Db.tasksT.update p f hk hu : Op Nat) := by
  intro db n db' h
  rw [(Prod.mk.inj (TableRef.update_ok.1 h)).2]
  exact taskUpdate_follows hstatus

/-- A statement that moves ChangeSets as it is licensed to. -/
theorem changeSetUpdate_within {p : ChangeSetRow → Bool} {f : ChangeSetRow → ChangeSetRow} {hk hu}
    (hf : ∀ c, p c = true → ChangeSetMoves P c (f c)) : Tx.Within (Follows P) (Db.changeSetsT.update p f hk hu : Op Nat) := by
  intro db n db' h
  rw [(Prod.mk.inj (TableRef.update_ok.1 h)).2]
  exact changeSetUpdate_follows fun c _ => hf c

/-! ## Events -/

theorem appendPrivilegeRequestEvent_follows {rid nid tid id : String} {previous : Option String} {status : String}
    {lease : MasterLease} {reason : Option String} {now : Instant} : Tx.Within (Follows P)
      (appendPrivilegeRequestEvent rid nid tid id previous status lease reason now) :=
  .bind (runRow_readOnly _).within fun _ => appendIn_follows (fun _ => rfl) fun _ => rfl

theorem appendApprovalEvent_follows {approval : ApprovalRow} {previous : Option ApprovalStatus} {lease : MasterLease}
    {reason : Option String} {now : Instant} :
    Tx.Within (Follows P) (appendApprovalEvent approval previous lease reason now) :=
  .bind (runRow_readOnly _).within fun _ => appendIn_follows (fun _ => rfl) fun _ => rfl

theorem appendGrantEvent_follows {grant : CapabilityGrantRow} {rid nid : String} {lease : MasterLease} {reason : String}
    {now : Instant} : Tx.Within (Follows P) (appendGrantEvent grant rid nid lease reason now) :=
  .bind (runRow_readOnly _).within fun _ => appendIn_follows (fun _ => rfl) fun _ => rfl

/-! ## Revoking -/

theorem denyRequest_follows (id : String) (froms : List PrivilegeRequestStatus) :
    Tx.Within (Follows P) (denyRequest id froms) := .bind requestUpdate_follows fun _ => .pure _

theorem appendDenied_follows (id : String) (denied : Bool) (lease : MasterLease) (reason : String) (now : Instant) :
    Tx.Within (Follows P) (appendDenied id denied lease reason now) := by
  refine .ite (.bind (.read _) fun _ => .bind (.require _ _) fun p => ?_) (.pure _)
  obtain ⟨request, rid⟩ := p
  exact appendPrivilegeRequestEvent_follows

theorem revokeOne_follows (lease : MasterLease) (reason : String) (now : Instant) (grant : CapabilityGrantRow) :
    Tx.Within (Follows P) (revokeOne lease reason now grant) := by
  refine .bind grantCas_follows fun _ => .bind (denyRequest_follows _ _) fun _ => ?_
  refine .bind (bindTasks_follows fun _ => rfl) fun _ => .bind (.read _) fun _ => .bind (.require _ _) fun p => ?_
  obtain ⟨fresh, request, rid⟩ := p
  exact .bind (.ite appendPrivilegeRequestEvent_follows (.pure _)) fun _ => appendGrantEvent_follows

theorem revokeUnconsumedForRunIn_follows (rid : String) (lease : MasterLease) (reason : String) (now : Instant) :
    Tx.Within (Follows P) (revokeUnconsumedForRunIn rid lease reason now) := by
  refine .bind (assertMaster_readOnly _ _).within fun _ => .bind (.read _) fun _ => ?_
  exact .bind (forEach_within (revokeOne_follows lease reason now) _) fun _ => .pure _

theorem revokeStale_follows (lease : MasterLease) (reason : String) (now : Instant) (grant : CapabilityGrantRow) :
    Tx.Within (Follows P) (revokeStale lease reason now grant) := by
  refine .bind grantUpdate_follows fun _ => .ite ?_ (.pure _)
  refine .bind (denyRequest_follows _ _) fun _ => .bind (bindTasks_follows fun _ => rfl) fun _ => ?_
  refine .bind (.read _) fun _ => .bind (.require _ _) fun p => ?_
  obtain ⟨fresh, request, rid⟩ := p
  exact .bind (.ensure _ _) fun _ => .bind appendGrantEvent_follows fun _ => .pure _

theorem revokeUnconsumedForRun_follows (rid : String) (lease : MasterLease) (reason : String) (now : Instant) :
    Tx.Within (Follows P) (revokeUnconsumedForRun rid lease reason now) := by
  refine .bind (assertMaster_readOnly _ _).within fun _ => .bind (.read _) fun _ => ?_
  exact .bind (mapEach_within (revokeStale_follows lease reason now) _) fun _ => .pure _

/-! ## Requests and new approvals -/

theorem insertRequest_follows (request : PrivilegeRequest) (s : ResourceSeal) (now : Instant) :
    Tx.Within (Follows P) (insertRequest request s now) := by
  refine .bind (.read _) fun _ => .bind (.ensure _ _) fun _ => ?_
  exact aside_within (TableRef.insert_within fun _ _ => ⟨rfl, rfl, rfl, rfl, rfl⟩)

theorem createPrivilegeRequest_follows (request : PrivilegeRequest) (s : ResourceSeal) (lease : MasterLease)
    (ws : WorkspaceLease) (now : Instant) :
    Tx.Within (Follows P) (createPrivilegeRequest request s lease ws now) := by
  refine .bind (.ensure _ _) fun _ => .bind (assertMaster_readOnly _ _).within fun _ => .bind (.ensure _ _) fun _ => ?_
  refine .bind (assertWorkspace_readOnly _ _).within fun _ => .bind (TableRef.select_within _) fun existing => ?_
  cases existing with
  | some existing => exact .bind (sameRequest_readOnly _ _ _).within fun _ => .pure _
  | none =>
    refine .bind (insertRequest_follows _ _ _) fun _ => .bind (TableRef.select_within _) fun _ => ?_
    exact .bind (.require _ _) fun _ => .bind appendPrivilegeRequestEvent_follows fun _ => .pure _

theorem ensureRequest_follows (request : PrivilegeRequest) (s : ResourceSeal) (approval : PrivilegeApproval)
    (lease : MasterLease) (now : Instant) : Tx.Within (Follows P) (ensureRequest request s approval lease now) := by
  refine .bind (TableRef.select_within _) fun existing => ?_
  cases existing with
  | some existing => exact (sameRequest_readOnly _ _ _).within
  | none =>
    refine .bind (insertRequest_follows _ _ _) fun _ => .bind (TableRef.select_within _) fun _ => ?_
    exact .bind (.ensure _ _) fun _ => appendPrivilegeRequestEvent_follows

theorem createPrivilegeRequestAndApproval_follows (request : PrivilegeRequest) (s : ResourceSeal)
    (approval : PrivilegeApproval) (lease : MasterLease) (ws : WorkspaceLease) (now : Instant) :
    Tx.Within (Follows P) (createPrivilegeRequestAndApproval request s approval lease ws now) := by
  refine .bind (.ensure _ _) fun _ => .bind (.ensure _ _) fun _ => .bind (.ensure _ _) fun _ => ?_
  refine .bind (.ensure _ _) fun _ => .bind (assertMaster_readOnly _ _).within fun _ => .bind (.ensure _ _) fun _ => ?_
  refine .bind (assertWorkspace_readOnly _ _).within fun _ => .bind (ensureRequest_follows _ _ _ _ _) fun _ => ?_
  refine .bind (.read _) fun existing => ?_
  cases existing with
  | some row => exact (samePending_readOnly _ _).within
  | none => exact .bind (assertOwner_readOnly _).within fun _ => .fail _

theorem insertApproval_follows (row : ApprovalRow) : Tx.Within (Follows P) (insertApproval row) := by
  refine .bind (.ensure _ _) fun _ => .bind (.read _) fun _ => .bind (.ensure _ _) fun _ => ?_
  exact aside_within (TableRef.insert_within fun _ _ => ⟨rfl, rfl, rfl, rfl, rfl⟩)

/-- The ChangeSet of a new approval starts to wait. -/
theorem prepareSubject_follows {approval : ChangeSetApproval}
    (h : P.moves approval.changeSetId .testPassed ∧ P.target = .pendingApproval) (now : Instant) :
    Tx.Within (Follows P) (prepareSubject approval now) := by
  refine found_follows (Q := fun _ _ _ => False) (fun _ _ _ _ _ hs => hs.elim) fun db p hp => ?_
  obtain ⟨changeSet, run⟩ := p
  have hid : changeSet.id = approval.changeSetId := by
    simp only [changeSetWithRun, Option.bind_eq_some_iff, Option.map_eq_some_iff] at hp
    obtain ⟨c, hc, _, -, _, -, heq⟩ := hp
    rw [← (Prod.mk.inj heq).1]
    exact Table.get?_key hc
  refine .bind (.ensure _ _) fun _ => .bind (.ensure _ _) fun _ => .ite ?_ (.pure _)
  refine changeSetCas_follows (fun _ => rfl) fun c _ hg => ?_
  rw [of_decide_eq_true hg, hid]
  exact ⟨h.1, h.2.symm⟩

/-- A new approval starts its ChangeSet's wait, unless a pending one is found. -/
theorem create_follows {approval : Approval} {key : Option String} {lease : MasterLease} {now : Instant} {db db' : Db}
    {a : ApprovalRow} (hmove : pendingOf db (sameSubject approval) = none → ∀ new, approval = .changeSet new →
      P.moves new.changeSetId .testPassed ∧ P.target = .pendingApproval)
    (h : (create approval lease key now).run db = .ok (a, db')) : Follows P db db' := by
  simp only [create, StateT.run_bind, Tx.bind_ok, Tx.ensure_ok, Tx.read_ok] at h
  obtain ⟨_, ⟨-, rfl⟩, _, ⟨-, rfl⟩, ⟨_, s⟩, hlease, _, rfl, h⟩ := h
  obtain rfl : s = db := assertMaster_readOnly _ _ _ _ hlease
  split at h
  · exact (samePending_readOnly _ _).within (R := Follows P) _ _ _ h
  · next hnone =>
    revert h
    refine Tx.Within.bind (assertOwner_readOnly _).within (fun _ => ?_) _ _ _
    cases approval with
    | changeSet new =>
      refine .bind (prepareSubject_follows (hmove hnone new rfl) _) fun _ => .bind (insertApproval_follows _) fun _ => ?_
      refine .bind appendApprovalEvent_follows fun _ => .bind (TableRef.select_within _) fun _ => ?_
      exact .bind (.require _ _) fun _ => .pure _
    | privilege approval => exact .fail _

/-! ## Grants -/

theorem reactivate_follows (runs : Bool) (grant : CapabilityGrant) (target : GrantTarget) (lease : MasterLease)
    (now : Instant) : Tx.Within (Follows P) (reactivate runs grant target lease now) :=
  .bind (bindTasks_follows fun _ => rfl) fun _ => .ite (activateCapabilityTargetIn_follows _ _ _) (.pure _)

theorem createBound_follows (runs : Bool) (grant : CapabilityGrant) (expiresAt rid reason : String) (source : GrantSource)
    (lease : MasterLease) (now : Instant) :
    Tx.Within (Follows P) (createBound runs grant expiresAt rid reason source lease now) := by
  refine .bind (.bind (.read _) fun _ => .bind (.ensure _ _) fun _ => ?_) fun _ => ?_
  · exact aside_within (TableRef.insert_within fun _ _ => ⟨rfl, rfl, rfl, rfl, rfl⟩)
  refine .bind (taskCas_follows fun _ => rfl) fun _ => .bind (TableRef.select_within _) fun _ => ?_
  refine .bind (.require _ _) fun _ => .bind appendGrantEvent_follows fun _ => .bind (.ite ?_ (.pure _)) fun _ => .pure _
  exact activateCapabilityTargetIn_follows _ _ _

theorem createGrant_follows (H : Digests) (runs : Bool) (grant : CapabilityGrant) (expiresAt : Instant)
    (rid taskId : String) (lease : MasterLease) (now : Instant) :
    Tx.Within (Follows P) (createGrant H runs grant expiresAt rid taskId lease now) := by
  intro db a db' h
  obtain ⟨source, target, hactivate | ⟨-, hcreate⟩⟩ := createGrant_ok h
  · exact reactivate_follows _ _ _ _ _ _ _ _ hactivate
  · exact createBound_follows _ _ _ _ _ _ _ _ _ _ _ hcreate

theorem consumeGrant_follows (id taskId : String) (action : PrivilegeAction) (resource : String) (lease : MasterLease)
    (ws : Option WorkspaceLease) (now : Instant) :
    Tx.Within (Follows P) (consumeGrant id taskId action resource lease ws now) := by
  refine .bind (assertMaster_readOnly _ _).within fun _ => .bind (.read _) fun _ => .bind (.require _ _) fun use => ?_
  refine .bind (checkUse_readOnly _ _ _ _ _ _).within fun _ => .bind (checkFence_readOnly _ _ _ _).within fun _ => ?_
  refine .bind ?_ fun _ => .bind (.read _) fun _ => .bind (.require _ _) fun p => ?_
  · refine .bind grantCas_follows fun _ => .bind requestCas_follows fun _ => ?_
    exact .bind (bindTasks_follows fun _ => rfl) fun _ => .pure _
  · obtain ⟨fresh, request, rid⟩ := p
    exact .bind appendGrantEvent_follows fun _ => .pure _

/-! ## Decisions -/

theorem expireSubject_follows (repo : ApprovalRepository) (current : ApprovalRow) (lease : MasterLease) (now : Instant) :
    Tx.Within (Follows P) (expireSubject repo current lease now) := by
  unfold expireSubject
  split
  · exact .pure _
  · refine .bind (.read _) fun row => .bind requestUpdate_follows fun changed => ?_
    split
    · next row =>
      obtain ⟨request, node, run⟩ := row
      refine .bind appendPrivilegeRequestEvent_follows fun _ => .ite ?_ (.pure _)
      exact resumePrivilegeAfterApprovalIn_follows _ _ _ _ _ _
    · exact .pure _

theorem expireIn_follows (repo : ApprovalRepository) (current : ApprovalRow) (lease : MasterLease) (now : Instant) :
    Tx.Within (Follows P) (expireIn repo current lease now) := by
  refine .bind approvalCas_follows fun _ => .bind (expireSubject_follows _ _ _ _) fun _ => ?_
  exact .bind (TableRef.select_within _) fun _ => .bind (.require _ _) fun _ => appendApprovalEvent_follows

theorem expireDue_follows (repo : ApprovalRepository) (rid : Option String) (lease : MasterLease) (now : Instant) :
    Tx.Within (Follows P) (repo.expireDue rid lease now) := by
  refine .bind (assertMaster_readOnly _ _).within fun _ => .bind (.read _) fun _ => mapEach_within (fun row => ?_) _
  refine .bind (expireIn_follows _ _ _ _) fun _ => .bind (TableRef.select_within _) fun _ => ?_
  exact .bind (.require _ _) fun _ => .pure _

theorem replay_follows (repo : ApprovalRepository) (request : DecisionRequest) (current : ApprovalRow) :
    Tx.Within (Follows P) (replay repo request current) := by
  unfold replay
  split
  · refine .bind (.ensure _ _) fun _ => .bind approvalCas_follows fun _ => ?_
    exact .bind (TableRef.select_within _) fun _ => .bind (.require _ _) fun _ => .pure _
  · exact .bind (.ensure _ _) fun _ => .bind (.ensure _ _) fun _ => .pure _

/-- The status a decision gives its ChangeSet. -/
def decidedStatus (target : Decision) : ChangeSetStatus := if target = .approved then .approved else .rejected

theorem decideSubject_follows {current : ApprovalRow} {target : Decision} (h : current.subjectType = .changeSet →
    P.moves (current.changeSetId.getD "None") .pendingApproval ∧ P.target = decidedStatus target) (now : Instant) :
    Tx.Within (Follows P) (decideSubject current target now) := by
  unfold decideSubject
  split
  · next hkind =>
    refine changeSetCas_follows (fun _ => rfl) fun c _ hg => ?_
    rw [of_decide_eq_true hg]
    exact ⟨(h hkind).1, (h hkind).2.symm⟩
  · exact requestCas_follows

theorem decidePrivilege_follows (repo : ApprovalRepository) (current : ApprovalRow) (target : Decision)
    (lease : MasterLease) (now : Instant) : Tx.Within (Follows P) (decidePrivilege repo current target lease now) := by
  refine .bind (.read _) fun _ => .bind (.require _ _) fun p => ?_
  obtain ⟨request, rid⟩ := p
  refine .bind appendPrivilegeRequestEvent_follows fun _ => ?_
  split
  · exact .pure _
  · intro db a db' h
    unfold grantApproved at h
    rw [StateT.run_bind, Tx.bind_ok] at h
    obtain ⟨_, hraises, -⟩ := h
    exact absurd hraises approvePrivilegeIn_raises
  · exact resumePrivilegeAfterApprovalIn_follows _ _ _ _ _ _

theorem advance_follows (repo : ApprovalRepository) (ord : RowOrder) (current : ApprovalRow) (target : Decision)
    (lease : MasterLease) (now : Instant) : Tx.Within (Follows P) (advance repo ord current target lease now) := by
  unfold advance
  split
  · exact .ite (.bind (resumeAfterApprovalIn_follows _ _ _ _ _ _) fun _ => .pure _) (.pure _)
  · exact decidePrivilege_follows _ _ _ _ _

theorem decidePending_follows {repo : ApprovalRepository} {ord : RowOrder} {request : DecisionRequest} {row : ApprovalRow}
    (h : row.subjectType = .changeSet →
      P.moves (row.changeSetId.getD "None") .pendingApproval ∧ P.target = decidedStatus request.target)
    (lease : MasterLease) (now : Instant) :
    Tx.Within (Follows P) (decidePending repo ord request (approvalRecord row) lease now) := by
  refine .bind (.bind (.ensure _ _) fun _ => approvalCas_follows) fun _ => .bind (decideSubject_follows h _) fun _ => ?_
  refine .bind (advance_follows _ _ _ _ _ _) fun _ => .bind (TableRef.select_within _) fun _ => .bind (.require _ _) fun _ => ?_
  exact .bind appendApprovalEvent_follows fun _ => .pure _

theorem decide_follows {repo : ApprovalRepository} {ord : RowOrder} {request : DecisionRequest} {lease : MasterLease}
    {now : Instant} {db db' : Db} {a : ApprovalRow}
    (hmove : ∀ row, db.approvals.get? request.approvalId = some row → row.status = .pending → row.subjectType = .changeSet →
      P.moves (row.changeSetId.getD "None") .pendingApproval ∧ P.target = decidedStatus request.target)
    (h : (repo.decide ord request lease now).run db = .ok (a, db')) : Follows P db db' := by
  obtain ⟨-, -, row, hrow, ⟨-, -, h⟩ | ⟨hpending, -, -, -, -, h⟩⟩ := decide_ok h
  · exact replay_follows _ _ _ _ _ _ h
  · exact decidePending_follows (hmove row hrow hpending) _ _ _ _ _ h

theorem renewChangeset_follows (oldId : String) (version : Int) (hash : String) (new : ChangeSetApproval)
    (lease : MasterLease) (now : Instant) :
    Tx.Within (Follows P) (renewChangeset oldId version hash new lease now) := by
  refine .bind (assertMaster_readOnly _ _).within fun _ => .bind (.bind (TableRef.select_within _) fun _ => .require _ _) fun row => ?_
  refine .bind (fun db u db' h => ?_) fun _ => .bind (fun db u db' h => ?_) fun _ => ?_
  · obtain rfl : db' = db := (checkRenewable_ok h).2.2.2
    exact refl_of (Follows P) _
  · obtain rfl : db' = db := (checkRenewal_ok h).2.2.2.2.2.2.2
    exact refl_of (Follows P) _
  refine .bind (insertApproval_follows _) fun _ => .bind appendApprovalEvent_follows fun _ => ?_
  exact .bind (TableRef.select_within _) fun _ => .bind (.require _ _) fun _ => .pure _

/-! ## Invalidating -/

/-- The ChangeSet of an approval is invalidated with it. -/
def Ends (P : Licence) (a : ApprovalRow) (s : ChangeSetStatus) : Prop :=
  a.subjectType = .changeSet → ∀ id, a.changeSetId = some id → P.moves id s

theorem invalidateSubject_follows {a : ApprovalRow} (htarget : P.target = .cancelled)
    (h : ∀ s ∈ [ChangeSetStatus.pendingApproval, .approved], Ends P a s) (lease : MasterLease) (reason : String) (now : Instant) :
    Tx.Within (Follows P) (invalidateSubject a lease reason now) := by
  unfold invalidateSubject
  split
  · next hkind =>
    refine .bind (changeSetUpdate_within fun c hc => ⟨rfl, .inr ⟨?_, htarget.symm⟩⟩) fun _ => .pure _
    obtain ⟨hid, hstatus⟩ := Bool.and_eq_true_iff.1 hc
    exact h _ (of_decide_eq_true hstatus) hkind _ (of_decide_eq_true hid)
  · exact .bind (denyRequest_follows _ _) fun _ => appendDenied_follows _ _ _ _ _

theorem invalidateSubjectAlone_follows {a : ApprovalRow} (htarget : P.target = .cancelled) (h : Ends P a .pendingApproval)
    (lease : MasterLease) (reason : String) (now : Instant) :
    Tx.Within (Follows P) (invalidateSubjectAlone a lease reason now) := by
  unfold invalidateSubjectAlone
  split
  · next hkind =>
    refine .bind (changeSetUpdate_within fun c hc => ⟨rfl, .inr ⟨?_, htarget.symm⟩⟩) fun _ => .pure _
    obtain ⟨hid, hstatus⟩ := Bool.and_eq_true_iff.1 hc
    rw [of_decide_eq_true hstatus]
    exact h hkind _ (of_decide_eq_true hid)
  · exact .bind (denyRequest_follows _ _) fun _ => appendDenied_follows _ _ _ _ _

theorem invalidateOne_follows {a : ApprovalRow} (htarget : P.target = .cancelled)
    (h : ∀ s ∈ [ChangeSetStatus.pendingApproval, .approved], Ends P a s) (lease : MasterLease) (reason : String) (now : Instant) :
    Tx.Within (Follows P) (invalidateOne lease reason now a) := by
  refine .bind approvalCas_follows fun _ => .bind (invalidateSubject_follows htarget h _ _ _) fun _ => ?_
  exact .bind (TableRef.select_within _) fun _ => .bind (.require _ _) fun _ => appendApprovalEvent_follows

theorem invalidateOneAlone_follows {a : ApprovalRow} (htarget : P.target = .cancelled) (h : Ends P a .pendingApproval)
    (lease : MasterLease) (reason : String) (now : Instant) :
    Tx.Within (Follows P) (invalidateOneAlone lease reason now a) := by
  refine .bind approvalCas_follows fun _ => .bind (invalidateSubjectAlone_follows htarget h _ _ _) fun _ => ?_
  exact .bind (TableRef.select_within _) fun _ => .bind (.require _ _) fun _ => appendApprovalEvent_follows

/-- Tasks and node runs are left alone: what belonged to a run still does, and nothing else. -/
structure SameTasks (db db' : Db) : Prop where
  tasks : db'.tasks = db.tasks
  nodeRuns : db'.nodeRuns = db.nodeRuns

instance : IsPreorder Db SameTasks where
  refl _ := ⟨rfl, rfl⟩
  trans _ _ _ h h' := ⟨h'.tasks.trans h.tasks, h'.nodeRuns.trans h.nodeRuns⟩

theorem SameTasks.ofRun {db db' : Db} (h : SameTasks db db') : ofRun db' = ofRun db := by
  funext rid taskId
  simp only [ApprovalRepository.ofRun, h.tasks, h.nodeRuns]

theorem appendIn_sameTasks {sid typ actor : String} {payload : EventPayload} {wid rid : String} {now : Instant} :
    Tx.Within SameTasks (EventRepository.appendIn sid typ actor payload wid rid now) :=
  fun _ _ _ h => ⟨(EventRepository.appendIn_quiet h).tasks, (EventRepository.appendIn_quiet h).nodeRuns⟩

theorem denied_sameTasks (id : String) (froms : List PrivilegeRequestStatus) (lease : MasterLease) (reason : String)
    (now : Instant) : Tx.Within SameTasks (denyRequest id froms >>= fun denied => appendDenied id denied lease reason now) := by
  refine .bind (.bind (TableRef.update_within fun _ _ => ⟨rfl, rfl⟩) fun _ => .pure _) fun _ => .ite ?_ (.pure _)
  refine .bind (.read _) fun _ => .bind (.require _ _) fun p => ?_
  obtain ⟨request, rid⟩ := p
  exact .bind (runRow_readOnly _).within fun _ => appendIn_sameTasks

theorem invalidateOne_sameTasks (lease : MasterLease) (reason : String) (now : Instant) (a : ApprovalRow) :
    Tx.Within SameTasks (invalidateOne lease reason now a) := by
  refine .bind (TableRef.cas_within fun _ _ => ⟨rfl, rfl⟩) fun _ => .bind ?_ fun _ => ?_
  · unfold invalidateSubject
    split
    · exact .bind (TableRef.update_within fun _ _ => ⟨rfl, rfl⟩) fun _ => .pure _
    · exact denied_sameTasks _ _ _ _ _
  · refine .bind (TableRef.select_within _) fun _ => .bind (.require _ _) fun _ => ?_
    exact .bind (runRow_readOnly _).within fun _ => appendIn_sameTasks

theorem invalidateOneAlone_sameTasks (lease : MasterLease) (reason : String) (now : Instant) (a : ApprovalRow) :
    Tx.Within SameTasks (invalidateOneAlone lease reason now a) := by
  refine .bind (TableRef.cas_within fun _ _ => ⟨rfl, rfl⟩) fun _ => .bind ?_ fun _ => ?_
  · unfold invalidateSubjectAlone
    split
    · exact .bind (TableRef.update_within fun _ _ => ⟨rfl, rfl⟩) fun _ => .pure _
    · exact denied_sameTasks _ _ _ _ _
  · refine .bind (TableRef.select_within _) fun _ => .bind (.require _ _) fun _ => ?_
    exact .bind (runRow_readOnly _).within fun _ => appendIn_sameTasks

/-- The ChangeSets of the run's tasks may be cancelled from either status. -/
def EndsAll (P : Licence) (rid : String) (db : Db) : Prop :=
  ∀ c ∈ db.changeSets.rows, ofRun db rid c.taskId = true → ∀ s ∈ [ChangeSetStatus.pendingApproval, .approved], P.moves c.id s

/-- The loop over the pending approvals, and the statement that ends every open ChangeSet of the run. -/
theorem invalidateAll_follows {step : ApprovalRow → Op Unit} {rid : String} {now : Instant} {db db' : Db} {n : Nat}
    (htarget : P.target = .cancelled) (hall : EndsAll P rid db)
    (hstep : ∀ a ∈ db.approvals.rows, a.workflowRunId = rid → a.status = .pending → Tx.Within (Follows P) (step a))
    (hframe : ∀ a, Tx.Within SameTasks (step a))
    (h : (do
      let rows ← Tx.read fun db => db.approvals.rows.filter fun a => a.workflowRunId = rid ∧ a.status = .pending
      forEach step rows
      let owned ← Tx.read fun db => ofRun db rid
      let _ ← Db.changeSetsT.update (fun c => decide (c.status ∈ [.pendingApproval, .approved]) && owned c.taskId)
        (fun c => { c with status := .cancelled, updatedAt := utcNowText now }) (fun _ => rfl) (fun _ => rfl)
      return rows.length : Op Nat).run db = .ok (n, db')) : Follows P db db' := by
  rw [Tx.run_read_bind, StateT.run_bind, Tx.bind_ok] at h
  obtain ⟨⟨u, db₁⟩, hloop, h⟩ := h
  have hsame : SameTasks db db₁ := forEach_within hframe _ _ _ _ hloop
  have hfollows : Follows P db db₁ := by
    refine forEach_mem_within (fun a ha => ?_) _ _ _ hloop
    obtain ⟨hmem, hpending⟩ := List.mem_filter.1 ha
    exact hstep a hmem (of_decide_eq_true hpending).1 (of_decide_eq_true hpending).2
  rw [Tx.run_read_bind, hsame.ofRun] at h
  refine trans_of (Follows P) hfollows ?_
  rw [StateT.run_bind, Tx.bind_ok] at h
  obtain ⟨⟨m, db₂⟩, hupdate, h⟩ := h
  obtain rfl : db' = db₂ := (Prod.mk.inj (Tx.pure_ok.1 h)).2
  obtain rfl := (Prod.mk.inj (TableRef.update_ok.1 hupdate)).2
  refine changeSetUpdate_follows fun c hc hp => ⟨rfl, .inr ⟨?_, htarget.symm⟩⟩
  obtain ⟨hstatus, howned⟩ := Bool.and_eq_true_iff.1 hp
  -- The row was there before the loop, with the same task.
  obtain ⟨c₀, hc₀, hmoves⟩ | ⟨_, hfresh, -⟩ := hfollows.changeSets.origin hc
  swap
  · exact hfresh.elim
  obtain ⟨hid, hrest⟩ := Prod.mk.inj hmoves.same
  rw [(Prod.mk.inj hrest).1] at howned
  rw [hid]
  exact hall c₀ hc₀ howned _ (of_decide_eq_true hstatus)

theorem invalidateForRunIn_follows {rid reason : String} {lease : MasterLease} {now : Instant} {db db' : Db} {n : Nat}
    (htarget : P.target = .cancelled) (hall : EndsAll P rid db)
    (hpending : ∀ a ∈ db.approvals.rows, a.workflowRunId = rid → a.status = .pending →
      ∀ s ∈ [ChangeSetStatus.pendingApproval, .approved], Ends P a s)
    (h : (invalidateForRunIn rid lease reason now).run db = .ok (n, db')) : Follows P db db' := by
  unfold invalidateForRunIn at h
  rw [StateT.run_bind, Tx.bind_ok] at h
  obtain ⟨⟨_, s⟩, hlease, h⟩ := h
  obtain rfl : s = db := assertMaster_readOnly _ _ _ _ hlease
  refine invalidateAll_follows htarget hall (fun a ha hrun hp => ?_) (invalidateOne_sameTasks lease reason now) h
  exact invalidateOne_follows htarget (hpending a ha hrun hp) _ _ _

theorem invalidateForRun_follows {rid reason : String} {lease : MasterLease} {now : Instant} {db db' : Db} {n : Nat}
    (htarget : P.target = .cancelled) (hall : EndsAll P rid db)
    (hpending : ∀ a ∈ db.approvals.rows, a.workflowRunId = rid → a.status = .pending → Ends P a .pendingApproval)
    (h : (invalidateForRun rid lease reason now).run db = .ok (n, db')) : Follows P db db' := by
  unfold invalidateForRun at h
  rw [StateT.run_bind, Tx.bind_ok] at h
  obtain ⟨⟨_, s⟩, hlease, h⟩ := h
  obtain rfl : s = db := assertMaster_readOnly _ _ _ _ hlease
  refine invalidateAll_follows htarget hall (fun a ha hrun hp => ?_) (invalidateOneAlone_sameTasks lease reason now) h
  exact invalidateOneAlone_follows htarget (hpending a ha hrun hp) _ _ _

end ApprovalRepository

end AgentHub
