import AgentHub.Storage.Runs.Moves
/-!
# Approvals: what their operations move

The operations of the approval repository, with the inversion lemmas of `decide` and `renew_changeset`: an
approval is only decided while it is pending and in force.
-/

namespace AgentHub

open Lib WorkflowRunRepository

variable {K : Powers}

namespace ApprovalRepository

/-! ## Events -/

theorem appendPrivilegeRequestEvent_moves {rid nid tid id : String} {previous : Option String} {status : String}
    {lease : MasterLease} {reason : Option String} {now : Instant} : Tx.Within (Moves K)
      (appendPrivilegeRequestEvent rid nid tid id previous status lease reason now) :=
  .bind (runRow_readOnly _).within fun _ => appendIn_moves

theorem appendApprovalEvent_moves {approval : ApprovalRow} {previous : Option ApprovalStatus} {lease : MasterLease}
    {reason : Option String} {now : Instant} :
    Tx.Within (Moves K) (appendApprovalEvent approval previous lease reason now) :=
  .bind (runRow_readOnly _).within fun _ => appendIn_moves

theorem appendGrantEvent_moves {grant : CapabilityGrantRow} {rid nid : String} {lease : MasterLease} {reason : String}
    {now : Instant} : Tx.Within (Moves K) (appendGrantEvent grant rid nid lease reason now) :=
  .bind (runRow_readOnly _).within fun _ => appendIn_moves

/-! ## Invalidating and revoking -/

theorem denyRequest_moves (id : String) {froms : List PrivilegeRequestStatus} (h : ∀ s ∈ froms, s.isOpen = true) :
    Tx.Within (Moves K) (denyRequest id froms) := by
  refine .bind (requestUpdate_moves (fun _ => rfl) fun r hr => ?_) fun _ => .pure _
  exact h _ (of_decide_eq_true (Bool.and_eq_true_iff.1 hr).2)

theorem appendDenied_moves (id : String) (denied : Bool) (lease : MasterLease) (reason : String) (now : Instant) :
    Tx.Within (Moves K) (appendDenied id denied lease reason now) := by
  refine .ite (.bind (.read _) fun _ => .bind (.require _ _) fun p => ?_) (.pure _)
  obtain ⟨request, rid⟩ := p
  exact appendPrivilegeRequestEvent_moves

/-- A write that ends an approval which is pending. -/
theorem closeApproval_moves {id : String} {version : Nat} {status : ApprovalStatus} {now : Instant}
    {hk hu} {e : StorageError} (hstatus : status = .expired ∨ status = .invalidated) :
    Tx.Within (Moves K) (Db.approvalsT.cas id (fun a => a.status = .pending ∧ a.version = version)
      (fun a => { a with status := status, version := a.version + 1, decidedAt := some (utcNowText now) }) hk hu e) := by
  exact approvalCas_moves fun a _ hg => .close status now (of_decide_eq_true hg).1 hstatus

theorem invalidateSubject_moves (approval : ApprovalRow) (lease : MasterLease) (reason : String) (now : Instant) :
    Tx.Within (Moves K) (invalidateSubject approval lease reason now) := by
  unfold invalidateSubject
  split
  · exact .bind (changeSetUpdate_moves (fun _ => rfl) fun _ => rfl) fun _ => .pure _
  · exact .bind (denyRequest_moves _ (by simp [PrivilegeRequestStatus.isOpen])) fun _ => appendDenied_moves _ _ _ _ _

theorem invalidateOne_moves (lease : MasterLease) (reason : String) (now : Instant) (approval : ApprovalRow) :
    Tx.Within (Moves K) (invalidateOne lease reason now approval) := by
  refine .bind (closeApproval_moves (.inr rfl)) fun _ => .bind (invalidateSubject_moves _ _ _ _) fun _ => ?_
  exact .bind (TableRef.select_within _) fun _ => .bind (.require _ _) fun _ => appendApprovalEvent_moves

theorem invalidateForRunIn_moves (rid : String) (lease : MasterLease) (reason : String) (now : Instant) :
    Tx.Within (Moves K) (invalidateForRunIn rid lease reason now) := by
  refine .bind (assertMaster_readOnly _ _).within fun _ => .bind (.read _) fun _ => ?_
  refine .bind (forEach_within (invalidateOne_moves lease reason now) _) fun _ => .bind (.read _) fun _ => ?_
  exact .bind (changeSetUpdate_moves (fun _ => rfl) fun _ => rfl) fun _ => .pure _

theorem invalidateSubjectAlone_moves (approval : ApprovalRow) (lease : MasterLease) (reason : String) (now : Instant) :
    Tx.Within (Moves K) (invalidateSubjectAlone approval lease reason now) := by
  unfold invalidateSubjectAlone
  split
  · exact .bind (changeSetUpdate_moves (fun _ => rfl) fun _ => rfl) fun _ => .pure _
  · exact .bind (denyRequest_moves _ (by simp [PrivilegeRequestStatus.isOpen])) fun _ => appendDenied_moves _ _ _ _ _

theorem invalidateOneAlone_moves (lease : MasterLease) (reason : String) (now : Instant) (approval : ApprovalRow) :
    Tx.Within (Moves K) (invalidateOneAlone lease reason now approval) := by
  refine .bind (closeApproval_moves (.inr rfl)) fun _ => .bind (invalidateSubjectAlone_moves _ _ _ _) fun _ => ?_
  exact .bind (TableRef.select_within _) fun _ => .bind (.require _ _) fun _ => appendApprovalEvent_moves

theorem invalidateForRun_moves (rid : String) (lease : MasterLease) (reason : String) (now : Instant) :
    Tx.Within (Moves K) (invalidateForRun rid lease reason now) := by
  refine .bind (assertMaster_readOnly _ _).within fun _ => .bind (.read _) fun _ => ?_
  refine .bind (forEach_within (invalidateOneAlone_moves lease reason now) _) fun _ => .bind (.read _) fun _ => ?_
  exact .bind (changeSetUpdate_moves (fun _ => rfl) fun _ => rfl) fun _ => .pure _

/-- Revoking a grant that is neither consumed nor revoked. -/
theorem revoked_keeps {g : CapabilityGrantRow} {time reason : String} (h : g.consumedAt = none ∧ g.revokedAt = none) :
    GrantKeeps K g { g with revokedAt := some time, revocationReason := some reason } :=
  ended_keeps h rfl (fun hb => hb.1 h.1) fun hc => absurd h.1 hc

theorem unbind_moves {p : TaskRow → Bool} {hk hu} :
    Tx.Within (Moves K) (Db.tasksT.update p (fun t => { t with activeCapabilityGrantId := none }) hk hu : Op Nat) :=
  update_moves (fun _ _ => Moves.tasksTo) fun _ _ => ⟨rfl, fun _ => rfl, fun _ => .inl rfl⟩

theorem revokeOne_moves (lease : MasterLease) (reason : String) (now : Instant) (grant : CapabilityGrantRow) :
    Tx.Within (Moves K) (revokeOne lease reason now grant) := by
  refine .bind (grantCas_moves fun g _ hg => revoked_keeps (of_decide_eq_true hg)) fun _ => ?_
  refine .bind (denyRequest_moves _ (by simp [PrivilegeRequestStatus.isOpen])) fun _ => .bind unbind_moves fun _ => ?_
  refine .bind (.read _) fun _ => .bind (.require _ _) fun p => ?_
  obtain ⟨fresh, request, rid⟩ := p
  exact .bind (.ite appendPrivilegeRequestEvent_moves (.pure _)) fun _ => appendGrantEvent_moves

theorem revokeUnconsumedForRunIn_moves (rid : String) (lease : MasterLease) (reason : String) (now : Instant) :
    Tx.Within (Moves K) (revokeUnconsumedForRunIn rid lease reason now) := by
  refine .bind (assertMaster_readOnly _ _).within fun _ => .bind (.read _) fun _ => ?_
  exact .bind (forEach_within (revokeOne_moves lease reason now) _) fun _ => .pure _

theorem mapEach_within {ρ α : Type} {R : Db → Db → Prop} [IsPreorder Db R] {step : ρ → Op α}
    (h : ∀ r, Tx.Within R (step r)) (l : List ρ) : Tx.Within R (mapEach step l) := by
  induction l with
  | nil => exact .pure _
  | cons r l ih => exact .bind (h r) fun _ => .bind ih fun _ => .pure _

theorem revokeStale_moves (lease : MasterLease) (reason : String) (now : Instant) (grant : CapabilityGrantRow) :
    Tx.Within (Moves K) (revokeStale lease reason now grant) := by
  refine .bind (grantUpdate_moves fun g hg => revoked_keeps ?_) fun _ => .ite ?_ (.pure _)
  · exact of_decide_eq_true (Bool.and_eq_true_iff.1 hg).2
  refine .bind (denyRequest_moves _ (by simp [PrivilegeRequestStatus.isOpen])) fun _ => .bind unbind_moves fun _ => ?_
  refine .bind (.read _) fun _ => .bind (.require _ _) fun p => ?_
  obtain ⟨fresh, request, rid⟩ := p
  exact .bind (.ensure _ _) fun _ => .bind appendGrantEvent_moves fun _ => .pure _

theorem revokeUnconsumedForRun_moves (rid : String) (lease : MasterLease) (reason : String) (now : Instant) :
    Tx.Within (Moves K) (revokeUnconsumedForRun rid lease reason now) := by
  refine .bind (assertMaster_readOnly _ _).within fun _ => .bind (.read _) fun _ => ?_
  exact .bind (mapEach_within (revokeStale_moves lease reason now) _) fun _ => .pure _

/-! ## Requests and new approvals -/

theorem selectApproval_readOnly (id : String) : Tx.ReadOnly (selectApproval id) := .bind (.read _) fun _ => .require _ _

theorem samePending_readOnly (row : ApprovalRow) (hash : String) : Tx.ReadOnly (samePending row hash) :=
  .bind (.ensure _ _) fun _ => .pure _

theorem sameRequest_readOnly (existing : PrivilegeRequestRow) (request : PrivilegeRequest) (s : ResourceSeal) :
    Tx.ReadOnly (sameRequest existing request s) := .bind (.ensure _ _) fun _ => .ensure _ _

theorem insertRequest_moves (request : PrivilegeRequest) (s : ResourceSeal) (now : Instant) :
    Tx.Within (Moves K) (insertRequest request s now) := by
  refine .bind (.read _) fun _ => .bind (.ensure _ _) fun _ => ?_
  exact insert_moves (fun _ _ => Moves.requestsTo) trivial

theorem createPrivilegeRequest_moves (request : PrivilegeRequest) (s : ResourceSeal) (lease : MasterLease)
    (ws : WorkspaceLease) (now : Instant) :
    Tx.Within (Moves K) (createPrivilegeRequest request s lease ws now) := by
  refine .bind (.ensure _ _) fun _ => .bind (assertMaster_readOnly _ _).within fun _ => .bind (.ensure _ _) fun _ => ?_
  refine .bind (assertWorkspace_readOnly _ _).within fun _ => .bind (TableRef.select_within _) fun existing => ?_
  cases existing with
  | some existing => exact .bind (sameRequest_readOnly _ _ _).within fun _ => .pure _
  | none =>
    refine .bind (insertRequest_moves _ _ _) fun _ => .bind (TableRef.select_within _) fun _ => ?_
    exact .bind (.require _ _) fun _ => .bind appendPrivilegeRequestEvent_moves fun _ => .pure _

theorem ensureRequest_moves (request : PrivilegeRequest) (s : ResourceSeal) (approval : PrivilegeApproval)
    (lease : MasterLease) (now : Instant) : Tx.Within (Moves K) (ensureRequest request s approval lease now) := by
  refine .bind (TableRef.select_within _) fun existing => ?_
  cases existing with
  | some existing => exact (sameRequest_readOnly _ _ _).within
  | none =>
    refine .bind (insertRequest_moves _ _ _) fun _ => .bind (TableRef.select_within _) fun _ => ?_
    exact .bind (.ensure _ _) fun _ => appendPrivilegeRequestEvent_moves

theorem assertOwner_readOnly (approval : ApprovalBase) : Tx.ReadOnly (assertOwner approval) :=
  .bind (.read _) fun _ => .bind (.require _ _) fun _ => .ensure _ _

theorem createPrivilegeRequestAndApproval_moves (request : PrivilegeRequest) (s : ResourceSeal)
    (approval : PrivilegeApproval) (lease : MasterLease) (ws : WorkspaceLease) (now : Instant) :
    Tx.Within (Moves K) (createPrivilegeRequestAndApproval request s approval lease ws now) := by
  refine .bind (.ensure _ _) fun _ => .bind (.ensure _ _) fun _ => .bind (.ensure _ _) fun _ => ?_
  refine .bind (.ensure _ _) fun _ => .bind (assertMaster_readOnly _ _).within fun _ => .bind (.ensure _ _) fun _ => ?_
  refine .bind (assertWorkspace_readOnly _ _).within fun _ => .bind (ensureRequest_moves _ _ _ _ _) fun _ => ?_
  refine .bind (.read _) fun existing => ?_
  cases existing with
  | some row => exact (samePending_readOnly _ _).within
  | none => exact .bind (assertOwner_readOnly _).within fun _ => .fail _

theorem insertApproval_moves {row : ApprovalRow} (h : NewApproval K row) : Tx.Within (Moves K) (insertApproval row) := by
  refine .bind (.ensure _ _) fun _ => .bind (.read _) fun _ => .bind (.ensure _ _) fun _ => ?_
  exact insert_moves (fun _ _ => Moves.approvalsTo) h

theorem changeSetRow_new {approval : ChangeSetApproval} {key : Option String} {now : Instant}
    (hopen : K.opens (changeSetRow approval key now)) (hrisk : approval.effectiveRisk ≠ .l4) :
    NewApproval K (changeSetRow approval key now) := ⟨hopen, rfl, rfl, hrisk, rfl, rfl, rfl, rfl⟩

theorem prepareSubject_moves (approval : ChangeSetApproval) (now : Instant) :
    Tx.Within (Moves K) (prepareSubject approval now) := by
  refine .bind (.read _) fun _ => .bind (.require _ _) fun p => ?_
  obtain ⟨changeSet, run⟩ := p
  refine .bind (.ensure _ _) fun _ => .bind (.ensure _ _) fun _ => .ite ?_ (.pure _)
  exact changeSetCas_moves (fun _ => rfl) fun _ _ _ hs => by cases hs

/-- The power to insert the row of a new approval. -/
def Opens (K : Powers) (key : Option String) (now : Instant) : Approval → Prop
  | .changeSet approval => K.opens (changeSetRow approval key now)
  | .privilege _ => True

theorem createNew_moves {approval : Approval} {key : Option String} {now : Instant} (hopen : Opens K key now approval)
    (hrisk : approval.base.effectiveRisk ≠ .l4) (lease : MasterLease) :
    Tx.Within (Moves K) (createNew approval lease key now) := by
  refine .bind (assertOwner_readOnly _).within fun _ => ?_
  cases approval with
  | changeSet approval =>
    refine .bind (prepareSubject_moves _ _) fun _ => .bind (insertApproval_moves (changeSetRow_new hopen hrisk)) fun _ => ?_
    refine .bind appendApprovalEvent_moves fun _ => .bind (TableRef.select_within _) fun _ => ?_
    exact .bind (.require _ _) fun _ => .pure _
  | privilege approval => exact .fail _

theorem create_moves {approval : Approval} {key : Option String} {now : Instant} (hopen : Opens K key now approval)
    (lease : MasterLease) : Tx.Within (Moves K) (create approval lease key now) := by
  refine .bind (.ensure _ _) fun _ => .check fun hrisk => ?_
  refine .bind (assertMaster_readOnly _ _).within fun _ => .bind (.read _) fun existing => ?_
  cases existing with
  | some row => exact (samePending_readOnly _ _).within
  | none => exact createNew_moves hopen (of_decide_eq_true hrisk) _

/-! ## Grants -/

theorem checkSource_readOnly (grant : CapabilityGrant) (rid taskId : String) (source : GrantSource) (now : Instant) :
    Tx.ReadOnly (checkSource grant rid taskId source now) := by
  refine .bind (.ensure _ _) fun _ => .bind (.ensure _ _) fun _ => .bind (.ensure _ _) fun _ => ?_
  exact .bind (.ensure _ _) fun _ => .bind (.ensure _ _) fun _ => .bind (.read _) fun _ => .ensure _ _

theorem bindTask_moves {p : TaskRow → Bool} {id : String} {hk hu} :
    Tx.Within (Moves K) (Db.tasksT.update p (fun t => { t with activeCapabilityGrantId := some id }) hk hu : Op Nat) :=
  update_moves (fun _ _ => Moves.tasksTo) fun _ _ => ⟨rfl, fun _ => rfl, fun _ => .inl rfl⟩

theorem reactivate_moves (runs : Bool) (grant : CapabilityGrant) (target : GrantTarget) (lease : MasterLease)
    (now : Instant) : Tx.Within (Moves K) (reactivate runs grant target lease now) :=
  .bind bindTask_moves fun _ => .ite (activateCapabilityTargetIn_moves _ _ _) (.pure _)

theorem createBound_moves {grant : CapabilityGrant} {expiresAt : String} {source : GrantSource}
    (h : K.grants (grantRow grant source.request expiresAt)) (runs : Bool) (rid reason : String) (lease : MasterLease)
    (now : Instant) : Tx.Within (Moves K) (createBound runs grant expiresAt rid reason source lease now) := by
  refine .bind (.bind (.read _) fun _ => .bind (.ensure _ _) fun _ => insertGrantRow_moves ⟨h, rfl⟩) fun _ => ?_
  refine .bind (taskCas_moves (fun _ => rfl) (fun _ _ _ => rfl) fun _ _ _ => .inl rfl) fun _ => ?_
  refine .bind (TableRef.select_within _) fun _ => ?_
  refine .bind (.require _ _) fun _ => .bind appendGrantEvent_moves fun _ => .bind (.ite ?_ (.pure _)) fun _ => .pure _
  exact activateCapabilityTargetIn_moves _ _ _

/-- What the creation of a grant found: the request it names with a next attempt that is pending, in a live run, and has
no grant. -/
structure Issues (db : Db) (grant : CapabilityGrant) (workflowRunId : String) (source : GrantSource)
    (target : GrantTarget) : Prop where
  named : grantSource db grant.requestId = some source
  found : grantTarget db grant.targetTaskId = some target
  run : source.node.workflowRunId = workflowRunId ∧ target.run.id = workflowRunId
  asked : source.request.action = grant.action.value ∧ source.request.resource = grant.resource
  fits : target.node.nodeId = source.node.nodeId ∧ target.node.attempt = source.node.attempt + 1 ∧
    target.task.agentId = source.task.agentId
  live : target.run.cancelRequestedAt = none ∧ target.run.status.refusesApproval = false
  alone : ∀ g ∈ db.capabilityGrants.rows, g.targetTaskId ≠ grant.targetTaskId

theorem checkSource_ok {grant : CapabilityGrant} {rid taskId : String} {source : GrantSource} {now : Instant} {db : Db}
    {r : Unit × Db} (h : (checkSource grant rid taskId source now).run db = .ok r) :
    source.node.workflowRunId = rid ∧ source.request.action = grant.action.value ∧
      source.request.resource = grant.resource := by
  simp only [checkSource, StateT.run_bind, Tx.bind_ok, Tx.ensure_ok] at h
  obtain ⟨_, -, _, ⟨hrun, rfl⟩, _, ⟨hasked, rfl⟩, -⟩ := h
  exact ⟨of_decide_eq_true hrun, of_decide_eq_true hasked⟩

theorem createBound_ok {runs : Bool} {grant : CapabilityGrant} {expiresAt rid reason : String} {source : GrantSource}
    {lease : MasterLease} {now : Instant} {db : Db} {r : CapabilityGrantRow × Db}
    (h : (createBound runs grant expiresAt rid reason source lease now).run db = .ok r) :
    ∀ g ∈ db.capabilityGrants.rows, g.targetTaskId ≠ grant.targetTaskId := by
  simp only [createBound, insertGrant, StateT.run_bind, Tx.bind_ok, Tx.ensure_ok, Tx.read_ok] at h
  obtain ⟨_, ⟨_, rfl, _, ⟨hnone, -⟩, -⟩, -⟩ := h
  intro g hg hsame
  have hany : (db.capabilityGrants.rows.any fun g => g.targetTaskId = grant.targetTaskId) = true :=
    List.any_eq_true.2 ⟨g, hg, decide_eq_true hsame⟩
  rw [Bool.not_eq_true'] at hnone
  exact Bool.false_ne_true (hnone.symm.trans hany)

/-- A grant that was created, or found and its target activated. -/
theorem createGrant_ok {H : Digests} {runs : Bool} {grant : CapabilityGrant} {expiresAt : Instant} {rid taskId : String}
    {lease : MasterLease} {now : Instant} {db db' : Db} {a : CapabilityGrantRow}
    (h : (createGrant H runs grant expiresAt rid taskId lease now).run db = .ok (a, db')) :
    ∃ source target, (reactivate runs grant target lease now).run db = .ok ((), db') ∨
      Issues db grant rid source target ∧
        (createBound runs grant (utcNowText expiresAt) rid "created" source lease now).run db = .ok (a, db') := by
  simp only [createGrant, StateT.run_bind, Tx.bind_ok, Tx.ensure_ok, Tx.require_ok, Tx.read_ok] at h
  obtain ⟨⟨_, s⟩, hlease, h⟩ := h
  obtain rfl : s = db := assertMaster_readOnly _ _ _ _ hlease
  obtain ⟨_, rfl, ⟨source, _⟩, ⟨hsource, rfl⟩, ⟨_, s⟩, hcheck, h⟩ := h
  obtain rfl : s = _ := checkSource_readOnly _ _ _ _ _ _ _ hcheck
  obtain ⟨_, rfl, ⟨target, _⟩, ⟨htarget, rfl⟩, _, ⟨hfits, rfl⟩, _, rfl, h⟩ := h
  refine ⟨source, target, ?_⟩
  dsimp only at h
  split at h
  · simp only [sameGrant, StateT.run_bind, Tx.bind_ok, Tx.ensure_ok, StateT.run_pure, Tx.pure_ok] at h
    obtain ⟨_, ⟨-, rfl⟩, ⟨_, s⟩, hactivate, h⟩ := h
    rw [(Prod.mk.inj h).2]
    exact .inl hactivate
  · simp only [StateT.run_bind, Tx.bind_ok, Tx.ensure_ok] at h
    obtain ⟨_, ⟨-, rfl⟩, hcreate⟩ := h
    obtain ⟨hrun, hasked⟩ := checkSource_ok hcheck
    obtain ⟨hid, hnode, hattempt, -, hagent, hcancel, hstatus, -⟩ := of_decide_eq_true hfits
    exact .inr ⟨⟨hsource, htarget, ⟨hrun, hid⟩, hasked, ⟨hnode, hattempt, hagent⟩, ⟨hcancel, hstatus⟩,
      createBound_ok hcreate⟩, hcreate⟩

theorem createGrant_moves {H : Digests} {runs : Bool} {grant : CapabilityGrant} {expiresAt : Instant}
    {rid taskId : String} {lease : MasterLease} {now : Instant} {db db' : Db} {a : CapabilityGrantRow}
    (hpower : ∀ source target, Issues db grant rid source target →
      K.grants (grantRow grant source.request (utcNowText expiresAt)))
    (h : (createGrant H runs grant expiresAt rid taskId lease now).run db = .ok (a, db')) : Moves K db db' := by
  obtain ⟨source, target, hactivate | ⟨hissues, hcreate⟩⟩ := createGrant_ok h
  · exact reactivate_moves _ _ _ _ _ _ _ _ hactivate
  · exact createBound_moves (hpower source target hissues) _ _ _ _ _ _ _ _ hcreate

theorem checkUse_readOnly (id taskId : String) (action : PrivilegeAction) (resource : String) (use : GrantUse)
    (now : Instant) : Tx.ReadOnly (checkUse id taskId action resource use now) :=
  .bind (.ensure _ _) fun _ => .bind (.ensure _ _) fun _ => .ensure _ _

theorem checkFence_readOnly (taskId sid : String) (ws : Option WorkspaceLease) (now : Instant) :
    Tx.ReadOnly (checkFence taskId sid ws now) := by
  refine .bind (.require _ _) fun _ => .bind (.ensure _ _) fun _ => .bind (.ensure _ _) fun _ => ?_
  exact .bind (.read _) fun _ => .bind (.ensure _ _) fun _ => .pure _

theorem markConsumed_moves {id : String} (h : K.consumes id) (taskId : String) (action : PrivilegeAction)
    (resource requestId : String) (token : Nat) (now : Instant) :
    Tx.Within (Moves K) (markConsumed id taskId action resource requestId token now) := by
  refine .bind (grantCas_moves fun g hid hg => ?_) fun _ => ?_
  · obtain ⟨-, -, -, hc, hr, -⟩ := of_decide_eq_true hg
    rw [← hid] at h
    exact ended_keeps ⟨hc, hr⟩ rfl (fun hb => hb.2 hr) fun _ => h
  refine .bind (requestCas_moves (fun _ => rfl) fun r hg => ?_) fun _ => ?_
  · rw [of_decide_eq_true hg]
    rfl
  exact .bind unbind_moves fun _ => .pure _

/-- What the consumption of a grant found: its request approved and in force, its target running in a running run, and
the target's lease on the session. -/
structure Consumable (db : Db) (grantId : String) (now : Instant) (use : GrantUse) (lock : FileLockRow) : Prop where
  found : grantUse db grantId = some use
  running : use.target.run.cancelRequestedAt = none ∧ use.target.run.status = .running ∧
    use.target.node.status = .running
  approved : use.request.status = .approved ∧ use.approval.status = .approved ∧
    utcNowText now < use.approval.expiresAt
  locked : db.fileLocks.get? (integrationResource use.target.run.sessionId) = some lock
  held : lock.ownerKind = "agent_task" ∧ lock.ownerOperationId = use.grant.targetTaskId ∧ lock.releasedAt = none ∧
    utcNowText now < lock.leaseExpiresAt
  unspent : use.grant.consumedAt = none ∧ use.grant.revokedAt = none ∧ utcNowText now < use.grant.expiresAt

theorem checkUse_ok {id taskId resource : String} {action : PrivilegeAction} {use : GrantUse} {now : Instant} {db : Db}
    {r : Unit × Db} (h : (checkUse id taskId action resource use now).run db = .ok r) :
    use.grant.targetTaskId = taskId ∧ (use.target.run.cancelRequestedAt = none ∧ use.target.run.status = .running ∧
      use.target.node.status = .running) ∧ use.request.status = .approved ∧ use.approval.status = .approved ∧
      utcNowText now < use.approval.expiresAt := by
  simp only [checkUse, covers, StateT.run_bind, Tx.bind_ok, Tx.ensure_ok, Bool.and_eq_true] at h
  obtain ⟨_, ⟨hgrant, -⟩, _, ⟨hrunning, -⟩, ⟨hrequest, hstatus, hexpiry⟩, -⟩ := h
  obtain ⟨-, -, hrunning⟩ := of_decide_eq_true hrunning
  exact ⟨(of_decide_eq_true hgrant).1, hrunning, of_decide_eq_true hrequest, of_decide_eq_true hstatus,
    of_decide_eq_true hexpiry⟩

theorem checkFence_ok {taskId sid : String} {ws : Option WorkspaceLease} {now : Instant} {db : Db} {r : WorkspaceLease × Db}
    (h : (checkFence taskId sid ws now).run db = .ok r) :
    r.2 = db ∧ ∃ lock, db.fileLocks.get? (integrationResource sid) = some lock ∧ lock.fencingToken = r.1.fencingToken ∧
      lock.ownerKind = "agent_task" ∧ lock.ownerOperationId = taskId ∧ lock.releasedAt = none ∧
      utcNowText now < lock.leaseExpiresAt := by
  simp only [checkFence, StateT.run_bind, Tx.bind_ok, Tx.ensure_ok, Tx.require_ok, TableRef.select_ok, StateT.run_pure,
    Tx.pure_ok] at h
  obtain ⟨⟨ws, _⟩, ⟨-, rfl⟩, _, ⟨howner, rfl⟩, _, ⟨-, rfl⟩, _, rfl, _, ⟨hlock, rfl⟩, rfl⟩ := h
  obtain ⟨lock, hlock, hholds⟩ := (Option.any_eq_true _ _).1 hlock
  obtain ⟨hkind, hop, -, htoken, hreleased, hexpiry⟩ := of_decide_eq_true hholds
  obtain ⟨howner, howns⟩ := of_decide_eq_true howner
  exact ⟨rfl, lock, hlock, htoken, hkind.trans howner, hop.trans howns, hreleased, hexpiry⟩

/-- A grant that was consumed: what was found, and what was written. -/
theorem consumeGrant_ok {id taskId resource : String} {action : PrivilegeAction} {lease : MasterLease}
    {ws : Option WorkspaceLease} {now : Instant} {db db' : Db} {a : CapabilityGrantRow}
    (h : (consumeGrant id taskId action resource lease ws now).run db = .ok (a, db')) :
    ∃ use lock, Consumable db id now use lock ∧
      db'.capabilityGrants.get? id = some { use.grant with
        consumedAt := some (utcNowText now), consumedFencingToken := some lock.fencingToken } ∧
      ∃ request, db'.privilegeRequests.get? use.grant.requestId = some request ∧ request.status = .consumed := by
  simp only [consumeGrant, markConsumed, StateT.run_bind, Tx.bind_ok, Tx.require_ok, Tx.read_ok, StateT.run_pure,
    Tx.pure_ok, TableRef.update_ok] at h
  obtain ⟨⟨_, s⟩, hlease, h⟩ := h
  obtain rfl : s = db := assertMaster_readOnly _ _ _ _ hlease
  obtain ⟨_, rfl, ⟨use, _⟩, ⟨huse, rfl⟩, ⟨_, s⟩, hcheck, h⟩ := h
  obtain rfl : s = _ := checkUse_readOnly _ _ _ _ _ _ _ _ hcheck
  obtain ⟨⟨ws, s⟩, hfence, h⟩ := h
  obtain ⟨rfl, lock, hlock, htoken, hheld⟩ := checkFence_ok hfence
  obtain ⟨⟨_, db₁⟩, ⟨⟨_, db₂⟩, hgrant, ⟨_, db₃⟩, hrequest, _, rfl, hdb₁⟩, _, rfl, ⟨⟨fresh, request, rid⟩, s⟩,
    ⟨-, hs⟩, ⟨_, db₄⟩, hevent, h⟩ := h
  obtain rfl : s = db₁ := hs
  obtain rfl : db' = db₄ := (Prod.mk.inj h).2
  have hquiet : Quiet s db' := by
    simp only [appendGrantEvent, StateT.run_bind, Tx.bind_ok] at hevent
    obtain ⟨⟨_, s'⟩, hrow, hevent⟩ := hevent
    obtain rfl : s' = s := runRow_readOnly _ _ _ hrow
    exact EventRepository.appendIn_quiet hevent
  obtain ⟨htask, hrunning, happroved⟩ := checkUse_ok hcheck
  obtain ⟨row, hrow, hunspent, hwritten, -⟩ := TableRef.cas_writes hgrant
  have hsame : row = use.grant := by
    obtain ⟨g, hg, hrest⟩ := Option.bind_eq_some_iff.1 huse
    obtain rfl := Option.some.inj (hg.symm.trans hrow)
    simp only [Option.bind_eq_some_iff, Option.map_eq_some_iff] at hrest
    obtain ⟨_, -, _, -, _, -, _, -, rfl⟩ := hrest
    rfl
  subst hsame
  obtain ⟨-, -, -, hconsumed, hrevoked, hexpiry⟩ := of_decide_eq_true hunspent
  obtain ⟨request, -, -, hdone, -⟩ := TableRef.cas_writes hrequest
  rw [← htask] at hheld
  refine ⟨use, lock, ⟨huse, hrunning, happroved, hlock, hheld, hconsumed, hrevoked, hexpiry⟩, ?_, ?_⟩
  · obtain rfl := (Prod.mk.inj hdb₁).2
    rw [hquiet.capabilityGrants, htoken]
    obtain ⟨-, hs⟩ := TableRef.cas_ok.1 hrequest
    obtain rfl := (Prod.mk.inj hs).2
    exact hwritten
  · obtain rfl := (Prod.mk.inj hdb₁).2
    rw [hquiet.privilegeRequests]
    exact ⟨_, hdone, rfl⟩

theorem consumeGrant_moves {id taskId resource : String} {action : PrivilegeAction} {lease : MasterLease}
    {ws : Option WorkspaceLease} {now : Instant} {db db' : Db} {a : CapabilityGrantRow}
    (hpower : ∀ use lock, Consumable db id now use lock → K.consumes id)
    (h : (consumeGrant id taskId action resource lease ws now).run db = .ok (a, db')) : Moves K db db' := by
  obtain ⟨use, lock, hconsumable, -⟩ := consumeGrant_ok h
  have hconsumes := hpower use lock hconsumable
  revert h
  refine Tx.Within.bind (assertMaster_readOnly _ _).within (fun _ => ?_) _ _ _
  refine .bind (.read _) fun _ => .bind (.require _ _) fun use => ?_
  refine .bind (checkUse_readOnly _ _ _ _ _ _).within fun _ => .bind (checkFence_readOnly _ _ _ _).within fun _ => ?_
  refine .bind (markConsumed_moves hconsumes _ _ _ _ _ _) fun _ => .bind (.read _) fun _ => .bind (.require _ _) fun p => ?_
  obtain ⟨fresh, request, rid⟩ := p
  exact .bind appendGrantEvent_moves fun _ => .pure _

/-! ## Decisions -/

theorem resumeExpired_moves (repo : ApprovalRepository) (row : PrivilegeRequestRow × NodeRunRow × WorkflowRunRow)
    (lease : MasterLease) (now : Instant) : Tx.Within (Moves K) (resumeExpired repo row lease now) := by
  obtain ⟨request, node, run⟩ := row
  refine .bind appendPrivilegeRequestEvent_moves fun _ => .ite ?_ (.pure _)
  exact rejectPrivilegeIn_moves _ _ _ _ _

theorem expireSubject_moves (repo : ApprovalRepository) (current : ApprovalRow) (lease : MasterLease) (now : Instant) :
    Tx.Within (Moves K) (expireSubject repo current lease now) := by
  unfold expireSubject
  split
  · exact .pure _
  · refine .bind (.read _) fun row => .bind (requestUpdate_moves (fun _ => rfl) fun r hr => ?_) fun changed => ?_
    · have hmem : r.status ∈ [PrivilegeRequestStatus.pending, .waitingApproval] :=
        of_decide_eq_true (Bool.and_eq_true_iff.1 hr).2
      rcases List.mem_pair.1 hmem with h | h <;> rw [h] <;> rfl
    · split
      · exact resumeExpired_moves _ _ _ _
      · exact .pure _

theorem expireIn_moves (repo : ApprovalRepository) (current : ApprovalRow) (lease : MasterLease) (now : Instant) :
    Tx.Within (Moves K) (expireIn repo current lease now) := by
  refine .bind (closeApproval_moves (.inl rfl)) fun _ => .bind (expireSubject_moves _ _ _ _) fun _ => ?_
  exact .bind (TableRef.select_within _) fun _ => .bind (.require _ _) fun _ => appendApprovalEvent_moves

theorem expireDue_moves (repo : ApprovalRepository) (rid : Option String) (lease : MasterLease) (now : Instant) :
    Tx.Within (Moves K) (repo.expireDue rid lease now) := by
  refine .bind (assertMaster_readOnly _ _).within fun _ => .bind (.read _) fun _ => mapEach_within (fun row => ?_) _
  refine .bind (expireIn_moves _ _ _ _) fun _ => .bind (TableRef.select_within _) fun _ => ?_
  exact .bind (.require _ _) fun _ => .pure _

theorem backfill_moves {repo : ApprovalRepository} (hK : K.digests = repo.K) (request : DecisionRequest)
    (current : ApprovalRow) : Tx.Within (Moves K) (backfill repo request current) := by
  refine .check fun hlegacy => .bind (approvalCas_moves fun a hid hg => ?_) fun _ => ?_
  · obtain ⟨-, hstatus, -, hversion, -⟩ := of_decide_eq_true hlegacy
    obtain ⟨hs, hv, hactor, hkey, hsubject, hnone⟩ := of_decide_eq_true hg
    rw [← hK]
    exact .backfill request hid (hs.trans hstatus) hactor (by rw [hv]; exact hversion) hkey hsubject hnone
  · exact .bind (TableRef.select_within _) fun _ => .bind (.require _ _) fun _ => .pure _

theorem replay_moves {repo : ApprovalRepository} (hK : K.digests = repo.K) (request : DecisionRequest)
    (current : ApprovalRow) : Tx.Within (Moves K) (replay repo request current) := by
  unfold replay
  split
  · exact backfill_moves hK _ _
  · exact .bind (.ensure _ _) fun _ => .bind (.ensure _ _) fun _ => .pure _

theorem decideSubject_moves {current : ApprovalRow} {target : Decision}
    (h : current.subjectType = .changeSet → target = .approved →
      K.approves (current.changeSetId.getD "None") .approved) (now : Instant) :
    Tx.Within (Moves K) (decideSubject current target now) := by
  unfold decideSubject
  split
  · next hkind =>
    refine changeSetCas_moves (fun _ => rfl) fun _ _ _ hs => .inr ?_
    cases target with
    | approved => exact h hkind rfl
    | rejected => cases hs
  · refine requestCas_moves (fun _ => rfl) fun r hg => ?_
    rcases List.mem_pair.1 (of_decide_eq_true hg) with h | h <;> rw [h] <;> rfl

/-- An approved request never gets its grant: the retry it needs cannot be created. -/
theorem grantApproved_moves (repo : ApprovalRepository) (current : ApprovalRow) (request : PrivilegeRequestRow)
    (lease : MasterLease) (now : Instant) : Tx.Within (Moves K) (grantApproved repo current request lease now) := by
  intro db a db' h
  unfold grantApproved at h
  rw [StateT.run_bind, Tx.bind_ok] at h
  obtain ⟨_, hraises, -⟩ := h
  exact absurd hraises approvePrivilegeIn_raises

theorem decidePrivilege_moves (repo : ApprovalRepository) (current : ApprovalRow) (target : Decision)
    (lease : MasterLease) (now : Instant) : Tx.Within (Moves K) (decidePrivilege repo current target lease now) := by
  refine .bind (.read _) fun _ => .bind (.require _ _) fun p => ?_
  obtain ⟨request, rid⟩ := p
  refine .bind appendPrivilegeRequestEvent_moves fun _ => ?_
  split
  · exact .pure _
  · exact grantApproved_moves _ _ _ _ _
  · exact rejectPrivilegeIn_moves _ _ _ _ _

theorem advance_moves (repo : ApprovalRepository) (ord : RowOrder) (current : ApprovalRow) (target : Decision)
    (lease : MasterLease) (now : Instant) : Tx.Within (Moves K) (advance repo ord current target lease now) := by
  unfold advance
  split
  · exact .ite (.bind (resumeAfterApprovalIn_moves _ _ _ _ _ _) fun _ => .pure _) (.pure _)
  · exact decidePrivilege_moves _ _ _ _ _

theorem checkDecision_readOnly (request : DecisionRequest) (current : ApprovalRow) :
    Tx.ReadOnly (checkDecision request current) := by
  refine .bind (.ensure _ _) fun _ => .bind (.read _) fun _ => .bind (.require _ _) fun _ => .bind (.ensure _ _) fun _ => ?_
  exact .bind (.ensure _ _) fun _ => .ensure _ _

theorem checkDecision_ok {request : DecisionRequest} {current : ApprovalRow} {db : Db} {r : Unit × Db}
    (h : (checkDecision request current).run db = .ok r) :
    current.subjectSha256 = request.confirmSubjectHash ∧ current.status = .pending ∧
      (current.version : Int) = request.expectedVersion ∧ (∃ run, db.workflowRuns.get? current.workflowRunId = some run ∧
        run.cancelRequestedAt = none ∧ run.status.refusesApproval = false) ∧ r.2 = db := by
  simp only [checkDecision, StateT.run_bind, Tx.bind_ok, Tx.ensure_ok, Tx.require_ok, TableRef.select_ok] at h
  obtain ⟨_, ⟨hsubject, rfl⟩, _, rfl, ⟨run, _⟩, ⟨hrun, rfl⟩, _, ⟨hlive, rfl⟩, _, ⟨hpending, rfl⟩, hversion, rfl⟩ := h
  exact ⟨of_decide_eq_true hsubject, of_decide_eq_true hpending, of_decide_eq_true hversion,
    ⟨run, hrun, of_decide_eq_true hlive⟩, rfl⟩

/-- What a decision that returned had found: a decided approval under its key, or a pending one in force. -/
theorem decide_ok {repo : ApprovalRepository} {ord : RowOrder} {request : DecisionRequest} {lease : MasterLease}
    {now : Instant} {db db' : Db} {a : ApprovalRow} (h : (repo.decide ord request lease now).run db = .ok (a, db')) :
    1 ≤ request.expectedVersion ∧ request.idempotencyKey ≠ "" ∧
      ∃ row, db.approvals.get? request.approvalId = some row ∧
        ((row.status ≠ .pending ∧ (approvalRecord row).decisionIdempotencyKey = some request.idempotencyKey ∧
            (replay repo request (approvalRecord row)).run db = .ok (a, db')) ∨
          (row.status = .pending ∧ (row.version : Int) = request.expectedVersion ∧
            row.subjectSha256 = request.confirmSubjectHash ∧ utcNowText now < row.expiresAt ∧
            (∃ run, db.workflowRuns.get? row.workflowRunId = some run ∧ run.cancelRequestedAt = none ∧
              run.status.refusesApproval = false) ∧
            (decidePending repo ord request (approvalRecord row) lease now).run db = .ok (a, db'))) := by
  simp only [ApprovalRepository.decide, selectApproval, StateT.run_bind, Tx.bind_ok, Tx.ensure_ok, Tx.require_ok,
    TableRef.select_ok] at h
  obtain ⟨_, ⟨hargs, rfl⟩, ⟨_, s⟩, hlease, h⟩ := h
  obtain rfl : s = db := assertMaster_readOnly _ _ _ _ hlease
  obtain ⟨⟨row, _⟩, ⟨_, rfl, hrow, rfl⟩, h⟩ := h
  obtain ⟨hv, hk⟩ := of_decide_eq_true hargs
  refine ⟨hv, hk, row, hrow, ?_⟩
  split at h
  · next hc => exact .inl ⟨hc.1, hc.2, h⟩
  · unfold decideNew at h
    rw [StateT.run_bind, Tx.bind_ok] at h
    obtain ⟨⟨_, s'⟩, hcheck, h⟩ := h
    obtain ⟨hsubject, hpending, hversion, hrun, rfl⟩ := checkDecision_ok hcheck
    dsimp only at h
    split at h
    · rw [StateT.run_bind, Tx.bind_ok] at h
      obtain ⟨_, _, h⟩ := h
      exact (Tx.fail_ok.1 h).elim
    · next hexp => exact .inr ⟨hpending, hversion, hsubject, lt_of_not_ge hexp, hrun, h⟩

/-- What a decision of a pending approval writes to it. -/
theorem recordDecision_moves {repo : ApprovalRepository} (hK : K.digests = repo.K) {request : DecisionRequest}
    (hdecide : K.decides request.approvalId) {now : Instant} {db db' : Db} {u : Unit} {row : ApprovalRow}
    (hrow : db.approvals.get? request.approvalId = some row) (hexpiry : utcNowText now < row.expiresAt)
    (h : (recordDecision repo request now).run db = .ok (u, db')) : Moves K db db' := by
  simp only [recordDecision, StateT.run_bind, Tx.bind_ok, Tx.ensure_ok] at h
  obtain ⟨_, ⟨-, rfl⟩, h⟩ := h
  obtain ⟨⟨row', hrow', hg⟩, hs⟩ := TableRef.cas_ok.1 h
  obtain rfl : row' = row := Option.some.inj (hrow'.symm.trans hrow)
  obtain ⟨hpending, hversion, hsubject⟩ := of_decide_eq_true hg
  have hid : row'.id = request.approvalId := Table.get?_key hrow
  rw [(Prod.mk.inj hs).2, ← hK]
  refine Moves.approvalsTo (.updateKey hrow (.single ?_))
  exact .decide request now hid (by rw [hid]; exact hdecide) hpending hversion hsubject hexpiry

/-- The powers a decision may use: it decides a pending approval and may approve its ChangeSet. -/
def Decides (K : Powers) (db : Db) (request : DecisionRequest) : Prop :=
  ∀ row, db.approvals.get? request.approvalId = some row → row.status = .pending → K.decides request.approvalId ∧
    (row.subjectType = .changeSet → request.target = .approved → K.approves (row.changeSetId.getD "None") .approved)

/-- What follows the record of a decision moves rows too. -/
theorem decidePending_moves {repo : ApprovalRepository} (hK : K.digests = repo.K) {ord : RowOrder}
    {request : DecisionRequest} {row : ApprovalRow} {lease : MasterLease} {now : Instant} {db db' : Db} {a : ApprovalRow}
    (hdecide : K.decides request.approvalId ∧
      (row.subjectType = .changeSet → request.target = .approved → K.approves (row.changeSetId.getD "None") .approved))
    (hrow : db.approvals.get? request.approvalId = some row) (hexpiry : utcNowText now < row.expiresAt)
    (h : (decidePending repo ord request (approvalRecord row) lease now).run db = .ok (a, db')) : Moves K db db' := by
  unfold decidePending at h
  rw [StateT.run_bind, Tx.bind_ok] at h
  obtain ⟨⟨_, db₁⟩, hrecord, h⟩ := h
  refine trans_of (Moves K) (recordDecision_moves hK hdecide.1 hrow hexpiry hrecord) ?_
  refine Tx.Within.bind (decideSubject_moves hdecide.2 _) (fun _ => .bind (advance_moves _ _ _ _ _ _) fun _ => ?_) _ _ _ h
  refine .bind (TableRef.select_within _) fun _ => .bind (.require _ _) fun _ => ?_
  exact .bind appendApprovalEvent_moves fun _ => .pure _

theorem decide_moves {repo : ApprovalRepository} (hK : K.digests = repo.K) {ord : RowOrder} {request : DecisionRequest}
    {lease : MasterLease} {now : Instant} {db db' : Db} {a : ApprovalRow} (hdecide : Decides K db request)
    (h : (repo.decide ord request lease now).run db = .ok (a, db')) : Moves K db db' := by
  obtain ⟨-, -, row, hrow, ⟨-, -, h⟩ | ⟨hpending, -, -, hexpiry, -, h⟩⟩ := decide_ok h
  · exact replay_moves hK _ _ _ _ _ h
  · exact decidePending_moves hK (hdecide row hrow hpending) hrow hexpiry h

theorem checkRenewal_ok {old : ApprovalRow} {new : ChangeSetApproval} {now : Instant} {db : Db} {r : Unit × Db}
    (h : (checkRenewal old new now).run db = .ok r) : new.changeSetId = old.changeSetId.getD "None" ∧
      new.baseCommit = old.baseCommit.getD "None" ∧ new.patchSha256 = old.patchSha256.getD "None" ∧
      new.workflowRunId = old.workflowRunId ∧ new.nodeRunId = old.nodeRunId ∧ new.effectiveRisk ≠ .l4 ∧
      (∃ c, db.changeSets.get? new.changeSetId = some c ∧ c.status = .pendingApproval) ∧ r.2 = db := by
  simp only [checkRenewal, StateT.run_bind, Tx.bind_ok, Tx.ensure_ok, TableRef.select_ok] at h
  obtain ⟨_, ⟨hid, rfl⟩, _, ⟨hsame, rfl⟩, _, ⟨-, rfl⟩, _, ⟨-, rfl⟩, _, ⟨hrisk, rfl⟩, _, ⟨-, rfl⟩, _, rfl, _, ⟨-, rfl⟩, _, rfl,
    hpending, rfl⟩ := h
  have hid := of_decide_eq_true hid
  obtain ⟨hrun, hnode, hbase, hpatch, -⟩ := of_decide_eq_true hsame
  obtain ⟨c, hc, hstatus⟩ := (Option.any_eq_true _ _).1 hpending
  exact ⟨hid, hbase, hpatch, hrun, hnode, of_decide_eq_true hrisk, ⟨c, by rw [hid]; exact hc, of_decide_eq_true hstatus⟩, rfl⟩

theorem checkRenewable_ok {old : ApprovalRow} {version : Int} {hash : String} {db : Db} {r : Unit × Db}
    (h : (checkRenewable old version hash).run db = .ok r) :
    old.subjectType = .changeSet ∧ old.status = .expired ∧ (∃ run, db.workflowRuns.get? old.workflowRunId = some run ∧
      run.cancelRequestedAt = none ∧ run.status.refusesApproval = false) ∧ r.2 = db := by
  simp only [checkRenewable, StateT.run_bind, Tx.bind_ok, Tx.ensure_ok, TableRef.select_ok] at h
  obtain ⟨_, ⟨htype, rfl⟩, _, ⟨hexpired, rfl⟩, _, ⟨-, rfl⟩, _, ⟨-, rfl⟩, _, rfl, hlive, rfl⟩ := h
  obtain ⟨run, hrun, hlive⟩ := (Option.any_eq_true _ _).1 hlive
  exact ⟨of_decide_eq_true htype, of_decide_eq_true hexpired, ⟨run, hrun, of_decide_eq_true hlive⟩, rfl⟩

/-- A renewal that returned: the checks it made on the old approval, and the insert that follows them. -/
theorem renewChangeset_ok {oldId : String} {version : Int} {hash : String} {new : ChangeSetApproval}
    {lease : MasterLease} {now : Instant} {db db' : Db} {a : ApprovalRow}
    (h : (renewChangeset oldId version hash new lease now).run db = .ok (a, db')) :
    ∃ old, db.approvals.get? oldId = some old ∧
      (checkRenewable (approvalRecord old) version hash).run db = .ok ((), db) ∧
      (checkRenewal (approvalRecord old) new now).run db = .ok ((), db) ∧
      ∃ db₁, (insertApproval (changeSetRow new none now)).run db = .ok ((), db₁) ∧ Quiet db₁ db' := by
  simp only [renewChangeset, selectApproval, StateT.run_bind, Tx.bind_ok, Tx.require_ok, TableRef.select_ok,
    StateT.run_pure, Tx.pure_ok] at h
  obtain ⟨⟨_, s⟩, hlease, h⟩ := h
  obtain rfl : s = db := assertMaster_readOnly _ _ _ _ hlease
  obtain ⟨⟨old, _⟩, ⟨_, rfl, hold, rfl⟩, ⟨_, s₁⟩, hrenewable, ⟨_, s₂⟩, hrenewal, ⟨_, db₁⟩, hinsert, h⟩ := h
  obtain rfl : s₁ = _ := (checkRenewable_ok hrenewable).2.2.2
  obtain rfl : s₂ = _ := (checkRenewal_ok hrenewal).2.2.2.2.2.2.2
  refine ⟨old, hold, hrenewable, hrenewal, db₁, hinsert, ?_⟩
  obtain ⟨⟨_, db₂⟩, hevent, _, rfl, _, ⟨-, rfl⟩, h⟩ := h
  rw [(Prod.mk.inj h).2]
  unfold appendApprovalEvent at hevent
  rw [StateT.run_bind, Tx.bind_ok] at hevent
  obtain ⟨⟨run, s⟩, hrun, hevent⟩ := hevent
  obtain rfl : s = db₁ := (runRow_ok.1 hrun).2
  exact EventRepository.appendIn_quiet hevent

theorem renewChangeset_moves {new : ChangeSetApproval} {now : Instant} (hopen : K.opens (changeSetRow new none now))
    (oldId : String) (version : Int) (hash : String) (lease : MasterLease) :
    Tx.Within (Moves K) (renewChangeset oldId version hash new lease now) := by
  intro db a db' h
  obtain ⟨old, -, -, hrenewal, db₁, hinsert, hquiet⟩ := renewChangeset_ok h
  have hrisk := (checkRenewal_ok hrenewal).2.2.2.2.2.1
  exact trans_of (Moves K) (insertApproval_moves (changeSetRow_new hopen hrisk) _ _ _ hinsert) hquiet.moves

end ApprovalRepository

end AgentHub
