import AgentHub.Storage.Approvals.Subjects
/-!
# The privilege gate

A decision on a privilege request ends the task that asked for it, and the statement that does names a column
the table lacks. So the gate neither opens nor closes: a wired decision raises, and what expires or is decided
without the workflow-run repository leaves the waiting attempt as it is.
-/

namespace AgentHub

open Lib WorkflowRunRepository

/-- `db'` has the work of `db`: its runs, node runs, tasks and grants. -/
structure SameWork (db db' : Db) : Prop where
  runs : ∀ id, db'.run? id = db.run? id
  nodeRuns : db'.nodeRuns = db.nodeRuns
  tasks : db'.tasks = db.tasks
  capabilityGrants : db'.capabilityGrants = db.capabilityGrants

instance : IsPreorder Db SameWork where
  refl _ := ⟨fun _ => rfl, rfl, rfl, rfl⟩
  trans _ _ _ h h' := ⟨fun id => (h'.runs id).trans (h.runs id), h'.nodeRuns.trans h.nodeRuns, h'.tasks.trans h.tasks,
    h'.capabilityGrants.trans h.capabilityGrants⟩

theorem Quiet.sameWork {db db' : Db} (h : Quiet db db') : SameWork db db' :=
  ⟨h.runs, h.nodeRuns, h.tasks, h.capabilityGrants⟩

theorem sameWork_approvals (db : Db) (t) : SameWork db { db with approvals := t } := ⟨fun _ => rfl, rfl, rfl, rfl⟩
theorem sameWork_requests (db : Db) (t) : SameWork db { db with privilegeRequests := t } := ⟨fun _ => rfl, rfl, rfl, rfl⟩
theorem sameWork_changeSets (db : Db) (t) : SameWork db { db with changeSets := t } := ⟨fun _ => rfl, rfl, rfl, rfl⟩

namespace ApprovalRepository

theorem appendApprovalEvent_sameWork (approval : ApprovalRow) (previous : Option ApprovalStatus) (lease : MasterLease)
    (reason : Option String) (now : Instant) :
    Tx.Within SameWork (appendApprovalEvent approval previous lease reason now) :=
  .bind (runRow_readOnly _).within fun _ => fun _ _ _ h => (EventRepository.appendIn_quiet h).sameWork

theorem appendPrivilegeRequestEvent_sameWork (rid nid tid id : String) (previous : Option String) (status : String)
    (lease : MasterLease) (reason : Option String) (now : Instant) :
    Tx.Within SameWork (appendPrivilegeRequestEvent rid nid tid id previous status lease reason now) :=
  .bind (runRow_readOnly _).within fun _ => fun _ _ _ h => (EventRepository.appendIn_quiet h).sameWork

/-! ## Expiry -/

/-- Rejecting a waiting attempt never returns. -/
theorem rejectPrivilegeIn_raises {H : Digests} {rid id : String} {lease : MasterLease} {now : Instant} {db : Db}
    {r : Unit × Db} : (resumePrivilegeAfterApprovalIn H rid id false lease now).run db ≠ .ok r := by
  intro h
  simp only [resumePrivilegeAfterApprovalIn, StateT.run_bind, Tx.bind_ok] at h
  obtain ⟨_, -, _, -, _, -, h⟩ := h
  exact (Tx.fail_ok.1 h).elim

theorem resumeExpired_sameWork (repo : ApprovalRepository) (row : PrivilegeRequestRow × NodeRunRow × WorkflowRunRow)
    (lease : MasterLease) (now : Instant) : Tx.Within SameWork (resumeExpired repo row lease now) := by
  obtain ⟨request, node, run⟩ := row
  refine .bind (appendPrivilegeRequestEvent_sameWork _ _ _ _ _ _ _ _ _) fun _ => .ite ?_ (.pure _)
  exact fun _ _ _ h => absurd h rejectPrivilegeIn_raises

theorem expireSubject_sameWork (repo : ApprovalRepository) (current : ApprovalRow) (lease : MasterLease) (now : Instant) :
    Tx.Within SameWork (expireSubject repo current lease now) := by
  unfold expireSubject
  split
  · exact .pure _
  · refine .bind (.read _) fun row => .bind (TableRef.update_within sameWork_requests) fun changed => ?_
    split
    · exact resumeExpired_sameWork _ _ _ _
    · exact .pure _

theorem expireIn_sameWork (repo : ApprovalRepository) (current : ApprovalRow) (lease : MasterLease) (now : Instant) :
    Tx.Within SameWork (expireIn repo current lease now) := by
  refine .bind (TableRef.cas_within sameWork_approvals) fun _ => .bind (expireSubject_sameWork _ _ _ _) fun _ => ?_
  exact .bind (TableRef.select_within _) fun _ => .bind (.require _ _) fun _ => appendApprovalEvent_sameWork _ _ _ _ _

/-- Expiry never touches the work that waits. -/
theorem expireDue_sameWork (repo : ApprovalRepository) (rid : Option String) (lease : MasterLease) (now : Instant) :
    Tx.Within SameWork (repo.expireDue rid lease now) := by
  refine .bind (assertMaster_readOnly _ _).within fun _ => .bind (.read _) fun _ => mapEach_within (fun row => ?_) _
  refine .bind (expireIn_sameWork _ _ _ _) fun _ => .bind (TableRef.select_within _) fun _ => ?_
  exact .bind (.require _ _) fun _ => .pure _

/-! ## Decisions -/

section
variable {repo : ApprovalRepository} {ord : RowOrder} {lease : MasterLease} {now : Instant} {db : Db}

/-- A wired decision of a privilege request never gets past what it does to the waiting attempt. -/
theorem decidePrivilege_raises (hruns : repo.runs = true) {current : ApprovalRow} {target : Decision} {r : Unit × Db} :
    (decidePrivilege repo current target lease now).run db ≠ .ok r := by
  intro h
  simp only [decidePrivilege, StateT.run_bind, Tx.bind_ok, Tx.require_ok, Tx.read_ok] at h
  obtain ⟨_, rfl, ⟨⟨request, rid⟩, _⟩, ⟨-, rfl⟩, _, -, h⟩ := h
  rw [hruns] at h
  cases target with
  | approved =>
    simp only [grantApproved, StateT.run_bind, Tx.bind_ok] at h
    obtain ⟨_, hraises, -⟩ := h
    exact approvePrivilegeIn_raises hraises
  | rejected => exact rejectPrivilegeIn_raises h

/-- Without the workflow-run repository a decision of a privilege request does nothing to the work. -/
theorem decidePrivilege_sameWork (repo : ApprovalRepository) (current : ApprovalRow) (target : Decision) :
    Tx.Within SameWork (decidePrivilege repo current target lease now) := by
  cases hruns : repo.runs with
  | true => exact fun _ _ _ h => absurd h (decidePrivilege_raises hruns)
  | false =>
    refine .bind (.read _) fun _ => .bind (.require _ _) fun p => ?_
    obtain ⟨request, rid⟩ := p
    refine .bind (appendPrivilegeRequestEvent_sameWork _ _ _ _ _ _ _ _ _) fun _ => ?_
    rw [hruns]
    exact .pure _

/-- The subject of a decision is its request, which is no work. -/
theorem decideSubject_sameWork (current : ApprovalRow) (target : Decision) :
    Tx.Within SameWork (decideSubject current target now) := by
  unfold decideSubject
  split
  · exact TableRef.cas_within sameWork_changeSets
  · exact TableRef.cas_within sameWork_requests

theorem recordDecision_sameWork (repo : ApprovalRepository) (request : DecisionRequest) :
    Tx.Within SameWork (recordDecision repo request now) :=
  .bind (.ensure _ _) fun _ => TableRef.cas_within sameWork_approvals

theorem decidePending_sameWork {request : DecisionRequest} {current : ApprovalRow}
    (hprivilege : current.subjectType = .privilegeRequest) :
    Tx.Within SameWork (decidePending repo ord request current lease now) := by
  have hadvance : Tx.Within SameWork (advance repo ord current request.target lease now) := by
    unfold advance
    rw [hprivilege]
    exact decidePrivilege_sameWork _ _ _
  refine .bind (recordDecision_sameWork _ _) fun _ => .bind (decideSubject_sameWork _ _) fun _ => .bind hadvance fun _ => ?_
  refine .bind (TableRef.select_within _) fun _ => .bind (.require _ _) fun _ => ?_
  exact .bind (appendApprovalEvent_sameWork _ _ _ _ _) fun _ => .pure _

theorem decidePending_raises (hruns : repo.runs = true) {request : DecisionRequest} {current : ApprovalRow}
    (hprivilege : current.subjectType = .privilegeRequest) {r : ApprovalRow × Db} :
    (decidePending repo ord request current lease now).run db ≠ .ok r := by
  intro h
  simp only [decidePending, advance, hprivilege, StateT.run_bind, Tx.bind_ok] at h
  obtain ⟨_, -, _, -, _, hadvance, -⟩ := h
  exact decidePrivilege_raises hruns hadvance

/-- A decision of a pending privilege approval leaves the work as it is, and a wired one raises. -/
theorem decide_privilege {request : DecisionRequest} {row : ApprovalRow} (hrow : db.approvals.get? request.approvalId = some row)
    (hpending : row.status = .pending) (hprivilege : row.subjectType = .privilegeRequest) {a : ApprovalRow} {db' : Db}
    (h : (repo.decide ord request lease now).run db = .ok (a, db')) : SameWork db db' ∧ repo.runs = false := by
  obtain ⟨-, -, row', hrow', ⟨hdecided, -⟩ | ⟨-, -, -, -, -, h⟩⟩ := decide_ok h
  · rw [Option.some.inj (hrow'.symm.trans hrow)] at hdecided
    exact absurd hpending hdecided
  · obtain rfl : row' = row := Option.some.inj (hrow'.symm.trans hrow)
    refine ⟨decidePending_sameWork hprivilege _ _ _ h, ?_⟩
    cases hruns : repo.runs with
    | false => rfl
    | true => exact absurd h (decidePending_raises hruns hprivilege)

end

end ApprovalRepository

/-! ## The gate -/

/-- A privilege approval with what it decides about: the request, the attempt that waits, its run and its task. -/
structure PrivilegeGate where
  approval : ApprovalRow
  request : PrivilegeRequestRow
  node : NodeRunRow
  run : WorkflowRunRow
  task : TaskRow

namespace PrivilegeGate

/-- The gate is in `db`, and waits for its decision. -/
structure Waits (g : PrivilegeGate) (db : Db) : Prop where
  approval : db.approvals.get? g.approval.id = some g.approval
  pending : g.approval.status = .pending
  subject : g.approval.subjectType = .privilegeRequest ∧ g.approval.privilegeRequestId = some g.request.id
  request : db.privilegeRequests.get? g.request.id = some g.request
  node : db.nodeRuns.get? g.approval.nodeRunId = some g.node
  lineage : g.request.nodeRunId = g.node.id ∧ g.request.taskId = g.task.id ∧ g.node.workflowRunId = g.run.id
  attempt : g.node.status = .waitingApproval ∧ g.node.attempt < 2
  run : db.workflowRuns.get? g.approval.workflowRunId = some g.run
  waiting : g.run.status = .waitingApproval ∧ g.run.cancelRequestedAt = none
  task : db.tasks.get? g.task.id = some g.task ∧ g.task.nodeRunId = g.node.id
  asked : g.task.status = .privilegeRequested

/-- An unspent grant of what was asked, for a task. -/
def Grants (g : PrivilegeGate) (taskId : String) (grant : CapabilityGrantRow) : Prop :=
  grant.targetTaskId = taskId ∧ (grant.action, grant.resource) = (g.request.action, g.request.resource) ∧ ¬ grant.Spent

/-- A later attempt of the node that waited. -/
def Retries (g : PrivilegeGate) (n : NodeRunRow) : Prop :=
  (n.workflowRunId, n.nodeId) = (g.node.workflowRunId, g.node.nodeId) ∧ g.node.attempt < n.attempt

/-- What an approval is to leave: the attempt superseded by the next one, which is ready with the grant. -/
structure Opened (g : PrivilegeGate) (db : Db) : Prop where
  task : ∃ t, db.tasks.get? g.task.id = some t ∧ t.status = .cancelled
  node : ∃ n, db.nodeRuns.get? g.node.id = some n ∧ n.status = .superseded
  run : ∃ r, db.workflowRuns.get? g.run.id = some r ∧ r.status = .running
  retry : ∃! n, n ∈ db.nodeRuns.rows ∧ g.Retries n ∧ n.attempt = g.node.attempt + 1 ∧ n.status = .ready ∧
    ∃! t, t ∈ db.tasks.rows ∧ t.nodeRunId = n.id ∧ t.status = .pending ∧
      ∃! grant, grant ∈ db.capabilityGrants.rows ∧ g.Grants t.id grant

/-- What a rejection or an expiry is to leave: the attempt rejected, and no other in its place. -/
structure Closed (g : PrivilegeGate) (db : Db) : Prop where
  task : ∃ t, db.tasks.get? g.task.id = some t ∧ t.status = .failed
  node : ∃ n, db.nodeRuns.get? g.node.id = some n ∧ n.status = .completed ∧ n.outcome = some .rejected
  run : ∃ r, db.workflowRuns.get? g.run.id = some r ∧ r.status ≠ .waitingApproval
  retry : ∀ n ∈ db.nodeRuns.rows, g.Retries n → n.status.isTerminal = true

section
variable {g : PrivilegeGate} {db db' : Db}

/-- The task of a gate that waits has asked, and still does after any step that leaves the work as it is. -/
theorem Waits.stuck (h : g.Waits db) (hsame : SameWork db db') : ¬ g.Opened db' ∧ ¬ g.Closed db' := by
  have htask : db'.tasks.get? g.task.id = some g.task := by
    rw [hsame.tasks]
    exact h.task.1
  refine ⟨fun hopened => ?_, fun hclosed => ?_⟩
  · obtain ⟨t, ht, hstatus⟩ := hopened.task
    rw [← Option.some.inj (htask.symm.trans ht), h.asked] at hstatus
    cases hstatus
  · obtain ⟨t, ht, hstatus⟩ := hclosed.task
    rw [← Option.some.inj (htask.symm.trans ht), h.asked] at hstatus
    cases hstatus

end

end PrivilegeGate

theorem ApprovalSteps.subjectType {K : Powers} {a a' : ApprovalRow} (h : ApprovalSteps K a a') :
    a'.subjectType = a.subjectType := congrArg (fun t => t.2.1.1) h.terms

/-- Nor does a gate come about: no call inserts an approval of a privilege request. -/
theorem privilegeGate_unreachable {repo : ApprovalRepository} {db db' : Db} (hrun : StoreRun repo db db')
    (hnone : ∀ a ∈ db.approvals.rows, a.subjectType = .changeSet) (g : PrivilegeGate) : ¬ g.Waits db' := by
  intro h
  have hsubject : g.approval.subjectType = .changeSet := by
    rcases hold : db.approvals.get? g.approval.id with _ | row
    · obtain ⟨row, hnew, hsteps⟩ := hrun.moves.approvals.added _ _ hold h.approval
      exact hsteps.subjectType.trans hnew.subject
    · obtain ⟨row', hrow', hsteps⟩ := hrun.moves.approvals.kept _ _ hold
      obtain rfl := Option.some.inj (hrow'.symm.trans h.approval)
      exact hsteps.subjectType.trans (hnone row (Table.mem_of_get? hold))
  rw [h.subject.1] at hsubject
  cases hsubject

/-! ## A sample gate that waits -/

open ApprovalRepository (sampleApprovals sampleRequest)

def waitingGate : PrivilegeGate where
  approval := ⟨"first", "r", "rwrite", .privilegeRequest, none, some "q", "subject", none, none, "e", .l2, [], .pending, 1,
    none, none, none, utcNowText ⟨1, one_lt_maxMicros⟩, none, ""⟩
  request := { id := "q", taskId := "t", nodeRunId := "rwrite", action := "edit_project_config", resource := "a",
               resourceSeal := ⟨some ApprovalRepository.sealSchema, []⟩, effectiveRisk := .l2, status := .pending,
               createdAt := "" }
  node := { id := "rwrite", workflowRunId := "r", nodeId := "write", nodeType := .agentTask, status := .waitingApproval,
            createdAt := "", errorCode := some "privilege_pending:first" }
  run := { sampleRunRow with status := .waitingApproval }
  task := ⟨"t", "rwrite", "g", "0", none, none, .privilegeRequested, "", some ""⟩

/-- The sample repository, with ids that tell attempts apart. -/
def retryApprovals : ApprovalRepository := { sampleApprovals with
  H := { sampleDigests with nodeRunId rid id attempt := rid ++ id ++ String.ofList (List.replicate attempt 'x') } }

/-- The sample run, waiting for its privilege approval. -/
def waitingDb : Db := { sampleDb with
  workflowRuns := ⟨[waitingGate.run], by decide, by decide⟩
  nodeRuns := ⟨[waitingGate.node], by decide, by decide⟩
  tasks := ⟨[waitingGate.task], by decide, by decide⟩
  approvals := ⟨[waitingGate.approval], by decide, by decide⟩
  privilegeRequests := ⟨[waitingGate.request], by decide, by decide⟩ }

theorem waitingGate_waits : waitingGate.Waits waitingDb where
  approval := rfl
  pending := rfl
  subject := ⟨rfl, rfl⟩
  request := rfl
  node := rfl
  lineage := ⟨rfl, rfl, rfl⟩
  attempt := ⟨rfl, by decide⟩
  run := rfl
  waiting := ⟨rfl, rfl⟩
  task := ⟨rfl, rfl⟩
  asked := rfl

end AgentHub
