import AgentHub.Storage.Approvals.Grants
/-!
# Decisions, expiry and renewal

`decide` is a replay when the approval already carries the caller's key, and a decision otherwise. A
decision moves the approval, its subject and the waiting node run in one transaction.
-/

namespace AgentHub

open Lib

def ApprovalStatus.value : ApprovalStatus → String
  | .pending => "pending" | .approved => "approved" | .rejected => "rejected" | .expired => "expired"
  | .invalidated => "invalidated"

/-- The two targets a decision has. -/
inductive Decision where
  | approved | rejected
  deriving DecidableEq, Repr

def Decision.status : Decision → ApprovalStatus
  | .approved => .approved | .rejected => .rejected

def PrivilegeAction.ofValue (value : String) : Option PrivilegeAction :=
  [PrivilegeAction.editDependencyManifest, .editProjectConfig].find? fun a => a.value = value

/-- What a caller of `decide` sends, and what its request digest covers. -/
structure DecisionRequest where
  approvalId : String
  expectedVersion : Int
  confirmSubjectHash : String
  target : Decision
  actorId : String
  idempotencyKey : String
  deriving DecidableEq, Repr

/-- The digests of this repository: SHA-256 of a decision request as 64 hex digits, and the id of a grant. -/
structure ApprovalDigests where
  decisionRequest : DecisionRequest → String
  decisionRequest_length : ∀ r, (decisionRequest r).length = 64
  grantId : String → String → PrivilegeAction → String → String

/-- The repository: its digests, whether the workflow-run repository is wired in, and how long a grant lives. -/
structure ApprovalRepository where
  H : Digests
  K : ApprovalDigests
  runs : Bool
  grantTtlSeconds : Nat := 900
  positive : 0 < grantTtlSeconds

namespace ApprovalRepository

/-! ## Expiry -/

/-- A request with its node run and run. -/
def requestWithNode (db : Db) (requestId : String) : Option (PrivilegeRequestRow × NodeRunRow × WorkflowRunRow) :=
  (db.privilegeRequests.get? requestId).bind fun request =>
    (WorkflowRunRepository.nodeWithRun db request.nodeRunId).map fun p => (request, p.1, p.2)

/-- The event of an expired request; a node run that waits for it is resumed as rejected. -/
def resumeExpired (repo : ApprovalRepository) (row : PrivilegeRequestRow × NodeRunRow × WorkflowRunRow)
    (lease : MasterLease) (now : Instant) : Op Unit := do
  let (request, node, run) := row
  appendPrivilegeRequestEvent run.id request.nodeRunId request.taskId request.id (some request.status.value)
    PrivilegeRequestStatus.expired.value lease (some "expired") now
  if repo.runs ∧ node.status = .waitingApproval ∧ run.status = .waitingApproval ∧ run.cancelRequestedAt = none then
    WorkflowRunRepository.resumePrivilegeAfterApprovalIn repo.H run.id request.nodeRunId false lease now
  else pure ()

/-- What becomes of the subject of an expired approval: a ChangeSet keeps waiting. -/
def expireSubject (repo : ApprovalRepository) (current : ApprovalRow) (lease : MasterLease) (now : Instant) : Op Unit :=
  match current.subjectType with
  | .changeSet => pure ()
  | .privilegeRequest => do
    let requestId := current.privilegeRequestId.getD "None"
    let row ← Tx.read fun db => requestWithNode db requestId
    let changed ← Db.privilegeRequestsT.update
      (fun r => decide (r.id = requestId) && decide (r.status ∈ [.pending, .waitingApproval]))
      (fun r => { r with status := .expired }) (fun _ => rfl) (fun _ => rfl)
    match changed, row with
    | 1, some row => resumeExpired repo row lease now
    | _, _ => pure ()

/-- `_expire_in`. -/
def expireIn (repo : ApprovalRepository) (current : ApprovalRow) (lease : MasterLease) (now : Instant) : Op Unit := do
  Db.approvalsT.cas current.id (fun a => a.status = .pending ∧ a.version = current.version)
    (fun a => { a with status := .expired, version := a.version + 1, decidedAt := some (utcNowText now) })
    (fun _ => rfl) (fun _ => rfl) (.concurrencyConflict "approval expiry lost CAS")
  expireSubject repo current lease now
  let fresh ← Db.approvalsT.select current.id
  let fresh ← Tx.require fresh (.runtimeError "assert fresh is not None")
  appendApprovalEvent fresh (some current.status) lease (some "expired") now

/-- Expire one approval that is due. -/
def expireOne (repo : ApprovalRepository) (lease : MasterLease) (now : Instant) (row : ApprovalRow) :
    Op ApprovalRow := do
  expireIn repo (approvalRecord row) lease now
  let fresh ← Db.approvalsT.select row.id
  let fresh ← Tx.require fresh (.runtimeError "assert fresh is not None")
  return approvalRecord fresh

/-- The pending approvals that are due, of one run or of all. -/
def due (db : Db) (workflowRunId : Option String) (now : Instant) : List ApprovalRow :=
  db.approvals.rows.filter fun a => decide (a.status = .pending) && decide (a.expiresAt ≤ utcNowText now) &&
    workflowRunId.all fun rid => a.workflowRunId = rid

def expireDue (repo : ApprovalRepository) (workflowRunId : Option String) (lease : MasterLease) (now : Instant) :
    Op (List ApprovalRow) := do
  MasterLeaseRepository.assertValidIn lease now
  let rows ← Tx.read fun db => due db workflowRunId now
  mapEach (expireOne repo lease now) rows

/-! ## Replays -/

/-- A decision recorded before requests had digests is the same when its columns are; the digest is then
filled in. -/
def backfill (repo : ApprovalRepository) (request : DecisionRequest) (current : ApprovalRow) : Op ApprovalRow := do
  Tx.ensure ((current.status = .approved ∨ current.status = .rejected) ∧ current.status = request.target.status ∧
      current.decisionActor = some request.actorId ∧ (current.version : Int) = request.expectedVersion + 1 ∧
      current.subjectSha256 = request.confirmSubjectHash)
    (.idempotencyConflict "legacy approval idempotency key was reused with a different request")
  Db.approvalsT.cas request.approvalId
    (fun a => a.status = current.status ∧ a.version = current.version ∧ a.decisionActor = some request.actorId ∧
      a.decisionIdempotencyKey = some request.idempotencyKey ∧ a.subjectSha256 = request.confirmSubjectHash ∧
      a.decisionRequestSha256 = none)
    (fun a => { a with decisionRequestSha256 := some (repo.K.decisionRequest request) }) (fun _ => rfl) (fun _ => rfl)
    (.idempotencyConflict "legacy approval idempotency backfill lost its CAS")
  let row ← Db.approvalsT.select request.approvalId
  let row ← Tx.require row (.runtimeError "assert row is not None")
  return approvalRecord row

/-- A decided approval asked for again under its key. -/
def replay (repo : ApprovalRepository) (request : DecisionRequest) (current : ApprovalRow) : Op ApprovalRow :=
  match current.decisionRequestSha256 with
  | none => backfill repo request current
  | some stored => do
    Tx.ensure (stored = repo.K.decisionRequest request)
      (.idempotencyConflict "approval idempotency key was reused with a different request")
    Tx.ensure (current.status = request.target.status)
      (.idempotencyConflict "approval idempotency key was reused with a different target")
    return current

/-! ## Decisions -/

/-- Move the subject of a decided approval. -/
def decideSubject (current : ApprovalRow) (target : Decision) (now : Instant) : Op Unit :=
  match current.subjectType with
  | .changeSet =>
    Db.changeSetsT.cas (current.changeSetId.getD "None") (fun c => c.status = .pendingApproval)
      (fun c => { c with status := if target = .approved then .approved else .rejected, updatedAt := utcNowText now })
      (fun _ => rfl) (fun _ => rfl) (.concurrencyConflict "approval subject transition lost CAS")
  | .privilegeRequest =>
    Db.privilegeRequestsT.cas (current.privilegeRequestId.getD "None")
      (fun r => r.status ∈ [.pending, .waitingApproval])
      (fun r => { r with status := if target = .approved then .approved else .rejected })
      (fun _ => rfl) (fun _ => rfl) (.concurrencyConflict "approval subject transition lost CAS")

/-- Create the retry of an approved request and grant it the capability, which ends with the approval or
after `grantTtlSeconds`, whichever comes first. -/
def grantApproved (repo : ApprovalRepository) (current : ApprovalRow) (request : PrivilegeRequestRow)
    (lease : MasterLease) (now : Instant) : Op Unit := do
  let targetTaskId ← WorkflowRunRepository.approvePrivilegeIn repo.H current.workflowRunId current.nodeRunId current.id now
  let later ← Tx.require (now.addSeconds repo.grantTtlSeconds) .overflowError
  let action ← Tx.require (PrivilegeAction.ofValue request.action) (.valueError "PrivilegeAction")
  let grant := ⟨repo.K.grantId request.id targetTaskId action request.resource, request.id, targetTaskId, action,
    request.resource⟩
  let _ ← createApprovedGrantIn repo.H grant (min current.expiresAt (utcNowText later)) current.workflowRunId
    request.taskId lease now
  pure ()

/-- The event of a decided request, and what the decision does to the node run that waits for it. -/
def decidePrivilege (repo : ApprovalRepository) (current : ApprovalRow) (target : Decision) (lease : MasterLease)
    (now : Instant) : Op Unit := do
  let row ← Tx.read fun db => requestWithRun db (current.privilegeRequestId.getD "None")
  let (request, workflowRunId) ← Tx.require row (.runtimeError "assert request_row is not None")
  appendPrivilegeRequestEvent workflowRunId request.nodeRunId request.taskId request.id
    (some PrivilegeRequestStatus.waitingApproval.value) request.status.value lease
    (some ("approval_decision:" ++ target.status.value)) now
  match repo.runs, target with
  | false, _ => pure ()
  | true, .approved => grantApproved repo current request lease now
  | true, .rejected =>
    WorkflowRunRepository.resumePrivilegeAfterApprovalIn repo.H current.workflowRunId current.nodeRunId false lease now

/-- What a decision does beyond its approval and subject. -/
def advance (repo : ApprovalRepository) (ord : RowOrder) (current : ApprovalRow) (target : Decision)
    (lease : MasterLease) (now : Instant) : Op Unit :=
  match current.subjectType with
  | .changeSet =>
    if repo.runs then do
      let _ ← WorkflowRunRepository.resumeAfterApprovalIn ord current.workflowRunId current.nodeRunId
        (target = .approved) lease now
      pure ()
    else pure ()
  | .privilegeRequest => decidePrivilege repo current target lease now

/-- Record the decision: the length checks of its columns, and the statement itself. -/
def recordDecision (repo : ApprovalRepository) (request : DecisionRequest) (now : Instant) : Op Unit := do
  Tx.ensure (request.actorId.length ≤ 128 ∧ request.idempotencyKey.length ≤ 256) (.integrityError "approvals")
  Db.approvalsT.cas request.approvalId
    (fun a => a.status = .pending ∧ (a.version : Int) = request.expectedVersion ∧
      a.subjectSha256 = request.confirmSubjectHash)
    (fun a => { a with status := request.target.status, version := a.version + 1,
                       decisionActor := some request.actorId, decisionIdempotencyKey := some request.idempotencyKey,
                       decisionRequestSha256 := some (repo.K.decisionRequest request),
                       decidedAt := some (utcNowText now) })
    (fun _ => rfl) (fun _ => rfl) (.concurrencyConflict "approval decision lost CAS")

/-- Decide a pending approval that has not expired. -/
def decidePending (repo : ApprovalRepository) (ord : RowOrder) (request : DecisionRequest) (current : ApprovalRow)
    (lease : MasterLease) (now : Instant) : Op ApprovalRow := do
  recordDecision repo request now
  decideSubject current request.target now
  advance repo ord current request.target lease now
  let fresh ← Db.approvalsT.select request.approvalId
  let fresh ← Tx.require fresh (.runtimeError "assert fresh is not None")
  appendApprovalEvent fresh (some current.status) lease (some ("decision:" ++ request.target.status.value)) now
  return approvalRecord fresh

/-- The checks of a decision that is not a replay, in their order. -/
def checkDecision (request : DecisionRequest) (current : ApprovalRow) : Op Unit := do
  Tx.ensure (current.subjectSha256 = request.confirmSubjectHash)
    (.concurrencyConflict "approval subject hash does not match")
  let run ← Db.workflowRunsT.select current.workflowRunId
  let run ← Tx.require run (.recordNotFound ("workflow run not found: " ++ current.workflowRunId))
  Tx.ensure (run.cancelRequestedAt = none ∧ run.status.refusesApproval = false)
    (.concurrencyConflict "workflow cancellation prevents approval decision")
  Tx.ensure (current.status = .pending) (.concurrencyConflict ("approval is already " ++ current.status.value))
  Tx.ensure ((current.version : Int) = request.expectedVersion) (.concurrencyConflict "approval version CAS failed")

/-- A decision on an expired approval expires it and raises, which undoes the expiry. -/
def decideNew (repo : ApprovalRepository) (ord : RowOrder) (request : DecisionRequest) (current : ApprovalRow)
    (lease : MasterLease) (now : Instant) : Op ApprovalRow := do
  checkDecision request current
  if current.expiresAt ≤ utcNowText now then do
    expireIn repo current lease now
    Tx.fail (.concurrencyConflict "approval expired before decision")
  else decidePending repo ord request current lease now

protected def decide (repo : ApprovalRepository) (ord : RowOrder) (request : DecisionRequest) (lease : MasterLease)
    (now : Instant) : Op ApprovalRow := do
  Tx.ensure (1 ≤ request.expectedVersion ∧ request.idempotencyKey ≠ "")
    (.valueError "approval version and idempotency key are required")
  MasterLeaseRepository.assertValidIn lease now
  let row ← selectApproval request.approvalId
  let current := approvalRecord row
  if current.status ≠ .pending ∧ current.decisionIdempotencyKey = some request.idempotencyKey then
    replay repo request current
  else decideNew repo ord request current lease now

/-! ## Renewal -/

/-- The approval to renew is an expired ChangeSet approval of a live run, at the version and digest given. -/
def checkRenewable (old : ApprovalRow) (expectedVersion : Int) (confirmSubjectHash : String) : Op Unit := do
  Tx.ensure (old.subjectType = .changeSet) (.valueError "only ChangeSetApproval can be renewed")
  Tx.ensure (old.status = .expired) (.concurrencyConflict "approval is not expired")
  Tx.ensure ((old.version : Int) = expectedVersion) (.concurrencyConflict "approval version CAS failed")
  Tx.ensure (old.subjectSha256 = confirmSubjectHash) (.concurrencyConflict "approval subject hash does not match")
  let run ← Db.workflowRunsT.select old.workflowRunId
  Tx.ensure (run.any fun r => r.cancelRequestedAt = none ∧ r.status.refusesApproval = false)
    (.concurrencyConflict "workflow cancellation prevents approval renewal")

/-- The new approval covers what the old one did, under a new digest and with an expiry to come. -/
def checkRenewal (old : ApprovalRow) (new : ChangeSetApproval) (now : Instant) : Op Unit := do
  Tx.ensure (new.changeSetId = old.changeSetId.getD "None") (.valueError "renewal changed the ChangeSet")
  Tx.ensure (new.workflowRunId = old.workflowRunId ∧ new.nodeRunId = old.nodeRunId ∧
      new.baseCommit = old.baseCommit.getD "None" ∧ new.patchSha256 = old.patchSha256.getD "None" ∧
      new.evidenceSha256 = old.evidenceSha256 ∧ new.effectiveRisk = old.effectiveRisk ∧ new.scope = old.scope)
    (.valueError "renewal changed the immutable ChangeSet subject")
  Tx.ensure (new.subjectSha256 ≠ old.subjectSha256) (.valueError "renewal must bind its new expiry")
  Tx.ensure (new.status = .pending ∧ new.version = 1)
    (.valueError "renewal must create a pending version-one approval")
  Tx.ensure (new.effectiveRisk ≠ .l4) (.valueError "L4 cannot renew an approval")
  Tx.ensure (utcNowText now < utcNowText new.expiresAt) (.valueError "renewal must expire in the future")
  let owner ← Db.nodeRunsT.select new.nodeRunId
  Tx.ensure (owner.any fun n => n.workflowRunId = new.workflowRunId)
    (.valueError "renewal node does not belong to the workflow run")
  let changeSet ← Db.changeSetsT.select (old.changeSetId.getD "None")
  Tx.ensure (changeSet.any fun c => c.status = .pendingApproval)
    (.concurrencyConflict "ChangeSet is no longer renewable")

def renewChangeset (oldApprovalId : String) (expectedVersion : Int) (confirmSubjectHash : String)
    (new : ChangeSetApproval) (lease : MasterLease) (now : Instant) : Op ApprovalRow := do
  MasterLeaseRepository.assertValidIn lease now
  let row ← selectApproval oldApprovalId
  let old := approvalRecord row
  checkRenewable old expectedVersion confirmSubjectHash
  checkRenewal old new now
  insertApproval (changeSetRow new none now)
  appendApprovalEvent (changeSetRow new none now) none lease (some ("renewed_from:" ++ oldApprovalId)) now
  let row ← Db.approvalsT.select new.approvalId
  let row ← Tx.require row (.runtimeError "assert row is not None")
  return approvalRecord row

/-! ## Invalidating in a call of its own -/

theorem cancelled_id (now : Instant) (c : ChangeSetRow) :
    ({ c with status := .cancelled, updatedAt := utcNowText now } : ChangeSetRow).id = c.id := rfl

theorem cancelled_taskId (now : Instant) (c : ChangeSetRow) :
    ({ c with status := .cancelled, updatedAt := utcNowText now } : ChangeSetRow).taskId = c.taskId := rfl

theorem invalidated_id (now : Instant) (a : ApprovalRow) :
    ({ a with status := .invalidated, version := a.version + 1, decidedAt := some (utcNowText now) } : ApprovalRow).id = a.id := rfl

/-- The subject here: an approved ChangeSet is left to the statement that ends the call. -/
def invalidateSubjectAlone (approval : ApprovalRow) (lease : MasterLease) (reason : String) (now : Instant) :
    Op Unit :=
  match approval.subjectType with
  | .changeSet => do
    let _ ← Db.changeSetsT.update
      (fun c => decide (approval.changeSetId = some c.id) && decide (c.status = .pendingApproval))
      (fun c => { c with status := .cancelled, updatedAt := utcNowText now }) (cancelled_id now) (cancelled_taskId now)
  | .privilegeRequest => do
    let requestId := approval.privilegeRequestId.getD "None"
    let denied ← denyRequest requestId [.pending, .waitingApproval]
    appendDenied requestId denied lease reason now

def invalidateOneAlone (lease : MasterLease) (reason : String) (now : Instant) (approval : ApprovalRow) : Op Unit := do
  Db.approvalsT.cas approval.id (fun a => a.status = .pending ∧ a.version = approval.version)
    (fun a => { a with status := .invalidated, version := a.version + 1, decidedAt := some (utcNowText now) })
    (invalidated_id now) (invalidated_id now) (.concurrencyConflict "approval invalidation lost CAS")
  invalidateSubjectAlone approval lease reason now
  let fresh ← Db.approvalsT.select approval.id
  let fresh ← Tx.require fresh (.runtimeError "assert fresh is not None")
  appendApprovalEvent fresh (some approval.status) lease (some reason) now

def invalidateForRun (workflowRunId : String) (lease : MasterLease) (reason : String) (now : Instant) : Op Nat := do
  MasterLeaseRepository.assertValidIn lease now
  let rows ← Tx.read fun db => db.approvals.rows.filter fun a => a.workflowRunId = workflowRunId ∧ a.status = .pending
  forEach (invalidateOneAlone lease reason now) rows
  let owned ← Tx.read fun db => ofRun db workflowRunId
  let _ ← Db.changeSetsT.update (fun c => decide (c.status ∈ [.pendingApproval, .approved]) && owned c.taskId)
    (fun c => { c with status := .cancelled, updatedAt := utcNowText now }) (cancelled_id now) (cancelled_taskId now)
  return rows.length

end ApprovalRepository

end AgentHub
