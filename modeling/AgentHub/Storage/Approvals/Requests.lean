import AgentHub.Storage.Approvals
import AgentHub.Storage.Runs.Nodes
/-!
# Privilege requests and new approvals

The contracts a caller hands in, and the operations that insert privilege requests and pending approvals.
The unqualified `status` in the SELECT that reads a request with its node run and run belongs to three
tables, so SQLite refuses to prepare it and no approval of a privilege request is ever inserted.
-/

namespace AgentHub

open Lib

/-! ## Contracts -/

inductive CapabilityType where
  | modifyDependency | modifyConfig
  deriving DecidableEq, Repr

def CapabilityType.value : CapabilityType → String
  | .modifyDependency => "modify_dependency" | .modifyConfig => "modify_config"

/-- What both kinds of approval carry. -/
structure ApprovalBase where
  approvalId : String
  workflowRunId : String
  nodeRunId : String
  subjectSha256 : String
  evidenceSha256 : String
  effectiveRisk : RiskLevel
  scope : List String := []
  status : ApprovalStatus := .pending
  version : Nat := 1
  expiresAt : Instant
  deriving DecidableEq

structure ChangeSetApproval extends ApprovalBase where
  changeSetId : String
  baseCommit : String
  patchSha256 : String
  deriving DecidableEq

structure PrivilegeApproval extends ApprovalBase where
  privilegeRequestId : String
  deriving DecidableEq

inductive Approval where
  | changeSet (approval : ChangeSetApproval)
  | privilege (approval : PrivilegeApproval)
  deriving DecidableEq

def Approval.base : Approval → ApprovalBase
  | .changeSet approval => approval.toApprovalBase
  | .privilege approval => approval.toApprovalBase

structure PrivilegeRequest where
  requestId : String
  sessionId : String
  taskId : String
  nodeRunId : String
  requestedCapability : CapabilityType
  requestedAction : PrivilegeAction
  requestedResource : String
  effectiveRisk : RiskLevel := .l2
  status : PrivilegeRequestStatus := .pending
  deriving DecidableEq, Repr

/-- What SQLite raises when a column of a join could belong to several of its tables. -/
def ambiguousColumn (column : String) : StorageError := .operationalError ("ambiguous column name: " ++ column)

/-- The statuses of a run that refuse an approval, a decision or a renewal. -/
def WorkflowRunStatus.refusesApproval : WorkflowRunStatus → Bool
  | .cancelled | .completed | .failed | .orphaned => true
  | _ => false

namespace ApprovalRepository

/-! ## Records -/

def nonEmpty (value : Option String) : Option String := value.filter fun s => s ≠ ""

/-- `_approval_record`: a row as it is read, where an empty text is no value. -/
def approvalRecord (row : ApprovalRow) : ApprovalRow :=
  { row with decidedAt := nonEmpty row.decidedAt, decisionActor := nonEmpty row.decisionActor,
             decisionIdempotencyKey := nonEmpty row.decisionIdempotencyKey,
             decisionRequestSha256 := nonEmpty row.decisionRequestSha256 }

/-- The row of the latest `created_at`. -/
def latest (rows : List ApprovalRow) : Option ApprovalRow :=
  rows.foldl (fun best a => match best with
    | none => some a
    | some b => if b.createdAt < a.createdAt then some a else some b) none

/-- The pending approval of a subject. -/
def pendingOf (db : Db) (subject : ApprovalRow → Bool) : Option ApprovalRow :=
  latest (db.approvals.rows.filter fun a => subject a && decide (a.status = .pending))

/-- A pending approval of the subject is returned as it is, unless it covers another digest. -/
def samePending (row : ApprovalRow) (subjectSha256 : String) : Op ApprovalRow := do
  Tx.ensure (row.subjectSha256 = subjectSha256) (.concurrencyConflict "pending approval subject drifted")
  return approvalRecord row

def selectApproval (approvalId : String) : Op ApprovalRow := do
  let row ← Db.approvalsT.select approvalId
  Tx.require row (.recordNotFound ("approval not found: " ++ approvalId))

/-! ## Privilege requests -/

def sealSchema : String := "hub210-capability-resource-seal-v1"

/-- `_require_resource_seal`. -/
def requireResourceSeal (row : PrivilegeRequestRow) : Op Unit :=
  Tx.ensure (row.resourceSeal.schema = some sealSchema)
    (.concurrencyConflict "capability resource has no valid immutable seal")

/-- `_assert_workspace_binding`. -/
def assertWorkspaceBinding (workspaceLease : WorkspaceLease) (sessionId taskId : String) : Op Unit :=
  Tx.ensure (workspaceLease.ownerKind = "agent_task" ∧ workspaceLease.ownerOperationId = taskId ∧
      workspaceLease.resourceKey = integrationResource sessionId)
    (.valueError "workspace lease is not bound to the privilege request task")

def requestRow (request : PrivilegeRequest) (resourceSeal : ResourceSeal) (now : Instant) : PrivilegeRequestRow where
  id := request.requestId
  taskId := request.taskId
  nodeRunId := request.nodeRunId
  capability := request.requestedCapability.value
  action := request.requestedAction.value
  resource := request.requestedResource
  resourceSeal := resourceSeal
  effectiveRisk := request.effectiveRisk
  status := request.status
  createdAt := utcNowText now

/-- Insert a request, whose task and node run must exist. -/
def insertRequest (request : PrivilegeRequest) (resourceSeal : ResourceSeal) (now : Instant) : Op Unit := do
  let owned ← Tx.read fun db => (db.tasks.get? request.taskId).isSome && (db.nodeRuns.get? request.nodeRunId).isSome
  Tx.ensure owned (.integrityError "privilege_requests")
  Db.privilegeRequestsT.insert (requestRow request resourceSeal now) (.integrityError "privilege_requests")

/-- A stored request must be the one handed in, its status aside. -/
def sameRequest (existing : PrivilegeRequestRow) (request : PrivilegeRequest) (resourceSeal : ResourceSeal) :
    Op Unit := do
  Tx.ensure (existing.taskId = request.taskId ∧ existing.nodeRunId = request.nodeRunId ∧
      existing.capability = request.requestedCapability.value ∧ existing.action = request.requestedAction.value ∧
      existing.resource = request.requestedResource ∧ existing.effectiveRisk = request.effectiveRisk)
    (.concurrencyConflict "privilege request subject drifted")
  Tx.ensure (existing.resourceSeal = resourceSeal)
    (.concurrencyConflict "privilege request resource seal drifted")

def createPrivilegeRequest (request : PrivilegeRequest) (resourceSeal : ResourceSeal) (lease : MasterLease)
    (workspaceLease : WorkspaceLease) (now : Instant) : Op PrivilegeRequest := do
  Tx.ensure (resourceSeal.schema = some sealSchema) (.valueError "capability resource seal is missing its schema")
  MasterLeaseRepository.assertValidIn lease now
  assertWorkspaceBinding workspaceLease request.sessionId request.taskId
  WorkspaceLeaseRepository.assertValidIn workspaceLease now
  let existing ← Db.privilegeRequestsT.select request.requestId
  match existing with
  | some existing => do
    sameRequest existing request resourceSeal
    return { request with status := existing.status }
  | none => do
    insertRequest request resourceSeal now
    let lineage ← Db.nodeRunsT.select request.nodeRunId
    let lineage ← Tx.require lineage (.runtimeError "assert lineage is not None")
    appendPrivilegeRequestEvent lineage.workflowRunId request.nodeRunId request.taskId request.requestId none
      request.status.value lease (some "created") now
    return request

/-- The request of a new approval: inserted, or the one stored. -/
def ensureRequest (request : PrivilegeRequest) (resourceSeal : ResourceSeal) (approval : PrivilegeApproval)
    (lease : MasterLease) (now : Instant) : Op Unit := do
  let existing ← Db.privilegeRequestsT.select request.requestId
  match existing with
  | some existing => sameRequest existing request resourceSeal
  | none => do
    insertRequest request resourceSeal now
    let lineage ← Db.nodeRunsT.select request.nodeRunId
    Tx.ensure (lineage.any fun n => n.workflowRunId = approval.workflowRunId)
      (.valueError "privilege request lineage does not match approval")
    appendPrivilegeRequestEvent approval.workflowRunId request.nodeRunId request.taskId request.requestId none
      request.status.value lease (some "created") now

/-! ## New approvals -/

/-- The approval's node run belongs to its run. -/
def assertOwner (approval : ApprovalBase) : Op Unit := do
  let owner ← Db.nodeRunsT.select approval.nodeRunId
  let owner ← Tx.require owner (.recordNotFound ("approval node run not found: " ++ approval.nodeRunId))
  Tx.ensure (owner.workflowRunId = approval.workflowRunId)
    (.valueError "approval node does not belong to the workflow run")

/-- The pending row of a ChangeSet approval. -/
def changeSetRow (approval : ChangeSetApproval) (idempotencyKey : Option String) (now : Instant) : ApprovalRow where
  id := approval.approvalId
  workflowRunId := approval.workflowRunId
  nodeRunId := approval.nodeRunId
  subjectType := .changeSet
  changeSetId := some approval.changeSetId
  subjectSha256 := approval.subjectSha256
  baseCommit := some approval.baseCommit
  patchSha256 := some approval.patchSha256
  evidenceSha256 := approval.evidenceSha256
  effectiveRisk := approval.effectiveRisk
  scope := approval.scope
  status := .pending
  version := 1
  decisionIdempotencyKey := idempotencyKey
  expiresAt := utcNowText approval.expiresAt
  createdAt := utcNowText now

/-- The subject of the row has a pending approval. -/
def subjectPending (db : Db) (row : ApprovalRow) : Bool :=
  db.approvals.rows.any fun a => decide (a.status = .pending) && decide (a.subjectType = row.subjectType) &&
    decide (a.changeSetId = row.changeSetId) && decide (a.privilegeRequestId = row.privilegeRequestId)

/-- Insert a pending approval: the length check of the key, and the partial unique index that gives a
subject one pending approval. -/
def insertApproval (row : ApprovalRow) : Op Unit := do
  Tx.ensure (row.decisionIdempotencyKey.all fun key => key.length ≤ 256) (.integrityError "approvals")
  let pending ← Tx.read fun db => subjectPending db row
  Tx.ensure (!pending) (.integrityError "approvals")
  Db.approvalsT.insert row (.integrityError "approvals")

/-- A ChangeSet with the run of its task's node run. -/
def changeSetWithRun (db : Db) (changeSetId : String) : Option (ChangeSetRow × WorkflowRunRow) :=
  (db.changeSets.get? changeSetId).bind fun changeSet =>
    (db.tasks.get? changeSet.taskId).bind fun task =>
      (WorkflowRunRepository.nodeWithRun db task.nodeRunId).map fun p => (changeSet, p.2)

/-- A tested ChangeSet starts to wait for its approval. -/
def awaitApproval (changeSet : ChangeSetRow) (now : Instant) : Op Unit :=
  if changeSet.status = .testPassed then
    Db.changeSetsT.cas changeSet.id (fun c => c.status = .testPassed)
      (fun c => { c with status := .pendingApproval, updatedAt := utcNowText now }) (fun _ => rfl) (fun _ => rfl)
      (.concurrencyConflict "ChangeSet approval transition lost CAS")
  else pure ()

/-- The ChangeSet of a new approval is ready for it. Its base commit and patch digest are not compared
with the approval's. -/
def prepareSubject (approval : ChangeSetApproval) (now : Instant) : Op Unit := do
  let row ← Tx.read fun db => changeSetWithRun db approval.changeSetId
  let (changeSet, run) ← Tx.require row (.recordNotFound ("change set not found: " ++ approval.changeSetId))
  Tx.ensure (run.id = approval.workflowRunId ∧ (changeSet.status = .testPassed ∨ changeSet.status = .pendingApproval))
    (.concurrencyConflict "ChangeSet is not ready for approval")
  Tx.ensure (run.cancelRequestedAt = none ∧ run.status.refusesApproval = false)
    (.concurrencyConflict "workflow cancellation prevents approval")
  awaitApproval changeSet now

/-- What an approval covers. -/
def sameSubject : Approval → ApprovalRow → Bool
  | .changeSet approval, row => row.changeSetId = some approval.changeSetId
  | .privilege approval, row => row.privilegeRequestId = some approval.privilegeRequestId

/-- Insert a pending approval of a subject that has none. -/
def createNew (approval : Approval) (lease : MasterLease) (idempotencyKey : Option String) (now : Instant) :
    Op ApprovalRow := do
  assertOwner approval.base
  match approval with
  | .changeSet approval => do
    prepareSubject approval now
    insertApproval (changeSetRow approval idempotencyKey now)
    appendApprovalEvent (changeSetRow approval idempotencyKey now) none lease none now
    let row ← Db.approvalsT.select approval.approvalId
    let row ← Tx.require row (.runtimeError "assert row is not None")
    return approvalRecord row
  | .privilege _ => Tx.fail (ambiguousColumn "status")

def create (approval : Approval) (lease : MasterLease) (idempotencyKey : Option String) (now : Instant) :
    Op ApprovalRow := do
  Tx.ensure (approval.base.status = .pending ∧ approval.base.version = 1)
    (.valueError "new approvals must start pending at version 1")
  Tx.ensure (approval.base.effectiveRisk ≠ .l4) (.valueError "L4 cannot create an approval")
  MasterLeaseRepository.assertValidIn lease now
  let existing ← Tx.read fun db => pendingOf db (sameSubject approval)
  match existing with
  | some row => samePending row approval.base.subjectSha256
  | none => createNew approval lease idempotencyKey now

/-- Insert a fenced request and its approval together: the request's insert is undone with the SELECT that
fails after it, so what can return is a pending approval found stored. -/
def createPrivilegeRequestAndApproval (request : PrivilegeRequest) (resourceSeal : ResourceSeal)
    (approval : PrivilegeApproval) (lease : MasterLease) (workspaceLease : WorkspaceLease) (now : Instant) :
    Op ApprovalRow := do
  Tx.ensure (approval.status = .pending ∧ approval.version = 1)
    (.valueError "new approvals must start pending at version 1")
  Tx.ensure (approval.effectiveRisk ≠ .l4) (.valueError "L4 cannot create an approval")
  Tx.ensure (approval.privilegeRequestId = request.requestId)
    (.valueError "privilege approval does not bind the request")
  Tx.ensure (resourceSeal.schema = some sealSchema) (.valueError "capability resource seal is missing its schema")
  MasterLeaseRepository.assertValidIn lease now
  assertWorkspaceBinding workspaceLease request.sessionId request.taskId
  WorkspaceLeaseRepository.assertValidIn workspaceLease now
  ensureRequest request resourceSeal approval lease now
  let existing ← Tx.read fun db => pendingOf db fun a => a.privilegeRequestId = some request.requestId
  match existing with
  | some row => samePending row approval.subjectSha256
  | none => do
    assertOwner approval.toApprovalBase
    Tx.fail (ambiguousColumn "status")

end ApprovalRepository

end AgentHub
