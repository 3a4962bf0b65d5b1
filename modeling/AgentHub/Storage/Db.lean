import AgentHub.Lib.Store
import AgentHub.Master.Router
import AgentHub.Storage.Clock
/-!
# The database

The tables of the schema, each with its primary key and its second UNIQUE column, and the
transactions over them. Snapshots are stored as the values their JSON denotes; the digests
of those values, and the ids that are digests, are parameters (`Digests`).
-/

namespace AgentHub

open Lib

/-! ## Rows -/

structure SessionRow where
  id : String
  sharedRepoPath : String
  integrationHeadCommit : String
  status : SessionStatus
  updatedAt : String
  deriving DecidableEq, Repr

structure WorkflowRow where
  id : String
  sessionId : String
  semanticVersion : Nat := 1
  layoutVersion : Nat := 1
  authorGraphHash : String
  layoutHash : String
  deriving DecidableEq, Repr

structure WorkflowRunRow where
  id : String
  workflowId : String
  sessionId : String
  integrationBaseCommit : String
  currentCommit : String
  authorSnapshot : AuthorGraph
  authorSnapshotHash : String
  compiledSnapshot : CompiledGraph
  compiledSnapshotHash : String
  layoutSnapshot : String
  layoutSnapshotHash : String
  policyVersion : String
  agentCatalogSnapshot : AgentCatalog
  agentCatalogSnapshotHash : String
  status : WorkflowRunStatus
  nextEventSeq : Nat := 1
  createdAt : String
  startedAt : Option String := none
  cancelRequestedAt : Option String := none
  mergeFinalizingAt : Option String := none
  finishedAt : Option String := none
  deriving DecidableEq, Repr

structure NodeRunRow where
  id : String
  workflowRunId : String
  nodeId : String
  nodeType : NodeType
  attempt : Nat := 1
  status : NodeRunStatus
  outcome : Option NodeOutcome := none
  assignedAgentId : Option String := none
  outputArtifactId : Option String := none
  changeSetId : Option String := none
  errorCode : Option String := none
  createdAt : String
  startedAt : Option String := none
  finishedAt : Option String := none
  deriving DecidableEq, Repr

structure TaskRow where
  id : String
  nodeRunId : String
  agentId : String
  baseCommit : String
  runtimePolicyArtifactId : Option String := none
  activeCapabilityGrantId : Option String := none
  status : TaskStatus
  createdAt : String
  finishedAt : Option String := none
  deriving DecidableEq, Repr

structure ChangeSetRow where
  id : String
  taskId : String
  baseCommit : String
  patchSha256 : String
  status : ChangeSetStatus
  createdAt : String
  updatedAt : String
  deriving DecidableEq, Repr

structure ArtifactRow where
  id : String
  sessionId : String
  taskId : Option String := none
  plannerRunId : Option String := none
  artifactType : ArtifactType
  relativePath : String
  sha256 : String
  sizeBytes : Nat
  redacted : Bool
  deriving DecidableEq, Repr

inductive SubjectType where
  | changeSet | privilegeRequest
  deriving DecidableEq, Repr

def SubjectType.value : SubjectType → String
  | .changeSet => "change_set" | .privilegeRequest => "privilege_request"

structure ApprovalRow where
  id : String
  workflowRunId : String
  nodeRunId : String
  subjectType : SubjectType
  changeSetId : Option String := none
  privilegeRequestId : Option String := none
  subjectSha256 : String
  baseCommit : Option String := none
  patchSha256 : Option String := none
  evidenceSha256 : String
  effectiveRisk : RiskLevel
  scope : List String := []
  status : ApprovalStatus
  version : Nat := 1
  decisionActor : Option String := none
  decisionIdempotencyKey : Option String := none
  decisionRequestSha256 : Option String := none
  expiresAt : String
  decidedAt : Option String := none
  createdAt : String
  deriving DecidableEq, Repr

inductive PrivilegeRequestStatus where
  | pending | waitingApproval | approved | rejected | consumed | expired | denied
  deriving DecidableEq, Repr

def PrivilegeRequestStatus.value : PrivilegeRequestStatus → String
  | .pending => "pending" | .waitingApproval => "waiting_approval" | .approved => "approved"
  | .rejected => "rejected" | .consumed => "consumed" | .expired => "expired" | .denied => "denied"

/-- The JSON object that seals a resource: its schema and its other members, by name, as JSON text. A row from
before there were seals has the empty object. -/
structure ResourceSeal where
  schema : Option String := none
  members : List (String × String) := []
  deriving DecidableEq, Repr

structure PrivilegeRequestRow where
  id : String
  taskId : String
  nodeRunId : String
  capability : String := "modify_dependency"
  action : String
  resource : String
  resourceSeal : ResourceSeal := {}
  effectiveRisk : RiskLevel
  status : PrivilegeRequestStatus
  createdAt : String
  deriving DecidableEq, Repr

structure CapabilityGrantRow where
  id : String
  requestId : String
  targetTaskId : String
  action : String
  resource : String
  resourceSeal : ResourceSeal := {}
  expiresAt : String
  consumedAt : Option String := none
  consumedFencingToken : Option Nat := none
  revokedAt : Option String := none
  revocationReason : Option String := none
  deriving DecidableEq, Repr

structure IdempotencyRow where
  actorScope : String
  operationScope : String
  idempotencyKey : String
  requestSha256 : String
  responseStatus : Int
  responseJson : String
  createdAt : String
  expiresAt : String
  deriving DecidableEq, Repr

/-- `PRIMARY KEY (actor_scope, operation_scope, idempotency_key)`. -/
def IdempotencyRow.scope (r : IdempotencyRow) : String × String × String :=
  (r.actorScope, r.operationScope, r.idempotencyKey)

structure MasterLeaseRow where
  leaseKey : String
  instanceId : String
  processId : Int
  fencingToken : Nat
  heartbeatAt : String
  leaseExpiresAt : String
  deriving DecidableEq, Repr

structure FileLockRow where
  resourceKey : String
  ownerKind : String
  ownerOperationId : String
  ownerProcessId : Int
  fencingToken : Nat
  acquiredAt : String
  heartbeatAt : String
  leaseExpiresAt : String
  releasedAt : Option String := none
  deriving DecidableEq, Repr

/-! ## Events -/

inductive EventPayload where
  | run (masterFencingToken : Nat) (workflowRunId : String) (previous : Option WorkflowRunStatus)
      (status : WorkflowRunStatus) (compiledSnapshotHash : Option String)
  | node (masterFencingToken : Nat) (workflowRunId nodeRunId nodeId : String) (previous status : NodeRunStatus)
      (outcome : Option NodeOutcome) (summary : String) (errorCode : Option String)
  | task (masterFencingToken : Nat) (workspaceFencingToken : Option Nat) (workflowRunId nodeRunId taskId : String)
      (previous : Option TaskStatus) (status : TaskStatus) (errorCode : Option String)
  | changeSet (masterFencingToken : Nat) (workspaceFencingToken : Option Nat)
      (workflowRunId nodeRunId taskId changeSetId : String) (previous : Option ChangeSetStatus)
      (status : ChangeSetStatus) (patchSha256 : String) (reason : Option String)
  | approval (masterFencingToken : Nat) (workflowRunId nodeRunId approvalId : String) (subjectType : SubjectType)
      (previous : Option ApprovalStatus) (status : ApprovalStatus) (version : Nat) (subjectSha256 : String)
      (reason : Option String)
  | privilegeRequest (masterFencingToken : Nat) (workflowRunId nodeRunId taskId requestId : String)
      (previous : Option String) (status : String) (reason : Option String)
  | capabilityGrant (masterFencingToken : Nat) (workflowRunId nodeRunId requestId grantId targetTaskId : String)
      (action resource : String) (consumedFencingToken : Option Nat) (reason : Option String)
  | recovery (masterFencingToken : Nat) (workflowRunId sessionId action outcome reason : String)
  | schemaMigration (workflowRunId nodeRunId subjectType subjectId previous status : String) (version : Option Nat)
      (subjectSha256 : Option String) (reason : String)
  deriving DecidableEq, Repr

inductive ActorType where
  | user | master | agent | system | localCli
  deriving DecidableEq, Repr

structure EventRow where
  sessionId : String
  workflowId : Option String
  workflowRunId : Option String
  runSeq : Option Nat
  eventType : String
  actorType : ActorType
  actorId : Option String
  payload : EventPayload
  createdAt : String
  deriving DecidableEq, Repr

structure SecurityEventRow where
  sessionId : String
  workflowRunId : Option String
  taskId : Option String
  eventType : String
  severity : String
  payload : EventPayload
  createdAt : String
  deriving DecidableEq, Repr

/-! ## The database -/

/-- `UNIQUE (workflow_run_id, node_id, attempt)`. -/
def NodeRunRow.slot (r : NodeRunRow) : String × String × Nat := (r.workflowRunId, r.nodeId, r.attempt)

structure Db where
  sessions : Table SessionRow SessionRow.id SessionRow.sharedRepoPath
  workflows : Table WorkflowRow WorkflowRow.id WorkflowRow.id
  workflowRuns : Table WorkflowRunRow WorkflowRunRow.id WorkflowRunRow.id
  nodeRuns : Table NodeRunRow NodeRunRow.id NodeRunRow.slot
  tasks : Table TaskRow TaskRow.id TaskRow.nodeRunId
  changeSets : Table ChangeSetRow ChangeSetRow.id ChangeSetRow.taskId
  artifacts : Table ArtifactRow ArtifactRow.id ArtifactRow.relativePath
  approvals : Table ApprovalRow ApprovalRow.id ApprovalRow.id
  privilegeRequests : Table PrivilegeRequestRow PrivilegeRequestRow.id PrivilegeRequestRow.id
  capabilityGrants : Table CapabilityGrantRow CapabilityGrantRow.id CapabilityGrantRow.requestId
  masterLeases : Table MasterLeaseRow MasterLeaseRow.leaseKey MasterLeaseRow.leaseKey
  fileLocks : Table FileLockRow FileLockRow.resourceKey FileLockRow.resourceKey
  idempotencyKeys : Table IdempotencyRow IdempotencyRow.scope IdempotencyRow.scope := .empty
  events : List EventRow := []
  securityEvents : List SecurityEventRow := []

namespace Db

abbrev sessionsT : TableRef Db SessionRow.id SessionRow.sharedRepoPath :=
  ⟨sessions, fun db t => { db with sessions := t }, fun _ _ => rfl⟩
abbrev workflowRunsT : TableRef Db WorkflowRunRow.id WorkflowRunRow.id :=
  ⟨workflowRuns, fun db t => { db with workflowRuns := t }, fun _ _ => rfl⟩
abbrev nodeRunsT : TableRef Db NodeRunRow.id NodeRunRow.slot :=
  ⟨nodeRuns, fun db t => { db with nodeRuns := t }, fun _ _ => rfl⟩
abbrev tasksT : TableRef Db TaskRow.id TaskRow.nodeRunId :=
  ⟨tasks, fun db t => { db with tasks := t }, fun _ _ => rfl⟩
abbrev changeSetsT : TableRef Db ChangeSetRow.id ChangeSetRow.taskId :=
  ⟨changeSets, fun db t => { db with changeSets := t }, fun _ _ => rfl⟩
abbrev artifactsT : TableRef Db ArtifactRow.id ArtifactRow.relativePath :=
  ⟨artifacts, fun db t => { db with artifacts := t }, fun _ _ => rfl⟩
abbrev approvalsT : TableRef Db ApprovalRow.id ApprovalRow.id :=
  ⟨approvals, fun db t => { db with approvals := t }, fun _ _ => rfl⟩
abbrev privilegeRequestsT : TableRef Db PrivilegeRequestRow.id PrivilegeRequestRow.id :=
  ⟨privilegeRequests, fun db t => { db with privilegeRequests := t }, fun _ _ => rfl⟩
abbrev capabilityGrantsT : TableRef Db CapabilityGrantRow.id CapabilityGrantRow.requestId :=
  ⟨capabilityGrants, fun db t => { db with capabilityGrants := t }, fun _ _ => rfl⟩
abbrev masterLeasesT : TableRef Db MasterLeaseRow.leaseKey MasterLeaseRow.leaseKey :=
  ⟨masterLeases, fun db t => { db with masterLeases := t }, fun _ _ => rfl⟩
abbrev fileLocksT : TableRef Db FileLockRow.resourceKey FileLockRow.resourceKey :=
  ⟨fileLocks, fun db t => { db with fileLocks := t }, fun _ _ => rfl⟩
abbrev idempotencyKeysT : TableRef Db IdempotencyRow.scope IdempotencyRow.scope :=
  ⟨idempotencyKeys, fun db t => { db with idempotencyKeys := t }, fun _ _ => rfl⟩

end Db

/-- What a storage operation can raise; each carries the text of the source. `outOfFuel` is the model's
own: a bounded loop that did not end, which no operation raises. -/
inductive StorageError where
  | recordNotFound (message : String)
  | concurrencyConflict (message : String)
  | snapshotIntegrity (message : String)
  | leaseLost (message : String)
  | leaseUnavailable (message : String)
  | idempotencyConflict (message : String)
  | changeSetIntegrity (message : String)
  | containmentViolation (message : String)
  | quotaExceeded (message : String)
  | eventPayload (message : String)
  | valueError (message : String)
  | runtimeError (message : String)
  | keyError (key : String)
  | indexError (message : String)
  | stopIteration
  | overflowError
  | integrityError (table : String)
  | operationalError (message : String)
  | outOfFuel
  deriving DecidableEq, Repr

/-- An operation on the database. -/
abbrev Op (α : Type) : Type := Tx Db StorageError α

/-- The digests of snapshots and the ids that are digests: SHA-256 over canonical JSON or over the parts. -/
structure Digests where
  author : AuthorGraph → String
  compiled : CompiledGraph → String
  layout : String → String
  catalog : List AgentSpec → String
  nodeRunId : String → String → Nat → String
  taskIdForNode : String → String

end AgentHub
