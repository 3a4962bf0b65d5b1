import AgentHub.Storage.Approvals.Decisions
import AgentHub.Storage.ChangeSets
import AgentHub.Storage.Runs.Calls
import AgentHub.Storage.Runs.Create
/-!
# Calls on the three repositories

Every modelled operation of the run, approval and ChangeSet repositories as one kind of call, and the runs
of committed calls. Between two calls the other repositories may commit too: whatever they write, it is not
one of the tables a call is about.
-/

namespace AgentHub

open Lib

inductive StoreCall where
  | run (call : RunCall)
  | createRun (sources : RunSources) (value : NewWorkflowRun) (workspaceLease : WorkspaceLease)
  | createTask (taskId nodeRunId agentId baseCommit : String)
  | finishTask (taskId : String) (target : TaskStatus) (workspaceLease : Option WorkspaceLease)
      (errorCode : Option String)
  | createApproval (approval : Approval) (idempotencyKey : Option String)
  | createPrivilegeRequest (request : PrivilegeRequest) (resourceSeal : ResourceSeal) (workspaceLease : WorkspaceLease)
  | createPrivilegeRequestAndApproval (request : PrivilegeRequest) (resourceSeal : ResourceSeal)
      (approval : PrivilegeApproval) (workspaceLease : WorkspaceLease)
  | decide (request : DecisionRequest)
  | expireDue (workflowRunId : Option String)
  | renewChangeset (oldApprovalId : String) (expectedVersion : Int) (confirmSubjectHash : String)
      (new : ChangeSetApproval)
  | createGrant (grant : CapabilityGrant) (expiresAt : Instant) (workflowRunId sourceTaskId : String)
  | consumeGrant (grantId targetTaskId : String) (action : PrivilegeAction) (resource : String)
      (workspaceLease : Option WorkspaceLease)
  | revokeUnconsumedForRun (workflowRunId reason : String)
  | revokeUnconsumedForRunIn (workflowRunId reason : String)
  | invalidateForRun (workflowRunId reason : String)
  | invalidateForRunIn (workflowRunId reason : String)
  | persistCapture (limits : ArtifactLimits) (sessionId workflowRunId nodeRunId taskId : String) (capture : Capture)
      (taskTarget : TaskStatus) (taskErrorCode : Option String) (status : ChangeSetStatus) (reason : Option String)
      (workspaceLease : WorkspaceLease)
  | transition (changeSetId : String) (expected target : ChangeSetStatus) (workspaceLease : Option WorkspaceLease)
      (reason severity : Option String)

/-- An operation without what it returns. -/
def Op.void {α : Type} (x : Op α) : Op Unit := do
  let _ ← x
  pure ()

/-- The operation of a call. -/
def StoreCall.op (repo : ApprovalRepository) (ord : RowOrder) (lease : MasterLease) (now : Instant) :
    StoreCall → Op Unit
  | .run call => (call.op repo.H ord lease now).void
  | .createRun sources value ws => (WorkflowRunRepository.create repo.H sources value lease ws now).void
  | .createTask taskId id agentId base => (WorkflowRunRepository.createTask taskId id agentId base lease now).void
  | .finishTask taskId target ws error =>
    (WorkflowRunRepository.finishTask repo.H taskId target lease ws error now).void
  | .createApproval approval key => (ApprovalRepository.create approval lease key now).void
  | .createPrivilegeRequest request s ws => (ApprovalRepository.createPrivilegeRequest request s lease ws now).void
  | .createPrivilegeRequestAndApproval request s approval ws =>
    (ApprovalRepository.createPrivilegeRequestAndApproval request s approval lease ws now).void
  | .decide request => (repo.decide ord request lease now).void
  | .expireDue rid => (repo.expireDue rid lease now).void
  | .renewChangeset old version hash new => (ApprovalRepository.renewChangeset old version hash new lease now).void
  | .createGrant grant expiresAt rid taskId =>
    (ApprovalRepository.createGrant repo.H repo.runs grant expiresAt rid taskId lease now).void
  | .consumeGrant id taskId action resource ws =>
    (ApprovalRepository.consumeGrant id taskId action resource lease ws now).void
  | .revokeUnconsumedForRun rid reason => (ApprovalRepository.revokeUnconsumedForRun rid lease reason now).void
  | .revokeUnconsumedForRunIn rid reason => (ApprovalRepository.revokeUnconsumedForRunIn rid lease reason now).void
  | .invalidateForRun rid reason => (ApprovalRepository.invalidateForRun rid lease reason now).void
  | .invalidateForRunIn rid reason => (ApprovalRepository.invalidateForRunIn rid lease reason now).void
  | .persistCapture limits sid rid id taskId capture target error status reason ws =>
    ChangeSetRepository.persistCapture repo.H limits sid rid id taskId capture target error status reason lease ws now
  | .transition id expected target ws reason severity =>
    ChangeSetRepository.transition id expected target lease ws reason severity now

/-- A call as it is made: by which master, when, and the order its unordered queries come in. -/
structure StoreInvocation where
  call : StoreCall
  ord : RowOrder
  lease : MasterLease
  now : Instant

/-- Commit or roll back the call. -/
def StoreInvocation.commit (repo : ApprovalRepository) (i : StoreInvocation) (db : Db) : Except StorageError Unit × Db :=
  Tx.commit (i.call.op repo i.ord i.lease i.now) db

/-- A commit that touches none of the tables the calls are about. -/
structure Elsewhere (db db' : Db) : Prop where
  workflowRuns : db'.workflowRuns = db.workflowRuns
  nodeRuns : db'.nodeRuns = db.nodeRuns
  tasks : db'.tasks = db.tasks
  changeSets : db'.changeSets = db.changeSets
  approvals : db'.approvals = db.approvals
  privilegeRequests : db'.privilegeRequests = db.privilegeRequests
  capabilityGrants : db'.capabilityGrants = db.capabilityGrants

/-- One commit: a call, or something elsewhere. -/
inductive StoreStep (repo : ApprovalRepository) (db : Db) : Db → Prop
  | call (i : StoreInvocation) : StoreStep repo db (i.commit repo db).2
  | other {db' : Db} (h : Elsewhere db db') : StoreStep repo db db'

/-- A run of commits. -/
abbrev StoreRun (repo : ApprovalRepository) (db db' : Db) : Prop := Relation.ReflTransGen (StoreStep repo) db db'

end AgentHub
