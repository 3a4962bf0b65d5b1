import AgentHub.Storage.Runs.Base
/-!
# Approvals and grants of a cancelled run

The two hooks a cancellation runs in its own transaction: pending approvals are invalidated with their
subjects, unconsumed grants are revoked with their requests. Rows are visited in table order; only the
order of the events depends on it.
-/

namespace AgentHub

open Lib

namespace ApprovalRepository

/-! ## Events -/

def appendPrivilegeRequestEvent (workflowRunId nodeRunId taskId requestId : String) (previous : Option String)
    (status : String) (lease : MasterLease) (reason : Option String) (now : Instant) : Op Unit := do
  let run ← WorkflowRunRepository.runRow workflowRunId
  EventRepository.appendIn run.sessionId privilegeRequestStateChanged lease.instanceId
    (.privilegeRequest lease.fencingToken workflowRunId nodeRunId taskId requestId previous status reason)
    run.workflowId workflowRunId now

def appendApprovalEvent (approval : ApprovalRow) (previous : Option ApprovalStatus) (lease : MasterLease)
    (reason : Option String) (now : Instant) : Op Unit := do
  let run ← WorkflowRunRepository.runRow approval.workflowRunId
  EventRepository.appendIn run.sessionId approvalStateChanged lease.instanceId
    (.approval lease.fencingToken approval.workflowRunId approval.nodeRunId approval.id approval.subjectType previous
      approval.status approval.version approval.subjectSha256 reason)
    run.workflowId approval.workflowRunId now

def appendGrantEvent (grant : CapabilityGrantRow) (workflowRunId nodeRunId : String) (lease : MasterLease)
    (reason : String) (now : Instant) : Op Unit := do
  let run ← WorkflowRunRepository.runRow workflowRunId
  EventRepository.appendIn run.sessionId capabilityGrantStateChanged lease.instanceId
    (.capabilityGrant lease.fencingToken workflowRunId nodeRunId grant.requestId grant.id grant.targetTaskId grant.action
      grant.resource grant.consumedFencingToken (some reason))
    run.workflowId workflowRunId now

/-! ## Invalidating approvals -/

/-- A privilege request with the run of its node run. -/
def requestWithRun (db : Db) (requestId : String) : Option (PrivilegeRequestRow × String) :=
  (db.privilegeRequests.get? requestId).bind fun request =>
    (db.nodeRuns.get? request.nodeRunId).map fun node => (request, node.workflowRunId)

/-- Deny a request whose status is one of `froms`; whether it was. -/
def denyRequest (requestId : String) (froms : List PrivilegeRequestStatus) : Op Bool := do
  let changed ← Db.privilegeRequestsT.update (fun r => decide (r.id = requestId) && decide (r.status ∈ froms))
    (fun r => { r with status := .denied }) (fun _ => rfl) (fun _ => rfl)
  return changed = 1

/-- The event of a request denied with its approval. -/
def appendDenied (requestId : String) (denied : Bool) (lease : MasterLease) (reason : String) (now : Instant) :
    Op Unit :=
  if denied then do
    let row ← Tx.read fun db => requestWithRun db requestId
    let (request, workflowRunId) ← Tx.require row (.runtimeError "assert request_row is not None")
    appendPrivilegeRequestEvent workflowRunId request.nodeRunId request.taskId requestId
      (some PrivilegeRequestStatus.waitingApproval.value) PrivilegeRequestStatus.denied.value lease (some reason) now
  else pure ()

/-- What becomes of the subject of an invalidated approval. -/
def invalidateSubject (approval : ApprovalRow) (lease : MasterLease) (reason : String) (now : Instant) : Op Unit :=
  match approval.subjectType with
  | .changeSet => do
    let _ ← Db.changeSetsT.update
      (fun c => decide (approval.changeSetId = some c.id) && decide (c.status ∈ [.pendingApproval, .approved]))
      (fun c => { c with status := .cancelled, updatedAt := utcNowText now }) (fun _ => rfl) (fun _ => rfl)
  | .privilegeRequest => do
    let requestId := approval.privilegeRequestId.getD "None"
    let denied ← denyRequest requestId [.pending, .waitingApproval]
    appendDenied requestId denied lease reason now

def invalidateOne (lease : MasterLease) (reason : String) (now : Instant) (approval : ApprovalRow) : Op Unit := do
  Db.approvalsT.cas approval.id (fun a => a.status = .pending ∧ a.version = approval.version)
    (fun a => { a with status := .invalidated, version := a.version + 1, decidedAt := some (utcNowText now) })
    (fun _ => rfl) (fun _ => rfl) (.concurrencyConflict "approval invalidation lost CAS")
  invalidateSubject approval lease reason now
  let fresh ← Db.approvalsT.select approval.id
  let fresh ← Tx.require fresh (.runtimeError "assert fresh is not None")
  appendApprovalEvent fresh (some approval.status) lease (some reason) now

/-- Do `step` for every row, in order. -/
def forEach {ρ : Type} (step : ρ → Op Unit) : List ρ → Op Unit
  | [] => pure ()
  | r :: rs => do
    step r
    forEach step rs

/-- The tasks of a run. -/
def ofRun (db : Db) (workflowRunId taskId : String) : Bool :=
  ((db.tasks.get? taskId).bind fun t => db.nodeRuns.get? t.nodeRunId).any fun n => n.workflowRunId = workflowRunId

/-- Invalidate approvals as part of a cancellation; how many there were. -/
def invalidateForRunIn (workflowRunId : String) (lease : MasterLease) (reason : String) (now : Instant) : Op Nat := do
  MasterLeaseRepository.assertValidIn lease now
  let rows ← Tx.read fun db => db.approvals.rows.filter fun a => a.workflowRunId = workflowRunId ∧ a.status = .pending
  forEach (invalidateOne lease reason now) rows
  let owned ← Tx.read fun db => ofRun db workflowRunId
  let _ ← Db.changeSetsT.update (fun c => decide (c.status ∈ [.pendingApproval, .approved]) && owned c.taskId)
    (fun c => { c with status := .cancelled, updatedAt := utcNowText now }) (fun _ => rfl) (fun _ => rfl)
  return rows.length

/-! ## Revoking grants -/

/-- A grant with its request and the run of the request's node run. -/
def grantWithRun (db : Db) (grant : CapabilityGrantRow) : Option (CapabilityGrantRow × PrivilegeRequestRow × String) :=
  (requestWithRun db grant.requestId).map fun p => (grant, p.1, p.2)

/-- The event of a request denied with its grant. -/
def appendRevokedRequest (request : PrivilegeRequestRow) (workflowRunId : String) (denied : Bool) (lease : MasterLease)
    (reason : String) (now : Instant) : Op Unit :=
  if denied then
    appendPrivilegeRequestEvent workflowRunId request.nodeRunId request.taskId request.id
      (some PrivilegeRequestStatus.approved.value) PrivilegeRequestStatus.denied.value lease
      (some ("revoked:" ++ reason)) now
  else pure ()

def revokeOne (lease : MasterLease) (reason : String) (now : Instant) (grant : CapabilityGrantRow) : Op Unit := do
  Db.capabilityGrantsT.cas grant.id (fun g => g.consumedAt = none ∧ g.revokedAt = none)
    (fun g => { g with revokedAt := some (utcNowText now), revocationReason := some reason })
    (fun _ => rfl) (fun _ => rfl) (.concurrencyConflict "grant revocation lost CAS")
  let denied ← denyRequest grant.requestId [.approved]
  let _ ← Db.tasksT.update
    (fun t => decide (t.id = grant.targetTaskId) && decide (t.activeCapabilityGrantId = some grant.id))
    (fun t => { t with activeCapabilityGrantId := none }) (fun _ => rfl) (fun _ => rfl)
  let fresh ← Tx.read fun db => (db.capabilityGrants.get? grant.id).bind (grantWithRun db)
  let (fresh, request, workflowRunId) ← Tx.require fresh (.runtimeError "assert fresh is not None")
  appendRevokedRequest request workflowRunId denied lease reason now
  appendGrantEvent fresh workflowRunId request.nodeRunId lease ("revoked:" ++ reason) now

/-- Revoke grants as part of a cancellation; how many there were. -/
def revokeUnconsumedForRunIn (workflowRunId : String) (lease : MasterLease) (reason : String) (now : Instant) :
    Op Nat := do
  MasterLeaseRepository.assertValidIn lease now
  let rows ← Tx.read fun db => db.capabilityGrants.rows.filter fun g =>
    decide (g.consumedAt = none ∧ g.revokedAt = none) &&
      ((grantWithRun db g).any fun p => p.2.2 = workflowRunId)
  forEach (revokeOne lease reason now) rows
  return rows.length

end ApprovalRepository

end AgentHub
