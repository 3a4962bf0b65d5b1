import AgentHub.Storage.Approvals.Requests
import AgentHub.Storage.Runs.Privilege
/-!
# Capability grants

A grant is created for an approved request and the next attempt of its node, consumed once by that attempt
under the session's workspace lease, or revoked. Both ways to create one check the same things with
statements of their own, so each keeps its own body.
-/

namespace AgentHub

open Lib

/-- A grant to create, its expiry aside. -/
structure CapabilityGrant where
  grantId : String
  requestId : String
  targetTaskId : String
  action : PrivilegeAction
  resource : String
  deriving DecidableEq, Repr

namespace ApprovalRepository

/-! ## The rows a grant joins -/

/-- A request with its source task, source node run and run. -/
structure GrantSource where
  request : PrivilegeRequestRow
  task : TaskRow
  node : NodeRunRow

def grantSource (db : Db) (requestId : String) : Option GrantSource :=
  (db.privilegeRequests.get? requestId).bind fun request =>
    (db.tasks.get? request.taskId).bind fun task =>
      (db.nodeRuns.get? request.nodeRunId).map fun node => ⟨request, task, node⟩

/-- A task with its node run and run. -/
structure GrantTarget where
  task : TaskRow
  node : NodeRunRow
  run : WorkflowRunRow

def grantTarget (db : Db) (taskId : String) : Option GrantTarget :=
  (db.tasks.get? taskId).bind fun task =>
    (WorkflowRunRepository.nodeWithRun db task.nodeRunId).map fun p => ⟨task, p.1, p.2⟩

/-- The latest approval of a request. -/
def latestApproval (db : Db) (requestId : String) : Option ApprovalRow :=
  latest (db.approvals.rows.filter fun a => a.privilegeRequestId = some requestId)

/-- The approval is approved and has not expired. -/
def covers (nowText : String) (approval : ApprovalRow) : Bool :=
  decide (approval.status = .approved) && decide (nowText < approval.expiresAt)

/-- The stored grant of a request is the one asked for. -/
def sameGrant (existing : CapabilityGrantRow) (grant : CapabilityGrant) (request : PrivilegeRequestRow) : Op Unit :=
  Tx.ensure (existing.id = grant.grantId ∧ existing.targetTaskId = grant.targetTaskId ∧
      existing.action = grant.action.value ∧ existing.resource = grant.resource ∧
      existing.resourceSeal = request.resourceSeal)
    (.concurrencyConflict "capability grant subject drifted")

def grantRow (grant : CapabilityGrant) (request : PrivilegeRequestRow) (expiresAt : String) : CapabilityGrantRow where
  id := grant.grantId
  requestId := grant.requestId
  targetTaskId := grant.targetTaskId
  action := grant.action.value
  resource := grant.resource
  resourceSeal := request.resourceSeal
  expiresAt := expiresAt

/-- Insert a grant; `target_task_id` is unique as `request_id` is. -/
def insertGrant (row : CapabilityGrantRow) : Op Unit := do
  let bound ← Tx.read fun db => db.capabilityGrants.rows.any fun g => g.targetTaskId = row.targetTaskId
  Tx.ensure (!bound) (.integrityError "capability_grants")
  Db.capabilityGrantsT.insert row (.integrityError "capability_grants")

/-- Bind a new grant to its target task. -/
def bindGrant (grantId targetTaskId : String) : Op Unit :=
  Db.tasksT.cas targetTaskId (fun t => t.activeCapabilityGrantId = none)
    (fun t => { t with activeCapabilityGrantId := some grantId }) (fun _ => rfl) (fun _ => rfl)
    (.concurrencyConflict "grant target capability binding lost CAS")

/-! ## Creating -/

/-- The target of a grant is the next attempt of the request's node, by the same agent, in a live run. -/
def fitsTarget (H : Digests) (grant : CapabilityGrant) (workflowRunId : String) (source : GrantSource)
    (target : GrantTarget) : Bool :=
  decide (target.run.id = workflowRunId ∧ target.node.nodeId = source.node.nodeId ∧
    target.node.attempt = source.node.attempt + 1 ∧ target.task.id = H.taskIdForNode target.node.id ∧
    target.task.agentId = source.task.agentId ∧ target.run.cancelRequestedAt = none ∧
    target.run.status.refusesApproval = false ∧
    (target.task.activeCapabilityGrantId = none ∨ target.task.activeCapabilityGrantId = some grant.grantId))

/-- The request is the one the grant names, approved and sealed, with an approval in force. -/
def checkSource (grant : CapabilityGrant) (workflowRunId sourceTaskId : String) (source : GrantSource)
    (now : Instant) : Op Unit := do
  Tx.ensure (source.request.taskId = sourceTaskId) (.valueError "grant source task mismatch")
  Tx.ensure (source.node.workflowRunId = workflowRunId) (.valueError "grant workflow mismatch")
  Tx.ensure (source.request.action = grant.action.value ∧ source.request.resource = grant.resource)
    (.valueError "grant action/resource mismatch")
  Tx.ensure (source.request.status = .approved) (.concurrencyConflict "privilege request is not approved")
  requireResourceSeal source.request
  let approval ← Tx.read fun db => latestApproval db grant.requestId
  Tx.ensure (approval.any (covers (utcNowText now)))
    (.concurrencyConflict "grant requires an approved PrivilegeApproval")

/-- Activate the target of a stored grant that still waits for it. -/
def reactivate (runs : Bool) (grant : CapabilityGrant) (target : GrantTarget) (lease : MasterLease) (now : Instant) :
    Op Unit := do
  let _ ← Db.tasksT.update (fun t => decide (t.id = grant.targetTaskId) && decide (t.activeCapabilityGrantId = none))
    (fun t => { t with activeCapabilityGrantId := some grant.grantId }) (fun _ => rfl) (fun _ => rfl)
  if runs ∧ target.node.status = .pending then
    WorkflowRunRepository.activateCapabilityTargetIn grant.targetTaskId lease now
  else pure ()

/-- Activate the target of a new grant, if the workflow-run repository is wired in. -/
def activateWired (runs : Bool) (targetTaskId : String) (lease : MasterLease) (now : Instant) : Op Unit :=
  if runs then WorkflowRunRepository.activateCapabilityTargetIn targetTaskId lease now else pure ()

/-- Insert a grant, bind it and activate its target. -/
def createBound (runs : Bool) (grant : CapabilityGrant) (expiresAt workflowRunId reason : String)
    (source : GrantSource) (lease : MasterLease) (now : Instant) : Op CapabilityGrantRow := do
  insertGrant (grantRow grant source.request expiresAt)
  bindGrant grant.grantId grant.targetTaskId
  let row ← Db.capabilityGrantsT.select grant.grantId
  let row ← Tx.require row (.runtimeError "assert row is not None")
  appendGrantEvent row workflowRunId source.node.id lease reason now
  activateWired runs grant.targetTaskId lease now
  return row

/-- `runs` says whether the workflow-run repository is wired in. -/
def createGrant (H : Digests) (runs : Bool) (grant : CapabilityGrant) (expiresAt : Instant)
    (workflowRunId sourceTaskId : String) (lease : MasterLease) (now : Instant) : Op CapabilityGrantRow := do
  MasterLeaseRepository.assertValidIn lease now
  let source ← Tx.read fun db => grantSource db grant.requestId
  let source ← Tx.require source (.recordNotFound ("privilege request not found: " ++ grant.requestId))
  checkSource grant workflowRunId sourceTaskId source now
  let target ← Tx.read fun db => grantTarget db grant.targetTaskId
  let target ← Tx.require target (.recordNotFound ("grant target task not found: " ++ grant.targetTaskId))
  Tx.ensure (fitsTarget H grant workflowRunId source target) (.valueError "grant target must be same node attempt+1")
  let existing ← Tx.read fun db => db.capabilityGrants.rows.find? fun g => g.requestId = grant.requestId
  match existing with
  | some existing => do
    sameGrant existing grant source.request
    reactivate runs grant target lease now
    return existing
  | none => do
    Tx.ensure (target.task.status = .pending ∧ target.node.status = .pending)
      (.concurrencyConflict "grant target must be a pending retry task")
    createBound runs grant (utcNowText expiresAt) workflowRunId "created" source lease now

/-- The same checks in the transaction of a decision, as `_create_approved_grant_in` makes them. -/
def checkApproved (H : Digests) (grant : CapabilityGrant) (workflowRunId sourceTaskId : String) (source : GrantSource)
    (now : Instant) : Op Unit := do
  Tx.ensure (source.request.taskId = sourceTaskId ∧ source.node.workflowRunId = workflowRunId ∧
      source.request.status = .approved ∧ source.request.action = grant.action.value ∧
      source.request.resource = grant.resource)
    (.concurrencyConflict "approved privilege grant subject drifted")
  requireResourceSeal source.request
  let approval ← Tx.read fun db => latestApproval db grant.requestId
  Tx.ensure (approval.any (covers (utcNowText now)))
    (.concurrencyConflict "grant requires an unexpired approved PrivilegeApproval")
  let target ← Tx.read fun db => grantTarget db grant.targetTaskId
  let target ← Tx.require target (.recordNotFound ("grant target task not found: " ++ grant.targetTaskId))
  Tx.ensure (target.run.id = workflowRunId ∧ target.node.nodeId = source.node.nodeId ∧
      target.node.attempt = source.node.attempt + 1 ∧ target.task.id = H.taskIdForNode target.node.id ∧
      target.task.agentId = source.task.agentId ∧ target.task.status = .pending ∧ target.node.status = .pending ∧
      target.run.cancelRequestedAt = none)
    (.valueError "grant target must be the exact pending attempt+1 task")

/-- `_create_approved_grant_in`: bind an approved request to its retry and activate it. The expiry is the
text of the earlier of the approval's and the grant's own. -/
def createApprovedGrantIn (H : Digests) (grant : CapabilityGrant) (expiresAt workflowRunId sourceTaskId : String)
    (lease : MasterLease) (now : Instant) : Op CapabilityGrantRow := do
  let source ← Tx.read fun db => grantSource db grant.requestId
  let source ← Tx.require source (.recordNotFound ("privilege request not found: " ++ grant.requestId))
  checkApproved H grant workflowRunId sourceTaskId source now
  let existing ← Tx.read fun db => db.capabilityGrants.rows.find? fun g => g.requestId = grant.requestId
  match existing with
  | some existing => do
    sameGrant existing grant source.request
    return existing
  | none => createBound true grant expiresAt workflowRunId "created_with_privilege_approval" source lease now

/-! ## Consuming -/

/-- What the join of a consumption reads: the grant, its request with node run and run, an approval of the
request, and the target. -/
structure GrantUse where
  grant : CapabilityGrantRow
  request : PrivilegeRequestRow
  node : NodeRunRow
  run : WorkflowRunRow
  approval : ApprovalRow
  target : GrantTarget

/-- The first row of the join, approvals in table order. -/
def grantUse (db : Db) (grantId : String) : Option GrantUse :=
  (db.capabilityGrants.get? grantId).bind fun grant =>
    (db.privilegeRequests.get? grant.requestId).bind fun request =>
      (WorkflowRunRepository.nodeWithRun db request.nodeRunId).bind fun p =>
        (db.approvals.rows.find? fun a => a.privilegeRequestId = some request.id).bind fun approval =>
          (grantTarget db grant.targetTaskId).map fun target => ⟨grant, request, p.1, p.2, approval, target⟩

/-- The grant is for this task, action and resource, its target runs, and its request is still approved. -/
def checkUse (grantId targetTaskId : String) (action : PrivilegeAction) (resource : String) (use : GrantUse)
    (now : Instant) : Op Unit := do
  -- `str(None)` is the text "None"
  Tx.ensure (use.grant.targetTaskId = targetTaskId ∧ use.grant.action = action.value ∧ use.grant.resource = resource ∧
      use.target.task.activeCapabilityGrantId.getD "None" = grantId)
    (.valueError "grant target/action/resource mismatch")
  Tx.ensure (use.target.run.id = use.run.id ∧ use.target.run.sessionId = use.run.sessionId ∧
      use.target.run.cancelRequestedAt = none ∧ use.target.run.status = .running ∧ use.target.node.status = .running)
    (.concurrencyConflict "grant target workflow is cancelled or not running")
  Tx.ensure (decide (use.request.status = .approved) && covers (utcNowText now) use.approval)
    (.concurrencyConflict "privilege request is no longer approved")

/-- The lease handed in is the target task's lease on the session, and the lock row still is that lease. -/
def checkFence (targetTaskId sessionId : String) (workspaceLease : Option WorkspaceLease) (now : Instant) :
    Op WorkspaceLease := do
  let ws ← Tx.require workspaceLease (.valueError "workspace lease is required to consume a grant")
  Tx.ensure (ws.ownerKind = "agent_task" ∧ ws.ownerOperationId = targetTaskId)
    (.valueError "grant workspace lease is not bound to the target AgentTask")
  Tx.ensure (ws.resourceKey = integrationResource sessionId)
    (.valueError "grant workspace lease belongs to another session")
  let lock ← Db.fileLocksT.select (integrationResource sessionId)
  Tx.ensure (lock.any (WorkspaceLeaseRepository.holds ws (utcNowText now)))
    (.concurrencyConflict "grant consumption lacks the bound workspace fence")
  return ws

theorem unbound_id (t : TaskRow) : ({ t with activeCapabilityGrantId := none } : TaskRow).id = t.id := rfl

theorem unbound_nodeRunId (t : TaskRow) : ({ t with activeCapabilityGrantId := none } : TaskRow).nodeRunId = t.nodeRunId := rfl

/-- The writes of a consumption: the grant, its request and the binding of its target. -/
def markConsumed (grantId targetTaskId : String) (action : PrivilegeAction) (resource requestId : String)
    (fencingToken : Nat) (now : Instant) : Op Unit := do
  Db.capabilityGrantsT.cas grantId
    (fun g => decide (g.targetTaskId = targetTaskId ∧ g.action = action.value ∧ g.resource = resource ∧
      g.consumedAt = none ∧ g.revokedAt = none ∧ utcNowText now < g.expiresAt))
    (fun g => { g with consumedAt := some (utcNowText now), consumedFencingToken := some fencingToken })
    (fun _ => rfl) (fun _ => rfl) (.concurrencyConflict "grant is expired, revoked, or already consumed")
  Db.privilegeRequestsT.cas requestId (fun r => r.status = .approved) (fun r => { r with status := .consumed })
    (fun _ => rfl) (fun _ => rfl) (.concurrencyConflict "privilege request consumption lost CAS")
  let _ ← Db.tasksT.update
    (fun t => decide (t.id = targetTaskId) && decide (t.activeCapabilityGrantId = some grantId))
    (fun t => { t with activeCapabilityGrantId := none }) unbound_id unbound_nodeRunId

def consumeGrant (grantId targetTaskId : String) (action : PrivilegeAction) (resource : String) (lease : MasterLease)
    (workspaceLease : Option WorkspaceLease) (now : Instant) : Op CapabilityGrantRow := do
  MasterLeaseRepository.assertValidIn lease now
  let row ← Tx.read fun db => grantUse db grantId
  let use ← Tx.require row (.recordNotFound ("capability grant not found: " ++ grantId))
  checkUse grantId targetTaskId action resource use now
  let ws ← checkFence targetTaskId use.target.run.sessionId workspaceLease now
  markConsumed grantId targetTaskId action resource use.grant.requestId ws.fencingToken now
  let fresh ← Tx.read fun db => (db.capabilityGrants.get? grantId).bind (grantWithRun db)
  let (fresh, request, workflowRunId) ← Tx.require fresh (.runtimeError "assert fresh is not None")
  appendGrantEvent fresh workflowRunId request.nodeRunId lease "consumed" now
  return fresh

/-! ## Revoking on its own -/

theorem revoked_id (reason : String) (now : Instant) (g : CapabilityGrantRow) :
    ({ g with revokedAt := some (utcNowText now), revocationReason := some reason } : CapabilityGrantRow).id = g.id := rfl

theorem revoked_requestId (reason : String) (now : Instant) (g : CapabilityGrantRow) :
    ({ g with revokedAt := some (utcNowText now), revocationReason := some reason } : CapabilityGrantRow).requestId =
      g.requestId := rfl

/-- Revoke one grant. The row the loop reads has no `task_id`, which the event of a denied request asks for. -/
def revokeStale (lease : MasterLease) (reason : String) (now : Instant) (grant : CapabilityGrantRow) : Op Nat := do
  let changed ← Db.capabilityGrantsT.update
    (fun g => decide (g.id = grant.id) && decide (g.consumedAt = none ∧ g.revokedAt = none))
    (fun g => { g with revokedAt := some (utcNowText now), revocationReason := some reason })
    (revoked_id reason now) (revoked_requestId reason now)
  if changed = 1 then do
    let denied ← denyRequest grant.requestId [.approved]
    let _ ← Db.tasksT.update
      (fun t => decide (t.id = grant.targetTaskId) && decide (t.activeCapabilityGrantId = some grant.id))
      (fun t => { t with activeCapabilityGrantId := none }) unbound_id unbound_nodeRunId
    let fresh ← Tx.read fun db => (db.capabilityGrants.get? grant.id).bind (grantWithRun db)
    let (fresh, request, workflowRunId) ← Tx.require fresh (.runtimeError "assert fresh is not None")
    Tx.ensure (!denied) (.indexError "No item with that key")
    appendGrantEvent fresh workflowRunId request.nodeRunId lease ("revoked:" ++ reason) now
    return 1
  else return 0

/-- What a step returns for every row, in order. -/
def mapEach {ρ α : Type} (step : ρ → Op α) : List ρ → Op (List α)
  | [] => return []
  | r :: rs => do
    let a ← step r
    let as ← mapEach step rs
    return a :: as

def revokeUnconsumedForRun (workflowRunId : String) (lease : MasterLease) (reason : String) (now : Instant) :
    Op Nat := do
  MasterLeaseRepository.assertValidIn lease now
  let rows ← Tx.read fun db => db.capabilityGrants.rows.filter fun g =>
    decide (g.consumedAt = none ∧ g.revokedAt = none) &&
      ((grantWithRun db g).any fun p => p.2.2 = workflowRunId)
  let counts ← mapEach (revokeStale lease reason now) rows
  return counts.sum

end ApprovalRepository

end AgentHub
