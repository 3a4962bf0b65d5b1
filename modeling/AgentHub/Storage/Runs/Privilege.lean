import AgentHub.Storage.Runs.Tasks
/-!
# Runs: privilege retries

A task that asks for a privilege leaves its node run waiting. The approval supersedes that attempt and
inserts the next one, pending with its task; the capability grant then makes the new attempt ready.
Two of the statements here name a column `error_code` that `tasks` does not have.
-/

namespace AgentHub

open Lib

/-- What SQLite raises when it prepares a statement on a column the table lacks. -/
def noSuchColumn (column : String) : StorageError := .operationalError ("no such column: " ++ column)

/-- A node run of the named run with its run and its task. -/
def nodeWithTask (db : Db) (workflowRunId nodeRunId : String) : Option (NodeRunRow × WorkflowRunRow × TaskRow) :=
  (WorkflowRunRepository.nodeOfRun db workflowRunId nodeRunId).bind fun p =>
    (db.tasks.rows.find? (fun t => t.nodeRunId = nodeRunId)).map fun task => (p.1, p.2, task)

/-- The node has a later attempt. -/
def hasLaterAttempt (db : Db) (node : NodeRunRow) : Bool :=
  db.nodeRuns.rows.any fun r => decide (r.workflowRunId = node.workflowRunId) && decide (r.nodeId = node.nodeId) &&
    decide (node.attempt < r.attempt)

/-- The next attempt of the node that has a task. -/
def nextAttempt (db : Db) (node : NodeRunRow) : Option (NodeRunRow × TaskRow) :=
  let later := db.nodeRuns.rows.filterMap fun r =>
    if r.workflowRunId = node.workflowRunId ∧ r.nodeId = node.nodeId ∧ node.attempt < r.attempt then
      (db.tasks.rows.find? (fun t => t.nodeRunId = r.id)).map fun t => (r, t)
    else none
  later.foldl (fun best p => match best with
    | none => some p
    | some b => if p.1.attempt < b.1.attempt then some p else some b) none

namespace WorkflowRunRepository

/-- `_create_privilege_retry_target_in`: insert the next attempt and its task, both pending. -/
def createPrivilegeRetryTargetIn (H : Digests) (node : NodeRunRow) (task : TaskRow) (approvalId : String)
    (now : Instant) : Op Unit := do
  Tx.ensure (node.attempt < 2) (.concurrencyConflict "privilege retry exceeds the two-attempt limit")
  let later ← Tx.read fun db => hasLaterAttempt db node
  Tx.ensure (!later) (.concurrencyConflict "privilege retry target already exists")
  let targetId := H.nodeRunId node.workflowRunId node.nodeId (node.attempt + 1)
  Db.nodeRunsT.insert { id := targetId, workflowRunId := node.workflowRunId, nodeId := node.nodeId,
                        nodeType := node.nodeType, attempt := node.attempt + 1, status := .pending,
                        assignedAgentId := some (node.assignedAgentId.getD "None"), createdAt := utcNowText now,
                        errorCode := some ("privilege_retry_for:" ++ approvalId) }
    (.integrityError "node_runs")
  Db.tasksT.insert { id := H.taskIdForNode targetId, nodeRunId := targetId, agentId := task.agentId,
                     baseCommit := task.baseCommit, status := .pending, createdAt := utcNowText now }
    (.integrityError "tasks")

/-- The task of the source records that it asked for a privilege. -/
def requestPrivilege (task : TaskRow) (now : Instant) : Op Unit :=
  if task.status = .running then
    Db.tasksT.cas task.id (fun t => t.status = .running)
      (fun t => { t with status := .privilegeRequested, finishedAt := some (utcNowText now) })
      (fun _ => rfl) (fun _ => rfl) (.concurrencyConflict "privilege request lost source task CAS")
  else pure ()

theorem status_id (status : WorkflowRunStatus) (r : WorkflowRunRow) : ({ r with status := status } : WorkflowRunRow).id = r.id :=
  rfl

/-- The event of `requestPrivilege`. -/
def appendPrivilegeRequested (run : WorkflowRunRow) (lease : MasterLease) (node : NodeRunRow) (task : TaskRow)
    (code : String) (token : Nat) (now : Instant) : Op Unit :=
  if task.status = .running then
    appendTaskState run lease node.id task.id (some .running) .privilegeRequested (some code) (some token) now
  else pure ()

/-- Move the source of a privilege request and its run to waiting; the id of the retry's task. -/
def preparePrivilegeRetry (H : Digests) (workflowRunId nodeRunId approvalId : String) (lease : MasterLease)
    (workspaceLease : WorkspaceLease) (now : Instant) : Op String := do
  MasterLeaseRepository.assertValidIn lease now
  let current ← Tx.read fun db => nodeWithTask db workflowRunId nodeRunId
  let (node, run, task) ← Tx.require current (.recordNotFound ("privilege source node not found: " ++ nodeRunId))
  Tx.ensure (workspaceLease.resourceKey = integrationResource run.sessionId ∧ workspaceLease.ownerKind = "agent_task" ∧
      workspaceLease.ownerOperationId = task.id)
    (.valueError "privilege retry requires the source task workspace lease")
  WorkspaceLeaseRepository.assertValidIn workspaceLease now
  Tx.ensure (run.cancelRequestedAt = none) (.concurrencyConflict "workflow cancellation prevents privilege retry")
  Tx.ensure (node.status = .running ∧ run.status = .running ∧
      (task.status = .running ∨ task.status = .privilegeRequested))
    (.concurrencyConflict "privilege retry requires a running source task")
  let later ← Tx.read fun db => hasLaterAttempt db node
  Tx.ensure (node.attempt < 2 ∧ later = false) (.concurrencyConflict "privilege retry exceeds the two-attempt limit")
  let code := "privilege_pending:" ++ approvalId
  requestPrivilege task now
  Db.nodeRunsT.cas node.id (fun r => r.status = .running)
    (fun r => { r with status := .waitingApproval, errorCode := some code, finishedAt := none })
    (fun _ => rfl) (fun _ => rfl) (.concurrencyConflict "privilege wait lost source node CAS")
  Db.workflowRunsT.cas run.id (fun r => r.status = .running ∧ r.cancelRequestedAt = none)
    (fun r => { r with status := .waitingApproval }) (status_id .waitingApproval) (status_id .waitingApproval)
    (.concurrencyConflict "privilege wait lost workflow CAS")
  appendPrivilegeRequested run lease node task code workspaceLease.fencingToken now
  appendNodeState run lease node.id node.nodeId .running .waitingApproval none "Waiting for privilege approval."
    (some code) now
  appendRunState run lease .running .waitingApproval now
  return H.taskIdForNode (H.nodeRunId workflowRunId node.nodeId (node.attempt + 1))

/-- Supersede the source attempt. -/
def supersede (run : WorkflowRunRow) (lease : MasterLease) (node : NodeRunRow) (now : Instant) : Op Unit := do
  Db.nodeRunsT.cas node.id (fun r => r.status = .waitingApproval)
    (fun r => { r with status := .superseded, outcome := some .cancelled,
                       errorCode := some "privilege_retry_approved", finishedAt := some (utcNowText now) })
    (fun _ => rfl) (fun _ => rfl) (.concurrencyConflict "privilege approval supersede lost CAS")
  appendNodeState run lease node.id node.nodeId .waitingApproval .superseded (some .cancelled)
    "Privilege approval created a new task attempt." (some "privilege_retry_approved") now

/-- Supersede the source and create the retry target. The statement that cancels the source's task names a
column the table lacks, so nothing after it runs. -/
def approvePrivilegeIn (H : Digests) (workflowRunId nodeRunId approvalId : String) (now : Instant) : Op String := do
  let current ← Tx.read fun db => nodeWithTask db workflowRunId nodeRunId
  let (node, run, task) ← Tx.require current (.recordNotFound ("privilege node not found: " ++ nodeRunId))
  Tx.ensure (node.status = .waitingApproval ∧ run.status = .waitingApproval ∧ run.cancelRequestedAt = none ∧
      task.status = .privilegeRequested)
    (.concurrencyConflict "privilege approval requires a waiting source attempt")
  createPrivilegeRetryTargetIn H node task approvalId now
  Tx.fail (noSuchColumn "error_code")

/-- The retry target, created when it is missing. -/
def ensureRetryTarget (H : Digests) (node : NodeRunRow) (task : TaskRow) (now : Instant) : Op Unit := do
  let target ← Tx.read fun db => nextAttempt db node
  if target.isNone then createPrivilegeRetryTargetIn H node task "legacy-approval" now else pure ()

/-- Resume after the decision on a privilege request. A rejection starts with the statement that names a
column the table lacks, so nothing after it runs. -/
def resumePrivilegeAfterApprovalIn (H : Digests) (workflowRunId nodeRunId : String) (approved : Bool)
    (lease : MasterLease) (now : Instant) : Op Unit := do
  let current ← Tx.read fun db => nodeWithTask db workflowRunId nodeRunId
  let (node, run, task) ← Tx.require current (.recordNotFound ("privilege node not found: " ++ nodeRunId))
  Tx.ensure (node.status = .waitingApproval ∧ run.status = .waitingApproval ∧ run.cancelRequestedAt = none)
    (.concurrencyConflict "privilege approval resume requires a waiting workflow")
  if approved then do
    ensureRetryTarget H node task now
    supersede run lease node now
  else Tx.fail (noSuchColumn "error_code")

/-- A waiting run goes on; whether it did is recorded. -/
def wakeRun (run : WorkflowRunRow) (lease : MasterLease) (now : Instant) : Op Unit := do
  let changed ← Db.workflowRunsT.update
    (fun r => decide (r.id = run.id) && decide (r.status = .waitingApproval ∧ r.cancelRequestedAt = none))
    (fun r => { r with status := .running }) (status_id .running) (status_id .running)
  if changed = 1 then appendRunState run lease .waitingApproval .running now else pure ()

/-- Make the pending target of a capability grant ready. -/
def activateTarget (node : NodeRunRow) (run : WorkflowRunRow) (task : TaskRow) (lease : MasterLease) (now : Instant) :
    Op Unit :=
  if node.status = .ready then pure ()
  else do
    Tx.ensure (node.status = .pending ∧ task.status = .pending ∧ run.cancelRequestedAt = none)
      (.concurrencyConflict "capability target is not a pending retry")
    Db.nodeRunsT.cas node.id (fun r => r.status = .pending)
      (fun r => { r with status := .ready, errorCode := none }) (fun _ => rfl) (fun _ => rfl)
      (.concurrencyConflict "capability target ready CAS lost")
    appendNodeState run lease node.id node.nodeId .pending .ready none "Capability grant activated the retry task."
      none now
    wakeRun run lease now

def activateCapabilityTargetIn (targetTaskId : String) (lease : MasterLease) (now : Instant) : Op Unit := do
  let current ← Tx.read fun db => (db.tasks.get? targetTaskId).bind fun task =>
    (nodeWithRun db task.nodeRunId).map fun p => (p.1, p.2, task)
  let (node, run, task) ← Tx.require current (.recordNotFound ("capability target task not found: " ++ targetTaskId))
  activateTarget node run task lease now

end WorkflowRunRepository

end AgentHub
