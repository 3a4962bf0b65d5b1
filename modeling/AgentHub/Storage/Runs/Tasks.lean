import AgentHub.Storage.Runs.Nodes
/-!
# Runs: tasks

A running agent node run gets one task. A privilege retry finds its task already inserted, pending and
without a runtime policy; every other task is inserted here. A task ends while its node run still runs.
-/

namespace AgentHub

open Lib

namespace WorkflowRunRepository

/-- The node run may get a task: it and its run are running, nothing is cancelled, agent and base match. -/
def checkTaskNode (node : NodeRunRow) (run : WorkflowRunRow) (agentId baseCommit : String) : Op Unit := do
  Tx.ensure (node.status = .running) (.concurrencyConflict "task can only be created for a running node")
  Tx.ensure (run.cancelRequestedAt = none) (.concurrencyConflict "workflow cancellation prevents task creation")
  Tx.ensure (run.status = .running) (.concurrencyConflict "task creation requires a running workflow")
  -- `str(None)` is the text "None"
  Tx.ensure (node.assignedAgentId.getD "None" = agentId)
    (.valueError "task agent does not match compiled node assignment")
  Tx.ensure (run.currentCommit = baseCommit)
    (.valueError "task base commit does not match workflow current commit")

/-- The runtime policy is a redacted policy of the session that no other task owns. -/
def checkPolicy (run : WorkflowRunRow) (taskId policyId : String) : Op Unit := do
  let policy ← Db.artifactsT.select policyId
  let policy ← Tx.require policy (.recordNotFound ("runtime policy artifact not found: " ++ policyId))
  Tx.ensure (policy.sessionId = run.sessionId ∧ (policy.taskId = none ∨ policy.taskId = some taskId) ∧
      policy.plannerRunId = none ∧ policy.artifactType = .runtimePolicy ∧ policy.redacted)
    (.valueError "runtime policy artifact is not an unowned task policy")

/-- Give a policy nobody owns to a task. -/
def claimPolicy (taskId policyId : String) : Op Unit :=
  Db.artifactsT.cas policyId (fun a => a.taskId = none ∧ a.plannerRunId = none)
    (fun a => { a with taskId := some taskId }) (fun _ => rfl) (fun _ => rfl)
    (.concurrencyConflict "runtime policy artifact ownership changed")

/-- Bind the policy to a task that has none yet. -/
def bindPolicy (task : TaskRow) (policyId : String) : Op Unit :=
  if task.runtimePolicyArtifactId = none then do
    claimPolicy task.id policyId
    Db.tasksT.cas task.id (fun t => t.runtimePolicyArtifactId = none)
      (fun t => { t with runtimePolicyArtifactId := some policyId }) (fun _ => rfl) (fun _ => rfl)
      (.concurrencyConflict "retry policy binding lost CAS")
  else pure ()

/-- Start a task that is there already: the pending task of a privilege retry. -/
def startRetryTask (task : TaskRow) (nodeRunId agentId baseCommit policyId : String) : Op Unit := do
  Tx.ensure (task.nodeRunId = nodeRunId ∧ task.agentId = agentId ∧ task.baseCommit = baseCommit ∧
      (task.runtimePolicyArtifactId = none ∨ task.runtimePolicyArtifactId = some policyId) ∧ task.status = .pending)
    (.concurrencyConflict "precreated privilege retry task is not pending")
  bindPolicy task policyId
  Db.tasksT.cas task.id (fun t => t.status = .pending)
    (fun t => { t with status := .running, finishedAt := none }) (fun _ => rfl) (fun _ => rfl)
    (.concurrencyConflict "precreated task start lost CAS")

/-- Insert a task that is running at once. -/
def insertTask (taskId nodeRunId agentId baseCommit policyId : String) (now : Instant) : Op Unit := do
  Db.tasksT.insert { id := taskId, nodeRunId := nodeRunId, agentId := agentId, baseCommit := baseCommit,
                     runtimePolicyArtifactId := some policyId, status := .running, createdAt := utcNowText now }
    (.integrityError "tasks")
  claimPolicy taskId policyId

def createAndStartTask (taskId nodeRunId agentId baseCommit policyId : String) (lease : MasterLease)
    (now : Instant) : Op (Option TaskRow) := do
  MasterLeaseRepository.assertValidIn lease now
  let current ← Tx.read fun db => nodeWithRun db nodeRunId
  let (node, run) ← Tx.require current (.recordNotFound ("node run not found: " ++ nodeRunId))
  checkTaskNode node run agentId baseCommit
  checkPolicy run taskId policyId
  let existing ← Db.tasksT.select taskId
  match existing with
  | none => do
    insertTask taskId nodeRunId agentId baseCommit policyId now
    appendTaskState run lease nodeRunId taskId none .pending none none now
  | some task => startRetryTask task nodeRunId agentId baseCommit policyId
  appendTaskState run lease nodeRunId taskId (some .pending) .running none none now
  Db.tasksT.select taskId

def createTask (taskId nodeRunId agentId baseCommit : String) (lease : MasterLease) (now : Instant) :
    Op (Option TaskRow) := do
  MasterLeaseRepository.assertValidIn lease now
  let current ← Tx.read fun db => nodeWithRun db nodeRunId
  let (node, run) ← Tx.require current (.recordNotFound ("node run not found: " ++ nodeRunId))
  Tx.ensure (node.status = .running) (.concurrencyConflict "task can only be created for a running node")
  Tx.ensure (run.status = .running ∧ run.cancelRequestedAt = none)
    (.concurrencyConflict "task creation requires a running workflow")
  Tx.ensure (node.assignedAgentId.getD "None" = agentId)
    (.valueError "task agent does not match compiled node assignment")
  Tx.ensure (run.currentCommit = baseCommit)
    (.valueError "task base commit does not match workflow current commit")
  Db.tasksT.insert { id := taskId, nodeRunId := nodeRunId, agentId := agentId, baseCommit := baseCommit,
                     status := .pending, createdAt := utcNowText now } (.integrityError "tasks")
  appendTaskState run lease nodeRunId taskId none .pending none none now
  Db.tasksT.select taskId

/-! ## The end of a task -/

/-- A task with its node run and run. -/
def taskWithRun (db : Db) (taskId : String) : Option (TaskRow × NodeRunRow × WorkflowRunRow) :=
  (db.tasks.get? taskId).bind fun task => (nodeWithRun db task.nodeRunId).map fun p => (task, p.1, p.2)

/-- The snapshot says whether the task writes. -/
def writesOf (H : Digests) (node : NodeRunRow) (run : WorkflowRunRow) : Op Bool := do
  Tx.ensure (H.compiled run.compiledSnapshot = run.compiledSnapshotHash)
    (.snapshotIntegrity "compiled workflow snapshot hash mismatch")
  let compiled ← Tx.require (run.compiledSnapshot.nodes.find? (fun n => n.id = node.nodeId))
    (.snapshotIntegrity "task node is absent from compiled snapshot")
  return decide (compiled.nodeType = .agentTask) && compiled.requiresWrite

/-- The ChangeSet of a write task fits how the task ended. -/
def checkCaptured (taskId : String) (target : TaskStatus) : Op Unit := do
  let changeSet ← Tx.read fun db => (db.changeSets.rows.find? (fun c => c.taskId = taskId)).map ChangeSetRow.status
  if target = .succeeded then
    Tx.ensure (changeSet = some .captured) (.snapshotIntegrity "successful write task requires a captured ChangeSet")
  else
    Tx.ensure (changeSet ≠ some .captured) (.snapshotIntegrity "failed write task cannot retain a captured ChangeSet")

/-- A write task ends under its workspace lease, a read-only task without one. -/
def checkTaskEnd (write : Bool) (run : WorkflowRunRow) (taskId : String) (target : TaskStatus)
    (workspaceLease : Option WorkspaceLease) (now : Instant) : Op Unit :=
  if write then do
    let ws ← Tx.require workspaceLease (.valueError "write task completion requires a workspace lease")
    Tx.ensure (ws.resourceKey = integrationResource run.sessionId ∧ ws.ownerKind = "agent_task" ∧
        ws.ownerOperationId = taskId)
      (.valueError "workspace lease does not own this write task")
    WorkspaceLeaseRepository.assertValidIn ws now
    checkCaptured taskId target
  else Tx.ensure workspaceLease.isNone (.valueError "read-only task completion cannot use a workspace lease")

/-- `finish_task`, which is `_transition_task` from running. -/
def finishTask (H : Digests) (taskId : String) (target : TaskStatus) (lease : MasterLease)
    (workspaceLease : Option WorkspaceLease) (errorCode : Option String) (now : Instant) : Op (Option TaskRow) := do
  Tx.ensure (target ∈ [.succeeded, .failed, .timedOut, .cancelled, .blockedByGuard, .parseFailed, .privilegeRequested,
      .orphaned]) (.valueError ("invalid task terminal status: " ++ target.value))
  Tx.ensure (target ∈ [.succeeded, .privilegeRequested] ∨ (errorCode ≠ none ∧ errorCode ≠ some ""))
    (.valueError "failed, cancelled, or blocked task completion requires error_code")
  MasterLeaseRepository.assertValidIn lease now
  let current ← Tx.read fun db => taskWithRun db taskId
  let (task, node, run) ← Tx.require current (.recordNotFound ("task not found: " ++ taskId))
  Tx.ensure (run.cancelRequestedAt = none) (.concurrencyConflict "workflow cancellation prevents task transition")
  Tx.ensure (run.status = .running) (.concurrencyConflict "task transition requires a running workflow")
  Tx.ensure (node.status = .running) (.concurrencyConflict "task transition requires a running node")
  let write ← writesOf H node run
  checkTaskEnd write run taskId target workspaceLease now
  Db.tasksT.cas taskId (fun t => t.status = .running)
    (fun t => { t with status := target, finishedAt := some (utcNowText now) }) (fun _ => rfl) (fun _ => rfl)
    (.concurrencyConflict ("task " ++ taskId ++ " expected running, found " ++ task.status.value))
  appendTaskState run lease node.id taskId (some .running) target errorCode
    (workspaceLease.map WorkspaceLease.fencingToken) now
  Db.tasksT.select taskId

end WorkflowRunRepository

end AgentHub
