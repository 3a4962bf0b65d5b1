import AgentHub.Storage.Approvals
import AgentHub.Storage.Runs.Tasks
/-!
# ChangeSets

`persist_capture` stores what a write task changed and ends the task in the same transaction; `transition`
moves a ChangeSet along `_TRANSITIONS`. A capture comes here with its digests checked and its artifacts
staged; the files of the artifact store are not part of the database.
-/

namespace AgentHub

open Lib

def ChangeSetStatus.value : ChangeSetStatus → String
  | .captured => "captured" | .guardPassed => "guard_passed" | .guardRejected => "guard_rejected"
  | .testPassed => "test_passed" | .testFailed => "test_failed" | .policyRejected => "policy_rejected"
  | .pendingApproval => "pending_approval" | .approved => "approved" | .rejected => "rejected"
  | .cancelled => "cancelled" | .stale => "stale" | .merged => "merged"
  | .abandonedPartial => "abandoned_partial" | .quarantined => "quarantined"

/-- `_TRANSITIONS`. -/
def ChangeSetStatus.transitions : ChangeSetStatus → List ChangeSetStatus
  | .captured => [.guardPassed, .guardRejected, .abandonedPartial, .quarantined, .cancelled]
  | .guardPassed => [.testPassed, .testFailed, .stale, .cancelled]
  | .testPassed => [.pendingApproval, .policyRejected, .stale, .cancelled]
  | .pendingApproval => [.approved, .rejected, .stale, .cancelled]
  | .approved => [.merged, .stale, .cancelled]
  | _ => []

/-- A captured change: the id derived from it, its base commit, the digest of its patch and its artifacts. -/
structure Capture where
  changeSetId : String
  baseCommit : String
  patchSha256 : String
  staged : List ArtifactRow
  deriving DecidableEq, Repr

/-- The limits of the artifact store. -/
structure ArtifactLimits where
  maxArtifactBytes : Nat
  maxSessionArtifactBytes : Nat

namespace ArtifactRepository

/-- `_validate_owner_in` for an artifact of a task. -/
def validateOwner (record : ArtifactRow) (taskId : String) : Op Unit := do
  let session ← Db.sessionsT.select record.sessionId
  let _ ← Tx.require session (.recordNotFound ("session not found: " ++ record.sessionId))
  let owner ← Tx.read fun db => WorkflowRunRepository.taskWithRun db taskId
  let (_, _, run) ← Tx.require owner (.recordNotFound ("task not found: " ++ taskId))
  Tx.ensure (run.sessionId = record.sessionId)
    (.containmentViolation ("task " ++ taskId ++ " does not belong to session " ++ record.sessionId))

/-- `publish_staged_in` with `allow_existing`: register an artifact of a task, or find it registered. -/
def publishStaged (limits : ArtifactLimits) (taskId : String) (record : ArtifactRow) : Op Unit := do
  validateOwner record taskId
  let existing ← Db.artifactsT.select record.id
  match existing with
  | some existing =>
    Tx.ensure (existing = record) (.containmentViolation ("existing artifact metadata mismatch: " ++ record.id))
  | none => do
    Tx.ensure (record.sizeBytes ≤ limits.maxArtifactBytes) (.quotaExceeded "artifact size exceeds per-artifact limit")
    let total ← Tx.read fun db =>
      ((db.artifacts.rows.filter fun a => a.sessionId = record.sessionId).map ArtifactRow.sizeBytes).sum
    Tx.ensure (total + record.sizeBytes ≤ limits.maxSessionArtifactBytes)
      (.quotaExceeded ("session " ++ record.sessionId ++ " artifact quota exceeded"))
    Db.artifactsT.insert record (.integrityError "artifacts")

end ArtifactRepository

namespace ChangeSetRepository

/-! ## Events -/

/-- `append_in` for an event of a run, by the system. -/
def appendSystemIn (sessionId eventType : String) (payload : EventPayload) (workflowId workflowRunId : String)
    (now : Instant) : Op Unit := do
  let session ← Db.sessionsT.select sessionId
  let _ ← Tx.require session (.recordNotFound ("session not found: " ++ sessionId))
  let seq ← EventRepository.allocateSeq sessionId workflowId workflowRunId
  Tx.write fun db => { db with events := db.events ++
    [⟨sessionId, some workflowId, some workflowRunId, some seq, eventType, .system, none, payload, utcNowText now⟩] }

def payload (lineage : TaskRow × NodeRunRow × WorkflowRunRow) (changeSetId patchSha256 : String)
    (previous : Option ChangeSetStatus) (status : ChangeSetStatus) (lease : MasterLease)
    (workspaceLease : Option WorkspaceLease) (reason : Option String) : EventPayload :=
  .changeSet lease.fencingToken (workspaceLease.map WorkspaceLease.fencingToken) lineage.2.2.id lineage.2.1.id
    lineage.1.id changeSetId previous status patchSha256 reason

/-- `_append_state_event_in`. -/
def appendStateEvent (lineage : TaskRow × NodeRunRow × WorkflowRunRow) (changeSetId patchSha256 : String)
    (previous : Option ChangeSetStatus) (status : ChangeSetStatus) (lease : MasterLease)
    (workspaceLease : Option WorkspaceLease) (reason : Option String) (now : Instant) : Op Unit :=
  appendSystemIn lineage.2.2.sessionId changeSetStateChanged
    (payload lineage changeSetId patchSha256 previous status lease workspaceLease reason) lineage.2.2.workflowId
    lineage.2.2.id now

/-- `_append_security_event_in`. -/
def appendSecurityEvent (lineage : TaskRow × NodeRunRow × WorkflowRunRow) (changeSetId patchSha256 : String)
    (previous : Option ChangeSetStatus) (status : ChangeSetStatus) (reason severity : String) (lease : MasterLease)
    (workspaceLease : Option WorkspaceLease) (now : Instant) : Op Unit :=
  Tx.write fun db => { db with securityEvents := db.securityEvents ++
    [⟨lineage.2.2.sessionId, some lineage.2.2.id, some lineage.1.id, "changeset.state_rejected", severity,
      payload lineage changeSetId patchSha256 previous status lease workspaceLease (some reason), utcNowText now⟩] }

/-! ## Capturing -/

/-- The task, its node run and its run all run, on the commit the capture was made on. -/
def validateLineage (H : Digests) (lineage : TaskRow × NodeRunRow × WorkflowRunRow)
    (sessionId workflowRunId nodeRunId baseCommit : String) : Op Unit := do
  let (task, node, run) := lineage
  let mismatch field : StorageError := .changeSetIntegrity ("ChangeSet lineage mismatch for " ++ field)
  Tx.ensure (run.sessionId = sessionId) (mismatch "session_id")
  Tx.ensure (run.id = workflowRunId) (mismatch "workflow_run_id")
  Tx.ensure (node.id = nodeRunId) (mismatch "node_run_id")
  Tx.ensure (task.baseCommit = baseCommit) (mismatch "base_commit")
  Tx.ensure (run.currentCommit = baseCommit) (mismatch "current_commit")
  Tx.ensure (node.nodeType = .agentTask) (mismatch "node_type")
  Tx.ensure (task.status = .running) (mismatch "task_status")
  Tx.ensure (node.status = .running) (mismatch "node_status")
  Tx.ensure (run.status = .running) (mismatch "run_status")
  Tx.ensure (run.cancelRequestedAt = none) (.concurrencyConflict "workflow cancellation prevents ChangeSet capture")
  Tx.ensure (H.compiled run.compiledSnapshot = run.compiledSnapshotHash)
    (.changeSetIntegrity "compiled workflow snapshot hash mismatch")
  Tx.ensure ((run.compiledSnapshot.nodes.find? (fun n => n.id = node.nodeId)).any fun n =>
      n.nodeType = .agentTask ∧ n.requiresWrite)
    (.changeSetIntegrity "capture task is not a write AgentTask in the immutable snapshot")

/-- `_insert_capture_in`. -/
def insertCapture (lineage : TaskRow × NodeRunRow × WorkflowRunRow) (capture : Capture) (status : ChangeSetStatus)
    (reason : Option String) (lease : MasterLease) (workspaceLease : WorkspaceLease) (now : Instant) : Op Unit := do
  let (task, node, _) := lineage
  Db.changeSetsT.insert { id := capture.changeSetId, taskId := task.id, baseCommit := capture.baseCommit,
                          patchSha256 := capture.patchSha256, status := status, createdAt := utcNowText now,
                          updatedAt := utcNowText now } (.integrityError "change_sets")
  Db.nodeRunsT.cas node.id (fun n => n.changeSetId = none) (fun n => { n with changeSetId := some capture.changeSetId })
    (fun _ => rfl) (fun _ => rfl) (.concurrencyConflict "AgentTask node already references another ChangeSet")
  appendStateEvent lineage capture.changeSetId capture.patchSha256 none status lease (some workspaceLease) reason now
  -- `reason or "…"`: an empty reason is replaced too
  if status = .abandonedPartial then
    appendSecurityEvent lineage capture.changeSetId capture.patchSha256 none status
      ((reason.filter (· ≠ "")).getD "AgentTask failed after modifying the workspace") "high" lease (some workspaceLease)
      now
  else pure ()

theorem finished_id (target : TaskStatus) (now : Instant) (t : TaskRow) :
    ({ t with status := target, finishedAt := some (utcNowText now) } : TaskRow).id = t.id := rfl

theorem finished_nodeRunId (target : TaskStatus) (now : Instant) (t : TaskRow) :
    ({ t with status := target, finishedAt := some (utcNowText now) } : TaskRow).nodeRunId = t.nodeRunId := rfl

/-- `_finish_task_in`. -/
def finishTask (lineage : TaskRow × NodeRunRow × WorkflowRunRow) (target : TaskStatus) (errorCode : Option String)
    (lease : MasterLease) (workspaceLease : WorkspaceLease) (now : Instant) : Op Unit := do
  let (task, node, run) := lineage
  Db.tasksT.cas task.id (fun t => t.status = .running)
    (fun t => { t with status := target, finishedAt := some (utcNowText now) }) (finished_id target now)
    (finished_nodeRunId target now)
    (.concurrencyConflict "capture lost the write task terminal-state CAS")
  WorkflowRunRepository.appendTaskState run lease node.id task.id (some .running) target errorCode
    (some workspaceLease.fencingToken) now

/-- How the capture and its task end belong together. -/
def checkTargets (status : ChangeSetStatus) (taskTarget : TaskStatus) (taskErrorCode : Option String) : Op Unit := do
  Tx.ensure (status ∈ [.captured, .abandonedPartial])
    (.valueError "capture status must be captured or abandoned_partial")
  Tx.ensure (taskTarget ∉ [.pending, .running]) (.valueError "capture must atomically finalize its write task")
  if taskTarget = .succeeded then
    Tx.ensure (status = .captured ∧ taskErrorCode = none)
      (.valueError "successful write task requires a captured ChangeSet")
  else do
    Tx.ensure (status = .abandonedPartial) (.valueError "failed write task requires an abandoned ChangeSet")
    Tx.ensure (taskErrorCode ≠ none ∧ taskErrorCode ≠ some "") (.valueError "failed write task requires an error code")

def persistCapture (H : Digests) (limits : ArtifactLimits) (sessionId workflowRunId nodeRunId taskId : String)
    (capture : Capture) (taskTarget : TaskStatus) (taskErrorCode : Option String) (status : ChangeSetStatus)
    (reason : Option String) (lease : MasterLease) (workspaceLease : WorkspaceLease) (now : Instant) : Op Unit := do
  checkTargets status taskTarget taskErrorCode
  MasterLeaseRepository.assertValidIn lease now
  Tx.ensure (workspaceLease.resourceKey = integrationResource sessionId)
    (.valueError "workspace lease does not belong to the requested session")
  WorkspaceLeaseRepository.assertValidIn workspaceLease now
  Tx.ensure (workspaceLease.ownerKind = "agent_task" ∧ workspaceLease.ownerOperationId = taskId)
    (.changeSetIntegrity "capture requires the matching AgentTask workspace lease")
  let lineage ← Tx.read fun db => WorkflowRunRepository.taskWithRun db taskId
  let lineage ← Tx.require lineage (.recordNotFound ("task not found: " ++ taskId))
  validateLineage H lineage sessionId workflowRunId nodeRunId capture.baseCommit
  let existing ← Tx.read fun db => db.changeSets.rows.any fun c => c.taskId = taskId
  Tx.ensure (!existing) (.concurrencyConflict "running task already owns a ChangeSet capture")
  ApprovalRepository.forEach (ArtifactRepository.publishStaged limits taskId) capture.staged
  insertCapture lineage capture status reason lease workspaceLease now
  finishTask lineage taskTarget taskErrorCode lease workspaceLease now

/-! ## Transitions -/

/-- A ChangeSet with its task, node run and run. -/
def changeSetLineage (db : Db) (changeSetId : String) : Option (ChangeSetRow × TaskRow × NodeRunRow × WorkflowRunRow) :=
  (db.changeSets.get? changeSetId).bind fun changeSet =>
    (WorkflowRunRepository.taskWithRun db changeSet.taskId).map fun lineage => (changeSet, lineage)

/-- The lease handed in, if any, is the session's and still valid. -/
def checkLease (workspaceLease : Option WorkspaceLease) (sessionId : String) (now : Instant) : Op Unit :=
  match workspaceLease with
  | none => pure ()
  | some ws => do
    Tx.ensure (ws.resourceKey = integrationResource sessionId)
      (.valueError "workspace lease does not belong to the requested session")
    WorkspaceLeaseRepository.assertValidIn ws now

/-- Move a ChangeSet along `_TRANSITIONS`. The run it belongs to is read for the event only. -/
def transition (changeSetId : String) (expected target : ChangeSetStatus) (lease : MasterLease)
    (workspaceLease : Option WorkspaceLease) (reason severity : Option String) (now : Instant) : Op Unit := do
  Tx.ensure (target ∈ expected.transitions)
    (.valueError ("invalid ChangeSet transition: " ++ expected.value ++ " -> " ++ target.value))
  Tx.ensure (severity = none ∨ (reason ≠ none ∧ reason ≠ some ""))
    (.valueError "security event transitions require a reason")
  MasterLeaseRepository.assertValidIn lease now
  let row ← Tx.read fun db => changeSetLineage db changeSetId
  let (changeSet, lineage) ← Tx.require row (.recordNotFound ("ChangeSet not found: " ++ changeSetId))
  checkLease workspaceLease lineage.2.2.sessionId now
  Db.changeSetsT.cas changeSetId (fun c => c.status = expected)
    (fun c => { c with status := target, updatedAt := utcNowText now }) (fun _ => rfl) (fun _ => rfl)
    (.concurrencyConflict ("ChangeSet " ++ changeSetId ++ " did not have status " ++ expected.value))
  appendStateEvent lineage changeSetId changeSet.patchSha256 (some expected) target lease workspaceLease reason now
  match severity with
  | none => pure ()
  | some severity =>
    appendSecurityEvent lineage changeSetId changeSet.patchSha256 (some expected) target (reason.getD "") severity lease
      workspaceLease now

end ChangeSetRepository

end AgentHub
