import AgentHub.Storage.Runs.Base
/-!
# Runs: scheduling node runs

Starting a run, claiming and completing its nodes, and the two ways a node waits for an approval and
comes back.
-/

namespace AgentHub

open Lib

/-- The lock every write to a session's workspace is made under. -/
def integrationResource (sessionId : String) : String := "session:" ++ sessionId ++ ":integration"

namespace WorkflowRunRepository

/-! ## Starting and claiming -/

/-- The pending part of `start_and_reconcile`: a pending run becomes running. -/
def startIfPending (row : WorkflowRunRow) (lease : MasterLease) (now : Instant) : Op WorkflowRunRow :=
  if row.status = .pending then do
    Db.workflowRunsT.cas row.id (fun r => r.status = .pending ∧ r.cancelRequestedAt = none)
      (fun r => { r with status := .running, startedAt := some (utcNowText now) }) (fun _ => rfl) (fun _ => rfl)
      (.concurrencyConflict "workflow run could not transition to running")
    appendRunState row lease .pending .running now
    runRow row.id
  else return row

/-- Reconcile a running run. -/
def reconcileIfRunning (ord : RowOrder) (row : WorkflowRunRow) (lease : MasterLease) (now : Instant) : Op Unit :=
  if row.status = .running then reconcileIn ord row lease now else pure ()

def startAndReconcile (H : Digests) (ord : RowOrder) (workflowRunId : String) (lease : MasterLease) (now : Instant) :
    Op WorkflowRunRow := do
  MasterLeaseRepository.assertValidIn lease now
  let row ← runRow workflowRunId
  validateSnapshots H row
  let row ← startIfPending row lease now
  reconcileIfRunning ord row lease now
  runRow workflowRunId

/-- The first node run of the order that is ready. -/
def firstReady (rows : String → Option NodeRunRow) : List String → Except StorageError (Option NodeRunRow)
  | [] => .ok none
  | nodeId :: nodeIds =>
    match rows nodeId with
    | none => .error (.keyError nodeId)
    | some row => if row.status = .ready then .ok (some row) else firstReady rows nodeIds

/-- Move a ready node run to running. -/
def claim (run : WorkflowRunRow) (lease : MasterLease) (selected : NodeRunRow) (now : Instant) :
    Op (Option NodeRunRow) := do
  Db.nodeRunsT.cas selected.id (fun r => r.status = .ready)
    (fun r => { r with status := .running, startedAt := some (utcNowText now) }) (fun _ => rfl) (fun _ => rfl)
    (.concurrencyConflict "ready node was claimed concurrently")
  appendNodeState run lease selected.id selected.nodeId .ready .running none "" none now
  Db.nodeRunsT.select selected.id

def claimNext (H : Digests) (ord : RowOrder) (workflowRunId : String) (lease : MasterLease) (now : Instant) :
    Op (Option NodeRunRow) := do
  MasterLeaseRepository.assertValidIn lease now
  let run ← runRow workflowRunId
  validateSnapshots H run
  if run.status ≠ .running ∨ run.cancelRequestedAt ≠ none then return none
  else do
    let rows ← Tx.read fun db => ord.order 0 (db.rowsOf workflowRunId)
    let nodeIds ← Op.lift (topologicalOrder run.compiledSnapshot)
    let selected ← Op.lift (firstReady (byNode rows) nodeIds)
    match selected with
    | none => return none
    | some row => claim run lease row now

/-! ## Completing a node -/

def allowedOutcomes : NodeRunStatus → List NodeOutcome
  | .completed => [.success, .matched, .notMatched, .approved, .rejected]
  | .failed => [.failure]
  | .blockedByGuard => [.blocked]
  | _ => []

/-- The snapshot's definition of a node run, after checking the snapshot. -/
def compiledNode (H : Digests) (node : NodeRunRow) (run : WorkflowRunRow) : Op WorkflowNode := do
  Tx.ensure (H.compiled run.compiledSnapshot = run.compiledSnapshotHash)
    (.snapshotIntegrity "compiled workflow snapshot hash mismatch")
  Tx.require (run.compiledSnapshot.nodes.find? (fun n => n.id = node.nodeId))
    (.snapshotIntegrity "running node is absent from compiled workflow snapshot")

/-- `SELECT … ORDER BY attempt DESC LIMIT 1` over a node of a run. -/
def latestOf (rows : List NodeRunRow) (nodeId : String) : Option NodeRunRow :=
  (rows.filter (fun r => r.nodeId = nodeId)).foldl
    (fun best r => match best with
      | none => some r
      | some b => if b.attempt < r.attempt then some r else some b) none

/-- The node run whose task must own the output: the source's for a system node, else the node's own. -/
def outputOwner (node : NodeRunRow) (run : WorkflowRunRow) (compiled : WorkflowNode) : Op String :=
  match compiled.systemManaged, compiled.sourceNodeId with
  | true, some source => do
    let rows ← Tx.read fun db => db.rowsOf run.id
    let owner ← Tx.require (latestOf rows source)
      (.snapshotIntegrity "system node source run is absent from workflow run")
    return owner.id
  | _, _ => return node.id

/-- The checks on an output artifact. -/
def checkArtifact (H : Digests) (node : NodeRunRow) (run : WorkflowRunRow) (target : NodeRunStatus)
    (artifactId : String) : Op Unit := do
  let artifact ← Db.artifactsT.select artifactId
  let artifact ← Tx.require artifact (.recordNotFound ("output artifact not found: " ++ artifactId))
  let compiled ← compiledNode H node run
  let ownerId ← outputOwner node run compiled
  let taskOwner ← Tx.read fun db => db.tasks.rows.find? (fun t => t.nodeRunId = ownerId)
  let sourceBound := compiled.systemManaged && compiled.sourceNodeId.isSome
  let completes := decide (node.nodeType = .agentTask ∧ target = .completed)
  Tx.ensure (!(taskOwner.isNone && (sourceBound || completes)))
    (.snapshotIntegrity "node output requires an existing source task")
  let expected := taskOwner.map TaskRow.id
  Tx.ensure (artifact.sessionId = run.sessionId ∧ artifact.redacted ∧ artifact.plannerRunId = none ∧
      (artifact.taskId = none ∨ artifact.taskId = expected))
    (.valueError "node output artifact is not a redacted session artifact")
  Tx.ensure (!(completes || (sourceBound && target ≠ .failed)) || artifact.taskId = expected)
    (.valueError "node output artifact must belong to its source task")

/-- The checks on the output artifact, when there is one. -/
def checkOutputArtifact (H : Digests) (node : NodeRunRow) (run : WorkflowRunRow) (target : NodeRunStatus) :
    Option String → Op Unit
  | none => pure ()
  | some artifactId => checkArtifact H node run target artifactId

/-- The last recorded state of a task in the events of a run. -/
def taskProof (db : Db) (workflowRunId taskId : String) : Option (TaskStatus × Option Nat) :=
  let events := db.events.filter fun e => decide (e.workflowRunId = some workflowRunId) &&
    decide (e.eventType = taskStateChanged) &&
    match e.payload with
    | .task _ _ _ _ id _ _ _ => id = taskId
    | _ => false
  let last := events.foldl (fun best e => match best with
    | none => some e
    | some b => if b.runSeq.getD 0 < e.runSeq.getD 0 then some e else some b) none
  match last.map EventRow.payload with
  | some (.task _ token _ _ _ _ status _) => some (status, token)
  | _ => none

/-- The task and its ChangeSet must be in a state that fits the node's. -/
def checkTaskState (task : TaskRow) (changeSet : Option ChangeSetStatus) (target : NodeRunStatus) : Op Unit :=
  if target = .completed then
    Tx.ensure (task.status = .succeeded ∧ changeSet = some .captured)
      (.snapshotIntegrity "completed write node lacks a durable successful task")
  else
    Tx.ensure (!(decide (task.status ∈ [.pending, .running, .succeeded]) || decide (changeSet = some .captured)))
      (.snapshotIntegrity "failed write node has an unfinished task or live ChangeSet")

/-- The checks on the task of a write node. -/
def checkWriteTask (node : NodeRunRow) (run : WorkflowRunRow) (target : NodeRunStatus) : Op Unit := do
  let task ← Tx.read fun db => db.tasks.rows.find? (fun t => t.nodeRunId = node.id)
  match task with
  | none => Tx.ensure (target ≠ .completed) (.snapshotIntegrity "completed write node lacks a durable task")
  | some task => do
    let changeSet ← Tx.read fun db => (db.changeSets.rows.find? (fun c => c.taskId = task.id)).map ChangeSetRow.status
    checkTaskState task changeSet target
    let proof ← Tx.read fun db => taskProof db run.id task.id
    let proof ← Tx.require proof (.snapshotIntegrity "write task terminal state lacks a fencing event")
    Tx.ensure (proof.1 = task.status ∧ proof.2.isSome)
      (.snapshotIntegrity "write task terminal state lacks a matching fencing token")
    let lock ← Db.fileLocksT.select (integrationResource run.sessionId)
    Tx.ensure (lock.any fun l => l.ownerKind = "agent_task" ∧ l.ownerOperationId = task.id ∧
        some l.fencingToken = proof.2)
      (.snapshotIntegrity "workspace fencing advanced before write node completion")

/-- The checks on an agent task's completion. -/
def checkAgentTask (H : Digests) (node : NodeRunRow) (run : WorkflowRunRow) (target : NodeRunStatus) : Op Unit :=
  if node.nodeType = .agentTask then do
    let compiled ← compiledNode H node run
    if compiled.requiresWrite then checkWriteTask node run target else pure ()
  else pure ()

def completeNode (H : Digests) (nodeRunId : String) (target : NodeRunStatus) (outcome : NodeOutcome)
    (summary : String) (lease : MasterLease) (outputArtifactId errorCode : Option String) (now : Instant) :
    Op (Option NodeRunRow) := do
  Tx.ensure (target ∈ [.completed, .failed, .blockedByGuard])
    (.valueError ("invalid handler terminal status: " ++ target.value))
  Tx.ensure (outcome ∈ allowedOutcomes target) (.valueError "node terminal status and outcome are inconsistent")
  Tx.ensure (target = .completed ∨ (errorCode ≠ none ∧ errorCode ≠ some ""))
    (.valueError "failed or blocked node completion requires error_code")
  MasterLeaseRepository.assertValidIn lease now
  let current ← Tx.read fun db => nodeWithRun db nodeRunId
  let (node, run) ← Tx.require current (.recordNotFound ("node run not found: " ++ nodeRunId))
  Tx.ensure (run.cancelRequestedAt = none)
    (.concurrencyConflict "workflow cancellation prevents node completion")
  Tx.ensure (run.status = .running) (.concurrencyConflict "node completion requires a running workflow")
  checkOutputArtifact H node run target outputArtifactId
  checkAgentTask H node run target
  Db.nodeRunsT.cas nodeRunId (fun r => r.status = .running)
    (fun r => { r with status := target, outcome := some outcome, outputArtifactId := outputArtifactId,
                       errorCode := errorCode, finishedAt := some (utcNowText now) })
    (fun _ => rfl) (fun _ => rfl) (.concurrencyConflict "node completion lost its running CAS")
  appendNodeState run lease nodeRunId node.nodeId .running target (some outcome) summary errorCode now
  Db.nodeRunsT.select nodeRunId

/-! ## Waiting for an approval -/

/-- After a rejection the run moves on at once. -/
def reconcileRejected (ord : RowOrder) (run : WorkflowRunRow) (approved : Bool) (lease : MasterLease) (now : Instant) :
    Op Unit :=
  if approved then pure ()
  else do
    let fresh ← runRow run.id
    reconcileIn ord fresh lease now

/-- Release a waiting node run: back to ready, or completed as rejected. -/
def releaseWaiting (ord : RowOrder) (node : NodeRunRow) (run : WorkflowRunRow) (approved : Bool) (lease : MasterLease)
    (now : Instant) : Op Unit := do
  let target : NodeRunStatus := if approved then .ready else .completed
  let outcome : Option NodeOutcome := if approved then none else some .rejected
  let errorCode := if approved then none else some "approval_rejected"
  Db.nodeRunsT.cas node.id (fun r => r.status = .waitingApproval)
    (fun r => { r with status := target, outcome := outcome, errorCode := errorCode,
                       finishedAt := if approved then none else some (utcNowText now) })
    (fun _ => rfl) (fun _ => rfl) (.concurrencyConflict "approval resume lost node CAS")
  Db.workflowRunsT.cas run.id (fun r => r.status = .waitingApproval ∧ r.cancelRequestedAt = none)
    (fun r => { r with status := .running }) (fun _ => rfl) (fun _ => rfl)
    (.concurrencyConflict "approval resume lost workflow CAS")
  appendNodeState run lease node.id node.nodeId .waitingApproval target outcome
    (if approved then "Approval granted." else "Approval rejected.") errorCode now
  appendRunState run lease .waitingApproval .running now
  reconcileRejected ord run approved lease now

/-- A node run of the named run, joined with it. -/
def nodeOfRun (db : Db) (workflowRunId nodeRunId : String) : Option (NodeRunRow × WorkflowRunRow) :=
  (nodeWithRun db nodeRunId).filter fun p => p.1.workflowRunId = workflowRunId

def resumeAfterApproval (ord : RowOrder) (workflowRunId nodeRunId : String) (approved : Bool) (lease : MasterLease)
    (now : Instant) : Op (Option NodeRunRow) := do
  MasterLeaseRepository.assertValidIn lease now
  let current ← Tx.read fun db => nodeOfRun db workflowRunId nodeRunId
  let (node, run) ← Tx.require current (.recordNotFound ("node run not found: " ++ nodeRunId))
  Tx.ensure (node.status = .waitingApproval ∧ run.status = .waitingApproval)
    (.concurrencyConflict "approval resume requires a waiting workflow")
  Tx.ensure (run.cancelRequestedAt = none) (.concurrencyConflict "cancellation prevents approval resume")
  releaseWaiting ord node run approved lease now
  Db.nodeRunsT.select nodeRunId

/-- The decision reached a node that is still running: an approval changes nothing, a rejection completes it. -/
def rejectRunning (ord : RowOrder) (node : NodeRunRow) (run : WorkflowRunRow) (approved : Bool) (lease : MasterLease)
    (now : Instant) : Op Unit :=
  if approved then pure ()
  else do
    Tx.ensure (run.cancelRequestedAt = none) (.concurrencyConflict "cancellation prevents approval rejection")
    Db.nodeRunsT.cas node.id (fun r => r.status = .running)
      (fun r => { r with status := .completed, outcome := some .rejected, errorCode := some "approval_rejected",
                         finishedAt := some (utcNowText now) })
      (fun _ => rfl) (fun _ => rfl) (.concurrencyConflict "approval rejection lost node CAS")
    appendNodeState run lease node.id node.nodeId .running .completed (some .rejected) "Approval rejected."
      (some "approval_rejected") now
    let fresh ← runRow run.id
    reconcileIn ord fresh lease now

/-- Apply a decision to a waiting or a running gate. -/
def advanceGate (ord : RowOrder) (node : NodeRunRow) (run : WorkflowRunRow) (approved : Bool) (lease : MasterLease)
    (now : Instant) : Op Unit :=
  if node.status = .waitingApproval ∧ run.status = .waitingApproval then do
    Tx.ensure (run.cancelRequestedAt = none) (.concurrencyConflict "cancellation prevents approval resume")
    releaseWaiting ord node run approved lease now
  else if node.status = .running ∧ run.status = .running then
    rejectRunning ord node run approved lease now
  else Tx.fail (.concurrencyConflict "approval resume requires a waiting workflow")

/-- Advance an approval gate inside the caller's transaction. -/
def resumeAfterApprovalIn (ord : RowOrder) (workflowRunId nodeRunId : String) (approved : Bool) (lease : MasterLease)
    (now : Instant) : Op (Option NodeRunRow) := do
  let current ← Tx.read fun db => nodeOfRun db workflowRunId nodeRunId
  let (node, run) ← Tx.require current (.recordNotFound ("node run not found: " ++ nodeRunId))
  advanceGate ord node run approved lease now
  Db.nodeRunsT.select nodeRunId

/-- Move a running node run and its run to waiting. -/
def waitForApproval (node : NodeRunRow) (run : WorkflowRunRow) (approvalId : String) (lease : MasterLease)
    (now : Instant) : Op (Option NodeRunRow) := do
  let code := "approval_pending:" ++ approvalId
  Db.nodeRunsT.cas node.id (fun r => r.status = .running)
    (fun r => { r with status := .waitingApproval, errorCode := some code, finishedAt := none })
    (fun _ => rfl) (fun _ => rfl) (.concurrencyConflict "approval wait lost node CAS")
  Db.workflowRunsT.cas run.id (fun r => r.status = .running ∧ r.cancelRequestedAt = none)
    (fun r => { r with status := .waitingApproval }) (fun _ => rfl) (fun _ => rfl)
    (.concurrencyConflict "approval wait lost workflow CAS")
  appendNodeState run lease node.id node.nodeId .running .waitingApproval none "Waiting for durable approval."
    (some code) now
  appendRunState run lease .running .waitingApproval now
  Db.nodeRunsT.select node.id

def enterWaitingApproval (ord : RowOrder) (nodeRunId approvalId : String) (lease : MasterLease) (now : Instant) :
    Op (Option NodeRunRow) := do
  MasterLeaseRepository.assertValidIn lease now
  let current ← Tx.read fun db => nodeWithRun db nodeRunId
  let (node, run) ← Tx.require current (.recordNotFound ("node run not found: " ++ nodeRunId))
  Tx.ensure (node.status = .running ∧ run.status = .running)
    (.concurrencyConflict "approval wait requires a running node and workflow")
  Tx.ensure (run.cancelRequestedAt = none) (.concurrencyConflict "cancellation prevents approval wait")
  let approval ← Db.approvalsT.select approvalId
  match approval.map ApprovalRow.status with
  | some .approved => resumeAfterApprovalIn ord run.id nodeRunId true lease now
  | some .rejected => resumeAfterApprovalIn ord run.id nodeRunId false lease now
  | _ => waitForApproval node run approvalId lease now

end WorkflowRunRepository

end AgentHub
