import AgentHub.Storage.Approvals
import AgentHub.Storage.Runs.Nodes
/-!
# Runs: cancelling and quarantining

`request_cancel` only marks the run; `complete_cancel` and `cancel_with_cleanup` end it and every node run
that is not finished. `mark_orphaned` quarantines a run whose state is uncertain.
-/

namespace AgentHub

open Lib

/-- The statuses a cancellation ends. -/
def NodeRunStatus.isLive : NodeRunStatus → Bool
  | .pending | .ready | .running | .waitingApproval => true
  | _ => false

namespace WorkflowRunRepository

/-- Mark the run as cancelled, unless a merge is being finalized. -/
def markCancelled (workflowRunId : String) (now : Instant) : Op Unit :=
  Db.workflowRunsT.cas workflowRunId (fun r => r.cancelRequestedAt = none ∧ r.mergeFinalizingAt = none)
    (fun r => { r with cancelRequestedAt := some (utcNowText now) }) (fun _ => rfl) (fun _ => rfl)
    (.concurrencyConflict "cancel request CAS lost")

/-- `_run_record` inside a transaction: a row whose snapshots do not check raises. -/
def runRecord (H : Digests) (row : WorkflowRunRow) : Op WorkflowRunRow := do
  validateSnapshots H row
  return row

def requestCancel (H : Digests) (workflowRunId : String) (lease : MasterLease) (now : Instant) :
    Op WorkflowRunRow := do
  MasterLeaseRepository.assertValidIn lease now
  let row ← runRow workflowRunId
  if row.status.isTerminal then runRecord H row
  else do
    Tx.ensure (row.mergeFinalizingAt = none)
      (.concurrencyConflict "merge finalization is the cancellation linearization point")
    if row.cancelRequestedAt ≠ none then runRecord H row
    else do
      markCancelled workflowRunId now
      runRow workflowRunId

/-- Cancel one node run and its task. -/
def cancelNode (run : WorkflowRunRow) (lease : MasterLease) (now : Instant) (current : NodeRunRow) : Op Unit := do
  Db.nodeRunsT.cas current.id (fun r => r.status.isLive)
    (fun r => { r with status := .cancelled, outcome := some .cancelled, errorCode := some "workflow_cancelled",
                       finishedAt := some (utcNowText now) })
    (fun _ => rfl) (fun _ => rfl) (.concurrencyConflict "node cancellation CAS lost")
  let _ ← Db.tasksT.update
    (fun t => decide (t.nodeRunId = current.id) && decide (t.status ∈ [.pending, .running, .privilegeRequested]))
    (fun t => { t with status := .cancelled, finishedAt := some (utcNowText now) }) (fun _ => rfl) (fun _ => rfl)
  appendNodeState run lease current.id current.nodeId current.status .cancelled (some .cancelled)
    "Workflow cancellation completed." (some "workflow_cancelled") now

/-- End a run that is not finished, with every node run that is not. -/
def endCancelled (ord : RowOrder) (run : WorkflowRunRow) (lease : MasterLease) (now : Instant) :
    Op WorkflowRunRow := do
  Tx.ensure (run.mergeFinalizingAt = none)
    (.concurrencyConflict "cannot complete cancellation during merge finalization")
  let rows ← Tx.read fun db => ord.order 0 ((db.rowsOf run.id).filter fun r => r.status.isLive)
  ApprovalRepository.forEach (cancelNode run lease now) rows
  Db.workflowRunsT.cas run.id (fun r => !r.status.isTerminal ∧ r.mergeFinalizingAt = none)
    (fun r => { r with status := .cancelled, finishedAt := some (utcNowText now) }) (fun _ => rfl) (fun _ => rfl)
    (.concurrencyConflict "workflow cancellation CAS lost")
  appendRunState run lease run.status .cancelled now
  runRow run.id

def completeCancel (H : Digests) (ord : RowOrder) (workflowRunId : String) (lease : MasterLease) (now : Instant) :
    Op WorkflowRunRow := do
  MasterLeaseRepository.assertValidIn lease now
  let run ← runRow workflowRunId
  if run.status.isTerminal then runRecord H run else endCancelled ord run lease now

/-- `_complete_cancel_in`: the same inside the caller's transaction, where the record it returns is checked. -/
def completeCancelIn (H : Digests) (ord : RowOrder) (workflowRunId : String) (lease : MasterLease) (now : Instant) :
    Op WorkflowRunRow := do
  let run ← runRow workflowRunId
  if run.status.isTerminal then runRecord H run
  else do
    let row ← endCancelled ord run lease now
    runRecord H row

/-- Mark the run when it is not marked yet; the row to go on with. -/
def ensureCancelled (row : WorkflowRunRow) (now : Instant) : Op WorkflowRunRow :=
  if row.cancelRequestedAt = none then do
    markCancelled row.id now
    runRow row.id
  else return row

def cancelWithCleanup (H : Digests) (ord : RowOrder) (workflowRunId : String) (lease : MasterLease) (reason : String)
    (now : Instant) : Op WorkflowRunRow := do
  MasterLeaseRepository.assertValidIn lease now
  let run ← runRow workflowRunId
  if run.status.isTerminal ∧ run.cancelRequestedAt = none then runRecord H run
  else do
    Tx.ensure (run.mergeFinalizingAt = none)
      (.concurrencyConflict "merge finalization is the cancellation linearization point")
    let run ← ensureCancelled run now
    let _ ← ApprovalRepository.invalidateForRunIn workflowRunId lease reason now
    let _ ← ApprovalRepository.revokeUnconsumedForRunIn workflowRunId lease reason now
    let result ← completeCancelIn H ord workflowRunId lease now
    let payload : EventPayload := .recovery lease.fencingToken workflowRunId run.sessionId "cancel" "cancelled"
      "cancellation and all dependent authorization state committed atomically"
    EventRepository.appendIn run.sessionId recoveryAction lease.instanceId payload run.workflowId workflowRunId now
    EventRepository.appendSecurityEventIn run.sessionId workflowRunId "workflow.cancellation_completed" "info" payload now
    return result

/-! ## Quarantine -/

/-- Quarantine one node run; another one named leaves it alone. -/
def orphanNode (run : WorkflowRunRow) (lease : MasterLease) (reason : String) (only : Option String) (now : Instant)
    (current : NodeRunRow) : Op Unit :=
  if only ≠ none ∧ only ≠ some current.id then pure ()
  else do
    let code := String.ofList (reason.toList.take 200)
    let _ ← Db.nodeRunsT.update
      (fun r => decide (r.id = current.id) && decide (r.status ∈ [.running, .waitingApproval]))
      (fun r => { r with status := .orphaned, errorCode := some code,
                         finishedAt := some (r.finishedAt.getD (utcNowText now)) }) (fun _ => rfl) (fun _ => rfl)
    appendNodeState run lease current.id current.nodeId current.status .orphaned none
      "Recovery quarantined an uncertain node." (some code) now

/-- Quarantine the run and block its session. -/
def orphanRun (run : WorkflowRunRow) (lease : MasterLease) (now : Instant) : Op Unit :=
  if run.status ≠ .orphaned then do
    let _ ← Db.workflowRunsT.update
      (fun r => decide (r.id = run.id) && decide (r.status ∈ [.pending, .running, .waitingApproval, .paused]))
      (fun r => { r with status := .orphaned, finishedAt := some (r.finishedAt.getD (utcNowText now)) })
      (fun _ => rfl) (fun _ => rfl)
    let _ ← Db.sessionsT.update (fun s => s.id = run.sessionId)
      (fun s => { s with status := .blocked, updatedAt := utcNowText now }) (fun _ => rfl) (fun _ => rfl)
    appendRunState run lease run.status .orphaned now
  else pure ()

def markOrphaned (H : Digests) (ord : RowOrder) (workflowRunId : String) (lease : MasterLease) (reason : String)
    (nodeRunId : Option String) (now : Instant) : Op WorkflowRunRow := do
  MasterLeaseRepository.assertValidIn lease now
  let run ← runRow workflowRunId
  if run.status.isTerminal ∧ run.status ≠ .orphaned then runRecord H run
  else do
    let rows ← Tx.read fun db => ord.order 0
      ((db.rowsOf workflowRunId).filter fun r => r.status ∈ [.running, .waitingApproval])
    ApprovalRepository.forEach (orphanNode run lease reason nodeRunId now) rows
    orphanRun run lease now
    runRow workflowRunId

end WorkflowRunRepository

end AgentHub
