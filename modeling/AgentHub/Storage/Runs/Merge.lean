import AgentHub.Storage.Runs.Nodes
/-!
# Runs: finalizing a merge

`begin_merge_finalizing` marks the run before the worktree is touched, `finalize_merge` records the
published commit and takes the mark away, `clear_merge_finalizing` only takes it away.
-/

namespace AgentHub

open Lib

namespace WorkflowRunRepository

/-- `SELECT … node_type = 'merge_patch' AND status = 'running' ORDER BY attempt DESC LIMIT 1`. -/
def runningMerge (db : Db) (workflowRunId : String) : Option NodeRunRow :=
  ((db.rowsOf workflowRunId).filter fun r => r.nodeType = .mergePatch ∧ r.status = .running).foldl
    (fun best r => match best with
      | none => some r
      | some b => if b.attempt < r.attempt then some r else some b) none

def beginMergeFinalizing (workflowRunId : String) (workspaceLease : WorkspaceLease) (lease : MasterLease)
    (now : Instant) : Op WorkflowRunRow := do
  MasterLeaseRepository.assertValidIn lease now
  let row ← runRow workflowRunId
  Tx.ensure (workspaceLease.resourceKey = integrationResource row.sessionId ∧ workspaceLease.ownerKind = "merge")
    (.valueError "merge finalization requires the session merge workspace lease")
  let mergeNode ← Tx.read fun db => runningMerge db workflowRunId
  Tx.ensure (mergeNode.map NodeRunRow.id = some workspaceLease.ownerOperationId)
    (.valueError "merge finalization lease is not bound to the running merge node")
  WorkspaceLeaseRepository.assertValidIn workspaceLease now
  Tx.ensure (row.status = .running) (.concurrencyConflict "merge finalization requires a running workflow")
  Tx.ensure (row.cancelRequestedAt = none) (.concurrencyConflict "cancel requested before merge finalization")
  Db.workflowRunsT.cas workflowRunId
    (fun r => r.status = .running ∧ r.cancelRequestedAt = none ∧ r.mergeFinalizingAt = none)
    (fun r => { r with mergeFinalizingAt := some (utcNowText now) }) (fun _ => rfl) (fun _ => rfl)
    (.concurrencyConflict "merge finalization CAS lost")
  runRow workflowRunId

def clearMergeFinalizing (workflowRunId : String) (workspaceLease : WorkspaceLease) (lease : MasterLease)
    (now : Instant) : Op WorkflowRunRow := do
  MasterLeaseRepository.assertValidIn lease now
  let row ← runRow workflowRunId
  Tx.ensure (workspaceLease.resourceKey = integrationResource row.sessionId)
    (.valueError "merge finalization clear requires the session workspace lease")
  let mergeNode ← Tx.read fun db => runningMerge db workflowRunId
  let expected := ("recovery-" ++ workflowRunId) :: (mergeNode.map NodeRunRow.id).toList
  Tx.ensure (workspaceLease.ownerKind ∈ ["merge", "recovery"] ∧ workspaceLease.ownerOperationId ∈ expected)
    (.valueError "merge finalization clear lease is not bound to this workflow")
  WorkspaceLeaseRepository.assertValidIn workspaceLease now
  let _ ← Db.workflowRunsT.update
    (fun r => decide (r.id = workflowRunId) && decide (r.mergeFinalizingAt ≠ none))
    (fun r => { r with mergeFinalizingAt := none }) (fun _ => rfl) (fun _ => rfl)
  runRow workflowRunId

/-- The lease a finalization is made under is bound to its node run, or to the recovery of its run. -/
def checkMergeLease (node : NodeRunRow) (run : WorkflowRunRow) (workspaceLease : WorkspaceLease) : Op Unit := do
  Tx.ensure (workspaceLease.resourceKey = integrationResource run.sessionId)
    (.valueError "merge workspace lease has the wrong resource")
  let expected := if workspaceLease.ownerKind = "merge" then node.id else "recovery-" ++ node.workflowRunId
  Tx.ensure (workspaceLease.ownerKind ∈ ["merge", "recovery"] ∧ workspaceLease.ownerOperationId = expected)
    (.valueError "merge workspace lease is not bound to this finalization")

/-- Move the integration head of the session and the run to the new commit. -/
def advanceHead (run : WorkflowRunRow) (newCommit : String) (now : Instant) : Op Unit := do
  let session ← Db.sessionsT.select run.sessionId
  Tx.ensure (session.any fun s => s.integrationHeadCommit = run.currentCommit)
    (.concurrencyConflict "session integration HEAD changed before commit")
  Db.sessionsT.cas run.sessionId (fun s => s.integrationHeadCommit = run.currentCommit)
    (fun s => { s with integrationHeadCommit := newCommit, updatedAt := utcNowText now }) (fun _ => rfl) (fun _ => rfl)
    (.concurrencyConflict "session integration HEAD CAS failed")
  Db.workflowRunsT.cas run.id (fun r => r.status = .running ∧ r.mergeFinalizingAt ≠ none)
    (fun r => { r with currentCommit := newCommit, mergeFinalizingAt := none }) (fun _ => rfl) (fun _ => rfl)
    (.concurrencyConflict "workflow merge finalization CAS failed")

def finalizeMerge (ord : RowOrder) (nodeRunId changeSetId newCommit : String) (workspaceLease : WorkspaceLease)
    (lease : MasterLease) (summary : String) (now : Instant) : Op (Option NodeRunRow) := do
  MasterLeaseRepository.assertValidIn lease now
  WorkspaceLeaseRepository.assertValidIn workspaceLease now
  let current ← Tx.read fun db => nodeWithRun db nodeRunId
  let (node, run) ← Tx.require current (.recordNotFound ("node run not found: " ++ nodeRunId))
  Tx.ensure (node.status = .running ∧ run.status = .running ∧ run.mergeFinalizingAt ≠ none ∧
      run.cancelRequestedAt = none)
    (.concurrencyConflict "merge finalization state is no longer writable")
  checkMergeLease node run workspaceLease
  advanceHead run newCommit now
  Db.changeSetsT.cas changeSetId (fun c => c.status = .approved)
    (fun c => { c with status := .merged, updatedAt := utcNowText now }) (fun _ => rfl) (fun _ => rfl)
    (.concurrencyConflict "ChangeSet is not approved for merge")
  Db.nodeRunsT.cas nodeRunId (fun r => r.status = .running)
    (fun r => { r with status := .completed, outcome := some .success, errorCode := none,
                       finishedAt := some (utcNowText now) })
    (fun _ => rfl) (fun _ => rfl) (.concurrencyConflict "merge node completion CAS failed")
  appendNodeState run lease nodeRunId node.nodeId .running .completed (some .success) summary none now
  let fresh ← runRow run.id
  reconcileIn ord fresh lease now
  Db.nodeRunsT.select nodeRunId

/-- Give a completed node run its result artifact. -/
def attachArtifact (row : NodeRunRow) (artifactId : String) : Op (Option NodeRunRow) :=
  if row.outputArtifactId = none then do
    Db.nodeRunsT.cas row.id (fun r => r.status = .completed ∧ r.outputArtifactId = none)
      (fun r => { r with outputArtifactId := some artifactId }) (fun _ => rfl) (fun _ => rfl)
      (.concurrencyConflict "completed node artifact CAS lost")
    Db.nodeRunsT.select row.id
  else return some row

def attachCompletedNodeArtifact (nodeRunId artifactId : String) (lease : MasterLease) (now : Instant) :
    Op (Option NodeRunRow) := do
  MasterLeaseRepository.assertValidIn lease now
  let row ← Db.nodeRunsT.select nodeRunId
  let row ← Tx.require row (.recordNotFound ("node run not found: " ++ nodeRunId))
  Tx.ensure (row.status = .completed) (.concurrencyConflict "only a completed node can receive a result artifact")
  Tx.ensure (row.outputArtifactId = none ∨ row.outputArtifactId = some artifactId)
    (.concurrencyConflict "completed node already has another result artifact")
  attachArtifact row artifactId

end WorkflowRunRepository

end AgentHub
