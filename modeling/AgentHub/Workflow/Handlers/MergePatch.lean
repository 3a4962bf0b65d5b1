import AgentHub.Storage.Captures.Store
import AgentHub.Storage.Runs.Merge
import AgentHub.Workspace.Locks
import AgentHub.Workspace.Merge
/-!
# The merge handler

`MergePatchNodeHandler.execute`: check the approved ChangeSet, mark the run, apply and commit its patch, record the
merge; on any exception after the mark, `_recover_failure`.
-/

namespace AgentHub

open Lib Workspace

structure NodeExecutionContext where
  run : WorkflowRunRow
  nodeRun : NodeRunRow
  node : WorkflowNode
  session : SessionRow
  masterLease : MasterLease

structure NodeHandlerResult where
  status : NodeRunStatus
  outcome : NodeOutcome
  summary : String
  artifactRefs : List ArtifactRef := []
  errorCode : Option String := none
  deriving DecidableEq, Repr

/-- The repositories, managers and settings of the handler. -/
structure MergePatchNodeHandler (W : Type) extends Coroutines W where
  host : Host
  git : MergeMachine W
  ord : RowOrder
  /-- `Path(text)` -/
  path : String → Path
  processId : Int
  ttl : Int
  heartbeat : Option Rat
  /-- `datetime.now(UTC)` -/
  now : EStateM Fault W Instant
  /-- `change_sets.get_for_source_node` -/
  getForSourceNode : String → String → EStateM Fault W ChangeSetRecord
  /-- `change_sets.load_patch` -/
  loadPatch : String → EStateM Fault W (ChangeSetRecord × Bytes)
  /-- `approvals.get_for_change_set` -/
  getForChangeSet : String → EStateM Fault W (Option ApprovalRow)
  /-- `build_manifest` over the reads that go into it, when there is an artifact repository -/
  buildManifest : Option (WorkflowRunRow → ChangeSetRecord → EStateM Fault W Plain)

/-- The local variables of `execute` that `_recover_failure` is called with. -/
structure MergeProgress where
  changedPaths : List String
  applied : Bool
  finalizing : Bool
  committed : Option String
  deriving DecidableEq, Repr

/-- `_evidence_hash`. The ids and digests are ASCII, so the text is the same with `ensure_ascii`. -/
def evidenceHash (sha256 : Bytes → String) (record : ChangeSetRecord) : String :=
  let values := record.changeSet.evidenceRefs.map fun ref => (ref.artifactId, ref.sha256, ref.artifactType.value)
  let ordered := values.insertionSort fun a b => a.1 < b.1 ∨ (a.1 = b.1 ∧ (a.2.1 < b.2.1 ∨ (a.2.1 = b.2.1 ∧ a.2.2 ≤ b.2.2)))
  sha256 (canonicalJson (.arr (ordered.map fun v => .arr [.str v.1, .str v.2.1, .str v.2.2])))

namespace ChangeSetRecord

/-- `_paths`. -/
def paths (record : ChangeSetRecord) : List String :=
  let changeSet := record.changeSet
  sortedSet (changeSet.createdFiles ++ changeSet.modifiedFiles ++ changeSet.deletedFiles ++ changeSet.renamedFiles ++
    changeSet.untrackedFiles ++ record.document.manifest.changes.filterMap FileChange.oldPath)

/-- What the rollback takes away. -/
def created (record : ChangeSetRecord) : List String :=
  record.changeSet.createdFiles ++ record.changeSet.untrackedFiles ++ record.changeSet.renamedFiles ++
    record.changeSet.createdDirectories

end ChangeSetRecord

/-- `expected_scope`. -/
def expectedScope (source : WorkflowNode) : List String :=
  sortedSet (source.effectiveAllowedFiles.getD [] ++ source.effectiveNewFiles.getD [])

/-- The node of the snapshot with an id. -/
def sourceNode (context : NodeExecutionContext) (sourceId : String) : Option WorkflowNode :=
  context.run.compiledSnapshot.nodes.find? fun node => node.id = sourceId

namespace MergePatchNodeHandler

variable {W : Type} (S : MergePatchNodeHandler W) (context : NodeExecutionContext)

/-- `Path(context.session.shared_repo_path)`. -/
def repo : Path := S.path context.session.sharedRepoPath

/-- `_current_evidence_hash`. -/
def currentEvidenceHash (record : ChangeSetRecord) : EStateM Fault W String :=
  match S.buildManifest with
  | none => pure (evidenceHash S.host.sha256 record)
  | some build => do
    let manifest ← reraise Fault.isException (fun _ => .conflict "merge evidence cannot be reconstructed")
      (build context.run record)
    pure (S.host.sha256 (canonicalJson manifest))

/-- The checks before the lease is taken. -/
def precheck (sourceId : String) (record : ChangeSetRecord) : EStateM Fault W Unit := do
  let approval ← S.getForChangeSet record.changeSet.changeSetId
  match approval with
  | none => throw (.conflict "MergePatch requires an approved ChangeSet approval")
  | some approval => do
    if approval.status ≠ .approved then throw (.conflict "MergePatch requires an approved ChangeSet approval")
    let now ← S.now
    if approval.expiresAt ≤ utcNowText now then throw (.conflict "MergePatch approval has expired")
    if record.changeSet.status ≠ .approved then throw (.conflict "MergePatch requires an approved ChangeSet")
    if approval.baseCommit ≠ some record.changeSet.baseCommit then throw (.conflict "approval base commit drifted")
    if approval.patchSha256 ≠ some record.changeSet.patchSha256 then throw (.conflict "approval patch hash drifted")
    match sourceNode context sourceId with
    | none => throw (.valueError "merge source node is absent from snapshot")
    | some source =>
      if sorted approval.scope ≠ expectedScope source then throw (.conflict "approval scope drifted")
      else if record.paths = [] then throw (.git "MergePatch ChangeSet has no changed paths")
      else pure ()

/-- The checks of the marked run: the subject is read again. -/
def reverify (sourceId : String) : EStateM Fault W (ChangeSetRecord × ApprovalRow) := do
  let record ← S.getForSourceNode context.run.id sourceId
  let approval ← S.getForChangeSet record.changeSet.changeSetId
  match approval with
  | none => throw (.conflict "approved merge subject changed before finalization")
  | some approval => do
    let now ← S.now
    if approval.status ≠ .approved ∨ approval.expiresAt ≤ utcNowText now ∨ record.changeSet.status ≠ .approved ∨
        approval.baseCommit ≠ some record.changeSet.baseCommit ∨
        approval.patchSha256 ≠ some record.changeSet.patchSha256 then
      throw (.conflict "approved merge subject changed before finalization")
    let evidence ← S.currentEvidenceHash context record
    if approval.evidenceSha256 ≠ evidence then throw (.conflict "approved merge subject changed before finalization")
    match sourceNode context sourceId with
    | none => throw (.conflict "merge source disappeared from the snapshot")
    | some source =>
      if sorted approval.scope ≠ expectedScope source then
        throw (.conflict "approval scope drifted before finalization")
      else pure (record, approval)

/-- `self._runs.begin_merge_finalizing`, `clear_merge_finalizing` and `finalize_merge`, under the lease as it is held. -/
def begin : EStateM Fault W WorkflowRunRow := do
  let held ← LockManager.current S.toCoroutines
  S.transaction fun now => WorkflowRunRepository.beginMergeFinalizing context.run.id held.lease context.masterLease now

def clear : EStateM Fault W WorkflowRunRow := do
  let held ← LockManager.current S.toCoroutines
  S.transaction fun now => WorkflowRunRepository.clearMergeFinalizing context.run.id held.lease context.masterLease now

def finalize (changeSetId newCommit : String) : EStateM Fault W (Option NodeRunRow) := do
  let held ← LockManager.current S.toCoroutines
  S.transaction fun now => WorkflowRunRepository.finalizeMerge S.ord context.nodeRun.id changeSetId newCommit held.lease
    context.masterLease "Master committed the approved ChangeSet." now

/-- A call of the body, which leaves its variables alone. -/
def call {β : Type} (x : EStateM Fault W β) : EStateM Fault (W × MergeProgress) β := fun s =>
  match x s.1 with
  | .ok b w => .ok b (w, s.2)
  | .error e w => .error e (w, s.2)

/-- An assignment of the body. -/
def assign (f : MergeProgress → MergeProgress) : EStateM Fault (W × MergeProgress) Unit := fun s => .ok () (s.1, f s.2)

/-- The checks of the body before the run is marked, with the digest of the index. -/
def inspect (record : ChangeSetRecord) : EStateM Fault W String := do
  LockManager.assertHealthy S.toCoroutines
  let state ← onHost (GitManager.state S.host (S.git.process (S.repo context)))
  if state.dirty ∨ state.commit ≠ context.run.currentCommit then
    throw (.conflict "workspace HEAD is stale or dirty before merge")
  else if state.commit ≠ record.changeSet.baseCommit then throw (.conflict "ChangeSet base commit is stale")
  else onHost (GitManager.indexSha256 S.host (S.git.process (S.repo context)))

/-- The arguments of `commit_approved_patch`. -/
def approvedPatch (record : ChangeSetRecord) (approval : ApprovalRow) (patch : Bytes) (expectedIndexSha256 : String) :
    ApprovedPatch where
  parentCommit := record.changeSet.baseCommit
  paths := record.paths
  patchBytes := patch
  patchSha256 := record.changeSet.patchSha256
  postStateHash := record.changeSet.postStateHash
  sessionId := context.session.id
  workflowRunId := context.run.id
  changeSetId := record.changeSet.changeSetId
  approvalId := approval.id
  expectedIndexSha256 := some expectedIndexSha256

/-- Apply and commit the patch in the marked run, and record the merge. -/
def publish (record : ChangeSetRecord) (approval : ApprovalRow) (patch : Bytes) (expectedIndexSha256 : String) :
    EStateM Fault (W × MergeProgress) Unit := do
  let git := S.git.process (S.repo context)
  call (onHost (GitManager.applyCheck S.host git patch))
  call (onHost (GitManager.applyPatch S.host git patch))
  assign fun p => { p with applied := true }
  call (LockManager.assertHealthy S.toCoroutines)
  let (commit, _) ← call (onHost (GitManager.commitApprovedPatch S.host S.git (S.repo context)
    (approvedPatch context record approval patch expectedIndexSha256)))
  assign fun p => { p with committed := some commit }
  call (LockManager.assertHealthy S.toCoroutines)
  let _ ← call (S.finalize context record.changeSet.changeSetId commit)
  assign fun p => { p with finalizing := false }

/-- The body of the `try`. -/
def attempt (sourceId : String) (record : ChangeSetRecord) : EStateM Fault (W × MergeProgress) Unit := do
  let expectedIndexSha256 ← call (S.inspect context record)
  let _ ← call (S.begin context)
  assign fun p => { p with finalizing := true }
  call (LockManager.assertHealthy S.toCoroutines)
  let (record, approval) ← call (S.reverify context sourceId)
  assign fun p => { p with changedPaths := record.paths }
  let (_, patch) ← call (S.loadPatch record.changeSet.changeSetId)
  S.publish context record approval patch expectedIndexSha256

/-- The closure `restore` of `_recover_failure`. -/
def restore (record : ChangeSetRecord) (changedPaths : List String) : EStateM Failure W Unit := do
  let repo := S.repo context
  let created := record.created
  GitManager.restoreExistingPaths S.host (S.git.process repo) record.changeSet.baseCommit
    (changedPaths.filter fun path => path ∉ created)
  GitManager.unstageNewPaths S.host (S.git.process repo) (sortedSet created)
  GitManager.removeWorktreeEntries S.git repo (sortedSet created)

/-- The body of the `try` of `_recover_failure`. -/
def recover (changedPaths : List String) (committed : Option String) : EStateM Fault W Unit := do
  let git := S.git.process (S.repo context)
  LockManager.assertHealthy S.toCoroutines
  let state ← onHost (GitManager.state S.host git)
  if committed ≠ none ∨ state.commit ≠ context.run.currentCommit then
    throw (.reconciliationRequired "merge commit state is ambiguous; recovery evidence is required")
  else do
    (if state.dirty then do
      let record ← S.getForSourceNode context.run.id (context.node.sourceNodeId.getD "")
      LockManager.runFenced S.toCoroutines context.run.sessionId S.ttl (S.restore context record changedPaths)
    else pure ())
    let clean ← onHost (GitManager.state S.host git)
    if clean.dirty ∨ clean.commit ≠ context.run.currentCommit then
      throw (.reconciliationRequired "merge failure did not restore the expected clean HEAD")
    else do
      let _ ← S.clear context
      pure ()

/-- `_recover_failure`. -/
def recoverFailure (progress : MergeProgress) : EStateM Fault W Unit :=
  if ¬ progress.finalizing then pure ()
  else
    reraise (fun e : Fault => !e.isReconciliationRequired)
      (fun _ => Fault.reconciliationRequired "merge failure cleanup requires recovery")
      (S.recover context progress.changedPaths progress.committed)

/-- The body of `hold`. -/
def merge (sourceId : String) (record : ChangeSetRecord) : EStateM Fault W Unit := do
  let (result, progress) ← capturing (S.attempt context sourceId record) ⟨record.paths, false, false, none⟩
  match result with
  | .ok () => pure ()
  | .error e => do
    S.recoverFailure context progress
    throw e

/-- `execute`. -/
def execute : EStateM Fault W NodeHandlerResult :=
  match context.node.sourceNodeId with
  | none => throw (.valueError "merge node has no source node")
  | some sourceId => do
    let record ← S.getForSourceNode context.run.id sourceId
    S.precheck context sourceId record
    LockManager.hold S.toCoroutines
      { sessionId := context.run.sessionId
        ownerKind := "merge"
        ownerOperationId := context.nodeRun.id
        ownerProcessId := S.processId
        ttlSeconds := S.ttl
        heartbeatSeconds := S.heartbeat }
      (S.merge context sourceId record)
    pure
      { status := .completed
        outcome := .success
        summary := "Master applied and committed the approved ChangeSet." }

end MergePatchNodeHandler

end AgentHub
