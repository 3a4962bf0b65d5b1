import AgentHub.Lib.Checks
import AgentHub.Storage.Captures.Document
/-!
# ChangeSets with their artifacts

`persist_capture` as a whole, from what the workspace transaction captured to the committed rows and files, and the
reads that verify a ChangeSet against its document and its artifacts: `get`, `load_patch`, `load_preimages`.
-/

namespace AgentHub

open Lib Workspace

/-- The columns of `change_sets` that `ChangeSetRow` leaves out; no statement updates them. -/
structure CaptureColumns where
  preStateHash : String
  postStateHash : String
  manifestJson : String
  patchArtifactId : String
  deriving DecidableEq, Repr

/-- The database with those columns, by the id of the ChangeSet, and the final files of the artifact store. -/
structure CaptureStore where
  db : Db
  columns : String → Option CaptureColumns
  files : ArtifactFiles

structure ChangeSet where
  changeSetId : String
  sessionId : String
  workflowRunId : String
  nodeRunId : String
  taskId : String
  baseCommit : String
  preStateHash : String
  postStateHash : String
  patchSha256 : String
  status : ChangeSetStatus
  canonicalPatchRef : ArtifactRef
  evidenceRefs : List ArtifactRef
  createdFiles : List String
  createdDirectories : List String
  modifiedFiles : List String
  deletedFiles : List String
  renamedFiles : List String
  untrackedFiles : List String
  ignoredFilesTouched : List String
  preimageRefs : List ArtifactRef
  deriving DecidableEq, Repr

structure ChangeSetRecord where
  changeSet : ChangeSet
  document : StoredChangeSetDocument
  createdAt : String
  updatedAt : String
  deriving DecidableEq, Repr

namespace ChangeSet

/-- The fields of the contract; the status is none of them. -/
def valid (c : ChangeSet) : Bool :=
  [c.changeSetId, c.sessionId, c.workflowRunId, c.nodeRunId, c.taskId].all isEntityId && isObjectId c.baseCommit &&
    [c.preStateHash, c.postStateHash, c.patchSha256].all Workspace.isSha256Hex && c.canonicalPatchRef.valid &&
    [c.evidenceRefs, c.preimageRefs].all (fun refs => refs.length ≤ 500 && refs.all ArtifactRef.valid) &&
    [c.createdFiles, c.createdDirectories, c.modifiedFiles, c.deletedFiles, c.renamedFiles, c.untrackedFiles,
      c.ignoredFilesTouched].all (fun paths => paths.length ≤ 500 && paths.all isRepoRelativePath)

end ChangeSet

/-- The paths that the changes with an action name. -/
def pathsOf (action : FileAction) (changes : List FileChange) : List String :=
  (changes.filter fun change => change.action = action).map FileChange.path

namespace ChangeSetRecord

/-- `_record_from_document`. -/
def fromDocument (changeSetId sessionId workflowRunId nodeRunId taskId : String) (status : ChangeSetStatus)
    (document : StoredChangeSetDocument) (createdAt updatedAt : String) : ChangeSetRecord :=
  let manifest := document.manifest
  { changeSet :=
      { changeSetId, sessionId, workflowRunId, nodeRunId, taskId
        baseCommit := manifest.baseCommit
        preStateHash := manifest.preStateHash
        postStateHash := manifest.postStateHash
        patchSha256 := document.canonicalPatchRef.sha256
        status
        canonicalPatchRef := document.canonicalPatchRef
        evidenceRefs := document.evidence.map EvidenceBinding.artifactRef
        createdFiles := pathsOf .created manifest.changes
        createdDirectories := manifest.createdDirectories
        modifiedFiles := pathsOf .modified manifest.changes
        deletedFiles := pathsOf .deleted manifest.changes
        renamedFiles := pathsOf .renamed manifest.changes
        untrackedFiles := pathsOf .created manifest.changes
        ignoredFilesTouched := manifest.ignoredFilesTouched
        preimageRefs := document.preimages.map PreimageBinding.artifactRef }
    document, createdAt, updatedAt }

end ChangeSetRecord

def ArtifactError.integrity (message : String) : ArtifactError := .storage (.changeSetIntegrity message)

/-- `_stable_id`. -/
def stableId (sha256 : Bytes → String) (label : String) (values : List String) : String :=
  let separator := String.ofList [Char.ofNat 0]
  label ++ "-" ++ String.ofList ((sha256 (utf8 (separator.intercalate values))).toList.take 32)

def Workspace.CapturedWorkspaceChangeSet.evidence (capture : CapturedWorkspaceChangeSet) : EvidenceKind → Bytes
  | .status => capture.statusEvidence
  | .staged => capture.stagedEvidence
  | .unstaged => capture.unstagedEvidence

def Workspace.ChangeSetManifest.evidenceSha256 (manifest : ChangeSetManifest) : EvidenceKind → String
  | .status => manifest.statusEvidenceSha256
  | .staged => manifest.stagedEvidenceSha256
  | .unstaged => manifest.unstagedEvidenceSha256

/-- The kinds of evidence, in the order of the source. -/
def evidenceKinds : List EvidenceKind := [.status, .staged, .unstaged]

namespace CaptureStore

/-! ## Persisting a capture -/

section
variable (R : ArtifactRepo) (sessionId taskId : String)

/-- The artifacts of a capture, what `_stage_artifact` is called with. -/
def patchArtifact (capture : CapturedWorkspaceChangeSet) : NewArtifact :=
  ⟨stableId R.store.sha256 "change-patch" [taskId, R.store.sha256 capture.patchBytes], sessionId, .patch,
    capture.patchBytes, some taskId, none, false⟩

def evidenceArtifact (capture : CapturedWorkspaceChangeSet) (kind : EvidenceKind) : NewArtifact :=
  ⟨stableId R.store.sha256 ("change-" ++ kind.value) [taskId, capture.manifest.evidenceSha256 kind], sessionId, .diff,
    capture.evidence kind, some taskId, none, true⟩

def preimageArtifact (preimage : FilePreimage) : NewArtifact :=
  ⟨stableId R.store.sha256 "change-preimage" [taskId, preimage.path, preimage.sha256], sessionId, .changePreimage,
    preimage.content, some taskId, none, false⟩

def stageEvidence (capture : CapturedWorkspaceChangeSet) (kind : EvidenceKind) :
    Except ArtifactError (StagedArtifact × EvidenceBinding) := do
  let staged ← R.stage (evidenceArtifact R sessionId taskId capture kind)
  pure (staged, ⟨kind, staged.record.ref⟩)

def stagePreimage (preimage : FilePreimage) : Except ArtifactError (StagedArtifact × PreimageBinding) := do
  demand (R.store.sha256 preimage.content = preimage.sha256)
    (.integrity ("captured preimage hash mismatch: " ++ preimage.path))
  let staged ← R.stage (preimageArtifact R sessionId taskId preimage)
  pure (staged, ⟨preimage.path, staged.record.ref, preimage.mode, preimage.baselineIgnored⟩)

/-- What is staged, in its order, and the document that binds it. The models are validated as they are built; here at
the end. -/
def stageCapture (capture : CapturedWorkspaceChangeSet) :
    Except ArtifactError (List StagedArtifact × StoredChangeSetDocument) := do
  evidenceKinds.forM fun kind =>
    demand (R.store.sha256 (capture.evidence kind) = capture.manifest.evidenceSha256 kind)
      (.integrity ("captured " ++ kind.value ++ " evidence hash mismatch"))
  let patch ← R.stage (patchArtifact R sessionId taskId capture)
  let evidence ← evidenceKinds.mapM (stageEvidence R sessionId taskId capture)
  let preimages ← capture.preimages.mapM (stagePreimage R sessionId taskId)
  let document : StoredChangeSetDocument :=
    ⟨capture.manifest, patch.record.ref, evidence.map Prod.snd, preimages.map Prod.snd⟩
  demand document.valid (.valueError "StoredChangeSetDocument")
  pure (patch :: (evidence.map Prod.fst ++ preimages.map Prod.fst), document)

end

/-- The publications of a transaction: the files they leave, and what was published. The artifacts are those of a task,
so no planner run is looked up. -/
def publishFiles (R : ArtifactRepo) (db : Db) (files : ArtifactFiles) :
    List StagedArtifact → Except ArtifactError (ArtifactFiles × List StagedArtifact)
  | [] => .ok (files, [])
  | s :: rest =>
    match R.publishStagedIn (fun _ => none) true db files s with
    | (.error e, _, _) => .error e
    | (.ok (created, db), files, s) => do
      let (files, published) ← publishFiles R db files rest
      pure (files, if created then s :: published else published)

/-- `_finalize_published`. -/
def finalizePublished (R : ArtifactRepo) (files : ArtifactFiles) (published : List StagedArtifact) :
    Except ArtifactError Unit :=
  published.forM fun s =>
    match R.store.finalize files s.handle with
    | .error _ => .error (.reconciliationRequired "committed capture artifact could not be finalized")
    | .ok _ => .ok ()

/-- The arguments of `persist_capture`. -/
structure PersistCapture where
  sessionId : String
  workflowRunId : String
  nodeRunId : String
  taskId : String
  capture : CapturedWorkspaceChangeSet
  taskTarget : TaskStatus
  taskErrorCode : Option String
  status : ChangeSetStatus
  reason : Option String
  masterLease : MasterLease
  workspaceLease : WorkspaceLease
  now : Instant

namespace PersistCapture

variable (R : ArtifactRepo) (H : Digests) (call : PersistCapture)

def patchSha256 : String := R.store.sha256 call.capture.patchBytes

def changeSetId : String :=
  stableId R.store.sha256 "changeset" [call.taskId, call.capture.manifest.baseCommit, call.capture.manifest.postStateHash,
    call.patchSha256 R]

/-- The statements of the transaction, with what is staged. -/
def transaction (staged : List StagedArtifact) : Op Unit :=
  ChangeSetRepository.persistCapture H R.limits call.sessionId call.workflowRunId call.nodeRunId call.taskId
    ⟨call.changeSetId R, call.capture.manifest.baseCommit, call.patchSha256 R, staged.map StagedArtifact.record⟩
    call.taskTarget call.taskErrorCode call.status call.reason call.masterLease call.workspaceLease call.now

/-- Up to the commit. What the transaction does before the publications only reads, so they start from the database as
it was. -/
def commit (s : CaptureStore) : Except ArtifactError (ChangeSetRecord × List StagedArtifact × CaptureStore) := do
  let (staged, document) ← stageCapture R call.sessionId call.taskId call.capture
  let record := ChangeSetRecord.fromDocument (call.changeSetId R) call.sessionId call.workflowRunId call.nodeRunId
    call.taskId call.status document (utcNowText call.now) (utcNowText call.now)
  demand record.changeSet.valid (.valueError "ChangeSet")
  match (call.transaction R H staged).run s.db with
  | .error e => .error (.storage e)
  | .ok ((), db) =>
    let (files, published) ← publishFiles R s.db s.files staged
    let columns : CaptureColumns :=
      ⟨document.manifest.preStateHash, document.manifest.postStateHash, document.json, document.canonicalPatchRef.artifactId⟩
    pure (record, published, ⟨db, Function.update s.columns (call.changeSetId R) (some columns), files⟩)

/-- `persist_capture`. -/
def run (s : CaptureStore) : Except ArtifactError ChangeSetRecord × CaptureStore :=
  match call.commit R H s with
  | .error e => (.error e, s)
  | .ok (record, published, s) => ((finalizePublished R s.files published).map fun () => record, s)

end PersistCapture

/-! ## Reading it back -/

section
variable (R : ArtifactRepo) (s : CaptureStore)

/-- `get_and_verify` of an artifact of a task. -/
def getAndVerify (artifactId sessionId taskId : String) (maxBytes : Option Nat) : Except ArtifactError (ArtifactRow × Bytes) := do
  demand (isEntityId artifactId) (.valueError "artifact_id")
  match s.db.artifacts.get? artifactId with
  | none => .error (.artifactNotFound ("artifact not found: " ++ artifactId))
  | some record =>
    let overLimit : ArtifactError :=
      .quotaExceeded ("artifact exceeds bounded read limit " ++ toString (maxBytes.getD 0))
    demand (maxBytes.all (record.sizeBytes ≤ ·)) overLimit
    demand (record.sessionId = sessionId)
      (.artifactNotFound ("artifact " ++ artifactId ++ " does not belong to session " ++ sessionId))
    demand (record.taskId = some taskId)
      (.artifactNotFound ("artifact " ++ artifactId ++ " does not belong to task " ++ taskId))
    ArtifactRepo.validateOwnerIn (fun _ => none) s.db record
    let content ← ArtifactStore.readBytes s.files ⟨record.artifactType, artifactId⟩
    demand (maxBytes.all (content.length ≤ ·)) overLimit
    demand (R.store.sha256 content = record.sha256)
      (.containmentViolation ("artifact " ++ artifactId ++ " hash mismatch: expected " ++ record.sha256 ++ ", got " ++
        R.store.sha256 content))
    demand (content.length = record.sizeBytes)
      (.containmentViolation ("artifact " ++ artifactId ++ " size mismatch: expected " ++ toString record.sizeBytes ++
        ", got " ++ toString content.length))
    pure (record, content)

/-- The artifacts a document refers to. -/
def references (document : StoredChangeSetDocument) : List ArtifactRef :=
  document.canonicalPatchRef :: (document.evidence.map EvidenceBinding.artifactRef ++
    document.preimages.map PreimageBinding.artifactRef)

/-- The smaller of two limits; `none` is no limit. -/
def limitOf : Option Nat → Option Nat → Option Nat
  | none, b => b
  | a, none => a
  | some a, some b => some (min a b)

/-- The loop over the references: the contents by artifact id, the last one read first. -/
def readReferences (sessionId taskId : String) (maxArtifactBytes maxTotal : Option Nat) :
    List ArtifactRef → Nat → List (String × Bytes) → Except ArtifactError (List (String × Bytes))
  | [], _, contents => .ok contents
  | ref :: refs, verified, contents => do
    let remaining := maxTotal.map fun total => total - verified
    let (metadata, content) ← getAndVerify R s ref.artifactId sessionId taskId (limitOf maxArtifactBytes remaining)
    demand (metadata.taskId = some taskId ∧ metadata.plannerRunId = none ∧ metadata.ref = ref)
      (.integrity ("ChangeSet artifact metadata mismatch: " ++ ref.artifactId))
    readReferences sessionId taskId maxArtifactBytes maxTotal refs (verified + content.length)
      ((ref.artifactId, content) :: contents)

/-- The digest of what was read under an artifact id; every reference was read. -/
def digestOf (contents : List (String × Bytes)) (ref : ArtifactRef) : String :=
  R.store.sha256 ((contents.lookup ref.artifactId).getD [])

/-- The row has what the document says. -/
def checkColumns (row : ChangeSetRow) (columns : CaptureColumns) (document : StoredChangeSetDocument) :
    Except ArtifactError Unit := do
  let mismatch field : ArtifactError := .integrity ("ChangeSet row does not match manifest field " ++ field)
  demand (row.baseCommit = document.manifest.baseCommit) (mismatch "base_commit")
  demand (columns.preStateHash = document.manifest.preStateHash) (mismatch "pre_state_hash")
  demand (columns.postStateHash = document.manifest.postStateHash) (mismatch "post_state_hash")
  demand (row.patchSha256 = document.canonicalPatchRef.sha256) (mismatch "patch_sha256")
  demand (columns.patchArtifactId = document.canonicalPatchRef.artifactId) (mismatch "patch_artifact_id")

/-- The patch and the evidence have their types and digests. -/
def checkContents (document : StoredChangeSetDocument) (contents : List (String × Bytes)) : Except ArtifactError Unit := do
  let patch := document.canonicalPatchRef
  demand (patch.artifactType = .patch) (.integrity "canonical patch has the wrong artifact type")
  demand (digestOf R contents patch = patch.sha256) (.integrity "canonical patch content hash mismatch")
  evidenceKinds.forM fun kind =>
    -- the last binding of a kind counts
    match document.evidence.reverse.find? fun binding => binding.kind = kind with
    | none => .error (.storage (.keyError kind.value))
    | some binding => do
      demand (binding.artifactRef.artifactType = .diff) (.integrity (kind.value ++ " evidence has the wrong type"))
      demand (digestOf R contents binding.artifactRef = document.manifest.evidenceSha256 kind)
        (.integrity (kind.value ++ " evidence content hash mismatch"))

/-- The paths whose preimages a manifest calls for. -/
def expectedPreimages (manifest : ChangeSetManifest) : List String :=
  (manifest.changes.filter fun change => change.action ≠ .created).map fun change => change.oldPath.getD change.path

/-- The preimages are those that the changes call for, and others only of ignored files. -/
def checkPreimages (document : StoredChangeSetDocument) (contents : List (String × Bytes)) : Except ArtifactError Unit := do
  let expected := expectedPreimages document.manifest
  demand (expected.all fun path => (document.preimages.map PreimageBinding.path).contains path)
    (.integrity "ChangeSet is missing a modified-path preimage")
  demand (document.preimages.all fun binding => expected.contains binding.path || binding.baselineIgnored)
    (.integrity "unexpected ChangeSet preimage is not baseline ignored")
  document.preimages.forM fun binding => do
    demand (binding.artifactRef.artifactType = .changePreimage) (.integrity "preimage has the wrong artifact type")
    demand (digestOf R contents binding.artifactRef = binding.artifactRef.sha256)
      (.integrity ("preimage content hash mismatch: " ++ binding.path))

/-- `_verified_record`, of a row with its lineage. -/
def verifiedRecord (row : ChangeSetRow) (lineage : TaskRow × NodeRunRow × WorkflowRunRow) (columns : CaptureColumns)
    (maxArtifactBytes maxTotal : Option Nat) : Except ArtifactError ChangeSetRecord :=
  let (task, node, run) := lineage
  match StoredChangeSetDocument.parse columns.manifestJson with
  | none => .error (.integrity "ChangeSet manifest is invalid")
  | some document => do
    demand (document.json = columns.manifestJson) (.integrity "ChangeSet manifest is not canonical JSON")
    checkColumns row columns document
    let refs := references document
    demand (refs.map ArtifactRef.artifactId).Nodup (.integrity "ChangeSet artifact references are not unique")
    demand (maxTotal.all ((refs.map ArtifactRef.sizeBytes).sum ≤ ·))
      (.quotaExceeded "ChangeSet artifacts exceed the bounded read limit")
    let contents ← readReferences R s run.sessionId task.id maxArtifactBytes maxTotal refs 0 []
    checkContents R document contents
    checkPreimages R document contents
    let record := ChangeSetRecord.fromDocument row.id run.sessionId run.id node.id task.id row.status document row.createdAt
      row.updatedAt
    demand record.changeSet.valid (.integrity "persisted ChangeSet contract is invalid")
    pure record

/-- `get`. -/
def get (changeSetId : String) (expectedSessionId : Option String) (maxArtifactBytes maxTotal : Option Nat) :
    Except ArtifactError ChangeSetRecord :=
  match ChangeSetRepository.changeSetLineage s.db changeSetId, s.columns changeSetId with
  | some (row, lineage), some columns => do
    demand (expectedSessionId.all (lineage.2.2.sessionId = ·)) (.storage (.recordNotFound "ChangeSet not found"))
    verifiedRecord R s row lineage columns maxArtifactBytes maxTotal
  | _, _ => .error (.storage (.recordNotFound ("ChangeSet not found: " ++ changeSetId)))

/-- `load_patch`. -/
def loadPatch (changeSetId : String) : Except ArtifactError (ChangeSetRecord × Bytes) := do
  let record ← get R s changeSetId none none none
  let (_, content) ← getAndVerify R s record.changeSet.canonicalPatchRef.artifactId record.changeSet.sessionId
    record.changeSet.taskId none
  demand (R.store.sha256 content = record.changeSet.patchSha256) (.integrity "canonical patch artifact hash mismatch")
  pure (record, content)

def loadPreimage (record : ChangeSetRecord) (binding : PreimageBinding) : Except ArtifactError FilePreimage := do
  let (_, content) ← getAndVerify R s binding.artifactRef.artifactId record.changeSet.sessionId record.changeSet.taskId none
  demand (R.store.sha256 content = binding.artifactRef.sha256)
    (.integrity ("preimage artifact hash mismatch: " ++ binding.path))
  pure ⟨binding.path, binding.artifactRef.sha256, binding.artifactRef.sizeBytes, binding.mode, content,
    binding.baselineIgnored⟩

/-- `load_preimages`. -/
def loadPreimages (changeSetId : String) : Except ArtifactError (List FilePreimage) := do
  let record ← get R s changeSetId none none none
  record.document.preimages.mapM (loadPreimage R s record)

end

/-! ## Transitions -/

/-- The arguments of `transition`. -/
structure Transition where
  changeSetId : String
  expected : ChangeSetStatus
  target : ChangeSetStatus
  masterLease : MasterLease
  workspaceLease : Option WorkspaceLease
  reason : Option String
  severity : Option String
  now : Instant

/-- The transaction of `transition`, which leaves the store alone when it raises. -/
def Transition.apply (t : Transition) (s : CaptureStore) : CaptureStore :=
  match (ChangeSetRepository.transition t.changeSetId t.expected t.target t.masterLease t.workspaceLease t.reason t.severity
      t.now).run s.db with
  | .ok ((), db) => { s with db }
  | .error _ => s

end CaptureStore

end AgentHub
