import AgentHub.Workspace.ChangeSet
/-!
# The workspace transaction

`WorkspaceTransaction.capture_and_restore`: capture what the agent left, restore the baseline, verify the captured
patch on a replay. The calls that reach Git, the file system and the policies are functions of a machine; every one of
them may raise, at any state of the machine, and leave the machine in any state when it does.
-/

namespace AgentHub.Workspace

open Lib

/-- An absolute path, by its parts. -/
abbrev Path : Type := List String

structure ValidatedPath where
  relativePath : String
  present : Bool
  deriving DecidableEq, Repr

structure SourceRepository where
  root : Path
  commit : String
  branch : String
  trackedPaths : List String
  gitSizeBytes : Nat
  dirty : Bool
  deriving DecidableEq, Repr

structure CanonicalFile where
  path : String
  content : Bytes
  mode : Nat
  deriving DecidableEq, Repr

structure CanonicalPatch where
  patchBytes : Bytes
  nameStatusBytes : Bytes
  deriving DecidableEq, Repr

structure CanonicalRequest where
  baseCommit : String
  changedPaths : List String
  tempDirectory : Path
  baselineFiles : List CanonicalFile
  capturedFiles : List CanonicalFile
  deriving DecidableEq, Repr

/-- The calls of the transaction, over the states of a machine. The first argument of most is the repository. -/
structure Machine (W : Type) where
  process : Path → GitProcess (EStateM Failure W)
  captureMetadataSeal : Path → Bool → EStateM Failure W GitMetadataSeal
  buildCanonicalPatch : Path → CanonicalRequest → EStateM Failure W CanonicalPatch
  createPrivateTemporaryDirectory : String → EStateM Failure W Path
  removePrivateTemporaryDirectory : Path → EStateM Failure W Unit
  inspectSourceRepository : Path → String → EStateM Failure W SourceRepository
  createSessionRepository : SourceRepository → Path → String → EStateM Failure W Unit
  probe : Path → Probe (EStateM Failure W)
  /-- open and close a `SecureWorkspaceRoot` -/
  openRoot : Path → EStateM Failure W Unit
  closeRoot : Path → EStateM Failure W Unit
  assertRootIdentity : Path → EStateM Failure W Unit
  setMode : Path → String → Nat → EStateM Failure W Unit
  unlinkRegular : Path → String → EStateM Failure W Unit
  removeDirectory : Path → String → EStateM Failure W Unit
  replaceRegular : Path → String → Bytes → Nat → EStateM Failure W Unit
  /-- the path policy of a root -/
  openPolicy : Path → EStateM Failure W Unit
  validateCleanupPath : Path → String → EStateM Failure W ValidatedPath
  validateCapturedPath : Path → String → Bool → EStateM Failure W ValidatedPath
  comparisonKey : String → String
  assertSecretFreeBytes : Bytes → String → Except Failure Unit

/-- A transaction that has begun: its settings, and the baseline it recorded. -/
structure WorkspaceTransaction where
  repo : Path
  baseCommit : String
  tempDirectory : Path
  limits : Limits
  sealGitObjects : Bool
  forbiddenPaths : List String
  baselineState : RepositoryState
  baselineInventory : Inventory
  baselineTracked : List String
  baselineIgnored : List String
  ignoredPreimages : Dict FilePreimage
  baselineIndexSha256 : String
  gitMetadataSeal : GitMetadataSeal

inductive Phase where
  | new | active | closed | orphaned
  deriving DecidableEq, Repr

/-- The variables of the capture that the restore reads: what was assigned before an error stays assigned. -/
structure Marks where
  restorePaths : List String
  createdDirectories : List String
  ignoredTouched : List String

section
variable {W : Type} (H : Host) (M : Machine W)

def lift {σ α : Type} (x : Except Failure α) : EStateM Failure σ α :=
  match x with
  | .ok a => pure a
  | .error e => throw e

/-- `materialize_workspace_preimages`; `owned` when it opens a root and a policy of its own. Both belong to the same
repository either way. -/
def materializeWorkspacePreimages (repo : Path) (preimages : List FilePreimage) (maxPaths : Nat) (owned : Bool) :
    EStateM Failure W Unit := do
  if ¬ (1 ≤ maxPaths ∧ maxPaths ≤ 50000) then throw ⟨.valueError, "preimage path limit is invalid"⟩
  else if preimages.length > maxPaths then
    throw (.transaction "preimage materialization exceeds its path limit")
  else if ¬ (preimages.map FilePreimage.path).Nodup then
    throw (.transaction "preimage materialization contains duplicate paths")
  else do
    (if owned then M.openRoot repo else pure ())
    let body : EStateM Failure W Unit := do
      M.assertRootIdentity repo
      (if owned then M.openPolicy repo else pure ())
      preimages.forM fun preimage => do
        if preimage.content.length ≠ preimage.sizeBytes ∨ H.sha256 preimage.content ≠ preimage.sha256 then
          throw (.transaction ("preimage content does not match its manifest: " ++ preimage.path))
        else do
          let validated ← M.validateCleanupPath repo preimage.path
          reraise Failure.isSecureFile
            (fun _ => .restore ("preimage could not be safely restored: " ++ preimage.path))
            (M.replaceRegular repo validated.relativePath preimage.content preimage.mode)
    if owned then tryFinally body (M.closeRoot repo) else body

namespace WorkspaceTransaction

variable (tx : WorkspaceTransaction)

/-- `assert_metadata_seal`. -/
def assertMetadataSeal : EStateM Failure W Unit := do
  let current ← M.captureMetadataSeal tx.repo tx.sealGitObjects
  if current ≠ tx.gitMetadataSeal then
    throw (.git "session Git control metadata changed during task execution")
  else pure ()

/-! ## The restore -/

/-- `_remove_exact_new_file`. -/
def removeExactNewFile (path : String) : EStateM Failure W Unit := do
  let validated ← M.validateCleanupPath tx.repo path
  reraise Failure.isSecureFile (fun _ => .restore ("new path could not be safely removed: " ++ path))
    (M.unlinkRegular tx.repo validated.relativePath)

/-- The mode of a tracked file, after Git has restored it. -/
def restoreMode (path : String) : EStateM Failure W Unit :=
  match tx.baselineInventory.files.lookup path with
  | none => pure ()
  | some snapshot =>
    reraise Failure.isSecureFile (fun _ => .restore ("tracked file mode restoration failed: " ++ path))
      (M.setMode tx.repo path snapshot.mode)

def restoreIgnored (path : String) : EStateM Failure W Unit :=
  match tx.ignoredPreimages.lookup path with
  | none => tx.removeExactNewFile M path
  | some preimage => materializeWorkspacePreimages H M tx.repo [preimage] tx.limits.maxChangedPaths false

def removeCreatedDirectory (directory : String) : EStateM Failure W Unit := do
  let validated ← M.validateCleanupPath tx.repo directory
  reraise Failure.isSecureFile (fun _ => .restore ("created directory could not be safely removed: " ++ directory))
    (M.removeDirectory tx.repo validated.relativePath)

/-- The number of folders above a path, then the path. -/
def depthOrder (a b : String) : Bool :=
  let depth (path : String) : Nat := path.toList.count '/'
  depth a < depth b || (depth a = depth b && a ≤ b)

/-- `_restore`. -/
def restore (marks : Marks) : EStateM Failure W Unit := do
  let changed := marks.restorePaths.dedup
  let trackedExisting := sorted (changed.filter fun path => tx.baselineTracked.contains path)
  let untrackedNew := sorted (changed.filter fun path =>
    ¬ tx.baselineTracked.contains path ∧ ¬ tx.baselineIgnored.contains path)
  GitManager.restoreExistingPaths H (M.process tx.repo) tx.baseCommit trackedExisting
  trackedExisting.forM (tx.restoreMode M)
  GitManager.unstageNewPaths H (M.process tx.repo) untrackedNew
  untrackedNew.forM (tx.removeExactNewFile M)
  let ignoredToRestore ← if marks.ignoredTouched = [] then do
      let current ← GitManager.state H (M.process tx.repo)
      pure ((current.ignoredFiles.filter fun path => ¬ tx.baselineIgnored.contains path) ++
        (tx.baselineIgnored.filter fun path => ¬ current.ignoredFiles.contains path))
    else pure marks.ignoredTouched
  (sortedSet ignoredToRestore).forM (tx.restoreIgnored H M)
  ((marks.createdDirectories.insertionSort fun a b => depthOrder a b).reverse).forM (tx.removeCreatedDirectory M)

/-- `_assert_restored`. -/
def assertRestored : EStateM Failure W Unit := do
  tx.assertMetadataSeal M
  let current ← GitManager.state H (M.process tx.repo)
  if current ≠ tx.baselineState then throw (.restore "workspace Git state differs from its baseline")
  else do
    let index ← GitManager.indexSha256 H (M.process tx.repo)
    if index ≠ tx.baselineIndexSha256 then throw (.restore "real Git index differs from its baseline")
    else do
      let inventory ← scanInventory H tx.limits (M.probe tx.repo) tx.baselineIgnored
      if ¬ inventory.same tx.baselineInventory then
        throw (.restore "workspace file inventory differs from its baseline")
      else pure ()

/-! ## The capture -/

/-- A call of the capture, which leaves its variables alone. -/
def call {β : Type} (x : EStateM Failure W β) : EStateM Failure (W × Marks) β := fun s =>
  match x s.1 with
  | .ok b w => .ok b (w, s.2)
  | .error e w => .error e (w, s.2)

/-- An assignment of the capture. -/
def assign (f : Marks → Marks) : EStateM Failure (W × Marks) Unit := fun s => .ok () (s.1, f s.2)

/-- `_seal_inventory_paths`. -/
def sealInventoryPaths (inventory : Inventory) (paths : List String) : EStateM Failure W Inventory := do
  let start := (inventory.sealedFiles.map fun p => p.2.sizeBytes).sum
  let (sealedFiles, _) ← (sortedSet paths).foldlM (fun (s : Dict SealedFile × Nat) path =>
    match inventory.files.lookup path with
    | none => pure s
    | some expected =>
      if Dict.has s.1 path then pure s
      else do
        let (current, content) ← snapshotFile H (M.probe tx.repo) path true
        match content with
        | none => throw (.transaction ("workspace path changed while content was sealed: " ++ path))
        | some content =>
          if current ≠ expected then
            throw (.transaction ("workspace path changed while content was sealed: " ++ path))
          else if s.2 + content.sizeBytes > tx.limits.maxSealedBytes then
            throw (.transaction "workspace sealed content byte limit exceeded")
          else pure (s.1 ++ [(path, content)], s.2 + content.sizeBytes)) (inventory.sealedFiles, start)
  pure { inventory with sealedFiles }

/-- `_ignored_changes`. -/
def ignoredChanges (after : Inventory) (current : RepositoryState) : List String :=
  sortedSet ((tx.baselineIgnored ++ current.ignoredFiles).filter fun path =>
    tx.baselineInventory.files.lookup path ≠ after.files.lookup path)

/-- One round of `_validate_ignored_capture`. -/
def validateIgnoredPath (after : Inventory) (path : String) : EStateM Failure W Unit :=
  reraise Failure.isPolicyViolation
    (fun _ => .transaction "ignored change contains a forbidden path or credential-like content") do
    let _ ← M.validateCapturedPath tx.repo path (Dict.has after.files path)
    match tx.ignoredPreimages.lookup path with
    | some baseline => lift (M.assertSecretFreeBytes baseline.content ("ignored preimage '" ++ path ++ "'"))
    | none => pure ()
    match after.files.lookup path with
    | none => pure ()
    | some snapshot =>
      match after.sealedFiles.lookup path with
      | none => throw ⟨.secretPolicyViolation, "ignored captured content was not sealed"⟩
      | some content => do
        lift (assertSealedContent H path snapshot content)
        lift (M.assertSecretFreeBytes content.content ("ignored captured file '" ++ path ++ "'"))

/-- One round of `_validate_changed_paths`. -/
def validateChangedPath (after : Inventory) (path : String) : EStateM Failure W Unit := do
  let validated ← M.validateCleanupPath tx.repo path
  if tx.forbiddenPaths.contains (M.comparisonKey path) then
    throw (.transaction ("protected capability resource requires a consumed grant: " ++ path))
  else if Dict.has after.files path ∧ ¬ validated.present then
    throw (.transaction ("captured path disappeared: " ++ path))
  else pure ()

/-- One round of `_assert_sealed_paths_current`. -/
def assertSealedPathCurrent (inventory : Inventory) (path : String) : EStateM Failure W Unit := do
  let validated ← M.validateCleanupPath tx.repo path
  match inventory.files.lookup path with
  | none =>
    if validated.present then throw (.transaction ("workspace path appeared after inventory: " ++ path)) else pure ()
  | some expected =>
    if ¬ validated.present then throw (.transaction ("workspace path disappeared after inventory: " ++ path))
    else do
      let (current, content) ← snapshotFile H (M.probe tx.repo) path true
      if content = none ∨ inventory.sealedFiles.lookup path = none ∨ current ≠ expected ∨
          content ≠ inventory.sealedFiles.lookup path then
        throw (.transaction ("workspace path changed after inventory: " ++ path))
      else pure ()

/-- The preimage of the source of one change, unless it is there already. -/
def buildPreimage (preimages : Dict FilePreimage) (change : FileChange) : EStateM Failure W (Dict FilePreimage) :=
  let sourcePath := change.oldPath.getD change.path
  if change.action = .created ∨ Dict.has preimages sourcePath then pure preimages
  else do
    let content ← GitManager.readBlob H (M.process tx.repo) tx.baseCommit sourcePath
    let digest := H.sha256 content
    if change.beforeSha256 ≠ some digest then
      throw (.transaction ("tracked preimage hash mismatch: " ++ sourcePath))
    else
      match tx.baselineInventory.files.lookup sourcePath with
      | none => throw ⟨.keyError, sourcePath⟩
      | some snapshot =>
        pure (Dict.set preimages sourcePath ⟨sourcePath, digest, content.length, snapshot.mode, content, false⟩)

/-- The baseline bytes of the ignored paths that were touched. -/
def touchedPreimages (ignoredTouched : List String) : Dict FilePreimage :=
  ignoredTouched.filterMap fun path => (tx.ignoredPreimages.lookup path).map fun preimage => (path, preimage)

/-- `_build_preimages`. -/
def buildPreimages (changes : List FileChange) (ignoredTouched : List String) : EStateM Failure W (List FilePreimage) := do
  let preimages ← changes.foldlM (tx.buildPreimage H M) (tx.touchedPreimages ignoredTouched)
  pure ((preimages.insertionSort fun a b => a.1 ≤ b.1).map Prod.snd)

/-- The body of the first `try`: from the folders that were created to the captured ChangeSet, with the inventory that
its replay is to reach. -/
def capture (current : RepositoryState) (evidence : GitEvidence) :
    EStateM Failure (W × Marks) (CapturedWorkspaceChangeSet × Inventory) := do
  let baseline := tx.baselineInventory
  let found ← call (scanDirectories H tx.limits (M.probe tx.repo))
  let createdDirectories := ((found.dedup.filter fun path => ¬ baseline.directories.contains path).insertionSort
    fun a b => depthOrder a b)
  assign fun marks => { marks with createdDirectories }
  let after ← call (scanInventory H tx.limits (M.probe tx.repo) [])
  let restorePaths := (evidence.changedPaths ++ inventoryChangedPaths baseline after).dedup
  assign fun marks => { marks with restorePaths }
  let after ← call (tx.sealInventoryPaths H M after restorePaths)
  let ignoredTouched := tx.ignoredChanges after current
  assign fun marks => { marks with ignoredTouched }
  call (ignoredTouched.forM (tx.validateIgnoredPath H M after))
  call (restorePaths.forM (tx.validateChangedPath M after))
  call ((sortedSet restorePaths).forM (tx.assertSealedPathCurrent H M after))
  let excludedIgnored := (tx.baselineIgnored ++ current.ignoredFiles).filter fun path => ¬ ignoredTouched.contains path
  let replayBaseline := projectInventory H baseline excludedIgnored
  let replayAfter := projectInventory H after excludedIgnored
  if restorePaths.length > tx.limits.maxChangedPaths then
    throw (.transaction ("ChangeSet exceeds " ++ toString tx.limits.maxChangedPaths ++ " paths"))
  let createdBytes := ((after.files.filter fun p => ¬ Dict.has baseline.files p.1).map fun p => p.2.sizeBytes).sum
  if createdBytes > tx.limits.maxCreatedBytes then
    throw (.transaction ("task-created bytes exceed " ++ toString tx.limits.maxCreatedBytes))
  let capturedFiles ← lift (((sorted restorePaths).filter fun path => Dict.has after.files path).mapM fun path =>
    match after.sealedFiles.lookup path with
    | some content => .ok ⟨path, content.content, content.mode⟩
    | none => .error ⟨.keyError, path⟩)
  let canonical ← call (M.buildCanonicalPatch tx.repo
    { baseCommit := tx.baseCommit
      changedPaths := restorePaths
      tempDirectory := tx.tempDirectory
      baselineFiles := (tx.touchedPreimages ignoredTouched).map fun p => ⟨p.2.path, p.2.content, p.2.mode⟩
      capturedFiles })
  if canonical.patchBytes.length > tx.limits.maxPatchBytes then
    throw (.transaction ("canonical patch exceeds " ++ toString tx.limits.maxPatchBytes ++ " bytes"))
  let changes ← lift (buildFileChanges H baseline after canonical.nameStatusBytes)
  let manifest ← lift (ChangeSetManifest.build
    { baseCommit := tx.baseCommit
      preStateHash := replayBaseline.stateHash
      postStateHash := replayAfter.stateHash
      changes
      createdDirectories
      ignoredFilesTouched := ignoredTouched
      stagedEvidenceSha256 := H.sha256 evidence.stagedDiffBytes
      unstagedEvidenceSha256 := H.sha256 evidence.unstagedDiffBytes
      statusEvidenceSha256 := H.sha256 evidence.statusBytes })
  let preimages ← call (tx.buildPreimages H M changes ignoredTouched)
  pure (⟨manifest, canonical.patchBytes, evidence.statusBytes, evidence.stagedDiffBytes, evidence.unstagedDiffBytes,
    preimages⟩, replayAfter)

/-! ## The replay -/

/-- The body of the `try` of the replay. -/
def replay (result : CapturedWorkspaceChangeSet) (postInventory : Inventory) (replayRepo : Path) (sessionId : String) :
    EStateM Failure W Unit := do
  let source ← M.inspectSourceRepository tx.repo tx.baseCommit
  M.createSessionRepository source replayRepo sessionId
  materializeWorkspacePreimages H M replayRepo
    ((tx.touchedPreimages result.manifest.ignoredFilesTouched).map Prod.snd) tx.limits.maxChangedPaths true
  let replayBaseline ← scanInventory H tx.limits (M.probe replayRepo) []
  if replayBaseline.stateHash ≠ result.manifest.preStateHash then
    throw (.transaction "replay workspace does not match the captured pre-state")
  else do
    GitManager.applyCheck H (M.process replayRepo) result.patchBytes
    GitManager.applyPatch H (M.process replayRepo) result.patchBytes
    let applied ← scanInventory H tx.limits (M.probe replayRepo) []
    if applied.stateHash ≠ result.manifest.postStateHash then
      throw (.transaction "canonical patch does not reproduce the captured post-state")
    else if ¬ Dict.same applied.files postInventory.files then
      throw (.transaction "canonical replay inventory differs from captured inventory")
    else pure ()

/-- `_verify_canonical_patch`. -/
def verifyCanonicalPatch (result : CapturedWorkspaceChangeSet) (postInventory : Inventory) : EStateM Failure W Unit :=
  if result.patchBytes = [] then
    if result.manifest.preStateHash ≠ result.manifest.postStateHash then
      throw (.transaction "empty canonical patch does not reproduce the captured post-state")
    else pure ()
  else do
    let replayRoot ← M.createPrivateTemporaryDirectory "ah-replay-"
    if tx.repo.isPrefixOf replayRoot then do
      M.removePrivateTemporaryDirectory replayRoot
      throw (.transaction "replay root must be outside the session repository")
    else
      let replayId := (replayRoot.getLastD "").toList.drop "ah-replay-".length
      tryFinally
        (tx.replay H M result postInventory (replayRoot ++ ["workspace", "repo"])
          ("replay-" ++ String.ofList (replayId.take 24)))
        (M.removePrivateTemporaryDirectory replayRoot)

/-! ## The state machine -/

/-- The machine with the phase of the transaction. -/
structure Session (W : Type) where
  world : W
  phase : Phase

/-- A call of the method, which leaves the phase alone. -/
def within {β : Type} (x : EStateM Failure W β) : EStateM Failure (Session W) β := fun s =>
  match x s.world with
  | .ok b w => .ok b { s with world := w }
  | .error e w => .error e { s with world := w }

/-- `self._phase = phase`. -/
def setPhase (phase : Phase) : EStateM Failure (Session W) Unit := fun s => .ok () { s with phase }

/-- The end of the method, once the baseline is back. -/
def conclude (result : Except Failure (CapturedWorkspaceChangeSet × Inventory)) :
    EStateM Failure (Session W) CapturedWorkspaceChangeSet :=
  match result with
  | .error e => do
    setPhase .closed
    throw e
  | .ok (result, replayAfter) => do
    let verified ← within (outcome (tx.verifyCanonicalPatch H M result replayAfter))
    match verified with
    | .error e => do
      setPhase (if e.kind = .workspaceRestore then .orphaned else .closed)
      throw e
    | .ok () => do
      setPhase .closed
      pure result

/-- Capture, whatever comes of it, and restore. -/
def captureThenRestore (current : RepositoryState) (evidence : GitEvidence) :
    EStateM Failure (Session W) CapturedWorkspaceChangeSet := do
  let (result, marks) ← within (capturing (tx.capture H M current evidence)
    ⟨evidence.changedPaths, [], sortedSet (tx.baselineIgnored ++ current.ignoredFiles)⟩)
  let restored ← within (outcome do
    tx.restore H M marks
    tx.assertRestored H M)
  match restored with
  | .error _ => do
    setPhase .orphaned
    throw (.restore "task-local workspace restoration failed")
  | .ok () => tx.conclude H M result

/-- `_capture_and_restore_pinned`. -/
def captureAndRestorePinned : EStateM Failure (Session W) CapturedWorkspaceChangeSet := do
  within (M.assertRootIdentity tx.repo)
  let sealed ← within (outcome (tx.assertMetadataSeal M))
  match sealed with
  | .error e =>
    if e.kind = .gitManager then do
      setPhase .orphaned
      throw (.restore "session Git control metadata changed during task execution")
    else throw e
  | .ok () => do
    let current ← within (GitManager.state H (M.process tx.repo))
    if current.commit ≠ tx.baselineState.commit ∨ current.branch ≠ tx.baselineState.branch then do
      setPhase .orphaned
      throw (.restore "Agent changed workspace HEAD or branch")
    else do
      let evidence ← within (GitManager.captureEvidence H (M.process tx.repo))
      tx.captureThenRestore H M current evidence

/-- `capture_and_restore`. -/
def captureAndRestore : EStateM Failure (Session W) CapturedWorkspaceChangeSet := fun s =>
  if s.phase ≠ .active then .error (.transaction "workspace transaction is not active") s
  else tryFinally (tx.captureAndRestorePinned H M) (within (M.closeRoot tx.repo)) s

end WorkspaceTransaction

end

end AgentHub.Workspace
