import AgentHub.Storage.Captures.Document
import AgentHub.Workspace.Transaction
/-!
# Task context bundles

`TaskContextBundle` over the calls it makes: it copies the artifacts of a task to a staging directory, writes the manifest,
renames the directory to where the agent reads it, and removes it when the task is done. Every call may raise.
-/

namespace AgentHub

open Lib Workspace

/-- What the calls of a bundle raise. -/
inductive BundleFault where
  /-- `BundleError` -/
  | bundle (message : String)
  /-- an `OSError`, with the name of its class -/
  | os (name message : String)
  /-- any other `Exception` -/
  | exception (name message : String)
  /-- `CancelledError`, `KeyboardInterrupt` and what else is no `Exception` -/
  | interrupt (name : String)
  deriving DecidableEq, Repr

namespace BundleFault

/-- `str(error)`. -/
def text : BundleFault → String
  | .bundle message | .os _ message | .exception _ message => message
  | .interrupt _ => ""

def isException : BundleFault → Bool
  | .interrupt _ => false
  | _ => true

def isBundleError : BundleFault → Bool
  | .bundle _ => true
  | _ => false

end BundleFault

/-- What `os.scandir` says of a name: `is_dir` follows links. -/
structure DirEntry where
  name : String
  isDir : Bool
  isSymlink : Bool
  deriving DecidableEq, Repr

/-- The calls that walk a tree of files and take it down. -/
structure FileHost (W : Type) where
  /-- `os.name == "nt"` -/
  windows : Bool
  /-- `USERNAME` -/
  user : String
  pathText : Path → String
  pathExists (path : Path) : EStateM BundleFault W Bool
  /-- `S_ISLNK` of `lstat` -/
  lstatIsLink (path : Path) : EStateM BundleFault W Bool
  /-- `GetFileAttributesW`; `none` is -1 -/
  fileAttributes (path : Path) : EStateM BundleFault W (Option Nat)
  scandir (path : Path) : EStateM BundleFault W (List DirEntry)
  chmod (path : Path) (mode : Nat) : EStateM BundleFault W Unit
  /-- the return code of `icacls` -/
  icacls (path : Path) (grant : String) : EStateM BundleFault W Int
  unlink (path : Path) : EStateM BundleFault W Unit
  removeDirectory (path : Path) : EStateM BundleFault W Unit

/-- Where the bundles are. -/
structure BundleDirs (W : Type) extends FileHost W where
  bundleRoot : Path
  /-- how deep below a directory `os.walk` is followed -/
  walkFuel : Nat

/-- The calls of a bundle. -/
structure BundleHost (W : Type) extends BundleDirs W where
  sha256 : Bytes → String
  clock : EStateM BundleFault W Instant
  getRecord (artifactId : String) : EStateM BundleFault W ArtifactRow
  validateOwner (row : ArtifactRow) : EStateM BundleFault W Unit
  readBytes (artifactId : String) (artifactType : ArtifactType) : EStateM BundleFault W Bytes
  /-- `any(path.iterdir())` -/
  anyEntry (path : Path) : EStateM BundleFault W Bool
  makeDirectories (path : Path) : EStateM BundleFault W Unit
  makeTemporary (stem : String) (parent : Path) : EStateM BundleFault W Path
  writeBytes (path : Path) (content : Bytes) : EStateM BundleFault W Unit
  rename (source target : Path) : EStateM BundleFault W Unit

/-- What a model raises that is not valid. -/
def invalid (model : String) : BundleFault := .exception "ValidationError" model

def ensure {W : Type} (b : Bool) (e : BundleFault) : EStateM BundleFault W Unit := if b then pure () else throw e

namespace FileHost

variable {W : Type} (M : FileHost W)

/-- `with contextlib.suppress(OSError)`. -/
def suppress (x : EStateM BundleFault W Unit) : EStateM BundleFault W Unit := do
  match ← outcome x with
  | .error (.os _ _) | .ok _ => pure ()
  | .error e => throw e

/-! ## Containment -/

/-- The reparse bit of the file attributes. -/
def reparseBit : Nat := 0x400

/-- `_is_reparse_or_symlink`. -/
def isReparseOrSymlink (path : Path) : EStateM BundleFault W Bool := do
  let found ← outcome (do
    if ← M.lstatIsLink path then pure true
    else if M.windows then return (← M.fileAttributes path).any fun attrs => attrs &&& reparseBit ≠ 0
    else pure false)
  match found with
  | .ok link => pure link
  | .error (.os _ _) => pure false
  | .error e => throw e

/-- The loop of `_check_path_safe` over the parts below `current`. -/
def checkParts (label : String) : Path → List String → EStateM BundleFault W Unit
  | _, [] => pure ()
  | current, part :: parts => do
    let path := current ++ [part]
    if ← M.pathExists path then
      if ← M.isReparseOrSymlink path then
        throw (.bundle (label ++ ": symlink/junction/reparse in path: " ++ M.pathText path))
    checkParts label path parts

/-- `_check_path_safe`. -/
def checkPathSafe (path base : Path) (label : String) : EStateM BundleFault W Unit :=
  if base <+: path then M.checkParts label base (path.drop base.length)
  else throw (.bundle (label ++ " escapes containment: " ++ M.pathText path ++ " not under " ++ M.pathText base))

/-! ## Permissions -/

/-- What `_set_file_readonly` and `_set_dir_private` have in common. -/
def setPermissions (path : Path) (grant : String) (mode : Nat) (denied failed : String) : EStateM BundleFault W Unit :=
  if M.windows then
    if M.user = "" then throw (.bundle "cannot determine current user")
    else do
      let code ← M.icacls path (M.user ++ grant)
      if code ≠ 0 then throw (.bundle denied)
  else do
    match ← outcome (M.chmod path mode) with
    | .ok _ => pure ()
    | .error (.os _ message) => throw (.bundle (failed ++ message))
    | .error e => throw e

/-- `S_IREAD`. -/
def readOnlyMode : Nat := 0o400

/-- `S_IRWXU`. -/
def privateMode : Nat := 0o700

/-- `_set_file_readonly`. -/
def setFileReadonly (path : Path) : EStateM BundleFault W Unit :=
  M.setPermissions path ":(R)" readOnlyMode "failed to set read-only permissions on file" "failed to set read-only: "

/-- `_set_dir_private`. -/
def setDirPrivate (path : Path) : EStateM BundleFault W Unit :=
  M.setPermissions path ":(F)" privateMode "failed to set private permissions on directory" "failed to set dir private: "

/-- `_restore_write`; `_force_remove_staging` has the same lines. -/
def restoreWrite (path : Path) : EStateM BundleFault W Unit :=
  if M.windows then
    if M.user = "" then pure ()
    else do
      let _ ← M.icacls path (M.user ++ ":(F)")
      pure ()
  else suppress (M.chmod path privateMode)

/-! ## Walks -/

/-- The entries of a directory as `os.walk` reads them: a directory that cannot be listed is left out. -/
def listing (top : Path) : EStateM BundleFault W (Option (List DirEntry)) := do
  match ← outcome (M.scandir top) with
  | .ok entries => pure (some entries)
  | .error (.os _ _) => pure none
  | .error e => throw e

/-- `os.path.islink`. -/
def isLink (path : Path) : EStateM BundleFault W Bool := do
  match ← outcome (M.lstatIsLink path) with
  | .ok link => pure link
  | .error (.os _ _) => pure false
  | .error e => throw e

def dirNames (entries : List DirEntry) : List String := (entries.filter DirEntry.isDir).map DirEntry.name

def fileNames (entries : List DirEntry) : List String := (entries.filter fun e => !e.isDir).map DirEntry.name

section
variable {β : Type}

/-- `os.walk(top, topdown=True)` with the body of its loop, which returns the directories to go into. The fuel bounds the
depth of the tree. -/
def walkTopDown (body : Path → List String → List String → β → EStateM BundleFault W (List String × β)) :
    Nat → Path → β → EStateM BundleFault W β
  | 0, _, b => pure b
  | fuel + 1, top, b => do
    match ← M.listing top with
    | none => pure b
    | some entries =>
      let (dirs, b) ← body top (dirNames entries) (fileNames entries) b
      dirs.foldlM (fun b name => do
        if ← M.isLink (top ++ [name]) then pure b else walkTopDown body fuel (top ++ [name]) b) b

/-- `os.walk(top, topdown=False)` with the body of its loop. -/
def walkBottomUp (body : Path → List String → List String → β → EStateM BundleFault W β) :
    Nat → Path → β → EStateM BundleFault W β
  | 0, _, b => pure b
  | fuel + 1, top, b => do
    match ← M.listing top with
    | none => pure b
    | some entries =>
      let below := (entries.filter fun e => e.isDir && !e.isSymlink).map DirEntry.name
      let b ← below.foldlM (fun b name => walkBottomUp body fuel (top ++ [name]) b) b
      body top (dirNames entries) (fileNames entries) b

end

/-- One directory of `_force_remove_staging`. -/
def forceRemoveIn (root : Path) (dirs files : List String) : EStateM BundleFault W Unit := do
  files.forM fun name => do
    M.restoreWrite (root ++ [name])
    suppress (M.unlink (root ++ [name]))
  dirs.forM fun name => suppress (M.removeDirectory (root ++ [name]))

/-- `_force_remove_staging`. -/
def forceRemoveStaging (fuel : Nat) (stagingDir : Path) : EStateM BundleFault W Unit := do
  if ← M.pathExists stagingDir then
    M.walkBottomUp (fun root dirs files _ => M.forceRemoveIn root dirs files) (fuel + 1) stagingDir ()
    suppress (M.removeDirectory stagingDir)

end FileHost

/-! ## The manifest -/

structure ManifestEntry where
  artifactId : String
  artifactType : ArtifactType
  sourceRef : ArtifactRef
  materializedFilename : String
  sha256 : String
  sizeBytes : Nat
  expiresAt : String
  deriving DecidableEq, Repr

namespace ManifestEntry

def valid (e : ManifestEntry) : Bool :=
  isEntityId e.artifactId && e.sourceRef.valid && 1 ≤ e.materializedFilename.length && e.materializedFilename.length ≤ 256 &&
    Workspace.isSha256Hex e.sha256 && 1 ≤ e.expiresAt.length && e.expiresAt.length ≤ 27

def dump (e : ManifestEntry) : Plain :=
  record [("artifact_id", .str e.artifactId), ("artifact_type", .str e.artifactType.value), ("source_ref", e.sourceRef.dump),
    ("materialized_filename", .str e.materializedFilename), ("sha256", .str e.sha256), ("size_bytes", natural e.sizeBytes),
    ("expires_at", .str e.expiresAt)]

end ManifestEntry

structure BundleManifest where
  taskId : String
  sessionId : String
  entries : List ManifestEntry
  totalBytes : Nat
  bundleSha256 : String
  deriving DecidableEq, Repr

namespace BundleManifest

def valid (m : BundleManifest) : Bool :=
  isEntityId m.taskId && isEntityId m.sessionId && m.entries.all ManifestEntry.valid && Workspace.isSha256Hex m.bundleSha256

def dump (m : BundleManifest) : Plain :=
  record [("task_id", .str m.taskId), ("session_id", .str m.sessionId), ("entries", listOf ManifestEntry.dump m.entries),
    ("total_bytes", natural m.totalBytes), ("bundle_sha256", .str m.bundleSha256)]

end BundleManifest

structure BundleResult where
  manifest : BundleManifest
  bundleDir : Path
  deriving DecidableEq, Repr

structure CleanupResult where
  removedFiles : Nat
  removedDirs : Nat
  errors : List String
  deriving DecidableEq, Repr

namespace BundleDirs

variable {W : Type} (B : BundleDirs W)

/-- The directory of a task. -/
def taskDir (taskId : String) : Path := B.bundleRoot ++ [taskId]

/-- `bundle_dir` of a task whose id is valid. -/
def bundleDir (taskId : String) : Path := B.taskDir taskId ++ ["context"]

end BundleDirs

/-- A bundle over the calls of its host. -/
structure TaskContextBundle (W : Type) extends BundleHost W where
  maxBundleBytes : Nat
  ttlSeconds : Nat

namespace TaskContextBundle

variable {W : Type} (B : TaskContextBundle W)

/-- `_compute_manifest_hash`. -/
def computeManifestHash (entries : List ManifestEntry) (taskId sessionId : String) (totalBytes : Nat) : String :=
  B.sha256 (canonicalJson (record [("task_id", .str taskId), ("session_id", .str sessionId),
    ("entries", listOf ManifestEntry.dump entries), ("total_bytes", natural totalBytes)]))

/-! ## Materialization -/

/-- `ArtifactRepository.get_and_verify`, as the bundle calls it. -/
def getAndVerify (artifactId expectedSessionId : String) : EStateM BundleFault W (ArtifactRow × Bytes) := do
  let row ← B.getRecord artifactId
  ensure (row.sessionId = expectedSessionId) (.exception "ArtifactNotFound"
    ("artifact " ++ artifactId ++ " does not belong to session " ++ expectedSessionId))
  B.validateOwner row
  let content ← B.readBytes artifactId row.artifactType
  ensure (B.sha256 content = row.sha256) (.exception "ContainmentViolation"
    ("artifact " ++ artifactId ++ " hash mismatch: expected " ++ row.sha256 ++ ", got " ++ B.sha256 content))
  ensure (content.length = row.sizeBytes) (.exception "ContainmentViolation"
    ("artifact " ++ artifactId ++ " size mismatch: expected " ++ toString row.sizeBytes ++ ", got " ++ toString content.length))
  pure (row, content)

/-- What the loop of `materialize` has assigned. -/
structure Staged where
  entries : List ManifestEntry := []
  totalBytes : Nat := 0
  seenIds : List String := []
  deriving DecidableEq, Repr

/-- The name of the file of an artifact. -/
def filename (artifactId : String) (artifactType : ArtifactType) : String := artifactId ++ "." ++ artifactType.value

/-- The reference to a verified artifact. -/
def verifiedRef (artifactId : String) (row : ArtifactRow) : ArtifactRef :=
  ⟨artifactId, row.artifactType, row.relativePath, row.sha256, row.sizeBytes⟩

def entryOf (artifactId : String) (row : ArtifactRow) (expiresAt : String) : ManifestEntry :=
  ⟨artifactId, row.artifactType, verifiedRef artifactId row, filename artifactId row.artifactType, row.sha256, row.sizeBytes,
    expiresAt⟩

/-- The checks of a record against the task and the reference. -/
def checkRecord (taskId : String) (ref : ArtifactRef) (row : ArtifactRow) : EStateM BundleFault W Unit := do
  let name := "artifact " ++ ref.artifactId
  ensure (row.taskId.all (· = taskId)) (.bundle (name ++ " belongs to task " ++ row.taskId.getD "" ++ ", not " ++ taskId))
  ensure row.redacted (.bundle (name ++ " is not redacted"))
  ensure (ref.sha256 = row.sha256) (.bundle (name ++ " sha256 mismatch"))
  ensure (ref.sizeBytes = row.sizeBytes) (.bundle (name ++ " size mismatch"))
  ensure (ref.artifactType = row.artifactType) (.bundle (name ++ " type mismatch"))
  ensure (ref.relativePath = row.relativePath)
    (.bundle (name ++ " relative_path mismatch: ref=" ++ ref.relativePath ++ ", db=" ++ row.relativePath))

/-- The record and the content of an artifact, once verified. -/
def fetch (artifactId sessionId : String) : EStateM BundleFault W (ArtifactRow × Bytes) := do
  match ← outcome (B.getAndVerify artifactId sessionId) with
  | .ok found => pure found
  | .error e =>
    if e.isException then throw (.bundle ("artifact " ++ artifactId ++ " verification failed: " ++ e.text)) else throw e

/-- One artifact of the loop. -/
def stageRef (taskId sessionId expiresAt : String) (staging : Path) (s : Staged) (ref : ArtifactRef) :
    EStateM BundleFault W Staged := do
  ensure (isEntityId ref.artifactId) (invalid "artifact_id")
  ensure (ref.artifactId ∉ s.seenIds) (.bundle ("duplicate artifact ref: " ++ ref.artifactId))
  let (row, content) ← B.fetch ref.artifactId sessionId
  checkRecord taskId ref row
  ensure (verifiedRef ref.artifactId row).valid (invalid "ArtifactRef")
  ensure (s.totalBytes + row.sizeBytes ≤ B.maxBundleBytes) (.bundle ("bundle size limit exceeded: " ++ toString s.totalBytes ++
    " + " ++ toString row.sizeBytes ++ " > " ++ toString B.maxBundleBytes))
  let name := filename ref.artifactId row.artifactType
  B.checkPathSafe staging B.bundleRoot "staging_dest"
  B.writeBytes (staging ++ [name]) content
  B.setFileReadonly (staging ++ [name])
  let entry := entryOf ref.artifactId row expiresAt
  ensure entry.valid (invalid "ManifestEntry")
  pure ⟨s.entries ++ [entry], s.totalBytes + row.sizeBytes, ref.artifactId :: s.seenIds⟩

def manifestOf (taskId sessionId : String) (s : Staged) : BundleManifest :=
  ⟨taskId, sessionId, s.entries, s.totalBytes, B.computeManifestHash s.entries taskId sessionId s.totalBytes⟩

/-- The staging directory is filled and renamed. -/
def publish (taskId sessionId expiresAt : String) (refs : List ArtifactRef) (staging : Path) :
    EStateM BundleFault W BundleManifest := do
  let s ← refs.foldlM (B.stageRef taskId sessionId expiresAt staging) {}
  let manifest := B.manifestOf taskId sessionId s
  ensure manifest.valid (invalid "BundleManifest")
  B.writeBytes (staging ++ ["manifest.json"]) (canonicalJson manifest.dump)
  B.setFileReadonly (staging ++ ["manifest.json"])
  B.setDirPrivate staging
  let appeared ← B.pathExists (B.bundleDir taskId)
  ensure (!appeared) (.bundle "bundle directory appeared during staging")
  B.rename staging (B.bundleDir taskId)
  pure manifest

/-- The parent of the bundle is sealed; where it cannot be, the bundle goes. -/
def sealParent (taskId : String) : EStateM BundleFault W Unit := do
  match ← outcome (B.setDirPrivate (B.taskDir taskId)) with
  | .ok _ => pure ()
  | .error e => do
    if e.isBundleError then B.forceRemoveStaging B.walkFuel (B.bundleDir taskId)
    throw e

/-- What comes before the staging directory: the checks, and what is in its way. -/
def prepare (taskId : String) : EStateM BundleFault W Path := do
  let final := B.bundleDir taskId
  B.checkPathSafe B.bundleRoot B.bundleRoot "bundle_root"
  if ← B.pathExists final then
    B.checkPathSafe final B.bundleRoot "final_dir"
    if ← B.anyEntry final then
      throw (.bundle ("bundle directory already exists and is non-empty: " ++ taskId ++ "/context"))
    B.removeDirectory final
  B.checkPathSafe (B.taskDir taskId) B.bundleRoot "bundle_parent"
  B.makeDirectories (B.taskDir taskId)
  B.makeTemporary ".bundle-staging-" (B.taskDir taskId)

/-- The ids, the expiry and the staging directory of a call. -/
def opening (taskId sessionId : String) (now : Option Instant) : EStateM BundleFault W (String × Path) := do
  ensure (isEntityId taskId) (invalid "task_id")
  ensure (isEntityId sessionId) (invalid "session_id")
  let now ← match now with
    | some now => pure now
    | none => B.clock
  match now.addSeconds B.ttlSeconds with
  | none => throw (.exception "OverflowError" "date value out of range")
  | some expires => do
    let staging ← B.prepare taskId
    pure (utcNowText expires, staging)

/-- `materialize`. -/
def materialize (taskId sessionId : String) (refs : List ArtifactRef) (now : Option Instant) :
    EStateM BundleFault W BundleResult := do
  let (expiresAt, staging) ← B.opening taskId sessionId now
  B.checkPathSafe staging B.bundleRoot "staging"
  let built ← outcome (do
    let manifest ← B.publish taskId sessionId expiresAt refs staging
    B.sealParent taskId
    pure manifest)
  match built with
  | .ok manifest => pure ⟨manifest, B.bundleDir taskId⟩
  | .error e => do
    if ← B.pathExists staging then B.forceRemoveStaging B.walkFuel staging
    throw e

end TaskContextBundle

/-! ## Cleanup -/

namespace BundleDirs

variable {W : Type} (B : BundleDirs W)

/-- One name of `dirs` in the first walk: a link is removed as it is, a directory is gone into. -/
def removeLink (taskId : String) (root : Path) : List String × CleanupResult → String →
    EStateM BundleFault W (List String × CleanupResult)
  | (safeDirs, r), name => do
    let path := root ++ [name]
    if ← B.isReparseOrSymlink path then
      match ← outcome (do B.restoreWrite path; B.removeDirectory path) with
      | .ok _ => pure (safeDirs, { r with removedDirs := r.removedDirs + 1 })
      | .error (.os _ _) => pure (safeDirs, { r with
          errors := r.errors ++ ["failed to remove junction: " ++ taskId ++ "/context/" ++ name ++ ": junction"] })
      | .error e => throw e
    else pure (safeDirs ++ [name], r)

/-- One name of `files`. -/
def removeFile (taskId : String) (root : Path) (r : CleanupResult) (name : String) : EStateM BundleFault W CleanupResult := do
  let path := root ++ [name]
  match ← outcome (do B.restoreWrite path; B.unlink path) with
  | .ok _ => pure { r with removedFiles := r.removedFiles + 1 }
  | .error (.os kind _) => pure { r with
      errors := r.errors ++ ["failed to remove file: " ++ taskId ++ "/context/" ++ name ++ ": " ++ kind] }
  | .error e => throw e

/-- The body of the first walk. -/
def removeEntries (taskId : String) (root : Path) (dirs files : List String) (r : CleanupResult) :
    EStateM BundleFault W (List String × CleanupResult) := do
  let (safeDirs, r) ← dirs.foldlM (B.removeLink taskId root) ([], r)
  let r ← files.foldlM (B.removeFile taskId root) r
  pure (safeDirs, r)

/-- A directory is removed, or the error is taken down. -/
def removeCounted (path : Path) (message : String) (r : CleanupResult) : EStateM BundleFault W CleanupResult := do
  match ← outcome (B.removeDirectory path) with
  | .ok _ => pure { r with removedDirs := r.removedDirs + 1 }
  | .error (.os kind _) => pure { r with errors := r.errors ++ [message ++ ": " ++ kind] }
  | .error e => throw e

/-- The body of the second walk. -/
def removeDirs (taskId : String) (root : Path) (dirs _files : List String) (r : CleanupResult) :
    EStateM BundleFault W CleanupResult :=
  dirs.foldlM (fun r name =>
    B.removeCounted (root ++ [name]) ("failed to remove directory: " ++ taskId ++ "/context/" ++ name) r) r

/-- `cleanup`. -/
def cleanup (taskId : String) : EStateM BundleFault W CleanupResult := do
  ensure (isEntityId taskId) (invalid "task_id")
  let dir := B.bundleDir taskId
  if ← B.pathExists dir then
    match ← outcome (B.checkPathSafe dir B.bundleRoot "cleanup_dir") with
    | .error (.bundle message) => pure ⟨0, 0, [message]⟩
    | .error e => throw e
    | .ok _ => do
      let r ← B.walkTopDown (B.removeEntries taskId) (B.walkFuel + 1) dir ⟨0, 0, []⟩
      let r ← B.walkBottomUp (B.removeDirs taskId) (B.walkFuel + 1) dir r
      B.removeCounted dir ("failed to remove bundle dir: " ++ taskId ++ "/context") r
  else pure ⟨0, 0, []⟩

end BundleDirs

end AgentHub
