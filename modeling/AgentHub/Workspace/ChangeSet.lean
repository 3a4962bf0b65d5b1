import AgentHub.Workspace.Git
/-!
# The manifest of a ChangeSet

The manifest models with their validators, and the functions of the transaction that work on inventories alone: the
paths that differ, the projection, and the file changes read from a name-status output.
-/

namespace AgentHub.Workspace

open Lib

inductive FileAction where
  | created | modified | deleted | renamed
  deriving DecidableEq, Repr

structure FileChange where
  action : FileAction
  path : String
  oldPath : Option String
  beforeSha256 : Option String
  afterSha256 : Option String
  beforeSize : Option Nat
  afterSize : Option Nat
  binary : Bool
  deriving DecidableEq, Repr

structure ChangeSetManifest where
  baseCommit : String
  preStateHash : String
  postStateHash : String
  changes : List FileChange
  createdDirectories : List String
  ignoredFilesTouched : List String
  stagedEvidenceSha256 : String
  unstagedEvidenceSha256 : String
  statusEvidenceSha256 : String
  deriving DecidableEq, Repr

structure CapturedWorkspaceChangeSet where
  manifest : ChangeSetManifest
  patchBytes : Bytes
  statusEvidence : Bytes
  stagedEvidence : Bytes
  unstagedEvidence : Bytes
  preimages : List FilePreimage
  deriving DecidableEq, Repr

/-! ## The models -/

/-- `Sha256Hex`. -/
def isSha256Hex (value : String) : Bool :=
  value.length = 64 && value.toList.all fun c => c.isDigit || ('a' ≤ c && c ≤ 'f')

/-- The 64 hexadecimal digits of a digest. -/
def hexText (n : Nat) : String := String.ofList ((List.range 64).map fun i => Nat.digitChar (n / 16 ^ (63 - i) % 16))

theorem isSha256Hex_hexText (n : Nat) : isSha256Hex (hexText n) = true := by
  have hdigit : ∀ k < 16, ((Nat.digitChar k).isDigit || ('a' ≤ Nat.digitChar k && Nat.digitChar k ≤ 'f')) = true := by
    decide
  simp only [isSha256Hex, hexText, String.length_ofList, List.length_map, List.length_range, String.toList_ofList,
    Bool.and_eq_true, decide_true, List.all_eq_true, List.mem_map, true_and]
  rintro _ ⟨i, -, rfl⟩
  exact hdigit _ (Nat.mod_lt _ (by decide))

/-- `RepoRelativePath`. -/
def isRepoRelativePath (value : String) : Bool := 1 ≤ value.length && value.length ≤ 1024

def invalid (message : String) : Except Failure Unit := .error ⟨.validation, message⟩

/-- `validate_action_shape`. -/
def validateActionShape (c : FileChange) : Except Failure Unit :=
  match c.action with
  | .created =>
    if c.oldPath ≠ none ∨ c.beforeSha256 ≠ none then invalid "created files cannot carry old_path or before_sha256"
    else if c.afterSha256 = none ∨ c.afterSize = none then invalid "created files require after hash and size"
    else .ok ()
  | .deleted =>
    if c.oldPath ≠ none ∨ c.afterSha256 ≠ none then invalid "deleted files cannot carry old_path or after_sha256"
    else if c.beforeSha256 = none ∨ c.beforeSize = none then invalid "deleted files require before hash and size"
    else .ok ()
  | .modified =>
    if c.oldPath ≠ none then invalid "modified files cannot carry old_path"
    else if c.beforeSha256 = none ∨ c.afterSha256 = none ∨ c.beforeSize = none ∨ c.afterSize = none then
      invalid "modified files require before and after metadata"
    else .ok ()
  | .renamed =>
    if c.oldPath = none ∨ c.oldPath = some c.path then invalid "renamed files require a distinct old_path"
    else if c.beforeSha256 = none ∨ c.afterSha256 = none ∨ c.beforeSize = none ∨ c.afterSize = none then
      invalid "renamed files require before and after metadata"
    else .ok ()

/-- The constructor of `FileChange`: the fields, then the shape. -/
def FileChange.build (c : FileChange) : Except Failure FileChange := do
  if ¬ isRepoRelativePath c.path then invalid "path"
  if ¬ c.oldPath.all isRepoRelativePath then invalid "old_path"
  if ¬ c.beforeSha256.all isSha256Hex then invalid "before_sha256"
  if ¬ c.afterSha256.all isSha256Hex then invalid "after_sha256"
  validateActionShape c
  pure c

/-- The paths a change names. -/
def FileChange.paths (c : FileChange) : List String := c.path :: c.oldPath.toList

/-- The constructor of `ChangeSetManifest`: the fields, then `reject_duplicate_paths`. -/
def ChangeSetManifest.build (c : ChangeSetManifest) : Except Failure ChangeSetManifest := do
  if ¬ isObjectId c.baseCommit then invalid "base_commit"
  if ¬ isSha256Hex c.preStateHash then invalid "pre_state_hash"
  if ¬ isSha256Hex c.postStateHash then invalid "post_state_hash"
  if c.changes.length > 500 then invalid "changes"
  if c.createdDirectories.length > 500 ∨ ¬ c.createdDirectories.all isRepoRelativePath then invalid "created_directories"
  if c.ignoredFilesTouched.length > 500 ∨ ¬ c.ignoredFilesTouched.all isRepoRelativePath then
    invalid "ignored_files_touched"
  if ¬ isSha256Hex c.stagedEvidenceSha256 then invalid "staged_evidence_sha256"
  if ¬ isSha256Hex c.unstagedEvidenceSha256 then invalid "unstaged_evidence_sha256"
  if ¬ isSha256Hex c.statusEvidenceSha256 then invalid "status_evidence_sha256"
  if ¬ (c.changes.flatMap FileChange.paths).Nodup then invalid "ChangeSet paths must be unique"
  pure c

/-- What follows a check that may be invalid is reached when it is not. -/
theorem invalid_ok {α : Type} {P : Prop} [Decidable P] {next : Unit → Except Failure α} {message : String} {a : α}
    (h : (if P then invalid message >>= next else next ()) = .ok a) : ¬ P ∧ next () = .ok a := by
  split at h
  · cases h
  · next hP => exact ⟨hP, h⟩

theorem ChangeSetManifest.build_fields {m m' : ChangeSetManifest} (h : m.build = .ok m') :
    isObjectId m.baseCommit = true ∧ isSha256Hex m.preStateHash = true ∧ isSha256Hex m.postStateHash = true ∧
      m.changes.length ≤ 500 ∧ (m.createdDirectories.length ≤ 500 ∧ m.createdDirectories.all isRepoRelativePath = true) ∧
      m.ignoredFilesTouched.length ≤ 500 ∧ m.ignoredFilesTouched.all isRepoRelativePath = true := by
  unfold ChangeSetManifest.build at h
  obtain ⟨hbase, h⟩ := invalid_ok h
  obtain ⟨hpre, h⟩ := invalid_ok h
  obtain ⟨hpost, h⟩ := invalid_ok h
  obtain ⟨hchanges, h⟩ := invalid_ok h
  obtain ⟨hdirectories, h⟩ := invalid_ok h
  obtain ⟨hignored, -⟩ := invalid_ok h
  simp only [not_or, not_not, Nat.not_lt] at hbase hpre hpost hchanges hdirectories hignored
  exact ⟨hbase, hpre, hpost, hchanges, hdirectories, hignored⟩

theorem FileChange.build_path {c c' : FileChange} (h : c.build = .ok c') : isRepoRelativePath c.path = true := by
  unfold FileChange.build at h
  exact not_not.1 (invalid_ok h).1

/-! ## Inventories -/

/-- `_inventory_changed_paths`. -/
def inventoryChangedPaths (before after : Inventory) : List String :=
  ((before.files.keys ++ after.files.keys).dedup).filter fun path => before.files.lookup path ≠ after.files.lookup path

/-- The folders above a path, the nearest first. -/
def parents (path : String) : List String :=
  let parts := path.splitOn "/"
  ((List.range parts.length).reverse.filter (0 < ·)).map fun n => "/".intercalate (parts.take n)

/-- `_project_inventory`. -/
def projectInventory (H : Host) (inventory : Inventory) (excludedPaths : List String) : Inventory :=
  let files := inventory.files.filter fun p => ¬ excludedPaths.contains p.1
  { files
    directories := sortedSet ((Dict.keys files).flatMap parents)
    stateHash := inventoryHash H files
    totalBytes := (files.map fun p => p.2.sizeBytes).sum
    sealedFiles := inventory.sealedFiles.filter fun p => Dict.has files p.1 }

/-- `_require_snapshot`. -/
def requireSnapshot (inventory : Inventory) (path label : String) : Except Failure FileSnapshot :=
  match inventory.files.lookup path with
  | some snapshot => .ok snapshot
  | none => .error (.transaction (label ++ " is absent from inventory: " ++ path))

/-! ## Name-status records -/

/-- `_nul_records` of the transaction. -/
def statusRecords (value : Bytes) : Except Failure (List Bytes) :=
  if value = [] then .ok []
  else if value.getLast? ≠ some 0 then .error (.transaction "expected NUL-delimited Git output")
  else .ok ((splitNul [] value.dropLast).filter (· ≠ []))

/-- `_decode_path`. -/
def decodePath (H : Host) (value : Bytes) : Except Failure String :=
  match H.decode value with
  | some path => .ok path
  | none => .error (.transaction "Git path is not stable UTF-8")

section
variable (H : Host) (before after : Inventory)

/-- The change of a rename record. -/
def renamedChange (oldPath path : String) : Except Failure FileChange := do
  let old ← requireSnapshot before oldPath "rename source"
  let new ← requireSnapshot after path "rename destination"
  FileChange.build ⟨.renamed, path, some oldPath, some old.sha256, some new.sha256, some old.sizeBytes,
    some new.sizeBytes, old.binary || new.binary⟩

/-- The change of a record that names one path. An added path that the baseline holds is a modified one. -/
def pathChange (statusCode : Bytes) (path : String) : Except Failure FileChange := do
  let code := statusCode.take 1
  let code := if code = [65] ∧ (before.files.lookup path).isSome then [77] else code
  if code = [65] then
    let new ← requireSnapshot after path "created file"
    FileChange.build ⟨.created, path, none, none, some new.sha256, none, some new.sizeBytes, new.binary⟩
  else if code = [77] ∨ code = [84] then
    let old ← requireSnapshot before path "modified preimage"
    let new ← requireSnapshot after path "modified file"
    FileChange.build ⟨.modified, path, none, some old.sha256, some new.sha256, some old.sizeBytes, some new.sizeBytes,
      old.binary || new.binary⟩
  else if code = [68] then
    let old ← requireSnapshot before path "deleted preimage"
    FileChange.build ⟨.deleted, path, none, some old.sha256, none, some old.sizeBytes, none, old.binary⟩
  else .error (.transaction ("unsupported Git name-status action: b'" ++ H.decodeReplacing statusCode ++ "'"))

/-- The loop over the records. -/
def recordChanges : List Bytes → Except Failure (List FileChange)
  | [] => .ok []
  | statusCode :: oldPath :: path :: rest =>
    if statusCode.take 1 = [82] then do
      let change ← renamedChange before after (← decodePath H oldPath) (← decodePath H path)
      pure (change :: (← recordChanges rest))
    else do
      let change ← pathChange H before after statusCode (← decodePath H oldPath)
      pure (change :: (← recordChanges (path :: rest)))
  | [statusCode, path] =>
    if statusCode.take 1 = [82] then .error (.transaction "truncated rename status")
    else do
      let change ← pathChange H before after statusCode (← decodePath H path)
      pure [change]
  | [statusCode] =>
    if statusCode.take 1 = [82] then .error (.transaction "truncated rename status")
    else .error (.transaction "truncated name-status record")

/-- `_build_file_changes`. -/
def buildFileChanges (nameStatus : Bytes) : Except Failure (List FileChange) := do
  let records ← statusRecords nameStatus
  recordChanges H before after records

end

/-- `_assert_sealed_content`. -/
def assertSealedContent (H : Host) (path : String) (snapshot : FileSnapshot) (sealed : SealedFile) : Except Failure Unit :=
  if snapshot.path ≠ path ∨ snapshot.sizeBytes ≠ sealed.sizeBytes ∨ snapshot.sha256 ≠ sealed.sha256 ∨
      snapshot.mode ≠ sealed.mode ∨ sealed.sizeBytes ≠ sealed.content.length ∨
      sealed.sha256 ≠ H.sha256 sealed.content then
    .error (.transaction ("sealed workspace content does not match inventory: " ++ path))
  else .ok ()

end AgentHub.Workspace
