import AgentHub.Lib.Checks
import AgentHub.Security.PathPolicy
import AgentHub.Workflow.CapabilityPolicy
import AgentHub.Security.RiskClassifier
/-!
# The patch guard

The check of a captured manifest and its patch against the paths a task may change. The guard collects its reasons
and passes when there are none.
-/

namespace AgentHub.Security

open Lib Workspace

/-! ## Secrets in a patch -/

def isByteIn (low high : Char) (b : UInt8) : Bool := low.toNat ≤ b.toNat && b.toNat ≤ high.toNat

def isUpperByte : UInt8 → Bool := isByteIn 'A' 'Z'

def isAlnumByte (b : UInt8) : Bool := isUpperByte b || isByteIn 'a' 'z' b || isByteIn '0' '9' b

/-- `\w` of a pattern over bytes. -/
def isWordByte (b : UInt8) : Bool := isAlnumByte b || isByteIn '_' '_' b

/-- Search for a pattern that may look at the byte before its place. -/
def searchBytes (pattern : Option UInt8 → Bytes → Bool) : Option UInt8 → Bytes → Bool
  | before, [] => pattern before []
  | before, b :: rest => pattern before (b :: rest) || searchBytes pattern (some b) rest

/-- `-----BEGIN (?:RSA |EC |OPENSSH )?PRIVATE KEY-----` -/
def isPrivateKey (_ : Option UInt8) (text : Bytes) : Bool :=
  ["", "RSA ", "EC ", "OPENSSH "].any fun kind => (utf8 ("-----BEGIN " ++ kind ++ "PRIVATE KEY-----")).isPrefixOf text

/-- `\bAKIA[0-9A-Z]{16}\b` -/
def isAccessKey (before : Option UInt8) (text : Bytes) : Bool :=
  let key := (text.drop 4).take 16
  !before.any isWordByte && (utf8 "AKIA").isPrefixOf text && decide (key.length = 16) &&
    key.all (fun b => isUpperByte b || isByteIn '0' '9' b) && !(text.drop 20).head?.any isWordByte

/-- `\bgh[pousr]_[A-Za-z0-9]{20,255}\b` -/
def isAccessToken (before : Option UInt8) (text : Bytes) : Bool :=
  let run := (text.drop 4).takeWhile isAlnumByte
  !before.any isWordByte && (["ghp_", "gho_", "ghu_", "ghs_", "ghr_"].any fun start => (utf8 start).isPrefixOf text) &&
    decide (20 ≤ run.length ∧ run.length ≤ 255) && !(text.drop (4 + run.length)).head?.any isWordByte

/-- Whether one of `_SECRET_PATTERNS` is found. -/
def hasSecretMaterial (patch : Bytes) : Bool :=
  [isPrivateKey, isAccessKey, isAccessToken].any fun pattern => searchBytes pattern none patch

/-! ## The report -/

inductive PatchGuardDecision where
  | passed | rejected | quarantined
  deriving DecidableEq, Repr

structure PatchGuardReport where
  decision : PatchGuardDecision
  patchSha256 : String
  checkedPaths : List String
  reasons : List String
  deriving DecidableEq, Repr

/-- `"sensitive" in reason` -/
def isSensitiveReason (reason : String) : Bool := reason.toList.tails.any ("sensitive".toList.isPrefixOf ·)

/-- A check whose refusals become a reason. Other exceptions pass. -/
def refusal {α : Type} (kinds : List ErrorKind) (x : Except Failure α) : Except Failure (Option String) :=
  match x with
  | .ok _ => .ok none
  | .error e => if kinds.contains e.kind then .ok (some e.message) else .error e

structure PatchGuard where
  policy : PathPolicy
  maxPatchBytes : Nat := 20 * 1024 * 1024
  maxChangedPaths : Nat := 500

def forbiddenGitFiles : List Text := texts [".gitattributes", ".gitmodules"]

/-- The paths of a change in the order of the checks. -/
def namedPaths (c : FileChange) : List String := c.oldPath.toList ++ [c.path]

/-- The keys the checks compare with. -/
structure ScopeKeys where
  existing : List String
  new : List String
  granted : List String

namespace PatchGuard

variable (G : PatchGuard)

def key (path : String) : String := G.policy.comparisonKey path

/-- `_validate_action`. -/
def validateAction (K : ScopeKeys) (c : FileChange) : Except Failure Unit := do
  match c.action with
  | .modified | .deleted =>
    let _ ← G.policy.validateCapturedPath c.path true
    if ¬ K.existing.contains (G.key c.path) then throw ⟨.valueError, "existing_scope_violation:" ++ c.path⟩
  | .created =>
    let _ ← G.policy.validateCapturedPath c.path false
    if ¬ K.new.contains (G.key c.path) then throw ⟨.valueError, "new_scope_violation:" ++ c.path⟩
  | .renamed =>
    match c.oldPath with
    | none => throw ⟨.valueError, "rename_missing_source:" ++ c.path⟩
    | some oldPath =>
      if G.key oldPath = G.key c.path then
        throw ⟨.valueError, "case_or_unicode_only_rename:" ++ oldPath ++ ":" ++ c.path⟩
      let _ ← G.policy.validateCapturedPath oldPath true
      let _ ← G.policy.validateCapturedPath c.path false
      if ¬ K.existing.contains (G.key oldPath) then
        throw ⟨.valueError, "rename_source_scope_violation:" ++ oldPath⟩
      if ¬ K.new.contains (G.key c.path) then
        throw ⟨.valueError, "rename_destination_scope_violation:" ++ c.path⟩

/-! ## Reasons -/

/-- The reasons of the loop over the paths of a change, and the keys seen after it. -/
def pathReasons : List String → List String → List String × List String
  | seen, [] => ([], seen)
  | seen, path :: rest =>
    let (reasons, seen') := pathReasons (G.key path :: seen) rest
    ((if seen.contains (G.key path) then ["duplicate_changed_path:" ++ path] else []) ++
      (if forbiddenGitFiles.contains (casefold (PurePath.name path.toList)) then
        ["forbidden_git_control_file:" ++ path] else []) ++ reasons, seen')

/-- The paths of a change that a capability may protect. -/
def protectedPaths (c : FileChange) : List String := if c.action = .renamed then namedPaths c else [c.path]

/-- Whether a change of a protected path lacks its grant. -/
def lacksGrant (K : ScopeKeys) (c : FileChange) (path : String) : Bool :=
  eligibleActions G.policy.host path ≠ [] &&
    ((path = c.path && (c.action = .created || c.action = .renamed)) || !K.granted.contains (G.key path))

/-- The body of the loop over the changes. -/
def changeReasons (K : ScopeKeys) (seen : List String) (c : FileChange) : Except Failure (List String × List String) := do
  let (reasons, seen) := G.pathReasons seen (namedPaths c)
  let refused ← refusal [.pathPolicyViolation, .valueError] (G.validateAction K c)
  let privileged := ((protectedPaths c).filter (G.lacksGrant K c)).map ("privileged_resource_requires_consumed_grant:" ++ ·)
  pure (reasons ++ refused.toList ++ privileged, seen)

/-- The loop over the changes. -/
def allChangeReasons (K : ScopeKeys) : List String → List FileChange → Except Failure (List String)
  | _, [] => pure []
  | seen, c :: rest => do
    let (reasons, seen) ← G.changeReasons K seen c
    let others ← allChangeReasons K seen rest
    pure (reasons ++ others)

/-- The body of the loop over the created directories. -/
def directoryReasons (createdFiles : List String) (directory : String) : Except Failure (List String) := do
  match ← refusal [.pathPolicyViolation] (G.policy.validateCleanupPath directory) with
  | some message => pure ["invalid_created_directory:" ++ directory ++ ":" ++ message]
  | none =>
    if createdFiles.any fun path => (directory ++ "/").toList.isPrefixOf path.toList then pure []
    else pure ["empty_or_unowned_created_directory:" ++ directory]

/-- The loop over the created directories. -/
def allDirectoryReasons (createdFiles : List String) : List String → Except Failure (List String)
  | [] => pure []
  | directory :: rest => do
    let reasons ← G.directoryReasons createdFiles directory
    let others ← allDirectoryReasons createdFiles rest
    pure (reasons ++ others)

/-- The reasons that the manifest and the patch give by themselves. -/
def plainReasons (manifest : ChangeSetManifest) (patch : Bytes) (expectedPatchSha256 : Option String) : List String :=
  (if expectedPatchSha256.any (· ≠ G.policy.host.sha256 patch) then ["patch_hash_mismatch"] else []) ++
  (if G.maxPatchBytes < patch.length then ["patch_size_limit_exceeded"] else []) ++
  (if G.maxChangedPaths < manifest.changes.length then ["changed_path_limit_exceeded"] else []) ++
  (if manifest.changes ≠ [] ∧ patch = [] then ["nonempty_changeset_has_empty_patch"] else []) ++
  (if manifest.ignoredFilesTouched ≠ [] then ["ignored_files_touched"] else [])

/-- `_changed_paths`. -/
def changedPaths (manifest : ChangeSetManifest) : List String :=
  sorted (manifest.changes.flatMap Security.changedPaths ++ manifest.ignoredFilesTouched)

/-- The files a change puts in place. -/
def createdFiles (manifest : ChangeSetManifest) : List String :=
  (manifest.changes.filter fun c => c.action = .created || c.action = .renamed).map (·.path)

/-- The report once the scope is known. -/
def report (manifest : ChangeSetManifest) (patch : Bytes) (reasons : List String) : PatchGuardReport :=
  let decided (decision : PatchGuardDecision) (reasons : List String) : PatchGuardReport :=
    ⟨decision, G.policy.host.sha256 patch, changedPaths manifest, reasons⟩
  if hasSecretMaterial patch then decided .quarantined (reasons ++ ["probable_secret_material_in_patch"])
  else if reasons.any isSensitiveReason then decided .quarantined reasons.eraseDups
  else if reasons ≠ [] then decided .rejected reasons.eraseDups
  else decided .passed []

/-- `check`. -/
def check (manifest : ChangeSetManifest) (patch : Bytes) (allowedExistingFiles allowedNewFiles grantedExistingFiles : List String)
    (expectedPatchSha256 : Option String) : Except Failure PatchGuardReport :=
  match G.policy.validateScope allowedExistingFiles allowedNewFiles with
  | .error e =>
    if e.kind = .pathPolicyViolation then
      .ok ⟨if isSensitiveReason e.message then .quarantined else .rejected, G.policy.host.sha256 patch,
        changedPaths manifest, ["invalid_effective_scope:" ++ e.message]⟩
    else .error e
  | .ok scope => do
    let K : ScopeKeys := ⟨scope.existingFiles.map G.key, scope.newFiles.map G.key, grantedExistingFiles.map G.key⟩
    let directories ← G.allDirectoryReasons (createdFiles manifest) manifest.createdDirectories
    let changes ← G.allChangeReasons K [] manifest.changes
    pure (G.report manifest patch (G.plainReasons manifest patch expectedPatchSha256 ++ directories ++ changes))

end PatchGuard

end AgentHub.Security
