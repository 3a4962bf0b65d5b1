import AgentHub.Workspace.Files
/-!
# Git commands

The wrappers of `GitManager` that run one command or a few and parse what they print. Like the walk they are written
over the call they make, here the Git process.
-/

namespace AgentHub.Workspace

open Lib

structure RepositoryState where
  commit : String
  branch : String
  staged : Bool
  unstaged : Bool
  untrackedFiles : List String
  ignoredFiles : List String
  deriving DecidableEq, Repr

def RepositoryState.dirty (s : RepositoryState) : Bool := s.staged || s.unstaged || s.untrackedFiles ≠ []

structure GitEvidence where
  statusBytes : Bytes
  stagedDiffBytes : Bytes
  unstagedDiffBytes : Bytes
  changedPaths : List String
  deriving DecidableEq, Repr

structure GitMetadataSeal where
  sha256 : String
  entryCount : Nat
  deriving DecidableEq, Repr

structure CompletedProcess where
  returncode : Int
  stdout : Bytes
  stderr : Bytes
  deriving DecidableEq, Repr

/-- A Git process in a repository: its arguments, and what it reads from its input. -/
abbrev GitProcess (m : Type → Type) : Type := List String → Option Bytes → m CompletedProcess

/-- `_GIT_OBJECT_ID.fullmatch`. -/
def isObjectId (value : String) : Bool :=
  (value.length = 40 || value.length = 64) && value.toList.all fun c => c.isDigit || ('a' ≤ c && c ≤ 'f')

/-- The records of a NUL-delimited output whose last byte has been dropped. -/
def splitNul : Bytes → Bytes → List Bytes
  | record, [] => [record.reverse]
  | record, b :: rest => if b = 0 then record.reverse :: splitNul [] rest else splitNul (b :: record) rest

/-- `strip`, of the blanks of ASCII. -/
def strip (text : String) : String :=
  let blank : Char → Bool := fun c => c.isWhitespace
  String.ofList ((text.toList.dropWhile blank).reverse.dropWhile blank).reverse

namespace GitManager

section
variable {m : Type → Type} [Monad m] [MonadExceptOf Failure m] (H : Host) (git : GitProcess m)

/-- `_run`. -/
def run (args : List String) (input : Option Bytes) (allowed : List Int) : m CompletedProcess := do
  let completed ← git args input
  if allowed.contains completed.returncode then pure completed
  else
    let stderr := strip (H.decodeReplacing completed.stderr)
    throw (.git ("Git command failed (" ++ toString completed.returncode ++ "): " ++ " ".intercalate (args.take 3) ++ ": " ++
      String.ofList (stderr.toList.take 500)))

/-- `_decode`. -/
def decode (value : Bytes) : m String :=
  match H.decode value with
  | some text => pure text
  | none => throw (.git "Git output is not stable UTF-8")

/-- `_nul_records`. -/
def nulRecords (value : Bytes) : m (List Bytes) :=
  if value = [] then pure []
  else if value.getLast? ≠ some 0 then throw (.git "expected NUL-delimited Git output")
  else pure ((splitNul [] value.dropLast).filter (· ≠ []))

/-- `_nul_paths`. -/
def nulPaths (value : Bytes) : m (List String) := do
  let records ← nulRecords value
  records.foldlM (fun paths record => do
    let path ← decode H record
    pure (paths ++ [path])) []

/-- `_require_object_id`. -/
def requireObjectId (value : String) : m Unit :=
  if isObjectId value then pure () else throw (.git "invalid Git object id")

/-- `_pathspec_bytes`. -/
def pathspecBytes (paths : List String) : m Bytes :=
  paths.foldlM (fun encoded path =>
    if path = "" ∨ path.toList.contains (Char.ofNat 0) then
      throw (.git "pathspec entries must be non-empty NUL-free strings")
    else if ¬ H.encodes path then throw (.git "pathspec is not stable UTF-8")
    else pure (encoded ++ utf8 path ++ [0])) []

/-- `state`. -/
def state : m RepositoryState := do
  let head ← run H git ["rev-parse", "--verify", "--end-of-options", "HEAD^\x7bcommit\x7d"] none [0]
  let commit := strip (← decode H head.stdout)
  if ¬ isObjectId commit then throw (.git "repository HEAD is not a supported Git object id")
  else do
    let branchResult ← run H git ["symbolic-ref", "--quiet", "--short", "HEAD"] none [0, 1]
    let branch := strip (← decode H branchResult.stdout)
    let staged ← run H git ["diff", "--cached", "--quiet", "--no-ext-diff", "--no-textconv", "--"] none [0, 1]
    let unstaged ← run H git ["diff", "--quiet", "--no-ext-diff", "--no-textconv", "--"] none [0, 1]
    let others ← run H git ["ls-files", "--others", "--exclude-standard", "-z", "--"] none [0]
    let untracked ← nulPaths H others.stdout
    let hidden ← run H git ["ls-files", "--others", "--ignored", "--exclude-standard", "-z", "--"] none [0]
    let ignored ← nulPaths H hidden.stdout
    pure ⟨commit, branch, staged.returncode = 1, unstaged.returncode = 1, untracked, ignored⟩

/-- `capture_evidence`. -/
def captureEvidence : m GitEvidence := do
  let status ← run H git ["status", "--porcelain=v2", "-z", "--untracked-files=all", "--ignored=matching", "--"] none [0]
  let stagedDiff ← run H git ["diff", "--cached", "--binary", "--full-index", "--no-ext-diff", "--no-textconv", "--"] none [0]
  let unstagedDiff ← run H git ["diff", "--binary", "--full-index", "--no-ext-diff", "--no-textconv", "--"] none [0]
  let staged ← run H git ["diff", "--cached", "--name-only", "-z", "--"] none [0]
  let stagedPaths ← nulPaths H staged.stdout
  let unstaged ← run H git ["diff", "--name-only", "-z", "--"] none [0]
  let unstagedPaths ← nulPaths H unstaged.stdout
  let others ← run H git ["ls-files", "--others", "--exclude-standard", "-z", "--"] none [0]
  let untrackedPaths ← nulPaths H others.stdout
  pure ⟨status.stdout, stagedDiff.stdout, unstagedDiff.stdout, sortedSet (stagedPaths ++ unstagedPaths ++ untrackedPaths)⟩

/-- `read_blob`. -/
def readBlob (commit path : String) : m Bytes := do
  requireObjectId commit
  let _ ← pathspecBytes H [path]
  let completed ← run H git ["cat-file", "blob", commit ++ ":" ++ path] none [0]
  pure completed.stdout

/-- `index_sha256`. -/
def indexSha256 : m String := do
  let entries ← run H git ["ls-files", "--stage", "-z", "--"] none [0]
  pure (H.sha256 entries.stdout)

/-- `apply_check`. -/
def applyCheck (patchBytes : Bytes) : m Unit := do
  let _ ← run H git ["apply", "--check", "--binary", "--whitespace=nowarn", "-"] (some patchBytes) [0]
  pure ()

/-- `apply_patch`. -/
def applyPatch (patchBytes : Bytes) : m Unit := do
  let _ ← run H git ["apply", "--binary", "--whitespace=nowarn", "-"] (some patchBytes) [0]
  pure ()

/-- `restore_existing_paths`. -/
def restoreExistingPaths (baseCommit : String) (paths : List String) : m Unit := do
  requireObjectId baseCommit
  if paths = [] then pure ()
  else do
    let pathspec ← pathspecBytes H paths
    let _ ← run H git ["restore", "--source=" ++ baseCommit, "--staged", "--worktree", "--pathspec-from-file=-",
      "--pathspec-file-nul"] (some pathspec) [0]
    pure ()

/-- `unstage_new_paths`. -/
def unstageNewPaths (paths : List String) : m Unit := do
  if paths = [] then pure ()
  else do
    let pathspec ← pathspecBytes H paths
    let _ ← run H git ["rm", "--cached", "-f", "--ignore-unmatch", "--pathspec-from-file=-", "--pathspec-file-nul"]
      (some pathspec) [0]
    pure ()

end

end GitManager

end AgentHub.Workspace
