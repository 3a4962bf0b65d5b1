import AgentHub.Workspace.Transaction
/-!
# Committing an approved patch

`commit_approved_patch` stages the applied patch, compares the staged tree with the one Git computes in a private index
and publishes the commit; `remove_worktree_entries` takes away what a failed one left.
-/

namespace AgentHub.Workspace

open Lib

/-- The calls of a merge: those of a transaction, and a Git process with an index file of its own. The first path of
`indexed` is that of the index. -/
structure MergeMachine (W : Type) extends Machine W where
  indexed : Path → Path → GitProcess (EStateM Failure W)

/-- The arguments of `commit_approved_patch`. -/
structure ApprovedPatch where
  parentCommit : String
  paths : List String
  patchBytes : Bytes
  patchSha256 : String
  postStateHash : String
  sessionId : String
  workflowRunId : String
  changeSetId : String
  approvalId : String
  expectedIndexSha256 : Option String
  deriving DecidableEq, Repr

/-- The characters at which `splitlines` ends a line. -/
def isLineBreak (c : Char) : Bool := [10, 11, 12, 13, 28, 29, 30, 133, 8232, 8233].contains c.toNat

/-- `splitlines`, from inside a line; `afterReturn` when the character before was a carriage return. -/
def splitLines (afterReturn : Bool) (line : List Char) : List Char → List String
  | [] => if line = [] then [] else [String.ofList line.reverse]
  | c :: rest =>
    if afterReturn ∧ c.toNat = 10 then splitLines false line rest
    else if isLineBreak c then String.ofList line.reverse :: splitLines (c.toNat = 13) [] rest
    else splitLines false (c :: line) rest

/-- One line of a commit message, added to the trailers read so far. -/
def addTrailer (result : Dict String) (line : String) : Dict String :=
  let key := String.ofList (line.toList.takeWhile (· ≠ ':'))
  match line.toList.dropWhile (· ≠ ':') with
  | [] => result
  | _ :: value =>
    if "Agent-Hub-".toList.isPrefixOf key.toList ∧ ¬ Dict.has result key then result.set key (strip (String.ofList value))
    else result

namespace ApprovedPatch

/-- The trailers of the merge commit. -/
def trailers (patch : ApprovedPatch) (tree : String) : Dict String :=
  [("Agent-Hub-Session", patch.sessionId), ("Agent-Hub-Workflow-Run", patch.workflowRunId),
    ("Agent-Hub-Change-Set", patch.changeSetId), ("Agent-Hub-Approval", patch.approvalId),
    ("Agent-Hub-Patch", patch.patchSha256), ("Agent-Hub-Post-State", patch.postStateHash), ("Agent-Hub-Tree", tree)]

def message (patch : ApprovedPatch) (tree : String) : String :=
  let newline := String.ofList [Char.ofNat 10]
  "Agent Hub approved ChangeSet merge" ++ newline ++ newline ++
    String.join ((patch.trailers tree).map fun p => p.1 ++ ": " ++ p.2 ++ newline)

end ApprovedPatch

namespace GitManager

section
variable {W : Type} (H : Host) (M : MergeMachine W) (repo : Path)

/-- The object id that a command prints. -/
def printedId (completed : CompletedProcess) : EStateM Failure W String := do
  let value := strip (← decode H completed.stdout)
  requireObjectId value
  pure value

/-- `canonical_patch_tree`. -/
def canonicalPatchTree (parentCommit : String) (patchBytes : Bytes) : EStateM Failure W String := do
  requireObjectId parentCommit
  let indexRoot ← M.createPrivateTemporaryDirectory "ah-merge-index-"
  let git := M.indexed (indexRoot ++ ["index"]) repo
  let body : EStateM Failure W String := do
    let _ ← run H git ["read-tree", parentCommit] none [0]
    let _ ← run H git ["apply", "--cached", "--binary", "--whitespace=nowarn", "-"] (some patchBytes) [0]
    let tree ← run H git ["write-tree"] none [0]
    printedId H tree
  tryFinally body (M.removePrivateTemporaryDirectory indexRoot)

/-- `read_commit_metadata`. -/
def readCommitMetadata (git : GitProcess (EStateM Failure W)) (commit : String) : EStateM Failure W (Dict String) := do
  requireObjectId commit
  let completed ← run H git ["show", "-s", "--format=%B", "--no-patch", commit] none [0]
  let message ← decode H completed.stdout
  pure ((splitLines false [] message.toList).foldl addTrailer [])

/-- Stage the paths of the patch, up to the tree that the index then holds. -/
def stageApprovedPatch (patch : ApprovedPatch) (expectedTree : String) : EStateM Failure W String := do
  let git := M.process repo
  let pathspec ← pathspecBytes H (sortedSet patch.paths)
  let _ ← run H git ["add", "--all", "--pathspec-from-file=-", "--pathspec-file-nul"] (some pathspec) [0]
  let names ← run H git ["diff", "--cached", "--name-only", "-z", "--"] none [0]
  let staged ← nulPaths H names.stdout
  if staged = [] then throw (.git "approved merge produced no staged paths")
  else do
    let afterStage ← state H git
    if afterStage.unstaged ∨ afterStage.untrackedFiles ≠ [] then
      throw (.git "approved merge left unexpected working tree changes")
    else do
      let quiet ← run H git ["diff", "--cached", "--quiet", "--no-ext-diff", "--no-textconv", "--"] none [0, 1]
      if quiet.returncode = 0 then throw (.git "approved patch produced no staged changes")
      else do
        let written ← run H git ["write-tree"] none [0]
        let treeBefore ← printedId H written
        if treeBefore ≠ expectedTree then throw (.git "staged tree does not match the canonical approved patch")
        else pure treeBefore

/-- Publish the commit and check what was published. -/
def publishApprovedPatch (patch : ApprovedPatch) (expectedTree treeBefore : String) :
    EStateM Failure W (String × String) := do
  let git := M.process repo
  let _ ← run H git ["commit", "--no-verify", "--no-gpg-sign", "-m", patch.message treeBefore] none [0]
  let current ← state H git
  if current.dirty then throw (.git "Master merge commit left the repository dirty")
  else do
    let above ← run H git ["rev-parse", "HEAD^"] none [0]
    let parent := strip (← decode H above.stdout)
    if parent ≠ patch.parentCommit then throw (.git "Master merge commit parent does not match the run HEAD")
    else do
      let printed ← run H git ["rev-parse", "HEAD^\x7btree\x7d"] none [0]
      let tree ← printedId H printed
      if tree ≠ treeBefore ∨ tree ≠ expectedTree then throw (.git "Master merge tree changed while committing")
      else do
        let metadata ← readCommitMetadata H git current.commit
        if (patch.trailers treeBefore).any fun p => metadata.lookup p.1 ≠ some p.2 then
          throw (.git "Master merge commit trailer verification failed")
        else pure (current.commit, tree)

/-- `commit_approved_patch`. -/
def commitApprovedPatch (patch : ApprovedPatch) : EStateM Failure W (String × String) := do
  requireObjectId patch.parentCommit
  if H.sha256 patch.patchBytes ≠ patch.patchSha256 then
    throw (.git "canonical patch bytes do not match the approved patch hash")
  else if patch.paths = [] then throw (.git "an approved patch must contain at least one path")
  else do
    let _ ← pathspecBytes H (sortedSet patch.paths)
    let before ← state H (M.process repo)
    if before.commit ≠ patch.parentCommit ∨ before.staged then
      throw (.git "approved merge requires the expected parent and clean index")
    else do
      (match patch.expectedIndexSha256 with
        | none => pure ()
        | some expected => do
          let index ← indexSha256 H (M.process repo)
          if index ≠ expected then throw (.git "approved merge index changed before staging") else pure ())
      let expectedTree ← canonicalPatchTree H M repo patch.parentCommit patch.patchBytes
      let treeBefore ← stageApprovedPatch H M repo patch expectedTree
      publishApprovedPatch H M repo patch expectedTree treeBefore

/-- Depth first, the last name first: `sorted` by `(value.count("/"), value)`, reversed. -/
def removalOrder (paths : List String) : List String :=
  (paths.dedup.insertionSort fun a b =>
    decide (a.toList.count '/' < b.toList.count '/') || (a.toList.count '/' = b.toList.count '/' && a ≤ b)).reverse

/-- One round of `remove_worktree_entries`: a file, or else an empty folder. -/
def removeWorktreeEntry (path : String) : EStateM Failure W Unit := do
  let removed ← outcome (M.unlinkRegular repo path)
  match removed with
  | .ok () => pure ()
  | .error e =>
    if ¬ e.isSecureFile then throw e
    else
      reraise Failure.isSecureFile (fun _ => Failure.git ("secure rollback removal failed for " ++ path))
        (M.removeDirectory repo path)

/-- `remove_worktree_entries`. -/
def removeWorktreeEntries (paths : List String) : EStateM Failure W Unit :=
  if "" ∈ paths then throw (.git "rollback path must be a non-empty string")
  else reraise Failure.isSecureFile (fun _ => .git "secure rollback root validation failed") do
    M.openRoot repo
    tryFinally ((removalOrder paths).forM (removeWorktreeEntry M repo)) (M.closeRoot repo)

end

end GitManager

end AgentHub.Workspace
