import AgentHub.Storage.Captures.Document
/-!
# The context of a task

`ContextBuilder.build` makes the pack that an agent is given of a task, its texts and four lists. A pack that is too long for its
budget loses items from the ends of the lists, one by one, until it fits.
-/

namespace AgentHub

open Lib Workspace

/-! ## The contracts -/

structure NodeSummary where
  nodeRunId : String
  status : NodeRunStatus
  summary : String
  artifactRefs : List ArtifactRef := []
  deriving DecidableEq, Repr

def NodeSummary.dump (s : NodeSummary) : Plain :=
  record [("node_run_id", .str s.nodeRunId), ("status", .str s.status.value), ("summary", .str s.summary),
    ("artifact_refs", listOf ArtifactRef.dump s.artifactRefs)]

/-- A task package, as far as its scope goes. -/
structure TaskPackage where
  taskId : String
  nodeId : String
  taskKind : TaskKind
  effectiveAllowedFiles : List String := []
  effectiveNewFiles : List String := []
  activeCapabilityGrantId : Option String := none
  grantedExistingFiles : List String := []
  effectiveAllowedCommands : List (List String) := []
  deriving DecidableEq, Repr

structure ContextPack where
  taskId : String
  nodeId : String
  taskKind : TaskKind
  sessionGoal : String
  currentNodeTitle : String
  currentTask : String
  upstreamSummaries : List NodeSummary := []
  artifactRefs : List ArtifactRef := []
  effectiveAllowedFiles : List String := []
  effectiveNewFiles : List String := []
  activeCapabilityGrantId : Option String := none
  grantedExistingFiles : List String := []
  effectiveAllowedCommands : List (List String) := []
  forbiddenPaths : List String := []
  acceptanceCriteria : List String := []
  maxPromptChars : Int := 12000
  deriving DecidableEq, Repr

/-- `CommandTemplate`. -/
def isCommandTemplate (argv : List String) : Bool :=
  1 ≤ argv.length && argv.length ≤ 64 && argv.all fun token => 1 ≤ token.length && token.length ≤ 4096

/-- `ShortReasonText`. -/
def isShortReason (text : String) : Bool := text.length ≤ 1000

/-- The bounds on the fields of a task package. -/
def TaskPackage.valid (t : TaskPackage) : Bool :=
  isEntityId t.taskId && isEntityId t.nodeId &&
    (t.effectiveAllowedFiles.length ≤ 100 && t.effectiveAllowedFiles.all isRepoRelativePath) &&
    (t.effectiveNewFiles.length ≤ 100 && t.effectiveNewFiles.all isRepoRelativePath) &&
    t.activeCapabilityGrantId.all isEntityId &&
    (t.grantedExistingFiles.length ≤ 1 && t.grantedExistingFiles.all isRepoRelativePath) &&
    (t.effectiveAllowedCommands.length ≤ 20 && t.effectiveAllowedCommands.all isCommandTemplate)

namespace ContextPack

/-- The checks on the fields of a pack. Summaries and references are instances of their models already. -/
def valid (p : ContextPack) : Bool :=
  isEntityId p.taskId && isEntityId p.nodeId && p.sessionGoal.length ≤ 20000 &&
    (1 ≤ p.currentNodeTitle.length && p.currentNodeTitle.length ≤ 500) && p.currentTask.length ≤ 20000 &&
    p.upstreamSummaries.length ≤ 100 && p.artifactRefs.length ≤ 500 &&
    (p.effectiveAllowedFiles.length ≤ 100 && p.effectiveAllowedFiles.all isRepoRelativePath) &&
    (p.effectiveNewFiles.length ≤ 100 && p.effectiveNewFiles.all isRepoRelativePath) &&
    p.activeCapabilityGrantId.all isEntityId &&
    (p.grantedExistingFiles.length ≤ 1 && p.grantedExistingFiles.all isRepoRelativePath) &&
    (p.effectiveAllowedCommands.length ≤ 20 && p.effectiveAllowedCommands.all isCommandTemplate) &&
    (p.forbiddenPaths.length ≤ 2000 && p.forbiddenPaths.all isRepoRelativePath) &&
    (p.acceptanceCriteria.length ≤ 100 && p.acceptanceCriteria.all isShortReason) &&
    (1000 ≤ p.maxPromptChars && p.maxPromptChars ≤ 24000)

def fields (p : ContextPack) : List (String × Plain) :=
  [("task_id", .str p.taskId), ("node_id", .str p.nodeId), ("task_kind", .str p.taskKind.value),
    ("session_goal", .str p.sessionGoal), ("current_node_title", .str p.currentNodeTitle), ("current_task", .str p.currentTask),
    ("upstream_summaries", listOf NodeSummary.dump p.upstreamSummaries), ("artifact_refs", listOf ArtifactRef.dump p.artifactRefs),
    ("effective_allowed_files", listOf .str p.effectiveAllowedFiles), ("effective_new_files", listOf .str p.effectiveNewFiles),
    ("active_capability_grant_id", optional .str p.activeCapabilityGrantId),
    ("granted_existing_files", listOf .str p.grantedExistingFiles),
    ("effective_allowed_commands", dumpCommands p.effectiveAllowedCommands), ("forbidden_paths", listOf .str p.forbiddenPaths),
    ("acceptance_criteria", listOf .str p.acceptanceCriteria), ("max_prompt_chars", .int p.maxPromptChars)]

def dump (p : ContextPack) : Plain := record p.fields

end ContextPack

structure TrimmedItem where
  itemType : String
  itemId : String
  reason : String
  deriving DecidableEq, Repr

structure ContextBuildResult where
  pack : ContextPack
  trimmed : List TrimmedItem
  totalBytes : Nat
  deriving DecidableEq, Repr

/-- What a build raises. -/
inductive ContextError where
  | valueError (message : String)
  | validationError (model : String)
  | budgetExceeded (message : String)
  deriving DecidableEq, Repr

/-! ## The builder -/

namespace ContextBuilder

/-- The texts of a pack. -/
structure Texts where
  sessionGoal : String
  currentNodeTitle : String
  currentTask : String
  deriving DecidableEq, Repr

/-- The four lists of a pack that can be trimmed. -/
structure Lists where
  upstream : List NodeSummary := []
  refs : List ArtifactRef := []
  forbidden : List String := []
  criteria : List String := []
  deriving DecidableEq, Repr

/-- Which list of the four. -/
inductive Trim where
  | artifactRef | upstreamSummary | forbiddenPath | acceptanceCriterion
  deriving DecidableEq, Repr

namespace Trim

/-- `item_type`. -/
def value : Trim → String
  | .artifactRef => "artifact_ref"
  | .upstreamSummary => "upstream_summary"
  | .forbiddenPath => "forbidden_path"
  | .acceptanceCriterion => "acceptance_criterion"

/-- The order in which `trim_lists` has them. -/
def all : List Trim := [.artifactRef, .upstreamSummary, .forbiddenPath, .acceptanceCriterion]

end Trim

namespace Lists

/-- The ids of the items of a list. -/
def ids (l : Lists) : Trim → List String
  | .artifactRef => l.refs.map ArtifactRef.artifactId
  | .upstreamSummary => l.upstream.map NodeSummary.nodeRunId
  | .forbiddenPath => l.forbidden
  | .acceptanceCriterion => l.criteria

/-- `items.pop()` of a list. -/
def pop (l : Lists) : Trim → Lists
  | .artifactRef => { l with refs := l.refs.dropLast }
  | .upstreamSummary => { l with upstream := l.upstream.dropLast }
  | .forbiddenPath => { l with forbidden := l.forbidden.dropLast }
  | .acceptanceCriterion => { l with criteria := l.criteria.dropLast }

end Lists

/-- The fields that `_build_pack` hands over. -/
def packOf (task : TaskPackage) (texts : Texts) (maxPromptChars : Int) (l : Lists) : ContextPack where
  taskId := task.taskId
  nodeId := task.nodeId
  taskKind := task.taskKind
  sessionGoal := texts.sessionGoal
  currentNodeTitle := texts.currentNodeTitle
  currentTask := texts.currentTask
  upstreamSummaries := l.upstream
  artifactRefs := l.refs
  effectiveAllowedFiles := task.effectiveAllowedFiles
  effectiveNewFiles := task.effectiveNewFiles
  activeCapabilityGrantId := task.activeCapabilityGrantId
  grantedExistingFiles := task.grantedExistingFiles
  effectiveAllowedCommands := task.effectiveAllowedCommands
  forbiddenPaths := l.forbidden
  acceptanceCriteria := l.criteria
  maxPromptChars := maxPromptChars

/-- `_build_pack`. -/
def buildPack (task : TaskPackage) (texts : Texts) (maxPromptChars : Int) (l : Lists) : Except ContextError ContextPack :=
  let pack := packOf task texts maxPromptChars l
  if pack.valid then .ok pack else .error (.validationError "ContextPack")

/-- What the loops of a build have assigned. -/
structure Building where
  lists : Lists
  pack : ContextPack
  packBytes : Nat
  trimmed : List TrimmedItem
  deriving DecidableEq, Repr

/-- The `while` loop over one list. The fuel is the length of the list. -/
def trimLoop (task : TaskPackage) (texts : Texts) (maxPromptChars : Int) (trim : Trim) :
    Nat → Building → Except ContextError Building
  | 0, b => .ok b
  | n + 1, b =>
    match (b.lists.ids trim).getLast? with
    | none => .ok b
    | some id =>
      if maxPromptChars < b.packBytes then do
        let lists := b.lists.pop trim
        let pack ← buildPack task texts maxPromptChars lists
        trimLoop task texts maxPromptChars trim n
          { lists := lists
            pack := pack
            packBytes := (canonicalJson pack.dump).length
            trimmed := b.trimmed ++ [⟨trim.value, id,
              "budget exceeded (" ++ toString b.packBytes ++ " > " ++ toString maxPromptChars ++ ")"⟩] }
      else .ok b

/-- `build`; no list is an empty list. -/
def build (task : TaskPackage) (texts : Texts) (lists : Lists) (maxPromptChars : Int) : Except ContextError ContextBuildResult := do
  if maxPromptChars < 1000 ∨ 24000 < maxPromptChars then
    throw (.valueError ("max_prompt_chars must be 1000..24000, got " ++ toString maxPromptChars))
  let pack ← buildPack task texts maxPromptChars lists
  let b ← Trim.all.foldlM (fun b trim => trimLoop task texts maxPromptChars trim (b.lists.ids trim).length b)
    ⟨lists, pack, (canonicalJson pack.dump).length, []⟩
  if maxPromptChars < b.packBytes then
    let minimal ← buildPack task texts maxPromptChars {}
    let minimalBytes := (canonicalJson minimal.dump).length
    if maxPromptChars < minimalBytes then
      throw (.budgetExceeded ("required fields alone produce " ++ toString minimalBytes ++ " bytes, exceeding budget " ++
        toString maxPromptChars))
  pure ⟨b.pack, b.trimmed, b.packBytes⟩

end ContextBuilder

end AgentHub
