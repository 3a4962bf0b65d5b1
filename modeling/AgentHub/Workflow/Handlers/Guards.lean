import AgentHub.Security.CommandGuard
import AgentHub.Security.RiskClassifier
import AgentHub.Workflow.Handlers.MergePatch
/-!
# The handlers behind the patch guard

`CommandGuardNodeHandler`, `TestNodeHandler` and `RiskClassifierNodeHandler`: each reads the ChangeSet of its source task,
stores a report about it and moves it along, or leaves it where it is. Which test comes behind a guard and which one is the
last they read off the compiled graph.
-/

namespace AgentHub

open Lib Workspace Security

/-! ## The models -/

/-- What `_validate` of a model raises. -/
def invalidModel (name : String) : Fault := .host ⟨.validation, name⟩

structure CommandGuardArtifact where
  changeSetId : String
  approved : Bool
  templateId : Option String
  argv : List String
  reason : Option String
  deriving DecidableEq, Repr

namespace CommandGuardArtifact

def valid (a : CommandGuardArtifact) : Bool :=
  1 ≤ a.changeSetId.length && a.changeSetId.length ≤ 128 && a.templateId.all (·.length ≤ 64) && a.argv.length ≤ 64 &&
    a.reason.all (·.length ≤ 1000)

def dump (a : CommandGuardArtifact) : Plain :=
  record [("change_set_id", .str a.changeSetId), ("approved", .bool a.approved),
    ("template_id", optional .str a.templateId), ("argv", listOf .str a.argv), ("reason", optional .str a.reason)]

end CommandGuardArtifact

structure TestRunResult where
  templateId : String
  argv : List String
  exitCode : Option Int
  timedOut : Bool
  output : String
  outputTruncated : Bool
  outputLimitExceeded : Bool
  durationMs : Nat
  deriving DecidableEq, Repr

namespace TestRunResult

def passed (r : TestRunResult) : Bool := !r.timedOut && !r.outputLimitExceeded && r.exitCode = some 0

def dump (r : TestRunResult) : Plain :=
  record [("template_id", .str r.templateId), ("argv", listOf .str r.argv), ("exit_code", optional .int r.exitCode),
    ("timed_out", .bool r.timedOut), ("output", .str r.output), ("output_truncated", .bool r.outputTruncated),
    ("output_limit_exceeded", .bool r.outputLimitExceeded), ("duration_ms", natural r.durationMs)]

end TestRunResult

structure TestArtifact where
  changeSetId : String
  testKind : TestKind
  passed : Bool
  runner : Option TestRunResult
  reasons : List String
  deriving DecidableEq, Repr

namespace TestArtifact

def valid (a : TestArtifact) : Bool :=
  1 ≤ a.changeSetId.length && a.changeSetId.length ≤ 128 && a.reasons.length ≤ 100

def dump (a : TestArtifact) : Plain :=
  record [("change_set_id", .str a.changeSetId), ("test_kind", .str a.testKind.value), ("passed", .bool a.passed),
    ("runner", optional (·.dump) a.runner), ("reasons", listOf .str a.reasons)]

end TestArtifact

structure RiskArtifact where
  changeSetId : String
  runtimeRisk : RiskLevel
  effectiveRisk : RiskLevel
  blocked : Bool
  requiresApproval : Bool
  reasons : List String
  deriving DecidableEq, Repr

namespace RiskArtifact

def valid (a : RiskArtifact) : Bool :=
  1 ≤ a.changeSetId.length && a.changeSetId.length ≤ 128 && a.reasons.length ≤ 100

def dump (a : RiskArtifact) : Plain :=
  record [("change_set_id", .str a.changeSetId), ("runtime_risk", .str a.runtimeRisk.value),
    ("effective_risk", .str a.effectiveRisk.value), ("blocked", .bool a.blocked),
    ("requires_approval", .bool a.requiresApproval), ("reasons", listOf .str a.reasons)]

end RiskArtifact

/-! ## The graph around a node -/

section
variable (graph : CompiledGraph) (node : WorkflowNode)

/-- The ids that the edges of a node lead to. -/
def successorIds : List String := (outgoing graph.edges node.id).map WorkflowEdge.toNode

/-- `_successor_test`. -/
def successorTest : Except Fault WorkflowNode :=
  match graph.nodes.filter fun n => (successorIds graph node).contains n.id && n.nodeType = .test &&
      n.sourceNodeId = node.sourceNodeId with
  | [test] => .ok test
  | _ => .error (.valueError "CommandGuard must have exactly one compiled Test successor")

/-- `_is_last_test`. -/
def isLastTest : Except Fault Bool :=
  if node ∉ graph.nodes.filter fun n => n.nodeType = .test && n.sourceNodeId = node.sourceNodeId then
    .error (.valueError "current node is not a source-bound Test")
  else .ok (!graph.nodes.any fun n => (n.nodeType = .commandGuard || n.nodeType = .test) &&
    (successorIds graph node).contains n.id && n.sourceNodeId = node.sourceNodeId)

/-- The source task of a system node, as `_source` finds it. -/
def sourceTask : Except Fault (String × WorkflowNode) :=
  match node.sourceNodeId with
  | none => .error (.valueError "system ChangeSet node has no source_node_id")
  | some sourceId =>
    match graph.nodes.find? fun n => n.id = sourceId with
    | none => .error (.valueError "system ChangeSet node source is not an AgentTask")
    | some source =>
      if source.nodeType ≠ .agentTask then .error (.valueError "system ChangeSet node source is not an AgentTask")
      else .ok (sourceId, source)

end

/-- `_docs_static_reasons`. -/
def docsStaticReasons (record : ChangeSetRecord) : List String :=
  let changes := record.document.manifest.changes
  let isDoc (value : String) : Bool := docExtensions.contains (casefold (splitName (pathName value)).2)
  (changes.flatMap (fun change =>
    ((change.oldPath.toList ++ [change.path]).filter (!isDoc ·)).map ("non_documentation_path:" ++ ·) ++
      if change.binary then ["binary_documentation_change:" ++ change.path] else []) ++
    if changes = [] then ["documentation_changeset_empty"] else []).eraseDups

/-- `_workspace_changed`. -/
def workspaceChanged (capture : CapturedWorkspaceChangeSet) : Bool :=
  let manifest := capture.manifest
  capture.patchBytes ≠ [] || manifest.changes ≠ [] || manifest.createdDirectories ≠ [] ||
    manifest.ignoredFilesTouched ≠ [] || manifest.preStateHash ≠ manifest.postStateHash

/-! ## The repositories -/

namespace CaptureStore

/-- The select of `get_for_source_node`: the ChangeSets of a node, the latest attempt first. -/
def forSourceNode (db : Db) (workflowRunId sourceNodeId : String) : List (Nat × String) :=
  (db.changeSets.rows.filterMap fun changeSet => do
    let task ← db.tasks.get? changeSet.taskId
    let node ← db.nodeRuns.get? task.nodeRunId
    if node.workflowRunId = workflowRunId ∧ node.nodeId = sourceNodeId then some (node.attempt, changeSet.id) else none
    ).insertionSort fun a b => b.1 ≤ a.1

/-- The id that `get_for_source_node` goes on with. -/
def sourceChangeSet (db : Db) (workflowRunId sourceNodeId : String) : Option String :=
  (forSourceNode db workflowRunId sourceNodeId).head?.map Prod.snd

end CaptureStore

/-- The repositories of a handler over ChangeSets. -/
structure ChangeSetHandler (W : Type) extends Coroutines W where
  host : Host
  /-- the store and the limits of the artifacts -/
  repository : ArtifactRepo
  /-- a read of the database and of the artifact files -/
  reading : {α : Type} → (CaptureStore → Except ArtifactError α) → EStateM Fault W α
  /-- `artifacts.create` -/
  createArtifact : NewArtifact → EStateM Fault W ArtifactRow

/-- A result, as a handler builds it. -/
def NodeHandlerResult.succeeded (summary : String) (ref : ArtifactRef) : NodeHandlerResult :=
  ⟨.completed, .success, summary, [ref], none⟩

/-- `_failed`. -/
def NodeHandlerResult.failed (code summary : String) (ref : ArtifactRef) : NodeHandlerResult :=
  ⟨.failed, .failure, summary, [ref], some code⟩

/-- `_blocked`. -/
def NodeHandlerResult.blocked (code summary : String) (ref : ArtifactRef) : NodeHandlerResult :=
  ⟨.blockedByGuard, .blocked, summary, [ref], some code⟩

/-- A result that is raised when it is an error. -/
def raising {W α : Type} (x : Except Fault α) : EStateM Fault W α :=
  match x with
  | .ok a => pure a
  | .error e => throw e

namespace ChangeSetHandler

variable {W : Type} (S : ChangeSetHandler W) (context : NodeExecutionContext)

/-- `change_sets.get`. -/
def get (changeSetId : String) : EStateM Fault W ChangeSetRecord :=
  S.reading fun s => CaptureStore.get S.repository s changeSetId none none none

/-- `change_sets.get_for_source_node`. -/
def getForSourceNode (workflowRunId sourceNodeId : String) : EStateM Fault W ChangeSetRecord := do
  let id ← S.reading fun s => .ok (CaptureStore.sourceChangeSet s.db workflowRunId sourceNodeId)
  match id with
  | none => throw (.storage (.recordNotFound ("ChangeSet for source node not found: " ++ sourceNodeId)))
  | some id => S.get id

/-- `change_sets.transition`, without a workspace lease. -/
def transition (changeSetId : String) (expected target : ChangeSetStatus) (reason severity : Option String) :
    EStateM Fault W ChangeSetRecord := do
  S.transaction fun now =>
    ChangeSetRepository.transition changeSetId expected target context.masterLease none reason severity now
  S.get changeSetId

/-- `_source`. -/
def source : EStateM Fault W (WorkflowNode × ChangeSetRecord) := do
  let (sourceId, source) ← raising (sourceTask context.run.compiledSnapshot context.node)
  let record ← S.getForSourceNode context.run.id sourceId
  pure (source, record)

/-- `_artifact_ref`. -/
def artifactRef (stored : ArtifactRow) : EStateM Fault W ArtifactRef :=
  if stored.ref.valid then pure stored.ref else throw (invalidModel "ArtifactRef")

/-- The artifact of a report. -/
def reportArtifact (record : ChangeSetRecord) (label : String) (artifactType : ArtifactType) (model : Plain) : NewArtifact :=
  let content := canonicalJson model
  let digest := S.host.sha256 (utf8 label ++ [0] ++ utf8 context.nodeRun.id ++ [0] ++ content)
  ⟨label ++ "-" ++ String.ofList (digest.toList.take 24), context.run.sessionId, artifactType, content,
    some record.changeSet.taskId, none, true⟩

/-- `_report`: a report that is there already counts when it is the same one. -/
def report (record : ChangeSetRecord) (label : String) (artifactType : ArtifactType) (model : Plain) :
    EStateM Fault W ArtifactRef := do
  let new := S.reportArtifact context record label artifactType model
  let created ← outcome (S.createArtifact new)
  match created with
  | .ok stored => artifactRef stored
  | .error e =>
    if ¬ e.isException then throw e
    else do
      let found ← outcome (S.reading fun s =>
        CaptureStore.getAndVerify S.repository s new.artifactId context.run.sessionId record.changeSet.taskId none)
      match found with
      | .error e' => throw (if e'.isException then e else e')
      | .ok (stored, existing) =>
        if stored.taskId ≠ some record.changeSet.taskId ∨ stored.artifactType ≠ artifactType ∨ ¬ stored.redacted ∨
            existing ≠ new.content then throw e
        else artifactRef stored

end ChangeSetHandler

/-! ## The command guard -/

namespace CommandGuardNodeHandler

/-- The `try` of `execute`: what was approved, and the text of the violation that was caught. -/
def judge (D : Digits) (source test : WorkflowNode) : Except CommandError (Option ApprovedCommand × Option String) :=
  match test.testArgv with
  | none => .ok (none, some "compiled test argv is missing")
  | some argv =>
    match CommandGuard.validate D argv with
    | .error (.violation message) => .ok (none, some message)
    | .error .valueError => .error .valueError
    | .ok approved =>
      if (source.effectiveAllowedCommands.getD []).contains approved.argv then .ok (some approved, none)
      -- `approved` is assigned by then
      else .ok (some approved, some "compiled test argv is outside the source task command scope")

/-- The report of a judgement. -/
def artifactOf (record : ChangeSetRecord) (test : WorkflowNode) (approved : Option ApprovedCommand) (reason : Option String) :
    CommandGuardArtifact where
  changeSetId := record.changeSet.changeSetId
  approved := approved.isSome
  templateId := approved.map ApprovedCommand.templateId
  argv := (approved.map ApprovedCommand.argv).getD (test.testArgv.getD [])
  reason := reason

variable {W : Type} (S : ChangeSetHandler W) (D : Digits) (context : NodeExecutionContext)

/-- `execute`. -/
def execute : EStateM Fault W NodeHandlerResult := do
  let (source, record) ← S.source context
  let test ← raising (successorTest context.run.compiledSnapshot context.node)
  match judge D source test with
  | .error _ => throw (.valueError "invalid literal for int()")
  | .ok (approved, reason) =>
    let artifact := artifactOf record test approved reason
    if ¬ artifact.valid then throw (invalidModel "CommandGuardArtifact")
    else do
      let ref ← S.report context record "command-guard" .report artifact.dump
      match approved with
      | some _ =>
        if record.changeSet.status ≠ .guardPassed then
          throw (.conflict "CommandGuard requires a guard_passed ChangeSet")
        else pure (.succeeded "CommandGuard accepted the compiled test argv." ref)
      | none => do
        let text := reason.getD ""
        let _ ← S.transition context record.changeSet.changeSetId .guardPassed .testFailed
          (some (if text = "" then "CommandGuard rejected the compiled test argv" else text)) (some "high")
        pure (.blocked "command_guard_rejected" "CommandGuard rejected the compiled test argv." ref)

end CommandGuardNodeHandler

/-! ## The tests -/

/-- The methods of a `WorkspaceTransaction` on a validation repository. -/
structure ValidationTransaction (W : Type) where
  begin : EStateM Failure W Unit
  captureAndRestore : EStateM Failure W CapturedWorkspaceChangeSet
  close : EStateM Failure W Unit

/-- What a command test calls outside the database. -/
structure TestMachine (W : Type) extends Machine W where
  /-- `mkdir(parents=True, exist_ok=True)` -/
  makeDirectory : Path → EStateM Failure W Unit
  /-- `Path(text).expanduser().resolve(strict=True)` -/
  resolve : String → EStateM Failure W Path
  /-- the commit and the branch of the baseline -/
  commitValidationBaseline : Path → EStateM Failure W (String × String)
  /-- the constructor of `WorkspaceTransaction`: the repository, its commit and branch, and the temporary directory -/
  workspaceTransaction : Path → String → String → Path → EStateM Failure W (ValidationTransaction W)
  /-- `runner.run`: the arguments, the repository and the directory of the process -/
  runTest : List String → Path → Path → EStateM Fault W TestRunResult
  /-- `type(error).__name__` -/
  typeName : Fault → String

structure TestNodeHandler (W : Type) extends ChangeSetHandler W where
  machine : TestMachine W
  runtimeRoot : Path
  processId : Int
  ttl : Int
  heartbeat : Option Rat
  maxChangedPaths : Nat

/-- How the part of a test that has a validation repository ended: the method returned there, or went on with what the
runner did. -/
inductive Trial where
  | verdict (result : Option TestRunResult) (reasons : List String)
  | ran (result : Except Fault TestRunResult)

/-- `isinstance(error, WorkspaceTransactionError)`. -/
def Workspace.Fault.isTransactionError : Fault → Bool
  | .host e => e.kind = .workspaceTransaction || e.kind = .workspaceNotClean || e.kind = .workspaceRestore
  | _ => false

namespace TestNodeHandler

variable {W : Type} (S : TestNodeHandler W) (context : NodeExecutionContext)

/-- The validation repository with the ChangeSet applied, and its baseline. -/
def prepare (record : ChangeSetRecord) (patch : Bytes) (preimages : List FilePreimage) (sharedRepo validationRepo : Path)
    (validationId : String) : EStateM Fault W (String × String) := do
  let M := S.machine
  LockManager.assertHealthy S.toCoroutines
  let source ← onHost (M.inspectSourceRepository sharedRepo record.changeSet.baseCommit)
  onHost (M.createSessionRepository source validationRepo validationId)
  onHost (materializeWorkspacePreimages S.host M.toMachine validationRepo preimages S.maxChangedPaths true)
  onHost (GitManager.applyCheck S.host (M.process validationRepo) patch)
  onHost (GitManager.applyPatch S.host (M.process validationRepo) patch)
  onHost (M.commitValidationBaseline validationRepo)

/-- The test itself, inside its workspace transaction. -/
def operate (argv : List String) (validationRepo processRoot : Path) (tx : ValidationTransaction W) :
    EStateM Fault W Trial := do
  onHost tx.begin
  let result ← outcome (S.machine.runTest argv validationRepo processRoot)
  let verification ← outcome (onHost tx.captureAndRestore)
  match verification with
  | .error e =>
    if e.isTransactionError then pure (.verdict result.toOption ["test_workspace_integrity_failed"]) else throw e
  | .ok verification => do
    LockManager.assertHealthy S.toCoroutines
    if workspaceChanged verification then pure (.verdict result.toOption ["test_mutated_workspace"])
    else pure (.ran result)

/-- The `try` with its `finally`: the transaction is closed where there is one, then the validation root removed. -/
def trial (record : ChangeSetRecord) (argv : List String) (patch : Bytes) (preimages : List FilePreimage)
    (sharedRepo validationRoot operationRoot : Path) (validationId : String) : EStateM Fault W Trial := do
  let M := S.machine
  let remove : EStateM Fault W Unit := onHost (M.removePrivateTemporaryDirectory validationRoot)
  let validationRepo := validationRoot ++ ["workspace", "repo"]
  let opened ← outcome do
    let baseline ← S.prepare record patch preimages sharedRepo validationRepo validationId
    onHost (M.workspaceTransaction validationRepo baseline.1 baseline.2
      (operationRoot ++ ["transaction-" ++ validationId]))
  match opened with
  | .error e => tryFinally (throw e) remove
  | .ok tx =>
    tryFinally (S.operate argv validationRepo (operationRoot ++ ["process-" ++ validationId]) tx) do
      onHost tx.close
      remove

/-- The body under the lease. -/
def underLease (record : ChangeSetRecord) (argv : List String) (patch : Bytes) (preimages : List FilePreimage) :
    EStateM Fault W Trial := do
  let M := S.machine
  let operationRoot := S.runtimeRoot ++ [context.nodeRun.id]
  onHost (M.makeDirectory operationRoot)
  let validationRoot ← onHost (M.createPrivateTemporaryDirectory "ah-test-")
  let validationId := String.ofList ((validationRoot.getLastD "").toList.drop "ah-test-".length)
  let sharedRepo ← onHost (M.resolve context.session.sharedRepoPath)
  if sharedRepo.isPrefixOf validationRoot then do
    onHost (M.removePrivateTemporaryDirectory validationRoot)
    throw (.valueError "test validation root must be outside the shared repository")
  else do
    let ended ← S.trial record argv patch preimages sharedRepo validationRoot operationRoot validationId
    match ended with
    | .verdict result reasons => pure (.verdict result reasons)
    | .ran (.ok result) => pure (.ran (.ok result))
    | .ran (.error e) =>
      if e.isException then pure (.verdict none ["test_runner_error:" ++ S.machine.typeName e]) else throw e

/-- What is wrong with a result. -/
def resultReasons (result : TestRunResult) : List String :=
  if result.outputLimitExceeded then ["test_output_limit_exceeded"]
  else if result.timedOut then ["test_timeout"]
  else if result.exitCode ≠ some 0 then
    ["test_exit_code:" ++ (match result.exitCode with | none => "None" | some code => toString code)]
  else []

/-- `_run_command_test`. -/
def runCommandTest (record : ChangeSetRecord) (argv : List String) :
    EStateM Fault W (Option TestRunResult × List String) := do
  let id := record.changeSet.changeSetId
  let (_, patch) ← S.reading fun s => CaptureStore.loadPatch S.repository s id
  let preimages ← S.reading fun s => CaptureStore.loadPreimages S.repository s id
  let ended ← LockManager.hold S.toCoroutines
    ⟨context.run.sessionId, "test", context.nodeRun.id, S.processId, S.ttl, S.heartbeat⟩
    (S.underLease context record argv patch preimages)
  match ended with
  | .verdict result reasons => pure (result, reasons)
  | .ran (.ok result) => pure (some result, resultReasons result)
  | .ran (.error e) => throw e

/-- The branches of `execute` over the kind of the test. -/
def evaluate (record : ChangeSetRecord) : EStateM Fault W (Option TestRunResult × List String) :=
  match context.node.testKind with
  | some .docsStatic => pure (none, docsStaticReasons record)
  | some .command =>
    match context.node.testArgv with
    | none => pure (none, ["compiled_test_argv_missing"])
    | some argv => S.runCommandTest context record argv
  | none => pure (none, ["compiled_test_kind_missing"])

/-- The reason of a failed test, at most a thousand characters of it. -/
def failureReason (reasons : List String) : String :=
  let text := String.ofList ((";".intercalate reasons).toList.take 1000)
  if text = "" then "approved test failed" else text

/-- `execute`. -/
def execute : EStateM Fault W NodeHandlerResult := do
  let (_, record) ← S.source context
  if record.changeSet.status ≠ .guardPassed then throw (.conflict "Test requires a guard_passed ChangeSet")
  else do
    let (result, reasons) ← S.evaluate context record
    let passed := reasons = [] && result.all TestRunResult.passed
    let artifact : TestArtifact :=
      ⟨record.changeSet.changeSetId, context.node.testKind.getD .command, passed, result, reasons⟩
    if ¬ artifact.valid then throw (invalidModel "TestArtifact")
    else do
      let ref ← S.report context record "test-result" .testResult artifact.dump
      if ¬ passed then do
        let _ ← S.transition context record.changeSet.changeSetId .guardPassed .testFailed (some (failureReason reasons))
          (some "high")
        pure (.failed "test_failed" "The approved ChangeSet test failed." ref)
      else do
        let last ← raising (isLastTest context.run.compiledSnapshot context.node)
        if last then do
          let _ ← S.transition context record.changeSet.changeSetId .guardPassed .testPassed none none
          pure (.succeeded "The approved ChangeSet test passed." ref)
        else pure (.succeeded "The approved ChangeSet test passed." ref)

end TestNodeHandler

/-! ## The risk classifier -/

namespace RiskClassifierNodeHandler

variable {W : Type} (S : ChangeSetHandler W) (context : NodeExecutionContext)

/-- The reason of an L4 risk. -/
def rejectionReason (reasons : List String) : String :=
  let text := String.ofList ((";".intercalate reasons).toList.take 1000)
  if text = "" then "L4 risk rejected" else text

/-- `execute`. -/
def execute : EStateM Fault W NodeHandlerResult := do
  let (source, record) ← S.source context
  if record.changeSet.status ≠ .testPassed then throw (.conflict "RiskClassifier requires a test_passed ChangeSet")
  else do
    let assessment := classify record.document.manifest
      { policyFloor := source.policyRiskFloor.getD .l0, userHint := source.riskLevelHint } false
    let artifact : RiskArtifact :=
      ⟨record.changeSet.changeSetId, assessment.runtimeRisk, assessment.effectiveRisk, assessment.blocked,
        assessment.requiresApproval, assessment.reasons⟩
    if ¬ artifact.valid then throw (invalidModel "RiskArtifact")
    else do
      let ref ← S.report context record "risk" .report artifact.dump
      if assessment.blocked then do
        let _ ← S.transition context record.changeSet.changeSetId .testPassed .policyRejected
          (some (rejectionReason assessment.reasons)) (some "critical")
        pure (.blocked "l4_risk_rejected" "L4 ChangeSet risk was rejected." ref)
      else pure (.succeeded ("ChangeSet risk classified as " ++ assessment.effectiveRisk.value ++ ".") ref)

end RiskClassifierNodeHandler

end AgentHub
