import AgentHub.Master.Router
import AgentHub.Security.CommandGuard
import AgentHub.Security.PathPolicy
import AgentHub.Security.RiskClassifier
import AgentHub.Workflow.DraftValidator
/-!
# The compiler

An author graph is validated, its agent tasks get their agents, scopes and risk floors, and each write task gets a
sealed chain of system nodes between itself and what followed it. The ids of the chain are digests of the id of the task,
a rule and an ordinal, so one graph is always compiled to the same ids.
-/

namespace AgentHub

open Lib Workspace Security

/-! ## System ids -/

/-- `sha256(text.encode()).hexdigest()[:20]` -/
def digest (H : Host) (text : String) : String := String.ofList ((H.sha256 (utf8 text)).toList.take 20)

def nul : String := String.singleton (Char.ofNat 0)

/-- What `_system_id` hashes. -/
def systemIdText (sourceNodeId rule : String) (ordinal : Nat) : String :=
  sourceNodeId ++ nul ++ rule ++ nul ++ toString ordinal

/-- `_system_id`. -/
def systemId (H : Host) (sourceNodeId rule : String) (ordinal : Nat) : String :=
  "sys-" ++ digest H (systemIdText sourceNodeId rule ordinal)

/-- An edge of a chain before it has an id. -/
structure EdgeSpec where
  fromNode : String
  toNode : String
  rule : String
  ordinal : Nat
  condition : EdgeCondition := .success
  deriving DecidableEq, Repr

/-- What `_system_edge` hashes. -/
def systemEdgeText (sourceNodeId : String) (spec : EdgeSpec) : String :=
  sourceNodeId ++ nul ++ spec.rule ++ nul ++ toString spec.ordinal ++ nul ++ spec.fromNode ++ nul ++ spec.toNode ++ nul ++
    spec.condition.value

/-- `_system_edge`. -/
def systemEdge (H : Host) (sourceNodeId : String) (spec : EdgeSpec) : WorkflowEdge :=
  { id := "sys-edge-" ++ digest H (systemEdgeText sourceNodeId spec)
    fromNode := spec.fromNode
    toNode := spec.toNode
    condition := spec.condition
    systemManaged := true }

/-! ## The chain of a write task -/

/-- A node of a chain before it has an ordinal. -/
structure ChainStep where
  nodeType : NodeType
  rule : String
  title : String
  testKind : Option TestKind := none
  testArgv : Option (List String) := none
  deriving DecidableEq, Repr

def docsSteps : List ChainStep :=
  [⟨.test, "write.docs_static_test.v1", "Validate documentation files", some .docsStatic, none⟩]

/-- The guard and the test of each command, numbered from one. -/
def commandSteps (commands : List (List String)) : List ChainStep :=
  (commands.mapIdx fun i argv =>
    let index := toString (i + 1)
    [⟨.commandGuard, "write.command_guard." ++ index ++ ".v1", "Validate test command " ++ index, none, none⟩,
      ⟨.test, "write.command_test." ++ index ++ ".v1", "Run approved test " ++ index, some .command, some argv⟩]).flatten

def missingSteps : List ChainStep :=
  [⟨.commandGuard, "write.command_guard.missing.v1", "Require an approved test command", none, none⟩,
    ⟨.test, "write.command_test.missing.v1", "Blocked: approved test command missing", some .command, none⟩]

/-- `_is_docs_static`. -/
def isDocsStatic (node : WorkflowNode) : Bool :=
  node.taskKind = some .docs && (node.effectiveAllowedCommands.getD []).isEmpty && pureDocsScope node

/-- The steps between the patch guard and the risk classifier. -/
def testSteps (source : WorkflowNode) : List ChainStep :=
  let commands := source.effectiveAllowedCommands.getD []
  if isDocsStatic source then docsSteps
  else if commands ≠ [] then commandSteps commands
  else missingSteps

/-- The issue of a write task without tests. -/
def chainIssues (source : WorkflowNode) : List ValidationIssue :=
  issueIf (!isDocsStatic source && (source.effectiveAllowedCommands.getD []).isEmpty)
    (issue "test_command_missing" "write task has no approved test command candidate" source.id)

def chainSteps (tests : List ChainStep) : List ChainStep :=
  ⟨.patchGuard, "write.patch_guard.v1", "Validate task patch", none, none⟩ :: tests ++
    [⟨.riskClassifier, "write.risk_classifier.v1", "Classify final change risk", none, none⟩,
      ⟨.approval, "write.changeset_approval.v1", "Approve final change set", none, none⟩,
      ⟨.mergePatch, "write.merge_patch.v1", "Merge approved patch", none, none⟩]

/-- `add_node`. -/
def stepNode (H : Host) (source : WorkflowNode) (step : ChainStep) (ordinal : Nat) : WorkflowNode :=
  { id := systemId H source.id step.rule ordinal
    nodeType := step.nodeType
    title := step.title
    systemManaged := true
    sourceNodeId := some source.id
    systemRuleId := some step.rule
    policyRiskFloor := source.policyRiskFloor
    testKind := step.testKind
    testArgv := step.testArgv }

/-- The nodes of a chain. Ordinals count from one. -/
def chainNodes (H : Host) (source : WorkflowNode) (tests : List ChainStep) : List WorkflowNode :=
  (chainSteps tests).mapIdx fun i step => stepNode H source step (i + 1)

/-- The ids of a chain with the types of its nodes. -/
def chainIds (H : Host) (sourceId : String) (tests : List ChainStep) : List (String × NodeType) :=
  (chainSteps tests).mapIdx fun i step => (systemId H sourceId step.rule (i + 1), step.nodeType)

/-- The edges of a chain: into it, along it, out of it to the output, and on to what followed the task. -/
def chainEdgeSpecs (H : Host) (sourceId : String) (tests : List ChainStep) (originalSuccess : List WorkflowEdge)
    (outputId : String) : List EdgeSpec :=
  let sequence := chainIds H sourceId tests
  let patch := systemId H sourceId "write.patch_guard.v1" 1
  let approval := systemId H sourceId "write.changeset_approval.v1" (tests.length + 3)
  let merge := systemId H sourceId "write.merge_patch.v1" (tests.length + 4)
  [⟨sourceId, patch, "enter", 0, .success⟩] ++
  (sequence.zip sequence.tail).mapIdx (fun i p =>
    ⟨p.1.1, p.2.1, "chain", i + 1, if p.1.2 = .approval then .approved else .success⟩) ++
  [⟨approval, outputId, "approval-rejected", 0, .rejected⟩] ++
  ((sequence.mapIdx fun i p => (i + 1, p)).filter (·.2.2 ≠ .approval)).map (fun p =>
    ⟨p.2.1, outputId, "failure-output", p.1, .failure⟩) ++
  if originalSuccess = [] then [⟨merge, outputId, "finish", 0, .success⟩]
  else originalSuccess.mapIdx fun i e => ⟨merge, e.toNode, "resume-success", i + 1, .success⟩

/-! ## Injection -/

/-- The write tasks in the order of their ids. -/
def writeTasks (nodes : List WorkflowNode) : List WorkflowNode :=
  byNodeId (nodes.filter fun n => n.nodeType = .agentTask && n.requiresWrite)

/-- The success edges of a node in the order of their ids. -/
def successEdges (edges : List WorkflowEdge) (id : String) : List WorkflowEdge := byEdgeId (outgoingOn edges id .success)

/-- The edges of the chain of a task that `edges` leave. -/
def chainEdges (H : Host) (edges : List WorkflowEdge) (outputId : String) (source : WorkflowNode) : List WorkflowEdge :=
  (chainEdgeSpecs H source.id (testSteps source) (successEdges edges source.id) outputId).map (systemEdge H source.id)

/-- The body of the loop of `inject`, on the edges. -/
def injectChain (H : Host) (outputId : String) (edges : List WorkflowEdge) (source : WorkflowNode) : List WorkflowEdge :=
  edges.filter (fun e => e ∉ successEdges edges source.id) ++ chainEdges H edges outputId source

/-- `inject`. -/
def inject (H : Host) (nodes : List WorkflowNode) (edges : List WorkflowEdge) :
    List WorkflowNode × List WorkflowEdge × List ValidationIssue :=
  match nodes.filter (·.nodeType = .output) with
  | [output] =>
    (nodes ++ (writeTasks nodes).flatMap (fun source => chainNodes H source (testSteps source)),
      (writeTasks nodes).foldl (injectChain H output.id) edges, (writeTasks nodes).flatMap chainIssues)
  | _ => (nodes, edges, [])

/-! ## Compilation -/

structure CompilationResult where
  graph : Option CompiledGraph
  compiledHash : Option String
  sourceAuthorHash : String
  errors : List ValidationIssue := []
  warnings : List ValidationIssue := []
  deriving DecidableEq, Repr

/-- `ok` -/
def CompilationResult.ok (r : CompilationResult) : Bool := r.graph.isSome && r.errors.isEmpty

/-- The constructor of `CompiledGraph`. -/
def CompiledGraph.build (g : CompiledGraph) : Except Failure CompiledGraph := do
  if ¬ Workspace.isSha256Hex g.sourceAuthorHash then invalid "source_author_hash"
  if ¬ isObjectId g.integrationBaseCommit then invalid "integration_base_commit"
  if g.policyVersion.length < 1 ∨ 64 < g.policyVersion.length then invalid "policy_version"
  if ¬ Workspace.isSha256Hex g.agentCatalogSnapshotHash then invalid "agent_catalog_snapshot_hash"
  if 300 < g.nodes.length then invalid "nodes"
  if 600 < g.edges.length then invalid "edges"
  pure g

structure WorkflowCompiler where
  host : Host
  catalog : AgentCatalog
  policyVersion : String
  validator : DraftValidator
  pathPolicy : Option PathPolicy
  /-- the guard, with what its `int` reads -/
  commandGuard : Option Digits

namespace WorkflowCompiler

variable (C : WorkflowCompiler)

/-- The existing and the new files of a task, or the text of the violation. -/
def effectiveScope (node : WorkflowNode) : Except Failure (Except String (List String × List String)) :=
  match C.pathPolicy with
  | none => .ok (.ok (sortedSet node.allowedFilesCandidate, sortedSet node.newFilesCandidate))
  | some policy =>
    match policy.validateScope node.allowedFilesCandidate node.newFilesCandidate with
    | .ok scope => .ok (.ok (scope.existingFiles, scope.newFiles))
    | .error e => if e.kind = .pathPolicyViolation then .ok (.error e.message) else .error e

/-- The commands of a task, or its issue. -/
def effectiveCommands (node : WorkflowNode) : Except Failure (Except ValidationIssue (List (List String))) :=
  let commands := normalizeCommandTemplates node.allowedCommandsCandidate
  match C.commandGuard with
  | some guard =>
    match CommandGuard.validateMany guard commands 20 with
    | .ok approved => .ok (.ok (approved.map (·.argv)))
    | .error (.violation message) => .ok (.error (issue "command_guard_rejected" message node.id))
    | .error .valueError => .error ⟨.valueError, "invalid literal for int()"⟩
  | none =>
    if 20 < commands.length then
      .ok (.error (issue "effective_command_scope_limit" "compiled command scope cannot exceed 20 argv templates" node.id))
    else .ok (.ok commands)

/-- The risk floor of a task with this scope. -/
def riskFloor (node : WorkflowNode) (existing new : List String) : RiskLevel :=
  let candidateRisk := if node.requiresWrite then (classifyPaths (existing ++ new)).effectiveRisk else .l0
  maxRisk (maxRisk node.riskLevelHint candidateRisk) (if node.requiresWrite then .l1 else .l0)

/-- A task with its agent, scope and floor. -/
def resolved (node : WorkflowNode) (routed : RoutingResult) (existing new : List String) (commands : List (List String)) :
    WorkflowNode :=
  { node with
    resolvedAgentId := routed.resolvedAgentId
    resolvedAgentSpecSha256 := routed.resolvedAgentSpecSha256
    recommendedAgents := (routed.rankedCandidates.map fun item => ⟨item.agentId, item.score, item.reason⟩).insertionSort
      fun a b => a.agentId ≤ b.agentId
    effectiveAllowedFiles := some existing
    effectiveNewFiles := some new
    effectiveAllowedCommands := some commands
    policyRiskFloor := some (riskFloor node existing new)
    requiresChangesetApproval := some node.requiresWrite }

/-- The body of the loop of `compile` for an agent task: the compiled node, when there is one, and the issues. -/
def compileTask (node : WorkflowNode) : Except Failure (Option WorkflowNode × List ValidationIssue) := do
  let routed := AgentRouter.route C.catalog node
  if routed.decision ≠ .assigned then
    pure (none, [issue "agent_unavailable" (routed.blockedReason.getD "agent routing failed") node.id])
  else
    match ← C.effectiveScope node with
    | .error message => pure (none, [issue "path_policy_rejected" message node.id])
    | .ok (existing, new) =>
      if 100 < existing.length + new.length then
        pure (none, [issue "effective_file_scope_limit" "compiled file scope cannot exceed 100 exact paths" node.id])
      else
        match ← C.effectiveCommands node with
        | .error i => pure (none, [i])
        | .ok commands =>
          pure (some (resolved node routed existing new commands),
            issueIf (node.requiresWrite && existing.isEmpty && new.isEmpty)
              (issue "write_scope_empty" "write task requires at least one exact existing or new file" node.id) ++
            issueIf (riskFloor node existing new = .l4)
              (issue "l4_risk_rejected" "L4 tasks are rejected by policy" node.id))

/-- The body of the loop of `compile`. -/
def compileNode (node : WorkflowNode) : Except Failure (Option WorkflowNode × List ValidationIssue) := do
  if node.nodeType ≠ .agentTask then pure (some node, [])
  else
    let compiled ← C.compileTask node
    checkIssues compiled.2
    pure compiled

/-- The loop of `compile`. -/
def compileNodes : List WorkflowNode → Except Failure (List WorkflowNode × List ValidationIssue)
  | [] => pure ([], [])
  | node :: rest => do
    let (compiled, issues) ← C.compileNode node
    let (others, moreIssues) ← compileNodes rest
    pure (compiled.toList ++ others, issues ++ moreIssues)

/-- `compile`. -/
def compile (authorGraph : AuthorGraph) (integrationBaseCommit : String) : Except Failure CompilationResult := do
  let report ← C.validator.validate authorGraph true
  let author := normalizeAuthorGraph authorGraph
  let sourceHash := C.host.sha256 (canonicalJson author.dump)
  if ¬ report.ok then pure ⟨none, none, sourceHash, report.errors, report.warnings⟩
  else
    let (nodes, errors) ← C.compileNodes author.nodes
    if errors ≠ [] then pure ⟨none, none, sourceHash, errors, report.warnings⟩
    else
      let (nodes, edges, issues) := inject C.host nodes author.edges
      let graph ← CompiledGraph.build
        { sourceAuthorHash := sourceHash
          integrationBaseCommit := integrationBaseCommit
          policyVersion := C.policyVersion
          agentCatalogSnapshotHash := C.catalog.catalogHash
          nodes := byNodeId nodes
          edges := byEdgeId edges }
      pure ⟨some graph, some (C.host.sha256 (canonicalJson graph.dump)), sourceHash, issues, report.warnings⟩

end WorkflowCompiler

end AgentHub
