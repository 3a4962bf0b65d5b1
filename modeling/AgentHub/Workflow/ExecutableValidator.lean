import AgentHub.Workflow.Graph
/-!
# The executable validator

The checks a compiled graph passes before it can run: sizes and ids, each node on its own, each
edge, the shape of the graph, and the sealed chain of every write task.
-/

namespace AgentHub

def maxCompiledNodes : Nat := 300
def maxCompiledEdges : Nat := 600

/-! ## The registry -/

/-- The registered node types, each with the type its config model expects. -/
structure NodeRegistry where
  entries : List (NodeType × NodeType) := []
  deriving DecidableEq, Repr

/-- `NodeRegistry.register`, for a config model that expects `expected`. -/
def NodeRegistry.register (R : NodeRegistry) (t expected : NodeType) : Except String NodeRegistry :=
  if (R.entries.lookup t).isSome then .error ("node type already registered: " ++ t.value)
  else if expected ≠ t then .error "config model expected_type does not match registration"
  else .ok ⟨R.entries ++ [(t, expected)]⟩

def NodeRegistry.isRegistered (R : NodeRegistry) (t : NodeType) : Bool := (R.entries.lookup t).isSome

/-- `NodeRegistry.validate_config` of a registered type. -/
def NodeRegistry.validateConfig (R : NodeRegistry) (node : WorkflowNode) : Except String Unit :=
  match R.entries.lookup node.nodeType with
  | none => .error ("no handler registered for " ++ node.nodeType.value)
  | some expected =>
    if node.nodeType = expected then .ok ()
    else .error ("expected " ++ expected.value ++ ", got " ++ node.nodeType.value)

structure ExecutableValidator where
  registry : NodeRegistry
  writeRuntimeEnabled : Bool := false
  /-- The effective risk `RiskClassifier.classify_paths` gives to a list of paths. -/
  classifyPaths : List String → RiskLevel

namespace ExecutableValidator

/-! ## Nodes -/

/-- The least risk the compiler policy gives a task. -/
def expectedRiskFloor (V : ExecutableValidator) (node : WorkflowNode) : RiskLevel :=
  let candidateRisk :=
    if node.requiresWrite then V.classifyPaths (node.effectiveAllowedFiles.getD [] ++ node.effectiveNewFiles.getD [])
    else .l0
  maxRisk (maxRisk node.riskLevelHint candidateRisk) (if node.requiresWrite then .l1 else .l0)

def agentTaskErrors (V : ExecutableValidator) (node : WorkflowNode) : List ValidationIssue :=
  let files := node.effectiveAllowedFiles.getD []
  let new := node.effectiveNewFiles.getD []
  let commands := node.effectiveAllowedCommands.getD []
  issueIf node.taskKind.isNone (issue "compiled_task_kind_missing" "agent_task needs task_kind" node.id) ++
  issueIf (node.resolvedAgentId.isNone || node.resolvedAgentSpecSha256.isNone)
    (issue "compiled_agent_unresolved" "agent_task must carry frozen agent identity and spec hash" node.id) ++
  issueIf (node.effectiveAllowedFiles.isNone || node.effectiveNewFiles.isNone ||
      node.effectiveAllowedCommands.isNone || node.policyRiskFloor.isNone || node.requiresChangesetApproval.isNone)
    (issue "compiled_permissions_missing" "agent_task is missing compiler-owned effective permissions" node.id) ++
  issueIf (node.policyRiskFloor ≠ some (V.expectedRiskFloor node))
    (issue "compiled_risk_floor_mismatch" "policy risk floor does not match the compiler policy minimum" node.id) ++
  issueIf (node.requiresWrite && files.isEmpty && new.isEmpty)
    (issue "compiled_write_scope_empty" "write scope is empty" node.id) ++
  issueIf (!(files.all node.allowedFilesCandidate.contains && new.all node.newFilesCandidate.contains))
    (issue "compiled_scope_widened" "effective file scope must be a subset of author candidates" node.id) ++
  issueIf (100 < (files ++ new).dedup.length)
    (issue "compiled_file_scope_limit" "effective file scope cannot exceed 100 exact paths" node.id) ++
  issueIf (!commands.all node.allowedCommandsCandidate.contains)
    (issue "compiled_commands_widened" "effective commands must be a subset of author candidates" node.id) ++
  issueIf (node.requiresWrite && node.requiresChangesetApproval ≠ some true)
    (issue "compiled_approval_missing" "write agent_task must require final ChangeSet approval" node.id) ++
  issueIf (node.systemManaged || node.sourceNodeId.isSome || node.systemRuleId.isSome)
    (issue "agent_task_marked_system" "agent_task cannot carry compiler system-node ownership" node.id) ++
  issueIf (node.testKind.isSome || node.testArgv.isSome)
    (issue "agent_task_test_config" "test configuration is only valid on test nodes" node.id) ++
  issueIf (!node.requiresWrite && (!new.isEmpty || !commands.isEmpty || node.requiresChangesetApproval = some true))
    (issue "readonly_effective_scope" "read-only agent_task cannot carry write, command, or approval capabilities"
      node.id)

/-- `_validate_test_node`. -/
def testNodeErrors (nodes : List WorkflowNode) (node : WorkflowNode) : List ValidationIssue :=
  let source := nodeById nodes (node.sourceNodeId.getD "")
  match node.testKind with
  | none => [issue "test_kind_missing" "test node requires test_kind" node.id]
  | some .command =>
    issueIf (node.testArgv.getD []).isEmpty
      (issue "test_command_missing" "command test requires a non-empty argv" node.id)
  | some .docsStatic =>
    issueIf node.testArgv.isSome (issue "docs_static_has_argv" "docs_static test cannot execute argv" node.id) ++
    match source with
    | none => [issue "docs_static_source" "docs_static requires a docs source task" node.id]
    | some source =>
      if source.taskKind ≠ some .docs then
        [issue "docs_static_source" "docs_static requires a docs source task" node.id]
      else issueIf (!pureDocsScope source)
        (issue "docs_static_scope" "docs_static requires a pure documentation scope" node.id)

/-- The ownership checks on a system node. -/
def ownershipErrors (nodes : List WorkflowNode) (node : WorkflowNode) : List ValidationIssue :=
  match node.systemManaged, node.sourceNodeId, node.systemRuleId with
  | true, some sourceId, some _ =>
    match nodeById nodes sourceId with
    | none => [issue "system_source_invalid" "system node source must be a write agent_task" node.id]
    | some source =>
      if source.nodeType ≠ .agentTask ∨ source.requiresWrite = false then
        [issue "system_source_invalid" "system node source must be a write agent_task" node.id]
      else issueIf (node.policyRiskFloor ≠ source.policyRiskFloor)
        (issue "system_risk_mismatch" "system node risk floor must match its source task" node.id)
  | _, _, _ => [issue "system_node_unsealed" "system node lacks compiler ownership metadata" node.id]

/-- The task, assignment and permission fields a system node must not carry. -/
def leaksFields (node : WorkflowNode) : Bool :=
  node.taskKind.isSome || node.assignedAgent.isSome || node.resolvedAgentId.isSome ||
    node.resolvedAgentSpecSha256.isSome || !node.recommendedAgents.isEmpty || !node.allowedFilesCandidate.isEmpty ||
    !node.newFilesCandidate.isEmpty || !node.allowedCommandsCandidate.isEmpty ||
    node.effectiveAllowedFiles.isSome || node.effectiveNewFiles.isSome || node.effectiveAllowedCommands.isSome ||
    node.requiresChangesetApproval.isSome || node.requiresWrite || node.ifCondition.isSome

def systemNodeErrors (nodes : List WorkflowNode) (node : WorkflowNode) : List ValidationIssue :=
  ownershipErrors nodes node ++
  (if node.nodeType = .test then testNodeErrors nodes node
    else issueIf (node.testKind.isSome || node.testArgv.isSome)
      (issue "test_config_on_non_test" "test_kind/test_argv are only valid on test nodes" node.id)) ++
  issueIf (leaksFields node)
    (issue "system_node_field_leak" "system node carries task, assignment, or permission fields" node.id)

/-- The compiler-owned fields an author node must not carry. -/
def hasCompilerFields (node : WorkflowNode) : Bool :=
  node.resolvedAgentId.isSome || node.resolvedAgentSpecSha256.isSome || node.effectiveAllowedFiles.isSome ||
    node.effectiveNewFiles.isSome || node.effectiveAllowedCommands.isSome || node.policyRiskFloor.isSome ||
    node.requiresChangesetApproval.isSome || node.testKind.isSome || node.testArgv.isSome ||
    node.sourceNodeId.isSome || node.systemRuleId.isSome

/-- `_validate_node`. -/
def nodeErrors (V : ExecutableValidator) (nodes : List WorkflowNode) (node : WorkflowNode) : List ValidationIssue :=
  if node.nodeType = .agentTask then V.agentTaskErrors node
  else if node.nodeType.isSystem then systemNodeErrors nodes node
  else if node.systemManaged then
    [issue "author_node_marked_system" "author node types cannot be compiler-managed" node.id]
  else issueIf (hasCompilerFields node)
    (issue "compiler_field_on_author_node" "non-agent author node carries compiler-owned fields" node.id)

/-- The registration check of a node. -/
def registryErrors (R : NodeRegistry) (node : WorkflowNode) : List ValidationIssue :=
  if R.isRegistered node.nodeType then
    match R.validateConfig node with
    | .ok () => []
    | .error text => [issue "node_config_invalid" text node.id]
  else [issue "handler_unregistered" ("no NodeHandler registered for " ++ node.nodeType.value) node.id]

/-! ## Edges -/

/-- `_validate_condition`. -/
def conditionErrors (edge : WorkflowEdge) (source : WorkflowNode) : List ValidationIssue :=
  issueIf (edge.condition ∉ source.nodeType.conditions)
    (issue "invalid_compiled_condition" (source.nodeType.value ++ " cannot emit " ++ edge.condition.value)
      source.id edge.id)

/-- The seal of an edge between two nodes. -/
def sealErrors (edge : WorkflowEdge) (source target : WorkflowNode) : List ValidationIssue :=
  let touchesSystem := source.nodeType.isSystem || target.nodeType.isSystem
  issueIf (touchesSystem && !edge.systemManaged)
    (issue "unsealed_system_edge" "edges entering or leaving security nodes must be compiler-managed" none edge.id) ++
  issueIf (edge.systemManaged && !touchesSystem)
    (issue "unexpected_system_edge" "compiler-managed edge does not touch a system node" none edge.id) ++
  issueIf (source.nodeType.isSystem && target.nodeType.isSystem && source.sourceNodeId ≠ target.sourceNodeId)
    (issue "cross_task_security_edge" "security chain edges cannot cross source tasks" none edge.id)

def edgeErrors (nodes : List WorkflowNode) (edge : WorkflowEdge) : List ValidationIssue :=
  match nodeById nodes edge.fromNode, nodeById nodes edge.toNode with
  | some source, some target => conditionErrors edge source ++ sealErrors edge source target
  | _, _ => [issue "compiled_edge_reference" "compiled edge references an unknown node" none edge.id]

/-! ## Shape -/

/-- `_validate_boundaries`. -/
def boundaryErrors (nodes : List WorkflowNode) (edges : List WorkflowEdge) : List ValidationIssue :=
  let inputs := nodes.filter (fun n => n.nodeType = .input)
  let outputs := nodes.filter (fun n => n.nodeType = .output)
  issueIf (inputs.length ≠ 1) (issue "input_count" "compiled graph requires exactly one input") ++
  issueIf (outputs.length ≠ 1) (issue "output_count" "compiled graph requires exactly one output") ++
  (match inputs with
    | [input] => issueIf (!(incoming edges input.id).isEmpty)
        (issue "input_has_incoming" "input cannot have incoming edges" input.id)
    | _ => []) ++
  (match outputs with
    | [output] => issueIf (!(outgoing edges output.id).isEmpty)
        (issue "output_has_outgoing" "output cannot have outgoing edges" output.id)
    | _ => []) ++
  nodes.flatMap (fun node =>
    issueIf (node.nodeType ≠ .output && (outgoing edges node.id).isEmpty)
      (issue "dead_end_node" "every executable non-output node requires an outgoing edge" node.id) ++
    issueIf (1 < nodes.length && (incoming edges node.id).isEmpty && (outgoing edges node.id).isEmpty)
      (issue "isolated_node" "compiled graph contains an isolated node" node.id)) ++
  (match inputs with
    | [input] =>
      let seen := reachable input.id edges
      ((sortedIds (nodeIds nodes)).filter (· ∉ seen)).map
        (fun id => issue "unreachable_node" "node is unreachable from input" (some id))
    | _ => []) ++
  (match outputs with
    | [output] =>
      let seen := reverseReachable output.id edges
      ((sortedIds (nodeIds nodes)).filter (· ∉ seen)).map
        (fun id => issue "output_unreachable" "node cannot reach the output node" (some id))
    | _ => [])

def allConditions : List EdgeCondition := [.approved, .failure, .matched, .notMatched, .rejected, .success]

/-- `_validate_fanout_and_joins`. -/
def fanoutErrors (nodes : List WorkflowNode) (edges : List WorkflowEdge) : List ValidationIssue :=
  (sortedIds (edges.map WorkflowEdge.fromNode)).flatMap (fun id => allConditions.flatMap fun condition =>
    issueIf (1 < (outgoingOn edges id condition).length)
      (issue "outcome_fanout" ("node has " ++ toString (outgoingOn edges id condition).length ++ " " ++
        condition.value ++ " edges; Demo permits one") id)) ++
  nodes.flatMap (fun node => issueIf (1 < (incoming edges node.id).length && node.nodeType ≠ .output)
    (issue "unsupported_join" "Demo permits multiple incoming edges only on output" node.id))

/-- `_validate_outcome_branches`. -/
def branchErrors (nodes : List WorkflowNode) (edges : List WorkflowEdge) : List ValidationIssue :=
  nodes.flatMap fun node =>
    (if node.nodeType = .ifNode then [EdgeCondition.matched, .notMatched].flatMap fun condition =>
      issueIf ((outgoingOn edges node.id condition).length ≠ 1)
        (issue "if_branch_missing" ("compiled if requires one " ++ condition.value ++ " edge") node.id)
    else []) ++
    (if node.nodeType = .approval then [EdgeCondition.approved, .rejected].flatMap fun condition =>
      issueIf ((outgoingOn edges node.id condition).length ≠ 1)
        (issue "approval_branch_missing" ("approval requires one " ++ condition.value ++ " edge") node.id)
    else [])

/-! ## Security chains -/

/-- The condition of the edge that carries on along a chain. -/
def happyCondition (node : WorkflowNode) : EdgeCondition := if node.nodeType = .approval then .approved else .success

/-- The condition of the edge that leaves a chain. -/
def exitCondition (node : WorkflowNode) : EdgeCondition := if node.nodeType = .approval then .rejected else .failure

/-- Follow the happy edges from `current` while they stay on the chain of `sourceId`. Every step adds an
unseen node, so fuel for one more than the nodes does not run out. -/
def walkChain (nodes : List WorkflowNode) (edges : List WorkflowEdge) (sourceId : String) :
    Nat → List String → WorkflowNode → List WorkflowNode × List ValidationIssue
  | 0, _, _ => ([], [])
  | fuel + 1, seen, current =>
    match outgoingOn edges current.id (happyCondition current) with
    | [edge] =>
      match nodeById nodes edge.toNode with
      | none => ([], [])
      | some target =>
        if target.nodeType.isSystem = false ∨ target.sourceNodeId ≠ some sourceId then ([], [])
        else if target.id ∈ seen then
          ([], [issue "security_chain_cycle" "security chain repeats a node" target.id])
        else
          let rest := walkChain nodes edges sourceId fuel (seen ++ [target.id]) target
          (target :: rest.1, rest.2)
    | _ => ([], [issue "security_happy_path" (current.nodeType.value ++ " requires exactly one " ++
        (happyCondition current).value ++ " edge") current.id])

/-- The command guard and test pairs of a chain, from the `ordinal`-th on: the issues and the commands. -/
def commandPairs : Nat → List WorkflowNode → List ValidationIssue × List (List String)
  | ordinal, guard :: test :: rest =>
    let more := commandPairs (ordinal + 1) rest
    if guard.nodeType ≠ .commandGuard ∨ test.nodeType ≠ .test ∨ test.testKind ≠ some .command then
      (issue "security_chain_order" "command_guard must immediately precede its command test" test.id :: more.1, more.2)
    else
      (issueIf (guard.systemRuleId ≠ some ("write.command_guard." ++ toString ordinal ++ ".v1") ||
          test.systemRuleId ≠ some ("write.command_test." ++ toString ordinal ++ ".v1"))
        (issue "security_rule_mismatch" "command guard/test pair does not match its sealed policy rule" test.id) ++
        more.1, test.testArgv.getD [] :: more.2)
  | _, _ => ([], [])

/-- The checks on the nodes between the patch guard and the risk classifier. -/
def testSegmentErrors (source : WorkflowNode) (segment : List WorkflowNode) : List ValidationIssue :=
  let commands := source.effectiveAllowedCommands.getD []
  match segment with
  | [] => [issue "security_chain_order" "command security chain must contain command_guard/test pairs" source.id]
  | [test] =>
    if test.nodeType = .test then
      issueIf (test.testKind ≠ some .docsStatic)
        (issue "security_chain_order" "a test without command_guard must be docs_static" test.id) ++
      issueIf (!commands.isEmpty)
        (issue "docs_static_command_conflict" "docs_static and command tests are mutually exclusive" test.id) ++
      issueIf (test.systemRuleId ≠ some "write.docs_static_test.v1")
        (issue "security_rule_mismatch" "docs_static test must use its sealed policy rule" test.id)
    else [issue "security_chain_order" "command security chain must contain command_guard/test pairs" source.id]
  | segment =>
    if segment.length % 2 ≠ 0 then
      [issue "security_chain_order" "command security chain must contain command_guard/test pairs" source.id]
    else
      (commandPairs 1 segment).1 ++ issueIf ((commandPairs 1 segment).2 ≠ commands)
        (issue "security_test_commands_mismatch" "command tests must exactly match effective allowed commands" source.id)

/-- The sealed rule of a node on the chain. -/
def sealedRuleErrors (node : WorkflowNode) (expected : NodeType) (rule : String) : List ValidationIssue :=
  issueIf (node.nodeType ≠ expected || node.systemRuleId ≠ some rule)
    (issue "security_rule_mismatch" (expected.value ++ " must use sealed rule " ++ rule) node.id)

/-- `_validate_security_sequence`: the chain reads patch guard, tests, risk classifier, approval, merge. -/
def sequenceErrors (source : WorkflowNode) (chain : List WorkflowNode) : List ValidationIssue :=
  let order := [issue "security_chain_order"
    "security chain must end with risk_classifier -> approval -> merge_patch" source.id]
  match chain with
  | [] => []
  | patch :: rest =>
    if chain.length < 5 then order
    else match rest.reverse with
      | merge :: approval :: risk :: segment =>
        if risk.nodeType ≠ .riskClassifier ∨ approval.nodeType ≠ .approval ∨ merge.nodeType ≠ .mergePatch then order
        else
          sealedRuleErrors patch .patchGuard "write.patch_guard.v1" ++
          sealedRuleErrors risk .riskClassifier "write.risk_classifier.v1" ++
          sealedRuleErrors approval .approval "write.changeset_approval.v1" ++
          sealedRuleErrors merge .mergePatch "write.merge_patch.v1" ++
          testSegmentErrors source segment.reverse
      | _ => order

/-- The exit of a chain node must be one edge to the output. -/
def exitErrors (nodes : List WorkflowNode) (edges : List WorkflowEdge) (node : WorkflowNode) : List ValidationIssue :=
  let outputs := (nodes.filter (fun n => n.nodeType = .output)).map WorkflowNode.id
  match outgoingOn edges node.id (exitCondition node) with
  | [edge] => issueIf (edge.toNode ∉ outputs) (issue "security_terminal_exit" (node.nodeType.value ++ " " ++
      (exitCondition node).value ++ " must terminate at output") node.id)
  | _ => [issue "security_terminal_exit" (node.nodeType.value ++ " " ++ (exitCondition node).value ++
      " must terminate at output") node.id]

/-- The system nodes of a source task. -/
def systemNodesOf (nodes : List WorkflowNode) (sourceId : String) : List WorkflowNode :=
  nodes.filter (fun n => n.sourceNodeId = some sourceId)

/-- The chain of a source task. -/
def chainOf (nodes : List WorkflowNode) (edges : List WorkflowEdge) (source : WorkflowNode) :
    List WorkflowNode × List ValidationIssue :=
  walkChain nodes edges source.id (nodes.length + 1) [] source

/-- The checks on one write task. -/
def chainErrors (nodes : List WorkflowNode) (edges : List WorkflowEdge) (source : WorkflowNode) :
    List ValidationIssue :=
  let system := systemNodesOf nodes source.id
  let present := fun t => system.countP (fun n => n.nodeType = t)
  let chain := chainOf nodes edges source
  [NodeType.patchGuard, .riskClassifier, .approval, .mergePatch].flatMap (fun required =>
    issueIf (present required ≠ 1)
      (issue "security_chain_incomplete" ("write task requires exactly one " ++ required.value) source.id)) ++
  issueIf (present .test < 1) (issue "security_chain_incomplete" "write task requires at least one test" source.id) ++
  issueIf (!(system.map WorkflowNode.systemRuleId).Nodup)
    (issue "duplicate_system_rule" "write-task system_rule_id values must be unique" source.id) ++
  issueIf (source.policyRiskFloor = some .l4) (issue "l4_risk_rejected" "L4 tasks are not executable" source.id) ++
  chain.2 ++
  issueIf (chain.1.head?.map WorkflowNode.nodeType ≠ some .patchGuard)
    (issue "patch_guard_bypass" "write task success must enter its sealed patch_guard" source.id) ++
  issueIf (!(decide (nodeIds chain.1 ⊆ nodeIds system) && decide (nodeIds system ⊆ nodeIds chain.1)))
    (issue "security_chain_disconnected" "all same-source system nodes must be on one sealed happy path" source.id) ++
  sequenceErrors source chain.1 ++
  system.flatMap (exitErrors nodes edges)

/-- A task that writes the workspace. -/
def isWriteTask (node : WorkflowNode) : Bool := node.nodeType = .agentTask && node.requiresWrite

/-- `_validate_security_chains`. -/
def securityErrors (nodes : List WorkflowNode) (edges : List WorkflowEdge) : List ValidationIssue :=
  (nodes.filter isWriteTask).flatMap (chainErrors nodes edges)

/-! ## The validator -/

def sizeErrors (graph : CompiledGraph) : List ValidationIssue :=
  issueIf (maxCompiledNodes < graph.nodes.length)
    (issue "compiled_too_many_nodes" "compiled graph exceeds 300 nodes") ++
  issueIf (maxCompiledEdges < graph.edges.length)
    (issue "compiled_too_many_edges" "compiled graph exceeds 600 edges")

def duplicateErrors (graph : CompiledGraph) : List ValidationIssue :=
  (duplicates (nodeIds graph.nodes)).map
    (fun id => issue "duplicate_node_id" "compiled node id is not unique" (some id)) ++
  (duplicates (graph.edges.map WorkflowEdge.id)).map
    (fun id => issue "duplicate_edge_id" "compiled edge id is not unique" none (some id))

def validate (V : ExecutableValidator) (graph : CompiledGraph) : ValidationReport :=
  let nodes := graph.nodes
  let edges := validEdges nodes graph.edges
  { errors :=
      sizeErrors graph ++ duplicateErrors graph ++
      (byNodeId nodes).flatMap (fun node => registryErrors V.registry node ++ V.nodeErrors nodes node) ++
      (byEdgeId graph.edges).flatMap (edgeErrors nodes) ++
      issueIf ((nodeIds nodes).Nodup && containsCycle nodes edges)
        (issue "compiled_cycle" "compiled graph must be a DAG") ++
      boundaryErrors nodes edges ++ fanoutErrors nodes edges ++ branchErrors nodes edges ++
      securityErrors nodes edges ++
      (if V.writeRuntimeEnabled then []
        else (nodes.filter isWriteTask).map fun node =>
          issue "write_runtime_unavailable" "write workflows require HUB-200 workspace and guard runtime" node.id) }

end ExecutableValidator

end AgentHub
