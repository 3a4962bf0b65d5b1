import AgentHub.Lib.PurePath
import AgentHub.Security.PathRules
import AgentHub.Workflow.Canonical
/-!
# The draft validator

The checks an author graph passes before it is compiled. An issue carries a text of at most 2000 characters, so a path
whose quoted form is longer makes the validator raise instead of report.
-/

namespace AgentHub

open Lib Workspace

def maxAuthorGraphBytes : Nat := 2 * 1024 * 1024
def maxAuthorNodes : Nat := 100
def maxAuthorEdges : Nat := 300

/-- The texts of issues are bounded, and constructing a longer one raises. -/
def checkIssues (issues : List ValidationIssue) : Except Failure Unit :=
  if issues.any fun i => 2000 < i.message.length then .error ⟨.validation, "message"⟩ else .ok ()

/-- The validator, with `repr` of a text. -/
structure DraftValidator where
  repr : String → String

namespace DraftValidator

/-! ## Nodes -/

def authorNodeTypes : List NodeType := [.input, .agentTask, .contextBuilder, .ifNode, .output]

/-- `_COMPILER_ONLY_FIELDS`, and whether a node sets them. -/
def compilerOnlyFields (node : WorkflowNode) : List (String × Bool) :=
  [("resolved_agent_id", node.resolvedAgentId.isSome),
    ("resolved_agent_spec_sha256", node.resolvedAgentSpecSha256.isSome),
    ("effective_allowed_files", node.effectiveAllowedFiles.isSome),
    ("effective_new_files", node.effectiveNewFiles.isSome),
    ("effective_allowed_commands", node.effectiveAllowedCommands.isSome),
    ("policy_risk_floor", node.policyRiskFloor.isSome),
    ("requires_changeset_approval", node.requiresChangesetApproval.isSome),
    ("test_kind", node.testKind.isSome), ("test_argv", node.testArgv.isSome),
    ("source_node_id", node.sourceNodeId.isSome), ("system_rule_id", node.systemRuleId.isSome)]

def wildcardChars : List Char := ['*', '?', '[', ']', Char.ofNat 123, Char.ofNat 125]

/-- `^[A-Za-z]:` -/
def hasDrive (text : List Char) : Bool :=
  text.head?.any (fun c => Security.isAsciiUpper c || Security.isAsciiLower c) && text[1]? = some ':'

/-- `_invalid_repo_path_reason`. -/
def invalidRepoPathReason (value : String) : Option String :=
  let text := value.toList
  let names := PurePath.names text
  if text.any (·.toNat < 32) then some "control characters are forbidden"
  else if Security.backslash ∈ text then some "use canonical forward slashes"
  else if PurePath.isAbsolute text ∨ hasDrive text then some "absolute paths are forbidden"
  else if text.any (wildcardChars.contains ·) then some "wildcards are forbidden"
  else if names.any Security.isRelativeSegment then some "dot and parent segments are forbidden"
  else if text.getLast? = some '/' then some "file paths cannot end with a slash"
  else if (if names = [] then ['.'] else PurePath.ofNames names) ≠ text then some "path is not canonical"
  else none

/-- The checks on one list of candidate paths. -/
def candidatePathErrors (V : DraftValidator) (node : WorkflowNode) (field : String) (values : List String) :
    List ValidationIssue :=
  issueIf (!values.Nodup) (issue "duplicate_candidate_path" (field ++ " contains duplicate paths") node.id) ++
  values.flatMap fun value =>
    match invalidRepoPathReason value with
    | none => []
    | some reason =>
      [issue "invalid_candidate_path" ("invalid " ++ field ++ " path " ++ V.repr value ++ ": " ++ reason) node.id]

/-- `_validate_candidate_paths`. -/
def candidatePathsErrors (V : DraftValidator) (node : WorkflowNode) : List ValidationIssue :=
  let overlap := sortedSet (node.allowedFilesCandidate.filter (· ∈ node.newFilesCandidate))
  V.candidatePathErrors node "allowed_files_candidate" node.allowedFilesCandidate ++
  V.candidatePathErrors node "new_files_candidate" node.newFilesCandidate ++
  match overlap with
  | [] => []
  | first :: _ =>
    [issue "candidate_scope_overlap" ("existing and new candidate paths overlap: " ++ first) node.id]

def isInvalidToken (token : String) : Bool := token.toList.any fun c => c.toNat = 0 || c.toNat = 10 || c.toNat = 13

/-- `_validate_candidate_commands`, from the commands seen on. -/
def candidateCommandErrors (node : WorkflowNode) : List (List String) → List (List String) → List ValidationIssue
  | _, [] => []
  | seen, argv :: rest =>
    issueIf (seen.contains argv)
      (issue "duplicate_command_candidate" "allowed command candidates must be unique" node.id) ++
    issueIf (argv.any isInvalidToken)
      (issue "invalid_command_token" "command argv tokens cannot contain NUL or newlines" node.id) ++
    candidateCommandErrors node (seen ++ [argv]) rest

/-- The checks on an agent task. -/
def agentTaskErrors (V : DraftValidator) (node : WorkflowNode) : List ValidationIssue :=
  issueIf node.taskKind.isNone (issue "agent_task_kind_missing" "agent_task requires task_kind" node.id) ++
  issueIf node.instruction.isNone (issue "agent_instruction_missing" "agent_task requires instruction" node.id) ++
  issueIf (node.assignmentMode = .auto && node.assignedAgent.isSome)
    (issue "auto_assignment_has_agent" "auto assignment cannot pin assigned_agent" node.id) ++
  issueIf ((node.assignmentMode = .manual || node.assignmentMode = .locked) && node.assignedAgent.isNone)
    (issue "explicit_assignment_missing_agent" (node.assignmentMode.value ++ " assignment requires assigned_agent")
      node.id) ++
  V.candidatePathsErrors node ++ candidateCommandErrors node [] node.allowedCommandsCandidate ++
  issueIf (!node.requiresWrite && (!node.newFilesCandidate.isEmpty || !node.allowedCommandsCandidate.isEmpty))
    (issue "write_candidates_on_readonly_task" "new files and command candidates require requires_write=true" node.id)

/-- The checks on the other nodes. -/
def otherNodeErrors (node : WorkflowNode) : List ValidationIssue :=
  issueIf node.taskKind.isSome (issue "task_kind_on_non_agent" "task_kind is only valid on agent_task" node.id) ++
  issueIf (node.assignedAgent.isSome || !node.recommendedAgents.isEmpty)
    (issue "agent_assignment_on_system_node" "Agent assignment is only valid on agent_task" node.id) ++
  issueIf (!node.allowedFilesCandidate.isEmpty || !node.newFilesCandidate.isEmpty ||
      !node.allowedCommandsCandidate.isEmpty || node.requiresWrite)
    (issue "scope_on_non_agent" "candidate permissions are only valid on agent_task" node.id)

/-- `_validate_node`. -/
def nodeErrors (V : DraftValidator) (node : WorkflowNode) : List ValidationIssue :=
  issueIf (!authorNodeTypes.contains node.nodeType)
    (issue "author_system_node_type" (node.nodeType.value ++ " is compiler-only") node.id) ++
  issueIf node.systemManaged (issue "author_system_node" "AuthorGraph nodes cannot be system-managed" node.id) ++
  (compilerOnlyFields node).flatMap (fun field => issueIf field.2
    (issue "compiler_only_field" (field.1 ++ " can only be set by WorkflowCompiler") node.id)) ++
  (if node.nodeType = .agentTask then V.agentTaskErrors node else otherNodeErrors node) ++
  if node.nodeType = .ifNode then
    issueIf node.ifCondition.isNone (issue "if_condition_missing" "if node requires if_condition" node.id)
  else
    issueIf node.ifCondition.isSome (issue "if_condition_on_non_if" "if_condition is only valid on if nodes" node.id)

/-! ## Edges -/

/-- The conditions an author may put on the edges of a node. -/
def allowedConditions (source : WorkflowNode) : List EdgeCondition :=
  if source.nodeType = .ifNode then [.matched, .notMatched, .failure] else [.success, .failure]

/-- `_validate_edge_condition`. -/
def edgeConditionErrors (edge : WorkflowEdge) (source : WorkflowNode) : List ValidationIssue :=
  issueIf (edge.condition ∉ allowedConditions source)
    (issue "invalid_edge_condition" (source.nodeType.value ++ " cannot emit " ++ edge.condition.value)
      source.id edge.id)

/-- The body of the loop over the edges. -/
def edgeErrors (nodes : List WorkflowNode) (edge : WorkflowEdge) : List ValidationIssue :=
  let source := nodeById nodes edge.fromNode
  let target := nodeById nodes edge.toNode
  issueIf source.isNone
    (issue "unknown_edge_source" ("edge source does not exist: " ++ edge.fromNode) none edge.id) ++
  issueIf target.isNone
    (issue "unknown_edge_target" ("edge target does not exist: " ++ edge.toNode) none edge.id) ++
  issueIf (edge.fromNode = edge.toNode) (issue "self_edge" "self edges are not allowed" none edge.id) ++
  issueIf edge.systemManaged
    (issue "author_system_edge" "AuthorGraph cannot contain system-managed edges" none edge.id) ++
  match source, target with
  | some source, some _ => edgeConditionErrors edge source
  | _, _ => []

/-- `_validate_if_branches`. -/
def ifBranchErrors (nodes : List WorkflowNode) (edges : List WorkflowEdge) : List ValidationIssue :=
  (nodes.filter (·.nodeType = .ifNode)).flatMap fun node =>
    [EdgeCondition.matched, .notMatched].flatMap (fun required =>
      issueIf ((outgoingOn edges node.id required).length ≠ 1)
        (issue "if_branch_missing" ("if node requires exactly one " ++ required.value ++ " edge") node.id)) ++
    issueIf (1 < (outgoingOn edges node.id .failure).length)
      (issue "if_failure_fanout" "if node may have at most one failure edge" node.id)

/-! ## Conditions -/

/-- `_transitive_predecessors`. -/
def transitivePredecessors (target : String) (edges : List WorkflowEdge) : List String :=
  (((incoming edges target).map WorkflowEdge.fromNode).flatMap fun id => reverseReachable id edges).dedup

/-- The step of `_dominators` for one node: itself, and what dominates all its predecessors. Sets are sublists of the
sorted ids. -/
def updatedDominators (ids : List String) (edges : List WorkflowEdge) (dominators : String → List String) (id : String) :
    List String :=
  let predecessors := (incoming edges id).map WorkflowEdge.fromNode
  ids.filter fun other => other = id || (!predecessors.isEmpty && predecessors.all fun p => (dominators p).contains other)

/-- One pass over the sorted nodes, which updates in place, and whether it changed anything. -/
def dominatorPass (ids : List String) (edges : List WorkflowEdge) (dominators : String → List String) :
    (String → List String) × Bool :=
  ids.foldl (fun s id =>
    let updated := updatedDominators ids edges s.1 id
    if updated ≠ s.1 id then (Function.update s.1 id updated, true) else s) (dominators, false)

/-- The passes of `_dominators`. -/
def dominatorPasses (ids : List String) (edges : List WorkflowEdge) : Nat → (String → List String) → String → List String
  | 0, dominators => dominators
  | n + 1, dominators =>
    let s := dominatorPass ids edges dominators
    if s.2 then dominatorPasses ids edges n s.1 else s.1

/-- `_dominators`. -/
def dominators (nodes : List WorkflowNode) (edges : List WorkflowEdge) : String → List String :=
  let ids := sortedIds (nodeIds nodes)
  dominatorPasses ids edges (max 1 ids.length) fun id => if (incoming edges id).isEmpty then [id] else ids

def nodeRunStatuses : List NodeRunStatus :=
  [.pending, .ready, .running, .waitingApproval, .blockedByGuard, .failed, .completed, .skipped, .superseded,
    .cancelled, .orphaned]

def nodeOutcomeValues : List String :=
  ["success", "failure", "matched", "not_matched", "approved", "rejected", "blocked", "cancelled"]

/-- The values a field of a condition can have, where they are listed. -/
def expectedValues (field : String) : Option (List String) :=
  if field = "status" then some (nodeRunStatuses.map NodeRunStatus.value)
  else if field = "outcome" then some nodeOutcomeValues
  else if field = "effective_risk" then some ([RiskLevel.l0, .l1, .l2, .l3, .l4].map RiskLevel.value)
  else none

/-- The checks on the operand of a condition. -/
def operandErrors (node : WorkflowNode) (c : IfCondition) : List ValidationIssue :=
  let invalid (message : String) := [issue "if_operand_invalid" message node.id]
  let unknown := [issue "if_operand_unknown" ("if condition contains an unknown " ++ c.field ++ " value") node.id]
  match c.operator with
  | .isTrue | .isFalse =>
    if c.field ≠ "tests_passed" ∨ c.value ≠ .absent then invalid "is_true/is_false require tests_passed with no value"
    else []
  | .isIn =>
    match c.value with
    | .tokens values =>
      if c.field = "tests_passed" then invalid "in requires a non-boolean field and a non-empty value list"
      else if (expectedValues c.field).any fun expected => values.any (!expected.contains ·) then unknown
      else []
    | _ => invalid "in requires a non-boolean field and a non-empty value list"
  | .eq | .ne =>
    let scalar := "eq/ne require a scalar value matching the selected field"
    if c.field = "tests_passed" then
      match c.value with
      | .truth _ => []
      | _ => invalid scalar
    else
      match c.value, expectedValues c.field with
      | .token value, some expected => if expected.contains value then [] else unknown
      | _, _ => invalid scalar

/-- `_validate_if_condition`. -/
def ifConditionErrors (nodes : List WorkflowNode) (edges : List WorkflowEdge) (node : WorkflowNode) (c : IfCondition) :
    List ValidationIssue :=
  if (nodeById nodes c.upstreamNodeId).isNone then
    [issue "if_upstream_unknown" "if condition references an unknown upstream node" node.id]
  else
    (if c.upstreamNodeId ∉ transitivePredecessors node.id edges then
      [issue "if_upstream_not_predecessor" "if condition must reference a transitive predecessor" node.id]
    else issueIf (!(dominators nodes edges node.id).contains c.upstreamNodeId)
      (issue "if_upstream_not_dominating" "if condition upstream must be completed on every path to the if node"
        node.id)) ++
    operandErrors node c

/-- The conditions of the if nodes. -/
def conditionErrors (nodes : List WorkflowNode) (edges : List WorkflowEdge) : List ValidationIssue :=
  (nodes.filter (·.nodeType = .ifNode)).flatMap fun node =>
    match node.ifCondition with
    | none => []
    | some c => ifConditionErrors nodes edges node c

/-! ## The complete graph -/

/-- `_validate_complete_graph`. -/
def completeGraphErrors (nodes : List WorkflowNode) (edges : List WorkflowEdge) : List ValidationIssue :=
  let inputs := nodes.filter (·.nodeType = .input)
  let outputs := nodes.filter (·.nodeType = .output)
  issueIf (inputs.length ≠ 1) (issue "input_count" "workflow requires exactly one input node") ++
  issueIf (outputs.length ≠ 1) (issue "output_count" "workflow requires exactly one output node") ++
  (match inputs with
    | [input] => issueIf (!(incoming edges input.id).isEmpty)
        (issue "input_has_incoming" "input node cannot have incoming edges" input.id)
    | _ => []) ++
  (match outputs with
    | [output] => issueIf (!(outgoing edges output.id).isEmpty)
        (issue "output_has_outgoing" "output node cannot have outgoing edges" output.id)
    | _ => []) ++
  nodes.flatMap (fun node =>
    issueIf (node.nodeType ≠ .output && (outgoing edges node.id).isEmpty)
      (issue "dead_end_node" "every non-output node requires an outgoing edge" node.id) ++
    issueIf (1 < nodes.length && (incoming edges node.id).isEmpty && (outgoing edges node.id).isEmpty)
      (issue "isolated_node" "complete workflow cannot contain isolated nodes" node.id)) ++
  match inputs with
  | [input] =>
    if (nodeIds nodes).Nodup then
      ((sortedIds (nodeIds nodes)).filter (· ∉ reachable input.id edges)).map fun id =>
        issue "unreachable_node" "node is not reachable from input" (some id)
    else []
  | _ => []

/-! ## The validator -/

/-- The size checks. -/
def sizeErrors (graph : AuthorGraph) : List ValidationIssue :=
  issueIf (maxAuthorNodes < graph.nodes.length) (issue "graph_too_many_nodes" "author graph exceeds 100 nodes") ++
  issueIf (maxAuthorEdges < graph.edges.length) (issue "graph_too_many_edges" "author graph exceeds 300 edges") ++
  issueIf (maxAuthorGraphBytes < (canonicalJson graph.dump).length)
    (issue "graph_too_large" "author graph canonical JSON exceeds 2 MiB")

def duplicateErrors (graph : AuthorGraph) : List ValidationIssue :=
  (duplicates (nodeIds graph.nodes)).map
    (fun id => issue "duplicate_node_id" ("duplicate node id: " ++ id) (some id)) ++
  (duplicates (graph.edges.map WorkflowEdge.id)).map
    (fun id => issue "duplicate_edge_id" ("duplicate edge id: " ++ id) none (some id))

/-- The errors of `validate`. -/
def errors (V : DraftValidator) (graph : AuthorGraph) (requireComplete : Bool) : List ValidationIssue :=
  let edges := validEdges graph.nodes graph.edges
  sizeErrors graph ++ duplicateErrors graph ++ (byNodeId graph.nodes).flatMap V.nodeErrors ++
  (byEdgeId graph.edges).flatMap (edgeErrors graph.nodes) ++ conditionErrors graph.nodes edges ++
  ifBranchErrors graph.nodes edges ++
  issueIf ((nodeIds graph.nodes).Nodup && containsCycle graph.nodes edges)
    (issue "graph_cycle" "Demo workflows must be acyclic") ++
  if requireComplete then completeGraphErrors graph.nodes edges else []

/-- `validate`. -/
def validate (V : DraftValidator) (graph : AuthorGraph) (requireComplete : Bool) : Except Failure ValidationReport := do
  checkIssues (V.errors graph requireComplete)
  pure
    { errors := V.errors graph requireComplete
      warnings := if !requireComplete && graph.nodes.isEmpty then [issue "draft_empty" "draft has no nodes"] else [] }

end DraftValidator

end AgentHub
