import Mathlib.Data.String.Basic
/-!
# The frozen contracts

The enumerations and graph models the other modules share, with the text each
enumeration is stored and reported as. Author and compiled graphs use one node and one
edge shape; the compiler-only fields are `none` on author nodes.
-/

namespace AgentHub

/-! ## Enumerations -/

inductive RiskLevel where
  | l0 | l1 | l2 | l3 | l4
  deriving DecidableEq, Repr

def RiskLevel.value : RiskLevel → String
  | .l0 => "L0" | .l1 => "L1" | .l2 => "L2" | .l3 => "L3" | .l4 => "L4"

/-- The position in the enumeration, which is the order of the levels. -/
def RiskLevel.index : RiskLevel → Nat
  | .l0 => 0 | .l1 => 1 | .l2 => 2 | .l3 => 3 | .l4 => 4

inductive SessionStatus where
  | active | blocked | archived
  deriving DecidableEq, Repr

inductive PrivilegeAction where
  | editDependencyManifest | editProjectConfig
  deriving DecidableEq, Repr

def PrivilegeAction.value : PrivilegeAction → String
  | .editDependencyManifest => "edit_dependency_manifest" | .editProjectConfig => "edit_project_config"

inductive NodeType where
  | input | agentTask | contextBuilder | patchGuard | commandGuard | test | riskClassifier | approval
  | mergePatch | output | ifNode
  deriving DecidableEq, Repr

def NodeType.value : NodeType → String
  | .input => "input" | .agentTask => "agent_task" | .contextBuilder => "context_builder"
  | .patchGuard => "patch_guard" | .commandGuard => "command_guard" | .test => "test"
  | .riskClassifier => "risk_classifier" | .approval => "approval" | .mergePatch => "merge_patch"
  | .output => "output" | .ifNode => "if"

inductive TaskKind where
  | analyze | implement | review | docs | testFix
  deriving DecidableEq, Repr

def TaskKind.value : TaskKind → String
  | .analyze => "analyze" | .implement => "implement" | .review => "review" | .docs => "docs"
  | .testFix => "test_fix"

inductive TestKind where
  | command | docsStatic
  deriving DecidableEq, Repr

inductive IfOperator where
  | eq | ne | isIn | isTrue | isFalse
  deriving DecidableEq, Repr

def IfOperator.value : IfOperator → String
  | .eq => "eq" | .ne => "ne" | .isIn => "in" | .isTrue => "is_true" | .isFalse => "is_false"

inductive AssignmentMode where
  | auto | manual | locked
  deriving DecidableEq, Repr

inductive NodeRunStatus where
  | pending | ready | running | waitingApproval | blockedByGuard | failed | completed | skipped
  | superseded | cancelled | orphaned
  deriving DecidableEq, Repr

def NodeRunStatus.value : NodeRunStatus → String
  | .pending => "pending" | .ready => "ready" | .running => "running"
  | .waitingApproval => "waiting_approval" | .blockedByGuard => "blocked_by_guard"
  | .failed => "failed" | .completed => "completed" | .skipped => "skipped"
  | .superseded => "superseded" | .cancelled => "cancelled" | .orphaned => "orphaned"

inductive WorkflowRunStatus where
  | pending | running | waitingApproval | paused | blocked | failed | completed | cancelled | orphaned
  deriving DecidableEq, Repr

inductive TaskStatus where
  | pending | running | succeeded | privilegeRequested | failed | timedOut | cancelled | blockedByGuard
  | parseFailed | orphaned
  deriving DecidableEq, Repr

def TaskStatus.value : TaskStatus → String
  | .pending => "pending" | .running => "running" | .succeeded => "succeeded"
  | .privilegeRequested => "privilege_requested" | .failed => "failed" | .timedOut => "timed_out"
  | .cancelled => "cancelled" | .blockedByGuard => "blocked_by_guard" | .parseFailed => "parse_failed"
  | .orphaned => "orphaned"

inductive NodeOutcome where
  | success | failure | matched | notMatched | approved | rejected | blocked | cancelled
  deriving DecidableEq, Repr

inductive EdgeCondition where
  | success | failure | matched | notMatched | approved | rejected
  deriving DecidableEq, Repr

def EdgeCondition.value : EdgeCondition → String
  | .success => "success" | .failure => "failure" | .matched => "matched"
  | .notMatched => "not_matched" | .approved => "approved" | .rejected => "rejected"

inductive ChangeSetStatus where
  | captured | guardPassed | guardRejected | testPassed | testFailed | policyRejected | pendingApproval
  | approved | rejected | cancelled | stale | merged | abandonedPartial | quarantined
  deriving DecidableEq, Repr

inductive ApprovalStatus where
  | pending | approved | rejected | expired | invalidated
  deriving DecidableEq, Repr

inductive ArtifactType where
  | log | console | diff | patch | report | testResult | runtimePolicy | changePreimage
  deriving DecidableEq, Repr

/-! ## Identifiers -/

/-- `^[A-Za-z0-9][A-Za-z0-9._:-]*$`, 1 to 128 characters. -/
def isEntityId (value : String) : Bool :=
  match value.toList with
  | [] => false
  | c :: cs => c.isAlphanum && cs.all (fun c => c.isAlphanum || "._:-".contains c) && cs.length < 128

/-- An entity id by the list of the characters that are allowed beside letters and digits. -/
theorem isEntityId_eq (id : String) :
    isEntityId id = match id.toList with
      | [] => false
      | c :: cs => c.isAlphanum && cs.all (fun c => c.isAlphanum || decide (c ∈ "._:-".toList)) && decide (cs.length < 128) := by
  unfold isEntityId
  cases id.toList with
  | nil => rfl
  | cons c cs => simp only [String.contains_char_eq]

/-! ## Workflow graphs -/

structure AgentRecommendation where
  agentId : String
  score : Nat
  reason : String
  deriving DecidableEq, Repr

/-- The operand of an if condition: nothing, one token, a truth value or a list. -/
inductive IfValue where
  | absent
  | token (s : String)
  | truth (b : Bool)
  | tokens (l : List String)
  deriving DecidableEq, Repr

structure IfCondition where
  upstreamNodeId : String
  field : String
  operator : IfOperator
  value : IfValue
  deriving DecidableEq, Repr

structure WorkflowNode where
  id : String
  nodeType : NodeType
  taskKind : Option TaskKind := none
  title : String
  description : Option String := none
  instruction : Option String := none
  assignedAgent : Option String := none
  assignmentMode : AssignmentMode := .auto
  resolvedAgentId : Option String := none
  resolvedAgentSpecSha256 : Option String := none
  recommendedAgents : List AgentRecommendation := []
  allowedFilesCandidate : List String := []
  newFilesCandidate : List String := []
  allowedCommandsCandidate : List (List String) := []
  effectiveAllowedFiles : Option (List String) := none
  effectiveNewFiles : Option (List String) := none
  effectiveAllowedCommands : Option (List (List String)) := none
  policyRiskFloor : Option RiskLevel := none
  requiresChangesetApproval : Option Bool := none
  testKind : Option TestKind := none
  testArgv : Option (List String) := none
  ifCondition : Option IfCondition := none
  riskLevelHint : RiskLevel := .l1
  requiresWrite : Bool := false
  systemManaged : Bool := false
  sourceNodeId : Option String := none
  systemRuleId : Option String := none
  deriving DecidableEq, Repr

structure WorkflowEdge where
  id : String
  fromNode : String
  toNode : String
  condition : EdgeCondition := .success
  systemManaged : Bool := false
  deriving DecidableEq, Repr

structure AuthorGraph where
  schemaVersion : String := "1"
  nodes : List WorkflowNode := []
  edges : List WorkflowEdge := []
  deriving DecidableEq, Repr

structure CompiledGraph where
  schemaVersion : String := "1"
  sourceAuthorHash : String
  integrationBaseCommit : String
  policyVersion : String
  agentCatalogSnapshotHash : String
  nodes : List WorkflowNode := []
  edges : List WorkflowEdge := []
  deriving DecidableEq, Repr

structure ValidationIssue where
  code : String
  message : String
  nodeId : Option String := none
  edgeId : Option String := none
  deriving DecidableEq, Repr

/-- The kinds of node only the compiler may add. -/
def NodeType.isSystem : NodeType → Bool
  | .patchGuard | .commandGuard | .test | .riskClassifier | .approval | .mergePatch => true
  | _ => false

end AgentHub
