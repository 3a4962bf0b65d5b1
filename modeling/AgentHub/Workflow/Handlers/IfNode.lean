import AgentHub.Storage.Runs.Attempts
import AgentHub.Workflow.Handlers.MergePatch
/-!
# The if handler

`IfNodeHandler.execute` and what the executor hands it: the node of the snapshot, and of the upstream node the row that
comes last in the list of node runs. The values a condition compares are those of its operand: a token, a truth value,
or nothing.
-/

namespace AgentHub

open Lib WorkflowRunRepository

def NodeOutcome.value : NodeOutcome → String
  | .success => "success" | .failure => "failure" | .matched => "matched" | .notMatched => "not_matched"
  | .approved => "approved" | .rejected => "rejected" | .blocked => "blocked" | .cancelled => "cancelled"

/-! ## The handler -/

/-- What the handler reads of its context. -/
structure IfContext where
  snapshot : CompiledGraph
  node : WorkflowNode
  conditionUpstream : Option NodeRunRow

namespace IfNodeHandler

/-- `_failed`. -/
def failed (code summary : String) : NodeHandlerResult := ⟨.failed, .failure, summary, [], some code⟩

/-- `_evaluate`, or the text of its `TypeError`. -/
def evaluate (actual : IfValue) (operator : IfOperator) (expected : IfValue) : Except String Bool :=
  match operator with
  | .eq => .ok (actual = expected)
  | .ne => .ok (actual ≠ expected)
  | .isIn =>
    match expected with
    | .tokens l => .ok (l.any fun t => actual = .token t)
    | _ => .error "in operator requires a list"
  | .isTrue =>
    match actual with
    | .truth b => .ok b
    | _ => .error "is_true requires a bool"
  | .isFalse =>
    match actual with
    | .truth b => .ok (!b)
    | _ => .error "is_false requires a bool"

/-- The value of the field, or why there is none. -/
def actual (snapshot : CompiledGraph) (c : IfCondition) (upstream : NodeRunRow) : Except String IfValue :=
  if c.field = "status" then .ok (.token upstream.status.value)
  else if c.field = "outcome" then
    match upstream.outcome with
    | some outcome => .ok (.token outcome.value)
    | none => .ok .absent
  else if c.field = "effective_risk" then
    match (snapshot.nodes.find? fun n => n.id = c.upstreamNodeId).bind WorkflowNode.policyRiskFloor with
    | some level => .ok (.token level.value)
    | none => .error "The referenced node has no frozen effective risk."
  else if c.field = "tests_passed" then
    if upstream.nodeType ≠ .test then .error "tests_passed is only available for a test node."
    else .ok (.truth (upstream.status = .completed && upstream.outcome = some .success))
  else .error ("If field " ++ c.field ++ " is not available in HUB-110.")

def completed (matched : Bool) : NodeHandlerResult :=
  let outcome : NodeOutcome := if matched then .matched else .notMatched
  ⟨.completed, outcome, "Condition evaluated to " ++ outcome.value ++ ".", [], none⟩

/-- `execute`. -/
def execute (context : IfContext) : NodeHandlerResult :=
  match context.node.ifCondition with
  | none => failed "if_condition_missing" "If node has no structured condition."
  | some c =>
    match context.conditionUpstream with
    | none => failed "if_upstream_missing" "If condition upstream result is unavailable."
    | some upstream =>
      match actual context.snapshot c upstream with
      | .error summary => failed "if_field_unavailable" summary
      | .ok value =>
        match evaluate value c.operator c.value with
        | .error _ => failed "if_evaluation_failed" "Structured condition could not be evaluated."
        | .ok matched => completed matched

end IfNodeHandler

/-! ## The executor -/

/-- `ORDER BY node_id, attempt` -/
def rowBefore (a b : NodeRunRow) : Prop := a.nodeId < b.nodeId ∨ a.nodeId = b.nodeId ∧ a.attempt ≤ b.attempt

instance : DecidableRel rowBefore := fun _ _ => inferInstanceAs (Decidable (_ ∨ _))

/-- `list_nodes`. -/
def listNodes (rows : List NodeRunRow) : List NodeRunRow := rows.insertionSort rowBefore

namespace GraphExecutor

/-- `condition_upstream`. -/
def conditionUpstream (s : RunState) (upstreamNodeId : String) : Option NodeRunRow :=
  byNode (listNodes s.rows) upstreamNodeId

/-- What `execute_claimed` makes of a claimed node run of an if node. -/
def executeIf (s : RunState) (claimed : NodeRunRow) : NodeHandlerResult :=
  match s.run.compiledSnapshot.nodes.find? fun n => n.id = claimed.nodeId with
  | none => IfNodeHandler.failed "snapshot_node_missing" "Claimed node is missing from immutable snapshot."
  | some node =>
    IfNodeHandler.execute
      ⟨s.run.compiledSnapshot, node, node.ifCondition.bind fun c => conditionUpstream s c.upstreamNodeId⟩

end GraphExecutor

/-! ## What a condition says -/

/-- The value an upstream node run has for a field: its status, its outcome, the risk frozen in its node, and of a test
whether it passed. -/
inductive Reads (snapshot : CompiledGraph) (upstream : NodeRunRow) : String → IfValue → Prop
  | status : Reads snapshot upstream "status" (.token upstream.status.value)
  | outcome {o : NodeOutcome} (h : upstream.outcome = some o) : Reads snapshot upstream "outcome" (.token o.value)
  | noOutcome (h : upstream.outcome = none) : Reads snapshot upstream "outcome" .absent
  | risk {n : WorkflowNode} {level : RiskLevel} (hn : n ∈ snapshot.nodes) (hid : n.id = upstream.nodeId)
      (hfloor : n.policyRiskFloor = some level) : Reads snapshot upstream "effective_risk" (.token level.value)
  | tests (htest : upstream.nodeType = .test) {passed : Bool}
      (h : passed = true ↔ upstream.status = .completed ∧ upstream.outcome = some .success) :
      Reads snapshot upstream "tests_passed" (.truth passed)

/-- A value satisfies an operator with an operand. -/
def Satisfies (value : IfValue) (expected : IfValue) : IfOperator → Prop
  | .eq => value = expected
  | .ne => value ≠ expected
  | .isIn => ∃ l, expected = .tokens l ∧ ∃ t ∈ l, value = .token t
  | .isTrue => value = .truth true
  | .isFalse => value = .truth false

/-- The condition holds of the upstream node run. -/
def IfCondition.Holds (c : IfCondition) (snapshot : CompiledGraph) (upstream : NodeRunRow) : Prop :=
  ∃ value, Reads snapshot upstream c.field value ∧ Satisfies value c.value c.operator

/-- The result decides the condition. -/
structure NodeHandlerResult.Decides (result : NodeHandlerResult) (c : IfCondition) (snapshot : CompiledGraph)
    (upstream : NodeRunRow) : Prop where
  status : result.status = .completed
  outcome : (result.outcome = .matched ∧ c.Holds snapshot upstream) ∨
    (result.outcome = .notMatched ∧ ¬ c.Holds snapshot upstream)

end AgentHub
