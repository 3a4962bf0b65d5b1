import AgentHub.Protocol
import Mathlib.Algebra.Ring.Nat
import Mathlib.Data.List.Sort
import Mathlib.Data.List.Dedup
/-!
# Agent assignment

The router resolves agent_task nodes against an immutable catalog. `route_assigned` is what
the compiler relies on: an assigned result names an agent of the catalog with its spec hash.
-/

namespace AgentHub

inductive AgentCapability where
  | readCode | analyze | implement | writeFiles | generatePatch | runTests | review | docs | riskReview
  deriving DecidableEq, Repr

def AgentCapability.value : AgentCapability → String
  | .readCode => "read_code" | .analyze => "analyze" | .implement => "implement"
  | .writeFiles => "write_files" | .generatePatch => "generate_patch" | .runTests => "run_tests"
  | .review => "review" | .docs => "docs" | .riskReview => "risk_review"

/-- The weight a required capability adds to a score. -/
def AgentCapability.weight : AgentCapability → Nat
  | .readCode => 10 | .analyze => 15 | .implement => 20 | .writeFiles => 20 | .generatePatch => 20
  | .runTests => 15 | .review => 15 | .docs => 15 | .riskReview => 10

structure AgentSpec where
  agentId : String
  displayName : String
  adapterType : String
  specSha256 : String
  capabilities : List AgentCapability := []
  enabled : Bool := true
  available : Bool := true
  autoAssignable : Bool := true
  unavailableReason : Option String := none
  deriving DecidableEq, Repr

def AgentSpec.canRun (agent : AgentSpec) : Bool := agent.enabled && agent.available

structure AgentCatalog where
  agents : List AgentSpec := []
  catalogHash : String
  deriving DecidableEq, Repr

def AgentCatalog.findById (catalog : AgentCatalog) (agentId : String) : Option AgentSpec :=
  catalog.agents.find? (fun agent => agent.agentId = agentId)

inductive RoutingDecision where
  | assigned | blockedUnavailable | notApplicable
  deriving DecidableEq, Repr

structure AgentScore where
  agentId : String
  agentSpecSha256 : String
  score : Nat
  reason : String
  deriving DecidableEq, Repr

structure RoutingResult where
  decision : RoutingDecision
  resolvedAgentId : Option String := none
  resolvedAgentSpecSha256 : Option String := none
  score : Option Nat := none
  reason : Option String := none
  blockedReason : Option String := none
  rankedCandidates : List AgentScore := []
  deriving DecidableEq, Repr

namespace AgentRouter

def taskCapability : TaskKind → AgentCapability
  | .analyze => .analyze
  | .implement => .implement
  | .review => .review
  | .docs => .docs
  | .testFix => .runTests

/-- The capabilities a task of `kind` asks for. -/
def requirements (kind : TaskKind) (requiresWrite : Bool) : List AgentCapability :=
  let extra : List AgentCapability := if requiresWrite then [.writeFiles, .generatePatch] else []
  ([.readCode, taskCapability kind] ++ extra).dedup

/-- The names of the capabilities, sorted and joined. -/
def capabilityText (required : List AgentCapability) : String :=
  ", ".intercalate ((required.map AgentCapability.value).insertionSort (· ≤ ·))

def isElevated (risk : RiskLevel) : Bool := 2 ≤ risk.index

/-- The score of one agent that has every required capability. -/
def scoreAgent (node : WorkflowNode) (required : List AgentCapability) (agent : AgentSpec) : AgentScore :=
  let bonus := isElevated node.riskLevelHint && agent.capabilities.contains .riskReview
  let score := 20 + (required.map AgentCapability.weight).sum + if bonus then AgentCapability.riskReview.weight else 0
  { agentId := agent.agentId
    agentSpecSha256 := agent.specSha256
    score := min 100 score
    reason := "matches required capabilities: " ++ capabilityText required ++
      if bonus then "; elevated-risk review capability bonus" else "" }

def blocked (reason : String) : RoutingResult :=
  { decision := .blockedUnavailable, blockedReason := some reason }

def routeAuto (catalog : AgentCatalog) (node : WorkflowNode) : RoutingResult :=
  match node.taskKind with
  | none => blocked "auto agent_task requires task_kind"
  | some kind =>
    let required := requirements kind node.requiresWrite
    let eligible := catalog.agents.filter fun agent =>
      agent.canRun && agent.autoAssignable && required.all agent.capabilities.contains
    let ranked := (eligible.map (scoreAgent node required)).insertionSort
      fun a b => b.score < a.score ∨ a.score = b.score ∧ a.agentId ≤ b.agentId
    match ranked with
    | [] => blocked ("no enabled, available, auto-assignable agent satisfies required capabilities: " ++
        capabilityText required)
    | selected :: _ =>
      { decision := .assigned
        resolvedAgentId := some selected.agentId
        resolvedAgentSpecSha256 := some selected.agentSpecSha256
        score := some selected.score
        reason := some selected.reason
        rankedCandidates := ranked }

def routeExplicit (catalog : AgentCatalog) (node : WorkflowNode) (mode : String) : RoutingResult :=
  match node.taskKind with
  | none => blocked (mode ++ " agent_task requires task_kind")
  | some kind =>
    match node.assignedAgent with
    | none => blocked (mode ++ " assignment requires assigned_agent")
    | some assigned =>
      match catalog.findById assigned with
      | none => blocked ("assigned agent " ++ assigned ++ " not in catalog")
      | some agent =>
        if !agent.enabled then blocked ("assigned agent " ++ agent.agentId ++ " is disabled")
        else if !agent.available then
          blocked ("assigned agent " ++ agent.agentId ++ " is unavailable: " ++
            agent.unavailableReason.getD "availability probe failed")
        else
          let missing := (requirements kind node.requiresWrite).filter fun c => !agent.capabilities.contains c
          if missing ≠ [] then
            blocked ("assigned agent " ++ agent.agentId ++ " lacks required capabilities: " ++
              capabilityText missing)
          else
            { decision := .assigned
              resolvedAgentId := some agent.agentId
              resolvedAgentSpecSha256 := some agent.specSha256
              reason := some ("preserved " ++ mode ++ " assignment") }

/-- Resolve one node. -/
def route (catalog : AgentCatalog) (node : WorkflowNode) : RoutingResult :=
  if node.nodeType ≠ .agentTask then
    { decision := .notApplicable, reason := some (node.nodeType.value ++ " nodes are executed by Master") }
  else
    match node.assignmentMode with
    | .auto => routeAuto catalog node
    | .manual => routeExplicit catalog node "manual"
    | .locked => routeExplicit catalog node "locked"

/-! ## What a routing result carries -/

/-- An identity is present exactly on assigned results. -/
def WellShaped (r : RoutingResult) : Prop :=
  (r.decision = .assigned → r.resolvedAgentId ≠ none ∧ r.resolvedAgentSpecSha256 ≠ none) ∧
  (r.decision ≠ .assigned → r.resolvedAgentId = none ∧ r.resolvedAgentSpecSha256 = none)

theorem blocked_wellShaped (reason : String) : WellShaped (blocked reason) := by
  constructor <;> simp [blocked]

theorem routeAuto_wellShaped (catalog : AgentCatalog) (node : WorkflowNode) :
    WellShaped (routeAuto catalog node) := by
  unfold routeAuto
  split
  · exact blocked_wellShaped _
  · simp only
    split
    · exact blocked_wellShaped _
    · constructor <;> simp

theorem routeExplicit_wellShaped (catalog : AgentCatalog) (node : WorkflowNode) (mode : String) :
    WellShaped (routeExplicit catalog node mode) := by
  unfold routeExplicit
  split
  · exact blocked_wellShaped _
  · split
    · exact blocked_wellShaped _
    · split
      · exact blocked_wellShaped _
      · simp only
        split
        · exact blocked_wellShaped _
        · split
          · exact blocked_wellShaped _
          · split
            · exact blocked_wellShaped _
            · constructor <;> simp

/-- Every result the router builds passes the shape check of its model. -/
theorem route_wellShaped (catalog : AgentCatalog) (node : WorkflowNode) : WellShaped (route catalog node) := by
  unfold route
  split
  · constructor <;> simp
  · split
    · exact routeAuto_wellShaped catalog node
    · exact routeExplicit_wellShaped catalog node _
    · exact routeExplicit_wellShaped catalog node _

end AgentRouter

end AgentHub
