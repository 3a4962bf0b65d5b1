import AgentHub.Lib.JsonSize
import AgentHub.Workflow.Graph
import AgentHub.Workspace.Files
/-!
# Canonical graphs

The canonical form of an author graph, in which the lists that stand for sets are sorted, and the canonical JSON text of
the graphs, which is hashed. The contracts of a graph have no floats.
-/

namespace AgentHub

open Lib Workspace

def AssignmentMode.value : AssignmentMode → String
  | .auto => "auto" | .manual => "manual" | .locked => "locked"

def TestKind.value : TestKind → String
  | .command => "command" | .docsStatic => "docs_static"

/-! ## Canonical order -/

/-- `normalize_command_templates`. -/
def normalizeCommandTemplates (commands : List (List String)) : List (List String) := commands.eraseDups

/-- The order of `(item.agent_id, -item.score, item.reason)`. -/
def recommendationBefore (a b : AgentRecommendation) : Prop :=
  a.agentId < b.agentId ∨ a.agentId = b.agentId ∧ (b.score < a.score ∨ a.score = b.score ∧ a.reason ≤ b.reason)

instance : DecidableRel recommendationBefore := fun _ _ => inferInstanceAs (Decidable (_ ∨ _))

/-- The condition with the operands of `in` sorted and without repetitions. -/
def normalizeCondition (c : IfCondition) : IfCondition :=
  match c.operator, c.value with
  | .isIn, .tokens values => { c with value := .tokens (sortedSet values) }
  | _, _ => c

def normalizeNode (node : WorkflowNode) : WorkflowNode :=
  { node with
    ifCondition := node.ifCondition.map normalizeCondition
    recommendedAgents := node.recommendedAgents.insertionSort recommendationBefore
    allowedFilesCandidate := sorted node.allowedFilesCandidate
    newFilesCandidate := sorted node.newFilesCandidate }

/-- `normalize_author_graph`. -/
def normalizeAuthorGraph (graph : AuthorGraph) : AuthorGraph :=
  { schemaVersion := graph.schemaVersion
    nodes := byNodeId (graph.nodes.map normalizeNode)
    edges := byEdgeId graph.edges }

/-! ## Canonical JSON -/

/-- The values of the contracts without floats. -/
abbrev Plain : Type := Lib.Json Empty

def noFloats : FloatText Empty := ⟨nofun, fun _ => none⟩

theorem noFloats_lawful : noFloats.Lawful where
  ne_nil := nofun
  isNumber := nofun
  notInteger := nofun
  read_write := nofun

/-- A JSON object with its keys sorted. -/
def record (fields : List (String × Plain)) : Plain := .obj (fields.insertionSort fun a b => a.1 ≤ b.1)

def optional {α : Type} (dump : α → Plain) : Option α → Plain
  | none => .null
  | some a => dump a

def listOf {α : Type} (dump : α → Plain) (l : List α) : Plain := .arr (l.map dump)

def dumpCommands (commands : List (List String)) : Plain := listOf (listOf .str) commands

def AgentRecommendation.dump (r : AgentRecommendation) : Plain :=
  record [("agent_id", .str r.agentId), ("score", .int r.score), ("reason", .str r.reason)]

def IfValue.dump : IfValue → Plain
  | .absent => .null
  | .token s => .str s
  | .truth b => .bool b
  | .tokens l => listOf .str l

def IfCondition.dump (c : IfCondition) : Plain :=
  record [("upstream_node_id", .str c.upstreamNodeId), ("field", .str c.field), ("operator", .str c.operator.value),
    ("value", c.value.dump)]

def WorkflowNode.dump (n : WorkflowNode) : Plain :=
  record [
    ("id", .str n.id), ("node_type", .str n.nodeType.value), ("task_kind", optional (.str ·.value) n.taskKind),
    ("title", .str n.title), ("description", optional .str n.description), ("instruction", optional .str n.instruction),
    ("assigned_agent", optional .str n.assignedAgent), ("assignment_mode", .str n.assignmentMode.value),
    ("resolved_agent_id", optional .str n.resolvedAgentId),
    ("resolved_agent_spec_sha256", optional .str n.resolvedAgentSpecSha256),
    ("recommended_agents", listOf (·.dump) n.recommendedAgents),
    ("allowed_files_candidate", listOf .str n.allowedFilesCandidate),
    ("new_files_candidate", listOf .str n.newFilesCandidate),
    ("allowed_commands_candidate", dumpCommands n.allowedCommandsCandidate),
    ("effective_allowed_files", optional (listOf .str) n.effectiveAllowedFiles),
    ("effective_new_files", optional (listOf .str) n.effectiveNewFiles),
    ("effective_allowed_commands", optional dumpCommands n.effectiveAllowedCommands),
    ("policy_risk_floor", optional (.str ·.value) n.policyRiskFloor),
    ("requires_changeset_approval", optional .bool n.requiresChangesetApproval),
    ("test_kind", optional (.str ·.value) n.testKind), ("test_argv", optional (listOf .str) n.testArgv),
    ("if_condition", optional (·.dump) n.ifCondition), ("risk_level_hint", .str n.riskLevelHint.value),
    ("requires_write", .bool n.requiresWrite), ("system_managed", .bool n.systemManaged),
    ("source_node_id", optional .str n.sourceNodeId), ("system_rule_id", optional .str n.systemRuleId)]

def WorkflowEdge.dump (e : WorkflowEdge) : Plain :=
  record [("id", .str e.id), ("from_node", .str e.fromNode), ("to_node", .str e.toNode),
    ("condition", .str e.condition.value), ("system_managed", .bool e.systemManaged)]

def AuthorGraph.dump (g : AuthorGraph) : Plain :=
  record [("schema_version", .str g.schemaVersion), ("nodes", listOf (·.dump) g.nodes), ("edges", listOf (·.dump) g.edges)]

def CompiledGraph.dump (g : CompiledGraph) : Plain :=
  record [("schema_version", .str g.schemaVersion), ("source_author_hash", .str g.sourceAuthorHash),
    ("integration_base_commit", .str g.integrationBaseCommit), ("policy_version", .str g.policyVersion),
    ("agent_catalog_snapshot_hash", .str g.agentCatalogSnapshotHash), ("nodes", listOf (·.dump) g.nodes),
    ("edges", listOf (·.dump) g.edges)]

/-- `canonical_json`. -/
def canonicalJson (value : Plain) : Bytes := utf8 (String.ofList (Json.write noFloats value))

/-! ## Lengths -/

theorem utf8_inj {a b : String} : utf8 a = utf8 b ↔ a = b := by
  constructor
  · intro h
    have harray : a.toUTF8.data = b.toUTF8.data := Array.toList_inj.1 h
    exact String.toByteArray_inj.1 (ByteArray.ext harray)
  · rintro rfl
    rfl

theorem length_utf8_ofList (l : List Char) : (utf8 (String.ofList l)).length = Json.octets l := by
  have hsize : (utf8 (String.ofList l)).length = (String.ofList l).utf8ByteSize := by
    rw [utf8, Array.length_toList]
    rfl
  rw [hsize]
  clear hsize
  induction l with
  | nil => simp
  | cons c l ih =>
    rw [String.ofList_cons, String.utf8ByteSize_append, String.utf8ByteSize_singleton, Json.octets_cons, ih]

theorem length_utf8_ofList_le (l : List Char) : (utf8 (String.ofList l)).length ≤ 4 * l.length := by
  rw [length_utf8_ofList]
  induction l with
  | nil => simp
  | cons c l ih =>
    have := Char.utf8Size_le_four c
    rw [Json.octets_cons, List.length_cons]
    omega

theorem length_canonicalJson (value : Plain) : (canonicalJson value).length = Json.size noFloats value :=
  length_utf8_ofList _

theorem size_record (fields : List (String × Plain)) : Json.size noFloats (record fields) = Json.size noFloats (.obj fields) :=
  Json.size_obj_perm (List.perm_insertionSort _ fields)

theorem length_canonicalJson_le (value : Plain) : (canonicalJson value).length ≤ 4 * Json.width noFloats value := by
  have hbytes := length_utf8_ofList_le (Json.write noFloats value)
  have htext := Json.length_write_le noFloats value
  rw [canonicalJson]
  omega

@[simp] theorem width_record (fields : List (String × Plain)) :
    Json.width noFloats (record fields) = Json.widthFields noFloats fields + 2 := by
  rw [record, Json.width, Json.widthFields_perm noFloats (List.perm_insertionSort _ fields)]

end AgentHub
