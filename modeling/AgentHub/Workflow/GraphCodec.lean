import AgentHub.Lib.Codec
import AgentHub.Workflow.Reordering
import AgentHub.Workspace.ChangeSet
/-!
# Graphs as stored texts

The contracts of the graphs as codecs: every field with its bounds and its default, as the models declare them. A graph
is stored as the canonical JSON of its normal form, and a row is read by validating that text. What is read is what was
stored, and storing it again changes no byte (`stored_graph_stable`).
-/

namespace AgentHub

open Lib Workspace

/-! ## Scalars -/

namespace Contracts

variable {φ α : Type}

/-- A string with `min_length` and `max_length`, in code points. -/
def text (least most : Nat) : Codec φ String := Codec.str.guard fun s => least ≤ s.length && s.length ≤ most

/-- A list with `min_length` and `max_length`. -/
def listed (least most : Nat) (c : Codec φ α) : Codec φ (List α) :=
  c.list.guard fun l => least ≤ l.length && l.length ≤ most

theorem listed_nil (most : Nat) (c : Codec φ α) : (listed 0 most c).Valid [] := ⟨List.forall_mem_nil _, rfl⟩

theorem listed_perm {c : Codec φ α} {least most : Nat} {l l' : List α} (hperm : l.Perm l') (h : (listed least most c).Valid l) :
    (listed least most c).Valid l' := by
  refine ⟨fun a ha => h.1 a (hperm.mem_iff.2 ha), ?_⟩
  dsimp only
  rw [← hperm.length_eq]
  exact h.2

/-- `^[0-9a-f]{40}([0-9a-f]{24})?$`. -/
def isGitObjectId (value : String) : Bool :=
  (value.length = 40 || value.length = 64) && value.toList.all fun c => c.isDigit || ('a' ≤ c && c ≤ 'f')

def entityId : Codec φ String := Codec.str.guard isEntityId

def sha256Hex : Codec φ String := Codec.str.guard Workspace.isSha256Hex

def gitObjectId : Codec φ String := Codec.str.guard isGitObjectId

def repoRelativePath : Codec φ String := text 1 1024

def argvToken : Codec φ String := text 1 4096

def commandTemplate : Codec φ (List String) := listed 1 64 argvToken

def ifValueToken : Codec φ String := text 1 256

def ifValueList : Codec φ (List String) := listed 1 50 ifValueToken

def titleText : Codec φ String := text 1 500

def instructionText : Codec φ String := text 1 20000

def shortReasonText : Codec φ String := text 0 1000

def descriptionText : Codec φ String := text 0 4000

/-! ## Enumerations -/

def riskLevel : Codec φ RiskLevel :=
  .enum RiskLevel.value [.l0, .l1, .l2, .l3, .l4] (by rintro ⟨⟩ <;> decide) (by decide)

def nodeType : Codec φ NodeType :=
  .enum NodeType.value [.input, .agentTask, .contextBuilder, .patchGuard, .commandGuard, .test, .riskClassifier, .approval,
    .mergePatch, .output, .ifNode] (by rintro ⟨⟩ <;> decide) (by decide)

def taskKind : Codec φ TaskKind :=
  .enum TaskKind.value [.analyze, .implement, .review, .docs, .testFix] (by rintro ⟨⟩ <;> decide) (by decide)

def testKind : Codec φ TestKind := .enum TestKind.value [.command, .docsStatic] (by rintro ⟨⟩ <;> decide) (by decide)

def ifOperator : Codec φ IfOperator :=
  .enum IfOperator.value [.eq, .ne, .isIn, .isTrue, .isFalse] (by rintro ⟨⟩ <;> decide) (by decide)

def assignmentMode : Codec φ AssignmentMode :=
  .enum AssignmentMode.value [.auto, .manual, .locked] (by rintro ⟨⟩ <;> decide) (by decide)

def edgeCondition : Codec φ EdgeCondition :=
  .enum EdgeCondition.value [.success, .failure, .matched, .notMatched, .approved, .rejected] (by rintro ⟨⟩ <;> decide)
    (by decide)

/-- A value or null, null when it is missing. -/
def orNull (c : Codec φ α) (hnull : c.load .null = none) (name : String) {τ : Type} (rest : Fields φ τ) :
    Fields φ (Option α × τ) :=
  .optional name (c.nullable hnull) none nofun rest

end Contracts

open Contracts

/-! ## The contracts -/

/-- The operands of a condition. -/
def operand : Codec Empty String := ifValueToken

def operands : Codec Empty (List String) := ifValueList

/-- The condition value: a token, a truth value, a list of tokens or null. -/
def IfValue.codec : Codec Empty IfValue where
  dump := IfValue.dump
  load
    | .null => some .absent
    | .bool b => some (.truth b)
    | .str s => (operand.load (.str s)).map .token
    | .arr items => (operands.load (.arr items)).map .tokens
    | _ => none
  Valid
    | .absent | .truth _ => True
    | .token s => operand.Valid s
    | .tokens l => operands.Valid l
  load_dump v h := by
    cases v with
    | absent => rfl
    | truth b => rfl
    | token s => exact congrArg (Option.map IfValue.token) (operand.load_dump s h)
    | tokens l => exact congrArg (Option.map IfValue.tokens) (operands.load_dump l h)
  valid_of_load j v h := by
    cases j with
    | null => cases h; trivial
    | bool b => cases h; trivial
    | str s =>
      obtain ⟨t, ht, rfl⟩ := Option.map_eq_some_iff.1 h
      exact operand.valid_of_load _ t ht
    | arr items =>
      obtain ⟨l, hl, rfl⟩ := Option.map_eq_some_iff.1 h
      exact operands.valid_of_load _ l hl
    | _ => cases h

def IfCondition.parts : IfCondition ≃ String × String × IfOperator × IfValue × Unit where
  toFun c := (c.upstreamNodeId, c.field, c.operator, c.value, ())
  invFun t := ⟨t.1, t.2.1, t.2.2.1, t.2.2.2.1⟩
  left_inv _ := rfl
  right_inv _ := rfl

def IfCondition.codec : Codec Empty IfCondition :=
  (Codec.object
    (.required "upstream_node_id" entityId
    <| .required "field" (Codec.str.guard fun f => f ∈ ["status", "outcome", "effective_risk", "tests_passed"])
    <| .required "operator" ifOperator
    <| .optional "value" IfValue.codec .absent trivial .nil) (by decide)).via parts

def AgentRecommendation.parts : AgentRecommendation ≃ String × Nat × String × Unit where
  toFun r := (r.agentId, r.score, r.reason, ())
  invFun t := ⟨t.1, t.2.1, t.2.2.1⟩
  left_inv _ := rfl
  right_inv _ := rfl

def AgentRecommendation.codec : Codec Empty AgentRecommendation :=
  (Codec.object
    (.required "agent_id" entityId
    <| .required "score" (Codec.nat.guard fun n => n ≤ 100)
    <| .required "reason" shortReasonText .nil) (by decide)).via parts

/-- The fields of a node, in the order the model declares them. -/
def nodeFields :=
  Fields.required "id" (entityId : Codec Empty String)
  <| .required "node_type" nodeType
  <| orNull taskKind rfl "task_kind"
  <| .required "title" titleText
  <| orNull descriptionText rfl "description"
  <| orNull instructionText rfl "instruction"
  <| orNull entityId rfl "assigned_agent"
  <| .optional "assignment_mode" assignmentMode .auto trivial
  <| orNull entityId rfl "resolved_agent_id"
  <| orNull sha256Hex rfl "resolved_agent_spec_sha256"
  <| .optional "recommended_agents" (listed 0 50 AgentRecommendation.codec) [] (listed_nil _ _)
  <| .optional "allowed_files_candidate" (listed 0 500 repoRelativePath) [] (listed_nil _ _)
  <| .optional "new_files_candidate" (listed 0 100 repoRelativePath) [] (listed_nil _ _)
  <| .optional "allowed_commands_candidate" (listed 0 50 commandTemplate) [] (listed_nil _ _)
  <| orNull (listed 0 100 repoRelativePath) rfl "effective_allowed_files"
  <| orNull (listed 0 100 repoRelativePath) rfl "effective_new_files"
  <| orNull (listed 0 20 commandTemplate) rfl "effective_allowed_commands"
  <| orNull riskLevel rfl "policy_risk_floor"
  <| orNull Codec.bool rfl "requires_changeset_approval"
  <| orNull testKind rfl "test_kind"
  <| orNull (listed 0 64 argvToken) rfl "test_argv"
  <| orNull IfCondition.codec rfl "if_condition"
  <| .optional "risk_level_hint" riskLevel .l1 trivial
  <| .optional "requires_write" Codec.bool false trivial
  <| .optional "system_managed" Codec.bool false trivial
  <| orNull entityId rfl "source_node_id"
  <| orNull entityId rfl "system_rule_id" .nil

def WorkflowNode.parts : WorkflowNode ≃ String × NodeType × Option TaskKind × String × Option String × Option String ×
    Option String × AssignmentMode × Option String × Option String × List AgentRecommendation × List String × List String ×
    List (List String) × Option (List String) × Option (List String) × Option (List (List String)) × Option RiskLevel ×
    Option Bool × Option TestKind × Option (List String) × Option IfCondition × RiskLevel × Bool × Bool × Option String ×
    Option String × Unit where
  toFun n := (n.id, n.nodeType, n.taskKind, n.title, n.description, n.instruction, n.assignedAgent, n.assignmentMode,
    n.resolvedAgentId, n.resolvedAgentSpecSha256, n.recommendedAgents, n.allowedFilesCandidate, n.newFilesCandidate,
    n.allowedCommandsCandidate, n.effectiveAllowedFiles, n.effectiveNewFiles, n.effectiveAllowedCommands, n.policyRiskFloor,
    n.requiresChangesetApproval, n.testKind, n.testArgv, n.ifCondition, n.riskLevelHint, n.requiresWrite, n.systemManaged,
    n.sourceNodeId, n.systemRuleId, ())
  invFun := fun (id, nodeType, taskKind, title, description, instruction, assignedAgent, assignmentMode, resolvedAgentId,
      resolvedAgentSpecSha256, recommendedAgents, allowedFilesCandidate, newFilesCandidate, allowedCommandsCandidate,
      effectiveAllowedFiles, effectiveNewFiles, effectiveAllowedCommands, policyRiskFloor, requiresChangesetApproval, testKind,
      testArgv, ifCondition, riskLevelHint, requiresWrite, systemManaged, sourceNodeId, systemRuleId, _) =>
    { id, nodeType, taskKind, title, description, instruction, assignedAgent, assignmentMode, resolvedAgentId,
      resolvedAgentSpecSha256, recommendedAgents, allowedFilesCandidate, newFilesCandidate, allowedCommandsCandidate,
      effectiveAllowedFiles, effectiveNewFiles, effectiveAllowedCommands, policyRiskFloor, requiresChangesetApproval, testKind,
      testArgv, ifCondition, riskLevelHint, requiresWrite, systemManaged, sourceNodeId, systemRuleId }
  left_inv _ := rfl
  right_inv _ := rfl

def WorkflowNode.codec : Codec Empty WorkflowNode := (Codec.object nodeFields (by decide)).via parts

def WorkflowEdge.parts : WorkflowEdge ≃ String × String × String × EdgeCondition × Bool × Unit where
  toFun e := (e.id, e.fromNode, e.toNode, e.condition, e.systemManaged, ())
  invFun t := ⟨t.1, t.2.1, t.2.2.1, t.2.2.2.1, t.2.2.2.2.1⟩
  left_inv _ := rfl
  right_inv _ := rfl

def WorkflowEdge.codec : Codec Empty WorkflowEdge :=
  (Codec.object
    (.required "id" entityId
    <| .required "from_node" entityId
    <| .required "to_node" entityId
    <| .optional "condition" edgeCondition .success trivial
    <| .optional "system_managed" Codec.bool false trivial .nil) (by decide)).via parts

def AuthorGraph.parts : AuthorGraph ≃ String × List WorkflowNode × List WorkflowEdge × Unit where
  toFun g := (g.schemaVersion, g.nodes, g.edges, ())
  invFun t := ⟨t.1, t.2.1, t.2.2.1⟩
  left_inv _ := rfl
  right_inv _ := rfl

def AuthorGraph.codec : Codec Empty AuthorGraph :=
  (Codec.object
    (.optional "schema_version" Codec.str "1" trivial
    <| .optional "nodes" (listed 0 100 WorkflowNode.codec) [] (listed_nil _ _)
    <| .optional "edges" (listed 0 300 WorkflowEdge.codec) [] (listed_nil _ _) .nil) (by decide)).via parts

def CompiledGraph.parts : CompiledGraph ≃ String × String × String × String × String × List WorkflowNode × List WorkflowEdge ×
    Unit where
  toFun g := (g.schemaVersion, g.sourceAuthorHash, g.integrationBaseCommit, g.policyVersion, g.agentCatalogSnapshotHash, g.nodes,
    g.edges, ())
  invFun t := ⟨t.1, t.2.1, t.2.2.1, t.2.2.2.1, t.2.2.2.2.1, t.2.2.2.2.2.1, t.2.2.2.2.2.2.1⟩
  left_inv _ := rfl
  right_inv _ := rfl

def CompiledGraph.codec : Codec Empty CompiledGraph :=
  (Codec.object
    (.optional "schema_version" Codec.str "1" trivial
    <| .required "source_author_hash" sha256Hex
    <| .required "integration_base_commit" gitObjectId
    <| .required "policy_version" (text 1 64)
    <| .required "agent_catalog_snapshot_hash" sha256Hex
    <| .optional "nodes" (listed 0 300 WorkflowNode.codec) [] (listed_nil _ _)
    <| .optional "edges" (listed 0 600 WorkflowEdge.codec) [] (listed_nil _ _) .nil) (by decide)).via parts

/-! ## Layouts -/

/-- The floats of a layout: their text, and which of them `ge=-1_000_000, le=1_000_000` admits. -/
structure Floats (φ : Type) where
  text : FloatText φ
  lawful : text.Lawful
  inRange : φ → Bool

structure NodePosition (φ : Type) where
  x : φ
  y : φ
  deriving DecidableEq

structure NodeLayout (φ : Type) where
  nodeId : String
  position : NodePosition φ
  deriving DecidableEq

/-- The canvas coordinates of an author graph. -/
structure WorkflowLayout (φ : Type) where
  nodes : List (NodeLayout φ) := []
  deriving DecidableEq

/-- `_normalize_layout`. -/
def normalizeLayout {φ : Type} (layout : WorkflowLayout φ) : WorkflowLayout φ :=
  ⟨layout.nodes.insertionSort fun a b => a.nodeId ≤ b.nodeId⟩

section
variable {φ : Type} (F : Floats φ)

def NodePosition.parts : NodePosition φ ≃ φ × φ × Unit where
  toFun p := (p.x, p.y, ())
  invFun t := ⟨t.1, t.2.1⟩
  left_inv _ := rfl
  right_inv _ := rfl

def NodePosition.codec : Codec φ (NodePosition φ) :=
  (Codec.object (.required "x" (Codec.float.guard F.inRange) <| .required "y" (Codec.float.guard F.inRange) .nil)
    (show ["x", "y"].Nodup by decide)).via parts

def NodeLayout.parts : NodeLayout φ ≃ String × NodePosition φ × Unit where
  toFun l := (l.nodeId, l.position, ())
  invFun t := ⟨t.1, t.2.1⟩
  left_inv _ := rfl
  right_inv _ := rfl

def NodeLayout.codec : Codec φ (NodeLayout φ) :=
  (Codec.object (.required "node_id" entityId <| .required "position" (NodePosition.codec F) .nil)
    (show ["node_id", "position"].Nodup by decide)).via parts

def WorkflowLayout.parts : WorkflowLayout φ ≃ List (NodeLayout φ) × Unit where
  toFun l := (l.nodes, ())
  invFun t := ⟨t.1⟩
  left_inv _ := rfl
  right_inv _ := rfl

def WorkflowLayout.codec : Codec φ (WorkflowLayout φ) :=
  (Codec.object (.optional "nodes" (listed 0 100 (NodeLayout.codec F)) [] (listed_nil _ _) .nil)
    (show ["nodes"].Nodup by decide)).via parts

variable {F}

theorem normalizeLayout_valid {layout : WorkflowLayout φ} (h : (WorkflowLayout.codec F).Valid layout) :
    (WorkflowLayout.codec F).Valid (normalizeLayout layout) :=
  ⟨listed_perm (List.perm_insertionSort _ _).symm h.1, h.2⟩

end

/-! ## Dumps -/

theorem IfCondition.codec_dump (c : IfCondition) : IfCondition.codec.dump c = c.dump := rfl

theorem AgentRecommendation.codec_dump (r : AgentRecommendation) : AgentRecommendation.codec.dump r = r.dump := rfl

theorem WorkflowNode.codec_dump (n : WorkflowNode) : WorkflowNode.codec.dump n = n.dump := rfl

theorem WorkflowEdge.codec_dump (e : WorkflowEdge) : WorkflowEdge.codec.dump e = e.dump := rfl

theorem AuthorGraph.codec_dump (g : AuthorGraph) : AuthorGraph.codec.dump g = g.dump := rfl

theorem CompiledGraph.codec_dump (g : CompiledGraph) : CompiledGraph.codec.dump g = g.dump := rfl

/-- The text a row stores: `canonical_json(...).decode("utf-8")`. -/
def canonicalText (value : Plain) : String := String.ofList (Json.write noFloats value)

theorem canonicalJson_eq (value : Plain) : canonicalJson value = utf8 (canonicalText value) := rfl

/-- `model_validate_json`. -/
def validateJson {α : Type} (c : Codec Empty α) (stored : String) : Option α := c.ofText noFloats stored

theorem validateJson_canonicalText {α : Type} {c : Codec Empty α} {a : α} (h : c.Valid a) :
    validateJson c (canonicalText (c.dump a)) = some a := Codec.ofText_toText noFloats_lawful h

/-- Admitted values with one canonical text are one value. -/
theorem eq_of_canonicalText {α : Type} {c : Codec Empty α} {a b : α} (ha : c.Valid a) (hb : c.Valid b)
    (h : canonicalText (c.dump a) = canonicalText (c.dump b)) : a = b := by
  have hread := validateJson_canonicalText ha
  rw [h, validateJson_canonicalText hb] at hread
  exact (Option.some.inj hread).symm

/-! ## Normal forms are admitted -/

theorem sortedSet_valid {φ : Type} {l : List String} (h : (ifValueList : Codec φ _).Valid l) :
    (ifValueList : Codec φ _).Valid (sortedSet l) := by
  have hperm : (sortedSet l).Perm l.dedup := List.perm_insertionSort _ _
  refine listed_perm hperm.symm ⟨fun a ha => h.1 a (List.mem_dedup.1 ha), ?_⟩
  have hbounds := h.2
  have hmost := (List.dedup_sublist l).length_le
  have hleast : 0 < l.length → 0 < l.dedup.length := by
    intro hpos
    obtain ⟨a, ha⟩ := List.exists_mem_of_length_pos hpos
    exact List.length_pos_of_mem (List.mem_dedup.2 ha)
  simp only [Bool.and_eq_true, decide_eq_true_eq] at hbounds ⊢
  omega

theorem normalizeCondition_valid {c : IfCondition} (h : IfCondition.codec.Valid c) :
    IfCondition.codec.Valid (normalizeCondition c) := by
  obtain ⟨upstream, field, operator, value⟩ := c
  obtain ⟨hupstream, hfield, hoperator, hvalue, hnil⟩ := h
  cases operator
  case isIn =>
    cases value with
    | tokens l => exact ⟨hupstream, hfield, hoperator, sortedSet_valid hvalue, hnil⟩
    | _ => exact ⟨hupstream, hfield, hoperator, hvalue, hnil⟩
  all_goals exact ⟨hupstream, hfield, hoperator, hvalue, hnil⟩

theorem normalizeNode_valid {n : WorkflowNode} (h : WorkflowNode.codec.Valid n) : WorkflowNode.codec.Valid (normalizeNode n) := by
  obtain ⟨hid, htype, hkind, htitle, hdescription, hinstruction, hagent, hmode, hresolved, hspec, hrecommended, hallowed, hnew,
    hcommands, heffective, heffectiveNew, heffectiveCommands, hfloor, happroval, htest, hargv, hcondition, hrest⟩ := h
  refine ⟨hid, htype, hkind, htitle, hdescription, hinstruction, hagent, hmode, hresolved, hspec,
    listed_perm (List.perm_insertionSort _ _).symm hrecommended, listed_perm (List.perm_insertionSort _ _).symm hallowed,
    listed_perm (List.perm_insertionSort _ _).symm hnew, hcommands, heffective, heffectiveNew, heffectiveCommands, hfloor,
    happroval, htest, hargv, fun c hc => ?_, hrest⟩
  obtain ⟨c', hc', rfl⟩ := Option.map_eq_some_iff.1 hc
  exact normalizeCondition_valid (hcondition c' hc')

theorem normalizeAuthorGraph_valid {g : AuthorGraph} (h : AuthorGraph.codec.Valid g) :
    AuthorGraph.codec.Valid (normalizeAuthorGraph g) := by
  obtain ⟨hversion, hnodes, hedges, hnil⟩ := h
  refine ⟨hversion, ?_, listed_perm (List.perm_insertionSort _ _).symm hedges, hnil⟩
  refine listed_perm (List.perm_insertionSort _ _).symm ⟨fun n hn => ?_, ?_⟩
  · obtain ⟨m, hm, rfl⟩ := List.mem_map.1 hn
    exact normalizeNode_valid (hnodes.1 m hm)
  · dsimp only
    rw [List.length_map]
    exact hnodes.2

/-- A normal form is in normal form. -/
theorem normalizeAuthorGraph_normalizeAuthorGraph (g : AuthorGraph) :
    normalizeAuthorGraph (normalizeAuthorGraph g) = normalizeAuthorGraph g := by
  have hnodes : (byNodeId (g.nodes.map normalizeNode)).map normalizeNode = byNodeId (g.nodes.map normalizeNode) := by
    refine (List.map_congr_left fun n hn => ?_).trans (List.map_id _)
    obtain ⟨m, -, rfl⟩ := List.mem_map.1 ((List.perm_insertionSort _ _).mem_iff.1 hn)
    exact normalizeNode_normalizeNode m
  have hsorted : ∀ l : List WorkflowNode, byNodeId (byNodeId l) = byNodeId l :=
    insertionSort_insertionSort (fun a b => le_total a.id b.id) fun _ _ _ => le_trans
  have hedges : ∀ l : List WorkflowEdge, byEdgeId (byEdgeId l) = byEdgeId l :=
    insertionSort_insertionSort (fun a b => le_total a.id b.id) fun _ _ _ => le_trans
  simp only [normalizeAuthorGraph, hnodes, hsorted, hedges]

/-! ## Stored graphs -/

theorem AuthorGraph.validate_stored {g : AuthorGraph} (h : AuthorGraph.codec.Valid g) :
    validateJson AuthorGraph.codec (canonicalText g.dump) = some g := by
  rw [← AuthorGraph.codec_dump]
  exact validateJson_canonicalText h

theorem AuthorGraph.eq_of_stored {g g' : AuthorGraph} (h : AuthorGraph.codec.Valid g) (h' : AuthorGraph.codec.Valid g')
    (heq : canonicalText g.dump = canonicalText g'.dump) : g = g' := by
  rw [← AuthorGraph.codec_dump, ← AuthorGraph.codec_dump] at heq
  exact eq_of_canonicalText h h' heq

theorem CompiledGraph.validate_stored {g : CompiledGraph} (h : CompiledGraph.codec.Valid g) :
    validateJson CompiledGraph.codec (canonicalText g.dump) = some g := by
  rw [← CompiledGraph.codec_dump]
  exact validateJson_canonicalText h

/-- A stored graph is read back as the normal form it was stored as, which stores as the same bytes; two graphs share their
stored bytes exactly when they share their normal form; and what a text is read as is admitted and read back from its own
canonical text. -/
theorem stored_graph_stable {g : AuthorGraph} (h : AuthorGraph.codec.Valid g) :
    validateJson AuthorGraph.codec (canonicalText (normalizeAuthorGraph g).dump) = some (normalizeAuthorGraph g) ∧
      normalizeAuthorGraph (normalizeAuthorGraph g) = normalizeAuthorGraph g ∧
      (∀ g', AuthorGraph.codec.Valid g' →
        (canonicalJson (normalizeAuthorGraph g').dump = canonicalJson (normalizeAuthorGraph g).dump ↔
          normalizeAuthorGraph g' = normalizeAuthorGraph g)) ∧
      ∀ stored g', validateJson AuthorGraph.codec stored = some g' →
        AuthorGraph.codec.Valid g' ∧ validateJson AuthorGraph.codec (canonicalText g'.dump) = some g' := by
  refine ⟨AuthorGraph.validate_stored (normalizeAuthorGraph_valid h), normalizeAuthorGraph_normalizeAuthorGraph g, ?_, ?_⟩
  · intro g' h'
    constructor
    · intro heq
      exact AuthorGraph.eq_of_stored (normalizeAuthorGraph_valid h') (normalizeAuthorGraph_valid h) (utf8_inj.1 heq)
    · intro heq
      rw [heq]
  · intro stored g' hread
    have hvalid := Codec.valid_of_ofText hread
    exact ⟨hvalid, AuthorGraph.validate_stored hvalid⟩

/-- Two nodes out of order, the operands of a condition unsorted and one of them twice. -/
def unsortedGraph : AuthorGraph where
  nodes := [
    { id := "b", nodeType := .ifNode, title := "B", ifCondition := some ⟨"a", "outcome", .isIn, .tokens ["y", "x", "y"]⟩ },
    { id := "a", nodeType := .input, title := "A" }]
  edges := [{ id := "e", fromNode := "a", toNode := "b" }]

theorem unsortedGraph_valid : AuthorGraph.codec.Valid unsortedGraph := by
  have hload : AuthorGraph.codec.load unsortedGraph.dump = some unsortedGraph := by decide +kernel
  exact AuthorGraph.codec.valid_of_load _ _ hload

theorem stored_graph_stable_unsorted : normalizeAuthorGraph unsortedGraph ≠ unsortedGraph ∧
    validateJson AuthorGraph.codec (canonicalText (normalizeAuthorGraph unsortedGraph).dump) =
      some (normalizeAuthorGraph unsortedGraph) :=
  ⟨by decide +kernel, (stored_graph_stable unsortedGraph_valid).1⟩

end AgentHub
