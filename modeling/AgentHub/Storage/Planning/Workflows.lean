import AgentHub.Storage.Planning.Rows
import AgentHub.Storage.Runs.Nodes
/-!
# The workflow repository

Author graphs, layouts and compile previews, each updated under the version its caller read. Every operation returns the
row it wrote as a record, read back through `_to_record` with all its integrity checks.
-/

namespace AgentHub

open Lib Workspace

variable {φ : Type}

structure NewWorkflow (H : PlanHost φ) where
  workflowId : String
  sessionId : String
  authorGraph : AdmittedGraph
  layout : AdmittedLayout H
  parentWorkflowId : Option String := none
  sourcePlannerRunId : Option String := none

structure DraftRecord (φ : Type) where
  workflowId : String
  sessionId : String
  parentWorkflowId : Option String
  sourcePlannerRunId : Option String
  semanticVersion : Nat
  layoutVersion : Nat
  authorGraph : AuthorGraph
  authorGraphHash : String
  layout : WorkflowLayout φ
  layoutHash : String
  lastCompiledGraph : Option CompiledGraph
  lastCompiledGraphHash : Option String
  lastCompiledSemanticVersion : Option Nat
  lastCompiledAgentCatalogHash : Option String
  lastCompiledBaseCommit : Option String
  policyVersion : Option String
  createdAt : String
  updatedAt : String

/-! ## The columns an update sets -/

/-- The author graph columns. -/
def DraftRow.withGraph (H : PlanHost φ) (graph : AuthorGraph) (now : Instant) (r : DraftRow) : DraftRow :=
  { r with
    authorGraphJson := canonicalText graph.dump, authorGraphHash := H.digest (canonicalText graph.dump),
    semanticVersion := r.semanticVersion + 1, updatedAt := utcNowText now }

def DraftRow.withLayout (H : PlanHost φ) (layout : WorkflowLayout φ) (now : Instant) (r : DraftRow) : DraftRow :=
  { r with
    layoutJson := H.layoutText layout, layoutHash := H.digest (H.layoutText layout), layoutVersion := r.layoutVersion + 1,
    updatedAt := utcNowText now }

def DraftRow.withPreview (H : PlanHost φ) (compiled : CompiledGraph) (version : Nat) (now : Instant) (r : DraftRow) : DraftRow :=
  { r with
    lastCompiledGraphJson := some (canonicalText compiled.dump)
    lastCompiledGraphHash := some (H.digest (canonicalText compiled.dump))
    lastCompiledSemanticVersion := some version
    lastCompiledAgentCatalogHash := some compiled.agentCatalogSnapshotHash
    lastCompiledBaseCommit := some compiled.integrationBaseCommit
    policyVersion := some compiled.policyVersion
    updatedAt := utcNowText now }

namespace WorkflowRepository

variable (H : PlanHost φ)

/-! ## Reading a row -/

def check (b : Bool) (e : StorageError) : Except StorageError Unit := if b then .ok () else .error e

/-- The value a validation returned, or its error. -/
def validated {α : Type} (o : Option α) (field : String) : Except StorageError α :=
  match o with
  | some a => .ok a
  | none => .error (.valueError field)

/-- An optional column under a validation. -/
def optionally {α : Type} (f : String → Except StorageError α) : Option String → Except StorageError (Option α)
  | none => .ok none
  | some s => (f s).map some

def sha256Column (field s : String) : Except StorageError String := validated (if Workspace.isSha256Hex s then some s else none) field

def gitObjectIdColumn (field s : String) : Except StorageError String :=
  validated (if Contracts.isGitObjectId s then some s else none) field

/-- The preview columns belong together, and to the graph. -/
def checkPreview (row : DraftRow) (compiledHash : Option String) : Option CompiledGraph → Except StorageError Unit
  | none =>
    check (compiledHash = none ∧ row.lastCompiledSemanticVersion = none ∧ row.lastCompiledAgentCatalogHash = none ∧
        row.lastCompiledBaseCommit = none ∧ row.policyVersion = none)
      (.snapshotIntegrity "workflow compiled preview metadata is incomplete")
  | some compiled => do
    check (compiledHash ≠ none ∧ row.lastCompiledSemanticVersion ≠ none ∧ row.lastCompiledAgentCatalogHash ≠ none ∧
        row.lastCompiledBaseCommit ≠ none ∧ row.policyVersion ≠ none)
      (.snapshotIntegrity "workflow compiled preview metadata is incomplete")
    check (compiledHash = some (H.digest (canonicalText compiled.dump)))
      (.snapshotIntegrity "workflow compiled preview hash is invalid")
    check (row.lastCompiledAgentCatalogHash = some compiled.agentCatalogSnapshotHash ∧
        row.lastCompiledBaseCommit = some compiled.integrationBaseCommit ∧ row.policyVersion = some compiled.policyVersion)
      (.snapshotIntegrity "workflow compiled preview metadata drifted")

/-- `_to_record`. -/
def toRecord (row : DraftRow) : Except StorageError (DraftRecord φ) := do
  let authorGraph ← validated (validateJson AuthorGraph.codec row.authorGraphJson) "author_graph_json"
  let authorGraphHash ← sha256Column "author_graph_hash" row.authorGraphHash
  let layout ← validated ((WorkflowLayout.codec H.floats).ofText H.floats.text row.layoutJson) "layout_json"
  let layoutHash ← sha256Column "layout_hash" row.layoutHash
  check (H.digest (canonicalText authorGraph.dump) = authorGraphHash)
    (.snapshotIntegrity "workflow author graph hash does not match its JSON")
  check (H.digest (H.layoutText layout) = layoutHash) (.snapshotIntegrity "workflow layout hash does not match its JSON")
  let compiled ← optionally
    (fun s => validated (validateJson CompiledGraph.codec s) "last_compiled_graph_json") row.lastCompiledGraphJson
  let compiledHash ← optionally (sha256Column "last_compiled_graph_hash") row.lastCompiledGraphHash
  checkPreview H row compiledHash compiled
  let catalogHash ← optionally (sha256Column "last_compiled_agent_catalog_hash") row.lastCompiledAgentCatalogHash
  let baseCommit ← optionally (gitObjectIdColumn "last_compiled_base_commit") row.lastCompiledBaseCommit
  return {
    workflowId := row.id, sessionId := row.sessionId, parentWorkflowId := row.parentWorkflowId,
    sourcePlannerRunId := row.sourcePlannerRunId, semanticVersion := row.semanticVersion, layoutVersion := row.layoutVersion,
    authorGraph, authorGraphHash, layout, layoutHash, lastCompiledGraph := compiled, lastCompiledGraphHash := compiledHash,
    lastCompiledSemanticVersion := row.lastCompiledSemanticVersion, lastCompiledAgentCatalogHash := catalogHash,
    lastCompiledBaseCommit := baseCommit, policyVersion := row.policyVersion, createdAt := row.createdAt,
    updatedAt := row.updatedAt }

/-- The row of `id` as a record, after a write to it. -/
def recordOf (id : String) : PlanOp (DraftRecord φ) := do
  let row ← PlanDb.workflowsT.select id
  let row ← Tx.require row (.runtimeError "assert row is not None")
  PlanOp.lift (toRecord H row)

def get (workflowId : String) : PlanOp (DraftRecord φ) := do
  Tx.ensure (isEntityId workflowId) (.valueError "entity_id")
  let row ← PlanDb.workflowsT.select workflowId
  let row ← Tx.require row (.recordNotFound ("workflow not found: " ++ workflowId))
  PlanOp.lift (toRecord H row)

/-! ## Writing -/

/-- The parent, when there is one, belongs to the session. -/
def checkParent (sessionId : String) : Option String → PlanOp Unit
  | none => return ()
  | some parent => do
    let row ← PlanDb.workflowsT.select parent
    let row ← Tx.require row (.recordNotFound ("parent workflow not found: " ++ parent))
    Tx.ensure (row.sessionId = sessionId) (.valueError "parent workflow must belong to the same session")

/-- The source planner run, when there is one, belongs to the session. -/
def checkPlanner (sessionId : String) : Option String → PlanOp Unit
  | none => return ()
  | some plannerRun => do
    let row ← PlanDb.plannerRunsT.select plannerRun
    let row ← Tx.require row (.recordNotFound ("planner run not found: " ++ plannerRun))
    Tx.ensure (row.sessionId = sessionId) (.valueError "source planner run must belong to the same session")

/-- The row a new workflow is inserted as. -/
def newRow {H : PlanHost φ} (value : NewWorkflow H) (parent plannerRun : Option String) (now : Instant) : DraftRow where
  id := value.workflowId
  sessionId := value.sessionId
  parentWorkflowId := parent
  sourcePlannerRunId := plannerRun
  authorGraphJson := canonicalText (normalizeAuthorGraph value.authorGraph.1).dump
  authorGraphHash := H.digest (canonicalText (normalizeAuthorGraph value.authorGraph.1).dump)
  layoutJson := H.layoutText (normalizeLayout value.layout.1)
  layoutHash := H.digest (H.layoutText (normalizeLayout value.layout.1))
  createdAt := utcNowText now
  updatedAt := utcNowText now

def createIn (value : NewWorkflow H) (now : Instant) : PlanOp (DraftRecord φ) := do
  Tx.ensure (isEntityId value.workflowId) (.valueError "entity_id")
  Tx.ensure (isEntityId value.sessionId) (.valueError "entity_id")
  let parent ← PlanOp.onRest (EventRepository.optionalEntityId value.parentWorkflowId)
  let plannerRun ← PlanOp.onRest (EventRepository.optionalEntityId value.sourcePlannerRunId)
  let session ← PlanOp.onRest (Db.sessionsT.select value.sessionId)
  let _ ← Tx.require session (.recordNotFound ("session not found: " ++ value.sessionId))
  checkParent value.sessionId parent
  checkPlanner value.sessionId plannerRun
  PlanDb.workflowsT.insert (newRow value parent plannerRun now) (.integrityError "workflows")
  recordOf H value.workflowId

def conflictText (workflowId field : String) (expected : Int) (found : Nat) : String :=
  "workflow " ++ workflowId ++ " expected " ++ field ++ "=" ++ toString expected ++ ", found " ++ toString found

/-- `_raise_workflow_conflict`. -/
def raiseWorkflowConflict (workflowId field : String) (version : DraftRow → Nat) (expected : Int) : PlanOp Unit := do
  let row ← PlanDb.workflowsT.select workflowId
  let row ← Tx.require row (.recordNotFound ("workflow not found: " ++ workflowId))
  Tx.fail (.concurrencyConflict (conflictText workflowId field expected (version row)))

/-- `UPDATE workflows SET f WHERE id = ? AND g`, which must change the row, and the row it leaves. -/
def swap (workflowId field : String) (version : DraftRow → Nat) (expected : Int) (g : DraftRow → Bool) (f : DraftRow → DraftRow)
    (hid : ∀ r, (f r).id = r.id) : PlanOp (DraftRecord φ) := do
  let changed ← PlanDb.workflowsT.update (fun r => decide (r.id = workflowId) && g r) f hid hid
  if changed ≠ 1 then raiseWorkflowConflict workflowId field version expected
  recordOf H workflowId

/-- CAS-update the author graph. -/
def updateAuthorGraph (workflowId : String) (graph : AdmittedGraph) (expected : Int) (now : Instant) :
    PlanOp (DraftRecord φ) := do
  Tx.ensure (1 ≤ expected) (.valueError "expected_semantic_version must be positive")
  Tx.ensure (isEntityId workflowId) (.valueError "entity_id")
  swap H workflowId "semantic_version" DraftRow.semanticVersion expected (fun r => r.semanticVersion = expected)
    (DraftRow.withGraph H (normalizeAuthorGraph graph.1) now) fun _ => rfl

def updateLayout (workflowId : String) (layout : AdmittedLayout H) (expected : Int) (now : Instant) :
    PlanOp (DraftRecord φ) := do
  Tx.ensure (1 ≤ expected) (.valueError "expected_layout_version must be positive")
  Tx.ensure (isEntityId workflowId) (.valueError "entity_id")
  swap H workflowId "layout_version" DraftRow.layoutVersion expected (fun r => r.layoutVersion = expected)
    (DraftRow.withLayout H (normalizeLayout layout.1) now) fun _ => rfl

/-- Persist a compile preview only if its complete source tuple is current. -/
def saveCompiledPreview (workflowId : String) (compiled : AdmittedCompiled) (expected : Int) (workspaceLease : WorkspaceLease)
    (now : Instant) : PlanOp (DraftRecord φ) := do
  Tx.ensure (1 ≤ expected) (.valueError "expected_semantic_version must be positive")
  Tx.ensure (isEntityId workflowId) (.valueError "entity_id")
  let current ← PlanDb.workflowsT.select workflowId
  let current ← Tx.require current (.recordNotFound ("workflow not found: " ++ workflowId))
  Tx.ensure (workspaceLease.resourceKey = integrationResource current.sessionId)
    (.valueError "workspace lease does not belong to the workflow session")
  PlanOp.onRest (WorkspaceLeaseRepository.assertValidIn workspaceLease now)
  swap H workflowId "semantic_version" DraftRow.semanticVersion expected
    (fun r => r.semanticVersion = expected ∧ r.authorGraphHash = compiled.1.sourceAuthorHash)
    (DraftRow.withPreview H compiled.1 expected.toNat now) fun _ => rfl

end WorkflowRepository

end AgentHub
