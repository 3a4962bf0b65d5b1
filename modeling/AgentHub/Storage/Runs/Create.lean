import AgentHub.Storage.Runs.Cancel
/-!
# Runs: creation

`create` recompiles the workflow inside its transaction and snapshots it with one pending node run for each
node. The agents and planner runs are not among the tables here: the catalog it reads, the compiler and the
planner checks come in as `RunSources`.
-/

namespace AgentHub

open Lib

/-- A workflow as its caller read it; the layout is the normalized one. -/
structure WorkflowRecord where
  workflowId : String
  sessionId : String
  semanticVersion : Nat
  layoutVersion : Nat
  authorGraph : AuthorGraph
  authorGraphHash : String
  layout : String
  layoutHash : String
  sourcePlannerRunId : Option String := none
  deriving DecidableEq, Repr

structure NewWorkflowRun where
  workflowRunId : String
  workflow : WorkflowRecord
  compiledGraph : CompiledGraph
  agentCatalog : AgentCatalog
  currentCommit : String
  plannerRunId : Option String := none
  plannerId : Option String := none
  plannerModel : Option String := none
  deriving DecidableEq, Repr

/-- What creation reads beyond the tables: the catalog, the compiler over the repository at a path, and the
checks on the planner run. -/
structure RunSources where
  catalog : AgentCatalog
  compile : String → AuthorGraph → String → Option CompiledGraph
  planner : Except StorageError Unit

/-- `ux_workflow_runs_active_session`: the statuses a session may have one run in. -/
def WorkflowRunStatus.holdsSession : WorkflowRunStatus → Bool
  | .pending | .running | .waitingApproval | .paused | .blocked | .orphaned => true
  | _ => false

namespace WorkflowRunRepository

/-- Every agent task names an agent of the catalog by its digest. -/
def agentsKnown (value : NewWorkflowRun) : Bool :=
  value.compiledGraph.nodes.all fun node => node.nodeType ≠ .agentTask ||
    (node.resolvedAgentId.bind value.agentCatalog.findById).any fun spec =>
      some spec.specSha256 = node.resolvedAgentSpecSha256

/-- The checks on the value before the transaction. -/
def checkNewRun (H : Digests) (value : NewWorkflowRun) : Op Unit := do
  let graph := value.compiledGraph
  Tx.ensure (graph.sourceAuthorHash = value.workflow.authorGraphHash)
    (.valueError "compiled graph does not match workflow author snapshot")
  Tx.ensure (graph.integrationBaseCommit = value.currentCommit)
    (.valueError "compiled graph base commit does not match run current commit")
  Tx.ensure (graph.agentCatalogSnapshotHash = value.agentCatalog.catalogHash)
    (.valueError "compiled graph agent catalog hash does not match snapshot")
  Tx.ensure (value.plannerRunId = value.workflow.sourcePlannerRunId)
    (.valueError "run planner lineage does not match workflow lineage")
  Tx.ensure (value.plannerRunId ≠ none ∨ (value.plannerId = none ∧ value.plannerModel = none))
    (.valueError "planner metadata requires planner_run_id")
  Tx.ensure (H.catalog value.agentCatalog.agents = value.agentCatalog.catalogHash)
    (.snapshotIntegrity "agent catalog embedded hash is invalid")
  Tx.ensure (agentsKnown value) (.valueError "compiled agent identity is absent from catalog snapshot")
  Tx.ensure (H.author value.workflow.authorGraph = value.workflow.authorGraphHash)
    (.snapshotIntegrity "workflow author graph hash is invalid")
  Tx.ensure (H.layout value.workflow.layout = value.workflow.layoutHash)
    (.snapshotIntegrity "workflow layout hash is invalid")

/-- The workflow and its session are still as the caller read them. -/
def checkWorkflow (value : NewWorkflowRun) : Op SessionRow := do
  let workflow := value.workflow
  let current ← Tx.read fun db => (db.workflows.get? workflow.workflowId).bind fun w =>
    (db.sessions.get? w.sessionId).map fun s => (w, s)
  let (stored, session) ← Tx.require current (.recordNotFound ("workflow not found: " ++ workflow.workflowId))
  Tx.ensure (stored.sessionId = workflow.sessionId ∧ stored.semanticVersion = workflow.semanticVersion ∧
      stored.layoutVersion = workflow.layoutVersion ∧ stored.authorGraphHash = workflow.authorGraphHash ∧
      stored.layoutHash = workflow.layoutHash)
    (.concurrencyConflict "workflow changed before run snapshot creation")
  Tx.ensure (session.status = .active) (.concurrencyConflict "workflow run requires an active session")
  Tx.ensure (session.integrationHeadCommit = value.currentCommit)
    (.concurrencyConflict "session integration HEAD changed before run creation")
  return session

/-- The submitted graph is what the compiler makes of the workflow now. -/
def checkCompiled (sources : RunSources) (value : NewWorkflowRun) (session : SessionRow) : Op Unit := do
  Tx.ensure (sources.catalog.catalogHash = value.agentCatalog.catalogHash)
    (.concurrencyConflict "agent catalog changed before run snapshot creation")
  let graph ← Tx.require (sources.compile session.sharedRepoPath value.workflow.authorGraph value.currentCommit)
    (.snapshotIntegrity "authoritative workflow compilation failed before snapshot creation")
  Tx.ensure (graph = value.compiledGraph)
    (.snapshotIntegrity "submitted compiled graph is not the deterministic workflow compilation")
  Op.lift (if value.plannerRunId.isSome then sources.planner else .ok ())

def newRunRow (H : Digests) (sources : RunSources) (value : NewWorkflowRun) (now : Instant) : WorkflowRunRow where
  id := value.workflowRunId
  workflowId := value.workflow.workflowId
  sessionId := value.workflow.sessionId
  integrationBaseCommit := value.compiledGraph.integrationBaseCommit
  currentCommit := value.currentCommit
  authorSnapshot := value.workflow.authorGraph
  authorSnapshotHash := value.workflow.authorGraphHash
  compiledSnapshot := value.compiledGraph
  compiledSnapshotHash := H.compiled value.compiledGraph
  layoutSnapshot := value.workflow.layout
  layoutSnapshotHash := value.workflow.layoutHash
  policyVersion := value.compiledGraph.policyVersion
  agentCatalogSnapshot := sources.catalog
  agentCatalogSnapshotHash := value.agentCatalog.catalogHash
  status := .pending
  createdAt := utcNowText now

/-- Insert the run; its session may hold no other run. -/
def insertRun (row : WorkflowRunRow) : Op Unit := do
  let held ← Tx.read fun db => db.workflowRuns.rows.any fun r => r.sessionId = row.sessionId ∧ r.status.holdsSession
  Tx.ensure (!held) (.integrityError "workflow_runs")
  Db.workflowRunsT.insert row (.integrityError "workflow_runs")

def insertNode (H : Digests) (workflowRunId : String) (now : Instant) (node : WorkflowNode) : Op Unit :=
  Db.nodeRunsT.insert { id := H.nodeRunId workflowRunId node.id 1, workflowRunId := workflowRunId, nodeId := node.id,
                        nodeType := node.nodeType, attempt := 1, status := .pending,
                        assignedAgentId := node.resolvedAgentId, createdAt := utcNowText now }
    (.integrityError "node_runs")

def create (H : Digests) (sources : RunSources) (value : NewWorkflowRun) (lease : MasterLease)
    (workspaceLease : WorkspaceLease) (now : Instant) : Op WorkflowRunRow := do
  checkNewRun H value
  MasterLeaseRepository.assertValidIn lease now
  Tx.ensure (workspaceLease.resourceKey = integrationResource value.workflow.sessionId)
    (.valueError "workspace lease does not belong to the workflow session")
  WorkspaceLeaseRepository.assertValidIn workspaceLease now
  let session ← checkWorkflow value
  checkCompiled sources value session
  insertRun (newRunRow H sources value now)
  ApprovalRepository.forEach (insertNode H value.workflowRunId now)
    (value.compiledGraph.nodes.mergeSort fun a b => a.id ≤ b.id)
  EventRepository.appendIn value.workflow.sessionId runCreated lease.instanceId
    (.run lease.fencingToken value.workflowRunId none .pending (some (H.compiled value.compiledGraph)))
    value.workflow.workflowId value.workflowRunId now
  runRow value.workflowRunId

end WorkflowRunRepository

end AgentHub
