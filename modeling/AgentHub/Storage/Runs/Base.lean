import AgentHub.Lib.Kahn
import AgentHub.Storage.Events
import AgentHub.Storage.Leases
/-!
# Runs: shared reads, events and the reconcile loop

The helpers of the workflow-run repository. A query without ORDER BY returns its rows in the order
a `RowOrder` gives; the reconcile loop re-reads the rows on every pass, so pass `k` asks for order `k`.
-/

namespace AgentHub

open Lib

/-- The order in which the `k`-th unordered query of an operation returns its rows. -/
structure RowOrder where
  order : Nat → List NodeRunRow → List NodeRunRow
  perm : ∀ k l, (order k l).Perm l

/-- The rows as the table lists them. -/
def RowOrder.table : RowOrder := ⟨fun _ l => l, fun _ l => List.Perm.refl l⟩

/-- The node runs of a run. -/
def Db.rowsOf (db : Db) (workflowRunId : String) : List NodeRunRow :=
  db.nodeRuns.rows.filter (fun r => r.workflowRunId = workflowRunId)

def NodeRunStatus.isTerminal : NodeRunStatus → Bool
  | .blockedByGuard | .failed | .completed | .skipped | .superseded | .cancelled | .orphaned => true
  | _ => false

def WorkflowRunStatus.isTerminal : WorkflowRunStatus → Bool
  | .blocked | .failed | .completed | .cancelled | .orphaned => true
  | _ => false

/-- The outcomes that satisfy a condition. -/
def EdgeCondition.expected : EdgeCondition → List NodeOutcome
  | .success => [.success]
  | .failure => [.failure, .blocked]
  | .matched => [.matched]
  | .notMatched => [.notMatched]
  | .approved => [.approved]
  | .rejected => [.rejected]

/-- `_edge_satisfied`. -/
def edgeSatisfied (condition : EdgeCondition) (upstream : NodeRunStatus) (outcome : Option NodeOutcome) : Bool :=
  if upstream = .skipped ∨ upstream = .superseded then false
  else outcome.any condition.expected.contains

/-- `_topological_order`. -/
def topologicalOrder (graph : CompiledGraph) : Except StorageError (List String) :=
  let ids := (graph.nodes.map WorkflowNode.id).dedup
  match graph.edges.find? (fun e => e.toNode ∉ ids) with
  | some e => .error (.keyError e.toNode)
  | none =>
    let result := Kahn.order ids (graph.edges.map fun e => (e.fromNode, e.toNode))
    if result.length = graph.nodes.length then .ok result
    else .error (.valueError "compiled snapshot contains a cycle")

/-- The value a pure computation returned, or what it raised. -/
def Op.lift {α : Type} (x : Except StorageError α) : Op α := fun db => x.map (·, db)

namespace WorkflowRunRepository

/-! ## Reads -/

/-- `_run_row`. -/
def runRow (workflowRunId : String) : Op WorkflowRunRow := do
  let row ← Db.workflowRunsT.select workflowRunId
  Tx.require row (.recordNotFound ("workflow run not found: " ++ workflowRunId))

/-- A node run joined with its run. -/
def nodeWithRun (db : Db) (nodeRunId : String) : Option (NodeRunRow × WorkflowRunRow) :=
  (db.nodeRuns.get? nodeRunId).bind fun node =>
    (db.workflowRuns.get? node.workflowRunId).map fun run => (node, run)

/-- `_validated_snapshot_models`: every snapshot has its recorded digest and they belong together. -/
def validateSnapshots (H : Digests) (row : WorkflowRunRow) : Op Unit := do
  Tx.ensure (row.authorSnapshotHash = H.author row.authorSnapshot)
    (.snapshotIntegrity "workflow run author_snapshot_hash does not match its JSON")
  Tx.ensure (row.compiledSnapshotHash = H.compiled row.compiledSnapshot)
    (.snapshotIntegrity "workflow run compiled_snapshot_hash does not match its JSON")
  Tx.ensure (row.layoutSnapshotHash = H.layout row.layoutSnapshot)
    (.snapshotIntegrity "workflow run layout_snapshot_hash does not match its JSON")
  Tx.ensure (row.agentCatalogSnapshotHash = H.catalog row.agentCatalogSnapshot.agents)
    (.snapshotIntegrity "workflow run agent_catalog_snapshot_hash does not match its JSON")
  Tx.ensure (row.agentCatalogSnapshot.catalogHash = H.catalog row.agentCatalogSnapshot.agents)
    (.snapshotIntegrity "agent catalog embedded hash does not match its agents")
  Tx.ensure (row.compiledSnapshot.sourceAuthorHash = H.author row.authorSnapshot)
    (.snapshotIntegrity "compiled snapshot does not match author snapshot")
  Tx.ensure (row.compiledSnapshot.agentCatalogSnapshotHash = H.catalog row.agentCatalogSnapshot.agents)
    (.snapshotIntegrity "compiled snapshot does not match agent catalog snapshot")
  Tx.ensure (row.compiledSnapshot.integrationBaseCommit = row.integrationBaseCommit)
    (.snapshotIntegrity "compiled snapshot base commit does not match run")
  Tx.ensure (row.compiledSnapshot.policyVersion = row.policyVersion)
    (.snapshotIntegrity "compiled snapshot policy version does not match run")

/-! ## Events -/

/-- `_append_run_state`. -/
def appendRunState (run : WorkflowRunRow) (lease : MasterLease) (previous target : WorkflowRunStatus)
    (now : Instant) : Op Unit :=
  EventRepository.appendIn run.sessionId runStateChanged lease.instanceId
    (.run lease.fencingToken run.id (some previous) target none) run.workflowId run.id now

/-- `_append_node_state`. -/
def appendNodeState (run : WorkflowRunRow) (lease : MasterLease) (nodeRunId nodeId : String)
    (previous target : NodeRunStatus) (outcome : Option NodeOutcome) (summary : String)
    (errorCode : Option String) (now : Instant) : Op Unit :=
  EventRepository.appendIn run.sessionId nodeStateChanged lease.instanceId
    (.node lease.fencingToken run.id nodeRunId nodeId previous target outcome summary errorCode)
    run.workflowId run.id now

/-- `_append_task_state`. -/
def appendTaskState (run : WorkflowRunRow) (lease : MasterLease) (nodeRunId taskId : String)
    (previous : Option TaskStatus) (target : TaskStatus) (errorCode : Option String)
    (workspaceFencingToken : Option Nat) (now : Instant) : Op Unit :=
  EventRepository.appendIn run.sessionId taskStateChanged lease.instanceId
    (.task lease.fencingToken workspaceFencingToken run.id nodeRunId taskId previous target errorCode)
    run.workflowId run.id now

/-! ## Reconciling -/

/-- `{str(row["node_id"]): row for row in rows}`: the last row of a node wins. -/
def byNode (rows : List NodeRunRow) (nodeId : String) : Option NodeRunRow :=
  (rows.filter (fun r => r.nodeId = nodeId)).getLast?

/-- Walk the incoming edges: `none` at the first unfinished source, else whether some edge is satisfied. -/
def resolveEdges (rows : String → Option NodeRunRow) : List WorkflowEdge → Bool → Except StorageError (Option Bool)
  | [], satisfied => .ok (some satisfied)
  | e :: es, satisfied =>
    match rows e.fromNode with
    | none => .error (.keyError e.fromNode)
    | some upstream =>
      if !upstream.status.isTerminal then .ok none
      else resolveEdges rows es (satisfied || edgeSatisfied e.condition upstream.status upstream.outcome)

/-- The status a pending node moves to, if its predecessors decide it. -/
def reconcileTarget (graph : CompiledGraph) (rows : String → Option NodeRunRow) (node : WorkflowNode) :
    Except StorageError (Option NodeRunStatus) :=
  if node.nodeType = .input then .ok (some .ready)
  else (resolveEdges rows (graph.edges.filter (fun e => e.toNode = node.id)) false).map
    (Option.map fun satisfied => if satisfied then .ready else .skipped)

/-- Move one pending node run. -/
def promote (run : WorkflowRunRow) (lease : MasterLease) (row : NodeRunRow) (target : NodeRunStatus)
    (now : Instant) : Op Unit := do
  Db.nodeRunsT.cas row.id (fun r => r.status = .pending)
    (fun r => { r with status := target,
                       finishedAt := if target = .skipped then some (utcNowText now) else none })
    (fun _ => rfl) (fun _ => rfl) (.concurrencyConflict "pending node reconciliation lost CAS")
  appendNodeState run lease row.id row.nodeId .pending target none
    (if target = .skipped then "inactive branch" else "ready") none now

/-- One pass over the nodes with the rows read at its start; whether it changed anything. -/
def reconcilePass (run : WorkflowRunRow) (lease : MasterLease) (rows : String → Option NodeRunRow)
    (now : Instant) : List String → Op Bool
  | [] => return false
  | nodeId :: nodeIds => do
    let row ← Tx.require (rows nodeId) (.keyError nodeId)
    if row.status ≠ .pending then reconcilePass run lease rows now nodeIds
    else do
      let node ← Tx.require (run.compiledSnapshot.nodes.find? (fun n => n.id = nodeId)) .stopIteration
      let target ← Op.lift (reconcileTarget run.compiledSnapshot rows node)
      match target with
      | none => reconcilePass run lease rows now nodeIds
      | some target => do
        promote run lease row target now
        let _ ← reconcilePass run lease rows now nodeIds
        return true

/-- Passes until one changes nothing. Every changing pass moves a pending row, so the fuel, one more
than the rows of the run, does not run out. -/
def reconcileLoop (ord : RowOrder) (run : WorkflowRunRow) (lease : MasterLease) (now : Instant) :
    Nat → Nat → Op Nat
  | 0, _ => Tx.fail .outOfFuel
  | fuel + 1, k => do
    let rows ← Tx.read fun db => ord.order k (db.rowsOf run.id)
    let nodeIds ← Op.lift (topologicalOrder run.compiledSnapshot)
    let changed ← reconcilePass run lease (byNode rows) now nodeIds
    if changed then reconcileLoop ord run lease now fuel (k + 1) else return k + 1

/-- The verdict of a run whose node runs are all finished. -/
def verdict (output : NodeRunRow) (statuses : List NodeRunStatus) : WorkflowRunStatus :=
  if output.status = .completed ∧ (output.outcome = some .success ∨ output.outcome = some .rejected) then .completed
  else if output.status = .blockedByGuard ∨ statuses.any (fun s => s = .blockedByGuard) then .blocked
  else .failed

/-- `_finish_run_in`. -/
def finishRunIn (run : WorkflowRunRow) (lease : MasterLease) (target : WorkflowRunStatus) (now : Instant) :
    Op Unit := do
  Db.workflowRunsT.cas run.id (fun r => r.status = .running)
    (fun r => { r with status := target, finishedAt := some (utcNowText now) }) (fun _ => rfl) (fun _ => rfl)
    (.concurrencyConflict "workflow terminal transition lost running CAS")
  appendRunState run lease .running target now

/-- The end of `_reconcile_in`: finish the run when every node run is. -/
def finishIfDone (run : WorkflowRunRow) (lease : MasterLease) (rows : List NodeRunRow) (now : Instant) :
    Op Unit :=
  if rows.all (fun r => r.status.isTerminal) then do
    let output ← Tx.require (run.compiledSnapshot.nodes.find? (fun n => n.nodeType = .output)) .stopIteration
    let outputRow ← Tx.require (rows.find? (fun r => r.nodeId = output.id)) .stopIteration
    finishRunIn run lease (verdict outputRow (rows.map NodeRunRow.status)) now
  else pure ()

/-- `_reconcile_in`. -/
def reconcileIn (ord : RowOrder) (run : WorkflowRunRow) (lease : MasterLease) (now : Instant) : Op Unit := do
  let count ← Tx.read fun db => (db.rowsOf run.id).length
  let passes ← reconcileLoop ord run lease now (count + 1) 0
  let rows ← Tx.read fun db => ord.order passes (db.rowsOf run.id)
  finishIfDone run lease rows now

end WorkflowRunRepository

end AgentHub
