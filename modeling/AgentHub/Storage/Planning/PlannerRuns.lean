import AgentHub.Storage.Planning.Workflows
/-!
# The planner run repository

Planner runs move along `_ALLOWED_TRANSITIONS`, each move a compare-and-swap on the status with one event in the same
transaction. A successful planner run and the workflow it made are committed together.
-/

namespace AgentHub

open Lib Workspace

variable {φ : Type}

/-- `_ALLOWED_TRANSITIONS`. -/
def PlannerRunStatus.allowed : PlannerRunStatus → List PlannerRunStatus
  | .pending => [.running, .cancelled]
  | .running => [.succeeded, .failed, .timedOut, .cancelled, .orphaned]
  | _ => []

structure NewPlannerRun where
  plannerRunId : String
  sessionId : String
  plannerId : String
  plannerType : PlannerType
  integrationBaseCommit : String
  plannerModel : Option String := none

/-- What a transition reports beside the status. -/
structure PlannerResult where
  workflowId : Option String := none
  semanticVersion : Option Int := none
  errorCode : Option String := none

/-- The columns a transition sets. -/
def PlannerRunRow.moved (target : PlannerRunStatus) (result : PlannerResult) (now : Instant) (r : PlannerRunRow) :
    PlannerRunRow :=
  { r with
    status := target
    startedAt := r.startedAt <|> if target = .running then some (utcNowText now) else none
    finishedAt := if target = .pending ∨ target = .running then none else some (utcNowText now)
    resultWorkflowId := result.workflowId <|> r.resultWorkflowId
    resultSemanticVersion := result.semanticVersion <|> r.resultSemanticVersion
    errorCode := result.errorCode }

def PlannerRunRow.orphaned (code : String) (now : Instant) (r : PlannerRunRow) : PlannerRunRow :=
  { r with status := .orphaned, finishedAt := some (utcNowText now), errorCode := some code }

def PlannerRunRow.succeeded (workflowId : String) (semanticVersion : Int) (now : Instant) (r : PlannerRunRow) : PlannerRunRow :=
  { r with
    status := .succeeded, finishedAt := some (utcNowText now), resultWorkflowId := some workflowId,
    resultSemanticVersion := some semanticVersion, errorCode := none }

namespace PlannerRunRepository

/-- The row of `id`, after a write to it. -/
def rowOf (id : String) : PlanOp PlannerRunRow := do
  let row ← PlanDb.plannerRunsT.select id
  Tx.require row (.runtimeError "assert row is not None")

/-- `_append_event`: the payload's own validation, then `append_in` without a workflow. -/
def appendEvent (lease : MasterLease) (plannerRunId sessionId : String) (previous : Option PlannerRunStatus)
    (target : PlannerRunStatus) (errorCode : Option String) (now : Instant) : PlanOp Unit := do
  Tx.ensure (1 ≤ lease.fencingToken ∧ isEntityId plannerRunId ∧ errorCode.all fun code => code.length ≤ 200)
    (.valueError "PlannerRunEventPayload")
  Tx.ensure (isEntityId sessionId) (.valueError "entity_id")
  let actor ← PlanOp.onRest (EventRepository.optionalEntityId (some lease.instanceId))
  let session ← PlanOp.onRest (Db.sessionsT.select sessionId)
  let _ ← Tx.require session (.recordNotFound ("session not found: " ++ sessionId))
  Tx.write fun db => { db with plannerEvents := db.plannerEvents ++
    [⟨sessionId, actor, lease.fencingToken, plannerRunId, previous, target, errorCode, utcNowText now⟩] }

/-- The CHECK constraints on what `create_in` inserts. -/
def insertable (value : NewPlannerRun) : Bool :=
  (1 ≤ value.plannerRunId.length && value.plannerRunId.length ≤ 128) &&
    (1 ≤ value.plannerId.length && value.plannerId.length ≤ 128) &&
    (value.plannerModel.all fun model => model.length ≤ 200) &&
    (value.integrationBaseCommit.length = 40 || value.integrationBaseCommit.length = 64)

def newRow (value : NewPlannerRun) (now : Instant) : PlannerRunRow where
  id := value.plannerRunId
  sessionId := value.sessionId
  plannerId := value.plannerId
  plannerType := value.plannerType
  plannerModel := value.plannerModel
  integrationBaseCommit := some value.integrationBaseCommit
  status := .pending
  createdAt := utcNowText now

/-- Create the durable planner queue item. -/
def createIn (value : NewPlannerRun) (lease : MasterLease) (now : Instant) : PlanOp PlannerRunRow := do
  PlanOp.onRest (MasterLeaseRepository.assertValidIn lease now)
  let session ← PlanOp.onRest (Db.sessionsT.select value.sessionId)
  let session ← Tx.require session (.recordNotFound ("session not found: " ++ value.sessionId))
  Tx.ensure (session.status = .active) (.concurrencyConflict "planner run requires an active session")
  Tx.ensure (session.integrationHeadCommit = value.integrationBaseCommit)
    (.concurrencyConflict "planner base commit is stale")
  Tx.ensure (insertable value) (.integrityError "planner_runs")
  PlanDb.plannerRunsT.insert (newRow value now) (.integrityError "planner_runs")
  appendEvent lease value.plannerRunId value.sessionId none .pending none now
  rowOf value.plannerRunId

/-- The order of `ORDER BY created_at, id`. -/
def queuedBefore (a b : PlannerRunRow) : Bool := a.createdAt < b.createdAt || (a.createdAt = b.createdAt && a.id ≤ b.id)

/-- A durable pending planner run; the claim of it is separate. -/
def nextSchedulableRunId (lease : MasterLease) (now : Instant) : PlanOp (Option String) := do
  PlanOp.onRest (MasterLeaseRepository.assertValidIn lease now)
  Tx.read fun db => (((db.plannerRuns.rows.filter fun r => r.status = .pending).mergeSort queuedBefore).head?).map
    PlannerRunRow.id

/-! ## Transitions -/

/-- `_raise_conflict`. -/
def raiseConflict (plannerRunId : String) (expected : PlannerRunStatus) : PlanOp Unit := do
  let row ← PlanDb.plannerRunsT.select plannerRunId
  let row ← Tx.require row (.recordNotFound ("planner run not found: " ++ plannerRunId))
  Tx.fail (.concurrencyConflict ("planner run " ++ plannerRunId ++ " expected " ++ expected.value ++ ", found " ++
    row.status.value))

/-- `UPDATE planner_runs SET f WHERE id = ? AND status = ?`, the number of rows changed. -/
def setStatus (plannerRunId : String) (expected : PlannerRunStatus) (f : PlannerRunRow → PlannerRunRow)
    (hid : ∀ r, (f r).id = r.id) : PlanOp Nat :=
  PlanDb.plannerRunsT.update (fun r => decide (r.id = plannerRunId) && decide (r.status = expected)) f hid hid

/-- The constraints on what a transition sets: lengths, and a result workflow that exists. -/
def settable (result : PlannerResult) (db : PlanDb) : Bool :=
  (result.errorCode.all fun code => code.length ≤ 200) && (result.semanticVersion.all fun v => 1 ≤ v) &&
    result.workflowId.all fun id => (db.workflows.get? id).isSome

def transition (plannerRunId : String) (expected target : PlannerRunStatus) (lease : MasterLease) (result : PlannerResult)
    (now : Instant) : PlanOp PlannerRunRow := do
  Tx.ensure (target ∈ expected.allowed)
    (.valueError ("invalid planner transition: " ++ expected.value ++ " -> " ++ target.value))
  PlanOp.onRest (MasterLeaseRepository.assertValidIn lease now)
  let ok ← Tx.read (settable result)
  let changed ← setStatus plannerRunId expected (PlannerRunRow.moved target result now) fun _ => rfl
  Tx.ensure (changed = 0 ∨ ok) (.integrityError "planner_runs")
  if changed ≠ 1 then raiseConflict plannerRunId expected
  let row ← rowOf plannerRunId
  appendEvent lease plannerRunId row.sessionId (some expected) target result.errorCode now
  return row

def orphanedCode : String := "startup_found_running_planner_without_owner"

/-- Quarantine one planner run that was found running. -/
def orphanOne (lease : MasterLease) (now : Instant) (current : PlannerRunRow) : PlanOp PlannerRunRow := do
  let changed ← setStatus current.id .running (PlannerRunRow.orphaned orphanedCode now) fun _ => rfl
  Tx.ensure (changed = 1) (.concurrencyConflict "planner recovery lost its running-state CAS")
  appendEvent lease current.id current.sessionId (some .running) .orphaned (some orphanedCode) now
  rowOf current.id

def orphanEach (lease : MasterLease) (now : Instant) : List PlannerRunRow → PlanOp (List PlannerRunRow)
  | [] => return []
  | current :: rows => do
    let row ← orphanOne lease now current
    let recovered ← orphanEach lease now rows
    return row :: recovered

/-- Quarantine planner work left running by a prior master. -/
def orphanRunning (lease : MasterLease) (now : Instant) : PlanOp (List PlannerRunRow) := do
  PlanOp.onRest (MasterLeaseRepository.assertValidIn lease now)
  let rows ← Tx.read fun db => (db.plannerRuns.rows.filter fun r => r.status = .running).mergeSort queuedBefore
  orphanEach lease now rows

/-- The session is active, and its head is the commit the planner run was made from. -/
def checkSession (sessionId : String) (base : Option String) : PlanOp Unit := do
  let session ← PlanOp.onRest (Db.sessionsT.select sessionId)
  let session ← Tx.require session (.recordNotFound ("session not found: " ++ sessionId))
  Tx.ensure (session.status = .active) (.concurrencyConflict "planner result requires an active session")
  Tx.ensure (some session.integrationHeadCommit = base) (.concurrencyConflict "planner result base commit became stale")

/-- Commit planner success and its result workflow as one mutation. -/
def succeedWithWorkflow (H : PlanHost φ) (plannerRunId : String) (workflow : NewWorkflow H) (lease : MasterLease)
    (now : Instant) : PlanOp (PlannerRunRow × DraftRecord φ) := do
  Tx.ensure (workflow.sourcePlannerRunId = some plannerRunId)
    (.valueError "result workflow must reference its planner run")
  PlanOp.onRest (MasterLeaseRepository.assertValidIn lease now)
  let current ← PlanDb.plannerRunsT.select plannerRunId
  let current ← Tx.require current (.recordNotFound ("planner run not found: " ++ plannerRunId))
  Tx.ensure (current.status = .running)
    (.concurrencyConflict ("planner run " ++ plannerRunId ++ " expected running, found " ++ current.status.value))
  Tx.ensure (current.sessionId = workflow.sessionId) (.valueError "result workflow must belong to the planner session")
  checkSession workflow.sessionId current.integrationBaseCommit
  let created ← WorkflowRepository.createIn H workflow now
  let changed ← setStatus plannerRunId .running (PlannerRunRow.succeeded created.workflowId created.semanticVersion now)
    fun _ => rfl
  Tx.ensure (changed = 1) (.concurrencyConflict "planner success transition lost running CAS")
  appendEvent lease plannerRunId workflow.sessionId (some .running) .succeeded none now
  let row ← rowOf plannerRunId
  return (row, created)

def get (plannerRunId : String) : PlanOp PlannerRunRow := do
  let row ← PlanDb.plannerRunsT.select plannerRunId
  Tx.require row (.recordNotFound ("planner run not found: " ++ plannerRunId))

end PlannerRunRepository

end AgentHub
