import AgentHub.Storage.Db
/-!
# Events

`append_in` numbers a run's events from the counter of its row. `Quiet` is what an append leaves
alone: every table but the event log, and every column of a run row but that counter.
-/

namespace AgentHub

open Lib

def runCreated : String := "workflow.run_created"
def runStateChanged : String := "workflow.state_changed"
def nodeStateChanged : String := "workflow.node_state_changed"
def taskStateChanged : String := "workflow.task_state_changed"
def changeSetStateChanged : String := "workflow.change_set_state_changed"
def approvalStateChanged : String := "workflow.approval_state_changed"
def privilegeRequestStateChanged : String := "workflow.privilege_request_state_changed"
def capabilityGrantStateChanged : String := "workflow.capability_grant_state_changed"
def recoveryAction : String := "workflow.recovery_action"
def plannerStateChanged : String := "workflow.planner_state_changed"
def schemaMigrationStateChanged : String := "workflow.schema_migration_state_changed"

namespace EventRepository

/-- The run part of `append_in`: check ownership and take the next number of the run. -/
def allocateSeq (sessionId workflowId workflowRunId : String) : Op Nat := do
  let workflow ← Tx.read fun db => db.workflows.get? workflowId
  let workflow ← Tx.require workflow (.recordNotFound ("workflow not found: " ++ workflowId))
  Tx.ensure (workflow.sessionId = sessionId)
    (.eventPayload ("workflow " ++ workflowId ++ " does not belong to session " ++ sessionId))
  let run ← Db.workflowRunsT.select workflowRunId
  let run ← Tx.require run (.recordNotFound ("workflow run not found: " ++ workflowRunId))
  Tx.ensure (run.sessionId = sessionId)
    (.eventPayload ("workflow run " ++ workflowRunId ++ " does not belong to session " ++ sessionId))
  Tx.ensure (run.workflowId = workflowId)
    (.eventPayload ("workflow run " ++ workflowRunId ++ " does not belong to workflow " ++ workflowId))
  Db.workflowRunsT.cas workflowRunId (fun r => r.nextEventSeq = run.nextEventSeq)
    (fun r => { r with nextEventSeq := r.nextEventSeq + 1 }) (fun _ => rfl) (fun _ => rfl)
    (.eventPayload ("failed to allocate run_seq for run " ++ workflowRunId ++ "; concurrent allocation detected"))
  return run.nextEventSeq

/-- `append_in` for an event of a run, by the master `actorId`. -/
def appendIn (sessionId eventType actorId : String) (payload : EventPayload) (workflowId workflowRunId : String)
    (now : Instant) : Op Unit := do
  let session ← Db.sessionsT.select sessionId
  let _ ← Tx.require session (.recordNotFound ("session not found: " ++ sessionId))
  let seq ← allocateSeq sessionId workflowId workflowRunId
  Tx.write fun db => { db with events := db.events ++
    [⟨sessionId, some workflowId, some workflowRunId, some seq, eventType, .master, some actorId, payload, utcNowText now⟩] }

/-- `append_security_event_in` for an event of a run without a task. -/
def appendSecurityEventIn (sessionId workflowRunId eventType severity : String) (payload : EventPayload)
    (now : Instant) : Op Unit := do
  let session ← Db.sessionsT.select sessionId
  let _ ← Tx.require session (.recordNotFound ("session not found: " ++ sessionId))
  let run ← Db.workflowRunsT.select workflowRunId
  Tx.ensure (run.any fun r => r.sessionId = sessionId) (.recordNotFound ("workflow run not found: " ++ workflowRunId))
  Tx.write fun db => { db with securityEvents := db.securityEvents ++
    [⟨sessionId, some workflowRunId, none, eventType, severity, payload, utcNowText now⟩] }

end EventRepository

/-! ## What an append leaves alone -/

/-- A run row without its event counter. -/
def WorkflowRunRow.core (r : WorkflowRunRow) : WorkflowRunRow := { r with nextEventSeq := 0 }

/-- The run row of `id`, its event counter aside. -/
def Db.run? (db : Db) (id : String) : Option WorkflowRunRow := (db.workflowRuns.get? id).map WorkflowRunRow.core

/-- `db'` differs from `db` in its events and event counters only. -/
structure Quiet (db db' : Db) : Prop where
  runs : ∀ id, db'.run? id = db.run? id
  nodeRuns : db'.nodeRuns = db.nodeRuns
  sessions : db'.sessions = db.sessions
  workflows : db'.workflows = db.workflows
  tasks : db'.tasks = db.tasks
  changeSets : db'.changeSets = db.changeSets
  artifacts : db'.artifacts = db.artifacts
  approvals : db'.approvals = db.approvals
  privilegeRequests : db'.privilegeRequests = db.privilegeRequests
  capabilityGrants : db'.capabilityGrants = db.capabilityGrants
  masterLeases : db'.masterLeases = db.masterLeases
  fileLocks : db'.fileLocks = db.fileLocks

theorem Quiet.refl (db : Db) : Quiet db db := ⟨fun _ => rfl, rfl, rfl, rfl, rfl, rfl, rfl, rfl, rfl, rfl, rfl, rfl⟩

theorem Quiet.trans {a b c : Db} (h : Quiet a b) (h' : Quiet b c) : Quiet a c :=
  ⟨fun id => (h'.runs id).trans (h.runs id), h'.nodeRuns.trans h.nodeRuns, h'.sessions.trans h.sessions,
    h'.workflows.trans h.workflows, h'.tasks.trans h.tasks, h'.changeSets.trans h.changeSets,
    h'.artifacts.trans h.artifacts, h'.approvals.trans h.approvals,
    h'.privilegeRequests.trans h.privilegeRequests, h'.capabilityGrants.trans h.capabilityGrants,
    h'.masterLeases.trans h.masterLeases, h'.fileLocks.trans h.fileLocks⟩

/-- A write to run rows that only touches the event counter changes no run. -/
theorem run?_counter (db : Db) (p : WorkflowRunRow → Bool) (f : WorkflowRunRow → Nat) (hk hu) (id : String) :
    ({ db with workflowRuns := db.workflowRuns.update p (fun r => { r with nextEventSeq := f r }) hk hu } : Db).run? id =
      db.run? id := by
  unfold Db.run?
  simp only
  rw [Table.get?_update, Option.map_map]
  congr 1
  funext r
  by_cases hp : p r <;> simp [hp, WorkflowRunRow.core]

namespace EventRepository

theorem allocateSeq_quiet {sid wid rid : String} {db db' : Db} {n : Nat}
    (h : (allocateSeq sid wid rid).run db = .ok (n, db')) : Quiet db db' := by
  simp only [allocateSeq, StateT.run_bind, Tx.bind_ok, Tx.read_ok, Tx.require_ok, Tx.ensure_ok,
    TableRef.select_ok, TableRef.cas_ok, StateT.run_pure, Tx.pure_ok] at h
  obtain ⟨_, rfl, ⟨w, s⟩, ⟨-, rfl⟩, _, ⟨-, rfl⟩, _, rfl, ⟨run, s⟩, ⟨-, rfl⟩, _, ⟨-, rfl⟩, _, ⟨-, rfl⟩, _, ⟨-, rfl⟩, h⟩ := h
  simp only [Prod.mk.injEq] at h
  obtain ⟨-, rfl⟩ := h
  exact ⟨run?_counter _ _ _ _ _, rfl, rfl, rfl, rfl, rfl, rfl, rfl, rfl, rfl, rfl, rfl⟩

theorem appendIn_quiet {sid typ actor : String} {payload : EventPayload} {wid rid : String} {now : Instant}
    {db db' : Db} {u : Unit} (h : (appendIn sid typ actor payload wid rid now).run db = .ok (u, db')) :
    Quiet db db' := by
  simp only [appendIn, StateT.run_bind, Tx.bind_ok, Tx.require_ok, TableRef.select_ok, Tx.write_ok] at h
  obtain ⟨_, rfl, ⟨_, s⟩, ⟨-, rfl⟩, ⟨n, s⟩, hs, h⟩ := h
  simp only [Prod.mk.injEq] at h
  obtain ⟨-, rfl⟩ := h
  exact (allocateSeq_quiet hs).trans ⟨fun _ => rfl, rfl, rfl, rfl, rfl, rfl, rfl, rfl, rfl, rfl, rfl, rfl⟩

theorem appendSecurityEventIn_quiet {sid rid typ sev : String} {payload : EventPayload} {now : Instant}
    {db db' : Db} {u : Unit} (h : (appendSecurityEventIn sid rid typ sev payload now).run db = .ok (u, db')) :
    Quiet db db' := by
  simp only [appendSecurityEventIn, StateT.run_bind, Tx.bind_ok, Tx.require_ok, TableRef.select_ok, Tx.ensure_ok,
    Tx.write_ok] at h
  obtain ⟨_, rfl, ⟨_, s⟩, ⟨-, rfl⟩, _, rfl, _, ⟨-, rfl⟩, h⟩ := h
  simp only [Prod.mk.injEq] at h
  obtain ⟨-, rfl⟩ := h
  exact ⟨fun _ => rfl, rfl, rfl, rfl, rfl, rfl, rfl, rfl, rfl, rfl, rfl, rfl⟩

end EventRepository

end AgentHub
