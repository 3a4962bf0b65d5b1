import AgentHub.Storage.Planning.PlannerRuns
/-!
# Calls on the planning repositories

Every operation of the workflow and planner run repositories as one kind of call, and the runs of committed calls, with a
log of what was written to which workflow. Between two calls the other tables may change in any way.
-/

namespace AgentHub

open Lib Workspace

variable {φ : Type}

inductive PlanCall (H : PlanHost φ) where
  | createWorkflow (value : NewWorkflow H)
  | updateAuthorGraph (workflowId : String) (graph : AdmittedGraph) (expected : Int)
  | updateLayout (workflowId : String) (layout : AdmittedLayout H) (expected : Int)
  | saveCompiledPreview (workflowId : String) (compiled : AdmittedCompiled) (expected : Int) (workspaceLease : WorkspaceLease)
  | createRun (value : NewPlannerRun)
  | transition (plannerRunId : String) (expected target : PlannerRunStatus) (result : PlannerResult)
  | orphanRunning
  | succeedWithWorkflow (plannerRunId : String) (workflow : NewWorkflow H)

/-- An operation without what it returns. -/
def PlanOp.void {α : Type} (x : PlanOp α) : PlanOp Unit := do
  let _ ← x
  pure ()

theorem PlanOp.void_ok {α : Type} {x : PlanOp α} {db : PlanDb} {r : Unit × PlanDb} :
    x.void.run db = .ok r ↔ ∃ a, x.run db = .ok (a, r.2) := by
  obtain ⟨u, db'⟩ := r
  simp only [PlanOp.void, StateT.run_bind, Tx.bind_ok, StateT.run_pure, Tx.pure_ok]
  constructor
  · rintro ⟨⟨a, _⟩, hx, hr⟩
    cases hr
    exact ⟨a, hx⟩
  · rintro ⟨a, hx⟩
    exact ⟨_, hx, rfl⟩

namespace PlanCall

def op (H : PlanHost φ) (lease : MasterLease) (now : Instant) : PlanCall H → PlanOp Unit
  | .createWorkflow value => (WorkflowRepository.createIn H value now).void
  | .updateAuthorGraph id graph expected => (WorkflowRepository.updateAuthorGraph H id graph expected now).void
  | .updateLayout id layout expected => (WorkflowRepository.updateLayout H id layout expected now).void
  | .saveCompiledPreview id compiled expected ws =>
    (WorkflowRepository.saveCompiledPreview H id compiled expected ws now).void
  | .createRun value => (PlannerRunRepository.createIn value lease now).void
  | .transition id expected target result => (PlannerRunRepository.transition id expected target lease result now).void
  | .orphanRunning => (PlannerRunRepository.orphanRunning lease now).void
  | .succeedWithWorkflow id workflow => (PlannerRunRepository.succeedWithWorkflow H id workflow lease now).void

end PlanCall

/-- A call as it is made: by which master and when. -/
structure PlanInvocation (H : PlanHost φ) where
  call : PlanCall H
  lease : MasterLease
  now : Instant

namespace PlanInvocation
variable {H : PlanHost φ}

def op (i : PlanInvocation H) : PlanOp Unit := i.call.op H i.lease i.now

/-- Commit or roll back the call. -/
def commit (i : PlanInvocation H) (db : PlanDb) : Except StorageError Unit × PlanDb := Tx.commit i.op db

end PlanInvocation

/-! ## What is written to workflows -/

/-- A write to a workflow: its creation, or an update under the version its caller read. -/
inductive DraftWrite (H : PlanHost φ) where
  | create (sessionId : String) (parent plannerRun : Option String) (graph : AdmittedGraph) (layout : AdmittedLayout H)
  | editGraph (graph : AdmittedGraph) (expected : Int)
  | editLayout (layout : AdmittedLayout H) (expected : Int)
  | savePreview (compiled : AdmittedCompiled) (expected : Int)

/-- An empty id stands for none. -/
def nonempty : Option String → Option String := Option.filter fun s => s ≠ ""

def NewWorkflow.write {H : PlanHost φ} (value : NewWorkflow H) : DraftWrite H :=
  .create value.sessionId (nonempty value.parentWorkflowId) (nonempty value.sourcePlannerRunId) value.authorGraph value.layout

/-- What a call writes to which workflow, if it returns. -/
def PlanCall.write {H : PlanHost φ} : PlanCall H → Option (String × DraftWrite H)
  | .createWorkflow value => some (value.workflowId, value.write)
  | .updateAuthorGraph id graph expected => some (id, .editGraph graph expected)
  | .updateLayout id layout expected => some (id, .editLayout layout expected)
  | .saveCompiledPreview id compiled expected _ => some (id, .savePreview compiled expected)
  | .succeedWithWorkflow _ workflow => some (workflow.workflowId, workflow.write)
  | .createRun _ | .transition _ _ _ _ | .orphanRunning => none

/-- The log entries of a commit: what the call writes, if it returned. -/
def PlanInvocation.log {H : PlanHost φ} (i : PlanInvocation H) (db : PlanDb) : List (String × DraftWrite H) :=
  match (i.commit db).1 with
  | .ok _ => i.call.write.toList
  | .error _ => []

/-- A run of commits of calls of a kind, and the log of its writes to workflows. -/
inductive PlanRun (H : PlanHost φ) (Made : PlanCall H → Prop) (db : PlanDb) : List (String × DraftWrite H) → PlanDb → Prop
  | start : PlanRun H Made db [] db
  | call {log : List (String × DraftWrite H)} {db' : PlanDb} (h : PlanRun H Made db log db') (i : PlanInvocation H)
      (hi : Made i.call) : PlanRun H Made db (log ++ i.log db') (i.commit db').2
  | other {log : List (String × DraftWrite H)} {db' : PlanDb} (h : PlanRun H Made db log db') (rest : Db) :
      PlanRun H Made db log { db' with rest := rest }

/-- The writes to one workflow. -/
def writesTo {H : PlanHost φ} (log : List (String × DraftWrite H)) (id : String) : List (DraftWrite H) :=
  log.filterMap fun e => if e.1 = id then some e.2 else none

end AgentHub
