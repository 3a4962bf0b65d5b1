import AgentHub.Storage.EventLog
import AgentHub.Workflow.GraphCodec
/-!
# The planning tables

The tables of workflows and planner runs with every column their repositories use, beside the other tables. Graphs and
layouts are stored as texts, each with its digest.
-/

namespace AgentHub

open Lib Workspace

inductive PlannerType where
  | ruleBased | openCode
  deriving DecidableEq, Repr

inductive PlannerRunStatus where
  | pending | running | succeeded | failed | timedOut | cancelled | orphaned
  deriving DecidableEq, Repr

def PlannerRunStatus.value : PlannerRunStatus → String
  | .pending => "pending" | .running => "running" | .succeeded => "succeeded" | .failed => "failed"
  | .timedOut => "timed_out" | .cancelled => "cancelled" | .orphaned => "orphaned"

/-- A row of `workflows`. -/
structure DraftRow where
  id : String
  sessionId : String
  parentWorkflowId : Option String := none
  sourcePlannerRunId : Option String := none
  semanticVersion : Nat := 1
  layoutVersion : Nat := 1
  authorGraphJson : String
  authorGraphHash : String
  layoutJson : String
  layoutHash : String
  lastCompiledGraphJson : Option String := none
  lastCompiledGraphHash : Option String := none
  lastCompiledSemanticVersion : Option Nat := none
  lastCompiledAgentCatalogHash : Option String := none
  lastCompiledBaseCommit : Option String := none
  policyVersion : Option String := none
  createdAt : String
  updatedAt : String
  deriving DecidableEq, Repr

/-- A row of `planner_runs`. -/
structure PlannerRunRow where
  id : String
  sessionId : String
  plannerId : String
  plannerType : PlannerType
  plannerModel : Option String := none
  integrationBaseCommit : Option String := none
  status : PlannerRunStatus
  resultWorkflowId : Option String := none
  resultSemanticVersion : Option Int := none
  errorCode : Option String := none
  createdAt : String
  startedAt : Option String := none
  finishedAt : Option String := none
  deriving DecidableEq, Repr

/-- An event of a planner run: a row of `events` without a workflow or a run. -/
structure PlannerEventRow where
  sessionId : String
  actorId : Option String
  masterFencingToken : Nat
  plannerRunId : String
  previousStatus : Option PlannerRunStatus
  status : PlannerRunStatus
  errorCode : Option String
  createdAt : String
  deriving DecidableEq, Repr

/-- The database with its planning tables. The workflows of `rest` are not used: `workflows` is that table. -/
structure PlanDb where
  rest : Db
  workflows : Table DraftRow DraftRow.id DraftRow.id
  plannerRuns : Table PlannerRunRow PlannerRunRow.id PlannerRunRow.id
  plannerEvents : List PlannerEventRow := []

namespace PlanDb

abbrev workflowsT : TableRef PlanDb DraftRow.id DraftRow.id :=
  ⟨workflows, fun db t => { db with workflows := t }, fun _ _ => rfl⟩

abbrev plannerRunsT : TableRef PlanDb PlannerRunRow.id PlannerRunRow.id :=
  ⟨plannerRuns, fun db t => { db with plannerRuns := t }, fun _ _ => rfl⟩

end PlanDb

/-- An operation on the database with its planning tables. -/
abbrev PlanOp (α : Type) : Type := Tx PlanDb StorageError α

namespace PlanOp
variable {α : Type}

/-- An operation on the other tables. -/
def onRest (x : Op α) : PlanOp α := fun db =>
  match x.run db.rest with
  | .ok (a, rest) => .ok (a, { db with rest := rest })
  | .error e => .error e

def lift (x : Except StorageError α) : PlanOp α := fun db => x.map (·, db)

@[simp] theorem onRest_ok {x : Op α} {db : PlanDb} {r : α × PlanDb} :
    (onRest x).run db = .ok r ↔ ∃ rest, x.run db.rest = .ok (r.1, rest) ∧ r.2 = { db with rest := rest } := by
  obtain ⟨a, db'⟩ := r
  unfold onRest
  simp only [StateT.run]
  cases h : x db.rest with
  | error e => simp
  | ok p =>
    obtain ⟨b, rest⟩ := p
    simp only [Except.ok.injEq, Prod.mk.injEq]
    constructor
    · rintro ⟨rfl, rfl⟩
      exact ⟨rest, ⟨rfl, rfl⟩, rfl⟩
    · rintro ⟨rest', ⟨rfl, rfl⟩, rfl⟩
      exact ⟨rfl, rfl⟩

@[simp] theorem lift_ok {x : Except StorageError α} {db : PlanDb} {r : α × PlanDb} :
    (lift x).run db = .ok r ↔ x = .ok r.1 ∧ r.2 = db := by
  obtain ⟨a, db'⟩ := r
  unfold lift
  cases x with
  | error e => simp [StateT.run, Except.map]
  | ok b => simp [StateT.run, Except.map, eq_comm]

theorem onRest_readOnly {x : Op α} (hx : Tx.ReadOnly x) : Tx.ReadOnly (onRest x) := by
  intro db r h
  obtain ⟨rest, hrun, hr⟩ := onRest_ok.1 h
  rw [hr, show rest = db.rest from hx _ _ hrun]

theorem onRest_run {x : Op α} (hx : Tx.ReadOnly x) {db : PlanDb} {a : α} :
    (onRest x).run db = .ok (a, db) ↔ x.run db.rest = .ok (a, db.rest) := by
  rw [onRest_ok]
  constructor
  · rintro ⟨rest, hrun, -⟩
    rwa [show rest = db.rest from hx _ _ hrun] at hrun
  · intro hrun
    exact ⟨db.rest, hrun, rfl⟩

end PlanOp

/-- Digests and floats. -/
structure PlanHost (φ : Type) where
  floats : Floats φ
  sha256 : Bytes → String
  hex : ∀ content, Workspace.isSha256Hex (sha256 content) = true

/-- The digest of a stored text. -/
def PlanHost.digest {φ : Type} (H : PlanHost φ) (stored : String) : String := H.sha256 (utf8 stored)

/-- The canonical text of a layout. -/
def PlanHost.layoutText {φ : Type} (H : PlanHost φ) (layout : WorkflowLayout φ) : String :=
  (WorkflowLayout.codec H.floats).toText H.floats.text layout

/-- Author graphs, layouts and compiled graphs come as values of their models, which validated them. -/
abbrev AdmittedGraph : Type := { g : AuthorGraph // AuthorGraph.codec.Valid g }

abbrev AdmittedLayout {φ : Type} (H : PlanHost φ) : Type :=
  { l : WorkflowLayout φ // (WorkflowLayout.codec H.floats).Valid l }

abbrev AdmittedCompiled : Type := { g : CompiledGraph // CompiledGraph.codec.Valid g }

end AgentHub
