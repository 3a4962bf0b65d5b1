import AgentHub.Storage.Planning.PlannerCourses
/-!
# Where workflows come from

A workflow names the planner run it was made by, and the planner run names the workflow it made. As the application makes
its calls, the two always agree, so a run is never refused for its lineage (`lineage_consistent`).
-/

namespace AgentHub

open Lib Workspace

variable {φ : Type} {H : PlanHost φ}

/-- The calls of `WorkflowApplication` and the API: planner runs succeed by `succeed_with_workflow` only, and no other call
reports a result or makes a workflow of a planner run. -/
def PlanCall.FromApplication : PlanCall H → Prop
  | .createWorkflow value => nonempty value.sourcePlannerRunId = none
  | .transition _ _ target result => target ≠ .succeeded ∧ result.workflowId = none ∧ result.semanticVersion = none
  | _ => True

/-- The planner run that made the workflow. -/
def checkLineage (plannerRunId workflowId : String) : PlanOp (Option PlannerRunRow) := do
  let plannerRun ← PlannerRunRepository.get plannerRunId
  Tx.ensure (plannerRun.resultWorkflowId = some workflowId) (.concurrencyConflict "workflow planner lineage is inconsistent")
  return some plannerRun

/-- The planner run that a run of the workflow is created with. -/
def plannerRunOf (workflow : DraftRecord φ) : PlanOp (Option PlannerRunRow) :=
  match workflow.sourcePlannerRunId with
  | none => return none
  | some id => checkLineage id workflow.workflowId

/-! ## The invariant -/

/-- The planner run made the workflow. -/
structure Produced (run : PlannerRunRow) (workflow : DraftRow) : Prop where
  status : run.status = .succeeded
  session : run.sessionId = workflow.sessionId
  source : workflow.sourcePlannerRunId = some run.id
  result : run.resultWorkflowId = some workflow.id
  version : run.resultSemanticVersion = some 1

/-- The planner run has made no workflow. -/
structure NoResult (run : PlannerRunRow) : Prop where
  status : run.status ≠ .succeeded
  result : run.resultWorkflowId = none
  version : run.resultSemanticVersion = none

/-- Workflows and planner runs name each other. -/
structure Lineage (db : PlanDb) : Prop where
  source : ∀ id row p, db.workflows.get? id = some row → row.sourcePlannerRunId = some p →
    ∃ run, db.plannerRuns.get? p = some run ∧ Produced run row
  result : ∀ p run, db.plannerRuns.get? p = some run →
    NoResult run ∨ ∃ id row, db.workflows.get? id = some row ∧ Produced run row
  named : ∀ p run, db.plannerRuns.get? p = some run → p ≠ ""

/-- A row that is rewritten keeps what names its origin. -/
structure SameOrigin (row row' : DraftRow) : Prop where
  id : row'.id = row.id
  session : row'.sessionId = row.sessionId
  source : row'.sourcePlannerRunId = row.sourcePlannerRunId

theorem Produced.of_sameOrigin {run : PlannerRunRow} {row row' : DraftRow} (h : Produced run row) (hsame : SameOrigin row row') :
    Produced run row' := by
  refine ⟨h.status, ?_, ?_, ?_, h.version⟩
  · rw [hsame.session]
    exact h.session
  · rw [hsame.source]
    exact h.source
  · rw [hsame.id]
    exact h.result

namespace Lineage
variable {db db' : PlanDb}

/-- A planner run that may still go on has made nothing. -/
theorem noResult (h : Lineage db) {p : String} {run : PlannerRunRow} (hrun : db.plannerRuns.get? p = some run)
    (hstatus : run.status ≠ .succeeded) : NoResult run := by
  rcases h.result p run hrun with hno | ⟨_, _, -, hproduced⟩
  · exact hno
  · exact absurd hproduced.status hstatus

/-- A workflow's row is rewritten. -/
theorem edit (h : Lineage db) {id : String} {row row' : DraftRow} (hrow : db.workflows.get? id = some row)
    (hsame : SameOrigin row row') (hleaves : LeavesRow db.workflows db'.workflows id row')
    (hruns : db'.plannerRuns = db.plannerRuns) : Lineage db' := by
  refine ⟨fun k r p hk hp => ?_, fun p run hrun => ?_, fun p run hrun => h.named p run (hruns ▸ hrun)⟩
  -- the row that is left names what the row that was found named
  · rw [hruns]
    by_cases hid : k = id
    · subst hid
      obtain rfl := Option.some.inj (hleaves.self.symm.trans hk)
      rw [hsame.source] at hp
      obtain ⟨run, hrun, hproduced⟩ := h.source k row p hrow hp
      exact ⟨run, hrun, hproduced.of_sameOrigin hsame⟩
    · rw [hleaves.others k hid] at hk
      exact h.source k r p hk hp
  · rw [hruns] at hrun
    rcases h.result p run hrun with hno | ⟨k, r, hk, hproduced⟩
    · exact .inl hno
    · by_cases hid : k = id
      · subst hid
        obtain rfl := Option.some.inj (hrow.symm.trans hk)
        exact .inr ⟨k, row', hleaves.self, hproduced.of_sameOrigin hsame⟩
      · exact .inr ⟨k, r, (hleaves.others k hid).trans hk, hproduced⟩

/-- A workflow comes into being, of no planner run. -/
theorem create (h : Lineage db) {id : String} {row : DraftRow} (hfree : db.workflows.get? id = none)
    (hsource : row.sourcePlannerRunId = none) (hleaves : LeavesRow db.workflows db'.workflows id row)
    (hruns : db'.plannerRuns = db.plannerRuns) : Lineage db' := by
  refine ⟨fun k r p hk hp => ?_, fun p run hrun => ?_, fun p run hrun => h.named p run (hruns ▸ hrun)⟩
  · rw [hruns]
    by_cases hid : k = id
    · subst hid
      obtain rfl := Option.some.inj (hleaves.self.symm.trans hk)
      rw [hsource] at hp
      cases hp
    · rw [hleaves.others k hid] at hk
      exact h.source k r p hk hp
  · rw [hruns] at hrun
    refine (h.result p run hrun).imp_right fun hproduced => ?_
    -- the workflow of a planner run was there before, so it is another one
    obtain ⟨k, r, hk, hproduced⟩ := hproduced
    have hid : k ≠ id := by
      rintro rfl
      rw [hfree] at hk
      cases hk
    exact ⟨k, r, (hleaves.others k hid).trans hk, hproduced⟩

/-- A planner run comes into being or goes on, without a result. -/
theorem change (h : Lineage db) {p : String} {before : Option PlannerRunRow} {after : PlannerRunRow}
    (hchange : PlannerChange db db' p before after) (hbefore : ∀ run, before = some run → run.status ≠ .succeeded)
    (hafter : NoResult after) (hp : p ≠ "") (hworkflows : db'.workflows = db.workflows) : Lineage db' := by
  refine ⟨fun id row q hrow hq => ?_, fun q run hrun => ?_, fun q run hrun => ?_⟩
  · rw [hworkflows] at hrow
    obtain ⟨run, hrun, hproduced⟩ := h.source id row q hrow hq
    -- the planner run that moves has not succeeded, so no workflow names it
    have hne : q ≠ p := by
      rintro rfl
      exact hbefore run (hchange.found.symm.trans hrun) hproduced.status
    exact ⟨run, (hchange.others q hne).trans hrun, hproduced⟩
  · rw [hworkflows]
    by_cases hqp : q = p
    · subst hqp
      obtain rfl := Option.some.inj (hchange.self.symm.trans hrun)
      exact .inl hafter
    · exact h.result q run ((hchange.others q hqp).symm.trans hrun)
  · by_cases hqp : q = p
    · rwa [hqp]
    · exact h.named q run ((hchange.others q hqp).symm.trans hrun)

/-- A planner run succeeds with the workflow it made. -/
theorem succeed (h : Lineage db) {p id : String} {run after : PlannerRunRow} {row : DraftRow}
    (hchange : PlannerChange db db' p (some run) after) (hrunning : run.status ≠ .succeeded)
    (hfree : db.workflows.get? id = none) (hleaves : LeavesRow db.workflows db'.workflows id row)
    (hsource : row.sourcePlannerRunId = some p) (hproduced : Produced after row) : Lineage db' := by
  refine ⟨fun k r q hk hq => ?_, fun q r hr => ?_, fun q r hr => ?_⟩
  · by_cases hid : k = id
    · subst hid
      obtain rfl := Option.some.inj (hleaves.self.symm.trans hk)
      obtain rfl := Option.some.inj (hsource.symm.trans hq)
      exact ⟨after, hchange.self, hproduced⟩
    · rw [hleaves.others k hid] at hk
      obtain ⟨r', hr', hproduced'⟩ := h.source k r q hk hq
      -- no older workflow names the planner run, which was still running
      have hne : q ≠ p := by
        rintro rfl
        obtain rfl := Option.some.inj (hchange.found.symm.trans hr')
        exact hrunning hproduced'.status
      exact ⟨r', (hchange.others q hne).trans hr', hproduced'⟩
  · by_cases hqp : q = p
    · subst hqp
      obtain rfl := Option.some.inj (hchange.self.symm.trans hr)
      exact .inr ⟨id, row, hleaves.self, hproduced⟩
    · refine (h.result q r ((hchange.others q hqp).symm.trans hr)).imp_right fun hold => ?_
      obtain ⟨k, r', hk, hproduced'⟩ := hold
      have hid : k ≠ id := by
        rintro rfl
        rw [hfree] at hk
        cases hk
      exact ⟨k, r', (hleaves.others k hid).trans hk, hproduced'⟩
  · by_cases hqp : q = p
    · rw [hqp]
      exact h.named p run hchange.found
    · exact h.named q r ((hchange.others q hqp).symm.trans hr)

end Lineage

/-! ## Every call of the application -/

section
variable {row : PlannerRunRow} {now : Instant}

theorem PlannerRunStatus.running_ne_succeeded : PlannerRunStatus.running ≠ .succeeded := by decide

theorem newRow_noResult (value : NewPlannerRun) (now : Instant) : NoResult (PlannerRunRepository.newRow value now) :=
  ⟨(show PlannerRunStatus.pending ≠ .succeeded by decide), rfl, rfl⟩

theorem NoResult.moved (h : NoResult row) {target : PlannerRunStatus} {result : PlannerResult} (htarget : target ≠ .succeeded)
    (hresult : result.workflowId = none) (hversion : result.semanticVersion = none) : NoResult (row.moved target result now) := by
  refine ⟨htarget, ?_, ?_⟩
  · simp [PlannerRunRow.moved, hresult, h.result]
  · simp [PlannerRunRow.moved, hversion, h.version]

theorem NoResult.orphaned (h : NoResult row) {code : String} : NoResult (row.orphaned code now) :=
  ⟨(show PlannerRunStatus.orphaned ≠ .succeeded by decide), h.result, h.version⟩

theorem withGraph_sameOrigin (row : DraftRow) {graph : AuthorGraph} : SameOrigin row (row.withGraph H graph now) :=
  ⟨rfl, rfl, rfl⟩

theorem withLayout_sameOrigin (row : DraftRow) {layout : WorkflowLayout φ} : SameOrigin row (row.withLayout H layout now) :=
  ⟨rfl, rfl, rfl⟩

theorem withPreview_sameOrigin (row : DraftRow) {compiled : CompiledGraph} {version : Nat} :
    SameOrigin row (row.withPreview H compiled version now) := ⟨rfl, rfl, rfl⟩

end

theorem PlanCall.lineage {call : PlanCall H} {lease : MasterLease} {now : Instant} {db : PlanDb} {r : Unit × PlanDb}
    (hcall : call.FromApplication) (h : (call.op H lease now).run db = .ok r) (hdb : Lineage db) : Lineage r.2 := by
  cases call with
  | createWorkflow value =>
    obtain ⟨_, h⟩ := PlanOp.void_ok.1 h
    obtain ⟨-, ⟨t, hinsert, ht⟩, -⟩ := WorkflowRepository.createIn_ok h
    rw [show r.2 = _ from ht]
    have hsource : (WorkflowRepository.newRow value (nonempty value.parentWorkflowId) (nonempty value.sourcePlannerRunId)
        now).sourcePlannerRunId = none := hcall
    exact hdb.create (Table.insert_eq_some hinsert).2.1 hsource (leaves_insert hinsert) rfl
  | updateAuthorGraph id graph expected =>
    obtain ⟨_, h⟩ := PlanOp.void_ok.1 h
    obtain ⟨-, -, row, hrow, hversion, -, hr⟩ := WorkflowRepository.updateAuthorGraph_ok.1 h
    rw [show r.2 = _ from hr]
    exact hdb.edit hrow (withGraph_sameOrigin row) (leaves_swap hrow (decide_eq_true hversion)) rfl
  | updateLayout id layout expected =>
    obtain ⟨_, h⟩ := PlanOp.void_ok.1 h
    obtain ⟨-, -, row, hrow, hversion, -, hr⟩ := WorkflowRepository.updateLayout_ok.1 h
    rw [show r.2 = _ from hr]
    exact hdb.edit hrow (withLayout_sameOrigin row) (leaves_swap hrow (decide_eq_true hversion)) rfl
  | saveCompiledPreview id compiled expected ws =>
    obtain ⟨_, h⟩ := PlanOp.void_ok.1 h
    obtain ⟨row, hrow, hmatch, hr⟩ := WorkflowRepository.saveCompiledPreview_ok h
    rw [show r.2 = _ from hr]
    exact hdb.edit hrow (withPreview_sameOrigin row) (leaves_swap hrow (decide_eq_true hmatch)) rfl
  | createRun value =>
    obtain ⟨_, h⟩ := PlanOp.void_ok.1 h
    obtain ⟨hinsertable, hworkflows, hchange⟩ := PlannerRunRepository.createIn_change h
    have hid : value.plannerRunId ≠ "" := by
      intro heq
      simp [PlannerRunRepository.insertable, heq] at hinsertable
    exact hdb.change hchange (fun _ hrun => by cases hrun) (newRow_noResult value now) hid hworkflows
  | transition id expected target result =>
    obtain ⟨_, h⟩ := PlanOp.void_ok.1 h
    obtain ⟨htarget, hworkflows, row, rfl, hchange⟩ := PlannerRunRepository.transition_change h
    obtain ⟨hnot, hresult, hversion⟩ := hcall
    -- an ended planner run has no transition, so this one has made nothing yet
    have hrow : row.status ≠ .succeeded := by
      intro hsucceeded
      rw [hsucceeded] at htarget
      cases htarget
    have hno := hdb.noResult hchange.found hrow
    exact hdb.change hchange (fun run hrun => Option.some.inj hrun ▸ hrow) (hno.moved hnot hresult hversion)
      (hdb.named id row hchange.found) hworkflows
  | orphanRunning =>
    obtain ⟨_, h⟩ := PlanOp.void_ok.1 h
    have hquarantines := PlannerRunRepository.orphanRunning_changes h
    generalize r.2 = s at hquarantines
    -- one planner run after the other
    induction hquarantines with
    | refl => exact hdb
    | tail _ hlast ih =>
      obtain ⟨hworkflows, id, row, now, hrunning, hchange⟩ := hlast
      have hrow : row.status ≠ .succeeded := hrunning ▸ PlannerRunStatus.running_ne_succeeded
      have hno := ih.noResult hchange.found hrow
      exact ih.change hchange (fun run hrun => Option.some.inj hrun ▸ hrow) hno.orphaned (ih.named id row hchange.found)
        hworkflows
  | succeedWithWorkflow id workflow =>
    obtain ⟨_, h⟩ := PlanOp.void_ok.1 h
    obtain ⟨hsource, ⟨created, db₁, hcreate, hworkflows⟩, row, hrunning, hsession, hchange⟩ :=
      PlannerRunRepository.succeedWithWorkflow_change h
    obtain ⟨-, ⟨t, hinsert, hdb₁⟩, -⟩ := WorkflowRepository.createIn_ok hcreate
    obtain rfl : db₁ = _ := hdb₁
    -- the workflow names the planner run, whose id is not empty
    have hid : nonempty workflow.sourcePlannerRunId = some id := by
      rw [hsource]
      simp [nonempty, Option.filter, hdb.named id row hchange.found]
    have hrow : row.status ≠ .succeeded := hrunning ▸ PlannerRunStatus.running_ne_succeeded
    have hleaves := leaves_insert hinsert
    rw [← show r.2.workflows = t from hworkflows] at hleaves
    refine hdb.succeed hchange hrow (Table.insert_eq_some hinsert).2.1 hleaves hid ⟨rfl, hsession, ?_, rfl, rfl⟩
    rw [← Table.get?_key hchange.found] at hid
    exact hid

/-- A run that starts with no workflow and no planner run. -/
theorem PlanRun.lineage {db s : PlanDb} {log : List (String × DraftWrite H)} (hworkflows : db.workflows.rows = [])
    (hruns : db.plannerRuns.rows = []) (h : PlanRun H PlanCall.FromApplication db log s) : Lineage s := by
  induction h with
  | start =>
    have hnone : ∀ p, db.plannerRuns.get? p = none := fun p => by simp [Table.get?, hruns]
    refine ⟨fun id row p hrow => ?_, fun p run hrun => ?_, fun p run hrun => ?_⟩
    · simp [Table.get?, hworkflows] at hrow
    · simp [hnone] at hrun
    · simp [hnone] at hrun
  | @call log db' _ i hi ih =>
    cases hrun : i.op.run db' with
    | error e =>
      rw [show (i.commit db').2 = db' from congrArg Prod.snd (Tx.commit_of_error hrun)]
      exact ih
    | ok r =>
      rw [show (i.commit db').2 = r.2 from congrArg Prod.snd (Tx.commit_of_ok hrun)]
      exact PlanCall.lineage hi hrun ih
  | other _ _ ih => exact ⟨ih.source, ih.result, ih.named⟩

/-! ## The lineage check -/

namespace WorkflowRepository

/-- What a record keeps of its row's origin. -/
theorem toRecord_origin {row : DraftRow} {record : DraftRecord φ} (h : toRecord H row = .ok record) :
    record.workflowId = row.id ∧ record.sessionId = row.sessionId ∧ record.sourcePlannerRunId = row.sourcePlannerRunId := by
  simp only [toRecord, Tx.bind_ok, Tx.pure_ok] at h
  obtain ⟨_, -, _, -, _, -, _, -, _, -, _, -, _, -, _, -, _, -, _, -, _, -, rfl⟩ := h
  exact ⟨rfl, rfl, rfl⟩

theorem get_row {id : String} {db : PlanDb} {r : DraftRecord φ × PlanDb} (h : (get H id).run db = .ok r) :
    ∃ row, db.workflows.get? id = some row ∧ toRecord H row = .ok r.1 ∧ r.2 = db := by
  unfold get at h
  simp only [StateT.run_bind, Tx.bind_ok, TableRef.select_ok, Tx.require_ok, Tx.ensure_ok, PlanOp.lift_ok] at h
  obtain ⟨_, ⟨-, rfl⟩, _, rfl, ⟨row, _⟩, ⟨hrow, rfl⟩, hrecord, hdb⟩ := h
  exact ⟨row, hrow, hrecord, hdb⟩

end WorkflowRepository

theorem plannerRunOf_none {workflow : DraftRecord φ} (h : workflow.sourcePlannerRunId = none) {db : PlanDb} :
    (plannerRunOf workflow).run db = .ok (none, db) := by
  unfold plannerRunOf
  rw [h]
  rfl

theorem plannerRunOf_some {workflow : DraftRecord φ} {p : String} (h : workflow.sourcePlannerRunId = some p) :
    plannerRunOf workflow = checkLineage p workflow.workflowId := by
  unfold plannerRunOf
  rw [h]

theorem checkLineage_ok {p workflowId : String} {run : PlannerRunRow} {db : PlanDb} (hrun : db.plannerRuns.get? p = some run)
    (hresult : run.resultWorkflowId = some workflowId) : (checkLineage p workflowId).run db = .ok (some run, db) := by
  simp only [checkLineage, PlannerRunRepository.get, StateT.run_bind, Tx.bind_ok, TableRef.select_ok, Tx.require_ok, Tx.ensure_ok,
    StateT.run_pure, Tx.pure_ok, decide_eq_true_eq]
  exact ⟨(run, db), ⟨_, rfl, hrun, rfl⟩, _, ⟨hresult, rfl⟩, rfl⟩

/-- As the application makes its calls, the lineage check passes for every workflow: either no planner run made it, or the one
it names succeeded, in its session, with this workflow at version 1. And a planner run succeeded exactly when it has a result. -/
theorem lineage_consistent {db s : PlanDb} {log : List (String × DraftWrite H)} (hworkflows : db.workflows.rows = [])
    (hruns : db.plannerRuns.rows = []) (h : PlanRun H PlanCall.FromApplication db log s) :
    (∀ id record s', (WorkflowRepository.get H id).run s = .ok (record, s') →
      ∃ plannerRun, (plannerRunOf record).run s = .ok (plannerRun, s) ∧
        plannerRun.map PlannerRunRow.id = record.sourcePlannerRunId ∧
        ∀ run, plannerRun = some run → run.status = .succeeded ∧ run.sessionId = record.sessionId ∧
          run.resultWorkflowId = some id ∧ run.resultSemanticVersion = some 1) ∧
    ∀ p run, s.plannerRuns.get? p = some run → (run.status = .succeeded ↔ ∃ id row, s.workflows.get? id = some row ∧
      row.sourcePlannerRunId = some p ∧ run.resultWorkflowId = some id) := by
  have hlineage := h.lineage hworkflows hruns
  constructor
  · intro id record s' hget
    obtain ⟨row, hrow, hrecord, -⟩ := WorkflowRepository.get_row hget
    obtain ⟨hid, hsession, hsource⟩ := WorkflowRepository.toRecord_origin hrecord
    rw [hsource, hsession]
    cases hp : row.sourcePlannerRunId with
    | none => exact ⟨none, plannerRunOf_none (hsource.trans hp), rfl, fun _ hrun => by cases hrun⟩
    | some p =>
      -- the planner run that the row names is the one the check reads
      obtain ⟨run, hrun, hproduced⟩ := hlineage.source id row p hrow hp
      have hrowId : row.id = id := Table.get?_key hrow
      have hresult : run.resultWorkflowId = some record.workflowId := by rw [hid, hproduced.result]
      refine ⟨some run, ?_, congrArg some (Table.get?_key hrun), ?_⟩
      · rw [plannerRunOf_some (hsource.trans hp)]
        exact checkLineage_ok hrun hresult
      · intro run' hrun'
        obtain rfl := Option.some.inj hrun'
        exact ⟨hproduced.status, hproduced.session, hrowId ▸ hproduced.result, hproduced.version⟩
  · intro p run hrun
    constructor
    · intro hsucceeded
      rcases hlineage.result p run hrun with hno | ⟨id, row, hrow, hproduced⟩
      · exact absurd hsucceeded hno.status
      · refine ⟨id, row, hrow, ?_, ?_⟩
        · rw [hproduced.source, Table.get?_key hrun]
        · rw [hproduced.result, Table.get?_key hrow]
    · rintro ⟨id, row, hrow, hsource, -⟩
      obtain ⟨run', hrun', hproduced⟩ := hlineage.source id row p hrow hsource
      rw [Option.some.inj (hrun.symm.trans hrun')]
      exact hproduced.status

/-! ## A planner run that succeeds -/

/-- The workflow the sample planner run makes. -/
def plannedWorkflow : NewWorkflow samplePlanHost := { sampleWorkflow with sourcePlannerRunId := some "planner" }

/-- The sample planner run, queued and claimed. -/
def claimedPlan : PlanDb :=
  servePlans [samplePlanCall (.createRun samplePlannerRun), samplePlanCall (.transition "planner" .pending .running {})] samplePlanDb

def sampleSuccess : PlanInvocation samplePlanHost := samplePlanCall (.succeedWithWorkflow "planner" plannedWorkflow)

theorem claimedPlan_run : claimedPlan.plannerRuns.get? "planner" = some
    { PlannerRunRepository.newRow samplePlannerRun sampleNow with
      status := .running, startedAt := some (utcNowText sampleNow) } := by decide +kernel

theorem plannedWorkflow_created : ∃ t, (WorkflowRepository.createIn samplePlanHost plannedWorkflow sampleNow).run claimedPlan =
    .ok ((plannedWorkflow.draft none (some "planner")).record "draft" (utcNowText sampleNow) (utcNowText sampleNow),
      { claimedPlan with workflows := t }) := by
  have hsession : claimedPlan.rest.sessions.get? plannedWorkflow.sessionId = some sampleSession := by decide +kernel
  have hfree : claimedPlan.workflows.get? plannedWorkflow.workflowId = none := by decide +kernel
  obtain ⟨t, -, ht⟩ := WorkflowRepository.createIn_returns (by decide) (by decide) rfl hsession hfree
    (WorkflowRepository.optionalEntityId_some (by decide) (by decide) _) (WorkflowRepository.checkPlanner_some claimedPlan_run rfl)
  exact ⟨t, ht⟩

theorem appendEvent_returns {lease : MasterLease} {id sessionId : String} {previous : Option PlannerRunStatus}
    {target : PlannerRunStatus} {code : Option String} {now : Instant} {db : PlanDb} {session : SessionRow}
    (hpayload : 1 ≤ lease.fencingToken ∧ isEntityId id ∧ code.all fun c => c.length ≤ 200) (hsid : isEntityId sessionId = true)
    (hinstance : isEntityId lease.instanceId = true) (hne : lease.instanceId ≠ "")
    (hsession : db.rest.sessions.get? sessionId = some session) :
    ∃ db', (PlannerRunRepository.appendEvent lease id sessionId previous target code now).run db = .ok ((), db') ∧
      db'.plannerRuns = db.plannerRuns := by
  have hactor : (PlanOp.onRest (EventRepository.optionalEntityId (some lease.instanceId))).run db = .ok (some lease.instanceId, db) :=
    (PlanOp.onRest_run (WorkflowRepository.optionalEntityId_readOnly _)).2 (WorkflowRepository.optionalEntityId_some hne hinstance _)
  have hselect : (PlanOp.onRest (Db.sessionsT.select sessionId)).run db = .ok (some session, db) :=
    (PlanOp.onRest_run (Tx.ReadOnly.read _)).2 (TableRef.select_ok.2 (congrArg (·, db.rest) hsession.symm))
  refine ⟨{ db with plannerEvents := db.plannerEvents ++
    [⟨sessionId, some lease.instanceId, lease.fencingToken, id, previous, target, code, utcNowText now⟩] }, ?_, rfl⟩
  unfold PlannerRunRepository.appendEvent
  rw [Tx.run_bind_of_ok (Tx.ensure_ok.2 ⟨decide_eq_true hpayload, rfl⟩), Tx.run_bind_of_ok (Tx.ensure_ok.2 ⟨hsid, rfl⟩),
    Tx.run_bind_of_ok hactor, Tx.run_bind_of_ok hselect, Tx.run_bind_of_ok (Tx.require_ok.2 ⟨rfl, rfl⟩)]
  rfl

theorem rowOf_returns {id : String} {db : PlanDb} {row : PlannerRunRow} (hrow : db.plannerRuns.get? id = some row) :
    (PlannerRunRepository.rowOf id).run db = .ok (row, db) := by
  unfold PlannerRunRepository.rowOf
  rw [Tx.run_bind_of_ok (TableRef.select_ok.2 rfl)]
  exact Tx.require_ok.2 ⟨hrow, rfl⟩

theorem setStatus_returns {id : String} {expected : PlannerRunStatus} {f : PlannerRunRow → PlannerRunRow} {hid : ∀ r, (f r).id = r.id}
    {db : PlanDb} {row : PlannerRunRow} (hrow : db.plannerRuns.get? id = some row) (hstatus : row.status = expected) :
    ∃ db', (PlannerRunRepository.setStatus id expected f hid).run db = .ok (1, db') ∧ db'.rest = db.rest ∧
      db'.plannerRuns.get? id = some (f row) := by
  refine ⟨_, TableRef.update_ok.2 (Prod.ext (Table.count_key_eq_one.2 ⟨row, hrow, decide_eq_true hstatus⟩).symm rfl), rfl, ?_⟩
  dsimp only
  rw [Table.get?_update_self hrow]
  simp [hstatus]

/-- A claimed planner run can succeed while its master holds the lease and its session has not moved. -/
theorem succeedWithWorkflow_returns {id : String} {workflow : NewWorkflow H} {lease : MasterLease} {now : Instant} {db : PlanDb}
    {row : PlannerRunRow} {session : SessionRow} {created : DraftRecord φ} {t : DraftTable}
    (hsource : workflow.sourcePlannerRunId = some id)
    (hlease : (MasterLeaseRepository.assertValidIn lease now).run db.rest = .ok ((), db.rest))
    (hrow : db.plannerRuns.get? id = some row) (hrunning : row.status = .running) (hsame : row.sessionId = workflow.sessionId)
    (hsession : db.rest.sessions.get? workflow.sessionId = some session) (hactive : session.status = .active)
    (hbase : some session.integrationHeadCommit = row.integrationBaseCommit)
    (hcreate : (WorkflowRepository.createIn H workflow now).run db = .ok (created, { db with workflows := t }))
    (hpayload : 1 ≤ lease.fencingToken ∧ isEntityId id) (hsid : isEntityId workflow.sessionId = true)
    (hinstance : isEntityId lease.instanceId = true) (hne : lease.instanceId ≠ "") :
    ∃ r, (PlannerRunRepository.succeedWithWorkflow H id workflow lease now).run db = .ok r := by
  -- the guards, in the order the operation checks them
  have hassert : (PlanOp.onRest (MasterLeaseRepository.assertValidIn lease now)).run db = .ok ((), db) :=
    (PlanOp.onRest_run (PlannerRunRepository.masterAssert_readOnly _ _)).2 hlease
  have hselect : (PlanOp.onRest (Db.sessionsT.select workflow.sessionId)).run db = .ok (some session, db) :=
    (PlanOp.onRest_run (Tx.ReadOnly.read _)).2 (TableRef.select_ok.2 (congrArg (·, db.rest) hsession.symm))
  have hcheck : (PlannerRunRepository.checkSession workflow.sessionId row.integrationBaseCommit).run db = .ok ((), db) := by
    unfold PlannerRunRepository.checkSession
    rw [Tx.run_bind_of_ok hselect, Tx.run_bind_of_ok (Tx.require_ok.2 ⟨rfl, rfl⟩),
      Tx.run_bind_of_ok (Tx.ensure_ok.2 ⟨decide_eq_true hactive, rfl⟩)]
    exact Tx.ensure_ok.2 ⟨decide_eq_true hbase, rfl⟩
  -- the writes after the creation: the status, then the event
  obtain ⟨db₂, hset, hrest, hself⟩ : ∃ db₂, (PlannerRunRepository.setStatus id .running
      (PlannerRunRow.succeeded created.workflowId created.semanticVersion now) fun _ => rfl).run { db with workflows := t } =
        .ok (1, db₂) ∧ db₂.rest = db.rest ∧
      db₂.plannerRuns.get? id = some (row.succeeded created.workflowId created.semanticVersion now) :=
    setStatus_returns hrow hrunning
  obtain ⟨db₃, happend, hruns⟩ : ∃ db₃, (PlannerRunRepository.appendEvent lease id workflow.sessionId (some .running) .succeeded
      none now).run db₂ = .ok ((), db₃) ∧ db₃.plannerRuns = db₂.plannerRuns :=
    appendEvent_returns ⟨hpayload.1, hpayload.2, rfl⟩ hsid hinstance hne (hrest ▸ hsession)
  rw [← hruns] at hself
  refine ⟨((row.succeeded created.workflowId created.semanticVersion now, created), db₃), ?_⟩
  unfold PlannerRunRepository.succeedWithWorkflow
  rw [Tx.run_bind_of_ok (Tx.ensure_ok.2 ⟨decide_eq_true hsource, rfl⟩), Tx.run_bind_of_ok hassert,
    Tx.run_bind_of_ok (TableRef.select_ok.2 rfl), Tx.run_bind_of_ok (Tx.require_ok.2 ⟨hrow, rfl⟩),
    Tx.run_bind_of_ok (Tx.ensure_ok.2 ⟨decide_eq_true hrunning, rfl⟩),
    Tx.run_bind_of_ok (Tx.ensure_ok.2 ⟨decide_eq_true hsame, rfl⟩), Tx.run_bind_of_ok hcheck, Tx.run_bind_of_ok hcreate,
    Tx.run_bind_of_ok hset, Tx.run_bind_of_ok (Tx.ensure_ok.2 ⟨decide_eq_true rfl, rfl⟩), Tx.run_bind_of_ok happend,
    Tx.run_bind_of_ok (rowOf_returns hself)]
  rfl

theorem assertValid_returns {lease : MasterLease} {now : Instant} {db : Db}
    (h : (db.masterLeases.get? lease.leaseKey).any (MasterLeaseRepository.holds lease (utcNowText now)) = true) :
    (MasterLeaseRepository.assertValidIn lease now).run db = .ok ((), db) := by
  unfold MasterLeaseRepository.assertValidIn
  rw [Tx.run_bind_of_ok (TableRef.select_ok.2 rfl)]
  exact Tx.ensure_ok.2 ⟨h, rfl⟩

theorem sampleSuccess_returns : ∃ r, sampleSuccess.op.run claimedPlan = .ok r := by
  obtain ⟨t, hcreate⟩ := plannedWorkflow_created
  have hlease : (MasterLeaseRepository.assertValidIn sampleLease sampleNow).run claimedPlan.rest = .ok ((), claimedPlan.rest) :=
    assertValid_returns (by decide +kernel)
  have hsession : claimedPlan.rest.sessions.get? plannedWorkflow.sessionId = some sampleSession := by decide +kernel
  have hsource : plannedWorkflow.sourcePlannerRunId = some "planner" := rfl
  obtain ⟨r, hr⟩ := succeedWithWorkflow_returns hsource hlease claimedPlan_run rfl rfl hsession rfl rfl hcreate (by decide)
    (by decide) (by decide) (by decide)
  exact ⟨((), r.2), PlanOp.void_ok.2 ⟨r.1, hr⟩⟩

theorem lineage_consistent_succeeded : ∃ s run, (∃ log, PlanRun samplePlanHost PlanCall.FromApplication samplePlanDb log s) ∧
    s.plannerRuns.get? "planner" = some run ∧ run.status = .succeeded ∧ ∃ id row, s.workflows.get? id = some row ∧
      row.sourcePlannerRunId = some "planner" ∧ run.resultWorkflowId = some id := by
  obtain ⟨log, hclaimed⟩ : ∃ log, PlanRun samplePlanHost PlanCall.FromApplication samplePlanDb log claimedPlan := by
    have hclaim : PlannerRunStatus.running ≠ .succeeded := by decide
    exact servePlans_run _ (List.forall_mem_cons.2 ⟨trivial, List.forall_mem_singleton.2 ⟨hclaim, rfl, rfl⟩⟩) .start
  obtain ⟨r, hr⟩ := sampleSuccess_returns
  have hrun := hclaimed.call sampleSuccess trivial
  rw [show (sampleSuccess.commit claimedPlan).2 = r.2 from congrArg Prod.snd (Tx.commit_of_ok hr)] at hrun
  obtain ⟨_, hsucceed⟩ := PlanOp.void_ok.1 hr
  obtain ⟨-, -, row, -, -, hchange⟩ := PlannerRunRepository.succeedWithWorkflow_change hsucceed
  exact ⟨r.2, _, ⟨_, hrun⟩, hchange.self, rfl, ((lineage_consistent rfl rfl hrun).2 "planner" _ hchange.self).1 rfl⟩

end AgentHub
