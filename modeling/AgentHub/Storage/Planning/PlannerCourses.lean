import AgentHub.Storage.Planning.DraftRuns
/-!
# Courses of planner runs

A planner run is queued, then cancelled or claimed, and once claimed it ends once. Its events say so, one for each status it
had, and its times agree with them (`planner_courses`). This holds whatever calls are made, by whom and in which order.
-/

namespace AgentHub

open Lib Workspace

variable {φ : Type} {H : PlanHost φ}

/-- The statuses the events of a planner run tell, each with the one before. -/
def journalOf (db : PlanDb) (id : String) : List (Option PlannerRunStatus × PlannerRunStatus) :=
  (db.plannerEvents.filter fun e => e.plannerRunId = id).map fun e => (e.previousStatus, e.status)

/-- How far a planner run got: its row and what its events tell. -/
inductive PlannerCourse : Option PlannerRunRow → List (Option PlannerRunStatus × PlannerRunStatus) → Prop
  | absent : PlannerCourse none []
  | pending (row : PlannerRunRow) (h : row.status = .pending) (hs : row.startedAt.isSome = false)
      (hf : row.finishedAt.isSome = false) : PlannerCourse (some row) [(none, .pending)]
  | cancelled (row : PlannerRunRow) (h : row.status = .cancelled) (hs : row.startedAt.isSome = false)
      (hf : row.finishedAt.isSome = true) : PlannerCourse (some row) [(none, .pending), (some .pending, .cancelled)]
  | running (row : PlannerRunRow) (h : row.status = .running) (hs : row.startedAt.isSome = true)
      (hf : row.finishedAt.isSome = false) : PlannerCourse (some row) [(none, .pending), (some .pending, .running)]
  | finished (row : PlannerRunRow) (h : row.status ∈ PlannerRunStatus.running.allowed) (hs : row.startedAt.isSome = true)
      (hf : row.finishedAt.isSome = true) :
      PlannerCourse (some row) [(none, .pending), (some .pending, .running), (some .running, row.status)]

/-! ## One step of a planner run -/

/-- A row goes to an allowed status, and its times say when it started and finished. -/
structure PlannerStep (row after : PlannerRunRow) : Prop where
  allowed : after.status ∈ row.status.allowed
  started : after.startedAt.isSome = (row.startedAt.isSome || decide (after.status = .running))
  finished : after.finishedAt.isSome = decide (after.status ≠ .running)
  session : after.sessionId = row.sessionId

theorem PlannerRunStatus.pending_not_allowed (status : PlannerRunStatus) : .pending ∉ status.allowed := by
  cases status <;> decide

theorem moved_step {row : PlannerRunRow} {target : PlannerRunStatus} {result : PlannerResult} {now : Instant}
    (h : target ∈ row.status.allowed) : PlannerStep row (row.moved target result now) := by
  have hpending : target ≠ .pending := by
    rintro rfl
    exact PlannerRunStatus.pending_not_allowed _ h
  refine ⟨h, ?_, ?_, rfl⟩
  · by_cases hrunning : target = .running <;> cases hstarted : row.startedAt <;>
      simp [PlannerRunRow.moved, hrunning, hstarted]
  · by_cases hrunning : target = .running <;> simp [PlannerRunRow.moved, hrunning, hpending]

theorem orphaned_step {row : PlannerRunRow} {code : String} {now : Instant} (h : row.status = .running) :
    PlannerStep row (row.orphaned code now) := by
  refine ⟨?_, ?_, rfl, rfl⟩
  · rw [h]
    exact (show PlannerRunStatus.orphaned ∈ PlannerRunStatus.running.allowed by decide)
  · simp [PlannerRunRow.orphaned]

theorem succeeded_step {row : PlannerRunRow} {workflowId : String} {version : Int} {now : Instant} (h : row.status = .running) :
    PlannerStep row (row.succeeded workflowId version now) := by
  refine ⟨?_, ?_, rfl, rfl⟩
  · rw [h]
    exact (show PlannerRunStatus.succeeded ∈ PlannerRunStatus.running.allowed by decide)
  · simp [PlannerRunRow.succeeded]

theorem PlannerCourse.step {row after : PlannerRunRow} {journal : List (Option PlannerRunStatus × PlannerRunStatus)}
    (h : PlannerCourse (some row) journal) (hstep : PlannerStep row after) :
    PlannerCourse (some after) (journal ++ [(some row.status, after.status)]) := by
  obtain ⟨hallowed, hstarted, hfinished, -⟩ := hstep
  cases h with
  | pending _ hrow hs hf =>
    rw [hrow] at hallowed ⊢
    rw [hs] at hstarted
    rcases List.mem_pair.1 hallowed with hafter | hafter
    · rw [hafter] at hstarted hfinished ⊢
      exact .running after hafter hstarted hfinished
    · rw [hafter] at hstarted hfinished ⊢
      exact .cancelled after hafter hstarted hfinished
  | cancelled _ hrow hs hf =>
    rw [hrow] at hallowed
    cases hallowed
  | running _ hrow hs hf =>
    rw [hrow] at hallowed ⊢
    rw [hs, Bool.true_or] at hstarted
    refine .finished after hallowed hstarted (hfinished.trans ?_)
    -- a running planner run can only end
    cases hafter : after.status with
    | running =>
      rw [hafter] at hallowed
      exact absurd hallowed (by decide)
    | _ => rfl
  | finished _ hrow hs hf =>
    -- An ended planner run has no allowed transition.
    simp only [PlannerRunStatus.allowed, List.mem_cons, List.not_mem_nil, or_false] at hrow
    rcases hrow with hrow | hrow | hrow | hrow | hrow <;>
    · rw [hrow] at hallowed
      cases hallowed

theorem created_course {value : NewPlannerRun} {now : Instant} :
    PlannerCourse (some (PlannerRunRepository.newRow value now)) [(none, .pending)] := .pending _ rfl rfl rfl

/-! ## Every call -/

/-- What a call does to the planner runs, one change after the other. -/
inductive PlannerTurn (db db' : PlanDb) : Prop
  | same (hruns : db'.plannerRuns = db.plannerRuns) (hevents : db'.plannerEvents = db.plannerEvents)
  | create (value : NewPlannerRun) (now : Instant)
      (h : PlannerChange db db' value.plannerRunId none (PlannerRunRepository.newRow value now))
  | step (id : String) (row after : PlannerRunRow) (h : PlannerChange db db' id (some row) after) (hstep : PlannerStep row after)

theorem PlannerRunRepository.quarantines_turns {db db' : PlanDb} (h : Relation.ReflTransGen Quarantines db db') :
    Relation.ReflTransGen PlannerTurn db db' := by
  induction h with
  | refl => exact .refl
  | tail _ hlast ih =>
    obtain ⟨-, id, row, now, hrow, hchange⟩ := hlast
    exact ih.tail (.step id row _ hchange (orphaned_step hrow))

theorem PlanCall.turns {call : PlanCall H} {lease : MasterLease} {now : Instant} {db : PlanDb} {r : Unit × PlanDb}
    (h : (call.op H lease now).run db = .ok r) : Relation.ReflTransGen PlannerTurn db r.2 := by
  cases call with
  -- the calls on workflows leave the planner runs as they are
  | createWorkflow value =>
    obtain ⟨_, h⟩ := PlanOp.void_ok.1 h
    obtain ⟨-, ⟨t, -, hdb⟩, -⟩ := WorkflowRepository.createIn_ok h
    rw [show r.2 = _ from hdb]
    exact .single (.same rfl rfl)
  | updateAuthorGraph id graph expected =>
    obtain ⟨_, h⟩ := PlanOp.void_ok.1 h
    obtain ⟨-, -, row, -, -, -, hdb⟩ := WorkflowRepository.updateAuthorGraph_ok.1 h
    rw [show r.2 = _ from hdb]
    exact .single (.same rfl rfl)
  | updateLayout id layout expected =>
    obtain ⟨_, h⟩ := PlanOp.void_ok.1 h
    obtain ⟨-, -, row, -, -, -, hdb⟩ := WorkflowRepository.updateLayout_ok.1 h
    rw [show r.2 = _ from hdb]
    exact .single (.same rfl rfl)
  | saveCompiledPreview id compiled expected ws =>
    obtain ⟨_, h⟩ := PlanOp.void_ok.1 h
    obtain ⟨row, -, -, hdb⟩ := WorkflowRepository.saveCompiledPreview_ok h
    rw [show r.2 = _ from hdb]
    exact .single (.same rfl rfl)
  | createRun value =>
    obtain ⟨_, h⟩ := PlanOp.void_ok.1 h
    exact .single (.create value now (PlannerRunRepository.createIn_change h).2.2)
  | transition id expected target result =>
    obtain ⟨_, h⟩ := PlanOp.void_ok.1 h
    obtain ⟨htarget, -, row, rfl, hchange⟩ := PlannerRunRepository.transition_change h
    exact .single (.step id row _ hchange (moved_step htarget))
  | orphanRunning =>
    obtain ⟨_, h⟩ := PlanOp.void_ok.1 h
    exact PlannerRunRepository.quarantines_turns (PlannerRunRepository.orphanRunning_changes h)
  | succeedWithWorkflow id workflow =>
    obtain ⟨_, h⟩ := PlanOp.void_ok.1 h
    obtain ⟨-, -, row, hrow, -, hchange⟩ := PlannerRunRepository.succeedWithWorkflow_change h
    exact .single (.step id row _ hchange (succeeded_step hrow))

theorem PlanInvocation.turns (i : PlanInvocation H) (db : PlanDb) : Relation.ReflTransGen PlannerTurn db (i.commit db).2 := by
  cases h : i.op.run db with
  | error e => rw [show (i.commit db).2 = db from congrArg Prod.snd (Tx.commit_of_error h)]
  | ok r =>
    rw [show (i.commit db).2 = r.2 from congrArg Prod.snd (Tx.commit_of_ok h)]
    exact PlanCall.turns h

/-! ## Every run -/

theorem journalOf_change {db db' : PlanDb} {k id : String} {before : Option PlannerRunRow} {after : PlannerRunRow}
    (h : PlannerChange db db' k before after) :
    journalOf db' id = if k = id then journalOf db id ++ [(before.map PlannerRunRow.status, after.status)] else journalOf db id := by
  obtain ⟨e, hevents, rfl, hprevious, hstatus⟩ := h.events
  rw [journalOf, hevents, List.filter_append, List.map_append, List.filter_singleton]
  by_cases hk : e.plannerRunId = id
  · simp [journalOf, hk, hprevious, hstatus]
  · simp [journalOf, hk]

theorem PlannerTurn.course {db db' : PlanDb} (h : PlannerTurn db db') {id : String}
    (hcourse : PlannerCourse (db.plannerRuns.get? id) (journalOf db id)) :
    PlannerCourse (db'.plannerRuns.get? id) (journalOf db' id) := by
  cases h with
  | same hruns hevents => rwa [journalOf, hruns, hevents]
  | create value now h =>
    rw [journalOf_change h]
    by_cases hk : value.plannerRunId = id
    · subst hk
      rw [h.found] at hcourse
      rw [if_pos rfl, h.self]
      -- there was no row yet, so the journal is that of no planner run
      generalize journalOf db value.plannerRunId = journal at hcourse
      cases hcourse
      exact created_course
    · rwa [if_neg hk, h.others id (Ne.symm hk)]
  | step k row after h hstep =>
    rw [journalOf_change h]
    by_cases hk : k = id
    · subst hk
      rw [h.found] at hcourse
      rw [if_pos rfl, h.self]
      exact hcourse.step hstep
    · rwa [if_neg hk, h.others id (Ne.symm hk)]

theorem PlannerTurn.courses {db db' : PlanDb} (h : Relation.ReflTransGen PlannerTurn db db') {id : String}
    (hcourse : PlannerCourse (db.plannerRuns.get? id) (journalOf db id)) :
    PlannerCourse (db'.plannerRuns.get? id) (journalOf db' id) := by
  induction h with
  | refl => exact hcourse
  | tail _ hlast ih => exact hlast.course ih

/-- After any run of the planning repositories, the row and the events of each planner run are those of one course: queued,
then cancelled or claimed, and once claimed ended at most once. -/
theorem planner_courses {Made : PlanCall H → Prop} {db s : PlanDb} {log : List (String × DraftWrite H)}
    (hruns : db.plannerRuns.rows = []) (hevents : db.plannerEvents = []) (h : PlanRun H Made db log s) (id : String) :
    PlannerCourse (s.plannerRuns.get? id) (journalOf s id) := by
  induction h with
  | start =>
    have hnone : db.plannerRuns.get? id = none := by simp [Table.get?, hruns]
    rw [hnone, journalOf, hevents]
    exact .absent
  | call _ i _ ih => exact PlannerTurn.courses (i.turns _) ih
  | other _ _ ih => exact ih

/-! ## Two claims -/

/-- Some calls, each committed. -/
def servePlans (calls : List (PlanInvocation H)) (db : PlanDb) : PlanDb := calls.foldl (fun db i => (i.commit db).2) db

theorem servePlans_run {Made : PlanCall H → Prop} (calls : List (PlanInvocation H)) (hmade : ∀ i ∈ calls, Made i.call) {db s : PlanDb}
    {log : List (String × DraftWrite H)} (h : PlanRun H Made db log s) : ∃ log', PlanRun H Made db log' (servePlans calls s) := by
  induction calls generalizing s log with
  | nil => exact ⟨log, h⟩
  | cons i calls ih =>
    rw [List.forall_mem_cons] at hmade
    exact ih hmade.2 (h.call i hmade.1)

def samplePlannerRun : NewPlannerRun where
  plannerRunId := "planner"
  sessionId := "s"
  plannerId := "rules"
  plannerType := .ruleBased
  integrationBaseCommit := hexText 0

/-- A planner run is queued and claimed twice. -/
def sampleClaims : List (PlanInvocation samplePlanHost) :=
  [samplePlanCall (.createRun samplePlannerRun), samplePlanCall (.transition "planner" .pending .running {}),
    samplePlanCall (.transition "planner" .pending .running {})]

theorem planner_courses_claimed :
    journalOf (servePlans sampleClaims samplePlanDb) "planner" = [(none, .pending), (some .pending, .running)] ∧
    PlannerCourse ((servePlans sampleClaims samplePlanDb).plannerRuns.get? "planner")
      (journalOf (servePlans sampleClaims samplePlanDb) "planner") := by
  obtain ⟨log, hrun⟩ : ∃ log, PlanRun samplePlanHost (fun _ => True) samplePlanDb log (servePlans sampleClaims samplePlanDb) :=
    servePlans_run sampleClaims (fun _ _ => trivial) .start
  exact ⟨by decide +kernel, planner_courses rfl rfl hrun "planner"⟩

end AgentHub
