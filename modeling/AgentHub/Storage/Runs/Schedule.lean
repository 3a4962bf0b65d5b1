import AgentHub.Storage.Runs.State
/-!
# The scheduler as a step relation

What the scheduling operations can do to a run, one step at a time: `Promote` is one move of the
reconcile loop, `Finish` the verdict at its end, `MoveStep` adds starting, completing and the approval gates,
`SchedStep` claiming. The operations refine it: each is a sequence of steps of one run (`Schedules`).
-/

namespace AgentHub

open Lib WorkflowRunRepository

/-! ## Steps -/

/-- `view` gives each node one of its rows, as it was at some earlier point of the reconcile pass. -/
def ViewOf (s : RunState) (view : String → Option NodeRunRow) : Prop :=
  ∀ v r, view v = some r → r.nodeId = v ∧ ∃ r' ∈ s.rows, r'.skeleton = r.skeleton ∧ (r.status ≠ .pending → r' = r)

/-- One pending node run leaves `pending` as its predecessors decide. -/
inductive Promote (s : RunState) : RunState → Prop
  | mk (r : NodeRunRow) (node : WorkflowNode) (view : String → Option NodeRunRow) (target : NodeRunStatus)
      (now : Instant) (hr : r ∈ s.rows) (hpending : r.status = .pending)
      (hnode : s.run.compiledSnapshot.nodes.find? (fun n => n.id = r.nodeId) = some node) (hview : ViewOf s view)
      (htarget : reconcileTarget s.run.compiledSnapshot view node = .ok (some target)) :
      Promote s (s.setRow r.id fun r => { r with
        status := target, finishedAt := if target = .skipped then some (utcNowText now) else none })

/-- The run ends when all its node runs have. -/
inductive Finish (s : RunState) : RunState → Prop
  | mk (output : NodeRunRow) (now : Instant) (hrunning : s.run.status = .running)
      (hall : ∀ r ∈ s.rows, r.status.isTerminal = true) (houtput : output ∈ s.rows)
      (htype : ∃ node ∈ s.run.compiledSnapshot.nodes, node.nodeType = .output ∧ output.nodeId = node.id) :
      Finish s { s with run := { s.run with
        status := verdict output (s.rows.map NodeRunRow.status), finishedAt := some (utcNowText now) } }

/-- A step of the scheduler other than a claim. -/
inductive MoveStep (s : RunState) : RunState → Prop
  | start (now : Instant) (hrun : s.run.status = .pending) (hcancel : s.run.cancelRequestedAt = none) :
      MoveStep s { s with run := { s.run with status := .running, startedAt := some (utcNowText now) } }
  | promote {s' : RunState} (hrun : s.run.status = .running) (h : Promote s s') : MoveStep s s'
  | finish {s' : RunState} (h : Finish s s') : MoveStep s s'
  | complete (r : NodeRunRow) (target : NodeRunStatus) (outcome : NodeOutcome) (artifact error : Option String)
      (now : Instant) (hr : r ∈ s.rows) (hrunning : r.status = .running) (hrun : s.run.status = .running)
      (hcancel : s.run.cancelRequestedAt = none) (houtcome : outcome ∈ allowedOutcomes target) :
      MoveStep s (s.setRow r.id fun r => { r with
        status := target, outcome := some outcome, outputArtifactId := artifact, errorCode := error,
        finishedAt := some (utcNowText now) })
  | wait (r : NodeRunRow) (code : String) (hr : r ∈ s.rows) (hrunning : r.status = .running)
      (hrun : s.run.status = .running) (hcancel : s.run.cancelRequestedAt = none) :
      MoveStep s { s.setRow r.id (fun r => { r with
          status := .waitingApproval, errorCode := some code, finishedAt := none }) with
        run := { s.run with status := .waitingApproval } }
  | approve (r : NodeRunRow) (hr : r ∈ s.rows) (hwaiting : r.status = .waitingApproval)
      (hrun : s.run.status = .waitingApproval) (hcancel : s.run.cancelRequestedAt = none) :
      MoveStep s { s.setRow r.id (fun r => { r with
          status := .ready, outcome := none, errorCode := none, finishedAt := none }) with
        run := { s.run with status := .running } }
  | reject (r : NodeRunRow) (now : Instant) (hr : r ∈ s.rows) (hwaiting : r.status = .waitingApproval)
      (hrun : s.run.status = .waitingApproval) (hcancel : s.run.cancelRequestedAt = none) :
      MoveStep s { s.setRow r.id (fun r => { r with
          status := .completed, outcome := some .rejected, errorCode := some "approval_rejected",
          finishedAt := some (utcNowText now) }) with
        run := { s.run with status := .running } }
  | rejectRunning (r : NodeRunRow) (now : Instant) (hr : r ∈ s.rows) (hrunning : r.status = .running)
      (hrun : s.run.status = .running) (hcancel : s.run.cancelRequestedAt = none) :
      MoveStep s (s.setRow r.id fun r => { r with
        status := .completed, outcome := some .rejected, errorCode := some "approval_rejected",
        finishedAt := some (utcNowText now) })

/-- A step of the scheduler. -/
inductive SchedStep (s : RunState) : RunState → Prop
  | move {s' : RunState} (h : MoveStep s s') : SchedStep s s'
  | claim (r : NodeRunRow) (now : Instant) (hr : r ∈ s.rows) (hready : r.status = .ready)
      (hrun : s.run.status = .running) (hcancel : s.run.cancelRequestedAt = none) :
      SchedStep s (s.setRow r.id fun r => { r with status := .running, startedAt := some (utcNowText now) })

theorem MoveStep.sched {s s' : RunState} (h : Relation.ReflTransGen MoveStep s s') :
    Relation.ReflTransGen SchedStep s s' := Relation.ReflTransGen.mono (fun _ _ => .move) _ _ h

/-! ## Changes to one run -/

/-- `db'` differs from `db` in the state of run `rid` and in events only. -/
structure Only (rid : String) (db db' : Db) : Prop where
  frame : Frame db db'
  others : ∀ rid', rid' ≠ rid → db'.runState rid' = db.runState rid'

theorem Only.refl (rid : String) (db : Db) : Only rid db db := ⟨Frame.refl db, fun _ _ => rfl⟩

theorem Only.trans {rid : String} {a b c : Db} (h : Only rid a b) (h' : Only rid b c) : Only rid a c :=
  ⟨h.frame.trans h'.frame, fun rid' hne => (h'.others rid' hne).trans (h.others rid' hne)⟩

theorem Quiet.only {db db' : Db} (h : Quiet db db') (rid : String) : Only rid db db' :=
  ⟨h.frame, fun rid' _ => h.runState rid'⟩

/-- The operation is a sequence of scheduler steps of each run. -/
structure Schedules (db db' : Db) : Prop where
  frame : Frame db db'
  steps : ∀ rid s, db.runState rid = some s →
    ∃ s', db'.runState rid = some s' ∧ Relation.ReflTransGen SchedStep s s'

theorem Schedules.refl (db : Db) : Schedules db db := ⟨Frame.refl db, fun _ s hs => ⟨s, hs, .refl⟩⟩

theorem Schedules.trans {a b c : Db} (h : Schedules a b) (h' : Schedules b c) : Schedules a c := by
  refine ⟨h.frame.trans h'.frame, fun rid s hs => ?_⟩
  obtain ⟨s', hs', h1⟩ := h.steps rid s hs
  obtain ⟨s'', hs'', h2⟩ := h'.steps rid s' hs'
  exact ⟨s'', hs'', h1.trans h2⟩

theorem Quiet.schedules {db db' : Db} (h : Quiet db db') : Schedules db db' :=
  ⟨h.frame, fun rid s hs => ⟨s, (h.runState rid).trans hs, .refl⟩⟩

/-- A change of one run that is a sequence of its steps. -/
theorem Only.schedules {rid : String} {db db' : Db} (h : Only rid db db')
    (hsteps : ∀ s, db.runState rid = some s →
      ∃ s', db'.runState rid = some s' ∧ Relation.ReflTransGen SchedStep s s') : Schedules db db' := by
  refine ⟨h.frame, fun rid' s hs => ?_⟩
  by_cases hid : rid' = rid
  · subst hid; exact hsteps s hs
  · exact ⟨s, (h.others rid' hid).trans hs, .refl⟩

/-! ## Reads and checks -/

theorem runRow_ok {rid : String} {db : Db} {r : WorkflowRunRow × Db} :
    (runRow rid).run db = .ok r ↔ db.workflowRuns.get? rid = some r.1 ∧ r.2 = db := by
  simp only [runRow, StateT.run_bind, Tx.bind_ok, TableRef.select_ok, Tx.require_ok]
  constructor
  · rintro ⟨_, rfl, h⟩; exact h
  · intro h; exact ⟨_, rfl, h⟩

theorem lift_ok {α : Type} {x : Except StorageError α} {db : Db} {r : α × Db} :
    (Op.lift x).run db = .ok r ↔ x = .ok r.1 ∧ r.2 = db := by
  obtain ⟨a, s⟩ := r
  cases x <;> simp [Op.lift, StateT.run, Except.map, eq_comm]

theorem validateSnapshots_ok {H : Digests} {row : WorkflowRunRow} {db : Db} {r : Unit × Db}
    (h : (validateSnapshots H row).run db = .ok r) : r.2 = db := by
  simp only [validateSnapshots, StateT.run_bind, Tx.bind_ok, Tx.ensure_ok] at h
  obtain ⟨_, ⟨-, rfl⟩, _, ⟨-, rfl⟩, _, ⟨-, rfl⟩, _, ⟨-, rfl⟩, _, ⟨-, rfl⟩, _, ⟨-, rfl⟩, _, ⟨-, rfl⟩, _, ⟨-, rfl⟩, -, rfl⟩ := h
  rfl

theorem appendRunState_quiet {run : WorkflowRunRow} {lease : MasterLease} {a b : WorkflowRunStatus} {now : Instant}
    {db db' : Db} {u : Unit} (h : (appendRunState run lease a b now).run db = .ok (u, db')) : Quiet db db' :=
  EventRepository.appendIn_quiet h

theorem appendNodeState_quiet {run : WorkflowRunRow} {lease : MasterLease} {id nodeId : String} {a b : NodeRunStatus}
    {o : Option NodeOutcome} {t : String} {e : Option String} {now : Instant} {db db' : Db} {u : Unit}
    (h : (appendNodeState run lease id nodeId a b o t e now).run db = .ok (u, db')) : Quiet db db' :=
  EventRepository.appendIn_quiet h

theorem nodeWithRun_eq_some {db : Db} {id : String} {p : NodeRunRow × WorkflowRunRow} :
    nodeWithRun db id = some p ↔ db.nodeRuns.get? id = some p.1 ∧ db.workflowRuns.get? p.1.workflowRunId = some p.2 := by
  obtain ⟨node, run⟩ := p
  simp only [nodeWithRun, Option.bind_eq_some_iff, Option.map_eq_some_iff, Prod.mk.injEq]
  constructor
  · rintro ⟨_, hn, _, hr, rfl, rfl⟩; exact ⟨hn, hr⟩
  · rintro ⟨hn, hr⟩; exact ⟨node, hn, run, hr, rfl, rfl⟩

end AgentHub
