import AgentHub.Storage.Runs.Reconcile
/-!
# The scheduling operations refine the scheduler

Each operation that returned is a sequence of scheduler steps of the runs it touched; one that raised
changed nothing. `startAndReconcile_spec` also says where the reconcile loop left the run.
-/

namespace AgentHub

open Lib WorkflowRunRepository

/-! ## Reconciling -/

/-- What `_reconcile_in` does to a run. -/
def Reconciles (s s' : RunState) : Prop :=
  ∃ s₁, s₁.run = s.run ∧ Relation.ReflTransGen Promote s s₁ ∧ s₁.AtRest ∧
    ((s' = s₁ ∧ ∃ r ∈ s₁.rows, r.status.isTerminal = false) ∨ Finish s₁ s')

theorem Promote.run_eq {s s' : RunState} (h : Promote s s') : s'.run = s.run := by
  cases h; rfl

theorem promotes_move {s s' : RunState} (hrun : s.run.status = .running) (h : Relation.ReflTransGen Promote s s') :
    s'.run = s.run ∧ Relation.ReflTransGen MoveStep s s' := by
  induction h with
  | refl => exact ⟨rfl, .refl⟩
  | tail _ hstep ih => exact ⟨hstep.run_eq.trans ih.1, ih.2.tail (.promote (ih.1 ▸ hrun) hstep)⟩

theorem Reconciles.move {s s' : RunState} (hrun : s.run.status = .running) (h : Reconciles s s') :
    Relation.ReflTransGen MoveStep s s' := by
  obtain ⟨s₁, -, hsteps, -, ⟨rfl, -⟩ | hfin⟩ := h
  · exact (promotes_move hrun hsteps).2
  · exact (promotes_move hrun hsteps).2.tail (.finish hfin)

theorem reconcileIn_reconciles {ord : RowOrder} {run : WorkflowRunRow} {lease : MasterLease} {now : Instant}
    {db db' : Db} {u : Unit} {s : RunState} (h : (reconcileIn ord run lease now).run db = .ok (u, db'))
    (hs : db.runState run.id = some s) (hgraph : s.run.compiledSnapshot = run.compiledSnapshot) :
    Only run.id db db' ∧ ∃ s', db'.runState run.id = some s' ∧ Reconciles s s' := by
  obtain ⟨honly, s₁, s', hs', hrun, hsteps, hrest, hend⟩ := reconcileIn_spec h hs hgraph
  exact ⟨honly, s', hs', s₁, hrun, hsteps, hrest, hend⟩

/-- A run row that was read gives the state of its run. -/
theorem runState_of_row {db : Db} {rid : String} {row : WorkflowRunRow} (h : db.workflowRuns.get? rid = some row) :
    db.runState rid = some ⟨row.core, db.rowsOf rid⟩ := by
  rw [runState_eq_some]
  exact ⟨run?_eq_some h, rfl⟩

/-- What a start leaves: the run as it was, or running and reconciled. -/
structure Started (s s' : RunState) : Prop where
  idle : s.run.status ≠ .pending → s.run.status ≠ .running → s' = s
  steps : Relation.ReflTransGen MoveStep s s'
  rest : s.run.status = .pending ∨ s.run.status = .running → ∃ s₀, s₀.run.status = .running ∧
    Relation.ReflTransGen MoveStep s s₀ ∧ Reconciles s₀ s'

theorem startIfPending_spec {row r' : WorkflowRunRow} {lease : MasterLease} {now : Instant} {db db' : Db}
    (h : (startIfPending row lease now).run db = .ok (r', db')) (hrow : db.workflowRuns.get? row.id = some row) :
    Only row.id db db' ∧ r'.id = row.id ∧ ∃ s', db'.runState row.id = some s' ∧ s'.run = r'.core ∧
      ((row.status = .pending ∧ s'.run.status = .running ∧ MoveStep ⟨row.core, db.rowsOf row.id⟩ s') ∨
        (row.status ≠ .pending ∧ r' = row ∧ s' = ⟨row.core, db.rowsOf row.id⟩)) := by
  have hs := runState_of_row hrow
  simp only [startIfPending] at h
  split at h
  · next hp =>
    simp only [StateT.run_bind, Tx.bind_ok, runRow_ok] at h
    obtain ⟨⟨_, db₁⟩, hcas, ⟨_, db₂⟩, happ, hr', hdb⟩ := h
    simp only at happ hr' hdb
    obtain rfl := hdb.symm
    obtain ⟨⟨run, hrun, hg⟩, hown, hothers⟩ := runState_runCas hcas (fun _ => rfl) (fun _ => rfl)
    have hq := appendRunState_quiet happ
    rw [(runState_eq_some.1 hs).1] at hrun
    obtain rfl := Option.some.inj hrun
    rw [hs, Option.map_some] at hown
    have hs' := (hq.runState _).trans hown
    refine ⟨⟨(frame_runCas hcas).trans hq.frame, fun rid hne => (hq.runState rid).trans (hothers rid hne)⟩,
      Table.get?_key hr', _, hs', ?_, .inl ⟨hp, rfl, .start now hp ?_⟩⟩
    · have := (runState_of_row hr').symm.trans hs'
      simp only [Option.some.injEq, RunState.mk.injEq] at this
      exact this.1.symm
    · simp only [decide_eq_true_eq] at hg
      exact hg.2
  · next hp =>
    simp only [StateT.run_pure, Tx.pure_ok, Prod.mk.injEq] at h
    obtain ⟨rfl, rfl⟩ := h
    exact ⟨Only.refl _ _, rfl, _, hs, rfl, .inr ⟨hp, rfl, rfl⟩⟩

theorem startAndReconcile_spec {H : Digests} {ord : RowOrder} {rid : String} {lease : MasterLease} {now : Instant}
    {db db' : Db} {row : WorkflowRunRow} (h : (startAndReconcile H ord rid lease now).run db = .ok (row, db')) :
    Only rid db db' ∧ ∃ s s', db.runState rid = some s ∧ db'.runState rid = some s' ∧ Started s s' := by
  simp only [startAndReconcile, StateT.run_bind, Tx.bind_ok, runRow_ok, MasterLeaseRepository.assertValidIn_ok] at h
  obtain ⟨_, ⟨-, rfl⟩, ⟨r, db₀⟩, ⟨hr, hdb⟩, ⟨_, db₁⟩, hval, ⟨r', db₂⟩, hstart, ⟨_, db₃⟩, hrec, -, hlast⟩ := h
  simp only at hr hdb hval hstart hrec hlast
  subst hdb hlast
  obtain rfl := validateSnapshots_ok hval
  obtain rfl := (Table.get?_key hr).symm
  obtain ⟨honly, hid, s₀, hs₀, hcore, hcase⟩ := startIfPending_spec hstart hr
  have hstatus : r'.status = s₀.run.status := (congrArg WorkflowRunRow.status hcore).symm
  rw [← hid] at hs₀
  simp only [reconcileIfRunning] at hrec
  split at hrec
  · next hrunning =>
    obtain ⟨honly', s', hs', hreco⟩ := reconcileIn_reconciles hrec hs₀ (by rw [hcore]; rfl)
    rw [hid] at honly' hs'
    have hrunning₀ : s₀.run.status = .running := hstatus ▸ hrunning
    refine ⟨honly.trans honly', _, s', runState_of_row hr, hs', ?_⟩
    rcases hcase with ⟨hp, -, hstep⟩ | ⟨-, rfl, rfl⟩
    · exact ⟨fun hne => absurd hp hne, .head hstep (hreco.move hrunning₀), fun _ => ⟨s₀, hrunning₀, .single hstep, hreco⟩⟩
    · exact ⟨fun _ hne => absurd hrunning hne, hreco.move hrunning₀, fun _ => ⟨_, hrunning₀, .refl, hreco⟩⟩
  · next hrunning =>
    simp only [StateT.run_pure, Tx.pure_ok, Prod.mk.injEq] at hrec
    obtain ⟨-, rfl⟩ := hrec
    rcases hcase with ⟨-, hr₀, -⟩ | ⟨hp, rfl, rfl⟩
    · exact absurd (hstatus.trans hr₀) hrunning
    · exact ⟨honly, _, _, runState_of_row hr, hs₀, fun _ _ => rfl, .refl, fun h => (h.elim hp hrunning).elim⟩

theorem Started.schedules {rid : String} {db db' : Db} (h : Only rid db db')
    (hs : ∃ s s', db.runState rid = some s ∧ db'.runState rid = some s' ∧ Started s s') : Schedules db db' := by
  obtain ⟨s, s', hs, hs', hst⟩ := hs
  refine h.schedules fun t ht => ?_
  rw [hs] at ht
  obtain rfl := Option.some.inj ht
  exact ⟨s', hs', MoveStep.sched hst.steps⟩

/-! ## Node runs -/

/-- A guarded write to a node run that was read with its run. -/
theorem nodeCas_spec {db db' : Db} {node : NodeRunRow} {run : WorkflowRunRow} {nodeRunId : String}
    (hp : nodeWithRun db nodeRunId = some (node, run)) {g f hk hu} {e : StorageError} {u : Unit}
    (h : (Db.nodeRunsT.cas nodeRunId g f hk hu e).run db = .ok (u, db')) :
    nodeRunId = node.id ∧ g node = true ∧ node ∈ db.rowsOf run.id ∧ Only run.id db db' ∧
      db.runState run.id = some ⟨run.core, db.rowsOf run.id⟩ ∧
      db'.runState run.id = some (RunState.setRow ⟨run.core, db.rowsOf run.id⟩ node.id f) := by
  obtain ⟨hnode, hrun⟩ := nodeWithRun_eq_some.1 hp
  obtain ⟨r, hr, hg, hown, hothers⟩ := runState_nodeCas h
  simp only at hnode hrun
  have hid : run.id = node.workflowRunId := Table.get?_key hrun
  have hnid : nodeRunId = node.id := (Table.get?_key hnode).symm
  rw [← hid] at hrun
  have hs := runState_of_row hrun
  rw [hnode] at hr
  obtain rfl := Option.some.inj hr
  rw [← hid] at hown hothers
  rw [hs, Option.map_some, hnid] at hown
  exact ⟨hnid, hg, mem_rowsOf.2 ⟨Table.mem_of_get? hnode, hid.symm⟩, ⟨frame_nodeCas h, hothers⟩, hs, hown⟩

theorem firstReady_ok {rows : String → Option NodeRunRow} {ids : List String} {r : NodeRunRow}
    (h : firstReady rows ids = .ok (some r)) : ∃ id ∈ ids, rows id = some r ∧ r.status = .ready := by
  induction ids with
  | nil => simp [firstReady] at h
  | cons id ids ih =>
    simp only [firstReady] at h
    split at h
    · cases h
    · next row hrow =>
      split at h
      · next hready =>
        simp only [Except.ok.injEq, Option.some.injEq] at h
        subst h
        exact ⟨id, by simp, hrow, hready⟩
      · obtain ⟨id', hid', h'⟩ := ih h
        exact ⟨id', List.mem_cons_of_mem _ hid', h'⟩

/-- A claim moves one ready node run to running, in a running run that is not cancelled, or it does nothing. -/
theorem claimNext_spec {H : Digests} {ord : RowOrder} {rid : String} {lease : MasterLease} {now : Instant}
    {db db' : Db} {o : Option NodeRunRow} (h : (claimNext H ord rid lease now).run db = .ok (o, db')) :
    (o = none ∧ db' = db) ∨ (Only rid db db' ∧ ∃ r s, db.runState rid = some s ∧ r ∈ s.rows ∧ r.status = .ready ∧
      s.run.status = .running ∧ s.run.cancelRequestedAt = none ∧ db'.runState rid =
        some (s.setRow r.id fun r => { r with status := .running, startedAt := some (utcNowText now) })) := by
  simp only [claimNext, StateT.run_bind, Tx.bind_ok, runRow_ok, MasterLeaseRepository.assertValidIn_ok] at h
  obtain ⟨_, ⟨-, rfl⟩, ⟨run, db₀⟩, ⟨hrun, hdb⟩, ⟨_, db₁⟩, hval, h⟩ := h
  simp only at hrun hdb hval h
  subst hdb
  obtain rfl := validateSnapshots_ok hval
  split at h
  · simp only [StateT.run_pure, Tx.pure_ok, Prod.mk.injEq] at h
    exact .inl h
  · next hgo =>
    simp only [not_or, not_not] at hgo
    simp only [StateT.run_bind, Tx.bind_ok, Tx.read_ok, lift_ok] at h
    obtain ⟨_, rfl, ⟨ids, _⟩, ⟨hids, rfl⟩, ⟨sel, _⟩, ⟨hsel, rfl⟩, h⟩ := h
    cases sel with
    | none =>
      simp only [StateT.run_pure, Tx.pure_ok, Prod.mk.injEq] at h
      exact .inl h
    | some r =>
      simp only at hsel h
      obtain ⟨id, -, hr, hready⟩ := firstReady_ok hsel
      simp only [claim, StateT.run_bind, Tx.bind_ok, TableRef.select_ok] at h
      obtain ⟨⟨_, db₂⟩, hcas, ⟨_, db₃⟩, happ, h⟩ := h
      simp only [Prod.mk.injEq] at happ h
      obtain ⟨-, rfl⟩ := h
      have hq := appendNodeState_quiet happ
      have hrdb := mem_rowsOf.1 ((ord.perm _ _).mem_iff.1 (byNode_mem hr).1)
      obtain rfl := (Table.get?_key hrun).symm
      have hp : nodeWithRun _ r.id = some (r, run) :=
        nodeWithRun_eq_some.2 ⟨Table.get?_of_mem hrdb.1, by rw [hrdb.2]; exact hrun⟩
      obtain ⟨-, -, hmem, honly, hs, hs'⟩ := nodeCas_spec hp hcas
      exact .inr ⟨honly.trans (hq.only _), r, _, hs, hmem, hready, hgo.1, hgo.2, (hq.runState _).trans hs'⟩

/-! ## Completing -/

theorem compiledNode_readOnly (H : Digests) (node : NodeRunRow) (run : WorkflowRunRow) :
    Tx.ReadOnly (compiledNode H node run) :=
  .bind (.ensure _ _) fun _ => .require _ _

theorem outputOwner_readOnly (node : NodeRunRow) (run : WorkflowRunRow) (compiled : WorkflowNode) :
    Tx.ReadOnly (outputOwner node run compiled) := by
  unfold outputOwner
  split
  · exact .bind (.read _) fun _ => .bind (.require _ _) fun _ => .pure _
  · exact .pure _

theorem checkOutputArtifact_readOnly (H : Digests) (node : NodeRunRow) (run : WorkflowRunRow) (target : NodeRunStatus)
    (artifactId : Option String) : Tx.ReadOnly (checkOutputArtifact H node run target artifactId) := by
  cases artifactId with
  | none => exact .pure _
  | some id =>
    refine .bind (.read _) fun _ => .bind (.require _ _) fun _ => .bind (compiledNode_readOnly H node run) fun _ => ?_
    exact .bind (outputOwner_readOnly node run _) fun _ => .bind (.read _) fun _ => .bind (.ensure _ _) fun _ =>
      .bind (.ensure _ _) fun _ => .ensure _ _

theorem checkWriteTask_readOnly (node : NodeRunRow) (run : WorkflowRunRow) (target : NodeRunStatus) :
    Tx.ReadOnly (checkWriteTask node run target) := by
  refine .bind (.read _) fun task => ?_
  cases task with
  | none => exact .ensure _ _
  | some task =>
    exact .bind (.read _) fun _ => .bind (.ite (.ensure _ _) (.ensure _ _)) fun _ => .bind (.read _) fun _ =>
      .bind (.require _ _) fun _ => .bind (.ensure _ _) fun _ => .bind (.read _) fun _ => .ensure _ _

theorem checkAgentTask_readOnly (H : Digests) (node : NodeRunRow) (run : WorkflowRunRow) (target : NodeRunStatus) :
    Tx.ReadOnly (checkAgentTask H node run target) :=
  .ite (.bind (compiledNode_readOnly H node run) fun _ => .ite (checkWriteTask_readOnly node run target) (.pure _))
    (.pure _)

/-- A completion that returned moved a running node run of a running run that is not cancelled. -/
theorem completeNode_spec {H : Digests} {nodeRunId : String} {target : NodeRunStatus} {outcome : NodeOutcome}
    {summary : String} {lease : MasterLease} {artifact error : Option String} {now : Instant} {db db' : Db}
    {o : Option NodeRunRow}
    (h : (completeNode H nodeRunId target outcome summary lease artifact error now).run db = .ok (o, db')) :
    ∃ node run, nodeWithRun db nodeRunId = some (node, run) ∧ Only run.id db db' ∧
      ∃ s s', db.runState run.id = some s ∧ db'.runState run.id = some s' ∧ MoveStep s s' := by
  simp only [completeNode, StateT.run_bind, Tx.bind_ok, Tx.ensure_ok, Tx.read_ok, Tx.require_ok,
    MasterLeaseRepository.assertValidIn_ok, TableRef.select_ok] at h
  obtain ⟨_, ⟨-, rfl⟩, _, ⟨hout, rfl⟩, _, ⟨-, rfl⟩, _, ⟨-, rfl⟩, _, rfl, ⟨⟨node, run⟩, _⟩, ⟨hp, rfl⟩, _, ⟨hcancel, rfl⟩, _,
    ⟨hrun, rfl⟩, ⟨_, db₁⟩, hart, ⟨_, db₂⟩, htask, ⟨_, db₃⟩, hcas, ⟨_, db₄⟩, happ, h⟩ := h
  obtain rfl := checkOutputArtifact_readOnly _ _ _ _ _ _ _ hart
  obtain rfl := checkAgentTask_readOnly _ _ _ _ _ _ htask
  simp only [Prod.mk.injEq] at hp hcas happ h
  obtain ⟨-, rfl⟩ := h
  have hq := appendNodeState_quiet happ
  obtain ⟨rfl, hg, hmem, honly, hs, hs'⟩ := nodeCas_spec hp hcas
  refine ⟨node, run, hp, honly.trans (hq.only _), _, _, hs, (hq.runState _).trans hs', ?_⟩
  exact .complete node target outcome artifact error now hmem (of_decide_eq_true hg) (of_decide_eq_true hrun)
    (of_decide_eq_true hcancel) (of_decide_eq_true hout)

/-! ## Approval gates -/

/-- After a decision the run moves on only when it was rejected. -/
theorem reconcileRejected_spec {ord : RowOrder} {run : WorkflowRunRow} {approved : Bool} {lease : MasterLease}
    {now : Instant} {db db' : Db} {u : Unit} {s : RunState}
    (h : (reconcileRejected ord run approved lease now).run db = .ok (u, db')) (hs : db.runState run.id = some s)
    (hrun : s.run.status = .running) :
    Only run.id db db' ∧ ∃ s', db'.runState run.id = some s' ∧ Relation.ReflTransGen MoveStep s s' := by
  cases approved with
  | true =>
    simp only [reconcileRejected, if_true, StateT.run_pure, Tx.pure_ok, Prod.mk.injEq] at h
    obtain ⟨-, rfl⟩ := h
    exact ⟨Only.refl _ _, s, hs, .refl⟩
  | false =>
    simp only [reconcileRejected, Bool.false_eq_true, if_false, StateT.run_bind, Tx.bind_ok, runRow_ok] at h
    obtain ⟨⟨fresh, db₀⟩, ⟨hfresh, hdb⟩, h⟩ := h
    simp only at hfresh hdb h
    subst hdb
    have hid : fresh.id = run.id := Table.get?_key hfresh
    have hcore : s.run = fresh.core := by
      have := hs.symm.trans (runState_of_row hfresh)
      exact congrArg RunState.run (Option.some.inj this)
    rw [← hid] at hs
    obtain ⟨honly, s', hs', hreco⟩ := reconcileIn_reconciles h hs (by rw [hcore]; rfl)
    rw [hid] at honly hs'
    exact ⟨honly, s', hs', hreco.move hrun⟩

theorem releaseWaiting_spec {ord : RowOrder} {node : NodeRunRow} {run : WorkflowRunRow} {approved : Bool}
    {lease : MasterLease} {now : Instant} {db db' : Db} {u : Unit} {nodeRunId : String}
    (h : (releaseWaiting ord node run approved lease now).run db = .ok (u, db'))
    (hp : nodeWithRun db nodeRunId = some (node, run)) :
    Only run.id db db' ∧ ∃ s s', db.runState run.id = some s ∧ db'.runState run.id = some s' ∧
      Relation.ReflTransGen MoveStep s s' := by
  have hnid : nodeRunId = node.id := (Table.get?_key (nodeWithRun_eq_some.1 hp).1).symm
  subst hnid
  simp only [releaseWaiting, StateT.run_bind, Tx.bind_ok] at h
  obtain ⟨⟨_, db₁⟩, hcas, ⟨_, db₂⟩, hcas', ⟨_, db₃⟩, happ, ⟨_, db₄⟩, happ', hrej⟩ := h
  simp only at hcas' happ happ' hrej
  have hq := (appendNodeState_quiet happ).trans (appendRunState_quiet happ')
  obtain ⟨-, hg, hmem, honly, hs, hs₁⟩ := nodeCas_spec hp hcas
  obtain ⟨⟨run', hrun', hg'⟩, hown, hothers⟩ := runState_runCas hcas' (fun _ => rfl) (fun _ => rfl)
  rw [(runState_eq_some.1 hs₁).1] at hrun'
  obtain rfl := Option.some.inj hrun'
  rw [hs₁, Option.map_some] at hown
  obtain ⟨hwait, hcancel⟩ := of_decide_eq_true hg'
  have hs₂ := (hq.runState _).trans hown
  have honly₂ : Only run.id db db₄ := honly.trans
    ⟨(frame_runCas hcas').trans hq.frame, fun rid hne => (hq.runState rid).trans (hothers rid hne)⟩
  obtain ⟨honly₃, s', hs', hsteps⟩ := reconcileRejected_spec hrej hs₂ rfl
  refine ⟨honly₂.trans honly₃, _, s', hs, hs', .head ?_ hsteps⟩
  cases approved with
  | true => exact .approve node hmem (of_decide_eq_true hg) hwait hcancel
  | false => exact .reject node now hmem (of_decide_eq_true hg) hwait hcancel

theorem rejectRunning_spec {ord : RowOrder} {node : NodeRunRow} {run : WorkflowRunRow} {approved : Bool}
    {lease : MasterLease} {now : Instant} {db db' : Db} {u : Unit} {nodeRunId : String}
    (h : (rejectRunning ord node run approved lease now).run db = .ok (u, db'))
    (hp : nodeWithRun db nodeRunId = some (node, run)) (hrun : run.status = .running) :
    db' = db ∨ (run.cancelRequestedAt = none ∧ Only run.id db db' ∧ ∃ s s', db.runState run.id = some s ∧
      db'.runState run.id = some s' ∧ Relation.ReflTransGen MoveStep s s') := by
  have hnid : nodeRunId = node.id := (Table.get?_key (nodeWithRun_eq_some.1 hp).1).symm
  subst hnid
  cases approved with
  | true =>
    simp only [rejectRunning, if_true, StateT.run_pure, Tx.pure_ok, Prod.mk.injEq] at h
    exact .inl h.2
  | false =>
    simp only [rejectRunning, Bool.false_eq_true, if_false, StateT.run_bind, Tx.bind_ok, Tx.ensure_ok] at h
    obtain ⟨_, ⟨hcancel, rfl⟩, ⟨_, db₁⟩, hcas, ⟨_, db₂⟩, happ, h⟩ := h
    simp only at hcas happ h
    have hq := appendNodeState_quiet happ
    obtain ⟨-, hg, hmem, honly, hs, hs₁⟩ := nodeCas_spec hp hcas
    have hs₂ := (hq.runState _).trans hs₁
    have hreco : (reconcileRejected ord run false lease now).run db₂ = .ok (u, db') := by
      simp only [reconcileRejected, Bool.false_eq_true, if_false, StateT.run_bind, Tx.bind_ok]
      exact h
    obtain ⟨honly₃, s', hs', hsteps⟩ := reconcileRejected_spec hreco hs₂ hrun
    refine .inr ⟨of_decide_eq_true hcancel, (honly.trans (hq.only _)).trans honly₃, _, s', hs, hs', .head ?_ hsteps⟩
    exact .rejectRunning node now hmem (of_decide_eq_true hg) hrun (of_decide_eq_true hcancel)

/-- A decision applied to a gate changes nothing or moves a run that is not cancelled. -/
theorem advanceGate_spec {ord : RowOrder} {node : NodeRunRow} {run : WorkflowRunRow} {approved : Bool}
    {lease : MasterLease} {now : Instant} {db db' : Db} {u : Unit} {nodeRunId : String}
    (h : (advanceGate ord node run approved lease now).run db = .ok (u, db'))
    (hp : nodeWithRun db nodeRunId = some (node, run)) :
    db' = db ∨ (run.cancelRequestedAt = none ∧ Only run.id db db' ∧ ∃ s s', db.runState run.id = some s ∧
      db'.runState run.id = some s' ∧ Relation.ReflTransGen MoveStep s s') := by
  simp only [advanceGate] at h
  split at h
  · simp only [StateT.run_bind, Tx.bind_ok, Tx.ensure_ok] at h
    obtain ⟨_, ⟨hcancel, rfl⟩, h⟩ := h
    obtain ⟨honly, hsteps⟩ := releaseWaiting_spec h hp
    exact .inr ⟨of_decide_eq_true hcancel, honly, hsteps⟩
  · split at h
    · next hrun => exact rejectRunning_spec h hp hrun.2
    · exact (Tx.fail_ok.1 h).elim

theorem nodeOfRun_eq_some {db : Db} {rid id : String} {p : NodeRunRow × WorkflowRunRow}
    (h : nodeOfRun db rid id = some p) : nodeWithRun db id = some p ∧ p.1.workflowRunId = rid := by
  simpa [nodeOfRun, Option.filter_eq_some_iff] using h

/-- An operation on a gate of run `rid`: nothing, or steps of that run, which is not cancelled. -/
def GateSteps (rid : String) (db db' : Db) : Prop :=
  db' = db ∨ (Only rid db db' ∧ ∃ s s', db.runState rid = some s ∧ s.run.cancelRequestedAt = none ∧
    db'.runState rid = some s' ∧ Relation.ReflTransGen MoveStep s s')

theorem GateSteps.schedules {rid : String} {db db' : Db} (h : GateSteps rid db db') : Schedules db db' := by
  rcases h with rfl | ⟨honly, s, s', hs, -, hs', hsteps⟩
  · exact Schedules.refl _
  · refine honly.schedules fun t ht => ?_
    rw [hs] at ht
    obtain rfl := Option.some.inj ht
    exact ⟨s', hs', MoveStep.sched hsteps⟩

/-- The state of a node run's run has the cancel mark of its row. -/
theorem gateSteps_of {node : NodeRunRow} {run : WorkflowRunRow} {nodeRunId : String} {db db' : Db}
    (hp : nodeWithRun db nodeRunId = some (node, run)) (h : db' = db ∨ (run.cancelRequestedAt = none ∧
      Only run.id db db' ∧ ∃ s s', db.runState run.id = some s ∧ db'.runState run.id = some s' ∧
        Relation.ReflTransGen MoveStep s s')) : GateSteps run.id db db' := by
  obtain ⟨-, hrun⟩ := nodeWithRun_eq_some.1 hp
  have hid : run.id = node.workflowRunId := Table.get?_key hrun
  have hs₀ := runState_of_row hrun
  rcases h with h | ⟨hcancel, honly, s, s', hs, hs', hsteps⟩
  · exact .inl h
  · rw [← hid, hs] at hs₀
    refine .inr ⟨honly, s, s', hs, ?_, hs', hsteps⟩
    rw [Option.some.inj hs₀]
    exact hcancel

theorem resumeAfterApproval_spec {ord : RowOrder} {rid nodeRunId : String} {approved : Bool} {lease : MasterLease}
    {now : Instant} {db db' : Db} {o : Option NodeRunRow}
    (h : (resumeAfterApproval ord rid nodeRunId approved lease now).run db = .ok (o, db')) : GateSteps rid db db' := by
  simp only [resumeAfterApproval, StateT.run_bind, Tx.bind_ok, Tx.read_ok, Tx.require_ok, Tx.ensure_ok,
    MasterLeaseRepository.assertValidIn_ok, TableRef.select_ok] at h
  obtain ⟨_, ⟨-, rfl⟩, _, rfl, ⟨⟨node, run⟩, _⟩, ⟨hp, rfl⟩, _, ⟨-, rfl⟩, _, ⟨hcancel, rfl⟩, ⟨_, db₁⟩, hrel, h⟩ := h
  simp only [Prod.mk.injEq] at hp hrel h
  obtain ⟨-, rfl⟩ := h
  obtain ⟨hnode, rfl⟩ := nodeOfRun_eq_some hp
  obtain ⟨honly, hsteps⟩ := releaseWaiting_spec hrel hnode
  have hid : run.id = node.workflowRunId := Table.get?_key (nodeWithRun_eq_some.1 hnode).2
  rw [← hid]
  exact gateSteps_of hnode (.inr ⟨of_decide_eq_true hcancel, honly, hsteps⟩)

theorem resumeAfterApprovalIn_spec {ord : RowOrder} {rid nodeRunId : String} {approved : Bool} {lease : MasterLease}
    {now : Instant} {db db' : Db} {o : Option NodeRunRow}
    (h : (resumeAfterApprovalIn ord rid nodeRunId approved lease now).run db = .ok (o, db')) : GateSteps rid db db' := by
  simp only [resumeAfterApprovalIn, StateT.run_bind, Tx.bind_ok, Tx.read_ok, Tx.require_ok, TableRef.select_ok] at h
  obtain ⟨_, rfl, ⟨⟨node, run⟩, _⟩, ⟨hp, rfl⟩, ⟨_, db₁⟩, hadv, h⟩ := h
  simp only [Prod.mk.injEq] at hp hadv h
  obtain ⟨-, rfl⟩ := h
  obtain ⟨hnode, rfl⟩ := nodeOfRun_eq_some hp
  have hid : run.id = node.workflowRunId := Table.get?_key (nodeWithRun_eq_some.1 hnode).2
  rw [← hid]
  exact gateSteps_of hnode (advanceGate_spec hadv hnode)

theorem waitForApproval_spec {node : NodeRunRow} {run : WorkflowRunRow} {approvalId : String} {lease : MasterLease}
    {now : Instant} {db db' : Db} {o : Option NodeRunRow} {nodeRunId : String}
    (h : (waitForApproval node run approvalId lease now).run db = .ok (o, db'))
    (hp : nodeWithRun db nodeRunId = some (node, run)) :
    run.cancelRequestedAt = none ∧ Only run.id db db' ∧ ∃ s s', db.runState run.id = some s ∧
      db'.runState run.id = some s' ∧ Relation.ReflTransGen MoveStep s s' := by
  have hnid : nodeRunId = node.id := (Table.get?_key (nodeWithRun_eq_some.1 hp).1).symm
  subst hnid
  simp only [waitForApproval, StateT.run_bind, Tx.bind_ok, TableRef.select_ok] at h
  obtain ⟨⟨_, db₁⟩, hcas, ⟨_, db₂⟩, hcas', ⟨_, db₃⟩, happ, ⟨_, db₄⟩, happ', h⟩ := h
  simp only [Prod.mk.injEq] at hcas' happ happ' h
  obtain ⟨-, rfl⟩ := h
  have hq := (appendNodeState_quiet happ).trans (appendRunState_quiet happ')
  obtain ⟨-, hg, hmem, honly, hs, hs₁⟩ := nodeCas_spec hp hcas
  obtain ⟨⟨run', hrun', hg'⟩, hown, hothers⟩ := runState_runCas hcas' (fun _ => rfl) (fun _ => rfl)
  rw [(runState_eq_some.1 hs₁).1] at hrun'
  obtain rfl := Option.some.inj hrun'
  rw [hs₁, Option.map_some] at hown
  obtain ⟨hrun, hcancel⟩ := of_decide_eq_true hg'
  refine ⟨hcancel, honly.trans ⟨(frame_runCas hcas').trans hq.frame,
    fun rid hne => (hq.runState rid).trans (hothers rid hne)⟩, _, _, hs, (hq.runState _).trans hown, .single ?_⟩
  exact .wait node _ hmem (of_decide_eq_true hg) hrun hcancel

/-- Waiting for an approval moves the run of the node run. -/
theorem enterWaitingApproval_spec {ord : RowOrder} {nodeRunId approvalId : String} {lease : MasterLease}
    {now : Instant} {db db' : Db} {o : Option NodeRunRow}
    (h : (enterWaitingApproval ord nodeRunId approvalId lease now).run db = .ok (o, db')) :
    ∃ node run, nodeWithRun db nodeRunId = some (node, run) ∧ GateSteps run.id db db' := by
  simp only [enterWaitingApproval, StateT.run_bind, Tx.bind_ok, Tx.read_ok, Tx.require_ok, Tx.ensure_ok,
    MasterLeaseRepository.assertValidIn_ok, TableRef.select_ok] at h
  obtain ⟨_, ⟨-, rfl⟩, _, rfl, ⟨⟨node, run⟩, _⟩, ⟨hp, rfl⟩, _, ⟨-, rfl⟩, _, ⟨hcancel, rfl⟩, _, rfl, h⟩ := h
  simp only at hp h
  refine ⟨node, run, hp, ?_⟩
  split at h
  · exact resumeAfterApprovalIn_spec h
  · exact resumeAfterApprovalIn_spec h
  · exact gateSteps_of hp (.inr (waitForApproval_spec h hp))

end AgentHub
