import AgentHub.Storage.Runs.Calls
import AgentHub.Storage.Runs.Refines
/-!
# The repository refines its steps

Each operation that returned is a sequence of `RunStep`s of every run (`op_refines`), and only the
finalization of a merge moves an integration head (`op_heads`).
-/

namespace AgentHub

open Lib WorkflowRunRepository

/-! ## Operations that leave every run alone -/

/-- `db'` has the runs, node runs and sessions of `db`. -/
structure SameRuns (db db' : Db) : Prop where
  runs : ∀ id, db'.run? id = db.run? id
  nodeRuns : db'.nodeRuns = db.nodeRuns
  sessions : db'.sessions = db.sessions

instance : IsPreorder Db SameRuns where
  refl _ := ⟨fun _ => rfl, rfl, rfl⟩
  trans _ _ _ h h' := ⟨fun id => (h'.runs id).trans (h.runs id), h'.nodeRuns.trans h.nodeRuns, h'.sessions.trans h.sessions⟩

theorem Quiet.sameRuns {db db' : Db} (h : Quiet db db') : SameRuns db db' := ⟨h.runs, h.nodeRuns, h.sessions⟩

theorem SameRuns.runState {db db' : Db} (h : SameRuns db db') (rid : String) : db'.runState rid = db.runState rid := by
  simp only [Db.runState, Db.rowsOf, h.runs, h.nodeRuns]

theorem SameRuns.refines {db db' : Db} (h : SameRuns db db') : Refines db db' := .of_eq h.runState

section
variable {db : Db}

theorem sameRuns_tasks (t) : SameRuns db { db with tasks := t } := ⟨fun _ => rfl, rfl, rfl⟩
theorem sameRuns_artifacts (t) : SameRuns db { db with artifacts := t } := ⟨fun _ => rfl, rfl, rfl⟩
theorem sameRuns_changeSets (t) : SameRuns db { db with changeSets := t } := ⟨fun _ => rfl, rfl, rfl⟩
theorem sameRuns_approvals (t) : SameRuns db { db with approvals := t } := ⟨fun _ => rfl, rfl, rfl⟩
theorem sameRuns_requests (t) : SameRuns db { db with privilegeRequests := t } := ⟨fun _ => rfl, rfl, rfl⟩
theorem sameRuns_grants (t) : SameRuns db { db with capabilityGrants := t } := ⟨fun _ => rfl, rfl, rfl⟩

end

theorem appendIn_within {sid typ actor : String} {payload : EventPayload} {wid rid : String} {now : Instant} :
    Tx.Within SameRuns (EventRepository.appendIn sid typ actor payload wid rid now) :=
  fun _ _ _ h => (EventRepository.appendIn_quiet h).sameRuns

theorem runRow_readOnly (rid : String) : Tx.ReadOnly (runRow rid) := .bind (.read _) fun _ => .require _ _

theorem assertMaster_readOnly (lease : MasterLease) (now : Instant) :
    Tx.ReadOnly (MasterLeaseRepository.assertValidIn lease now) := .bind (.read _) fun _ => .ensure _ _

theorem assertWorkspace_readOnly (lease : WorkspaceLease) (now : Instant) :
    Tx.ReadOnly (WorkspaceLeaseRepository.assertValidIn lease now) := .bind (.read _) fun _ => .ensure _ _

theorem validateSnapshots_readOnly (H : Digests) (row : WorkflowRunRow) : Tx.ReadOnly (validateSnapshots H row) :=
  fun _ _ h => validateSnapshots_ok h

theorem runRecord_readOnly (H : Digests) (row : WorkflowRunRow) : Tx.ReadOnly (runRecord H row) :=
  .bind (validateSnapshots_readOnly H row) fun _ => .pure _

/-! ## Tasks -/

theorem claimPolicy_within (taskId policyId : String) : Tx.Within SameRuns (claimPolicy taskId policyId) :=
  TableRef.cas_within fun _ t => sameRuns_artifacts t

theorem bindPolicy_within (task : TaskRow) (policyId : String) : Tx.Within SameRuns (bindPolicy task policyId) :=
  .ite (.bind (claimPolicy_within _ _) fun _ => TableRef.cas_within fun _ t => sameRuns_tasks t) (.pure _)

theorem checkTaskNode_readOnly (node : NodeRunRow) (run : WorkflowRunRow) (agentId base : String) :
    Tx.ReadOnly (checkTaskNode node run agentId base) :=
  .bind (.ensure _ _) fun _ => .bind (.ensure _ _) fun _ => .bind (.ensure _ _) fun _ => .bind (.ensure _ _) fun _ =>
    .ensure _ _

theorem checkPolicy_readOnly (run : WorkflowRunRow) (taskId policyId : String) :
    Tx.ReadOnly (checkPolicy run taskId policyId) :=
  .bind (.read _) fun _ => .bind (.require _ _) fun _ => .ensure _ _

theorem createAndStartTask_within (taskId id agentId base policyId : String) (lease : MasterLease) (now : Instant) :
    Tx.Within SameRuns (createAndStartTask taskId id agentId base policyId lease now) := by
  refine .bind (assertMaster_readOnly _ _).within fun _ => .bind (.read _) fun _ => .bind (.require _ _) fun p => ?_
  obtain ⟨node, run⟩ := p
  refine .bind (checkTaskNode_readOnly _ _ _ _).within fun _ => .bind (checkPolicy_readOnly _ _ _).within fun _ => ?_
  refine .bind (TableRef.select_within _) fun existing => ?_
  have hstart : Tx.Within SameRuns (do
      appendTaskState run lease id taskId (some .pending) .running none none now
      Db.tasksT.select taskId : Op (Option TaskRow)) :=
    .bind appendIn_within fun _ => TableRef.select_within _
  cases existing with
  | none =>
    refine .bind (.bind ?_ fun _ => claimPolicy_within _ _) fun _ => .bind appendIn_within fun _ => hstart
    exact TableRef.insert_within fun _ t => sameRuns_tasks t
  | some task =>
    refine .bind (.bind (.ensure _ _) fun _ => .bind (bindPolicy_within _ _) fun _ => ?_) fun _ => hstart
    exact TableRef.cas_within fun _ t => sameRuns_tasks t

/-! ## The hooks of a cancellation -/

theorem forEach_mem_within {ρ : Type} {R : Db → Db → Prop} [IsPreorder Db R] {step : ρ → Op Unit} {l : List ρ}
    (h : ∀ r ∈ l, Tx.Within R (step r)) : Tx.Within R (ApprovalRepository.forEach step l) := by
  induction l with
  | nil => exact .pure _
  | cons r l ih =>
    refine .bind (h r (List.mem_cons_self ..)) fun _ => ih fun x hx => ?_
    exact h x (List.mem_cons_of_mem _ hx)

theorem forEach_within {ρ : Type} {R : Db → Db → Prop} [IsPreorder Db R] {step : ρ → Op Unit}
    (h : ∀ r, Tx.Within R (step r)) (l : List ρ) : Tx.Within R (ApprovalRepository.forEach step l) :=
  forEach_mem_within fun r _ => h r

theorem denyRequest_within (id : String) (froms : List PrivilegeRequestStatus) :
    Tx.Within SameRuns (ApprovalRepository.denyRequest id froms) :=
  .bind (TableRef.update_within fun _ t => sameRuns_requests t) fun _ => .pure _

theorem appendPrivilegeRequestEvent_within {rid nid tid id : String} {previous : Option String} {status : String}
    {lease : MasterLease} {reason : Option String} {now : Instant} : Tx.Within SameRuns
      (ApprovalRepository.appendPrivilegeRequestEvent rid nid tid id previous status lease reason now) :=
  .bind (runRow_readOnly _).within fun _ => appendIn_within

theorem invalidateSubject_within (approval : ApprovalRow) (lease : MasterLease) (reason : String) (now : Instant) :
    Tx.Within SameRuns (ApprovalRepository.invalidateSubject approval lease reason now) := by
  unfold ApprovalRepository.invalidateSubject
  split
  · exact .bind (TableRef.update_within fun _ t => sameRuns_changeSets t) fun _ => .pure _
  · refine .bind (denyRequest_within _ _) fun _ => .ite (.bind (.read _) fun _ => .bind (.require _ _) fun p => ?_) (.pure _)
    exact appendPrivilegeRequestEvent_within

theorem invalidateOne_within (lease : MasterLease) (reason : String) (now : Instant) (approval : ApprovalRow) :
    Tx.Within SameRuns (ApprovalRepository.invalidateOne lease reason now approval) := by
  refine .bind (TableRef.cas_within fun _ t => sameRuns_approvals t) fun _ => ?_
  refine .bind (invalidateSubject_within _ _ _ _) fun _ => .bind (TableRef.select_within _) fun _ => ?_
  exact .bind (.require _ _) fun _ => .bind (runRow_readOnly _).within fun _ => appendIn_within

theorem invalidateForRunIn_within (rid : String) (lease : MasterLease) (reason : String) (now : Instant) :
    Tx.Within SameRuns (ApprovalRepository.invalidateForRunIn rid lease reason now) := by
  refine .bind (assertMaster_readOnly _ _).within fun _ => .bind (.read _) fun _ => ?_
  refine .bind (forEach_within (invalidateOne_within lease reason now) _) fun _ => .bind (.read _) fun _ => ?_
  exact .bind (TableRef.update_within fun _ t => sameRuns_changeSets t) fun _ => .pure _

theorem revokeOne_within (lease : MasterLease) (reason : String) (now : Instant) (grant : CapabilityGrantRow) :
    Tx.Within SameRuns (ApprovalRepository.revokeOne lease reason now grant) := by
  refine .bind (TableRef.cas_within fun _ t => sameRuns_grants t) fun _ => .bind (denyRequest_within _ _) fun _ => ?_
  refine .bind (TableRef.update_within fun _ t => sameRuns_tasks t) fun _ => .bind (.read _) fun _ => ?_
  refine .bind (.require _ _) fun _ => .bind (.ite appendPrivilegeRequestEvent_within (.pure _)) fun _ => ?_
  exact .bind (runRow_readOnly _).within fun _ => appendIn_within

theorem revokeUnconsumedForRunIn_within (rid : String) (lease : MasterLease) (reason : String) (now : Instant) :
    Tx.Within SameRuns (ApprovalRepository.revokeUnconsumedForRunIn rid lease reason now) :=
  .bind (assertMaster_readOnly _ _).within fun _ => .bind (.read _) fun _ =>
    .bind (forEach_within (revokeOne_within lease reason now) _) fun _ => .pure _

/-! ## Guarded writes -/

section
variable {db db' : Db} {k : String} {u : Unit} {e : StorageError}

/-- A guarded write to a node run, in the state of its run. -/
theorem nodeCas_run {g f hk hu} (h : (Db.nodeRunsT.cas k g f hk hu e).run db = .ok (u, db')) :
    ∃ r, db.nodeRuns.get? k = some r ∧ g r = true ∧
      (∀ rid, rid ≠ r.workflowRunId → db'.runState rid = db.runState rid) ∧
      ∀ s, db.runState r.workflowRunId = some s →
        r ∈ s.rows ∧ db'.runState r.workflowRunId = some (s.setRow r.id f) := by
  obtain ⟨r, hr, hg, hown, hothers⟩ := runState_nodeCas h
  refine ⟨r, hr, hg, hothers, fun s hs => ⟨?_, ?_⟩⟩
  · rw [← (runState_eq_some.1 hs).2]
    exact mem_rowsOf.2 ⟨Table.mem_of_get? hr, rfl⟩
  · rw [hown, hs, Option.map_some, Table.get?_key hr]

/-- A guarded write to a run row, in the state of the run. -/
theorem runCas_run {g f hk hu} (h : (Db.workflowRunsT.cas k g f hk hu e).run db = .ok (u, db'))
    (hg : ∀ r, g r.core = g r) (hf : ∀ r, (f r).core = f r.core) :
    (∀ rid, rid ≠ k → db'.runState rid = db.runState rid) ∧
      ∀ s, db.runState k = some s → g s.run = true ∧ db'.runState k = some { s with run := f s.run } := by
  obtain ⟨⟨run, hrun, hgrun⟩, hown, hothers⟩ := runState_runCas h hg hf
  refine ⟨hothers, fun s hs => ⟨?_, by rw [hown, hs, Option.map_some]⟩⟩
  rw [(runState_eq_some.1 hs).1] at hrun
  rwa [Option.some.inj hrun]

/-- A state whose row was read. -/
theorem runState_unique {row : WorkflowRunRow} {s : RunState} (hrow : db.workflowRuns.get? k = some row)
    (hs : db.runState k = some s) : s.run = row.core := by
  have := hs.symm.trans (runState_of_row hrow)
  exact congrArg RunState.run (Option.some.inj this)

end

/-- A guarded write to a node run that is a step of its run. -/
theorem nodeCas_refines {db db' : Db} {k : String} {u : Unit} {e : StorageError} {g f hk hu}
    (h : (Db.nodeRunsT.cas k g f hk hu e).run db = .ok (u, db'))
    (hstep : ∀ r s, db.nodeRuns.get? k = some r → db.runState r.workflowRunId = some s → r ∈ s.rows → g r = true →
      RunStep s (s.setRow r.id f)) : Refines db db' := by
  obtain ⟨r, hr, hg, hothers, hown⟩ := nodeCas_run h
  refine .of_run hothers fun s hs => ?_
  obtain ⟨hmem, hs'⟩ := hown s hs
  exact ⟨_, hs', .single (hstep r s hr hs hmem hg)⟩

/-- A guarded write to a run row that is a step of the run. -/
theorem runCas_refines {db db' : Db} {k : String} {u : Unit} {e : StorageError} {g f hk hu}
    (h : (Db.workflowRunsT.cas k g f hk hu e).run db = .ok (u, db')) (hg : ∀ r, g r.core = g r)
    (hf : ∀ r, (f r).core = f r.core)
    (hstep : ∀ s, db.runState k = some s → g s.run = true → RunStep s { s with run := f s.run }) : Refines db db' := by
  obtain ⟨hothers, hown⟩ := runCas_run h hg hf
  refine .of_run hothers fun s hs => ?_
  obtain ⟨hgs, hs'⟩ := hown s hs
  exact ⟨_, hs', .single (hstep s hs hgs)⟩

/-! ## Privilege retries -/

theorem nodeWithTask_eq_some {db : Db} {rid id : String} {node : NodeRunRow} {run : WorkflowRunRow} {task : TaskRow}
    (h : nodeWithTask db rid id = some (node, run, task)) :
    db.nodeRuns.get? id = some node ∧ db.workflowRuns.get? rid = some run ∧ node.workflowRunId = rid := by
  simp only [nodeWithTask, Option.bind_eq_some_iff, Option.map_eq_some_iff, Prod.mk.injEq] at h
  obtain ⟨⟨node', run'⟩, hp, _, -, rfl, rfl, -⟩ := h
  obtain ⟨hp, hrid⟩ := nodeOfRun_eq_some hp
  obtain ⟨hnode, hrun⟩ := nodeWithRun_eq_some.1 hp
  exact ⟨hnode, hrid ▸ hrun, hrid⟩

theorem requestPrivilege_within (task : TaskRow) (now : Instant) : Tx.Within SameRuns (requestPrivilege task now) :=
  .ite (TableRef.cas_within fun _ t => sameRuns_tasks t) (.pure _)

/-- The source of a privilege request waits as a node waits for an approval. -/
theorem preparePrivilegeRetry_refines {H : Digests} {rid id approvalId : String} {lease : MasterLease}
    {ws : WorkspaceLease} {now : Instant} {db db' : Db} {a : String}
    (h : (preparePrivilegeRetry H rid id approvalId lease ws now).run db = .ok (a, db')) : Refines db db' := by
  simp only [preparePrivilegeRetry, StateT.run_bind, Tx.bind_ok, Tx.read_ok, Tx.require_ok, Tx.ensure_ok,
    MasterLeaseRepository.assertValidIn_ok, WorkspaceLeaseRepository.assertValidIn_ok, StateT.run_pure, Tx.pure_ok] at h
  obtain ⟨_, ⟨-, rfl⟩, _, rfl, ⟨⟨node, run, task⟩, _⟩, ⟨hp, rfl⟩, _, ⟨-, rfl⟩, _, ⟨-, rfl⟩, _, ⟨hcancel, rfl⟩, _,
    ⟨-, rfl⟩, _, rfl, _, ⟨-, rfl⟩, ⟨_, db₁⟩, htask, ⟨_, db₂⟩, hcas, ⟨_, db₃⟩, hcas', ⟨_, db₄⟩, happ, ⟨_, db₅⟩, happ₂,
    ⟨_, db₆⟩, happ₃, h⟩ := h
  simp only [Prod.mk.injEq] at hp hcas hcas' happ happ₂ happ₃ h
  obtain ⟨-, rfl⟩ := h
  obtain ⟨hnode, hrun, hrid⟩ := nodeWithTask_eq_some hp
  have hsame := requestPrivilege_within _ _ _ _ _ htask
  have hquiet : Quiet db₃ db' := by
    refine .trans ?_ ((appendNodeState_quiet happ₂).trans (appendRunState_quiet happ₃))
    unfold appendPrivilegeRequested at happ
    split at happ
    · exact EventRepository.appendIn_quiet happ
    · simp only [StateT.run_pure, Tx.pure_ok, Prod.mk.injEq] at happ
      rw [happ.2]
      exact .refl _
  obtain ⟨r, hr, hg, hothers, hown⟩ := nodeCas_run hcas
  obtain ⟨hothers', hown'⟩ := runCas_run hcas' (fun _ => rfl) (fun _ => rfl)
  have hnid : node.id = id := Table.get?_key hnode
  rw [hsame.nodeRuns, hnid, hnode] at hr
  obtain rfl := Option.some.inj hr
  rw [hrid] at hothers hown
  rw [show run.id = rid from Table.get?_key hrun] at hothers' hown'
  refine .of_run (k := rid) (fun rid' hne => ?_) fun s hs => ?_
  · rw [hquiet.runState, hothers' _ hne, hothers _ hne, hsame.runState]
  · rw [← hsame.runState] at hs
    obtain ⟨hmem, hs₂⟩ := hown s hs
    obtain ⟨hg', hs₃⟩ := hown' _ hs₂
    obtain ⟨hwait, hnone⟩ := of_decide_eq_true hg'
    refine ⟨_, (hquiet.runState _).trans hs₃, .single (.sched (.move ?_))⟩
    exact .wait node _ hmem (of_decide_eq_true hg) hwait hnone

theorem hasLaterAttempt_false {db : Db} {node : NodeRunRow} (h : hasLaterAttempt db node = false) :
    ∀ r ∈ db.rowsOf node.workflowRunId, r.nodeId = node.nodeId → r.attempt ≤ node.attempt := by
  intro r hr hid
  simp only [hasLaterAttempt, List.any_eq_false, Bool.and_eq_true, decide_eq_true_eq] at h
  by_contra hlt
  exact h r (mem_rowsOf.1 hr).1 ⟨⟨(mem_rowsOf.1 hr).2, hid⟩, by omega⟩

/-- The retry target is a new pending row of the source's node, one attempt later. -/
theorem createPrivilegeRetryTargetIn_spec {H : Digests} {node : NodeRunRow} {task : TaskRow} {approvalId : String}
    {now : Instant} {db db' : Db} {u : Unit}
    (h : (createPrivilegeRetryTargetIn H node task approvalId now).run db = .ok (u, db')) :
    ∃ t : NodeRunRow, db'.runState node.workflowRunId =
        (db.runState node.workflowRunId).map (fun s => { s with rows := s.rows ++ [t] }) ∧
      (t.nodeId = node.nodeId ∧ t.nodeType = node.nodeType ∧ t.attempt = node.attempt + 1) ∧
      (t.status = .pending ∧ t.outcome = none) ∧ node.attempt < 2 ∧
      (∀ r ∈ db.rowsOf node.workflowRunId, r.nodeId = node.nodeId → r.attempt ≤ node.attempt) ∧
      (∀ id r, db.nodeRuns.get? id = some r → db'.nodeRuns.get? id = some r) ∧
      ∀ rid, rid ≠ node.workflowRunId → db'.runState rid = db.runState rid := by
  simp only [createPrivilegeRetryTargetIn, StateT.run_bind, Tx.bind_ok, Tx.read_ok, Tx.ensure_ok] at h
  obtain ⟨_, ⟨hfirst, rfl⟩, _, rfl, _, ⟨hlater, rfl⟩, ⟨_, db₁⟩, hins, htask⟩ := h
  simp only at hfirst hlater hins htask
  have hsame : SameRuns db₁ db' :=
    TableRef.insert_within (T := Db.tasksT) (fun _ t => sameRuns_tasks t) _ _ _ htask
  obtain ⟨hown, hothers⟩ := runState_insert hins
  refine ⟨_, (hsame.runState _).trans hown, ⟨rfl, rfl, rfl⟩, ⟨rfl, rfl⟩, of_decide_eq_true hfirst,
    hasLaterAttempt_false (by simpa using hlater), ?_, fun rid hne => (hsame.runState rid).trans (hothers rid hne)⟩
  intro id r hr
  obtain ⟨t, ht, hs⟩ := TableRef.insert_ok.1 hins
  simp only [Prod.mk.injEq] at hs
  obtain ⟨-, rfl⟩ := hs
  rw [hsame.nodeRuns, Table.get?_insert ht, if_neg]
  · exact hr
  · intro hid
    have := (Table.insert_eq_some ht).2.1
    rw [hid, hr] at this
    cases this

theorem nextAttempt_mem {db : Db} {node r : NodeRunRow} {t : TaskRow} (h : nextAttempt db node = some (r, t)) :
    r ∈ db.rowsOf node.workflowRunId ∧ r.nodeId = node.nodeId ∧ node.attempt < r.attempt := by
  rcases mem_of_foldl_pick (fun o p => by cases o <;> grind) h with h | hmem
  · cases h
  · obtain ⟨r', hr', hmap⟩ := List.mem_filterMap.1 hmem
    split at hmap
    · next hc =>
      simp only [Option.map_eq_some_iff, Prod.mk.injEq] at hmap
      obtain ⟨_, -, rfl, -⟩ := hmap
      exact ⟨mem_rowsOf.2 ⟨hr', hc.1⟩, hc.2⟩
    · cases hmap

/-- After it, the source's node has a later attempt. -/
theorem ensureRetryTarget_spec {H : Digests} {node : NodeRunRow} {task : TaskRow} {now : Instant} {db db' : Db} {u : Unit}
    (h : (ensureRetryTarget H node task now).run db = .ok (u, db')) {s : RunState}
    (hs : db.runState node.workflowRunId = some s) (hmem : node ∈ s.rows) (hwait : node.status = .waitingApproval)
    (hrun : s.run.status = .waitingApproval) (hcancel : s.run.cancelRequestedAt = none) :
    (∀ id r, db.nodeRuns.get? id = some r → db'.nodeRuns.get? id = some r) ∧
      (∀ rid, rid ≠ node.workflowRunId → db'.runState rid = db.runState rid) ∧
      ∃ s', db'.runState node.workflowRunId = some s' ∧ s'.run = s.run ∧ RunSteps s s' ∧
        ∃ r' ∈ s'.rows, r'.nodeId = node.nodeId ∧ node.attempt < r'.attempt := by
  simp only [ensureRetryTarget, StateT.run_bind, Tx.bind_ok, Tx.read_ok] at h
  obtain ⟨_, rfl, h⟩ := h
  have hrows := (runState_eq_some.1 hs).2
  split at h
  · obtain ⟨t, hown, hnode, hpending, hfirst, hlast, hkeep, hothers⟩ := createPrivilegeRetryTargetIn_spec h
    rw [hrows] at hlast
    rw [hs, Option.map_some] at hown
    refine ⟨hkeep, hothers, _, hown, rfl, .single ?_, t, by simp, hnode.1, by omega⟩
    exact .insertRetry node t hmem hwait hrun hcancel hfirst hlast hnode hpending
  · next hsome =>
    simp only [StateT.run_pure, Tx.pure_ok, Prod.mk.injEq] at h
    obtain ⟨-, rfl⟩ := h
    obtain ⟨⟨r', t⟩, hnext⟩ := Option.ne_none_iff_exists'.1 (by simpa using hsome)
    obtain ⟨hr', hid, hlt⟩ := nextAttempt_mem hnext
    exact ⟨fun _ _ hr => hr, fun _ _ => rfl, s, hs, rfl, .refl, r', hrows ▸ hr', hid, hlt⟩

theorem resumePrivilegeAfterApprovalIn_refines {H : Digests} {rid id : String} {approved : Bool} {lease : MasterLease}
    {now : Instant} {db db' : Db} {u : Unit}
    (h : (resumePrivilegeAfterApprovalIn H rid id approved lease now).run db = .ok (u, db')) : Refines db db' := by
  simp only [resumePrivilegeAfterApprovalIn, StateT.run_bind, Tx.bind_ok, Tx.read_ok, Tx.require_ok, Tx.ensure_ok] at h
  obtain ⟨_, rfl, ⟨⟨node, run, task⟩, db₀⟩, ⟨hp, hdb⟩, _, ⟨hwait, rfl⟩, h⟩ := h
  simp only at hp hdb hwait h
  obtain rfl := hdb.symm
  obtain ⟨hnode, hrun, hrid⟩ := nodeWithTask_eq_some hp
  obtain ⟨hnw, hrw, hcancel⟩ := of_decide_eq_true hwait
  cases approved with
  | false => exact (Tx.fail_ok.1 h).elim
  | true =>
    simp only [if_true, StateT.run_bind, Tx.bind_ok, supersede] at h
    obtain ⟨⟨_, db₁⟩, hens, ⟨_, db₂⟩, hcas, happ⟩ := h
    simp only at hcas happ
    have hq := appendNodeState_quiet happ
    have hs := runState_of_row hrun
    rw [← hrid] at hs
    have hmem : node ∈ (⟨run.core, db.rowsOf node.workflowRunId⟩ : RunState).rows :=
      mem_rowsOf.2 ⟨Table.mem_of_get? hnode, rfl⟩
    obtain ⟨hkeep, hothers, s₁, hs₁, hrun₁, hsteps, hlater⟩ := ensureRetryTarget_spec hens hs hmem hnw hrw hcancel
    obtain ⟨r, hr, hg, hothers', hown⟩ := nodeCas_run hcas
    rw [hkeep _ _ ((Table.get?_key hnode).symm ▸ hnode)] at hr
    obtain rfl := Option.some.inj hr
    obtain ⟨hmem₁, hs₂⟩ := hown s₁ hs₁
    refine .of_run (k := node.workflowRunId) (fun rid' hne => ?_) fun t ht => ?_
    · rw [hq.runState, hothers' _ hne, hothers _ hne]
    · rw [hs] at ht
      obtain rfl := Option.some.inj ht
      refine ⟨_, (hq.runState _).trans hs₂, hsteps.tail ?_⟩
      exact .supersede node now hmem₁ hnw (hrun₁ ▸ hrw) (hrun₁ ▸ hcancel) hlater

/-- The approval of a privilege request never returns. -/
theorem approvePrivilegeIn_raises {H : Digests} {rid id approvalId : String} {now : Instant} {db : Db}
    {r : String × Db} : (approvePrivilegeIn H rid id approvalId now).run db ≠ .ok r := by
  intro h
  simp only [approvePrivilegeIn, StateT.run_bind, Tx.bind_ok, Tx.fail_ok, and_false, exists_false] at h

theorem wakeRun_refines {run : WorkflowRunRow} {lease : MasterLease} {now : Instant} {db db' : Db} {u : Unit}
    (h : (wakeRun run lease now).run db = .ok (u, db')) : Refines db db' := by
  simp only [wakeRun, StateT.run_bind, Tx.bind_ok] at h
  obtain ⟨⟨n, db₁⟩, hup, h⟩ := h
  have hupd := runState_runUpdate hup (fun _ => rfl) (fun _ => rfl)
  have hq : Quiet db₁ db' := by
    split at h
    · exact appendRunState_quiet h
    · simp only [StateT.run_pure, Tx.pure_ok, Prod.mk.injEq] at h
      rw [h.2]
      exact .refl _
  intro rid s hs
  rw [hq.runState, hupd, hs]
  refine ⟨_, rfl, ?_⟩
  dsimp only
  split
  · next hc =>
    simp only [Bool.and_eq_true, decide_eq_true_eq] at hc
    exact .single (.wake hc.2.1 hc.2.2)
  · exact .refl

theorem activateCapabilityTargetIn_refines {taskId : String} {lease : MasterLease} {now : Instant} {db db' : Db}
    {u : Unit} (h : (activateCapabilityTargetIn taskId lease now).run db = .ok (u, db')) : Refines db db' := by
  simp only [activateCapabilityTargetIn, StateT.run_bind, Tx.bind_ok, Tx.read_ok, Tx.require_ok] at h
  obtain ⟨_, rfl, ⟨⟨node, run, task⟩, db₀⟩, ⟨hp, hdb⟩, h⟩ := h
  simp only at hdb h
  obtain rfl := hdb.symm
  simp only [Option.bind_eq_some_iff, Option.map_eq_some_iff, Prod.mk.injEq] at hp
  obtain ⟨_, -, ⟨node', run'⟩, hp, rfl, rfl, rfl⟩ := hp
  obtain ⟨hnode, hrun⟩ := nodeWithRun_eq_some.1 hp
  simp only [activateTarget] at h
  split at h
  · simp only [StateT.run_pure, Tx.pure_ok, Prod.mk.injEq] at h
    rw [h.2]
    exact .refl _
  · simp only [StateT.run_bind, Tx.bind_ok, Tx.ensure_ok] at h
    obtain ⟨_, ⟨hguard, rfl⟩, ⟨_, db₁⟩, hcas, ⟨_, db₂⟩, happ, hwake⟩ := h
    simp only at hguard hcas happ hwake hrun
    obtain ⟨-, -, hcancel⟩ := of_decide_eq_true hguard
    have hact : Refines db db₁ := by
      refine nodeCas_refines hcas fun r s hr hs hmem hg => .activate r hmem (of_decide_eq_true hg) ?_
      rw [Table.get?_key hnode, hnode] at hr
      obtain rfl := Option.some.inj hr
      rw [runState_unique hrun hs]
      exact hcancel
    exact (hact.trans (.of_eq (appendNodeState_quiet happ).runState)).trans (wakeRun_refines hwake)

/-! ## Merges -/

theorem runningMerge_mem {db : Db} {rid : String} {r : NodeRunRow} (h : runningMerge db rid = some r) :
    r ∈ db.rowsOf rid ∧ r.nodeType = .mergePatch ∧ r.status = .running := by
  rcases mem_of_foldl_pick (fun o p => by cases o <;> grind) h with h | hmem
  · cases h
  · obtain ⟨hr, hc⟩ := List.mem_filter.1 hmem
    exact ⟨hr, of_decide_eq_true hc⟩

theorem beginMergeFinalizing_refines {rid : String} {ws : WorkspaceLease} {lease : MasterLease} {now : Instant}
    {db db' : Db} {a : WorkflowRunRow} (h : (beginMergeFinalizing rid ws lease now).run db = .ok (a, db')) :
    Refines db db' := by
  simp only [beginMergeFinalizing, StateT.run_bind, Tx.bind_ok, Tx.read_ok, Tx.ensure_ok, runRow_ok,
    MasterLeaseRepository.assertValidIn_ok, WorkspaceLeaseRepository.assertValidIn_ok] at h
  obtain ⟨_, ⟨-, rfl⟩, ⟨row, db₀⟩, ⟨-, hdb⟩, _, ⟨-, rfl⟩, _, rfl, _, ⟨hmerge, rfl⟩, _, ⟨-, rfl⟩, _, ⟨-, rfl⟩, _,
    ⟨-, rfl⟩, ⟨_, db₁⟩, hcas, -, hlast⟩ := h
  simp only at hdb hmerge hcas hlast
  subst hdb hlast
  refine runCas_refines hcas (fun _ => rfl) (fun _ => rfl) fun s hs hg => ?_
  obtain ⟨hrun, hcancel, hidle⟩ := of_decide_eq_true hg
  obtain ⟨r, hr, -⟩ := Option.map_eq_some_iff.1 (of_decide_eq_true hmerge)
  obtain ⟨hmem, htype, hrunning⟩ := runningMerge_mem hr
  rw [(runState_eq_some.1 hs).2] at hmem
  exact .beginMerge r now hmem htype hrunning hrun hcancel hidle

theorem clearMergeFinalizing_refines {rid : String} {ws : WorkspaceLease} {lease : MasterLease} {now : Instant}
    {db db' : Db} {a : WorkflowRunRow} (h : (clearMergeFinalizing rid ws lease now).run db = .ok (a, db')) :
    Refines db db' := by
  simp only [clearMergeFinalizing, StateT.run_bind, Tx.bind_ok, Tx.read_ok, Tx.ensure_ok, runRow_ok,
    MasterLeaseRepository.assertValidIn_ok, WorkspaceLeaseRepository.assertValidIn_ok] at h
  obtain ⟨_, ⟨-, rfl⟩, ⟨row, db₀⟩, ⟨-, hdb⟩, _, ⟨-, rfl⟩, _, rfl, _, ⟨-, rfl⟩, _, ⟨-, rfl⟩, ⟨n, db₁⟩, hup, -, hlast⟩ := h
  simp only at hdb hup hlast
  subst hdb hlast
  intro k s hs
  rw [runState_runUpdate hup (fun _ => rfl) (fun _ => rfl), hs]
  refine ⟨_, rfl, ?_⟩
  dsimp only
  split
  · exact .single .clearMerge
  · exact .refl

/-- Writes that agree on the row with the id are one write. -/
theorem setRow_congr {s : RunState} {id : String} {f g : NodeRunRow → NodeRunRow}
    (h : ∀ r ∈ s.rows, r.id = id → f r = g r) : s.setRow id f = s.setRow id g := by
  unfold RunState.setRow
  congr 1
  refine List.map_congr_left fun r hr => ?_
  by_cases hid : r.id = id
  · simp only [hid, if_true, h r hr hid]
  · simp only [hid, if_false]

/-- Moving the head of the session leaves every run's state but that of the run it is for. -/
theorem advanceHead_refines {run : WorkflowRunRow} {commit : String} {now : Instant} {db db' : Db} {u : Unit}
    (h : (advanceHead run commit now).run db = .ok (u, db')) (hrow : db.workflowRuns.get? run.id = some run)
    (hcancel : run.cancelRequestedAt = none) :
    db'.nodeRuns = db.nodeRuns ∧ (∀ rid, rid ≠ run.id → db'.runState rid = db.runState rid) ∧
      ∃ s s', db.runState run.id = some s ∧ db'.runState run.id = some s' ∧ s'.run.status = .running ∧
        s'.run.compiledSnapshot = run.compiledSnapshot ∧ s'.run.cancelRequestedAt = none ∧ RunStep s s' := by
  simp only [advanceHead, StateT.run_bind, Tx.bind_ok, Tx.ensure_ok, TableRef.select_ok] at h
  obtain ⟨_, rfl, _, ⟨-, rfl⟩, ⟨_, db₁⟩, hses, hcas⟩ := h
  simp only at hses hcas
  obtain ⟨-, hs⟩ := TableRef.cas_ok.1 hses
  simp only [Prod.mk.injEq] at hs
  obtain ⟨-, hdb₁⟩ := hs
  have hsame : ∀ rid, db₁.runState rid = db.runState rid := by rw [hdb₁]; exact fun _ => rfl
  have hnodes : db₁.nodeRuns = db.nodeRuns := by rw [hdb₁]
  have hnodes' : db'.nodeRuns = db₁.nodeRuns := by
    obtain ⟨-, hs⟩ := TableRef.cas_ok.1 hcas
    rw [(Prod.mk.inj hs).2]
  obtain ⟨hothers, hown⟩ := runCas_run hcas (fun _ => rfl) (fun _ => rfl)
  have hs := runState_of_row hrow
  obtain ⟨hg, hs'⟩ := hown _ ((hsame _).trans hs)
  obtain ⟨hrun, hmerging⟩ := of_decide_eq_true hg
  exact ⟨hnodes'.trans hnodes, fun rid hne => (hothers rid hne).trans (hsame rid), _, _, hs, hs', hrun, rfl, hcancel,
    .advance commit hrun hcancel hmerging⟩

theorem finalizeMerge_refines {ord : RowOrder} {id changeSetId commit : String} {ws : WorkspaceLease}
    {lease : MasterLease} {summary : String} {now : Instant} {db db' : Db} {o : Option NodeRunRow}
    (h : (finalizeMerge ord id changeSetId commit ws lease summary now).run db = .ok (o, db')) : Refines db db' := by
  simp only [finalizeMerge, checkMergeLease, StateT.run_bind, Tx.bind_ok, Tx.read_ok, Tx.require_ok, Tx.ensure_ok,
    runRow_ok, MasterLeaseRepository.assertValidIn_ok, WorkspaceLeaseRepository.assertValidIn_ok, TableRef.select_ok] at h
  obtain ⟨_, ⟨-, rfl⟩, _, ⟨-, rfl⟩, _, rfl, ⟨⟨node, run⟩, db₀⟩, ⟨hp, hdb⟩, _, ⟨hguard, rfl⟩, _, ⟨_, ⟨-, rfl⟩, -, rfl⟩,
    ⟨_, db₁⟩, hadv, ⟨_, db₂⟩, hcs, ⟨_, db₃⟩, hcas, ⟨_, db₄⟩, happ, ⟨fresh, db₅⟩, ⟨hfresh, hdb₅⟩, ⟨_, db₆⟩, hrec, hlast⟩ := h
  simp only [Prod.mk.injEq] at hp hdb hguard hadv hcs hcas happ hfresh hdb₅ hrec hlast
  obtain ⟨-, rfl⟩ := hlast
  subst hdb₅
  obtain rfl := hdb.symm
  obtain ⟨hnode, hrun⟩ := nodeWithRun_eq_some.1 hp
  simp only at hnode hrun
  obtain ⟨-, -, -, hcancel⟩ := of_decide_eq_true hguard
  have hrid : run.id = node.workflowRunId := Table.get?_key hrun
  rw [← hrid] at hrun
  obtain ⟨hnodes, hothers, s, s₁, hs, hs₁, hrunning, hgraph, hcancel₁, hstep⟩ := advanceHead_refines hadv hrun hcancel
  have hsame : SameRuns db₁ db₂ := TableRef.cas_within (T := Db.changeSetsT) (fun _ t => sameRuns_changeSets t) _ _ _ hcs
  obtain ⟨r, hr, hg, hothers', hown⟩ := nodeCas_run hcas
  rw [hsame.nodeRuns, hnodes, hnode] at hr
  obtain rfl := Option.some.inj hr
  rw [← hrid] at hothers' hown
  rw [← hsame.runState] at hs₁
  obtain ⟨hmem, hs₂⟩ := hown s₁ hs₁
  have hq := appendNodeState_quiet happ
  have hid : fresh.id = run.id := Table.get?_key hfresh
  have hs₃ := (hq.runState _).trans hs₂
  have hcomplete : RunStep s₁ (s₁.setRow node.id fun r => { r with
      status := .completed, outcome := some .success, errorCode := none, finishedAt := some (utcNowText now) }) := by
    have hset : (s₁.setRow node.id fun r => { r with
        status := .completed, outcome := some .success, errorCode := none, finishedAt := some (utcNowText now) }) =
        s₁.setRow node.id fun r => { r with
          status := .completed, outcome := some .success, outputArtifactId := node.outputArtifactId,
          errorCode := none, finishedAt := some (utcNowText now) } :=
      setRow_congr fun r' hr' hid' => by rw [eq_of_id (ids_nodup hs₁) hmem hr' hid']
    rw [hset]
    exact .sched (.move (.complete node .completed .success _ none now hmem (of_decide_eq_true hg) hrunning hcancel₁
      (by simp [allowedOutcomes])))
  rw [← hid] at hs₃
  obtain ⟨honly, s', hs', hreco⟩ := reconcileIn_reconciles hrec hs₃ (by
    rw [runState_unique (k := fresh.id) (hid ▸ hfresh) hs₃]
    rfl)
  rw [hid] at honly hs'
  refine .of_run (k := run.id) (fun rid hne => ?_) fun t ht => ?_
  · rw [honly.others _ hne, hq.runState, hothers' _ hne, hsame.runState, hothers _ hne]
  · rw [hs] at ht
    obtain rfl := Option.some.inj ht
    refine ⟨s', hs', .head hstep (.head hcomplete ?_)⟩
    exact Relation.ReflTransGen.mono (fun _ _ h => .sched (.move h)) _ _ (hreco.move hrunning)

theorem attachCompletedNodeArtifact_refines {id artifactId : String} {lease : MasterLease} {now : Instant} {db db' : Db}
    {o : Option NodeRunRow} (h : (attachCompletedNodeArtifact id artifactId lease now).run db = .ok (o, db')) :
    Refines db db' := by
  simp only [attachCompletedNodeArtifact, StateT.run_bind, Tx.bind_ok, Tx.require_ok, Tx.ensure_ok,
    MasterLeaseRepository.assertValidIn_ok, TableRef.select_ok] at h
  obtain ⟨_, ⟨-, rfl⟩, _, rfl, ⟨row, db₀⟩, ⟨-, hdb⟩, _, ⟨-, rfl⟩, _, ⟨-, rfl⟩, h⟩ := h
  simp only at hdb h
  obtain rfl := hdb.symm
  simp only [attachArtifact] at h
  split at h
  · simp only [StateT.run_bind, Tx.bind_ok, TableRef.select_ok] at h
    obtain ⟨⟨_, db₁⟩, hcas, h⟩ := h
    simp only [Prod.mk.injEq] at h hcas
    obtain ⟨-, rfl⟩ := h
    exact nodeCas_refines hcas fun r s _ _ hmem hg => .attach r artifactId hmem (of_decide_eq_true hg).1
  · simp only [StateT.run_pure, Tx.pure_ok, Prod.mk.injEq] at h
    rw [h.2]
    exact .refl _

/-! ## Cancelling -/

/-- A loop over node runs that rewrites each by `g` rewrites the rows it visits. -/
theorem forEach_mapRows {step : NodeRunRow → Op Unit} {g : NodeRunRow → NodeRunRow} (hid : ∀ r, (g r).id = r.id)
    (hidem : ∀ r, g (g r) = g r)
    (hstep : ∀ x db db' u, (step x).run db = .ok (u, db') → ∀ rid,
      db'.runState rid = (db.runState rid).map (·.mapRows fun r => if r.id = x.id then g r else r)) {l : List NodeRunRow} :
    ∀ {db db' : Db} {u : Unit}, (ApprovalRepository.forEach step l).run db = .ok (u, db') → ∀ rid,
      db'.runState rid =
        (db.runState rid).map (·.mapRows fun r => if r.id ∈ l.map NodeRunRow.id then g r else r) := by
  induction l with
  | nil =>
    intro db db' u h rid
    simp only [ApprovalRepository.forEach, StateT.run_pure, Tx.pure_ok, Prod.mk.injEq] at h
    rw [h.2]
    simp [RunState.mapRows]
  | cons x l ih =>
    intro db db' u h rid
    simp only [ApprovalRepository.forEach, StateT.run_bind, Tx.bind_ok] at h
    obtain ⟨⟨_, db₁⟩, hx, hl⟩ := h
    rw [ih hl rid, hstep x _ _ _ hx rid, Option.map_map]
    congr 1
    funext s
    simp only [Function.comp_apply, RunState.mapRows, List.map_map]
    congr 1
    refine List.map_congr_left fun r _ => ?_
    by_cases hx : r.id = x.id <;> by_cases hl : r.id ∈ l.map NodeRunRow.id <;> simp_all

/-- The loop over the rows of a run that `g` changes rewrites that run's rows and no other's. -/
theorem mapRows_visited {db : Db} {rid : String} {g : NodeRunRow → NodeRunRow} {p : NodeRunRow → Bool}
    {l : List NodeRunRow} (hl : l.Perm ((db.rowsOf rid).filter p)) (hg : ∀ r, p r = false → g r = r) {k : String}
    {s : RunState} (hs : db.runState k = some s) :
    (s.mapRows fun r => if r.id ∈ l.map NodeRunRow.id then g r else r) = if k = rid then s.mapRows g else s := by
  have hmem : ∀ r ∈ db.nodeRuns.rows, r.id ∈ l.map NodeRunRow.id ↔ r.workflowRunId = rid ∧ p r = true := by
    intro r hr
    constructor
    · intro h
      obtain ⟨r', hr', hid⟩ := List.mem_map.1 h
      obtain ⟨hrows, hp⟩ := List.mem_filter.1 (hl.mem_iff.1 hr')
      obtain ⟨hr'', hrid⟩ := mem_rowsOf.1 hrows
      obtain rfl : r' = r := List.inj_on_of_nodup_map db.nodeRuns.key_nodup hr'' hr hid
      exact ⟨hrid, hp⟩
    · rintro ⟨hrid, hp⟩
      exact List.mem_map.2 ⟨r, hl.mem_iff.2 (List.mem_filter.2 ⟨mem_rowsOf.2 ⟨hr, hrid⟩, hp⟩), rfl⟩
  have hrow : ∀ r ∈ s.rows, r ∈ db.nodeRuns.rows ∧ r.workflowRunId = k := by
    intro r hr
    rw [← (runState_eq_some.1 hs).2] at hr
    exact mem_rowsOf.1 hr
  split
  · next hk =>
    unfold RunState.mapRows
    congr 1
    refine List.map_congr_left fun r hr => ?_
    obtain ⟨hdb, hrid⟩ := hrow r hr
    by_cases hp : p r = true
    · rw [if_pos ((hmem r hdb).2 ⟨hrid.trans hk, hp⟩)]
    · rw [if_neg fun h => hp ((hmem r hdb).1 h).2, hg r (by simpa using hp)]
  · next hk =>
    unfold RunState.mapRows
    obtain ⟨run, rows⟩ := s
    congr 1
    refine (List.map_congr_left fun r hr => ?_).trans (List.map_id _)
    obtain ⟨hdb, hrid⟩ := hrow r hr
    rw [if_neg fun h => hk (hrid.symm.trans ((hmem r hdb).1 h).1), id]

theorem cancelled_id (now : Instant) (r : NodeRunRow) : (r.cancelled now).id = r.id := by
  unfold NodeRunRow.cancelled
  split <;> rfl

theorem cancelled_idem (now : Instant) (r : NodeRunRow) : (r.cancelled now).cancelled now = r.cancelled now := by
  unfold NodeRunRow.cancelled
  split
  · simp [NodeRunStatus.isLive]
  · simp

theorem cancelNode_spec {run : WorkflowRunRow} {lease : MasterLease} {now : Instant} {x : NodeRunRow} {db db' : Db}
    {u : Unit} (h : (cancelNode run lease now x).run db = .ok (u, db')) (rid : String) :
    db'.runState rid = (db.runState rid).map (·.mapRows fun r => if r.id = x.id then r.cancelled now else r) := by
  simp only [cancelNode, StateT.run_bind, Tx.bind_ok] at h
  obtain ⟨⟨_, db₁⟩, hcas, ⟨_, db₂⟩, htask, happ⟩ := h
  simp only at htask happ
  obtain ⟨n, hup⟩ := TableRef.cas_update hcas
  have hsame : SameRuns db₁ db₂ := TableRef.update_within (T := Db.tasksT) (fun _ t => sameRuns_tasks t) _ _ _ htask
  rw [(appendNodeState_quiet happ).runState, hsame.runState, runState_nodeUpdate hup]
  congr 1
  funext s
  unfold RunState.mapRows
  congr 1
  refine List.map_congr_left fun r _ => ?_
  by_cases hid : r.id = x.id <;> by_cases hlive : r.status.isLive <;> simp [hid, hlive, NodeRunRow.cancelled]

/-- The run ends as cancelled with all its live node runs. -/
theorem endCancelled_refines {ord : RowOrder} {run : WorkflowRunRow} {lease : MasterLease} {now : Instant} {db db' : Db}
    {a : WorkflowRunRow} (h : (endCancelled ord run lease now).run db = .ok (a, db')) : Refines db db' := by
  simp only [endCancelled, StateT.run_bind, Tx.bind_ok, Tx.read_ok, Tx.ensure_ok, runRow_ok] at h
  obtain ⟨_, ⟨-, rfl⟩, _, rfl, ⟨_, db₁⟩, hloop, ⟨_, db₂⟩, hcas, ⟨_, db₃⟩, happ, -, hlast⟩ := h
  simp only at hloop hcas happ hlast
  subst hlast
  have hnodes := forEach_mapRows (cancelled_id now) (cancelled_idem now) (fun _ _ _ _ h => cancelNode_spec h) hloop
  have hvisited : ∀ k s, db.runState k = some s →
      db₁.runState k = some (if k = run.id then s.mapRows (NodeRunRow.cancelled now) else s) := by
    intro k s hs
    rw [hnodes, hs, Option.map_some, mapRows_visited (ord.perm _ _) (fun r hr => ?_) hs]
    simp [NodeRunRow.cancelled, hr]
  have hq := appendRunState_quiet happ
  obtain ⟨hothers, hown⟩ := runCas_run hcas (fun _ => rfl) (fun _ => rfl)
  intro k s hs
  have hs₁ := hvisited k s hs
  by_cases hk : k = run.id
  · subst hk
    rw [if_pos rfl] at hs₁
    obtain ⟨hg, hs₂⟩ := hown _ hs₁
    simp only [Bool.not_eq_true', decide_eq_true_eq] at hg
    exact ⟨_, (hq.runState _).trans hs₂, .single (.cancel now hg.1 hg.2)⟩
  · rw [if_neg hk] at hs₁
    exact ⟨s, (hq.runState _).trans ((hothers _ hk).trans hs₁), .refl⟩

theorem markCancelled_refines {rid : String} {now : Instant} {db db' : Db} {u : Unit}
    (h : (markCancelled rid now).run db = .ok (u, db')) : Refines db db' :=
  runCas_refines h (fun _ => rfl) (fun _ => rfl) fun _ _ hg =>
    .mark now (of_decide_eq_true hg).1 (of_decide_eq_true hg).2

theorem Tx.ReadOnly.refines {α : Type} {x : Op α} (hx : Tx.ReadOnly x) {db db' : Db} {a : α} (h : x.run db = .ok (a, db')) :
    Refines db db' := by
  rw [show db' = db from hx _ _ h]
  exact .refl _

theorem requestCancel_refines {H : Digests} {rid : String} {lease : MasterLease} {now : Instant} {db db' : Db}
    {a : WorkflowRunRow} (h : (requestCancel H rid lease now).run db = .ok (a, db')) : Refines db db' := by
  simp only [requestCancel, StateT.run_bind, Tx.bind_ok, runRow_ok, MasterLeaseRepository.assertValidIn_ok] at h
  obtain ⟨_, ⟨-, rfl⟩, ⟨row, db₀⟩, ⟨-, hdb⟩, h⟩ := h
  simp only at hdb h
  obtain rfl := hdb.symm
  split at h
  · exact Tx.ReadOnly.refines (runRecord_readOnly H _) h
  · simp only [StateT.run_bind, Tx.bind_ok, Tx.ensure_ok] at h
    obtain ⟨_, ⟨-, rfl⟩, h⟩ := h
    split at h
    · exact Tx.ReadOnly.refines (runRecord_readOnly H _) h
    · simp only [StateT.run_bind, Tx.bind_ok, runRow_ok] at h
      obtain ⟨⟨_, db₁⟩, hmark, -, hlast⟩ := h
      simp only at hmark hlast
      subst hlast
      exact markCancelled_refines hmark

theorem completeCancel_refines {H : Digests} {ord : RowOrder} {rid : String} {lease : MasterLease} {now : Instant}
    {db db' : Db} {a : WorkflowRunRow} (h : (completeCancel H ord rid lease now).run db = .ok (a, db')) :
    Refines db db' := by
  simp only [completeCancel, StateT.run_bind, Tx.bind_ok, runRow_ok, MasterLeaseRepository.assertValidIn_ok] at h
  obtain ⟨_, ⟨-, rfl⟩, ⟨row, db₀⟩, ⟨-, hdb⟩, h⟩ := h
  simp only at hdb h
  obtain rfl := hdb.symm
  split at h
  · exact Tx.ReadOnly.refines (runRecord_readOnly H _) h
  · exact endCancelled_refines h

theorem completeCancelIn_refines {H : Digests} {ord : RowOrder} {rid : String} {lease : MasterLease} {now : Instant}
    {db db' : Db} {a : WorkflowRunRow} (h : (completeCancelIn H ord rid lease now).run db = .ok (a, db')) :
    Refines db db' := by
  simp only [completeCancelIn, StateT.run_bind, Tx.bind_ok, runRow_ok] at h
  obtain ⟨⟨row, db₀⟩, ⟨-, hdb⟩, h⟩ := h
  simp only at hdb h
  obtain rfl := hdb.symm
  split at h
  · exact Tx.ReadOnly.refines (runRecord_readOnly H _) h
  · simp only [StateT.run_bind, Tx.bind_ok] at h
    obtain ⟨⟨_, db₁⟩, hend, hrec⟩ := h
    exact (endCancelled_refines hend).trans (Tx.ReadOnly.refines (runRecord_readOnly H _) hrec)

theorem ensureCancelled_refines {row a : WorkflowRunRow} {now : Instant} {db db' : Db}
    (h : (ensureCancelled row now).run db = .ok (a, db')) : Refines db db' := by
  simp only [ensureCancelled] at h
  split at h
  · simp only [StateT.run_bind, Tx.bind_ok, runRow_ok] at h
    obtain ⟨⟨_, db₁⟩, hmark, -, hlast⟩ := h
    simp only at hmark hlast
    subst hlast
    exact markCancelled_refines hmark
  · simp only [StateT.run_pure, Tx.pure_ok, Prod.mk.injEq] at h
    rw [h.2]
    exact .refl _

theorem cancelWithCleanup_refines {H : Digests} {ord : RowOrder} {rid reason : String} {lease : MasterLease}
    {now : Instant} {db db' : Db} {a : WorkflowRunRow}
    (h : (cancelWithCleanup H ord rid lease reason now).run db = .ok (a, db')) : Refines db db' := by
  simp only [cancelWithCleanup, StateT.run_bind, Tx.bind_ok, runRow_ok, MasterLeaseRepository.assertValidIn_ok] at h
  obtain ⟨_, ⟨-, rfl⟩, ⟨row, db₀⟩, ⟨-, hdb⟩, h⟩ := h
  simp only at hdb h
  obtain rfl := hdb.symm
  split at h
  · exact Tx.ReadOnly.refines (runRecord_readOnly H _) h
  · simp only [StateT.run_bind, Tx.bind_ok, Tx.ensure_ok, StateT.run_pure, Tx.pure_ok] at h
    obtain ⟨_, ⟨-, rfl⟩, ⟨run, db₁⟩, hens, ⟨_, db₂⟩, hinv, ⟨_, db₃⟩, hrev, ⟨result, db₄⟩, hend, ⟨_, db₅⟩, happ, ⟨_, db₆⟩,
      hsec, h⟩ := h
    simp only [Prod.mk.injEq] at hinv hrev hend happ hsec h
    obtain ⟨-, rfl⟩ := h
    have hhooks : SameRuns db₁ db₃ :=
      trans_of SameRuns (invalidateForRunIn_within _ _ _ _ _ _ _ hinv) (revokeUnconsumedForRunIn_within _ _ _ _ _ _ _ hrev)
    have hq := (EventRepository.appendIn_quiet happ).trans (EventRepository.appendSecurityEventIn_quiet hsec)
    exact (((ensureCancelled_refines hens).trans hhooks.refines).trans (completeCancelIn_refines hend)).trans
      (.of_eq hq.runState)

/-! ## Quarantine -/

theorem orphaned_id (reason : String) (only : Option String) (now : Instant) (r : NodeRunRow) :
    (r.orphaned reason only now).id = r.id := by
  unfold NodeRunRow.orphaned
  split <;> rfl

theorem orphaned_idem (reason : String) (only : Option String) (now : Instant) (r : NodeRunRow) :
    (r.orphaned reason only now).orphaned reason only now = r.orphaned reason only now := by
  unfold NodeRunRow.orphaned
  split
  · simp
  · rfl

theorem orphanNode_spec {run : WorkflowRunRow} {lease : MasterLease} {reason : String} {only : Option String}
    {now : Instant} {x : NodeRunRow} {db db' : Db} {u : Unit}
    (h : (orphanNode run lease reason only now x).run db = .ok (u, db')) (rid : String) :
    db'.runState rid = (db.runState rid).map
      (·.mapRows fun r => if r.id = x.id then r.orphaned reason only now else r) := by
  simp only [orphanNode] at h
  split at h
  · next hskip =>
    simp only [StateT.run_pure, Tx.pure_ok, Prod.mk.injEq] at h
    rw [h.2]
    have hsame : (fun r : NodeRunRow => if r.id = x.id then r.orphaned reason only now else r) = id := by
      funext r
      by_cases hid : r.id = x.id
      · simp only [hid, if_true, NodeRunRow.orphaned, id]
        rw [if_neg fun hc => hc.1.elim hskip.1 hskip.2]
      · simp only [hid, if_false, id]
    rw [hsame]
    cases db.runState rid <;> simp [RunState.mapRows]
  · next hgo =>
    simp only [StateT.run_bind, Tx.bind_ok] at h
    obtain ⟨⟨_, db₁⟩, hup, happ⟩ := h
    simp only at happ
    rw [(appendNodeState_quiet happ).runState, runState_nodeUpdate hup]
    congr 1
    funext s
    unfold RunState.mapRows
    congr 1
    refine List.map_congr_left fun r _ => ?_
    have honly : only = none ∨ only = some x.id := by
      by_contra hc
      exact hgo (not_or.1 hc)
    by_cases hid : r.id = x.id <;> by_cases hst : r.status ∈ [NodeRunStatus.running, .waitingApproval] <;>
      simp [hid, hst, NodeRunRow.orphaned, honly]

theorem runState_id {db : Db} {k : String} {s : RunState} (hs : db.runState k = some s) : s.run.id = k := by
  obtain ⟨row, hrow, hcore⟩ := run?_of_core (runState_eq_some.1 hs).1
  rw [← hcore]
  exact (Table.get?_key hrow : row.id = k)

/-- The run of a quarantine is orphaned, every other run is as it was. -/
theorem orphanRun_spec {run : WorkflowRunRow} {lease : MasterLease} {now : Instant} {db db' : Db} {u : Unit}
    (h : (orphanRun run lease now).run db = .ok (u, db')) (hlive : run.status.isTerminal = false ∨ run.status = .orphaned)
    {k : String} {s : RunState} (hs : db.runState k = some s) (hstatus : k = run.id → s.run.status = run.status) :
    (k ≠ run.id → db'.runState k = some s) ∧
      (k = run.id → ∃ f, db'.runState k = some { s with run := { s.run with status := .orphaned, finishedAt := f } }) := by
  have hid := runState_id hs
  simp only [orphanRun] at h
  split at h
  · next hnot =>
    simp only [StateT.run_bind, Tx.bind_ok] at h
    obtain ⟨⟨_, db₁⟩, hup, ⟨_, db₂⟩, hses, happ⟩ := h
    simp only at hses happ
    have hsame : db₂.runState k = db₁.runState k := by
      simp only [TableRef.update_ok, Prod.mk.injEq] at hses
      rw [hses.2]
      rfl
    have hst : run.status ∈ [WorkflowRunStatus.pending, .running, .waitingApproval, .paused] := by
      rcases hlive with hl | hl
      · revert hl; cases run.status <;> simp [WorkflowRunStatus.isTerminal]
      · exact absurd hl hnot
    have hs' := (appendRunState_quiet happ).runState k
    rw [hsame, runState_runUpdate hup (fun _ => rfl) (fun _ => rfl), hs, Option.map_some] at hs'
    refine ⟨fun hk => ?_, fun hk => ?_⟩
    · rw [hs', if_neg (by simp [hid, hk])]
    · rw [if_pos (by simpa [hid, hk, hstatus hk] using hst)] at hs'
      exact ⟨_, hs'⟩
  · next horphan =>
    simp only [StateT.run_pure, Tx.pure_ok, Prod.mk.injEq] at h
    rw [h.2]
    refine ⟨fun _ => hs, fun hk => ⟨s.run.finishedAt, hs.trans ?_⟩⟩
    have : s.run.status = .orphaned := (hstatus hk).trans (by simpa using horphan)
    rw [← this]

theorem markOrphaned_refines {H : Digests} {ord : RowOrder} {rid reason : String} {only : Option String}
    {lease : MasterLease} {now : Instant} {db db' : Db} {a : WorkflowRunRow}
    (h : (markOrphaned H ord rid lease reason only now).run db = .ok (a, db')) : Refines db db' := by
  simp only [markOrphaned, StateT.run_bind, Tx.bind_ok, runRow_ok, MasterLeaseRepository.assertValidIn_ok] at h
  obtain ⟨_, ⟨-, rfl⟩, ⟨run, db₀⟩, ⟨hrun, hdb⟩, h⟩ := h
  simp only at hrun hdb h
  obtain rfl := hdb.symm
  obtain rfl := (Table.get?_key hrun).symm
  split at h
  · exact Tx.ReadOnly.refines (runRecord_readOnly H _) h
  · next hgo =>
    simp only [StateT.run_bind, Tx.bind_ok, Tx.read_ok, runRow_ok] at h
    obtain ⟨_, rfl, ⟨_, db₁⟩, hloop, ⟨_, db₂⟩, horphan, -, hlast⟩ := h
    simp only at hloop horphan hlast
    subst hlast
    have hnodes := forEach_mapRows (orphaned_id reason only now) (orphaned_idem reason only now)
      (fun _ _ _ _ h => orphanNode_spec h) hloop
    have hlive : run.status.isTerminal = false ∨ run.status = .orphaned := by
      by_contra hc
      rw [not_or, Bool.not_eq_false, ← ne_eq] at hc
      exact hgo hc
    intro k s hs
    have hs₁ : db₁.runState k = some (if k = run.id then s.mapRows (NodeRunRow.orphaned reason only now) else s) := by
      rw [hnodes, hs, Option.map_some, mapRows_visited (ord.perm _ _) (fun r hr => ?_) hs]
      rw [NodeRunRow.orphaned, if_neg fun hc => of_decide_eq_false hr hc.2]
    by_cases hk : k = run.id
    · have hstatus : s.run.status = run.status := by rw [runState_unique (hk ▸ hrun) hs]; rfl
      rw [if_pos hk] at hs₁
      obtain ⟨f, hs'⟩ := (orphanRun_spec horphan hlive hs₁ fun _ => hstatus).2 hk
      exact ⟨_, hs', .single (.orphan reason only f now (hstatus ▸ hlive))⟩
    · rw [if_neg hk] at hs₁
      exact ⟨s, (orphanRun_spec horphan hlive hs₁ fun h => absurd h hk).1 hk, .refl⟩

/-! ## Every call -/

theorem ignore_ok {α : Type} {x : Op α} {db db' : Db} {o : Option NodeRunRow} (h : x.ignore.run db = .ok (o, db')) :
    ∃ a, x.run db = .ok (a, db') := by
  simp only [Op.ignore, StateT.run_bind, Tx.bind_ok, StateT.run_pure, Tx.pure_ok, Prod.mk.injEq] at h
  obtain ⟨⟨a, _⟩, hx, -, rfl⟩ := h
  exact ⟨a, hx⟩

/-- A scheduler step of one run. -/
theorem Only.refines {rid : String} {db db' : Db} (h : Only rid db db') {s s' : RunState} (hs : db.runState rid = some s)
    (hs' : db'.runState rid = some s') (hstep : SchedStep s s') : Refines db db' := by
  refine .of_run h.others fun t ht => ?_
  rw [hs] at ht
  obtain rfl := Option.some.inj ht
  exact ⟨s', hs', .single (.sched hstep)⟩

/-- A call that returned is a sequence of steps of every run. -/
theorem op_refines {H : Digests} {ord : RowOrder} {lease : MasterLease} {now : Instant} {call : RunCall} {db db' : Db}
    {o : Option NodeRunRow} (h : (call.op H ord lease now).run db = .ok (o, db')) : Refines db db' := by
  cases call with
  | startAndReconcile rid =>
    obtain ⟨_, h⟩ := ignore_ok h
    obtain ⟨honly, hsteps⟩ := startAndReconcile_spec h
    exact (Started.schedules honly hsteps).refines
  | claimNext rid =>
    rcases claimNext_spec h with ⟨-, rfl⟩ | ⟨honly, r, s, hs, hr, hready, hrun, hcancel, hs'⟩
    · exact .refl _
    · exact honly.refines hs hs' (.claim r now hr hready hrun hcancel)
  | completeNode id target outcome summary artifact error =>
    obtain ⟨node, run, -, honly, s, s', hs, hs', hstep⟩ := completeNode_spec h
    exact honly.refines hs hs' (.move hstep)
  | createAndStartTask taskId id agentId base policyId =>
    obtain ⟨_, h⟩ := ignore_ok h
    exact (createAndStartTask_within _ _ _ _ _ _ _ _ _ _ h).refines
  | enterWaitingApproval id approvalId =>
    obtain ⟨node, run, -, hsteps⟩ := enterWaitingApproval_spec h
    exact hsteps.schedules.refines
  | resumeAfterApproval rid id approved => exact (resumeAfterApproval_spec h).schedules.refines
  | resumeAfterApprovalIn rid id approved => exact (resumeAfterApprovalIn_spec h).schedules.refines
  | preparePrivilegeRetry rid id approvalId ws =>
    obtain ⟨_, h⟩ := ignore_ok h
    exact preparePrivilegeRetry_refines h
  | approvePrivilegeIn rid id approvalId =>
    obtain ⟨_, h⟩ := ignore_ok h
    exact absurd h approvePrivilegeIn_raises
  | resumePrivilegeAfterApprovalIn rid id approved =>
    obtain ⟨_, h⟩ := ignore_ok h
    exact resumePrivilegeAfterApprovalIn_refines h
  | activateCapabilityTargetIn taskId =>
    obtain ⟨_, h⟩ := ignore_ok h
    exact activateCapabilityTargetIn_refines h
  | beginMergeFinalizing rid ws =>
    obtain ⟨_, h⟩ := ignore_ok h
    exact beginMergeFinalizing_refines h
  | clearMergeFinalizing rid ws =>
    obtain ⟨_, h⟩ := ignore_ok h
    exact clearMergeFinalizing_refines h
  | finalizeMerge id changeSetId commit ws summary => exact finalizeMerge_refines h
  | attachCompletedNodeArtifact id artifactId => exact attachCompletedNodeArtifact_refines h
  | requestCancel rid =>
    obtain ⟨_, h⟩ := ignore_ok h
    exact requestCancel_refines h
  | completeCancel rid =>
    obtain ⟨_, h⟩ := ignore_ok h
    exact completeCancel_refines h
  | cancelWithCleanup rid reason =>
    obtain ⟨_, h⟩ := ignore_ok h
    exact cancelWithCleanup_refines h
  | markOrphaned rid reason only =>
    obtain ⟨_, h⟩ := ignore_ok h
    exact markOrphaned_refines h

/-- A committed call is a sequence of steps of every run. -/
theorem CallStep.refines {H : Digests} {db db' : Db} (h : CallStep H db db') : Refines db db' := by
  obtain ⟨i, rfl⟩ := h
  unfold Invocation.commit Tx.commit
  split
  · next o db' hok => exact op_refines hok
  · exact .refl _

/-- So is a run of them. -/
theorem refines_of_calls {H : Digests} {db db' : Db} (h : Relation.ReflTransGen (CallStep H) db db') : Refines db db' := by
  induction h with
  | refl => exact .refl _
  | tail _ hstep ih => exact ih.trans hstep.refines

end AgentHub
