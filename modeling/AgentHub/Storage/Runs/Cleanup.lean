import AgentHub.Lib.Closing
import AgentHub.Storage.Approvals.Subjects
/-!
# What a cancellation cleans up

`cancel_with_cleanup` closes what it finds by three routes: approvals by their run, grants by their request,
tasks by a node run that is not finished. A request is closed with a pending approval or an unspent grant, so
one that has neither stays open, and so does a task whose node run is finished.
-/

namespace AgentHub

open Lib WorkflowRunRepository

/-! ## How the rows stand -/

/-- The statuses of a ChangeSet that waits for its approval or its merge. -/
def ChangeSetStatus.isOpen : ChangeSetStatus → Bool
  | .pendingApproval | .approved => true
  | _ => false

theorem isOpen_iff (c : ChangeSetRow) :
    c.status.isOpen = true ↔ c.status ∈ [ChangeSetStatus.pendingApproval, .approved] := by
  cases c.status <;> simp [ChangeSetStatus.isOpen]

def approvalLedger : Ledger ApprovalRow.id String ApprovalStatus where
  view a := ⟨a.id, a.workflowRunId, a.status⟩
  view_id _ := rfl
  opened s := s = .pending
  closed := .invalidated
  ends := rfl

def requestLedger : Ledger PrivilegeRequestRow.id String PrivilegeRequestStatus where
  view r := ⟨r.id, r.nodeRunId, r.status⟩
  view_id _ := rfl
  opened := PrivilegeRequestStatus.isOpen
  closed := .denied
  ends := rfl

/-- The status of a grant is whether it is unspent. -/
def grantLedger : Ledger CapabilityGrantRow.id String Bool where
  view g := ⟨g.id, g.requestId, decide (g.consumedAt = none ∧ g.revokedAt = none)⟩
  view_id _ := rfl
  opened := id
  closed := false
  ends := rfl

def nodeLedger : Ledger NodeRunRow.id String NodeRunStatus where
  view n := ⟨n.id, n.workflowRunId, n.status⟩
  view_id _ := rfl
  opened := NodeRunStatus.isLive
  closed := .cancelled
  ends := rfl

def taskLedger : Ledger TaskRow.id String TaskStatus where
  view t := ⟨t.id, t.nodeRunId, t.status⟩
  view_id _ := rfl
  opened := TaskStatus.isLive
  closed := .cancelled
  ends := rfl

def changeSetLedger : Ledger ChangeSetRow.id String ChangeSetStatus where
  view c := ⟨c.id, c.taskId, c.status⟩
  view_id _ := rfl
  opened := ChangeSetStatus.isOpen
  closed := .cancelled
  ends := rfl

/-- The rows an operation closes, table by table. -/
@[ext] structure Targets where
  approvals : Standing String String ApprovalStatus → Prop := fun _ => False
  requests : Standing String String PrivilegeRequestStatus → Prop := fun _ => False
  grants : Standing String String Bool → Prop := fun _ => False
  nodes : Standing String String NodeRunStatus → Prop := fun _ => False
  tasks : Standing String String TaskStatus → Prop := fun _ => False
  changeSets : Standing String String ChangeSetStatus → Prop := fun _ => False

namespace Targets

def none : Targets := {}

/-- What either names. -/
def or (e e' : Targets) : Targets where
  approvals v := e.approvals v ∨ e'.approvals v
  requests v := e.requests v ∨ e'.requests v
  grants v := e.grants v ∨ e'.grants v
  nodes v := e.nodes v ∨ e'.nodes v
  tasks v := e.tasks v ∨ e'.tasks v
  changeSets v := e.changeSets v ∨ e'.changeSets v

/-- What is named for one of the rows. -/
def any {ρ : Type} (l : List ρ) (e : ρ → Targets) : Targets where
  approvals v := ∃ x ∈ l, (e x).approvals v
  requests v := ∃ x ∈ l, (e x).requests v
  grants v := ∃ x ∈ l, (e x).grants v
  nodes v := ∃ x ∈ l, (e x).nodes v
  tasks v := ∃ x ∈ l, (e x).tasks v
  changeSets v := ∃ x ∈ l, (e x).changeSets v

theorem none_or (e : Targets) : none.or e = e := by ext <;> simp [none, or]

theorem or_none (e : Targets) : e.or none = e := by ext <;> simp [none, or]

theorem any_nil {ρ : Type} (e : ρ → Targets) : any [] e = none := by ext <;> simp [none, any]

theorem any_cons {ρ : Type} (x : ρ) (l : List ρ) (e : ρ → Targets) : any (x :: l) e = (e x).or (any l e) := by
  ext <;> simp [or, any]

end Targets

/-- `db'` is `db` with the open rows that `e` names closed, under the same leases. -/
structure Closing (e : Targets) (db db' : Db) : Prop where
  approvals : Closes approvalLedger e.approvals db.approvals db'.approvals
  requests : Closes requestLedger e.requests db.privilegeRequests db'.privilegeRequests
  grants : Closes grantLedger e.grants db.capabilityGrants db'.capabilityGrants
  nodes : Closes nodeLedger e.nodes db.nodeRuns db'.nodeRuns
  tasks : Closes taskLedger e.tasks db.tasks db'.tasks
  changeSets : Closes changeSetLedger e.changeSets db.changeSets db'.changeSets
  masterLeases : db'.masterLeases = db.masterLeases

section
variable {e e' : Targets} {a b c db db' : Db}

theorem Closing.trans (h : Closing e a b) (h' : Closing e' b c) : Closing (e.or e') a c :=
  ⟨h.approvals.trans h'.approvals, h.requests.trans h'.requests, h.grants.trans h'.grants, h.nodes.trans h'.nodes,
    h.tasks.trans h'.tasks, h.changeSets.trans h'.changeSets, h'.masterLeases.trans h.masterLeases⟩

instance : IsPreorder Db (Closing .none) where
  refl _ := ⟨.refl _, .refl _, .refl _, .refl _, .refl _, .refl _, rfl⟩
  trans a b c h h' := by
    have hboth := h.trans h'
    rw [Targets.none_or] at hboth
    exact hboth

theorem Quiet.closing (h : Quiet db db') : Closing .none db db' :=
  ⟨.of_eq h.approvals, .of_eq h.privilegeRequests, .of_eq h.capabilityGrants, .of_eq h.nodeRuns, .of_eq h.tasks,
    .of_eq h.changeSets, h.masterLeases⟩

/-- What precedes an operation and closes nothing. -/
theorem closing_after {α β : Type} {x : Op α} {f : α → Op β} (hx : Tx.Within (Closing .none) x)
    (hf : ∀ a, Tx.Within (Closing e) (f a)) : Tx.Within (Closing e) (x >>= f) := by
  intro db r db' h
  rw [StateT.run_bind, Tx.bind_ok] at h
  obtain ⟨⟨a, db₁⟩, hrun, h⟩ := h
  have hboth := (hx _ _ _ hrun).trans (hf a _ _ _ h)
  rw [Targets.none_or] at hboth
  exact hboth

theorem closing_then {α β : Type} {x : Op α} {f : α → Op β} (hx : Tx.Within (Closing e) x)
    (hf : ∀ a, Tx.Within (Closing e') (f a)) : Tx.Within (Closing (e.or e')) (x >>= f) := by
  intro db r db' h
  rw [StateT.run_bind, Tx.bind_ok] at h
  obtain ⟨⟨a, db₁⟩, hrun, h⟩ := h
  exact (hx _ _ _ hrun).trans (hf a _ _ _ h)

/-- What follows an operation and closes nothing. -/
theorem closing_before {α β : Type} {x : Op α} {f : α → Op β} (hx : Tx.Within (Closing e) x)
    (hf : ∀ a, Tx.Within (Closing .none) (f a)) : Tx.Within (Closing e) (x >>= f) := by
  have hboth := closing_then hx hf
  rw [Targets.or_none] at hboth
  exact hboth

end

/-- A loop closes what its steps close. -/
theorem forEach_closing {ρ : Type} {step : ρ → Op Unit} {e : ρ → Targets} (h : ∀ x, Tx.Within (Closing (e x)) (step x))
    (l : List ρ) : Tx.Within (Closing (.any l e)) (ApprovalRepository.forEach step l) := by
  induction l with
  | nil =>
    rw [Targets.any_nil]
    exact .pure _
  | cons x l ih =>
    rw [Targets.any_cons]
    exact closing_then (h x) fun _ => ih

/-! ## The statements of a cancellation -/

section
variable {lease : MasterLease} {now : Instant} {reason : String}

theorem appendIn_closing {sid typ actor : String} {payload : EventPayload} {wid rid : String} :
    Tx.Within (Closing .none) (EventRepository.appendIn sid typ actor payload wid rid now) :=
  fun _ _ _ h => (EventRepository.appendIn_quiet h).closing

namespace ApprovalRepository

theorem appendPrivilegeRequestEvent_closing {rid nid tid id : String} {previous : Option String} {status : String}
    {reason : Option String} :
    Tx.Within (Closing .none) (appendPrivilegeRequestEvent rid nid tid id previous status lease reason now) :=
  .bind (runRow_readOnly _).within fun _ => appendIn_closing

theorem appendApprovalEvent_closing {approval : ApprovalRow} {previous : Option ApprovalStatus} {reason : Option String} :
    Tx.Within (Closing .none) (appendApprovalEvent approval previous lease reason now) :=
  .bind (runRow_readOnly _).within fun _ => appendIn_closing

theorem appendGrantEvent_closing {grant : CapabilityGrantRow} {rid nid : String} :
    Tx.Within (Closing .none) (appendGrantEvent grant rid nid lease reason now) :=
  .bind (runRow_readOnly _).within fun _ => appendIn_closing

theorem denyRequest_closing (id : String) {froms : List PrivilegeRequestStatus} (h : ∀ s ∈ froms, s.isOpen = true) :
    Tx.Within (Closing { requests := fun v => v.id = id ∧ v.status ∈ froms }) (denyRequest id froms) := by
  refine closing_before (fun db n db' hrun => ?_) fun _ => .pure _
  have hcloses : Closes requestLedger (fun v => v.id = id ∧ v.status ∈ froms) db.privilegeRequests db'.privilegeRequests := by
    refine TableRef.update_closes hrun (fun r => ?_) fun _ => rfl
    rw [Bool.and_eq_true, decide_eq_true_eq, decide_eq_true_eq]
    exact ⟨fun hp => ⟨h _ hp.2, hp⟩, And.right⟩
  obtain rfl := (Prod.mk.inj (TableRef.update_ok.1 hrun)).2
  exact ⟨.refl _, hcloses, .refl _, .refl _, .refl _, .refl _, rfl⟩

theorem appendDenied_closing (id : String) (denied : Bool) :
    Tx.Within (Closing .none) (appendDenied id denied lease reason now) := by
  refine .ite (.bind (.read _) fun _ => .bind (.require _ _) fun p => ?_) (.pure _)
  obtain ⟨request, rid⟩ := p
  exact appendPrivilegeRequestEvent_closing

/-- What goes with an invalidated approval: its ChangeSet or its request. -/
def subjectOf (x : ApprovalRow) : Targets where
  requests v := x.subjectType = .privilegeRequest ∧ v.id = x.privilegeRequestId.getD "None" ∧
    v.status ∈ [PrivilegeRequestStatus.pending, .waitingApproval]
  changeSets v := x.subjectType = .changeSet ∧ x.changeSetId = some v.id

/-- What the invalidation of an approval closes. -/
def invalidated (x : ApprovalRow) : Targets := .or { approvals := fun v => v.id = x.id } (subjectOf x)

theorem subjectOf_changeSet {x : ApprovalRow} (hkind : x.subjectType = .changeSet) :
    subjectOf x = { changeSets := fun v => x.changeSetId = some v.id } := by
  ext <;> simp [subjectOf, hkind]

theorem subjectOf_privilegeRequest {x : ApprovalRow} (hkind : x.subjectType = .privilegeRequest) :
    subjectOf x = { requests := fun v => v.id = x.privilegeRequestId.getD "None" ∧
      v.status ∈ [PrivilegeRequestStatus.pending, .waitingApproval] } := by
  ext <;> simp [subjectOf, hkind]

theorem invalidateSubject_closing (x : ApprovalRow) :
    Tx.Within (Closing (subjectOf x)) (invalidateSubject x lease reason now) := by
  unfold invalidateSubject
  split
  · next hkind =>
    rw [subjectOf_changeSet hkind]
    refine closing_before (fun db n db' hrun => ?_) fun _ => .pure _
    have hcloses : Closes changeSetLedger (fun v => x.changeSetId = some v.id) db.changeSets db'.changeSets := by
      refine TableRef.update_closes hrun (fun c => ?_) fun _ => rfl
      rw [Bool.and_eq_true, decide_eq_true_eq, decide_eq_true_eq, and_comm]
      exact and_congr_left' (isOpen_iff c).symm
    obtain rfl := (Prod.mk.inj (TableRef.update_ok.1 hrun)).2
    exact ⟨.refl _, .refl _, .refl _, .refl _, .refl _, hcloses, rfl⟩
  · next hkind =>
    rw [subjectOf_privilegeRequest hkind]
    exact closing_before (denyRequest_closing _ (by simp [PrivilegeRequestStatus.isOpen])) fun _ => appendDenied_closing _ _

theorem invalidateOne_closing (x : ApprovalRow) :
    Tx.Within (Closing (invalidated x)) (invalidateOne lease reason now x) := by
  refine closing_then (fun db u db' hrun => ?_) fun _ => closing_before (invalidateSubject_closing x) fun _ => ?_
  · have hcloses : Closes approvalLedger (fun v => v.id = x.id) db.approvals db'.approvals :=
      TableRef.cas_closes hrun (fun _ hr => decide_eq_true (of_decide_eq_true hr).1) fun _ => rfl
    obtain rfl := (Prod.mk.inj (TableRef.cas_ok.1 hrun).2).2
    exact ⟨hcloses, .refl _, .refl _, .refl _, .refl _, .refl _, rfl⟩
  · exact .bind (TableRef.select_within _) fun _ => .bind (.require _ _) fun _ => appendApprovalEvent_closing

/-- What the revocation of a grant closes: the grant, and its request when that is approved. -/
def revoked (g : CapabilityGrantRow) : Targets where
  grants v := v.id = g.id
  requests v := v.id = g.requestId ∧ v.status ∈ [PrivilegeRequestStatus.approved]

theorem revokeOne_closing (g : CapabilityGrantRow) : Tx.Within (Closing (revoked g)) (revokeOne lease reason now g) := by
  have hsplit : revoked g = Targets.or { grants := fun v => v.id = g.id }
      { requests := fun v => v.id = g.requestId ∧ v.status ∈ [PrivilegeRequestStatus.approved] } := by
    ext <;> simp [Targets.or, revoked]
  rw [hsplit]
  refine closing_then (fun db u db' hrun => ?_) fun _ => ?_
  · have hcloses : Closes grantLedger (fun v => v.id = g.id) db.capabilityGrants db'.capabilityGrants :=
      TableRef.cas_closes hrun (fun _ hr => hr) fun _ => by simp [grantLedger]
    obtain rfl := (Prod.mk.inj (TableRef.cas_ok.1 hrun).2).2
    exact ⟨.refl _, .refl _, hcloses, .refl _, .refl _, .refl _, rfl⟩
  refine closing_before (denyRequest_closing _ (by simp [PrivilegeRequestStatus.isOpen])) fun _ => ?_
  refine .bind (fun db n db' hrun => ?_) fun _ => .bind (.read _) fun _ => .bind (.require _ _) fun p => ?_
  · have hcloses : Closes taskLedger (fun _ => False) db.tasks db'.tasks := TableRef.update_standing hrun fun _ => rfl
    obtain rfl := (Prod.mk.inj (TableRef.update_ok.1 hrun)).2
    exact ⟨.refl _, .refl _, .refl _, .refl _, hcloses, .refl _, rfl⟩
  · obtain ⟨fresh, request, rid⟩ := p
    exact .bind (.ite appendPrivilegeRequestEvent_closing (.pure _)) fun _ => appendGrantEvent_closing

/-- The pending approvals of a run. -/
def pendingRows (db : Db) (rid : String) : List ApprovalRow :=
  db.approvals.rows.filter fun a => a.workflowRunId = rid ∧ a.status = .pending

/-- The unspent grants whose request belongs to the run. -/
def unspentRows (db : Db) (rid : String) : List CapabilityGrantRow :=
  db.capabilityGrants.rows.filter fun g =>
    decide (g.consumedAt = none ∧ g.revokedAt = none) && ((grantWithRun db g).any fun p => p.2.2 = rid)

/-- Invalidating closes the pending approvals of the run with their subjects, and the open ChangeSets of its tasks. -/
theorem invalidateForRunIn_closing {rid : String} {db db' : Db} {n : Nat}
    (h : (invalidateForRunIn rid lease reason now).run db = .ok (n, db')) :
    ∃ db₁, Closing (.any (pendingRows db rid) invalidated) db db₁ ∧
      Closing { changeSets := fun v => ofRun db₁ rid v.owner = true } db₁ db' := by
  simp only [invalidateForRunIn, StateT.run_bind, Tx.bind_ok, Tx.read_ok, StateT.run_pure, Tx.pure_ok] at h
  obtain ⟨⟨_, s⟩, hlease, h⟩ := h
  obtain rfl : s = db := assertMaster_readOnly _ _ _ _ hlease
  obtain ⟨_, rfl, ⟨_, db₁⟩, hloop, _, rfl, ⟨m, db₂⟩, hrun, h⟩ := h
  obtain rfl : db' = db₂ := (Prod.mk.inj h).2
  refine ⟨db₁, forEach_closing invalidateOne_closing _ _ _ _ hloop, ?_⟩
  have hcloses : Closes changeSetLedger (fun v => ofRun db₁ rid v.owner = true) db₁.changeSets db'.changeSets := by
    refine TableRef.update_closes hrun (fun c => ?_) fun _ => rfl
    rw [Bool.and_eq_true, decide_eq_true_eq]
    exact and_congr_left' (isOpen_iff c).symm
  obtain rfl := (Prod.mk.inj (TableRef.update_ok.1 hrun)).2
  exact ⟨.refl _, .refl _, .refl _, .refl _, .refl _, hcloses, rfl⟩

theorem revokeUnconsumedForRunIn_closing {rid : String} {db db' : Db} {n : Nat}
    (h : (revokeUnconsumedForRunIn rid lease reason now).run db = .ok (n, db')) :
    Closing (.any (unspentRows db rid) revoked) db db' := by
  simp only [revokeUnconsumedForRunIn, StateT.run_bind, Tx.bind_ok, Tx.read_ok, StateT.run_pure, Tx.pure_ok] at h
  obtain ⟨⟨_, s⟩, hlease, h⟩ := h
  obtain rfl : s = db := assertMaster_readOnly _ _ _ _ hlease
  obtain ⟨_, rfl, ⟨_, db₁⟩, hloop, h⟩ := h
  obtain rfl : db' = db₁ := (Prod.mk.inj h).2
  exact forEach_closing revokeOne_closing _ _ _ _ hloop

end ApprovalRepository

/-- What the cancellation of a node run closes: the node run, and its task. -/
def cancelledWith (x : NodeRunRow) : Targets where
  nodes v := v.id = x.id
  tasks v := v.owner = x.id

theorem cancelNode_closing (run : WorkflowRunRow) (x : NodeRunRow) :
    Tx.Within (Closing (cancelledWith x)) (cancelNode run lease now x) := by
  have hsplit : cancelledWith x = Targets.or { nodes := fun v => v.id = x.id } { tasks := fun v => v.owner = x.id } := by
    ext <;> simp [Targets.or, cancelledWith]
  rw [hsplit]
  refine closing_then (fun db u db' hrun => ?_) fun _ => closing_before (fun db n db' hrun => ?_) fun _ => ?_
  · have hcloses : Closes nodeLedger (fun v => v.id = x.id) db.nodeRuns db'.nodeRuns :=
      TableRef.cas_closes hrun (fun _ hr => hr) fun _ => rfl
    obtain rfl := (Prod.mk.inj (TableRef.cas_ok.1 hrun).2).2
    exact ⟨.refl _, .refl _, .refl _, hcloses, .refl _, .refl _, rfl⟩
  · have hcloses : Closes taskLedger (fun v => v.owner = x.id) db.tasks db'.tasks := by
      refine TableRef.update_closes hrun (fun t => ?_) fun _ => rfl
      rw [Bool.and_eq_true, decide_eq_true_eq, decide_eq_true_eq, and_comm]
      refine and_congr_left' ?_
      simp only [taskLedger]
      cases t.status <;> simp [TaskStatus.isLive]
    obtain rfl := (Prod.mk.inj (TableRef.update_ok.1 hrun)).2
    exact ⟨.refl _, .refl _, .refl _, .refl _, hcloses, .refl _, rfl⟩
  · exact fun _ _ _ h => (appendNodeState_quiet h).closing

/-- A write to runs closes no row. -/
theorem runsTo_closing {k : String} {g f hk hu} {e : StorageError} :
    Tx.Within (Closing .none) (Db.workflowRunsT.cas k g f hk hu e) :=
  TableRef.cas_within fun _ _ => ⟨.refl _, .refl _, .refl _, .refl _, .refl _, .refl _, rfl⟩

/-- The live node runs of a run. -/
def liveRows (db : Db) (rid : String) : List NodeRunRow := (db.rowsOf rid).filter fun r => r.status.isLive

/-- Ending a run closes its live node runs with their tasks, and leaves the run cancelled. -/
theorem endCancelled_closing {ord : RowOrder} {run a : WorkflowRunRow} {db db' : Db}
    (h : (endCancelled ord run lease now).run db = .ok (a, db')) :
    Closing (.any (liveRows db run.id) cancelledWith) db db' ∧ db'.workflowRuns.get? run.id = some a ∧
      ∃ old, db.run? run.id = some old ∧ old.mergeFinalizingAt = none ∧
        a.core = { old with status := .cancelled, finishedAt := some (utcNowText now) } := by
  simp only [endCancelled, StateT.run_bind, Tx.bind_ok, Tx.read_ok, Tx.ensure_ok, runRow_ok] at h
  obtain ⟨_, ⟨-, rfl⟩, _, rfl, ⟨_, db₁⟩, hloop, ⟨_, db₂⟩, hcas, ⟨_, db₃⟩, happ, hlast, hdb⟩ := h
  dsimp only at hloop hcas happ hlast hdb
  subst hdb
  have hquiet := appendRunState_quiet happ
  have hnodes := forEach_closing (cancelNode_closing run) _ _ _ _ hloop
  have hrows : Targets.any (ord.order 0 ((db.rowsOf run.id).filter fun r => r.status.isLive)) cancelledWith =
      .any (liveRows db run.id) cancelledWith := by
    ext <;> simp only [Targets.any, (ord.perm _ _).mem_iff, liveRows]
  rw [hrows] at hnodes
  have hruns : Closing .none db₁ db₂ := runsTo_closing _ _ _ hcas
  have hall := (hnodes.trans hruns).trans hquiet.closing
  rw [Targets.or_none, Targets.or_none] at hall
  refine ⟨hall, hlast, ?_⟩
  -- the loop leaves the run's own row alone, so the guarded write finds it as it was
  have hloopRun : db₁.run? run.id = db.run? run.id := by
    have hstates := congrArg (Option.map RunState.run)
      (forEach_mapRows (cancelled_id now) (cancelled_idem now) (fun _ _ _ _ h => cancelNode_spec h) hloop run.id)
    simp only [Db.runState, Option.map_map, Function.comp_def, RunState.mapRows, Option.map_id'] at hstates
    exact hstates
  obtain ⟨row, hrow, hguard, hended, -⟩ := TableRef.cas_writes hcas
  have hcore := (hquiet.runs run.id).trans (run?_eq_some hended)
  rw [run?_eq_some hlast, Option.some.injEq] at hcore
  exact ⟨row.core, hloopRun.symm.trans (run?_eq_some hrow), (of_decide_eq_true hguard).2, hcore⟩

end

/-! ## The rows of a run -/

def Db.nodeOf (db : Db) (rid id : String) : Prop := ∃ n ∈ db.nodeRuns.rows, n.id = id ∧ n.workflowRunId = rid

def Db.taskOf (db : Db) (rid id : String) : Prop := ∃ t ∈ db.tasks.rows, t.id = id ∧ db.nodeOf rid t.nodeRunId

def Db.requestOf (db : Db) (rid id : String) : Prop :=
  ∃ r ∈ db.privilegeRequests.rows, r.id = id ∧ db.nodeOf rid r.nodeRunId

section
variable {e : Targets} {db db' : Db} {rid id : String}

theorem Closing.nodeOf (h : Closing e db db') : db'.nodeOf rid id ↔ db.nodeOf rid id :=
  h.nodes.keys_iff (I := fun k w => k = id ∧ w = rid)

theorem Closing.taskOf (h : Closing e db db') : db'.taskOf rid id ↔ db.taskOf rid id := by
  refine (h.tasks.keys_iff (I := fun k w => k = id ∧ db'.nodeOf rid w)).trans ?_
  exact exists_congr fun t => and_congr_right' (and_congr_right' h.nodeOf)

theorem Closing.requestOf (h : Closing e db db') : db'.requestOf rid id ↔ db.requestOf rid id := by
  refine (h.requests.keys_iff (I := fun k w => k = id ∧ db'.nodeOf rid w)).trans ?_
  exact exists_congr fun r => and_congr_right' (and_congr_right' h.nodeOf)

theorem nodeOf_iff : db.nodeOf rid id ↔ ((db.nodeRuns.get? id).any fun n => n.workflowRunId = rid) = true := by
  rw [Option.any_eq_true]
  constructor
  · rintro ⟨n, hn, rfl, hrun⟩
    exact ⟨n, Table.get?_of_mem hn, decide_eq_true hrun⟩
  · rintro ⟨n, hn, hrun⟩
    exact ⟨n, Table.mem_of_get? hn, Table.get?_key hn, of_decide_eq_true hrun⟩

theorem taskOf_iff : db.taskOf rid id ↔ ApprovalRepository.ofRun db rid id = true := by
  unfold ApprovalRepository.ofRun
  constructor
  · rintro ⟨t, ht, rfl, hnode⟩
    rw [Table.get?_of_mem ht, Option.bind_some]
    exact nodeOf_iff.1 hnode
  · intro h
    cases ht : db.tasks.get? id with
    | none => rw [ht] at h; cases h
    | some t =>
      rw [ht, Option.bind_some] at h
      exact ⟨t, Table.mem_of_get? ht, Table.get?_key ht, nodeOf_iff.2 h⟩

theorem requestOf_iff {g : CapabilityGrantRow} : db.requestOf rid g.requestId ↔
    ((ApprovalRepository.grantWithRun db g).any fun p => p.2.2 = rid) = true := by
  unfold ApprovalRepository.grantWithRun ApprovalRepository.requestWithRun
  rw [Option.any_map]
  constructor
  · rintro ⟨r, hr, hid, n, hn, hnode, hrun⟩
    rw [← hid, Table.get?_of_mem hr, Option.bind_some, Option.any_map, ← hnode, Table.get?_of_mem hn]
    exact decide_eq_true hrun
  · intro h
    cases hr : db.privilegeRequests.get? g.requestId with
    | none => rw [hr] at h; cases h
    | some r =>
      rw [hr, Option.bind_some, Option.any_map] at h
      exact ⟨r, Table.mem_of_get? hr, Table.get?_key hr, nodeOf_iff.2 h⟩

end

/-! ## The whole cancellation -/

/-- A pending approval of the run is for the request. -/
def Db.awaited (db : Db) (rid requestId : String) : Prop :=
  ∃ a ∈ db.approvals.rows, a.workflowRunId = rid ∧ a.status = .pending ∧ a.subjectType = .privilegeRequest ∧
    a.privilegeRequestId.getD "None" = requestId

/-- An unspent grant is for the request. -/
def Db.granted (db : Db) (requestId : String) : Prop :=
  ∃ g ∈ db.capabilityGrants.rows, g.requestId = requestId ∧ ¬ g.Spent

/-- What a cancellation of the run closes. -/
def cleanup (db : Db) (rid : String) : Targets where
  approvals v := v.owner = rid
  requests v := (v.status ∈ [PrivilegeRequestStatus.pending, .waitingApproval] ∧ db.awaited rid v.id) ∨
    (v.status = .approved ∧ db.granted v.id ∧ db.requestOf rid v.id)
  grants v := db.requestOf rid v.owner
  nodes v := v.owner = rid
  tasks v := ∃ n ∈ db.nodeRuns.rows, n.id = v.owner ∧ n.workflowRunId = rid ∧ n.status.isLive = true
  changeSets v := (∃ a ∈ db.approvals.rows, a.workflowRunId = rid ∧ a.status = .pending ∧ a.subjectType = .changeSet ∧
    a.changeSetId = some v.id) ∨ db.taskOf rid v.owner

theorem unspent_iff {g : CapabilityGrantRow} : (g.consumedAt = none ∧ g.revokedAt = none) ↔ ¬ g.Spent := by
  unfold CapabilityGrantRow.Spent
  rw [not_or, not_not, not_not]

/-- The run's row after it is marked: nothing else has changed. -/
theorem ensureCancelled_ok {row a : WorkflowRunRow} {now : Instant} {db db' : Db} (hrow : db.workflowRuns.get? row.id = some row)
    (h : (ensureCancelled row now).run db = .ok (a, db')) : (∃ t, db' = { db with workflowRuns := t }) ∧
      db'.workflowRuns.get? row.id = some a ∧ a.status = row.status ∧ a.cancelRequestedAt ≠ none := by
  unfold ensureCancelled at h
  split at h
  · simp only [StateT.run_bind, Tx.bind_ok, runRow_ok] at h
    obtain ⟨⟨_, db₁⟩, hmark, hget, hlast⟩ := h
    dsimp only at hmark hget hlast
    subst hlast
    obtain ⟨old, hold, -, hmarked, -⟩ := TableRef.cas_writes hmark
    obtain rfl := Option.some.inj (hold.symm.trans hrow)
    obtain rfl := Option.some.inj (hmarked.symm.trans hget)
    refine ⟨⟨_, (Prod.mk.inj (TableRef.cas_ok.1 hmark).2).2⟩, hget, rfl, by simp⟩
  · next hmarked =>
    obtain ⟨rfl, rfl⟩ := Prod.mk.inj (Tx.pure_ok.1 h)
    exact ⟨⟨db'.workflowRuns, rfl⟩, hrow, rfl, hmarked⟩

section
variable (rid : String) {db db₁ : Db} {e : Targets}

/-- The unspent grants of the run, found again after other rows were closed. -/
theorem unspentRows_iff (h : Closing e db db₁) (hgrants : ∀ v, ¬ e.grants v) {I : String → String → Prop} :
    (∃ g ∈ ApprovalRepository.unspentRows db₁ rid, I g.id g.requestId) ↔
      ∃ g ∈ db.capabilityGrants.rows, ¬ g.Spent ∧ db.requestOf rid g.requestId ∧ I g.id g.requestId := by
  have hrows := h.grants.rows_iff hgrants
    (J := fun v => v.status = true ∧ db.requestOf rid v.owner ∧ I v.id v.owner)
  simp only [grantLedger, decide_eq_true_eq, unspent_iff] at hrows
  rw [← hrows]
  refine exists_congr fun g => ?_
  rw [ApprovalRepository.unspentRows, List.mem_filter, Bool.and_eq_true, decide_eq_true_eq, unspent_iff, ← requestOf_iff,
    h.requestOf, and_assoc, and_assoc]

/-- The live node runs of the run, found again after other rows were closed. -/
theorem liveRows_iff (h : Closing e db db₁) (hnodes : ∀ v, ¬ e.nodes v) {I : String → Prop} :
    (∃ n ∈ liveRows db₁ rid, I n.id) ↔
      ∃ n ∈ db.nodeRuns.rows, n.workflowRunId = rid ∧ n.status.isLive = true ∧ I n.id := by
  have hrows := h.nodes.rows_iff hnodes (J := fun v => v.owner = rid ∧ v.status.isLive = true ∧ I v.id)
  simp only [nodeLedger] at hrows
  rw [← hrows]
  refine exists_congr fun n => ?_
  simp only [liveRows, Db.rowsOf, List.mem_filter, decide_eq_true_eq, and_assoc]

end

/-- The loops of a cancellation, one after another, close what `cleanup` names. -/
theorem cleanup_closing {rid : String} {db db₁ db₂ db₃ db' : Db}
    (hpending : Closing (.any (ApprovalRepository.pendingRows db rid) ApprovalRepository.invalidated) db db₁)
    (hbulk : Closing { changeSets := fun v => ApprovalRepository.ofRun db₁ rid v.owner = true } db₁ db₂)
    (hunspent : Closing (.any (ApprovalRepository.unspentRows db₂ rid) ApprovalRepository.revoked) db₂ db₃)
    (hlive : Closing (.any (liveRows db₃ rid) cancelledWith) db₃ db') : Closing (cleanup db rid) db db' := by
  have hall := ((hpending.trans hbulk).trans hunspent).trans hlive
  -- the grants are as they were when the second loop reads them, and the node runs when the third does
  have hgrants {I : String → String → Prop} := unspentRows_iff rid (I := I) (hpending.trans hbulk) fun v => by
    simp [Targets.or, Targets.any, ApprovalRepository.invalidated, ApprovalRepository.subjectOf]
  have hnodes {I : String → Prop} := liveRows_iff rid (I := I) ((hpending.trans hbulk).trans hunspent) fun v => by
    simp [Targets.or, Targets.any, ApprovalRepository.invalidated, ApprovalRepository.subjectOf, ApprovalRepository.revoked]
  have happrovals {p : ApprovalRow → Prop} : (∃ x ∈ ApprovalRepository.pendingRows db rid, p x) ↔
      ∃ a ∈ db.approvals.rows, a.workflowRunId = rid ∧ a.status = .pending ∧ p a := by
    simp only [ApprovalRepository.pendingRows, List.mem_filter, decide_eq_true_eq, and_assoc]
  have hnone {α : Type} {l : List α} : (∃ x ∈ l, False) ↔ False := by simp
  refine ⟨hall.approvals.congr ?_, hall.requests.congr ?_, hall.grants.congr ?_, hall.nodes.congr ?_, hall.tasks.congr ?_,
    hall.changeSets.congr ?_, hall.masterLeases⟩
  all_goals
    intro r hr hopen
    simp only [Targets.or, Targets.any, ApprovalRepository.invalidated, ApprovalRepository.subjectOf,
      ApprovalRepository.revoked, cancelledWith, cleanup, hnone, or_false, false_or]
  case refine_1 =>
    exact (happrovals.trans (Table.exists_key_iff hr)).trans (and_iff_left (of_decide_eq_true hopen))
  case refine_2 =>
    have hrequests := hgrants (I := fun _ w => r.id = w ∧ r.status ∈ [PrivilegeRequestStatus.approved])
    refine or_congr (happrovals.trans ⟨?_, ?_⟩) (hrequests.trans ⟨?_, ?_⟩)
    · rintro ⟨a, ha, hrun, hpend, hkind, hid, hstatus⟩
      exact ⟨hstatus, a, ha, hrun, hpend, hkind, hid.symm⟩
    · rintro ⟨hstatus, a, ha, hrun, hpend, hkind, hid⟩
      exact ⟨a, ha, hrun, hpend, hkind, hid.symm, hstatus⟩
    · rintro ⟨g, hg, hunspent, hof, hid, hstatus⟩
      exact ⟨List.mem_singleton.1 hstatus, ⟨g, hg, hid.symm, hunspent⟩, (congrArg (db.requestOf rid) hid).mpr hof⟩
    · rintro ⟨hstatus, ⟨g, hg, hid, hunspent⟩, hof⟩
      exact ⟨g, hg, hunspent, hid ▸ hof, hid.symm, List.mem_singleton.2 hstatus⟩
  case refine_3 =>
    have hunspents := hgrants (I := fun id _ => r.id = id)
    exact (hunspents.trans (Table.exists_key_iff hr)).trans (and_iff_right (unspent_iff.1 (of_decide_eq_true hopen)))
  case refine_4 =>
    have hlives := hnodes (I := fun id => r.id = id)
    exact (hlives.trans (Table.exists_key_iff hr)).trans (and_iff_left hopen)
  case refine_5 =>
    have hlives := hnodes (I := fun id => r.nodeRunId = id)
    refine hlives.trans (exists_congr fun n => and_congr_right' ⟨?_, ?_⟩)
    · exact fun ⟨hrun, hlive, hid⟩ => ⟨hid.symm, hrun, hlive⟩
    · exact fun ⟨hid, hrun, hlive⟩ => ⟨hrun, hlive, hid.symm⟩
  case refine_6 =>
    rw [happrovals, ← taskOf_iff, hpending.taskOf]

end AgentHub
