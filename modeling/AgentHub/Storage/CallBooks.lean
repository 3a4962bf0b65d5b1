import AgentHub.Storage.CallMoves
import AgentHub.Storage.Runs.EndBooks
/-!
# What a call tells

Every call keeps the books of its runs, node runs and tasks but for the tasks a cancellation ends. The calls of the
ChangeSet repository tell of the ChangeSet they move; every other call moves ChangeSets without a word, along the
edges of `_TRANSITIONS`.
-/

namespace AgentHub

open Lib WorkflowRunRepository

variable {P : Licence} {db db' : Db}

/-! ## Creating a run -/

theorem insertRun_follows {row : WorkflowRunRow} (hrow : row.status = .pending ∧ row.nextEventSeq = 1) :
    Tx.Within (Follows P) (insertRun row) := by
  refine .bind (.read _) fun _ => .bind (.ensure _ _) fun _ db u db' h => ?_
  obtain ⟨t, ht, hs⟩ := TableRef.insert_ok.1 h
  obtain rfl := (Prod.mk.inj hs).2
  obtain ⟨hset, hnone⟩ := runInsert_sets ht
  rw [hrow.1] at hset
  exact ⟨⟨runInsert_lawful ht hrow.2, fun _ _ s _ hb => hset.enter hnone s hb⟩, .refl _, rfl⟩

theorem create_follows (H : Digests) (sources : RunSources) (value : NewWorkflowRun) (lease : MasterLease)
    (ws : WorkspaceLease) (now : Instant) :
    Tx.Within (Follows P) (WorkflowRunRepository.create H sources value lease ws now) := by
  refine .bind (checkNewRun_readOnly _ _).within fun _ => .bind (assertMaster_readOnly _ _).within fun _ => ?_
  refine .bind (.ensure _ _) fun _ => .bind (assertWorkspace_readOnly _ _).within fun _ => ?_
  refine .bind (checkWorkflow_readOnly _).within fun _ => .bind (checkCompiled_readOnly _ _ _).within fun _ => ?_
  refine .bind (insertRun_follows ⟨rfl, rfl⟩) fun _ => .bind (forEach_within (fun node => ?_) _) fun _ => ?_
  · exact insertPendingNode_follows ⟨rfl, rfl⟩
  · exact .bind (appendIn_follows (fun _ => rfl) fun _ => rfl) fun _ => (runRow_readOnly _).within

/-! ## ChangeSets -/

namespace ChangeSetRepository

theorem appendSystemIn_appends {sid typ : String} {payload : EventPayload} {wid rid : String} {now : Instant} {u : Unit}
    (h : (appendSystemIn sid typ payload wid rid now).run db = .ok (u, db')) :
    ∃ n, Appends ⟨sid, some wid, some rid, some n, typ, .system, none, payload, utcNowText now⟩ db db' := by
  have hquiet := appendSystemIn_quiet h
  simp only [appendSystemIn, StateT.run_bind, Tx.bind_ok, Tx.require_ok, TableRef.select_ok, Tx.write_ok] at h
  obtain ⟨_, rfl, ⟨_, s⟩, ⟨-, rfl⟩, ⟨n, s⟩, hs, h⟩ := h
  simp only [Prod.mk.injEq] at h
  obtain ⟨-, rfl⟩ := h
  obtain ⟨rfl, hevents, hnext⟩ := EventRepository.allocateSeq_spec hs
  exact ⟨_, hquiet, by rw [hevents], rid, rfl, rfl, allocateSeq_owner hs, hnext⟩

/-- A ChangeSet's event: it is one of the run, and it is no state event of a subject. -/
theorem appendStateEvent_appends {lineage : TaskRow × NodeRunRow × WorkflowRunRow} {id sha : String}
    {previous : Option ChangeSetStatus} {status : ChangeSetStatus} {lease : MasterLease} {ws : Option WorkspaceLease}
    {reason : Option String} {now : Instant} {u : Unit}
    (h : (appendStateEvent lineage id sha previous status lease ws reason now).run db = .ok (u, db')) :
    ∃ ev, Appends ev db db' ∧ ev.workflowRunId = some lineage.2.2.id ∧ ev.stateChange = none ∧
      ev.changeSetChange = some (id, ⟨previous, status⟩) := by
  obtain ⟨n, happends⟩ := appendSystemIn_appends h
  exact ⟨_, happends, rfl, rfl, rfl⟩

theorem appendSecurityEvent_follows {lineage : TaskRow × NodeRunRow × WorkflowRunRow} {id sha : String}
    {previous : Option ChangeSetStatus} {status : ChangeSetStatus} {reason severity : String} {lease : MasterLease}
    {ws : Option WorkspaceLease} {now : Instant} :
    Tx.Within (Follows P) (appendSecurityEvent lineage id sha previous status reason severity lease ws now) :=
  aside_within (.write fun _ => ⟨rfl, rfl, rfl, rfl, rfl⟩)

/-- The licence to move nothing and to end nothing. -/
def idle : Licence := ⟨fun _ _ => False, fun _ => False, fun _ _ => False, .captured⟩

/-- One ChangeSet got a status, and the one event about it says from where. -/
structure Audited (id : String) (previous : Option ChangeSetStatus) (status : ChangeSetStatus) (db db' : Db) : Prop
    extends Tells idle db db' where
  before : db.changeSetStatus id = previous
  after : db'.changeSetStatus id = some status
  others : ∀ id', id' ≠ id → db'.changeSetStatus id' = db.changeSetStatus id'
  runs : ∀ id' rid, db.changeSetRun id' = some rid → db'.changeSetRun id' = some rid
  event : ∃ ev rid, db'.changeSetEvents = db.changeSetEvents ++ [ev] ∧ ev.changeSetChange = some (id, ⟨previous, status⟩) ∧
    ev.workflowRunId = some rid ∧ db'.changeSetRun id = some rid

section
variable {id : String} {previous : Option ChangeSetStatus} {status : ChangeSetStatus} {db₁ db₂ : Db}

theorem idle_status (h : Follows idle db db') (id : String) : db'.changeSetStatus id = db.changeSetStatus id := by
  rcases h.changeSetStatus id with hsame | ⟨s, -, hmoves, -⟩
  · exact hsame
  · exact hmoves.elim

theorem Audited.after_idle (h : Follows idle db db₁) (haudited : Audited id previous status db₁ db') :
    Audited id previous status db db' := by
  obtain ⟨ev, rid, hevents, hchange, hrun, hrid⟩ := haudited.event
  refine ⟨trans_of (Tells idle) h.toTells haudited.toTells, (idle_status h id).symm.trans haudited.before, haudited.after,
    fun id' hid => (haudited.others id' hid).trans (idle_status h id'), fun id' rid' hr => ?_, ev, rid, ?_, hchange, hrun, hrid⟩
  · exact haudited.runs id' rid' (h.changeSetRun hr)
  · rw [hevents, h.changeLog]

theorem Audited.then_idle (haudited : Audited id previous status db db₁) (h : Follows idle db₁ db') :
    Audited id previous status db db' := by
  obtain ⟨ev, rid, hevents, hchange, hrun, hrid⟩ := haudited.event
  refine ⟨trans_of (Tells idle) haudited.toTells h.toTells, haudited.before, (idle_status h id).trans haudited.after,
    fun id' hid => (idle_status h id').trans (haudited.others id' hid), fun id' rid' hr => ?_, ev, rid, ?_, hchange, hrun, ?_⟩
  · exact h.changeSetRun (haudited.runs id' rid' hr)
  · rw [h.changeLog, hevents]
  · exact h.changeSetRun hrid

/-- The write of one ChangeSet, and after writes that move none its event. -/
theorem Audited.of_write {t} {c : ChangeSetRow} {ev : EventRow} {rid : String} (hbefore : db.changeSetStatus id = previous)
    (hself : t.get? id = some c) (hstatus : c.status = status)
    (hsame : ∀ c₀, db.changeSets.get? id = some c₀ → c.taskId = c₀.taskId)
    (hothers : ∀ id', id' ≠ id → t.get? id' = db.changeSets.get? id') (howner : db.owner (.task c.taskId) = some rid)
    (hmid : Follows idle { db with changeSets := t } db₂) (happends : Appends ev db₂ db') (hrun : ev.workflowRunId = some rid)
    (hstate : ev.stateChange = none) (hchange : ev.changeSetChange = some (id, ⟨previous, status⟩)) :
    Audited id previous status db db' := by
  have howner' : ∀ s, Db.owner { db with changeSets := t } s = db.owner s := fun s => by cases s <;> rfl
  have hrid : Db.changeSetRun { db with changeSets := t } id = some rid := by
    simp only [Db.changeSetRun, hself, Option.bind_some, howner', howner]
  have hfollows := hmid.changeSetRun hrid
  have hset : ∀ d : Db, Appends ev db₂ d → d.changeSets = db₂.changeSets ∧ d.owner = db₂.owner :=
    fun d hd => ⟨hd.quiet.changeSets, hd.owner⟩
  obtain ⟨hsets, howners⟩ := hset db' happends
  have hstatuses : ∀ id', db'.changeSetStatus id' = (t.get? id').map ChangeSetRow.status := by
    intro id'
    rw [Db.changeSetStatus, hsets]
    exact idle_status hmid id'
  have hruns : ∀ id', db'.changeSetRun id' = db₂.changeSetRun id' := by
    intro id'
    simp only [Db.changeSetRun, hsets, howners]
  refine ⟨?_, hbefore, ?_, fun id' hid => ?_, fun id' rid' hr => ?_, ev, rid, ?_, hchange, hrun, ?_⟩
  · exact trans_of (Tells idle) changeSets_tells (trans_of (Tells idle) hmid.toTells (happends.tells hstate))
  · rw [hstatuses, hself, Option.map_some, hstatus]
  · rw [hstatuses, hothers id' hid]
    rfl
  · rw [hruns]
    apply hmid.changeSetRun
    obtain ⟨c₀, hc₀, hr⟩ := Option.bind_eq_some_iff.1 hr
    by_cases hid : id' = id
    · subst hid
      simp only [Db.changeSetRun, hself, Option.bind_some, howner', hsame c₀ hc₀, hr]
    · simp only [Db.changeSetRun, hothers id' hid, hc₀, Option.bind_some, howner', hr]
  · rw [happends.changeLog, hchange, hmid.changeLog]
    rfl
  · rw [hruns]
    exact hfollows

end

theorem transition_audited {expected target : ChangeSetStatus} {id : String} {lease : MasterLease} {ws : Option WorkspaceLease}
    {reason severity : Option String} {now : Instant} {u : Unit}
    (h : (transition id expected target lease ws reason severity now).run db = .ok (u, db')) :
    target ∈ expected.transitions ∧ Audited id (some expected) target db db' := by
  simp only [transition, StateT.run_bind, Tx.bind_ok, Tx.ensure_ok, Tx.read_ok, Tx.require_ok] at h
  obtain ⟨_, ⟨hedge, rfl⟩, _, ⟨-, rfl⟩, ⟨_, s⟩, hlease, _, rfl, ⟨⟨changeSet, lineage⟩, _⟩, ⟨hrow, rfl⟩, ⟨_, s'⟩, hws,
    ⟨_, db₁⟩, hcas, ⟨_, db₂⟩, happend, hlast⟩ := h
  dsimp only at hrow hws hcas happend hlast
  have hs := assertMaster_readOnly _ _ _ _ hlease
  have hs' := checkLease_readOnly _ _ _ _ _ hws
  dsimp only at hs hs'
  subst hs hs'
  simp only [changeSetLineage, Option.bind_eq_some_iff, Option.map_eq_some_iff] at hrow
  obtain ⟨c, hc, l, hl, heq⟩ := hrow
  obtain ⟨rfl, rfl⟩ := Prod.mk.inj heq
  obtain ⟨c', hc', hg, hself, hothers⟩ := TableRef.cas_writes hcas
  obtain rfl := Option.some.inj (hc'.symm.trans hc)
  have hstatus := of_decide_eq_true hg
  have hdb₁ := (Prod.mk.inj (TableRef.cas_ok.1 hcas).2).2
  subst hdb₁
  obtain ⟨ev, happends, hrun, hstate, hchange⟩ := appendStateEvent_appends happend
  refine ⟨of_decide_eq_true hedge, .then_idle (.of_write ?_ hself rfl (fun c₀ hc₀ => ?_) hothers (taskWithRun_owner hl).2
    (refl_of (Follows idle) _) happends hrun hstate hchange) ?_⟩
  · simp only [Db.changeSetStatus, hc, Option.map_some, hstatus]
  · obtain rfl := Option.some.inj (hc₀.symm.trans hc)
    rfl
  · split at hlast
    · rw [(Prod.mk.inj (Tx.pure_ok.1 hlast)).2]
      exact refl_of (Follows idle) _
    · exact appendSecurityEvent_follows _ _ _ hlast

theorem publishStaged_follows (limits : ArtifactLimits) (taskId : String) (record : ArtifactRow) :
    Tx.Within (Follows P) (ArtifactRepository.publishStaged limits taskId record) := by
  refine .bind (validateOwner_readOnly _ _).within fun _ => .bind (TableRef.select_within _) fun existing => ?_
  cases existing with
  | some existing => exact .ensure _ _
  | none =>
    refine .bind (.ensure _ _) fun _ => .bind (.read _) fun _ => .bind (.ensure _ _) fun _ => ?_
    exact aside_within (TableRef.insert_within fun _ _ => ⟨rfl, rfl, rfl, rfl, rfl⟩)

theorem insertCapture_audited {lineage : TaskRow × NodeRunRow × WorkflowRunRow} {capture : Capture} {status : ChangeSetStatus}
    {reason : Option String} {lease : MasterLease} {ws : WorkspaceLease} {now : Instant} {u : Unit}
    (howner : db.owner (.task lineage.1.id) = some lineage.2.2.id)
    (h : (insertCapture lineage capture status reason lease ws now).run db = .ok (u, db')) :
    Audited capture.changeSetId none status db db' := by
  obtain ⟨task, node, run⟩ := lineage
  simp only [insertCapture, StateT.run_bind, Tx.bind_ok, TableRef.insert_ok] at h
  obtain ⟨⟨_, db₁⟩, ⟨t, ht, hdb₁⟩, ⟨_, db₂⟩, hnode, ⟨_, db₃⟩, happend, hlast⟩ := h
  obtain rfl := (Prod.mk.inj hdb₁).2
  obtain ⟨ev, happends, hrun, hstate, hchange⟩ := appendStateEvent_appends happend
  have hnone := (Table.insert_eq_some ht).2.1
  have hmid : Follows idle { db with changeSets := t } db₂ := by
    refine nodeCas_follows ?_ ?_ _ _ _ hnode
    · exact fun _ => rfl
    · exact fun _ => rfl
  have hget : ∀ id, t.get? id = if capture.changeSetId = id then some _ else db.changeSets.get? id := Table.get?_insert ht
  refine .then_idle (.of_write ?_ ((hget _).trans (if_pos rfl)) rfl (fun c₀ hc₀ => ?_) (fun id' hid => ?_) howner hmid
    happends hrun hstate hchange) ?_
  · exact congrArg _ hnone
  · cases hnone.symm.trans hc₀
  · rw [hget, if_neg (Ne.symm hid)]
  · split at hlast
    · exact appendSecurityEvent_follows _ _ _ hlast
    · rw [(Prod.mk.inj (Tx.pure_ok.1 hlast)).2]
      exact refl_of (Follows idle) _

theorem finishTask_idle {lineage : TaskRow × NodeRunRow × WorkflowRunRow} {target : TaskStatus} {error : Option String}
    {lease : MasterLease} {ws : WorkspaceLease} {now : Instant} {u : Unit}
    (howner : db.owner (.task lineage.1.id) = some lineage.2.2.id)
    (h : (finishTask lineage target error lease ws now).run db = .ok (u, db')) : Follows idle db db' := by
  obtain ⟨task, node, run⟩ := lineage
  have hmove : Follows (idle.knowing (OfRun task.id run.id)) db db' := by
    refine taskMove_follows (Or.inr ⟨rfl, rfl⟩) ?_ ?_ _ _ _ h
    · exact fun r hr => of_decide_eq_true hr
    · exact fun _ => rfl
  refine hmove.knew fun _ s r hs => ?_
  obtain ⟨rfl, rfl⟩ := hs
  exact howner

theorem persistCapture_audited {H : Digests} {limits : ArtifactLimits} {sid rid id taskId : String} {capture : Capture}
    {target : TaskStatus} {error : Option String} {status : ChangeSetStatus} {reason : Option String} {lease : MasterLease}
    {ws : WorkspaceLease} {now : Instant} {u : Unit}
    (h : (persistCapture H limits sid rid id taskId capture target error status reason lease ws now).run db = .ok (u, db')) :
    status ∈ [ChangeSetStatus.captured, .abandonedPartial] ∧ Audited capture.changeSetId none status db db' := by
  simp only [persistCapture, StateT.run_bind, Tx.bind_ok, Tx.ensure_ok, Tx.read_ok, Tx.require_ok] at h
  obtain ⟨⟨_, s₀⟩, htargets, ⟨_, s₁⟩, hlease, _, ⟨-, rfl⟩, ⟨_, s₂⟩, hws, _, ⟨-, rfl⟩, _, rfl, ⟨lineage, _⟩, ⟨hrow, rfl⟩,
    ⟨_, s₃⟩, hvalid, _, rfl, _, ⟨-, rfl⟩, ⟨_, db₁⟩, hpublish, ⟨_, db₂⟩, hinsert, hfinish⟩ := h
  dsimp only at hlease hws hrow hvalid hpublish hinsert hfinish
  have hs₀ := (checkTargets_ok htargets).2.2
  have hs₁ := assertMaster_readOnly _ _ _ _ hlease
  have hs₂ := assertWorkspace_readOnly _ _ _ _ hws
  have hs₃ := validateLineage_readOnly _ _ _ _ _ _ _ _ hvalid
  dsimp only at hs₀ hs₁ hs₂ hs₃
  subst hs₀ hs₁ hs₂ hs₃
  have howner := (taskWithRun_owner hrow).2
  obtain rfl := (taskWithRun_owner hrow).1
  have hfollows : Follows idle _ db₁ := forEach_within (publishStaged_follows limits lineage.1.id) _ _ _ _ hpublish
  have howner₁ := hfollows.owners _ _ howner
  have haudited := insertCapture_audited howner₁ hinsert
  refine ⟨?_, (haudited.after_idle hfollows).then_idle (finishTask_idle (haudited.owners _ _ howner₁) hfinish)⟩
  simp only [checkTargets, StateT.run_bind, Tx.bind_ok, Tx.ensure_ok] at htargets
  obtain ⟨_, ⟨hstatus, -⟩, -⟩ := htargets
  exact of_decide_eq_true hstatus

end ChangeSetRepository

/-! ## What a call may do -/

/-- The run whose cancellation the call completes. -/
def StoreCall.cancels : StoreCall → Option String
  | .run (.completeCancel rid) => some rid
  | .run (.cancelWithCleanup rid _) => some rid
  | _ => none

/-- The call ends the subject without an event: a live task of a live node run of the run it cancels. -/
def StoreCall.Silences (db : Db) (call : StoreCall) (s : Subject) : Prop :=
  ∃ rid id, call.cancels = some rid ∧ s = .task id ∧ Going db rid ∧ LiveTask db rid id

/-- Invalidating the approvals of a run would match a ChangeSet of this id and status: with its pending approval, from
one of `froms`, or as a ChangeSet of one of the run's tasks. -/
def Invalidates (froms : List ChangeSetStatus) (db : Db) (rid id : String) (s : ChangeSetStatus) : Prop :=
  (s ∈ froms ∧ ∃ a ∈ db.approvals.rows, a.workflowRunId = rid ∧ a.status = .pending ∧ a.subjectType = .changeSet ∧
    a.changeSetId = some id) ∨
  (s ∈ [ChangeSetStatus.pendingApproval, .approved] ∧
    ∃ c ∈ db.changeSets.rows, c.id = id ∧ ApprovalRepository.ofRun db rid c.taskId = true)

/-- The call's own `UPDATE change_sets` would match a ChangeSet of this id and status. The calls of the ChangeSet
repository are not among these. -/
def StoreCall.Writes (db : Db) (call : StoreCall) (id : String) (s : ChangeSetStatus) : Prop :=
  match call with
  | .createApproval (.changeSet new) _ =>
    ApprovalRepository.pendingOf db (ApprovalRepository.sameSubject (.changeSet new)) = none ∧ id = new.changeSetId ∧
      s = .testPassed
  | .decide request => s = .pendingApproval ∧ ∃ a, db.approvals.get? request.approvalId = some a ∧ a.status = .pending ∧
      a.subjectType = .changeSet ∧ id = a.changeSetId.getD "None"
  | .invalidateForRun rid _ => Invalidates [.pendingApproval] db rid id s
  | .invalidateForRunIn rid _ => Invalidates [.pendingApproval, .approved] db rid id s
  | .run (.cancelWithCleanup rid _) => Cleans db rid ∧ Invalidates [.pendingApproval, .approved] db rid id s
  | .run (.finalizeMerge _ changeSetId _ _ _) => id = changeSetId ∧ s = .approved
  | _ => False

/-- The status that `UPDATE` sets. -/
def StoreCall.target : StoreCall → ChangeSetStatus
  | .createApproval _ _ => .pendingApproval
  | .decide request => ApprovalRepository.decidedStatus request.target
  | .run (.finalizeMerge _ _ _ _ _) => .merged
  | _ => .cancelled

def StoreCall.licence (db : Db) (call : StoreCall) : Licence := ⟨fun _ _ => False, call.Silences db, call.Writes db, call.target⟩

/-- Whatever a call writes by its own `UPDATE` is an edge. -/
theorem StoreCall.Writes.edge {call : StoreCall} {id : String} {s : ChangeSetStatus} (h : call.Writes db id s) :
    call.target ∈ s.transitions := by
  have hcancel : s ∈ [ChangeSetStatus.pendingApproval, .approved] → ChangeSetStatus.cancelled ∈ s.transitions := by
    intro hs
    cases s <;> simp [ChangeSetStatus.transitions] at hs ⊢
  have hinvalid : ∀ froms rid, froms ⊆ [ChangeSetStatus.pendingApproval, .approved] → Invalidates froms db rid id s →
      ChangeSetStatus.cancelled ∈ s.transitions := by
    rintro froms rid hfroms (⟨hs, -⟩ | ⟨hs, -⟩)
    · exact hcancel (hfroms hs)
    · exact hcancel hs
  unfold Writes at h
  split at h
  · obtain ⟨-, -, rfl⟩ := h
    simp [target, ChangeSetStatus.transitions]
  · next request =>
    obtain ⟨rfl, -⟩ := h
    simp only [target, ApprovalRepository.decidedStatus]
    split <;> decide
  · exact hinvalid _ _ (by simp) h
  · exact hinvalid _ _ (by simp) h
  · exact hinvalid _ _ (by simp) h.2
  · obtain ⟨-, rfl⟩ := h
    simp [target, ChangeSetStatus.transitions]
  · exact h.elim

section
variable {repo : ApprovalRepository} {ord : RowOrder} {lease : MasterLease} {now : Instant}

theorem invalidates_all {P : Licence} {froms : List ChangeSetStatus} {rid : String}
    (h : ∀ id s, Invalidates froms db rid id s → P.moves id s) : ApprovalRepository.EndsAll P rid db :=
  fun c hc howned s hs => h c.id s (.inr ⟨hs, c, hc, rfl, howned⟩)

theorem invalidates_pending {P : Licence} {froms : List ChangeSetStatus} {rid : String}
    (h : ∀ id s, Invalidates froms db rid id s → P.moves id s) (a : ApprovalRow) (ha : a ∈ db.approvals.rows)
    (hrun : a.workflowRunId = rid) (hpending : a.status = .pending) (s : ChangeSetStatus) (hs : s ∈ froms) :
    ApprovalRepository.Ends P a s :=
  fun hkind id hid => h id s (.inl ⟨hs, a, ha, hrun, hpending, hkind, hid⟩)

theorem RunCall.follows {call : RunCall} {o : Option NodeRunRow}
    (h : (call.op repo.H ord lease now).run db = .ok (o, db')) : Follows ((StoreCall.run call).licence db) db db' := by
  have within {α : Type} {x : Op α} {a : α} {P : Licence} (hx : Tx.Within (Follows P) x) (h : x.run db = .ok (a, db')) :
    Follows P db db' := hx _ _ _ h
  cases call with
  | startAndReconcile => exact within (ignore_within (startAndReconcile_follows _ _ _ _ _)) h
  | claimNext => exact within (claimNext_follows _ _ _ _ _) h
  | completeNode => exact within (completeNode_follows _ _ _ _ _ _ _ _ _) h
  | createAndStartTask => exact within (ignore_within (createAndStartTask_follows _ _ _ _ _ _ _)) h
  | enterWaitingApproval => exact within (enterWaitingApproval_follows _ _ _ _ _) h
  | resumeAfterApproval => exact within (resumeAfterApproval_follows _ _ _ _ _ _) h
  | resumeAfterApprovalIn => exact within (resumeAfterApprovalIn_follows _ _ _ _ _ _) h
  | preparePrivilegeRetry => exact within (ignore_within (preparePrivilegeRetry_follows _ _ _ _ _ _ _)) h
  | approvePrivilegeIn =>
    obtain ⟨_, hraises⟩ := ignore_ok h
    exact absurd hraises approvePrivilegeIn_raises
  | resumePrivilegeAfterApprovalIn => exact within (ignore_within (resumePrivilegeAfterApprovalIn_follows _ _ _ _ _ _)) h
  | activateCapabilityTargetIn => exact within (ignore_within (activateCapabilityTargetIn_follows _ _ _)) h
  | beginMergeFinalizing => exact within (ignore_within (beginMergeFinalizing_follows _ _ _ _)) h
  | clearMergeFinalizing => exact within (ignore_within (clearMergeFinalizing_follows _ _ _ _)) h
  | finalizeMerge id changeSetId commit ws summary =>
    have hmove : (StoreCall.run (.finalizeMerge id changeSetId commit ws summary)).Writes db changeSetId .approved := ⟨rfl, rfl⟩
    exact within (finalizeMerge_follows ⟨hmove, rfl⟩ _ _ _ _ _ _ _) h
  | attachCompletedNodeArtifact => exact within (attachCompletedNodeArtifact_follows _ _ _ _) h
  | requestCancel => exact within (ignore_within (requestCancel_follows _ _ _ _)) h
  | completeCancel rid =>
    obtain ⟨_, hrun⟩ := ignore_ok h
    exact completeCancel_follows (fun hgoing id hlive => ⟨rid, id, rfl, rfl, hgoing, hlive⟩) hrun
  | cancelWithCleanup rid reason =>
    obtain ⟨_, hrun⟩ := ignore_ok h
    refine cancelWithCleanup_follows rfl (fun hgoing id hlive => ⟨rid, id, rfl, rfl, hgoing, hlive⟩) (fun hcleans => ?_)
      (fun hcleans => ?_) hrun
    · exact invalidates_all fun id s hs => ⟨hcleans, hs⟩
    · exact invalidates_pending fun id s hs => ⟨hcleans, hs⟩
  | markOrphaned => exact within (ignore_within (markOrphaned_follows _ _ _ _ _ _ _)) h

/-- The calls of the ChangeSet repository. -/
def StoreCall.ofChangeSets : StoreCall → Bool
  | .persistCapture _ _ _ _ _ _ _ _ _ _ _ => true
  | .transition _ _ _ _ _ _ => true
  | _ => false

theorem StoreCall.follows {call : StoreCall} {u : Unit} (helse : call.ofChangeSets = false)
    (h : (call.op repo ord lease now).run db = .ok (u, db')) : Follows (call.licence db) db db' := by
  have within {x : Op Unit} {P : Licence} (hx : Tx.Within (Follows P) x) (h : x.run db = .ok (u, db')) : Follows P db db' :=
    hx _ _ _ h
  cases call with
  | run call =>
    obtain ⟨_, hrun⟩ := void_ok h
    exact RunCall.follows hrun
  | createRun => exact within (void_within (create_follows _ _ _ _ _ _)) h
  | createTask => exact within (void_within (createTask_follows _ _ _ _ _ _)) h
  | finishTask => exact within (void_within (finishTask_follows _ _ _ _ _ _ _)) h
  | createApproval approval key =>
    obtain ⟨_, hrun⟩ := void_ok h
    refine ApprovalRepository.create_follows (fun hnone new hnew => ⟨?_, rfl⟩) hrun
    subst hnew
    exact ⟨hnone, rfl, rfl⟩
  | createPrivilegeRequest => exact within (void_within (ApprovalRepository.createPrivilegeRequest_follows _ _ _ _ _)) h
  | createPrivilegeRequestAndApproval =>
    exact within (void_within (ApprovalRepository.createPrivilegeRequestAndApproval_follows _ _ _ _ _ _)) h
  | decide request =>
    obtain ⟨_, hrun⟩ := void_ok h
    exact ApprovalRepository.decide_follows (fun row hrow hpending hkind => ⟨⟨rfl, row, hrow, hpending, hkind, rfl⟩, rfl⟩) hrun
  | expireDue => exact within (void_within (ApprovalRepository.expireDue_follows _ _ _ _)) h
  | renewChangeset => exact within (void_within (ApprovalRepository.renewChangeset_follows _ _ _ _ _ _)) h
  | createGrant => exact within (void_within (ApprovalRepository.createGrant_follows _ _ _ _ _ _ _ _)) h
  | consumeGrant => exact within (void_within (ApprovalRepository.consumeGrant_follows _ _ _ _ _ _ _)) h
  | revokeUnconsumedForRun => exact within (void_within (ApprovalRepository.revokeUnconsumedForRun_follows _ _ _ _)) h
  | revokeUnconsumedForRunIn => exact within (void_within (ApprovalRepository.revokeUnconsumedForRunIn_follows _ _ _ _)) h
  | invalidateForRun rid reason =>
    obtain ⟨_, hrun⟩ := void_ok h
    exact ApprovalRepository.invalidateForRun_follows rfl (invalidates_all fun _ _ hs => hs) (fun a ha hr hp =>
      invalidates_pending (fun _ _ hs => hs) a ha hr hp _ (List.mem_singleton_self _)) hrun
  | invalidateForRunIn rid reason =>
    obtain ⟨_, hrun⟩ := void_ok h
    exact ApprovalRepository.invalidateForRunIn_follows rfl (invalidates_all fun _ _ hs => hs)
      (invalidates_pending fun _ _ hs => hs) hrun
  | persistCapture => cases helse
  | transition => cases helse

/-- Where a ChangeSet comes from: a capture of its own, or an edge of `_TRANSITIONS`. -/
def Legal (previous : Option ChangeSetStatus) (status : ChangeSetStatus) : Prop :=
  match previous with
  | none => status ∈ [ChangeSetStatus.captured, .abandonedPartial]
  | some s => status ∈ s.transitions

theorem StoreCall.audited {call : StoreCall} {u : Unit} (hcall : call.ofChangeSets = true)
    (h : (call.op repo ord lease now).run db = .ok (u, db')) :
    ∃ id previous status, Legal previous status ∧ ChangeSetRepository.Audited id previous status db db' := by
  cases call with
  | persistCapture => exact ⟨_, none, _, ChangeSetRepository.persistCapture_audited h⟩
  | transition _ expected => exact ⟨_, some expected, _, ChangeSetRepository.transition_audited h⟩
  | _ => cases hcall

/-- Every call keeps the books of its subjects, but for those it ends silently. -/
theorem StoreCall.tells {call : StoreCall} {u : Unit} (h : (call.op repo ord lease now).run db = .ok (u, db')) :
    Tells (call.licence db) db db' := by
  cases hcall : call.ofChangeSets with
  | false => exact (StoreCall.follows hcall h).toTells
  | true =>
    obtain ⟨_, _, _, -, haudited⟩ := StoreCall.audited hcall h
    refine ⟨⟨haudited.owners, fun _ => haudited.law fun _ _ hs => hs.elim⟩, fun _ hlaw s _ => ?_⟩
    exact haudited.books (fun _ _ hs => hs.elim) hlaw s fun hs => hs

theorem StoreInvocation.tells (repo : ApprovalRepository) (i : StoreInvocation) (db : Db) :
    Tells (i.call.licence db) db (i.commit repo db).2 := by
  unfold commit
  rcases Tx.commit_cases (i.call.op repo i.ord i.lease i.now) db with hs | ⟨_, h⟩
  · rw [hs]
    exact refl_of (Tells _) db
  · exact StoreCall.tells h

theorem StoreInvocation.law (repo : ApprovalRepository) (i : StoreInvocation) {db : Db} (hlaw : LedgerLaw db) :
    LedgerLaw (i.commit repo db).2 := (i.tells repo db).law (fun _ _ hs => hs.elim) hlaw

end

/-! ## Elsewhere -/

/-- A commit elsewhere: it may append an event of no run that is about none of this. -/
structure Outside (db db' : Db) : Prop extends Elsewhere db db' where
  events : db'.events = db.events ∨ ∃ ev : EventRow, db'.events = db.events ++ [ev] ∧ ev.workflowRunId = none ∧
    ev.stateChange = none ∧ ev.changeSetChange = none

theorem Outside.owner (h : Outside db db') : db'.owner = db.owner :=
  owner_congr (fun _ => by rw [h.workflowRuns]) (fun _ => by rw [h.nodeRuns]) fun _ => by rw [h.tasks]

theorem Outside.tells (h : Outside db db') : Tells P db db' := by
  have hstored : ∀ s, db'.stored s = db.stored s := by
    intro s
    cases s <;> simp only [Db.stored, h.workflowRuns, h.nodeRuns, h.tasks]
  have hnext : ∀ r, db'.nextSeq r = db.nextSeq r := fun r => by simp only [Db.nextSeq, h.workflowRuns]
  rcases h.events with heq | ⟨ev, heq, hrun, hstate, -⟩
  · refine .of (.of heq hnext (fun s r hs => by rw [h.owner]; exact hs) fun hlaw => ?_) fun s => page_congr heq (hstored s)
    rw [h.nodeRuns]
    exact hlaw.open_
  · have hslot : ev.slot = none := by simp [EventRow.slot, hrun]
    have hmem : ∀ e, e ∈ db'.events → e ∈ db.events ∨ e = ev := by
      intro e he
      rw [heq, List.mem_append, List.mem_singleton] at he
      exact he
    refine .of ⟨fun s r hs => by rw [h.owner]; exact hs, fun _ hlaw => ⟨fun e he hsome => ?_, ?_, fun e he r n hs => ?_,
      fun e he s c hs => ?_, ?_⟩⟩ fun s => ?_
    · rcases hmem e he with he | rfl
      · exact hlaw.numbered e he hsome
      · simp [hrun] at hsome
    · rw [heq, List.pairwise_append]
      refine ⟨hlaw.ordered, List.pairwise_singleton _ _, fun a _ b hb r n m _ hm => ?_⟩
      rw [List.mem_singleton.1 hb, hslot] at hm
      cases hm
    · rw [hnext]
      rcases hmem e he with he | rfl
      · exact hlaw.counted e he r n hs
      · rw [hslot] at hs
        cases hs
    · rw [h.owner]
      rcases hmem e he with he | rfl
      · exact hlaw.owned e he s c hs
      · rw [hstate] at hs
        cases hs
    · rw [h.nodeRuns]
      exact hlaw.open_
    · simp [Db.page, Db.log, heq, hstored, EventRow.changeOf, hstate]

end AgentHub
