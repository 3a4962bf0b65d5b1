import AgentHub.Lib.Evolve
import AgentHub.Storage.Calls
import AgentHub.Storage.Runs.CallRefines
/-!
# What a row may become

Rows are never deleted, their identifying columns never change, and what is finished stays finished: a run
or node run keeps its terminal status, an approval its decision, a grant its end. `Moves` states this for
every table at once. It holds of each statement by itself, so it holds of any operation. The few writes that
open something take a power, so that `Moves` also says which operations cannot make them.
-/

namespace AgentHub

open Lib WorkflowRunRepository

/-- What an operation may do that not every one may: open an approval, decide the approval of an id, move the
ChangeSet of an id to approved or merged, insert a task of a node run, start the task of an id, insert a grant, consume the
grant of an id. -/
structure Powers where
  digests : ApprovalDigests
  opens : ApprovalRow → Prop
  decides : String → Prop
  approves : String → ChangeSetStatus → Prop
  creates : String → Prop
  starts : String → Prop
  grants : CapabilityGrantRow → Prop
  consumes : String → Prop

/-- Every power. -/
def Powers.all (digests : ApprovalDigests) : Powers :=
  ⟨digests, fun _ => True, fun _ => True, fun _ _ => True, fun _ => True, fun _ => True, fun _ => True, fun _ => True⟩

/-! ## Rows -/

structure RunKeeps (r r' : WorkflowRunRow) : Prop where
  same : (r'.id, r'.workflowId, r'.sessionId) = (r.id, r.workflowId, r.sessionId)
  ended : r.status.isTerminal = true → r'.status = r.status
  cancelled : r.cancelRequestedAt ≠ none → r'.cancelRequestedAt = r.cancelRequestedAt

structure NodeKeeps (r r' : NodeRunRow) : Prop where
  same : r'.skeleton = r.skeleton
  ended : r.status.isTerminal = true → r'.status = r.status

/-- The statuses a task is not finished in. -/
def TaskStatus.isLive : TaskStatus → Bool
  | .pending | .running | .privilegeRequested => true
  | _ => false

/-- The statuses a task starts in. -/
def TaskStatus.isStarted : TaskStatus → Bool
  | .pending | .running => true
  | _ => false

structure TaskKeeps (K : Powers) (t t' : TaskRow) : Prop where
  same : (t'.id, t'.nodeRunId, t'.agentId, t'.baseCommit) = (t.id, t.nodeRunId, t.agentId, t.baseCommit)
  ended : t.status.isLive = false → t'.status = t.status
  started : t'.status.isStarted = true → t'.status = t.status ∨ K.starts t.id

def ChangeSetRow.subject (c : ChangeSetRow) : String × String × String × String :=
  (c.id, c.taskId, c.baseCommit, c.patchSha256)

/-- The statuses a ChangeSet has from its approval on. -/
def ChangeSetStatus.isApproved : ChangeSetStatus → Bool
  | .approved | .merged => true
  | _ => false

structure ChangeSetKeeps (K : Powers) (c c' : ChangeSetRow) : Prop where
  same : c'.subject = c.subject
  approved : c'.status.isApproved = true → c'.status = c.status ∨ K.approves c.id c'.status

/-- A ChangeSet as it is inserted. -/
def NewChangeSet (c : ChangeSetRow) : Prop := c.status.isApproved = false

/-- A decision, the digest of an earlier one, or the end of an approval that was never decided. -/
inductive ApprovalStep (K : Powers) (a : ApprovalRow) : ApprovalRow → Prop
  | decide (r : DecisionRequest) (now : Instant) (hid : a.id = r.approvalId) (hpower : K.decides a.id)
      (hpending : a.status = .pending) (hversion : (a.version : Int) = r.expectedVersion)
      (hsubject : a.subjectSha256 = r.confirmSubjectHash) (hexpiry : utcNowText now < a.expiresAt) :
      ApprovalStep K a { a with
        status := r.target.status, version := a.version + 1, decisionActor := some r.actorId,
        decisionIdempotencyKey := some r.idempotencyKey,
        decisionRequestSha256 := some (K.digests.decisionRequest r), decidedAt := some (utcNowText now) }
  | backfill (r : DecisionRequest) (hid : a.id = r.approvalId) (hstatus : a.status = r.target.status)
      (hactor : a.decisionActor = some r.actorId) (hversion : (a.version : Int) = r.expectedVersion + 1)
      (hkey : a.decisionIdempotencyKey = some r.idempotencyKey) (hsubject : a.subjectSha256 = r.confirmSubjectHash)
      (hnone : a.decisionRequestSha256 = none) :
      ApprovalStep K a { a with decisionRequestSha256 := some (K.digests.decisionRequest r) }
  | close (status : ApprovalStatus) (now : Instant) (hpending : a.status = .pending)
      (hstatus : status = .expired ∨ status = .invalidated) :
      ApprovalStep K a { a with status := status, version := a.version + 1, decidedAt := some (utcNowText now) }

abbrev ApprovalSteps (K : Powers) : ApprovalRow → ApprovalRow → Prop := Relation.ReflTransGen (ApprovalStep K)

/-- The columns of an approval that no step changes. -/
def ApprovalRow.terms (a : ApprovalRow) :
    (String × String × String) × (SubjectType × Option String × Option String) × String ×
      (Option String × Option String) × RiskLevel × String :=
  ((a.id, a.workflowRunId, a.nodeRunId), (a.subjectType, a.changeSetId, a.privilegeRequestId), a.subjectSha256,
    (a.baseCommit, a.patchSha256), a.effectiveRisk, a.expiresAt)

section
variable {K : Powers} {a a' : ApprovalRow}

theorem ApprovalStep.terms (h : ApprovalStep K a a') : a'.terms = a.terms := by cases h <;> rfl

theorem ApprovalSteps.terms (h : ApprovalSteps K a a') : a'.terms = a.terms := by
  induction h with
  | refl => rfl
  | tail _ hstep ih => exact hstep.terms.trans ih

theorem Decision.status_ne_pending (t : Decision) : t.status ≠ .pending := by cases t <;> simp [status]

theorem ApprovalStep.not_pending (h : ApprovalStep K a a') : a'.status ≠ .pending := by
  cases h with
  | decide r => exact r.target.status_ne_pending
  | backfill r _ hstatus => rw [hstatus]; exact r.target.status_ne_pending
  | close status _ _ hstatus => rcases hstatus with rfl | rfl <;> simp

/-- A pending approval has not moved. -/
theorem ApprovalSteps.of_pending (h : ApprovalSteps K a a') (hpending : a'.status = .pending) : a' = a := by
  cases h with
  | refl => rfl
  | tail _ hstep => exact (hstep.not_pending hpending).elim

/-- An approval that is not pending keeps its status and version. -/
theorem ApprovalStep.ended (h : ApprovalStep K a a') (hended : a.status ≠ .pending) :
    (a'.status, a'.version) = (a.status, a.version) := by
  cases h with
  | decide _ _ _ _ hpending => exact absurd hpending hended
  | backfill => rfl
  | close _ _ hpending => exact absurd hpending hended

theorem ApprovalSteps.ended (h : ApprovalSteps K a a') (hended : a.status ≠ .pending) :
    (a'.status, a'.version) = (a.status, a.version) := by
  induction h with
  | refl => rfl
  | tail _ hstep ih =>
    have hstatus := (Prod.mk.inj ih).1
    exact (hstep.ended (by rw [hstatus]; exact hended)).trans ih

end

/-- An approval as it is inserted. -/
structure NewApproval (K : Powers) (a : ApprovalRow) : Prop where
  power : K.opens a
  status : a.status = .pending
  version : a.version = 1
  risk : a.effectiveRisk ≠ .l4
  subject : a.subjectType = .changeSet
  undecided : a.decisionActor = none ∧ a.decisionRequestSha256 = none ∧ a.decidedAt = none

def PrivilegeRequestRow.subject (r : PrivilegeRequestRow) :
    String × String × String × String × String × String × ResourceSeal × RiskLevel :=
  (r.id, r.taskId, r.nodeRunId, r.capability, r.action, r.resource, r.resourceSeal, r.effectiveRisk)

/-- The statuses a request is not finished in. -/
def PrivilegeRequestStatus.isOpen : PrivilegeRequestStatus → Bool
  | .pending | .waitingApproval | .approved => true
  | _ => false

structure RequestKeeps (r r' : PrivilegeRequestRow) : Prop where
  same : r'.subject = r.subject
  ended : r.status.isOpen = false → r'.status = r.status

def CapabilityGrantRow.subject (g : CapabilityGrantRow) :
    String × String × String × String × String × ResourceSeal × String :=
  (g.id, g.requestId, g.targetTaskId, g.action, g.resource, g.resourceSeal, g.expiresAt)

/-- Consumed or revoked. -/
def CapabilityGrantRow.Spent (g : CapabilityGrantRow) : Prop := g.consumedAt ≠ none ∨ g.revokedAt ≠ none

/-- How a grant ended. -/
def CapabilityGrantRow.fate (g : CapabilityGrantRow) : Option String × Option Nat × Option String × Option String :=
  (g.consumedAt, g.consumedFencingToken, g.revokedAt, g.revocationReason)

structure GrantKeeps (K : Powers) (g g' : CapabilityGrantRow) : Prop where
  same : g'.subject = g.subject
  spent : g.Spent → g'.fate = g.fate
  single : ¬ (g.consumedAt ≠ none ∧ g.revokedAt ≠ none) → ¬ (g'.consumedAt ≠ none ∧ g'.revokedAt ≠ none)
  consumed : g'.consumedAt ≠ none → g.consumedAt ≠ none ∨ K.consumes g.id

/-- A grant as it is inserted. -/
structure NewGrant (K : Powers) (g : CapabilityGrantRow) : Prop where
  power : K.grants g
  whole : g.fate = (none, none, none, none)

instance : IsPreorder WorkflowRunRow RunKeeps where
  refl _ := ⟨rfl, fun _ => rfl, fun _ => rfl⟩
  trans a b c h h' := by
    refine ⟨h'.same.trans h.same, fun he => ?_, fun hc => ?_⟩
    · have hb := h.ended he
      exact (h'.ended (by rw [hb]; exact he)).trans hb
    · have hb := h.cancelled hc
      exact (h'.cancelled (by rw [hb]; exact hc)).trans hb

instance : IsPreorder NodeRunRow NodeKeeps where
  refl _ := ⟨rfl, fun _ => rfl⟩
  trans a b c h h' := by
    refine ⟨h'.same.trans h.same, fun he => ?_⟩
    have hb := h.ended he
    exact (h'.ended (by rw [hb]; exact he)).trans hb

instance (K : Powers) : IsPreorder TaskRow (TaskKeeps K) where
  refl _ := ⟨rfl, fun _ => rfl, fun _ => .inl rfl⟩
  trans a b c h h' := by
    refine ⟨h'.same.trans h.same, fun he => ?_, fun hs => ?_⟩
    · have hb := h.ended he
      exact (h'.ended (by rw [hb]; exact he)).trans hb
    · rcases h'.started hs with hc | hpower
      · rw [hc] at hs ⊢
        exact h.started hs
      · have hid : b.id = a.id := (Prod.mk.inj h.same).1
        rw [hid] at hpower
        exact .inr hpower

instance (K : Powers) : IsPreorder ChangeSetRow (ChangeSetKeeps K) where
  refl _ := ⟨rfl, fun _ => .inl rfl⟩
  trans a b c h h' := by
    refine ⟨h'.same.trans h.same, fun hs => ?_⟩
    rcases h'.approved hs with hc | hpower
    · rw [hc] at hs ⊢
      exact h.approved hs
    · have hid : b.id = a.id := (Prod.mk.inj h.same).1
      rw [hid] at hpower
      exact .inr hpower

instance (K : Powers) : IsPreorder ApprovalRow (ApprovalSteps K) where
  refl _ := .refl
  trans _ _ _ h h' := h.trans h'

instance : IsPreorder PrivilegeRequestRow RequestKeeps where
  refl _ := ⟨rfl, fun _ => rfl⟩
  trans a b c h h' := by
    refine ⟨h'.same.trans h.same, fun he => ?_⟩
    have hb := h.ended he
    exact (h'.ended (by rw [hb]; exact he)).trans hb

theorem CapabilityGrantRow.Spent.of_fate {g g' : CapabilityGrantRow} (hg : g.Spent) (h : g'.fate = g.fate) : g'.Spent := by
  simp only [fate, Prod.mk.injEq] at h
  obtain ⟨hc, -, hr, -⟩ := h
  unfold Spent at hg ⊢
  rw [hc, hr]
  exact hg

instance (K : Powers) : IsPreorder CapabilityGrantRow (GrantKeeps K) where
  refl _ := ⟨rfl, fun _ => rfl, id, .inl⟩
  trans a b c h h' := by
    refine ⟨h'.same.trans h.same, fun hs => ?_, fun hn => h'.single (h.single hn), fun hc => ?_⟩
    · have hb := h.spent hs
      exact (h'.spent (hs.of_fate hb)).trans hb
    · rcases h'.consumed hc with hb | hpower
      · exact h.consumed hb
      · have hid : b.id = a.id := (Prod.mk.inj h.same).1
        rw [hid] at hpower
        exact .inr hpower

/-! ## Databases -/

/-- Every table moved as its rows may. -/
structure Moves (K : Powers) (db db' : Db) : Prop where
  workflowRuns : Evolves RunKeeps (fun _ => True) db.workflowRuns db'.workflowRuns
  nodeRuns : Evolves NodeKeeps (fun _ => True) db.nodeRuns db'.nodeRuns
  tasks : Evolves (TaskKeeps K) (fun t => K.creates t.nodeRunId) db.tasks db'.tasks
  changeSets : Evolves (ChangeSetKeeps K) NewChangeSet db.changeSets db'.changeSets
  approvals : Evolves (ApprovalSteps K) (NewApproval K) db.approvals db'.approvals
  privilegeRequests : Evolves RequestKeeps (fun _ => True) db.privilegeRequests db'.privilegeRequests
  capabilityGrants : Evolves (GrantKeeps K) (NewGrant K) db.capabilityGrants db'.capabilityGrants

instance (K : Powers) : IsPreorder Db (Moves K) where
  refl _ := ⟨.refl _, .refl _, .refl _, .refl _, .refl _, .refl _, .refl _⟩
  trans _ _ _ h h' := ⟨h.workflowRuns.trans h'.workflowRuns, h.nodeRuns.trans h'.nodeRuns, h.tasks.trans h'.tasks,
    h.changeSets.trans h'.changeSets, h.approvals.trans h'.approvals, h.privilegeRequests.trans h'.privilegeRequests,
    h.capabilityGrants.trans h'.capabilityGrants⟩

variable {K : Powers}

theorem Elsewhere.moves {db db' : Db} (h : Elsewhere db db') : Moves K db db' :=
  ⟨.of_eq h.workflowRuns, .of_eq h.nodeRuns, .of_eq h.tasks, .of_eq h.changeSets, .of_eq h.approvals,
    .of_eq h.privilegeRequests, .of_eq h.capabilityGrants⟩

/-- Runs that only counted events. -/
theorem evolves_of_run? {db db' : Db} (h : ∀ id, db'.run? id = db.run? id) :
    Evolves RunKeeps (fun _ => True) db.workflowRuns db'.workflowRuns := by
  refine ⟨fun k r hr => ?_, fun k r' hnone hr' => ?_⟩
  · have hk := h k
    unfold Db.run? at hk
    rw [hr, Option.map_some] at hk
    obtain ⟨r', hr', hcore⟩ := Option.map_eq_some_iff.1 hk
    simp only [WorkflowRunRow.core, WorkflowRunRow.mk.injEq] at hcore
    exact ⟨r', hr', by simp [hcore], fun _ => by simp [hcore], fun _ => by simp [hcore]⟩
  · have hk := h k
    unfold Db.run? at hk
    rw [hnone, hr'] at hk
    cases hk

theorem Quiet.moves {db db' : Db} (h : Quiet db db') : Moves K db db' :=
  ⟨evolves_of_run? h.runs, .of_eq h.nodeRuns, .of_eq h.tasks, .of_eq h.changeSets, .of_eq h.approvals,
    .of_eq h.privilegeRequests, .of_eq h.capabilityGrants⟩

/-! ## Statements -/

section
variable {db : Db}

theorem Moves.workflowRunsTo {t} (h : Evolves RunKeeps (fun _ => True) db.workflowRuns t) :
    Moves K db { db with workflowRuns := t } := ⟨h, .refl _, .refl _, .refl _, .refl _, .refl _, .refl _⟩

theorem Moves.nodeRunsTo {t} (h : Evolves NodeKeeps (fun _ => True) db.nodeRuns t) :
    Moves K db { db with nodeRuns := t } := ⟨.refl _, h, .refl _, .refl _, .refl _, .refl _, .refl _⟩

theorem Moves.tasksTo {t} (h : Evolves (TaskKeeps K) (fun t => K.creates t.nodeRunId) db.tasks t) :
    Moves K db { db with tasks := t } := ⟨.refl _, .refl _, h, .refl _, .refl _, .refl _, .refl _⟩

theorem Moves.changeSetsTo {t} (h : Evolves (ChangeSetKeeps K) NewChangeSet db.changeSets t) :
    Moves K db { db with changeSets := t } := ⟨.refl _, .refl _, .refl _, h, .refl _, .refl _, .refl _⟩

theorem Moves.approvalsTo {t} (h : Evolves (ApprovalSteps K) (NewApproval K) db.approvals t) :
    Moves K db { db with approvals := t } := ⟨.refl _, .refl _, .refl _, .refl _, h, .refl _, .refl _⟩

theorem Moves.requestsTo {t} (h : Evolves RequestKeeps (fun _ => True) db.privilegeRequests t) :
    Moves K db { db with privilegeRequests := t } := ⟨.refl _, .refl _, .refl _, .refl _, .refl _, h, .refl _⟩

theorem Moves.grantsTo {t} (h : Evolves (GrantKeeps K) (NewGrant K) db.capabilityGrants t) :
    Moves K db { db with capabilityGrants := t } := ⟨.refl _, .refl _, .refl _, .refl _, .refl _, .refl _, h⟩

end

/-- A guarded update by key moves the table as its write moves a row the guard lets through. -/
theorem cas_moves {ρ κ ι : Type} {key : ρ → κ} {uniq : ρ → ι} [DecidableEq κ] {T : TableRef Db key uniq}
    {R : ρ → ρ → Prop} [IsPreorder ρ R] {fresh : ρ → Prop}
    (hset : ∀ db t, Evolves R fresh (T.get db) t → Moves K db (T.set db t)) {k : κ} {g : ρ → Bool} {f : ρ → ρ} {hk hu}
    {e : StorageError} (hf : ∀ r, key r = k → g r = true → R r (f r)) : Tx.Within (Moves K) (T.cas k g f hk hu e) := by
  intro db u db' h
  obtain ⟨-, hs⟩ := TableRef.cas_ok.1 h
  rw [(Prod.mk.inj hs).2]
  refine hset db _ (.update _ fun r _ hr => ?_)
  obtain ⟨hkey, hg⟩ := Bool.and_eq_true_iff.1 hr
  exact hf r (of_decide_eq_true hkey) hg

theorem update_moves {ρ κ ι : Type} {key : ρ → κ} {uniq : ρ → ι} [DecidableEq κ] {T : TableRef Db key uniq}
    {R : ρ → ρ → Prop} [IsPreorder ρ R] {fresh : ρ → Prop}
    (hset : ∀ db t, Evolves R fresh (T.get db) t → Moves K db (T.set db t)) {p : ρ → Bool} {f : ρ → ρ} {hk hu}
    (hf : ∀ r, p r = true → R r (f r)) : Tx.Within (Moves K) (T.update p f hk hu : Op Nat) := by
  intro db n db' h
  rw [TableRef.update_ok, Prod.mk.injEq] at h
  rw [h.2]
  exact hset db _ (.update _ fun r _ => hf r)

theorem insert_moves {ρ κ ι : Type} {key : ρ → κ} {uniq : ρ → ι} [DecidableEq κ] [DecidableEq ι]
    {T : TableRef Db key uniq} {R : ρ → ρ → Prop} [IsPreorder ρ R] {fresh : ρ → Prop}
    (hset : ∀ db t, Evolves R fresh (T.get db) t → Moves K db (T.set db t)) {row : ρ} {e : StorageError}
    (hfresh : fresh row) : Tx.Within (Moves K) (T.insert row e) := by
  intro db u db' h
  obtain ⟨t, ht, hs⟩ := TableRef.insert_ok.1 h
  rw [(Prod.mk.inj hs).2]
  exact hset db _ (.insert ht hfresh)

theorem appendIn_moves {sid typ actor : String} {payload : EventPayload} {wid rid : String} {now : Instant} :
    Tx.Within (Moves K) (EventRepository.appendIn sid typ actor payload wid rid now) :=
  fun _ _ _ h => (EventRepository.appendIn_quiet h).moves

section
variable {k : String} {e : StorageError}

/-- A write to a node run that is not finished, or that leaves its status. -/
theorem nodeCas_moves {g : NodeRunRow → Bool} {f : NodeRunRow → NodeRunRow} {hk hu}
    (hsame : ∀ r, (f r).skeleton = r.skeleton)
    (hlive : ∀ r, g r = true → r.status.isTerminal = true → (f r).status = r.status) :
    Tx.Within (Moves K) (Db.nodeRunsT.cas k g f hk hu e) :=
  cas_moves (fun _ _ => Moves.nodeRunsTo) fun r _ hg => ⟨hsame r, hlive r hg⟩

/-- A write to a run that is not finished, or that leaves its status; it does not take a cancellation back. -/
theorem runCas_moves {g : WorkflowRunRow → Bool} {f : WorkflowRunRow → WorkflowRunRow} {hk hu}
    (hsame : ∀ r, ((f r).workflowId, (f r).sessionId) = (r.workflowId, r.sessionId))
    (hlive : ∀ r, g r = true → r.status.isTerminal = true → (f r).status = r.status)
    (hcancel : ∀ r, (f r).cancelRequestedAt = r.cancelRequestedAt) :
    Tx.Within (Moves K) (Db.workflowRunsT.cas k g f hk hu e) :=
  cas_moves (fun _ _ => Moves.workflowRunsTo) fun r _ hg => by
    refine ⟨?_, hlive r hg, fun _ => hcancel r⟩
    rw [Prod.mk.injEq]
    exact ⟨hk r, hsame r⟩

theorem taskCas_moves {g : TaskRow → Bool} {f : TaskRow → TaskRow} {hk hu}
    (hsame : ∀ t, ((f t).agentId, (f t).baseCommit) = (t.agentId, t.baseCommit))
    (hlive : ∀ t, g t = true → t.status.isLive = false → (f t).status = t.status)
    (hstart : ∀ t, g t = true → (f t).status.isStarted = true → (f t).status = t.status ∨ K.starts k) :
    Tx.Within (Moves K) (Db.tasksT.cas k g f hk hu e) :=
  cas_moves (fun _ _ => Moves.tasksTo) fun t hid hg => by
    have hstart := hstart t hg
    rw [← hid] at hstart
    refine ⟨?_, hlive t hg, hstart⟩
    rw [Prod.mk.injEq, Prod.mk.injEq]
    exact ⟨hk t, hu t, hsame t⟩

/-- A write to a ChangeSet that does not approve it. -/
theorem changeSetCas_moves {g : ChangeSetRow → Bool} {f : ChangeSetRow → ChangeSetRow} {hk hu}
    (hsame : ∀ c, (f c).subject = c.subject)
    (happrove : ∀ c, c.id = k → g c = true → (f c).status.isApproved = true → (f c).status = c.status ∨ K.approves k (f c).status) :
    Tx.Within (Moves K) (Db.changeSetsT.cas k g f hk hu e) :=
  cas_moves (fun _ _ => Moves.changeSetsTo) fun c hid hg => by
    refine ⟨hsame c, fun hs => ?_⟩
    rw [hid]
    exact happrove c hid hg hs

theorem changeSetUpdate_moves {p : ChangeSetRow → Bool} {f : ChangeSetRow → ChangeSetRow} {hk hu}
    (hsame : ∀ c, (f c).subject = c.subject) (hclosed : ∀ c, (f c).status.isApproved = false) :
    Tx.Within (Moves K) (Db.changeSetsT.update p f hk hu : Op Nat) :=
  update_moves (fun _ _ => Moves.changeSetsTo) fun c _ => ⟨hsame c, fun hs => by rw [hclosed c] at hs; cases hs⟩

/-- A write to an open request. -/
theorem requestUpdate_moves {p : PrivilegeRequestRow → Bool} {f : PrivilegeRequestRow → PrivilegeRequestRow} {hk hu}
    (hsame : ∀ r, (f r).subject = r.subject) (hopen : ∀ r, p r = true → r.status.isOpen = true) :
    Tx.Within (Moves K) (Db.privilegeRequestsT.update p f hk hu : Op Nat) :=
  update_moves (fun _ _ => Moves.requestsTo) fun r hr => ⟨hsame r, fun hc => by rw [hopen r hr] at hc; cases hc⟩

theorem requestCas_moves {g : PrivilegeRequestRow → Bool} {f : PrivilegeRequestRow → PrivilegeRequestRow} {hk hu}
    (hsame : ∀ r, (f r).subject = r.subject) (hopen : ∀ r, g r = true → r.status.isOpen = true) :
    Tx.Within (Moves K) (Db.privilegeRequestsT.cas k g f hk hu e) :=
  cas_moves (fun _ _ => Moves.requestsTo) fun r _ hr => ⟨hsame r, fun hc => by rw [hopen r hr] at hc; cases hc⟩

theorem approvalCas_moves {g : ApprovalRow → Bool} {f : ApprovalRow → ApprovalRow} {hk hu}
    (hf : ∀ a, a.id = k → g a = true → ApprovalStep K a (f a)) : Tx.Within (Moves K) (Db.approvalsT.cas k g f hk hu e) :=
  cas_moves (fun _ _ => Moves.approvalsTo) fun a hid hg => .single (hf a hid hg)

/-- The end of a grant that is neither consumed nor revoked. -/
theorem ended_keeps {g g' : CapabilityGrantRow} (h : g.consumedAt = none ∧ g.revokedAt = none)
    (hsame : g'.subject = g.subject) (hsingle : ¬ (g'.consumedAt ≠ none ∧ g'.revokedAt ≠ none))
    (hconsumed : g'.consumedAt ≠ none → K.consumes g.id) : GrantKeeps K g g' := by
  refine ⟨hsame, fun hs => ?_, fun _ => hsingle, fun hc => .inr (hconsumed hc)⟩
  rcases hs with hs | hs
  · exact absurd h.1 hs
  · exact absurd h.2 hs

theorem grantCas_moves {p : CapabilityGrantRow → Bool} {f : CapabilityGrantRow → CapabilityGrantRow} {hk hu}
    (hf : ∀ g, g.id = k → p g = true → GrantKeeps K g (f g)) :
    Tx.Within (Moves K) (Db.capabilityGrantsT.cas k p f hk hu e) :=
  cas_moves (fun _ _ => Moves.grantsTo) fun g hid hg => hf g hid hg

theorem grantUpdate_moves {p : CapabilityGrantRow → Bool} {f : CapabilityGrantRow → CapabilityGrantRow} {hk hu}
    (hf : ∀ g, p g = true → GrantKeeps K g (f g)) :
    Tx.Within (Moves K) (Db.capabilityGrantsT.update p f hk hu : Op Nat) := update_moves (fun _ _ => Moves.grantsTo) hf

theorem insertGrantRow_moves {row : CapabilityGrantRow} (h : NewGrant K row) :
    Tx.Within (Moves K) (Db.capabilityGrantsT.insert row e) :=
  insert_moves (fun _ _ => Moves.grantsTo) h

end

end AgentHub
