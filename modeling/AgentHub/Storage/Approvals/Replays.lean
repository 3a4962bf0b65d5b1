import AgentHub.Storage.CallMoves
import AgentHub.Storage.Runs.Scheduling
/-!
# A decision asked for again

Once an approval carries a decision no call writes it again, but for the digest a decision of an earlier
schema lacks. So the request it was made with is answered from the row, at any later time, and any other
request under its key is refused.
-/

namespace AgentHub

open Lib

theorem Decision.status_injective : Function.Injective Decision.status := by
  intro t t' h
  cases t <;> cases t' <;> first | rfl | cases h

/-- What `decide` checks before it looks at a row. -/
abbrev DecisionRequest.WellFormed (r : DecisionRequest) : Prop := 1 ≤ r.expectedVersion ∧ r.idempotencyKey ≠ ""

/-- The row of a decision, with its digest. -/
structure Recorded (K : ApprovalDigests) (r : DecisionRequest) (row : ApprovalRow) : Prop where
  status : row.status = r.target.status
  key : row.decisionIdempotencyKey = some r.idempotencyKey
  digest : row.decisionRequestSha256 = some (K.decisionRequest r)

/-- The row of a decision made before requests had digests. -/
structure Legacy (r : DecisionRequest) (row : ApprovalRow) : Prop where
  status : row.status = r.target.status
  key : row.decisionIdempotencyKey = some r.idempotencyKey
  actor : row.decisionActor = some r.actorId
  version : (row.version : Int) = r.expectedVersion + 1
  subject : row.subjectSha256 = r.confirmSubjectHash
  digest : row.decisionRequestSha256 = none

/-- The row with the digest its first exact replay leaves. -/
abbrev ApprovalRow.withDigest (row : ApprovalRow) (digest : String) : ApprovalRow :=
  { row with decisionRequestSha256 := some digest }

/-- Fill in the digest of an approval that has none; nothing else is written. -/
def Db.withDigest (db : Db) (approvalId digest : String) : Db :=
  { db with
    approvals := db.approvals.update (fun a => decide (a.id = approvalId) && decide (a.decisionRequestSha256 = none))
      (fun a => a.withDigest digest) (fun _ => rfl) (fun _ => rfl) }

section
variable {K : ApprovalDigests} {r r' : DecisionRequest} {row row' : ApprovalRow}

theorem Recorded.not_pending (h : Recorded K r row) : row.status ≠ .pending := by
  rw [h.status]
  exact r.target.status_ne_pending

theorem Legacy.not_pending (h : Legacy r row) : row.status ≠ .pending := by
  rw [h.status]
  exact r.target.status_ne_pending

theorem Legacy.recorded (h : Legacy r row) : Recorded K r (row.withDigest (K.decisionRequest r)) :=
  ⟨h.status, h.key, rfl⟩

/-- The columns of a legacy row say which request made it. -/
theorem Legacy.request (h : Legacy r row) (hid : r'.approvalId = r.approvalId) (h' : Legacy r' row) : r' = r := by
  obtain ⟨id, version, subject, target, actor, key⟩ := r
  obtain ⟨id', version', subject', target', actor', key'⟩ := r'
  have htarget : target' = target := Decision.status_injective (h'.status.symm.trans h.status)
  have hkey := h'.key.symm.trans h.key
  have hactor := h'.actor.symm.trans h.actor
  have hversion := h'.version.symm.trans h.version
  have hsubject := h'.subject.symm.trans h.subject
  dsimp only at hid hkey hactor hversion hsubject
  rw [DecisionRequest.mk.injEq]
  refine ⟨hid, ?_, hsubject, htarget, Option.some.inj hactor, Option.some.inj hkey⟩
  omega

end

/-! ## No call writes it again -/

section
variable {K : Powers} {r : DecisionRequest} {row row' : ApprovalRow}

theorem Recorded.step (h : Recorded K.digests r row) (hstep : ApprovalStep K row row') : False := by
  cases hstep with
  | decide _ _ _ _ hpending => exact h.not_pending hpending
  | backfill _ _ _ _ _ _ _ hnone => rw [h.digest] at hnone; cases hnone
  | close _ _ hpending => exact h.not_pending hpending

theorem Recorded.steps (h : Recorded K.digests r row) (hsteps : ApprovalSteps K row row') : row' = row := by
  induction hsteps with
  | refl => rfl
  | tail _ hstep ih => exact (h.step (ih ▸ hstep)).elim

/-- The one write a legacy row is open to is its digest. -/
theorem Legacy.step (h : Legacy r row) (hid : row.id = r.approvalId) (hstep : ApprovalStep K row row') :
    row' = row.withDigest (K.digests.decisionRequest r) := by
  cases hstep with
  | decide _ _ _ _ hpending => exact (h.not_pending hpending).elim
  | close _ _ hpending => exact (h.not_pending hpending).elim
  | backfill r' hid' hstatus hactor hversion hkey hsubject hnone =>
    have hsame : r' = r := h.request (hid'.symm.trans hid) ⟨hstatus, hkey, hactor, hversion, hsubject, hnone⟩
    rw [hsame]

theorem Legacy.steps (h : Legacy r row) (hid : row.id = r.approvalId) (hsteps : ApprovalSteps K row row') :
    row' = row ∨ row' = row.withDigest (K.digests.decisionRequest r) := by
  induction hsteps with
  | refl => exact .inl rfl
  | tail _ hstep ih =>
    rcases ih with rfl | rfl
    · exact .inr (h.step hid hstep)
    · exact (h.recorded.step hstep).elim

end

namespace ApprovalRepository

section
variable {repo : ApprovalRepository} {r r' : DecisionRequest} {row : ApprovalRow} {db : Db}

theorem nonEmpty_eq_some {o : Option String} {s : String} : nonEmpty o = some s ↔ o = some s ∧ s ≠ "" := by
  cases o <;> simp [nonEmpty]

theorem nonEmpty_of_ne {s : String} (h : s ≠ "") : nonEmpty (some s) = some s := nonEmpty_eq_some.2 ⟨rfl, h⟩

theorem digest_ne_empty (K : ApprovalDigests) (r : DecisionRequest) : K.decisionRequest r ≠ "" := by
  intro h
  have hlen := K.decisionRequest_length r
  rw [h] at hlen
  cases hlen

/-! ## What a replay answers -/

theorem digest_eq (h : Recorded repo.K r row) :
    (approvalRecord row).decisionRequestSha256 = some (repo.K.decisionRequest r) := by
  unfold approvalRecord
  rw [h.digest]
  exact nonEmpty_of_ne (digest_ne_empty _ _)

theorem replay_recorded (h : Recorded repo.K r row) :
    (replay repo r (approvalRecord row)).run db = .ok (approvalRecord row, db) := by
  unfold replay
  rw [digest_eq h]
  have hstatus : decide ((approvalRecord row).status = r.target.status) = true := decide_eq_true h.status
  dsimp only
  rw [Tx.run_bind_of_ok (Tx.ensure_ok.2 ⟨decide_eq_true rfl, rfl⟩), Tx.run_bind_of_ok (Tx.ensure_ok.2 ⟨hstatus, rfl⟩)]
  rfl

/-- Another request under the key is refused, unless it has the same digest. -/
theorem replay_recorded_conflict (h : Recorded repo.K r row) (hne : repo.K.decisionRequest r' ≠ repo.K.decisionRequest r) :
    ∃ message, (replay repo r' (approvalRecord row)).run db = .error (.idempotencyConflict message) := by
  unfold replay
  rw [digest_eq h]
  exact ⟨_, Tx.error_of_bind (Tx.ensure_error (decide_eq_false hne.symm))⟩

/-- The statement that fills in a digest, on a row that has none. -/
theorem cas_withDigest (digest : String) (g : ApprovalRow → Bool) (e : StorageError)
    (hrow : db.approvals.get? r.approvalId = some row) (hg : g row = true) (hnone : row.decisionRequestSha256 = none) :
    (Db.approvalsT.cas r.approvalId g (fun a => a.withDigest digest) (fun _ => rfl) (fun _ => rfl) e).run db =
      .ok ((), db.withDigest r.approvalId digest) := by
  apply TableRef.cas_ok.2
  refine ⟨⟨row, hrow, hg⟩, ?_⟩
  have hsame : g row = (fun a : ApprovalRow => decide (a.decisionRequestSha256 = none)) row :=
    hg.trans (decide_eq_true hnone).symm
  unfold Db.withDigest
  dsimp only
  rw [Table.update_key_congr hrow hsame.symm]

theorem get?_withDigest {digest : String} (hrow : db.approvals.get? r.approvalId = some row)
    (hnone : row.decisionRequestSha256 = none) :
    (db.withDigest r.approvalId digest).approvals.get? r.approvalId = some (row.withDigest digest) := by
  unfold Db.withDigest
  dsimp only
  rw [Table.get?_update_self hrow, if_pos (decide_eq_true hnone)]

theorem legacy_digest (h : Legacy r row) : (approvalRecord row).decisionRequestSha256 = none := by
  unfold approvalRecord
  rw [h.digest]
  rfl

/-- The first exact replay of a legacy decision fills in its digest. -/
theorem replay_legacy (h : Legacy r row) (hactor : r.actorId ≠ "") (hrow : db.approvals.get? r.approvalId = some row) :
    (replay repo r (approvalRecord row)).run db = .ok (approvalRecord (row.withDigest (repo.K.decisionRequest r)),
      db.withDigest r.approvalId (repo.K.decisionRequest r)) := by
  have hactor : (approvalRecord row).decisionActor = some r.actorId := nonEmpty_eq_some.2 ⟨h.actor, hactor⟩
  have hstatus : (approvalRecord row).status = r.target.status := h.status
  have hdecided : (approvalRecord row).status = .approved ∨ (approvalRecord row).status = .rejected := by
    rw [hstatus]
    cases r.target
    · exact .inl rfl
    · exact .inr rfl
  unfold replay
  rw [legacy_digest h]
  dsimp only
  unfold backfill
  rw [Tx.run_bind_of_ok (Tx.ensure_ok.2 ⟨decide_eq_true ⟨hdecided, hstatus, hactor, h.version, h.subject⟩, rfl⟩)]
  have hwrite := cas_withDigest (repo.K.decisionRequest r) (fun a => decide (a.status = row.status ∧
      a.version = row.version ∧ a.decisionActor = some r.actorId ∧ a.decisionIdempotencyKey = some r.idempotencyKey ∧
      a.subjectSha256 = r.confirmSubjectHash ∧ a.decisionRequestSha256 = none))
    (.idempotencyConflict "legacy approval idempotency backfill lost its CAS") hrow
    (decide_eq_true ⟨rfl, rfl, h.actor, h.key, h.subject, h.digest⟩) h.digest
  refine Eq.trans (Tx.run_bind_of_ok hwrite) ?_
  rw [Tx.run_bind_of_ok (TableRef.select_ok.2 rfl),
    Tx.run_bind_of_ok (Tx.require_ok.2 ⟨get?_withDigest hrow h.digest, rfl⟩)]
  rfl

/-- A legacy row refuses any other request under its key by the columns it has. -/
theorem replay_legacy_conflict (h : Legacy r row) (hid : r'.approvalId = r.approvalId)
    (hkey : r'.idempotencyKey = r.idempotencyKey) (hne : r' ≠ r) :
    ∃ message, (replay repo r' (approvalRecord row)).run db = .error (.idempotencyConflict message) := by
  unfold replay
  rw [legacy_digest h]
  refine ⟨_, Tx.error_of_bind (Tx.ensure_error (decide_eq_false ?_))⟩
  rintro ⟨-, hstatus, hactor, hversion, hsubject⟩
  have hactor : row.decisionActor = some r'.actorId := (nonEmpty_eq_some.1 hactor).1
  exact hne (h.request hid ⟨hstatus, by rw [hkey]; exact h.key, hactor, hversion, hsubject, h.digest⟩)

section
variable {ord : RowOrder} {lease : MasterLease} {now : Instant} (hr : r.WellFormed)
  (hlease : MasterLeaseRepository.repo.Holds lease now db) (hrow : db.approvals.get? r.approvalId = some row)
include hr hlease hrow

/-- A decision by the holder of the master lease runs on the row of its approval. -/
theorem decide_run : (repo.decide ord r lease now).run db =
    (if row.status ≠ .pending ∧ (approvalRecord row).decisionIdempotencyKey = some r.idempotencyKey then
      replay repo r (approvalRecord row) else decideNew repo ord r (approvalRecord row) lease now).run db := by
  have hvalid : (MasterLeaseRepository.assertValidIn lease now).run db = .ok ((), db) :=
    MasterLeaseRepository.assertValidIn_ok.2 ⟨hlease, rfl⟩
  have hselect : (selectApproval r.approvalId).run db = .ok (row, db) := by
    unfold selectApproval
    rw [Tx.run_bind_of_ok (TableRef.select_ok.2 rfl)]
    exact Tx.require_ok.2 ⟨hrow, rfl⟩
  unfold ApprovalRepository.decide
  rw [Tx.run_bind_of_ok (Tx.ensure_ok.2 ⟨decide_eq_true hr, rfl⟩), Tx.run_bind_of_ok hvalid, Tx.run_bind_of_ok hselect]
  rfl

/-- A decided approval asked for under its key is answered by `replay`. -/
theorem decide_run_replay (hdecided : row.status ≠ .pending) (hkey : row.decisionIdempotencyKey = some r.idempotencyKey) :
    (repo.decide ord r lease now).run db = (replay repo r (approvalRecord row)).run db := by
  rw [decide_run hr hlease hrow, if_pos ⟨hdecided, nonEmpty_eq_some.2 ⟨hkey, hr.2⟩⟩]

/-- A request that confirms another subject is refused before anything else is looked at. -/
theorem decide_run_subject (hpending : row.status = .pending) (hsubject : row.subjectSha256 ≠ r.confirmSubjectHash) :
    (repo.decide ord r lease now).run db = .error (.concurrencyConflict "approval subject hash does not match") := by
  rw [decide_run hr hlease hrow, if_neg fun h => h.1 hpending]
  unfold decideNew checkDecision
  exact Tx.error_of_bind (Tx.error_of_bind (Tx.ensure_error (decide_eq_false hsubject)))

end

/-! ## What a decision leaves -/

theorem replay_leaves {a : ApprovalRow} {db' : Db} (hrow : db.approvals.get? r.approvalId = some row)
    (hkey : (approvalRecord row).decisionIdempotencyKey = some r.idempotencyKey)
    (h : (replay repo r (approvalRecord row)).run db = .ok (a, db')) :
    ∃ row', db'.approvals.get? r.approvalId = some row' ∧ Recorded repo.K r row' ∧ a = approvalRecord row' := by
  have hkey : row.decisionIdempotencyKey = some r.idempotencyKey := (nonEmpty_eq_some.1 hkey).1
  unfold replay at h
  split at h
  · simp only [backfill, StateT.run_bind, Tx.bind_ok, Tx.ensure_ok, Tx.require_ok, TableRef.select_ok, StateT.run_pure,
      Tx.pure_ok] at h
    obtain ⟨_, ⟨hlegacy, rfl⟩, ⟨_, s⟩, hwrite, _, rfl, ⟨row', _⟩, ⟨hrow', rfl⟩, h⟩ := h
    obtain ⟨rfl, rfl⟩ := Prod.mk.inj h
    obtain ⟨-, hstatus, -⟩ := of_decide_eq_true hlegacy
    obtain ⟨old, hold, -, hnew, -⟩ := TableRef.cas_writes hwrite
    obtain rfl : old = row := Option.some.inj (hold.symm.trans hrow)
    obtain rfl := Option.some.inj (hrow'.symm.trans hnew)
    exact ⟨_, hrow', ⟨hstatus, hkey, rfl⟩, rfl⟩
  · next stored hstored =>
    simp only [StateT.run_bind, Tx.bind_ok, Tx.ensure_ok, StateT.run_pure, Tx.pure_ok] at h
    obtain ⟨_, ⟨hdigest, rfl⟩, _, ⟨hstatus, rfl⟩, h⟩ := h
    obtain ⟨rfl, rfl⟩ := Prod.mk.inj h
    have hstored : row.decisionRequestSha256 = some stored := (nonEmpty_eq_some.1 hstored).1
    rw [of_decide_eq_true hdigest] at hstored
    exact ⟨row, hrow, ⟨of_decide_eq_true hstatus, hkey, hstored⟩, rfl⟩

theorem decidePending_leaves {ord : RowOrder} {current : ApprovalRow} {lease : MasterLease} {now : Instant}
    {a : ApprovalRow} {db' : Db} (h : (decidePending repo ord r current lease now).run db = .ok (a, db')) :
    ∃ row', db'.approvals.get? r.approvalId = some row' ∧ Recorded repo.K r row' ∧ a = approvalRecord row' := by
  simp only [decidePending, recordDecision, StateT.run_bind, Tx.bind_ok, Tx.ensure_ok, Tx.require_ok,
    TableRef.select_ok, StateT.run_pure, Tx.pure_ok] at h
  obtain ⟨⟨_, db₁⟩, ⟨_, -, hrecord⟩, ⟨_, db₂⟩, hsubject, ⟨_, db₃⟩, hadvance, r₃, hr₃, ⟨fresh, s₃⟩, ⟨hfresh, hs₃⟩,
    ⟨_, db₄⟩, hevent, h⟩ := h
  obtain rfl : s₃ = r₃.2 := hs₃
  subst hr₃
  obtain ⟨rfl, rfl⟩ := Prod.mk.inj h
  obtain ⟨old, -, -, hnew, -⟩ := TableRef.cas_writes hrecord
  have hrecorded : Recorded repo.K r { old with
      status := r.target.status, version := old.version + 1, decisionActor := some r.actorId,
      decisionIdempotencyKey := some r.idempotencyKey, decisionRequestSha256 := some (repo.K.decisionRequest r),
      decidedAt := some (utcNowText now) } := ⟨rfl, rfl, rfl⟩
  have hmoves : Moves (.all repo.K) db₁ db₃ :=
    trans_of (Moves _) (decideSubject_moves (fun _ _ => trivial) _ _ _ _ hsubject) (advance_moves _ _ _ _ _ _ _ _ _ hadvance)
  obtain ⟨kept, hkept, hsteps⟩ := hmoves.approvals.kept _ _ hnew
  obtain rfl : kept = fresh := Option.some.inj (hkept.symm.trans hfresh)
  obtain rfl := hrecorded.steps hsteps
  have hquiet : Moves (.all repo.K) db₃ _ := appendApprovalEvent_moves _ _ _ hevent
  obtain ⟨last, hlast, hsteps⟩ := hquiet.approvals.kept _ _ hkept
  obtain rfl := hrecorded.steps hsteps
  exact ⟨_, hlast, hrecorded, rfl⟩

/-- A decision that returned left its record, and returned it. -/
theorem decide_leaves {ord : RowOrder} {lease : MasterLease} {now : Instant} {a : ApprovalRow} {db' : Db}
    (h : (repo.decide ord r lease now).run db = .ok (a, db')) : r.WellFormed ∧
      ∃ row', db'.approvals.get? r.approvalId = some row' ∧ Recorded repo.K r row' ∧ a = approvalRecord row' := by
  obtain ⟨hversion, hkey, row, hrow, ⟨-, hsame, h⟩ | ⟨-, -, -, -, -, h⟩⟩ := decide_ok h
  · exact ⟨⟨hversion, hkey⟩, replay_leaves hrow hsame h⟩
  · exact ⟨⟨hversion, hkey⟩, decidePending_leaves h⟩

/-! ## At any later time -/

/-- In `db` the request is answered with `a`, which leaves `db'`, and any other request for its approval under
its key is refused. -/
structure Settled (repo : ApprovalRepository) (r : DecisionRequest) (a : ApprovalRow) (db db' : Db) : Prop where
  replayed : ∀ ord lease now, MasterLeaseRepository.repo.Holds lease now db →
    Tx.commit (repo.decide ord r lease now) db = (.ok a, db')
  refused : ∀ ord lease now r', MasterLeaseRepository.repo.Holds lease now db → r'.WellFormed →
    r'.approvalId = r.approvalId → r'.idempotencyKey = r.idempotencyKey → r' ≠ r →
    repo.K.decisionRequest r' ≠ repo.K.decisionRequest r →
    ∃ message, Tx.commit (repo.decide ord r' lease now) db = (.error (.idempotencyConflict message), db)

theorem recorded_settled (h : Recorded repo.K r row) (hr : r.WellFormed)
    (hrow : db.approvals.get? r.approvalId = some row) : Settled repo r (approvalRecord row) db db where
  replayed ord lease now hlease := by
    apply Tx.commit_of_ok
    rw [decide_run_replay hr hlease hrow h.not_pending h.key]
    exact replay_recorded h
  refused ord lease now r' hlease hr' hid hkey _ hdigest := by
    have hreplay : ∃ message, (replay repo r' (approvalRecord row)).run db = .error (.idempotencyConflict message) :=
      replay_recorded_conflict h hdigest
    obtain ⟨message, hreplay⟩ := hreplay
    refine ⟨message, Tx.commit_of_error ?_⟩
    rw [decide_run_replay hr' hlease (by rw [hid]; exact hrow) h.not_pending (by rw [hkey]; exact h.key)]
    exact hreplay

theorem legacy_settled (h : Legacy r row) (hr : r.WellFormed) (hactor : r.actorId ≠ "")
    (hrow : db.approvals.get? r.approvalId = some row) : Settled repo r
      (approvalRecord (row.withDigest (repo.K.decisionRequest r))) db (db.withDigest r.approvalId (repo.K.decisionRequest r)) where
  replayed ord lease now hlease := by
    apply Tx.commit_of_ok
    rw [decide_run_replay hr hlease hrow h.not_pending h.key]
    exact replay_legacy h hactor hrow
  refused ord lease now r' hlease hr' hid hkey hne _ := by
    have hreplay : ∃ message, (replay repo r' (approvalRecord row)).run db = .error (.idempotencyConflict message) :=
      replay_legacy_conflict h hid hkey hne
    obtain ⟨message, hreplay⟩ := hreplay
    refine ⟨message, Tx.commit_of_error ?_⟩
    rw [decide_run_replay hr' hlease (by rw [hid]; exact hrow) h.not_pending (by rw [hkey]; exact h.key)]
    exact hreplay

/-- A decision answers its request for good: whatever is committed after it, the same request returns what was
stored and writes nothing, and another request under its key is refused. A decision of an earlier schema does so
too, and the first exact replay leaves its digest. -/
theorem decide_idempotent (repo : ApprovalRepository) (r : DecisionRequest) {db db' : Db} (hrun : StoreRun repo db db') :
    (∀ ord lease now db₀ a, Tx.commit (repo.decide ord r lease now) db₀ = (.ok a, db) → Settled repo r a db' db') ∧
      ∀ row, db.approvals.get? r.approvalId = some row → Legacy r row → r.WellFormed → r.actorId ≠ "" →
        Settled repo r (approvalRecord (row.withDigest (repo.K.decisionRequest r))) db'
          (db'.withDigest r.approvalId (repo.K.decisionRequest r)) := by
  constructor
  · intro ord lease now db₀ a h
    obtain ⟨hr, row, hrow, hrecorded, rfl⟩ := decide_leaves (Tx.commit_ok h)
    obtain ⟨row', hrow', hsteps⟩ := hrun.moves.approvals.kept _ _ hrow
    obtain rfl := hrecorded.steps hsteps
    exact recorded_settled hrecorded hr hrow'
  · intro row hrow hlegacy hr hactor
    obtain ⟨row', hrow', hsteps⟩ := hrun.moves.approvals.kept _ _ hrow
    rcases hlegacy.steps (Table.get?_key hrow) hsteps with rfl | rfl
    · exact legacy_settled hlegacy hr hactor hrow'
    · -- Some call has replayed it since: the digest is there, and filling it in writes nothing.
      have hsame : db'.withDigest r.approvalId (repo.K.decisionRequest r) = db' := by
        unfold Db.withDigest
        rw [Table.update_key_of_false hrow' (decide_eq_false (by simp))]
      rw [hsame]
      exact recorded_settled hlegacy.recorded hr hrow'

end

/-! ## A sample decision -/

def sampleApprovals : ApprovalRepository where
  H := sampleDigests
  K := ⟨fun r => String.ofList (List.replicate 64 (if r.expectedVersion = 1 then 'a' else 'b')), fun _ => by simp,
    fun _ _ _ _ => "g"⟩
  runs := true
  positive := by decide

def sampleRequest : DecisionRequest := ⟨"first", 1, "subject", .approved, "user", "key"⟩

/-- The same request, but for its approval. -/
def sampleElsewhere : DecisionRequest := { sampleRequest with approvalId := "second" }

/-- Two approvals, the first decided under `key` and the second pending. -/
def decidedDb : Db :=
  let row : ApprovalRow := ⟨"first", "r", "rwrite", .changeSet, some "c", none, "subject", some "0", some "p", "e", .l1,
    [], .approved, 2, some "user", some "key", some (sampleApprovals.K.decisionRequest sampleRequest), "0002", some "", ""⟩
  { sampleDb with approvals := ⟨[row, { row with
      id := "second", subjectSha256 := "other", status := .pending, version := 1, decisionActor := none,
      decisionIdempotencyKey := none, decisionRequestSha256 := none, decidedAt := none }], by decide, by decide⟩ }

theorem decidedDb_holds : MasterLeaseRepository.repo.Holds sampleLease sampleNow decidedDb := by
  rw [MasterLeaseRepository.repo_holds_iff]
  exact ⟨⟨"m", "i", 1, 1, "", "0002"⟩, rfl, by decide +kernel⟩

theorem decidedDb_replays : ∃ a, Tx.commit (sampleApprovals.decide .table sampleRequest sampleLease sampleNow) decidedDb =
    (.ok a, decidedDb) := by
  have hrow : ∃ row, decidedDb.approvals.get? "first" = some row ∧ Recorded sampleApprovals.K sampleRequest row :=
    ⟨_, rfl, rfl, rfl, rfl⟩
  obtain ⟨row, hrow, hrecorded⟩ := hrow
  exact ⟨_, (recorded_settled hrecorded ⟨by decide, by decide⟩ hrow).replayed _ _ _ decidedDb_holds⟩

theorem decide_idempotent_sample : ∃ a, Settled sampleApprovals sampleRequest a decidedDb decidedDb :=
  let ⟨a, h⟩ := decidedDb_replays
  ⟨a, (decide_idempotent sampleApprovals sampleRequest .refl).1 _ _ _ _ a h⟩

/-- A key belongs to an approval: under the key of a decision, a request that differs in its approval alone is
checked against that approval, and the digest it names is the wrong one. -/
theorem decide_key_elsewhere : ¬ ∀ (repo : ApprovalRepository) (ord : RowOrder) (r r' : DecisionRequest)
    (lease : MasterLease) (now : Instant) (db db' : Db) (a : ApprovalRow),
    Tx.commit (repo.decide ord r lease now) db = (.ok a, db') → r'.idempotencyKey = r.idempotencyKey → r' ≠ r →
      ∃ message, Tx.commit (repo.decide ord r' lease now) db' = (.error (.idempotencyConflict message), db') := by
  intro h
  obtain ⟨a, hreplay⟩ := decidedDb_replays
  obtain ⟨message, hconflict⟩ := h _ _ _ sampleElsewhere _ _ _ _ _ hreplay rfl (by decide)
  have hrow : ∃ row, decidedDb.approvals.get? "second" = some row ∧ row.status = .pending ∧ row.subjectSha256 = "other" :=
    ⟨_, rfl, rfl, rfl⟩
  obtain ⟨row, hrow, hpending, hsubject⟩ := hrow
  have hother : (sampleApprovals.decide .table sampleElsewhere sampleLease sampleNow).run decidedDb = _ :=
    decide_run_subject ⟨by decide, by decide⟩ decidedDb_holds hrow hpending (by rw [hsubject]; decide)
  rw [Tx.commit_of_error hother] at hconflict
  cases hconflict

end ApprovalRepository

end AgentHub
