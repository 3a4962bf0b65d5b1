import AgentHub.Storage.Approvals.Replays
/-!
# Approvals and their ChangeSets

An approved ChangeSet has an approval of the same base commit and patch, decided in time. `create` does not
compare what it is handed with the ChangeSet, so this holds of the runs whose new approvals match theirs.
-/

namespace AgentHub

open Lib

/-- The CHECK of the table: an approval is of a ChangeSet or of a privilege request. -/
def ApprovalRow.Kinded (a : ApprovalRow) : Prop :=
  (a.subjectType = .changeSet ∧ a.changeSetId ≠ none ∧ a.privilegeRequestId = none) ∨
    (a.subjectType = .privilegeRequest ∧ a.changeSetId = none ∧ a.privilegeRequestId ≠ none)

/-- What holds of an approval by itself. -/
structure ApprovalRow.Lawful (a : ApprovalRow) : Prop where
  kind : a.Kinded
  version : a.version = if a.status = .pending then 1 else 2
  decided : a.status = .approved → ∃ time, a.decidedAt = some time ∧ time < a.expiresAt
  risk : a.effectiveRisk ≠ .l4

/-- The approval covers the base commit and the patch of the ChangeSet. -/
def ApprovalRow.Covers (a : ApprovalRow) (c : ChangeSetRow) : Prop :=
  a.changeSetId = some c.id ∧ a.baseCommit = some c.baseCommit ∧ a.patchSha256 = some c.patchSha256

structure ApprovalLaw (db : Db) : Prop where
  rows : ∀ a ∈ db.approvals.rows, a.Lawful
  subject : ∀ a ∈ db.approvals.rows, a.subjectType = .changeSet → ∃ c ∈ db.changeSets.rows, a.Covers c
  single : ∀ a ∈ db.approvals.rows, ∀ b ∈ db.approvals.rows, a.status = .pending → b.status = .pending →
    a.changeSetId ≠ none → a.changeSetId = b.changeSetId → a = b
  approved : ∀ c ∈ db.changeSets.rows, c.status = .approved →
    ∃ a ∈ db.approvals.rows, a.changeSetId = some c.id ∧ a.status = .approved

/-- An approved ChangeSet has an approval that covers it and was decided before it expired. -/
def SubjectsAgree (db : Db) : Prop :=
  ∀ c ∈ db.changeSets.rows, c.status = .approved → ∃ a ∈ db.approvals.rows, a.Covers c ∧ a.status = .approved ∧
    ∃ time, a.decidedAt = some time ∧ time < a.expiresAt

theorem ApprovalLaw.agree {db : Db} (h : ApprovalLaw db) : SubjectsAgree db := by
  intro c hc happroved
  obtain ⟨a, ha, hid, hstatus⟩ := h.approved c hc happroved
  have hkind : a.subjectType = .changeSet := by
    rcases (h.rows a ha).kind with hk | hk
    · exact hk.1
    · rw [hk.2.1] at hid
      cases hid
  obtain ⟨c', hc', hcovers⟩ := h.subject a ha hkind
  have hsame : c'.id = c.id := Option.some.inj (hcovers.1.symm.trans hid)
  have hget := Table.get?_of_mem hc'
  rw [hsame, Table.get?_of_mem hc] at hget
  obtain rfl := Option.some.inj hget
  exact ⟨a, ha, hcovers, hstatus, (h.rows a ha).decided hstatus⟩

/-! ## One approval -/

theorem ApprovalRow.Lawful.step {K : Powers} {a a' : ApprovalRow} (h : a.Lawful) (hstep : ApprovalStep K a a') :
    a'.Lawful := by
  cases hstep with
  | decide r now hid _ hpending hversion hsubject hexpiry =>
    have hone := h.version
    rw [if_pos hpending] at hone
    exact ⟨h.kind, by simp [hone, r.target.status_ne_pending], fun _ => ⟨_, rfl, hexpiry⟩, h.risk⟩
  | backfill => exact ⟨h.kind, h.version, h.decided, h.risk⟩
  | close status now hpending hstatus =>
    have hone := h.version
    rw [if_pos hpending] at hone
    refine ⟨h.kind, ?_, fun happroved => ?_, h.risk⟩
    · rcases hstatus with rfl | rfl <;> simp [hone]
    · rcases hstatus with rfl | rfl <;> cases happroved

theorem ApprovalRow.Lawful.steps {K : Powers} {a a' : ApprovalRow} (h : a.Lawful) (hsteps : ApprovalSteps K a a') :
    a'.Lawful := by
  induction hsteps with
  | refl => exact h
  | tail _ hstep ih => exact ih.step hstep

/-- Two approvals with the same terms have the same subject. -/
theorem subject_of_terms {a a' : ApprovalRow} (h : a'.terms = a.terms) : a'.subjectType = a.subjectType ∧
    a'.changeSetId = a.changeSetId ∧ a'.baseCommit = a.baseCommit ∧ a'.patchSha256 = a.patchSha256 := by
  simp only [ApprovalRow.terms, Prod.mk.injEq] at h
  obtain ⟨-, ⟨htype, hid, -⟩, -, ⟨hbase, hpatch⟩, -⟩ := h
  exact ⟨htype, hid, hbase, hpatch⟩

theorem ApprovalRow.Covers.of_terms {a a' : ApprovalRow} {c c' : ChangeSetRow} (h : a.Covers c)
    (hterms : a'.terms = a.terms) (hsubject : c'.subject = c.subject) : a'.Covers c' := by
  obtain ⟨-, hid, hbase, hpatch⟩ := subject_of_terms hterms
  simp only [ChangeSetRow.subject, Prod.mk.injEq] at hsubject
  obtain ⟨hc, -, hcb, hcp⟩ := hsubject
  exact ⟨by rw [hid, hc]; exact h.1, by rw [hbase, hcb]; exact h.2.1, by rw [hpatch, hcp]; exact h.2.2⟩

/-! ## One commit -/

/-- A new approval keeps the law: it covers its ChangeSet, and no pending one does. -/
structure Fits (db : Db) (row : ApprovalRow) : Prop where
  kind : row.subjectType = .changeSet ∧ row.changeSetId ≠ none ∧ row.privilegeRequestId = none
  covers : ∃ c ∈ db.changeSets.rows, row.Covers c
  alone : ∀ a ∈ db.approvals.rows, a.status = .pending → a.changeSetId ≠ row.changeSetId

section
variable {K : Powers} {db db' : Db}

/-- Where an approval after a commit came from. -/
theorem Moves.approval_cases (h : Moves K db db') {a' : ApprovalRow} (ha' : a' ∈ db'.approvals.rows) :
    (∃ a ∈ db.approvals.rows, ApprovalSteps K a a') ∨ ∃ a, NewApproval K a ∧ ApprovalSteps K a a' := h.approvals.origin ha'

theorem Moves.approval_kept (h : Moves K db db') {a : ApprovalRow} (ha : a ∈ db.approvals.rows) :
    ∃ a' ∈ db'.approvals.rows, ApprovalSteps K a a' := h.approvals.keeps ha

theorem Moves.changeSet_kept (h : Moves K db db') {c : ChangeSetRow} (hc : c ∈ db.changeSets.rows) :
    ∃ c' ∈ db'.changeSets.rows, ChangeSetKeeps K c c' := h.changeSets.keeps hc

/-- What keeps the law: new approvals fit, there is at most one, and a ChangeSet is approved with its approval. -/
theorem ApprovalLaw.moved (h : ApprovalLaw db) (hmoves : Moves K db db') (hfits : ∀ row, K.opens row → Fits db row)
    (hone : ∀ row row', K.opens row → K.opens row' → row = row')
    (happrove : ∀ id, K.approves id .approved → ∃ a ∈ db'.approvals.rows, a.changeSetId = some id ∧ a.status = .approved) :
    ApprovalLaw db' where
  rows a' ha' := by
    rcases hmoves.approval_cases ha' with ⟨a, ha, hsteps⟩ | ⟨a, hnew, hsteps⟩
    · exact (h.rows a ha).steps hsteps
    · have hkind := (hfits a hnew.power).kind
      have hlawful : a.Lawful := by
        refine ⟨.inl hkind, by rw [hnew.status, hnew.version]; rfl, fun happroved => ?_, hnew.risk⟩
        rw [hnew.status] at happroved
        cases happroved
      exact hlawful.steps hsteps
  subject a' ha' hkind := by
    have hcovers : ∃ a c, ApprovalSteps K a a' ∧ c ∈ db.changeSets.rows ∧ a.Covers c := by
      rcases hmoves.approval_cases ha' with ⟨a, ha, hsteps⟩ | ⟨a, hnew, hsteps⟩
      · obtain ⟨c, hc, hcovers⟩ := h.subject a ha ((subject_of_terms hsteps.terms).1 ▸ hkind)
        exact ⟨a, c, hsteps, hc, hcovers⟩
      · obtain ⟨c, hc, hcovers⟩ := (hfits a hnew.power).covers
        exact ⟨a, c, hsteps, hc, hcovers⟩
    obtain ⟨a, c, hsteps, hc, hcovers⟩ := hcovers
    obtain ⟨c', hc', hkeeps⟩ := hmoves.changeSet_kept hc
    exact ⟨c', hc', hcovers.of_terms hsteps.terms hkeeps.same⟩
  single a' ha' b' hb' hap hbp hid hsame := by
    -- A pending approval has not moved, so it was there before or is the new one.
    rcases hmoves.approval_cases ha' with ⟨a, ha, hsteps⟩ | ⟨a, hnew, hsteps⟩ <;>
      rcases hmoves.approval_cases hb' with ⟨b, hb, hsteps'⟩ | ⟨b, hnew', hsteps'⟩ <;>
      obtain rfl := hsteps.of_pending hap <;> obtain rfl := hsteps'.of_pending hbp
    · exact h.single _ ha _ hb hap hbp hid hsame
    · exact absurd hsame ((hfits _ hnew'.power).alone _ ha hap)
    · exact absurd hsame.symm ((hfits _ hnew.power).alone _ hb hbp)
    · exact hone _ _ hnew.power hnew'.power
  approved c' hc' hstatus := by
    have hclosed : c'.status.isApproved = true := by rw [hstatus]; rfl
    -- Its status now is its status then, or the commit approved it.
    have happroved : ∀ c, ChangeSetKeeps K c c' → (c'.status = c.status → ∃ a ∈ db'.approvals.rows,
        a.changeSetId = some c.id ∧ a.status = .approved) → ∃ a ∈ db'.approvals.rows, a.changeSetId = some c'.id ∧
          a.status = .approved := by
      intro c hkeeps hsame
      have hid : c'.id = c.id := (Prod.mk.inj hkeeps.same).1
      rw [hid]
      rcases hkeeps.approved hclosed with hc | hpower
      · exact hsame hc
      · rw [hstatus] at hpower
        exact happrove _ hpower
    rcases hmoves.changeSets.origin hc' with ⟨c, hc, hkeeps⟩ | ⟨c, hnew, hkeeps⟩
    · refine happroved c hkeeps fun hsame => ?_
      obtain ⟨a, ha, haid, happroved⟩ := h.approved c hc (hsame.symm.trans hstatus)
      obtain ⟨a', ha', hsteps⟩ := hmoves.approval_kept ha
      have hended := hsteps.ended (by rw [happroved]; simp)
      refine ⟨a', ha', ?_, (Prod.mk.inj hended).1.trans happroved⟩
      rw [(subject_of_terms hsteps.terms).2.1]
      exact haid
    · refine happroved c hkeeps fun hsame => ?_
      have hnot : c.status.isApproved = false := hnew
      rw [← hsame, hclosed] at hnot
      cases hnot

end

/-! ## One call -/

namespace ApprovalRepository

/-- No pending approval has the subject of the row. -/
def Alone (db : Db) (row : ApprovalRow) : Prop :=
  ∀ a ∈ db.approvals.rows, a.status = .pending → a.subjectType = row.subjectType → a.changeSetId = row.changeSetId →
    a.privilegeRequestId ≠ row.privilegeRequestId

theorem insertApproval_ok {row : ApprovalRow} {db : Db} {r : Unit × Db} (h : (insertApproval row).run db = .ok r) :
    Alone db row := by
  simp only [insertApproval, StateT.run_bind, Tx.bind_ok, Tx.ensure_ok, Tx.read_ok] at h
  obtain ⟨_, ⟨-, rfl⟩, _, rfl, _, ⟨hpending, rfl⟩, -⟩ := h
  intro a ha hap hkind hid hrequest
  have hany : subjectPending db row = true := by
    unfold subjectPending
    rw [List.any_eq_true]
    exact ⟨a, ha, by simp [hap, hkind, hid, hrequest]⟩
  rw [hany] at hpending
  cases hpending

/-- The row of an approval that covers its ChangeSet and is alone with it. -/
theorem changeSetRow_fits {approval : ChangeSetApproval} {key : Option String} {now : Instant} {db : Db}
    (hlaw : ApprovalLaw db) (halone : Alone db (changeSetRow approval key now)) {c : ChangeSetRow}
    (hc : db.changeSets.get? approval.changeSetId = some c) (hbase : approval.baseCommit = c.baseCommit)
    (hpatch : approval.patchSha256 = c.patchSha256) : Fits db (changeSetRow approval key now) where
  kind := ⟨rfl, by simp [changeSetRow], rfl⟩
  covers := by
    refine ⟨c, Table.mem_of_get? hc, ?_, ?_, ?_⟩
    · exact congrArg some (Table.get?_key hc).symm
    · exact congrArg some hbase
    · exact congrArg some hpatch
  alone a ha hpending hsame := by
    have hid : a.changeSetId ≠ none := by
      rw [hsame]
      simp [changeSetRow]
    rcases (hlaw.rows a ha).kind with ⟨htype, -, hrequest⟩ | ⟨-, hnone, -⟩
    · exact halone a ha hpending htype hsame hrequest
    · exact hid hnone

theorem prepareSubject_ok {approval : ChangeSetApproval} {now : Instant} {db db' : Db} {u : Unit}
    (h : (prepareSubject approval now).run db = .ok (u, db')) :
    (∃ c, db.changeSets.get? approval.changeSetId = some c) ∧ db'.approvals = db.approvals := by
  simp only [prepareSubject, StateT.run_bind, Tx.bind_ok, Tx.ensure_ok, Tx.require_ok, Tx.read_ok] at h
  obtain ⟨_, rfl, ⟨⟨c, run⟩, _⟩, ⟨hrow, rfl⟩, _, ⟨-, rfl⟩, _, ⟨-, rfl⟩, h⟩ := h
  obtain ⟨c', hc, -⟩ := Option.bind_eq_some_iff.1 hrow
  refine ⟨⟨c', hc⟩, ?_⟩
  unfold awaitApproval at h
  split at h
  · obtain ⟨-, hs⟩ := TableRef.cas_ok.1 h
    rw [(Prod.mk.inj hs).2]
  · rw [(Prod.mk.inj (Tx.pure_ok.1 h)).2]

/-- A new approval that returned: the stored pending one, or a row inserted for a ChangeSet. -/
theorem create_ok {approval : Approval} {lease : MasterLease} {key : Option String} {now : Instant} {db db' : Db}
    {a : ApprovalRow} (h : (create approval lease key now).run db = .ok (a, db')) :
    db' = db ∨ ∃ new, approval = .changeSet new ∧ (∃ c, db.changeSets.get? new.changeSetId = some c) ∧
      Alone db (changeSetRow new key now) := by
  simp only [create, StateT.run_bind, Tx.bind_ok, Tx.ensure_ok, Tx.read_ok] at h
  obtain ⟨_, ⟨-, rfl⟩, _, ⟨-, rfl⟩, ⟨_, s⟩, hlease, _, rfl, h⟩ := h
  obtain rfl : s = db := assertMaster_readOnly _ _ _ _ hlease
  dsimp only at h
  split at h
  · exact .inl (samePending_readOnly _ _ _ _ h)
  · unfold createNew at h
    rw [StateT.run_bind, Tx.bind_ok] at h
    obtain ⟨⟨_, s⟩, howner, h⟩ := h
    obtain rfl : s = _ := assertOwner_readOnly _ _ _ howner
    cases approval with
    | privilege new => exact (Tx.fail_ok.1 h).elim
    | changeSet new =>
      dsimp only at h
      rw [StateT.run_bind, Tx.bind_ok] at h
      obtain ⟨⟨_, db₁⟩, hprepare, h⟩ := h
      rw [StateT.run_bind, Tx.bind_ok] at h
      obtain ⟨_, hinsert, -⟩ := h
      obtain ⟨hc, hsame⟩ := prepareSubject_ok hprepare
      have halone := insertApproval_ok hinsert
      unfold Alone at halone
      rw [hsame] at halone
      exact .inr ⟨new, rfl, hc, halone⟩

/-- A renewal that returned inserted a row that fits: it repeats what the old approval covered. -/
theorem renewChangeset_fits {oldId : String} {version : Int} {hash : String} {new : ChangeSetApproval}
    {lease : MasterLease} {now : Instant} {db db' : Db} {a : ApprovalRow} (hlaw : ApprovalLaw db)
    (h : (renewChangeset oldId version hash new lease now).run db = .ok (a, db')) :
    Fits db (changeSetRow new none now) := by
  obtain ⟨old, hold, hrenewable, hrenewal, _, hinsert, -⟩ := renewChangeset_ok h
  have hkind : old.subjectType = .changeSet := (checkRenewable_ok hrenewable).1
  obtain ⟨hid, hbase, hpatch, -, -, -, -, -⟩ := checkRenewal_ok hrenewal
  obtain ⟨c, hc, hcid, hcbase, hcpatch⟩ := hlaw.subject old (Table.mem_of_get? hold) hkind
  have hnew : new.changeSetId = c.id := by
    rw [hid]
    unfold approvalRecord
    rw [hcid]
    rfl
  refine changeSetRow_fits hlaw (insertApproval_ok hinsert) (by rw [hnew]; exact Table.get?_of_mem hc) ?_ ?_
  · rw [hbase]
    unfold approvalRecord
    rw [hcbase]
    rfl
  · rw [hpatch]
    unfold approvalRecord
    rw [hcpatch]
    rfl

end ApprovalRepository

/-- What a call respects when it keeps the law: a new approval carries the base commit and the patch of its
ChangeSet, and no ChangeSet is moved to approved without a decision. -/
def StoreCall.KeepsSubject (db : Db) : StoreCall → Prop
  | .createApproval (.changeSet new) _ => ∀ c, db.changeSets.get? new.changeSetId = some c →
    new.baseCommit = c.baseCommit ∧ new.patchSha256 = c.patchSha256
  | .transition _ _ target _ _ _ => target ≠ .approved
  | _ => True

/-- The row a call would insert. -/
def StoreCall.newApproval (now : Instant) : StoreCall → Option ApprovalRow
  | .createApproval (.changeSet new) key => some (ApprovalRepository.changeSetRow new key now)
  | .renewChangeset _ _ _ new => some (ApprovalRepository.changeSetRow new none now)
  | _ => none

/-- The call approves the pending approval of a ChangeSet. -/
def StoreCall.Approving (db : Db) (changeSetId : String) : StoreCall → Prop
  | .decide request => request.target = .approved ∧ ∃ row, db.approvals.get? request.approvalId = some row ∧
    row.status = .pending ∧ row.changeSetId = some changeSetId
  | _ => False

/-- The powers of a call that keeps the law. -/
def StoreCall.lawful (repo : ApprovalRepository) (now : Instant) (db : Db) (call : StoreCall) : Powers where
  digests := repo.K
  opens row := call.newApproval now = some row ∧ Fits db row
  decides _ := True
  approves id status := status = .approved → call.Approving db id
  creates _ := True
  starts _ := True
  grants _ := True
  consumes _ := True

theorem StoreCall.uses_lawful {repo : ApprovalRepository} {ord : RowOrder} {lease : MasterLease} {now : Instant}
    {call : StoreCall} {db db' : Db} {u : Unit} (hlaw : ApprovalLaw db) (hkeeps : call.KeepsSubject db)
    (h : (call.op repo ord lease now).run db = .ok (u, db')) : db' = db ∨ call.Uses (call.lawful repo now db) now db := by
  cases call with
  | run call => exact .inr (call.uses_of (fun _ => trivial) (fun _ => trivial) (fun _ hmerged => by cases hmerged) db)
  | createApproval approval key =>
    obtain ⟨_, hrun⟩ := void_ok h
    rcases ApprovalRepository.create_ok hrun with hs | ⟨new, rfl, ⟨c, hc⟩, halone⟩
    · exact .inl hs
    · obtain ⟨hbase, hpatch⟩ := hkeeps c hc
      exact .inr ⟨rfl, ApprovalRepository.changeSetRow_fits hlaw halone hc hbase hpatch⟩
  | renewChangeset =>
    obtain ⟨_, hrun⟩ := void_ok h
    exact .inr ⟨rfl, ApprovalRepository.renewChangeset_fits hlaw hrun⟩
  | decide request =>
    refine .inr fun row hrow hpending => ⟨trivial, fun hkind htarget _ => ⟨htarget, row, hrow, hpending, ?_⟩⟩
    rcases (hlaw.rows row (Table.mem_of_get? hrow)).kind with ⟨-, hid, -⟩ | ⟨hother, -⟩
    · obtain ⟨id, hid⟩ := Option.ne_none_iff_exists'.1 hid
      rw [hid]
      rfl
    · rw [hkind] at hother
      cases hother
  | transition => exact .inr fun _ happroved => absurd happroved hkeeps
  | createGrant => exact .inr fun _ _ _ => trivial
  | consumeGrant => exact .inr fun _ _ _ => trivial
  | _ => exact .inr trivial

/-- A call that approves a ChangeSet leaves its approval approved. -/
theorem StoreCall.approving_leaves {repo : ApprovalRepository} {ord : RowOrder} {lease : MasterLease} {now : Instant}
    {call : StoreCall} {db db' : Db} {u : Unit} {id : String} (happroving : call.Approving db id)
    (h : (call.op repo ord lease now).run db = .ok (u, db')) :
    ∃ a ∈ db'.approvals.rows, a.changeSetId = some id ∧ a.status = .approved := by
  cases call with
  | decide request =>
    obtain ⟨htarget, row, hrow, hpending, hid⟩ := happroving
    obtain ⟨_, hrun⟩ := void_ok h
    obtain ⟨-, row', hrow', hrecorded, -⟩ := ApprovalRepository.decide_leaves hrun
    have hmoves : Moves (.all repo.K) db db' :=
      ApprovalRepository.decide_moves rfl (fun _ _ _ => ⟨trivial, fun _ _ => trivial⟩) hrun
    obtain ⟨x, hx, hsteps⟩ := hmoves.approvals.kept _ _ hrow
    obtain rfl := Option.some.inj (hx.symm.trans hrow')
    refine ⟨x, Table.mem_of_get? hrow', ?_, ?_⟩
    · rw [(subject_of_terms hsteps.terms).2.1]
      exact hid
    · rw [hrecorded.status, htarget]
      rfl
  | _ => exact happroving.elim

theorem ApprovalLaw.call {repo : ApprovalRepository} {i : StoreInvocation} {db : Db} (h : ApprovalLaw db)
    (hkeeps : i.call.KeepsSubject db) : ApprovalLaw (i.commit repo db).2 := by
  unfold StoreInvocation.commit
  rcases Tx.commit_cases (i.call.op repo i.ord i.lease i.now) db with hs | ⟨_, hrun⟩
  · rw [hs]
    exact h
  · rcases StoreCall.uses_lawful h hkeeps hrun with hs | huses
    · rw [hs]
      exact h
    · refine h.moved (StoreCall.moves rfl huses hrun) (fun row hrow => hrow.2) (fun row row' hrow hrow' => ?_) fun id hid => ?_
      · exact Option.some.inj (hrow.1.symm.trans hrow'.1)
      · exact StoreCall.approving_leaves (hid rfl) hrun

theorem ApprovalLaw.elsewhere {db db' : Db} (h : ApprovalLaw db) (hsame : Elsewhere db db') : ApprovalLaw db' := by
  obtain ⟨hrows, hsubject, hsingle, happroved⟩ := h
  rw [← hsame.approvals] at hrows hsubject hsingle happroved
  rw [← hsame.changeSets] at hsubject happroved
  exact ⟨hrows, hsubject, hsingle, happroved⟩

/-- Nothing has asked for an approval yet. -/
theorem ApprovalLaw.fresh {db : Db} (happrovals : db.approvals.rows = [])
    (hchangeSets : ∀ c ∈ db.changeSets.rows, c.status ≠ .approved) : ApprovalLaw db where
  rows a ha := by rw [happrovals] at ha; cases ha
  subject a ha := by rw [happrovals] at ha; cases ha
  single a ha := by rw [happrovals] at ha; cases ha
  approved c hc h := absurd h (hchangeSets c hc)

/-! ## Runs -/

/-- A commit whose call keeps the law, or one elsewhere. -/
inductive SubjectStep (repo : ApprovalRepository) (db : Db) : Db → Prop
  | call (i : StoreInvocation) (h : i.call.KeepsSubject db) : SubjectStep repo db (i.commit repo db).2
  | other {db' : Db} (h : Elsewhere db db') : SubjectStep repo db db'

theorem SubjectStep.step {repo : ApprovalRepository} {db db' : Db} (h : SubjectStep repo db db') :
    StoreStep repo db db' := by
  cases h with
  | call i => exact .call i
  | other h => exact .other h

theorem ApprovalLaw.step {repo : ApprovalRepository} {db db' : Db} (h : ApprovalLaw db) (hstep : SubjectStep repo db db') :
    ApprovalLaw db' := by
  cases hstep with
  | call i hkeeps => exact h.call hkeeps
  | other hsame => exact h.elsewhere hsame

/-! ## Concurrent decisions -/

structure DecideCall where
  ord : RowOrder
  request : DecisionRequest
  lease : MasterLease
  now : Instant

def DecideCall.commit (repo : ApprovalRepository) (d : DecideCall) (db : Db) : Except StorageError ApprovalRow × Db :=
  Tx.commit (repo.decide d.ord d.request d.lease d.now) db

def Db.awaits (db : Db) (approvalId : String) : Bool := (db.approvals.get? approvalId).any fun a => a.status = .pending

/-- How many calls decide the approval, in the order they commit. -/
def decisions (repo : ApprovalRepository) (approvalId : String) : List DecideCall → Db → Nat
  | [], _ => 0
  | d :: ds, db => (if db.awaits approvalId ∧ ¬ (d.commit repo db).2.awaits approvalId then 1 else 0) +
      decisions repo approvalId ds (d.commit repo db).2

/-- One of the calls returns, in the order they commit. -/
def SomeReturns (repo : ApprovalRepository) : List DecideCall → Db → Prop
  | [], _ => False
  | d :: ds, db => (∃ a, (d.commit repo db).1 = .ok a) ∨ SomeReturns repo ds (d.commit repo db).2

section
variable {repo : ApprovalRepository} {id : String}

theorem DecideCall.moves (d : DecideCall) (db : Db) : Moves (.all repo.K) db (d.commit repo db).2 := by
  unfold commit
  rcases Tx.commit_cases (repo.decide d.ord d.request d.lease d.now) db with hs | ⟨a, hrun⟩
  · rw [hs]
    exact refl_of (Moves _) db
  · exact ApprovalRepository.decide_moves rfl (fun _ _ _ => ⟨trivial, fun _ _ => trivial⟩) hrun

theorem awaits_false {db : Db} {row : ApprovalRow} (hrow : db.approvals.get? id = some row) :
    db.awaits id = false ↔ row.status ≠ .pending := by
  unfold Db.awaits
  rw [hrow]
  simp

/-- An approval that was decided stays so, whoever else calls. -/
theorem decisions_of_decided {row : ApprovalRow} (ds : List DecideCall) {db : Db}
    (hrow : db.approvals.get? id = some row) (hended : row.status ≠ .pending) : decisions repo id ds db = 0 := by
  induction ds generalizing db row with
  | nil => rfl
  | cons d ds ih =>
    have hmoves : Moves (.all repo.K) db (d.commit repo db).2 := d.moves db
    obtain ⟨row', hrow', hsteps⟩ := hmoves.approvals.kept _ _ hrow
    have hended' : row'.status ≠ .pending := by
      rw [(Prod.mk.inj (hsteps.ended hended)).1]
      exact hended
    unfold decisions
    rw [if_neg, ih hrow' hended']
    rw [(awaits_false hrow).2 hended]
    exact fun h => by cases h.1

/-- Of the calls on a pending approval the first that returns decides it, and no other does. -/
theorem decisions_eq (ds : List DecideCall) {db : Db} {row : ApprovalRow} (hrow : db.approvals.get? id = some row)
    (hpending : row.status = .pending) (hid : ∀ d ∈ ds, d.request.approvalId = id) :
    (SomeReturns repo ds db → decisions repo id ds db = 1) ∧ (¬ SomeReturns repo ds db → decisions repo id ds db = 0) := by
  induction ds with
  | nil => exact ⟨fun h => h.elim, fun _ => rfl⟩
  | cons d ds ih =>
    obtain ⟨hd, hds⟩ := List.forall_mem_cons.1 hid
    have hawaits : db.awaits id = true := by
      unfold Db.awaits
      rw [hrow, Option.any_some, decide_eq_true hpending]
    unfold decisions SomeReturns
    cases hx : (repo.decide d.ord d.request d.lease d.now).run db with
    | error e =>
      have hcommit : d.commit repo db = (.error e, db) := Tx.commit_of_error hx
      rw [hcommit]
      simp only [hawaits, not_true_eq_false, and_false, if_false, Nat.zero_add, reduceCtorEq, exists_false, false_or]
      exact ih hds
    | ok r =>
      obtain ⟨a, db'⟩ := r
      have hcommit : d.commit repo db = (.ok a, db') := Tx.commit_of_ok hx
      obtain ⟨-, row', hrow', hrecorded, -⟩ := ApprovalRepository.decide_leaves hx
      rw [hd] at hrow'
      have hdone := (awaits_false hrow').2 hrecorded.not_pending
      rw [hcommit]
      dsimp only
      rw [if_pos ⟨hawaits, by rw [hdone]; exact Bool.false_ne_true⟩, decisions_of_decided ds hrow' hrecorded.not_pending]
      exact ⟨fun _ => rfl, fun h => absurd (.inl ⟨a, rfl⟩) h⟩

end

/-! ## The law over runs -/

/-- From a database that obeys the law, over any commits that keep it: the law holds, approved ChangeSets have
their approvals, a decided or closed approval stays as it is, and of the calls of `decide` on a pending approval
exactly one takes effect when any returns. -/
theorem approvals_agree {repo : ApprovalRepository} {db db' : Db} (hlaw : ApprovalLaw db)
    (hrun : Relation.ReflTransGen (SubjectStep repo) db db') :
    ApprovalLaw db' ∧ SubjectsAgree db' ∧
      (∀ a ∈ db.approvals.rows, a.status ≠ .pending →
        ∃ a' ∈ db'.approvals.rows, a'.id = a.id ∧ (a'.status, a'.version) = (a.status, a.version)) ∧
      ∀ id ds, db'.awaits id = true → (∀ d ∈ ds, d.request.approvalId = id) →
        (SomeReturns repo ds db' → decisions repo id ds db' = 1) ∧
          (¬ SomeReturns repo ds db' → decisions repo id ds db' = 0) := by
  have hlaw' : ApprovalLaw db' := Tx.inv_of_steps (fun _ _ h hstep => h.step hstep) hrun hlaw
  have hmoves : Moves (.all repo.K) db db' :=
    StoreRun.moves (Relation.ReflTransGen.mono (fun _ _ h => h.step) _ _ hrun)
  refine ⟨hlaw', hlaw'.agree, fun a ha hended => ?_, fun id ds hawaits hid => ?_⟩
  · obtain ⟨a', ha', hsteps⟩ := hmoves.approval_kept ha
    exact ⟨a', ha', congrArg (fun t => t.1.1) hsteps.terms, hsteps.ended hended⟩
  · obtain ⟨row, hrow, hpending⟩ := (Option.any_eq_true _ _).1 hawaits
    exact decisions_eq ds hrow (of_decide_eq_true hpending) hid

/-! ## A sample gate -/

open ApprovalRepository (sampleApprovals sampleRequest)

/-- The sample run at work, its ChangeSet tested. -/
def gateDb : Db := { sampleDb with
  workflowRuns := ⟨[{ sampleRunRow with status := .running }], by decide, by decide⟩
  nodeRuns := ⟨[{ id := "rwrite", workflowRunId := "r", nodeId := "write", nodeType := .agentTask, status := .running,
                  createdAt := "" }], by decide, by decide⟩
  changeSets := ⟨[⟨"c", "t", "0", "p", .testPassed, "", ""⟩], by decide, by decide⟩ }

/-- An approval of the sample ChangeSet, for a base commit. -/
def sampleApproval (baseCommit : String) : ChangeSetApproval where
  approvalId := "first"
  workflowRunId := "r"
  nodeRunId := "rwrite"
  subjectSha256 := "subject"
  evidenceSha256 := "e"
  effectiveRisk := .l1
  expiresAt := ⟨1, by decide⟩
  changeSetId := "c"
  baseCommit := baseCommit
  patchSha256 := "p"

def sampleInvocation (call : StoreCall) : StoreInvocation := ⟨call, .table, sampleLease, sampleNow⟩

/-- Create the approval of the sample ChangeSet for a base commit. -/
def sampleOpened (baseCommit : String) : Db :=
  ((sampleInvocation (.createApproval (.changeSet (sampleApproval baseCommit)) none)).commit sampleApprovals gateDb).2

/-- Then approve it. -/
def sampleGated (baseCommit : String) : Db :=
  ((sampleInvocation (.decide sampleRequest)).commit sampleApprovals (sampleOpened baseCommit)).2

theorem gateDb_lawful : ApprovalLaw gateDb := .fresh rfl (by decide)

/-- The ChangeSet is approved on its own base commit. -/
theorem approvals_agree_sample : SubjectsAgree (sampleGated "0") ∧ ∃ c ∈ (sampleGated "0").changeSets.rows, c.status = .approved := by
  have hcreate : (sampleInvocation (.createApproval (.changeSet (sampleApproval "0")) none)).call.KeepsSubject gateDb := by
    intro c hc
    obtain rfl := Option.some.inj hc
    exact ⟨rfl, rfl⟩
  have hopen : SubjectStep sampleApprovals gateDb (sampleOpened "0") := .call _ hcreate
  have hdecide : SubjectStep sampleApprovals (sampleOpened "0") (sampleGated "0") :=
    .call (sampleInvocation (.decide sampleRequest)) trivial
  refine ⟨(approvals_agree gateDb_lawful (.tail (.single hopen) hdecide)).2.1, ?_⟩
  decide +kernel

/-- Created for another base commit, the approval is decided all the same and its ChangeSet approved. -/
theorem create_unmatched : ApprovalLaw gateDb ∧ ¬ SubjectsAgree (sampleGated "1") := by
  refine ⟨gateDb_lawful, fun h => ?_⟩
  have happroved : ∃ c ∈ (sampleGated "1").changeSets.rows, c.status = .approved ∧ c.baseCommit = "0" := by decide +kernel
  have hother : ∀ a ∈ (sampleGated "1").approvals.rows, a.baseCommit = some "1" := by decide +kernel
  obtain ⟨c, hc, hstatus, hbase⟩ := happroved
  obtain ⟨a, ha, ⟨-, hsame, -⟩, -⟩ := h c hc hstatus
  rw [hother a ha, hbase] at hsame
  exact absurd hsame (by decide)

end AgentHub
