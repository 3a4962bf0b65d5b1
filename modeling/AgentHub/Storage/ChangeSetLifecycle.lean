import AgentHub.Storage.Approvals.Subjects
import AgentHub.Storage.CallBooks
/-!
# The lifecycle of a ChangeSet

Only `transition` looks at `_TRANSITIONS`; the approvals, the merge and the cancellation each write the status with a
predicate of their own. Every commit moves a ChangeSet along an edge all the same, so a status without edges is never
left and a merged ChangeSet has been through the whole chain.
-/

namespace AgentHub

open Lib

/-- From one commit to the next: the status stays, or makes one legal move. -/
def LegalStep (before after : Option ChangeSetStatus) : Prop := after = before ∨ ∃ s, after = some s ∧ Legal before s

/-- The one status the chain to a merge enters a status from. -/
def ChangeSetStatus.before : ChangeSetStatus → Option ChangeSetStatus
  | .merged => some .approved
  | .approved => some .pendingApproval
  | .pendingApproval => some .testPassed
  | .testPassed => some .guardPassed
  | .guardPassed => some .captured
  | _ => none

theorem Legal.before {previous : Option ChangeSetStatus} {s p : ChangeSetStatus} (h : Legal previous s)
    (hs : s.before = some p) : previous = some p := by
  cases previous with
  | none => cases s <;> simp [Legal, ChangeSetStatus.before] at h hs
  | some q => cases s <;> cases q <;> simp [Legal, ChangeSetStatus.before, ChangeSetStatus.transitions] at h hs ⊢ <;> exact hs

section
variable {repo : ApprovalRepository} {db db' : Db}

theorem StoreCall.legal {call : StoreCall} {ord : RowOrder} {lease : MasterLease} {now : Instant} {u : Unit}
    (h : (call.op repo ord lease now).run db = .ok (u, db')) (id : String) :
    LegalStep (db.changeSetStatus id) (db'.changeSetStatus id) := by
  cases hcall : call.ofChangeSets with
  | true =>
    obtain ⟨id₀, previous, status, hlegal, haudited⟩ := StoreCall.audited hcall h
    by_cases hid : id = id₀
    · subst hid
      rw [haudited.before, haudited.after]
      exact .inr ⟨status, rfl, hlegal⟩
    · exact .inl (haudited.others id hid)
  | false =>
    rcases (StoreCall.follows hcall h).changeSetStatus id with hsame | ⟨s, hs, hwrites, htarget⟩
    · exact .inl hsame
    · rw [hs, htarget]
      exact .inr ⟨_, rfl, StoreCall.Writes.edge hwrites⟩

theorem StoreStep.legal (h : StoreStep repo db db') (id : String) :
    LegalStep (db.changeSetStatus id) (db'.changeSetStatus id) := by
  cases h with
  | call i =>
    unfold StoreInvocation.commit
    rcases Tx.commit_cases (i.call.op repo i.ord i.lease i.now) db with hs | ⟨_, h⟩
    · rw [hs]
      exact .inl rfl
    · exact StoreCall.legal h id
  | other h =>
    refine .inl ?_
    unfold Db.changeSetStatus
    rw [h.changeSets]

/-- A status without edges is never left. -/
theorem StoreRun.stays {id : String} {s : ChangeSetStatus} (hrun : StoreRun repo db db') (hend : s.transitions = [])
    (hs : db.changeSetStatus id = some s) : db'.changeSetStatus id = some s := by
  induction hrun with
  | refl => exact hs
  | tail _ hstep ih =>
    rcases hstep.legal id with hsame | ⟨s', -, hlegal⟩
    · exact hsame.trans ih
    · simp [Legal, ih, hend] at hlegal

/-- A status that was not there at first was entered, from where it is legal. -/
theorem StoreRun.entered {id : String} {s : ChangeSetStatus} (hrun : StoreRun repo db db')
    (hnone : db.changeSetStatus id = none) (hs : db'.changeSetStatus id = some s) :
    ∃ a, StoreRun repo db a ∧ Legal (a.changeSetStatus id) s ∧ StoreRun repo a db' := by
  induction hrun with
  | refl =>
    rw [hnone] at hs
    cases hs
  | @tail a b hrun hstep ih =>
    rcases hstep.legal id with hsame | ⟨s', hs', hlegal⟩
    · obtain ⟨c, hc, hlegal, hca⟩ := ih (hsame.symm.trans hs)
      exact ⟨c, hc, hlegal, hca.tail hstep⟩
    · obtain rfl := Option.some.inj (hs'.symm.trans hs)
      exact ⟨a, hrun, hlegal, .single hstep⟩

/-- The run passes through states in which the ChangeSet has the statuses, in this order. -/
def PassesThrough (repo : ApprovalRepository) (id : String) : List ChangeSetStatus → Db → Db → Prop
  | [], db, db' => StoreRun repo db db'
  | s :: ss, db, db' => ∃ a, StoreRun repo db a ∧ a.changeSetStatus id = some s ∧ PassesThrough repo id ss a db'

theorem StoreRun.passes {id : String} (hrun : StoreRun repo db db') (hnone : db.changeSetStatus id = none)
    (hmerged : db'.changeSetStatus id = some .merged) :
    PassesThrough repo id [.captured, .guardPassed, .testPassed, .pendingApproval, .approved, .merged] db db' := by
  have hback : ∀ s p, ChangeSetStatus.before s = some p → ∀ d, StoreRun repo db d → d.changeSetStatus id = some s →
      ∃ a, StoreRun repo db a ∧ a.changeSetStatus id = some p ∧ StoreRun repo a d := by
    intro s p hp d hd hs
    obtain ⟨a, ha, hlegal, had⟩ := hd.entered hnone hs
    exact ⟨a, ha, hlegal.before hp, had⟩
  obtain ⟨a₅, h₅, hs₅, hrun₅⟩ := hback .merged _ rfl _ hrun hmerged
  obtain ⟨a₄, h₄, hs₄, hrun₄⟩ := hback .approved _ rfl _ h₅ hs₅
  obtain ⟨a₃, h₃, hs₃, hrun₃⟩ := hback .pendingApproval _ rfl _ h₄ hs₄
  obtain ⟨a₂, h₂, hs₂, hrun₂⟩ := hback .testPassed _ rfl _ h₃ hs₃
  obtain ⟨a₁, h₁, hs₁, hrun₁⟩ := hback .guardPassed _ rfl _ h₂ hs₂
  exact ⟨a₁, h₁, hs₁, a₂, hrun₁, hs₂, a₃, hrun₂, hs₃, a₄, hrun₃, hs₄, a₅, hrun₄, hs₅, db', hrun₅, hmerged, .refl⟩

/-- In every run of commits: each moves a ChangeSet along an edge or leaves it, a status without edges is never left,
and a ChangeSet that comes into being and gets merged passes through the chain. -/
theorem changeSet_lifecycle (hrun : StoreRun repo db db') (id : String) :
    (∀ db'', StoreStep repo db' db'' → LegalStep (db'.changeSetStatus id) (db''.changeSetStatus id)) ∧
      (∀ s, s.transitions = [] → db.changeSetStatus id = some s → db'.changeSetStatus id = some s) ∧
      (db.changeSetStatus id = none → db'.changeSetStatus id = some .merged →
        PassesThrough repo id [.captured, .guardPassed, .testPassed, .pendingApproval, .approved, .merged] db db') :=
  ⟨fun _ hstep => hstep.legal id, fun _ => hrun.stays, hrun.passes⟩

end

/-- The sample ChangeSet waits for its approval and gets it. -/
theorem changeSet_lifecycle_sample : (sampleGated "0").changeSetStatus "c" = some .approved ∧
    ∀ db'', StoreStep ApprovalRepository.sampleApprovals (sampleGated "0") db'' →
      LegalStep ((sampleGated "0").changeSetStatus "c") (db''.changeSetStatus "c") := by
  have hopen : StoreStep ApprovalRepository.sampleApprovals gateDb (sampleOpened "0") := .call _
  have hdecide : StoreStep ApprovalRepository.sampleApprovals (sampleOpened "0") (sampleGated "0") := .call _
  refine ⟨by decide +kernel, (changeSet_lifecycle (.tail (.single hopen) hdecide) "c").1⟩

end AgentHub
