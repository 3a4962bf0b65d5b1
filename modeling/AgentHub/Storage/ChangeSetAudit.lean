import AgentHub.Storage.ChangeSetLifecycle
/-!
# The audit of ChangeSets

`persist_capture` and `transition` append a CHANGE_SET_STATE_CHANGED event for the move they make. The approvals, the
merge and the cancellation move ChangeSets by statements of their own and append none. Over runs whose commits leave
those statements nothing to match, the events of a run replay to the statuses of its ChangeSets.
-/

namespace AgentHub

open Lib

/-- What an event says about a ChangeSet. -/
def EventRow.changeOfSet (id : String) (e : EventRow) : Option (Change ChangeSetStatus ChangeSetStatus) :=
  e.changeSetChange.bind fun p => if p.1 = id then some p.2 else none

/-- The status of a ChangeSet to whoever reads only the events. -/
def replayed (events : List EventRow) (id : String) : Option ChangeSetStatus :=
  (events.filterMap (EventRow.changeOfSet id)).foldl (fun _ c => some c.value) none

/-- The events that going from one status to another calls for: one, with both, when there is a change. -/
def due (before after : Option ChangeSetStatus) : List (Change ChangeSetStatus ChangeSetStatus) :=
  match after with
  | some s => if before = some s then [] else [⟨before, s⟩]
  | none => []

/-- A commit appends the events that are due for the ChangeSet, in its run, and no other about it. -/
def Accounts (db db' : Db) (id : String) : Prop :=
  ∃ new, db'.changeSetEvents = db.changeSetEvents ++ new ∧
    new.filterMap (EventRow.changeOfSet id) = due (db.changeSetStatus id) (db'.changeSetStatus id) ∧
    ∀ e ∈ new, e.changeOfSet id ≠ none → ∃ rid, e.workflowRunId = some rid ∧ db'.changeSetRun id = some rid

/-- The events of a run replay to the statuses of its ChangeSets, and are about no others. -/
structure Told (db : Db) : Prop where
  faithful : ∀ id s, db.changeSetStatus id = some s → ∃ rid, db.changeSetRun id = some rid ∧ replayed (db.stream rid) id = some s
  only : ∀ id rid, replayed (db.stream rid) id ≠ none → db.changeSetRun id = some rid

/-- The log is lawful, its events about a ChangeSet are of its run, and they replay to its status. -/
structure AuditLaw (db : Db) : Prop extends LedgerLaw db where
  located : ∀ e ∈ db.events, ∀ id, e.changeOfSet id ≠ none → ∃ rid, e.workflowRunId = some rid ∧ db.changeSetRun id = some rid
  replay : ∀ id, replayed db.events id = db.changeSetStatus id

/-! ## Replays -/

theorem replayed_append (l new : List EventRow) (id : String) :
    replayed (l ++ new) id = (new.filterMap (EventRow.changeOfSet id)).foldl (fun _ c => some c.value) (replayed l id) := by
  simp only [replayed, List.filterMap_append, List.foldl_append]

/-- Events that are due bring a replay to the new status. -/
theorem foldl_due (before after : Option ChangeSetStatus) (hlive : before ≠ none → after ≠ none) :
    (due before after).foldl (fun _ c => some c.value) before = after := by
  cases after with
  | none =>
    cases before with
    | none => rfl
    | some s => exact absurd rfl (hlive (by simp))
  | some s =>
    by_cases h : before = some s
    · simp [due, h]
    · simp [due, h]

theorem changeOfSet_filter (l : List EventRow) (id : String) :
    (l.filter fun e => e.changeSetChange.isSome).filterMap (EventRow.changeOfSet id) = l.filterMap (EventRow.changeOfSet id) := by
  rw [List.filterMap_filter]
  apply List.filterMap_congr
  intro e _
  cases hc : e.changeSetChange <;> simp [EventRow.changeOfSet, hc]

/-- Only the events about ChangeSets count. -/
theorem replayed_changeSetEvents (db : Db) (id : String) : replayed db.changeSetEvents id = replayed db.events id := by
  unfold replayed Db.changeSetEvents
  rw [changeOfSet_filter]

theorem replayed_stream {db : Db} (h : AuditLaw db) {id rid : String} (hrun : db.changeSetRun id = some rid) :
    replayed (db.stream rid) id = replayed db.events id := by
  unfold replayed
  rw [h.toLedgerLaw.read fun e he hne => ?_]
  obtain ⟨rid', hrid, hset⟩ := h.located e he id hne
  rw [hrun] at hset
  rw [hrid, hset]

theorem AuditLaw.told {db : Db} (h : AuditLaw db) : Told db where
  faithful id s hs := by
    have hreplay := (h.replay id).trans hs
    -- A ChangeSet with a status has an event, and the event a run.
    have hne : db.events.filterMap (EventRow.changeOfSet id) ≠ [] := by
      intro hnil
      simp [replayed, hnil] at hreplay
    obtain ⟨c, hc⟩ := List.exists_mem_of_ne_nil _ hne
    obtain ⟨e, he, hce⟩ := List.mem_filterMap.1 hc
    obtain ⟨rid, -, hrun⟩ := h.located e he id (by simp [hce])
    exact ⟨rid, hrun, (replayed_stream h hrun).trans hreplay⟩
  only id rid hne := by
    have hlog : (db.stream rid).filterMap (EventRow.changeOfSet id) ≠ [] := by
      intro hnil
      simp [replayed, hnil] at hne
    obtain ⟨c, hc⟩ := List.exists_mem_of_ne_nil _ hlog
    obtain ⟨e, he, hce⟩ := List.mem_filterMap.1 hc
    obtain ⟨he, hrid⟩ := List.mem_filter.1 ((List.mergeSort_perm _ _).mem_iff.1 he)
    obtain ⟨rid', hrun, hset⟩ := h.located e he id (by simp [hce])
    rw [of_decide_eq_true hrid] at hrun
    rw [hset, hrun]

/-! ## One commit -/

section
variable {repo : ApprovalRepository} {db db' : Db}

/-- No statement of the call's own would move a ChangeSet. -/
def StoreCall.Still (db : Db) (call : StoreCall) : Prop := ∀ id s, db.changeSetStatus id = some s → ¬ call.Writes db id s

theorem Legal.ne {previous : Option ChangeSetStatus} {s : ChangeSetStatus} (h : Legal previous s) : previous ≠ some s := by
  rintro rfl
  cases s <;> simp [Legal, ChangeSetStatus.transitions] at h

/-- What a call keeps: the law of the log and the runs of ChangeSets; and it accounts for the ones it moves. -/
theorem StoreCall.accounts {call : StoreCall} {ord : RowOrder} {lease : MasterLease} {now : Instant} {u : Unit}
    (hstill : call.Still db) (h : (call.op repo ord lease now).run db = .ok (u, db')) :
    (LedgerLaw db → LedgerLaw db') ∧ (∀ id rid, db.changeSetRun id = some rid → db'.changeSetRun id = some rid) ∧
      ∀ id, Accounts db db' id := by
  cases hcall : call.ofChangeSets with
  | true =>
    obtain ⟨id₀, previous, status, hlegal, haudited⟩ := StoreCall.audited hcall h
    refine ⟨haudited.law fun _ _ hs => hs.elim, haudited.runs, fun id => ?_⟩
    obtain ⟨ev, rid, hevents, hchange, hrun, hrid⟩ := haudited.event
    refine ⟨[ev], hevents, ?_, ?_⟩
    · by_cases hid : id = id₀
      · subst hid
        rw [haudited.before, haudited.after, due, if_neg hlegal.ne]
        simp [EventRow.changeOfSet, hchange]
      · rw [haudited.others id hid]
        have hdue : due (db.changeSetStatus id) (db.changeSetStatus id) = [] := by
          cases db.changeSetStatus id <;> simp [due]
        simp [EventRow.changeOfSet, hchange, Ne.symm hid, hdue]
    · intro e he hne
      obtain rfl := List.mem_singleton.1 he
      by_cases hid : id₀ = id
      · subst hid
        exact ⟨rid, hrun, hrid⟩
      · simp [EventRow.changeOfSet, hchange, hid] at hne
  | false =>
    have hfollows := StoreCall.follows hcall h
    refine ⟨hfollows.law fun _ _ hs => hs.elim, fun _ _ => hfollows.changeSetRun, fun id => ⟨[], ?_, ?_, by simp⟩⟩
    · rw [hfollows.changeLog, List.append_nil]
    · have hsame : db'.changeSetStatus id = db.changeSetStatus id := by
        rcases hfollows.changeSetStatus id with hsame | ⟨s, hs, hwrites, -⟩
        · exact hsame
        · exact absurd hwrites (hstill id s hs)
      rw [hsame]
      cases db.changeSetStatus id <;> simp [due]

/-- A call that moves ChangeSets only with their events, or something elsewhere. -/
inductive AuditStep (repo : ApprovalRepository) (db : Db) : Db → Prop
  | call (i : StoreInvocation) (h : (i.commit repo db).1 = .ok () → i.call.Still db) : AuditStep repo db (i.commit repo db).2
  | other {db' : Db} (h : Outside db db') : AuditStep repo db db'

/-- What an audited commit does. -/
structure Audits (db db' : Db) : Prop where
  law : LedgerLaw db → LedgerLaw db'
  runs : ∀ id rid, db.changeSetRun id = some rid → db'.changeSetRun id = some rid
  accounts : ∀ id, Accounts db db' id
  stays : ∀ id, db.changeSetStatus id ≠ none → db'.changeSetStatus id ≠ none

theorem due_self (status : Option ChangeSetStatus) : due status status = [] := by cases status <;> simp [due]

theorem Outside.audits (h : Outside db db') : Audits db db' := by
  have hstatus : ∀ id, db'.changeSetStatus id = db.changeSetStatus id := fun id => by rw [Db.changeSetStatus, h.changeSets]; rfl
  refine ⟨(h.tells (P := ChangeSetRepository.idle)).law fun _ _ hs => hs.elim, fun id rid hrun => ?_, fun id => ⟨[], ?_, ?_, by simp⟩, fun id hne => ?_⟩
  · rw [Db.changeSetRun, h.changeSets, h.owner]
    exact hrun
  · rw [List.append_nil]
    unfold Db.changeSetEvents
    rcases h.events with heq | ⟨ev, heq, -, -, hchange⟩
    · rw [heq]
    · simp [heq, hchange]
  · rw [hstatus, due_self]
    rfl
  · rw [hstatus]
    exact hne

theorem AuditStep.audits (h : AuditStep repo db db') : Audits db db' := by
  cases h with
  | other h => exact h.audits
  | call i hstill =>
    unfold StoreInvocation.commit at hstill ⊢
    rcases Tx.commit_cases (i.call.op repo i.ord i.lease i.now) db with hs | ⟨u, h⟩
    · rw [hs]
      exact Outside.audits ⟨⟨rfl, rfl, rfl, rfl, rfl, rfl, rfl⟩, .inl rfl⟩
    · obtain ⟨hlaw, hruns, haccounts⟩ := StoreCall.accounts (hstill (by rw [Tx.commit_of_ok h])) h
      refine ⟨hlaw, hruns, haccounts, fun id hne => ?_⟩
      rcases StoreCall.legal h id with hsame | ⟨s, hs, -⟩
      · rw [hsame]
        exact hne
      · rw [hs]
        simp

/-! ## Every run -/

theorem AuditLaw.step (h : AuditLaw db) (hstep : Audits db db') : AuditLaw db' where
  toLedgerLaw := hstep.law h.toLedgerLaw
  located e he id hne := by
    obtain ⟨new, hevents, -, hnew⟩ := hstep.accounts id
    have hmem : e ∈ db'.changeSetEvents := by
      refine List.mem_filter.2 ⟨he, ?_⟩
      cases hc : e.changeSetChange with
      | none => simp [EventRow.changeOfSet, hc] at hne
      | some p => rfl
    rw [hevents, List.mem_append] at hmem
    rcases hmem with hold | hmem
    · obtain ⟨rid, hrid, hrun⟩ := h.located e (List.mem_filter.1 hold).1 id hne
      exact ⟨rid, hrid, hstep.runs id rid hrun⟩
    · exact hnew e hmem hne
  replay id := by
    obtain ⟨new, hevents, hdue, -⟩ := hstep.accounts id
    rw [← replayed_changeSetEvents, hevents, replayed_append, hdue, replayed_changeSetEvents, h.replay]
    exact foldl_due _ _ (hstep.stays id)

/-- From a database that obeys the law, over any commits whose own statements match no ChangeSet: the events of each
run replay to the statuses of its ChangeSets, and each further such commit accounts for every one of them. -/
theorem changeSets_audited (hlaw : AuditLaw db) (hrun : Relation.ReflTransGen (AuditStep repo) db db') :
    Told db' ∧ ∀ db'', AuditStep repo db' db'' → ∀ id, Accounts db' db'' id := by
  have hlaw' : AuditLaw db' := Tx.inv_of_steps (fun _ _ h hstep => h.step hstep.audits) hrun hlaw
  exact ⟨hlaw'.told, fun _ hstep => hstep.audits.accounts⟩

end

/-! ## A sample -/

/-- A database without runs, ChangeSets and events. -/
theorem AuditLaw.blank {db : Db} (hnodes : db.nodeRuns.rows = []) (hsets : db.changeSets.rows = []) (hevents : db.events = []) :
    AuditLaw db where
  numbered := by simp [hevents]
  ordered := by simp [hevents]
  counted := by simp [hevents]
  owned := by simp [hevents]
  open_ := by simp [hnodes]
  located := by simp [hevents]
  replay id := by
    have hnone : db.changeSets.get? id = none := by
      unfold Table.get?
      rw [hsets]
      rfl
    simp [replayed, hevents, Db.changeSetStatus, hnone]

/-- An event of the sample ChangeSet. -/
def sampleMove (n : Nat) (previous : Option ChangeSetStatus) (status : ChangeSetStatus) : EventRow :=
  ⟨"s", some "w", some "r", some n, changeSetStateChanged, .system, none,
    .changeSet 1 none "r" "rwrite" "t" "c" previous status "p" none, ""⟩

/-- The sample ChangeSet, tested, with the events that brought it there. -/
def auditDb : Db := { gateDb with
  workflowRuns := ⟨[{ sampleRunRow with status := .running, nextEventSeq := 4 }], by decide, by decide⟩
  events := [sampleMove 1 none .captured, sampleMove 2 (some .captured) .guardPassed,
    sampleMove 3 (some .guardPassed) .testPassed] }

theorem auditDb_lawful : AuditLaw auditDb := by
  have hmem : ∀ e ∈ auditDb.events, ∃ n previous status, e = sampleMove n previous status ∧ n < 4 := by
    intro e he
    simp only [auditDb, List.mem_cons, List.not_mem_nil, or_false] at he
    rcases he with rfl | rfl | rfl <;> exact ⟨_, _, _, rfl, by decide⟩
  have hslot : ∀ n previous status, (sampleMove n previous status).slot = some ("r", n) := fun _ _ _ => rfl
  have hset : ∀ n previous status id, (sampleMove n previous status).changeOfSet id =
      if "c" = id then some ⟨previous, status⟩ else none := fun _ _ _ _ => rfl
  refine ⟨⟨fun e he _ => ?_, ?_, fun e he r n hs => ?_, fun e he s c hs => ?_, ?_⟩, fun e he id hne => ?_, fun id => ?_⟩
  · obtain ⟨n, previous, status, rfl, -⟩ := hmem e he
    rfl
  · have hpair : auditDb.events.Pairwise fun a b => a.runSeq.getD 0 < b.runSeq.getD 0 := by decide
    refine hpair.imp_of_mem fun ha hb hlt r n m hn hm => ?_
    obtain ⟨_, _, _, rfl, -⟩ := hmem _ ha
    obtain ⟨_, _, _, rfl, -⟩ := hmem _ hb
    rw [hslot] at hn hm
    cases hn
    cases hm
    exact hlt
  · obtain ⟨m, previous, status, rfl, hm⟩ := hmem e he
    rw [hslot] at hs
    cases hs
    exact hm
  · obtain ⟨n, previous, status, rfl, -⟩ := hmem e he
    cases hs
  · decide
  · obtain ⟨n, previous, status, rfl, -⟩ := hmem e he
    rw [hset] at hne
    have hid : "c" = id := by
      by_contra hid
      simp [hid] at hne
    subst hid
    exact ⟨"r", rfl, rfl⟩
  · by_cases hid : "c" = id
    · subst hid
      rfl
    · have hnone : auditDb.changeSetStatus id = none := by
        simp [Db.changeSetStatus, Table.get?, auditDb, gateDb, hid]
      rw [hnone]
      simp [replayed, auditDb, hset, hid]

/-- The sample ChangeSet is refused by policy. -/
def sampleRefusal : StoreInvocation := sampleInvocation (.transition "c" .testPassed .policyRejected none none none)

/-- A transition of the sample ChangeSet is told. -/
theorem changeSets_audited_sample :
    (sampleRefusal.commit ApprovalRepository.sampleApprovals auditDb).2.changeSetStatus "c" = some .policyRejected ∧
      Told (sampleRefusal.commit ApprovalRepository.sampleApprovals auditDb).2 := by
  have hstep : AuditStep ApprovalRepository.sampleApprovals auditDb _ := .call sampleRefusal fun _ _ _ _ h => h
  exact ⟨by decide +kernel, (changeSets_audited auditDb_lawful (.single hstep)).1⟩

/-- The sample ChangeSet's approval is asked for. -/
def sampleOpening : StoreInvocation := sampleInvocation (.createApproval (.changeSet (sampleApproval "0")) none)

/-- Its approval is asked for and the ChangeSet waits, but the events still say that it was tested. -/
theorem create_untold : AuditLaw auditDb ∧
    ∃ db', StoreRun ApprovalRepository.sampleApprovals auditDb db' ∧ ¬ Told db' ∧ ¬ Accounts auditDb db' "c" := by
  refine ⟨auditDb_lawful, _, .single (.call sampleOpening), fun h => ?_, fun h => ?_⟩
  · have hlaw := sampleOpening.law ApprovalRepository.sampleApprovals auditDb_lawful.toLedgerLaw
    have hrun : (sampleOpening.commit ApprovalRepository.sampleApprovals auditDb).2.changeSetRun "c" = some "r" := by
      decide +kernel
    obtain ⟨rid, hrid, hreplay⟩ := h.faithful "c" .pendingApproval (by decide +kernel)
    obtain rfl : rid = "r" := Option.some.inj (hrid.symm.trans hrun)
    -- Every event of the sample is of its run.
    have hall : ∀ e ∈ (sampleOpening.commit ApprovalRepository.sampleApprovals auditDb).2.events,
        e.workflowRunId = some "r" := by decide +kernel
    rw [replayed, hlaw.read fun e he _ => hall e he] at hreplay
    revert hreplay
    decide +kernel
  · obtain ⟨new, hnew, hdue, -⟩ := h
    have hevents : (sampleOpening.commit ApprovalRepository.sampleApprovals auditDb).2.changeSetEvents =
        auditDb.changeSetEvents := by decide +kernel
    obtain rfl : new = [] := by simpa [hevents] using hnew
    revert hdue
    decide +kernel

end AgentHub
