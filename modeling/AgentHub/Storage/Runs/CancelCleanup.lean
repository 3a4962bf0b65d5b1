import AgentHub.Storage.Runs.Cleanup
/-!
# Cancelling with cleanup

`cancel_with_cleanup` on a run that is not finished closes what `cleanup` names. That is all of the run exactly
when `Cleanable` held before. The call can be repeated: the marker lets a cancelled run through, nothing is
left to close, and the two events of the call are appended once more.
-/

namespace AgentHub

open Lib WorkflowRunRepository

/-! ## What is left of the run -/

/-- How a cancelled run is left: no row of it is open in any table. -/
structure Cleaned (rid : String) (db : Db) : Prop where
  run : ∃ row, db.workflowRuns.get? rid = some row ∧ row.status = .cancelled
  nodes : ∀ n ∈ db.nodeRuns.rows, n.workflowRunId = rid → n.status.isLive = false
  tasks : ∀ t ∈ db.tasks.rows, db.nodeOf rid t.nodeRunId → t.status.isLive = false
  approvals : ∀ a ∈ db.approvals.rows, a.workflowRunId = rid → a.status ≠ .pending
  changeSets : ∀ c ∈ db.changeSets.rows, db.taskOf rid c.taskId → c.status.isOpen = false
  requests : ∀ r ∈ db.privilegeRequests.rows, db.nodeOf rid r.nodeRunId → r.status.isOpen = false
  grants : ∀ g ∈ db.capabilityGrants.rows, db.requestOf rid g.requestId → g.Spent

/-- What a cancellation reaches: a task through a live node run, a request that waits through a pending approval, an
approved one through an unspent grant. -/
structure Cleanable (rid : String) (db : Db) : Prop where
  tasks : ∀ t ∈ db.tasks.rows, t.status.isLive = true →
    ∀ n ∈ db.nodeRuns.rows, n.id = t.nodeRunId → n.workflowRunId = rid → n.status.isLive = true
  waiting : ∀ r ∈ db.privilegeRequests.rows, db.nodeOf rid r.nodeRunId → r.status ∈ [.pending, .waitingApproval] →
    db.awaited rid r.id
  approved : ∀ r ∈ db.privilegeRequests.rows, db.nodeOf rid r.nodeRunId → r.status = .approved → db.granted r.id

/-- What every cancellation closes, whatever the state before. -/
structure Idle (rid : String) (db : Db) : Prop where
  nodes : ∀ n ∈ db.nodeRuns.rows, n.workflowRunId = rid → n.status.isLive = false
  approvals : ∀ a ∈ db.approvals.rows, a.workflowRunId = rid → a.status ≠ .pending
  changeSets : ∀ c ∈ db.changeSets.rows, db.taskOf rid c.taskId → c.status.isOpen = false
  grants : ∀ g ∈ db.capabilityGrants.rows, db.requestOf rid g.requestId → g.Spent

theorem isOpen_cases (s : PrivilegeRequestStatus) :
    s.isOpen = true ↔ s ∈ [.pending, .waitingApproval] ∨ s = .approved := by
  cases s <;> simp [PrivilegeRequestStatus.isOpen]

section
variable {rid : String} {db db' : Db}

theorem Closing.idle (h : Closing (cleanup db rid) db db') : Idle rid db' where
  nodes := (h.nodes.all_closed (I := fun _ w => w = rid)).2 fun _ _ hof _ => hof
  approvals a ha hof hpending := by
    have hall := (h.approvals.all_closed (I := fun _ w => w = rid)).2 (fun _ _ hof _ => hof) a ha hof
    exact of_decide_eq_false hall hpending
  changeSets := (h.changeSets.all_closed (I := fun _ w => db'.taskOf rid w)).2 fun _ _ hof _ => .inr (h.taskOf.1 hof)
  grants g hg hof := by
    have hall := (h.grants.all_closed (I := fun _ w => db'.requestOf rid w)).2 (fun _ _ hof _ => h.requestOf.1 hof) g hg hof
    exact not_not.1 fun hspent => of_decide_eq_false hall (unspent_iff.2 hspent)

/-- A run is left clean exactly when its open tasks and requests are within reach. -/
theorem Closing.cleaned_iff (h : Closing (cleanup db rid) db db')
    (hrun : ∃ row, db'.workflowRuns.get? rid = some row ∧ row.status = .cancelled) :
    Cleaned rid db' ↔ Cleanable rid db := by
  have htasks : (∀ t ∈ db'.tasks.rows, db'.nodeOf rid t.nodeRunId → t.status.isLive = false) ↔
      ∀ t ∈ db.tasks.rows, db'.nodeOf rid t.nodeRunId → t.status.isLive = true →
        ∃ n ∈ db.nodeRuns.rows, n.id = t.nodeRunId ∧ n.workflowRunId = rid ∧ n.status.isLive = true :=
    h.tasks.all_closed (I := fun _ w => db'.nodeOf rid w)
  have hrequests : (∀ r ∈ db'.privilegeRequests.rows, db'.nodeOf rid r.nodeRunId → r.status.isOpen = false) ↔
      ∀ r ∈ db.privilegeRequests.rows, db'.nodeOf rid r.nodeRunId → r.status.isOpen = true →
        (r.status ∈ [PrivilegeRequestStatus.pending, .waitingApproval] ∧ db.awaited rid r.id) ∨
          (r.status = .approved ∧ db.granted r.id ∧ db.requestOf rid r.id) :=
    h.requests.all_closed (I := fun _ w => db'.nodeOf rid w)
  constructor
  · intro hclean
    have hreached := hrequests.1 hclean.requests
    refine ⟨fun t ht hlive n hn hid hof => ?_, fun r hr hof hstatus => ?_, fun r hr hof hstatus => ?_⟩
    · obtain ⟨n', hn', hid', -, hlive'⟩ := htasks.1 hclean.tasks t ht (h.nodeOf.2 ⟨n, hn, hid, hof⟩) hlive
      have hget := Table.get?_of_mem hn
      rw [hid, ← hid', Table.get?_of_mem hn'] at hget
      exact Option.some.inj hget ▸ hlive'
    · rcases hreached r hr (h.nodeOf.2 hof) ((isOpen_cases _).2 (.inl hstatus)) with hwait | happ
      · exact hwait.2
      · rw [happ.1] at hstatus
        exact absurd hstatus (by decide)
    · rcases hreached r hr (h.nodeOf.2 hof) ((isOpen_cases _).2 (.inr hstatus)) with hwait | happ
      · rw [hstatus] at hwait
        exact absurd hwait.1 (by decide)
      · exact happ.2.1
  · intro hable
    have hidle := h.idle
    refine ⟨hrun, hidle.nodes, htasks.2 ?_, hidle.approvals, hidle.changeSets, hrequests.2 ?_, hidle.grants⟩
    · intro t ht hof hlive
      obtain ⟨n, hn, hid, hrun⟩ := h.nodeOf.1 hof
      exact ⟨n, hn, hid, hrun, hable.tasks t ht hlive n hn hid hrun⟩
    · intro r hr hof hopen
      have hnode := h.nodeOf.1 hof
      rcases (isOpen_cases _).1 hopen with hstatus | hstatus
      · exact .inl ⟨hstatus, hable.waiting r hr hnode hstatus⟩
      · exact .inr ⟨hstatus, hable.approved r hr hnode hstatus, r, hr, rfl, hnode⟩

end

/-! ## The log -/

/-- What an append to the log of the run asks for. -/
structure Loggable (sid wid rid : String) (db : Db) : Prop where
  session : ∃ s, db.sessions.get? sid = some s
  workflow : ∃ w, db.workflows.get? wid = some w ∧ w.sessionId = sid
  run : ∃ r, db.run? rid = some r ∧ r.sessionId = sid ∧ r.workflowId = wid

theorem Quiet.loggable {sid wid rid : String} {db db' : Db} (h : Quiet db db') (hlog : Loggable sid wid rid db) :
    Loggable sid wid rid db' := by
  refine ⟨?_, ?_, ?_⟩
  · rw [h.sessions]
    exact hlog.session
  · rw [h.workflows]
    exact hlog.workflow
  · rw [h.runs]
    exact hlog.run

namespace EventRepository

section
variable {sid wid rid typ actor sev : String} {payload : EventPayload} {now : Instant} {db db' : Db}

theorem appendIn_loggable {u : Unit} (h : (appendIn sid typ actor payload wid rid now).run db = .ok (u, db')) :
    Loggable sid wid rid db := by
  simp only [appendIn, allocateSeq, StateT.run_bind, Tx.bind_ok, Tx.require_ok, Tx.read_ok, Tx.ensure_ok,
    TableRef.select_ok, decide_eq_true_eq] at h
  obtain ⟨_, rfl, ⟨s, _⟩, ⟨hs, rfl⟩, _, ⟨_, rfl, ⟨w, _⟩, ⟨hw, rfl⟩, _, ⟨hwsid, rfl⟩, _, rfl, ⟨r, _⟩, ⟨hr, rfl⟩, _, ⟨hsid, rfl⟩,
    _, ⟨hwid, rfl⟩, -⟩, -⟩ := h
  exact ⟨⟨s, hs⟩, ⟨w, hw, hwsid⟩, r.core, run?_eq_some hr, hsid, hwid⟩

/-- An append to a log that can be written returns, with one event more. -/
theorem appendIn_returns (h : Loggable sid wid rid db) : ∃ db',
    (appendIn sid typ actor payload wid rid now).run db = .ok ((), db') ∧ db'.events.length = db.events.length + 1 := by
  obtain ⟨s, hs⟩ := h.session
  obtain ⟨w, hw, hwsid⟩ := h.workflow
  obtain ⟨_, hrun, hsid, hwid⟩ := h.run
  obtain ⟨r, hr, rfl⟩ := run?_of_core hrun
  apply Exists.intro
  apply And.intro
  · simp only [appendIn, allocateSeq, StateT.run_bind, Tx.bind_ok, Tx.require_ok, Tx.read_ok, Tx.ensure_ok,
      TableRef.select_ok, decide_eq_true_eq, TableRef.cas_ok, StateT.run_pure, Tx.pure_ok, Tx.write_ok]
    exact ⟨_, rfl, (s, db), ⟨hs, rfl⟩, _, ⟨_, rfl, (w, db), ⟨hw, rfl⟩, _, ⟨hwsid, rfl⟩, _, rfl, (r, db), ⟨hr, rfl⟩, _,
      ⟨hsid, rfl⟩, _, ⟨hwid, rfl⟩, _, ⟨⟨r, hr, rfl⟩, rfl⟩, rfl⟩, rfl⟩
  · simp

theorem appendSecurityEventIn_returns (h : Loggable sid wid rid db) : ∃ db',
    (appendSecurityEventIn sid rid typ sev payload now).run db = .ok ((), db') ∧ db'.events = db.events := by
  obtain ⟨s, hs⟩ := h.session
  obtain ⟨_, hrun, hsid, -⟩ := h.run
  obtain ⟨r, hr, rfl⟩ := run?_of_core hrun
  apply Exists.intro
  apply And.intro
  · simp only [appendSecurityEventIn, StateT.run_bind, Tx.bind_ok, Tx.require_ok, Tx.ensure_ok, TableRef.select_ok,
      Option.any_eq_true, decide_eq_true_eq, Tx.write_ok]
    exact ⟨_, rfl, (s, db), ⟨hs, rfl⟩, _, rfl, _, ⟨⟨r, hr, hsid⟩, rfl⟩, rfl⟩
  · simp

end

end EventRepository

/-! ## The call -/

/-- A run that a cancellation has ended: its row, and a log that can be written. -/
structure EndedRun (H : Digests) (row : WorkflowRunRow) (db : Db) : Prop where
  found : db.workflowRuns.get? row.id = some row
  cancelled : row.status = .cancelled
  marked : row.cancelRequestedAt ≠ none
  unmerged : row.mergeFinalizingAt = none
  checked : (validateSnapshots H row).run db = .ok ((), db)
  loggable : Loggable row.sessionId row.workflowId row.id db

section
variable {H : Digests} {ord : RowOrder} {rid reason : String} {lease : MasterLease} {now : Instant} {db db' : Db}

/-- The check of a row's snapshots does not look at its event counter, or at anything else in the database. -/
theorem validateSnapshots_core {row row' : WorkflowRunRow} (hcore : row'.core = row.core) {u : Unit} {db₀ db₁ : Db}
    (h : (validateSnapshots H row).run db₀ = .ok (u, db₁)) : (validateSnapshots H row').run db = .ok ((), db) := by
  have hsame : validateSnapshots H row'.core = validateSnapshots H row.core := congrArg _ hcore
  have hrow : validateSnapshots H row' = validateSnapshots H row := hsame
  rw [hrow]
  obtain rfl : db₁ = db₀ := validateSnapshots_ok h
  simpa [validateSnapshots] using h

/-- Completing the cancellation of a run that is not finished. -/
theorem completeCancelIn_closing {row a : WorkflowRunRow} (hrow : db.workflowRuns.get? rid = some row)
    (hlive : row.status.isTerminal = false) (h : (completeCancelIn H ord rid lease now).run db = .ok (a, db')) :
    Closing (.any (liveRows db rid) cancelledWith) db db' ∧ db'.workflowRuns.get? rid = some a ∧
      row.mergeFinalizingAt = none ∧ a.core = { row.core with status := .cancelled, finishedAt := some (utcNowText now) } ∧
      (validateSnapshots H a).run db' = .ok ((), db') := by
  obtain rfl := Table.get?_key hrow
  simp only [completeCancelIn, StateT.run_bind, Tx.bind_ok, runRow_ok] at h
  obtain ⟨⟨row', db₀⟩, ⟨hrow', hdb⟩, h⟩ := h
  dsimp only at hrow' hdb h
  obtain rfl := hdb.symm
  obtain rfl := Option.some.inj (hrow'.symm.trans hrow)
  rw [if_neg (by rw [hlive]; decide)] at h
  simp only [StateT.run_bind, Tx.bind_ok, runRecord, StateT.run_pure, Tx.pure_ok] at h
  obtain ⟨⟨ended, db₁⟩, hended, ⟨_, db₂⟩, hval, hlast⟩ := h
  dsimp only at hval hlast
  obtain ⟨rfl, rfl⟩ := Prod.mk.inj hlast
  obtain rfl : db' = db₁ := validateSnapshots_ok hval
  obtain ⟨hnodes, hget, old, hold, hunmerged, hcore⟩ := endCancelled_closing hended
  obtain rfl := Option.some.inj (hold.symm.trans (run?_eq_some hrow))
  exact ⟨hnodes, hget, hunmerged, hcore, hval⟩

/-- A call on a run that is not finished closes what `cleanup` names and ends the run. -/
theorem cancelWithCleanup_closing {row a : WorkflowRunRow} (hrow : db.workflowRuns.get? rid = some row)
    (hlive : row.status.isTerminal = false) (h : (cancelWithCleanup H ord rid lease reason now).run db = .ok (a, db')) :
    Closing (cleanup db rid) db db' ∧ ∃ ended, ended.id = rid ∧ EndedRun H ended db' := by
  obtain rfl := Table.get?_key hrow
  simp only [cancelWithCleanup, StateT.run_bind, Tx.bind_ok, runRow_ok, MasterLeaseRepository.assertValidIn_ok] at h
  obtain ⟨_, ⟨-, rfl⟩, ⟨row', db₀⟩, ⟨hrow', hdb⟩, h⟩ := h
  dsimp only at hrow' hdb h
  obtain rfl := hdb.symm
  obtain rfl := Option.some.inj (hrow'.symm.trans hrow)
  rw [if_neg fun hterm => by rw [hterm.1] at hlive; cases hlive] at h
  simp only [StateT.run_bind, Tx.bind_ok, Tx.ensure_ok, StateT.run_pure, Tx.pure_ok] at h
  obtain ⟨_, ⟨-, rfl⟩, ⟨run, db₁⟩, hens, ⟨_, db₂⟩, hinv, ⟨_, db₃⟩, hrev, ⟨result, db₄⟩, hend, ⟨_, db₅⟩, happ, ⟨_, db₆⟩,
    hsec, hlast⟩ := h
  dsimp only at hinv hrev hend happ hsec hlast
  obtain ⟨rfl, rfl⟩ := Prod.mk.inj hlast
  obtain ⟨⟨t, ht⟩, hrun, hstatus, hmarked⟩ := ensureCancelled_ok hrow hens
  -- the hooks leave the run as it was marked, so the call goes on to end it
  have hhooks : SameRuns db₁ db₃ :=
    trans_of SameRuns (invalidateForRunIn_within _ _ _ _ _ _ _ hinv) (revokeUnconsumedForRunIn_within _ _ _ _ _ _ _ hrev)
  obtain ⟨run₃, hrun₃, hcore₃⟩ := run?_of_core ((hhooks.runs row'.id).trans (run?_eq_some hrun))
  have hlive₃ : run₃.status.isTerminal = false := by
    have hsame : run₃.core.status = run.core.status := congrArg _ hcore₃
    exact (congrArg _ (hsame.trans hstatus)).trans hlive
  obtain ⟨hnodes, hget, hunmerged, hcore, hval⟩ := completeCancelIn_closing hrun₃ hlive₃ hend
  rw [hcore₃] at hcore
  obtain ⟨dbᵢ, hpending, hbulk⟩ := ApprovalRepository.invalidateForRunIn_closing hinv
  have hclosing := cleanup_closing hpending hbulk (ApprovalRepository.revokeUnconsumedForRunIn_closing hrev) hnodes
  have hquiet := (EventRepository.appendIn_quiet happ).trans (EventRepository.appendSecurityEventIn_quiet hsec)
  have hall := hclosing.trans hquiet.closing
  rw [Targets.or_none, ht] at hall
  refine ⟨⟨hall.approvals, hall.requests, hall.grants, hall.nodes, hall.tasks, hall.changeSets, hall.masterLeases⟩, ?_⟩
  obtain ⟨ended, hended, hcoreₑ⟩ := run?_of_core ((hquiet.runs row'.id).trans (run?_eq_some hget))
  have hrowₑ := hcoreₑ.trans hcore
  have hstatusₑ : ended.core.status = .cancelled := by rw [hrowₑ]
  have hmarkedₑ : ended.core.cancelRequestedAt = run.core.cancelRequestedAt := by rw [hrowₑ]
  have hmergeₑ : ended.core.mergeFinalizingAt = run.core.mergeFinalizingAt := by rw [hrowₑ]
  have hmerge₃ : run₃.core.mergeFinalizingAt = run.core.mergeFinalizingAt := congrArg _ hcore₃
  have hsession : ended.core.sessionId = run.core.sessionId := by rw [hrowₑ]
  have hworkflow : ended.core.workflowId = run.core.workflowId := by rw [hrowₑ]
  have hid : ended.id = row'.id := Table.get?_key hended
  have hlog : Loggable ended.core.sessionId ended.core.workflowId ended.id db' := by
    rw [hsession, hworkflow, hid]
    exact hquiet.loggable (EventRepository.appendIn_loggable happ)
  exact ⟨ended, hid, hid ▸ hended, hstatusₑ, fun hn => hmarked (hmarkedₑ.symm.trans hn),
    hmergeₑ.trans (hmerge₃.symm.trans hunmerged), validateSnapshots_core hcoreₑ hval, hlog⟩

/-! ## The call again -/

/-- Nothing of the run is left to invalidate. -/
theorem Idle.invalidates (h : Idle rid db) (hholds : MasterLeaseRepository.repo.Holds lease now db) :
    (ApprovalRepository.invalidateForRunIn rid lease reason now).run db = .ok (0, db) := by
  have hrows : db.approvals.rows.filter (fun a => decide (a.workflowRunId = rid ∧ a.status = .pending)) = [] := by
    rw [List.filter_eq_nil_iff]
    intro a ha hpending
    obtain ⟨hof, hstatus⟩ := of_decide_eq_true hpending
    exact h.approvals a ha hof hstatus
  have hsame : ∀ c ∈ db.changeSets.rows,
      (decide (c.status ∈ [ChangeSetStatus.pendingApproval, .approved]) && ApprovalRepository.ofRun db rid c.taskId) = false := by
    intro c hc
    rw [Bool.and_eq_false_iff, decide_eq_false_iff_not, ← isOpen_iff, Bool.not_eq_true]
    by_cases hof : ApprovalRepository.ofRun db rid c.taskId = true
    · exact .inl (h.changeSets c hc (taskOf_iff.2 hof))
    · exact .inr (Bool.eq_false_iff.2 hof)
  unfold ApprovalRepository.invalidateForRunIn
  rw [Tx.run_bind_of_ok (MasterLeaseRepository.assertValidIn_ok.2 ⟨hholds, rfl⟩), Tx.run_read_bind, hrows]
  simp only [ApprovalRepository.forEach, pure_bind, Tx.run_read_bind]
  rw [Tx.run_bind_of_ok (TableRef.update_ok.2 rfl)]
  dsimp only
  rw [Table.update_of_none hsame]
  rfl

/-- Nothing of the run is left to revoke. -/
theorem Idle.revokes (h : Idle rid db) (hholds : MasterLeaseRepository.repo.Holds lease now db) :
    (ApprovalRepository.revokeUnconsumedForRunIn rid lease reason now).run db = .ok (0, db) := by
  have hrows : ApprovalRepository.unspentRows db rid = [] := by
    rw [ApprovalRepository.unspentRows, List.filter_eq_nil_iff]
    intro g hg hunspent
    rw [Bool.and_eq_true, decide_eq_true_eq, unspent_iff] at hunspent
    exact hunspent.1 (h.grants g hg (requestOf_iff.2 hunspent.2))
  unfold ApprovalRepository.revokeUnconsumedForRunIn
  rw [Tx.run_bind_of_ok (MasterLeaseRepository.assertValidIn_ok.2 ⟨hholds, rfl⟩), Tx.run_read_bind]
  change (do
    ApprovalRepository.forEach (ApprovalRepository.revokeOne lease reason now) (ApprovalRepository.unspentRows db rid)
    return (ApprovalRepository.unspentRows db rid).length : Op Nat).run db = _
  rw [hrows]
  rfl

/-- Under a lease that holds, the call on an ended run returns and writes its two events. -/
theorem EndedRun.again {row : WorkflowRunRow} (h : EndedRun H row db) (hidle : Idle row.id db)
    (hholds : MasterLeaseRepository.repo.Holds lease now db) : ∃ db',
      (cancelWithCleanup H ord row.id lease reason now).run db = .ok (row, db') ∧ Quiet db db' ∧
        db'.events.length = db.events.length + 1 := by
  have hterm : row.status.isTerminal = true := by rw [h.cancelled]; rfl
  have hrow : (runRow row.id).run db = .ok (row, db) := runRow_ok.2 ⟨h.found, rfl⟩
  obtain ⟨db₁, happ, hcount⟩ := EventRepository.appendIn_returns h.loggable
  have hquiet₁ := EventRepository.appendIn_quiet happ
  obtain ⟨db₂, hsec, hcount₂⟩ := EventRepository.appendSecurityEventIn_returns (hquiet₁.loggable h.loggable)
  refine ⟨db₂, ?_, hquiet₁.trans (EventRepository.appendSecurityEventIn_quiet hsec), by rw [hcount₂, hcount]⟩
  unfold cancelWithCleanup
  rw [Tx.run_bind_of_ok (MasterLeaseRepository.assertValidIn_ok.2 ⟨hholds, rfl⟩), Tx.run_bind_of_ok hrow,
    if_neg fun hn => h.marked hn.2, Tx.run_bind_of_ok (Tx.ensure_ok.2 ⟨decide_eq_true h.unmerged, rfl⟩)]
  have hens : (ensureCancelled row now).run db = .ok (row, db) := by
    unfold ensureCancelled
    rw [if_neg h.marked]
    rfl
  have hend : (completeCancelIn H ord row.id lease now).run db = .ok (row, db) := by
    unfold completeCancelIn
    rw [Tx.run_bind_of_ok hrow, if_pos hterm]
    exact Tx.run_bind_of_ok h.checked
  rw [Tx.run_bind_of_ok hens, Tx.run_bind_of_ok (hidle.invalidates hholds), Tx.run_bind_of_ok (hidle.revokes hholds),
    Tx.run_bind_of_ok hend, Tx.run_bind_of_ok happ, Tx.run_bind_of_ok hsec]
  rfl

end

/-! ## The claim -/

/-- A call of `cancel_with_cleanup` as it is made. -/
structure Cancellation where
  ord : RowOrder
  lease : MasterLease
  reason : String
  now : Instant

def Cancellation.commit (c : Cancellation) (H : Digests) (rid : String) (db : Db) :
    Except StorageError WorkflowRunRow × Db := Tx.commit (cancelWithCleanup H c.ord rid c.lease c.reason c.now) db

/-- A cancellation of a run that is not finished raises and leaves every table alone, or cleans up all that is within
reach. The call again changes the log only, and changes nothing exactly when it is refused for its lease. -/
theorem cancel_cleans_up (H : Digests) (rid : String) (db : Db) {row : WorkflowRunRow} (first again : Cancellation)
    (hrow : db.workflowRuns.get? rid = some row) (hlive : row.status.isTerminal = false) :
    (∀ e db', first.commit H rid db = (.error e, db') → db' = db) ∧
      ∀ a db', first.commit H rid db = (.ok a, db') →
        Idle rid db' ∧ (Cleaned rid db' ↔ Cleanable rid db) ∧ Quiet db' (again.commit H rid db').2 ∧
          ((again.commit H rid db').2 = db' ↔ ¬ MasterLeaseRepository.repo.Holds again.lease again.now db) := by
  refine ⟨fun e db' h => Tx.commit_error h, fun a db' h => ?_⟩
  obtain ⟨hclosing, ended, rfl, hended⟩ := cancelWithCleanup_closing hrow hlive (Tx.commit_ok h)
  have hlease : MasterLeaseRepository.repo.Holds again.lease again.now db' ↔
      MasterLeaseRepository.repo.Holds again.lease again.now db := by
    rw [MasterLeaseRepository.repo_holds_iff, MasterLeaseRepository.repo_holds_iff, hclosing.masterLeases]
  refine ⟨hclosing.idle, hclosing.cleaned_iff ⟨ended, hended.found, hended.cancelled⟩, ?_⟩
  by_cases hholds : MasterLeaseRepository.repo.Holds again.lease again.now db'
  · obtain ⟨db'', hrun, hquiet, hcount⟩ := hended.again hclosing.idle hholds
    have hcommit : again.commit H ended.id db' = (.ok ended, db'') := Tx.commit_of_ok hrun
    rw [hcommit]
    refine ⟨hquiet, fun heq => ?_, fun hn => absurd (hlease.1 hholds) hn⟩
    rw [show db'' = db' from heq] at hcount
    omega
  · obtain ⟨_, hrun⟩ := MasterLeaseRepository.assertValidIn_lost hholds
    have hcommit : again.commit H ended.id db' = (.error _, db') := Tx.commit_of_error (Tx.error_of_bind hrun)
    rw [hcommit]
    exact ⟨.refl _, fun _ hn => hholds (hlease.2 hn), fun _ => rfl⟩

open ApprovalRepository (sampleApprovals)

theorem commit_returns {c : Cancellation} {H : Digests} {rid : String} {db : Db} (h : (c.commit H rid db).1.isOk = true) :
    ∃ a db', c.commit H rid db = (.ok a, db') := by
  rcases hcommit : c.commit H rid db with ⟨_ | a, db'⟩
  · rw [hcommit] at h
    cases h
  · exact ⟨a, db', rfl⟩

/-- A graph of one agent that only reads. -/
def readGraph : CompiledGraph := { sampleGraph with
  nodes := [{ id := "in", nodeType := .input, title := "in" },
    { id := "read", nodeType := .agentTask, taskKind := some .analyze, title := "read" },
    { id := "out", nodeType := .output, title := "out" }]
  edges := [⟨"e0", "in", "read", .success, false⟩, ⟨"e1", "read", "out", .success, false⟩] }

/-- How the node runs stand while the agent works. -/
def readingNode (n : NodeRunRow) : NodeRunRow :=
  if n.nodeId = "in" then { n with status := .completed, outcome := some .success }
  else if n.nodeId = "read" then { n with status := .running }
  else n

/-- The run of that graph while the agent works. -/
def readDb : Db := { sampleDb with
  workflowRuns := ⟨[{ sampleRunRow with compiledSnapshot := readGraph, status := .running }], by decide, by decide⟩
  nodeRuns := ⟨readGraph.nodes.map (readingNode ∘ sampleNodeRun), by decide, by decide⟩
  tasks := ⟨[⟨"t", "rread", "g", "0", none, none, .running, "", none⟩], by decide, by decide⟩
  changeSets := Table.empty }

/-- The handler raises: the node run is failed, its task left running. -/
def raisedDb : Db :=
  ((sampleInvocation (.run (.completeNode "rread" .failed .failure "" none (some "handler_exception")))).commit
    sampleApprovals readDb).2

def sampleCancel : Cancellation := ⟨.table, sampleLease, "workflow_cancelled", sampleNow⟩

/-- While the agent works the cancellation cleans up. -/
theorem cancel_cleans_up_sample : ∃ a db', sampleCancel.commit sampleDigests "r" readDb = (.ok a, db') ∧ Cleaned "r" db' := by
  have hrow : ∃ row, readDb.workflowRuns.get? "r" = some row ∧ row.status.isTerminal = false := ⟨_, rfl, rfl⟩
  have hok : ∃ a db', sampleCancel.commit sampleDigests "r" readDb = (.ok a, db') := commit_returns (by decide +kernel)
  obtain ⟨row, hrow, hlive⟩ := hrow
  obtain ⟨a, db', hcommit⟩ := hok
  have hclean := ((cancel_cleans_up sampleDigests "r" readDb sampleCancel sampleCancel hrow hlive).2 a db' hcommit).2.1
  exact ⟨a, db', hcommit, hclean.2 ⟨by decide, nofun, nofun⟩⟩

/-- After its handler has raised, the task of the agent is running for good. -/
theorem cancel_leaves_task : ¬ ∀ db row, StoreRun sampleApprovals readDb db → db.workflowRuns.get? "r" = some row →
    row.status.isTerminal = false → (∀ e db', sampleCancel.commit sampleDigests "r" db = (.error e, db') → db' = db) ∧
      ∀ a db', sampleCancel.commit sampleDigests "r" db = (.ok a, db') →
        Cleaned "r" db' ∧ (sampleCancel.commit sampleDigests "r" db').2 = db' := by
  intro h
  have hrow : ((raisedDb.workflowRuns.get? "r").any fun r => r.status.isTerminal = false) = true := by decide +kernel
  have hok : ∃ a db', sampleCancel.commit sampleDigests "r" raisedDb = (.ok a, db') := commit_returns (by decide +kernel)
  have hopen : ∃ t ∈ (sampleCancel.commit sampleDigests "r" raisedDb).2.tasks.rows,
      t.nodeRunId = "rread" ∧ t.status.isLive = true := by decide +kernel
  have hnode : (((sampleCancel.commit sampleDigests "r" raisedDb).2.nodeRuns.get? "rread").any
      fun n => n.workflowRunId = "r") = true := by decide +kernel
  obtain ⟨row, hrow, hlive⟩ := (Option.any_eq_true _ _).1 hrow
  obtain ⟨a, db', hcommit⟩ := hok
  rw [hcommit] at hopen hnode
  obtain ⟨t, ht, hid, htask⟩ := hopen
  have hclean := ((h raisedDb row (.single (.call _)) hrow (of_decide_eq_true hlive)).2 a db' hcommit).1
  have hshut := hclean.tasks t ht (hid ▸ nodeOf_iff.2 hnode)
  rw [hshut] at htask
  cases htask

end AgentHub
