import AgentHub.Storage.Approvals.Books
import AgentHub.Storage.Runs.Cleanup
/-!
# Runs that are ended: what it tells

Cancelling and quarantining visit the node runs they read, so the statuses their events start from are the stored
ones. Quarantining tells of everything it writes. Cancelling ends the live tasks of a node run without a word.
-/

namespace AgentHub

open Lib WorkflowRunRepository

variable {P : Licence}

/-! ## Loops over rows that were read -/

/-- A loop keeps an invariant of the rows that are left. -/
theorem forEach_left {ρ : Type} {R : Db → Db → Prop} [IsPreorder Db R] {step : ρ → Op Unit} {I : List ρ → Db → Prop}
    (hstep : ∀ r rows db db' u, I (r :: rows) db → (step r).run db = .ok (u, db') → R db db' ∧ I rows db') :
    ∀ rows db db' u, I rows db → (ApprovalRepository.forEach step rows).run db = .ok (u, db') → R db db' ∧ I [] db' := by
  intro rows
  induction rows with
  | nil =>
    intro db db' u hI h
    obtain rfl : db' = db := (Prod.mk.inj (Tx.pure_ok.1 h)).2
    exact ⟨refl_of R _, hI⟩
  | cons r rows ih =>
    intro db db' u hI h
    unfold ApprovalRepository.forEach at h
    rw [StateT.run_bind, Tx.bind_ok] at h
    obtain ⟨⟨_, db₁⟩, hr, h⟩ := h
    obtain ⟨hR, hI₁⟩ := hstep _ _ _ _ _ hI hr
    obtain ⟨hR', hI'⟩ := ih _ _ _ hI₁ h
    exact ⟨trans_of R hR hR', hI'⟩

/-- The node runs that are left to visit are as they were read, and the run has the status it was read with. -/
structure Unvisited (P : Licence) (run : WorkflowRunRow) (rows : List NodeRunRow) (db : Db) : Prop where
  distinct : (rows.map NodeRunRow.id).Nodup
  asRead : ∀ r ∈ rows, db.nodeRuns.get? r.id = some r
  owned : ∀ r ∈ rows, P.owns (.node r.id) run.id
  status : db.stored (.run run.id) = some (.run run.status, none)

namespace Unvisited

variable {run : WorkflowRunRow} {row : NodeRunRow} {rows : List NodeRunRow} {db db' : Db}

/-- The first was visited. -/
theorem next (h : Unvisited P run (row :: rows) db) (hnodes : ∀ id, id ≠ row.id → db'.nodeRuns.get? id = db.nodeRuns.get? id)
    (hrun : db'.stored (.run run.id) = db.stored (.run run.id)) : Unvisited P run rows db' := by
  obtain ⟨hnot, hdistinct⟩ := List.nodup_cons.1 h.distinct
  refine ⟨hdistinct, fun r hr => ?_, fun r hr => h.owned r (List.mem_cons_of_mem _ hr), hrun.trans h.status⟩
  rw [hnodes _ fun heq => hnot ?_]
  · exact h.asRead r (List.mem_cons_of_mem _ hr)
  · rw [← heq]
    exact List.mem_map_of_mem hr

theorem head (h : Unvisited P run (row :: rows) db) : db.nodeRuns.get? row.id = some row ∧ P.owns (.node row.id) run.id :=
  ⟨h.asRead row (List.mem_cons_self ..), h.owned row (List.mem_cons_self ..)⟩

end Unvisited

/-- The rows of a run that a query hands out, whatever their order. -/
theorem unvisited_read (P : Licence) (ord : RowOrder) (k : Nat) (p : NodeRunRow → Bool) {run : WorkflowRunRow} {db : Db}
    (hrun : db.workflowRuns.get? run.id = some run) :
    Unvisited (P.knowing (RowsInRun (ord.order k ((db.rowsOf run.id).filter p)) run.id)) run
      (ord.order k ((db.rowsOf run.id).filter p)) db := by
  have hmem : ∀ r ∈ ord.order k ((db.rowsOf run.id).filter p), r ∈ db.nodeRuns.rows := by
    intro r hr
    have hr := (List.mem_filter.1 ((ord.perm k _).mem_iff.1 hr)).1
    exact (List.mem_filter.1 hr).1
  refine ⟨?_, fun r hr => Table.get?_of_mem (hmem r hr), fun r hr => Or.inr ⟨rfl, r, hr, rfl⟩, ?_⟩
  · refine (((ord.perm k _).map NodeRunRow.id).nodup_iff).2 ?_
    exact db.nodeRuns.key_nodup.sublist ((List.filter_sublist.trans List.filter_sublist).map _)
  · simp only [Db.stored, hrun, Option.map_some]

/-- What reading them tells. -/
theorem rowsInRun_order {ord : RowOrder} {k : Nat} {p : NodeRunRow → Bool} {rid : String} {db : Db} (s : Subject) (r : String)
    (hs : RowsInRun (ord.order k ((db.rowsOf rid).filter p)) rid s r) : db.owner s = some r := by
  obtain ⟨rfl, row, hrow, rfl⟩ := hs
  exact rowsOf_owner (List.mem_filter.1 ((ord.perm k _).mem_iff.1 hrow)).1

/-! ## Cancelling -/

section
variable {run : WorkflowRunRow} {lease : MasterLease} {now : Instant} {db db' : Db}

/-- The run is not finished. -/
def Going (db : Db) (rid : String) : Prop := ∃ run, db.workflowRuns.get? rid = some run ∧ run.status.isTerminal = false

theorem going_iff {db : Db} {rid : String} :
    Going db rid ↔ ∃ status, db.stored (.run rid) = some (.run status, none) ∧ status.isTerminal = false := by
  simp only [Going, Db.stored, Option.map_eq_some_iff]
  constructor
  · rintro ⟨run, hrun, hlive⟩
    exact ⟨run.status, ⟨run, hrun, rfl⟩, hlive⟩
  · rintro ⟨status, ⟨run, hrun, heq⟩, hlive⟩
    cases heq
    exact ⟨run, hrun, hlive⟩

/-- The task is not finished, and it is of a node run of the run that is not finished either. -/
def LiveTask (db : Db) (rid id : String) : Prop :=
  ∃ t ∈ db.tasks.rows, t.id = id ∧ t.status.isLive = true ∧
    ∃ n ∈ db.nodeRuns.rows, n.id = t.nodeRunId ∧ n.workflowRunId = rid ∧ n.status.isLive = true

/-- The statuses in which a cancelled node run ends its task. -/
theorem TaskStatus.isLive_iff {s : TaskStatus} :
    s.isLive = true ↔ s ∈ [TaskStatus.pending, .running, .privilegeRequested] := by
  cases s <;> simp [isLive]

/-- The unfinished tasks of the rows may end silently. -/
def MayEnd (P : Licence) (rows : List NodeRunRow) (db : Db) : Prop :=
  ∀ t ∈ db.tasks.rows, (∃ r ∈ rows, t.nodeRunId = r.id) → t.status.isLive = true → P.silent (.task t.id)

/-- Ending tasks that may end silently changes no page that counts. -/
theorem endTasks_settles {D : Subject → List StateChange} {p : TaskRow → Bool} {f : TaskRow → TaskRow} {hk hu} {n : Nat} {db₁ : Db}
    (hupdate : (Db.tasksT.update p f hk hu : Op Nat).run db = .ok (n, db₁))
    (hsilent : ∀ t ∈ db.tasks.rows, p t = true → P.silent (.task t.id)) (h : Settles P D db₁ db') : Settles P D db db' := by
  obtain rfl := (Prod.mk.inj (TableRef.update_ok.1 hupdate)).2
  refine .still taskUpdate_lawful (fun s hs => page_congr (by rfl) ?_) ⟨rfl, rfl⟩ h
  cases s with
  | run id => rfl
  | node id => rfl
  | task id =>
    simp only [Db.stored]
    rw [Table.get?_update]
    cases ht : db.tasks.get? id with
    | none => rfl
    | some t =>
      have hp : p t = false := by
        rw [← Bool.not_eq_true]
        intro hp
        refine hs ?_
        rw [← Table.get?_key ht]
        exact hsilent t (Table.mem_of_get? ht) hp
      simp [hp]

theorem mem_updated {p : TaskRow → Bool} {f : TaskRow → TaskRow} {hk hu} {n : Nat} {db₁ : Db}
    (hupdate : (Db.tasksT.update p f hk hu : Op Nat).run db = .ok (n, db₁)) {t : TaskRow} (ht : t ∈ db₁.tasks.rows) :
    ∃ t₀ ∈ db.tasks.rows, (if p t₀ then f t₀ else t₀) = t := by
  obtain rfl := (Prod.mk.inj (TableRef.update_ok.1 hupdate)).2
  exact (@Table.mem_update _ _ _ _ _ _ _ _ hk hu _).1 ht

theorem cancelNode_step {row : NodeRunRow} {rows : List NodeRunRow} {u : Unit}
    (h : Unvisited P run (row :: rows) db ∧ MayEnd P (row :: rows) db)
    (hrun : (cancelNode run lease now row).run db = .ok (u, db')) :
    Follows P db db' ∧ Unvisited P run rows db' ∧ MayEnd P rows db' := by
  obtain ⟨hleft, hsilent⟩ := h
  obtain ⟨hrow, howns⟩ := hleft.head
  unfold cancelNode at hrun
  simp only [StateT.run_bind, Tx.bind_ok] at hrun
  obtain ⟨⟨_, db₁⟩, hcas, ⟨n, db₂⟩, htasks, happend⟩ := hrun
  have hdb₂ := (Prod.mk.inj (TableRef.update_ok.1 htasks)).2
  obtain ⟨-, -, -, -, hothers⟩ := TableRef.cas_writes hcas
  have hdb₁ := (Prod.mk.inj (TableRef.cas_ok.1 hcas).2).2
  have htasks₁ : db₁.tasks = db.tasks := by rw [hdb₁]
  obtain ⟨ev, happends, -⟩ := appendNodeState_records happend
  refine ⟨?_, ?_, ?_⟩
  · apply Settles.follows
    refine .nodeSet row.status _ _ hcas (fun _ => rfl) (fun r hr _ => ?_) (fun _ _ _ => ⟨rfl, rfl⟩) (fun hl => by cases hl)
      rfl ?_
    · rw [hrow] at hr
      cases hr
      rfl
    · refine endTasks_settles htasks (fun t ht hp => ?_) ?_
      · change t ∈ db₁.tasks.rows at ht
        rw [htasks₁] at ht
        obtain ⟨hnode, hstatus⟩ := Bool.and_eq_true_iff.1 hp
        exact hsilent t ht ⟨row, List.mem_cons_self .., of_decide_eq_true hnode⟩
          (TaskStatus.isLive_iff.2 (of_decide_eq_true hstatus))
      · refine .record (appendNodeState_records happend) (appendNodeState_lawful howns _ _ _ happend)
          (Function.update_self ..) ?_
        refine (refl_of (Follows P) _).settles fun s => ?_
        by_cases hs : s = .node row.id <;> simp [hs]
  · refine hleft.next (fun id hid => ?_) ?_
    · rw [happends.quiet.nodeRuns, hdb₂]
      exact hothers id hid
    · rw [happends.stored, hdb₂, hdb₁]
      rfl
  · intro t ht hr hlive
    rw [happends.quiet.tasks] at ht
    obtain ⟨t₀, ht₀, rfl⟩ := mem_updated htasks ht
    change t₀ ∈ db₁.tasks.rows at ht₀
    rw [htasks₁] at ht₀
    obtain ⟨r, hr, hnode⟩ := hr
    split at hlive
    · cases hlive
    · next hp =>
      rw [if_neg hp] at hnode ⊢
      exact hsilent t₀ ht₀ ⟨r, List.mem_cons_of_mem _ hr, hnode⟩ hlive

/-- The run is ended last, from the status it was read with. -/
theorem endRun_follows {g : WorkflowRunRow → Bool} {f : WorkflowRunRow → WorkflowRunRow} {hk hu} {e : StorageError}
    {target : WorkflowRunStatus} {u : Unit} (hstatus : db.stored (.run run.id) = some (.run run.status, none))
    (hseq : ∀ r, (f r).nextEventSeq = r.nextEventSeq) (hf : ∀ r, (f r).status = target)
    (h : (Db.workflowRunsT.cas run.id g f hk hu e >>= fun _ => appendRunState run lease run.status target now).run db =
      .ok (u, db')) : Follows P db db' := by
  rw [StateT.run_bind, Tx.bind_ok] at h
  obtain ⟨⟨_, db₁⟩, hcas, happend⟩ := h
  apply Settles.follows
  refine .runSet _ _ hcas hseq hf hstatus rfl ?_
  refine .record (appendRunState_records happend) (appendRunState_lawful _ _ _ happend) (Function.update_self ..) ?_
  refine (refl_of (Follows P) _).settles fun s => ?_
  by_cases hs : s = .run run.id <;> simp [hs]

theorem endCancelled_follows {ord : RowOrder} {a : WorkflowRunRow} (hrun : db.workflowRuns.get? run.id = some run)
    (hsilent : ∀ id, LiveTask db run.id id → P.silent (.task id))
    (h : (endCancelled ord run lease now).run db = .ok (a, db')) : Follows P db db' := by
  unfold endCancelled at h
  rw [StateT.run_bind, Tx.bind_ok] at h
  obtain ⟨_, hensure, h⟩ := h
  obtain ⟨-, rfl⟩ := Tx.ensure_ok.1 hensure
  rw [Tx.run_read_bind, StateT.run_bind, Tx.bind_ok] at h
  obtain ⟨⟨_, db₁⟩, hloop, h⟩ := h
  have hleft := unvisited_read P ord 0 (fun r => r.status.isLive) hrun
  have hall := forEach_left (I := fun rows db => Unvisited (P.knowing _) run rows db ∧ MayEnd (P.knowing _) rows db)
    (R := Follows (P.knowing _)) (fun r rows db db' u => cancelNode_step) _ _ _ _ ⟨hleft, ?_⟩ hloop
  · obtain ⟨hfollows, hdone, -⟩ := hall
    refine trans_of (Follows P) (hfollows.knew fun _ => rowsInRun_order) ?_
    rw [← bind_assoc, StateT.run_bind, Tx.bind_ok] at h
    obtain ⟨⟨_, db₂⟩, hend, h⟩ := h
    obtain rfl : db' = db₂ := (runRow_ok.1 h).2
    refine endRun_follows hdone.status ?_ ?_ hend
    · exact fun _ => rfl
    · exact fun _ => rfl
  · intro t ht hr hlive
    obtain ⟨r, hr, hnode⟩ := hr
    obtain ⟨hr, hrlive⟩ := List.mem_filter.1 ((ord.perm 0 _).mem_iff.1 hr)
    obtain ⟨hr, hrrun⟩ := List.mem_filter.1 hr
    exact hsilent t.id ⟨t, ht, rfl, hlive, r, hr, hnode.symm, of_decide_eq_true hrrun, hrlive⟩

theorem completeCancelIn_follows {H : Digests} {ord : RowOrder} {rid : String} {a : WorkflowRunRow}
    (hsilent : Going db rid → ∀ id, LiveTask db rid id → P.silent (.task id))
    (h : (completeCancelIn H ord rid lease now).run db = .ok (a, db')) : Follows P db db' := by
  unfold completeCancelIn at h
  rw [StateT.run_bind, Tx.bind_ok] at h
  obtain ⟨⟨run, s⟩, hrun, h⟩ := h
  obtain ⟨hrun, rfl⟩ := runRow_ok.1 hrun
  obtain rfl := Table.get?_key hrun
  dsimp only at hrun hsilent h ⊢
  split at h
  · exact (runRecord_readOnly H run).within _ _ _ h
  · next hlive =>
    rw [StateT.run_bind, Tx.bind_ok] at h
    obtain ⟨⟨ended, db₁⟩, hended, h⟩ := h
    have hfollows := endCancelled_follows hrun (hsilent ⟨run, hrun, Bool.eq_false_iff.2 hlive⟩) hended
    exact trans_of (Follows P) hfollows ((runRecord_readOnly H ended).within _ _ _ h)

theorem completeCancel_follows {H : Digests} {ord : RowOrder} {rid : String} {a : WorkflowRunRow}
    (hsilent : Going db rid → ∀ id, LiveTask db rid id → P.silent (.task id))
    (h : (completeCancel H ord rid lease now).run db = .ok (a, db')) : Follows P db db' := by
  unfold completeCancel at h
  simp only [StateT.run_bind, Tx.bind_ok] at h
  obtain ⟨⟨_, s⟩, hlease, ⟨run, s'⟩, hrun, h⟩ := h
  obtain rfl : s = db := assertMaster_readOnly _ _ _ _ hlease
  obtain ⟨hrun, rfl⟩ := runRow_ok.1 hrun
  obtain rfl := Table.get?_key hrun
  dsimp only at hrun hsilent h ⊢
  split at h
  · exact (runRecord_readOnly H run).within _ _ _ h
  · next hlive => exact endCancelled_follows hrun (hsilent ⟨run, hrun, Bool.eq_false_iff.2 hlive⟩) h

theorem markCancelled_follows (rid : String) (now : Instant) : Tx.Within (Follows P) (markCancelled rid now) :=
  runCas_follows (fun _ => rfl) fun _ => rfl

theorem ensureCancelled_follows (row : WorkflowRunRow) (now : Instant) : Tx.Within (Follows P) (ensureCancelled row now) :=
  .ite (.bind (markCancelled_follows _ _) fun _ => (runRow_readOnly _).within) (.pure _)

theorem requestCancel_follows (H : Digests) (rid : String) (lease : MasterLease) (now : Instant) :
    Tx.Within (Follows P) (requestCancel H rid lease now) := by
  refine .bind (assertMaster_readOnly _ _).within fun _ => .bind (runRow_readOnly _).within fun row => ?_
  refine .ite (runRecord_readOnly _ _).within (.bind (.ensure _ _) fun _ => .ite (runRecord_readOnly _ _).within ?_)
  exact .bind (markCancelled_follows _ _) fun _ => (runRow_readOnly _).within

/-- `append_security_in` writes another table. -/
theorem appendSecurityEventIn_follows {sid rid typ severity : String} {payload : EventPayload} {now : Instant} :
    Tx.Within (Follows P) (EventRepository.appendSecurityEventIn sid rid typ severity payload now) := by
  refine .bind (TableRef.select_within _) fun _ => .bind (.require _ _) fun _ => .bind (TableRef.select_within _) fun _ => ?_
  exact .bind (.ensure _ _) fun _ => aside_within (.write fun _ => ⟨rfl, rfl, rfl, rfl, rfl⟩)

/-- A cancellation that has work to do: the run is not finished, or it was marked. -/
def Cleans (db : Db) (rid : String) : Prop :=
  ∃ run, db.workflowRuns.get? rid = some run ∧ (run.status.isTerminal = true → run.cancelRequestedAt ≠ none)

theorem cancelWithCleanup_follows {H : Digests} {ord : RowOrder} {rid reason : String} {a : WorkflowRunRow}
    (htarget : P.target = .cancelled) (hsilent : Going db rid → ∀ id, LiveTask db rid id → P.silent (.task id))
    (hall : Cleans db rid → ApprovalRepository.EndsAll P rid db)
    (hpending : Cleans db rid → ∀ a ∈ db.approvals.rows, a.workflowRunId = rid → a.status = .pending →
      ∀ s ∈ [ChangeSetStatus.pendingApproval, .approved], ApprovalRepository.Ends P a s)
    (h : (cancelWithCleanup H ord rid lease reason now).run db = .ok (a, db')) : Follows P db db' := by
  unfold cancelWithCleanup at h
  simp only [StateT.run_bind, Tx.bind_ok] at h
  obtain ⟨⟨_, s⟩, hlease, ⟨run, s'⟩, hrun, h⟩ := h
  obtain rfl : s = db := assertMaster_readOnly _ _ _ _ hlease
  obtain ⟨hrun, hs⟩ := runRow_ok.1 hrun
  dsimp only at hrun hs h
  subst hs
  obtain rfl := Table.get?_key hrun
  split at h
  · exact (runRecord_readOnly H run).within _ _ _ h
  next hwork =>
  have hcleans : Cleans _ run.id := ⟨run, hrun, fun hterm hcancel => hwork ⟨hterm, hcancel⟩⟩
  simp only [StateT.run_bind, Tx.bind_ok, Tx.ensure_ok, StateT.run_pure, Tx.pure_ok] at h
  obtain ⟨_, ⟨-, rfl⟩, ⟨marked, db₁⟩, hens, ⟨_, db₂⟩, hinv, ⟨_, db₃⟩, hrev, ⟨result, db₄⟩, hend, ⟨_, db₅⟩, happ, ⟨_, db₆⟩,
    hsec, hlast⟩ := h
  obtain rfl : db' = db₆ := (Prod.mk.inj hlast).2
  have hens' := ensureCancelled_follows (P := P) run now _ _ _ hens
  obtain ⟨⟨t, ht⟩, hmarked, hstatus, -⟩ := ensureCancelled_ok hrun hens
  dsimp only at hinv hrev hend happ hsec
  -- The mark is on the run alone, so the rows the hooks read are the ones there were.
  have hinv' : Follows P db₁ db₂ := by
    subst ht
    exact ApprovalRepository.invalidateForRunIn_follows htarget (hall hcleans) (hpending hcleans) hinv
  have hrev' := ApprovalRepository.revokeUnconsumedForRunIn_follows (P := P) _ _ _ _ _ _ _ hrev
  have hhooks : SameRuns db₁ db₃ :=
    trans_of SameRuns (invalidateForRunIn_within _ _ _ _ _ _ _ hinv) (revokeUnconsumedForRunIn_within _ _ _ _ _ _ _ hrev)
  have hend' : Follows P db₃ db₄ := by
    refine completeCancelIn_follows (fun hgoing id hlive => hsilent ?_ id ?_) hend
    · obtain ⟨status, hstored, hlive⟩ := going_iff.1 hgoing
      rw [stored_run, hhooks.runs, ← stored_run] at hstored
      simp only [Db.stored, hmarked, Option.map_some, hstatus, Option.some.injEq, Prod.mk.injEq, SubjectStatus.run.injEq,
        and_true] at hstored
      rw [← hstored] at hlive
      exact ⟨run, hrun, hlive⟩
    · obtain ⟨dbᵢ, hpending, hbulk⟩ := ApprovalRepository.invalidateForRunIn_closing hinv
      have hclosing := (hpending.trans hbulk).trans (ApprovalRepository.revokeUnconsumedForRunIn_closing hrev)
      have htasks := hclosing.tasks.rows_iff (J := fun v => v.id = id ∧ v.status.isLive = true ∧
        ∃ n ∈ db₃.nodeRuns.rows, n.id = v.owner ∧ n.workflowRunId = run.id ∧ n.status.isLive = true) fun v => by
          simp [Targets.or, Targets.any, ApprovalRepository.invalidated, ApprovalRepository.subjectOf, ApprovalRepository.revoked]
      have hlive := htasks.1 hlive
      rw [hhooks.nodeRuns, ht] at hlive
      exact hlive
  have happ' : Follows P db₄ db₅ := appendIn_follows (fun _ => rfl) (fun _ => rfl) _ _ _ happ
  have hsec' := appendSecurityEventIn_follows (P := P) _ _ _ hsec
  exact trans_of (Follows P) hens' (trans_of (Follows P) hinv' (trans_of (Follows P) hrev' (trans_of (Follows P) hend'
    (trans_of (Follows P) happ' hsec'))))

end

/-! ## Quarantine -/

section
variable {run : WorkflowRunRow} {lease : MasterLease} {reason : String} {only : Option String} {now : Instant} {db db' : Db}

theorem orphanNode_step {row : NodeRunRow} {rows : List NodeRunRow} {u : Unit}
    (h : Unvisited P run (row :: rows) db ∧ ∀ r ∈ row :: rows, r.status ∈ [NodeRunStatus.running, .waitingApproval])
    (hrun : (orphanNode run lease reason only now row).run db = .ok (u, db')) :
    Follows P db db' ∧ Unvisited P run rows db' ∧ ∀ r ∈ rows, r.status ∈ [NodeRunStatus.running, .waitingApproval] := by
  obtain ⟨hleft, hlive⟩ := h
  obtain ⟨hrow, howns⟩ := hleft.head
  have hstatus := hlive row (List.mem_cons_self ..)
  have hrest : ∀ r ∈ rows, r.status ∈ [NodeRunStatus.running, .waitingApproval] :=
    fun r hr => hlive r (List.mem_cons_of_mem _ hr)
  unfold orphanNode at hrun
  split at hrun
  · -- Another node run is named: this one is left alone.
    obtain rfl : db' = db := (Prod.mk.inj (Tx.pure_ok.1 hrun)).2
    exact ⟨refl_of (Follows P) _, hleft.next (fun _ _ => rfl) rfl, hrest⟩
  simp only [StateT.run_bind, Tx.bind_ok] at hrun
  obtain ⟨⟨n, db₁⟩, hupdate, happend⟩ := hrun
  have hcas := TableRef.update_cas (e := StorageError.outOfFuel) hupdate hrow (decide_eq_true hstatus)
  obtain ⟨-, -, -, -, hothers⟩ := TableRef.cas_writes hcas
  have hdb₁ := (Prod.mk.inj (TableRef.update_ok.1 hupdate)).2
  obtain ⟨ev, happends, -⟩ := appendNodeState_records happend
  refine ⟨?_, hleft.next (fun id hid => ?_) ?_, hrest⟩
  · apply Settles.follows
    refine .nodeSet row.status .orphaned none hcas (fun _ => rfl) (fun r hr _ => ?_)
      (fun r hr ho => ⟨rfl, ho ?_⟩) (fun _ => rfl) rfl ?_
    · rw [hrow] at hr
      cases hr
      rfl
    · have hmem := of_decide_eq_true hr
      cases hs : r.status <;> simp [hs, NodeRunStatus.isLive] at hmem ⊢
    · refine .record (appendNodeState_records happend) (appendNodeState_lawful howns _ _ _ happend)
        (Function.update_self ..) ?_
      refine (refl_of (Follows P) _).settles fun s => ?_
      by_cases hs : s = .node row.id <;> simp [hs]
  · rw [happends.quiet.nodeRuns]
    exact hothers id hid
  · rw [happends.stored, hdb₁]
    rfl

/-- The statuses a run is quarantined from are those it is not finished in. -/
theorem orphanRun_follows {u : Unit} (hstatus : db.stored (.run run.id) = some (.run run.status, none))
    (hlive : run.status.isTerminal = true → run.status = .orphaned)
    (h : (orphanRun run lease now).run db = .ok (u, db')) : Follows P db db' := by
  unfold orphanRun at h
  split at h
  · next hne =>
    simp only [StateT.run_bind, Tx.bind_ok] at h
    obtain ⟨⟨n, db₁⟩, hupdate, ⟨m, db₂⟩, hsession, happend⟩ := h
    obtain ⟨stored, hstored, heq⟩ := Option.map_eq_some_iff.1 hstatus
    have hsame : stored.status = run.status := by simpa using heq
    have hmem : stored.status ∈ [WorkflowRunStatus.pending, .running, .waitingApproval, .paused] := by
      rw [hsame]
      cases hs : run.status <;> simp [hs, WorkflowRunStatus.isTerminal] at hlive hne ⊢
    have hcas := TableRef.update_cas (e := StorageError.outOfFuel) hupdate hstored (decide_eq_true hmem)
    have haside : Aside db₁ db₂ := TableRef.update_within (fun _ _ => ⟨rfl, rfl, rfl, rfl, rfl⟩) _ _ _ hsession
    apply Settles.follows
    refine .runSet _ .orphaned hcas (fun _ => rfl) (fun _ => rfl) hstatus rfl ?_
    refine .still haside.lawful (fun s _ => page_congr haside.events (haside.stored s)) ⟨haside.changeSets, haside.events⟩ ?_
    refine .record (appendRunState_records happend) (appendRunState_lawful _ _ _ happend) (Function.update_self ..) ?_
    refine (refl_of (Follows P) _).settles fun s => ?_
    by_cases hs : s = .run run.id <;> simp [hs]
  · rw [(Prod.mk.inj (Tx.pure_ok.1 h)).2]
    exact refl_of (Follows P) _

theorem markOrphaned_follows (H : Digests) (ord : RowOrder) (rid reason : String) (only : Option String)
    (lease : MasterLease) (now : Instant) : Tx.Within (Follows P) (markOrphaned H ord rid lease reason only now) := by
  intro db a db' h
  unfold markOrphaned at h
  simp only [StateT.run_bind, Tx.bind_ok] at h
  obtain ⟨⟨_, s⟩, hlease, ⟨run, s'⟩, hrun, h⟩ := h
  obtain rfl : s = db := assertMaster_readOnly _ _ _ _ hlease
  obtain ⟨hrun, hs⟩ := runRow_ok.1 hrun
  dsimp only at hrun hs h
  subst hs
  obtain rfl := Table.get?_key hrun
  split at h
  · exact (runRecord_readOnly H run).within _ _ _ h
  next hlive =>
  rw [Tx.run_read_bind, StateT.run_bind, Tx.bind_ok] at h
  obtain ⟨⟨_, db₁⟩, hloop, h⟩ := h
  rw [StateT.run_bind, Tx.bind_ok] at h
  obtain ⟨⟨_, db₂⟩, hend, h⟩ := h
  obtain rfl : db' = db₂ := (runRow_ok.1 h).2
  have hleft := unvisited_read P ord 0 (fun r => r.status ∈ [.running, .waitingApproval]) hrun
  have hall := forEach_left (R := Follows (P.knowing _)) (I := fun rows db => Unvisited (P.knowing _) run rows db ∧
    ∀ r ∈ rows, r.status ∈ [NodeRunStatus.running, .waitingApproval]) (fun r rows db db' u => orphanNode_step) _ _ _ _
    ⟨hleft, fun r hr => ?_⟩ hloop
  · obtain ⟨hfollows, hdone, -⟩ := hall
    refine trans_of (Follows P) (hfollows.knew fun _ => rowsInRun_order) (orphanRun_follows hdone.status (fun hterm => ?_) hend)
    by_contra hne
    exact hlive ⟨hterm, hne⟩
  · exact of_decide_eq_true (List.mem_filter.1 ((ord.perm 0 _).mem_iff.1 hr)).2

end

end AgentHub
