import AgentHub.Storage.Runs.Heads
import AgentHub.Storage.Runs.Scheduling
/-!
# Cancelled runs

Once a run is marked as cancelled and no merge of it is being finalized, the repository only takes it to
`cancelled` or `orphaned` (`cancellation_wins`), unless the mark comes when its last node run is already
finished or can only be skipped: the next start then ends the run as if it had not been cancelled.
-/

namespace AgentHub

open Lib WorkflowRunRepository

/-! ## Work left -/

/-- A pending node run that can only become ready: the input's, or one with an incoming edge that every
attempt of its source satisfies. -/
def RunState.enabled (s : RunState) (r : NodeRunRow) : Bool :=
  decide (r.status = .pending) && (s.run.compiledSnapshot.nodes.find? (fun n => n.id = r.nodeId)).any fun node =>
    decide (node.nodeType = .input) || s.run.compiledSnapshot.edges.any fun e => decide (e.toNode = node.id) &&
      s.rows.all fun u => decide (u.nodeId ≠ e.fromNode) ||
        (u.status.isTerminal && edgeSatisfied e.condition u.status u.outcome)

/-- The reconcile loop does not find every node run of the run finished. -/
def RunState.hasWork (s : RunState) : Bool :=
  decide (s.run.status ≠ .running) || s.rows.any fun r => r.isActive || s.enabled r

theorem RunState.enabled_iff {s : RunState} {r : NodeRunRow} : s.enabled r = true ↔ r.status = .pending ∧
    ∃ node, s.run.compiledSnapshot.nodes.find? (fun n => n.id = r.nodeId) = some node ∧ (node.nodeType = .input ∨
      ∃ e ∈ s.run.compiledSnapshot.edges, e.toNode = node.id ∧ ∀ u ∈ s.rows, u.nodeId = e.fromNode →
        u.status.isTerminal = true ∧ edgeSatisfied e.condition u.status u.outcome = true) := by
  simp only [RunState.enabled, Bool.and_eq_true, decide_eq_true_eq, Option.any_eq_true, Bool.or_eq_true,
    List.any_eq_true, List.all_eq_true, ne_eq, imp_iff_not_or]

theorem RunState.hasWork_iff {s : RunState} : s.hasWork = true ↔
    s.run.status ≠ .running ∨ ∃ r ∈ s.rows, r.isActive = true ∨ s.enabled r = true := by
  simp only [RunState.hasWork, Bool.or_eq_true, decide_eq_true_eq, List.any_eq_true]

/-- A node run that is active or enabled is not finished. -/
theorem not_terminal_of_work {s : RunState} {r : NodeRunRow} (h : r.isActive = true ∨ s.enabled r = true) :
    r.status.isTerminal = false := by
  rcases h with h | h
  · unfold NodeRunRow.isActive at h
    revert h
    cases r.status <;> simp [NodeRunStatus.isTerminal]
  · rw [(RunState.enabled_iff.1 h).1]
    rfl

/-! ## What a step leaves of a cancelled run -/

/-- A cancelled run with work left. -/
structure Cancelled (s : RunState) : Prop where
  marked : s.run.cancelRequestedAt ≠ none
  idle : s.run.mergeFinalizingAt = none
  work : s.hasWork = true
  ids : (s.rows.map NodeRunRow.id).Nodup

/-- `s'` is a later state of the cancelled run `s`. -/
structure CancelHolds (s s' : RunState) : Prop where
  status : s'.run.status = s.run.status ∨ s'.run.status = .cancelled ∨ s'.run.status = .orphaned
  running : ∀ r ∈ s'.rows, r.status = .running → ∃ r₀ ∈ s.rows, r₀.id = r.id ∧ r₀.status = .running

theorem CancelHolds.refl (s : RunState) : CancelHolds s s := ⟨.inl rfl, fun r hr h => ⟨r, hr, rfl, h⟩⟩

theorem CancelHolds.trans {a b c : RunState} (h : CancelHolds a b) (h' : CancelHolds b c) : CancelHolds a c := by
  refine ⟨?_, fun r hr hst => ?_⟩
  · rcases h'.status with hst | hst
    · rw [hst]; exact h.status
    · exact .inr hst
  · obtain ⟨r₁, hr₁, hid₁, hst₁⟩ := h'.running r hr hst
    obtain ⟨r₀, hr₀, hid₀, hst₀⟩ := h.running r₁ hr₁ hst₁
    exact ⟨r₀, hr₀, hid₀.trans hid₁, hst₀⟩

theorem RunState.setRow_ids {s : RunState} {id : String} {f : NodeRunRow → NodeRunRow} (hf : ∀ r, (f r).id = r.id) :
    (s.setRow id f).rows.map NodeRunRow.id = s.rows.map NodeRunRow.id := by
  simp only [RunState.setRow, List.map_map]
  refine List.map_congr_left fun r _ => ?_
  simp only [Function.comp_apply]
  split <;> simp [hf]

theorem RunState.mapRows_ids {s : RunState} {g : NodeRunRow → NodeRunRow} (hg : ∀ r, (g r).id = r.id) :
    (s.mapRows g).rows.map NodeRunRow.id = s.rows.map NodeRunRow.id := by
  simp only [RunState.mapRows, List.map_map]
  exact List.map_congr_left fun r _ => hg r

/-- Whether work is left depends on the statuses and outcomes only. -/
theorem hasWork_map {s : RunState} {g : NodeRunRow → NodeRunRow}
    (hg : ∀ r, (g r).nodeId = r.nodeId ∧ (g r).status = r.status ∧ (g r).outcome = r.outcome) (h : s.hasWork = true) :
    (s.mapRows g).hasWork = true := by
  rw [RunState.hasWork_iff] at h ⊢
  refine h.imp id ?_
  rintro ⟨r, hr, hwork⟩
  refine ⟨g r, List.mem_map_of_mem hr, hwork.imp (fun hact => ?_) fun hen => ?_⟩
  · simpa only [NodeRunRow.isActive, (hg r).2.1] using hact
  · obtain ⟨hp, node, hnode, hcase⟩ := RunState.enabled_iff.1 hen
    refine RunState.enabled_iff.2 ⟨(hg r).2.1.trans hp, node, by rw [(hg r).1]; exact hnode, hcase.imp id ?_⟩
    rintro ⟨e, he, hto, hall⟩
    refine ⟨e, he, hto, fun u' hu' hfrom => ?_⟩
    obtain ⟨u, hu, rfl⟩ := List.mem_map.1 hu'
    rw [(hg u).1] at hfrom
    rw [(hg u).2.1, (hg u).2.2]
    exact hall u hu hfrom

/-- A pending node run that an edge enables becomes ready when the loop moves it. -/
theorem ready_of_enabled {s : RunState} {r : NodeRunRow} (h : s.enabled r = true) {node : WorkflowNode}
    (hnode : s.run.compiledSnapshot.nodes.find? (fun n => n.id = r.nodeId) = some node)
    {view : String → Option NodeRunRow} (hview : ViewOf s view) {target : NodeRunStatus}
    (htarget : reconcileTarget s.run.compiledSnapshot view node = .ok (some target)) : target = .ready := by
  obtain ⟨-, node', hnode', hcase⟩ := RunState.enabled_iff.1 h
  rw [hnode] at hnode'
  obtain rfl := Option.some.inj hnode'
  unfold reconcileTarget at htarget
  split at htarget
  · simp only [Except.ok.injEq, Option.some.injEq] at htarget
    exact htarget.symm
  · next hne =>
    obtain ⟨e, he, hto, hall⟩ := hcase.resolve_left hne
    cases hres : resolveEdges view (s.run.compiledSnapshot.edges.filter fun e => e.toNode = node.id) false with
    | error err => rw [hres] at htarget; cases htarget
    | ok d =>
      rw [hres] at htarget
      rcases d with _ | sat
      · simp [Except.map] at htarget
      · obtain ⟨hterm, hsat⟩ := resolveEdges_some hres
        have hmem : e ∈ s.run.compiledSnapshot.edges.filter fun e => e.toNode = node.id :=
          List.mem_filter.2 ⟨he, decide_eq_true hto⟩
        obtain ⟨u, hu, hut⟩ := hterm e hmem
        obtain ⟨hid, u', hu', -, hkeep⟩ := hview _ _ hu
        -- the source was finished when the pass read it, so the row is the one it read
        have hne : u.status ≠ .pending := by
          intro hp
          rw [hp] at hut
          cases hut
        obtain rfl := hkeep hne
        have : sat = true := hsat.2 (.inr ⟨e, hmem, u', hu, (hall u' hu' hid).2⟩)
        subst this
        simpa [Except.map] using htarget.symm

/-- A move of the reconcile loop leaves a run with work its work. -/
theorem Promote.hasWork {s s' : RunState} (h : Promote s s') (hwork : s.hasWork = true)
    (hids : (s.rows.map NodeRunRow.id).Nodup) : s'.hasWork = true := by
  obtain ⟨w, node, view, target, now, hw, hp, hnode, hview, htarget⟩ := h
  rw [RunState.hasWork_iff] at hwork ⊢
  rcases hwork with hrun | ⟨r, hr, hwork⟩
  · exact .inl hrun
  refine .inr ?_
  by_cases hid : r.id = w.id
  · obtain rfl := eq_of_id hids hw hr hid
    have hready : target = .ready := by
      rcases hwork with hact | hen
      · rw [NodeRunRow.isActive, hp] at hact
        simp at hact
      · exact ready_of_enabled hen hnode hview htarget
    subst hready
    exact ⟨_, mem_setRow.2 ⟨r, hr, rfl⟩, .inl (by simp [NodeRunRow.isActive])⟩
  · refine ⟨r, mem_setRow.2 ⟨r, hr, if_neg hid⟩, hwork.imp id fun hen => ?_⟩
    obtain ⟨hrp, node', hnode', hcase⟩ := RunState.enabled_iff.1 hen
    refine RunState.enabled_iff.2 ⟨hrp, node', hnode', hcase.imp id ?_⟩
    rintro ⟨e, he, hto, hall⟩
    refine ⟨e, he, hto, fun u' hu' hfrom => ?_⟩
    obtain ⟨u, hu, rfl⟩ := mem_setRow.1 hu'
    by_cases hu_id : u.id = w.id
    · obtain rfl := eq_of_id hids hw hu hu_id
      rw [if_pos rfl] at hfrom
      have := (hall u hu hfrom).1
      rw [hp] at this
      cases this
    · rw [if_neg hu_id] at hfrom ⊢
      exact hall u hu hfrom

theorem Promote.holds {s s' : RunState} (h : Promote s s') : CancelHolds s s' := by
  obtain ⟨w, node, view, target, now, hw, hp, hnode, hview, htarget⟩ := h
  refine ⟨.inl rfl, fun r hr hst => ?_⟩
  obtain ⟨u, hu, rfl⟩ := mem_setRow.1 hr
  split at hst
  · rcases resolveEdges_target htarget with rfl | rfl <;> cases hst
  · next hid => exact ⟨u, hu, by rw [if_neg hid], hst⟩

theorem cancelled_not_running (now : Instant) (r : NodeRunRow) : (r.cancelled now).status ≠ .running := by
  unfold NodeRunRow.cancelled
  split
  · simp
  · next h =>
    intro hr
    rw [hr] at h
    exact h rfl

theorem orphaned_running {reason : String} {only : Option String} {now : Instant} {r : NodeRunRow}
    (h : (r.orphaned reason only now).status = .running) : r.orphaned reason only now = r := by
  unfold NodeRunRow.orphaned at h ⊢
  split
  · next hc => rw [if_pos hc] at h; cases h
  · rfl

/-- A step of any operation keeps a cancelled run with work one, starts no node run and lets the run end only
as cancelled or orphaned. -/
theorem RunStep.cancelled {s s' : RunState} (h : RunStep s s') (hc : Cancelled s) : Cancelled s' ∧ CancelHolds s s' := by
  have hmark : s.run.cancelRequestedAt ≠ none := hc.marked
  cases h with
  | sched h =>
    cases h with
    | claim r now hr hready hrun hcancel => exact absurd hcancel hmark
    | move h =>
      cases h with
      | start now hrun hcancel => exact absurd hcancel hmark
      | promote hrun h =>
        refine ⟨⟨?_, ?_, h.hasWork hc.work hc.ids, ?_⟩, h.holds⟩
        · rw [h.run_eq]; exact hmark
        · rw [h.run_eq]; exact hc.idle
        · cases h
          rw [RunState.setRow_ids]
          · exact hc.ids
          · exact fun _ => rfl
      | finish h =>
        obtain ⟨output, now, hrunning, hall, -⟩ := h
        exfalso
        rcases RunState.hasWork_iff.1 hc.work with hne | ⟨r, hr, hwork⟩
        · exact hne hrunning
        · exact absurd (hall r hr) (by simp [not_terminal_of_work hwork])
      | complete r target outcome artifact error now hr hrunning hrun hcancel => exact absurd hcancel hmark
      | wait r code hr hrunning hrun hcancel => exact absurd hcancel hmark
      | approve r hr hwaiting hrun hcancel => exact absurd hcancel hmark
      | reject r now hr hwaiting hrun hcancel => exact absurd hcancel hmark
      | rejectRunning r now hr hrunning hrun hcancel => exact absurd hcancel hmark
  | insertRetry r t hr hwaiting hrun hcancel => exact absurd hcancel hmark
  | supersede r now hr hwaiting hrun hcancel => exact absurd hcancel hmark
  | activate r hr hpending hcancel => exact absurd hcancel hmark
  | wake hrun hcancel => exact absurd hcancel hmark
  | beginMerge r now hr hmerge hrunning hrun hcancel => exact absurd hcancel hmark
  | clearMerge =>
    refine ⟨⟨hmark, rfl, ?_, hc.ids⟩, ⟨.inl rfl, (CancelHolds.refl s).running⟩⟩
    have := hc.work
    exact this
  | advance commit hrun hcancel => exact absurd hcancel hmark
  | attach r artifactId hr hdone =>
    refine ⟨⟨hmark, hc.idle, hasWork_map (fun u => ?_) hc.work, ?_⟩, ⟨.inl rfl, fun u hu hst => ?_⟩⟩
    · split <;> exact ⟨rfl, rfl, rfl⟩
    · rw [RunState.setRow_ids]
      · exact hc.ids
      · exact fun _ => rfl
    · obtain ⟨u₀, hu₀, rfl⟩ := mem_setRow.1 hu
      split at hst <;> exact ⟨u₀, hu₀, by split <;> rfl, hst⟩
  | mark now hcancel => exact absurd hcancel hmark
  | cancel now hrun hidle =>
    refine ⟨⟨hmark, hc.idle, RunState.hasWork_iff.2 (.inl (by simp)), ?_⟩, ⟨.inr (.inl rfl), fun r hr hst => ?_⟩⟩
    · exact (RunState.mapRows_ids (cancelled_id now)).symm ▸ hc.ids
    · obtain ⟨u, -, rfl⟩ := List.mem_map.1 hr
      exact absurd hst (cancelled_not_running now u)
  | orphan reason only finishedAt now hrun =>
    refine ⟨⟨hmark, hc.idle, RunState.hasWork_iff.2 (.inl (by simp)), ?_⟩, ⟨.inr (.inr rfl), fun r hr hst => ?_⟩⟩
    · exact (RunState.mapRows_ids (orphaned_id reason only now)).symm ▸ hc.ids
    · obtain ⟨u, hu, rfl⟩ := List.mem_map.1 hr
      have hsame := orphaned_running hst
      exact ⟨u, hu, by rw [hsame], hsame ▸ hst⟩

theorem RunSteps.cancelled {s s' : RunState} (h : RunSteps s s') (hc : Cancelled s) :
    Cancelled s' ∧ CancelHolds s s' := by
  induction h with
  | refl => exact ⟨hc, .refl s⟩
  | tail _ hstep ih =>
    obtain ⟨hc', hholds⟩ := hstep.cancelled ih.1
    exact ⟨hc', ih.2.trans hholds⟩

/-! ## Cancellation wins -/

/-- The call finalizes a merge for a node run of another run. -/
def RunCall.MergesElsewhere (rid : String) (db : Db) (call : RunCall) : Prop :=
  ∃ id changeSetId commit ws summary, call = .finalizeMerge id changeSetId commit ws summary ∧
    ∃ r ∈ db.nodeRuns.rows, r.id = id ∧ r.workflowRunId ≠ rid

/-- No call moves the integration head through a cancelled run. -/
theorem Cancelled.heads {H : Digests} {db : Db} {rid : String} {s : RunState} (hs : db.runState rid = some s)
    (hc : Cancelled s) {i : Invocation} (hcall : ¬ i.call.MergesElsewhere rid db) : SameHeads db (i.commit H db).2 := by
  unfold Invocation.commit Tx.commit
  split
  · next o db' hok =>
    rcases op_heads hok with hsame | ⟨id, changeSetId, commit, ws, summary, node, run, heq, hnode, hnone⟩
    · exact hsame
    · obtain ⟨hget, hrun⟩ := nodeWithRun_eq_some.1 hnode
      have hrid : node.workflowRunId = rid := by
        by_contra hne
        exact hcall ⟨id, changeSetId, commit, ws, summary, heq, node, Table.mem_of_get? hget, Table.get?_key hget, hne⟩
      rw [hrid] at hrun
      have hcore : run.core = s.run := Option.some.inj ((run?_eq_some hrun).symm.trans (runState_eq_some.1 hs).1)
      have hmarked := hc.marked
      rw [← hcore] at hmarked
      exact absurd hnone hmarked
  · exact refl_of SameHeads db

/-- From a state of a run that is cancelled, merges nothing and has work left, no call starts a node run, begins a
merge or moves the integration head through this run, and the run ends only as cancelled or orphaned. -/
theorem cancellation_wins {H : Digests} {db db' : Db} {rid : String} {s : RunState} (hs : db.runState rid = some s)
    (hmarked : s.run.cancelRequestedAt ≠ none) (hidle : s.run.mergeFinalizingAt = none) (hwork : s.hasWork = true)
    (hcalls : Relation.ReflTransGen (CallStep H) db db') :
    ∃ s', db'.runState rid = some s' ∧ s'.run.mergeFinalizingAt = none ∧
      (s'.run.status = s.run.status ∨ s'.run.status = .cancelled ∨ s'.run.status = .orphaned) ∧
      (∀ r ∈ s'.rows, r.status = .running → ∃ r₀ ∈ s.rows, r₀.id = r.id ∧ r₀.status = .running) ∧
      ∀ i : Invocation, ¬ i.call.MergesElsewhere rid db' → SameHeads db' (i.commit H db').2 := by
  obtain ⟨s', hs', hsteps⟩ := refines_of_calls hcalls rid s hs
  obtain ⟨hc, hholds⟩ := hsteps.cancelled ⟨hmarked, hidle, hwork, ids_nodup hs⟩
  exact ⟨s', hs', hc.idle, hholds.status, hholds.running, fun i hi => hc.heads hs' hi⟩

/-- A call of the sample master. -/
def sampleCall (call : RunCall) : Invocation := ⟨call, .table, sampleLease, sampleNow⟩

/-- Start the run, claim the next node run and complete `id` with an outcome. -/
def sampleCalls (steps : List (String × NodeOutcome)) : List Invocation :=
  steps.flatMap fun (id, outcome) => [sampleCall (.startAndReconcile "r"), sampleCall (.claimNext "r"),
    sampleCall (.completeNode id .completed outcome "" none none)]

/-- The sample run with its write task running, cancelled. -/
def sampleCancelled : Db := serve sampleDigests (sampleCalls [("rin", .success)] ++
  [sampleCall (.startAndReconcile "r"), sampleCall (.claimNext "r"), sampleCall (.requestCancel "r")]) sampleDb

theorem cancellation_wins_sample : ∃ s', (serve sampleDigests [sampleCall (.completeNode "rwrite" .completed .success ""
    none none), sampleCall (.startAndReconcile "r")] sampleCancelled).runState "r" = some s' ∧
      s'.run.status ≠ .completed := by
  have hstate : ∃ s, sampleCancelled.runState "r" = some s ∧ s.run.cancelRequestedAt ≠ none ∧
      s.run.mergeFinalizingAt = none ∧ s.hasWork = true ∧ s.run.status = .running := by decide +kernel
  obtain ⟨s, hs, hmarked, hidle, hwork, hrunning⟩ := hstate
  obtain ⟨t, ht, -, hstatus, -⟩ := cancellation_wins hs hmarked hidle hwork (serve_reaches sampleDigests _ _)
  refine ⟨t, ht, ?_⟩
  rw [hrunning] at hstatus
  rcases hstatus with h | h | h <;> simp [h]

/-- The sample run cancelled after its last node run completed, before the start that ends it. -/
def sampleLateCancel : Db := serve sampleDigests (sampleCalls [("rin", .success), ("rwrite", .success),
  ("rw1", .success), ("rw2", .success), ("rw3", .success), ("rw4", .success), ("rw5", .approved), ("rw6", .success),
  ("rout", .success)] ++ [sampleCall (.requestCancel "r")]) sampleDb

/-- The next start completes the cancelled run. -/
theorem cancelled_run_completes : ∃ s, sampleLateCancel.runState "r" = some s ∧ s.run.status = .running ∧
    s.run.cancelRequestedAt ≠ none ∧ s.run.mergeFinalizingAt = none ∧
    ∃ s', (serve sampleDigests [sampleCall (.startAndReconcile "r")] sampleLateCancel).runState "r" = some s' ∧
      s'.run.status = .completed := by
  decide +kernel

end AgentHub
