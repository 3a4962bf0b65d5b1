import AgentHub.Storage.LeaseFencing
import AgentHub.Storage.Runs.Schedule
/-!
# The reconcile loop refines the scheduler

A pass reads the rows once and moves each pending row its predecessors decide (`reconcilePass_spec`);
the loop stops at a state no row of which can move (`reconcileLoop_spec`), and the run ends there when
every row has (`reconcileIn_spec`).
-/

namespace AgentHub

open Lib WorkflowRunRepository

/-! ## Views -/

theorem mem_setRow {s : RunState} {id : String} {f : NodeRunRow → NodeRunRow} {r' : NodeRunRow} :
    r' ∈ (s.setRow id f).rows ↔ ∃ r ∈ s.rows, (if r.id = id then f r else r) = r' := by
  simp [RunState.setRow]

/-- Two rows of one id are one row. -/
theorem eq_of_id {rows : List NodeRunRow} (hnd : (rows.map NodeRunRow.id).Nodup) {r r' : NodeRunRow} (hr : r ∈ rows)
    (hr' : r' ∈ rows) (hid : r'.id = r.id) : r' = r := List.inj_on_of_nodup_map hnd hr' hr hid

theorem byNode_mem {rows : List NodeRunRow} {v : String} {r : NodeRunRow} (h : byNode rows v = some r) :
    r ∈ rows ∧ r.nodeId = v := by
  simpa using List.mem_filter.1 (List.mem_of_getLast? h)

/-- The rows a query returns give a view. -/
theorem viewOf_byNode {s : RunState} {l : List NodeRunRow} (hl : l.Perm s.rows) : ViewOf s (byNode l) := by
  intro v r h
  obtain ⟨hr, hv⟩ := byNode_mem h
  exact ⟨hv, r, hl.mem_iff.1 hr, rfl, fun _ => rfl⟩

/-- Moving a pending row keeps a view. -/
theorem ViewOf.setRow {s : RunState} {view : String → Option NodeRunRow} (hview : ViewOf s view)
    (hnd : (s.rows.map NodeRunRow.id).Nodup) {r : NodeRunRow} (hr : r ∈ s.rows) (hp : r.status = .pending)
    {f : NodeRunRow → NodeRunRow} (hf : ∀ x, (f x).skeleton = x.skeleton) : ViewOf (s.setRow r.id f) view := by
  intro v w hw
  obtain ⟨hv, w', hw', hskel, hkeep⟩ := hview v w hw
  refine ⟨hv, _, mem_setRow.2 ⟨w', hw', rfl⟩, ?_, fun hne => ?_⟩
  · by_cases hid : w'.id = r.id
    · rw [if_pos hid, hf, hskel]
    · rw [if_neg hid, hskel]
  · have heq := hkeep hne
    subst heq
    have hid : w'.id ≠ r.id := by
      intro hid
      rw [eq_of_id hnd hr hw' hid] at hne
      exact hne hp
    rw [if_neg hid]

/-! ## One pass -/

section
variable {run : WorkflowRunRow} {lease : MasterLease} {now : Instant} {view : String → Option NodeRunRow}

/-- A promotion moves one pending row of the run. -/
theorem promote_spec {row : NodeRunRow} {target : NodeRunStatus} {db db' : Db} {u : Unit} {s : RunState}
    (h : (promote run lease row target now).run db = .ok (u, db')) (hs : db.runState run.id = some s)
    {node : WorkflowNode} (hnode : s.run.compiledSnapshot.nodes.find? (fun n => n.id = row.nodeId) = some node)
    (hview : ViewOf s view) (hrow : view row.nodeId = some row)
    (htarget : reconcileTarget s.run.compiledSnapshot view node = .ok (some target)) :
    Only run.id db db' ∧ ∃ s', db'.runState run.id = some s' ∧ Promote s s' ∧ ViewOf s' view ∧ s'.run = s.run := by
  simp only [promote, StateT.run_bind, Tx.bind_ok] at h
  obtain ⟨⟨_, db₁⟩, hcas, happ⟩ := h
  obtain ⟨r, hr, hg, hown, hothers⟩ := runState_nodeCas hcas
  have hq := appendNodeState_quiet happ
  obtain ⟨-, w, hw, hskel, -⟩ := hview _ _ hrow
  have hid : w.id = row.id := congrArg Prod.fst hskel
  have hnodeId : w.nodeId = row.nodeId := congrArg (fun x => x.2.2.1) hskel
  have hwdb := mem_rowsOf.1 ((runState_eq_some.1 hs).2 ▸ hw)
  have hwr : w = r := by
    have := Table.get?_of_mem hwdb.1
    rw [hid, hr] at this
    exact (Option.some.inj this).symm
  subst hwr
  rw [hwdb.2] at hown hothers
  rw [hs, Option.map_some] at hown
  refine ⟨⟨(frame_nodeCas hcas).trans hq.frame, fun rid' hne => (hq.runState rid').trans (hothers rid' hne)⟩,
    _, (hq.runState _).trans hown, ?_, ?_, rfl⟩
  · rw [← hid]
    exact .mk w node view target now hw (by simpa using hg) (hnodeId ▸ hnode) hview htarget
  · rw [← hid]
    exact hview.setRow (ids_nodup hs) hw (by simpa using hg) fun x => rfl

/-- No pending node among `ids` can move. -/
def Settled (graph : CompiledGraph) (view : String → Option NodeRunRow) (ids : List String) : Prop :=
  ∀ id ∈ ids, ∀ r, view id = some r → r.status = .pending →
    ∃ node, graph.nodes.find? (fun n => n.id = id) = some node ∧ reconcileTarget graph view node = .ok none

theorem reconcilePass_spec {ids : List String} : ∀ {db db' : Db} {changed : Bool} {s : RunState},
    (reconcilePass run lease view now ids).run db = .ok (changed, db') → db.runState run.id = some s →
    s.run.compiledSnapshot = run.compiledSnapshot → ViewOf s view →
    Only run.id db db' ∧ ∃ s', db'.runState run.id = some s' ∧ s'.run = s.run ∧
      (changed = true → Relation.TransGen Promote s s') ∧
      (changed = false → s' = s ∧ Settled run.compiledSnapshot view ids) := by
  induction ids with
  | nil =>
    intro db db' changed s h hs hgraph hview
    simp only [reconcilePass, StateT.run_pure, Tx.pure_ok, Prod.mk.injEq] at h
    obtain ⟨rfl, rfl⟩ := h
    exact ⟨Only.refl _ _, s, hs, rfl, by simp, fun _ => ⟨rfl, by simp [Settled]⟩⟩
  | cons id ids ih =>
    intro db db' changed s h hs hgraph hview
    simp only [reconcilePass, StateT.run_bind, Tx.bind_ok, Tx.require_ok] at h
    obtain ⟨⟨row, db₀⟩, ⟨hrow, rfl⟩, h⟩ := h
    split at h
    · next hne =>
      obtain ⟨honly, s', hs', hrun, hch, hun⟩ := ih h hs hgraph hview
      refine ⟨honly, s', hs', hrun, hch, fun hc => ⟨(hun hc).1, ?_⟩⟩
      intro id' hid' r hr hp
      rcases List.mem_cons.1 hid' with rfl | hid'
      · simp only [hrow, Option.some.injEq] at hr
        exact absurd (hr ▸ hp) hne
      · exact (hun hc).2 id' hid' r hr hp
    · simp only [StateT.run_bind, Tx.bind_ok, Tx.require_ok, lift_ok] at h
      obtain ⟨⟨node, _⟩, ⟨hnode, rfl⟩, ⟨target, _⟩, ⟨htarget, rfl⟩, h⟩ := h
      simp only at hrow hnode htarget h
      cases target with
      | none =>
        obtain ⟨honly, s', hs', hrun, hch, hun⟩ := ih h hs hgraph hview
        refine ⟨honly, s', hs', hrun, hch, fun hc => ⟨(hun hc).1, ?_⟩⟩
        intro id' hid' r hr hp
        rcases List.mem_cons.1 hid' with rfl | hid'
        · exact ⟨node, hnode, htarget⟩
        · exact (hun hc).2 id' hid' r hr hp
      | some target =>
        simp only [StateT.run_bind, Tx.bind_ok, StateT.run_pure, Tx.pure_ok] at h
        obtain ⟨⟨_, db₁⟩, hprom, ⟨changed', db₂⟩, hrest, h⟩ := h
        simp only [Prod.mk.injEq] at h hrest
        obtain ⟨rfl, rfl⟩ := h
        have hid : row.nodeId = id := (hview _ _ hrow).1
        obtain ⟨honly, s₁, hs₁, hstep, hview₁, hrun₁⟩ := promote_spec hprom hs
          (by rw [hgraph, hid]; exact hnode) hview (by rw [hid]; exact hrow) (by rw [hgraph]; exact htarget)
        obtain ⟨honly', s', hs', hrun', hch, hun⟩ := ih hrest hs₁ (by rw [hrun₁]; exact hgraph) hview₁
        refine ⟨honly.trans honly', s', hs', hrun'.trans hrun₁, fun _ => ?_, by simp⟩
        cases changed' with
        | true => exact .head hstep (hch rfl)
        | false => rw [(hun rfl).1]; exact .single hstep

/-! ## The loop -/

/-- Nothing moves in the state, whatever rows the last pass read. -/
def RunState.AtRest (s : RunState) : Prop :=
  ∃ ids l, topologicalOrder s.run.compiledSnapshot = .ok ids ∧ l.Perm s.rows ∧
    Settled s.run.compiledSnapshot (byNode l) ids

theorem reconcileLoop_spec {ord : RowOrder} {fuel : Nat} : ∀ {k n : Nat} {db db' : Db} {s : RunState},
    (reconcileLoop ord run lease now fuel k).run db = .ok (n, db') → db.runState run.id = some s →
    s.run.compiledSnapshot = run.compiledSnapshot →
    Only run.id db db' ∧ ∃ s', db'.runState run.id = some s' ∧ s'.run = s.run ∧
      Relation.ReflTransGen Promote s s' ∧ s'.AtRest := by
  induction fuel with
  | zero =>
    intro k n db db' s h
    exact (Tx.fail_ok.1 h).elim
  | succ fuel ih =>
    intro k n db db' s h hs hgraph
    simp only [reconcileLoop, StateT.run_bind, Tx.bind_ok, Tx.read_ok, lift_ok] at h
    obtain ⟨_, rfl, ⟨ids, db₀⟩, ⟨hids, hdb⟩, ⟨changed, db₁⟩, hpass, h⟩ := h
    obtain rfl := hdb.symm
    have hperm : (ord.order k (db.rowsOf run.id)).Perm s.rows := (runState_eq_some.1 hs).2 ▸ ord.perm _ _
    obtain ⟨honly, s₁, hs₁, hrun₁, hch, hun⟩ := reconcilePass_spec hpass hs hgraph (viewOf_byNode hperm)
    cases changed with
    | true =>
      obtain ⟨honly', s', hs', hrun', hsteps, hrest⟩ := ih h hs₁ (by rw [hrun₁]; exact hgraph)
      exact ⟨honly.trans honly', s', hs', hrun'.trans hrun₁, (hch rfl).to_reflTransGen.trans hsteps, hrest⟩
    | false =>
      simp only [Bool.false_eq_true, if_false, StateT.run_pure, Tx.pure_ok, Prod.mk.injEq] at h
      obtain ⟨-, rfl⟩ := h
      obtain ⟨rfl, hset⟩ := hun rfl
      exact ⟨honly, s₁, hs₁, rfl, .refl, ids, _, by rw [hgraph]; exact hids, hperm, by rw [hgraph]; exact hset⟩

/-- A verdict does not depend on the order of the rows. -/
theorem verdict_perm {output : NodeRunRow} {l l' : List NodeRunStatus} (h : l.Perm l') :
    verdict output l = verdict output l' := by
  have : l.any (fun s => s = .blockedByGuard) = l'.any (fun s => s = .blockedByGuard) := by
    rw [Bool.eq_iff_iff, List.any_eq_true, List.any_eq_true]
    simp only [h.mem_iff]
  simp only [verdict, this]

/-- The loop runs to rest, and the run ends when every node run has. -/
theorem reconcileIn_spec {ord : RowOrder} {db db' : Db} {u : Unit} {s : RunState}
    (h : (reconcileIn ord run lease now).run db = .ok (u, db')) (hs : db.runState run.id = some s)
    (hgraph : s.run.compiledSnapshot = run.compiledSnapshot) :
    Only run.id db db' ∧ ∃ s₁ s', db'.runState run.id = some s' ∧ s₁.run = s.run ∧
      Relation.ReflTransGen Promote s s₁ ∧ s₁.AtRest ∧
      ((s' = s₁ ∧ ∃ r ∈ s₁.rows, r.status.isTerminal = false) ∨ Finish s₁ s') := by
  simp only [reconcileIn, StateT.run_bind, Tx.bind_ok, Tx.read_ok] at h
  obtain ⟨_, rfl, ⟨passes, db₁⟩, hloop, _, rfl, h⟩ := h
  obtain ⟨honly, s₁, hs₁, hrun₁, hsteps, hrest⟩ := reconcileLoop_spec hloop hs hgraph
  have hperm : (ord.order passes (db₁.rowsOf run.id)).Perm s₁.rows := (runState_eq_some.1 hs₁).2 ▸ ord.perm _ _
  simp only [finishIfDone] at h
  split at h
  · next hall =>
    simp only [StateT.run_bind, Tx.bind_ok, Tx.require_ok, finishRunIn] at h
    obtain ⟨⟨output, _⟩, ⟨houtput, rfl⟩, ⟨row, _⟩, ⟨hrow, rfl⟩, ⟨_, db₂⟩, hcas, happ⟩ := h
    simp only at houtput hrow hcas
    obtain ⟨⟨run', hrun', hg⟩, hown, hothers⟩ := runState_runCas hcas (fun _ => rfl) (fun _ => rfl)
    have hq := appendRunState_quiet happ
    have hrunEq : run' = s₁.run := by
      rw [(runState_eq_some.1 hs₁).1] at hrun'
      exact (Option.some.inj hrun').symm
    subst hrunEq
    rw [hs₁, Option.map_some] at hown
    refine ⟨honly.trans ⟨(frame_runCas hcas).trans hq.frame,
      fun rid' hne => (hq.runState rid').trans (hothers rid' hne)⟩, s₁, _,
      (hq.runState _).trans hown, hrun₁, hsteps, hrest, .inr ?_⟩
    rw [verdict_perm (hperm.map NodeRunRow.status)]
    refine .mk row now (by simpa using hg) ?_ (hperm.mem_iff.1 (List.mem_of_find?_eq_some hrow)) ⟨output, ?_, ?_, ?_⟩
    · intro r hr
      exact List.all_eq_true.1 hall r (hperm.mem_iff.2 hr)
    · rw [hrun₁, hgraph]; exact List.mem_of_find?_eq_some houtput
    · simpa using List.find?_some houtput
    · simpa using List.find?_some hrow
  · next hall =>
    simp only [StateT.run_pure, Tx.pure_ok, Prod.mk.injEq] at h
    obtain ⟨-, rfl⟩ := h
    refine ⟨honly, s₁, s₁, hs₁, hrun₁, hsteps, hrest, .inl ⟨rfl, ?_⟩⟩
    simp only [List.all_eq_true, not_forall, Bool.not_eq_true] at hall
    obtain ⟨r, hr, hterm⟩ := hall
    exact ⟨r, hperm.mem_iff.1 hr, hterm⟩

end

end AgentHub
