import AgentHub.Storage.Runs.Scheduling
/-!
# No silent deadlock

After a start, a run that has not ended has an active node run (`RunInv.progress`); a node run leaves
`pending` as its predecessors decide (`Decided`), and stays pending only behind an unfinished one.
-/

namespace AgentHub

open Lib WorkflowRunRepository

/-! ## Predecessors -/

/-- Every predecessor of `v` is terminal. -/
def PredecessorsDone (graph : CompiledGraph) (rows : List NodeRunRow) (v : String) : Prop :=
  ∀ e ∈ graph.edges, e.toNode = v → ∃ u ∈ rows, u.nodeId = e.fromNode ∧ u.status.isTerminal = true

/-- Some edge into `v` is satisfied by the outcome of its source. -/
def SomeSatisfied (graph : CompiledGraph) (rows : List NodeRunRow) (v : String) : Prop :=
  ∃ e ∈ graph.edges, e.toNode = v ∧ ∃ u ∈ rows, u.nodeId = e.fromNode ∧
    edgeSatisfied e.condition u.status u.outcome = true

/-- The predecessors of a node run are terminal, and it is ready or skipped as their edges say. -/
def Decided (graph : CompiledGraph) (rows : List NodeRunRow) (r : NodeRunRow) : Prop :=
  PredecessorsDone graph rows r.nodeId ∧ ((r.status = .ready ∧ SomeSatisfied graph rows r.nodeId) ∨
    (r.status = .skipped ∧ ¬ SomeSatisfied graph rows r.nodeId))

section
variable {graph : CompiledGraph} {input output : WorkflowNode} {W : WellFormed graph input output} {s s' : RunState}

theorem RunInv.predecessorsDone (h : RunInv W s) {v : String} (hready : Token.Ready W.net s.mark v) :
    PredecessorsDone graph s.rows v := by
  rintro e he rfl
  obtain ⟨o, ho⟩ := hready e.fromNode e.condition ⟨e, he, rfl, rfl, rfl⟩
  obtain ⟨u, hu, hid⟩ := h.mem_row (W.refs e he).1
  refine ⟨u, hu, hid, mark_done.1 ⟨o, ?_⟩⟩
  rw [← mark_of_mem h.node_nodup hu, hid]
  exact ho

theorem RunInv.someSatisfied (h : RunInv W s) {v : String} (hdone : PredecessorsDone graph s.rows v) :
    SomeSatisfied graph s.rows v ↔ ∃ u, Token.Fired W.net s.mark u v := by
  constructor
  · rintro ⟨e, he, rfl, u, hu, hid, hsat⟩
    obtain ⟨u', hu', hid', hterm⟩ := hdone e he rfl
    obtain rfl := List.inj_on_of_nodup_map h.node_nodup hu' hu (hid'.trans hid.symm)
    obtain ⟨o, ho, hexp⟩ := (edgeSatisfied_iff hterm _).1 hsat
    refine ⟨e.fromNode, e.condition, o, ⟨e, he, rfl, rfl, rfl⟩, ?_, hexp⟩
    rw [← hid, mark_of_mem h.node_nodup hu]
    exact ho
  · rintro ⟨_, _, o, ⟨e, he, rfl, rfl, rfl⟩, ho, hexp⟩
    obtain ⟨u, hu, hid, hterm⟩ := hdone e he rfl
    refine ⟨e, he, rfl, u, hu, hid, (edgeSatisfied_iff hterm _).2 ⟨o, ?_, hexp⟩⟩
    rw [← mark_of_mem h.node_nodup hu, hid]
    exact ho

/-- A ready or skipped node run was decided by its predecessors, the input's apart. -/
theorem RunInv.decided_of_left (h : RunInv W s) {r : NodeRunRow} (hr : r ∈ s.rows)
    (hstatus : r.status = .ready ∨ r.status = .skipped) :
    (r.nodeId = input.id → r.status = .ready) ∧ (r.nodeId ≠ input.id → Decided graph s.rows r) := by
  have hmark := mark_of_mem h.node_nodup hr
  refine ⟨fun hin => ?_, fun hne => ?_⟩
  · rcases hstatus with hst | hst
    · exact hst
    · have hdone : s.mark r.nodeId = .done none := by rw [hmark]; simp [NodeRunRow.mark, hst]
      exact absurd hin (h.token.skipped _ hdone).1
  · have hpred := h.predecessorsDone (h.token.ready r.nodeId (by
      rw [hmark]; rcases hstatus with hst | hst <;> simp [NodeRunRow.mark, hst]))
    refine ⟨hpred, ?_⟩
    rcases hstatus with hst | hst
    · have hlive : (s.mark r.nodeId).Live := by rw [hmark]; simp [NodeRunRow.mark, hst, Token.Mark.Live]
      exact .inl ⟨hst, (h.someSatisfied hpred).2 (h.token.fired _ hne hlive)⟩
    · have hdone : s.mark r.nodeId = .done none := by rw [hmark]; simp [NodeRunRow.mark, hst]
      exact .inr ⟨hst, fun hsat => (h.token.skipped _ hdone).2 ((h.someSatisfied hpred).1 hsat)⟩

/-! ## At rest -/

/-- At rest a pending node run has an unfinished predecessor. -/
theorem RunInv.waits (h : RunInv W s) (hrest : s.AtRest) {r : NodeRunRow} (hr : r ∈ s.rows) (hp : r.status = .pending) :
    ∃ e ∈ graph.edges, e.toNode = r.nodeId ∧ ∃ u ∈ s.rows, u.nodeId = e.fromNode ∧ u.status.isTerminal = false := by
  obtain ⟨ids, l, hids, hperm, hset⟩ := hrest
  rw [h.snapshot] at hids hset
  have hv : r.nodeId ∈ nodeIds graph.nodes := h.nodes.mem_iff.1 (List.mem_map_of_mem hr)
  have hmem : r.nodeId ∈ ids := mem_topologicalOrder hids hv
  have hrow : byNode l r.nodeId = some r := by
    cases hb : byNode l r.nodeId with
    | none =>
      have hmem : r ∈ l.filter (fun x => x.nodeId = r.nodeId) := List.mem_filter.2 ⟨hperm.mem_iff.2 hr, by simp⟩
      rw [List.getLast?_eq_none_iff.1 hb] at hmem
      simp at hmem
    | some x =>
      obtain ⟨hx, hid⟩ := byNode_mem hb
      rw [List.inj_on_of_nodup_map h.node_nodup (hperm.mem_iff.1 hx) hr hid]
  obtain ⟨node, hnode, htarget⟩ := hset _ hmem r hrow hp
  have hid : node.id = r.nodeId := by simpa using List.find?_some hnode
  unfold reconcileTarget at htarget
  split at htarget
  · simp at htarget
  · cases hres : resolveEdges (byNode l) (graph.edges.filter fun e => e.toNode = node.id) false with
    | error e => rw [hres] at htarget; cases htarget
    | ok d =>
      rw [hres] at htarget
      cases d with
      | some sat => simp [Except.map] at htarget
      | none =>
        obtain ⟨e, he, u, hu, hterm⟩ := resolveEdges_none hres
        obtain ⟨he, hto⟩ := List.mem_filter.1 he
        obtain ⟨hul, huid⟩ := byNode_mem hu
        exact ⟨e, he, (by simpa using hto : e.toNode = node.id).trans hid, u, hperm.mem_iff.1 hul, huid, hterm⟩

/-- At rest with an unfinished node run, some node run is active. -/
theorem RunInv.active_of_rest (h : RunInv W s) (hrest : s.AtRest) {r : NodeRunRow} (hr : r ∈ s.rows)
    (hterm : r.status.isTerminal = false) : ∃ r ∈ s.rows, r.isActive = true := by
  by_contra hno
  have hactive : ∀ v, v ∈ nodeIds graph.nodes → s.mark v ≠ .active := by
    intro v hv hm
    obtain ⟨x, hx, rfl⟩ := h.mem_row hv
    rw [mark_of_mem h.node_nodup hx] at hm
    exact hno ⟨x, hx, mark_active.1 hm⟩
  have hfix : ∀ v, v ∈ nodeIds graph.nodes → s.mark v = .pending →
      ∃ u c, W.net.edge u c v ∧ ∀ o, s.mark u ≠ .done o := by
    intro v hv hm
    obtain ⟨x, hx, rfl⟩ := h.mem_row hv
    rw [mark_of_mem h.node_nodup hx] at hm
    obtain ⟨e, he, hto, u, hu, hid, hut⟩ := h.waits hrest hx (mark_pending.1 hm)
    refine ⟨e.fromNode, e.condition, ⟨e, he, rfl, rfl, hto⟩, fun o ho => ?_⟩
    rw [← hid, mark_of_mem h.node_nodup hu] at ho
    rw [mark_done.1 ⟨o, ho⟩] at hut
    cases hut
  have hsource : ∀ u c v, W.net.edge u c v → v ∈ nodeIds graph.nodes → u ∈ nodeIds graph.nodes := by
    rintro _ _ _ ⟨e, he, rfl, rfl, rfl⟩ -
    exact (W.refs e he).1
  have hv : r.nodeId ∈ nodeIds graph.nodes := h.nodes.mem_iff.1 (List.mem_map_of_mem hr)
  obtain ⟨o, ho⟩ := Token.all_done hsource hfix hactive hv
  rw [mark_of_mem h.node_nodup hr] at ho
  rw [mark_done.1 ⟨o, ho⟩] at hterm
  cases hterm

theorem verdict_terminal (out : NodeRunRow) (l : List NodeRunStatus) : (verdict out l).isTerminal = true := by
  rcases verdict_cases out l with h | h | h <;> rw [h] <;> rfl

/-- A start leaves the run ended or with an active node run, and pending node runs only behind unfinished ones. -/
theorem RunInv.progress (h : RunInv W s) (hst : Started s s') :
    (s'.run.status.isTerminal = true ∨ ∃ r ∈ s'.rows, r.isActive = true) ∧
      (s.run.status = .pending ∨ s.run.status = .running → ∀ r ∈ s'.rows, r.status = .pending →
        ∃ e ∈ graph.edges, e.toNode = r.nodeId ∧ ∃ u ∈ s'.rows, u.nodeId = e.fromNode ∧
          u.status.isTerminal = false) := by
  by_cases hgo : s.run.status = .pending ∨ s.run.status = .running
  · obtain ⟨s₀, hrun₀, hsteps, s₁, hrun₁, hprom, hrest, hend⟩ := hst.rest hgo
    have h₀ := h.steps (MoveStep.sched hsteps)
    have h₁ := h₀.steps (MoveStep.sched (promotes_move hrun₀ hprom).2)
    rcases hend with ⟨rfl, r, hr, hterm⟩ | ⟨out, now, -, hall, -, -⟩
    · exact ⟨.inr (h₁.active_of_rest hrest hr hterm), fun _ r hr hp => h₁.waits hrest hr hp⟩
    · refine ⟨.inl (verdict_terminal _ _), fun _ r hr hp => ?_⟩
      have := hall r hr
      rw [hp] at this
      cases this
  · simp only [not_or] at hgo
    obtain rfl := hst.idle hgo.1 hgo.2
    refine ⟨?_, fun hgo' => (hgo'.elim hgo.1 hgo.2).elim⟩
    have hstatus := h.status
    simp only [List.mem_cons, List.not_mem_nil, or_false] at hstatus
    rcases hstatus with hs | hs | hs | hs | hs | hs
    · exact absurd hs hgo.1
    · exact absurd hs hgo.2
    · obtain ⟨r, hr, hw⟩ := h.waiting hs
      exact .inr ⟨r, hr, by simp [NodeRunRow.isActive, hw]⟩
    all_goals exact .inl (by rw [hs]; rfl)

/-! ## Leaving `pending` -/

/-- The statuses a pending node run has until it is claimed. -/
def NodeRunRow.Unclaimed (r : NodeRunRow) : Prop := r.status = .pending ∨ r.status = .ready ∨ r.status = .skipped

/-- Without a claim, a node run that was not claimed stays so. -/
theorem MoveStep.unclaimed (hnd : (s.rows.map NodeRunRow.id).Nodup) (h : MoveStep s s') {r : NodeRunRow}
    (hr : r ∈ s.rows) (hu : r.Unclaimed) :
    ∃ r' ∈ s'.rows, r'.id = r.id ∧ r'.nodeId = r.nodeId ∧ r'.Unclaimed := by
  have hkeep : ∀ {x : NodeRunRow} {f : NodeRunRow → NodeRunRow}, x ∈ s.rows → ¬ x.Unclaimed →
      ∃ r' ∈ (s.setRow x.id f).rows, r'.id = r.id ∧ r'.nodeId = r.nodeId ∧ r'.Unclaimed := by
    intro x f hx hxu
    refine ⟨r, mem_setRow.2 ⟨r, hr, if_neg fun hid => hxu ?_⟩, rfl, rfl, hu⟩
    rw [eq_of_id hnd hr hx hid.symm]
    exact hu
  cases h with
  | start => exact ⟨r, hr, rfl, rfl, hu⟩
  | finish hf => cases hf; exact ⟨r, hr, rfl, rfl, hu⟩
  | promote hrun hp =>
    obtain ⟨x, node, view, target, now, hx, hxp, -, -, htarget⟩ := hp
    by_cases hid : r.id = x.id
    · refine ⟨_, mem_setRow.2 ⟨r, hr, if_pos hid⟩, rfl, rfl, ?_⟩
      rcases resolveEdges_target htarget with rfl | rfl
      · exact .inr (.inl rfl)
      · exact .inr (.inr rfl)
    · exact ⟨r, mem_setRow.2 ⟨r, hr, if_neg hid⟩, rfl, rfl, hu⟩
  | complete x target outcome artifact error now hx hrunning => exact hkeep hx (by simp [NodeRunRow.Unclaimed, hrunning])
  | wait x code hx hrunning => exact hkeep hx (by simp [NodeRunRow.Unclaimed, hrunning])
  | approve x hx hwaiting => exact hkeep hx (by simp [NodeRunRow.Unclaimed, hwaiting])
  | reject x now hx hwaiting => exact hkeep hx (by simp [NodeRunRow.Unclaimed, hwaiting])
  | rejectRunning x now hx hrunning => exact hkeep hx (by simp [NodeRunRow.Unclaimed, hrunning])

theorem RunInv.unclaimed (h : RunInv W s) (hsteps : Relation.ReflTransGen MoveStep s s') {r : NodeRunRow}
    (hr : r ∈ s.rows) (hu : r.Unclaimed) : ∃ r' ∈ s'.rows, r'.id = r.id ∧ r'.nodeId = r.nodeId ∧ r'.Unclaimed := by
  induction hsteps with
  | refl => exact ⟨r, hr, rfl, rfl, hu⟩
  | tail hsteps hstep ih =>
    obtain ⟨q, hq, hqid, hqnode, hqu⟩ := ih
    obtain ⟨q', hq', hid, hnode, hu'⟩ := hstep.unclaimed (h.steps (MoveStep.sched hsteps)).ids hq hqu
    exact ⟨q', hq', hid.trans hqid, hnode.trans hqnode, hu'⟩

end

/-! ## Runs -/

/-- The reconcile loop ends. A start leaves the run ended or with an active node run, and node runs pending only
behind unfinished predecessors. Whatever the transaction, the node run of the input leaves `pending` to be ready, and
any other leaves it with its predecessors terminal, ready if one of its edges is satisfied and skipped otherwise. -/
theorem no_silent_deadlock {V : ExecutableValidator} {graph : CompiledGraph} {H : Digests} {rid : String} {db₀ db : Db}
    {s₀ : RunState} (haccept : V.Accepts graph) (hfresh : FreshRun db₀ rid graph s₀)
    (hrun : Relation.ReflTransGen (ScheduleStep H rid) db₀ db) :
    (∀ ord lease now row, db.workflowRuns.get? rid = some row →
      (reconcileIn ord row lease now).run db ≠ .error .outOfFuel) ∧
    (∀ ord lease now, (startAndReconcile H ord rid lease now).run db ≠ .error .outOfFuel) ∧
    (∀ ord lease now row db', (startAndReconcile H ord rid lease now).run db = .ok (row, db') →
      ∃ s s', db.runState rid = some s ∧ db'.runState rid = some s' ∧
        (s'.run.status.isTerminal = true ∨ ∃ r ∈ s'.rows, r.isActive = true) ∧
        (s.run.status = .pending ∨ s.run.status = .running → ∀ r ∈ s'.rows, r.status = .pending →
          ¬ PredecessorsDone graph s'.rows r.nodeId)) ∧
    (∀ db', ScheduleStep H rid db db' → ∀ n ∈ graph.nodes, ∀ r ∈ db.rowsOf rid, r.nodeId = n.id → r.status = .pending →
      ∀ r' ∈ db'.rowsOf rid, r'.id = r.id → r'.status ≠ .pending →
        (n.nodeType = .input → r'.status = .ready) ∧ (n.nodeType ≠ .input → Decided graph (db'.rowsOf rid) r')) := by
  obtain ⟨input, output, W⟩ := haccept.wellFormed
  obtain ⟨s, hs, hinv⟩ := runInv_of_reachable W hfresh hrun
  refine ⟨fun ord lease now row hrow => ?_, fun ord lease now => startAndReconcile_terminates, ?_, ?_⟩
  · have hid : row.id = rid := Table.get?_key hrow
    exact reconcileIn_terminates (by rw [hid]; exact hrow) rfl
  · intro ord lease now row db' h
    obtain ⟨-, t, s', ht, hs', hst⟩ := startAndReconcile_spec h
    rw [ht] at hs
    obtain rfl := Option.some.inj hs
    obtain ⟨hactive, hwaits⟩ := hinv.progress hst
    refine ⟨t, s', ht, hs', hactive, fun hgo r hr hp hdone => ?_⟩
    obtain ⟨e, he, hto, u, hu, hid, hterm⟩ := hwaits hgo r hr hp
    obtain ⟨u', hu', hid', hterm'⟩ := hdone e he hto
    have hinv' := hinv.steps (MoveStep.sched hst.steps)
    rw [List.inj_on_of_nodup_map hinv'.node_nodup hu' hu (hid'.trans hid.symm), hterm] at hterm'
    cases hterm'
  · intro db' hstep n hn r hr hnode hp r' hr' hid hne
    rw [(runState_eq_some.1 hs).2] at hr
    obtain ⟨s', hs', hcase⟩ := scheduleStep_moves hstep hs
    rw [(runState_eq_some.1 hs').2] at hr' ⊢
    rcases hcase with hsteps | ⟨q, now, hq, hready, -, -, rfl⟩
    · have hinv' := hinv.steps (MoveStep.sched hsteps)
      obtain ⟨x, hx, hxid, hxnode, hxu⟩ := hinv.unclaimed hsteps hr (.inl hp)
      obtain rfl := eq_of_id hinv'.ids hr' hx (hxid.trans hid.symm)
      have hleft := hinv'.decided_of_left hx (hxu.resolve_left hne)
      rw [hxnode, hnode] at hleft
      exact ⟨fun htype => hleft.1 ((W.input_iff hn).1 htype), fun htype => hleft.2 fun hin => htype ((W.input_iff hn).2 hin)⟩
    · exfalso
      obtain ⟨x, hx, rfl⟩ := mem_setRow.1 hr'
      by_cases hxq : x.id = q.id
      · rw [if_pos hxq] at hid
        have hqr : q = r := eq_of_id hinv.ids hr hq (hxq.symm.trans hid)
        rw [← hqr, hready] at hp
        cases hp
      · rw [if_neg hxq] at hid hne
        rw [eq_of_id hinv.ids hr hx hid] at hne
        exact hne hp

theorem no_silent_deadlock_sample : ∃ r ∈ (sampleStart sampleDb).rowsOf "r", r.nodeId = "in" ∧ r.status = .ready := by
  have h := (no_silent_deadlock sample_accepted sample_fresh .refl).2.2.2 _
    (.startAndReconcile (H := sampleDigests) .table sampleLease sampleNow) _
    (List.getElem_mem (show 0 < sampleGraph.nodes.length by decide))
  have hrow : ∃ r ∈ sampleDb.rowsOf "r", r.nodeId = "in" ∧ r.status = .pending ∧
      ∃ r' ∈ (sampleStart sampleDb).rowsOf "r", r'.id = r.id ∧ r'.nodeId = "in" ∧ r'.status ≠ .pending := by
    decide +kernel
  obtain ⟨r, hr, hnode, hp, r', hr', hid, hnode', hne⟩ := hrow
  exact ⟨r', hr', hnode', (h r hr hnode hp r' hr' hid hne).1 rfl⟩

/-- The input has no edge that could be satisfied, yet it leaves `pending` to be ready. -/
theorem input_ready_unsatisfied : sampleValidator.Accepts sampleGraph ∧
    FreshRun sampleDb "r" sampleGraph ⟨sampleRunRow.core, sampleGraph.nodes.map sampleNodeRun⟩ ∧
    ScheduleStep sampleDigests "r" sampleDb (sampleStart sampleDb) ∧
    ∃ r ∈ sampleDb.rowsOf "r", r.status = .pending ∧ ∃ r' ∈ (sampleStart sampleDb).rowsOf "r",
      r'.id = r.id ∧ r'.status = .ready ∧ ¬ Decided sampleGraph ((sampleStart sampleDb).rowsOf "r") r' := by
  have hrow : ∃ r ∈ sampleDb.rowsOf "r", r.status = .pending ∧ ∃ r' ∈ (sampleStart sampleDb).rowsOf "r",
      r'.id = r.id ∧ r'.status = .ready ∧ r'.nodeId = "in" := by decide +kernel
  obtain ⟨r, hr, hp, r', hr', hid, hready, hnode⟩ := hrow
  refine ⟨sample_accepted, sample_fresh, .startAndReconcile _ _ _, r, hr, hp, r', hr', hid, hready, ?_⟩
  rintro ⟨-, ⟨-, e, he, hto, -⟩ | ⟨hskip, -⟩⟩
  · have hnone : ∀ e ∈ sampleGraph.edges, e.toNode ≠ "in" := by decide
    exact hnone e he (hto.trans hnode)
  · rw [hready] at hskip
    cases hskip

end AgentHub
