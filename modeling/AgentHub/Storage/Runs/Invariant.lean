import AgentHub.Storage.Runs.Refines
import AgentHub.Workflow.Accepted
/-!
# The invariant of a run

A run of an accepted graph, one attempt per node, is a token on the graph's net: `RunState.mark` reads a
node run as a mark, and every scheduler step moves the marks as the net allows (`RunInv.step`).
-/

namespace AgentHub

open Lib WorkflowRunRepository

/-! ## The net of a graph -/

section
variable {graph : CompiledGraph} {input output : WorkflowNode}

theorem WellFormed.input_mem (W : WellFormed graph input output) : input ∈ graph.nodes ∧ input.nodeType = .input := by
  have hmem : input ∈ graph.nodes.filter (fun n => n.nodeType = .input) := by simp [W.inputs]
  simpa using hmem

theorem WellFormed.output_mem (W : WellFormed graph input output) :
    output ∈ graph.nodes ∧ output.nodeType = .output := by
  have hmem : output ∈ graph.nodes.filter (fun n => n.nodeType = .output) := by simp [W.outputs]
  simpa using hmem

/-- Two nodes of one id are one node. -/
theorem WellFormed.eq_of_id (W : WellFormed graph input output) {n n' : WorkflowNode} (hn : n ∈ graph.nodes)
    (hn' : n' ∈ graph.nodes) (hid : n.id = n'.id) : n = n' := List.inj_on_of_nodup_map W.nodup hn hn' hid

theorem WellFormed.input_iff (W : WellFormed graph input output) {n : WorkflowNode} (hn : n ∈ graph.nodes) :
    n.nodeType = .input ↔ n.id = input.id := by
  constructor
  · intro h
    have hmem : n ∈ graph.nodes.filter (fun n => n.nodeType = .input) := by simp [hn, h]
    rw [W.inputs, List.mem_singleton] at hmem
    rw [hmem]
  · intro h
    rw [W.eq_of_id hn W.input_mem.1 h]
    exact W.input_mem.2

/-- The position of a node in the topological order. -/
def CompiledGraph.rank (graph : CompiledGraph) (v : String) : Nat :=
  (Kahn.order (nodeIds graph.nodes) (graph.edges.map fun e => (e.fromNode, e.toNode))).idxOf v

theorem expected_unique {o : NodeOutcome} {c c' : EdgeCondition} (h : o ∈ c.expected) (h' : o ∈ c'.expected) :
    c = c' := by
  revert h h'
  cases c <;> cases c' <;> cases o <;> decide

/-- The net an accepted graph is. -/
def WellFormed.net (W : WellFormed graph input output) : Token.Net String EdgeCondition NodeOutcome where
  edge u c v := ∃ e ∈ graph.edges, e.fromNode = u ∧ e.condition = c ∧ e.toNode = v
  input := input.id
  fires o c := o ∈ c.expected
  rank := graph.rank
  fires_unique h h' := expected_unique h h'
  edge_unique := by
    rintro _ _ _ _ ⟨e, he, rfl, rfl, rfl⟩ ⟨e', he', hf, hc, rfl⟩
    rw [W.fanout e he e' he' hf.symm hc.symm]
  edge_rank := by
    rintro _ _ _ ⟨e, he, rfl, rfl, rfl⟩
    refine Kahn.idxOf_lt W.nodup ?_ (by simpa [nodeIds] using W.acyclic) (List.mem_map.2 ⟨e, he, rfl⟩)
    intro p hp
    obtain ⟨e', he', rfl⟩ := List.mem_map.1 hp
    exact (W.refs e' he').2
  edge_input := by
    rintro _ _ _ ⟨e, he, rfl, rfl, rfl⟩
    exact W.no_incoming e he

end

/-! ## Marks -/

/-- A node run as a mark of the net. -/
def NodeRunRow.mark (r : NodeRunRow) : Token.Mark NodeOutcome :=
  match r.status with
  | .pending => .pending
  | .ready | .running | .waitingApproval => .active
  | .skipped | .superseded => .done none
  | _ => .done r.outcome

/-- The node run of a node. -/
def RunState.row? (s : RunState) (v : String) : Option NodeRunRow := s.rows.find? (fun r => r.nodeId = v)

def RunState.mark (s : RunState) (v : String) : Token.Mark NodeOutcome := ((s.row? v).map NodeRunRow.mark).getD .pending

/-- A node run that is ready, running or waiting. -/
def NodeRunRow.isActive (r : NodeRunRow) : Bool := r.status ∈ [.ready, .running, .waitingApproval]

theorem mark_pending {r : NodeRunRow} : r.mark = .pending ↔ r.status = .pending := by
  unfold NodeRunRow.mark
  cases r.status <;> simp

theorem mark_active {r : NodeRunRow} : r.mark = .active ↔ r.isActive = true := by
  unfold NodeRunRow.mark NodeRunRow.isActive
  cases r.status <;> simp

theorem mark_done {r : NodeRunRow} : (∃ o, r.mark = .done o) ↔ r.status.isTerminal = true := by
  unfold NodeRunRow.mark NodeRunStatus.isTerminal
  cases r.status <;> simp

/-- An edge out of a finished node run is satisfied when its mark fires it. -/
theorem edgeSatisfied_iff {r : NodeRunRow} (h : r.status.isTerminal = true) (c : EdgeCondition) :
    edgeSatisfied c r.status r.outcome = true ↔ ∃ o, r.mark = .done (some o) ∧ o ∈ c.expected := by
  unfold edgeSatisfied NodeRunRow.mark
  cases hs : r.status <;> simp [hs, NodeRunStatus.isTerminal] at h ⊢ <;> cases r.outcome <;> simp

/-! ## The invariant -/

/-- A finished node run that was not skipped has an outcome its status allows. -/
def NodeRunRow.Consistent (r : NodeRunRow) : Prop :=
  r.status = .pending ∨ r.isActive = true ∨ r.status = .skipped ∨ ∃ o, r.outcome = some o ∧ o ∈ allowedOutcomes r.status

/-- The outcome in a mark is the row's, and its status allows it. -/
theorem NodeRunRow.Consistent.of_mark {r : NodeRunRow} (h : r.Consistent) {o : NodeOutcome}
    (hm : r.mark = .done (some o)) : r.outcome = some o ∧ o ∈ allowedOutcomes r.status := by
  rcases h with hst | hact | hst | ⟨o', ho', hallowed⟩
  · rw [mark_pending.2 hst] at hm; cases hm
  · rw [mark_active.2 hact] at hm; cases hm
  · simp [NodeRunRow.mark, hst] at hm
  · have ho : r.outcome = some o := by
      unfold NodeRunRow.mark at hm
      cases hst : r.status <;> simp [hst] at hm <;> exact hm
    rw [ho'] at ho
    obtain rfl := Option.some.inj ho
    exact ⟨ho', hallowed⟩

structure RunInv {graph : CompiledGraph} {input output : WorkflowNode} (W : WellFormed graph input output)
    (s : RunState) : Prop where
  snapshot : s.run.compiledSnapshot = graph
  ids : (s.rows.map NodeRunRow.id).Nodup
  nodes : (s.rows.map NodeRunRow.nodeId).Perm (nodeIds graph.nodes)
  token : Token.Inv W.net s.mark
  outcomes : ∀ r ∈ s.rows, r.Consistent
  waiting : s.run.status = .waitingApproval → ∃ r ∈ s.rows, r.status = .waitingApproval
  status : s.run.status ∈ [.pending, .running, .waitingApproval, .completed, .failed, .blocked]

theorem row?_eq_some {s : RunState} (hnd : (s.rows.map NodeRunRow.nodeId).Nodup) {v : String} {r : NodeRunRow} :
    s.row? v = some r ↔ r ∈ s.rows ∧ r.nodeId = v := find?_key hnd

theorem mark_of_mem {s : RunState} (hnd : (s.rows.map NodeRunRow.nodeId).Nodup) {r : NodeRunRow} (hr : r ∈ s.rows) :
    s.mark r.nodeId = r.mark := by
  rw [RunState.mark, (row?_eq_some hnd).2 ⟨hr, rfl⟩]
  rfl

section
variable {graph : CompiledGraph} {input output : WorkflowNode} {W : WellFormed graph input output} {s s' : RunState}

theorem RunInv.node_nodup (h : RunInv W s) : (s.rows.map NodeRunRow.nodeId).Nodup := h.nodes.nodup_iff.2 W.nodup

/-- Rewriting a row keeps a column its write keeps. -/
theorem map_setRow {s : RunState} {id : String} {f : NodeRunRow → NodeRunRow} {γ : Type} {col : NodeRunRow → γ}
    (hf : ∀ x, col (f x) = col x) : (s.setRow id f).rows.map col = s.rows.map col := by
  simp only [RunState.setRow, List.map_map]
  refine List.map_congr_left fun x _ => ?_
  by_cases hid : x.id = id <;> simp [hid, hf]

/-- Rewriting one row changes the mark of its node only. -/
theorem mark_setRow (h : RunInv W s) {r : NodeRunRow} (hr : r ∈ s.rows) {f : NodeRunRow → NodeRunRow}
    (hf : ∀ x, (f x).nodeId = x.nodeId) (v : String) :
    (s.setRow r.id f).mark v = if v = r.nodeId then (f r).mark else s.mark v := by
  have hrows : (s.setRow r.id f).rows.map NodeRunRow.nodeId = s.rows.map NodeRunRow.nodeId := map_setRow hf
  have hnd : ((s.setRow r.id f).rows.map NodeRunRow.nodeId).Nodup := hrows ▸ h.node_nodup
  have hkeep : ∀ x ∈ s.rows, x.nodeId ≠ r.nodeId → x ∈ (s.setRow r.id f).rows := by
    intro x hx hne
    refine mem_setRow.2 ⟨x, hx, if_neg fun hid => hne ?_⟩
    rw [eq_of_id h.ids hr hx hid]
  split
  · next hv =>
    subst hv
    have hmem : f r ∈ (s.setRow r.id f).rows := mem_setRow.2 ⟨r, hr, if_pos rfl⟩
    rw [← hf r]
    exact mark_of_mem hnd hmem
  · next hv =>
    cases hrow : s.row? v with
    | some x =>
      obtain ⟨hx, rfl⟩ := (row?_eq_some h.node_nodup).1 hrow
      rw [mark_of_mem hnd (hkeep x hx hv), mark_of_mem h.node_nodup hx]
    | none =>
      have hnone : (s.setRow r.id f).row? v = none := by
        rw [RunState.row?, List.find?_eq_none] at hrow ⊢
        intro x hx
        have hmem : x.nodeId ∈ s.rows.map NodeRunRow.nodeId := hrows ▸ List.mem_map_of_mem hx
        obtain ⟨y, hy, hyx⟩ := List.mem_map.1 hmem
        rw [← hyx]
        exact hrow y hy
      simp only [RunState.mark, hrow, hnone]

theorem RunInv.mem_row (h : RunInv W s) {v : String} (hv : v ∈ nodeIds graph.nodes) :
    ∃ r ∈ s.rows, r.nodeId = v := List.mem_map.1 (h.nodes.mem_iff.2 hv)

/-- A terminal row of a view is the row of its node. -/
theorem RunInv.mark_of_view (h : RunInv W s) {view : String → Option NodeRunRow} (hview : ViewOf s view) {u : String}
    {r : NodeRunRow} (hr : view u = some r) (hterm : r.status.isTerminal = true) : s.mark u = r.mark := by
  obtain ⟨rfl, r', hr', -, hkeep⟩ := hview u r hr
  obtain rfl := hkeep (by rintro hp; rw [hp] at hterm; simp [NodeRunStatus.isTerminal] at hterm)
  exact mark_of_mem h.node_nodup hr'

/-! ## What the reconcile loop decides -/

theorem resolveEdges_some {view : String → Option NodeRunRow} {es : List WorkflowEdge} : ∀ {b sat : Bool},
    resolveEdges view es b = .ok (some sat) →
    (∀ e ∈ es, ∃ r, view e.fromNode = some r ∧ r.status.isTerminal = true) ∧
      (sat = true ↔ b = true ∨ ∃ e ∈ es, ∃ r, view e.fromNode = some r ∧
        edgeSatisfied e.condition r.status r.outcome = true) := by
  induction es with
  | nil =>
    intro b sat h
    simp only [resolveEdges, Except.ok.injEq, Option.some.injEq] at h
    simp [h]
  | cons e es ih =>
    intro b sat h
    simp only [resolveEdges] at h
    split at h
    · cases h
    · next r hr =>
      split at h
      · simp at h
      · next hterm =>
        simp only [Bool.not_eq_true', Bool.not_eq_false] at hterm
        obtain ⟨hall, hsat⟩ := ih h
        refine ⟨fun e' he' => ?_, hsat.trans ?_⟩
        · rcases List.mem_cons.1 he' with rfl | he'
          · exact ⟨r, hr, hterm⟩
          · exact hall e' he'
        · simp only [Bool.or_eq_true, List.exists_mem_cons_iff, hr, Option.some.injEq, exists_eq_left', or_assoc]

theorem resolveEdges_none {view : String → Option NodeRunRow} {es : List WorkflowEdge} : ∀ {b : Bool},
    resolveEdges view es b = .ok none → ∃ e ∈ es, ∃ r, view e.fromNode = some r ∧ r.status.isTerminal = false := by
  induction es with
  | nil => intro b h; simp [resolveEdges] at h
  | cons e es ih =>
    intro b h
    simp only [resolveEdges] at h
    split at h
    · cases h
    · next r hr =>
      split at h
      · next hterm => exact ⟨e, by simp, r, hr, by simpa using hterm⟩
      · obtain ⟨e', he', hr'⟩ := ih h
        exact ⟨e', List.mem_cons_of_mem _ he', hr'⟩

/-- What the loop decides for a node other than the input, in terms of the marks. -/
theorem RunInv.decided (h : RunInv W s) {view : String → Option NodeRunRow} (hview : ViewOf s view)
    {node : WorkflowNode} (htype : node.nodeType ≠ .input) {target : NodeRunStatus}
    (htarget : reconcileTarget graph view node = .ok (some target)) :
    Token.Ready W.net s.mark node.id ∧
      ((target = .ready ∧ ∃ u, Token.Fired W.net s.mark u node.id) ∨
        (target = .skipped ∧ ¬ ∃ u, Token.Fired W.net s.mark u node.id)) := by
  simp only [reconcileTarget, htype, if_false] at htarget
  cases hres : resolveEdges view (graph.edges.filter fun e => e.toNode = node.id) false with
  | error e => rw [hres] at htarget; cases htarget
  | ok d =>
    rw [hres] at htarget
    cases d with
    | none => simp [Except.map] at htarget
    | some sat =>
      simp only [Except.map, Option.map_some, Except.ok.injEq, Option.some.injEq] at htarget
      obtain ⟨hall, hsat⟩ := resolveEdges_some hres
      have hfired : sat = true ↔ ∃ u, Token.Fired W.net s.mark u node.id := by
        rw [hsat]
        constructor
        · rintro (hf | ⟨e, he, r, hr, hes⟩)
          · cases hf
          · obtain ⟨he, hto⟩ := List.mem_filter.1 he
            obtain ⟨r', hr', hterm⟩ := hall e (List.mem_filter.2 ⟨he, hto⟩)
            rw [hr] at hr'
            obtain rfl := Option.some.inj hr'
            obtain ⟨o, ho, hexp⟩ := (edgeSatisfied_iff hterm _).1 hes
            exact ⟨e.fromNode, e.condition, o, ⟨e, he, rfl, rfl, by simpa using hto⟩,
              (h.mark_of_view hview hr hterm).trans ho, hexp⟩
        · rintro ⟨_, _, o, ⟨e, he, rfl, rfl, hto⟩, ho, hexp⟩
          have hmem : e ∈ graph.edges.filter fun e => e.toNode = node.id := List.mem_filter.2 ⟨he, by simpa using hto⟩
          obtain ⟨r, hr, hterm⟩ := hall e hmem
          refine .inr ⟨e, hmem, r, hr, (edgeSatisfied_iff hterm _).2 ⟨o, ?_, hexp⟩⟩
          rw [← h.mark_of_view hview hr hterm]
          exact ho
      refine ⟨?_, ?_⟩
      · rintro _ _ ⟨e, he, rfl, rfl, hto⟩
        obtain ⟨r, hr, hterm⟩ := hall e (List.mem_filter.2 ⟨he, by simpa using hto⟩)
        obtain ⟨o, ho⟩ := mark_done.2 hterm
        exact ⟨o, (h.mark_of_view hview hr hterm).trans ho⟩
      · cases sat with
        | true => exact .inl ⟨htarget.symm, hfired.1 rfl⟩
        | false => exact .inr ⟨htarget.symm, fun hf => Bool.noConfusion (hfired.2 hf)⟩

/-! ## One step -/

/-- Rewriting one row, and the status of the run, keeps the invariant when the marks keep theirs. -/
theorem RunInv.rewrite (h : RunInv W s) {r : NodeRunRow} (hr : r ∈ s.rows) {f : NodeRunRow → NodeRunRow}
    (hf : ∀ x, (f x).skeleton = x.skeleton) (hcons : (f r).Consistent)
    (htoken : Token.Inv W.net (s.setRow r.id f).mark) {run : WorkflowRunRow}
    (hsnap : run.compiledSnapshot = s.run.compiledSnapshot)
    (hwait : run.status = .waitingApproval → (f r).status = .waitingApproval)
    (hstatus : run.status ∈ [.pending, .running, .waitingApproval, .completed, .failed, .blocked]) :
    RunInv W { s.setRow r.id f with run := run } where
  snapshot := hsnap.trans h.snapshot
  ids := by
    show ((s.setRow r.id f).rows.map NodeRunRow.id).Nodup
    rw [map_setRow fun x => congrArg Prod.fst (hf x)]
    exact h.ids
  nodes := by
    show ((s.setRow r.id f).rows.map NodeRunRow.nodeId).Perm _
    rw [map_setRow fun x => congrArg (fun k => k.2.2.1) (hf x)]
    exact h.nodes
  token := htoken
  outcomes := by
    intro x hx
    obtain ⟨y, hy, rfl⟩ := mem_setRow.1 hx
    split
    · next hid => rw [eq_of_id h.ids hr hy hid]; exact hcons
    · exact h.outcomes y hy
  waiting := fun hw => ⟨f r, mem_setRow.2 ⟨r, hr, if_pos rfl⟩, hwait hw⟩
  status := hstatus

/-- A step that leaves the marks alone keeps theirs. -/
theorem RunInv.same_marks (h : RunInv W s) {r : NodeRunRow} (hr : r ∈ s.rows) {f : NodeRunRow → NodeRunRow}
    (hf : ∀ x, (f x).nodeId = x.nodeId) (hold : r.mark = .active) (hnew : (f r).mark = .active) :
    Token.Inv W.net (s.setRow r.id f).mark := by
  have heq : (s.setRow r.id f).mark = s.mark := by
    funext v
    rw [mark_setRow h hr hf]
    split
    · next hv => rw [hv, mark_of_mem h.node_nodup hr, hold, hnew]
    · rfl
  rw [heq]
  exact h.token

/-- Finishing an active node run is a step of the token. -/
theorem RunInv.finish_mark (h : RunInv W s) {r : NodeRunRow} (hr : r ∈ s.rows) {f : NodeRunRow → NodeRunRow}
    (hf : ∀ x, (f x).nodeId = x.nodeId) (hold : r.mark = .active) {o : NodeOutcome} (hnew : (f r).mark = .done (some o)) :
    Token.Inv W.net (s.setRow r.id f).mark := by
  refine h.token.step (.finish r.nodeId o ?_ ?_ fun u hu => ?_)
  · rw [mark_of_mem h.node_nodup hr, hold]
  · rw [mark_setRow h hr hf, if_pos rfl, hnew]
  · rw [mark_setRow h hr hf, if_neg hu]

theorem mark_finished {r : NodeRunRow} {o : NodeOutcome} {target : NodeRunStatus} (hs : r.status = target)
    (ho : r.outcome = some o) (hallowed : o ∈ allowedOutcomes target) : r.mark = .done (some o) := by
  unfold NodeRunRow.mark
  rw [hs]
  cases target <;> first | exact congrArg _ ho | simp [allowedOutcomes] at hallowed

/-- Moving a pending node run as the loop decides is a step of the token. -/
theorem RunInv.promote_mark (h : RunInv W s) {r : NodeRunRow} (hr : r ∈ s.rows) (hp : r.status = .pending)
    {node : WorkflowNode} (hmem : node ∈ graph.nodes) (hid : node.id = r.nodeId) {view : String → Option NodeRunRow}
    (hview : ViewOf s view) {target : NodeRunStatus} (htarget : reconcileTarget graph view node = .ok (some target))
    {f : NodeRunRow → NodeRunRow} (hf : ∀ x, (f x).nodeId = x.nodeId) (hstatus : (f r).status = target) :
    Token.Inv W.net (s.setRow r.id f).mark ∧ (target = .ready ∨ target = .skipped) := by
  have hold : s.mark r.nodeId = .pending := (mark_of_mem h.node_nodup hr).trans (mark_pending.2 hp)
  have hself : (s.setRow r.id f).mark r.nodeId = (f r).mark := (mark_setRow h hr hf _).trans (if_pos rfl)
  have hrest : ∀ u, u ≠ r.nodeId → (s.setRow r.id f).mark u = s.mark u :=
    fun u hu => (mark_setRow h hr hf u).trans (if_neg hu)
  by_cases htype : node.nodeType = .input
  · have hin : r.nodeId = W.net.input := hid.symm.trans ((W.input_iff hmem).1 htype)
    simp only [reconcileTarget, htype, if_true, Except.ok.injEq, Option.some.injEq] at htarget
    subst htarget
    rw [hin] at hold hself hrest
    have hactive : (f r).mark = .active := mark_active.2 (by simp [NodeRunRow.isActive, hstatus])
    exact ⟨h.token.step (.start hold (hself.trans hactive) hrest), .inl rfl⟩
  · obtain ⟨hready, hcase⟩ := h.decided hview htype htarget
    rw [hid] at hready hcase
    rcases hcase with ⟨rfl, hfired⟩ | ⟨rfl, hfired⟩
    · have hactive : (f r).mark = .active := mark_active.2 (by simp [NodeRunRow.isActive, hstatus])
      exact ⟨h.token.step (.activate _ hold hready hfired (hself.trans hactive) hrest), .inl rfl⟩
    · have hne : r.nodeId ≠ W.net.input := fun hin => htype ((W.input_iff hmem).2 (hid.trans hin))
      have hskip : (f r).mark = .done none := by simp [NodeRunRow.mark, hstatus]
      exact ⟨h.token.step (.skip _ hold hne hready hfired (hself.trans hskip) hrest), .inr rfl⟩

theorem RunInv.promote (h : RunInv W s) (hrun : s.run.status = .running) (hstep : Promote s s') : RunInv W s' := by
  obtain ⟨r, node, view, target, now, hr, hp, hnode, hview, htarget⟩ := hstep
  rw [h.snapshot] at hnode htarget
  have hmem : node ∈ graph.nodes := List.mem_of_find?_eq_some hnode
  have hid : node.id = r.nodeId := by simpa using List.find?_some hnode
  refine h.rewrite hr ?_ ?_ ?_ rfl ?_ h.status
  · exact fun _ => rfl
  · rcases (h.promote_mark hr hp hmem hid hview htarget (f := fun r => { r with status := target })
      (fun _ => rfl) rfl).2 with rfl | rfl
    · exact .inr (.inl rfl)
    · exact .inr (.inr (.inl rfl))
  · refine (h.promote_mark hr hp hmem hid hview htarget ?_ ?_).1
    · exact fun _ => rfl
    · rfl
  · intro hw
    rw [hrun] at hw
    cases hw

theorem verdict_cases (out : NodeRunRow) (l : List NodeRunStatus) :
    verdict out l = .completed ∨ verdict out l = .blocked ∨ verdict out l = .failed := by
  unfold verdict
  split
  · exact .inl rfl
  · split
    · exact .inr (.inl rfl)
    · exact .inr (.inr rfl)

theorem RunInv.finish (h : RunInv W s) (hstep : Finish s s') : RunInv W s' := by
  obtain ⟨out, now, -, -, -, -⟩ := hstep
  refine ⟨h.snapshot, h.ids, h.nodes, h.token, h.outcomes, ?_, ?_⟩ <;>
    rcases verdict_cases out (s.rows.map NodeRunRow.status) with hv | hv | hv <;> simp [hv]

/-- A step other than a claim keeps the invariant. -/
theorem RunInv.move (h : RunInv W s) (hstep : MoveStep s s') : RunInv W s' := by
  have hactive : ∀ {r : NodeRunRow}, r.status ∈ [.ready, .running, .waitingApproval] → r.mark = .active := by
    intro r hr
    exact mark_active.2 (by simpa [NodeRunRow.isActive] using hr)
  have hno : s.run.status = .running → ∀ {p : Prop}, s.run.status = .waitingApproval → p := by
    intro hrun p hw
    rw [hrun] at hw
    cases hw
  cases hstep with
  | start now hrun hcancel =>
    exact ⟨h.snapshot, h.ids, h.nodes, h.token, h.outcomes, by simp, by simp⟩
  | promote hrun hp => exact h.promote hrun hp
  | finish hf => exact h.finish hf
  | complete r target outcome artifact error now hr hrunning hrun hcancel houtcome =>
    refine h.rewrite hr ?_ ?_ ?_ rfl ?_ h.status
    · exact fun _ => rfl
    · exact .inr (.inr (.inr ⟨outcome, rfl, houtcome⟩))
    · exact h.finish_mark hr (fun _ => rfl) (hactive (by simp [hrunning])) (mark_finished rfl rfl houtcome)
    · exact fun hw => hno hrun hw
  | wait r code hr hrunning hrun hcancel =>
    refine h.rewrite hr ?_ ?_ ?_ rfl ?_ ?_
    · exact fun _ => rfl
    · exact .inr (.inl rfl)
    · exact h.same_marks hr (fun _ => rfl) (hactive (by simp [hrunning])) rfl
    · exact fun _ => rfl
    · simp
  | approve r hr hwaiting hrun hcancel =>
    refine h.rewrite hr ?_ ?_ ?_ rfl ?_ ?_
    · exact fun _ => rfl
    · exact .inr (.inl rfl)
    · exact h.same_marks hr (fun _ => rfl) (hactive (by simp [hwaiting])) rfl
    · simp
    · simp
  | reject r now hr hwaiting hrun hcancel =>
    refine h.rewrite hr ?_ ?_ ?_ rfl ?_ ?_
    · exact fun _ => rfl
    · exact .inr (.inr (.inr ⟨.rejected, rfl, by simp [allowedOutcomes]⟩))
    · exact h.finish_mark hr (fun _ => rfl) (hactive (by simp [hwaiting]))
        (mark_finished rfl rfl (by simp [allowedOutcomes]))
    · simp
    · simp
  | rejectRunning r now hr hrunning hrun hcancel =>
    refine h.rewrite hr ?_ ?_ ?_ rfl ?_ h.status
    · exact fun _ => rfl
    · exact .inr (.inr (.inr ⟨.rejected, rfl, by simp [allowedOutcomes]⟩))
    · exact h.finish_mark hr (fun _ => rfl) (hactive (by simp [hrunning]))
        (mark_finished rfl rfl (by simp [allowedOutcomes]))
    · exact fun hw => hno hrun hw

/-- A claim keeps the invariant. -/
theorem RunInv.claim (h : RunInv W s) {r : NodeRunRow} (hr : r ∈ s.rows) (hready : r.status = .ready)
    (hrun : s.run.status = .running) (now : Instant) :
    RunInv W (s.setRow r.id fun r => { r with status := .running, startedAt := some (utcNowText now) }) := by
  refine h.rewrite hr ?_ ?_ ?_ rfl ?_ h.status
  · exact fun _ => rfl
  · exact .inr (.inl rfl)
  · exact h.same_marks hr (fun _ => rfl) (mark_active.2 (by simp [NodeRunRow.isActive, hready])) rfl
  · intro hw
    rw [hrun] at hw
    cases hw

theorem RunInv.step (h : RunInv W s) (hstep : SchedStep s s') : RunInv W s' := by
  cases hstep with
  | move hm => exact h.move hm
  | claim r now hr hready hrun hcancel => exact h.claim hr hready hrun now

/-- A run of scheduler steps keeps the invariant. -/
theorem RunInv.steps (h : RunInv W s) (hsteps : Relation.ReflTransGen SchedStep s s') : RunInv W s' := by
  have hstep : ∀ a b, RunInv W a → SchedStep a b → RunInv W b := fun _ _ => RunInv.step
  exact Tx.inv_of_steps hstep hsteps h

end

end AgentHub
