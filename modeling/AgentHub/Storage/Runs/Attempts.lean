import AgentHub.Storage.Runs.CallRefines
import AgentHub.Storage.Runs.Scheduling
/-!
# Retry attempts

A privilege retry gives a node a second attempt. `claim_next` and `_reconcile_in` key the rows of an unordered
query by node, so the row that comes last decides for its node. When that is the highest attempt they decide from
the highest attempts (`claimNext_latest`, `reconcileIn_latest`).
-/

namespace AgentHub

open Lib WorkflowRunRepository

/-! ## The highest attempt -/

/-- The row `latestOf` finds is the node's highest attempt. -/
theorem latestOf_eq_some {rows : List NodeRunRow} {v : String} {t : NodeRunRow} (h : latestOf rows v = some t) :
    t ∈ rows ∧ t.nodeId = v ∧ ∀ r ∈ rows, r.nodeId = v → r.attempt ≤ t.attempt := by
  have hmem := mem_of_foldl_pick (fun o a => ?_) h
  · rcases hmem with hnone | hmem
    · cases hnone
    · obtain ⟨ht, hv⟩ := List.mem_filter.1 hmem
      refine ⟨ht, of_decide_eq_true hv, fun r hr hrv => ?_⟩
      exact (le_of_foldl_max (fun _ => rfl) (fun _ _ => rfl) h).2 r (List.mem_filter.2 ⟨hr, decide_eq_true hrv⟩)
  · cases o with
    | none => exact .inl rfl
    | some b =>
      simp only
      split
      · exact .inl rfl
      · exact .inr rfl

/-- Every node with a row has a highest attempt. -/
theorem latestOf_isSome {rows : List NodeRunRow} {r : NodeRunRow} (hr : r ∈ rows) :
    ∃ t, latestOf rows r.nodeId = some t := by
  cases h : latestOf rows r.nodeId with
  | some t => exact ⟨t, rfl⟩
  | none =>
    have hnil := (foldl_max_none (fun _ => rfl) (fun _ _ => rfl) h).2
    have hmem : r ∈ rows.filter fun r' => r'.nodeId = r.nodeId := List.mem_filter.2 ⟨hr, decide_eq_true rfl⟩
    rw [hnil] at hmem
    cases hmem

/-- The highest attempts give a view. -/
theorem viewOf_latestOf (s : RunState) : ViewOf s (latestOf s.rows) := by
  intro v r h
  obtain ⟨hr, hv, -⟩ := latestOf_eq_some h
  exact ⟨hv, r, hr, rfl, fun _ => rfl⟩

/-! ## Deciding from the highest attempts -/

namespace WorkflowRunRepository

/-- `claim_next` as it would decide from the highest attempt of each node. -/
def claimNextLatest (H : Digests) (workflowRunId : String) (lease : MasterLease) (now : Instant) :
    Op (Option NodeRunRow) := do
  MasterLeaseRepository.assertValidIn lease now
  let run ← runRow workflowRunId
  validateSnapshots H run
  if run.status ≠ .running ∨ run.cancelRequestedAt ≠ none then return none
  else do
    let rows ← Tx.read fun db => db.rowsOf workflowRunId
    let nodeIds ← Op.lift (topologicalOrder run.compiledSnapshot)
    let selected ← Op.lift (firstReady (latestOf rows) nodeIds)
    match selected with
    | none => return none
    | some row => claim run lease row now

/-- The reconcile loop as it would decide from the highest attempt of each node. -/
def reconcileLoopLatest (run : WorkflowRunRow) (lease : MasterLease) (now : Instant) : Nat → Nat → Op Nat
  | 0, _ => Tx.fail .outOfFuel
  | fuel + 1, k => do
    let rows ← Tx.read fun db => db.rowsOf run.id
    let nodeIds ← Op.lift (topologicalOrder run.compiledSnapshot)
    let changed ← reconcilePass run lease (latestOf rows) now nodeIds
    if changed then reconcileLoopLatest run lease now fuel (k + 1) else return k + 1

/-- The verdict as it would be taken from the highest attempt of the output. -/
def finishIfDoneLatest (run : WorkflowRunRow) (lease : MasterLease) (rows : List NodeRunRow) (now : Instant) :
    Op Unit :=
  if rows.all (fun r => r.status.isTerminal) then do
    let output ← Tx.require (run.compiledSnapshot.nodes.find? (fun n => n.nodeType = .output)) .stopIteration
    let outputRow ← Tx.require (latestOf rows output.id) .stopIteration
    finishRunIn run lease (verdict outputRow (rows.map NodeRunRow.status)) now
  else pure ()

/-- `_reconcile_in` as it would decide from the highest attempt of each node. -/
def reconcileInLatest (run : WorkflowRunRow) (lease : MasterLease) (now : Instant) : Op Unit := do
  let count ← Tx.read fun db => (db.rowsOf run.id).length
  let _ ← reconcileLoopLatest run lease now (count + 1) 0
  let rows ← Tx.read fun db => db.rowsOf run.id
  finishIfDoneLatest run lease rows now

end WorkflowRunRepository

/-! ## Orders that show the highest attempt -/

/-- Query `k` returns, for each node, its highest attempt last. -/
def RowOrder.ShowsLatest (ord : RowOrder) (s : RunState) (k : Nat) : Prop :=
  ∀ v, byNode (ord.order k s.rows) v = latestOf s.rows v

/-- Query `k` returns the highest attempt of the output first. -/
def RowOrder.ShowsOutput (ord : RowOrder) (s : RunState) (k : Nat) : Prop :=
  ∀ output, s.run.compiledSnapshot.nodes.find? (fun n => n.nodeType = .output) = some output →
    (ord.order k s.rows).find? (fun r => r.nodeId = output.id) = latestOf s.rows output.id

/-- Every query of a reconciliation shows the highest attempts: in the state it starts from and in every state
its moves of pending node runs can lead to. -/
def RowOrder.Shows (ord : RowOrder) (s : RunState) : Prop :=
  ∀ s', Relation.ReflTransGen Promote s s' → ∀ k, ord.ShowsLatest s' k ∧ ord.ShowsOutput s' k

theorem RowOrder.Shows.promote {ord : RowOrder} {s s' : RunState} (h : ord.Shows s)
    (hsteps : Relation.ReflTransGen Promote s s') : ord.Shows s' := fun t ht => h t (hsteps.trans ht)

section
variable {ord : RowOrder} {run : WorkflowRunRow} {lease : MasterLease} {now : Instant} {db : Db} {s : RunState}

/-- The loop decides from the highest attempts. -/
theorem reconcileLoop_latest {fuel : Nat} : ∀ {k : Nat} {db : Db} {s : RunState}, db.runState run.id = some s →
    s.run.compiledSnapshot = run.compiledSnapshot → ord.Shows s →
    (reconcileLoop ord run lease now fuel k).run db = (reconcileLoopLatest run lease now fuel k).run db := by
  induction fuel with
  | zero => exact fun _ _ _ => rfl
  | succ fuel ih =>
    intro k db s hs hgraph hshows
    have hview : byNode (ord.order k (db.rowsOf run.id)) = latestOf (db.rowsOf run.id) := by
      rw [(runState_eq_some.1 hs).2]
      exact funext (hshows s .refl k).1
    rw [reconcileLoop, reconcileLoopLatest, Tx.run_read_bind, Tx.run_read_bind, hview]
    refine Tx.bind_congr rfl fun ids db₀ hids => Tx.bind_congr rfl fun changed db₁ hpass => ?_
    obtain ⟨-, rfl⟩ := lift_ok.1 hids
    obtain ⟨-, s₁, hs₁, hrun₁, hchanged, -⟩ := reconcilePass_spec hpass hs hgraph
      ((runState_eq_some.1 hs).2 ▸ viewOf_latestOf s)
    cases changed with
    | true =>
      rw [if_pos rfl, if_pos rfl]
      exact ih hs₁ (by rw [hrun₁]; exact hgraph) (hshows.promote (hchanged rfl).to_reflTransGen)
    | false => simp only [Bool.false_eq_true, if_false]

/-- So does the verdict. -/
theorem reconcileIn_latest (hs : db.runState run.id = some s) (hgraph : s.run.compiledSnapshot = run.compiledSnapshot)
    (hshows : ord.Shows s) : (reconcileIn ord run lease now).run db = (reconcileInLatest run lease now).run db := by
  rw [reconcileIn, reconcileInLatest, Tx.run_read_bind, Tx.run_read_bind]
  refine Tx.bind_congr (reconcileLoop_latest hs hgraph hshows) fun passes db₁ hloop => ?_
  obtain ⟨-, s₁, hs₁, hrun₁, hsteps, -⟩ := reconcileLoop_spec hloop hs hgraph
  have hrows := (runState_eq_some.1 hs₁).2
  have hperm := ord.perm passes (db₁.rowsOf run.id)
  rw [Tx.run_read_bind, Tx.run_read_bind, finishIfDone, finishIfDoneLatest]
  have hall : (ord.order passes (db₁.rowsOf run.id)).all (fun r => r.status.isTerminal) =
      (db₁.rowsOf run.id).all fun r => r.status.isTerminal := by
    rw [Bool.eq_iff_iff, List.all_eq_true, List.all_eq_true]
    simp only [hperm.mem_iff]
  rw [hall]
  split
  · refine Tx.bind_congr rfl fun output db₂ houtput => ?_
    obtain ⟨hfind, rfl⟩ := Tx.require_ok.1 houtput
    have hshown := ((hshows s₁ hsteps) passes).2 output (by rw [hrun₁, hgraph]; exact hfind)
    rw [← hrows] at hshown
    rw [hshown]
    refine Tx.bind_congr rfl fun row db₂ _ => ?_
    rw [verdict_perm (hperm.map NodeRunRow.status)]
  · rfl

/-- A claim decides from the highest attempts. -/
theorem claimNext_latest {H : Digests} {rid : String} (hs : db.runState rid = some s) (hshows : ord.ShowsLatest s 0) :
    (claimNext H ord rid lease now).run db = (claimNextLatest H rid lease now).run db := by
  rw [claimNext, claimNextLatest]
  refine Tx.bind_congr rfl fun _ db₀ hlease => Tx.bind_congr rfl fun row db₁ hrow => Tx.bind_congr rfl fun _ db₂ hval => ?_
  obtain rfl := (Prod.mk.inj (MasterLeaseRepository.assertValidIn_ok.1 hlease).2).2
  obtain ⟨-, rfl⟩ := runRow_ok.1 hrow
  obtain rfl := validateSnapshots_ok hval
  split
  · rfl
  · rw [Tx.run_read_bind, Tx.run_read_bind, (runState_eq_some.1 hs).2]
    refine Tx.bind_congr rfl fun ids db₀ _ => Tx.bind_congr ?_ fun selected db₁ _ => ?_
    · rw [funext hshows]
    · cases selected <;> rfl

end

/-! ## Runs of a graph -/

/-- A run of the graph: its rows are runs of the graph's nodes. -/
structure RunOf (graph : CompiledGraph) (s : RunState) : Prop where
  snapshot : s.run.compiledSnapshot = graph
  nodes : ∀ r ∈ s.rows, r.nodeId ∈ nodeIds graph.nodes

theorem RunOf.setRow {graph : CompiledGraph} {s : RunState} {id : String} {f : NodeRunRow → NodeRunRow}
    (h : RunOf graph s) (hf : ∀ r, (f r).nodeId = r.nodeId) : RunOf graph (s.setRow id f) := by
  refine ⟨h.snapshot, fun r hr => ?_⟩
  obtain ⟨u, hu, rfl⟩ := mem_setRow.1 hr
  split
  · exact (hf u).symm ▸ h.nodes u hu
  · exact h.nodes u hu

theorem RunOf.of_rows {graph : CompiledGraph} {s t : RunState} (h : RunOf graph t)
    (hrun : s.run.compiledSnapshot = graph) (hrows : s.rows = t.rows) : RunOf graph s := ⟨hrun, hrows ▸ h.nodes⟩

theorem RunOf.mapRows {graph : CompiledGraph} {s : RunState} {f : NodeRunRow → NodeRunRow} (h : RunOf graph s)
    (hf : ∀ r, (f r).nodeId = r.nodeId) : RunOf graph (s.mapRows f) := by
  refine ⟨h.snapshot, fun r hr => ?_⟩
  obtain ⟨u, hu, rfl⟩ := List.mem_map.1 hr
  exact (hf u).symm ▸ h.nodes u hu

/-- No step of a run changes its graph or the nodes its rows run. -/
theorem RunStep.runOf {graph : CompiledGraph} {s s' : RunState} (h : RunStep s s') (hof : RunOf graph s) :
    RunOf graph s' := by
  cases h with
  | sched h =>
    cases h with
    | claim r now hr hready hrun hcancel => exact hof.setRow fun _ => rfl
    | move h =>
      cases h with
      | promote hrun h =>
        cases h
        exact hof.setRow fun _ => rfl
      | finish h =>
        cases h
        exact ⟨hof.snapshot, hof.nodes⟩
      | start now hrun hcancel => exact ⟨hof.snapshot, hof.nodes⟩
      | complete r target outcome artifact error now hr hrunning hrun hcancel => exact hof.setRow fun _ => rfl
      | rejectRunning r now hr hrunning hrun hcancel => exact hof.setRow fun _ => rfl
      | wait r code hr hrunning hrun hcancel => refine .of_rows (hof.setRow ?_) hof.snapshot rfl; exact fun _ => rfl
      | approve r hr hwaiting hrun hcancel => refine .of_rows (hof.setRow ?_) hof.snapshot rfl; exact fun _ => rfl
      | reject r now hr hwaiting hrun hcancel => refine .of_rows (hof.setRow ?_) hof.snapshot rfl; exact fun _ => rfl
  | insertRetry r t hr hwaiting hrun hcancel hfirst hlast hnode hpending =>
    refine ⟨hof.snapshot, fun u hu => ?_⟩
    rcases List.mem_append.1 hu with hu | hu
    · exact hof.nodes u hu
    · rw [List.mem_singleton.1 hu, hnode.1]
      exact hof.nodes r hr
  | supersede r now hr hwaiting hrun hcancel hlater => exact hof.setRow fun _ => rfl
  | activate r hr hpending hcancel => exact hof.setRow fun _ => rfl
  | attach r artifactId hr hdone => exact hof.setRow fun _ => rfl
  | cancel now hrun hidle =>
    refine .of_rows (hof.mapRows ?_) hof.snapshot rfl
    intro u
    unfold NodeRunRow.cancelled
    split <;> rfl
  | orphan reason only finishedAt now hrun =>
    refine .of_rows (hof.mapRows ?_) hof.snapshot rfl
    intro u
    unfold NodeRunRow.orphaned
    split <;> rfl
  | wake | beginMerge | clearMerge | advance | mark => exact ⟨hof.snapshot, hof.nodes⟩

theorem FreshRun.runOf {db : Db} {rid : String} {graph : CompiledGraph} {s : RunState} (h : FreshRun db rid graph s) :
    RunOf graph s := ⟨h.snapshot, fun _ hr => h.nodes.mem_iff.1 (List.mem_map_of_mem hr)⟩

/-- Every state the calls on the repository lead to is one of a run of the graph. -/
theorem FreshRun.reaches {H : Digests} {db₀ db : Db} {rid : String} {graph : CompiledGraph} {s₀ : RunState}
    (h : FreshRun db₀ rid graph s₀) (hcalls : Relation.ReflTransGen (CallStep H) db₀ db) :
    ∃ s, db.runState rid = some s ∧ RunOf graph s := by
  obtain ⟨s, hs, hsteps⟩ := refines_of_calls hcalls rid s₀ h.state
  refine ⟨s, hs, ?_⟩
  clear hs
  induction hsteps with
  | refl => exact h.runOf
  | tail _ hstep ih => exact hstep.runOf ih

end AgentHub
