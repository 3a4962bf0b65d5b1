import AgentHub.Storage.Runs.Refines
/-!
# The reconcile loop ends

Every pass that changes anything moves a pending node run, so the loop ends within one pass more than
the run has node runs: the model's fuel never runs out, in any state of the database.
-/

namespace AgentHub

open Lib WorkflowRunRepository

/-- An error of the source, not of the model. -/
def StorageError.Genuine (e : StorageError) : Prop := e ≠ .outOfFuel

/-- How many node runs are pending. -/
def RunState.pendingCount (s : RunState) : Nat := s.rows.countP (fun r => r.status = .pending)

/-! ## Promotions lower the count -/

theorem resolveEdges_target {graph : CompiledGraph} {view : String → Option NodeRunRow} {node : WorkflowNode}
    {target : NodeRunStatus} (h : reconcileTarget graph view node = .ok (some target)) :
    target = .ready ∨ target = .skipped := by
  unfold reconcileTarget at h
  split at h
  · simp only [Except.ok.injEq, Option.some.injEq] at h
    exact .inl h.symm
  · cases hres : resolveEdges view (graph.edges.filter fun e => e.toNode = node.id) false with
    | error e => rw [hres] at h; cases h
    | ok d =>
      rw [hres] at h
      rcases d with _ | sat
      · simp [Except.map] at h
      · cases sat <;> simp [Except.map] at h <;> simp [← h]

/-- A predicate that implies another and fails at one of its members counts less. -/
theorem countP_lt {α : Type} {p q : α → Bool} {l : List α} (himp : ∀ x, q x = true → p x = true) {r : α} (hr : r ∈ l)
    (hp : p r = true) (hq : q r = false) : l.countP q < l.countP p := by
  obtain ⟨a, b, rfl⟩ := List.append_of_mem hr
  have ha := List.countP_mono_left (l := a) fun x _ => himp x
  have hb := List.countP_mono_left (l := b) fun x _ => himp x
  simp only [List.countP_append, List.countP_cons, hp, hq, if_true, Bool.false_eq_true, if_false]
  omega

theorem Promote.pendingCount_lt {s s' : RunState} (h : Promote s s') : s'.pendingCount < s.pendingCount := by
  obtain ⟨r, node, view, target, now, hr, hp, -, -, htarget⟩ := h
  have hne : target ≠ .pending := by rcases resolveEdges_target htarget with rfl | rfl <;> simp
  simp only [RunState.pendingCount, RunState.setRow, List.countP_map]
  refine countP_lt (fun x hx => ?_) hr (by simp [hp]) (by simp [hne])
  by_cases hid : x.id = r.id <;> simp [hid, hne] at hx ⊢
  exact hx

theorem promotes_pendingCount {s s' : RunState} (h : Relation.TransGen Promote s s') :
    s'.pendingCount < s.pendingCount := by
  induction h with
  | single h => exact h.pendingCount_lt
  | tail _ h ih => exact h.pendingCount_lt.trans ih

/-! ## What the steps of the loop raise -/

section
variable {ord : RowOrder} {run : WorkflowRunRow} {lease : MasterLease} {now : Instant}

theorem lift_raises {α : Type} {x : Except StorageError α} (h : ∀ e, x = .error e → e.Genuine) :
    Tx.Raises StorageError.Genuine (Op.lift x) := by
  intro s e he
  cases x with
  | error e' => cases he; exact h _ rfl
  | ok a => cases he

theorem appendIn_raises {sid typ actor : String} {payload : EventPayload} {wid rid : String} :
    Tx.Raises StorageError.Genuine (EventRepository.appendIn sid typ actor payload wid rid now) := by
  refine .bind (.read _) fun _ => .bind (.require (by simp [StorageError.Genuine])) fun _ => .bind ?_ fun _ => .write _
  refine .bind (.read _) fun _ => .bind (.require (by simp [StorageError.Genuine])) fun _ => ?_
  refine .bind (.ensure (by simp [StorageError.Genuine])) fun _ => .bind (.read _) fun _ => ?_
  refine .bind (.require (by simp [StorageError.Genuine])) fun _ => .bind (.ensure (by simp [StorageError.Genuine])) fun _ => ?_
  refine .bind (.ensure (by simp [StorageError.Genuine])) fun _ => .bind ?_ fun _ => .pure _
  exact TableRef.cas_raises (by simp [StorageError.Genuine])

theorem topologicalOrder_raises {graph : CompiledGraph} {e : StorageError} (h : topologicalOrder graph = .error e) :
    e.Genuine := by
  simp only [topologicalOrder] at h
  split at h
  · cases h; simp [StorageError.Genuine]
  · split at h
    · cases h
    · cases h; simp [StorageError.Genuine]

/-- An order that was returned has every node. -/
theorem mem_topologicalOrder {graph : CompiledGraph} {ids : List String} (h : topologicalOrder graph = .ok ids) {v : String}
    (hv : v ∈ graph.nodes.map WorkflowNode.id) : v ∈ ids := by
  simp only [topologicalOrder] at h
  split at h
  · cases h
  · next hrefs =>
    split at h
    · next hlen =>
      cases h
      have htarget : ∀ e ∈ graph.edges.map fun e => (e.fromNode, e.toNode),
          e.2 ∈ (graph.nodes.map WorkflowNode.id).dedup := by
        intro p hp
        obtain ⟨e, he, rfl⟩ := List.mem_map.1 hp
        have hmem := List.find?_eq_none.1 hrefs e he
        rw [decide_eq_true_eq, not_not] at hmem
        exact hmem
      have hle : (graph.nodes.map WorkflowNode.id).dedup.length ≤ graph.nodes.length := by
        simpa only [List.length_map] using (List.dedup_sublist (graph.nodes.map WorkflowNode.id)).length_le
      have hge := ((Kahn.order_nodup (List.nodup_dedup _) htarget).subperm
        (Kahn.order_sub (List.nodup_dedup _) htarget)).length_le
      exact Kahn.mem_order_of_length (List.nodup_dedup _) htarget (by omega) (List.mem_dedup.2 hv)
    · cases h

theorem resolveEdges_raises {view : String → Option NodeRunRow} {es : List WorkflowEdge} : ∀ {b : Bool} {e : StorageError},
    resolveEdges view es b = .error e → e.Genuine := by
  induction es with
  | nil => intro b e h; cases h
  | cons d es ih =>
    intro b e h
    simp only [resolveEdges] at h
    split at h
    · cases h; simp [StorageError.Genuine]
    · split at h
      · cases h
      · exact ih h

theorem reconcileTarget_raises {graph : CompiledGraph} {view : String → Option NodeRunRow} {node : WorkflowNode}
    {e : StorageError} (h : reconcileTarget graph view node = .error e) : e.Genuine := by
  unfold reconcileTarget at h
  split at h
  · cases h
  · cases hres : resolveEdges view (graph.edges.filter fun e => e.toNode = node.id) false with
    | error e' =>
      rw [hres] at h
      cases h
      exact resolveEdges_raises hres
    | ok d => rw [hres] at h; cases h

theorem reconcilePass_raises {view : String → Option NodeRunRow} {ids : List String} :
    Tx.Raises StorageError.Genuine (reconcilePass run lease view now ids) := by
  induction ids with
  | nil => exact .pure _
  | cons id ids ih =>
    refine .bind (.require (by simp [StorageError.Genuine])) fun row => .ite ih ?_
    refine .bind (.require (by simp [StorageError.Genuine])) fun node => .bind (lift_raises fun e => reconcileTarget_raises) ?_
    intro target
    cases target with
    | none => exact ih
    | some target =>
      refine .bind (.bind (TableRef.cas_raises (by simp [StorageError.Genuine])) fun _ => appendIn_raises) fun _ => ?_
      exact .bind ih fun _ => .pure _

/-! ## The loop -/

/-- With fuel for one pass more than there are pending node runs, the loop ends. -/
theorem reconcileLoop_fuel {fuel : Nat} : ∀ {k : Nat} {db : Db} {s : RunState}, db.runState run.id = some s →
    s.run.compiledSnapshot = run.compiledSnapshot → s.pendingCount < fuel →
    (reconcileLoop ord run lease now fuel k).run db ≠ .error .outOfFuel := by
  induction fuel with
  | zero => intro k db s _ _ h; omega
  | succ fuel ih =>
    intro k db s hs hgraph hlt h
    simp only [reconcileLoop] at h
    rcases Tx.bind_error.1 h with h | ⟨rows, db₁, hread, h⟩
    · exact Tx.Raises.read (P := StorageError.Genuine) _ _ _ h rfl
    obtain ⟨hrows, hdb⟩ := Prod.mk.inj (Tx.read_ok.1 hread)
    subst hrows hdb
    rcases Tx.bind_error.1 h with h | ⟨ids, db₂, hlift, h⟩
    · exact lift_raises (fun e => topologicalOrder_raises) _ _ h rfl
    obtain ⟨-, hdb⟩ := lift_ok.1 hlift
    obtain rfl := hdb.symm
    rcases Tx.bind_error.1 h with h | ⟨changed, db₃, hpass, h⟩
    · exact reconcilePass_raises _ _ h rfl
    have hperm : (ord.order k (db₁.rowsOf run.id)).Perm s.rows := (runState_eq_some.1 hs).2 ▸ ord.perm _ _
    obtain ⟨-, s₁, hs₁, hrun₁, hch, -⟩ := reconcilePass_spec hpass hs hgraph (viewOf_byNode hperm)
    cases changed with
    | true =>
      have hcount := promotes_pendingCount (hch rfl)
      exact ih hs₁ (by rw [hrun₁]; exact hgraph) (by omega) h
    | false => exact Tx.Raises.pure (P := StorageError.Genuine) (k + 1) _ _ h rfl

/-- The loop of `_reconcile_in` ends, in every state of the database. -/
theorem reconcileIn_terminates {row : WorkflowRunRow} {db : Db} (hrow : db.workflowRuns.get? run.id = some row)
    (hgraph : row.compiledSnapshot = run.compiledSnapshot) :
    (reconcileIn ord run lease now).run db ≠ .error .outOfFuel := by
  intro h
  simp only [reconcileIn] at h
  rcases Tx.bind_error.1 h with h | ⟨n, db₁, hread, h⟩
  · exact Tx.Raises.read (P := StorageError.Genuine) _ _ _ h rfl
  obtain ⟨hn, hdb⟩ := Prod.mk.inj (Tx.read_ok.1 hread)
  subst hn hdb
  rcases Tx.bind_error.1 h with h | ⟨passes, db₂, hloop, h⟩
  · refine reconcileLoop_fuel (runState_of_row hrow) hgraph ?_ h
    exact Nat.lt_succ_of_le List.countP_le_length
  rcases Tx.bind_error.1 h with h | ⟨rows, db₃, -, h⟩
  · exact Tx.Raises.read (P := StorageError.Genuine) _ _ _ h rfl
  refine Tx.Raises.ite (P := StorageError.Genuine) ?_ (.pure ()) _ _ h rfl
  refine .bind (.require (by simp [StorageError.Genuine])) fun _ => .bind (.require (by simp [StorageError.Genuine])) fun _ => ?_
  exact .bind (TableRef.cas_raises (by simp [StorageError.Genuine])) fun _ => appendIn_raises

theorem validateSnapshots_raises {H : Digests} {row : WorkflowRunRow} :
    Tx.Raises StorageError.Genuine (validateSnapshots H row) := by
  unfold validateSnapshots
  repeat' first
    | exact .ensure (by simp [StorageError.Genuine])
    | refine .bind (.ensure (by simp [StorageError.Genuine])) fun _ => ?_

theorem runRow_raises {rid : String} : Tx.Raises StorageError.Genuine (runRow rid) :=
  .bind (.read _) fun _ => .require (by simp [StorageError.Genuine])

theorem startIfPending_raises {row : WorkflowRunRow} :
    Tx.Raises StorageError.Genuine (startIfPending row lease now) :=
  .ite (.bind (TableRef.cas_raises (by simp [StorageError.Genuine])) fun _ => .bind appendIn_raises fun _ => runRow_raises)
    (.pure _)

/-- `start_and_reconcile` ends, in every state of the database. -/
theorem startAndReconcile_terminates {H : Digests} {rid : String} {db : Db} :
    (startAndReconcile H ord rid lease now).run db ≠ .error .outOfFuel := by
  intro h
  simp only [startAndReconcile] at h
  rw [Tx.bind_error] at h
  rcases h with h | ⟨_, db₁, hlease, h⟩
  · refine (Tx.Raises.bind (.read _) fun _ => .ensure ?_ : Tx.Raises StorageError.Genuine _) _ _ h rfl
    simp [StorageError.Genuine]
  obtain ⟨-, hdb⟩ := Prod.mk.inj (MasterLeaseRepository.assertValidIn_ok.1 hlease).2
  subst hdb
  rw [Tx.bind_error] at h
  rcases h with h | ⟨row, db₂, hrow, h⟩
  · exact runRow_raises _ _ h rfl
  obtain ⟨hrow, hdb⟩ := runRow_ok.1 hrow
  subst hdb
  rw [Tx.bind_error] at h
  rcases h with h | ⟨_, db₃, hval, h⟩
  · exact validateSnapshots_raises _ _ h rfl
  obtain rfl := validateSnapshots_ok hval
  rw [Tx.bind_error] at h
  rcases h with h | ⟨row', db₄, hstart, h⟩
  · exact startIfPending_raises _ _ h rfl
  obtain rfl := (Table.get?_key hrow).symm
  obtain ⟨-, hid, s, hs, hcore, -⟩ := startIfPending_spec hstart hrow
  rw [Tx.bind_error] at h
  rcases h with h | ⟨_, db₅, -, h⟩
  · obtain ⟨stored, hstored, hscore⟩ := run?_of_core (runState_eq_some.1 hs).1
    simp only [reconcileIfRunning] at h
    split at h
    · refine reconcileIn_terminates (by rw [hid]; exact hstored) ?_ h
      rw [hcore] at hscore
      have hsnap := congrArg WorkflowRunRow.compiledSnapshot hscore
      exact hsnap
    · exact Tx.Raises.pure (P := StorageError.Genuine) () _ _ h rfl
  · exact runRow_raises _ _ h rfl

end

end AgentHub
