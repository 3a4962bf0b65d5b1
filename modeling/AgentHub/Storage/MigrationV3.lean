import AgentHub.Storage.EventLog
/-!
# Migration to schema v3

Rows from before resource seals are denied, rejected or revoked, and each change is an event of its run.
The events of one subject table are inserted in bulk: SQL numbers them by a window function from the
run's counter, then moves the counter past them. `migrationV3_logs` says that the three batches only
extend the log by the next numbers, as `append_in` does.
-/

namespace AgentHub

open Lib

namespace MigrationV3

/-- A row of a temporary table: a subject, its run, and the payload that records its change. -/
structure LegacyRow where
  id : String
  workflowRunId : String
  payload : EventPayload
  deriving DecidableEq, Repr

/-- The run of a node run that exists, with the node run. -/
def runOfNode (db : Db) (nodeRunId : String) : Option (NodeRunRow × WorkflowRunRow) :=
  (db.nodeRuns.get? nodeRunId).bind fun node => (db.workflowRuns.get? node.workflowRunId).map fun run => (node, run)

/-- `resource_seal_json = '\x7b\x7d'`. -/
def unsealed (resourceSeal : ResourceSeal) : Bool := resourceSeal = {}

/-- `_hub210_v3_legacy_requests`. -/
def legacyRequests (db : Db) : List LegacyRow :=
  (db.privilegeRequests.rows.filter fun r => unsealed r.resourceSeal ∧ r.status ∈ [.pending, .waitingApproval, .approved]).filterMap
    fun r => (runOfNode db r.nodeRunId).map fun (node, run) =>
      ⟨r.id, run.id, .schemaMigration run.id node.id "privilege_request" r.id r.status.value "denied" none none
        "schema migration v3: capability resource seal missing"⟩

/-- The request an approval is about, when it has no seal. -/
def unsealedRequest (db : Db) (approval : ApprovalRow) : Bool :=
  approval.privilegeRequestId.any fun id => (db.privilegeRequests.get? id).any fun r => unsealed r.resourceSeal

/-- `_hub210_v3_legacy_approvals`. -/
def legacyApprovals (db : Db) : List LegacyRow :=
  (db.approvals.rows.filter fun a => a.status = .pending ∧ unsealedRequest db a).filterMap fun a =>
    (runOfNode db a.nodeRunId).bind fun (node, run) =>
      if run.id = a.workflowRunId then
        some ⟨a.id, run.id, .schemaMigration run.id node.id "approval" a.id "pending" "rejected" (some (a.version + 1))
          (some a.subjectSha256) "schema migration v3: capability resource seal missing"⟩
      else none

/-- `_hub210_v3_legacy_grants`. -/
def legacyGrants (db : Db) : List LegacyRow :=
  (db.capabilityGrants.rows.filter fun g => unsealed g.resourceSeal ∧ g.consumedAt = none ∧ g.revokedAt = none).filterMap fun g =>
    (db.privilegeRequests.get? g.requestId).bind fun r => (runOfNode db r.nodeRunId).map fun (node, run) =>
      ⟨g.id, run.id, .schemaMigration run.id node.id "capability_grant" g.id "active" "revoked" none none
        "schema migration v3: resource seal missing; grant revoked"⟩

/-- The order in which an `INSERT … SELECT` inserts its rows. -/
structure InsertOrder where
  order : List EventRow → List EventRow
  perm : ∀ l, (order l).Perm l

/-- The event of a candidate, numbered `next_event_seq + ROW_NUMBER() OVER (PARTITION BY workflow_run_id …) - 1`. -/
def toEvent (db : Db) (rows : List LegacyRow) (createdAt : String) (row : LegacyRow) : Option EventRow :=
  (db.workflowRuns.get? row.workflowRunId).map fun run =>
    ⟨run.sessionId, some run.workflowId, some run.id,
      some (run.nextEventSeq + Numbering.rank LegacyRow.id (rows.filter fun r => r.workflowRunId = row.workflowRunId) row),
      schemaMigrationStateChanged, .system, some "schema-migration-v3", row.payload, createdAt⟩

/-- One batch: insert the events, `CHECK (length(payload_json) <= 65536)`, then move the counters past them. -/
def insertBatch (registry : EventRegistry) (ord : InsertOrder) (rows : List LegacyRow) (createdAt : String) : Op Unit := do
  let events ← Tx.read fun db => rows.filterMap (toEvent db rows createdAt)
  Tx.ensure (events.all fun e => registry.canonicalSize e.payload ≤ EventRegistry.maxPayloadBytes) (.integrityError "events")
  Tx.write fun db => { db with events := db.events ++ ord.order events }
  let _ ← Db.workflowRunsT.update (fun run => rows.any fun r => r.workflowRunId = run.id)
    (fun run => { run with nextEventSeq := run.nextEventSeq + rows.countP fun r => r.workflowRunId = run.id })
    (fun _ => rfl) (fun _ => rfl)

/-- `strftime('%Y-%m-%dT%H:%M:%f', 'now') || '000Z'`: the time to the millisecond. -/
def migrationTime (now : Instant) : String :=
  utcNowText ⟨now.micros / 1000 * 1000, Nat.lt_of_le_of_lt (Nat.div_mul_le_self _ _) now.bound⟩

theorem denied_id (r : PrivilegeRequestRow) : ({ r with status := .denied } : PrivilegeRequestRow).id = r.id := rfl

/-- The statements that invalidate the rows without a seal. -/
def invalidateUnsealed (timestamp : String) : Op Unit := do
  let db ← Tx.read id
  let _ ← Db.approvalsT.update (fun a => a.status = .pending ∧ unsealedRequest db a)
    (fun a => { a with status := .rejected, version := a.version + 1, decisionActor := some "schema-migration-v3",
                       decisionIdempotencyKey := some "schema-migration-v3", decidedAt := some timestamp })
    (fun _ => rfl) (fun _ => rfl)
  let _ ← Db.privilegeRequestsT.update (fun r => unsealed r.resourceSeal ∧ r.status ∈ [.pending, .waitingApproval, .approved])
    (fun r => { r with status := .denied }) denied_id denied_id
  let _ ← Db.capabilityGrantsT.update (fun g => unsealed g.resourceSeal ∧ g.consumedAt = none ∧ g.revokedAt = none)
    (fun g => { g with revokedAt := some timestamp, revocationReason := some "resource seal missing during schema migration" })
    (fun _ => rfl) (fun _ => rfl)

def migrationV3 (registry : EventRegistry) (ord : InsertOrder) (now : Instant) : Op Unit := do
  let requests ← Tx.read legacyRequests
  let approvals ← Tx.read legacyApprovals
  let grants ← Tx.read legacyGrants
  invalidateUnsealed (migrationTime now)
  insertBatch registry ord requests (migrationTime now)
  insertBatch registry ord approvals (migrationTime now)
  insertBatch registry ord grants (migrationTime now)

/-! ## What a batch does to the log -/

variable {registry : EventRegistry} {ord : InsertOrder} {rows : List LegacyRow} {createdAt : String} {db db' : Db}

theorem filterMap_guard {α β : Type} {p : α → Bool} {g : α → β} (l : List α) :
    (l.filterMap fun a => if p a then some (g a) else none) = (l.filter p).map g := by
  induction l with
  | nil => rfl
  | cons a l ih => by_cases h : p a <;> simp [h, ih]

/-- The number a candidate takes from the run `r`. -/
theorem number_of_candidate (r : String) (row : LegacyRow) :
    ((toEvent db rows createdAt row).bind fun e => e.slot.bind fun s => if s.1 = r then some s.2 else none) =
      if row.workflowRunId = r then (db.workflowRuns.get? r).map fun run =>
        run.nextEventSeq + Numbering.rank LegacyRow.id (rows.filter fun row => row.workflowRunId = r) row
      else none := by
  unfold toEvent
  by_cases heq : row.workflowRunId = r
  · rw [if_pos heq, heq]
    cases hrun : db.workflowRuns.get? r with
    | none => rfl
    | some run =>
      have hid : run.id = r := Table.get?_key hrun
      simp [EventRow.slot, hid]
  · rw [if_neg heq]
    cases hrun : db.workflowRuns.get? row.workflowRunId with
    | none => rfl
    | some run =>
      have hid : run.id = row.workflowRunId := Table.get?_key hrun
      simp [EventRow.slot, hid, heq]

/-- The numbers a batch gives a run: one for each of its candidates, counted up from the run's counter. -/
theorem numbers_batch (r : String) (hnd : (rows.map LegacyRow.id).Nodup) :
    (Numbering.numbers EventRow.slot (rows.filterMap (toEvent db rows createdAt)) r).Perm
      (List.range' (db.nextSeq r) (if (db.workflowRuns.get? r).isSome then rows.countP fun row => row.workflowRunId = r else 0)) := by
  unfold Numbering.numbers Db.nextSeq
  rw [List.filterMap_filterMap]
  simp only [number_of_candidate]
  cases hrun : db.workflowRuns.get? r with
  | none => simp
  | some run =>
    simp only [Option.map_some, Option.isSome_some, if_true, Option.getD_some]
    have hguard := @filterMap_guard _ _ (fun row => decide (row.workflowRunId = r)) (fun row => run.nextEventSeq +
      Numbering.rank LegacyRow.id (rows.filter fun row => row.workflowRunId = r) row) rows
    simp only [decide_eq_true_eq] at hguard
    rw [hguard, List.countP_eq_length_filter]
    exact Numbering.map_rank_range' LegacyRow.id (hnd.sublist (List.filter_sublist.map _)) _

/-- The counter of a run that is there moves past its candidates, if it has any. -/
theorem nextSeq_advanced (r : String) {p : WorkflowRunRow → Bool} {f : WorkflowRunRow → WorkflowRunRow} {hk hu}
    (hp : ∀ run, p run = rows.any fun row => row.workflowRunId = run.id)
    (hf : ∀ run, (f run).nextEventSeq = run.nextEventSeq + rows.countP fun row => row.workflowRunId = run.id) :
    ({ db with workflowRuns := db.workflowRuns.update p f hk hu } : Db).nextSeq r =
      db.nextSeq r + if (db.workflowRuns.get? r).isSome then rows.countP fun row => row.workflowRunId = r else 0 := by
  unfold Db.nextSeq
  simp only
  rw [Table.get?_update]
  cases hrun : db.workflowRuns.get? r with
  | none => rfl
  | some run =>
    have hid : run.id = r := Table.get?_key hrun
    simp only [Option.map_some, Option.getD_some, Option.isSome_some, if_true]
    split
    · rw [hf, hid]
    · next hany =>
      rw [hp, hid, Bool.not_eq_true, List.any_eq_false] at hany
      rw [List.countP_eq_zero.2 hany, Nat.add_zero]

theorem toEvent_valid {row : LegacyRow} {e : EventRow} (h : toEvent db rows createdAt row = some e)
    (hclass : row.payload.payloadClass = .schemaMigration) (htypes : registry.types = runtimeEvents)
    (hsize : registry.canonicalSize e.payload ≤ EventRegistry.maxPayloadBytes) : e.Valid registry := by
  unfold toEvent at h
  obtain ⟨run, -, rfl⟩ := Option.map_eq_some_iff.1 h
  refine ⟨rfl, fun _ => rfl, ?_, hsize⟩
  rw [htypes, hclass]
  rfl

/-- A batch extends the log by the next numbers of the runs. -/
theorem insertBatch_logs {u : Unit} (hnd : (rows.map LegacyRow.id).Nodup)
    (hclass : ∀ row ∈ rows, row.payload.payloadClass = .schemaMigration) (htypes : registry.types = runtimeEvents)
    (h : (insertBatch registry ord rows createdAt).run db = .ok (u, db')) : Logs registry db db' := by
  unfold insertBatch at h
  simp only [StateT.run_bind, Tx.bind_ok, Tx.read_ok, Tx.ensure_ok, Tx.write_ok, TableRef.update_ok, StateT.run_pure,
    Tx.pure_ok, Prod.exists, Prod.mk.injEq] at h
  obtain ⟨_, _, ⟨rfl, rfl⟩, _, _, ⟨hsize, -, rfl⟩, _, _, ⟨-, rfl⟩, _, _, ⟨-, rfl⟩, -, rfl⟩ := h
  rw [List.all_eq_true] at hsize
  refine ⟨⟨_, rfl, fun r => ?_⟩, fun e he => ?_⟩
  · refine ⟨_, ?_, (Numbering.numbers_perm (ord.perm _) r).trans (numbers_batch r hnd)⟩
    exact nextSeq_advanced r (fun _ => rfl) fun _ => rfl
  · rcases List.mem_append.1 he with he | he
    · exact .inl he
    · have hmem := (ord.perm _).mem_iff.1 he
      obtain ⟨row, hrow, hevent⟩ := List.mem_filterMap.1 hmem
      exact .inr (toEvent_valid hevent (hclass row hrow) htypes (by simpa using hsize e hmem))

/-! ## The candidates -/

/-- The candidates of a batch: distinct subjects, each with the payload of a migration. -/
structure Candidates (rows : List LegacyRow) : Prop where
  nodup : (rows.map LegacyRow.id).Nodup
  migration : ∀ row ∈ rows, row.payload.payloadClass = .schemaMigration

theorem candidates_of {ρ ι : Type} {id : ρ → String} {uniq : ρ → ι} {t : Table ρ id uniq} {p : ρ → Bool}
    {f : ρ → Option LegacyRow} (hf : ∀ r row, f r = some row → row.id = id r ∧ row.payload.payloadClass = .schemaMigration) :
    Candidates ((t.rows.filter p).filterMap f) where
  nodup := by
    have hnd : ((t.rows.filter p).map id).Nodup := t.key_nodup.sublist (List.filter_sublist.map _)
    unfold List.Nodup at hnd ⊢
    rw [List.pairwise_map] at hnd ⊢
    refine hnd.filterMap f fun r r' hne row hrow row' hrow' => ?_
    rw [(hf r row hrow).1, (hf r' row' hrow').1]
    exact hne
  migration := by
    intro row hrow
    obtain ⟨r, -, h⟩ := List.mem_filterMap.1 hrow
    exact (hf r row h).2

theorem legacyRequests_candidates (db : Db) : Candidates (legacyRequests db) := by
  apply candidates_of
  intro r row h
  obtain ⟨p, -, rfl⟩ := Option.map_eq_some_iff.1 h
  exact ⟨rfl, rfl⟩

theorem legacyApprovals_candidates (db : Db) : Candidates (legacyApprovals db) := by
  apply candidates_of
  intro a row h
  obtain ⟨⟨node, run⟩, -, h⟩ := Option.bind_eq_some_iff.1 h
  simp only [Option.ite_none_right_eq_some, Option.some.injEq] at h
  obtain ⟨-, rfl⟩ := h
  exact ⟨rfl, rfl⟩

theorem legacyGrants_candidates (db : Db) : Candidates (legacyGrants db) := by
  apply candidates_of
  intro g row h
  obtain ⟨r, -, h⟩ := Option.bind_eq_some_iff.1 h
  obtain ⟨p, -, rfl⟩ := Option.map_eq_some_iff.1 h
  exact ⟨rfl, rfl⟩

theorem invalidateUnsealed_unlogged (timestamp : String) : Tx.Within Unlogged (invalidateUnsealed timestamp) := by
  intro s u s' h
  unfold invalidateUnsealed at h
  simp only [StateT.run_bind, Tx.bind_ok, Tx.read_ok, TableRef.update_ok, StateT.run_pure, Tx.pure_ok, Prod.exists,
    Prod.mk.injEq] at h
  obtain ⟨_, _, ⟨-, rfl⟩, _, _, ⟨-, rfl⟩, _, _, ⟨-, rfl⟩, _, _, ⟨-, rfl⟩, -, rfl⟩ := h
  exact ⟨rfl, rfl⟩

/-- The migration extends the log by the next numbers of the runs. -/
theorem migrationV3_logs {now : Instant} (htypes : registry.types = runtimeEvents) :
    Tx.Within (Logs registry) (migrationV3 registry ord now) := by
  intro s u s' h
  unfold migrationV3 at h
  simp only [StateT.run_bind, Tx.bind_ok, Tx.read_ok, Prod.exists, Prod.mk.injEq] at h
  obtain ⟨_, _, ⟨rfl, rfl⟩, _, _, ⟨rfl, rfl⟩, _, _, ⟨rfl, rfl⟩, _, s₀, hinv, _, s₁, h₁, _, s₂, h₂, h₃⟩ := h
  have hr := legacyRequests_candidates
  have ha := legacyApprovals_candidates
  have hg := legacyGrants_candidates
  have hstart : Logs registry _ s₀ := (invalidateUnsealed_unlogged _ _ _ _ hinv).logs
  exact ((hstart.trans (insertBatch_logs (hr _).nodup (hr _).migration htypes h₁)).trans
    (insertBatch_logs (ha _).nodup (ha _).migration htypes h₂)).trans
    (insertBatch_logs (hg _).nodup (hg _).migration htypes h₃)

end MigrationV3

end AgentHub
