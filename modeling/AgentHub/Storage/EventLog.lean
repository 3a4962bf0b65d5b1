import AgentHub.Lib.Numbering
import AgentHub.Storage.Runs.Base
/-!
# The event log

`append_in` in full: any actor, with or without a run, the payload checked against the registry. A
transaction that appends, alone or among other statements, only `Logs`: it extends the log by events
that carry the next numbers of their runs. Everything about the log follows from that.
-/

namespace AgentHub

open Lib

/-! ## The registry -/

/-- The payload models. -/
inductive PayloadClass where
  | workflowRun | nodeRun | task | plannerRun | changeSet | approval | privilegeRequest | capabilityGrant
  | schemaMigration | recovery
  deriving DecidableEq, Repr

def PayloadClass.name : PayloadClass → String
  | .workflowRun => "WorkflowRunEventPayload" | .nodeRun => "NodeRunEventPayload" | .task => "TaskEventPayload"
  | .plannerRun => "PlannerRunEventPayload" | .changeSet => "ChangeSetEventPayload" | .approval => "ApprovalEventPayload"
  | .privilegeRequest => "PrivilegeRequestEventPayload" | .capabilityGrant => "CapabilityGrantEventPayload"
  | .schemaMigration => "SchemaMigrationEventPayload" | .recovery => "RecoveryEventPayload"

def EventPayload.payloadClass : EventPayload → PayloadClass
  | .run .. => .workflowRun | .node .. => .nodeRun | .task .. => .task | .changeSet .. => .changeSet
  | .approval .. => .approval | .privilegeRequest .. => .privilegeRequest | .capabilityGrant .. => .capabilityGrant
  | .recovery .. => .recovery | .schemaMigration .. => .schemaMigration

/-- The registered payload model of every event type, and the size of a payload's canonical JSON. -/
structure EventRegistry where
  types : List (String × PayloadClass)
  canonicalSize : EventPayload → Nat

/-- `register_runtime_events`. -/
def runtimeEvents : List (String × PayloadClass) :=
  [(runCreated, .workflowRun), (runStateChanged, .workflowRun), (nodeStateChanged, .nodeRun), (taskStateChanged, .task),
    (plannerStateChanged, .plannerRun), (changeSetStateChanged, .changeSet), (approvalStateChanged, .approval),
    (privilegeRequestStateChanged, .privilegeRequest), (capabilityGrantStateChanged, .capabilityGrant),
    (schemaMigrationStateChanged, .schemaMigration), (recoveryAction, .recovery)]

namespace EventRegistry

def maxPayloadBytes : Nat := 65536

def getPayloadClass (registry : EventRegistry) (eventType : String) : Except StorageError PayloadClass :=
  match registry.types.lookup eventType with
  | some c => .ok c
  | none => .error (.eventPayload ("unknown event type: " ++ eventType))

/-- The checks of a payload: its registered model, then its size. -/
def check (registry : EventRegistry) (mismatch : PayloadClass → String) (tooLarge : String) (eventType : String)
    (payload : EventPayload) : Except StorageError Unit :=
  match registry.getPayloadClass eventType with
  | .error e => .error e
  | .ok expected =>
    if payload.payloadClass ≠ expected then .error (.eventPayload (mismatch expected))
    else if maxPayloadBytes < registry.canonicalSize payload then
      .error (.eventPayload (tooLarge ++ toString (registry.canonicalSize payload) ++ " bytes, exceeding the " ++
        toString maxPayloadBytes ++ " byte limit"))
    else .ok ()

def validatePayload (registry : EventRegistry) (eventType : String) (payload : EventPayload) : Except StorageError Unit :=
  registry.check (fun expected => "payload must be a " ++ expected.name ++ " instance, got " ++ payload.payloadClass.name)
    "event payload canonical JSON is " eventType payload

/-- The check of a payload read back; the parser's own words are left out of the error. -/
def validatePayloadJson (registry : EventRegistry) (eventType : String) (payload : EventPayload) : Except StorageError Unit :=
  registry.check (fun _ => "payload re-validation failed for event type '" ++ eventType ++ "'")
    "re-validated payload canonical JSON is " eventType payload

/-- The event type is registered for the payload's model and the payload is not too large. -/
def Accepts (registry : EventRegistry) (eventType : String) (payload : EventPayload) : Prop :=
  registry.types.lookup eventType = some payload.payloadClass ∧ registry.canonicalSize payload ≤ maxPayloadBytes

/-- Whatever their texts, the checks pass exactly on what the registry accepts: what was accepted when it was
written is accepted when it is read back. -/
theorem check_ok {registry : EventRegistry} {mismatch : PayloadClass → String} {tooLarge eventType : String} {payload : EventPayload} :
    registry.check mismatch tooLarge eventType payload = .ok () ↔ registry.Accepts eventType payload := by
  unfold check Accepts getPayloadClass
  cases registry.types.lookup eventType with
  | none => simp
  | some c =>
    by_cases hc : payload.payloadClass = c
    · by_cases hs : maxPayloadBytes < registry.canonicalSize payload <;> simp [hc, hs, Nat.le_of_not_lt, Nat.not_le_of_lt]
    · simp [hc, Ne.symm hc]

end EventRegistry

/-! ## Appending -/

structure EventRecord where
  eventId : Nat
  event : EventRow
  deriving DecidableEq, Repr

namespace EventRepository

/-- `_entity_id(value) if value else None`. -/
def optionalEntityId : Option String → Op (Option String)
  | none => return none
  | some value =>
    if value = "" then return none
    else do
      Tx.ensure (isEntityId value) (.valueError "entity_id")
      return some value

/-- The number of an event: the next of its run. An event without a run has none; its workflow has to exist. -/
def numberIn (sessionId : String) (workflow : Option String) : Option String → Op (Option Nat)
  | none => do
    let known ← Tx.read fun db => workflow.all fun w => (db.workflows.get? w).isSome
    Tx.ensure known (.integrityError "events")
    return none
  | some run => do
    let seq ← allocateSeq sessionId (workflow.getD "") run
    return some seq

/-- `append_in` for any event. -/
def append (registry : EventRegistry) (sessionId eventType : String) (actorType : ActorType) (actorId : Option String)
    (payload : EventPayload) (workflowId workflowRunId : Option String) (now : Instant) : Op EventRecord := do
  Tx.ensure (isEntityId sessionId) (.valueError "entity_id")
  let actor ← optionalEntityId actorId
  let workflow ← optionalEntityId workflowId
  let run ← optionalEntityId workflowRunId
  Op.lift (registry.validatePayload eventType payload)
  Tx.ensure (run.isNone || workflow.isSome) (.eventPayload "run event must carry workflow_id")
  let session ← Db.sessionsT.select sessionId
  let _ ← Tx.require session (.recordNotFound ("session not found: " ++ sessionId))
  let runSeq ← numberIn sessionId workflow run
  let event : EventRow := ⟨sessionId, workflow, run, runSeq, eventType, actorType, actor, payload, utcNowText now⟩
  Tx.write fun db => { db with events := db.events ++ [event] }
  let eventId ← Tx.read fun db => db.events.length
  return ⟨eventId, event⟩

end EventRepository

/-! ## What a transaction does to the log -/

/-- The run of an event and its number. -/
def EventRow.slot (e : EventRow) : Option (String × Nat) := e.workflowRunId.bind fun r => e.runSeq.map fun n => (r, n)

/-- The next number of a run; a run that is not there yet starts at 1. -/
def Db.nextSeq (db : Db) (workflowRunId : String) : Nat := ((db.workflowRuns.get? workflowRunId).map (·.nextEventSeq)).getD 1

/-- The CHECK constraints of the table and the registry's. -/
structure EventRow.Valid (registry : EventRegistry) (e : EventRow) : Prop where
  numbered : e.workflowRunId.isSome = e.runSeq.isSome
  owned : e.workflowRunId.isSome → e.workflowId.isSome
  accepted : registry.Accepts e.eventType e.payload

/-- `db'` extends the log of `db`: the new events are valid and carry the next numbers of their runs. -/
structure Logs (registry : EventRegistry) (db db' : Db) : Prop where
  grows : Numbering.Grows EventRow.slot db.events db'.events db.nextSeq db'.nextSeq
  valid : ∀ e ∈ db'.events, e ∈ db.events ∨ e.Valid registry

variable {registry : EventRegistry} {db db' db'' : Db}

theorem Logs.refl (db : Db) : Logs registry db db := ⟨.refl _ _, fun _ he => .inl he⟩

theorem Logs.trans (h : Logs registry db db') (h' : Logs registry db' db'') : Logs registry db db'' :=
  ⟨h.grows.trans h'.grows, fun e he => (h'.valid e he).elim (h.valid e) .inr⟩

instance : IsPreorder Db (Logs registry) where
  refl := Logs.refl
  trans _ _ _ := Logs.trans

/-- A statement that writes neither the log nor a counter of it. A new run starts at 1, where it was. -/
structure Unlogged (db db' : Db) : Prop where
  events : db'.events = db.events
  nextSeq : db'.nextSeq = db.nextSeq

theorem Unlogged.logs (h : Unlogged db db') : Logs registry db db' := by
  refine ⟨?_, fun e he => .inl (h.events ▸ he)⟩
  rw [h.events, h.nextSeq]
  exact .refl _ _

/-- One event, appended with the next number of its run. -/
theorem logs_append {e : EventRow} (hv : e.Valid registry) (hevents : db'.events = db.events ++ [e])
    (hnext : ∀ r, db'.nextSeq r = if e.workflowRunId = some r then db.nextSeq r + 1 else db.nextSeq r)
    (hseq : ∀ r, e.workflowRunId = some r → e.runSeq = some (db.nextSeq r)) : Logs registry db db' := by
  refine ⟨⟨[e], hevents, fun r => ?_⟩, fun e' he => ?_⟩
  · rw [hnext r]
    have hnum : Numbering.numbers EventRow.slot [e] r = if e.workflowRunId = some r then [db.nextSeq r] else [] := by
      unfold Numbering.numbers
      rw [List.filterMap_cons, List.filterMap_nil]
      unfold EventRow.slot
      cases hrun : e.workflowRunId with
      | none => simp
      | some r' =>
        rw [hseq r' hrun]
        by_cases heq : r' = r
        · subst heq; simp
        · simp [heq]
    rw [hnum]
    split
    · exact ⟨1, rfl, .refl _⟩
    · exact ⟨0, rfl, .refl _⟩
  · rw [hevents, List.mem_append, List.mem_singleton] at he
    rcases he with he | rfl
    · exact .inl he
    · exact .inr hv

namespace EventRepository

theorem allocateSeq_spec {sid wid rid : String} {n : Nat} (h : (allocateSeq sid wid rid).run db = .ok (n, db')) :
    n = db.nextSeq rid ∧ db'.events = db.events ∧
      ∀ r, db'.nextSeq r = if r = rid then db.nextSeq r + 1 else db.nextSeq r := by
  unfold allocateSeq at h
  simp only [StateT.run_bind, Tx.bind_ok, Tx.read_ok, Tx.require_ok, Tx.ensure_ok, TableRef.select_ok, StateT.run_pure,
    Tx.pure_ok, Prod.exists, Prod.mk.injEq] at h
  obtain ⟨_, _, ⟨-, rfl⟩, _, _, ⟨-, rfl⟩, _, _, ⟨-, -, rfl⟩, _, _, ⟨rfl, rfl⟩, run, _, ⟨hrun, rfl⟩, _, _, ⟨-, -, rfl⟩,
    _, _, ⟨-, -, rfl⟩, _, s, hcas, rfl, rfl⟩ := h
  obtain ⟨row, hrow, -, hself, hne⟩ := TableRef.cas_writes hcas
  rw [TableRef.cas_ok, Prod.mk.injEq] at hcas
  obtain ⟨-, -, rfl⟩ := hcas
  rw [hrun, Option.some.injEq] at hrow
  subst hrow
  refine ⟨?_, rfl, fun r => ?_⟩
  · simp only [Db.nextSeq]
    rw [hrun]
    rfl
  · unfold Db.nextSeq
    split
    · next heq =>
      subst heq
      rw [hself, hrun]
      rfl
    · next hr => rw [hne r hr]

theorem numberIn_spec {sid : String} {workflow run : Option String} {seq : Option Nat}
    (h : (numberIn sid workflow run).run db = .ok (seq, db')) :
    seq = run.map db.nextSeq ∧ db'.events = db.events ∧
      ∀ r, db'.nextSeq r = if run = some r then db.nextSeq r + 1 else db.nextSeq r := by
  cases run with
  | none =>
    simp only [numberIn, StateT.run_bind, Tx.bind_ok, Tx.read_ok, Tx.ensure_ok, StateT.run_pure, Tx.pure_ok, Prod.exists,
      Prod.mk.injEq] at h
    obtain ⟨_, _, ⟨-, rfl⟩, _, _, ⟨-, -, rfl⟩, rfl, rfl⟩ := h
    exact ⟨rfl, rfl, fun r => rfl⟩
  | some run =>
    simp only [numberIn, StateT.run_bind, Tx.bind_ok, StateT.run_pure, Tx.pure_ok, Prod.exists, Prod.mk.injEq] at h
    obtain ⟨n, s, hseq, rfl, rfl⟩ := h
    obtain ⟨rfl, hevents, hnext⟩ := allocateSeq_spec hseq
    refine ⟨rfl, hevents, fun r => ?_⟩
    rw [hnext r]
    simp only [Option.some.injEq, eq_comm]

theorem optionalEntityId_ok {value r : Option String} (h : (optionalEntityId value).run db = .ok (r, db')) : db' = db := by
  unfold optionalEntityId at h
  split at h
  · exact (Prod.mk.inj (Tx.pure_ok.1 h)).2
  · split at h
    · exact (Prod.mk.inj (Tx.pure_ok.1 h)).2
    · simp only [StateT.run_bind, Tx.bind_ok, Tx.ensure_ok, StateT.run_pure, Tx.pure_ok, Prod.exists, Prod.mk.injEq] at h
      obtain ⟨_, _, ⟨-, -, rfl⟩, -, rfl⟩ := h
      rfl

theorem lift_ok {α : Type} {x : Except StorageError α} {a : α} (h : (Op.lift x).run db = .ok (a, db')) :
    x = .ok a ∧ db' = db := by
  cases x with
  | error e => cases h
  | ok b =>
    obtain ⟨rfl, rfl⟩ := Prod.mk.inj (Except.ok.inj h)
    exact ⟨rfl, rfl⟩

/-- An append extends the log by its event, the last of the log, with the next number of its run. -/
theorem append_logs {sid typ : String} {actorType : ActorType} {actor : Option String} {payload : EventPayload}
    {wid rid : Option String} {now : Instant} {record : EventRecord}
    (h : (append registry sid typ actorType actor payload wid rid now).run db = .ok (record, db')) :
    Logs registry db db' ∧ db'.events = db.events ++ [record.event] ∧ record.eventId = db'.events.length := by
  unfold append at h
  simp only [StateT.run_bind, Tx.bind_ok, Tx.read_ok, Tx.require_ok, Tx.ensure_ok, Tx.write_ok, TableRef.select_ok,
    StateT.run_pure, Tx.pure_ok, Prod.exists, Prod.mk.injEq] at h
  obtain ⟨_, _, ⟨-, -, rfl⟩, actor', _, hactor, workflow, _, hworkflow, run, _, hrun, _, _, hvalid, _, _, ⟨howned, -, rfl⟩,
    _, _, ⟨-, rfl⟩, _, _, ⟨-, rfl⟩, seq, s, hseq, _, _, ⟨-, rfl⟩, _, _, ⟨rfl, rfl⟩, rfl, rfl⟩ := h
  obtain rfl := optionalEntityId_ok hactor
  obtain rfl := optionalEntityId_ok hworkflow
  obtain rfl := optionalEntityId_ok hrun
  obtain ⟨haccept, rfl⟩ := lift_ok hvalid
  obtain ⟨rfl, hevents, hnext⟩ := numberIn_spec hseq
  have hlog : ∀ e : EventRow, s.events ++ [e] = _ ++ [e] := fun e => congrArg (· ++ [e]) hevents
  have haccepts : registry.Accepts typ payload := EventRegistry.check_ok.1 haccept
  refine ⟨logs_append ⟨?_, fun hsome => ?_, haccepts⟩ (hlog _) hnext ?_, hlog _, rfl⟩
  · cases run <;> rfl
  · cases run with
    | none => cases hsome
    | some r => simpa using howned
  · rintro r rfl
    rfl

theorem optionalEntityId_some {value : String} (h : isEntityId value = true) :
    (optionalEntityId (some value)).run db = .ok (some value, db) := by
  have hne : value ≠ "" := by
    rintro rfl
    cases h
  simp only [optionalEntityId, if_neg hne]
  rw [Tx.run_bind_of_ok (Tx.ensure_ok.2 ⟨h, rfl⟩)]
  rfl

/-- `appendIn` is `append` by the master for a run, once the ids and the payload are in order. -/
theorem append_master {sid typ actor wid rid : String} {payload : EventPayload} {now : Instant}
    (hs : isEntityId sid = true) (ha : isEntityId actor = true) (hw : isEntityId wid = true) (hr : isEntityId rid = true)
    (haccepts : registry.Accepts typ payload) :
    (do let _ ← append registry sid typ .master (some actor) payload (some wid) (some rid) now : Op Unit).run db =
      (appendIn sid typ actor payload wid rid now).run db := by
  have hpayload : (Op.lift (registry.validatePayload typ payload)).run db = .ok ((), db) := by
    unfold EventRegistry.validatePayload
    rw [EventRegistry.check_ok.2 haccepts]
    rfl
  unfold append
  rw [bind_assoc, Tx.run_bind_of_ok (Tx.ensure_ok.2 ⟨hs, rfl⟩), bind_assoc, Tx.run_bind_of_ok (optionalEntityId_some ha),
    bind_assoc, Tx.run_bind_of_ok (optionalEntityId_some hw), bind_assoc, Tx.run_bind_of_ok (optionalEntityId_some hr),
    bind_assoc, Tx.run_bind_of_ok hpayload]
  unfold appendIn numberIn
  simp only [bind_assoc, pure_bind, Option.isSome_some, Option.isNone_some, Bool.or_true, Option.getD_some]
  rw [Tx.run_bind_of_ok (Tx.ensure_ok.2 ⟨rfl, rfl⟩)]
  rfl
end EventRepository

end AgentHub
