import AgentHub.Lib.Pages
import AgentHub.Storage.MigrationV3
/-!
# Replaying the event log

The paged reads of the event repository, the runs of transactions that append to the log, and the law
of both: every run's numbers are gap-free in commit order, and a replay returns what it should however
the log grows between two of its pages.
-/

namespace AgentHub

open Lib

/-! ## Reads -/

namespace EventRepository

def maxLimit : Int := 500

/-- `_validate_limit`. -/
def validateLimit (value : Int) (label : String) : Except StorageError Nat :=
  if value < 1 then .error (.valueError (label ++ " must be >= 1, got " ++ toString value)) else .ok (min value maxLimit).toNat

/-- The rows of the table with their ids: the key is AUTOINCREMENT and no row is ever deleted. -/
def records (db : Db) : List EventRecord := (db.events.zipIdx 1).map fun p => ⟨p.2, p.1⟩

/-- `_to_validated_record`. -/
def toValidatedRecord (registry : EventRegistry) (record : EventRecord) : Except StorageError EventRecord :=
  (registry.validatePayloadJson record.event.eventType record.event.payload).map fun _ => record

def runSeqKey (record : EventRecord) : Int := record.event.runSeq.getD 0

def eventIdKey (record : EventRecord) : Int := record.eventId

def listBySession (registry : EventRegistry) (db : Db) (sessionId : String) (afterEventId limit : Int) :
    Except StorageError (List EventRecord) :=
  if isEntityId sessionId then do
    let limit ← validateLimit limit "limit"
    -- `ORDER BY id` is the order of the table.
    let found := (records db).filter fun r => r.event.sessionId = sessionId && decide (afterEventId < eventIdKey r)
    (found.take limit).mapM (toValidatedRecord registry)
  else .error (.valueError "entity_id")

def listByRun (registry : EventRegistry) (db : Db) (workflowRunId : String) (afterRunSeq limit : Int) :
    Except StorageError (List EventRecord) :=
  if isEntityId workflowRunId then do
    let limit ← validateLimit limit "limit"
    let found := (records db).filter fun r => r.event.workflowRunId = some workflowRunId && decide (afterRunSeq < runSeqKey r)
    ((found.mergeSort fun a b => runSeqKey a ≤ runSeqKey b).take limit).mapM (toValidatedRecord registry)
  else .error (.valueError "entity_id")

/-- The loop of the two replays. Page `n` is read from the store as it is then; `read` is the page after a
cursor and `nextCursor` the cursor of a page's last record. -/
def replayPages (read : Nat → Int → Except StorageError (List EventRecord))
    (nextCursor : EventRecord → Except StorageError Int) (pageSize : Nat) :
    (fuel n : Nat) → (cursor : Int) → (result : List EventRecord) → Except StorageError (List EventRecord)
  | 0, _, _, _ => .error .outOfFuel
  | fuel + 1, n, cursor, result =>
    match read n cursor with
    | .error e => .error e
    | .ok page =>
      if page.length < pageSize then .ok (result ++ page)
      else match page.getLast? with
        | none => .error (.runtimeError "list index out of range")
        | some last =>
          match nextCursor last with
          | .error e => .error e
          | .ok next => replayPages read nextCursor pageSize fuel (n + 1) next (result ++ page)

def listAllBySession (registry : EventRegistry) (sessionId : String) (stores : Nat → Db) (fuel : Nat)
    (afterEventId pageSize : Int) : Except StorageError (List EventRecord) := do
  let pageSize ← validateLimit pageSize "page_size"
  replayPages (fun n cursor => listBySession registry (stores n) sessionId cursor pageSize)
    (fun last => .ok (eventIdKey last)) pageSize fuel 0 afterEventId []

def listAllByRun (registry : EventRegistry) (workflowRunId : String) (stores : Nat → Db) (fuel : Nat)
    (afterRunSeq pageSize : Int) : Except StorageError (List EventRecord) := do
  let pageSize ← validateLimit pageSize "page_size"
  replayPages (fun n cursor => listByRun registry (stores n) workflowRunId cursor pageSize)
    (fun last => match last.event.runSeq with
      | none => .error (.eventPayload "run event is missing its run_seq")
      | some seq => .ok seq) pageSize fuel 0 afterRunSeq []

end EventRepository

/-! ## Views of the log -/

open EventRepository Numbering

section
variable (sel : EventRow → Bool) (key : EventRecord → Int)

/-- The selected records of a list, in the order of their keys. -/
def view (l : List EventRecord) : List EventRecord := (l.filter fun r => sel r.event).mergeSort fun a b => key a ≤ key b

variable {sel key} {l new : List EventRecord}

theorem mem_view {r : EventRecord} : r ∈ view sel key l ↔ r ∈ l ∧ sel r.event = true := by
  unfold view
  rw [(List.mergeSort_perm _ _).mem_iff, List.mem_filter]

theorem view_sorted (hnd : ((l.filter fun r => sel r.event).map key).Nodup) :
    (view sel key l).Pairwise fun a b => key a < key b := pairwise_mergeSort key hnd

/-- The selected records after a cursor, sorted, are the view cut at the cursor. -/
theorem eq_view_after (hnd : ((l.filter fun r => sel r.event).map key).Nodup) {cursor : Int} {rows : List EventRecord}
    (hperm : rows.Perm (l.filter fun r => sel r.event && decide (cursor < key r)))
    (hs : rows.Pairwise fun a b => key a < key b) : rows = (view sel key l).filter fun r => cursor < key r := by
  have hfilter : (l.filter fun r => sel r.event && decide (cursor < key r)) =
      (l.filter fun r => sel r.event).filter fun r => cursor < key r := by
    rw [List.filter_filter]
    exact List.filter_congr fun r _ => Bool.and_comm _ _
  rw [hfilter] at hperm
  exact eq_of_sorted key (hperm.trans ((List.mergeSort_perm _ _).symm.filter _)) hs ((view_sorted hnd).filter _)

/-- Records with larger keys come after. -/
theorem view_prefix (hnd : (((l ++ new).filter fun r => sel r.event).map key).Nodup)
    (hlt : ∀ a ∈ l, sel a.event = true → ∀ b ∈ new, sel b.event = true → key a < key b) :
    view sel key l <+: view sel key (l ++ new) := by
  rw [List.filter_append, List.map_append] at hnd
  have heq : view sel key l ++ view sel key new = view sel key (l ++ new) := by
    apply eq_of_sorted key
    · unfold view
      rw [List.filter_append]
      exact ((List.mergeSort_perm _ _).append (List.mergeSort_perm _ _)).trans (List.mergeSort_perm _ _).symm
    · refine List.pairwise_append.2 ⟨view_sorted hnd.of_append_left, view_sorted hnd.of_append_right, fun a ha b hb => ?_⟩
      obtain ⟨ha, has⟩ := mem_view.1 ha
      obtain ⟨hb, hbs⟩ := mem_view.1 hb
      exact hlt a ha has b hb hbs
    · apply view_sorted
      rwa [List.filter_append, List.map_append]
  exact ⟨_, heq⟩

end

/-! ## The loop reads pages -/

theorem mapM_valid {registry : EventRegistry} {l : List EventRecord}
    (h : ∀ r ∈ l, registry.Accepts r.event.eventType r.event.payload) : l.mapM (toValidatedRecord registry) = .ok l := by
  induction l with
  | nil => rfl
  | cons r l ih =>
    have hr : toValidatedRecord registry r = .ok r := by
      unfold toValidatedRecord EventRegistry.validatePayloadJson
      rw [EventRegistry.check_ok.2 (h r List.mem_cons_self)]
      rfl
    rw [List.mapM_cons, hr, ih fun r' hr' => h r' (List.mem_cons_of_mem _ hr')]
    rfl

/-- Where every page is a page of the items, the loop is the reader of pages. -/
theorem replayPages_eq {read : Nat → Int → Except StorageError (List EventRecord)}
    {nextCursor : EventRecord → Except StorageError Int} {key : EventRecord → Int} {items : Nat → List EventRecord}
    {limit : Nat} (hlimit : 1 ≤ limit) (hread : ∀ n cursor, read n cursor = .ok (Pages.page key (items n) cursor limit))
    (hnext : ∀ n, ∀ r ∈ items n, nextCursor r = .ok (key r)) {fuel : Nat} : ∀ {n : Nat} {cursor : Int} {result : List EventRecord},
    replayPages read nextCursor limit fuel n cursor result =
      match Pages.readAll key items limit fuel n cursor result with
      | none => .error .outOfFuel
      | some p => .ok p.2 := by
  induction fuel with
  | zero => intro n cursor result; rfl
  | succ fuel ih =>
    intro n cursor result
    unfold replayPages Pages.readAll
    rw [hread]
    simp only
    by_cases hshort : (Pages.page key (items n) cursor limit).length < limit
    · rw [if_pos hshort, if_pos hshort]
    · rw [if_neg hshort, if_neg hshort]
      cases hlast : (Pages.page key (items n) cursor limit).getLast? with
      | none =>
        rw [List.getLast?_eq_none_iff.1 hlast] at hshort
        exact absurd hlimit (by simpa using hshort)
      | some last =>
        have hmem : last ∈ items n := List.mem_of_mem_filter (List.mem_of_mem_take (List.mem_of_getLast? hlast))
        simp only [hnext n last hmem]
        exact ih

/-! ## Transactions on the log -/

/-- A transaction that appends events among any other statements. -/
inductive LogTx (registry : EventRegistry) : {α : Type} → Op α → Prop
  | append (sessionId eventType : String) (actorType : ActorType) (actorId : Option String) (payload : EventPayload)
      (workflowId workflowRunId : Option String) (now : Instant) : LogTx registry
        (EventRepository.append registry sessionId eventType actorType actorId payload workflowId workflowRunId now)
  | migrationV3 (ord : MigrationV3.InsertOrder) (now : Instant) : LogTx registry (MigrationV3.migrationV3 registry ord now)
  | other {α : Type} (x : Op α) (h : Tx.Within Unlogged x) : LogTx registry x
  | bind {α β : Type} {x : Op α} {f : α → Op β} (hx : LogTx registry x) (hf : ∀ a, LogTx registry (f a)) :
      LogTx registry (x >>= f)

theorem LogTx.within {registry : EventRegistry} {α : Type} {x : Op α} (htypes : registry.types = runtimeEvents)
    (h : LogTx registry x) : Tx.Within (Logs registry) x := by
  induction h with
  | append => exact fun _ _ _ hrun => (EventRepository.append_logs hrun).1
  | migrationV3 => exact MigrationV3.migrationV3_logs htypes
  | other x h => exact fun s a s' hrun => (h s a s' hrun).logs
  | bind _ _ ihx ihf => exact .bind ihx ihf

/-- The database after a transaction, committed when it returned and rolled back when it raised. -/
inductive LogStep (registry : EventRegistry) (db : Db) : Db → Prop
  | run {α : Type} (x : Op α) (h : LogTx registry x) : LogStep registry db (Tx.commit x db).2

theorem LogStep.logs {registry : EventRegistry} {db db' : Db} (htypes : registry.types = runtimeEvents)
    (h : LogStep registry db db') : Logs registry db db' := by
  obtain ⟨x, hx⟩ := h
  unfold Tx.commit
  split
  · next a s' hrun => exact hx.within htypes _ _ _ hrun
  · exact .refl _

theorem logs_of_steps {registry : EventRegistry} {db db' : Db} (htypes : registry.types = runtimeEvents)
    (h : Relation.ReflTransGen (LogStep registry) db db') : Logs registry db db' := by
  induction h with
  | refl => exact .refl _
  | tail _ hstep ih => exact ih.trans (hstep.logs htypes)

/-! ## The law of the log -/

/-- Every run's numbers are those below its counter, and every event passes its checks. -/
structure LogLaw (registry : EventRegistry) (db : Db) : Prop where
  dense : Numbering.Dense EventRow.slot db.events db.nextSeq
  valid : ∀ e ∈ db.events, e.Valid registry

theorem LogLaw.logs {registry : EventRegistry} {db db' : Db} (h : LogLaw registry db) (hl : Logs registry db db') :
    LogLaw registry db' :=
  ⟨h.dense.grows hl.grows, fun e he => (hl.valid e he).elim (h.valid e) id⟩

/-- A log without events, of runs that all start at 1. -/
theorem logLaw_empty {registry : EventRegistry} {db : Db} (hevents : db.events = []) (hnext : ∀ r, db.nextSeq r = 1) :
    LogLaw registry db := by
  refine ⟨fun r => ⟨Nat.le_of_eq (hnext r).symm, ?_⟩, ?_⟩
  · rw [hevents, hnext r]
    exact .refl _
  · rw [hevents]
    exact fun e he => absurd he List.not_mem_nil

/-- What the schema asks of any log: the CHECKs, and `UNIQUE (workflow_run_id, run_seq)`. -/
structure LogSchema (registry : EventRegistry) (db : Db) : Prop where
  valid : ∀ e ∈ db.events, e.Valid registry
  unique : ∀ r, (numbers EventRow.slot db.events r).Nodup

theorem LogLaw.schema {registry : EventRegistry} {db : Db} (h : LogLaw registry db) : LogSchema registry db :=
  ⟨h.valid, h.dense.nodup⟩

/-! ## The two views -/

theorem records_events (db : Db) : (records db).map (·.event) = db.events := by
  unfold records
  rw [List.map_map]
  exact List.zipIdx_map_fst 1 db.events

theorem mem_events {db : Db} {r : EventRecord} (h : r ∈ records db) : r.event ∈ db.events := by
  rw [← records_events]
  exact List.mem_map_of_mem h

theorem records_sorted (db : Db) : (records db).Pairwise fun a b => eventIdKey a < eventIdKey b := by
  have hids : (records db).map (·.eventId) = List.range' 1 db.events.length := by
    unfold records
    rw [List.map_map]
    exact List.zipIdx_map_snd 1 db.events
  have hlt : ((records db).map (·.eventId)).Pairwise (· < ·) := hids ▸ List.pairwise_lt_range'
  exact (List.pairwise_map.1 hlt).imp fun h => Int.ofNat_lt.2 h

theorem records_append {db db' : Db} {new : List EventRow} (h : db'.events = db.events ++ new) :
    ∃ new', records db' = records db ++ new' ∧ new'.map (·.event) = new := by
  refine ⟨(new.zipIdx (1 + db.events.length)).map fun p => ⟨p.2, p.1⟩, ?_, ?_⟩
  · unfold records
    rw [h, List.zipIdx_append, List.map_append]
  · rw [List.map_map]
    exact List.zipIdx_map_fst _ new

def ofSession (sessionId : String) (e : EventRow) : Bool := e.sessionId = sessionId

def ofRun (workflowRunId : String) (e : EventRow) : Bool := e.workflowRunId = some workflowRunId

section
variable {registry : EventRegistry} {db db' : Db}

theorem session_keys (sessionId : String) : (((records db).filter fun r => ofSession sessionId r.event).map eventIdKey).Nodup := by
  unfold List.Nodup
  rw [List.pairwise_map]
  exact ((records_sorted db).filter _).imp fun h => Int.ne_of_lt h

/-- The keys of a run's records are the run's numbers. -/
theorem run_keys {l : List EventRecord} (hv : ∀ r ∈ l, r.event.Valid registry) (workflowRunId : String) :
    (l.filter fun r => ofRun workflowRunId r.event).map runSeqKey =
      (numbers EventRow.slot (l.map (·.event)) workflowRunId).map Int.ofNat := by
  induction l with
  | nil => rfl
  | cons r l ih =>
    have hnum := (hv r List.mem_cons_self).numbered
    have ih := ih fun r' hr' => hv r' (List.mem_cons_of_mem _ hr')
    have hhead : (r.event.slot.bind fun s => if s.1 = workflowRunId then some s.2 else none) =
        if ofRun workflowRunId r.event then r.event.runSeq else none := by
      unfold EventRow.slot ofRun
      cases hrun : r.event.workflowRunId with
      | none => simp
      | some r' =>
        rw [hrun] at hnum
        obtain ⟨n, hn⟩ := Option.isSome_iff_exists.1 hnum.symm
        by_cases heq : r' = workflowRunId <;> simp [hn, heq]
    rw [List.map_cons]
    unfold numbers at ih ⊢
    rw [List.filterMap_cons, hhead, List.filter_cons]
    by_cases hrun : ofRun workflowRunId r.event = true
    · have hsome : r.event.runSeq.isSome := by
        rw [← hnum]
        unfold ofRun at hrun
        rw [decide_eq_true_eq] at hrun
        rw [hrun]
        rfl
      obtain ⟨n, hn⟩ := Option.isSome_iff_exists.1 hsome
      simp only [hrun, if_true, hn, List.map_cons, ih]
      unfold runSeqKey
      rw [hn]
      rfl
    · simp only [hrun, if_false, ih, Bool.false_eq_true]

theorem LogSchema.run_keys (h : LogSchema registry db) (workflowRunId : String) :
    (((records db).filter fun r => ofRun workflowRunId r.event).map runSeqKey).Nodup := by
  rw [AgentHub.run_keys (fun r hr => h.valid _ (mem_events hr)), records_events]
  exact (h.unique workflowRunId).map fun a b hab => Int.ofNat.inj hab

/-- A run event carries a number, which is its key. -/
theorem run_number {r : EventRecord} {workflowRunId : String} (hv : r.event.Valid registry)
    (hsel : ofRun workflowRunId r.event = true) : ∃ n, r.event.slot = some (workflowRunId, n) ∧ runSeqKey r = n ∧
      r.event.runSeq = some n := by
  unfold ofRun at hsel
  rw [decide_eq_true_eq] at hsel
  obtain ⟨n, hn⟩ : ∃ n, r.event.runSeq = some n := by
    apply Option.isSome_iff_exists.1
    rw [← hv.numbered, hsel]
    rfl
  refine ⟨n, ?_, ?_, hn⟩
  · unfold EventRow.slot
    rw [hsel, hn]
    rfl
  · unfold runSeqKey
    rw [hn]
    rfl

/-- A session's view of a log that grew starts with its view of the log before. -/
theorem session_view_prefix {new : List EventRow} (h : db'.events = db.events ++ new) (sessionId : String) :
    view (ofSession sessionId) eventIdKey (records db) <+: view (ofSession sessionId) eventIdKey (records db') := by
  obtain ⟨new', hrecords, -⟩ := records_append h
  have hnd := @session_keys db' sessionId
  have hsorted := records_sorted db'
  rw [hrecords] at hnd hsorted ⊢
  exact view_prefix hnd fun a ha _ b hb _ => (List.pairwise_append.1 hsorted).2.2 a ha b hb

/-- So does a run's: what is appended later carries larger numbers. -/
theorem run_view_prefix (hlaw : LogLaw registry db) (hl : Logs registry db db') (workflowRunId : String) :
    view (ofRun workflowRunId) runSeqKey (records db) <+: view (ofRun workflowRunId) runSeqKey (records db') := by
  have hlaw' := hlaw.logs hl
  have hnd := hlaw'.schema.run_keys workflowRunId
  obtain ⟨new, hnew⟩ := hl.grows.appended
  have hgrows := hl.grows
  obtain ⟨new', hrecords, hevents⟩ := records_append hnew.symm
  rw [← hnew] at hgrows
  have hmem' : ∀ b ∈ new', b ∈ records db' := fun b hb => hrecords ▸ List.mem_append_right _ hb
  rw [hrecords] at hnd ⊢
  refine view_prefix hnd fun a ha has b hb hbs => ?_
  obtain ⟨n, hn, hkey, -⟩ := run_number (hlaw.valid _ (mem_events ha)) has
  obtain ⟨m, hm, hkey', -⟩ := run_number (hlaw'.valid _ (mem_events (hmem' b hb))) hbs
  rw [hkey, hkey', Int.ofNat_lt]
  exact hlaw.dense.lt_of_later hgrows (mem_numbers.2 ⟨_, mem_events ha, hn⟩)
    (mem_numbers.2 ⟨_, hevents ▸ List.mem_map_of_mem hb, hm⟩)

/-! ## What a page is -/

theorem validateLimit_ok {value : Int} (label : String) (h : 1 ≤ value) :
    validateLimit value label = .ok (min value maxLimit).toNat := by
  unfold validateLimit
  exact if_neg (by omega)

theorem validateLimit_again {value : Int} (label : String) (h : 1 ≤ value) :
    validateLimit ((min value maxLimit).toNat : Int) label = .ok (min value maxLimit).toNat := by
  have hcap : 1 ≤ min value maxLimit ∧ min value maxLimit ≤ maxLimit := by
    unfold maxLimit
    omega
  rw [Int.toNat_of_nonneg (by omega), validateLimit_ok label hcap.1]
  rw [min_eq_left hcap.2]

theorem mem_page {sel : EventRow → Bool} {key : EventRecord → Int} {cursor : Int} {limit : Nat} {r : EventRecord}
    (h : r ∈ Pages.page key (view sel key (records db)) cursor limit) : r ∈ records db :=
  (mem_view.1 (List.mem_of_mem_filter (List.mem_of_mem_take h))).1

theorem listBySession_page (hschema : LogSchema registry db) {sessionId : String} (hid : isEntityId sessionId = true)
    {pageSize : Int} (hsize : 1 ≤ pageSize) (cursor : Int) :
    listBySession registry db sessionId cursor ((min pageSize maxLimit).toNat : Int) = .ok (Pages.page eventIdKey
      (view (ofSession sessionId) eventIdKey (records db)) cursor (min pageSize maxLimit).toNat) := by
  have hrows := @eq_view_after (ofSession sessionId) eventIdKey (records db) (session_keys sessionId) cursor _ (.refl _)
    ((records_sorted db).filter _)
  unfold listBySession
  rw [if_pos hid, validateLimit_again "limit" hsize]
  refine (congrArg (fun l => (l.take (min pageSize maxLimit).toNat).mapM (toValidatedRecord registry)) hrows).trans ?_
  exact mapM_valid fun r hr => (hschema.valid _ (mem_events (mem_page hr))).accepted

theorem listByRun_page (hschema : LogSchema registry db) {workflowRunId : String} (hid : isEntityId workflowRunId = true)
    {pageSize : Int} (hsize : 1 ≤ pageSize) (cursor : Int) :
    listByRun registry db workflowRunId cursor ((min pageSize maxLimit).toNat : Int) = .ok (Pages.page runSeqKey
      (view (ofRun workflowRunId) runSeqKey (records db)) cursor (min pageSize maxLimit).toNat) := by
  have hnd := hschema.run_keys workflowRunId
  have hfound : (((records db).filter fun r => ofRun workflowRunId r.event && decide (cursor < runSeqKey r)).map runSeqKey).Nodup := by
    refine hnd.sublist ((List.monotone_filter_right _ fun r hr => ?_).map _)
    exact (Bool.and_eq_true_iff.1 hr).1
  have hrows := eq_view_after hnd (List.mergeSort_perm _ _) (pairwise_mergeSort runSeqKey hfound)
  unfold listByRun
  rw [if_pos hid, validateLimit_again "limit" hsize]
  refine (congrArg (fun l => (l.take (min pageSize maxLimit).toNat).mapM (toValidatedRecord registry)) hrows).trans ?_
  exact mapM_valid fun r hr => (hschema.valid _ (mem_events (mem_page hr))).accepted

/-! ## Replays -/

/-- The records of `db` that are selected and after the cursor, each once and in the order of their keys. -/
structure Replay (sel : EventRow → Bool) (key : EventRecord → Int) (db : Db) (cursor : Int) (result : List EventRecord) : Prop where
  ordered : result.Pairwise fun a b => key a < key b
  members : ∀ r, r ∈ result ↔ r ∈ records db ∧ sel r.event = true ∧ cursor < key r

/-- A replay over stores that may differ from page to page: it returns what the store of its last page holds, with
all that the store of its first page held, and it does return unless the log grows without bound. -/
structure Replays (sel : EventRow → Bool) (key : EventRecord → Int) (stores : Nat → Db)
    (listAll : (fuel : Nat) → (cursor pageSize : Int) → Except StorageError (List EventRecord)) : Prop where
  complete : ∀ {fuel : Nat} {cursor pageSize : Int} {result : List EventRecord}, 1 ≤ pageSize →
    listAll fuel cursor pageSize = .ok result → (∃ m, Replay sel key (stores m) cursor result) ∧
      ∀ r ∈ records (stores 0), sel r.event = true → cursor < key r → r ∈ result
  returns : ∀ {cursor pageSize : Int} {bound : Nat}, 1 ≤ pageSize → (∀ n, (stores n).events.length ≤ bound) →
    ∃ result, listAll (bound + 1) cursor pageSize = .ok result

theorem replays_of {sel : EventRow → Bool} {key : EventRecord → Int} {stores : Nat → Db}
    {read : Nat → Nat → Int → Except StorageError (List EventRecord)} {nextCursor : EventRecord → Except StorageError Int}
    (hnd : ∀ n, (((records (stores n)).filter fun r => sel r.event).map key).Nodup)
    (hpre : ∀ n, view sel key (records (stores n)) <+: view sel key (records (stores (n + 1))))
    (hread : ∀ {pageSize : Int}, 1 ≤ pageSize → ∀ n cursor, read (min pageSize maxLimit).toNat n cursor =
      .ok (Pages.page key (view sel key (records (stores n))) cursor (min pageSize maxLimit).toNat))
    (hnext : ∀ n, ∀ r ∈ view sel key (records (stores n)), nextCursor r = .ok (key r)) :
    Replays sel key stores fun fuel cursor pageSize => (validateLimit pageSize "page_size").bind fun pageSize =>
      replayPages (read pageSize) nextCursor pageSize fuel 0 cursor [] := by
  have hsorted : ∀ n, (view sel key (records (stores n))).Pairwise fun a b => key a < key b := fun n => view_sorted (hnd n)
  have hloop : ∀ {fuel : Nat} {cursor pageSize : Int}, 1 ≤ pageSize →
      ((validateLimit pageSize "page_size").bind fun pageSize => replayPages (read pageSize) nextCursor pageSize fuel 0 cursor []) =
      match Pages.readAll key (fun n => view sel key (records (stores n))) (min pageSize maxLimit).toNat fuel 0 cursor [] with
      | none => .error .outOfFuel
      | some p => .ok p.2 := by
    intro fuel cursor pageSize hsize
    rw [validateLimit_ok "page_size" hsize]
    refine replayPages_eq ?_ (hread hsize) hnext
    unfold maxLimit
    omega
  constructor
  · intro fuel cursor pageSize result hsize h
    rw [hloop hsize] at h
    split at h
    · cases h
    · next p hp =>
      obtain rfl := Except.ok.inj h
      obtain ⟨-, heq⟩ := Pages.readAll_eq hsorted hpre hp
      rw [List.nil_append] at heq
      have hmem : ∀ n r, r ∈ (view sel key (records (stores n))).filter (fun r => cursor < key r) ↔
          r ∈ records (stores n) ∧ sel r.event = true ∧ cursor < key r := by
        intro n r
        rw [List.mem_filter, mem_view, decide_eq_true_eq, and_assoc]
      refine ⟨⟨p.1, heq ▸ (hsorted p.1).filter _, fun r => heq ▸ hmem p.1 r⟩, fun r hr hsel hcur => ?_⟩
      have hgrown := (Pages.items_mono hpre (Nat.zero_le p.1)).sublist.filter fun r => decide (cursor < key r)
      exact heq ▸ hgrown.subset ((hmem 0 r).2 ⟨hr, hsel, hcur⟩)
  · intro cursor pageSize bound hsize hbound
    have hlen : ∀ n, ((view sel key (records (stores n))).filter fun r => cursor < key r).length ≤ bound := by
      intro n
      refine Nat.le_trans (List.length_filter_le _ _) (Nat.le_trans ?_ (hbound n))
      unfold view
      rw [List.length_mergeSort, ← records_events, List.length_map]
      exact List.length_filter_le _ _
    have hlimit : 1 ≤ (min pageSize maxLimit).toNat := by
      unfold maxLimit
      omega
    obtain ⟨p, hp⟩ := Pages.readAll_some hsorted hpre hlimit hlen
    exact ⟨p.2, by rw [hloop hsize, hp]⟩

/-- The replays of every run and of every session. -/
structure ReplaysAll (registry : EventRegistry) (stores : Nat → Db) : Prop where
  runs : ∀ id, isEntityId id = true → Replays (ofRun id) runSeqKey stores (listAllByRun registry id stores)
  sessions : ∀ id, isEntityId id = true → Replays (ofSession id) eventIdKey stores (listAllBySession registry id stores)

theorem replaysAll_of {stores : Nat → Db} (hschema : ∀ n, LogSchema registry (stores n))
    (hrunPre : ∀ id n, view (ofRun id) runSeqKey (records (stores n)) <+: view (ofRun id) runSeqKey (records (stores (n + 1))))
    (hsessionPre : ∀ id n, view (ofSession id) eventIdKey (records (stores n)) <+:
      view (ofSession id) eventIdKey (records (stores (n + 1)))) : ReplaysAll registry stores where
  runs id hid := by
    refine replays_of (fun n => (hschema n).run_keys id) (hrunPre id)
      (fun hsize n cursor => listByRun_page (hschema n) hid hsize cursor) fun n r hr => ?_
    obtain ⟨hmem, hsel⟩ := mem_view.1 hr
    obtain ⟨k, -, hkey, hseq⟩ := run_number ((hschema n).valid _ (mem_events hmem)) hsel
    rw [hseq, hkey]
  sessions id hid :=
    replays_of (fun _ => session_keys id) (hsessionPre id)
      (fun hsize n cursor => listBySession_page (hschema n) hid hsize cursor) fun _ _ _ => rfl

/-- A store that does not change. -/
theorem replays_still (hschema : LogSchema registry db) : ReplaysAll registry fun _ => db :=
  replaysAll_of (fun _ => hschema) (fun _ _ => List.prefix_rfl) fun _ _ => List.prefix_rfl

/-- Stores that grow by committed and rolled-back transactions from page to page. -/
theorem replays_growing {stores : Nat → Db} (htypes : registry.types = runtimeEvents) (hlaw : LogLaw registry (stores 0))
    (hsteps : ∀ n, Relation.ReflTransGen (LogStep registry) (stores n) (stores (n + 1))) : ReplaysAll registry stores := by
  have hlaws : ∀ n, LogLaw registry (stores n) := by
    intro n
    induction n with
    | zero => exact hlaw
    | succ n ih => exact ih.logs (logs_of_steps htypes (hsteps n))
  refine replaysAll_of (fun n => (hlaws n).schema) (fun id n => run_view_prefix (hlaws n) (logs_of_steps htypes (hsteps n)) id)
    fun id n => ?_
  obtain ⟨new, hnew⟩ := (logs_of_steps htypes (hsteps n)).grows.appended
  exact session_view_prefix hnew.symm id

end

/-- `build_runtime_event_registry`. -/
def buildRuntimeEventRegistry (canonicalSize : EventPayload → Nat) : EventRegistry := ⟨runtimeEvents, canonicalSize⟩

/-- After any transactions on an empty log every run's numbers are exactly 1, 2, … up to its counter, and a later
commit gives larger ones; a replay returns exactly the records after its cursor, in order, from a store that stands
still and from one that transactions extend between two pages. -/
theorem event_log_gap_free {size : EventPayload → Nat} {db₀ db : Db} (hevents : db₀.events = [])
    (hnext : ∀ r, db₀.nextSeq r = 1) (hrun : Relation.ReflTransGen (LogStep (buildRuntimeEventRegistry size)) db₀ db) :
    (∀ r, (numbers EventRow.slot db.events r).Perm (List.range' 1 (db.nextSeq r - 1))) ∧
    (∀ later, Relation.ReflTransGen (LogStep (buildRuntimeEventRegistry size)) db later → ∃ new,
      later.events = db.events ++ new ∧
        ∀ r, ∀ n ∈ numbers EventRow.slot db.events r, ∀ m ∈ numbers EventRow.slot new r, n < m) ∧
    (∀ stores : Nat → Db, stores 0 = db →
      (∀ n, Relation.ReflTransGen (LogStep (buildRuntimeEventRegistry size)) (stores n) (stores (n + 1))) →
      ReplaysAll (buildRuntimeEventRegistry size) stores) ∧
    ∀ store, LogSchema (buildRuntimeEventRegistry size) store → ReplaysAll (buildRuntimeEventRegistry size) fun _ => store := by
  have hlaw := (logLaw_empty hevents hnext).logs (logs_of_steps rfl hrun)
  refine ⟨fun r => (hlaw.dense r).2, fun later hlater => ?_, fun stores hstart hsteps => ?_, fun store => replays_still⟩
  · have hgrows := (logs_of_steps rfl hlater).grows
    obtain ⟨new, hnew⟩ := hgrows.appended
    rw [← hnew] at hgrows
    exact ⟨new, hnew.symm, fun r n hn m hm => hlaw.dense.lt_of_later hgrows hn hm⟩
  · exact replays_growing rfl (hstart ▸ hlaw) hsteps

/-- A session with one run and no event yet. -/
def emptyLog : Db where
  sessions := ⟨[⟨"s", "/repo", "0", .active, ""⟩], by decide, by decide⟩
  workflows := ⟨[⟨"w", "s", 1, 1, "a", "l"⟩], by decide, by decide⟩
  workflowRuns := ⟨[{
    id := "r", workflowId := "w", sessionId := "s", integrationBaseCommit := "0", currentCommit := "0", authorSnapshot := {},
    authorSnapshotHash := "a", layoutSnapshot := "", layoutSnapshotHash := "l", policyVersion := "p",
    compiledSnapshot := { sourceAuthorHash := "a", integrationBaseCommit := "0", policyVersion := "p",
                          agentCatalogSnapshotHash := "k", nodes := [], edges := [] },
    compiledSnapshotHash := "c", agentCatalogSnapshot := ⟨[], "k"⟩, agentCatalogSnapshotHash := "k", status := .pending,
    createdAt := "" }], by simp, by simp⟩
  nodeRuns := .empty
  tasks := .empty
  changeSets := .empty
  artifacts := .empty
  approvals := .empty
  privilegeRequests := .empty
  capabilityGrants := .empty
  masterLeases := .empty
  fileLocks := .empty

/-- A first event of the run. -/
def firstEvent : Op EventRecord :=
  append (buildRuntimeEventRegistry fun _ => 1) "s" recoveryAction .master (some "m") (.recovery 1 "r" "s" "requeue" "running" "")
    (some "w") (some "r") ⟨0, by decide⟩

theorem event_log_gap_free_first :
    (numbers EventRow.slot (Tx.commit firstEvent emptyLog).2.events "r").Perm (List.range' 1 1) := by
  have hnext : ∀ r, emptyLog.nextSeq r = 1 := by
    intro r
    by_cases hr : "r" = r
    · subst hr; rfl
    · unfold Db.nextSeq Table.get? emptyLog
      simp [hr]
  have h := (event_log_gap_free rfl hnext (.single (.run firstEvent (.append _ _ _ _ _ _ _ _)))).1 "r"
  exact h

end AgentHub
