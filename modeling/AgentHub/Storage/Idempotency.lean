import AgentHub.Lib.Once
import AgentHub.Storage.Leases
/-!
# Idempotent mutations

The idempotency repository: a mutation runs in the transaction that records its response, and the
recorded response answers every repetition until it expires. `Once` is the abstract cell behind one
key; `step_refines` says that every call is one of its steps.
-/

namespace AgentHub

open Lib

/-! ## Responses -/

/-- `json.dumps(json.loads(text), sort_keys=True, separators=(",", ":"), ensure_ascii=False)`, or the text of
the `ValueError` that `json.loads` raises. Canonical text is its own canonical form. -/
structure Json where
  canonical : String → Except String String
  canonical_idem : ∀ text c, canonical text = .ok c → canonical c = .ok c

/-- A response as it is stored and returned: the status in range, the body canonical. -/
structure StoredResponse (J : Json) where
  statusCode : Int
  responseJson : String
  status_in_range : 100 ≤ statusCode ∧ statusCode ≤ 599
  canonical : J.canonical responseJson = .ok responseJson

theorem StoredResponse.ext {J : Json} {a b : StoredResponse J} (hs : a.statusCode = b.statusCode)
    (hj : a.responseJson = b.responseJson) : a = b := by
  cases a
  cases b
  simp only at hs hj
  subst hs hj
  rfl

/-- `__post_init__`. -/
def StoredResponse.postInit (J : Json) (statusCode : Int) (responseJson : String) : Op (StoredResponse J) :=
  if hs : 100 ≤ statusCode ∧ statusCode ≤ 599 then
    match hc : J.canonical responseJson with
    | .ok c => pure ⟨statusCode, c, hs, J.canonical_idem _ _ hc⟩
    | .error message => Tx.fail (.valueError message)
  else Tx.fail (.valueError "status_code must be in 100..599")

structure IdempotencyResult (J : Json) where
  response : StoredResponse J
  replayed : Bool

/-- A mutation of the application: any transaction on the other tables that answers with a response. The
table of keys belongs to this repository alone. -/
structure Mutation (J : Json) where
  run : Op (StoredResponse J)
  keeps_keys : ∀ db a db', run.run db = .ok (a, db') → db'.idempotencyKeys = db.idempotencyKeys

/-- `^[0-9a-f]{64}$`. -/
def isSha256Hex (value : String) : Bool :=
  value.toList.length = 64 ∧ value.toList.all fun c => c.isDigit || ('a' ≤ c ∧ c ≤ 'f')

/-! ## The repository -/

namespace IdempotencyRepository

/-- `_validate_text`. -/
def validateText (name value : String) (maxLength : Nat) : Op Unit :=
  Tx.ensure (value ≠ "" ∧ value.length ≤ maxLength)
    (.valueError (name ++ " must contain 1.." ++ toString maxLength ++ " characters"))

/-- The checks every keyed call makes before it touches the database. -/
def validateRequest (actorScope operationScope idempotencyKey requestSha256 : String) : Op Unit := do
  validateText "actor_scope" actorScope 256
  validateText "operation_scope" operationScope 512
  validateText "idempotency_key" idempotencyKey 256
  Tx.ensure (isSha256Hex requestSha256) (.valueError "request_sha256")

/-- What a live row answers: its response again, or the refusal of a different request. -/
def replay (J : Json) (row : IdempotencyRow) (requestSha256 : String) : Op (IdempotencyResult J) := do
  Tx.ensure (row.requestSha256 = requestSha256)
    (.idempotencyConflict "idempotency key already belongs to a different request")
  let response ← StoredResponse.postInit J row.responseStatus row.responseJson
  return ⟨response, true⟩

/-- Read a valid replay before callers stage side effects outside the database. -/
def lookup (J : Json) (actorScope operationScope idempotencyKey requestSha256 : String) (now : Instant) :
    Op (Option (IdempotencyResult J)) := do
  validateRequest actorScope operationScope idempotencyKey requestSha256
  let row ← Db.idempotencyKeysT.select (actorScope, operationScope, idempotencyKey)
  match row with
  | none => return none
  | some row =>
    if row.expiresAt ≤ utcNowText now then return none
    else do
      let result ← replay J row requestSha256
      return some result

def execute (J : Json) (actorScope operationScope idempotencyKey requestSha256 : String) (mutation : Mutation J)
    (ttlSeconds : Int) (now : Instant) : Op (IdempotencyResult J) := do
  validateRequest actorScope operationScope idempotencyKey requestSha256
  let expiresAt ← expiryText now ttlSeconds
  let row ← Db.idempotencyKeysT.select (actorScope, operationScope, idempotencyKey)
  match row.filter fun r => utcNowText now < r.expiresAt with
  | some row => replay J row requestSha256
  | none => do
    -- A row that is still there has expired and makes room.
    let _ ← Db.idempotencyKeysT.delete fun r => row.isSome && r.scope = (actorScope, operationScope, idempotencyKey)
    let response ← mutation.run
    Db.idempotencyKeysT.insert ⟨actorScope, operationScope, idempotencyKey, requestSha256, response.statusCode,
      response.responseJson, utcNowText now, expiresAt⟩ (.integrityError "idempotency_keys")
    return ⟨response, false⟩

/-- `DELETE FROM idempotency_keys WHERE expires_at <= ?`, with the number of rows deleted. -/
def deleteExpired (now : Instant) : Op Nat := Db.idempotencyKeysT.delete fun r => r.expiresAt ≤ utcNowText now

end IdempotencyRepository

/-! ## The cell of a key -/

/-- What the table holds for a key. -/
def Db.idempotencyCell (scope : String × String × String) (db : Db) : Option (Once.Entry String (Int × String) String) :=
  (db.idempotencyKeys.get? scope).map fun r => ⟨r.requestSha256, (r.responseStatus, r.responseJson), r.expiresAt⟩

/-- The database without the row of a key. -/
def Db.withoutKey (scope : String × String × String) (db : Db) : Db :=
  { db with idempotencyKeys := db.idempotencyKeys.delete fun r => r.scope = scope }

/-- No response is live under the key: there is no row, or it has expired. -/
def Db.KeyFree (scope : String × String × String) (now : Instant) (db : Db) : Prop :=
  ∀ row, db.idempotencyKeys.get? scope = some row → row.expiresAt ≤ utcNowText now

theorem keyFree_iff {scope : String × String × String} {now : Instant} {db : Db} :
    db.KeyFree scope now ↔ Once.live (utcNowText now) (db.idempotencyCell scope) = none := by
  unfold Db.KeyFree Db.idempotencyCell Once.live
  cases db.idempotencyKeys.get? scope with
  | none => simp
  | some row =>
    simp only [Option.map_some, Option.filter_some, decide_eq_true_eq, Option.some.injEq, forall_eq', ite_eq_right_iff,
      reduceCtorEq, imp_false, not_lt]

theorem filter_eq_none_of_free {scope : String × String × String} {now : Instant} {db : Db} (h : db.KeyFree scope now) :
    (db.idempotencyKeys.get? scope).filter (fun r => utcNowText now < r.expiresAt) = none := by
  cases hrow : db.idempotencyKeys.get? scope with
  | none => rfl
  | some row =>
    simp only [Option.filter_some, decide_eq_true_eq]
    exact if_neg (not_lt.2 (h row hrow))

theorem delete_found {scope : String × String × String} (t : Table IdempotencyRow IdempotencyRow.scope IdempotencyRow.scope) :
    (t.delete fun r => (t.get? scope).isSome && decide (r.scope = scope)) = t.delete fun r => decide (r.scope = scope) := by
  cases h : t.get? scope with
  | none => rw [Table.delete_key_of_none h]; exact Table.delete_false t
  | some row => rfl

theorem withoutKey_get? (scope : String × String × String) (db : Db) :
    (db.withoutKey scope).idempotencyKeys.get? scope = none := by
  unfold Db.withoutKey
  rw [Table.get?_delete]
  cases h : db.idempotencyKeys.get? scope with
  | none => rfl
  | some row => simp [Table.get?_key h]

theorem withoutKey_get?_ne {scope scope' : String × String × String} (hne : scope' ≠ scope) (db : Db) :
    (db.withoutKey scope).idempotencyKeys.get? scope' = db.idempotencyKeys.get? scope' := by
  unfold Db.withoutKey
  rw [Table.get?_delete]
  cases h : db.idempotencyKeys.get? scope' with
  | none => rfl
  | some row => simp [Table.get?_key h, hne]

namespace IdempotencyRepository

variable {J : Json} {a o k q : String} {mutation : Mutation J} {ttl : Int} {now : Instant} {db db' : Db}

/-! ## The checks before the transaction -/

/-- What `_validate_text` and the digest's type ask of a call. -/
structure ValidRequest (a o k q : String) : Prop where
  actor : a ≠ "" ∧ a.length ≤ 256
  operation : o ≠ "" ∧ o.length ≤ 512
  key : k ≠ "" ∧ k.length ≤ 256
  digest : isSha256Hex q = true

theorem validateRequest_ok {u : Unit} :
    (validateRequest a o k q).run db = .ok (u, db') ↔ ValidRequest a o k q ∧ db' = db := by
  unfold validateRequest validateText
  simp only [StateT.run_bind, Tx.bind_ok, Tx.ensure_ok, decide_eq_true_eq, Prod.exists, Prod.mk.injEq, true_and]
  constructor
  · rintro ⟨_, _, ⟨ha, rfl⟩, _, _, ⟨ho, rfl⟩, _, _, ⟨hk, rfl⟩, hq, rfl⟩
    exact ⟨⟨ha, ho, hk, hq⟩, rfl⟩
  · rintro ⟨⟨ha, ho, hk, hq⟩, rfl⟩
    exact ⟨(), _, ⟨ha, rfl⟩, (), _, ⟨ho, rfl⟩, (), _, ⟨hk, rfl⟩, hq, rfl⟩

theorem ValidRequest.run (h : ValidRequest a o k q) : (validateRequest a o k q).run db = .ok ((), db) :=
  validateRequest_ok.2 ⟨h, rfl⟩

theorem expiryText_ok {expires : String} : (expiryText now ttl).run db = .ok (expires, db') ↔
    ∃ later, 1 ≤ ttl ∧ now.addSeconds ttl.toNat = some later ∧ expires = utcNowText later ∧ db' = db := by
  unfold expiryText
  simp only [StateT.run_bind, Tx.bind_ok, Tx.ensure_ok, Tx.require_ok, StateT.run_pure, Tx.pure_ok, Prod.exists,
    Prod.mk.injEq, decide_eq_true_eq, true_and]
  constructor
  · rintro ⟨_, _, ⟨hpos, rfl⟩, later, _, ⟨hlater, rfl⟩, rfl, rfl⟩
    exact ⟨later, hpos, hlater, rfl, rfl⟩
  · rintro ⟨later, hpos, hlater, rfl, rfl⟩
    exact ⟨(), _, ⟨hpos, rfl⟩, later, _, ⟨hlater, rfl⟩, rfl, rfl⟩

/-! ## What a call answers -/

theorem postInit_stored (response : StoredResponse J) :
    (StoredResponse.postInit J response.statusCode response.responseJson).run db = .ok (response, db) := by
  unfold StoredResponse.postInit
  rw [dif_pos response.status_in_range]
  have hcanon := response.canonical
  split
  · next c hc =>
    rw [hcanon, Except.ok.injEq] at hc
    subst hc
    rfl
  · next hc => rw [hcanon] at hc; cases hc

/-- The row under a key is the record of this response to this request. -/
structure Records (row : IdempotencyRow) (q : String) (response : StoredResponse J) (expires : Instant) : Prop where
  request : row.requestSha256 = q
  status : row.responseStatus = response.statusCode
  body : row.responseJson = response.responseJson
  expiry : row.expiresAt = utcNowText expires

/-- The answer of a recorded response to a request: itself, or the refusal of another request. -/
def answer (q : String) (response : StoredResponse J) (q' : String) : Except StorageError (IdempotencyResult J) :=
  if q' = q then .ok ⟨response, true⟩
  else .error (.idempotencyConflict "idempotency key already belongs to a different request")

theorem replay_run {row : IdempotencyRow} {response : StoredResponse J} {expires : Instant}
    (hrow : Records row q response expires) (q' : String) :
    (replay J row q').run db = (answer q response q').map (·, db) := by
  unfold replay answer
  rw [hrow.request, hrow.status, hrow.body]
  by_cases heq : q' = q
  · subst heq
    rw [if_pos rfl, Tx.run_bind_of_ok (Tx.ensure_ok.2 ⟨decide_eq_true rfl, rfl⟩), Tx.run_bind_of_ok (postInit_stored response)]
    rfl
  · rw [if_neg heq]
    exact Tx.error_of_bind (Tx.ensure_error (decide_eq_false (Ne.symm heq)))

theorem filter_live {row : IdempotencyRow} {response : StoredResponse J} {expires : Instant} (hrow : Records row q response expires)
    (hlive : now.micros < expires.micros) : (some row).filter (fun r => utcNowText now < r.expiresAt) = some row := by
  simp only [Option.filter_some, decide_eq_true_eq]
  exact if_pos (hrow.expiry ▸ utcNowText_lt hlive)

/-- A replay changes nothing, whether it answers or refuses. -/
theorem commit_replay {α : Type} {x : Op α} {result : Except StorageError α} (h : x.run db = result.map (·, db)) :
    Tx.commit x db = (result, db) := by
  cases result with
  | ok r => exact Tx.commit_of_ok h
  | error e => exact Tx.commit_of_error h

theorem lookup_run (hreq : ValidRequest a o k q) : (lookup J a o k q now).run db =
    match (db.idempotencyKeys.get? (a, o, k)).filter (fun r => utcNowText now < r.expiresAt) with
    | none => .ok (none, db)
    | some row => ((replay J row q).run db).map fun p => (some p.1, p.2) := by
  unfold lookup
  rw [Tx.run_bind_of_ok hreq.run, Tx.run_bind_of_ok (TableRef.select_ok.2 rfl)]
  cases db.idempotencyKeys.get? (a, o, k) with
  | none => rfl
  | some row =>
    simp only [Option.filter_some, decide_eq_true_eq]
    by_cases hle : row.expiresAt ≤ utcNowText now
    · rw [if_pos hle, if_neg (not_lt.2 hle)]
      rfl
    · rw [if_neg hle, if_pos (not_le.1 hle), StateT.run_bind]
      show _ = ((replay J row q).run db).map fun p => (some p.1, p.2)
      cases (replay J row q).run db with
      | error e => rfl
      | ok p => rfl

theorem lookup_free (hreq : ValidRequest a o k q) (hfree : db.KeyFree (a, o, k) now) :
    Tx.commit (lookup J a o k q now) db = (.ok none, db) := by
  have hrun := @lookup_run J a o k q now db hreq
  rw [filter_eq_none_of_free hfree] at hrun
  exact Tx.commit_of_ok hrun

theorem lookup_live {row : IdempotencyRow} {q₀ : String} {response : StoredResponse J} {expires : Instant}
    (hreq : ValidRequest a o k q) (hrow : db.idempotencyKeys.get? (a, o, k) = some row)
    (hrec : Records row q₀ response expires) (hlive : now.micros < expires.micros) :
    Tx.commit (lookup J a o k q now) db = ((answer q₀ response q).map some, db) := by
  have hrun := @lookup_run J a o k q now db hreq
  rw [hrow, filter_live hrec hlive] at hrun
  change _ = ((replay J row q).run db).map fun p => (some p.1, p.2) at hrun
  apply commit_replay
  rw [hrun, replay_run hrec q]
  cases answer q₀ response q with
  | ok r => rfl
  | error e => rfl

/-- The row a fresh execution records. -/
def record (a o k q : String) (response : StoredResponse J) (now expires : Instant) : IdempotencyRow :=
  ⟨a, o, k, q, response.statusCode, response.responseJson, utcNowText now, utcNowText expires⟩

/-- The mutation and the statement that records its response. -/
def runAndRecord (a o k q : String) (mutation : Mutation J) (now expires : Instant) : Op (IdempotencyResult J) := do
  let response ← mutation.run
  Db.idempotencyKeysT.insert (record a o k q response now expires) (.integrityError "idempotency_keys")
  return ⟨response, false⟩

section
variable {later : Instant} (hreq : ValidRequest a o k q) (hpos : 1 ≤ ttl) (hlater : now.addSeconds ttl.toNat = some later)
include hreq hpos hlater

/-- A call whose checks hold and whose expiry is a representable time answers from the live row or runs. -/
theorem execute_run : (execute J a o k q mutation ttl now).run db =
    match (db.idempotencyKeys.get? (a, o, k)).filter (fun r => utcNowText now < r.expiresAt) with
    | some row => (replay J row q).run db
    | none => (runAndRecord a o k q mutation now later).run (db.withoutKey (a, o, k)) := by
  unfold execute
  rw [Tx.run_bind_of_ok hreq.run,
    Tx.run_bind_of_ok (expiryText_ok.2 ⟨later, hpos, hlater, rfl, rfl⟩), Tx.run_bind_of_ok (TableRef.select_ok.2 rfl)]
  cases (db.idempotencyKeys.get? (a, o, k)).filter (fun r => utcNowText now < r.expiresAt) with
  | some row => rfl
  | none =>
    unfold Db.withoutKey
    rw [← delete_found]
    rfl

/-- An execution of a free key runs the mutation: it records what the mutation answers and raises what it raises. -/
theorem execute_free (hfree : db.KeyFree (a, o, k) now) :
    (∀ response mid, mutation.run.run (db.withoutKey (a, o, k)) = .ok (response, mid) →
      ∃ keys, mid.idempotencyKeys.insert (record a o k q response now later) = some keys ∧
        Tx.commit (execute J a o k q mutation ttl now) db = (.ok ⟨response, false⟩, { mid with idempotencyKeys := keys })) ∧
    ∀ e, mutation.run.run (db.withoutKey (a, o, k)) = .error e →
      Tx.commit (execute J a o k q mutation ttl now) db = (.error e, db) := by
  have hrun := @execute_run J a o k q mutation ttl now db later hreq hpos hlater
  rw [filter_eq_none_of_free hfree] at hrun
  change _ = (runAndRecord a o k q mutation now later).run (db.withoutKey (a, o, k)) at hrun
  constructor
  · intro response mid hmut
    -- The mutation leaves the table of keys alone, so the key is still free after it.
    have hgone : mid.idempotencyKeys.get? (a, o, k) = none := by
      rw [mutation.keeps_keys _ _ _ hmut]
      exact withoutKey_get? _ db
    obtain ⟨keys, hkeys⟩ : ∃ keys, mid.idempotencyKeys.insert (record a o k q response now later) = some keys :=
      Table.insert_of_new hgone fun r hr heq => List.find?_eq_none.1 hgone r hr (decide_eq_true heq)
    refine ⟨keys, hkeys, ?_⟩
    apply Tx.commit_of_ok
    rw [hrun]
    unfold runAndRecord
    rw [Tx.run_bind_of_ok hmut, Tx.run_bind_of_ok (TableRef.insert_ok.2 ⟨keys, hkeys, rfl⟩)]
    rfl
  · intro e hmut
    apply Tx.commit_of_error
    rw [hrun]
    exact Tx.error_of_bind hmut

/-- A live record answers in place of the mutation. -/
theorem execute_live {row : IdempotencyRow} {q₀ : String} {response : StoredResponse J} {expires : Instant}
    (hrow : db.idempotencyKeys.get? (a, o, k) = some row) (hrec : Records row q₀ response expires)
    (hlive : now.micros < expires.micros) :
    Tx.commit (execute J a o k q mutation ttl now) db = (answer q₀ response q, db) := by
  have hrun := @execute_run J a o k q mutation ttl now db later hreq hpos hlater
  rw [hrow, filter_live hrec hlive] at hrun
  exact commit_replay (hrun.trans (replay_run hrec q))

end

/-- An execution that returned passed its checks. -/
theorem execute_checked {p : IdempotencyResult J × Db} (h : (execute J a o k q mutation ttl now).run db = .ok p) :
    ∃ later, ValidRequest a o k q ∧ 1 ≤ ttl ∧ now.addSeconds ttl.toNat = some later := by
  unfold execute at h
  simp only [StateT.run_bind, Tx.bind_ok, Prod.exists] at h
  obtain ⟨_, _, hreq, _, _, hexp, -⟩ := h
  obtain ⟨later, hpos, hlater, -⟩ := expiryText_ok.1 hexp
  exact ⟨later, (validateRequest_ok.1 hreq).1, hpos, hlater⟩

/-- An execution of a free key that returned ran its mutation, once, and recorded the response. -/
theorem execute_fresh {r : IdempotencyResult J} (hfree : db.KeyFree (a, o, k) now)
    (h : (execute J a o k q mutation ttl now).run db = .ok (r, db')) :
    r.replayed = false ∧ ∃ expires mid keys, now.addSeconds ttl.toNat = some expires ∧
      mutation.run.run (db.withoutKey (a, o, k)) = .ok (r.response, mid) ∧
      mid.idempotencyKeys.insert (record a o k q r.response now expires) = some keys ∧
      db' = { mid with idempotencyKeys := keys } := by
  obtain ⟨later, hreq, hpos, hlater⟩ := execute_checked h
  rw [execute_run hreq hpos hlater, filter_eq_none_of_free hfree] at h
  change (runAndRecord a o k q mutation now later).run (db.withoutKey (a, o, k)) = _ at h
  unfold runAndRecord at h
  simp only [StateT.run_bind, Tx.bind_ok, TableRef.insert_ok, StateT.run_pure, Tx.pure_ok, Prod.exists, Prod.mk.injEq] at h
  obtain ⟨response, mid, hmut, _, _, ⟨keys, hkeys, -, rfl⟩, rfl, rfl⟩ := h
  exact ⟨rfl, later, mid, keys, hlater, hmut, hkeys, rfl⟩

theorem replay_ok {row : IdempotencyRow} {r : IdempotencyResult J} (h : (replay J row q).run db = .ok (r, db')) :
    r.replayed = true ∧ db' = db := by
  unfold replay at h
  simp only [StateT.run_bind, Tx.bind_ok, Tx.ensure_ok, StateT.run_pure, Tx.pure_ok, Prod.exists, Prod.mk.injEq] at h
  obtain ⟨_, _, ⟨-, -, rfl⟩, response, s, hinit, rfl, rfl⟩ := h
  refine ⟨rfl, ?_⟩
  unfold StoredResponse.postInit at hinit
  split at hinit
  · split at hinit
    · rw [StateT.run_pure, Tx.pure_ok] at hinit
      exact (Prod.mk.inj hinit).2
    · exact (Tx.fail_ok.1 hinit).elim
  · exact (Tx.fail_ok.1 hinit).elim

/-- An execution of a key with a live row that returned replayed it. -/
theorem execute_replayed {r : IdempotencyResult J} (hlive : ¬ db.KeyFree (a, o, k) now)
    (h : (execute J a o k q mutation ttl now).run db = .ok (r, db')) : r.replayed = true ∧ db' = db := by
  obtain ⟨later, hreq, hpos, hlater⟩ := execute_checked h
  rw [execute_run hreq hpos hlater] at h
  split at h
  · exact replay_ok h
  · next hnone =>
    refine absurd (fun row hrow => ?_) hlive
    rw [hrow] at hnone
    simp only [Option.filter_some, decide_eq_true_eq, ite_eq_right_iff, reduceCtorEq, imp_false, not_lt] at hnone
    exact hnone

end IdempotencyRepository

/-! ## Runs of calls -/

/-- A call of the repository. -/
inductive IdempotencyCall (J : Json) where
  | lookup (actorScope operationScope idempotencyKey requestSha256 : String)
  | execute (actorScope operationScope idempotencyKey requestSha256 : String) (mutation : Mutation J) (ttlSeconds : Int)
  | deleteExpired

/-- The database after a call at `now`. -/
def IdempotencyCall.serve {J : Json} (now : Instant) (db : Db) : IdempotencyCall J → Db
  | .lookup a o k q => (Tx.commit (IdempotencyRepository.lookup J a o k q now) db).2
  | .execute a o k q mutation ttl => (Tx.commit (IdempotencyRepository.execute J a o k q mutation ttl now) db).2
  | .deleteExpired => (Tx.commit (IdempotencyRepository.deleteExpired now) db).2

/-- A call of the repository, or a commit of another one, which leaves the table of keys alone. -/
inductive IdempotencyStep (J : Json) (now : Instant) (db : Db) : Db → Prop
  | call (c : IdempotencyCall J) : IdempotencyStep J now db (c.serve now db)
  | other {db' : Db} (h : db'.idempotencyKeys = db.idempotencyKeys) : IdempotencyStep J now db db'

section
variable {J : Json} {a o k q : String} {mutation : Mutation J} {ttl : Int} {now : Instant} {db db' : Db}
  {scope : String × String × String}

open IdempotencyRepository

theorem lookup_readOnly : Tx.ReadOnly (lookup J a o k q now) := by
  unfold lookup
  refine .bind (fun s r h => (validateRequest_ok.1 h).2) fun _ => .bind (.read _) fun row => ?_
  cases row with
  | none => exact .pure _
  | some row => exact .ite (.pure _) (.bind (fun s r h => (replay_ok h).2) fun _ => .pure _)

/-- A recorded response is the one of its key; the other keys keep theirs. -/
theorem cell_insert {t : Table IdempotencyRow IdempotencyRow.scope IdempotencyRow.scope} {row : IdempotencyRow} {mid : Db}
    (h : mid.idempotencyKeys.insert row = some t) : ({ mid with idempotencyKeys := t } : Db).idempotencyCell scope =
      if row.scope = scope then some ⟨row.requestSha256, (row.responseStatus, row.responseJson), row.expiresAt⟩
      else mid.idempotencyCell scope := by
  unfold Db.idempotencyCell
  rw [Table.get?_insert h]
  split
  · rfl
  · rfl

theorem execute_refines : Once.Step (utcNowText now) (db.idempotencyCell scope)
    ((Tx.commit (execute J a o k q mutation ttl now) db).2.idempotencyCell scope) := by
  cases hrun : (execute J a o k q mutation ttl now).run db with
  | error e => rw [Tx.commit_of_error hrun]; exact .keep
  | ok p =>
    rw [Tx.commit_of_ok hrun]
    by_cases hfree : db.KeyFree (a, o, k) now
    · obtain ⟨-, expires, mid, keys, -, hmut, hkeys, hdb⟩ := execute_fresh hfree hrun
      rw [hdb, cell_insert hkeys]
      split
      · next heq => exact .record _ (keyFree_iff.1 (heq ▸ hfree))
      · next hne =>
        -- Another key: the stale row that made room was not this one's.
        have hne : scope ≠ (a, o, k) := fun heq => hne heq.symm
        have hmid : mid.idempotencyCell scope = db.idempotencyCell scope := by
          unfold Db.idempotencyCell
          rw [mutation.keeps_keys _ _ _ hmut, withoutKey_get?_ne hne]
        rw [hmid]
        exact .keep
    · rw [(execute_replayed hfree hrun).2]
      exact .keep

theorem deleteExpired_refines : Once.Step (utcNowText now) (db.idempotencyCell scope)
    ((Tx.commit (deleteExpired now) db).2.idempotencyCell scope) := by
  have hget : (Tx.commit (deleteExpired now) db).2.idempotencyKeys.get? scope =
      (db.idempotencyKeys.get? scope).filter fun r => !decide (r.expiresAt ≤ utcNowText now) := Table.get?_delete _ _ _
  by_cases hfree : db.KeyFree scope now
  · have hnone : (Tx.commit (deleteExpired now) db).2.idempotencyCell scope = none := by
      unfold Db.idempotencyCell
      rw [hget]
      cases hrow : db.idempotencyKeys.get? scope with
      | none => rfl
      | some row => rw [Option.filter_some, decide_eq_true (hfree row hrow)]; rfl
    rw [hnone]
    exact .drop (keyFree_iff.1 hfree)
  · unfold Db.KeyFree at hfree
    push Not at hfree
    obtain ⟨row, hrow, hlt⟩ := hfree
    have hsame : (Tx.commit (deleteExpired now) db).2.idempotencyCell scope = db.idempotencyCell scope := by
      unfold Db.idempotencyCell
      rw [hget, hrow, Option.filter_some, decide_eq_false (not_le.2 hlt)]
      rfl
    rw [hsame]
    exact .keep

/-- Every call is a step of every key's cell. -/
theorem step_refines (h : IdempotencyStep J now db db') :
    Once.Step (utcNowText now) (db.idempotencyCell scope) (db'.idempotencyCell scope) := by
  cases h with
  | other hkeys => unfold Db.idempotencyCell; rw [hkeys]; exact .keep
  | call c =>
    cases c with
    | lookup a o k q =>
      have hsame : (IdempotencyCall.serve now db (.lookup a o k q : IdempotencyCall J)) = db := by
        cases hrun : (lookup J a o k q now).run db with
        | error e => exact congrArg Prod.snd (Tx.commit_of_error hrun)
        | ok p => exact (congrArg Prod.snd (Tx.commit_of_ok hrun)).trans (lookup_readOnly _ _ hrun)
      rw [hsame]
      exact .keep
    | execute a o k q mutation ttl => exact execute_refines
    | deleteExpired => exact deleteExpired_refines

/-! ## Exactly once -/

/-- The law of one key. -/
structure ExactlyOnce (J : Json) (a o k : String) : Prop where
  /-- A committed execution applied its mutation once. Until its expiry every later call is answered with its
  response, or refused when its digest differs, whatever was called or written in between; no such call
  changes anything. -/
  once : ∀ {q : String} {mutation : Mutation J} {ttl : Int} {now : Instant} {db db' : Db} {r : IdempotencyResult J},
    Tx.commit (execute J a o k q mutation ttl now) db = (.ok r, db') → r.replayed = false →
    ∃ expires mid keys, now.addSeconds ttl.toNat = some expires ∧
      mutation.run.run (db.withoutKey (a, o, k)) = .ok (r.response, mid) ∧ db' = { mid with idempotencyKeys := keys } ∧
      ∀ {t : Instant} {later : Db}, Timed (IdempotencyStep J) now db' t later →
        ∀ t', t ≤ t' → t'.micros < expires.micros → ∀ q', isSha256Hex q' = true →
          Tx.commit (lookup J a o k q' t') later = ((answer q r.response q').map some, later) ∧
          ∀ (mutation' : Mutation J) (ttl' : Int), 1 ≤ ttl' → (t'.addSeconds ttl'.toNat).isSome →
            Tx.commit (execute J a o k q' mutation' ttl' t') later = (answer q r.response q', later)
  /-- A key that never had a response or whose response has expired runs the next mutation. -/
  reusable : ∀ {q : String} {mutation : Mutation J} {ttl : Int} {now later : Instant} {db : Db},
    ValidRequest a o k q → 1 ≤ ttl → now.addSeconds ttl.toNat = some later → db.KeyFree (a, o, k) now →
    Tx.commit (lookup J a o k q now) db = (.ok none, db) ∧
    ∀ response mid, mutation.run.run (db.withoutKey (a, o, k)) = .ok (response, mid) →
      ∃ keys, Tx.commit (execute J a o k q mutation ttl now) db =
        (.ok ⟨response, false⟩, { mid with idempotencyKeys := keys })
  /-- A mutation that raises leaves no effect and no key: the key is as free as it was. -/
  raised : ∀ {q : String} {mutation : Mutation J} {ttl : Int} {now later : Instant} {db : Db} {e : StorageError},
    ValidRequest a o k q → 1 ≤ ttl → now.addSeconds ttl.toNat = some later → db.KeyFree (a, o, k) now →
    mutation.run.run (db.withoutKey (a, o, k)) = .error e →
    Tx.commit (execute J a o k q mutation ttl now) db = (.error e, db) ∧ ∀ t, now ≤ t → db.KeyFree (a, o, k) t

theorem Db.KeyFree.later {t t' : Instant} (h : db.KeyFree scope t) (hle : t ≤ t') : db.KeyFree scope t' :=
  fun row hrow => le_trans (h row hrow) (utcNowText_le_iff.2 hle)

/-- The record of a fresh execution is still there at every later time before its expiry. -/
theorem record_stays {r : IdempotencyResult J} {expires t t' : Instant} {later mid : Db}
    {keys : Table IdempotencyRow IdempotencyRow.scope IdempotencyRow.scope}
    (hkeys : mid.idempotencyKeys.insert (record a o k q r.response now expires) = some keys)
    (hrun : Timed (IdempotencyStep J) now { mid with idempotencyKeys := keys } t later) (hle : t ≤ t')
    (hlt : t'.micros < expires.micros) :
    ∃ row, later.idempotencyKeys.get? (a, o, k) = some row ∧ Records row q r.response expires := by
  have hcell : ({ mid with idempotencyKeys := keys } : Db).idempotencyCell (a, o, k) =
      some ⟨q, (r.response.statusCode, r.response.responseJson), utcNowText expires⟩ :=
    (cell_insert hkeys).trans (if_pos rfl)
  have hcells := hrun.map (fun t t' h => utcNowText_le_iff.2 h)
    fun t s s' (h : IdempotencyStep J t s s') => @step_refines J t s s' (a, o, k) h
  have hstay := Once.stays hcells hcell (utcNowText_lt (Nat.lt_of_le_of_lt hle hlt))
  unfold Db.idempotencyCell at hstay
  obtain ⟨row, hrow, hentry⟩ := Option.map_eq_some_iff.1 hstay
  simp only [Once.Entry.mk.injEq, Prod.mk.injEq] at hentry
  exact ⟨row, hrow, hentry.1, hentry.2.1.1, hentry.2.1.2, hentry.2.2⟩

end

end AgentHub
