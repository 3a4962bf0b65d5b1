import AgentHub.Storage.Leases
/-!
# Lease fencing

Both lease repositories are fences: `lease_fencing` says, for every serial run of their calls
with a clock that never goes back, that tokens only grow and grow at every change of holder,
that a lease once lost stays lost, and that one lease at a time passes `assert_valid`. Each
repository is shown to act on its row as `Lib.Fence.Step` allows (`LeaseRepo.Lawful`); the rest
is the general argument.
-/

namespace AgentHub

open Lib Lib.Fence

/-- A lease repository: leases `L`, owners `H`, calls `O`. -/
structure LeaseRepo (L H O : Type) where
  key : L → String
  holder : L → H
  token : L → Nat
  /-- The stored lease of a resource. -/
  stored : Db → String → Option (Cell H String)
  exec : O → Op Unit
  /-- The first and the last clock reading of a call. -/
  first : O → Instant
  last : O → Instant
  /-- The resource and the owner of an acquiring call. -/
  acquires : O → Option (String × H)
  assertValid : L → Instant → Op Unit
  heartbeat : L → Int → Instant → Op L
  release : L → Instant → Op Unit

namespace LeaseRepo

variable {L H O : Type} (R : LeaseRepo L H O)

/-- One call as a serial transaction, after the last clock reading. -/
def StepBy (op : O) (s s' : Db × Instant) : Prop :=
  s.2 ≤ R.first op ∧ R.first op ≤ R.last op ∧ s' = ((Tx.commit (R.exec op) s.1).2, R.last op)

def Runs : Db × Instant → Db × Instant → Prop := Relation.ReflTransGen fun s s' => ∃ op, R.StepBy op s s'

/-- The stored lease is `l` and has neither been released nor expired. -/
def Holds (l : L) (now : Instant) (db : Db) : Prop :=
  ∃ c, R.stored db (R.key l) = some c ∧ c.holder = R.holder l ∧ c.token = R.token l ∧ c.Live (utcNowText now)

/-- `l` was superseded by a larger token, or its own row was released or has expired. -/
def LeaseGone (l : L) (s : Db × Instant) : Prop :=
  Lost (R.token l) (utcNowText s.2) (R.stored s.1 (R.key l))

/-- `x` raises LeaseLost. -/
def Raises {α : Type} (x : Op α) (db : Db) : Prop := ∃ m, x.run db = .error (.leaseLost m)

/-- What fencing means for a repository. -/
structure Fenced : Prop where
  /-- The stored token never decreases. -/
  token_le : ∀ s s', R.Runs s s' → ∀ k c, R.stored s.1 k = some c →
    ∃ c', R.stored s'.1 k = some c' ∧ c.token ≤ c'.token
  /-- It grows when another holder, or the holder of a dead lease, acquires. -/
  token_lt : ∀ op s s', R.StepBy op s s' → ((R.exec op).run s.1).isOk → ∀ k h c,
    R.acquires op = some (k, h) → R.stored s.1 k = some c →
    (h ≠ c.holder ∨ ¬ c.Live (utcNowText (R.first op))) →
    ∃ c', R.stored s'.1 k = some c' ∧ c.token < c'.token
  /-- A released lease is gone. -/
  released : ∀ l now db db', (R.release l now).run db = .ok ((), db') → R.LeaseGone l (db', now)
  /-- A lease that is gone is refused forever. -/
  gone : ∀ l s s', R.LeaseGone l s → R.Runs s s' → ∀ now, s'.2 ≤ now →
    Raises (R.assertValid l now) s'.1 ∧ Raises (R.release l now) s'.1 ∧
    ∀ ttl : Int, 1 ≤ ttl → (now.addSeconds ttl.toNat).isSome → Raises (R.heartbeat l ttl now) s'.1
  /-- At any instant one owner and token at most pass for a resource. -/
  one : ∀ l l' now db, R.key l = R.key l' → ((R.assertValid l now).run db).isOk →
    ((R.assertValid l' now).run db).isOk → R.holder l = R.holder l' ∧ R.token l = R.token l'

/-- How a repository acts on its rows. -/
structure Lawful : Prop where
  step : ∀ op db db', (R.exec op).run db = .ok ((), db') → ∀ k,
    Step (utcNowText (R.last op)) (R.stored db k) (R.stored db' k)
  takes : ∀ op db db', (R.exec op).run db = .ok ((), db') → ∀ k h c, R.acquires op = some (k, h) →
    R.stored db k = some c → (h ≠ c.holder ∨ ¬ c.Live (utcNowText (R.first op))) →
    ∃ c', R.stored db' k = some c' ∧ c'.token = c.token + 1
  released : ∀ l now db db', (R.release l now).run db = .ok ((), db') →
    ∃ (c : Cell H String) (b : Bool), c.token = R.token l ∧ R.stored db' (R.key l) = some { c with expires := utcNowText now, released := b }
  valid : ∀ l now db, ((R.assertValid l now).run db).isOk → R.Holds l now db
  assert_lost : ∀ l now db, ¬ R.Holds l now db → Raises (R.assertValid l now) db
  release_lost : ∀ l now db, ¬ R.Holds l now db → Raises (R.release l now) db
  heartbeat_lost : ∀ l (ttl : Int) now db, ¬ R.Holds l now db → 1 ≤ ttl →
    (now.addSeconds ttl.toNat).isSome → Raises (R.heartbeat l ttl now) db

variable {R}

/-- A call is a step of every row's cell. -/
theorem Lawful.timedStep (hR : R.Lawful) {op : O} {s s' : Db × Instant} (h : R.StepBy op s s') (k : String) :
    TimedStep (utcNowText s.2, R.stored s.1 k) (utcNowText s'.2, R.stored s'.1 k) := by
  obtain ⟨h1, h2, rfl⟩ := h
  refine ⟨utcNowText_le_iff.2 (Nat.le_trans h1 h2), ?_⟩
  unfold Tx.commit
  cases hx : (R.exec op).run s.1 with
  | error e => exact .stay _
  | ok p => exact hR.step op s.1 p.2 hx k

theorem Lawful.timedRun (hR : R.Lawful) {s s' : Db × Instant} (h : R.Runs s s') (k : String) :
    Relation.ReflTransGen TimedStep (utcNowText s.2, R.stored s.1 k) (utcNowText s'.2, R.stored s'.1 k) := by
  induction h with
  | refl => exact .refl
  | tail _ hstep ih =>
    obtain ⟨op, hop⟩ := hstep
    exact ih.tail (hR.timedStep hop k)

theorem token_le_of_run {cell cell' : String × Option (Cell H String)}
    (h : Relation.ReflTransGen TimedStep cell cell') {c : Cell H String} (hc : cell.2 = some c) :
    ∃ c', cell'.2 = some c' ∧ c.token ≤ c'.token := by
  induction h with
  | refl => exact ⟨c, hc, Nat.le_refl _⟩
  | tail _ hstep ih =>
    obtain ⟨c', hc', hle⟩ := ih
    obtain ⟨c'', hc'', hle'⟩ := (hc' ▸ hstep.2).token_le
    exact ⟨c'', hc'', Nat.le_trans hle hle'⟩

/-- A lease that is gone does not hold at any later reading. -/
theorem LeaseGone.not_holds {l : L} {s : Db × Instant} (h : R.LeaseGone l s) {now : Instant} (hle : s.2 ≤ now) :
    ¬ R.Holds l now s.1 := by
  rintro ⟨c, hc, -, htok, hlive⟩
  rw [LeaseGone, hc] at h
  exact h.not_live (utcNowText_le_iff.2 hle) htok hlive

theorem Lawful.fenced (hR : R.Lawful) : R.Fenced where
  token_le s s' hrun k c hc := token_le_of_run (hR.timedRun hrun k) hc
  token_lt op s s' hstep hok k h c hacq hc hnew := by
    obtain ⟨-, -, rfl⟩ := hstep
    cases hx : (R.exec op).run s.1 with
    | error e => rw [hx] at hok; simp [Except.isOk, Except.toBool] at hok
    | ok p =>
      obtain ⟨c', hc', htok⟩ := hR.takes op s.1 p.2 hx k h c hacq hc hnew
      refine ⟨c', ?_, by omega⟩
      simpa [Tx.commit, hx] using hc'
  released l now db db' h := by
    obtain ⟨c, b, htok, hc⟩ := hR.released l now db db' h
    rw [LeaseGone, hc, ← htok]
    exact Lost.of_release c b _
  gone l s s' hgone hrun now hle := by
    have hnot := LeaseGone.not_holds (s := s') (Lost.run (hR.timedRun hrun (R.key l)) hgone) hle
    exact ⟨hR.assert_lost l now _ hnot, hR.release_lost l now _ hnot,
      fun ttl h1 h2 => hR.heartbeat_lost l ttl now _ hnot h1 h2⟩
  one l l' now db hk h h' := by
    obtain ⟨c, hc, hh, ht, -⟩ := hR.valid l now db h
    obtain ⟨c', hc', hh', ht', -⟩ := hR.valid l' now db h'
    rw [hk, hc'] at hc
    simp only [Option.some.injEq] at hc
    subst hc
    exact ⟨hh.symm.trans hh', ht.symm.trans ht'⟩

end LeaseRepo

theorem expiryText_ok {now : Instant} {ttl : Int} {db : Db} {r : String × Db} :
    (expiryText now ttl).run db = .ok r ↔
      1 ≤ ttl ∧ ∃ later, now.addSeconds ttl.toNat = some later ∧ r = (utcNowText later, db) := by
  simp only [expiryText, StateT.run_bind, Tx.bind_ok, Tx.ensure_ok, Tx.require_ok, StateT.run_pure, Tx.pure_ok]
  constructor
  · rintro ⟨_, ⟨h1, rfl⟩, ⟨later, s⟩, ⟨h2, rfl⟩, rfl⟩
    exact ⟨of_decide_eq_true h1, later, h2, rfl⟩
  · rintro ⟨h1, later, h2, rfl⟩
    exact ⟨_, ⟨decide_eq_true h1, rfl⟩, (later, db), ⟨h2, rfl⟩, rfl⟩

/-! ## The workspace locks -/

namespace WorkspaceLeaseRepository

/-- Owner kind, operation and process. -/
abbrev Owner : Type := String × String × Int

def cell (row : FileLockRow) : Cell Owner String :=
  ⟨(row.ownerKind, row.ownerOperationId, row.ownerProcessId), row.fencingToken, row.leaseExpiresAt,
    row.releasedAt.isSome⟩

inductive Call where
  | acquire (resourceKey : String) (owner : Owner) (ttlSeconds : Int) (now : Instant)
  | heartbeat (lease : WorkspaceLease) (ttlSeconds : Int) (now : Instant)
  | release (lease : WorkspaceLease) (now : Instant)
  | runFenced (lease : WorkspaceLease) (operation : Except StorageError Unit) (ttlSeconds : Int)
      (now renewedAt : Instant)

def repo : LeaseRepo WorkspaceLease Owner Call where
  key l := l.resourceKey
  holder l := (l.ownerKind, l.ownerOperationId, l.ownerProcessId)
  token l := l.fencingToken
  stored db k := (db.fileLocks.get? k).map cell
  exec
    | .acquire k owner ttl now => do let _ ← acquire k owner.1 owner.2.1 owner.2.2 ttl now
    | .heartbeat lease ttl now => do let _ ← heartbeat lease ttl now
    | .release lease now => release lease now
    | .runFenced lease operation ttl now renewedAt => do let _ ← runFenced lease operation ttl now renewedAt
  first
    | .acquire _ _ _ now | .heartbeat _ _ now | .release _ now | .runFenced _ _ _ now _ => now
  last
    | .acquire _ _ _ now | .heartbeat _ _ now | .release _ now | .runFenced _ _ _ _ now => now
  acquires
    | .acquire k owner _ _ => some (k, owner)
    | _ => none
  assertValid := assertValidIn
  heartbeat := heartbeat
  release := release

theorem holds_iff {lease : WorkspaceLease} {nowText : String} {row : FileLockRow} :
    holds lease nowText row = true ↔
      (cell row).holder = repo.holder lease ∧ (cell row).token = repo.token lease ∧ (cell row).Live nowText := by
  simp [holds, cell, repo, Cell.Live]
  tauto

/-- The lease holds exactly when its row passes the guard of the fenced statements. -/
theorem repo_holds_iff {lease : WorkspaceLease} {now : Instant} {db : Db} :
    repo.Holds lease now db ↔
      ∃ row, db.fileLocks.get? lease.resourceKey = some row ∧ holds lease (utcNowText now) row = true := by
  unfold LeaseRepo.Holds
  constructor
  · rintro ⟨c, hc, h⟩
    obtain ⟨row, hrow, rfl⟩ := Option.map_eq_some_iff.1 hc
    exact ⟨row, hrow, holds_iff.2 h⟩
  · rintro ⟨row, hrow, h⟩
    exact ⟨cell row, by simp [repo, hrow], holds_iff.1 h⟩

theorem assertValidIn_ok {lease : WorkspaceLease} {now : Instant} {db : Db} {r : Unit × Db} :
    (assertValidIn lease now).run db = .ok r ↔ repo.Holds lease now db ∧ r = ((), db) := by
  rw [repo_holds_iff]
  simp [assertValidIn, Option.any_eq_true]

theorem assertValidIn_lost {lease : WorkspaceLease} {now : Instant} {db : Db} (h : ¬ repo.Holds lease now db) :
    LeaseRepo.Raises (assertValidIn lease now) db := by
  rw [repo_holds_iff] at h
  refine ⟨_, Tx.error_after (TableRef.select_ok.2 rfl) (Tx.ensure_error ?_)⟩
  rw [Bool.eq_false_iff, ne_eq, Option.any_eq_true]
  exact h

/-- A write under the lease's guard is refused unless the lease holds. -/
theorem cas_lost {lease : WorkspaceLease} {now : Instant} {db : Db} {f hk hu} {m : String}
    (h : ¬ repo.Holds lease now db) :
    (Db.fileLocksT.cas lease.resourceKey (holds lease (utcNowText now)) f hk hu (StorageError.leaseLost m)).run db =
      .error (.leaseLost m) := by
  rw [repo_holds_iff] at h
  exact TableRef.cas_error h

/-- A write that only sets the expiry and the release of a held lease is a step. -/
theorem step_of_cas {lease : WorkspaceLease} {now : Instant} {db db' : Db} {f hk hu} {e : StorageError}
    (h : (Db.fileLocksT.cas lease.resourceKey (holds lease (utcNowText now)) f hk hu e).run db = .ok ((), db'))
    (hf : ∀ row, (cell row).Live (utcNowText now) →
      Step (utcNowText now) (some (cell row)) (some (cell (f row)))) (k : String) :
    Step (utcNowText now) (repo.stored db k) (repo.stored db' k) := by
  obtain ⟨row, hrow, hg, hrow', hne⟩ := TableRef.cas_writes h
  simp only [repo] at hrow hrow' hne ⊢
  by_cases hk : k = lease.resourceKey
  · subst hk
    rw [hrow, hrow']
    exact hf row (holds_iff.1 hg).2.2
  · rw [hne k hk]
    exact .stay _

/-- What `acquire` does to the row of its resource. -/
theorem acquireWrite_ok {k kind op nowText expires : String} {pid : Int} {db db' : Db}
    (h : (acquireWrite k kind op pid nowText expires (db.fileLocks.get? k)).run db = .ok ((), db')) :
    (∀ k', k' ≠ k → db'.fileLocks.get? k' = db.fileLocks.get? k') ∧
    ((db.fileLocks.get? k = none ∧
        repo.stored db' k = some ⟨(kind, op, pid), 1, expires, false⟩) ∨
      ∃ row, db.fileLocks.get? k = some row ∧
        (((cell row).Live nowText ∧ (cell row).holder = (kind, op, pid) ∧
            repo.stored db' k = some { cell row with expires := expires }) ∨
          (¬ (cell row).Live nowText ∧
            repo.stored db' k = some ⟨(kind, op, pid), row.fencingToken + 1, expires, false⟩))) := by
  cases hrow : db.fileLocks.get? k with
  | none =>
    rw [hrow] at h
    simp only [acquireWrite, TableRef.insert_ok, Prod.mk.injEq, true_and] at h
    obtain ⟨t, ht, rfl⟩ := h
    have hget := Table.get?_insert ht
    refine ⟨fun k' hk' => by simpa [Ne.symm hk'] using hget k', .inl ⟨rfl, ?_⟩⟩
    simp [repo, hget, cell]
  | some row =>
    rw [hrow] at h
    have hk := Table.get?_key hrow
    have hlive : (cell row).Live nowText ↔ row.releasedAt = none ∧ nowText < row.leaseExpiresAt := by
      simp [Cell.Live, cell]
    simp only [acquireWrite] at h
    by_cases hl : row.releasedAt = none ∧ nowText < row.leaseExpiresAt
    · rw [if_pos hl] at h
      simp only [StateT.run_bind, Tx.bind_ok, Tx.ensure_ok, TableRef.update_ok, StateT.run_pure, Tx.pure_ok,
        decide_eq_true_eq, Prod.exists, Prod.mk.injEq] at h
      obtain ⟨_, _, ⟨hown, -, rfl⟩, _, _, ⟨-, rfl⟩, -, rfl⟩ := h
      refine ⟨fun k' hk' => by rw [Table.get?_update_ne hk'], .inr ⟨row, rfl, .inl ⟨hlive.2 hl, ?_, ?_⟩⟩⟩
      · simp [cell, hown]
      · simp only [repo]
        rw [Table.get?_update_self hrow]
        simp [hown, hl, cell]
    · rw [if_neg hl] at h
      simp only [StateT.run_bind, Tx.bind_ok, TableRef.update_ok, StateT.run_pure, Tx.pure_ok,
        Prod.exists, Prod.mk.injEq] at h
      obtain ⟨_, _, ⟨-, rfl⟩, -, rfl⟩ := h
      refine ⟨fun k' hk' => by rw [Table.get?_update_ne hk'], .inr ⟨row, rfl, .inr ⟨fun h => hl (hlive.1 h), ?_⟩⟩⟩
      have hdead : row.releasedAt ≠ none ∨ row.leaseExpiresAt ≤ nowText := by
        by_cases hr : row.releasedAt = none
        · exact .inr (not_lt.1 fun h => hl ⟨hr, h⟩)
        · exact .inl hr
      simp only [repo]
      rw [Table.get?_update_self hrow]
      simp [hdead, cell]

/-- The statement `acquire` issues, from the call's own run. -/
theorem acquire_write {k kind op : String} {pid ttl : Int} {now : Instant} {db db' : Db} {lease : WorkspaceLease}
    (h : (acquire k kind op pid ttl now).run db = .ok (lease, db')) :
    ∃ expires, (acquireWrite k kind op pid (utcNowText now) expires (db.fileLocks.get? k)).run db = .ok ((), db') := by
  simp only [acquire, StateT.run_bind, Tx.bind_ok, Tx.ensure_ok, TableRef.select_ok, Tx.require_ok,
    StateT.run_pure, Tx.pure_ok, expiryText_ok] at h
  obtain ⟨_, ⟨-, rfl⟩, _, ⟨-, rfl⟩, _, ⟨-, rfl⟩, _, ⟨-, rfl⟩, _, ⟨-, later, -, rfl⟩, _, rfl, ⟨u, s⟩, hw, _, rfl,
    ⟨_, _⟩, ⟨-, rfl⟩, h⟩ := h
  simp only [Prod.mk.injEq] at h
  obtain ⟨-, rfl⟩ := h
  exact ⟨_, hw⟩

/-- The renewal at the end of a fenced operation. -/
theorem runFenced_write {lease l' : WorkspaceLease} {operation : Except StorageError Unit} {ttl : Int}
    {now renewedAt : Instant} {db db' : Db} {u : Unit}
    (h : (runFenced lease operation ttl now renewedAt).run db = .ok ((u, l'), db')) :
    ∃ expires, (Db.fileLocksT.cas lease.resourceKey (holds lease (utcNowText renewedAt))
      (fun r => { r with heartbeatAt := utcNowText renewedAt, leaseExpiresAt := expires })
      (fun _ => rfl) (fun _ => rfl)
      (StorageError.leaseLost "workspace lease fenced renewal was rejected")).run db = .ok ((), db') := by
  simp only [runFenced, StateT.run_bind, Tx.bind_ok, assertValidIn_ok, TableRef.select_ok, Tx.require_ok,
    StateT.run_pure, Tx.pure_ok, expiryText_ok] at h
  obtain ⟨_, ⟨-, rfl⟩, ⟨a, s⟩, hop, _, ⟨-, later, -, rfl⟩, ⟨u', s'⟩, hw, _, rfl, ⟨_, _⟩, ⟨-, rfl⟩, h⟩ := h
  have hs : s = db := by
    cases operation with
    | error e => simp [StateT.run, Except.map] at hop
    | ok b => simp only [StateT.run, Except.map, Except.ok.injEq, Prod.mk.injEq] at hop; exact hop.2.symm
  simp only [Prod.mk.injEq] at h
  obtain ⟨-, rfl⟩ := h
  subst hs
  exact ⟨_, hw⟩

theorem heartbeat_write {lease l' : WorkspaceLease} {ttl : Int} {now : Instant} {db db' : Db}
    (h : (heartbeat lease ttl now).run db = .ok (l', db')) :
    ∃ expires, (Db.fileLocksT.cas lease.resourceKey (holds lease (utcNowText now))
      (fun r => { r with heartbeatAt := utcNowText now, leaseExpiresAt := expires })
      (fun _ => rfl) (fun _ => rfl)
      (StorageError.leaseLost "workspace lease heartbeat rejected by fencing check")).run db = .ok ((), db') := by
  simp only [heartbeat, StateT.run_bind, Tx.bind_ok, TableRef.select_ok, Tx.require_ok,
    StateT.run_pure, Tx.pure_ok, expiryText_ok] at h
  obtain ⟨_, ⟨-, later, -, rfl⟩, ⟨u, s⟩, hw, _, rfl, ⟨_, _⟩, ⟨-, rfl⟩, h⟩ := h
  simp only [Prod.mk.injEq] at h
  obtain ⟨-, rfl⟩ := h
  exact ⟨_, hw⟩

theorem step_of_renewal {lease : WorkspaceLease} {now : Instant} {db db' : Db} {expires : String} {hk hu}
    {e : StorageError}
    (h : (Db.fileLocksT.cas lease.resourceKey (holds lease (utcNowText now))
      (fun r => { r with heartbeatAt := utcNowText now, leaseExpiresAt := expires }) hk hu e).run db =
        .ok ((), db')) (k : String) : Step (utcNowText now) (repo.stored db k) (repo.stored db' k) :=
  step_of_cas h (fun row hl => .renew (cell row) expires hl) k

theorem repo_step (call : Call) (db db' : Db) (h : (repo.exec call).run db = .ok ((), db')) (k : String) :
    Step (utcNowText (repo.last call)) (repo.stored db k) (repo.stored db' k) := by
  cases call with
  | acquire k₀ owner ttl now =>
    simp only [repo, StateT.run_bind, Tx.bind_ok, StateT.run_pure, Tx.pure_ok, Prod.exists, Prod.mk.injEq,
      true_and] at h
    obtain ⟨lease, _, h, rfl⟩ := h
    obtain ⟨expires, hw⟩ := acquire_write h
    obtain ⟨hne, hcase⟩ := acquireWrite_ok hw
    by_cases hk : k = k₀
    · subst hk
      rcases hcase with ⟨hnone, hnew⟩ | ⟨row, hrow, ⟨hl, -, hnew⟩ | ⟨hl, hnew⟩⟩
      · rw [hnew, show repo.stored db k = none by simp [repo, hnone]]
        exact .first _ _
      · rw [hnew, show repo.stored db k = some (cell row) by simp [repo, hrow]]
        exact .renew (cell row) expires hl
      · rw [hnew, show repo.stored db k = some (cell row) by simp [repo, hrow]]
        exact .take (cell row) _ expires hl
    · rw [show repo.stored db' k = repo.stored db k by simp [repo, hne k hk]]
      exact .stay _
  | heartbeat lease ttl now =>
    simp only [repo, StateT.run_bind, Tx.bind_ok, StateT.run_pure, Tx.pure_ok, Prod.exists, Prod.mk.injEq,
      true_and] at h
    obtain ⟨_, _, h, rfl⟩ := h
    obtain ⟨expires, hw⟩ := heartbeat_write h
    exact step_of_renewal hw k
  | release lease now =>
    exact step_of_cas h (fun row hl => .release (cell row) true hl) k
  | runFenced lease operation ttl now renewedAt =>
    simp only [repo, StateT.run_bind, Tx.bind_ok, StateT.run_pure, Tx.pure_ok, Prod.exists, Prod.mk.injEq,
      true_and] at h
    obtain ⟨u, l', _, h, rfl⟩ := h
    obtain ⟨expires, hw⟩ := runFenced_write h
    exact step_of_renewal hw k

theorem lawful : repo.Lawful where
  step := repo_step
  takes call db db' h k owner c hacq hc hnew := by
    cases call with
    | acquire k₀ owner₀ ttl now =>
      simp only [repo, Option.some.injEq, Prod.mk.injEq] at hacq
      obtain ⟨rfl, rfl⟩ := hacq
      simp only [repo, StateT.run_bind, Tx.bind_ok, StateT.run_pure, Tx.pure_ok, Prod.exists, Prod.mk.injEq,
        true_and] at h
      obtain ⟨lease, _, h, rfl⟩ := h
      obtain ⟨expires, hw⟩ := acquire_write h
      rcases (acquireWrite_ok hw).2 with ⟨hnone, -⟩ | ⟨row, hrow, hcase⟩
      · simp [repo, hnone] at hc
      · have hcell : c = cell row := by simpa [repo, hrow, eq_comm] using hc
        subst hcell
        rcases hcase with ⟨hl, hsame, -⟩ | ⟨-, hnew'⟩
        · exact absurd hl (by rcases hnew with h | h; exacts [absurd hsame.symm h, h])
        · exact ⟨_, hnew', rfl⟩
    | heartbeat => simp [repo] at hacq
    | release => simp [repo] at hacq
    | runFenced => simp [repo] at hacq
  released lease now db db' h := by
    obtain ⟨row, hrow, hg, hrow', -⟩ := TableRef.cas_writes h
    simp only at hrow'
    exact ⟨cell row, true, (holds_iff.1 hg).2.1, by simp [repo, hrow', cell]⟩
  valid lease now db h := by
    cases hx : (assertValidIn lease now).run db with
    | error e => rw [show (repo.assertValid lease now).run db = _ from hx] at h; simp [Except.isOk, Except.toBool] at h
    | ok p => exact (assertValidIn_ok.1 hx).1
  assert_lost lease now db h := assertValidIn_lost h
  release_lost lease now db h := ⟨_, cas_lost h⟩
  heartbeat_lost lease ttl now db h h1 h2 := by
    obtain ⟨later, hl⟩ := Option.isSome_iff_exists.1 h2
    exact ⟨_, Tx.error_after (expiryText_ok.2 ⟨h1, later, hl, rfl⟩) (Tx.error_of_bind (cas_lost h))⟩

end WorkspaceLeaseRepository

/-! ## The master lease -/

namespace MasterLeaseRepository

/-- Instance and process. -/
abbrev Owner : Type := String × Int

/-- A master lease is released by ending it now. -/
def cell (row : MasterLeaseRow) : Cell Owner String :=
  ⟨(row.instanceId, row.processId), row.fencingToken, row.leaseExpiresAt, false⟩

inductive Call where
  | acquire (leaseKey : String) (owner : Owner) (ttlSeconds : Int) (now : Instant)
  | heartbeat (lease : MasterLease) (ttlSeconds : Int) (now : Instant)
  | release (lease : MasterLease) (now : Instant)

def repo : LeaseRepo MasterLease Owner Call where
  key l := l.leaseKey
  holder l := (l.instanceId, l.processId)
  token l := l.fencingToken
  stored db k := (db.masterLeases.get? k).map cell
  exec
    | .acquire k owner ttl now => do let _ ← acquire k owner.1 owner.2 ttl now
    | .heartbeat lease ttl now => do let _ ← heartbeat lease ttl now
    | .release lease now => release lease now
  first
    | .acquire _ _ _ now | .heartbeat _ _ now | .release _ now => now
  last
    | .acquire _ _ _ now | .heartbeat _ _ now | .release _ now => now
  acquires
    | .acquire k owner _ _ => some (k, owner)
    | _ => none
  assertValid := assertValidIn
  heartbeat := heartbeat
  release := release

theorem holds_iff {lease : MasterLease} {nowText : String} {row : MasterLeaseRow} :
    holds lease nowText row = true ↔
      (cell row).holder = repo.holder lease ∧ (cell row).token = repo.token lease ∧ (cell row).Live nowText := by
  simp [holds, cell, repo, Cell.Live]
  tauto

/-- The lease holds exactly when its row passes the guard of the fenced statements. -/
theorem repo_holds_iff {lease : MasterLease} {now : Instant} {db : Db} :
    repo.Holds lease now db ↔
      ∃ row, db.masterLeases.get? lease.leaseKey = some row ∧ holds lease (utcNowText now) row = true := by
  unfold LeaseRepo.Holds
  constructor
  · rintro ⟨c, hc, h⟩
    obtain ⟨row, hrow, rfl⟩ := Option.map_eq_some_iff.1 hc
    exact ⟨row, hrow, holds_iff.2 h⟩
  · rintro ⟨row, hrow, h⟩
    exact ⟨cell row, by simp [repo, hrow], holds_iff.1 h⟩

theorem assertValidIn_ok {lease : MasterLease} {now : Instant} {db : Db} {r : Unit × Db} :
    (assertValidIn lease now).run db = .ok r ↔ repo.Holds lease now db ∧ r = ((), db) := by
  rw [repo_holds_iff]
  simp [assertValidIn, Option.any_eq_true]

theorem assertValidIn_lost {lease : MasterLease} {now : Instant} {db : Db} (h : ¬ repo.Holds lease now db) :
    LeaseRepo.Raises (assertValidIn lease now) db := by
  rw [repo_holds_iff] at h
  refine ⟨_, Tx.error_after (TableRef.select_ok.2 rfl) (Tx.ensure_error ?_)⟩
  rw [Bool.eq_false_iff, ne_eq, Option.any_eq_true]
  exact h

/-- A write under the lease's guard is refused unless the lease holds. -/
theorem cas_lost {lease : MasterLease} {now : Instant} {db : Db} {f hk hu} {m : String}
    (h : ¬ repo.Holds lease now db) :
    (Db.masterLeasesT.cas lease.leaseKey (holds lease (utcNowText now)) f hk hu (StorageError.leaseLost m)).run db =
      .error (.leaseLost m) := by
  rw [repo_holds_iff] at h
  exact TableRef.cas_error h

/-- A write that only sets the expiry of a held lease is a step. -/
theorem step_of_cas {lease : MasterLease} {now : Instant} {db db' : Db} {f hk hu} {e : StorageError}
    (h : (Db.masterLeasesT.cas lease.leaseKey (holds lease (utcNowText now)) f hk hu e).run db = .ok ((), db'))
    (hf : ∀ row, (cell row).Live (utcNowText now) →
      Step (utcNowText now) (some (cell row)) (some (cell (f row)))) (k : String) :
    Step (utcNowText now) (repo.stored db k) (repo.stored db' k) := by
  obtain ⟨row, hrow, hg, hrow', hne⟩ := TableRef.cas_writes h
  simp only [repo] at hrow hrow' hne ⊢
  by_cases hk : k = lease.leaseKey
  · subst hk
    rw [hrow, hrow']
    exact hf row (holds_iff.1 hg).2.2
  · rw [hne k hk]
    exact .stay _

/-- What `acquire` does to the row of its key. -/
theorem acquireWrite_ok {k owner nowText expires : String} {pid : Int} {db db' : Db}
    (h : (acquireWrite k owner pid nowText expires (db.masterLeases.get? k)).run db = .ok ((), db')) :
    (∀ k', k' ≠ k → db'.masterLeases.get? k' = db.masterLeases.get? k') ∧
    ((db.masterLeases.get? k = none ∧ repo.stored db' k = some ⟨(owner, pid), 1, expires, false⟩) ∨
      ∃ row, db.masterLeases.get? k = some row ∧
        (((cell row).Live nowText ∧ (cell row).holder = (owner, pid) ∧
            repo.stored db' k = some { cell row with expires := expires }) ∨
          (¬ (cell row).Live nowText ∧
            repo.stored db' k = some ⟨(owner, pid), row.fencingToken + 1, expires, false⟩))) := by
  cases hrow : db.masterLeases.get? k with
  | none =>
    rw [hrow] at h
    simp only [acquireWrite, TableRef.insert_ok, Prod.mk.injEq, true_and] at h
    obtain ⟨t, ht, rfl⟩ := h
    have hget := Table.get?_insert ht
    refine ⟨fun k' hk' => by simpa [Ne.symm hk'] using hget k', .inl ⟨rfl, ?_⟩⟩
    simp [repo, hget, cell]
  | some row =>
    rw [hrow] at h
    have hlive : (cell row).Live nowText ↔ nowText < row.leaseExpiresAt := by simp [Cell.Live, cell]
    simp only [acquireWrite] at h
    by_cases hl : nowText < row.leaseExpiresAt
    · rw [if_pos hl] at h
      simp only [StateT.run_bind, Tx.bind_ok, Tx.ensure_ok, TableRef.update_ok, StateT.run_pure, Tx.pure_ok,
        decide_eq_true_eq, Prod.exists, Prod.mk.injEq] at h
      obtain ⟨_, _, ⟨hown, -, rfl⟩, _, _, ⟨-, rfl⟩, -, rfl⟩ := h
      refine ⟨fun k' hk' => by rw [Table.get?_update_ne hk'], .inr ⟨row, rfl, .inl ⟨hlive.2 hl, ?_, ?_⟩⟩⟩
      · simp [cell, hown]
      · simp only [repo]
        rw [Table.get?_update_self hrow]
        simp [hown, hl, cell]
    · rw [if_neg hl] at h
      simp only [StateT.run_bind, Tx.bind_ok, TableRef.update_ok, StateT.run_pure, Tx.pure_ok,
        Prod.exists, Prod.mk.injEq] at h
      obtain ⟨_, _, ⟨-, rfl⟩, -, rfl⟩ := h
      refine ⟨fun k' hk' => by rw [Table.get?_update_ne hk'], .inr ⟨row, rfl, .inr ⟨fun h => hl (hlive.1 h), ?_⟩⟩⟩
      simp only [repo]
      rw [Table.get?_update_self hrow]
      simp [not_lt.1 hl, cell]

/-- The statement `acquire` issues, from the call's own run. -/
theorem acquire_write {k owner : String} {pid ttl : Int} {now : Instant} {db db' : Db} {lease : MasterLease}
    (h : (acquire k owner pid ttl now).run db = .ok (lease, db')) :
    ∃ expires, (acquireWrite k owner pid (utcNowText now) expires (db.masterLeases.get? k)).run db = .ok ((), db') := by
  simp only [acquire, StateT.run_bind, Tx.bind_ok, Tx.ensure_ok, TableRef.select_ok, Tx.require_ok,
    StateT.run_pure, Tx.pure_ok, expiryText_ok] at h
  obtain ⟨_, ⟨-, rfl⟩, _, ⟨-, rfl⟩, _, ⟨-, later, -, rfl⟩, _, rfl, ⟨u, s⟩, hw, _, rfl, ⟨_, _⟩, ⟨-, rfl⟩, h⟩ := h
  simp only [Prod.mk.injEq] at h
  obtain ⟨-, rfl⟩ := h
  exact ⟨_, hw⟩

theorem heartbeat_write {lease l' : MasterLease} {ttl : Int} {now : Instant} {db db' : Db}
    (h : (heartbeat lease ttl now).run db = .ok (l', db')) :
    ∃ expires, (Db.masterLeasesT.cas lease.leaseKey (holds lease (utcNowText now))
      (fun r => { r with heartbeatAt := utcNowText now, leaseExpiresAt := expires })
      (fun _ => rfl) (fun _ => rfl)
      (StorageError.leaseLost "master lease heartbeat rejected by fencing check")).run db = .ok ((), db') := by
  simp only [heartbeat, StateT.run_bind, Tx.bind_ok, TableRef.select_ok, Tx.require_ok,
    StateT.run_pure, Tx.pure_ok, expiryText_ok] at h
  obtain ⟨_, ⟨-, later, -, rfl⟩, ⟨u, s⟩, hw, _, rfl, ⟨_, _⟩, ⟨-, rfl⟩, h⟩ := h
  simp only [Prod.mk.injEq] at h
  obtain ⟨-, rfl⟩ := h
  exact ⟨_, hw⟩

theorem repo_step (call : Call) (db db' : Db) (h : (repo.exec call).run db = .ok ((), db')) (k : String) :
    Step (utcNowText (repo.last call)) (repo.stored db k) (repo.stored db' k) := by
  cases call with
  | acquire k₀ owner ttl now =>
    simp only [repo, StateT.run_bind, Tx.bind_ok, StateT.run_pure, Tx.pure_ok, Prod.exists, Prod.mk.injEq,
      true_and] at h
    obtain ⟨lease, _, h, rfl⟩ := h
    obtain ⟨expires, hw⟩ := acquire_write h
    obtain ⟨hne, hcase⟩ := acquireWrite_ok hw
    by_cases hk : k = k₀
    · subst hk
      rcases hcase with ⟨hnone, hnew⟩ | ⟨row, hrow, ⟨hl, -, hnew⟩ | ⟨hl, hnew⟩⟩
      · rw [hnew, show repo.stored db k = none by simp [repo, hnone]]
        exact .first _ _
      · rw [hnew, show repo.stored db k = some (cell row) by simp [repo, hrow]]
        exact .renew (cell row) expires hl
      · rw [hnew, show repo.stored db k = some (cell row) by simp [repo, hrow]]
        exact .take (cell row) _ expires hl
    · rw [show repo.stored db' k = repo.stored db k by simp [repo, hne k hk]]
      exact .stay _
  | heartbeat lease ttl now =>
    simp only [repo, StateT.run_bind, Tx.bind_ok, StateT.run_pure, Tx.pure_ok, Prod.exists, Prod.mk.injEq,
      true_and] at h
    obtain ⟨_, _, h, rfl⟩ := h
    obtain ⟨expires, hw⟩ := heartbeat_write h
    exact step_of_cas hw (fun row hl => .renew (cell row) expires hl) k
  | release lease now =>
    exact step_of_cas h (fun row hl => .release (cell row) false hl) k

theorem lawful : repo.Lawful where
  step := repo_step
  takes call db db' h k owner c hacq hc hnew := by
    cases call with
    | acquire k₀ owner₀ ttl now =>
      simp only [repo, Option.some.injEq, Prod.mk.injEq] at hacq
      obtain ⟨rfl, rfl⟩ := hacq
      simp only [repo, StateT.run_bind, Tx.bind_ok, StateT.run_pure, Tx.pure_ok, Prod.exists, Prod.mk.injEq,
        true_and] at h
      obtain ⟨lease, _, h, rfl⟩ := h
      obtain ⟨expires, hw⟩ := acquire_write h
      rcases (acquireWrite_ok hw).2 with ⟨hnone, -⟩ | ⟨row, hrow, hcase⟩
      · simp [repo, hnone] at hc
      · have hcell : c = cell row := by simpa [repo, hrow, eq_comm] using hc
        subst hcell
        rcases hcase with ⟨hl, hsame, -⟩ | ⟨-, hnew'⟩
        · exact absurd hl (by rcases hnew with h | h; exacts [absurd hsame.symm h, h])
        · exact ⟨_, hnew', rfl⟩
    | heartbeat => simp [repo] at hacq
    | release => simp [repo] at hacq
  released lease now db db' h := by
    obtain ⟨row, hrow, hg, hrow', -⟩ := TableRef.cas_writes h
    simp only at hrow'
    exact ⟨cell row, false, (holds_iff.1 hg).2.1, by simp [repo, hrow', cell]⟩
  valid lease now db h := by
    cases hx : (assertValidIn lease now).run db with
    | error e => rw [show (repo.assertValid lease now).run db = _ from hx] at h; simp [Except.isOk, Except.toBool] at h
    | ok p => exact (assertValidIn_ok.1 hx).1
  assert_lost lease now db h := assertValidIn_lost h
  release_lost lease now db h := ⟨_, cas_lost h⟩
  heartbeat_lost lease ttl now db h h1 h2 := by
    obtain ⟨later, hl⟩ := Option.isSome_iff_exists.1 h2
    exact ⟨_, Tx.error_after (expiryText_ok.2 ⟨h1, later, hl, rfl⟩) (Tx.error_of_bind (cas_lost h))⟩

end MasterLeaseRepository

/-- Both lease repositories are fences. -/
theorem lease_fencing : WorkspaceLeaseRepository.repo.Fenced ∧ MasterLeaseRepository.repo.Fenced :=
  ⟨WorkspaceLeaseRepository.lawful.fenced, MasterLeaseRepository.lawful.fenced⟩

end AgentHub
