import AgentHub.Lib.Tenancy
import AgentHub.Storage.LeaseFencing
/-!
# One workspace lease among others

What the operations on a workspace lease do to it, seen by its owner: which of its own calls go through and what they
leave (`heartbeat_ok`, `release_ok`, `runFenced_ok`), how they fail, and what the calls of others can do to it
(`foreign_of_call`).
-/

namespace AgentHub

open Lib Lib.Fence

namespace WorkspaceLeaseRepository

/-- A lease on this resource, of this owner and with this token. -/
structure Names (k : String) (h : Owner) (tok : Nat) (lease : WorkspaceLease) : Prop where
  key : lease.resourceKey = k
  holder : repo.holder lease = h
  token : lease.fencingToken = tok

variable {k : String} {h : Owner} {tok : Nat} {lease lease' : WorkspaceLease} {db db' : Db} {now ended : Instant} {ttl : Int}

theorem Names.holds_iff (hn : Names k h tok lease) : repo.Holds lease now db ↔ Held h tok (utcNowText now) (repo.stored db k) := by
  obtain ⟨rfl, rfl, rfl⟩ := hn
  rfl

/-- A tenant whose lease does not hold has lost it. -/
theorem Names.lost (hn : Names k h tok lease) (htenant : Tenant h tok (repo.stored db k)) (hnot : ¬ repo.Holds lease now db) :
    Lost tok (utcNowText now) (repo.stored db k) :=
  (htenant.held_or_lost _).resolve_left fun hheld => hnot (hn.holds_iff.2 hheld)

/-! ## The owner's calls -/

/-- A guarded write of the owner leaves the row of its lease. -/
theorem cas_tenancy {f hk hu} {e : StorageError} (hn : Names k h tok lease)
    (hcas : (Db.fileLocksT.cas lease.resourceKey (holds lease (utcNowText now)) f hk hu e).run db = .ok ((), db')) :
    repo.Holds lease now db ∧ ∃ row, db.fileLocks.get? k = some row ∧ repo.stored db' k = some (cell (f row)) ∧
      (cell row).holder = h ∧ (cell row).token = tok := by
  obtain ⟨row, hrow, hg, hrow', -⟩ := TableRef.cas_writes hcas
  obtain ⟨hholder, htoken, hlive⟩ := holds_iff.1 hg
  obtain ⟨rfl, rfl, rfl⟩ := hn
  refine ⟨repo_holds_iff.2 ⟨row, hrow, hg⟩, row, hrow, ?_, hholder, htoken⟩
  exact congrArg (Option.map cell) hrow'

theorem names_workspace {row : FileLockRow} (hkey : row.resourceKey = k) (hholder : (cell row).holder = h)
    (htoken : (cell row).token = tok) : Names k h tok (workspace row) := ⟨hkey, hholder, htoken⟩

/-- The row of a resource whose cell is the owner's. -/
theorem names_stored {row : FileLockRow} (hrow : db.fileLocks.get? k = some row)
    (hstored : ∃ c, repo.stored db k = some c ∧ c.holder = h ∧ c.token = tok) : Names k h tok (workspace row) := by
  obtain ⟨c, hc, hholder, htoken⟩ := hstored
  have hcell : cell row = c := by
    simp only [repo, hrow, Option.map_some, Option.some.injEq] at hc
    exact hc
  exact names_workspace (Table.get?_key hrow) (hcell ▸ hholder) (hcell ▸ htoken)

/-- An owner that acquired a lease is its tenant. -/
theorem acquire_ok {kind op : String} {pid : Int} (hrun : (acquire k kind op pid ttl now).run db = .ok (lease, db')) :
    ∃ tok, Names k (kind, op, pid) tok lease ∧ Tenant (kind, op, pid) tok (repo.stored db' k) := by
  obtain ⟨expires, hw⟩ := acquire_write hrun
  have hstored : ∃ c, repo.stored db' k = some c ∧ c.holder = (kind, op, pid) := by
    rcases (acquireWrite_ok hw).2 with ⟨-, hnew⟩ | ⟨row, -, ⟨-, hholder, hnew⟩ | ⟨-, hnew⟩⟩
    · exact ⟨_, hnew, rfl⟩
    · exact ⟨_, hnew, hholder⟩
    · exact ⟨_, hnew, rfl⟩
  obtain ⟨c, hc, hholder⟩ := hstored
  refine ⟨c.token, ?_, c, hc, .inr ⟨rfl, hholder⟩⟩
  simp only [acquire, StateT.run_bind, Tx.bind_ok, Tx.ensure_ok, TableRef.select_ok, Tx.require_ok, StateT.run_pure,
    Tx.pure_ok] at hrun
  obtain ⟨_, -, _, -, _, -, _, -, _, -, _, -, ⟨_, db₁⟩, -, _, rfl, ⟨row, _⟩, ⟨hrow, rfl⟩, heq⟩ := hrun
  simp only [Prod.mk.injEq] at heq hrow
  obtain ⟨rfl, rfl⟩ := heq
  exact names_stored hrow ⟨c, hc, hholder, rfl⟩

theorem heartbeat_ok (hn : Names k h tok lease) (hrun : (heartbeat lease ttl now).run db = .ok (lease', db')) :
    repo.Holds lease now db ∧ Names k h tok lease' ∧ Tenant h tok (repo.stored db' k) := by
  obtain ⟨expires, hw⟩ := heartbeat_write hrun
  obtain ⟨hholds, row, -, hstored, hholder, htoken⟩ := cas_tenancy hn hw
  refine ⟨hholds, ?_, _, hstored, .inr ⟨htoken, hholder⟩⟩
  simp only [heartbeat, StateT.run_bind, Tx.bind_ok, TableRef.select_ok, Tx.require_ok, StateT.run_pure, Tx.pure_ok] at hrun
  obtain ⟨_, -, ⟨_, db₁⟩, -, _, rfl, ⟨row', _⟩, ⟨hrow', rfl⟩, heq⟩ := hrun
  simp only [Prod.mk.injEq] at heq hrow'
  obtain ⟨rfl, rfl⟩ := heq
  exact names_stored (hn.key ▸ hrow') ⟨_, hstored, hholder, htoken⟩

/-- A guarded write goes through when the lease holds. -/
theorem cas_of_holds {f hk hu} (e : StorageError) (hholds : repo.Holds lease now db) : ∃ db',
    (Db.fileLocksT.cas lease.resourceKey (holds lease (utcNowText now)) f hk hu e).run db = .ok ((), db') := by
  obtain ⟨row, hrow, hg⟩ := repo_holds_iff.1 hholds
  exact ⟨_, TableRef.cas_ok.2 ⟨⟨row, hrow, hg⟩, rfl⟩⟩

/-- So does a renewal, which reads its row back. -/
theorem renewal_of_holds {α : Type} {f hk hu} (e e' : StorageError) (g : FileLockRow → α)
    (hholds : repo.Holds lease now db) : ∃ r, StateT.run (do
      Db.fileLocksT.cas lease.resourceKey (holds lease (utcNowText now)) f hk hu e
      let current ← Db.fileLocksT.select lease.resourceKey
      let row ← Tx.require current e'
      return g row) db = .ok r := by
  obtain ⟨db', hcas⟩ := @cas_of_holds lease db now f hk hu e hholds
  obtain ⟨row, -, -, hrow', -⟩ := TableRef.cas_writes hcas
  refine ⟨(g (f row), db'), ?_⟩
  rw [Tx.run_bind_of_ok hcas, Tx.run_bind_of_ok (TableRef.select_ok.2 rfl), Tx.run_bind_of_ok (Tx.require_ok.2 ⟨hrow', rfl⟩)]
  rfl

/-- A heartbeat within the years of the clock fails because the lease does not hold. -/
theorem heartbeat_error {e : StorageError} (httl : 1 ≤ ttl) (hclock : (now.addSeconds ttl.toNat).isSome)
    (hrun : (heartbeat lease ttl now).run db = .error e) : ¬ repo.Holds lease now db ∧ ∃ m, e = .leaseLost m := by
  have hnot : ¬ repo.Holds lease now db := by
    intro hholds
    obtain ⟨later, hlater⟩ := Option.isSome_iff_exists.1 hclock
    rw [heartbeat, Tx.run_bind_of_ok (expiryText_ok.2 ⟨httl, later, hlater, rfl⟩)] at hrun
    obtain ⟨r, hr⟩ := renewal_of_holds _ _ workspace hholds
    rw [hr] at hrun
    cases hrun
  obtain ⟨m, hm⟩ := lawful.heartbeat_lost lease ttl now db hnot httl hclock
  exact ⟨hnot, m, Except.error.inj (hrun.symm.trans hm)⟩

/-- A release leaves a lease that is lost at every clock reading. -/
theorem release_ok (hn : Names k h tok lease) (hrun : (release lease now).run db = .ok ((), db')) :
    repo.Holds lease now db ∧ Tenant h tok (repo.stored db' k) ∧ ∀ t, Lost tok t (repo.stored db' k) := by
  obtain ⟨hholds, row, -, hstored, hholder, htoken⟩ := cas_tenancy hn hrun
  refine ⟨hholds, ⟨_, hstored, .inr ⟨htoken, hholder⟩⟩, fun t => ⟨_, hstored, .inr ⟨htoken.symm, ?_⟩⟩⟩
  rintro ⟨hreleased, -⟩
  cases hreleased

theorem release_error {e : StorageError} (hrun : (release lease now).run db = .error e) :
    ¬ repo.Holds lease now db ∧ ∃ m, e = .leaseLost m := by
  have hnot : ¬ repo.Holds lease now db := by
    intro hholds
    obtain ⟨_, hcas⟩ := cas_of_holds _ hholds
    rw [release, hcas] at hrun
    cases hrun
  obtain ⟨m, hm⟩ := lawful.release_lost lease now db hnot
  exact ⟨hnot, m, Except.error.inj (hrun.symm.trans hm)⟩

theorem assertValidIn_error {e : StorageError} (hrun : (assertValidIn lease now).run db = .error e) :
    ¬ repo.Holds lease now db ∧ ∃ m, e = .leaseLost m := by
  have hnot : ¬ repo.Holds lease now db := by
    intro hholds
    rw [assertValidIn_ok.2 ⟨hholds, rfl⟩] at hrun
    cases hrun
  obtain ⟨m, hm⟩ := assertValidIn_lost hnot
  exact ⟨hnot, m, Except.error.inj (hrun.symm.trans hm)⟩

theorem runFenced_ok (hn : Names k h tok lease) (hrun : (runFenced lease (.ok ()) ttl now ended).run db = .ok (((), lease'), db')) :
    repo.Holds lease ended db ∧ Names k h tok lease' ∧ Tenant h tok (repo.stored db' k) := by
  obtain ⟨expires, hw⟩ := runFenced_write hrun
  obtain ⟨hholds, row, -, hstored, hholder, htoken⟩ := cas_tenancy hn hw
  refine ⟨hholds, ?_, _, hstored, .inr ⟨htoken, hholder⟩⟩
  simp only [runFenced, StateT.run_bind, Tx.bind_ok, TableRef.select_ok, Tx.require_ok, StateT.run_pure, Tx.pure_ok] at hrun
  obtain ⟨_, -, _, -, _, -, ⟨_, db₁⟩, -, _, rfl, ⟨row', _⟩, ⟨hrow', rfl⟩, heq⟩ := hrun
  simp only [Prod.mk.injEq] at heq hrow'
  obtain ⟨⟨-, rfl⟩, rfl⟩ := heq
  exact names_stored (hn.key ▸ hrow') ⟨_, hstored, hholder, htoken⟩

/-- A fenced renewal is refused as lost only if the lease does not hold at one of its two readings. -/
theorem runFenced_lost {m : String} (hrun : (runFenced lease (.ok ()) ttl now ended).run db = .error (.leaseLost m)) :
    ¬ (repo.Holds lease now db ∧ repo.Holds lease ended db) := by
  rintro ⟨hbegan, hended⟩
  have hresult : StateT.run (show Op Unit from fun db => (Except.ok ()).map (·, db)) db = .ok ((), db) := rfl
  rw [runFenced, Tx.run_bind_of_ok (assertValidIn_ok.2 ⟨hbegan, rfl⟩), Tx.run_bind_of_ok hresult] at hrun
  rcases Tx.bind_error.1 hrun with hexpiry | ⟨expires, db₁, hexpires, hrenewal⟩
  · have hraises : Tx.Raises (· ≠ StorageError.leaseLost m) (expiryText ended ttl) :=
      .bind (.ensure (by simp)) fun _ => .bind (.require (by simp)) fun _ => .pure _
    exact hraises _ _ hexpiry rfl
  · obtain ⟨-, later, -, hdb⟩ := expiryText_ok.1 hexpires
    obtain rfl : db₁ = db := congrArg Prod.snd hdb
    obtain ⟨r, hr⟩ := renewal_of_holds _ _ (fun row => ((), workspace row)) hended
    rw [hr] at hrenewal
    cases hrenewal

/-- Acquiring fails for other reasons than a lost lease. -/
theorem acquire_raises (k kind op : String) (pid ttl : Int) (now : Instant) (m : String) :
    Tx.Raises (· ≠ StorageError.leaseLost m) (acquire k kind op pid ttl now) := by
  refine .bind (.ensure (by simp)) fun _ => .bind (.ensure (by simp)) fun _ => .bind (.ensure (by simp)) fun _ => ?_
  refine .bind (.ensure (by simp)) fun _ => .bind ?_ fun expires => .bind (.read _) fun row => .bind ?_ fun _ => ?_
  · exact .bind (.ensure (by simp)) fun _ => .bind (.require (by simp)) fun _ => .pure _
  · cases row with
    | none =>
      intro db e herror
      unfold acquireWrite TableRef.insert at herror
      simp only [StateT.run] at herror
      split at herror
      · cases herror
      · cases herror
        simp
    | some row =>
      refine .ite (.bind (.ensure (by simp)) fun _ => .bind ?_ fun _ => .pure _) (.bind ?_ fun _ => .pure _)
      all_goals
        intro db e herror
        cases herror
  · exact .bind (.read _) fun _ => .bind (.require (by simp)) fun _ => .pure _

/-! ## The calls of others -/

/-- Who makes a call. -/
def Call.actor : Call → Owner
  | .acquire _ owner _ _ => owner
  | .heartbeat lease _ _ => repo.holder lease
  | .release lease _ => repo.holder lease
  | .runFenced lease _ _ _ _ => repo.holder lease

/-- A guarded write of somebody else leaves the owner's row alone. -/
theorem foreign_of_cas {f hk hu} {e : StorageError} (hne : repo.holder lease ≠ h)
    (hcas : (Db.fileLocksT.cas lease.resourceKey (holds lease (utcNowText now)) f hk hu e).run db = .ok ((), db'))
    {c : Cell Owner String} (hc : repo.stored db k = some c) (hholder : c.holder = h) :
    repo.stored db' k = repo.stored db k := by
  obtain ⟨row, hrow, hg, -, hothers⟩ := TableRef.cas_writes hcas
  by_cases hk : k = lease.resourceKey
  · subst hk
    simp only [repo] at hc
    rw [show db.fileLocks.get? lease.resourceKey = some row from hrow, Option.map_some, Option.some.injEq] at hc
    exact absurd ((hc ▸ (holds_iff.1 hg).1.symm).trans hholder) hne
  · exact congrArg (Option.map cell) (hothers k hk)

/-- A call of somebody else. -/
theorem foreign_of_call {call : Call} (hne : call.actor ≠ h) (hrun : (repo.exec call).run db = .ok ((), db')) (k : String) :
    Foreign h (utcNowText (repo.last call)) (repo.stored db k) (repo.stored db' k) := by
  refine ⟨repo_step call db db' hrun k, fun c hc hholder => ?_⟩
  cases call with
  | acquire k₀ owner ttl now =>
    simp only [repo, StateT.run_bind, Tx.bind_ok, StateT.run_pure, Tx.pure_ok, Prod.exists, Prod.mk.injEq,
      true_and] at hrun
    obtain ⟨lease, _, hrun, rfl⟩ := hrun
    obtain ⟨expires, hw⟩ := acquire_write hrun
    obtain ⟨hothers, hcase⟩ := acquireWrite_ok hw
    by_cases hk : k = k₀
    · subst hk
      rcases hcase with ⟨hnone, -⟩ | ⟨row, hrow, hcase⟩
      · simp [repo, hnone] at hc
      obtain rfl : cell row = c := by simpa [repo, hrow] using hc
      rcases hcase with ⟨-, howner, -⟩ | ⟨-, hnew⟩
      · exact absurd (howner.symm.trans hholder) hne
      · exact .inr ⟨_, hnew, Nat.lt_succ_self _⟩
    · exact .inl (congrArg (Option.map cell) (hothers k hk))
  | heartbeat lease ttl now =>
    simp only [repo, StateT.run_bind, Tx.bind_ok, StateT.run_pure, Tx.pure_ok, Prod.exists, Prod.mk.injEq,
      true_and] at hrun
    obtain ⟨_, _, hrun, rfl⟩ := hrun
    obtain ⟨expires, hw⟩ := heartbeat_write hrun
    exact .inl (foreign_of_cas hne hw hc hholder)
  | release lease now => exact .inl (foreign_of_cas hne hrun hc hholder)
  | runFenced lease operation ttl now renewedAt =>
    simp only [repo, StateT.run_bind, Tx.bind_ok, StateT.run_pure, Tx.pure_ok, Prod.exists, Prod.mk.injEq,
      true_and] at hrun
    obtain ⟨u, l', _, hrun, rfl⟩ := hrun
    obtain ⟨expires, hw⟩ := runFenced_write hrun
    exact .inl (foreign_of_cas hne hw hc hholder)

end WorkspaceLeaseRepository

end AgentHub
