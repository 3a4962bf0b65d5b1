import AgentHub.Lib.Fence
import AgentHub.Storage.Db
/-!
# Leases

The two lease repositories: the singleton master lease and the workspace locks. Each
operation is the source's transaction, with its own WHERE clause.
-/

namespace AgentHub

open Lib

structure MasterLease where
  leaseKey : String
  instanceId : String
  processId : Int
  fencingToken : Nat
  heartbeatAt : String
  expiresAt : String
  deriving DecidableEq, Repr

structure WorkspaceLease where
  resourceKey : String
  ownerKind : String
  ownerOperationId : String
  ownerProcessId : Int
  fencingToken : Nat
  acquiredAt : String
  heartbeatAt : String
  expiresAt : String
  deriving DecidableEq, Repr

/-- `now + timedelta(seconds=_ttl(ttl_seconds))` as text. -/
def expiryText (now : Instant) (ttlSeconds : Int) : Op String := do
  Tx.ensure (1 ≤ ttlSeconds) (.valueError "ttl_seconds must be positive")
  let later ← Tx.require (now.addSeconds ttlSeconds.toNat) .overflowError
  return utcNowText later

namespace MasterLeaseRepository

/-- `_master`. -/
def master (row : MasterLeaseRow) : MasterLease :=
  ⟨row.leaseKey, row.instanceId, row.processId, row.fencingToken, row.heartbeatAt, row.leaseExpiresAt⟩

/-- The guard of every fenced statement: the row is this lease and has not expired. -/
def holds (lease : MasterLease) (nowText : String) (row : MasterLeaseRow) : Bool :=
  row.instanceId = lease.instanceId ∧ row.processId = lease.processId ∧
    row.fencingToken = lease.fencingToken ∧ nowText < row.leaseExpiresAt

/-- The statement `acquire` issues for the row it found. -/
def acquireWrite (leaseKey owner : String) (pid : Int) (nowText expires : String) :
    Option MasterLeaseRow → Op Unit
  | none => Db.masterLeasesT.insert ⟨leaseKey, owner, pid, 1, nowText, expires⟩ (.integrityError "master_leases")
  | some row =>
    if nowText < row.leaseExpiresAt then do
      Tx.ensure (row.instanceId = owner ∧ row.processId = pid)
        (.leaseUnavailable ("master lease " ++ leaseKey ++ " is held by another live instance"))
      let _ ← Db.masterLeasesT.update
        (fun r => decide (r.leaseKey = leaseKey) && decide (r.instanceId = owner ∧ r.processId = pid ∧
          r.fencingToken = row.fencingToken ∧ nowText < r.leaseExpiresAt))
        (fun r => { r with heartbeatAt := nowText, leaseExpiresAt := expires }) (fun _ => rfl) (fun _ => rfl)
    else do
      let _ ← Db.masterLeasesT.update
        (fun r => decide (r.leaseKey = leaseKey) && decide (r.fencingToken = row.fencingToken ∧
          r.leaseExpiresAt ≤ nowText))
        (fun r => { r with instanceId := owner, processId := pid, fencingToken := row.fencingToken + 1,
                           heartbeatAt := nowText, leaseExpiresAt := expires }) (fun _ => rfl) (fun _ => rfl)

def acquire (leaseKey instanceId : String) (processId ttlSeconds : Int) (now : Instant) : Op MasterLease := do
  Tx.ensure (isEntityId instanceId) (.valueError "instance_id")
  Tx.ensure (1 ≤ processId) (.valueError "process_id must be positive")
  let expires ← expiryText now ttlSeconds
  let row ← Db.masterLeasesT.select leaseKey
  acquireWrite leaseKey instanceId processId (utcNowText now) expires row
  let current ← Db.masterLeasesT.select leaseKey
  let row ← Tx.require current (.runtimeError "assert current is not None")
  return master row

def heartbeat (lease : MasterLease) (ttlSeconds : Int) (now : Instant) : Op MasterLease := do
  let expires ← expiryText now ttlSeconds
  Db.masterLeasesT.cas lease.leaseKey (holds lease (utcNowText now))
    (fun r => { r with heartbeatAt := utcNowText now, leaseExpiresAt := expires }) (fun _ => rfl) (fun _ => rfl)
    (.leaseLost "master lease heartbeat rejected by fencing check")
  let current ← Db.masterLeasesT.select lease.leaseKey
  let row ← Tx.require current (.runtimeError "assert row is not None")
  return master row

def release (lease : MasterLease) (now : Instant) : Op Unit :=
  Db.masterLeasesT.cas lease.leaseKey (holds lease (utcNowText now))
    (fun r => { r with heartbeatAt := utcNowText now, leaseExpiresAt := utcNowText now })
    (fun _ => rfl) (fun _ => rfl) (.leaseLost "master lease release rejected by fencing check")

/-- Fence a master-owned mutation inside the mutation's transaction. -/
def assertValidIn (lease : MasterLease) (now : Instant) : Op Unit := do
  let row ← Db.masterLeasesT.select lease.leaseKey
  Tx.ensure (row.any (holds lease (utcNowText now))) (.leaseLost "master lease is no longer valid")

end MasterLeaseRepository

namespace WorkspaceLeaseRepository

/-- `_workspace`. -/
def workspace (row : FileLockRow) : WorkspaceLease :=
  ⟨row.resourceKey, row.ownerKind, row.ownerOperationId, row.ownerProcessId, row.fencingToken, row.acquiredAt,
    row.heartbeatAt, row.leaseExpiresAt⟩

/-- The guard of every fenced statement: the row is this lease, not released and not expired. -/
def holds (lease : WorkspaceLease) (nowText : String) (row : FileLockRow) : Bool :=
  row.ownerKind = lease.ownerKind ∧ row.ownerOperationId = lease.ownerOperationId ∧
    row.ownerProcessId = lease.ownerProcessId ∧ row.fencingToken = lease.fencingToken ∧
    row.releasedAt = none ∧ nowText < row.leaseExpiresAt

/-- The statement `acquire` issues for the row it found. -/
def acquireWrite (resourceKey ownerKind operationId : String) (pid : Int) (nowText expires : String) :
    Option FileLockRow → Op Unit
  | none => Db.fileLocksT.insert ⟨resourceKey, ownerKind, operationId, pid, 1, nowText, nowText, expires, none⟩
      (.integrityError "file_locks")
  | some row =>
    if row.releasedAt = none ∧ nowText < row.leaseExpiresAt then do
      Tx.ensure (row.ownerKind = ownerKind ∧ row.ownerOperationId = operationId ∧ row.ownerProcessId = pid)
        (.leaseUnavailable ("workspace resource is already leased: " ++ resourceKey))
      let _ ← Db.fileLocksT.update
        (fun r => decide (r.resourceKey = resourceKey) && decide (r.ownerKind = ownerKind ∧
          r.ownerOperationId = operationId ∧ r.ownerProcessId = pid ∧ r.fencingToken = row.fencingToken ∧
          r.releasedAt = none ∧ nowText < r.leaseExpiresAt))
        (fun r => { r with heartbeatAt := nowText, leaseExpiresAt := expires }) (fun _ => rfl) (fun _ => rfl)
    else do
      let _ ← Db.fileLocksT.update
        (fun r => decide (r.resourceKey = resourceKey) && decide (r.fencingToken = row.fencingToken ∧
          (r.releasedAt ≠ none ∨ r.leaseExpiresAt ≤ nowText)))
        (fun r => { r with ownerKind := ownerKind, ownerOperationId := operationId, ownerProcessId := pid,
                           fencingToken := row.fencingToken + 1, acquiredAt := nowText,
                           heartbeatAt := nowText, leaseExpiresAt := expires, releasedAt := none })
        (fun _ => rfl) (fun _ => rfl)

def acquire (resourceKey ownerKind ownerOperationId : String) (ownerProcessId ttlSeconds : Int)
    (now : Instant) : Op WorkspaceLease := do
  Tx.ensure (resourceKey ≠ "" ∧ resourceKey.length ≤ 1024)
    (.valueError "resource_key must contain 1..1024 characters")
  Tx.ensure (ownerKind ≠ "" ∧ ownerKind.length ≤ 64) (.valueError "owner_kind must contain 1..64 characters")
  Tx.ensure (isEntityId ownerOperationId) (.valueError "owner_operation_id")
  Tx.ensure (1 ≤ ownerProcessId) (.valueError "process_id must be positive")
  let expires ← expiryText now ttlSeconds
  let row ← Db.fileLocksT.select resourceKey
  acquireWrite resourceKey ownerKind ownerOperationId ownerProcessId (utcNowText now) expires row
  let current ← Db.fileLocksT.select resourceKey
  let row ← Tx.require current (.runtimeError "assert current is not None")
  return workspace row

def heartbeat (lease : WorkspaceLease) (ttlSeconds : Int) (now : Instant) : Op WorkspaceLease := do
  let expires ← expiryText now ttlSeconds
  Db.fileLocksT.cas lease.resourceKey (holds lease (utcNowText now))
    (fun r => { r with heartbeatAt := utcNowText now, leaseExpiresAt := expires }) (fun _ => rfl) (fun _ => rfl)
    (.leaseLost "workspace lease heartbeat rejected by fencing check")
  let current ← Db.fileLocksT.select lease.resourceKey
  let row ← Tx.require current (.runtimeError "assert row is not None")
  return workspace row

def release (lease : WorkspaceLease) (now : Instant) : Op Unit :=
  Db.fileLocksT.cas lease.resourceKey (holds lease (utcNowText now))
    (fun r => { r with heartbeatAt := utcNowText now, leaseExpiresAt := utcNowText now,
                       releasedAt := some (utcNowText now) })
    (fun _ => rfl) (fun _ => rfl) (.leaseLost "workspace lease release rejected by fencing check")

/-- Fence a workspace mutation inside the mutation's transaction. -/
def assertValidIn (lease : WorkspaceLease) (now : Instant) : Op Unit := do
  let row ← Db.fileLocksT.select lease.resourceKey
  Tx.ensure (row.any (holds lease (utcNowText now))) (.leaseLost "workspace lease is no longer valid")

/-- Run workspace I/O and renew before releasing the fence. The clock is read once before the
operation and once after it; `operation` is what the I/O returned or raised. -/
def runFenced {α : Type} (lease : WorkspaceLease) (operation : Except StorageError α) (ttlSeconds : Int)
    (now renewedAt : Instant) : Op (α × WorkspaceLease) := do
  assertValidIn lease now
  let result ← (fun db => operation.map (·, db) : Op α)
  let expires ← expiryText renewedAt ttlSeconds
  Db.fileLocksT.cas lease.resourceKey (holds lease (utcNowText renewedAt))
    (fun r => { r with heartbeatAt := utcNowText renewedAt, leaseExpiresAt := expires })
    (fun _ => rfl) (fun _ => rfl) (.leaseLost "workspace lease fenced renewal was rejected")
  let current ← Db.fileLocksT.select lease.resourceKey
  let row ← Tx.require current (.leaseLost "workspace lease disappeared during fenced renewal")
  return (result, workspace row)

end WorkspaceLeaseRepository

end AgentHub
