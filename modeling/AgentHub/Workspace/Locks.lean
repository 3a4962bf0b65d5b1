import AgentHub.Storage.Runs.Merge
import AgentHub.Workspace.Files
/-!
# Workspace locks

`LockManager.hold` takes the lease of a session, keeps it alive in the background while its body runs, and gives it
back; `run_fenced` runs one piece of workspace I/O inside a transaction of the lease. What the background does to the
lease shows in the state between any two calls.
-/

namespace AgentHub.Workspace

open Lib

/-- What a coroutine raises. -/
inductive Fault where
  | host (e : Failure)
  | storage (e : StorageError)
  /-- `ChangeSetReconciliationRequired` -/
  | reconciliationRequired (message : String)
  /-- `asyncio.CancelledError` -/
  | cancelled
  deriving DecidableEq, Repr

namespace Fault

def valueError (message : String) : Fault := .storage (.valueError message)

def leaseLost (message : String) : Fault := .storage (.leaseLost message)

def conflict (message : String) : Fault := .storage (.concurrencyConflict message)

def git (message : String) : Fault := .host (.git message)

/-- `isinstance(error, Exception)`. -/
def isException : Fault → Bool
  | .cancelled => false
  | .host e => e.kind ≠ .interrupt
  | _ => true

def isReconciliationRequired : Fault → Bool
  | .reconciliationRequired _ => true
  | _ => false

end Fault

/-- A call on the host, from a coroutine. -/
def onHost {W α : Type} (x : EStateM Failure W α) : EStateM Fault W α := fun w =>
  match x w with
  | .ok a w' => .ok a w'
  | .error e w' => .error (.host e) w'

structure HeldWorkspaceLease where
  lease : WorkspaceLease
  heartbeatError : Option Fault
  deriving DecidableEq, Repr

/-- What a coroutine calls: transactions, each of which reads the clock, and the lease that the heartbeat renews. -/
structure Coroutines (W : Type) where
  transaction : {α : Type} → (Instant → Op α) → EStateM Fault W α
  held : W → HeldWorkspaceLease
  startHeartbeat : WorkspaceLease → W → W
  setLease : WorkspaceLease → W → W
  /-- cancel the heartbeat and wait for its end -/
  stopHeartbeat : W → W

/-- The arguments of `hold`. -/
structure HoldRequest where
  sessionId : String
  ownerKind : String
  ownerOperationId : String
  ownerProcessId : Int
  ttlSeconds : Int
  heartbeatSeconds : Option Rat
  deriving DecidableEq, Repr

namespace LockManager

variable {W α : Type} (C : Coroutines W)

/-- `held`, as it is now. -/
def current : EStateM Fault W HeldWorkspaceLease := fun w => .ok (C.held w) w

/-- `assert_healthy`. -/
def assertHealthy : EStateM Fault W Unit := do
  let held ← current C
  if held.heartbeatError.isSome then throw (.leaseLost "workspace lease heartbeat failed") else pure ()

/-- `resource_key`. -/
def resourceKey (sessionId : String) : EStateM Fault W String :=
  if isEntityId sessionId then pure (integrationResource sessionId)
  else throw (.host ⟨.validation, "session_id"⟩)

/-- `_assert_session`. -/
def assertSession (lease : WorkspaceLease) (sessionId : String) : EStateM Fault W Unit := do
  let key ← resourceKey sessionId
  if lease.resourceKey ≠ key then throw (.valueError "workspace lease does not belong to the requested session")
  else pure ()

def acquire (request : HoldRequest) : EStateM Fault W WorkspaceLease := do
  let key ← resourceKey request.sessionId
  if ¬ isEntityId request.ownerOperationId then throw (.host ⟨.validation, "owner_operation_id"⟩)
  else
    C.transaction fun now => WorkspaceLeaseRepository.acquire key request.ownerKind request.ownerOperationId
      request.ownerProcessId request.ttlSeconds now

/-- `assert_valid`. -/
def assertValid (sessionId : String) : EStateM Fault W Unit := do
  let held ← current C
  assertSession held.lease sessionId
  C.transaction fun now => WorkspaceLeaseRepository.assertValidIn held.lease now

/-- `release`. -/
def release : EStateM Fault W Unit := do
  let held ← current C
  C.transaction fun now => WorkspaceLeaseRepository.release held.lease now

/-- The renewal at the end of `run_fenced`. -/
def renew (lease : WorkspaceLease) (ttlSeconds : Int) (now : Instant) : Op WorkspaceLease := do
  let (_, renewed) ← WorkspaceLeaseRepository.runFenced lease (.ok ()) ttlSeconds now now
  return renewed

/-- `run_fenced`. Before the operation its transaction has only read, so nothing is lost by cutting it in two there: the
write lock that it holds meanwhile keeps others out. -/
def runFenced (sessionId : String) (ttlSeconds : Int) (operation : EStateM Failure W α) : EStateM Fault W α := do
  assertHealthy C
  let held ← current C
  assertSession held.lease sessionId
  C.transaction fun now => WorkspaceLeaseRepository.assertValidIn held.lease now
  let result ← onHost operation
  let renewed ← C.transaction (renew held.lease ttlSeconds)
  modify (C.setLease renewed)
  assertHealthy C
  pure result

/-- The `finally` of `hold` around the body: release the lease whatever comes of the body; its error, or the late one of
the heartbeat, comes before an error of the release. -/
def finish (result : Except Fault α) : EStateM Fault W α := do
  modify C.stopHeartbeat
  match result with
  | .error e => do
    let _ ← outcome (release C)
    throw e
  | .ok a => do
    let late ← outcome (assertHealthy C)
    let released ← outcome (release C)
    match late, released with
    | .error e, _ => throw e
    | .ok (), .error e => throw e
    | .ok (), .ok () => pure a

/-- The body of `hold`, with its `except` clauses: a cancellation by the heartbeat is a lost lease. -/
def guarded (sessionId : String) (body : EStateM Fault W α) : EStateM Fault W α := do
  let result ← outcome do
    let a ← body
    assertHealthy C
    assertValid C sessionId
    pure a
  match result with
  | .ok a => pure a
  | .error e => do
    let held ← current C
    if e = .cancelled ∧ held.heartbeatError.isSome then throw (.leaseLost "workspace lease heartbeat failed")
    else throw e

/-- `hold`. -/
def hold (request : HoldRequest) (body : EStateM Fault W α) : EStateM Fault W α := do
  let interval := request.heartbeatSeconds.getD (max 1 (request.ttlSeconds / 3))
  if interval ≤ 0 ∨ (request.ttlSeconds : Rat) ≤ interval then
    throw (.valueError "heartbeat_seconds must be positive and less than ttl_seconds")
  else do
    let lease ← acquire C request
    modify (C.startHeartbeat lease)
    let result ← outcome (guarded C request.sessionId body)
    finish C result

end LockManager

end AgentHub.Workspace
