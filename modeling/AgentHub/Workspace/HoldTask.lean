import AgentHub.Storage.LeaseTenancy
import AgentHub.Workspace.Locks
/-!
# `hold` as two tasks

`LockManager.hold` between its awaits: the owning task and the heartbeat task it starts, a step at a time, and what happens
meanwhile. Time passes, others use the lease, somebody cancels the owning task. A task that is cancelled raises
`CancelledError` where it waits, as soon as it runs again, and the transaction it waited for is rolled back unless it had
committed.

The body of `hold` is arbitrary but for one thing: it lets LeaseLost and CancelledError through.
-/

namespace AgentHub.Workspace

open Lib

namespace Fault

def isLeaseLost : Fault → Bool
  | .storage (.leaseLost _) => true
  | _ => false

/-- Neither a lost lease nor a cancellation. -/
def isOther (e : Fault) : Bool := !e.isLeaseLost && e ≠ .cancelled

theorem isLeaseLost_iff {e : Fault} : e.isLeaseLost = true ↔ ∃ message, e = .leaseLost message := by
  constructor
  · intro h
    unfold isLeaseLost at h
    split at h
    · next message => exact ⟨message, rfl⟩
    · cases h
  · rintro ⟨message, rfl⟩
    rfl

theorem kinds (e : Fault) : e = .cancelled ∨ (∃ message, e = .leaseLost message) ∨ e.isOther = true := by
  by_cases hlost : e.isLeaseLost = true
  · exact .inr (.inl (isLeaseLost_iff.1 hlost))
  · by_cases hcancelled : e = .cancelled
    · exact .inl hcancelled
    · exact .inr (.inr (by simp [isOther, hlost, hcancelled]))

theorem isOther_storage {e : StorageError} (h : ∀ m, e ≠ .leaseLost m) : (Fault.storage e).isOther = true := by
  cases e with
  | leaseLost m => exact absurd rfl (h m)
  | _ => rfl

end Fault

namespace HoldRequest

/-- The resource that is locked. -/
def key (request : HoldRequest) : String := integrationResource request.sessionId

def owner (request : HoldRequest) : WorkspaceLeaseRepository.Owner :=
  (request.ownerKind, request.ownerOperationId, request.ownerProcessId)

end HoldRequest

/-- How `hold` ends, with the release error that is noted on the error it raises. -/
inductive HoldExit where
  | returned
  | raised (e : Fault) (note : Option Fault)
  deriving DecidableEq

/-- The end of the `finally` of `hold`: an error of the release is raised if there is no other, else noted. -/
def HoldExit.verdict (primaryError releaseError : Option Fault) : HoldExit :=
  match primaryError, releaseError with
  | some e, note => .raised e note
  | none, some e => .raised e none
  | none, none => .returned

/-- Where the owning task is. Two readings of the clock go with a fenced operation: when it began and when it ended. -/
inductive OwnerAt where
  | acquiring (reading : Instant)
  | acquired (result : Except Fault WorkspaceLease)
  | body
  /-- `run_fenced`, waiting for its transaction -/
  | entering (ttlSeconds : Int)
  | operating (ttlSeconds : Int) (began : Instant)
  | renewing (ttlSeconds : Int) (began ended : Instant)
  | renewed (result : Except Fault WorkspaceLease)
  /-- `assert_valid` after the body -/
  | checking
  /-- `await heartbeat` -/
  | joining (bodyError : Option Fault)
  | releasing (primaryError : Option Fault) (reading : Instant)
  | released (primaryError releaseError : Option Fault)
  | exited (exit : HoldExit)
  deriving DecidableEq

/-- The write lock of the database is held by a fenced operation. -/
def OwnerAt.locked : OwnerAt → Bool
  | .operating _ _ | .renewing _ _ _ => true
  | _ => false

/-- The event loop is kept by the operation. -/
def OwnerAt.busy : OwnerAt → Bool
  | .operating _ _ => true
  | _ => false

/-- The transaction of the release is over. -/
def OwnerAt.past : OwnerAt → Bool
  | .released _ _ | .exited _ => true
  | _ => false

/-- Where the heartbeat task is. -/
inductive HeartbeatAt where
  | stopped
  | sleeping
  | beating (lease : WorkspaceLease) (reading : Instant)
  | beaten (result : Except Fault WorkspaceLease)

def HeartbeatAt.isStopped : HeartbeatAt → Bool
  | .stopped => true
  | _ => false

/-- The database, the lease that is held in it, and a record of what happened: no step depends on the last three fields. -/
structure Leased where
  db : Db
  now : Instant
  held : Option HeldWorkspaceLease
  /-- The fencing token that was acquired. -/
  token : Option Nat
  /-- Somebody cancelled the owning task. -/
  cancelled : Bool
  /-- The lease was refused to one of the two tasks, outside a fenced operation, or taken over before its release. -/
  lost : Bool

/-- What the two tasks share. -/
structure HoldShared extends Leased where
  beat : HeartbeatAt
  /-- The owning task has been cancelled and has not yet raised it. -/
  interrupt : Bool
  beatInterrupt : Bool

structure HoldState extends HoldShared where
  owner : OwnerAt

inductive HoldEvent where
  /-- Time passes. -/
  | wait (t : Instant)
  /-- A call of another owner commits. -/
  | other (call : WorkspaceLeaseRepository.Call)
  /-- The owning task is cancelled from outside. -/
  | cancel
  /-- The transaction that the owning task waits for. -/
  | transact
  /-- It fails for another reason, such as a database that stays locked. -/
  | fails (e : Fault)
  /-- The owning task runs on after an await. -/
  | resume
  /-- The body calls `run_fenced`. -/
  | fence (sessionId : String) (ttlSeconds : Int)
  /-- The operation returns or raises. -/
  | operated (returns : Bool)
  /-- The body returns. -/
  | leave
  /-- The body raises an error of its own. -/
  | throw (e : Fault)
  /-- The heartbeat wakes up. -/
  | wake
  /-- Its transaction. -/
  | beat
  | beatFails (e : Fault)
  /-- The heartbeat task runs on after an await. -/
  | beatResume

/-- A step of the heartbeat task. -/
def HoldEvent.ofHeartbeat : HoldEvent → Bool
  | .wake | .beat | .beatFails _ | .beatResume => true
  | _ => false

/-- The error of a transaction. -/
def raisedBy {α : Type} : Except StorageError α → Option Fault
  | .ok _ => none
  | .error e => some (.storage e)

def heartbeatFailed : Fault := .leaseLost "workspace lease heartbeat failed"

namespace Leased

/-- `assert_healthy` does not raise. -/
def healthy (s : Leased) : Bool := s.held.all (·.heartbeatError.isNone)

/-- A larger token is stored. -/
def superseded (key : String) (s : Leased) : Bool :=
  match s.token, s.db.fileLocks.get? key with
  | some tok, some row => tok < row.fencingToken
  | _, _ => false

end Leased

namespace HoldState

/-! ## The owning task -/

/-- The `finally` of `hold` after the heartbeat, up to the release. -/
def settle (bodyError : Option Fault) (s : HoldState) : HoldState :=
  let lateError := if bodyError.isNone && !s.healthy then some heartbeatFailed else none
  { s with owner := .releasing (bodyError <|> lateError) s.now }

/-- The `finally` of `hold`: a heartbeat that has ended is not waited for. -/
def finish (bodyError : Option Fault) (s : HoldState) : HoldState :=
  if s.beat.isStopped then s.settle bodyError
  else { s with beatInterrupt := true, owner := .joining bodyError }

/-- The `except` clauses of `hold`. -/
def unwind (e : Fault) (s : HoldState) : HoldState :=
  s.finish (some (if e = .cancelled ∧ s.healthy = false then heartbeatFailed else e))

/-- `run_fenced` raises into the body. -/
def raiseIn (e : Fault) (s : HoldState) : HoldState := if e.isLeaseLost then s.unwind e else { s with owner := .body }

def exit (primaryError releaseError : Option Fault) (s : HoldState) : HoldState :=
  { s with owner := .exited (.verdict primaryError releaseError) }

variable (request : HoldRequest)

/-- The transaction that the owning task waits for. -/
def transact (s : HoldState) : Option HoldState :=
  match s.owner, s.held with
  | .acquiring reading, _ =>
    let (result, db) := Tx.commit (WorkspaceLeaseRepository.acquire request.key request.ownerKind
      request.ownerOperationId request.ownerProcessId request.ttlSeconds reading) s.db
    some { s with db, token := result.toOption.map (·.fencingToken), owner := .acquired (result.mapError .storage) }
  | .entering ttl, some held =>
    match (WorkspaceLeaseRepository.assertValidIn held.lease s.now).run s.db with
    | .ok _ => some { s with owner := .operating ttl s.now }
    | .error e => some ({ s with lost := true }.raiseIn (.storage e))
  | .renewing ttl began ended, some held =>
    let (result, db) := Tx.commit (WorkspaceLeaseRepository.runFenced held.lease (.ok ()) ttl began ended) s.db
    some { s with db, owner := .renewed ((result.map Prod.snd).mapError .storage) }
  | .checking, some held =>
    match (WorkspaceLeaseRepository.assertValidIn held.lease s.now).run s.db with
    | .ok _ => some (s.finish none)
    | .error e => some ({ s with lost := true }.unwind (.storage e))
  | .releasing primaryError reading, some held =>
    let (result, db) := Tx.commit (WorkspaceLeaseRepository.release held.lease reading) s.db
    some { s with db, lost := s.lost || !result.isOk, owner := .released primaryError (raisedBy result) }
  | _, _ => none

/-- It fails instead. -/
def fails (e : Fault) (s : HoldState) : Option HoldState :=
  match s.owner with
  | .acquiring _ => some { s with owner := .acquired (.error e) }
  | .entering _ => some (s.raiseIn e)
  | .renewing _ _ _ => some { s with owner := .renewed (.error e) }
  | .checking => some (s.unwind e)
  | .releasing primaryError _ => some { s with owner := .released primaryError (some e) }
  | _ => none

/-- The owning task is cancelled where it waits. `hold` suppresses that while it waits for the heartbeat. -/
def interrupted (s : HoldState) : Option HoldState :=
  match s.owner with
  | .acquiring _ | .acquired _ => some (s.exit (some .cancelled) none)
  | .body | .entering _ | .renewing _ _ _ | .renewed _ | .checking => some (s.unwind .cancelled)
  | .joining bodyError => if s.beat.isStopped then some (s.settle bodyError) else none
  | .releasing primaryError _ | .released primaryError _ => some (s.exit primaryError (some .cancelled))
  | .operating _ _ | .exited _ => none

/-- The owning task goes on after an await. -/
def proceed (s : HoldState) : Option HoldState :=
  match s.owner, s.held with
  | .acquired (.ok lease), _ => some { s with held := some ⟨lease, none⟩, beat := .sleeping, owner := .body }
  | .acquired (.error e), _ => some (s.exit (some e) none)
  | .renewed (.ok lease), some held =>
    if s.healthy then some { s with held := some { held with lease }, owner := .body }
    else some ({ s with held := some { held with lease } }.unwind heartbeatFailed)
  | .renewed (.error e), _ => some (s.raiseIn e)
  | .joining bodyError, _ => if s.beat.isStopped then some (s.settle bodyError) else none
  | .released primaryError releaseError, _ => some (s.exit primaryError releaseError)
  | _, _ => none

/-- `run_fenced` up to its transaction. -/
def fence (sessionId : String) (ttl : Int) (s : HoldState) : Option HoldState :=
  match s.owner, s.held with
  | .body, some held =>
    if !s.healthy then some (s.unwind heartbeatFailed)
    else if isEntityId sessionId ∧ held.lease.resourceKey = integrationResource sessionId then
      some { s with owner := .entering ttl }
    else some s
  | _, _ => none

/-- What follows the `yield` of `hold`, up to the transaction of `assert_valid`. -/
def leave (s : HoldState) : Option HoldState :=
  match s.owner, s.held with
  | .body, some held =>
    if !s.healthy then some (s.unwind heartbeatFailed)
    else if held.lease.resourceKey = request.key then some { s with owner := .checking }
    else some (s.unwind (.valueError "workspace lease does not belong to the requested session"))
  | _, _ => none

/-- The operation inside `run_fenced` is over. -/
def operated (returns : Bool) (s : HoldState) : Option HoldState :=
  match s.owner with
  | .operating ttl began => some { s with owner := if returns then .renewing ttl began s.now else .body }
  | _ => none

/-! ## The heartbeat task -/

def wake (s : HoldState) : Option HoldState :=
  match s.beat, s.held with
  | .sleeping, some held => some { s with beat := .beating held.lease s.now }
  | _, _ => none

/-- The transaction of the heartbeat. -/
def beats (s : HoldState) : Option HoldState :=
  match s.beat with
  | .beating lease reading =>
    let (result, db) := Tx.commit (WorkspaceLeaseRepository.heartbeat lease request.ttlSeconds reading) s.db
    some { s with db, lost := s.lost || (raisedBy result).any Fault.isLeaseLost, beat := .beaten (result.mapError .storage) }
  | _ => none

def beatFails (e : Fault) (s : HoldState) : Option HoldState :=
  match s.beat with
  | .beating _ _ => some { s with beat := .beaten (.error e) }
  | _ => none

/-- After its await the heartbeat renews `held` or, on an error, cancels the owning task. -/
def beatResume (s : HoldState) : Option HoldState :=
  match s.beat, s.held with
  | .stopped, _ => none
  | .beaten (.ok lease), some held =>
    if s.beatInterrupt then some { s with beat := .stopped }
    else some { s with held := some { held with lease }, beat := .sleeping }
  | .beaten (.error e), some held =>
    if s.beatInterrupt then some { s with beat := .stopped }
    else some { s with held := some { held with heartbeatError := some e }, interrupt := true, beat := .stopped }
  | _, _ => if s.beatInterrupt then some { s with beat := .stopped } else none

/-! ## The system -/

/-- A step of the two tasks and of what surrounds them. -/
def step : HoldEvent → HoldState → Option HoldState
  | .wait t, s => if s.now ≤ t then some { s with now := t } else none
  | .other call, s =>
    if s.owner.locked = false ∧ call.actor ≠ request.owner ∧ WorkspaceLeaseRepository.repo.last call ≤ s.now then
      let db := (Tx.commit (WorkspaceLeaseRepository.repo.exec call) s.db).2
      some { s with db, lost := s.lost || (!s.owner.past && { s.toLeased with db }.superseded request.key) }
    else none
  | .cancel, s =>
    match s.owner with
    | .operating _ _ | .exited _ => none
    | _ => some { s with interrupt := true, cancelled := true }
  | .transact, s => if s.interrupt then none else s.transact request
  | .fails e, s => if s.interrupt || !e.isOther then none else s.fails e
  | .resume, s => if s.interrupt then { s with interrupt := false }.interrupted else s.proceed
  | .fence sessionId ttl, s => if s.interrupt then none else s.fence sessionId ttl
  | .operated returns, s => s.operated returns
  | .leave, s => if s.interrupt then none else s.leave request
  | .throw e, s =>
    match s.owner with
    | .body => if s.interrupt || !e.isOther then none else some (s.unwind e)
    | _ => none
  | .wake, s => if s.owner.busy || s.beatInterrupt then none else s.wake
  | .beat, s => if s.owner.locked || s.beatInterrupt then none else s.beats request
  | .beatFails e, s => if s.owner.busy || s.beatInterrupt || !e.isOther then none else s.beatFails e
  | .beatResume, s => if s.owner.busy then none else s.beatResume

end HoldState

/-- `hold` up to its first await. -/
def HoldRequest.start (request : HoldRequest) (db : Db) (now : Instant) : Except Fault HoldState :=
  let interval := request.heartbeatSeconds.getD (max 1 (request.ttlSeconds / 3))
  if interval ≤ 0 ∨ (request.ttlSeconds : Rat) ≤ interval then
    .error (.valueError "heartbeat_seconds must be positive and less than ttl_seconds")
  else if ¬ isEntityId request.sessionId then .error (.host ⟨.validation, "session_id"⟩)
  else if ¬ isEntityId request.ownerOperationId then .error (.host ⟨.validation, "owner_operation_id"⟩)
  else .ok ⟨⟨⟨db, now, none, none, false, false⟩, .stopped, false, false⟩, .acquiring now⟩

end AgentHub.Workspace
