import Mathlib.Data.List.Basic
/-!
# The CLI runner

`CliAgentRunner.run` from the moment its two pumps exist, as a step system: the pumps, the helper tasks, the
child process and the body of `run` move one await at a time, in any order. Whatever returns before the pumps
are created has read no byte. The events a run emits are left to the assemblers, which come here as the bytes
they are fed.
-/

namespace AgentHub

inductive CliRunErrorCode where
  | ok | exitNonZero | timedOut | cancelled | orphanedDescendants | spawnFailed | identityDrift
  | outputLimitExceeded | processIsolation
  deriving DecidableEq, Repr

/-- `_OutputBudget`: one byte budget that both streams share. -/
structure OutputBudget where
  limit : Nat
  used : Nat := 0
  truncated : Nat := 0
  exceeded : Bool := false
  deriving DecidableEq, Repr

def OutputBudget.consume (b : OutputBudget) (size : Nat) : OutputBudget :=
  let used := b.used + size
  if b.exceeded then { b with used := used, truncated := b.truncated + size }
  else if b.limit < used then
    { b with used := used, truncated := b.truncated + (used - b.limit), exceeded := true }
  else { b with used := used }

structure CliRunResult where
  errorCode : CliRunErrorCode
  exitCode : Option Int := none
  timedOut : Bool := false
  cancelled : Bool := false
  exited : Bool := false
  truncatedOutputBytes : Nat := 0
  deriving DecidableEq, Repr

/-- `_check_invariants`: a result that fails it cannot be built. -/
def CliRunResult.check (r : CliRunResult) : Bool :=
  let flags := r.timedOut.toNat + r.cancelled.toNat + r.exited.toNat
  flags ≤ 1 && match r.errorCode with
    | .ok => r.exited && r.exitCode = some 0
    | .exitNonZero => r.exited && decide (r.exitCode ∉ [none, some 0])
    | .timedOut => r.timedOut && !r.exited && !r.cancelled
    | .cancelled => r.cancelled && !r.exited && !r.timedOut
    | .orphanedDescendants | .outputLimitExceeded => r.exited && r.exitCode.isSome
    | .spawnFailed | .identityDrift | .processIsolation => flags = 0 && r.exitCode.isNone

namespace CliAgentRunner

/-! ## State -/

def readChunk : Nat := 8192

inductive Stream where
  | stdout | stderr
  deriving DecidableEq, Repr

inductive PumpStatus where
  | reading | returned | cancelled
  deriving DecidableEq, Repr

/-- One `_pump`: what its reader gave it and what it gave its assembler. -/
structure Pump where
  status : PumpStatus := .reading
  delivered : List UInt8 := []
  fed : List UInt8 := []
  deriving DecidableEq, Repr

/-- The await the body of `run` is at. -/
inductive Phase where
  /-- Windows only: the child is still suspended. -/
  | launching
  /-- Reaping before an early return. -/
  | refusing (code : CliRunErrorCode)
  /-- The first wait: exit, cancel, limit or timeout. -/
  | waiting
  /-- The limit was seen: reaping, then waiting for the return code. -/
  | reapingLimit
  | collecting
  /-- Timed out or cancelled: reaping. -/
  | reaping
  /-- The readers were told to stop. -/
  | stoppingReaders
  /-- The process exited: draining its pipes for a bounded time. -/
  | draining
  /-- The drain timed out: looking for survivors, reaping them. -/
  | probingPending
  | reapingPending
  | gathering
  /-- Flushed: looking for survivors again, reaping them. -/
  | probing
  | reapingSurvivors
  /-- The caller cancelled `run` itself. -/
  | unwinding
  /-- Returned a result, or raised because it could not be built. -/
  | ended (result : Option CliRunResult)
  deriving DecidableEq, Repr

structure Runner where
  budget : OutputBudget
  limitHit : Bool := false
  stdout : Pump := {}
  stderr : Pump := {}
  returncode : Option Int := none
  cancelEvent : Bool := false
  /-- `wait_task`, `limit_task` and `cancel_task` are done. -/
  waitDone : Bool := false
  limitDone : Bool := false
  cancelDone : Bool := false
  timedOut : Bool := false
  cancelled : Bool := false
  orphaned : Bool := false
  exitCode : Option Int := none
  errorCode : CliRunErrorCode := .ok
  /-- What the assemblers had been fed when they were flushed. -/
  flushed : Option (List UInt8 × List UInt8) := none
  phase : Phase
  deriving DecidableEq, Repr

def start (limit : Nat) (windows : Bool) : Runner where
  budget := ⟨limit, 0, 0, false⟩
  phase := if windows then .launching else .waiting

def Runner.pump (s : Runner) : Stream → Pump
  | .stdout => s.stdout | .stderr => s.stderr

def Runner.setPump (s : Runner) (stream : Stream) (p : Pump) : Runner :=
  match stream with
  | .stdout => { s with stdout := p }
  | .stderr => { s with stderr := p }

/-! ## Events -/

/-- How the launch of a suspended child ends. -/
inductive Launch where
  | resumed | cancelled | drift | isolation
  deriving DecidableEq, Repr

/-- What the first wait woke up to. -/
inductive Wake where
  | cancel | limit | exit | timeout
  deriving DecidableEq, Repr

inductive Event where
  /-- A read of a pump returned a chunk, or the end of its stream. -/
  | chunk (stream : Stream) (bytes : List UInt8)
  | eof (stream : Stream)
  /-- The child exited; `cancel` was called. -/
  | exited (code : Int)
  | cancel
  /-- A helper task finished. -/
  | waitTask | limitTask | cancelTask
  /-- The caller cancelled the task that awaits `run`. -/
  | interrupt
  /-- An await of the body of `run` returned. -/
  | launched (launch : Launch)
  | woke (wake : Wake)
  | reaped | collected | drained | drainTimeout
  | survivors (found : Bool)
  | gathered
  deriving DecidableEq, Repr

/-! ## Steps -/

/-- Nothing comes out of a child that was not resumed, and nothing is read after the end. -/
def Phase.reads : Phase → Bool
  | .launching | .refusing _ | .ended _ => false
  | _ => true

/-- `_pump` on a chunk: the chunk that goes over the limit is not fed, and the pump returns. -/
def Runner.receive (s : Runner) (stream : Stream) (bytes : List UInt8) : Runner :=
  let p := s.pump stream
  let p := { p with delivered := p.delivered ++ bytes }
  let budget := s.budget.consume bytes.length
  if budget.exceeded then
    { s.setPump stream { p with status := .returned } with budget := budget, limitHit := true }
  else { s.setPump stream { p with fed := p.fed ++ bytes } with budget := budget }

/-- `_cancel_tasks` on the pumps. -/
def Pump.cancel (p : Pump) : Pump := if p.status = .reading then { p with status := .cancelled } else p

def Runner.cancelPumps (s : Runner) : Runner := { s with stdout := s.stdout.cancel, stderr := s.stderr.cancel }

def Runner.end (s : Runner) (r : CliRunResult) : Runner :=
  { s with phase := .ended (if r.check then some r else none) }

/-- `cancellation_result`. -/
def Runner.cancellationResult (s : Runner) : CliRunResult :=
  { errorCode := .cancelled, cancelled := true, truncatedOutputBytes := s.budget.truncated }

/-- `terminal`, and `cancellation_result` for a cancelled launch. -/
def Runner.refusal (s : Runner) (code : CliRunErrorCode) : CliRunResult :=
  if code = .cancelled then s.cancellationResult
  else { errorCode := code, truncatedOutputBytes := s.budget.truncated }

/-- The run was stopped, not drained. -/
def Runner.stopped (s : Runner) : Bool := s.timedOut || s.cancelled || decide (s.errorCode = .outputLimitExceeded)

def Runner.finalCode (s : Runner) : CliRunErrorCode :=
  if s.stopped then s.errorCode
  else if s.orphaned then .orphanedDescendants
  else if s.exitCode ∉ [none, some 0] then .exitNonZero
  else .ok

def Runner.result (s : Runner) : CliRunResult where
  errorCode := s.finalCode
  exitCode := if s.timedOut || s.cancelled then none else s.exitCode
  timedOut := s.timedOut
  cancelled := s.cancelled
  exited := !s.timedOut && !s.cancelled
  truncatedOutputBytes := s.budget.truncated

def Runner.flush (s : Runner) : Runner := { s with flushed := some (s.stdout.fed, s.stderr.fed) }

/-- What the first wait finds done; a cancel is looked at before a limit, a limit before the exit. -/
def Runner.wakesTo (s : Runner) : Wake → Bool
  | .cancel => s.cancelDone
  | .limit => !s.cancelDone && s.limitDone
  | .exit => !s.cancelDone && !s.limitDone && s.waitDone
  | .timeout => !s.cancelDone && !s.limitDone && !s.waitDone

def Runner.wake (s : Runner) : Wake → Runner
  | .cancel => { s with cancelled := true, errorCode := .cancelled, phase := .reaping }
  | .limit => { s with phase := .reapingLimit }
  | .exit => { s with exitCode := s.returncode, phase := .draining }
  | .timeout => { s with timedOut := true, errorCode := .timedOut, phase := .reaping }

def Runner.launch (s : Runner) : Launch → Option Runner
  | .resumed => some { s with phase := .waiting }
  | .cancelled => if s.cancelEvent then some { s with cancelled := true, phase := .refusing .cancelled } else none
  | .drift => some { s with phase := .refusing .identityDrift }
  | .isolation => some { s with phase := .refusing .processIsolation }

/-- A `CancelledError` at the await `run` is at. `_shielded_reap` swallows it. -/
def Runner.interrupt (s : Runner) : Option Runner :=
  match s.phase with
  | .waiting | .collecting => some { s with cancelled := true, errorCode := .cancelled, phase := .reaping }
  | .stoppingReaders | .draining | .probingPending | .gathering | .probing => some { s with phase := .unwinding }
  | .refusing _ | .reapingLimit | .reaping | .reapingPending | .reapingSurvivors | .unwinding => some s
  | .launching | .ended _ => none

/-- A reap finished. -/
def Runner.reap (s : Runner) : Option Runner :=
  match s.phase with
  | .refusing code => some (s.end (s.refusal code))
  | .reapingLimit => some { s with phase := .collecting }
  | .reaping => some { s.cancelPumps with phase := .stoppingReaders }
  | .reapingPending => some { s.cancelPumps with phase := .gathering }
  | .reapingSurvivors => some (s.end s.result)
  | .unwinding => some (s.end s.cancellationResult)
  | _ => none

/-- `_has_survivors` answered. -/
def Runner.survey (s : Runner) (found : Bool) : Option Runner :=
  match s.phase, found with
  | .probingPending, true => some { s with orphaned := true, phase := .reapingPending }
  | .probingPending, false => some { s.cancelPumps with phase := .gathering }
  | .probing, true => some { s with orphaned := true, phase := .reapingSurvivors }
  | .probing, false => some (s.end s.result)
  | _, _ => none

/-- All readers are done: flush, and return if the run was stopped. -/
def Runner.gather (s : Runner) : Option Runner :=
  match s.phase with
  | .stoppingReaders => some (s.flush.end s.result)
  | .gathering => some { s.flush with phase := .probing }
  | _ => none

def Runner.pumpsDone (s : Runner) : Bool := s.stdout.status ≠ .reading && s.stderr.status ≠ .reading

/-- One event; `none` where it cannot happen. -/
def step (s : Runner) : Event → Option Runner
  | .chunk stream bytes =>
    if s.phase.reads && (s.pump stream).status = .reading && 0 < bytes.length && bytes.length ≤ readChunk then
      some (s.receive stream bytes)
    else none
  | .eof stream =>
    if s.phase.reads && (s.pump stream).status = .reading then
      some (s.setPump stream { s.pump stream with status := .returned })
    else none
  | .exited code => if s.returncode.isNone then some { s with returncode := some code } else none
  | .cancel => some { s with cancelEvent := true }
  | .waitTask => if s.returncode.isSome then some { s with waitDone := true } else none
  | .limitTask => if s.limitHit then some { s with limitDone := true } else none
  | .cancelTask => if s.cancelEvent then some { s with cancelDone := true } else none
  | .interrupt => s.interrupt
  | .launched l => if s.phase = .launching then s.launch l else none
  | .woke w => if s.phase = .waiting && s.wakesTo w then some (s.wake w) else none
  | .reaped => s.reap
  | .collected =>
    if s.phase = .collecting then
      some { s.cancelPumps with exitCode := s.returncode, errorCode := .outputLimitExceeded, phase := .stoppingReaders }
    else none
  | .drained => if s.phase = .draining && s.pumpsDone then some { s with phase := .gathering } else none
  | .drainTimeout => if s.phase = .draining && !s.pumpsDone then some { s with phase := .probingPending } else none
  | .survivors found => s.survey found
  | .gathered => s.gather

/-- A schedule: the events in the order they happened. -/
def run (s : Runner) : List Event → Option Runner
  | [] => some s
  | e :: es => (step s e).bind fun s => run s es

end CliAgentRunner

end AgentHub
