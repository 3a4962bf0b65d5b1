import AgentHub.Storage.Runs.Cancel
import AgentHub.Storage.Runs.Merge
import AgentHub.Storage.Runs.Privilege
import AgentHub.Storage.Runs.Schedule
/-!
# Calls on the repository

Every modelled operation of the workflow-run repository as one kind of call, and `RunStep`, what any of
them can do to one run. A call is a sequence of `RunStep`s of each run; the guards of a step are the checks
the operation makes in its own transaction.
-/

namespace AgentHub

open Lib WorkflowRunRepository

inductive RunCall where
  | startAndReconcile (workflowRunId : String)
  | claimNext (workflowRunId : String)
  | completeNode (nodeRunId : String) (target : NodeRunStatus) (outcome : NodeOutcome) (summary : String)
      (outputArtifactId errorCode : Option String)
  | createAndStartTask (taskId nodeRunId agentId baseCommit policyId : String)
  | enterWaitingApproval (nodeRunId approvalId : String)
  | resumeAfterApproval (workflowRunId nodeRunId : String) (approved : Bool)
  | resumeAfterApprovalIn (workflowRunId nodeRunId : String) (approved : Bool)
  | preparePrivilegeRetry (workflowRunId nodeRunId approvalId : String) (workspaceLease : WorkspaceLease)
  | approvePrivilegeIn (workflowRunId nodeRunId approvalId : String)
  | resumePrivilegeAfterApprovalIn (workflowRunId nodeRunId : String) (approved : Bool)
  | activateCapabilityTargetIn (targetTaskId : String)
  | beginMergeFinalizing (workflowRunId : String) (workspaceLease : WorkspaceLease)
  | clearMergeFinalizing (workflowRunId : String) (workspaceLease : WorkspaceLease)
  | finalizeMerge (nodeRunId changeSetId newCommit : String) (workspaceLease : WorkspaceLease) (summary : String)
  | attachCompletedNodeArtifact (nodeRunId artifactId : String)
  | requestCancel (workflowRunId : String)
  | completeCancel (workflowRunId : String)
  | cancelWithCleanup (workflowRunId reason : String)
  | markOrphaned (workflowRunId reason : String) (nodeRunId : Option String)

/-- An operation whose record is not a node run. -/
def Op.ignore {α : Type} (x : Op α) : Op (Option NodeRunRow) := do
  let _ ← x
  return none

/-- The operation of a call, with the node run it hands back. -/
def RunCall.op (H : Digests) (ord : RowOrder) (lease : MasterLease) (now : Instant) : RunCall → Op (Option NodeRunRow)
  | .startAndReconcile rid => (WorkflowRunRepository.startAndReconcile H ord rid lease now).ignore
  | .claimNext rid => WorkflowRunRepository.claimNext H ord rid lease now
  | .completeNode id target outcome summary artifact error =>
    WorkflowRunRepository.completeNode H id target outcome summary lease artifact error now
  | .createAndStartTask taskId id agentId base policyId =>
    (WorkflowRunRepository.createAndStartTask taskId id agentId base policyId lease now).ignore
  | .enterWaitingApproval id approvalId => WorkflowRunRepository.enterWaitingApproval ord id approvalId lease now
  | .resumeAfterApproval rid id approved => WorkflowRunRepository.resumeAfterApproval ord rid id approved lease now
  | .resumeAfterApprovalIn rid id approved => WorkflowRunRepository.resumeAfterApprovalIn ord rid id approved lease now
  | .preparePrivilegeRetry rid id approvalId ws =>
    (WorkflowRunRepository.preparePrivilegeRetry H rid id approvalId lease ws now).ignore
  | .approvePrivilegeIn rid id approvalId => (WorkflowRunRepository.approvePrivilegeIn H rid id approvalId now).ignore
  | .resumePrivilegeAfterApprovalIn rid id approved =>
    (WorkflowRunRepository.resumePrivilegeAfterApprovalIn H rid id approved lease now).ignore
  | .activateCapabilityTargetIn taskId => (WorkflowRunRepository.activateCapabilityTargetIn taskId lease now).ignore
  | .beginMergeFinalizing rid ws => (WorkflowRunRepository.beginMergeFinalizing rid ws lease now).ignore
  | .clearMergeFinalizing rid ws => (WorkflowRunRepository.clearMergeFinalizing rid ws lease now).ignore
  | .finalizeMerge id changeSetId commit ws summary =>
    WorkflowRunRepository.finalizeMerge ord id changeSetId commit ws lease summary now
  | .attachCompletedNodeArtifact id artifactId =>
    WorkflowRunRepository.attachCompletedNodeArtifact id artifactId lease now
  | .requestCancel rid => (WorkflowRunRepository.requestCancel H rid lease now).ignore
  | .completeCancel rid => (WorkflowRunRepository.completeCancel H ord rid lease now).ignore
  | .cancelWithCleanup rid reason => (WorkflowRunRepository.cancelWithCleanup H ord rid lease reason now).ignore
  | .markOrphaned rid reason only => (WorkflowRunRepository.markOrphaned H ord rid lease reason only now).ignore

/-- A call as it is made: by which master, when, and the order its unordered queries come in. -/
structure Invocation where
  call : RunCall
  ord : RowOrder
  lease : MasterLease
  now : Instant

/-- Commit or roll back the call. -/
def Invocation.commit (H : Digests) (i : Invocation) (db : Db) : Except StorageError (Option NodeRunRow) × Db :=
  Tx.commit (i.call.op H i.ord i.lease i.now) db

/-- One committed call. -/
def CallStep (H : Digests) (db db' : Db) : Prop := ∃ i : Invocation, db' = (i.commit H db).2

/-- The database after a list of calls. -/
def serve (H : Digests) (calls : List Invocation) (db : Db) : Db := calls.foldl (fun db i => (i.commit H db).2) db

theorem serve_reaches (H : Digests) (calls : List Invocation) (db : Db) :
    Relation.ReflTransGen (CallStep H) db (serve H calls db) := by
  induction calls generalizing db with
  | nil => exact .refl
  | cons i calls ih => exact .head ⟨i, rfl⟩ (ih _)

/-! ## What a call can do to one run -/

/-- Rewrite every node run. -/
def RunState.mapRows (s : RunState) (f : NodeRunRow → NodeRunRow) : RunState := { s with rows := s.rows.map f }

/-- End every live node run. -/
def NodeRunRow.cancelled (now : Instant) (r : NodeRunRow) : NodeRunRow :=
  if r.status.isLive then
    { r with status := .cancelled, outcome := some .cancelled, errorCode := some "workflow_cancelled",
             finishedAt := some (utcNowText now) }
  else r

/-- Quarantine a node run that is running or waiting, when it is the one named. -/
def NodeRunRow.orphaned (reason : String) (only : Option String) (now : Instant) (r : NodeRunRow) : NodeRunRow :=
  if (only = none ∨ only = some r.id) ∧ r.status ∈ [.running, .waitingApproval] then
    { r with status := .orphaned, errorCode := some (String.ofList (reason.toList.take 200)),
             finishedAt := some (r.finishedAt.getD (utcNowText now)) }
  else r

/-- A step of any repository operation on a run. -/
inductive RunStep (s : RunState) : RunState → Prop
  | sched {s' : RunState} (h : SchedStep s s') : RunStep s s'
  | insertRetry (r t : NodeRunRow) (hr : r ∈ s.rows) (hwaiting : r.status = .waitingApproval)
      (hrun : s.run.status = .waitingApproval) (hcancel : s.run.cancelRequestedAt = none) (hfirst : r.attempt < 2)
      (hlast : ∀ r' ∈ s.rows, r'.nodeId = r.nodeId → r'.attempt ≤ r.attempt)
      (hnode : t.nodeId = r.nodeId ∧ t.nodeType = r.nodeType ∧ t.attempt = r.attempt + 1)
      (hpending : t.status = .pending ∧ t.outcome = none) : RunStep s { s with rows := s.rows ++ [t] }
  | supersede (r : NodeRunRow) (now : Instant) (hr : r ∈ s.rows) (hwaiting : r.status = .waitingApproval)
      (hrun : s.run.status = .waitingApproval) (hcancel : s.run.cancelRequestedAt = none)
      (hlater : ∃ r' ∈ s.rows, r'.nodeId = r.nodeId ∧ r.attempt < r'.attempt) :
      RunStep s (s.setRow r.id fun r => { r with
        status := .superseded, outcome := some .cancelled, errorCode := some "privilege_retry_approved",
        finishedAt := some (utcNowText now) })
  | activate (r : NodeRunRow) (hr : r ∈ s.rows) (hpending : r.status = .pending)
      (hcancel : s.run.cancelRequestedAt = none) :
      RunStep s (s.setRow r.id fun r => { r with status := .ready, errorCode := none })
  | wake (hrun : s.run.status = .waitingApproval) (hcancel : s.run.cancelRequestedAt = none) :
      RunStep s { s with run := { s.run with status := .running } }
  | beginMerge (r : NodeRunRow) (now : Instant) (hr : r ∈ s.rows) (hmerge : r.nodeType = .mergePatch)
      (hrunning : r.status = .running) (hrun : s.run.status = .running) (hcancel : s.run.cancelRequestedAt = none)
      (hidle : s.run.mergeFinalizingAt = none) :
      RunStep s { s with run := { s.run with mergeFinalizingAt := some (utcNowText now) } }
  | clearMerge : RunStep s { s with run := { s.run with mergeFinalizingAt := none } }
  | advance (commit : String) (hrun : s.run.status = .running) (hcancel : s.run.cancelRequestedAt = none)
      (hmerging : s.run.mergeFinalizingAt ≠ none) :
      RunStep s { s with run := { s.run with currentCommit := commit, mergeFinalizingAt := none } }
  | attach (r : NodeRunRow) (artifactId : String) (hr : r ∈ s.rows) (hdone : r.status = .completed) :
      RunStep s (s.setRow r.id fun r => { r with outputArtifactId := some artifactId })
  | mark (now : Instant) (hcancel : s.run.cancelRequestedAt = none) (hidle : s.run.mergeFinalizingAt = none) :
      RunStep s { s with run := { s.run with cancelRequestedAt := some (utcNowText now) } }
  | cancel (now : Instant) (hrun : s.run.status.isTerminal = false) (hidle : s.run.mergeFinalizingAt = none) :
      RunStep s { s.mapRows (NodeRunRow.cancelled now) with
        run := { s.run with status := .cancelled, finishedAt := some (utcNowText now) } }
  | orphan (reason : String) (only finishedAt : Option String) (now : Instant)
      (hrun : s.run.status.isTerminal = false ∨ s.run.status = .orphaned) :
      RunStep s { s.mapRows (NodeRunRow.orphaned reason only now) with
        run := { s.run with status := .orphaned, finishedAt := finishedAt } }

/-- A run's state moved by steps of the repository. -/
abbrev RunSteps (s s' : RunState) : Prop := Relation.ReflTransGen RunStep s s'

/-- The operation is a sequence of steps of each run. -/
def Refines (db db' : Db) : Prop :=
  ∀ rid s, db.runState rid = some s → ∃ s', db'.runState rid = some s' ∧ RunSteps s s'

theorem Refines.refl (db : Db) : Refines db db := fun _ s hs => ⟨s, hs, .refl⟩

theorem Refines.trans {a b c : Db} (h : Refines a b) (h' : Refines b c) : Refines a c := by
  intro rid s hs
  obtain ⟨s', hs', h1⟩ := h rid s hs
  obtain ⟨s'', hs'', h2⟩ := h' rid s' hs'
  exact ⟨s'', hs'', h1.trans h2⟩

theorem Refines.of_eq {db db' : Db} (h : ∀ rid, db'.runState rid = db.runState rid) : Refines db db' :=
  fun rid s hs => ⟨s, (h rid).trans hs, .refl⟩

theorem Schedules.refines {db db' : Db} (h : Schedules db db') : Refines db db' := by
  intro rid s hs
  obtain ⟨s', hs', hsteps⟩ := h.steps rid s hs
  exact ⟨s', hs', Relation.ReflTransGen.mono (fun _ _ => .sched) _ _ hsteps⟩

/-- A change to one run that is a sequence of its steps. -/
theorem Refines.of_run {k : String} {db db' : Db} (hothers : ∀ rid, rid ≠ k → db'.runState rid = db.runState rid)
    (hsteps : ∀ s, db.runState k = some s → ∃ s', db'.runState k = some s' ∧ RunSteps s s') : Refines db db' := by
  intro rid s hs
  by_cases hid : rid = k
  · subst hid; exact hsteps s hs
  · exact ⟨s, (hothers rid hid).trans hs, .refl⟩

end AgentHub
