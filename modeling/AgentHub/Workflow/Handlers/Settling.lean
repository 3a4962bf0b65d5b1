import AgentHub.Workflow.Handlers.Contracts
import AgentHub.Workspace.Documented
/-!
# Where the handlers leave a ChangeSet

The command guard, the test and the risk classifier each demand one status of the ChangeSet and settle it by what they
return. One contract says so for all three: it is about any property of the world that their transition moves, so it holds
for the ChangeSet they work on and for one they do not.
-/

namespace AgentHub

open Lib Workspace Security CaptureStore

/-! ## The statuses -/

/-- The status that the handler of a node demands. -/
def entryStatus (node : WorkflowNode) : ChangeSetStatus :=
  if node.nodeType = .riskClassifier then .testPassed else .guardPassed

/-- The status that the handler of a node leaves with an outcome. -/
def settledStatus (graph : CompiledGraph) (node : WorkflowNode) (outcome : NodeOutcome) : ChangeSetStatus :=
  if node.nodeType = .riskClassifier then if outcome = .success then .testPassed else .policyRejected
  else if outcome ≠ .success then .testFailed
  else if node.nodeType = .test && (isLastTest graph node).toOption = some true then .testPassed
  else .guardPassed

/-- The handler of a node that works on a ChangeSet between its patch guard and its approval. -/
def TestNodeHandler.handle {W : Type} (S : TestNodeHandler W) (D : Digits) (context : NodeExecutionContext) :
    EStateM Fault W NodeHandlerResult :=
  match context.node.nodeType with
  | .commandGuard => CommandGuardNodeHandler.execute S.toChangeSetHandler D context
  | .test => S.execute context
  | .riskClassifier => RiskClassifierNodeHandler.execute S.toChangeSetHandler context
  | _ => throw (.valueError "node type has no handler here")

/-! ## The tests beside the database -/

/-- The calls of a test on its machine are nothing to the store. -/
structure TestNodeHandler.Documented {W : Type} (S : TestNodeHandler W) (store : W → CaptureStore)
    (T : CaptureStore → CaptureStore → Prop) : Prop extends S.toChangeSetHandler.Documented store T where
  process (root : Path) (args : List String) (input : Option Bytes) :
    Stays (Beside store T) (S.machine.process root args input)
  openRoot (root : Path) : Stays (Beside store T) (S.machine.openRoot root)
  closeRoot (root : Path) : Stays (Beside store T) (S.machine.closeRoot root)
  assertRootIdentity (root : Path) : Stays (Beside store T) (S.machine.assertRootIdentity root)
  openPolicy (root : Path) : Stays (Beside store T) (S.machine.openPolicy root)
  validateCleanupPath (root : Path) (path : String) : Stays (Beside store T) (S.machine.validateCleanupPath root path)
  replaceRegular (root : Path) (path : String) (content : Bytes) (mode : Nat) :
    Stays (Beside store T) (S.machine.replaceRegular root path content mode)
  createPrivateTemporaryDirectory (name : String) :
    Stays (Beside store T) (S.machine.createPrivateTemporaryDirectory name)
  removePrivateTemporaryDirectory (root : Path) : Stays (Beside store T) (S.machine.removePrivateTemporaryDirectory root)
  inspectSourceRepository (root : Path) (commit : String) :
    Stays (Beside store T) (S.machine.inspectSourceRepository root commit)
  createSessionRepository (source : SourceRepository) (root : Path) (id : String) :
    Stays (Beside store T) (S.machine.createSessionRepository source root id)
  makeDirectory (root : Path) : Stays (Beside store T) (S.machine.makeDirectory root)
  resolve (text : String) : Stays (Beside store T) (S.machine.resolve text)
  commitValidationBaseline (root : Path) : Stays (Beside store T) (S.machine.commitValidationBaseline root)
  workspaceTransaction (root : Path) (commit branch : String) (directory : Path) :
    Stays (Beside store T) (S.machine.workspaceTransaction root commit branch directory)
  validation {root : Path} {commit branch : String} {directory : Path} {w w' : W} {tx : ValidationTransaction W}
    (h : S.machine.workspaceTransaction root commit branch directory w = .ok tx w') :
    Stays (Beside store T) tx.begin ∧ Stays (Beside store T) tx.captureAndRestore ∧ Stays (Beside store T) tx.close
  runTest (argv : List String) (root directory : Path) : Stays (Beside store T) (S.machine.runTest argv root directory)

namespace TestNodeHandler

section
variable {W : Type} {S : TestNodeHandler W} {store : W → CaptureStore} {T : CaptureStore → CaptureStore → Prop}
  {context : NodeExecutionContext} [IsPreorder CaptureStore T]

theorem Documented.materialize_stays (hS : S.Documented store T) (root : Path) (preimages : List FilePreimage) (maxPaths : Nat) :
    Stays (Beside store T) (materializeWorkspacePreimages S.host S.machine.toMachine root preimages maxPaths true) := by
  refine .ite (.throw _) (.ite (.throw _) (.ite (.throw _) (.bind (hS.openRoot root) fun _ => .tryFinally ?_ (hS.closeRoot root))))
  refine .bind (hS.assertRootIdentity root) fun _ => .bind (hS.openPolicy root) fun _ => .forM fun preimage _ => ?_
  exact .ite (.throw _) (.bind (hS.validateCleanupPath _ _) fun _ => .reraise (hS.replaceRegular _ _ _ _))

theorem Documented.prepare_stays (hS : S.Documented store T) (record : ChangeSetRecord) (patch : Bytes)
    (preimages : List FilePreimage) (sharedRepo validationRepo : Path) (validationId : String) :
    Stays (Beside store T) (S.prepare record patch preimages sharedRepo validationRepo validationId) := by
  refine .bind LockManager.assertHealthy_stays fun _ => .bind (onHost_stays (hS.inspectSourceRepository _ _)) fun _ => ?_
  refine .bind (onHost_stays (hS.createSessionRepository _ _ _)) fun _ => ?_
  refine .bind (onHost_stays (hS.materialize_stays _ _ _)) fun _ => ?_
  refine .bind (onHost_stays (.bind (GitManager.run_stays (hS.process _ _ _)) fun _ => .pure _)) fun _ => ?_
  refine .bind (onHost_stays (.bind (GitManager.run_stays (hS.process _ _ _)) fun _ => .pure _)) fun _ => ?_
  exact onHost_stays (hS.commitValidationBaseline _)

theorem Documented.operate_stays (hS : S.Documented store T) (argv : List String) (validationRepo processRoot : Path)
    {tx : ValidationTransaction W} (hbegin : Stays (Beside store T) tx.begin)
    (hcapture : Stays (Beside store T) tx.captureAndRestore) :
    Stays (Beside store T) (S.operate argv validationRepo processRoot tx) := by
  refine .bind (onHost_stays hbegin) fun _ => .bind (hS.runTest _ _ _).outcome fun result => ?_
  refine .bind (onHost_stays hcapture).outcome fun verification => ?_
  cases verification with
  | error e => exact .ite (.pure _) (.throw _)
  | ok verification => exact .bind LockManager.assertHealthy_stays fun _ => .ite (.pure _) (.pure _)

theorem Documented.trial_stays (hS : S.Documented store T) (record : ChangeSetRecord) (argv : List String) (patch : Bytes)
    (preimages : List FilePreimage) (sharedRepo validationRoot operationRoot : Path) (validationId : String) :
    Stays (Beside store T)
      (S.trial record argv patch preimages sharedRepo validationRoot operationRoot validationId) := by
  have hremove := onHost_stays (hS.removePrivateTemporaryDirectory validationRoot)
  have hprepare := hS.prepare_stays record patch preimages sharedRepo (validationRoot ++ ["workspace", "repo"]) validationId
  intro w
  unfold trial
  rw [run_bind]
  unfold outcome
  split
  · next opened w₁ hopened =>
    split at hopened
    · next tx w₂ hrun =>
      obtain ⟨rfl, rfl⟩ := EStateM.Result.ok.inj hopened
      obtain ⟨baseline, w₃, hready, hconstructed⟩ := bind_eq_ok.1 hrun
      obtain ⟨hbegin, hcapture, hclose⟩ := hS.validation (onHost_ok hconstructed)
      have hbefore := trans_of (Beside store T) (hprepare.ok hready)
        ((onHost_stays (hS.workspaceTransaction _ _ _ _)).ok hconstructed)
      refine trans_of (Beside store T) hbefore (Stays.tryFinally ?_ ?_ w₂)
      · exact hS.operate_stays argv _ _ hbegin hcapture
      · exact .bind (onHost_stays hclose) fun _ => hremove
    · next e w₂ hrun =>
      obtain ⟨rfl, rfl⟩ := EStateM.Result.ok.inj hopened
      have hbefore := (Stays.bind hprepare fun _ => onHost_stays (hS.workspaceTransaction _ _ _ _)).error hrun
      exact trans_of (Beside store T) hbefore (Stays.tryFinally (.throw e) hremove w₂)
  · next e w₁ hopened => split at hopened <;> cases hopened

theorem Documented.underLease_stays (hS : S.Documented store T) (record : ChangeSetRecord) (argv : List String) (patch : Bytes)
    (preimages : List FilePreimage) : Stays (Beside store T) (S.underLease context record argv patch preimages) := by
  refine .bind (onHost_stays (hS.makeDirectory _)) fun _ => ?_
  refine .bind (onHost_stays (hS.createPrivateTemporaryDirectory _)) fun validationRoot => ?_
  refine .bind (onHost_stays (hS.resolve _)) fun sharedRepo => .ite ?_ ?_
  · exact .bind (onHost_stays (hS.removePrivateTemporaryDirectory _)) fun _ => .throw _
  · refine .bind (hS.trial_stays _ _ _ _ _ _ _ _) fun ended => ?_
    cases ended with
    | verdict result reasons => exact .pure _
    | ran result =>
      cases result with
      | ok result => exact .pure _
      | error e => exact .ite (.pure _) (.throw _)

variable {U : Db → Db → Prop} [IsPreorder Db U]

theorem Documented.evaluate_stays (hS : S.Documented store T)
    (hU : ∀ (s : CaptureStore) (db : Db), U s.db db → T s { s with db }) (hlocks : ∀ db t, U db (Db.fileLocksT.set db t))
    (record : ChangeSetRecord) : Stays (Beside store T) (S.evaluate context record) := by
  unfold evaluate
  split
  · exact .pure _
  · split
    · exact .pure _
    · refine .bind (hS.reading_stays _) fun p => .bind (hS.reading_stays _) fun preimages => ?_
      refine .bind (LockManager.hold_stays (hS.keeps hU hlocks) (hS.underLease_stays _ _ _ _) _) fun ended => ?_
      cases ended with
      | verdict result reasons => exact .pure _
      | ran result =>
        cases result with
        | ok result => exact .pure _
        | error e => exact .throw _
  · exact .pure _

end

end TestNodeHandler

/-! ## The contract -/

section
variable {W : Type} {store : W → CaptureStore} {T : CaptureStore → CaptureStore → Prop} {context : NodeExecutionContext}
  {after : ChangeSetStatus → W → Prop}

/-- What `after` says of a status is nothing that others touch, and it goes along with the ChangeSet that the handler reads
when the handler moves it. -/
structure ChangeSetHandler.Settles (S : ChangeSetHandler W) (store : W → CaptureStore)
    (T : CaptureStore → CaptureStore → Prop) (context : NodeExecutionContext) (after : ChangeSetStatus → W → Prop) : Prop where
  beside {status : ChangeSetStatus} {w w' : W} (h : after status w) (hT : T (store w) (store w')) : after status w'
  source (status : ChangeSetStatus) : Triple (after status) (S.source context)
    (fun p w => (∀ expected target reason severity, Triple (after expected)
      (S.transition context p.2.changeSet.changeSetId expected target reason severity) (fun _ => after target)
      fun _ w => after expected w ∨ after target w) ∧ after status w)
    fun _ => after status

/-- Where a handler that raised may leave the ChangeSet: where it was, or where its own transition takes it. -/
def Left (context : NodeExecutionContext) (after : ChangeSetStatus → W → Prop) (w : W) : Prop :=
  after (entryStatus context.node) w ∨
    ∃ outcome, after (settledStatus context.run.compiledSnapshot context.node outcome) w

theorem raising_triple {α : Type} {P : W → Prop} (x : Except Fault α) :
    Triple P (raising x) (fun a w => x = .ok a ∧ P w) fun _ => P := by
  intro w hP
  cases x with
  | ok a => exact ⟨rfl, hP⟩
  | error e => exact hP

section
variable {S : ChangeSetHandler W} (h : S.Settles store T context after)
include h

theorem ChangeSetHandler.Settles.calm {α : Type} {x : EStateM Fault W α} (hx : Stays (Beside store T) x) :
    Triple (after (entryStatus context.node)) x (fun _ => after (entryStatus context.node)) fun _ => Left context after :=
  (Triple.of_stays hx fun _ _ => h.beside).weaken (fun _ hw => hw) (fun _ _ hw => hw) fun _ _ hw => .inl hw

theorem ChangeSetHandler.Settles.read : Triple (after (entryStatus context.node)) (S.source context)
    (fun p w => (∀ target reason severity, Triple (after (entryStatus context.node))
      (S.transition context p.2.changeSet.changeSetId (entryStatus context.node) target reason severity)
      (fun _ => after target) fun _ w => after (entryStatus context.node) w ∨ after target w) ∧
      after (entryStatus context.node) w)
    fun _ => Left context after :=
  (h.source _).weaken (fun _ hw => hw) (fun _ _ hw => ⟨fun target => hw.1 _ target, hw.2⟩) fun _ _ hw => .inl hw

end

theorem commandGuard_triple {S : ChangeSetHandler W} {D : Digits} [IsPreorder CaptureStore T] (hS : S.Documented store T)
    (h : S.Settles store T context after) (htype : context.node.nodeType = .commandGuard) :
    Triple (after (entryStatus context.node)) (CommandGuardNodeHandler.execute S D context)
      (fun result => after (settledStatus context.run.compiledSnapshot context.node result.outcome))
      fun _ => Left context after := by
  have hentry : entryStatus context.node = .guardPassed := by simp [entryStatus, htype]
  have hpassed : settledStatus context.run.compiledSnapshot context.node .success = .guardPassed := by
    simp [settledStatus, htype]
  have hfailed : settledStatus context.run.compiledSnapshot context.node .blocked = .testFailed := by
    simp [settledStatus, htype]
  refine h.read.bind fun p => Triple.assume fun hmoves => (h.calm (ChangeSetHandler.raising_stays _)).bind fun test => ?_
  split
  · exact .throw fun _ hw => .inl hw
  · next approved reason _ =>
    refine .ite (fun _ => .throw fun _ hw => .inl hw) fun _ => (h.calm (hS.report_stays _ _ _)).bind fun ref => ?_
    cases approved with
    | some a =>
      refine .ite (fun _ => .throw fun _ hw => .inl hw) fun _ => .pure fun _ hw => ?_
      rwa [NodeHandlerResult.succeeded, hpassed, ← hentry]
    | none =>
      rw [hentry] at hmoves ⊢
      refine ((hmoves _ _ _).weaken (fun _ hw => hw) (fun _ _ hw => hw) fun _ _ hw => ?_).bind fun _ => .pure fun _ hw => ?_
      · rw [Left, hentry]
        exact hw.imp_right fun hw => ⟨.blocked, by rwa [hfailed]⟩
      · rwa [NodeHandlerResult.blocked, hfailed]

theorem test_triple {S : TestNodeHandler W} [IsPreorder CaptureStore T] {U : Db → Db → Prop} [IsPreorder Db U]
    (hS : S.Documented store T) (hU : ∀ (s : CaptureStore) (db : Db), U s.db db → T s { s with db })
    (hlocks : ∀ db t, U db (Db.fileLocksT.set db t)) (h : S.toChangeSetHandler.Settles store T context after)
    (htype : context.node.nodeType = .test) :
    Triple (after (entryStatus context.node)) (S.execute context)
      (fun result => after (settledStatus context.run.compiledSnapshot context.node result.outcome))
      fun _ => Left context after := by
  have hentry : entryStatus context.node = .guardPassed := by simp [entryStatus, htype]
  have hfailed : settledStatus context.run.compiledSnapshot context.node .failure = .testFailed := by
    simp [settledStatus, htype]
  refine h.read.bind fun p => Triple.assume fun hmoves => ?_
  refine .ite (fun _ => .throw fun _ hw => .inl hw) fun _ => (h.calm (hS.evaluate_stays hU hlocks _)).bind fun evaluated => ?_
  refine .ite (fun _ => .throw fun _ hw => .inl hw) fun _ => (h.calm (hS.report_stays _ _ _)).bind fun ref => ?_
  refine .ite (fun _ => ?_) fun _ => ?_
  · rw [hentry] at hmoves ⊢
    refine ((hmoves _ _ _).weaken (fun _ hw => hw) (fun _ _ hw => hw) fun _ _ hw => ?_).bind fun _ => .pure fun _ hw => ?_
    · rw [Left, hentry]
      exact hw.imp_right fun hw => ⟨.failure, by rwa [hfailed]⟩
    · rwa [NodeHandlerResult.failed, hfailed]
  · refine ((raising_triple _).weaken (fun _ hw => hw) (fun _ _ hw => hw) fun _ _ hw => .inl hw).bind fun last => ?_
    refine Triple.assume fun hlast => .ite (fun hyes => ?_) fun hno => .pure fun _ hw => ?_
    · have hpassed : settledStatus context.run.compiledSnapshot context.node .success = .testPassed := by
        simp [settledStatus, htype, hlast, hyes, Except.toOption]
      rw [hentry] at hmoves ⊢
      refine ((hmoves _ _ _).weaken (fun _ hw => hw) (fun _ _ hw => hw) fun _ _ hw => ?_).bind fun _ => .pure fun _ hw => ?_
      · rw [Left, hentry]
        exact hw.imp_right fun hw => ⟨.success, by rwa [hpassed]⟩
      · rwa [NodeHandlerResult.succeeded, hpassed]
    · have hpassed : settledStatus context.run.compiledSnapshot context.node .success = .guardPassed := by
        simp [settledStatus, htype, hlast, hno, Except.toOption]
      rwa [NodeHandlerResult.succeeded, hpassed, ← hentry]

theorem riskClassifier_triple {S : ChangeSetHandler W} [IsPreorder CaptureStore T] (hS : S.Documented store T)
    (h : S.Settles store T context after) (htype : context.node.nodeType = .riskClassifier) :
    Triple (after (entryStatus context.node)) (RiskClassifierNodeHandler.execute S context)
      (fun result => after (settledStatus context.run.compiledSnapshot context.node result.outcome))
      fun _ => Left context after := by
  have hentry : entryStatus context.node = .testPassed := by simp [entryStatus, htype]
  have hpassed : settledStatus context.run.compiledSnapshot context.node .success = .testPassed := by
    simp [settledStatus, htype]
  have hrejected : settledStatus context.run.compiledSnapshot context.node .blocked = .policyRejected := by
    simp [settledStatus, htype]
  refine h.read.bind fun p => Triple.assume fun hmoves => ?_
  refine .ite (fun _ => .throw fun _ hw => .inl hw) fun _ => .ite (fun _ => .throw fun _ hw => .inl hw) fun _ => ?_
  refine (h.calm (hS.report_stays _ _ _)).bind fun ref => .ite (fun _ => ?_) fun _ => .pure fun _ hw => ?_
  · rw [hentry] at hmoves ⊢
    refine ((hmoves _ _ _).weaken (fun _ hw => hw) (fun _ _ hw => hw) fun _ _ hw => ?_).bind fun _ => .pure fun _ hw => ?_
    · rw [Left, hentry]
      exact hw.imp_right fun hw => ⟨.blocked, by rwa [hrejected]⟩
    · rwa [NodeHandlerResult.blocked, hrejected]
  · rwa [NodeHandlerResult.succeeded, hpassed, ← hentry]

/-- A handler that is entered with the status it demands settles the ChangeSet by what it returns. -/
theorem handle_triple {S : TestNodeHandler W} {D : Digits} [IsPreorder CaptureStore T] {U : Db → Db → Prop}
    [IsPreorder Db U] (hS : S.Documented store T) (hU : ∀ (s : CaptureStore) (db : Db), U s.db db → T s { s with db })
    (hlocks : ∀ db t, U db (Db.fileLocksT.set db t)) (h : S.toChangeSetHandler.Settles store T context after) :
    Triple (after (entryStatus context.node)) (S.handle D context)
      (fun result => after (settledStatus context.run.compiledSnapshot context.node result.outcome))
      fun _ => Left context after := by
  unfold TestNodeHandler.handle
  split
  · next htype => exact commandGuard_triple hS.toDocumented h htype
  · next htype => exact test_triple hS hU hlocks h htype
  · next htype => exact riskClassifier_triple hS.toDocumented h htype
  · exact .throw fun _ hw => .inl hw

end

end AgentHub
