import AgentHub.Storage.Runs.MergeGate
import AgentHub.Workflow.Handlers.CommandGate
import AgentHub.Workflow.Handlers.Settling
import AgentHub.Workflow.TestSegment
/-!
# The test chain and the status of its ChangeSet

In a run of an accepted graph the handlers of a write task come in the order of its chain, and the status of its ChangeSet
says how far they came: `guard_passed` while tests are left, `test_passed` after the last one, `test_failed` after the first
that did not succeed. The handlers of another task, and the scheduler, leave it alone.
-/

namespace AgentHub

open Lib Workspace Security CaptureStore ExecutableValidator

/-! ## The ChangeSet of a task -/

theorem sourceTask_id {graph : CompiledGraph} {node source : WorkflowNode} {sourceId : String}
    (h : sourceTask graph node = .ok (sourceId, source)) : node.sourceNodeId = some sourceId := by
  unfold sourceTask at h
  split at h
  · cases h
  · next id hid =>
    split at h
    · cases h
    · split at h <;> cases h
      exact hid

theorem sourceTask_mem {graph : CompiledGraph} {node source : WorkflowNode} {sourceId : String}
    (h : sourceTask graph node = .ok (sourceId, source)) : source ∈ graph.nodes ∧ source.id = sourceId := by
  unfold sourceTask at h
  split at h
  · cases h
  · split at h
    · cases h
    · next found hfound =>
      split at h <;> cases h
      exact ⟨List.mem_of_find?_eq_some hfound, by simpa using List.find?_some hfound⟩

/-- The ChangeSet of a node belongs to a task of a run of that node. -/
theorem sourceChangeSet_node {db : Db} {rid sourceId id : String} (h : sourceChangeSet db rid sourceId = some id) :
    ∃ row task node, db.changeSets.get? id = some row ∧ db.tasks.get? row.taskId = some task ∧
      db.nodeRuns.get? task.nodeRunId = some node ∧ node.nodeId = sourceId := by
  obtain ⟨p, hp, rfl⟩ := Option.map_eq_some_iff.1 h
  have hmem := List.mem_of_head? hp
  rw [forSourceNode, (List.perm_insertionSort _ _).mem_iff, List.mem_filterMap] at hmem
  obtain ⟨row, hrow, hsome⟩ := hmem
  simp only [Option.bind_eq_bind, Option.bind_eq_some_iff] at hsome
  obtain ⟨task, htask, node, hnode, hif⟩ := hsome
  split at hif
  · next hids =>
    cases hif
    exact ⟨row, task, node, Table.get?_of_mem hrow, htask, hnode, hids.2⟩
  · cases hif

/-- Two nodes have no ChangeSet in common. -/
theorem sourceChangeSet_inj {db : Db} {rid sourceId sourceId' id : String} (h : sourceChangeSet db rid sourceId = some id)
    (h' : sourceChangeSet db rid sourceId' = some id) : sourceId = sourceId' := by
  obtain ⟨row, task, node, hrow, htask, hnode, rfl⟩ := sourceChangeSet_node h
  obtain ⟨row', task', node', hrow', htask', hnode', rfl⟩ := sourceChangeSet_node h'
  cases hrow.symm.trans hrow'
  cases htask.symm.trans htask'
  cases hnode.symm.trans hnode'
  rfl

theorem sourceChangeSet_congr {db db' : Db} (htasks : db'.tasks = db.tasks) (hnodes : db'.nodeRuns = db.nodeRuns)
    (hrows : db'.changeSets.rows.map (fun row => (row.id, row.taskId)) = db.changeSets.rows.map fun row => (row.id, row.taskId))
    (rid sourceId : String) : sourceChangeSet db' rid sourceId = sourceChangeSet db rid sourceId := by
  let attempt (db : Db) (p : String × String) : Option (Nat × String) :=
    (db.tasks.get? p.2).bind fun task => (db.nodeRuns.get? task.nodeRunId).bind fun node =>
      if node.workflowRunId = rid ∧ node.nodeId = sourceId then some (node.attempt, p.1) else none
  have hselect : ∀ db : Db, forSourceNode db rid sourceId =
      ((db.changeSets.rows.map fun row => (row.id, row.taskId)).filterMap (attempt db)).insertionSort fun a b => b.1 ≤ a.1 := by
    intro db
    rw [List.filterMap_map]
    rfl
  have hattempt : attempt db' = attempt db := by
    funext p
    simp only [attempt, htasks, hnodes]
  unfold sourceChangeSet
  rw [hselect db', hselect db, hrows, hattempt]

/-- A transition is nothing to the schedule, and moves no ChangeSet to another node. -/
theorem transition_scheduled {id : String} {expected target : ChangeSetStatus} {lease : MasterLease}
    {ws : Option WorkspaceLease} {reason severity : Option String} {now : Instant} {db db' : Db} {u : Unit}
    (h : (ChangeSetRepository.transition id expected target lease ws reason severity now).run db = .ok (u, db')) :
    (∀ rid, db'.runState rid = db.runState rid) ∧
      ∀ rid sourceId, sourceChangeSet db' rid sourceId = sourceChangeSet db rid sourceId := by
  simp only [ChangeSetRepository.transition, StateT.run_bind, Tx.bind_ok, Tx.ensure_ok, Tx.read_ok, Tx.require_ok] at h
  obtain ⟨_, ⟨-, rfl⟩, _, ⟨-, rfl⟩, ⟨_, s⟩, hlease, _, rfl, ⟨⟨changeSet, lineage⟩, _⟩, ⟨-, rfl⟩, ⟨_, s'⟩, hws,
    ⟨_, db₁⟩, hcas, ⟨_, db₂⟩, happend, hlast⟩ := h
  dsimp only at hws hcas happend hlast
  have hs := assertMaster_readOnly _ _ _ _ hlease
  have hs' := ChangeSetRepository.checkLease_readOnly _ _ _ _ _ hws
  dsimp only at hs hs'
  subst hs hs'
  have hquiet : Quiet db₁ db' := by
    refine (ChangeSetRepository.appendStateEvent_quiet happend).trans ?_
    split at hlast
    · rw [(Prod.mk.inj (Tx.pure_ok.1 hlast)).2]
      exact .refl _
    · exact ChangeSetRepository.appendSecurityEvent_quiet hlast
  have hdb₁ := (Prod.mk.inj (TableRef.cas_ok.1 hcas).2).2
  subst hdb₁
  refine ⟨hquiet.runState, sourceChangeSet_congr hquiet.tasks hquiet.nodeRuns ?_⟩
  rw [hquiet.changeSets]
  change (List.map _ (List.map _ _)) = _
  rw [List.map_map]
  refine List.map_congr_left fun row _ => ?_
  rw [Function.comp_apply]
  split <;> rfl

/-! ## Beside the chain -/

/-- What others do beside the chain of a write task: they schedule the run, or leave it alone, and they do not touch the
ChangeSet of the task. -/
structure OffChain (H : Digests) (rid sourceId : String) (db db' : Db) : Prop where
  schedules : Relation.ReflTransGen (ScheduleStep H rid) db db'
  stays (id : String) (h : sourceChangeSet db rid sourceId = some id) :
    sourceChangeSet db' rid sourceId = some id ∧ db'.changeSetStatus id = db.changeSetStatus id

instance {H : Digests} {rid sourceId : String} : IsPreorder Db (OffChain H rid sourceId) where
  refl _ := ⟨.refl, fun _ h => ⟨h, rfl⟩⟩
  trans _ _ _ h h' := ⟨h.schedules.trans h'.schedules, fun id hid =>
    ⟨(h'.stays id (h.stays id hid).1).1, ((h'.stays id (h.stays id hid).1).2).trans (h.stays id hid).2⟩⟩

/-- What leaves the run, the ChangeSets and where they belong as they are. -/
theorem OffChain.of_same {H : Digests} {rid sourceId : String} {db db' : Db} (hrun : db'.runState rid = db.runState rid)
    (hsource : sourceChangeSet db' rid sourceId = sourceChangeSet db rid sourceId)
    (hstatus : ∀ id, db'.changeSetStatus id = db.changeSetStatus id) : OffChain H rid sourceId db db' :=
  ⟨.single (.other _ hrun), fun id hid => ⟨hsource.trans hid, hstatus id⟩⟩

/-- The ChangeSet `changeSetId` of the task has a status, in a state that the scheduler can reach. -/
structure At (H : Digests) (rid sourceId changeSetId : String) (db₀ : Db) (status : ChangeSetStatus) (db : Db) : Prop where
  reached : Relation.ReflTransGen (ScheduleStep H rid) db₀ db
  source : sourceChangeSet db rid sourceId = some changeSetId
  status : db.changeSetStatus changeSetId = some status

section
variable {H : Digests} {rid sourceId changeSetId : String} {db₀ : Db} {status expected target : ChangeSetStatus}
  {s s' : CaptureStore} {db db' : Db} {context : NodeExecutionContext} {reason severity : Option String}

theorem At.kept (h : At H rid sourceId changeSetId db₀ status db) (hs : OffChain H rid sourceId db db') :
    At H rid sourceId changeSetId db₀ status db' :=
  ⟨h.reached.trans hs.schedules, (hs.stays _ h.source).1, (hs.stays _ h.source).2.trans h.status⟩

/-- A transition of the ChangeSet moves it. -/
theorem At.moved (h : At H rid sourceId changeSetId db₀ expected s.db) (hc : CaptureStore.Committed (Beside CaptureStore.db (OffChain H rid sourceId))
    (fun now => ChangeSetRepository.transition changeSetId expected target context.masterLease none reason severity now) () s s') :
    At H rid sourceId changeSetId db₀ target s'.db := by
  obtain ⟨now, m, db, hbefore, hrun, hafter⟩ := hc
  obtain ⟨hstate, hsource⟩ := transition_scheduled hrun
  have hm := h.kept hbefore
  have hmoved : At H rid sourceId changeSetId db₀ target db :=
    ⟨hm.reached.tail (.other _ (hstate rid)), (hsource _ _).trans hm.source, (ChangeSetRepository.transition_audited hrun).2.after⟩
  exact hmoved.kept hafter

/-- A transition of another ChangeSet does not. -/
theorem At.unmoved {id : String} (hid : id ≠ changeSetId) (h : At H rid sourceId changeSetId db₀ status s.db)
    (hc : CaptureStore.Committed (Beside CaptureStore.db (OffChain H rid sourceId))
      (fun now => ChangeSetRepository.transition id expected target context.masterLease none reason severity now) () s s') :
    At H rid sourceId changeSetId db₀ status s'.db := by
  obtain ⟨now, m, db, hbefore, hrun, hafter⟩ := hc
  obtain ⟨hstate, hsource⟩ := transition_scheduled hrun
  have hm := h.kept hbefore
  have hstays : At H rid sourceId changeSetId db₀ status db := by
    refine ⟨hm.reached.tail (.other _ (hstate rid)), (hsource _ _).trans hm.source, ?_⟩
    exact ((ChangeSetRepository.transition_audited hrun).2.others _ hid.symm).trans hm.status
  exact hstays.kept hafter

variable {W : Type} {S : ChangeSetHandler W} {store : W → CaptureStore}

/-- What a transition of an id does to `after`, from what its commit does. -/
theorem transition_triple (hS : S.Documented store (Beside CaptureStore.db (OffChain H rid sourceId))) {id : String}
    {after : ChangeSetStatus → W → Prop}
    (hbeside : ∀ {status w w'}, after status w → OffChain H rid sourceId (store w).db (store w').db → after status w')
    (hmove : ∀ {expected target reason severity} {w w' : W}, after expected w → CaptureStore.Committed (Beside CaptureStore.db (OffChain H rid sourceId))
      (fun now => ChangeSetRepository.transition id expected target context.masterLease none reason severity now) ()
      (store w) (store w') → after target w') (expected target : ChangeSetStatus) (reason severity : Option String) :
    Triple (after expected) (S.transition context id expected target reason severity) (fun _ => after target)
      fun _ w => after expected w ∨ after target w := by
  intro w hw
  cases hrun : S.transition context id expected target reason severity w with
  | ok record w' => exact hmove hw (hS.transition_ok hrun)
  | error e w' =>
    rcases hS.transition_error hrun with hsame | hmade
    · exact .inl (hbeside hw hsame)
    · exact .inr (hmove hw hmade)

/-- A handler of the task moves its ChangeSet. -/
theorem settles_own (hS : S.Documented store (Beside CaptureStore.db (OffChain H rid sourceId))) (hrun : context.run.id = rid)
    (hnode : context.node.sourceNodeId = some sourceId) :
    S.Settles store (Beside CaptureStore.db (OffChain H rid sourceId)) context fun status w => At H rid sourceId changeSetId db₀ status (store w).db where
  beside h hs := h.kept hs
  source status := by
    intro w hw
    cases hsource : S.source context w with
    | error e w' => exact hw.kept (hS.source_stays.error hsource)
    | ok p w' =>
      obtain ⟨source, record⟩ := p
      refine ⟨?_, hw.kept (hS.source_stays.ok hsource)⟩
      obtain ⟨sourceId', htask, m, -, hm, hid, -⟩ := hS.source_ok hsource
      obtain rfl := Option.some.inj (hnode.symm.trans (sourceTask_id htask))
      rw [hrun] at hid
      obtain rfl := Option.some.inj ((hw.kept hm).source.symm.trans hid)
      exact transition_triple hS (fun h hs => h.kept hs) fun h hc => h.moved hc

/-- A handler of another task does not. -/
theorem settles_other (hS : S.Documented store (Beside CaptureStore.db (OffChain H rid sourceId))) (hrun : context.run.id = rid)
    (hnode : context.node.sourceNodeId ≠ some sourceId) :
    S.Settles store (Beside CaptureStore.db (OffChain H rid sourceId)) context fun _ w => At H rid sourceId changeSetId db₀ status (store w).db where
  beside h hs := h.kept hs
  source _ := by
    intro w hw
    cases hsource : S.source context w with
    | error e w' => exact hw.kept (hS.source_stays.error hsource)
    | ok p w' =>
      obtain ⟨source, record⟩ := p
      refine ⟨?_, hw.kept (hS.source_stays.ok hsource)⟩
      obtain ⟨sourceId', htask, m, -, hm, hid, -⟩ := hS.source_ok hsource
      rw [hrun] at hid
      have hother : record.changeSet.changeSetId ≠ changeSetId := by
        rintro heq
        rw [heq] at hid
        exact hnode (by rw [sourceTask_id htask, sourceChangeSet_inj hid (hw.kept hm).source])
      exact transition_triple hS (fun h hs => h.kept hs) fun h hc => h.unmoved hother hc

end

/-! ## How far a chain came -/

/-- A handler of the chain that was run, and what it returned; nothing, when it raised. -/
structure Turn where
  node : WorkflowNode
  result : Option NodeHandlerResult

def Turn.succeeded (turn : Turn) : Bool := turn.result.any fun result => result.outcome = .success

/-- The status of the ChangeSet after the turns of its chain. -/
inductive ChainStatus (graph : CompiledGraph) (segment : List WorkflowNode) (risk : WorkflowNode) :
    List Turn → ChangeSetStatus → Prop
  | testing {turns : List Turn} {rest : List WorkflowNode} (hnodes : turns.map Turn.node ++ rest = segment) (hrest : rest ≠ [])
      (hgood : ∀ turn ∈ turns, turn.succeeded = true) : ChainStatus graph segment risk turns .guardPassed
  | tested {turns : List Turn} (hnodes : turns.map Turn.node = segment) (hgood : ∀ turn ∈ turns, turn.succeeded = true) :
      ChainStatus graph segment risk turns .testPassed
  | failed {turns : List Turn} {node : WorkflowNode} {result : NodeHandlerResult} {rest : List WorkflowNode}
      (hnodes : turns.map Turn.node ++ node :: rest = segment) (hgood : ∀ turn ∈ turns, turn.succeeded = true)
      (hbad : result.outcome ≠ .success) : ChainStatus graph segment risk (turns ++ [⟨node, some result⟩]) .testFailed
  | assessed {turns : List Turn} {result : NodeHandlerResult} (hnodes : turns.map Turn.node = segment)
      (hgood : ∀ turn ∈ turns, turn.succeeded = true) :
      ChainStatus graph segment risk (turns ++ [⟨risk, some result⟩])
        (if result.outcome = .success then .testPassed else .policyRejected)
  | raised {turns : List Turn} {node : WorkflowNode} {rest : List WorkflowNode} {status : ChangeSetStatus}
      (hnodes : turns.map Turn.node ++ node :: rest = segment ++ [risk]) (hgood : ∀ turn ∈ turns, turn.succeeded = true)
      (hstatus : status = entryStatus node ∨ ∃ outcome, status = settledStatus graph node outcome) :
      ChainStatus graph segment risk (turns ++ [⟨node, none⟩]) status

section
variable {graph : CompiledGraph} {source patch risk node : WorkflowNode} {segment rest : List WorkflowNode} {turns : List Turn}
  {status : ChangeSetStatus}

/-- The turns came in the order of the chain, and all but the last succeeded. -/
theorem ChainStatus.ordered (h : ChainStatus graph segment risk turns status) :
    turns.map Turn.node <+: segment ++ [risk] ∧ ∀ turn ∈ turns.dropLast, turn.succeeded = true := by
  cases h with
  | testing hnodes _ hgood =>
    rw [← hnodes, List.append_assoc]
    exact ⟨List.prefix_append _ _, fun turn hturn => hgood turn ((List.dropLast_sublist _).subset hturn)⟩
  | tested hnodes hgood =>
    rw [← hnodes]
    exact ⟨List.prefix_append _ _, fun turn hturn => hgood turn ((List.dropLast_sublist _).subset hturn)⟩
  | failed hnodes hgood =>
    rw [List.dropLast_concat, ← hnodes]
    exact ⟨by simp, hgood⟩
  | assessed hnodes hgood =>
    rw [List.dropLast_concat, ← hnodes]
    exact ⟨by simp, hgood⟩
  | raised hnodes hgood =>
    rw [List.dropLast_concat, ← hnodes]
    exact ⟨by simp, hgood⟩

/-- The next handler of a chain that succeeded so far finds the status it demands. -/
theorem ChainStatus.entry (h : TestChain graph source patch segment risk) (hstatus : ChainStatus graph segment risk turns status)
    (hgood : ∀ turn ∈ turns, turn.succeeded = true) (hnext : turns.map Turn.node ++ node :: rest = segment ++ [risk]) :
    status = entryStatus node := by
  cases hstatus with
  | testing hnodes hrest =>
    rw [← hnodes, List.append_assoc, List.append_cancel_left_eq] at hnext
    obtain ⟨next, back, rfl⟩ := List.exists_cons_of_ne_nil hrest
    obtain ⟨rfl, -⟩ := List.cons.inj hnext
    rcases h.tested.types node (by simp [← hnodes]) with htype | htype <;> simp [entryStatus, htype]
  | tested hnodes =>
    rw [hnodes, List.append_cancel_left_eq] at hnext
    obtain ⟨rfl, -⟩ := List.cons.inj hnext
    simp [entryStatus, h.risk]
  | failed _ _ hbad =>
    have hlast := hgood _ (List.mem_append_right _ (List.mem_singleton_self _))
    simp [Turn.succeeded, hbad] at hlast
  | assessed hnodes =>
    have hlength := congrArg List.length hnext
    simp only [List.map_append, hnodes, List.length_append, List.length_cons, List.map_cons, List.map_nil, List.length_nil] at hlength
    omega
  | raised =>
    have hlast := hgood _ (List.mem_append_right _ (List.mem_singleton_self _))
    simp [Turn.succeeded] at hlast

/-- Without an error the ChangeSet is `test_passed` when the segment succeeded and what came behind it did. -/
theorem ChainStatus.testPassed_iff (h : ChainStatus graph segment risk turns status) (hreturned : ∀ turn ∈ turns, turn.result ≠ none) :
    status = .testPassed ↔ segment <+: turns.map Turn.node ∧ ∀ turn ∈ turns, turn.succeeded = true := by
  have hlast {turns : List Turn} {turn : Turn} (hall : ∀ t ∈ turns ++ [turn], t.succeeded = true) : turn.succeeded = true :=
    hall turn (List.mem_append_right _ (List.mem_singleton_self _))
  cases h with
  | testing hnodes hrest hgood =>
    refine ⟨(nomatch ·), fun hboth => absurd hboth.1.length_le ?_⟩
    have hpos := List.length_pos_of_ne_nil hrest
    rw [← hnodes, List.length_append]
    omega
  | tested hnodes hgood => exact ⟨fun _ => ⟨by simp [hnodes], hgood⟩, fun _ => rfl⟩
  | failed _ _ hbad =>
    refine ⟨(nomatch ·), fun hboth => ?_⟩
    have hsucceeded := hlast hboth.2
    simp [Turn.succeeded, hbad] at hsucceeded
  | @assessed turns result hnodes hgood =>
    by_cases hsuccess : result.outcome = .success
    · rw [if_pos hsuccess]
      refine ⟨fun _ => ⟨by simp [hnodes], fun turn hturn => ?_⟩, fun _ => rfl⟩
      rcases List.mem_append.1 hturn with hturn | hturn
      · exact hgood turn hturn
      · rw [List.mem_singleton.1 hturn]
        simp [Turn.succeeded, hsuccess]
    · rw [if_neg hsuccess]
      refine ⟨(nomatch ·), fun hboth => ?_⟩
      have hsucceeded := hlast hboth.2
      simp [Turn.succeeded, hsuccess] at hsucceeded
  | raised => exact absurd rfl (hreturned _ (List.mem_append_right _ (List.mem_singleton_self _)))

/-- The turn of the next handler settles the status. -/
theorem ChainStatus.turn (h : TestChain graph source patch segment risk) (hgood : ∀ turn ∈ turns, turn.succeeded = true)
    (hnext : turns.map Turn.node ++ node :: rest = segment ++ [risk]) (result : NodeHandlerResult) :
    ChainStatus graph segment risk (turns ++ [⟨node, some result⟩]) (settledStatus graph node result.outcome) := by
  rcases List.eq_nil_or_concat rest with rfl | ⟨back, last, rfl⟩
  · obtain ⟨hnodes, hlast⟩ := List.append_inj' hnext rfl
    obtain ⟨rfl, -⟩ := List.cons.inj hlast
    rw [settledStatus, if_pos h.risk]
    exact .assessed hnodes hgood
  · rw [List.concat_eq_append, ← List.cons_append, ← List.append_assoc] at hnext
    obtain ⟨rfl, -⟩ := List.append_inj' hnext rfl
    have htype := h.tested.types node (by simp)
    have hrisk : node.nodeType ≠ .riskClassifier := by rcases htype with htype | htype <;> simp [htype]
    rw [settledStatus, if_neg hrisk]
    by_cases hsuccess : result.outcome = .success
    · have hall : ∀ turn ∈ turns ++ [⟨node, some result⟩], turn.succeeded = true := by
        intro turn hturn
        rcases List.mem_append.1 hturn with hturn | hturn
        · exact hgood turn hturn
        · rw [List.mem_singleton.1 hturn]
          simp [Turn.succeeded, hsuccess]
      rw [if_neg (not_not.2 hsuccess)]
      cases back with
      | nil =>
        -- the last node of the segment is a test
        obtain ⟨front, last', hsplit, htest⟩ := h.tested.ends
        obtain ⟨-, hlast⟩ := List.append_inj' hsplit rfl
        obtain ⟨rfl, -⟩ := List.cons.inj hlast
        rw [h.isLastTest_eq htest]
        simp only [htest, List.isEmpty_nil, Except.toOption, decide_true, Bool.and_true, if_true]
        exact .tested (by simp) hall
      | cons b back =>
        have hmore : (node.nodeType = .test && (isLastTest graph node).toOption = some true) = false := by
          rcases htype with htype | htype
          · simp [htype]
          · simp [htype, h.isLastTest_eq htype, Except.toOption]
        rw [hmore]
        refine .testing ?_ (List.cons_ne_nil b back) hall
        simp
    · rw [if_pos hsuccess]
      exact .failed rfl hgood hsuccess

end

/-! ## Runs -/

/-- A write task in a run, with the handlers of the run. -/
structure ChainSystem (W : Type) where
  handlers : TestNodeHandler W
  digits : Digits
  store : W → CaptureStore
  digests : Digests
  runId : String
  graph : CompiledGraph
  source : WorkflowNode

/-- What a handler returned. -/
def returnedValue {ε σ α : Type} : EStateM.Result ε σ α → Option α
  | .ok a _ => some a
  | .error _ _ => none

namespace ChainSystem

variable {W : Type} (Y : ChainSystem W)

/-- What others do beside the chain. -/
def Beside (w w' : W) : Prop := OffChain Y.digests Y.runId Y.source.id (Y.store w).db (Y.store w').db

/-- A node of the task that one of the three handlers runs. -/
structure Handled (node : WorkflowNode) : Prop where
  mem : node ∈ Y.graph.nodes
  source : node.sourceNodeId = some Y.source.id
  type : node.nodeType = .commandGuard ∨ node.nodeType = .test ∨ node.nodeType = .riskClassifier

/-- The scheduler has claimed the node run of a node. -/
def Running (w : W) (node : WorkflowNode) : Prop :=
  ∃ row ∈ (Y.store w).db.rowsOf Y.runId, row.nodeId = node.id ∧ row.status = .running

/-- A node run of the chain was completed with success only when its handler had returned success. -/
def Reported (w : W) (turns : List Turn) : Prop :=
  ∀ node, Y.Handled node → ∀ row ∈ (Y.store w).db.rowsOf Y.runId, row.nodeId = node.id → row.outcome = some .success →
    ∃ turn ∈ turns, turn.node = node ∧ turn.succeeded = true

/-- The runs of the handlers from `w₀`: one of the task is called once for a node run that the scheduler claimed, and what
it returns is what the node run is completed with. Handlers of other tasks, the scheduler and everyone else come in between
in any order. -/
inductive Run (w₀ : W) : W → List Turn → Prop
  | start : Run w₀ w₀ []
  | beside {w w' : W} {turns : List Turn} (h : Run w₀ w turns) (hbeside : Y.Beside w w') (hreported : Y.Reported w' turns) :
      Run w₀ w' turns
  | other {w : W} {turns : List Turn} (context : NodeExecutionContext) (h : Run w₀ w turns)
      (hrun : context.run.id = Y.runId) (hnode : context.node.sourceNodeId ≠ some Y.source.id)
      (hreported : Y.Reported (Lib.ending (Y.handlers.handle Y.digits context w)) turns) :
      Run w₀ (Lib.ending (Y.handlers.handle Y.digits context w)) turns
  | turn {w : W} {turns : List Turn} (context : NodeExecutionContext) (h : Run w₀ w turns)
      (hrun : context.run.id = Y.runId) (hgraph : context.run.compiledSnapshot = Y.graph) (hnode : Y.Handled context.node)
      (hclaimed : Y.Running w context.node) (honce : ∀ turn ∈ turns, turn.node ≠ context.node)
      (hreported : Y.Reported (Lib.ending (Y.handlers.handle Y.digits context w))
        (turns ++ [⟨context.node, returnedValue (Y.handlers.handle Y.digits context w)⟩])) :
      Run w₀ (Lib.ending (Y.handlers.handle Y.digits context w))
        (turns ++ [⟨context.node, returnedValue (Y.handlers.handle Y.digits context w)⟩])

/-- The handlers behave, beside others who leave the chain alone. -/
def Lawful : Prop := Y.handlers.Documented Y.store (AgentHub.Beside CaptureStore.db (OffChain Y.digests Y.runId Y.source.id))

/-- The run is one of the scheduler's, and the ChangeSet of the task has just passed its patch guard. -/
structure Start (db₀ : Db) (s₀ : RunState) (changeSetId : String) (w₀ : W) : Prop where
  fresh : FreshRun db₀ Y.runId Y.graph s₀
  passed : At Y.digests Y.runId Y.source.id changeSetId db₀ .guardPassed (Y.store w₀).db
  reported : Y.Reported w₀ []

/-- Where a run stands: the status of the ChangeSet is that of the turns of its chain. -/
structure Stands (segment : List WorkflowNode) (risk : WorkflowNode) (db₀ : Db) (changeSetId : String) (w : W)
    (turns : List Turn) (status : ChangeSetStatus) : Prop where
  chain : ChainStatus Y.graph segment risk turns status
  reported : Y.Reported w turns
  placed : At Y.digests Y.runId Y.source.id changeSetId db₀ status (Y.store w).db

section
variable {Y} {patch risk node : WorkflowNode} {segment : List WorkflowNode} {db₀ : Db} {s₀ : RunState} {changeSetId : String}
  {w : W} {turns : List Turn} {status : ChangeSetStatus}

/-- What a claimed node run follows: the patch guard, or a handler of the chain that succeeded. -/
theorem Stands.follows (h : TestChain Y.graph Y.source patch segment risk) (hfresh : FreshRun db₀ Y.runId Y.graph s₀)
    (hstands : Y.Stands segment risk db₀ changeSetId w turns status) (hclaimed : Y.Running w node) {before : WorkflowNode}
    (hnext : [before, node] <:+: patch :: (segment ++ [risk])) :
    before = patch ∨ ∃ turn ∈ turns, turn.node = before ∧ turn.succeeded = true := by
  obtain ⟨V, haccepts⟩ := h.accepted
  obtain ⟨input, output, hwell⟩ := haccepts.wellFormed
  obtain ⟨s, hs, hinv⟩ := runInv_of_reachable hwell hfresh hstands.placed.reached
  have hrows := (runState_eq_some.1 hs).2
  obtain ⟨row, hrow, hid, hrunning⟩ := hclaimed
  have hmem := h.mem before (hnext.subset (by simp))
  have hlive : (s.mark node.id).Live := by
    rw [← hid, mark_of_mem hinv.node_nodup (hrows ▸ hrow), mark_active.2 (by simp [NodeRunRow.isActive, hrunning])]
    trivial
  obtain ⟨e, he, hfrom, hcondition, hto⟩ := h.link hnext
  have hnode := h.mem node (hnext.subset (by simp))
  obtain ⟨o, hdone, hexpected⟩ := hinv.entered he hfrom hcondition hto hnode.1 hnode.2.1 hlive
  obtain ⟨r, hr, hrid, -, hout⟩ := hinv.completed hmem.1 hdone hexpected
  rw [if_neg (h.happy before (hnext.subset (by simp)))] at hout
  rcases List.mem_cons.1 (hnext.subset (show before ∈ [before, node] by simp)) with hpatch | hbefore
  · exact .inl hpatch
  · refine .inr (hstands.reported before ⟨hmem.1, hmem.2.2, ?_⟩ r (hrows ▸ hr) hrid hout)
    rcases List.mem_append.1 hbefore with hsegment | hrisk
    · exact (h.tested.types before hsegment).imp_right .inl
    · rw [List.mem_singleton.1 hrisk]
      exact .inr (.inr h.risk)

/-- A handler whose node run was claimed is the next of its chain, and what came before it succeeded. -/
theorem Stands.next (h : TestChain Y.graph Y.source patch segment risk) (hfresh : FreshRun db₀ Y.runId Y.graph s₀)
    (hstands : Y.Stands segment risk db₀ changeSetId w turns status) (hnode : Y.Handled node) (hclaimed : Y.Running w node)
    (honce : ∀ turn ∈ turns, turn.node ≠ node) :
    (∀ turn ∈ turns, turn.succeeded = true) ∧ ∃ rest, turns.map Turn.node ++ node :: rest = segment ++ [risk] := by
  obtain ⟨⟨back, hback⟩, hgood⟩ := hstands.chain.ordered
  have hmem := h.mem_of_type hnode.mem hnode.source hnode.type
  have hnd := h.nodup
  rw [← hback] at hnd hmem
  have hleft : node ∈ back := by
    refine (List.mem_append.1 hmem).resolve_left fun hdone => ?_
    obtain ⟨turn, hturn, heq⟩ := List.mem_map.1 hdone
    exact honce turn hturn heq
  -- the node before it stands at the cut between the turns and what is left
  obtain ⟨front, after, rfl⟩ := List.append_of_mem hleft
  obtain ⟨init, before, hbefore⟩ : ∃ init before, patch :: (turns.map Turn.node ++ front) = init ++ [before] :=
    ⟨_, _, (List.dropLast_concat_getLast (List.cons_ne_nil patch _)).symm⟩
  have hnext : [before, node] <:+: patch :: (turns.map Turn.node ++ front ++ node :: after) := by
    refine ⟨init, after, ?_⟩
    rw [← List.cons_append, hbefore]
    simp
  rw [List.append_assoc] at hnext
  have hfollows := hstands.follows h hfresh hclaimed (hback ▸ hnext)
  have hdone : before ∈ patch :: turns.map Turn.node := by
    rcases hfollows with rfl | ⟨turn, hturn, rfl, -⟩
    · exact List.mem_cons_self
    · exact List.mem_cons_of_mem _ (List.mem_map_of_mem hturn)
  rw [← List.cons_append] at hnd hnext
  obtain ⟨init', rest, hlast, hrest⟩ := neighbours_at_cut hnd hnext hdone hleft
  refine ⟨fun turn hturn => ?_, rest, by rw [← hrest, hback]⟩
  -- all turns but the last succeeded, and the last is the one of the node before
  obtain ⟨earlier, last, rfl⟩ : ∃ earlier last, turns = earlier ++ [last] :=
    ⟨_, _, (List.dropLast_concat_getLast (List.ne_nil_of_mem hturn)).symm⟩
  rw [List.dropLast_concat] at hgood
  rcases List.mem_append.1 hturn with hturn | hturn
  · exact hgood turn hturn
  · obtain rfl := List.mem_singleton.1 hturn
    rw [List.map_append, ← List.cons_append] at hlast
    obtain ⟨-, hsame⟩ := List.append_inj' hlast rfl
    obtain ⟨rfl, -⟩ := List.cons.inj hsame
    rw [List.cons_append, List.nodup_cons] at hnd
    rcases hfollows with heq | ⟨turn', hturn', hnode', hsucceeded⟩
    · exact absurd (by rw [← heq]; simp) hnd.1
    · rwa [← List.inj_on_of_nodup_map (List.nodup_append.1 hnd.2).1 hturn' (by simp) hnode']

/-- The status that a handler of the chain finds is the one it demands, as long as its chain succeeded. -/
theorem Stands.entered (h : TestChain Y.graph Y.source patch segment risk) (hfresh : FreshRun db₀ Y.runId Y.graph s₀)
    (hstands : Y.Stands segment risk db₀ changeSetId w turns status) (hnode : Y.Handled node) (hclaimed : Y.Running w node)
    (honce : ∀ turn ∈ turns, turn.node ≠ node) : status = entryStatus node := by
  obtain ⟨hgood, rest, hnext⟩ := hstands.next h hfresh hnode hclaimed honce
  exact hstands.chain.entry h hgood hnext

theorem offChain_locks (H : Digests) (rid sourceId : String) (db : Db) (t) :
    OffChain H rid sourceId db (Db.fileLocksT.set db t) :=
  .of_same rfl rfl fun _ => rfl

/-- A handler of another task leaves the ChangeSet where it was. -/
theorem placed_other (hS : Y.Lawful) {context : NodeExecutionContext} (hrun : context.run.id = Y.runId)
    (hnode : context.node.sourceNodeId ≠ some Y.source.id)
    (hplaced : At Y.digests Y.runId Y.source.id changeSetId db₀ status (Y.store w).db) :
    At Y.digests Y.runId Y.source.id changeSetId db₀ status (Y.store (Lib.ending (Y.handlers.handle Y.digits context w))).db := by
  have hends := handle_triple (D := Y.digits) hS (fun _ _ hU => hU) (offChain_locks Y.digests Y.runId Y.source.id)
    (settles_other hS.toDocumented hrun hnode) w hplaced
  cases hhandle : Y.handlers.handle Y.digits context w with
  | ok result w' =>
    rw [hhandle] at hends
    exact hends
  | error e w' =>
    rw [hhandle] at hends
    rcases hends with hsame | ⟨_, hsame⟩ <;> exact hsame

/-- The turn of a handler keeps the status that of the turns. -/
theorem Stands.turn (h : TestChain Y.graph Y.source patch segment risk) (hfresh : FreshRun db₀ Y.runId Y.graph s₀)
    (hS : Y.Lawful) (hstands : Y.Stands segment risk db₀ changeSetId w turns status) {context : NodeExecutionContext}
    (hrun : context.run.id = Y.runId) (hgraph : context.run.compiledSnapshot = Y.graph) (hnode : Y.Handled context.node)
    (hclaimed : Y.Running w context.node) (honce : ∀ turn ∈ turns, turn.node ≠ context.node)
    (hreported : Y.Reported (Lib.ending (Y.handlers.handle Y.digits context w))
      (turns ++ [⟨context.node, returnedValue (Y.handlers.handle Y.digits context w)⟩])) :
    ∃ status', Y.Stands segment risk db₀ changeSetId (Lib.ending (Y.handlers.handle Y.digits context w))
      (turns ++ [⟨context.node, returnedValue (Y.handlers.handle Y.digits context w)⟩]) status' := by
  obtain ⟨hgood, rest, hnext⟩ := hstands.next h hfresh hnode hclaimed honce
  obtain rfl := hstands.chain.entry h hgood hnext
  have hends := handle_triple (D := Y.digits) hS (fun _ _ hU => hU) (offChain_locks Y.digests Y.runId Y.source.id)
    (settles_own hS.toDocumented hrun hnode.source) w hstands.placed
  cases hhandle : Y.handlers.handle Y.digits context w with
  | ok result w' =>
    rw [hhandle] at hends hreported
    rw [hgraph] at hends
    exact ⟨_, .turn h hgood hnext result, hreported, hends⟩
  | error e w' =>
    rw [hhandle] at hends hreported
    rcases hends with hsame | ⟨outcome, hmoved⟩
    · exact ⟨_, .raised hnext hgood (.inl rfl), hreported, hsame⟩
    · rw [hgraph] at hmoved
      exact ⟨_, .raised hnext hgood (.inr ⟨outcome, rfl⟩), hreported, hmoved⟩

theorem Run.stands (h : TestChain Y.graph Y.source patch segment risk) (hS : Y.Lawful) {w₀ : W}
    (hstart : Y.Start db₀ s₀ changeSetId w₀) (hrun : Y.Run w₀ w turns) :
    ∃ status, Y.Stands segment risk db₀ changeSetId w turns status := by
  induction hrun with
  | start =>
    obtain ⟨front, last, hsegment, -⟩ := h.tested.ends
    refine ⟨_, .testing (List.nil_append _) ?_ (by simp), hstart.reported, hstart.passed⟩
    simp [hsegment]
  | beside _ hbeside hreported ih =>
    obtain ⟨status, hstands⟩ := ih
    exact ⟨status, hstands.chain, hreported, hstands.placed.kept hbeside⟩
  | other context _ hcontext hnode hreported ih =>
    obtain ⟨status, hstands⟩ := ih
    exact ⟨status, hstands.chain, hreported, placed_other hS hcontext hnode hstands.placed⟩
  | turn context _ hcontext hgraph hnode hclaimed honce hreported ih =>
    obtain ⟨status, hstands⟩ := ih
    exact hstands.turn h hstart.fresh hS hcontext hgraph hnode hclaimed honce hreported

end

end ChainSystem

/-- In every run of an accepted graph the ChangeSet of a write task that has passed its patch guard goes with its chain: its
status is that of the turns so far, whoever acts beside them. A handler whose node run is claimed finds the status it
demands, and everything before it on the chain has succeeded. As long as no handler raised, the ChangeSet is `test_passed`
exactly when all of the segment, and whatever came behind it, succeeded. A handler of another task leaves it alone. -/
theorem test_chain_agrees {V : ExecutableValidator} {W : Type} (Y : ChainSystem W) (haccepts : V.Accepts Y.graph)
    (hsource : Y.source ∈ Y.graph.nodes) (hwrite : isWriteTask Y.source = true) (hS : Y.Lawful) {db₀ : Db} {s₀ : RunState}
    {changeSetId : String} {w₀ : W} (hstart : Y.Start db₀ s₀ changeSetId w₀) :
    ∃ patch segment risk, TestChain Y.graph Y.source patch segment risk ∧ ∀ w turns, Y.Run w₀ w turns →
      ∃ status, (Y.store w).db.changeSetStatus changeSetId = some status ∧ ChainStatus Y.graph segment risk turns status ∧
        (∀ node, Y.Handled node → Y.Running w node → (∀ turn ∈ turns, turn.node ≠ node) →
          status = entryStatus node ∧ (∀ turn ∈ turns, turn.succeeded = true) ∧
            ∃ rest, turns.map Turn.node ++ node :: rest = segment ++ [risk]) ∧
        ((∀ turn ∈ turns, turn.result ≠ none) →
          (status = .testPassed ↔ segment <+: turns.map Turn.node ∧ ∀ turn ∈ turns, turn.succeeded = true)) ∧
        ∀ context : NodeExecutionContext, context.run.id = Y.runId → context.node.sourceNodeId ≠ some Y.source.id →
          (Y.store (Lib.ending (Y.handlers.handle Y.digits context w))).db.changeSetStatus changeSetId = some status := by
  obtain ⟨patch, segment, risk, h⟩ := haccepts.testChain hsource hwrite
  refine ⟨patch, segment, risk, h, fun w turns hrun => ?_⟩
  obtain ⟨status, hstands⟩ := hrun.stands h hS hstart
  refine ⟨status, hstands.placed.status, hstands.chain, fun node hnode hclaimed honce => ?_, hstands.chain.testPassed_iff, ?_⟩
  · exact ⟨hstands.entered h hstart.fresh hnode hclaimed honce, hstands.next h hstart.fresh hnode hclaimed honce⟩
  · exact fun context hcontext hnode => (ChainSystem.placed_other hS hcontext hnode hstands.placed).status

/-! ## The guards of an accepted graph -/

/-- The successor test of a node of the chain stands behind it. -/
theorem TestChain.successorTest_eq {graph : CompiledGraph} {source patch risk a b test : WorkflowNode}
    {segment : List WorkflowNode} (h : TestChain graph source patch segment risk)
    (hab : [a, b] <:+: patch :: (segment ++ [risk])) (htest : successorTest graph a = .ok test) : test = b := by
  unfold successorTest at htest
  split at htest
  · next only hfilter =>
    obtain rfl : only = test := by simpa using htest
    have hmem : only ∈ graph.nodes.filter fun n => (successorIds graph a).contains n.id && n.nodeType = .test &&
        n.sourceNodeId = a.sourceNodeId := by
      rw [hfilter]
      exact List.mem_singleton_self _
    simp only [List.mem_filter, Bool.and_eq_true, decide_eq_true_eq] at hmem
    obtain ⟨hnode, ⟨hsuccessor, htype⟩, -⟩ := hmem
    exact (h.successor hab hnode (by simp [htype])).1 hsuccessor
  · cases htest

/-- The tests of a chain have the commands of its task, so its guards are gates. -/
theorem TestChain.inScope {graph : CompiledGraph} {source patch risk guard : WorkflowNode} {segment : List WorkflowNode}
    (h : TestChain graph source patch segment risk) (hsource : source ∈ graph.nodes) (hguard : guard ∈ segment)
    (htype : guard.nodeType = .commandGuard) (D : Digits) : CommandGuardNodeHandler.InScope D graph guard := by
  obtain ⟨V, haccepts⟩ := h.accepted
  intro sourceId source' test argv approved htask htest hargv haccepted
  obtain rfl : source' = source := by
    obtain ⟨hmem, hid⟩ := sourceTask_mem htask
    have hbound := (h.mem guard (by simp [hguard])).2.2
    rw [sourceTask_id htask] at hbound
    exact List.inj_on_of_nodup_map haccepts.passes.nodup hmem hsource (hid.trans (Option.some.inj hbound))
  have hneighbour : ∀ pair : WorkflowNode, [guard, pair] <:+: segment → test = pair := fun pair hpair =>
    h.successorTest_eq (hpair.trans ⟨[patch], [risk], by simp⟩) htest
  rw [(CommandGuardNodeHandler.validate_bounds haccepted).1]
  cases h.tested with
  | docs docs hdocs =>
    rw [List.mem_singleton.1 hguard, hdocs] at htype
    cases htype
  | commands pairs _ htypes hcommands =>
    obtain ⟨p, hp, hmem⟩ := List.mem_flatMap.1 hguard
    obtain rfl : guard = p.1 := by
      simp only [List.mem_cons, List.not_mem_nil, or_false] at hmem
      refine hmem.resolve_right fun hsecond => ?_
      rw [hsecond, (htypes p hp).2.1] at htype
      cases htype
    obtain ⟨before, after, rfl⟩ := List.append_of_mem hp
    have htest' := hneighbour p.2 ⟨before.flatMap fun p => [p.1, p.2], after.flatMap fun p => [p.1, p.2], by simp⟩
    rw [← hcommands, List.mem_map]
    exact ⟨p, hp, by rw [← htest', hargv]; rfl⟩

theorem TestChain.isGate {graph : CompiledGraph} {source patch risk guard : WorkflowNode} {segment : List WorkflowNode}
    (h : TestChain graph source patch segment risk) (hsource : source ∈ graph.nodes) (hguard : guard ∈ segment)
    (htype : guard.nodeType = .commandGuard) (D : Digits) : CommandGuardNodeHandler.IsGate D graph guard :=
  CommandGuardNodeHandler.isGate_of_inScope (h.inScope hsource hguard htype D)

/-! ## A chain that is left behind -/

namespace ChainRoom

/-- The sample run once its command guard was claimed. -/
def claimedDb : Db :=
  (Tx.commit (WorkflowRunRepository.claimNext sampleDigests .table "r" sampleLease sampleNow)
    (sampleStart ([("rin", .success), ("rwrite", .success), ("rw1", .success)].foldl sampleRound
      (GateRoom.store sampleDb .captured).db))).2

/-- A machine on which nothing works. -/
def machine : TestMachine CaptureStore where
  process _ _ _ := throw (.git "git is not available")
  captureMetadataSeal _ _ := throw (.git "git is not available")
  buildCanonicalPatch _ _ := throw (.git "git is not available")
  createPrivateTemporaryDirectory _ := throw (.git "git is not available")
  removePrivateTemporaryDirectory _ := throw (.git "git is not available")
  inspectSourceRepository _ _ := throw (.git "git is not available")
  createSessionRepository _ _ _ := throw (.git "git is not available")
  probe _ := ⟨throw (.git "git is not available"), fun _ => pure false, fun _ => throw (.git "git is not available"),
    fun _ => throw (.git "git is not available"), fun _ _ => throw (.git "git is not available")⟩
  openRoot _ := throw (.git "git is not available")
  closeRoot _ := throw (.git "git is not available")
  assertRootIdentity _ := throw (.git "git is not available")
  setMode _ _ _ := throw (.git "git is not available")
  unlinkRegular _ _ := throw (.git "git is not available")
  removeDirectory _ _ := throw (.git "git is not available")
  replaceRegular _ _ _ _ := throw (.git "git is not available")
  openPolicy _ := throw (.git "git is not available")
  validateCleanupPath _ _ := throw (.git "git is not available")
  validateCapturedPath _ _ _ := throw (.git "git is not available")
  comparisonKey path := path
  assertSecretFreeBytes _ _ := .ok ()
  makeDirectory _ := throw (.git "git is not available")
  resolve _ := throw (.git "git is not available")
  commitValidationBaseline _ := throw (.git "git is not available")
  workspaceTransaction _ _ _ _ := throw (.git "git is not available")
  runTest _ _ _ := throw .cancelled
  typeName _ := "GitError"

/-- The repositories, where no artifact can be written. -/
def fullDisk : ChangeSetHandler CaptureStore := { GateRoom.handler with
  createArtifact := fun _ s => .error (.storage (.operationalError "disk I/O error")) s }

/-- The write task of the sample run. -/
def system (S : ChangeSetHandler CaptureStore) : ChainSystem CaptureStore where
  handlers := { S with
    machine := machine, runtimeRoot := ["runtime"], processId := 1, ttl := 30, heartbeat := none, maxChangedPaths := 500 }
  digits := CommandGuard.asciiDigits
  store := id
  digests := sampleDigests
  runId := "r"
  graph := sampleGraph
  source := sampleGraph.nodes[2]

theorem system_lawful {S : ChangeSetHandler CaptureStore}
    (hS : S.Documented id (Beside CaptureStore.db (OffChain sampleDigests "r" "write"))) : (system S).Lawful :=
  { hS with
    process := fun _ _ _ => .throw _
    openRoot := fun _ => .throw _
    closeRoot := fun _ => .throw _
    assertRootIdentity := fun _ => .throw _
    openPolicy := fun _ => .throw _
    validateCleanupPath := fun _ _ => .throw _
    replaceRegular := fun _ _ _ _ => .throw _
    createPrivateTemporaryDirectory := fun _ => .throw _
    removePrivateTemporaryDirectory := fun _ => .throw _
    inspectSourceRepository := fun _ _ => .throw _
    createSessionRepository := fun _ _ _ => .throw _
    makeDirectory := fun _ => .throw _
    resolve := fun _ => .throw _
    commitValidationBaseline := fun _ => .throw _
    workspaceTransaction := fun _ _ _ _ => .throw _
    validation := fun h => by cases h
    runTest := fun _ _ _ => .throw _ }

theorem handler_documented : GateRoom.handler.Documented id (Beside CaptureStore.db (OffChain sampleDigests "r" "write")) :=
  GateRoom.handler_documented fun _ => .of_same rfl rfl fun _ => rfl

theorem fullDisk_documented : fullDisk.Documented id (Beside CaptureStore.db (OffChain sampleDigests "r" "write")) :=
  { handler_documented with createArtifact := fun _ s => refl_of (Beside CaptureStore.db (OffChain sampleDigests "r" "write")) s }

theorem claimed_home : GateRoom.Home claimedDb "write" :=
  ⟨by decide +kernel, by decide +kernel, by decide +kernel, by decide +kernel⟩

/-- The ChangeSet in the store is nothing to the run. -/
theorem store_runState (db : Db) (status : ChangeSetStatus) (rid : String) :
    (GateRoom.store db status).db.runState rid = db.runState rid := rfl

theorem claimed_reached : Relation.ReflTransGen (ScheduleStep sampleDigests "r") (GateRoom.store sampleDb .captured).db
    (GateRoom.store claimedDb .guardPassed).db := by
  have hrounds := sampleRounds_reach [("rin", .success), ("rwrite", .success), ("rw1", .success)]
    (GateRoom.store sampleDb .captured).db
  have hstarted : Relation.ReflTransGen (ScheduleStep sampleDigests "r") (GateRoom.store sampleDb .captured).db claimedDb := by
    unfold claimedDb sampleStart
    generalize List.foldl sampleRound _ _ = db at hrounds ⊢
    exact (hrounds.tail (.startAndReconcile _ _ _)).tail (.claimNext _ _ _)
  exact hstarted.tail (.other _ (store_runState _ _ _))

/-- The nodes that the three handlers run have not succeeded. -/
def Unfinished (db : Db) : Prop :=
  ∀ node ∈ sampleGraph.nodes, (node.nodeType = .commandGuard ∨ node.nodeType = .test ∨ node.nodeType = .riskClassifier) →
    ∀ row ∈ db.rowsOf "r", row.nodeId = node.id → row.outcome ≠ some .success

instance (db : Db) : Decidable (Unfinished db) := inferInstanceAs (Decidable (∀ _ ∈ _, _))

theorem reported {S : ChangeSetHandler CaptureStore} {s : CaptureStore} (h : Unfinished s.db) (turns : List Turn) :
    (system S).Reported s turns :=
  fun node hnode row hrow hid hout => absurd hout (h node hnode.mem hnode.type row hrow hid)

theorem start (S : ChangeSetHandler CaptureStore) :
    (system S).Start (GateRoom.store sampleDb .captured).db ⟨sampleRunRow.core, sampleGraph.nodes.map sampleNodeRun⟩
      (GateRoom.call.changeSetId captureRepo) (GateRoom.store claimedDb .guardPassed) where
  fresh := { sample_fresh with state := rfl }
  passed := ⟨claimed_reached, GateRoom.store_source claimed_home, by
    change ((GateRoom.store claimedDb .guardPassed).db.changeSets.get? _).map _ = _
    rw [GateRoom.store_row]
    rfl⟩
  reported := reported (by decide +kernel) []

theorem running_of {S : ChangeSetHandler CaptureStore} {db : Db} {status : ChangeSetStatus} {node : WorkflowNode}
    (h : ∃ row ∈ db.rowsOf "r", row.nodeId = node.id ∧ row.status = .running) :
    (system S).Running (GateRoom.store db status) node := h

theorem claimed_running (S : ChangeSetHandler CaptureStore) :
    (system S).Running (GateRoom.store claimedDb .guardPassed) sampleGraph.nodes[4] := by
  refine running_of ?_
  decide +kernel

theorem fullDisk_reading {α : Type} (query : CaptureStore → Except ArtifactError α) :
    fullDisk.reading query = GateRoom.handler.reading query := rfl

/-- Where the disk is full a report raises. -/
theorem fullDisk_report (graph : CompiledGraph) (node : WorkflowNode) (db : Db) (status : ChangeSetStatus)
    (record : ChangeSetRecord) (model : Plain) :
    fullDisk.report (GateRoom.context graph node) record "command-guard" .report model (GateRoom.store db status) =
      .error (.storage (.operationalError "disk I/O error")) (GateRoom.store db status) := by
  let new := fullDisk.reportArtifact (GateRoom.context graph node) record "command-guard" .report model
  have hid : new.artifactId = GateRoom.reportId := GateRoom.report_id graph node record model
  have hcreate : outcome (fullDisk.createArtifact new) (GateRoom.store db status) =
      .ok (.error (.storage (.operationalError "disk I/O error"))) (GateRoom.store db status) := rfl
  have habsent : ∃ e, getAndVerify captureRepo (GateRoom.store db status) new.artifactId
      (GateRoom.context graph node).run.sessionId record.changeSet.taskId none = .error e := by
    cases hfound : getAndVerify captureRepo (GateRoom.store db status) new.artifactId
        (GateRoom.context graph node).run.sessionId record.changeSet.taskId none with
    | error e => exact ⟨e, rfl⟩
    | ok p =>
      unfold getAndVerify at hfound
      obtain ⟨_, -, hfound⟩ := Tx.bind_ok.1 hfound
      rw [hid, show (GateRoom.store db status).db.artifacts.get? GateRoom.reportId = none from GateRoom.report_free] at hfound
      cases hfound
  obtain ⟨e, he⟩ := habsent
  have hread : fullDisk.reading (fun s => getAndVerify captureRepo s new.artifactId
      (GateRoom.context graph node).run.sessionId record.changeSet.taskId none) (GateRoom.store db status) =
      .error (.storage (.operationalError "")) (GateRoom.store db status) := by
    rw [fullDisk_reading]
    exact GateRoom.handler_reading_error he
  have hfound : outcome (fullDisk.reading fun s => getAndVerify captureRepo s new.artifactId
      (GateRoom.context graph node).run.sessionId record.changeSet.taskId none) (GateRoom.store db status) =
      .ok (.error (.storage (.operationalError ""))) (GateRoom.store db status) := by
    unfold outcome
    rw [hread]
  unfold ChangeSetHandler.report
  refine (run_bind_ok hcreate).trans ?_
  dsimp only
  rw [if_neg (by simp [Fault.isException])]
  exact (run_bind_ok hfound).trans rfl

theorem fullDisk_source (context : NodeExecutionContext) : fullDisk.source context = GateRoom.handler.source context := rfl

/-- The guard raises there. -/
theorem fullDisk_raises : (system fullDisk).handlers.handle (system fullDisk).digits
    (GateRoom.context sampleGraph sampleGraph.nodes[4]) (GateRoom.store claimedDb .guardPassed) =
      .error (.storage (.operationalError "disk I/O error")) (GateRoom.store claimedDb .guardPassed) := by
  let record := GateRoom.call.record captureRepo .guardPassed ""
  let s := GateRoom.store claimedDb .guardPassed
  have hsource : sourceTask sampleGraph sampleGraph.nodes[4] = .ok ("write", sampleGraph.nodes[2]) := rfl
  have hread : fullDisk.source (GateRoom.context sampleGraph sampleGraph.nodes[4]) s = .ok (sampleGraph.nodes[2], record) s := by
    rw [fullDisk_source]
    exact GateRoom.handler_source claimed_home hsource
  have htest : raising (successorTest sampleGraph sampleGraph.nodes[4]) s = .ok sampleGraph.nodes[5] s := rfl
  have hjudge : CommandGuardNodeHandler.judge CommandGuard.asciiDigits sampleGraph.nodes[2] sampleGraph.nodes[5] =
      .ok (some ⟨"pytest", ["pytest"]⟩, none) := by decide +kernel
  have hvalid : (CommandGuardNodeHandler.artifactOf record sampleGraph.nodes[5] (some ⟨"pytest", ["pytest"]⟩) none).valid =
      true := by decide +kernel
  change CommandGuardNodeHandler.execute fullDisk CommandGuard.asciiDigits _ s = _
  refine (run_bind_ok hread).trans ((run_bind_ok htest).trans ?_)
  dsimp only
  rw [hjudge]
  dsimp only
  rw [if_neg (not_not.2 hvalid)]
  exact run_bind_error (fullDisk_report _ _ _ _ _ _)

/-- What the executor makes of the guard that raised. -/
def fail (db : Db) : Db :=
  (Tx.commit (WorkflowRunRepository.completeNode sampleDigests "rw2" .failed .failure "" sampleLease none
    (some "handler_exception") sampleNow) db).2

/-- The run once its guard has failed. -/
def failedDb : Db :=
  fail (GateRoom.store claimedDb .guardPassed).db

theorem fail_schedules (db : Db) : Relation.ReflTransGen (ScheduleStep sampleDigests "r") db (fail db) :=
  .single (.completeNode "rw2" .failed .failure "" sampleLease none (some "handler_exception") sampleNow)

theorem failed_source : sourceChangeSet failedDb "r" "write" = some (GateRoom.call.changeSetId captureRepo) := by
  decide +kernel

theorem failed_status : failedDb.changeSetStatus (GateRoom.call.changeSetId captureRepo) = some .guardPassed := by
  decide +kernel

theorem claimed_status : (GateRoom.store claimedDb .guardPassed).db.changeSetStatus (GateRoom.call.changeSetId captureRepo) =
    some .guardPassed := by
  decide +kernel

theorem failed_off : OffChain sampleDigests "r" "write" (GateRoom.store claimedDb .guardPassed).db failedDb where
  schedules := by
    unfold failedDb
    exact fail_schedules _
  stays id hid := by
    obtain rfl := Option.some.inj (hid.symm.trans (GateRoom.store_source claimed_home))
    exact ⟨failed_source, failed_status.trans claimed_status.symm⟩

theorem beside_of {S : ChangeSetHandler CaptureStore} {s : CaptureStore} {db : Db}
    (h : OffChain sampleDigests "r" "write" s.db db) : (system S).Beside s { s with db := db } := h

end ChainRoom

open ChainRoom in
/-- The guard of the sample run finds its ChangeSet `guard_passed`. -/
theorem test_chain_agrees_sample : (GateRoom.store claimedDb .guardPassed).db.changeSetStatus
    (GateRoom.call.changeSetId captureRepo) = some (entryStatus sampleGraph.nodes[4]) := by
  obtain ⟨_, _, _, -, hruns⟩ := test_chain_agrees (system GateRoom.handler) sample_accepted (List.getElem_mem _) (by decide)
    (system_lawful handler_documented) (start GateRoom.handler)
  obtain ⟨status, hstatus, -, hentered, -⟩ := hruns _ [] .start
  obtain ⟨rfl, -⟩ := hentered sampleGraph.nodes[4] ⟨List.getElem_mem _, rfl, .inl rfl⟩ (claimed_running GateRoom.handler) (by simp)
  exact hstatus

open ChainRoom in
/-- Where the disk is full the guard of the sample run raises, its node run fails, and its ChangeSet is still
`guard_passed`. -/
theorem failed_guard_stays : sampleValidator.Accepts sampleGraph ∧ (system fullDisk).Lawful ∧
    (system fullDisk).Run (GateRoom.store claimedDb .guardPassed)
      { GateRoom.store claimedDb .guardPassed with db := failedDb } [⟨sampleGraph.nodes[4], none⟩] ∧
    (∃ row ∈ failedDb.rowsOf "r", row.nodeId = "w2" ∧ row.status = .failed ∧ row.outcome = some .failure) ∧
    failedDb.changeSetStatus (GateRoom.call.changeSetId captureRepo) = some .guardPassed := by
  refine ⟨sample_accepted, system_lawful fullDisk_documented, ?_, by decide +kernel, failed_status⟩
  have hclaimed : (system fullDisk).Run (GateRoom.store claimedDb .guardPassed) (GateRoom.store claimedDb .guardPassed)
      [⟨sampleGraph.nodes[4], none⟩] := by
    have hturn := ChainSystem.Run.turn (Y := system fullDisk) (GateRoom.context sampleGraph sampleGraph.nodes[4]) .start rfl rfl
      ⟨List.getElem_mem _, rfl, .inl rfl⟩ (claimed_running fullDisk) (by simp) (ChainRoom.reported (by rw [fullDisk_raises]; decide +kernel) _)
    rwa [fullDisk_raises] at hturn
  exact hclaimed.beside (beside_of failed_off) (ChainRoom.reported (by decide +kernel) _)

end AgentHub
