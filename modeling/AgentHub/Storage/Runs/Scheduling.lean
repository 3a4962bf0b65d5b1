import AgentHub.Storage.Runs.Invariant
import AgentHub.Storage.Runs.Termination
/-!
# Scheduling a run

The states a fresh run of an accepted graph can reach by the scheduling operations, in any order and
among any other transactions that leave the run alone. At most one node run is active
(`single_active_node`), and a start leaves a run that has not ended with an active node run.
-/

namespace AgentHub

open Lib WorkflowRunRepository

/-! ## Runs of the scheduling operations -/

/-- The run as `create` leaves it: pending, one pending node run for each node. -/
structure FreshRun (db : Db) (rid : String) (graph : CompiledGraph) (s : RunState) : Prop where
  state : db.runState rid = some s
  snapshot : s.run.compiledSnapshot = graph
  pending : s.run.status = .pending
  uncancelled : s.run.cancelRequestedAt = none
  unmerged : s.run.mergeFinalizingAt = none
  nodes : (s.rows.map NodeRunRow.nodeId).Perm (nodeIds graph.nodes)
  fresh : ∀ r ∈ s.rows, r.status = .pending ∧ r.attempt = 1 ∧ r.outcome = none

/-- One committed transaction: a scheduling operation, or any other that leaves run `rid` alone. -/
inductive ScheduleStep (H : Digests) (rid : String) (db : Db) : Db → Prop
  | startAndReconcile (ord : RowOrder) (lease : MasterLease) (now : Instant) :
      ScheduleStep H rid db (Tx.commit (startAndReconcile H ord rid lease now) db).2
  | claimNext (ord : RowOrder) (lease : MasterLease) (now : Instant) :
      ScheduleStep H rid db (Tx.commit (claimNext H ord rid lease now) db).2
  | completeNode (nodeRunId : String) (target : NodeRunStatus) (outcome : NodeOutcome) (summary : String)
      (lease : MasterLease) (artifact error : Option String) (now : Instant) :
      ScheduleStep H rid db (Tx.commit (completeNode H nodeRunId target outcome summary lease artifact error now) db).2
  | enterWaitingApproval (ord : RowOrder) (nodeRunId approvalId : String) (lease : MasterLease) (now : Instant) :
      ScheduleStep H rid db (Tx.commit (enterWaitingApproval ord nodeRunId approvalId lease now) db).2
  | resumeAfterApproval (ord : RowOrder) (nodeRunId : String) (approved : Bool) (lease : MasterLease) (now : Instant) :
      ScheduleStep H rid db (Tx.commit (resumeAfterApproval ord rid nodeRunId approved lease now) db).2
  | resumeAfterApprovalIn (ord : RowOrder) (nodeRunId : String) (approved : Bool) (lease : MasterLease) (now : Instant) :
      ScheduleStep H rid db (Tx.commit (resumeAfterApprovalIn ord rid nodeRunId approved lease now) db).2
  | other (db' : Db) (h : db'.runState rid = db.runState rid) : ScheduleStep H rid db db'

/-- What one transaction does to the run: steps without a claim, or a claim. -/
theorem scheduleStep_moves {H : Digests} {rid : String} {db db' : Db} (h : ScheduleStep H rid db db') {s : RunState}
    (hs : db.runState rid = some s) :
    ∃ s', db'.runState rid = some s' ∧ (Relation.ReflTransGen MoveStep s s' ∨
      ∃ r now, r ∈ s.rows ∧ r.status = .ready ∧ s.run.status = .running ∧ s.run.cancelRequestedAt = none ∧
        s' = s.setRow r.id fun r => { r with status := .running, startedAt := some (utcNowText now) }) := by
  have hgate : ∀ {rid' : String} {db' : Db}, GateSteps rid' db db' →
      ∃ s', db'.runState rid = some s' ∧ Relation.ReflTransGen MoveStep s s' := by
    rintro rid' db' (rfl | ⟨honly, t, t', ht, -, ht', hsteps⟩)
    · exact ⟨s, hs, .refl⟩
    · by_cases hid : rid = rid'
      · subst hid
        rw [ht] at hs
        obtain rfl := Option.some.inj hs
        exact ⟨t', ht', hsteps⟩
      · exact ⟨s, (honly.others _ hid).trans hs, .refl⟩
  have hstay : ∀ {db' : Db}, db' = db → ∃ s', db'.runState rid = some s' ∧ Relation.ReflTransGen MoveStep s s' := by
    rintro _ rfl
    exact ⟨s, hs, .refl⟩
  have hmove : (∃ s', db'.runState rid = some s' ∧ Relation.ReflTransGen MoveStep s s') →
      ∃ s', db'.runState rid = some s' ∧ (Relation.ReflTransGen MoveStep s s' ∨
        ∃ r now, r ∈ s.rows ∧ r.status = .ready ∧ s.run.status = .running ∧ s.run.cancelRequestedAt = none ∧
          s' = s.setRow r.id fun r => { r with status := .running, startedAt := some (utcNowText now) }) :=
    fun ⟨s', hs', hsteps⟩ => ⟨s', hs', .inl hsteps⟩
  cases h with
  | startAndReconcile ord lease now =>
    refine hmove ?_
    rcases Tx.commit_cases (startAndReconcile H ord rid lease now) db with h | ⟨a, h⟩
    · exact hstay h
    · obtain ⟨-, t, t', ht, ht', hst⟩ := startAndReconcile_spec h
      rw [ht] at hs
      obtain rfl := Option.some.inj hs
      exact ⟨t', ht', hst.steps⟩
  | claimNext ord lease now =>
    rcases Tx.commit_cases (claimNext H ord rid lease now) db with h | ⟨a, h⟩
    · exact hmove (hstay h)
    · rcases claimNext_spec h with ⟨-, h⟩ | ⟨-, r, t, ht, hr, hready, hrun, hcancel, ht'⟩
      · exact hmove (hstay h)
      · rw [ht] at hs
        obtain rfl := Option.some.inj hs
        exact ⟨_, ht', .inr ⟨r, now, hr, hready, hrun, hcancel, rfl⟩⟩
  | completeNode nodeRunId target outcome summary lease artifact error now =>
    refine hmove ?_
    rcases Tx.commit_cases (completeNode H nodeRunId target outcome summary lease artifact error now) db with h | ⟨a, h⟩
    · exact hstay h
    · obtain ⟨node, run, -, honly, t, t', ht, ht', hstep⟩ := completeNode_spec h
      by_cases hid : rid = run.id
      · subst hid
        rw [ht] at hs
        obtain rfl := Option.some.inj hs
        exact ⟨t', ht', .single hstep⟩
      · exact ⟨s, (honly.others _ hid).trans hs, .refl⟩
  | enterWaitingApproval ord nodeRunId approvalId lease now =>
    refine hmove ?_
    rcases Tx.commit_cases (enterWaitingApproval ord nodeRunId approvalId lease now) db with h | ⟨a, h⟩
    · exact hstay h
    · obtain ⟨node, run, -, hsteps⟩ := enterWaitingApproval_spec h
      exact hgate hsteps
  | resumeAfterApproval ord nodeRunId approved lease now =>
    refine hmove ?_
    rcases Tx.commit_cases (resumeAfterApproval ord rid nodeRunId approved lease now) db with h | ⟨a, h⟩
    · exact hstay h
    · exact hgate (resumeAfterApproval_spec h)
  | resumeAfterApprovalIn ord nodeRunId approved lease now =>
    refine hmove ?_
    rcases Tx.commit_cases (resumeAfterApprovalIn ord rid nodeRunId approved lease now) db with h | ⟨a, h⟩
    · exact hstay h
    · exact hgate (resumeAfterApprovalIn_spec h)
  | other db' h => exact ⟨s, h.trans hs, .inl .refl⟩

/-! ## The invariant of every reachable state -/

section
variable {graph : CompiledGraph} {input output : WorkflowNode} {H : Digests} {rid : String} {db₀ db : Db} {s₀ : RunState}

theorem FreshRun.inv (W : WellFormed graph input output) (h : FreshRun db₀ rid graph s₀) : RunInv W s₀ where
  snapshot := h.snapshot
  ids := ids_nodup h.state
  nodes := h.nodes
  token := by
    have hmark : s₀.mark = fun _ => .pending := by
      funext v
      unfold RunState.mark
      cases hrow : s₀.row? v with
      | none => rfl
      | some r => exact mark_pending.2 (h.fresh r (List.mem_of_find?_eq_some hrow)).1
    rw [hmark]
    exact Token.inv_start
  outcomes := fun r hr => .inl (h.fresh r hr).1
  waiting := by simp [h.pending]
  status := by simp [h.pending]

/-- Every transaction keeps the invariant. -/
theorem ScheduleStep.inv {W : WellFormed graph input output} {db' : Db} {s : RunState} (hs : db.runState rid = some s)
    (hinv : RunInv W s) (h : ScheduleStep H rid db db') : ∃ s', db'.runState rid = some s' ∧ RunInv W s' := by
  obtain ⟨s', hs', hsteps | ⟨r, now, hr, hready, hrun, -, rfl⟩⟩ := scheduleStep_moves h hs
  · exact ⟨s', hs', hinv.steps (MoveStep.sched hsteps)⟩
  · exact ⟨_, hs', hinv.claim hr hready hrun now⟩

theorem runInv_of_reachable (W : WellFormed graph input output) (hfresh : FreshRun db₀ rid graph s₀)
    (hrun : Relation.ReflTransGen (ScheduleStep H rid) db₀ db) : ∃ s, db.runState rid = some s ∧ RunInv W s := by
  induction hrun with
  | refl => exact ⟨s₀, hfresh.state, hfresh.inv W⟩
  | tail _ hstep ih =>
    obtain ⟨s, hs, hinv⟩ := ih
    exact hstep.inv hs hinv

end

/-! ## A sample run -/

/-- A validator with every node type registered. -/
def sampleValidator : ExecutableValidator where
  registry := ⟨[.input, .agentTask, .contextBuilder, .patchGuard, .commandGuard, .test, .riskClassifier, .approval,
    .mergePatch, .output, .ifNode].map fun t => (t, t)⟩
  writeRuntimeEnabled := true
  classifyPaths := fun paths => if paths.isEmpty then .l0 else .l1

/-- A node of the chain of the task `write`. -/
def sampleSystemNode (id : String) (t : NodeType) (rule : String) : WorkflowNode where
  id := id
  nodeType := t
  title := id
  systemManaged := true
  sourceNodeId := some "write"
  systemRuleId := some rule
  policyRiskFloor := some .l1

/-- One write task with its chain. -/
def sampleGraph : CompiledGraph where
  sourceAuthorHash := "a"
  integrationBaseCommit := "0"
  policyVersion := "p"
  agentCatalogSnapshotHash := "k"
  nodes := [
    { id := "in", nodeType := .input, title := "in" },
    { id := "out", nodeType := .output, title := "out" },
    { id := "write", nodeType := .agentTask, taskKind := some .implement, title := "write",
      resolvedAgentId := some "g", resolvedAgentSpecSha256 := some "s", allowedFilesCandidate := ["f.py"],
      allowedCommandsCandidate := [["pytest"]], effectiveAllowedFiles := some ["f.py"], effectiveNewFiles := some [],
      effectiveAllowedCommands := some [["pytest"]], policyRiskFloor := some .l1,
      requiresChangesetApproval := some true, requiresWrite := true },
    sampleSystemNode "w1" .patchGuard "write.patch_guard.v1",
    sampleSystemNode "w2" .commandGuard "write.command_guard.1.v1",
    { sampleSystemNode "w3" .test "write.command_test.1.v1" with
      testKind := some .command, testArgv := some ["pytest"] },
    sampleSystemNode "w4" .riskClassifier "write.risk_classifier.v1",
    sampleSystemNode "w5" .approval "write.changeset_approval.v1",
    sampleSystemNode "w6" .mergePatch "write.merge_patch.v1"]
  edges := [⟨"e0", "in", "write", .success, false⟩, ⟨"e1", "write", "w1", .success, true⟩,
    ⟨"e2", "w1", "w2", .success, true⟩, ⟨"e3", "w2", "w3", .success, true⟩, ⟨"e4", "w3", "w4", .success, true⟩,
    ⟨"e5", "w4", "w5", .success, true⟩, ⟨"e6", "w5", "w6", .approved, true⟩, ⟨"e7", "w6", "out", .success, true⟩,
    ⟨"f1", "w1", "out", .failure, true⟩, ⟨"f2", "w2", "out", .failure, true⟩, ⟨"f3", "w3", "out", .failure, true⟩,
    ⟨"f4", "w4", "out", .failure, true⟩, ⟨"f5", "w5", "out", .rejected, true⟩, ⟨"f6", "w6", "out", .failure, true⟩]

theorem sample_accepted : sampleValidator.Accepts sampleGraph := by
  unfold ExecutableValidator.Accepts
  decide +kernel

def sampleDigests : Digests where
  author _ := "a"
  compiled _ := "c"
  layout _ := "l"
  catalog _ := "k"
  nodeRunId rid id _ := rid ++ id
  taskIdForNode id := "t" ++ id

def sampleRunRow : WorkflowRunRow where
  id := "r"
  workflowId := "w"
  sessionId := "s"
  integrationBaseCommit := "0"
  currentCommit := "0"
  authorSnapshot := {}
  authorSnapshotHash := "a"
  compiledSnapshot := sampleGraph
  compiledSnapshotHash := "c"
  layoutSnapshot := ""
  layoutSnapshotHash := "l"
  policyVersion := "p"
  agentCatalogSnapshot := ⟨[], "k"⟩
  agentCatalogSnapshotHash := "k"
  status := .pending
  createdAt := ""

def sampleNodeRun (n : WorkflowNode) : NodeRunRow where
  id := "r" ++ n.id
  workflowRunId := "r"
  nodeId := n.id
  nodeType := n.nodeType
  status := .pending
  createdAt := ""

def sampleNow : Instant := ⟨0, zero_lt_maxMicros⟩

def sampleLease : MasterLease := ⟨"m", "i", 1, 1, "", "0002"⟩

/-- The sample run as it was created, with the records its write task will have left. -/
def sampleDb : Db where
  sessions := ⟨[⟨"s", "/repo", "0", .active, ""⟩], List.nodup_singleton "s", List.nodup_singleton "/repo"⟩
  workflows := ⟨[⟨"w", "s", 1, 1, "a", "l"⟩], List.nodup_singleton "w", List.nodup_singleton "w"⟩
  workflowRuns := ⟨[sampleRunRow], by decide, by decide⟩
  nodeRuns := ⟨sampleGraph.nodes.map sampleNodeRun, by decide, by decide⟩
  tasks := ⟨[⟨"t", "rwrite", "g", "0", none, none, .succeeded, "", none⟩], by decide, by decide⟩
  changeSets := ⟨[⟨"c", "t", "0", "p", .captured, "", ""⟩], by decide, by decide⟩
  artifacts := Table.empty
  approvals := Table.empty
  privilegeRequests := Table.empty
  capabilityGrants := Table.empty
  masterLeases := ⟨[⟨"m", "i", 1, 1, "", "0002"⟩], by decide, by decide⟩
  fileLocks := ⟨[⟨"session:s:integration", "agent_task", "t", 1, 1, "", "", "0002", none⟩], by decide, by decide⟩
  events := [⟨"s", some "w", some "r", some 0, taskStateChanged, .master, none,
    .task 1 (some 1) "r" "rwrite" "t" none .succeeded none, ""⟩]

theorem sample_fresh : FreshRun sampleDb "r" sampleGraph ⟨sampleRunRow.core, sampleGraph.nodes.map sampleNodeRun⟩ where
  state := rfl
  snapshot := rfl
  pending := rfl
  uncancelled := rfl
  unmerged := rfl
  nodes := .refl _
  fresh := by decide

def sampleStart (db : Db) : Db :=
  (Tx.commit (startAndReconcile sampleDigests .table "r" sampleLease sampleNow) db).2

/-- Start the run, claim the next node run and complete `id` with an outcome. -/
def sampleRound (db : Db) (step : String × NodeOutcome) : Db :=
  (Tx.commit (completeNode sampleDigests step.1 .completed step.2 "" sampleLease none none sampleNow)
    (Tx.commit (claimNext sampleDigests .table "r" sampleLease sampleNow) (sampleStart db)).2).2

def sampleAfter (steps : List (String × NodeOutcome)) : Db := steps.foldl sampleRound sampleDb

theorem sampleRounds_reach (steps : List (String × NodeOutcome)) (db : Db) :
    Relation.ReflTransGen (ScheduleStep sampleDigests "r") db (steps.foldl sampleRound db) := by
  induction steps generalizing db with
  | nil => exact .refl
  | cons step steps ih =>
    have hround : Relation.ReflTransGen (ScheduleStep sampleDigests "r") db (sampleRound db step) :=
      ((Relation.ReflTransGen.single (.startAndReconcile _ _ _)).tail (.claimNext _ _ _)).tail (.completeNode _ _ _ _ _ _ _ _)
    exact hround.trans (ih _)

theorem sample_reaches (steps : List (String × NodeOutcome)) :
    Relation.ReflTransGen (ScheduleStep sampleDigests "r") sampleDb (sampleAfter steps) := sampleRounds_reach steps sampleDb

/-! ## One active node run -/

section
variable {graph : CompiledGraph} {input output : WorkflowNode} {H : Digests} {rid : String} {db₀ db : Db} {s₀ : RunState}

theorem RunInv.active_unique {W : WellFormed graph input output} {s : RunState} (h : RunInv W s) {r r' : NodeRunRow}
    (hr : r ∈ s.rows) (hr' : r' ∈ s.rows) (ha : r.isActive = true) (ha' : r'.isActive = true) : r = r' := by
  have hm := (mark_of_mem h.node_nodup hr).trans (mark_active.2 ha)
  have hm' := (mark_of_mem h.node_nodup hr').trans (mark_active.2 ha')
  exact List.inj_on_of_nodup_map h.node_nodup hr hr' (h.token.active_unique hm hm')

/-- At most one node run is ready, running or waiting for an approval, and a claim hands out a node run only
when no other is running or waiting. -/
theorem single_active_node {V : ExecutableValidator} (haccept : V.Accepts graph) (hfresh : FreshRun db₀ rid graph s₀)
    (hrun : Relation.ReflTransGen (ScheduleStep H rid) db₀ db) :
    (∀ r ∈ db.rowsOf rid, ∀ r' ∈ db.rowsOf rid, r.isActive = true → r'.isActive = true → r = r') ∧
      ∀ ord lease now row db', (claimNext H ord rid lease now).run db = .ok (some row, db') →
        ∀ r ∈ db.rowsOf rid, r.status ≠ .running ∧ r.status ≠ .waitingApproval := by
  obtain ⟨input, output, W⟩ := haccept.wellFormed
  obtain ⟨s, hs, hinv⟩ := runInv_of_reachable W hfresh hrun
  rw [(runState_eq_some.1 hs).2]
  refine ⟨fun r hr r' hr' => hinv.active_unique hr hr', fun ord lease now row db' hclaim r hr => ?_⟩
  rcases claimNext_spec hclaim with ⟨h, -⟩ | ⟨-, q, t, ht, hq, hready, -⟩
  · cases h
  · rw [ht] at hs
    obtain rfl := Option.some.inj hs
    have hne : ∀ {st : NodeRunStatus}, r.status = st → st ∈ [.running, .waitingApproval] → False := by
      intro st hst hmem
      have hact : r.isActive = true := by
        simp only [List.mem_cons, List.not_mem_nil, or_false] at hmem
        rcases hmem with rfl | rfl <;> simp [NodeRunRow.isActive, hst]
      have heq := hinv.active_unique hr hq hact (by simp [NodeRunRow.isActive, hready])
      rw [heq, hready] at hst
      subst hst
      simp at hmem
    exact ⟨fun h => hne h (by simp), fun h => hne h (by simp)⟩

end

theorem single_active_node_sample :
    (∃ r ∈ (sampleStart (sampleAfter [("rin", .success)])).rowsOf "r", r.isActive = true) ∧
      ∀ r ∈ (sampleStart (sampleAfter [("rin", .success)])).rowsOf "r",
        ∀ r' ∈ (sampleStart (sampleAfter [("rin", .success)])).rowsOf "r", r.isActive = true → r'.isActive = true → r = r' := by
  have hreach := (sample_reaches [("rin", .success)]).tail (.startAndReconcile .table sampleLease sampleNow)
  exact ⟨by decide +kernel, (single_active_node sample_accepted sample_fresh hreach).1⟩

end AgentHub
