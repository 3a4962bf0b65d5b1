import AgentHub.Security.CommandSoundness
import AgentHub.Storage.Captures.ReadBack
import AgentHub.Workflow.Handlers.Contracts
/-!
# The command guard as a gate

What a command guard that returned has let through or stopped. It lets a test through whose argv the guard accepts, also
when the source task was never given it.
-/

namespace AgentHub

open Lib Workspace Security CaptureStore

/-! ## The gate -/

/-- What others may do to the store beside a guard: a status without edges is never left, an artifact is never changed. -/
structure Calm (s s' : CaptureStore) : Prop where
  ended (id : String) (status : ChangeSetStatus) (hend : status.transitions = [])
    (h : s.db.changeSetStatus id = some status) : s'.db.changeSetStatus id = some status
  kept (row : ArtifactRow) (content : Bytes) (h : s.Keeps row content) : s'.Keeps row content

instance : IsPreorder CaptureStore Calm where
  refl _ := ⟨fun _ _ _ h => h, fun _ _ h => h⟩
  trans _ _ _ h h' := ⟨fun id status hend hs => h'.ended id status hend (h.ended id status hend hs),
    fun row content hrow => h'.kept row content (h.kept row content hrow)⟩

namespace CommandGuardNodeHandler

/-- What a guard that returned has decided: it let the test through, whose argv the guard accepts and the source task was
given, while the ChangeSet was `guard_passed`; or it stopped the chain, with the ChangeSet and a report to show for it. -/
inductive Decided (D : Digits) (context : NodeExecutionContext) (s s' : CaptureStore) (result : NodeHandlerResult) : Prop
  | passes {sourceId : String} {source test : WorkflowNode} {argv : List String} {approved : ApprovedCommand}
      {record : ChangeSetRecord} (hsource : sourceTask context.run.compiledSnapshot context.node = .ok (sourceId, source))
      (htest : successorTest context.run.compiledSnapshot context.node = .ok test) (hargv : test.testArgv = some argv)
      (haccepted : CommandGuard.validate D argv = .ok approved)
      (hscope : approved.argv ∈ source.effectiveAllowedCommands.getD [])
      (hread : ReadBetween Calm s s' context.run.id sourceId record) (hpassed : record.changeSet.status = .guardPassed)
      (houtcome : result.outcome = .success)
  | stops {sourceId : String} {source : WorkflowNode} {record : ChangeSetRecord} {artifact : CommandGuardArtifact}
      {row : ArtifactRow} (hsource : sourceTask context.run.compiledSnapshot context.node = .ok (sourceId, source))
      (hread : ReadBetween Calm s s' context.run.id sourceId record)
      (hfailed : s'.db.changeSetStatus record.changeSet.changeSetId = some .testFailed)
      (hresult : result.status = .blockedByGuard ∧ result.outcome = .blocked ∧ result.artifactRefs = [row.ref])
      (hreport : s'.Keeps row (canonicalJson artifact.dump)) (hsubject : artifact.changeSetId = record.changeSet.changeSetId)
      (hrejected : artifact.approved = false) (hreason : artifact.reason ≠ none)

/-- A guard node is a gate: whatever runs it returns from, it has decided. -/
def IsGate (D : Digits) (graph : CompiledGraph) (node : WorkflowNode) : Prop :=
  ∀ {W : Type} (S : ChangeSetHandler W) (store : W → CaptureStore), S.Documented store Calm →
    ∀ context : NodeExecutionContext, context.run.compiledSnapshot = graph → context.node = node →
    ∀ w result w', execute S D context w = .ok result w' → Decided D context (store w) (store w') result

/-- An argv that the guard accepts is one the source task was given. -/
def InScope (D : Digits) (graph : CompiledGraph) (node : WorkflowNode) : Prop :=
  ∀ sourceId source test argv approved, sourceTask graph node = .ok (sourceId, source) → successorTest graph node = .ok test →
    test.testArgv = some argv → CommandGuard.validate D argv = .ok approved →
    approved.argv ∈ source.effectiveAllowedCommands.getD []

/-- What was approved was accepted by the guard; where nothing was, there is a reason. -/
theorem judge_ok {D : Digits} {source test : WorkflowNode} {approved : Option ApprovedCommand} {reason : Option String}
    (h : judge D source test = .ok (approved, reason)) :
    (∃ argv a, test.testArgv = some argv ∧ CommandGuard.validate D argv = .ok a ∧ approved = some a) ∨
      (approved = none ∧ reason ≠ none) := by
  unfold judge at h
  split at h
  · cases h
    exact .inr ⟨rfl, by simp⟩
  · next argv hargv =>
    split at h
    · cases h
      exact .inr ⟨rfl, by simp⟩
    · cases h
    · next a haccepted =>
      split at h <;> cases h <;> exact .inl ⟨argv, a, hargv, haccepted, rfl⟩

/-- The transition of a guard that stops the chain leaves the artifacts alone, and its ChangeSet failed. -/
theorem transition_calm {id : String} {lease : MasterLease} {reason severity : Option String} {s s' : CaptureStore}
    (h : CaptureStore.Committed Calm (fun now => ChangeSetRepository.transition id .guardPassed .testFailed lease none reason severity now)
      () s s') : Calm s s' ∧ s'.db.changeSetStatus id = some .testFailed := by
  obtain ⟨now, m, db, hbefore, hrun, hafter⟩ := h
  obtain ⟨-, haudited⟩ := ChangeSetRepository.transition_audited hrun
  have hregisters := (ChangeSetRepository.transition_ok hrun).2.2
  have hmoved : Calm m { m with db } := by
    refine ⟨fun id' status hend hs => ?_, fun row content hrow => ⟨hregisters.artifacts _ _ hrow.1, hrow.2⟩⟩
    by_cases hid : id' = id
    · subst hid
      obtain rfl := Option.some.inj (haudited.before.symm.trans hs)
      cases hend
    · exact (haudited.others id' hid).trans hs
  exact ⟨trans_of Calm hbefore (trans_of Calm hmoved hafter), hafter.ended _ _ rfl haudited.after⟩

/-- What `execute` did when it returned, up to what was approved. -/
theorem execute_ok {W : Type} {S : ChangeSetHandler W} {store : W → CaptureStore} (hS : S.Documented store Calm) {D : Digits}
    {context : NodeExecutionContext} {w w' : W} {result : NodeHandlerResult} (h : execute S D context w = .ok result w') :
    ∃ sourceId source record test approved reason,
      sourceTask context.run.compiledSnapshot context.node = .ok (sourceId, source) ∧
      successorTest context.run.compiledSnapshot context.node = .ok test ∧
      judge D source test = .ok (approved, reason) ∧
      ReadBetween Calm (store w) (store w') context.run.id sourceId record ∧
      ∃ row, (store w').Keeps row (canonicalJson (artifactOf record test approved reason).dump) ∧
        (approved ≠ none ∧ record.changeSet.status = .guardPassed ∧ result.outcome = .success ∨
          approved = none ∧ (store w').db.changeSetStatus record.changeSet.changeSetId = some .testFailed ∧
            result.status = .blockedByGuard ∧ result.outcome = .blocked ∧ result.artifactRefs = [row.ref]) := by
  obtain ⟨⟨source, record⟩, w₁, hsource, h⟩ := bind_eq_ok.1 h
  obtain ⟨test, w₂, htest, h⟩ := bind_eq_ok.1 h
  obtain ⟨hsuccessor, rfl⟩ := raising_ok htest
  obtain ⟨sourceId, htask, m, m', hm, hid, hm', hstatus, hread⟩ := hS.source_ok hsource
  cases hjudge : judge D source test with
  | error e =>
    rw [hjudge] at h
    cases h
  | ok p =>
    obtain ⟨approved, reason⟩ := p
    rw [hjudge] at h
    dsimp only at h
    split at h
    · cases h
    · obtain ⟨ref, w₃, hreport, h⟩ := bind_eq_ok.1 h
      obtain ⟨row, n, href, hbefore, hkeeps, hafter⟩ := hS.report_ok hreport
      have hkept := hafter.kept _ _ hkeeps
      have hcalm : Calm m' (store w₃) := trans_of Calm hread (trans_of Calm hbefore hafter)
      cases approved with
      | some a =>
        dsimp only at h
        split at h
        · cases h
        · next hguard =>
          cases h
          exact ⟨sourceId, source, record, test, some a, reason, htask, hsuccessor, hjudge, ⟨m, m', hm, hid, hm', hstatus, hcalm⟩,
            row, hkept, .inl ⟨by simp, not_not.1 hguard, rfl⟩⟩
      | none =>
        obtain ⟨_, w₄, htransition, h⟩ := bind_eq_ok.1 h
        cases h
        obtain ⟨hmoved, hfailed⟩ := transition_calm (hS.transition_ok htransition)
        refine ⟨sourceId, source, record, test, none, reason, htask, hsuccessor, hjudge,
          ⟨m, m', hm, hid, hm', hstatus, trans_of Calm hcalm hmoved⟩, row, hmoved.kept _ _ hkept, .inr ?_⟩
        exact ⟨rfl, hfailed, rfl, rfl, by rw [href]; rfl⟩

theorem isGate_of_inScope {D : Digits} {graph : CompiledGraph} {node : WorkflowNode} (h : InScope D graph node) :
    IsGate D graph node := by
  rintro W S store hS context rfl rfl w result w' hrun
  obtain ⟨sourceId, source, record, test, approved, reason, hsource, htest, hjudge, hread, row, hkeeps, hend⟩ :=
    execute_ok hS hrun
  rcases judge_ok hjudge with ⟨argv, a, hargv, haccepted, rfl⟩ | ⟨rfl, hreason⟩
  · rcases hend with ⟨-, hpassed, houtcome⟩ | ⟨hnone, -⟩
    · exact .passes hsource htest hargv haccepted (h _ _ _ _ _ hsource htest hargv haccepted) hread hpassed houtcome
    · cases hnone
  · rcases hend with ⟨hsome, -⟩ | ⟨-, hfailed, hstatus, houtcome, hrefs⟩
    · exact absurd rfl hsome
    · exact .stops hsource hread hfailed ⟨hstatus, houtcome, hrefs⟩ hkeeps rfl rfl hreason

/-- The bounds of what the guard accepts. -/
theorem validate_bounds {D : Digits} {argv : List String} {a : ApprovedCommand} (h : CommandGuard.validate D argv = .ok a) :
    a.argv = argv ∧ argv.length ≤ 64 ∧ a.templateId.length ≤ 64 := by
  obtain ⟨⟨first, args⟩, hnormalize, h⟩ := Tx.bind_ok.1 h
  obtain ⟨templateId, htemplate, h⟩ := Tx.bind_ok.1 h
  obtain rfl := Tx.pure_ok.1 h
  refine ⟨rfl, ?_, ?_⟩
  · by_contra hlong
    cases argv with
    | nil => exact hlong (by simp)
    | cons executable args' =>
      simp only [CommandGuard.normalize, if_pos (Nat.lt_of_not_le hlong)] at hnormalize
      cases hnormalize
  · unfold CommandGuard.validateTemplate at htemplate
    dsimp only at htemplate
    have hshort : templateId ∈ ["pytest", "python-pytest", "npm-test", "pnpm-test", "go-test"] := by
      split_ifs at htemplate with hpytest hpython hnpm hgo
      · obtain ⟨_, -, h⟩ := Tx.bind_ok.1 htemplate
        simp [Tx.pure_ok.1 h]
      · obtain ⟨_, -, h⟩ := Tx.bind_ok.1 htemplate
        simp [Tx.pure_ok.1 h]
      · obtain ⟨_, -, h⟩ := Tx.bind_ok.1 htemplate
        have hname : casefold first.toList = "npm".toList ∨ casefold first.toList = "pnpm".toList := by
          simpa [texts] using hnpm
        rw [Tx.pure_ok.1 h]
        rcases hname with hname | hname <;> rw [hname] <;> decide
      · obtain ⟨_, -, h⟩ := Tx.bind_ok.1 htemplate
        simp [Tx.pure_ok.1 h]
    have hbound : ∀ id ∈ ["pytest", "python-pytest", "npm-test", "pnpm-test", "go-test"], id.length ≤ 64 := by decide
    exact hbound _ hshort

end CommandGuardNodeHandler

/-! ## A store with a ChangeSet -/

namespace GateRoom

/-- The sample capture with its preimage. -/
def call : PersistCapture := sampleCapture samplePreimages

/-- The artifacts of the capture, registered. -/
def artifacts : Table ArtifactRow ArtifactRow.id ArtifactRow.relativePath :=
  ⟨(call.artifacts captureRepo).map fun new => (stagedOf captureRepo new).record, by decide +kernel, by decide +kernel⟩

def files : ArtifactFiles := fun path =>
  ((call.artifacts captureRepo).find? fun new => pathOf new = path).map NewArtifact.content

/-- The store over a database where the ChangeSet of the task has a status. -/
def store (db : Db) (status : ChangeSetStatus) : CaptureStore where
  db := { db with
    changeSets := ⟨[call.row captureRepo status ""], by simp, by simp⟩
    artifacts := artifacts }
  columns _ := some (call.columns captureRepo)
  files := files

/-- The task of the capture is in the database, for a run of the node `sourceId`. -/
structure Home (db : Db) (sourceId : String) : Prop where
  task : (db.tasks.get? "t").map TaskRow.nodeRunId = some "rwrite"
  node : (db.nodeRuns.get? "rwrite").map (fun node => (node.workflowRunId, node.nodeId)) = some ("r", sourceId)
  run : (db.workflowRuns.get? "r").map WorkflowRunRow.sessionId = some "s"
  session : (db.sessions.get? "s").isSome = true

/-- The sample run with one node run, of the node `sourceId`. -/
def soleRun (sourceId : String) : Db := { sampleDb with
  nodeRuns := ⟨[⟨"rwrite", "r", sourceId, .agentTask, 1, .completed, none, none, none, none, none, "", none, none⟩],
    by simp, by simp⟩ }

theorem soleRun_home (sourceId : String) : Home (soleRun sourceId) sourceId where
  task := rfl
  node := by
    rw [Table.get?_of_mem (t := (soleRun sourceId).nodeRuns) (List.mem_singleton_self _)]
    rfl
  run := rfl
  session := rfl

/-- The repositories over a store, with nobody beside them. -/
def handler : ChangeSetHandler CaptureStore where
  transaction op s :=
    match (op sampleNow).run s.db with
    | .ok (a, db) => .ok a { s with db }
    | .error e => .error (.storage e) s
  held _ := ⟨⟨"", "", "", 0, 0, "", "", ""⟩, none⟩
  startHeartbeat _ s := s
  setLease _ s := s
  stopHeartbeat s := s
  host := sampleHost
  repository := captureRepo
  reading query s :=
    match query s with
    | .ok a => .ok a s
    | .error _ => .error (.storage (.operationalError "")) s
  createArtifact new s :=
    match s.db.artifacts.insert (stagedOf captureRepo new).record with
    | none => .error (.storage (.integrityError "artifacts")) s
    | some t => .ok (stagedOf captureRepo new).record
        { s with db := { s.db with artifacts := t }, files := Function.update s.files (pathOf new) (some new.content) }

theorem files_content : ∀ new ∈ call.artifacts captureRepo, files (pathOf new) = some new.content := by decide +kernel

theorem call_checked : call.Checked captureRepo := sampleCapture_checked samplePreimages (by simp)

theorem call_readable : call.Readable captureRepo := ⟨by decide +kernel, by decide, by decide⟩

section
variable {db : Db} {sourceId : String} {status : ChangeSetStatus}

theorem store_row : (store db status).db.changeSets.get? (call.changeSetId captureRepo) =
    some (call.row captureRepo status "") :=
  Table.get?_eq_some.2 ⟨List.mem_singleton_self _, by simp only [PersistCapture.row]⟩

theorem store_lineage (hhome : Home db sourceId) : ∃ lineage,
    WorkflowRunRepository.taskWithRun (store db status).db "t" = some lineage ∧
      ChangeSetRepository.lineageIds lineage = ("t", "rwrite", "r", "s") := by
  obtain ⟨task, htask, hnodeRun⟩ := Option.map_eq_some_iff.1 hhome.task
  obtain ⟨node, hnode, hids⟩ := Option.map_eq_some_iff.1 hhome.node
  obtain ⟨hrunId, -⟩ := Prod.mk.inj hids
  obtain ⟨run, hrun, hsession⟩ := Option.map_eq_some_iff.1 hhome.run
  have hpair : WorkflowRunRepository.nodeWithRun (store db status).db "rwrite" = some (node, run) :=
    nodeWithRun_eq_some.2 ⟨hnode, by rw [hrunId]; exact hrun⟩
  refine ⟨(task, node, run), ?_, ?_⟩
  · change (db.tasks.get? "t").bind _ = _
    rw [htask, Option.bind_some, hnodeRun, hpair]
    rfl
  · rw [ChangeSetRepository.lineageIds, hsession, Table.get?_key htask, Table.get?_key hnode, Table.get?_key hrun]

theorem store_artifact (hhome : Home db sourceId) {new : NewArtifact} (hnew : new ∈ call.artifacts captureRepo) :
    ChangeSetRepository.Registered (store db status).db (stagedOf captureRepo new).record := by
  refine ⟨Table.get?_of_mem (t := artifacts) (List.mem_map_of_mem hnew), ?_⟩
  rw [show (stagedOf captureRepo new).record.sessionId = "s" from (PersistCapture.artifact_owner hnew).1]
  exact hhome.session

/-- The capture is stored there. -/
theorem store_stored (hhome : Home db sourceId) : call.Stored captureRepo (store db status) status "" where
  row := store_row
  lineage := store_lineage hhome
  columns := rfl
  artifacts new hnew := ⟨store_artifact hhome hnew, new.content, files_content new hnew, rfl, rfl⟩

theorem store_get (hhome : Home db sourceId) :
    get captureRepo (store db status) (call.changeSetId captureRepo) none none none = .ok (call.record captureRepo status "") :=
  ((store_stored hhome).get_iff call_checked).2 ⟨call_readable, rfl⟩

theorem store_source (hhome : Home db sourceId) :
    sourceChangeSet (store db status).db "r" sourceId = some (call.changeSetId captureRepo) := by
  obtain ⟨task, htask, hnodeRun⟩ := Option.map_eq_some_iff.1 hhome.task
  obtain ⟨node, hnode, hids⟩ := Option.map_eq_some_iff.1 hhome.node
  have hrow : forSourceNode (store db status).db "r" sourceId = [(node.attempt, call.changeSetId captureRepo)] := by
    unfold forSourceNode
    change List.insertionSort _ ([call.row captureRepo status ""].filterMap _) = _
    rw [List.filterMap_cons, List.filterMap_nil]
    change List.insertionSort _ (Option.toList ((db.tasks.get? "t").bind _)) = _
    rw [htask, Option.bind_some]
    change List.insertionSort _ (Option.toList ((db.nodeRuns.get? task.nodeRunId).bind _)) = _
    rw [hnodeRun, hnode, Option.bind_some, if_pos (Prod.mk.inj hids)]
    rfl
  rw [sourceChangeSet, hrow]
  rfl

end

/-! ### The repositories behave -/

theorem insert_calm {s : CaptureStore} {new : NewArtifact} {t} (h : s.db.artifacts.insert (stagedOf captureRepo new).record = some t) :
    Calm s { s with db := { s.db with artifacts := t }, files := Function.update s.files (pathOf new) (some new.content) } := by
  obtain ⟨-, hnew, -⟩ := Table.insert_eq_some h
  refine ⟨fun _ _ _ hs => hs, fun row content hrow => ?_⟩
  have hne : (stagedOf captureRepo new).record.id ≠ row.id := by
    rintro heq
    rw [heq, hrow.1] at hnew
    cases hnew
  refine ⟨?_, ?_⟩
  · change t.get? row.id = _
    rw [Table.get?_insert h, if_neg hne]
    exact hrow.1
  · have hpath : row.path ≠ pathOf new := by
      rintro heq
      exact hne (congrArg ArtifactPath.artifactId heq).symm
    change Function.update s.files (pathOf new) (some new.content) row.path = _
    rw [Function.update_of_ne hpath]
    exact hrow.2

/-- The repositories keep the laws wherever a new artifact is nothing to `T`. -/
theorem handler_documented {T : CaptureStore → CaptureStore → Prop} [IsPreorder CaptureStore T]
    (hcreate : ∀ {s : CaptureStore} {new : NewArtifact} {t}, s.db.artifacts.insert (stagedOf captureRepo new).record = some t →
      T s { s with
        db := { s.db with artifacts := t }, files := Function.update s.files (pathOf new) (some new.content) }) :
    handler.Documented id T where
  transaction op s := by
    change Ends _ _ (match (op sampleNow).run s.db with | .ok (a, db) => _ | .error e => _)
    cases hrun : (op sampleNow).run s.db with
    | error e => exact .inl (refl_of T s)
    | ok p => exact ⟨sampleNow, s, p.2, refl_of T s, hrun, refl_of T _⟩
  reading query s := by
    change Ends _ _ (match query s with | .ok a => _ | .error _ => _)
    cases hquery : query s with
    | error e => exact refl_of T s
    | ok a => exact ⟨s, refl_of T s, hquery, refl_of T s⟩
  createArtifact new s := by
    change Ends _ _ (match s.db.artifacts.insert (stagedOf captureRepo new).record with | none => _ | some t => _)
    cases hinsert : s.db.artifacts.insert (stagedOf captureRepo new).record with
    | none => exact refl_of T s
    | some t =>
      refine ⟨_, hcreate hinsert, ⟨?_, Function.update_self ..⟩, refl_of T _⟩
      change t.get? _ = _
      rw [Table.get?_insert hinsert, if_pos rfl]
  startHeartbeat _ s := refl_of T s
  setLease _ s := refl_of T s
  stopHeartbeat s := refl_of T s

/-! ### A run of the guard -/

/-- A context of the node in the run of the store. -/
def context (graph : CompiledGraph) (node : WorkflowNode) : NodeExecutionContext where
  run := { sampleRunRow with compiledSnapshot := graph }
  nodeRun := sampleNodeRun node
  node := node
  session := ⟨"s", "/repo", "0", .active, ""⟩
  masterLease := sampleLease

section
variable {graph : CompiledGraph} {node source : WorkflowNode} {sourceId : String} {db : Db} {status : ChangeSetStatus}

theorem handler_reading {α : Type} {query : CaptureStore → Except ArtifactError α} {s : CaptureStore} {a : α}
    (h : query s = .ok a) : handler.reading query s = .ok a s := by
  change (match query s with | .ok a => EStateM.Result.ok a s | .error _ => _) = _
  rw [h]

theorem handler_reading_error {α : Type} {query : CaptureStore → Except ArtifactError α} {s : CaptureStore} {e : ArtifactError}
    (h : query s = .error e) : handler.reading query s = .error (.storage (.operationalError "")) s := by
  change (match query s with | .ok a => EStateM.Result.ok a s | .error _ => _) = _
  rw [h]

theorem handler_get_eq (id : String) :
    handler.get id = handler.reading fun s => get captureRepo s id none none none := rfl

theorem handler_get (hhome : Home db sourceId) : handler.get (call.changeSetId captureRepo) (store db status) =
    .ok (call.record captureRepo status "") (store db status) := by
  rw [handler_get_eq]
  exact handler_reading (store_get hhome)

theorem handler_source (hhome : Home db sourceId) (hsource : sourceTask graph node = .ok (sourceId, source)) :
    handler.source (context graph node) (store db status) =
      .ok (source, call.record captureRepo status "") (store db status) := by
  have htask : raising (sourceTask graph node) (store db status) = .ok (sourceId, source) (store db status) := by
    rw [hsource]
    rfl
  have hid : handler.reading (fun s => .ok (sourceChangeSet s.db "r" sourceId)) (store db status) =
      .ok (some (call.changeSetId captureRepo)) (store db status) :=
    handler_reading (congrArg Except.ok (store_source hhome))
  have hrecord : handler.getForSourceNode "r" sourceId (store db status) =
      .ok (call.record captureRepo status "") (store db status) := (run_bind_ok hid).trans (handler_get hhome)
  exact (run_bind_ok htask).trans (run_bind_ok hrecord)

/-- The id that the report of a guard has there. -/
def reportId : String := "command-guard-e3b0c44298fc1c149afbf4c8"

theorem report_id (graph : CompiledGraph) (node : WorkflowNode) (record : ChangeSetRecord) (model : Plain) :
    (handler.reportArtifact (context graph node) record "command-guard" .report model).artifactId = reportId := by
  change "command-guard" ++ "-" ++ String.ofList
    ("e3b0c44298fc1c149afbf4c8996fb92427ae41e4649b934ca495991b7852b855".toList.take 24) = _
  decide

theorem report_free : artifacts.get? reportId = none := by decide +kernel

/-- A first report is stored. -/
theorem handler_report (graph : CompiledGraph) (node : WorkflowNode) (db : Db) (status : ChangeSetStatus)
    (record : ChangeSetRecord) (model : Plain) : ∃ ref s,
    handler.report (context graph node) record "command-guard" .report model (store db status) = .ok ref s := by
  have hid := report_id graph node record model
  have hpath : pathOf (handler.reportArtifact (context graph node) record "command-guard" .report model) =
      ⟨.report, reportId⟩ := by
    rw [pathOf, hid]
    rfl
  generalize hnew : handler.reportArtifact (context graph node) record "command-guard" .report model = new at hid hpath
  have hunique : ∀ row ∈ artifacts.rows, row.relativePath ≠
      ArtifactPath.relative ⟨.report, reportId⟩ := by decide +kernel
  obtain ⟨t, ht⟩ := Table.insert_of_new (t := artifacts) (r := (stagedOf captureRepo new).record)
    (by rw [show (stagedOf captureRepo new).record.id = _ from hid]; exact report_free)
    (by rw [show (stagedOf captureRepo new).record.relativePath = _ from congrArg ArtifactPath.relative hpath]; exact hunique)
  obtain ⟨s, hcreate⟩ : ∃ s, handler.createArtifact new (store db status) = .ok (stagedOf captureRepo new).record s := by
    refine ⟨{ store db status with
      db := { (store db status).db with artifacts := t }
      files := Function.update files (pathOf new) (some new.content) }, ?_⟩
    change (match artifacts.insert (stagedOf captureRepo new).record with | none => _ | some t => _) = _
    rw [ht]
    rfl
  have hvalid : (stagedOf captureRepo new).record.ref.valid = true :=
    stagedRef_valid captureRepo_hex (by rw [hid]; simp [isEntityId, reportId])
  have houtcome : outcome (handler.createArtifact new) (store db status) =
      .ok (.ok (stagedOf captureRepo new).record) s := by
    unfold outcome
    rw [hcreate]
  refine ⟨(stagedOf captureRepo new).record.ref, s, ?_⟩
  unfold ChangeSetHandler.report
  rw [hnew]
  refine (run_bind_ok houtcome).trans ?_
  dsimp only
  rw [ChangeSetHandler.artifactRef, if_pos hvalid]
  rfl

end

end GateRoom

namespace CommandGuardNodeHandler

/-- A guard whose test has an argv that the source task was never given is no gate: in the store with the ChangeSet
`guard_passed` it lets the test through. -/
theorem not_isGate {D : Digits} {graph : CompiledGraph} {node source test : WorkflowNode} {sourceId : String}
    {argv : List String} {approved : ApprovedCommand} (hsource : sourceTask graph node = .ok (sourceId, source))
    (htest : successorTest graph node = .ok test) (hargv : test.testArgv = some argv)
    (haccepted : CommandGuard.validate D argv = .ok approved)
    (hscope : approved.argv ∉ source.effectiveAllowedCommands.getD []) : ¬ IsGate D graph node := by
  intro hgate
  let record := GateRoom.call.record captureRepo .guardPassed ""
  let artifact := artifactOf record test (some approved) (some "compiled test argv is outside the source task command scope")
  let s := GateRoom.store (GateRoom.soleRun sourceId) .guardPassed
  have hjudge : judge D source test =
      .ok (some approved, some "compiled test argv is outside the source task command scope") := by
    unfold judge
    rw [hargv]
    dsimp only
    rw [haccepted]
    dsimp only
    rw [if_neg (by simpa using hscope)]
  obtain ⟨hsame, hlength, htemplate⟩ := validate_bounds haccepted
  have hvalid : artifact.valid = true := by
    have hid : 1 ≤ record.changeSet.changeSetId.length ∧ record.changeSet.changeSetId.length ≤ 128 := by decide +kernel
    simp only [CommandGuardArtifact.valid, artifact, artifactOf, hid.1, hid.2, hsame, Option.map_some, Option.getD_some,
      Option.all_some, hlength, htemplate, decide_true, Bool.and_true]
    decide
  have hnode : raising (successorTest graph node) s = .ok test s := by
    rw [htest]
    rfl
  obtain ⟨ref, s', hreport⟩ := GateRoom.handler_report graph node (GateRoom.soleRun sourceId) .guardPassed record artifact.dump
  have hrun : execute GateRoom.handler D (GateRoom.context graph node) s =
      .ok (.succeeded "CommandGuard accepted the compiled test argv." ref) s' := by
    refine (run_bind_ok (GateRoom.handler_source (GateRoom.soleRun_home sourceId) hsource)).trans ((run_bind_ok hnode).trans ?_)
    dsimp only
    rw [hjudge]
    dsimp only
    rw [if_neg (not_not.2 hvalid)]
    exact (run_bind_ok hreport).trans rfl
  have hdecided := hgate GateRoom.handler id (GateRoom.handler_documented GateRoom.insert_calm)
    (GateRoom.context graph node) rfl rfl _ _ _ hrun
  cases hdecided with
  | passes hsource' htest' hargv' haccepted' hscope' =>
    cases hsource.symm.trans hsource'
    cases htest.symm.trans htest'
    cases hargv.symm.trans hargv'
    cases haccepted.symm.trans haccepted'
    exact hscope hscope'
  | stops _ _ _ hresult => cases hresult.2.1

/-- A guard node is a gate exactly when an argv that the guard accepts is one the source task was given. -/
theorem isGate_iff (D : Digits) (graph : CompiledGraph) (node : WorkflowNode) : IsGate D graph node ↔ InScope D graph node := by
  refine ⟨fun hgate sourceId source test argv approved hsource htest hargv haccepted => ?_, isGate_of_inScope⟩
  by_contra hscope
  exact not_isGate hsource htest hargv haccepted hscope hgate

/-- The sample graph with `pytest -q` in its test, where the task was given `pytest`. -/
def strayGraph : CompiledGraph := { sampleGraph with
  nodes := sampleGraph.nodes.map fun n => if n.id = "w3" then { n with testArgv := some ["pytest", "-q"] } else n }

theorem not_isGate_stray :
    ¬ IsGate CommandGuard.asciiDigits strayGraph (sampleSystemNode "w2" .commandGuard "write.command_guard.1.v1") := by
  have haccepted : CommandGuard.validate CommandGuard.asciiDigits ["pytest", "-q"] = .ok ⟨"pytest", ["pytest", "-q"]⟩ := by
    decide +kernel
  exact not_isGate rfl rfl rfl haccepted (by decide)

end CommandGuardNodeHandler

end AgentHub
