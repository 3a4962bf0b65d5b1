import AgentHub.Storage.Planning.PlannerMoves
import AgentHub.Storage.Runs.Scheduling
/-!
# Runs of the planning repositories

The workflow rows are at all times the drafts that the committed writes make in their order (`drafts_linearize`). So no
write is lost, and none is made on a version its writer did not read.
-/

namespace AgentHub

open Lib Workspace

variable {φ : Type} {H : PlanHost φ}

/-! ## Every call -/

namespace PlannerRunRepository

theorem quarantines_workflows {db db' : PlanDb} (h : Relation.ReflTransGen Quarantines db db') : db'.workflows = db.workflows := by
  induction h with
  | refl => rfl
  | tail _ hlast ih => exact hlast.1.trans ih

theorem succeedWithWorkflow_effect {id : String} {workflow : NewWorkflow H} {lease : MasterLease} {now : Instant} {db : PlanDb}
    {r : (PlannerRunRow × DraftRecord φ) × PlanDb} (h : (succeedWithWorkflow H id workflow lease now).run db = .ok r) :
    DraftEffect H db.workflows r.2.workflows (some (workflow.workflowId, workflow.write)) := by
  obtain ⟨-, ⟨created, db₁, hcreate, hworkflows⟩, -⟩ := succeedWithWorkflow_change h
  rw [hworkflows]
  exact WorkflowRepository.createIn_effect hcreate

end PlannerRunRepository

theorem PlanCall.effect {call : PlanCall H} {lease : MasterLease} {now : Instant} {db : PlanDb} {r : Unit × PlanDb}
    (h : (call.op H lease now).run db = .ok r) : DraftEffect H db.workflows r.2.workflows call.write := by
  cases call with
  | createWorkflow value =>
    obtain ⟨_, h⟩ := PlanOp.void_ok.1 h
    exact WorkflowRepository.createIn_effect h
  | updateAuthorGraph id graph expected =>
    obtain ⟨_, h⟩ := PlanOp.void_ok.1 h
    exact WorkflowRepository.updateAuthorGraph_effect h
  | updateLayout id layout expected =>
    obtain ⟨_, h⟩ := PlanOp.void_ok.1 h
    exact WorkflowRepository.updateLayout_effect h
  | saveCompiledPreview id compiled expected ws =>
    obtain ⟨_, h⟩ := PlanOp.void_ok.1 h
    exact WorkflowRepository.saveCompiledPreview_effect h
  -- the calls on planner runs write no workflow, but for the last one
  | createRun value =>
    obtain ⟨_, h⟩ := PlanOp.void_ok.1 h
    exact .nothing (PlannerRunRepository.createIn_change h).2.1
  | transition id expected target result =>
    obtain ⟨_, h⟩ := PlanOp.void_ok.1 h
    exact .nothing (PlannerRunRepository.transition_change h).2.1
  | orphanRunning =>
    obtain ⟨_, h⟩ := PlanOp.void_ok.1 h
    exact .nothing (PlannerRunRepository.quarantines_workflows (PlannerRunRepository.orphanRunning_changes h))
  | succeedWithWorkflow id workflow =>
    obtain ⟨_, h⟩ := PlanOp.void_ok.1 h
    exact PlannerRunRepository.succeedWithWorkflow_effect h

theorem PlanInvocation.log_of_ok (i : PlanInvocation H) {db : PlanDb} {r : Unit × PlanDb} (h : i.op.run db = .ok r) :
    i.log db = i.call.write.toList := by
  have hcommit : i.commit db = (.ok r.1, r.2) := Tx.commit_of_ok h
  simp only [PlanInvocation.log, hcommit]

theorem PlanInvocation.log_of_error (i : PlanInvocation H) {db : PlanDb} {e : StorageError} (h : i.op.run db = .error e) :
    i.log db = [] := by
  have hcommit : i.commit db = (.error e, db) := Tx.commit_of_error h
  simp only [PlanInvocation.log, hcommit]

/-- A commit writes what its log says. -/
theorem PlanInvocation.commit_effect (i : PlanInvocation H) (db : PlanDb) :
    ∃ w, DraftEffect H db.workflows (i.commit db).2.workflows w ∧ i.log db = w.toList := by
  cases h : i.op.run db with
  | error e =>
    rw [i.log_of_error h, show (i.commit db).2 = db from congrArg Prod.snd (Tx.commit_of_error h)]
    exact ⟨none, .nothing rfl, rfl⟩
  | ok r =>
    rw [i.log_of_ok h, show (i.commit db).2 = r.2 from congrArg Prod.snd (Tx.commit_of_ok h)]
    exact ⟨i.call.write, PlanCall.effect h, rfl⟩

/-! ## Rows stand for drafts -/

/-- The row of a workflow is the row of the draft its writes make. -/
structure StandsFor (H : PlanHost φ) (t : DraftTable) (id : String) (writes : List (DraftWrite H)) : Prop where
  sequential : Sequential writes
  stored : ∃ createdAt updatedAt, t.get? id = (draftOf writes).map fun d => d.row id createdAt updatedAt
  named : ∀ d, draftOf writes = some d → isEntityId id = true

namespace StandsFor
variable {t t' : DraftTable} {id : String} {writes : List (DraftWrite H)}

theorem draft (h : StandsFor H t id writes) {row : DraftRow} (hrow : t.get? id = some row) :
    ∃ d createdAt updatedAt, draftOf writes = some d ∧ row = d.row id createdAt updatedAt := by
  obtain ⟨createdAt, updatedAt, hstored⟩ := h.stored
  rw [hrow] at hstored
  obtain ⟨d, hd, hr⟩ := Option.map_eq_some_iff.1 hstored.symm
  exact ⟨d, createdAt, updatedAt, hd, hr.symm⟩

theorem none_of_free (h : StandsFor H t id writes) (hfree : t.get? id = none) : draftOf writes = none := by
  obtain ⟨_, _, hstored⟩ := h.stored
  exact Option.map_eq_none_iff.1 (hstored.symm.trans hfree)

/-- A fitting write, when the row becomes that of the draft it makes. -/
theorem write (h : StandsFor H t id writes) {w : DraftWrite H} {d : Draft H} {createdAt updatedAt : String} {row : DraftRow}
    (hfits : w.Fits (draftOf writes)) (happly : w.apply (draftOf writes) = some d) (hid : isEntityId id = true)
    (hleaves : LeavesRow t t' id row) (hrow : row = d.row id createdAt updatedAt) : StandsFor H t' id (writes ++ writesTo [(id, w)] id) := by
  have hwrites : writesTo [(id, w)] id = [w] := by simp [writesTo]
  rw [hwrites]
  refine ⟨h.sequential.snoc hfits, ⟨createdAt, updatedAt, ?_⟩, fun _ _ => hid⟩
  rw [draftOf_snoc, happly, hleaves.self, hrow]
  rfl

/-- A write to another workflow. -/
theorem elsewhere (h : StandsFor H t id writes) {k : String} {w : DraftWrite H} {row : DraftRow} (hk : k ≠ id)
    (hleaves : LeavesRow t t' k row) : StandsFor H t' id (writes ++ writesTo [(k, w)] id) := by
  have hwrites : writesTo [(k, w)] id = [] := by simp [writesTo, hk]
  rw [hwrites, List.append_nil]
  obtain ⟨createdAt, updatedAt, hstored⟩ := h.stored
  exact ⟨h.sequential, ⟨createdAt, updatedAt, (hleaves.others id (Ne.symm hk)).trans hstored⟩, h.named⟩

/-- A write keeps the rows those of their drafts. -/
theorem effect (h : StandsFor H t id writes) {w : Option (String × DraftWrite H)} (he : DraftEffect H t t' w) :
    StandsFor H t' id (writes ++ writesTo w.toList id) := by
  cases he with
  | nothing hsame =>
    rw [hsame]
    simpa [writesTo] using h
  -- each write is to this workflow or to another; to this one it fits, as the guard of its operation passed
  | create value now hid hfree hleaves =>
    by_cases hk : value.workflowId = id
    · subst hk
      have hnone := h.none_of_free hfree
      exact h.write (by rw [hnone]; trivial) (by rw [hnone]; rfl) hid hleaves rfl
    · exact h.elsewhere hk hleaves
  | editGraph k graph expected now row hrow hversion hleaves =>
    by_cases hk : k = id
    · subst hk
      obtain ⟨d, createdAt, updatedAt, hd, rfl⟩ := h.draft hrow
      exact h.write (by rw [hd]; exact hversion.symm) (by rw [hd]; rfl) (h.named d hd) hleaves rfl
    · exact h.elsewhere hk hleaves
  | editLayout k layout expected now row hrow hversion hleaves =>
    by_cases hk : k = id
    · subst hk
      obtain ⟨d, createdAt, updatedAt, hd, rfl⟩ := h.draft hrow
      exact h.write (by rw [hd]; exact hversion.symm) (by rw [hd]; rfl) (h.named d hd) hleaves rfl
    · exact h.elsewhere hk hleaves
  | savePreview k compiled expected now row hrow hversion hhash hleaves =>
    by_cases hk : k = id
    · subst hk
      obtain ⟨d, createdAt, updatedAt, hd, rfl⟩ := h.draft hrow
      have hexpected : expected.toNat = d.semanticVersion := by rw [← hversion]; rfl
      rw [hexpected] at hleaves
      exact h.write (by rw [hd]; exact ⟨hversion.symm, hhash.symm⟩) (by rw [hd]; rfl) (h.named d hd) hleaves rfl
    · exact h.elsewhere hk hleaves

end StandsFor

theorem writesTo_append (log log' : List (String × DraftWrite H)) (id : String) :
    writesTo (log ++ log') id = writesTo log id ++ writesTo log' id := List.filterMap_append ..

/-- A run that starts without workflows: every row is the draft of the writes committed to it. -/
theorem PlanRun.stands {Made : PlanCall H → Prop} {db s : PlanDb} {log : List (String × DraftWrite H)}
    (hstart : db.workflows.rows = []) (h : PlanRun H Made db log s) (id : String) : StandsFor H s.workflows id (writesTo log id) := by
  induction h with
  | start =>
    refine ⟨fun before w after heq => ?_, ⟨"", "", ?_⟩, nofun⟩
    · simp [writesTo] at heq
    · simp [Table.get?, hstart, writesTo]
  | call _ i _ ih =>
    obtain ⟨w, heffect, hlog⟩ := i.commit_effect _
    rw [hlog, writesTo_append]
    exact ih.effect heffect
  | other _ _ ih => exact ih

/-! ## What the repository shows -/

/-- What the repository shows of a workflow with these writes: `get` returns their draft, a preview of the current version is
one of the current graph, and an update is accepted from exactly those who read the version it updates. The others are told
the version. -/
structure ShowsDraft (H : PlanHost φ) (db : PlanDb) (id : String) (writes : List (DraftWrite H)) : Prop where
  sequential : Sequential writes
  absent : isEntityId id = true → draftOf writes = none →
    (WorkflowRepository.get H id).run db = .error (.recordNotFound ("workflow not found: " ++ id))
  present : ∀ d, draftOf writes = some d →
    ∃ createdAt updatedAt, (WorkflowRepository.get H id).run db = .ok (d.record id createdAt updatedAt, db)
  versions : ∀ d, draftOf writes = some d →
    d.semanticVersion = 1 + writes.countP DraftWrite.isGraph ∧ d.layoutVersion = 1 + writes.countP DraftWrite.isLayout
  previews : ∀ d p, draftOf writes = some d → d.preview = some p →
    p.2 ≤ d.semanticVersion ∧ (p.2 = d.semanticVersion → p.1.1.sourceAuthorHash = d.graph.hash H)
  graphUpdates : ∀ graph expected now, (∃ r, (WorkflowRepository.updateAuthorGraph H id graph expected now).run db = .ok r) ↔
    ∃ d, draftOf writes = some d ∧ expected = d.semanticVersion
  layoutUpdates : ∀ layout expected now, (∃ r, (WorkflowRepository.updateLayout H id layout expected now).run db = .ok r) ↔
    ∃ d, draftOf writes = some d ∧ expected = d.layoutVersion
  graphRefusals : ∀ d graph (expected : Int) now, draftOf writes = some d → 1 ≤ expected → expected ≠ d.semanticVersion →
    (WorkflowRepository.updateAuthorGraph H id graph expected now).run db =
      .error (.concurrencyConflict (WorkflowRepository.conflictText id "semantic_version" expected d.semanticVersion))
  layoutRefusals : ∀ d layout (expected : Int) now, draftOf writes = some d → 1 ≤ expected → expected ≠ d.layoutVersion →
    (WorkflowRepository.updateLayout H id layout expected now).run db =
      .error (.concurrencyConflict (WorkflowRepository.conflictText id "layout_version" expected d.layoutVersion))

namespace WorkflowRepository

theorem get_ok {id : String} {db : PlanDb} {row : DraftRow} {record : DraftRecord φ} (hid : isEntityId id = true)
    (hrow : db.workflows.get? id = some row) (hrecord : toRecord H row = .ok record) : (get H id).run db = .ok (record, db) := by
  simp only [get, StateT.run_bind, Tx.bind_ok, TableRef.select_ok, Tx.require_ok, Tx.ensure_ok, PlanOp.lift_ok]
  exact ⟨_, ⟨hid, rfl⟩, _, rfl, (row, db), ⟨hrow, rfl⟩, hrecord, rfl⟩

theorem get_absent {id : String} {db : PlanDb} (hid : isEntityId id = true) (hrow : db.workflows.get? id = none) :
    (get H id).run db = .error (.recordNotFound ("workflow not found: " ++ id)) := by
  unfold get
  rw [Tx.run_bind_of_ok (Tx.ensure_ok.2 ⟨hid, rfl⟩), Tx.run_bind_of_ok (TableRef.select_ok.2 rfl)]
  exact Tx.error_of_bind (congrArg (fun o => (Tx.require o _).run db) hrow)

end WorkflowRepository

theorem StandsFor.shows {db : PlanDb} {id : String} {writes : List (DraftWrite H)} (h : StandsFor H db.workflows id writes) :
    ShowsDraft H db id writes := by
  obtain ⟨createdAt, updatedAt, hstored⟩ := h.stored
  have hrow : ∀ d, draftOf writes = some d → db.workflows.get? id = some (d.row id createdAt updatedAt) := by
    intro d hd
    rw [hstored, hd]
    rfl
  refine ⟨h.sequential, ?_, ?_, fun d => versions_count h.sequential,
    fun d p hd hp => preview_current h.sequential hd hp, ?_, ?_, ?_, ?_⟩
  · intro hid hnone
    exact WorkflowRepository.get_absent hid (by rw [hstored, hnone]; rfl)
  · intro d hd
    exact ⟨createdAt, updatedAt,
      WorkflowRepository.get_ok (h.named d hd) (hrow d hd) (WorkflowRepository.toRecord_row d id createdAt updatedAt)⟩
  -- an update returns exactly when the row has the version it was made on
  · intro graph expected now
    constructor
    · rintro ⟨r, hr⟩
      obtain ⟨-, -, row, hget, hversion, -⟩ := WorkflowRepository.updateAuthorGraph_ok.1 hr
      obtain ⟨d, _, _, hd, rfl⟩ := h.draft hget
      exact ⟨d, hd, hversion.symm⟩
    · rintro ⟨d, hd, rfl⟩
      have hpos := (versions_count h.sequential hd).1
      let d' : Draft H := { d with graph := graph.normal, semanticVersion := d.semanticVersion + 1 }
      refine ⟨⟨d'.record id createdAt (utcNowText now), _⟩, WorkflowRepository.updateAuthorGraph_ok.2 ⟨?_, h.named d hd, _,
        hrow d hd, rfl, WorkflowRepository.toRecord_row d' id createdAt (utcNowText now), rfl⟩⟩
      omega
  · intro layout expected now
    constructor
    · rintro ⟨r, hr⟩
      obtain ⟨-, -, row, hget, hversion, -⟩ := WorkflowRepository.updateLayout_ok.1 hr
      obtain ⟨d, _, _, hd, rfl⟩ := h.draft hget
      exact ⟨d, hd, hversion.symm⟩
    · rintro ⟨d, hd, rfl⟩
      have hpos := (versions_count h.sequential hd).2
      let d' : Draft H := { d with layout := layout.normal, layoutVersion := d.layoutVersion + 1 }
      refine ⟨⟨d'.record id createdAt (utcNowText now), _⟩, WorkflowRepository.updateLayout_ok.2 ⟨?_, h.named d hd, _,
        hrow d hd, rfl, WorkflowRepository.toRecord_row d' id createdAt (utcNowText now), rfl⟩⟩
      omega
  -- and a writer who read another version is told the current one
  · intro d graph expected now hd hpos hne
    have hother : (d.row id createdAt updatedAt).semanticVersion ≠ expected := Ne.symm hne
    exact Eq.trans (WorkflowRepository.updateAuthorGraph_conflict hpos (h.named d hd) (hrow d hd) hother) rfl
  · intro d layout expected now hd hpos hne
    have hother : (d.row id createdAt updatedAt).layoutVersion ≠ expected := Ne.symm hne
    exact Eq.trans (WorkflowRepository.updateLayout_conflict hpos (h.named d hd) (hrow d hd) hother) rfl

/-- After any run of the planning repositories, each workflow is the draft its committed writes make one after the other,
every one of them made on the version its writer read. -/
theorem drafts_linearize {Made : PlanCall H → Prop} {db s : PlanDb} {log : List (String × DraftWrite H)}
    (hstart : db.workflows.rows = []) (h : PlanRun H Made db log s) (id : String) : ShowsDraft H s id (writesTo log id) :=
  (h.stands hstart id).shows

/-! ## A stale update -/

def inputOnly : AdmittedGraph where
  val := { nodes := [{ id := "in", nodeType := .input, title := "Input" }] }
  property := AuthorGraph.codec.valid_of_load (AuthorGraph.dump { nodes := [{ id := "in", nodeType := .input, title := "Input" }] }) _
    (by decide +kernel)

def emptyGraph : AdmittedGraph := ⟨{}, AuthorGraph.codec.valid_of_load (AuthorGraph.dump {}) _ (by decide +kernel)⟩

/-- SHA-256 of the texts the sample stores. -/
def planDigests : List (String × Nat) :=
  [(canonicalText inputOnly.normal.1.dump, 0x2ecc9ad9c6d359ddd5ebdb872465ff42764f70182722385a083542c45a2d1ced),
    (canonicalText emptyGraph.normal.1.dump, 0xed946e4759113ef6bd991adc3ec639847ad1fe22e1ccd9d1784b38b283306f5d),
    ("\x7b\"nodes\":[]\x7d", 0xacf2fa576acb702442f9d0101673354c398db67315c066ca48be8db8e0d2c75b)]

def samplePlanHost : PlanHost Empty where
  floats := ⟨noFloats, noFloats_lawful, nofun⟩
  sha256 content := hexText (((planDigests.find? fun entry => utf8 entry.1 = content).map Prod.snd).getD 0)
  hex _ := isSha256Hex_hexText _

def sampleWorkflow : NewWorkflow samplePlanHost where
  workflowId := "draft"
  sessionId := "s"
  authorGraph := inputOnly
  layout := ⟨⟨[]⟩, Contracts.listed_nil _ _, trivial⟩

/-- The sample session, at a commit a planner run can start from. -/
def sampleSession : SessionRow := ⟨"s", "/repo", hexText 0, .active, ""⟩

def samplePlanDb : PlanDb where
  rest := { sampleDb with sessions := ⟨[sampleSession], List.nodup_singleton _, List.nodup_singleton _⟩ }
  workflows := Table.empty
  plannerRuns := Table.empty

def samplePlanCall (call : PlanCall samplePlanHost) : PlanInvocation samplePlanHost := ⟨call, sampleLease, sampleNow⟩

/-- The workflow is created, edited at version 1, and edited again by a writer who read version 1. -/
def sampleCreate : PlanInvocation samplePlanHost := samplePlanCall (.createWorkflow sampleWorkflow)

def sampleEdit (graph : AdmittedGraph) : PlanInvocation samplePlanHost := samplePlanCall (.updateAuthorGraph "draft" graph 1)

theorem sampleCreate_log : sampleCreate.log samplePlanDb = [("draft", sampleWorkflow.write)] := by
  have hsession : samplePlanDb.rest.sessions.get? sampleWorkflow.sessionId = some sampleSession := rfl
  have hfree : samplePlanDb.workflows.get? sampleWorkflow.workflowId = none := rfl
  obtain ⟨t, -, ht⟩ := WorkflowRepository.createIn_returns (by decide) (by decide) rfl hsession hfree rfl rfl
  exact sampleCreate.log_of_ok (r := ((), _)) (PlanOp.void_ok.2 ⟨_, ht⟩)

/-- The second edit is refused: the draft is the one the first edit made. -/
theorem drafts_linearize_stale : ∃ s, PlanRun samplePlanHost (fun _ => True) samplePlanDb
    [("draft", sampleWorkflow.write), ("draft", .editGraph emptyGraph 1)] s ∧
    (∃ db, s = ((sampleEdit inputOnly).commit db).2) ∧ ∃ createdAt updatedAt, ∃ d : Draft samplePlanHost,
      (WorkflowRepository.get samplePlanHost "draft").run s = .ok (d.record "draft" createdAt updatedAt, s) ∧
      d.graph = emptyGraph.normal ∧ d.semanticVersion = 2 := by
  have hcreate : PlanRun samplePlanHost (fun _ => True) samplePlanDb _ _ := .call .start sampleCreate trivial
  rw [sampleCreate_log, List.nil_append] at hcreate
  obtain ⟨r, hr⟩ := ((drafts_linearize rfl hcreate "draft").graphUpdates emptyGraph 1 sampleNow).2 ⟨_, rfl, rfl⟩
  have hedit := hcreate.call (sampleEdit emptyGraph) trivial
  rw [(sampleEdit emptyGraph).log_of_ok (r := ((), r.2)) (PlanOp.void_ok.2 ⟨r.1, hr⟩)] at hedit
  have hstale := hedit.call (sampleEdit inputOnly) trivial
  have hrefused : (sampleEdit inputOnly).log ((sampleEdit emptyGraph).commit (sampleCreate.commit samplePlanDb).2).2 = [] := by
    cases hrun : (sampleEdit inputOnly).op.run ((sampleEdit emptyGraph).commit (sampleCreate.commit samplePlanDb).2).2 with
    | error e => exact (sampleEdit inputOnly).log_of_error hrun
    | ok r =>
      obtain ⟨record, hrecord⟩ := PlanOp.void_ok.1 hrun
      obtain ⟨d, hd, hversion⟩ :=
        ((drafts_linearize rfl hedit "draft").graphUpdates inputOnly 1 sampleNow).1 ⟨_, hrecord⟩
      cases hd
      cases hversion
  rw [hrefused, List.append_nil] at hstale
  obtain ⟨createdAt, updatedAt, hget⟩ := (drafts_linearize rfl hstale "draft").present _ rfl
  exact ⟨_, hstale, ⟨_, rfl⟩, createdAt, updatedAt, _, hget, rfl, rfl⟩

end AgentHub
