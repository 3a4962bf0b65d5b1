import AgentHub.Storage.Planning.Calls
/-!
# Drafts

A draft is what a workflow row stands for: its graph, its layout and its preview, with their versions. Writes act on drafts
one after the other, each on the version its writer read (`DraftWrite.Fits`), and every operation that returns writes to one
row what one such write does to its draft (`DraftEffect`).
-/

namespace AgentHub

open Lib Workspace

variable {φ : Type} {H : PlanHost φ}

/-! ## Drafts and writes -/

def AdmittedGraph.normal (g : AdmittedGraph) : AdmittedGraph := ⟨normalizeAuthorGraph g.1, normalizeAuthorGraph_valid g.2⟩

def AdmittedLayout.normal (l : AdmittedLayout H) : AdmittedLayout H := ⟨normalizeLayout l.1, normalizeLayout_valid l.2⟩

structure Draft (H : PlanHost φ) where
  sessionId : String
  parent : Option String
  plannerRun : Option String
  graph : AdmittedGraph
  layout : AdmittedLayout H
  semanticVersion : Nat := 1
  layoutVersion : Nat := 1
  preview : Option (AdmittedCompiled × Nat) := none

/-- The digest a graph is stored with. -/
def AdmittedGraph.hash (H : PlanHost φ) (g : AdmittedGraph) : String := H.digest (canonicalText g.1.dump)

namespace DraftWrite

/-- The draft after a write. -/
def apply : Option (Draft H) → DraftWrite H → Option (Draft H)
  | none, .create sessionId parent plannerRun graph layout =>
    some { sessionId, parent, plannerRun, graph := graph.normal, layout := layout.normal }
  | some d, .editGraph graph _ => some { d with graph := graph.normal, semanticVersion := d.semanticVersion + 1 }
  | some d, .editLayout layout _ => some { d with layout := layout.normal, layoutVersion := d.layoutVersion + 1 }
  | some d, .savePreview compiled _ => some { d with preview := some (compiled, d.semanticVersion) }
  | d, _ => d

/-- The write is made on the draft its writer read. -/
def Fits : Option (Draft H) → DraftWrite H → Prop
  | none, .create _ _ _ _ _ => True
  | some d, .editGraph _ expected => expected = d.semanticVersion
  | some d, .editLayout _ expected => expected = d.layoutVersion
  | some d, .savePreview compiled expected => expected = d.semanticVersion ∧ compiled.1.sourceAuthorHash = d.graph.hash H
  | _, _ => False

def isGraph : DraftWrite H → Bool
  | .editGraph _ _ => true
  | _ => false

def isLayout : DraftWrite H → Bool
  | .editLayout _ _ => true
  | _ => false

end DraftWrite

/-- The draft some writes make. -/
def draftOf (writes : List (DraftWrite H)) : Option (Draft H) := writes.foldl DraftWrite.apply none

@[simp] theorem draftOf_nil : draftOf ([] : List (DraftWrite H)) = none := rfl

@[simp] theorem draftOf_snoc (writes : List (DraftWrite H)) (w : DraftWrite H) :
    draftOf (writes ++ [w]) = w.apply (draftOf writes) := by simp [draftOf]

/-- Every write is made on the draft the writes before it make. -/
def Sequential (writes : List (DraftWrite H)) : Prop :=
  ∀ before w after, writes = before ++ w :: after → w.Fits (draftOf before)

theorem Sequential.snoc {writes : List (DraftWrite H)} {w : DraftWrite H} (h : Sequential writes) (hw : w.Fits (draftOf writes)) :
    Sequential (writes ++ [w]) := by
  intro before x after heq
  rcases List.eq_nil_or_concat after with rfl | ⟨after, y, rfl⟩
  · obtain ⟨rfl, hx⟩ := List.append_inj' heq rfl
    obtain rfl := List.singleton_inj.1 hx
    exact hw
  · rw [List.concat_eq_append, ← List.cons_append, ← List.append_assoc] at heq
    exact h before x after (List.append_inj' heq rfl).1

theorem Sequential.init {writes : List (DraftWrite H)} {w : DraftWrite H} (h : Sequential (writes ++ [w])) :
    Sequential writes ∧ w.Fits (draftOf writes) := by
  refine ⟨fun before x after heq => h before x (after ++ [w]) ?_, h writes w [] rfl⟩
  rw [heq, List.append_assoc, List.cons_append]

/-- Only no writes make no draft. -/
theorem Sequential.eq_nil {writes : List (DraftWrite H)} (h : Sequential writes) (hnone : draftOf writes = none) :
    writes = [] := by
  rcases List.eq_nil_or_concat writes with rfl | ⟨writes, w, rfl⟩
  · rfl
  · rw [List.concat_eq_append] at h hnone
    have hfits := h.init.2
    rw [draftOf_snoc] at hnone
    cases hr : draftOf writes with
    | none =>
      rw [hr] at hnone hfits
      cases w with
      | create => cases hnone
      | _ => cases hfits
    | some d =>
      rw [hr] at hnone
      cases w <;> cases hnone

/-- The versions of a draft count its updates. -/
theorem versions_count {writes : List (DraftWrite H)} (h : Sequential writes) {d : Draft H} (hd : draftOf writes = some d) :
    d.semanticVersion = 1 + writes.countP DraftWrite.isGraph ∧ d.layoutVersion = 1 + writes.countP DraftWrite.isLayout := by
  -- from the last write back: it fits the draft that the writes before it made
  induction writes using List.reverseRecOn generalizing d with
  | nil => cases hd
  | append_singleton writes w ih =>
    obtain ⟨hinit, hfits⟩ := h.init
    rw [draftOf_snoc] at hd
    rw [List.countP_append, List.countP_append]
    cases hr : draftOf writes with
    | none =>
      obtain rfl := hinit.eq_nil hr
      cases w with
      | create =>
        cases hd
        exact ⟨rfl, rfl⟩
      | _ => cases hfits
    | some d' =>
      rw [hr] at hd hfits
      obtain ⟨hs, hl⟩ := ih hinit hr
      cases w with
      | create => cases hfits
      | _ =>
        cases hd
        simp [DraftWrite.isGraph, DraftWrite.isLayout, hs, hl, Nat.add_assoc]

/-- A preview is of a version the draft had, and if the draft still has it, of its graph. -/
theorem preview_current {writes : List (DraftWrite H)} (h : Sequential writes) {d : Draft H} (hd : draftOf writes = some d)
    {p : AdmittedCompiled × Nat} (hp : d.preview = some p) :
    p.2 ≤ d.semanticVersion ∧ (p.2 = d.semanticVersion → p.1.1.sourceAuthorHash = d.graph.hash H) := by
  induction writes using List.reverseRecOn generalizing d with
  | nil => cases hd
  | append_singleton writes w ih =>
    obtain ⟨hinit, hfits⟩ := h.init
    rw [draftOf_snoc] at hd
    cases hr : draftOf writes with
    | none =>
      rw [hr] at hd
      cases w with
      | create =>
        cases hd
        cases hp
      | _ => cases hd
    | some d' =>
      rw [hr] at hd hfits
      cases w with
      | create => cases hfits
      | editGraph graph expected =>
        cases hd
        -- an edit of the graph leaves every earlier preview behind
        have hle : p.2 ≤ d'.semanticVersion := (ih hinit hr hp).1
        have hlt : p.2 < d'.semanticVersion + 1 := Nat.lt_succ_of_le hle
        exact ⟨hlt.le, fun heq => absurd heq hlt.ne⟩
      | editLayout layout expected =>
        have hold := ih hinit hr
        cases hd
        exact hold hp
      | savePreview compiled expected =>
        cases hd
        cases hp
        -- a preview is stamped with the version its writer read
        exact ⟨le_refl _, fun _ => hfits.2⟩

/-! ## Drafts as rows -/

namespace Draft

/-- The row of a draft. -/
def row (d : Draft H) (id createdAt updatedAt : String) : DraftRow where
  id := id
  sessionId := d.sessionId
  parentWorkflowId := d.parent
  sourcePlannerRunId := d.plannerRun
  semanticVersion := d.semanticVersion
  layoutVersion := d.layoutVersion
  authorGraphJson := canonicalText d.graph.1.dump
  authorGraphHash := d.graph.hash H
  layoutJson := H.layoutText d.layout.1
  layoutHash := H.digest (H.layoutText d.layout.1)
  lastCompiledGraphJson := d.preview.map fun p => canonicalText p.1.1.dump
  lastCompiledGraphHash := d.preview.map fun p => H.digest (canonicalText p.1.1.dump)
  lastCompiledSemanticVersion := d.preview.map Prod.snd
  lastCompiledAgentCatalogHash := d.preview.map fun p => p.1.1.agentCatalogSnapshotHash
  lastCompiledBaseCommit := d.preview.map fun p => p.1.1.integrationBaseCommit
  policyVersion := d.preview.map fun p => p.1.1.policyVersion
  createdAt := createdAt
  updatedAt := updatedAt

/-- What `get` returns of it. -/
def record (d : Draft H) (id createdAt updatedAt : String) : DraftRecord φ where
  workflowId := id
  sessionId := d.sessionId
  parentWorkflowId := d.parent
  sourcePlannerRunId := d.plannerRun
  semanticVersion := d.semanticVersion
  layoutVersion := d.layoutVersion
  authorGraph := d.graph.1
  authorGraphHash := d.graph.hash H
  layout := d.layout.1
  layoutHash := H.digest (H.layoutText d.layout.1)
  lastCompiledGraph := d.preview.map fun p => p.1.1
  lastCompiledGraphHash := d.preview.map fun p => H.digest (canonicalText p.1.1.dump)
  lastCompiledSemanticVersion := d.preview.map Prod.snd
  lastCompiledAgentCatalogHash := d.preview.map fun p => p.1.1.agentCatalogSnapshotHash
  lastCompiledBaseCommit := d.preview.map fun p => p.1.1.integrationBaseCommit
  policyVersion := d.preview.map fun p => p.1.1.policyVersion
  createdAt := createdAt
  updatedAt := updatedAt

end Draft

/-- The draft a workflow begins as. -/
def NewWorkflow.draft (value : NewWorkflow H) (parent plannerRun : Option String) : Draft H :=
  { sessionId := value.sessionId, parent, plannerRun, graph := value.authorGraph.normal, layout := value.layout.normal }

theorem PlanHost.isSha256Hex_digest (stored : String) : Workspace.isSha256Hex (H.digest stored) = true := H.hex _

theorem compiled_columns (g : AdmittedCompiled) :
    Workspace.isSha256Hex g.1.agentCatalogSnapshotHash = true ∧ Contracts.isGitObjectId g.1.integrationBaseCommit = true := by
  obtain ⟨-, -, hbase, -, hcatalog, -⟩ := g.2
  exact ⟨hcatalog.2, hbase.2⟩

namespace WorkflowRepository

/-- The row of a draft passes every check of `_to_record`. -/
theorem toRecord_row (d : Draft H) (id createdAt updatedAt : String) :
    toRecord H (d.row id createdAt updatedAt) = .ok (d.record id createdAt updatedAt) := by
  have hgraph : validateJson AuthorGraph.codec (canonicalText d.graph.1.dump) = some d.graph.1 :=
    AuthorGraph.validate_stored d.graph.2
  have hlayout : (WorkflowLayout.codec H.floats).ofText H.floats.text (H.layoutText d.layout.1) = some d.layout.1 :=
    Codec.ofText_toText H.floats.lawful d.layout.2
  unfold toRecord
  cases hpreview : d.preview with
  | none =>
    simp [Draft.row, Draft.record, hpreview, hgraph, hlayout, validated, sha256Column, check, optionally, checkPreview,
      H.isSha256Hex_digest, AdmittedGraph.hash, bind, Except.bind, pure, Except.pure]
  | some p =>
    have hcompiled : validateJson CompiledGraph.codec (canonicalText p.1.1.dump) = some p.1.1 :=
      CompiledGraph.validate_stored p.1.2
    obtain ⟨hcatalog, hbase⟩ := compiled_columns p.1
    simp [Draft.row, Draft.record, hpreview, hgraph, hlayout, hcompiled, hcatalog, hbase, validated, sha256Column,
      gitObjectIdColumn, check, optionally, checkPreview, H.isSha256Hex_digest, AdmittedGraph.hash, bind, Except.bind, pure,
      Except.pure, Except.map]

/-! ## What the operations write -/

theorem raiseWorkflowConflict_ok {id field : String} {version : DraftRow → Nat} {expected : Int} {db : PlanDb}
    {r : Unit × PlanDb} : (raiseWorkflowConflict id field version expected).run db = .ok r ↔ False := by
  simp [raiseWorkflowConflict, Tx.bind_ok]

theorem recordOf_ok {id : String} {db : PlanDb} {r : DraftRecord φ × PlanDb} :
    (recordOf H id).run db = .ok r ↔ ∃ row, db.workflows.get? id = some row ∧ toRecord H row = .ok r.1 ∧ r.2 = db := by
  obtain ⟨a, db'⟩ := r
  simp only [recordOf, StateT.run_bind, Tx.bind_ok, TableRef.select_ok, Tx.require_ok, PlanOp.lift_ok]
  constructor
  · rintro ⟨_, rfl, ⟨row, _⟩, ⟨hrow, rfl⟩, hrecord, hdb⟩
    exact ⟨row, hrow, hrecord, hdb⟩
  · rintro ⟨row, hrow, hrecord, rfl⟩
    exact ⟨_, rfl, ⟨row, _⟩, ⟨hrow, rfl⟩, hrecord, rfl⟩

/-- The workflows with the row of `id` rewritten, if it passes the guard. -/
def swapped (db : PlanDb) (id : String) (g : DraftRow → Bool) (f : DraftRow → DraftRow) (hid : ∀ r, (f r).id = r.id) : PlanDb :=
  { db with workflows := db.workflows.update (fun r => decide (r.id = id) && g r) f hid hid }

/-- A compare-and-swap returns exactly when its row passes the guard, with the row it leaves. -/
theorem swap_ok {id field : String} {version : DraftRow → Nat} {expected : Int} {g : DraftRow → Bool} {f : DraftRow → DraftRow}
    {hid : ∀ r, (f r).id = r.id} {db : PlanDb} {r : DraftRecord φ × PlanDb} :
    (swap H id field version expected g f hid).run db = .ok r ↔ ∃ row, db.workflows.get? id = some row ∧ g row = true ∧
      toRecord H (f row) = .ok r.1 ∧ r.2 = swapped db id g f hid := by
  have hself : ∀ row, db.workflows.get? id = some row → g row = true →
      (db.workflows.update (fun r => decide (r.id = id) && g r) f hid hid).get? id = some (f row) := by
    intro row hrow hg
    rw [Table.get?_update_self hrow]
    simp [hg]
  obtain ⟨record, db'⟩ := r
  simp only [swap, StateT.run_bind, Tx.bind_ok, TableRef.update_ok]
  constructor
  · rintro ⟨_, rfl, h⟩
    -- an update that counts no row ends in the conflict
    split at h
    · rw [StateT.run_bind, Tx.bind_ok] at h
      obtain ⟨_, hraise, -⟩ := h
      exact (raiseWorkflowConflict_ok.1 hraise).elim
    · next hcount =>
      obtain ⟨row, hrow, hg⟩ := Table.count_key_eq_one.1 (not_not.1 hcount)
      obtain ⟨row', hrow', hrecord, hdb⟩ := recordOf_ok.1 h
      rw [hself row hrow hg, Option.some.injEq] at hrow'
      exact ⟨row, hrow, hg, hrow' ▸ hrecord, hdb⟩
  · rintro ⟨row, hrow, hg, hrecord, hdb⟩
    refine ⟨_, rfl, ?_⟩
    rw [if_neg (not_not.2 (Table.count_key_eq_one.2 ⟨row, hrow, hg⟩))]
    exact recordOf_ok.2 ⟨f row, hself row hrow hg, hrecord, hdb⟩

/-- A compare-and-swap whose row does not pass the guard says what it found. -/
theorem swap_conflict {id field : String} {version : DraftRow → Nat} {expected : Int} {g : DraftRow → Bool}
    {f : DraftRow → DraftRow} {hid : ∀ r, (f r).id = r.id} {db : PlanDb} {row : DraftRow}
    (hrow : db.workflows.get? id = some row) (hg : g row = false) :
    (swap H id field version expected g f hid).run db =
      .error (.concurrencyConflict (conflictText id field expected (version row))) := by
  have hcount : db.workflows.count (fun r => decide (r.id = id) && g r) ≠ 1 := by
    intro hone
    obtain ⟨r, hr, hpass⟩ := Table.count_key_eq_one.1 hone
    rw [Option.some.inj (hrow.symm.trans hr), hpass] at hg
    cases hg
  have hself : (swapped db id g f hid).workflows.get? id = some row := by
    simp only [swapped]
    rw [Table.get?_update_self hrow]
    simp [hg]
  -- nothing was updated, so the conflict finds the row as it was
  have hraise : (raiseWorkflowConflict id field version expected).run (swapped db id g f hid) =
      .error (.concurrencyConflict (conflictText id field expected (version row))) := by
    unfold raiseWorkflowConflict
    rw [Tx.run_bind_of_ok (TableRef.select_ok.2 rfl), Tx.run_bind_of_ok (Tx.require_ok.2 ⟨hself, rfl⟩)]
    rfl
  unfold swap
  rw [Tx.run_bind_of_ok (TableRef.update_ok.2 rfl)]
  dsimp only
  rw [if_pos hcount]
  exact Tx.error_of_bind hraise

theorem checkParent_ok {sessionId : String} {parent : Option String} {db : PlanDb} {r : Unit × PlanDb}
    (h : (checkParent sessionId parent).run db = .ok r) : r.2 = db := by
  cases parent with
  | none => exact congrArg Prod.snd (Tx.pure_ok.1 h)
  | some p =>
    simp only [checkParent, StateT.run_bind, Tx.bind_ok, TableRef.select_ok, Tx.require_ok, Tx.ensure_ok] at h
    obtain ⟨_, rfl, ⟨row, _⟩, ⟨-, rfl⟩, -, rfl⟩ := h
    rfl

theorem checkPlanner_ok {sessionId : String} {plannerRun : Option String} {db : PlanDb} {r : Unit × PlanDb}
    (h : (checkPlanner sessionId plannerRun).run db = .ok r) : r.2 = db ∧ ∀ p, plannerRun = some p →
      ∃ row, db.plannerRuns.get? p = some row ∧ row.sessionId = sessionId := by
  cases plannerRun with
  | none => exact ⟨congrArg Prod.snd (Tx.pure_ok.1 h), nofun⟩
  | some p =>
    simp only [checkPlanner, StateT.run_bind, Tx.bind_ok, TableRef.select_ok, Tx.require_ok, Tx.ensure_ok] at h
    obtain ⟨_, rfl, ⟨row, _⟩, ⟨hrow, rfl⟩, hsession, rfl⟩ := h
    refine ⟨rfl, fun p' hp => ?_⟩
    cases hp
    exact ⟨row, hrow, of_decide_eq_true hsession⟩

theorem checkParent_readOnly (sessionId : String) (parent : Option String) : Tx.ReadOnly (checkParent sessionId parent) :=
  fun _ _ => checkParent_ok

theorem checkPlanner_readOnly (sessionId : String) (plannerRun : Option String) :
    Tx.ReadOnly (checkPlanner sessionId plannerRun) := fun _ _ h => (checkPlanner_ok h).1

theorem optionalEntityId_readOnly (value : Option String) : Tx.ReadOnly (EventRepository.optionalEntityId value) :=
  fun _ _ h => EventRepository.optionalEntityId_ok h

theorem optionalEntityId_eq {value r : Option String} {db db' : Db}
    (h : (EventRepository.optionalEntityId value).run db = .ok (r, db')) : r = nonempty value := by
  cases value with
  | none => exact congrArg Prod.fst (Tx.pure_ok.1 h)
  | some s =>
    simp only [EventRepository.optionalEntityId] at h
    by_cases hs : s = ""
    · rw [if_pos hs] at h
      obtain rfl : r = none := congrArg Prod.fst (Tx.pure_ok.1 h)
      simp [nonempty, Option.filter, hs]
    · rw [if_neg hs] at h
      simp only [StateT.run_bind, Tx.bind_ok, Tx.ensure_ok, StateT.run_pure, Tx.pure_ok] at h
      obtain ⟨_, ⟨-, rfl⟩, h⟩ := h
      obtain rfl : r = some s := congrArg Prod.fst h
      simp [nonempty, Option.filter, hs]

theorem optionalEntityId_some {s : String} (hs : s ≠ "") (hid : isEntityId s = true) (db : Db) :
    (EventRepository.optionalEntityId (some s)).run db = .ok (some s, db) := by
  simp only [EventRepository.optionalEntityId]
  rw [if_neg hs]
  exact Tx.run_bind_of_ok (Tx.ensure_ok.2 ⟨hid, rfl⟩)

theorem checkPlanner_some {sessionId p : String} {row : PlannerRunRow} {db : PlanDb} (hrow : db.plannerRuns.get? p = some row)
    (hsession : row.sessionId = sessionId) : (checkPlanner sessionId (some p)).run db = .ok ((), db) := by
  simp only [checkPlanner, StateT.run_bind, Tx.bind_ok, TableRef.select_ok, Tx.require_ok, Tx.ensure_ok, decide_eq_true_eq]
  exact ⟨_, rfl, (row, db), ⟨hrow, rfl⟩, hsession, rfl⟩

/-- A workflow is created under a free id, with a source planner run of its session. -/
theorem createIn_ok {value : NewWorkflow H} {now : Instant} {db : PlanDb} {r : DraftRecord φ × PlanDb}
    (h : (createIn H value now).run db = .ok r) :
    isEntityId value.workflowId = true ∧
    (∃ t, db.workflows.insert
        (newRow value (nonempty value.parentWorkflowId) (nonempty value.sourcePlannerRunId) now) = some t ∧
      r.2 = { db with workflows := t }) ∧
    (∀ p, nonempty value.sourcePlannerRunId = some p →
      ∃ row, db.plannerRuns.get? p = some row ∧ row.sessionId = value.sessionId) ∧
    toRecord H (newRow value (nonempty value.parentWorkflowId) (nonempty value.sourcePlannerRunId) now) = .ok r.1 := by
  unfold createIn at h
  -- the checks only read, down to the insertion
  obtain ⟨_, hid, h⟩ := (Tx.ReadOnly.ensure _ _).bind_ok h
  obtain ⟨-, -, h⟩ := (Tx.ReadOnly.ensure _ _).bind_ok h
  obtain ⟨parent, hparent, h⟩ := (PlanOp.onRest_readOnly (optionalEntityId_readOnly _)).bind_ok h
  obtain ⟨planner, hplanner, h⟩ := (PlanOp.onRest_readOnly (optionalEntityId_readOnly _)).bind_ok h
  obtain rfl := optionalEntityId_eq ((PlanOp.onRest_run (optionalEntityId_readOnly _)).1 hparent)
  obtain rfl := optionalEntityId_eq ((PlanOp.onRest_run (optionalEntityId_readOnly _)).1 hplanner)
  obtain ⟨session, -, h⟩ := (PlanOp.onRest_readOnly (Tx.ReadOnly.read _)).bind_ok h
  obtain ⟨-, -, h⟩ := (Tx.ReadOnly.require _ _).bind_ok h
  obtain ⟨-, -, h⟩ := (checkParent_readOnly _ _).bind_ok h
  obtain ⟨_, hcheck, h⟩ := (checkPlanner_readOnly _ _).bind_ok h
  rw [StateT.run_bind, Tx.bind_ok] at h
  obtain ⟨_, hinsert, h⟩ := h
  obtain ⟨t, ht, rfl⟩ := TableRef.insert_ok.1 hinsert
  obtain ⟨row, hrow, hrecord, hdb⟩ := recordOf_ok.1 h
  have hself := (Table.get?_insert ht value.workflowId).trans (if_pos rfl)
  obtain rfl := Option.some.inj (hself.symm.trans hrow)
  exact ⟨(Tx.ensure_ok.1 hid).1, ⟨t, ht, hdb⟩, (checkPlanner_ok hcheck).2, hrecord⟩

theorem newRow_eq {value : NewWorkflow H} {parent plannerRun : Option String} {now : Instant} :
    newRow value parent plannerRun now =
      (value.draft parent plannerRun).row value.workflowId (utcNowText now) (utcNowText now) := rfl

/-- A workflow without a parent is created when its session is there, its planner run passes and its id is free. -/
theorem createIn_returns {value : NewWorkflow H} {plannerRun : Option String} {now : Instant} {db : PlanDb} {session : SessionRow}
    (hid : isEntityId value.workflowId = true) (hsid : isEntityId value.sessionId = true) (hparent : value.parentWorkflowId = none)
    (hsession : db.rest.sessions.get? value.sessionId = some session) (hfree : db.workflows.get? value.workflowId = none)
    (hplanner : (EventRepository.optionalEntityId value.sourcePlannerRunId).run db.rest = .ok (plannerRun, db.rest))
    (hcheck : (checkPlanner value.sessionId plannerRun).run db = .ok ((), db)) :
    ∃ t, db.workflows.insert (newRow value none plannerRun now) = some t ∧ (createIn H value now).run db =
      .ok ((value.draft none plannerRun).record value.workflowId (utcNowText now) (utcNowText now), { db with workflows := t }) := by
  have huniq : ∀ r ∈ db.workflows.rows, r.id ≠ (newRow value none plannerRun now).id := by
    intro r hr heq
    simpa [heq, newRow] using List.find?_eq_none.1 hfree r hr
  obtain ⟨t, ht⟩ := Table.insert_of_new hfree huniq
  have hself := (Table.get?_insert ht value.workflowId).trans (if_pos rfl)
  -- what each check returns, in the order the operation makes them
  have hnone : (PlanOp.onRest (EventRepository.optionalEntityId none)).run db = .ok (none, db) :=
    (PlanOp.onRest_run (optionalEntityId_readOnly _)).2 rfl
  have hsome : (PlanOp.onRest (EventRepository.optionalEntityId value.sourcePlannerRunId)).run db = .ok (plannerRun, db) :=
    (PlanOp.onRest_run (optionalEntityId_readOnly _)).2 hplanner
  have hselect : (PlanOp.onRest (Db.sessionsT.select value.sessionId)).run db = .ok (some session, db) :=
    (PlanOp.onRest_run (Tx.ReadOnly.read _)).2 (TableRef.select_ok.2 (congrArg (·, db.rest) hsession.symm))
  have hinsert : (PlanDb.workflowsT.insert (newRow value none plannerRun now) (StorageError.integrityError "workflows")).run db =
      .ok ((), { db with workflows := t }) := TableRef.insert_ok.2 ⟨t, ht, rfl⟩
  have hrecord : toRecord H (newRow value none plannerRun now) =
      .ok ((value.draft none plannerRun).record value.workflowId (utcNowText now) (utcNowText now)) := by
    rw [newRow_eq, toRecord_row]
  refine ⟨t, ht, ?_⟩
  unfold createIn
  rw [hparent, Tx.run_bind_of_ok (Tx.ensure_ok.2 ⟨hid, rfl⟩), Tx.run_bind_of_ok (Tx.ensure_ok.2 ⟨hsid, rfl⟩),
    Tx.run_bind_of_ok hnone, Tx.run_bind_of_ok hsome, Tx.run_bind_of_ok hselect, Tx.run_bind_of_ok (Tx.require_ok.2 ⟨rfl, rfl⟩),
    Tx.run_bind_of_ok (Tx.pure_ok.2 rfl), Tx.run_bind_of_ok hcheck, Tx.run_bind_of_ok hinsert]
  exact recordOf_ok.2 ⟨_, hself, hrecord, rfl⟩

/-- The row a workflow is inserted as is read as that workflow, at version 1. -/
theorem newRow_record {value : NewWorkflow H} {parent plannerRun : Option String} {now : Instant} {record : DraftRecord φ}
    (h : toRecord H (newRow value parent plannerRun now) = .ok record) :
    record.workflowId = value.workflowId ∧ record.semanticVersion = 1 := by
  rw [newRow_eq, toRecord_row] at h
  cases h
  exact ⟨rfl, rfl⟩

theorem workspaceAssert_readOnly (lease : WorkspaceLease) (now : Instant) :
    Tx.ReadOnly (WorkspaceLeaseRepository.assertValidIn lease now) :=
  .bind (.read _) fun _ => .ensure _ _

theorem updateAuthorGraph_ok {id : String} {graph : AdmittedGraph} {expected : Int} {now : Instant} {db : PlanDb}
    {r : DraftRecord φ × PlanDb} : (updateAuthorGraph H id graph expected now).run db = .ok r ↔
      1 ≤ expected ∧ isEntityId id = true ∧ ∃ row, db.workflows.get? id = some row ∧ row.semanticVersion = expected ∧
        toRecord H (row.withGraph H graph.normal.1 now) = .ok r.1 ∧
        r.2 = swapped db id (fun r => r.semanticVersion = expected) (DraftRow.withGraph H graph.normal.1 now) fun _ => rfl := by
  simp only [updateAuthorGraph, StateT.run_bind, Tx.bind_ok, Tx.ensure_ok, decide_eq_true_eq]
  constructor
  · rintro ⟨_, ⟨hpos, rfl⟩, _, ⟨hid, rfl⟩, h⟩
    obtain ⟨row, hrow, hversion, hwritten⟩ := swap_ok.1 h
    exact ⟨hpos, hid, row, hrow, of_decide_eq_true hversion, hwritten⟩
  · rintro ⟨hpos, hid, row, hrow, hversion, hwritten⟩
    exact ⟨_, ⟨hpos, rfl⟩, _, ⟨hid, rfl⟩, swap_ok.2 ⟨row, hrow, decide_eq_true hversion, hwritten⟩⟩

theorem updateLayout_ok {id : String} {layout : AdmittedLayout H} {expected : Int} {now : Instant} {db : PlanDb}
    {r : DraftRecord φ × PlanDb} : (updateLayout H id layout expected now).run db = .ok r ↔
      1 ≤ expected ∧ isEntityId id = true ∧ ∃ row, db.workflows.get? id = some row ∧ row.layoutVersion = expected ∧
        toRecord H (row.withLayout H layout.normal.1 now) = .ok r.1 ∧
        r.2 = swapped db id (fun r => r.layoutVersion = expected) (DraftRow.withLayout H layout.normal.1 now) fun _ => rfl := by
  simp only [updateLayout, StateT.run_bind, Tx.bind_ok, Tx.ensure_ok, decide_eq_true_eq]
  constructor
  · rintro ⟨_, ⟨hpos, rfl⟩, _, ⟨hid, rfl⟩, h⟩
    obtain ⟨row, hrow, hversion, hwritten⟩ := swap_ok.1 h
    exact ⟨hpos, hid, row, hrow, of_decide_eq_true hversion, hwritten⟩
  · rintro ⟨hpos, hid, row, hrow, hversion, hwritten⟩
    exact ⟨_, ⟨hpos, rfl⟩, _, ⟨hid, rfl⟩, swap_ok.2 ⟨row, hrow, decide_eq_true hversion, hwritten⟩⟩

/-- An author graph update on another version says which version it found. -/
theorem updateAuthorGraph_conflict {id : String} {graph : AdmittedGraph} {expected : Int} {now : Instant} {db : PlanDb}
    {row : DraftRow} (hpos : 1 ≤ expected) (hid : isEntityId id = true) (hrow : db.workflows.get? id = some row)
    (hne : row.semanticVersion ≠ expected) : (updateAuthorGraph H id graph expected now).run db =
      .error (.concurrencyConflict (conflictText id "semantic_version" expected row.semanticVersion)) := by
  unfold updateAuthorGraph
  rw [Tx.run_bind_of_ok (Tx.ensure_ok.2 ⟨decide_eq_true hpos, rfl⟩), Tx.run_bind_of_ok (Tx.ensure_ok.2 ⟨hid, rfl⟩)]
  exact swap_conflict hrow (decide_eq_false hne)

theorem updateLayout_conflict {id : String} {layout : AdmittedLayout H} {expected : Int} {now : Instant} {db : PlanDb}
    {row : DraftRow} (hpos : 1 ≤ expected) (hid : isEntityId id = true) (hrow : db.workflows.get? id = some row)
    (hne : row.layoutVersion ≠ expected) : (updateLayout H id layout expected now).run db =
      .error (.concurrencyConflict (conflictText id "layout_version" expected row.layoutVersion)) := by
  unfold updateLayout
  rw [Tx.run_bind_of_ok (Tx.ensure_ok.2 ⟨decide_eq_true hpos, rfl⟩), Tx.run_bind_of_ok (Tx.ensure_ok.2 ⟨hid, rfl⟩)]
  exact swap_conflict hrow (decide_eq_false hne)

theorem saveCompiledPreview_ok {id : String} {compiled : AdmittedCompiled} {expected : Int} {ws : WorkspaceLease} {now : Instant}
    {db : PlanDb} {r : DraftRecord φ × PlanDb} (h : (saveCompiledPreview H id compiled expected ws now).run db = .ok r) :
    ∃ row, db.workflows.get? id = some row ∧ (row.semanticVersion = expected ∧ row.authorGraphHash = compiled.1.sourceAuthorHash) ∧
      r.2 = swapped db id (fun r => r.semanticVersion = expected ∧ r.authorGraphHash = compiled.1.sourceAuthorHash)
        (DraftRow.withPreview H compiled.1 expected.toNat now) fun _ => rfl := by
  unfold saveCompiledPreview at h
  obtain ⟨-, -, h⟩ := (Tx.ReadOnly.ensure _ _).bind_ok h
  obtain ⟨-, -, h⟩ := (Tx.ReadOnly.ensure _ _).bind_ok h
  obtain ⟨_, -, h⟩ := (Tx.ReadOnly.read _).bind_ok h
  obtain ⟨_, -, h⟩ := (Tx.ReadOnly.require _ _).bind_ok h
  obtain ⟨-, -, h⟩ := (Tx.ReadOnly.ensure _ _).bind_ok h
  obtain ⟨-, -, h⟩ := (PlanOp.onRest_readOnly (workspaceAssert_readOnly ws now)).bind_ok h
  obtain ⟨row, hrow, hg, -, hdb⟩ := swap_ok.1 h
  exact ⟨row, hrow, of_decide_eq_true hg, hdb⟩

end WorkflowRepository

/-! ## What a call does to the workflows -/

abbrev DraftTable : Type := Table DraftRow DraftRow.id DraftRow.id

/-- The one row a write leaves, the others being as they were. -/
structure LeavesRow (t t' : DraftTable) (id : String) (row : DraftRow) : Prop where
  self : t'.get? id = some row
  others : ∀ k, k ≠ id → t'.get? k = t.get? k

/-- What a call that returned wrote to which workflow. -/
inductive DraftEffect (H : PlanHost φ) (t t' : DraftTable) : Option (String × DraftWrite H) → Prop
  | nothing (h : t' = t) : DraftEffect H t t' none
  | create (value : NewWorkflow H) (now : Instant) (hid : isEntityId value.workflowId = true)
      (hfree : t.get? value.workflowId = none)
      (h : LeavesRow t t' value.workflowId (WorkflowRepository.newRow value (nonempty value.parentWorkflowId)
        (nonempty value.sourcePlannerRunId) now)) : DraftEffect H t t' (some (value.workflowId, value.write))
  | editGraph (id : String) (graph : AdmittedGraph) (expected : Int) (now : Instant) (row : DraftRow) (hrow : t.get? id = some row)
      (hversion : row.semanticVersion = expected) (h : LeavesRow t t' id (row.withGraph H graph.normal.1 now)) :
      DraftEffect H t t' (some (id, .editGraph graph expected))
  | editLayout (id : String) (layout : AdmittedLayout H) (expected : Int) (now : Instant) (row : DraftRow)
      (hrow : t.get? id = some row) (hversion : row.layoutVersion = expected)
      (h : LeavesRow t t' id (row.withLayout H layout.normal.1 now)) : DraftEffect H t t' (some (id, .editLayout layout expected))
  | savePreview (id : String) (compiled : AdmittedCompiled) (expected : Int) (now : Instant) (row : DraftRow)
      (hrow : t.get? id = some row) (hversion : row.semanticVersion = expected)
      (hhash : row.authorGraphHash = compiled.1.sourceAuthorHash)
      (h : LeavesRow t t' id (row.withPreview H compiled.1 expected.toNat now)) :
      DraftEffect H t t' (some (id, .savePreview compiled expected))

theorem leaves_swap {db : PlanDb} {id : String} {g : DraftRow → Bool} {f : DraftRow → DraftRow} {hid : ∀ r, (f r).id = r.id}
    {row : DraftRow} (hrow : db.workflows.get? id = some row) (hg : g row = true) :
    LeavesRow db.workflows (WorkflowRepository.swapped db id g f hid).workflows id (f row) := by
  constructor
  · simp only [WorkflowRepository.swapped]
    rw [Table.get?_update_self hrow]
    simp [hg]
  · intro k hk
    simp only [WorkflowRepository.swapped]
    rw [Table.get?_update_ne hk]

theorem leaves_insert {t t' : DraftTable} {row : DraftRow} (h : t.insert row = some t') : LeavesRow t t' row.id row :=
  ⟨(Table.get?_insert h _).trans (if_pos rfl), fun _ hk => (Table.get?_insert h _).trans (if_neg (Ne.symm hk))⟩

namespace WorkflowRepository

theorem createIn_effect {value : NewWorkflow H} {now : Instant} {db : PlanDb} {r : DraftRecord φ × PlanDb}
    (h : (createIn H value now).run db = .ok r) :
    DraftEffect H db.workflows r.2.workflows (some (value.workflowId, value.write)) := by
  obtain ⟨hid, ⟨t, hinsert, hdb⟩, -, -⟩ := createIn_ok h
  rw [hdb]
  exact .create value now hid (Table.insert_eq_some hinsert).2.1 (leaves_insert hinsert)

theorem updateAuthorGraph_effect {id : String} {graph : AdmittedGraph} {expected : Int} {now : Instant} {db : PlanDb}
    {r : DraftRecord φ × PlanDb} (h : (updateAuthorGraph H id graph expected now).run db = .ok r) :
    DraftEffect H db.workflows r.2.workflows (some (id, .editGraph graph expected)) := by
  obtain ⟨-, -, row, hrow, hversion, -, hdb⟩ := updateAuthorGraph_ok.1 h
  rw [hdb]
  exact .editGraph id graph expected now row hrow hversion (leaves_swap hrow (decide_eq_true hversion))

theorem updateLayout_effect {id : String} {layout : AdmittedLayout H} {expected : Int} {now : Instant} {db : PlanDb}
    {r : DraftRecord φ × PlanDb} (h : (updateLayout H id layout expected now).run db = .ok r) :
    DraftEffect H db.workflows r.2.workflows (some (id, .editLayout layout expected)) := by
  obtain ⟨-, -, row, hrow, hversion, -, hdb⟩ := updateLayout_ok.1 h
  rw [hdb]
  exact .editLayout id layout expected now row hrow hversion (leaves_swap hrow (decide_eq_true hversion))

theorem saveCompiledPreview_effect {id : String} {compiled : AdmittedCompiled} {expected : Int} {ws : WorkspaceLease} {now : Instant}
    {db : PlanDb} {r : DraftRecord φ × PlanDb} (h : (saveCompiledPreview H id compiled expected ws now).run db = .ok r) :
    DraftEffect H db.workflows r.2.workflows (some (id, .savePreview compiled expected)) := by
  obtain ⟨row, hrow, hmatch, hdb⟩ := saveCompiledPreview_ok h
  rw [hdb]
  exact .savePreview id compiled expected now row hrow hmatch.1 hmatch.2 (leaves_swap hrow (decide_eq_true hmatch))

end WorkflowRepository

end AgentHub
