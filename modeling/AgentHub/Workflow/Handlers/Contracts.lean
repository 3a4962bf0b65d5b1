import AgentHub.Storage.CallBooks
import AgentHub.Workflow.Handlers.Guards
import AgentHub.Workspace.Holding
/-!
# The contracts of the handlers' calls

What a handler over ChangeSets relies on: a transaction is committed or raises, a read sees the store at one moment, an
artifact that was created stays. From that, one contract for each call: what it found when it returned, and that it moves
the store only as a transaction of its own or what others do beside it.
-/

namespace AgentHub

open Lib Workspace Security

/-! ## The laws -/

namespace CaptureStore

/-- The artifact is registered, with this content. -/
def Keeps (s : CaptureStore) (row : ArtifactRow) (content : Bytes) : Prop :=
  s.db.artifacts.get? row.id = some row ∧ s.files row.path = some content

/-- A transaction that was committed; what others did to the store before and after it stays within `T`. -/
def Committed {α : Type} (T : CaptureStore → CaptureStore → Prop) (op : Instant → Op α) (a : α) (s s' : CaptureStore) : Prop :=
  ∃ now m db, T s m ∧ (op now).run m.db = .ok (a, db) ∧ T { m with db } s'

end CaptureStore

open CaptureStore

/-- What others do to a part of the world beside a call. -/
def Beside {W ρ : Type} (part : W → ρ) (T : ρ → ρ → Prop) (w w' : W) : Prop := T (part w) (part w')

instance {W ρ : Type} {part : W → ρ} {T : ρ → ρ → Prop} [IsPreorder ρ T] : IsPreorder W (Beside part T) where
  refl w := refl_of T (part w)
  trans _ _ _ h h' := trans_of T h h'

/-- The calls of a handler answer from the store and write to it, at some moment of the call. -/
structure ChangeSetHandler.Documented {W : Type} (S : ChangeSetHandler W) (store : W → CaptureStore)
    (T : CaptureStore → CaptureStore → Prop) : Prop where
  transaction {α : Type} (op : Instant → Op α) (w : W) :
    Ends (fun a w' => CaptureStore.Committed T op a (store w) (store w'))
      (fun _ w' => T (store w) (store w') ∨ ∃ a, CaptureStore.Committed T op a (store w) (store w')) (S.transaction op w)
  reading {α : Type} (query : CaptureStore → Except ArtifactError α) (w : W) :
    Ends (fun a w' => ∃ m, T (store w) m ∧ query m = .ok a ∧ T m (store w')) (fun _ w' => T (store w) (store w'))
      (S.reading query w)
  createArtifact (new : NewArtifact) (w : W) :
    Ends (fun row w' => ∃ m, T (store w) m ∧ m.Keeps row new.content ∧ T m (store w')) (fun _ w' => T (store w) (store w'))
      (S.createArtifact new w)
  startHeartbeat (lease : WorkspaceLease) (w : W) : T (store w) (store (S.startHeartbeat lease w))
  setLease (lease : WorkspaceLease) (w : W) : T (store w) (store (S.setLease lease w))
  stopHeartbeat (w : W) : T (store w) (store (S.stopHeartbeat w))

/-! ## The contracts of the calls -/

/-- A record as it was read: its id was the one of the source's ChangeSet, and later it had its status. -/
def ReadBetween (T : CaptureStore → CaptureStore → Prop) (s s' : CaptureStore) (workflowRunId sourceId : String)
    (record : ChangeSetRecord) : Prop :=
  ∃ m m', T s m ∧ sourceChangeSet m.db workflowRunId sourceId = some record.changeSet.changeSetId ∧ T m m' ∧
    m'.db.changeSetStatus record.changeSet.changeSetId = some record.changeSet.status ∧ T m' s'

theorem CaptureStore.get_ok {R : ArtifactRepo} {s : CaptureStore} {id : String} {record : ChangeSetRecord}
    (h : get R s id none none none = .ok record) :
    record.changeSet.changeSetId = id ∧ s.db.changeSetStatus id = some record.changeSet.status := by
  unfold get at h
  split at h
  · next row lineage columns hlineage _ =>
    obtain ⟨task, node, run⟩ := lineage
    simp only [ChangeSetRepository.changeSetLineage, Option.bind_eq_some_iff, Option.map_eq_some_iff] at hlineage
    obtain ⟨found, hrow, _, -, heq⟩ := hlineage
    obtain ⟨rfl, rfl⟩ := Prod.mk.inj heq
    obtain ⟨_, -, h⟩ := Tx.bind_ok.1 h
    unfold verifiedRecord at h
    dsimp only at h
    split at h
    · cases h
    · simp only [Tx.bind_ok] at h
      obtain ⟨_, -, _, -, _, -, _, -, _, -, _, -, _, -, _, -, h⟩ := h
      obtain rfl := Tx.pure_ok.1 h
      obtain rfl : found.id = id := Table.get?_key hrow
      refine ⟨rfl, ?_⟩
      change (s.db.changeSets.get? found.id).map ChangeSetRow.status = _
      rw [hrow]
      rfl
  · cases h

theorem raising_ok {W α : Type} {x : Except Fault α} {w w' : W} {a : α} (h : raising x w = .ok a w') :
    x = .ok a ∧ w = w' := by
  cases x <;> cases h
  exact ⟨rfl, rfl⟩

namespace ChangeSetHandler

section
variable {W : Type} {S : ChangeSetHandler W} {store : W → CaptureStore} {T : CaptureStore → CaptureStore → Prop}
  {context : NodeExecutionContext} {record : ChangeSetRecord}

theorem Documented.reading_ok (hS : S.Documented store T) {α : Type} {query : CaptureStore → Except ArtifactError α}
    {w w' : W} {a : α} (h : S.reading query w = .ok a w') :
    ∃ m, T (store w) m ∧ query m = .ok a ∧ T m (store w') := by
  have hends := hS.reading query w
  rwa [h] at hends

variable [IsPreorder CaptureStore T]

theorem raising_stays {α : Type} (x : Except Fault α) : Stays (Beside store T) (raising x) := by
  cases x with
  | ok a => exact .pure a
  | error e => exact .throw e

theorem committed_beside {α : Type} {op : Instant → Op α} {a : α} {s s' : CaptureStore} (h : CaptureStore.Committed T op a s s')
    (hop : ∀ now m db, (op now).run m.db = .ok (a, db) → T m { m with db }) : T s s' := by
  obtain ⟨now, m, db, hbefore, hrun, hafter⟩ := h
  exact trans_of T hbefore (trans_of T (hop now m db hrun) hafter)

/-- The lease of a handler is kept alive beside the store, when a write to the locks is nothing to `T`. -/
theorem Documented.keeps (hS : S.Documented store T) {U : Db → Db → Prop}
    (hU : ∀ (s : CaptureStore) (db : Db), U s.db db → T s { s with db }) (hlocks : ∀ db t, U db (Db.fileLocksT.set db t)) :
    S.toCoroutines.Keeps U (Beside store T) where
  transaction {α} {op} h := by
    intro w
    have hends := hS.transaction op w
    have hop : ∀ {a : α} {s s' : CaptureStore}, CaptureStore.Committed T op a s s' → T s s' := fun hc =>
      committed_beside hc fun now m db hrun => hU _ _ (h now _ _ _ hrun)
    cases hrun : S.transaction op w with
    | ok a w' =>
      rw [hrun] at hends
      exact hop hends
    | error e w' =>
      rw [hrun] at hends
      rcases hends with hsame | ⟨a, hc⟩
      · exact hsame
      · exact hop hc
  locks := hlocks
  startHeartbeat := hS.startHeartbeat
  setLease := hS.setLease
  stopHeartbeat := hS.stopHeartbeat

theorem Documented.reading_stays (hS : S.Documented store T) {α : Type} (query : CaptureStore → Except ArtifactError α) :
    Stays (Beside store T) (S.reading query) := by
  intro w
  have hends := hS.reading query w
  cases hrun : S.reading query w with
  | ok a w' =>
    rw [hrun] at hends
    obtain ⟨m, hbefore, -, hafter⟩ := hends
    exact trans_of T hbefore hafter
  | error e w' =>
    rw [hrun] at hends
    exact hends

theorem Documented.createArtifact_stays (hS : S.Documented store T) (new : NewArtifact) :
    Stays (Beside store T) (S.createArtifact new) := by
  intro w
  have hends := hS.createArtifact new w
  cases hrun : S.createArtifact new w with
  | ok row w' =>
    rw [hrun] at hends
    obtain ⟨m, hbefore, -, hafter⟩ := hends
    exact trans_of T hbefore hafter
  | error e w' =>
    rw [hrun] at hends
    exact hends

theorem Documented.get_stays (hS : S.Documented store T) (id : String) : Stays (Beside store T) (S.get id) :=
  hS.reading_stays _

theorem Documented.source_stays (hS : S.Documented store T) : Stays (Beside store T) (S.source context) := by
  refine .bind (raising_stays _) fun p => .bind ?_ fun _ => .pure _
  refine .bind (hS.reading_stays _) fun id => ?_
  cases id with
  | none => exact .throw _
  | some id => exact hS.get_stays id

theorem Documented.source_ok (hS : S.Documented store T) {w w' : W} {source : WorkflowNode}
    (h : S.source context w = .ok (source, record) w') :
    ∃ sourceId, sourceTask context.run.compiledSnapshot context.node = .ok (sourceId, source) ∧
      ReadBetween T (store w) (store w') context.run.id sourceId record := by
  obtain ⟨⟨sourceId, task⟩, w₁, htask, h⟩ := bind_eq_ok.1 h
  obtain ⟨found, w₂, hrecord, h⟩ := bind_eq_ok.1 h
  cases h
  obtain ⟨hsource, rfl⟩ := raising_ok htask
  obtain ⟨id, w₃, hid, hget⟩ := bind_eq_ok.1 hrecord
  obtain ⟨m, hm, hquery, hm'⟩ := hS.reading_ok hid
  cases id with
  | none => cases hget
  | some id =>
    obtain ⟨m', hbefore, hget, hafter⟩ := hS.reading_ok hget
    obtain ⟨rfl, hstatus⟩ := get_ok hget
    exact ⟨sourceId, hsource, m, m', hm, Except.ok.inj hquery, trans_of T hm' hbefore, hstatus, hafter⟩

theorem artifactRef_ok {stored : ArtifactRow} {ref : ArtifactRef} {w w' : W} (h : artifactRef stored w = .ok ref w') :
    stored.ref = ref ∧ w = w' := by
  unfold artifactRef at h
  split at h <;> cases h
  exact ⟨rfl, rfl⟩

theorem artifactRef_stays (stored : ArtifactRow) : Stays (Beside store T) (artifactRef stored) := .ite (.pure _) (.throw _)

theorem Documented.report_stays (hS : S.Documented store T) (label : String) (artifactType : ArtifactType) (model : Plain) :
    Stays (Beside store T) (S.report context record label artifactType model) := by
  refine .bind (hS.createArtifact_stays _).outcome fun created => ?_
  cases created with
  | ok stored => exact artifactRef_stays stored
  | error e =>
    refine .ite (.throw e) (.bind (hS.reading_stays _).outcome fun found => ?_)
    cases found with
    | ok found => exact .ite (.throw e) (artifactRef_stays _)
    | error e' => exact .throw _

/-- What `get_and_verify` returned is registered, with its content. -/
theorem keeps_of_getAndVerify {R : ArtifactRepo} {s : CaptureStore} {id sessionId taskId : String} {row : ArtifactRow}
    {content : Bytes} (h : getAndVerify R s id sessionId taskId none = .ok (row, content)) : s.Keeps row content := by
  unfold getAndVerify at h
  obtain ⟨_, -, h⟩ := Tx.bind_ok.1 h
  split at h
  · cases h
  · next found hfound =>
    simp only [Tx.bind_ok] at h
    obtain ⟨_, -, _, -, _, -, _, -, content', hread, _, -, _, -, _, -, h⟩ := h
    obtain ⟨rfl, rfl⟩ := Prod.mk.inj (Tx.pure_ok.1 h)
    obtain rfl : row.id = id := Table.get?_key hfound
    refine ⟨hfound, ?_⟩
    unfold ArtifactStore.readBytes at hread
    split at hread
    · cases hread
    · next bytes hbytes =>
      obtain rfl := Except.ok.inj hread
      exact hbytes

/-- A report that was returned is stored, whether it was created or was there. -/
theorem Documented.report_ok (hS : S.Documented store T) {label : String} {artifactType : ArtifactType} {model : Plain}
    {w w' : W} {ref : ArtifactRef} (h : S.report context record label artifactType model w = .ok ref w') :
    ∃ row m, row.ref = ref ∧ T (store w) m ∧ m.Keeps row (canonicalJson model) ∧ T m (store w') := by
  obtain ⟨created, w₁, hcreate, h⟩ := bind_eq_ok.1 h
  have hends := hS.createArtifact (S.reportArtifact context record label artifactType model) w
  unfold outcome at hcreate
  split at hcreate <;> cases hcreate
  · next row hrun =>
    rw [hrun] at hends
    obtain ⟨m, hbefore, hkeeps, hafter⟩ := hends
    obtain ⟨href, rfl⟩ := artifactRef_ok h
    exact ⟨row, m, href, hbefore, hkeeps, hafter⟩
  · next e hrun =>
    rw [hrun] at hends
    dsimp only at h
    split at h
    · cases h
    · obtain ⟨found, w₂, hfound, h⟩ := bind_eq_ok.1 h
      unfold outcome at hfound
      split at hfound <;> cases hfound
      · next p hread =>
        obtain ⟨stored, existing⟩ := p
        dsimp only at h
        split at h
        · cases h
        · next hsame =>
          simp only [not_or, ne_eq, not_not] at hsame
          obtain ⟨m, hbefore, hquery, hafter⟩ := hS.reading_ok hread
          obtain ⟨href, rfl⟩ := artifactRef_ok h
          refine ⟨stored, m, href, trans_of T hends hbefore, ?_, hafter⟩
          have hkeeps := keeps_of_getAndVerify hquery
          rwa [hsame.2.2.2] at hkeeps
      · cases h

theorem Documented.transition_ok (hS : S.Documented store T) {id : String} {expected target : ChangeSetStatus}
    {reason severity : Option String} {w w' : W} (h : S.transition context id expected target reason severity w = .ok record w') :
    CaptureStore.Committed T (fun now => ChangeSetRepository.transition id expected target context.masterLease none reason severity now) ()
      (store w) (store w') := by
  obtain ⟨_, w₁, htransition, hget⟩ := bind_eq_ok.1 h
  have hends := hS.transaction
    (fun now => ChangeSetRepository.transition id expected target context.masterLease none reason severity now) w
  rw [htransition] at hends
  obtain ⟨now, m, db, hbefore, hrun, hafter⟩ := hends
  exact ⟨now, m, db, hbefore, hrun, trans_of T hafter ((hS.get_stays id).ok hget)⟩

/-- A transition that raised was made or was not. -/
theorem Documented.transition_error (hS : S.Documented store T) {id : String} {expected target : ChangeSetStatus}
    {reason severity : Option String} {w w' : W} {e : Fault}
    (h : S.transition context id expected target reason severity w = .error e w') :
    T (store w) (store w') ∨
      CaptureStore.Committed T (fun now => ChangeSetRepository.transition id expected target context.masterLease none reason severity now) ()
        (store w) (store w') := by
  have hends := hS.transaction
    (fun now => ChangeSetRepository.transition id expected target context.masterLease none reason severity now) w
  unfold transition at h
  rw [run_bind] at h
  split at h
  · next htransition =>
    rw [htransition] at hends
    obtain ⟨now, m, db, hbefore, hrun, hafter⟩ := hends
    exact .inr ⟨now, m, db, hbefore, hrun, trans_of T hafter ((hS.get_stays id).error h)⟩
  · next htransition =>
    cases h
    rw [htransition] at hends
    rcases hends with hsame | ⟨⟨⟩, hmade⟩
    · exact .inl hsame
    · exact .inr hmade

end

end ChangeSetHandler

end AgentHub
