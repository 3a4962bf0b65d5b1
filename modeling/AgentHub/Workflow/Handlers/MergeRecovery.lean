import AgentHub.Storage.Runs.MergeMark
import AgentHub.Workflow.Handlers.MergePatch
import AgentHub.Workspace.Documented
import AgentHub.Workspace.Holding
/-!
# What a merge leaves behind

However `execute` ends, the merge was finalized, or the checkout and the mark of the run are what they were, or the run
stays marked and reconciliation is asked for. One contract for each part of the handler, over the laws of the repository,
of the transactions and of the reads that it calls.
-/

namespace AgentHub

open Lib Workspace

/-! ## The laws -/

/-- A transaction that was committed; what others committed before and after it stays within `T`. -/
def Committed {α : Type} (T : Db → Db → Prop) (op : Instant → Op α) (a : α) (d d' : Db) : Prop :=
  ∃ now d₁ d₂, T d d₁ ∧ (op now).run d₁ = .ok (a, d₂) ∧ T d₂ d'

/-- The ChangeSet of a record: of its columns only the status and the time of its last write ever change. -/
def ChangeSetRecord.SameSubject (subject record : ChangeSetRecord) : Prop :=
  record = { subject with
    changeSet := { subject.changeSet with status := record.changeSet.status }
    updatedAt := record.updatedAt }

/-- A merge in its world: the handler and its arguments, the repository and the rules of Git, the database. -/
structure MergeSetting (W : Type) where
  S : MergePatchNodeHandler W
  context : NodeExecutionContext
  subject : ChangeSetRecord
  G : GitRules
  view : W → Checkout
  db : W → Db

namespace MergeSetting

variable {W : Type} (M : MergeSetting W)

/-- What others may do to the database meanwhile. -/
def Meanwhile (d d' : Db) : Prop :=
  MergeStays M.context.run.id M.context.nodeRun.id M.subject.changeSet.changeSetId d d'

def Others (w w' : W) : Prop := M.Meanwhile (M.db w) (M.db w')

/-- Nothing of the checkout moved. -/
abbrev Aside : W → W → Prop := Along M.Others M.view Eq

instance : IsPreorder Db M.Meanwhile :=
  inferInstanceAs (IsPreorder Db (MergeStays M.context.run.id M.context.nodeRun.id M.subject.changeSet.changeSetId))

instance : IsPreorder W M.Others where
  refl w := refl_of M.Meanwhile (M.db w)
  trans _ _ _ h h' := trans_of M.Meanwhile h h'

abbrev repo : Path := M.S.repo M.context

abbrev git : GitProcess (EStateM Failure W) := M.S.git.process M.repo

/-- A transaction that raises may have been committed all the same: its caller was cancelled meanwhile. -/
structure Documented : Prop where
  git : M.S.git.Documented M.S.host M.G M.view M.repo M.Others
  transaction {α : Type} (op : Instant → Op α) (w : W) :
    Ends (fun a w' => M.view w = M.view w' ∧ Committed M.Meanwhile op a (M.db w) (M.db w'))
      (fun _ w' => M.view w = M.view w' ∧
        (M.Meanwhile (M.db w) (M.db w') ∨ ∃ a, Committed M.Meanwhile op a (M.db w) (M.db w')))
      (M.S.transaction op w)
  startHeartbeat (lease : WorkspaceLease) (w : W) : M.Aside w (M.S.startHeartbeat lease w)
  setLease (lease : WorkspaceLease) (w : W) : M.Aside w (M.S.setLease lease w)
  stopHeartbeat (w : W) : M.Aside w (M.S.stopHeartbeat w)
  now : Stays M.Aside M.S.now
  getForSourceNode (rid sourceId : String) : Stays M.Aside (M.S.getForSourceNode rid sourceId)
  getForChangeSet (csid : String) : Stays M.Aside (M.S.getForChangeSet csid)
  loadPatch (csid : String) : Stays M.Aside (M.S.loadPatch csid)
  buildManifest {build} (h : M.S.buildManifest = some build) (run : WorkflowRunRow) (record : ChangeSetRecord) :
    Stays M.Aside (build run record)
  subject {w w' : W} {sourceId : String} {record : ChangeSetRecord}
    (h : M.S.getForSourceNode M.context.run.id sourceId w = .ok record w') : M.subject.SameSubject record
  patch {w w' : W} {record : ChangeSetRecord} {patch : Bytes}
    (h : M.S.loadPatch M.subject.changeSet.changeSetId w = .ok (record, patch) w') :
    M.S.host.sha256 patch = M.subject.changeSet.patchSha256

/-- The bytes of the approved patch. -/
def Approved (patch : Bytes) : Prop := M.S.host.sha256 patch = M.subject.changeSet.patchSha256

/-- The paths that the rollback restores from the base commit. -/
def existing : List String := M.subject.paths.filter fun path => path ∉ M.subject.created

end MergeSetting

namespace ChangeSetRecord.SameSubject

variable {subject record : ChangeSetRecord}

theorem paths (h : subject.SameSubject record) : record.paths = subject.paths := congrArg (fun r => r.paths) h

theorem created (h : subject.SameSubject record) : record.created = subject.created :=
  congrArg (fun r => r.created) h

theorem changeSetId (h : subject.SameSubject record) : record.changeSet.changeSetId = subject.changeSet.changeSetId :=
  congrArg (fun r => r.changeSet.changeSetId) h

theorem baseCommit (h : subject.SameSubject record) : record.changeSet.baseCommit = subject.changeSet.baseCommit :=
  congrArg (fun r => r.changeSet.baseCommit) h

end ChangeSetRecord.SameSubject

namespace MergeSetting

variable {W : Type} {M : MergeSetting W}

/-! ## Transactions and reads -/

section
variable (hM : M.Documented)
include hM

theorem Documented.keeps : M.S.toCoroutines.Keeps M.Meanwhile M.Aside where
  transaction {α op} h := by
    intro w
    have hlaw := hM.transaction op w
    cases hx : M.S.transaction op w with
    | ok a w' =>
      rw [hx] at hlaw
      obtain ⟨hview, now, d₁, d₂, hbefore, hrun, hafter⟩ := hlaw
      exact ⟨trans_of M.Meanwhile hbefore (trans_of M.Meanwhile (h now _ _ _ hrun) hafter), hview⟩
    | error e w' =>
      rw [hx] at hlaw
      obtain ⟨hview, hnone | ⟨a, now, d₁, d₂, hbefore, hrun, hafter⟩⟩ := hlaw
      · exact ⟨hnone, hview⟩
      · exact ⟨trans_of M.Meanwhile hbefore (trans_of M.Meanwhile (h now _ _ _ hrun) hafter), hview⟩
  locks _ _ := ⟨rfl, id, rfl⟩
  startHeartbeat := hM.startHeartbeat
  setLease := hM.setLease
  stopHeartbeat := hM.stopHeartbeat

/-- A transaction of the merge, under the lease as it is held: what it needs stays until it runs, and what it does stays
after it ran. -/
theorem Documented.transacts {α : Type} {O : HeldWorkspaceLease → Instant → Op α} {F : Db → Prop} {N : α → Db → Prop}
    (hF : ∀ d d', M.Meanwhile d d' → F d → F d') (hN : ∀ a d d', M.Meanwhile d d' → N a d → N a d')
    (hop : ∀ held now d a d', (O held now).run d = .ok (a, d') → F d → N a d') (c : Checkout) :
    Triple (fun w => M.view w = c ∧ F (M.db w))
      (do
        let held ← LockManager.current M.S.toCoroutines
        M.S.transaction (O held))
      (fun a w => M.view w = c ∧ N a (M.db w)) (fun _ w => M.view w = c ∧ (F (M.db w) ∨ ∃ a, N a (M.db w))) := by
  rintro w ⟨rfl, hneed⟩
  have hdid : ∀ {a w'}, Committed M.Meanwhile (O (M.S.held w)) a (M.db w) (M.db w') → N a (M.db w') := by
    rintro a w' ⟨now, d₁, d₂, hbefore, hrun, hafter⟩
    exact hN a _ _ hafter (hop _ _ _ _ _ hrun (hF _ _ hbefore hneed))
  have hlaw := hM.transaction (O (M.S.held w)) w
  rw [run_bind]
  unfold LockManager.current
  dsimp only
  cases hx : M.S.transaction (O (M.S.held w)) w with
  | ok a w' =>
    rw [hx] at hlaw
    exact ⟨hlaw.1.symm, hdid hlaw.2⟩
  | error e w' =>
    rw [hx] at hlaw
    obtain ⟨hview, hnone | ⟨a, hcommitted⟩⟩ := hlaw
    · exact ⟨hview.symm, .inl (hF _ _ hnone hneed)⟩
    · exact ⟨hview.symm, .inr ⟨a, hdid hcommitted⟩⟩

theorem Documented.state_stays : Stays M.Aside (onHost (GitManager.state M.S.host M.git)) :=
  onHost_stays (GitManager.state_stays hM.git)

theorem Documented.precheck_stays (sourceId : String) (record : ChangeSetRecord) :
    Stays M.Aside (M.S.precheck M.context sourceId record) := by
  refine .bind (hM.getForChangeSet _) fun approval => ?_
  cases approval with
  | none => exact .throw _
  | some approval =>
    refine .check (.bind hM.now fun now => .check (.check (.check (.check ?_))))
    cases sourceNode M.context sourceId with
    | none => exact .throw _
    | some source => exact .ite (.throw _) (.ite (.throw _) (.pure _))

theorem Documented.currentEvidenceHash_stays (record : ChangeSetRecord) :
    Stays M.Aside (M.S.currentEvidenceHash M.context record) := by
  unfold MergePatchNodeHandler.currentEvidenceHash
  cases hbuild : M.S.buildManifest with
  | none => exact .pure _
  | some build => exact .bind (hM.buildManifest hbuild _ _).reraise fun _ => .pure _

theorem Documented.reverify_stays (sourceId : String) : Stays M.Aside (M.S.reverify M.context sourceId) := by
  refine .bind (hM.getForSourceNode _ _) fun record => .bind (hM.getForChangeSet _) fun approval => ?_
  cases approval with
  | none => exact .throw _
  | some approval =>
    refine .bind hM.now fun now => .check (.bind (hM.currentEvidenceHash_stays record) fun _ => .check ?_)
    cases sourceNode M.context sourceId with
    | none => exact .throw _
    | some source => exact .ite (.throw _) (.pure _)

/-- The record that was checked again is one of the ChangeSet. -/
theorem Documented.reverify_ok {sourceId : String} {w w' : W} {r : ChangeSetRecord × ApprovalRow}
    (h : M.S.reverify M.context sourceId w = .ok r w') : M.subject.SameSubject r.1 := by
  obtain ⟨record, w₁, hread, h₁⟩ := bind_eq_ok.1 h
  obtain ⟨approval, w₂, -, h₂⟩ := bind_eq_ok.1 h₁
  suffices hr : r.1 = record from hr ▸ hM.subject hread
  cases approval with
  | none => cases h₂
  | some approval =>
    obtain ⟨now, w₃, -, h₃⟩ := bind_eq_ok.1 h₂
    split at h₃
    · cases h₃
    obtain ⟨evidence, w₄, -, h₄⟩ := bind_eq_ok.1 h₃
    dsimp only at h₄
    split at h₄
    · cases h₄
    cases hsource : sourceNode M.context sourceId with
    | none =>
      rw [hsource] at h₄
      cases h₄
    | some source =>
      rw [hsource] at h₄
      dsimp only at h₄
      split at h₄
      · cases h₄
      · cases h₄
        rfl

end

/-! ## The states of a merge -/

/-- The checks of the checkout passed. -/
structure Ready (M : MergeSetting W) (c : Checkout) : Prop where
  clean : c.Clean M.G
  current : c.head = M.context.run.currentCommit
  base : c.head = M.subject.changeSet.baseCommit
  wellFormed : c.worktree.WellFormed

/-- What is left of an apply of the approved patch that touched the working tree, or that returned. -/
structure Applied (M : MergeSetting W) (c : Checkout) (patch : Bytes) (t : Worktree) : Prop where
  approved : M.Approved patch
  applies : Worktree.Applies M.G patch c.worktree t
  fresh : ∀ path ∈ M.G.newPaths patch, c.worktree.files path = none
  shown : t.Matches M.G M.subject.changeSet.baseCommit → t = c.worktree

/-- Only an apply may have touched the working tree. -/
def Touched (M : MergeSetting W) (c c' : Checkout) : Prop := c' = c ∨ ∃ patch, M.Applied c patch c'.worktree

/-- The node belongs to the run. -/
def Bound (M : MergeSetting W) (d : Db) : Prop := d.runOf M.context.nodeRun.id = some M.context.run.id

def Idle (M : MergeSetting W) (d : Db) : Prop := d.Unmarked M.context.run.id ∧ M.Bound d

def Marked (M : MergeSetting W) (d : Db) : Prop := d.Marked M.context.run.id ∧ M.Bound d

def Unmarked (M : MergeSetting W) (d : Db) : Prop := d.Unmarked M.context.run.id

/-- When a failed merge of the approved patch into a checkout can be taken back. -/
structure Reversible (M : MergeSetting W) (c : Checkout) : Prop where
  /-- the mark is known to the handler once it is committed -/
  begins {w w' : W} {e : Fault} (hview : M.view w = c) (hidle : M.Idle (M.db w))
    (h : M.S.begin M.context w = .error e w') : M.Meanwhile (M.db w) (M.db w')
  paths {patch : Bytes} (h : M.Approved patch) :
    PatchPaths M.G M.subject.changeSet.baseCommit patch M.existing M.subject.created M.subject.changeSet.createdDirectories
  room {patch : Bytes} (h : M.Approved patch) :
    c.worktree.Room M.G M.subject.changeSet.baseCommit patch M.subject.created M.subject.changeSet.createdDirectories
  /-- what an apply leaves behind shows in the status of the repository -/
  shown {patch : Bytes} (h : M.Approved patch) {w : W} (hw : M.view w = c)
    (hclean : (M.view (Lib.ending (GitManager.applyPatch M.S.host M.git patch w))).worktree.Matches M.G
      M.subject.changeSet.baseCommit) :
    (M.view (Lib.ending (GitManager.applyPatch M.S.host M.git patch w))).worktree = c.worktree

/-- The run is at the commit that HEAD names, its ChangeSet is merged and it has no mark. -/
def Finalized (M : MergeSetting W) (w : W) : Prop :=
  (M.db w).Merged M.context.run.id M.subject.changeSet.changeSetId (M.view w).head

/-- How a merge may end that raised an error, from a checkout `c`. -/
def Settled (M : MergeSetting W) (c : Checkout) (e : Fault) (w : W) : Prop :=
  M.Finalized w ∨ (M.view w = c ∧ M.Unmarked (M.db w)) ∨
    (e.isReconciliationRequired = true ∧ (M.db w).Marked M.context.run.id)

section
variable {d d' : Db} {w w' : W}

theorem Bound.stays (h : M.Bound d) (hd : M.Meanwhile d d') : M.Bound d' := hd.node.trans h

theorem Idle.stays (h : M.Idle d) (hd : M.Meanwhile d d') : M.Idle d' := ⟨hd.unmarked h.1, h.2.stays hd⟩

theorem Marked.stays (h : M.Marked d) (hd : M.Meanwhile d d') : M.Marked d' := ⟨hd.marked h.1, h.2.stays hd⟩

theorem Unmarked.stays (h : M.Unmarked d) (hd : M.Meanwhile d d') : M.Unmarked d' := hd.unmarked h

theorem Finalized.stays (h : M.Finalized w) (hw : M.Aside w w') : M.Finalized w' := by
  unfold Finalized
  rw [← hw.2]
  exact hw.1.merged_stays h

theorem Settled.stays {c : Checkout} {e : Fault} (h : M.Settled c e w) (hw : M.Aside w w') : M.Settled c e w' := by
  rcases h with h | ⟨rfl, h⟩ | ⟨he, h⟩
  · exact .inl (h.stays hw)
  · exact .inr (.inl ⟨hw.2.symm, Unmarked.stays h hw.1⟩)
  · exact .inr (.inr ⟨he, hw.1.marked h⟩)

end

/-- What only looks on keeps the checkout and what the database carries along. -/
theorem looks {α : Type} {x : EStateM Fault W α} (hx : Stays M.Aside x) {F : Db → Prop}
    (hF : ∀ d d', M.Meanwhile d d' → F d → F d') (c : Checkout) :
    Triple (fun w => M.view w = c ∧ F (M.db w)) x (fun _ w => M.view w = c ∧ F (M.db w))
      (fun _ w => M.view w = c ∧ F (M.db w)) :=
  Triple.of_stays hx fun _ _ hw hR => ⟨hR.2.symm.trans hw.1, hF _ _ hR.1 hw.2⟩

/-! ## The operations on the mark -/

section
variable (hM : M.Documented)
include hM

theorem Documented.inspect_stays (record : ChangeSetRecord) : Stays M.Aside (M.S.inspect M.context record) := by
  refine .bind LockManager.assertHealthy_stays fun _ => .bind hM.state_stays fun state => ?_
  exact .ite (.throw _) (.ite (.throw _) (onHost_stays (GitManager.indexSha256_stays hM.git)))

theorem Documented.inspect_ok {record : ChangeSetRecord} (hrecord : M.subject.SameSubject record) {w w' : W} {sha : String}
    (h : M.S.inspect M.context record w = .ok sha w') : M.Ready (M.view w) := by
  obtain ⟨_, w₁, hhealthy, h₁⟩ := bind_eq_ok.1 h
  obtain ⟨state, w₂, hstate, h₂⟩ := bind_eq_ok.1 h₁
  have hview : M.view w = M.view w₁ := ((LockManager.assertHealthy_stays (R := M.Aside)).ok hhealthy).2
  obtain ⟨hcommit, hdirty⟩ := GitManager.state_ok hM.git (onHost_ok hstate)
  split at h₂
  · cases h₂
  next hcurrent =>
    split at h₂
    · cases h₂
    next hbase =>
      obtain ⟨hclean, hhead⟩ := not_or.1 hcurrent
      rw [hview]
      refine ⟨hdirty.1 (Bool.eq_false_iff.2 hclean), hcommit.symm.trans (not_not.1 hhead), ?_, hM.git.wellFormed w₁⟩
      exact hcommit.symm.trans ((not_not.1 hbase).trans hrecord.baseCommit)

theorem Documented.begin_triple {c : Checkout} (hR : M.Reversible c) :
    Triple (fun w => M.view w = c ∧ M.Idle (M.db w)) (M.S.begin M.context)
      (fun _ w => M.view w = c ∧ M.Marked (M.db w)) (fun _ w => M.view w = c ∧ M.Idle (M.db w)) := by
  intro w hw
  have hends := hM.transacts (F := M.Idle) (N := fun _ => M.Marked) (fun _ _ hd h => h.stays hd)
    (fun _ _ _ hd h => h.stays hd) (O := fun held now => WorkflowRunRepository.beginMergeFinalizing M.context.run.id
      held.lease M.context.masterLease now) (fun _ _ _ _ _ hrun hidle => by
        obtain ⟨hmarked, hnode⟩ := WorkflowRunRepository.beginMergeFinalizing_marks hrun
        exact ⟨hmarked, hnode.trans hidle.2⟩) c w hw
  cases hx : M.S.begin M.context w with
  | ok a w' =>
    unfold MergePatchNodeHandler.begin at hx
    rw [hx] at hends
    exact hends
  | error e w' =>
    have hnone := hR.begins hw.1 hw.2 hx
    unfold MergePatchNodeHandler.begin at hx
    rw [hx] at hends
    exact ⟨hends.1, hw.2.stays hnone⟩

theorem Documented.clear_triple (c : Checkout) :
    Triple (fun w => M.view w = c ∧ M.Marked (M.db w)) (M.S.clear M.context)
      (fun _ w => M.view w = c ∧ M.Unmarked (M.db w))
      (fun _ w => M.Marked (M.db w) ∨ (M.view w = c ∧ M.Unmarked (M.db w))) := by
  refine (hM.transacts (F := M.Marked) (N := fun _ => M.Unmarked) (fun _ _ hd h => h.stays hd)
    (fun _ _ _ hd h => Unmarked.stays h hd) (fun _ _ _ _ _ hrun _ =>
      WorkflowRunRepository.clearMergeFinalizing_clears hrun) c).weaken (fun _ h => h) (fun _ _ h => h) ?_
  rintro e w ⟨hview, h | ⟨_, h⟩⟩
  · exact .inl h
  · exact .inr ⟨hview, h⟩

theorem Documented.finalize_triple (commit : String) :
    Triple (fun w => commit = (M.view w).head ∧ M.Marked (M.db w))
      (M.S.finalize M.context M.subject.changeSet.changeSetId commit)
      (fun _ w => M.Finalized w) (fun _ w => M.Marked (M.db w) ∨ M.Finalized w) := by
  rintro w ⟨rfl, hw⟩
  have hmerges := hM.transacts (F := M.Marked)
    (N := fun _ d => d.Merged M.context.run.id M.subject.changeSet.changeSetId (M.view w).head)
    (fun _ _ hd h => h.stays hd) (fun _ _ _ hd h => hd.merged_stays h)
    (O := fun held now => WorkflowRunRepository.finalizeMerge M.S.ord M.context.nodeRun.id
      M.subject.changeSet.changeSetId (M.view w).head held.lease M.context.masterLease
      "Master committed the approved ChangeSet." now)
    (fun _ _ _ _ _ hrun hmarked => WorkflowRunRepository.finalizeMerge_merges hrun hmarked.2) (M.view w)
  refine hmerges.weaken (fun _ h => h) ?_ ?_ w ⟨rfl, hw⟩
  · rintro _ w' ⟨hview, h⟩
    unfold Finalized
    rw [hview]
    exact h
  · rintro e w' ⟨hview, h | ⟨_, h⟩⟩
    · exact .inl h
    · right
      unfold Finalized
      rw [hview]
      exact h

/-! ## Recovery -/

theorem Documented.restore_stays (record : ChangeSetRecord) (changedPaths : List String) :
    Stays M.Others (M.S.restore M.context record changedPaths) := by
  refine .bind ((GitManager.restoreExistingPaths_stays hM.git _ _).mono fun _ _ h => h.1) fun _ => .bind ?_ fun _ => ?_
  · exact GitManager.unstageNewPaths_stays (fun input => (hM.git.keepsTree (by decide) input).mono fun _ _ h => h.1) _
  · exact (GitManager.removeWorktreeEntries_stays hM.git _).mono fun _ _ h => h.1

/-- A rollback that returned restored the tracked files and then took away what was made. -/
theorem Documented.restore_ok {c : Checkout} {patch : Bytes} (hR : M.Reversible c) (hpatch : M.Approved patch)
    {record : ChangeSetRecord} (hrecord : M.subject.SameSubject record) {w w' : W}
    (h : M.S.restore M.context record M.subject.paths w = .ok () w') :
    ∃ restored, Worktree.Restores M.existing (M.view w).worktree restored ∧
      Worktree.Removes M.subject.created restored (M.view w').worktree ∧
      ∀ path ∈ M.subject.created, (M.view w').worktree.Vacant path := by
  unfold MergePatchNodeHandler.restore at h
  rw [hrecord.created, hrecord.baseCommit] at h
  obtain ⟨_, w₁, hexisting, h₁⟩ := bind_eq_ok.1 h
  obtain ⟨_, w₂, hunstage, hremove⟩ := bind_eq_ok.1 h₁
  have hcreated : ∀ path, path ∈ sortedSet M.subject.created ↔ path ∈ M.subject.created := fun path => by
    rw [sortedSet, sorted, (List.perm_insertionSort _ _).mem_iff, List.mem_dedup]
  refine ⟨(M.view w₁).worktree, ?_, ?_, fun path hpath => ?_⟩
  · exact GitManager.restoreExistingPaths_ok hM.git (fun _ hp => (hR.paths hpatch).existing_tracked hp) hexisting
  · have hsame : (M.view w₂).worktree = (M.view w₁).worktree :=
      ((GitManager.unstageNewPaths_stays (fun input => hM.git.keepsTree (by decide) input) _).ok hunstage).2
    rw [← hsame]
    exact (((GitManager.removeWorktreeEntries_stays hM.git _).ok hremove).2.2.2).mono fun p hp => (hcreated p).1 hp
  · exact GitManager.removeWorktreeEntries_ok hM.git hremove path ((hcreated path).2 hpath)

/-- A clean checkout of the expected commit after the rollback is the one from before the apply. -/
theorem Documented.restored {c : Checkout} (hc : M.Ready c) (hR : M.Reversible c) {patch : Bytes} {w w' : W}
    (happlied : M.Applied c patch (M.view w).worktree) {record : ChangeSetRecord} (hrecord : M.subject.SameSubject record)
    (h : M.S.restore M.context record M.subject.paths w = .ok () w') {v : W} (hv : M.view v = M.view w')
    (hclean : (M.view v).Clean M.G) (hhead : (M.view v).head = M.context.run.currentCommit) : M.view v = c := by
  obtain ⟨restored, hrestores, hremoves, hvacant⟩ := hM.restore_ok hR happlied.approved hrecord h
  rw [← hv] at hremoves hvacant
  have hsame : (M.view v).head = c.head := hhead.trans hc.current.symm
  have hbefore := hc.clean.worktree
  have hafter := hclean.worktree
  rw [hc.base] at hbefore
  rw [hsame, hc.base] at hafter
  refine hc.clean.ext hclean hsame (rollback_restores (hR.paths happlied.approved) (hR.room happlied.approved)
    hc.wellFormed (hM.git.wellFormed v) hbefore hafter happlied.applies happlied.fresh hrestores hremoves hvacant)

end

/-- Without a rollback: what an apply left shows. -/
theorem Touched.eq_of_clean {c c' : Checkout} (hc : M.Ready c) (h : M.Touched c c') (hclean : c'.Clean M.G)
    (hhead : c'.head = M.context.run.currentCommit) : c' = c := by
  rcases h with rfl | ⟨patch, happlied⟩
  · rfl
  have hsame : c'.head = c.head := hhead.trans hc.current.symm
  have hafter := hclean.worktree
  rw [hsame, hc.base] at hafter
  exact hc.clean.ext hclean hsame (happlied.shown hafter)

/-- A checkout that could be cleared of its mark is the one from before. -/
def Restorable (M : MergeSetting W) (c c' : Checkout) : Prop :=
  c'.Clean M.G → c'.head = M.context.run.currentCommit → c' = c

section
variable (hM : M.Documented)
include hM

/-- What the handler knows of the checkout after it looked. -/
theorem Documented.state_triple {P : W → Prop} (hP : ∀ w w', P w → M.Aside w w' → P w') :
    Triple P (onHost (GitManager.state M.S.host M.git))
      (fun state w => (state.commit = (M.view w).head ∧ (state.dirty = false ↔ (M.view w).Clean M.G)) ∧ P w)
      (fun _ => P) := by
  intro w hw
  have hR := hM.state_stays w
  cases hx : onHost (GitManager.state M.S.host M.git) w with
  | error e w' =>
    rw [hx] at hR
    exact hP _ _ hw hR
  | ok state w' =>
    rw [hx] at hR
    have hstate := GitManager.state_ok hM.git (onHost_ok hx)
    rw [hR.2] at hstate
    exact ⟨hstate, hP _ _ hw hR⟩

/-- The rollback of a checkout that shows changes. -/
theorem Documented.rollback_triple {c : Checkout} (hc : M.Ready c) (hR : M.Reversible c) :
    Triple (fun w => ¬ (M.view w).Clean M.G ∧ M.Touched c (M.view w) ∧ M.Marked (M.db w))
      (do
        let record ← M.S.getForSourceNode M.context.run.id (M.context.node.sourceNodeId.getD "")
        LockManager.runFenced M.S.toCoroutines M.context.run.sessionId M.S.ttl (M.S.restore M.context record M.subject.paths))
      (fun _ w => M.Restorable c (M.view w) ∧ M.Marked (M.db w)) (fun _ w => M.Marked (M.db w)) := by
  rintro w ⟨hdirty, htouched, hmarked⟩
  rcases htouched with hsame | ⟨patch, happlied⟩
  · exact absurd (hsame ▸ hc.clean) hdirty
  have hfenced : ∀ record : ChangeSetRecord, Stays M.Others (LockManager.runFenced M.S.toCoroutines
      M.context.run.sessionId M.S.ttl (M.S.restore M.context record M.subject.paths)) := fun record =>
    LockManager.runFenced_stays hM.keeps (fun _ _ h => h.1) (hM.restore_stays record _)
  have hread := hM.getForSourceNode M.context.run.id (M.context.node.sourceNodeId.getD "") w
  rw [run_bind]
  cases hx : M.S.getForSourceNode M.context.run.id (M.context.node.sourceNodeId.getD "") w with
  | error e w₁ =>
    rw [hx] at hread
    exact hmarked.stays hread.1
  | ok record w₁ =>
    rw [hx] at hread
    have hkept := hfenced record w₁
    dsimp only
    cases hrun : LockManager.runFenced M.S.toCoroutines M.context.run.sessionId M.S.ttl
        (M.S.restore M.context record M.subject.paths) w₁ with
    | error e w₂ =>
      rw [hrun] at hkept
      exact (hmarked.stays hread.1).stays hkept
    | ok u w₂ =>
      rw [hrun] at hkept
      refine ⟨fun hclean hhead => ?_, (hmarked.stays hread.1).stays hkept⟩
      obtain ⟨v₁, v₂, hbefore, hrestore, hafter⟩ := LockManager.runFenced_ok hM.keeps hrun
      have hview : M.view w = M.view v₁ := hread.2.trans hbefore.2
      exact hM.restored hc hR (hview ▸ happlied) (hM.subject hx) hrestore hafter.2.symm hclean hhead

/-- The recovery of a merge that committed nothing. -/
theorem Documented.recover_triple {c : Checkout} (hc : M.Ready c) (hR : M.Reversible c) :
    Triple (fun w => M.Touched c (M.view w) ∧ M.Marked (M.db w)) (M.S.recover M.context M.subject.paths none)
      (fun _ w => M.view w = c ∧ M.Unmarked (M.db w))
      (fun _ w => M.Marked (M.db w) ∨ (M.view w = c ∧ M.Unmarked (M.db w))) := by
  have htouched : ∀ w w', M.Touched c (M.view w) ∧ M.Marked (M.db w) → M.Aside w w' →
      M.Touched c (M.view w') ∧ M.Marked (M.db w') := fun w w' h hw => ⟨hw.2 ▸ h.1, h.2.stays hw.1⟩
  have hrestorable : ∀ w w', M.Restorable c (M.view w) ∧ M.Marked (M.db w) → M.Aside w w' →
      M.Restorable c (M.view w') ∧ M.Marked (M.db w') := fun w w' h hw => ⟨hw.2 ▸ h.1, h.2.stays hw.1⟩
  refine Triple.bind ((Triple.of_stays LockManager.assertHealthy_stays htouched).weaken (fun _ h => h) (fun _ _ h => h)
    fun _ _ h => .inl h.2) fun _ => ?_
  refine ((hM.state_triple htouched).weaken (fun _ h => h) (fun _ _ h => h) fun _ _ h => .inl h.2).bind fun state => ?_
  refine .ite (fun _ => .throw fun _ h => .inl h.2.2) fun hcommit => ?_
  have hcurrent : state.commit = M.context.run.currentCommit := by simpa using hcommit
  refine Triple.bind (Q := fun _ w => M.Restorable c (M.view w) ∧ M.Marked (M.db w)) (.ite (fun hdirty => ?_) fun hclean => ?_)
    fun _ => ?_
  · refine (hM.rollback_triple hc hR).weaken (fun w h => ⟨fun hcl => ?_, h.2⟩) (fun _ _ h => h) fun _ _ h => .inl h
    rw [h.1.2.2 hcl] at hdirty
    cases hdirty
  · exact .pure fun w h => ⟨fun hcl hhead => h.2.1.eq_of_clean hc hcl hhead, h.2.2⟩
  -- the second look: only a clean checkout of the expected commit loses its mark
  refine ((hM.state_triple hrestorable).weaken (fun _ h => h) (fun _ _ h => h) fun _ _ h => .inl h.2).bind fun clean => ?_
  refine .ite (fun _ => .throw fun _ h => .inl h.2.2) fun hclean => ?_
  obtain ⟨hnotDirty, hhead⟩ := not_or.1 hclean
  have hsame : ∀ w, (clean.commit = (M.view w).head ∧ (clean.dirty = false ↔ (M.view w).Clean M.G)) ∧
      M.Restorable c (M.view w) ∧ M.Marked (M.db w) → M.view w = c ∧ M.Marked (M.db w) := fun w h =>
    ⟨h.2.1 (h.1.2.1 (Bool.eq_false_iff.2 hnotDirty)) (h.1.1.symm.trans (not_not.1 hhead)), h.2.2⟩
  have hclear := (hM.clear_triple c).weaken hsame (fun _ _ h => h) fun _ _ h => h
  exact hclear.bind fun _ => .pure fun _ h => h

/-- The recovery of a merge that committed: it only looks. -/
theorem Documented.recover_committed (paths : List String) (commit : String) :
    Triple (fun w => M.Marked (M.db w) ∨ M.Finalized w) (M.S.recover M.context paths (some commit)) (fun _ _ => False)
      (fun _ w => M.Marked (M.db w) ∨ M.Finalized w) := by
  have hkept : ∀ w w', M.Marked (M.db w) ∨ M.Finalized w → M.Aside w w' → M.Marked (M.db w') ∨ M.Finalized w' :=
    fun w w' h hw => h.imp (fun h => h.stays hw.1) fun h => h.stays hw
  refine Triple.bind (Triple.of_stays LockManager.assertHealthy_stays hkept) fun _ => ?_
  refine (hM.state_triple hkept).bind fun state => .ite (fun _ => .throw fun _ h => h.2) fun hcommit => ?_
  simp at hcommit

end

end MergeSetting

end AgentHub
