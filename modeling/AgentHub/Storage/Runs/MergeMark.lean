import AgentHub.Storage.Ledger
import AgentHub.Storage.Runs.Merge
import AgentHub.Storage.Runs.Moves
/-!
# Runs: the mark of a merge

`merge_finalizing_at` with the commit of the run, and the status of the ChangeSet: what the three operations on a merge
leave of them, and that reconciling and the leases leave them alone.
-/

namespace AgentHub

open Lib WorkflowRunRepository

namespace Db

/-- `merge_finalizing_at` and `current_commit` of a run. -/
def mergeMark (db : Db) (rid : String) : Option (Option String × String) :=
  (db.run? rid).map fun r => (r.mergeFinalizingAt, r.currentCommit)

/-- The run of a node run. -/
def runOf (db : Db) (nid : String) : Option String := (db.nodeRuns.get? nid).map NodeRunRow.workflowRunId

def Marked (db : Db) (rid : String) : Prop := ∃ at_ commit, db.mergeMark rid = some (some at_, commit)

def Unmarked (db : Db) (rid : String) : Prop := ∃ commit, db.mergeMark rid = some (none, commit)

/-- The run is at the commit of the merged ChangeSet and has no mark. -/
def Merged (db : Db) (rid csid commit : String) : Prop :=
  db.mergeMark rid = some (none, commit) ∧ db.changeSetStatus csid = some .merged

theorem mergeMark_eq {db : Db} {rid : String} {r : WorkflowRunRow} (h : db.workflowRuns.get? rid = some r) :
    db.mergeMark rid = some (r.mergeFinalizingAt, r.currentCommit) := by
  simp [mergeMark, run?, h, WorkflowRunRow.core]

theorem mergeMark_congr {db db' : Db} {rid : String} (h : db'.workflowRuns.get? rid = db.workflowRuns.get? rid) :
    db'.mergeMark rid = db.mergeMark rid := by
  simp [mergeMark, run?, h]

end Db

/-- What a merge is about stays: the mark of its run, its ChangeSet once it is merged, and the run of its node. -/
structure MergeStays (rid nid csid : String) (db db' : Db) : Prop where
  mark : db'.mergeMark rid = db.mergeMark rid
  merged : db.changeSetStatus csid = some .merged → db'.changeSetStatus csid = some .merged
  node : db'.runOf nid = db.runOf nid

instance (rid nid csid : String) : IsPreorder Db (MergeStays rid nid csid) where
  refl _ := ⟨rfl, id, rfl⟩
  trans _ _ _ h h' := ⟨h'.mark.trans h.mark, fun hm => h'.merged (h.merged hm), h'.node.trans h.node⟩

namespace MergeStays

variable {rid nid csid commit : String} {db db' : Db}

theorem marked (h : MergeStays rid nid csid db db') : db.Marked rid → db'.Marked rid := by
  rintro ⟨time, commit, hmark⟩
  exact ⟨time, commit, h.mark.trans hmark⟩

theorem unmarked (h : MergeStays rid nid csid db db') : db.Unmarked rid → db'.Unmarked rid := by
  rintro ⟨commit, hmark⟩
  exact ⟨commit, h.mark.trans hmark⟩

theorem merged_stays (h : MergeStays rid nid csid db db') (hm : db.Merged rid csid commit) : db'.Merged rid csid commit :=
  ⟨h.mark.trans hm.1, h.merged hm.2⟩

theorem of_quiet (h : Quiet db db') : MergeStays rid nid csid db db' := by
  refine ⟨?_, fun hm => ?_, ?_⟩
  · unfold Db.mergeMark
    rw [h.runs rid]
  · unfold Db.changeSetStatus
    rw [h.changeSets]
    exact hm
  · unfold Db.runOf
    rw [h.nodeRuns]

end MergeStays

section
variable {rid nid csid : String} {db db' : Db}

/-! ## Writes that leave it alone -/

theorem fileLocks_mergeStays (db : Db) (t) : MergeStays rid nid csid db (Db.fileLocksT.set db t) := ⟨rfl, id, rfl⟩

/-- A write to a node run that leaves its run. -/
theorem nodeCas_mergeStays {k : String} {g : NodeRunRow → Bool} {f : NodeRunRow → NodeRunRow} {hk hu} {e : StorageError}
    (hrun : ∀ r, (f r).workflowRunId = r.workflowRunId) :
    Tx.Within (MergeStays rid nid csid) (Db.nodeRunsT.cas k g f hk hu e) := by
  intro db u db' h
  obtain ⟨-, hs⟩ := TableRef.cas_ok.1 h
  rw [(Prod.mk.inj hs).2]
  refine ⟨rfl, id, ?_⟩
  simp only [Db.runOf]
  rw [Table.get?_update, Option.map_map]
  congr 1
  funext r
  dsimp only [Function.comp_apply]
  split
  · exact hrun r
  · rfl

/-- A write to a run that leaves its mark and its commit. -/
theorem runCas_mergeStays {k : String} {g : WorkflowRunRow → Bool} {f : WorkflowRunRow → WorkflowRunRow} {hk hu}
    {e : StorageError}
    (hmark : ∀ r, ((f r).mergeFinalizingAt, (f r).currentCommit) = (r.mergeFinalizingAt, r.currentCommit)) :
    Tx.Within (MergeStays rid nid csid) (Db.workflowRunsT.cas k g f hk hu e) := by
  intro db u db' h
  obtain ⟨-, hs⟩ := TableRef.cas_ok.1 h
  rw [(Prod.mk.inj hs).2]
  refine ⟨?_, id, rfl⟩
  simp only [Db.mergeMark, Db.run?]
  rw [Table.get?_update, Option.map_map, Option.map_map, Option.map_map]
  congr 1
  funext r
  dsimp only [Function.comp_apply, WorkflowRunRow.core]
  split
  · exact hmark r
  · rfl

theorem appendIn_mergeStays {sid typ actor : String} {payload : EventPayload} {wid run : String} {now : Instant} :
    Tx.Within (MergeStays rid nid csid) (EventRepository.appendIn sid typ actor payload wid run now) :=
  fun _ _ _ h => .of_quiet (EventRepository.appendIn_quiet h)

/-! ## Reconciling -/

theorem reconcilePass_mergeStays (run : WorkflowRunRow) (lease : MasterLease) (rows : String → Option NodeRunRow)
    (now : Instant) (ids : List String) :
    Tx.Within (MergeStays rid nid csid) (reconcilePass run lease rows now ids) := by
  induction ids with
  | nil => exact .pure _
  | cons id ids ih =>
    refine .bind (.require _ _) fun row => .ite ih (.bind (.require _ _) fun node => ?_)
    refine .bind (lift_readOnly _).within fun target => ?_
    cases target with
    | none => exact ih
    | some target =>
      refine .bind (.bind (nodeCas_mergeStays fun _ => rfl) fun _ => appendIn_mergeStays) fun _ => ?_
      exact .bind ih fun _ => .pure _

theorem reconcileLoop_mergeStays (ord : RowOrder) (run : WorkflowRunRow) (lease : MasterLease) (now : Instant) (fuel : Nat) :
    ∀ k, Tx.Within (MergeStays rid nid csid) (reconcileLoop ord run lease now fuel k) := by
  induction fuel with
  | zero => exact fun _ => .fail _
  | succ fuel ih =>
    intro k
    refine .bind (.read _) fun rows => .bind (lift_readOnly _).within fun ids => ?_
    exact .bind (reconcilePass_mergeStays _ _ _ _ _) fun changed => .ite (ih _) (.pure _)

theorem reconcileIn_mergeStays (ord : RowOrder) (run : WorkflowRunRow) (lease : MasterLease) (now : Instant) :
    Tx.Within (MergeStays rid nid csid) (reconcileIn ord run lease now) := by
  refine .bind (.read _) fun _ => .bind (reconcileLoop_mergeStays _ _ _ _ _ _) fun _ => .bind (.read _) fun rows => ?_
  refine .ite (.bind (.require _ _) fun _ => .bind (.require _ _) fun _ => ?_) (.pure _)
  exact .bind (runCas_mergeStays fun _ => rfl) fun _ => appendIn_mergeStays

/-! ## The operations on a merge -/

namespace WorkflowRunRepository

variable {ws : WorkspaceLease} {lease : MasterLease} {now : Instant}

theorem beginMergeFinalizing_marks {a : WorkflowRunRow}
    (h : (beginMergeFinalizing rid ws lease now).run db = .ok (a, db')) :
    db'.Marked rid ∧ db'.runOf nid = db.runOf nid := by
  simp only [beginMergeFinalizing, StateT.run_bind, Tx.bind_ok, Tx.read_ok, Tx.ensure_ok, runRow_ok,
    MasterLeaseRepository.assertValidIn_ok, WorkspaceLeaseRepository.assertValidIn_ok] at h
  obtain ⟨_, ⟨-, rfl⟩, ⟨row, db₀⟩, ⟨-, hdb⟩, _, ⟨-, rfl⟩, _, rfl, _, ⟨-, rfl⟩, _, ⟨-, rfl⟩, _, ⟨-, rfl⟩, _,
    ⟨-, rfl⟩, ⟨_, db₁⟩, hcas, -, hlast⟩ := h
  simp only at hdb hcas hlast
  subst hdb hlast
  obtain ⟨r, -, -, hr, -⟩ := TableRef.cas_writes hcas
  obtain ⟨-, hs⟩ := TableRef.cas_ok.1 hcas
  refine ⟨⟨_, _, Db.mergeMark_eq hr⟩, ?_⟩
  rw [(Prod.mk.inj hs).2]
  rfl

theorem clearMergeFinalizing_clears {a : WorkflowRunRow}
    (h : (clearMergeFinalizing rid ws lease now).run db = .ok (a, db')) : db'.Unmarked rid := by
  simp only [clearMergeFinalizing, StateT.run_bind, Tx.bind_ok, Tx.read_ok, Tx.ensure_ok, runRow_ok,
    MasterLeaseRepository.assertValidIn_ok, WorkspaceLeaseRepository.assertValidIn_ok] at h
  obtain ⟨_, ⟨-, rfl⟩, ⟨row, db₀⟩, ⟨hrow, hdb⟩, _, ⟨-, rfl⟩, _, rfl, _, ⟨-, rfl⟩, _, ⟨-, rfl⟩, ⟨n, db₁⟩, hup, -, hlast⟩ := h
  simp only at hrow hdb hup hlast
  subst hdb hlast
  rw [TableRef.update_ok, Prod.mk.injEq] at hup
  have hid : row.id = rid := Table.get?_key hrow
  refine ⟨row.currentCommit, ?_⟩
  rw [hup.2]
  simp only [Db.mergeMark, Db.run?, Table.get?_update, hrow, Option.map_some]
  by_cases hmark : row.mergeFinalizingAt = none
  · simp [hid, hmark, WorkflowRunRow.core]
  · simp [hid, hmark, WorkflowRunRow.core]

theorem finalizeMerge_merges {ord : RowOrder} {commit : String} {summary : String} {o : Option NodeRunRow}
    (h : (finalizeMerge ord nid csid commit ws lease summary now).run db = .ok (o, db')) (hnode : db.runOf nid = some rid) :
    db'.Merged rid csid commit := by
  simp only [finalizeMerge, checkMergeLease, advanceHead, StateT.run_bind, Tx.bind_ok, Tx.read_ok, Tx.require_ok,
    Tx.ensure_ok, runRow_ok, MasterLeaseRepository.assertValidIn_ok, WorkspaceLeaseRepository.assertValidIn_ok,
    TableRef.select_ok] at h
  obtain ⟨_, ⟨-, rfl⟩, _, ⟨-, rfl⟩, _, rfl, ⟨⟨node, run⟩, db₀⟩, ⟨hp, hdb⟩, _, ⟨-, rfl⟩, _, ⟨_, ⟨-, rfl⟩, -, rfl⟩,
    ⟨_, db₁⟩, ⟨_, rfl, _, ⟨-, rfl⟩, ⟨_, db₂⟩, hses, hadv⟩, ⟨_, db₃⟩, hcs, ⟨_, db₄⟩, hcas, ⟨_, db₅⟩, happ, ⟨fresh, db₆⟩,
    ⟨-, hdb₆⟩, ⟨_, db₇⟩, hrec, hlast⟩ := h
  simp only [Prod.mk.injEq] at hp hdb hses hadv hcs hcas happ hdb₆ hrec hlast
  obtain ⟨-, rfl⟩ := hlast
  subst hdb₆
  obtain rfl := hdb.symm
  obtain ⟨hn, hr⟩ := nodeWithRun_eq_some.1 hp
  simp only at hn hr
  have hrid : run.id = rid := by
    have hrun : run.id = node.workflowRunId := Table.get?_key hr
    rw [Db.runOf, hn] at hnode
    exact hrun.trans (Option.some.inj hnode)
  -- the run is written first, then the ChangeSet; what follows leaves both alone
  obtain ⟨r, -, -, hr', -⟩ := TableRef.cas_writes hadv
  obtain ⟨c, -, -, hc', -⟩ := TableRef.cas_writes hcs
  have hruns : db₃.workflowRuns = db₁.workflowRuns := by
    obtain ⟨-, hs⟩ := TableRef.cas_ok.1 hcs
    rw [(Prod.mk.inj hs).2]
  have hmerged : db₃.Merged rid csid commit := by
    constructor
    · rw [hrid] at hr'
      rw [Db.mergeMark_congr (congrArg (Table.get? · rid) hruns), Db.mergeMark_eq hr']
    · exact congrArg (Option.map ChangeSetRow.status) hc'
  have hcompleted : MergeStays rid nid csid db₃ db₄ := by
    refine nodeCas_mergeStays ?_ _ _ _ hcas
    exact fun _ => rfl
  have hrecorded : MergeStays rid nid csid db₄ db₆ := appendIn_mergeStays _ _ _ happ
  have hreconciled : MergeStays rid nid csid db₆ db' := reconcileIn_mergeStays _ _ _ _ _ _ _ hrec
  exact hreconciled.merged_stays (hrecorded.merged_stays (hcompleted.merged_stays hmerged))

end WorkflowRunRepository

end

end AgentHub
