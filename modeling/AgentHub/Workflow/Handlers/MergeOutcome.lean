import AgentHub.Storage.Captures.ReadBack
import AgentHub.Storage.Runs.Scheduling
import AgentHub.Workflow.Handlers.MergeRecovery
/-!
# How a merge ends

The contracts of the body of `execute` and of its recovery together: whatever raised, and wherever, the merge was
finalized, or everything is what it was, or the run stays marked and reconciliation is asked for.
-/

namespace AgentHub

open Lib Workspace

namespace MergeSetting

variable {W : Type} {M : MergeSetting W}

section
variable (hM : M.Documented)
include hM

/-! ## The attempt -/

omit hM in
/-- A call of the body, which leaves its variables alone. -/
theorem call_triple {α : Type} {x : EStateM Fault W α} {P : W → Prop} {Q : α → W → Prop} {E : Fault → W → Prop}
    (hx : Triple P x Q E) (p : MergeProgress) :
    Triple (fun s => s.2 = p ∧ P s.1) (MergePatchNodeHandler.call x) (fun a s => s.2 = p ∧ Q a s.1)
      (fun e s => s.2 = p ∧ E e s.1) := by
  rintro ⟨w, p'⟩ ⟨hp, hw⟩
  have hends := hx w hw
  unfold MergePatchNodeHandler.call
  cases hrun : x w <;> rw [hrun] at hends <;> exact ⟨hp, hends⟩

omit hM in
theorem assign_triple {P : W → Prop} (f : MergeProgress → MergeProgress) (p : MergeProgress)
    {E : Fault → W × MergeProgress → Prop} :
    Triple (fun s => s.2 = p ∧ P s.1) (MergePatchNodeHandler.assign f) (fun _ s => s.2 = f p ∧ P s.1) E := by
  rintro ⟨w, p'⟩ ⟨hp, hw⟩
  exact ⟨congrArg f hp, hw⟩

/-- What is left of an apply. -/
theorem Documented.apply_triple {c : Checkout} (hR : M.Reversible c) {patch : Bytes}
    (hpatch : M.Approved patch) :
    Triple (fun w => M.view w = c ∧ M.Marked (M.db w)) (onHost (GitManager.applyPatch M.S.host M.git patch))
      (fun _ w => M.Applied c patch (M.view w).worktree ∧ M.Marked (M.db w))
      (fun _ w => M.Touched c (M.view w) ∧ M.Marked (M.db w)) := by
  rintro w ⟨hview, hmarked⟩
  obtain ⟨hothers, hhead, hindex, happlies⟩ := GitManager.applyPatch_leaves hM.git patch w
  have hshown := hR.shown hpatch hview
  unfold onHost
  cases hx : GitManager.applyPatch M.S.host M.git patch w with
  | ok u w' =>
    rw [hx] at hothers happlies hshown
    rw [hview] at happlies
    refine ⟨⟨hpatch, happlies, fun path hpath => ?_, hshown⟩, hmarked.stays hothers⟩
    rw [← hview]
    exact GitManager.applyPatch_ok hM.git hx hpath
  | error e w' =>
    rw [hx] at hothers hhead hindex happlies hshown
    rw [hview] at hhead hindex happlies
    refine ⟨?_, hmarked.stays hothers⟩
    by_cases htree : (M.view w').worktree = c.worktree
    · exact .inl (Checkout.ext hhead hindex htree)
    · exact .inr ⟨patch, hpatch, happlies, fun path hpath => happlies.fresh htree hpath, hshown⟩

theorem Documented.commit_triple {c : Checkout} {patch : Bytes} (arguments : ApprovedPatch) :
    Triple (fun w => M.Applied c patch (M.view w).worktree ∧ M.Marked (M.db w))
      (onHost (GitManager.commitApprovedPatch M.S.host M.S.git M.repo arguments))
      (fun r w => r.1 = (M.view w).head ∧ M.Marked (M.db w))
      (fun _ w => M.Touched c (M.view w) ∧ M.Marked (M.db w)) := by
  rintro w ⟨happlied, hmarked⟩
  have hstays := GitManager.commitApprovedPatch_stays hM.git arguments w
  unfold onHost
  cases hx : GitManager.commitApprovedPatch M.S.host M.S.git M.repo arguments w with
  | ok r w' =>
    rw [hx] at hstays
    exact ⟨GitManager.commitApprovedPatch_ok hM.git hx, hmarked.stays hstays.1⟩
  | error e w' =>
    rw [hx] at hstays
    exact ⟨.inr ⟨patch, hstays.2.symm ▸ happlied⟩, hmarked.stays hstays.1⟩

omit hM in
/-- How the body leaves the world and its variables when it raises. -/
inductive Failed (M : MergeSetting W) (c : Checkout) : W × MergeProgress → Prop
  | idle {w : W} {p : MergeProgress} (hp : p.finalizing = false) (hview : M.view w = c) (hidle : M.Idle (M.db w)) :
      Failed M c (w, p)
  | marked {w : W} {p : MergeProgress} (hp : p.finalizing = true) (hnone : p.committed = none)
      (hpaths : p.changedPaths = M.subject.paths) (hc : M.Ready c) (htouched : M.Touched c (M.view w))
      (hmarked : M.Marked (M.db w)) : Failed M c (w, p)
  | committed {w : W} {p : MergeProgress} {commit : String} (hp : p.finalizing = true) (hsome : p.committed = some commit)
      (hdone : M.Marked (M.db w) ∨ M.Finalized w) : Failed M c (w, p)

omit hM in
/-- A call that only looks on, and what its value is known to be. -/
theorem looks_bind {α β : Type} {x : EStateM Fault W α} (hx : Stays M.Aside x) {F : Db → Prop}
    (hF : ∀ d d', M.Meanwhile d d' → F d → F d') {c : Checkout} {K : α → Prop} {p : MergeProgress}
    {f : α → EStateM Fault (W × MergeProgress) β} {N : β → W × MergeProgress → Prop}
    {E : Fault → W × MergeProgress → Prop} (hK : ∀ w a w', M.view w = c → x w = .ok a w' → K a)
    (hE : ∀ e w, M.view w = c → F (M.db w) → E e (w, p))
    (hf : ∀ a, K a → Triple (fun s => s.2 = p ∧ M.view s.1 = c ∧ F (M.db s.1)) (f a) N E) :
    Triple (fun s => s.2 = p ∧ M.view s.1 = c ∧ F (M.db s.1)) (MergePatchNodeHandler.call x >>= f) N E := by
  rintro ⟨w, p'⟩ ⟨hp, hview, hF₀⟩
  obtain rfl : p' = p := hp
  have hends := looks hx hF c w ⟨hview, hF₀⟩
  rw [run_bind]
  unfold MergePatchNodeHandler.call
  dsimp only
  cases hrun : x w with
  | ok a w' =>
    rw [hrun] at hends
    exact hf a (hK w a w' hview hrun) (w', p') ⟨rfl, hends⟩
  | error e w' =>
    rw [hrun] at hends
    exact hE e w' hends.1 hends.2

theorem Documented.publish_triple {c : Checkout} (hc : M.Ready c) (hR : M.Reversible c) {record : ChangeSetRecord}
    (hrecord : M.subject.SameSubject record) {patch : Bytes} (hpatch : M.Approved patch) (approval : ApprovalRow)
    (sha : String) :
    Triple (fun s => s.2 = ⟨M.subject.paths, false, true, none⟩ ∧ M.view s.1 = c ∧ M.Marked (M.db s.1))
      (M.S.publish M.context record approval patch sha) (fun _ s => M.Finalized s.1) (fun _ s => M.Failed c s) := by
  have hmarked : ∀ {p : MergeProgress} {e : Fault} {s : W × MergeProgress}, p.finalizing = true → p.committed = none →
      p.changedPaths = M.subject.paths → s.2 = p ∧ M.Touched c (M.view s.1) ∧ M.Marked (M.db s.1) → M.Failed c s := by
    rintro p _ ⟨w, p'⟩ hp hnone hpaths ⟨rfl, htouched, hm⟩
    exact .marked hp hnone hpaths hc htouched hm
  unfold MergePatchNodeHandler.publish
  rw [hrecord.changeSetId]
  -- the check looks, the apply writes
  refine looks_bind (onHost_stays (GitManager.applyCheck_stays hM.git patch)) (F := M.Marked) (K := fun _ => True)
    (fun _ _ hd h => h.stays hd) (fun _ _ _ _ _ => trivial) (fun e w hview hm => ?_) fun _ _ => ?_
  · exact .marked rfl rfl rfl hc (.inl hview) hm
  refine ((call_triple (hM.apply_triple hR hpatch) _).weaken (fun _ h => h) (fun _ _ h => h) fun e s h =>
    hmarked (e := e) rfl rfl rfl h).bind fun _ => ?_
  refine (assign_triple (P := fun w => M.Applied c patch (M.view w).worktree ∧ M.Marked (M.db w)) _ _).bind fun _ => ?_
  have happlied : ∀ w w', M.Applied c patch (M.view w).worktree ∧ M.Marked (M.db w) → M.Aside w w' →
      M.Applied c patch (M.view w').worktree ∧ M.Marked (M.db w') := fun w w' h hw => ⟨hw.2 ▸ h.1, h.2.stays hw.1⟩
  refine ((call_triple (Triple.of_stays LockManager.assertHealthy_stays happlied) _).weaken (fun _ h => h)
    (fun _ _ h => h) fun e s h => hmarked (e := e) rfl rfl rfl ⟨h.1, .inr ⟨patch, h.2.1⟩, h.2.2⟩).bind fun _ => ?_
  refine ((call_triple (hM.commit_triple _) _).weaken (fun _ h => h) (fun _ _ h => h) fun e s h =>
    hmarked (e := e) rfl rfl rfl h).bind fun r => ?_
  obtain ⟨commit, tree⟩ := r
  -- from here on the commit stands
  have hcommitted : ∀ {p : MergeProgress} {e : Fault} {s : W × MergeProgress}, p.finalizing = true →
      p.committed = some commit → s.2 = p ∧ (M.Marked (M.db s.1) ∨ M.Finalized s.1) → M.Failed c s := by
    rintro p _ ⟨w, p'⟩ hp hsome ⟨rfl, hdone⟩
    exact .committed hp hsome hdone
  refine (assign_triple (P := fun w => commit = (M.view w).head ∧ M.Marked (M.db w)) _ _).bind fun _ => ?_
  have hhead : ∀ w w', commit = (M.view w).head ∧ M.Marked (M.db w) → M.Aside w w' →
      commit = (M.view w').head ∧ M.Marked (M.db w') := fun w w' h hw => ⟨hw.2 ▸ h.1, h.2.stays hw.1⟩
  refine ((call_triple (Triple.of_stays LockManager.assertHealthy_stays hhead) _).weaken (fun _ h => h)
    (fun _ _ h => h) fun e s h => hcommitted (e := e) rfl rfl ⟨h.1, .inl h.2.2⟩).bind fun _ => ?_
  refine ((call_triple (hM.finalize_triple commit) _).weaken (fun _ h => h) (fun _ _ h => h) fun e s h =>
    hcommitted (e := e) rfl rfl h).bind fun _ => ?_
  exact (assign_triple (P := M.Finalized) _ _).weaken (fun _ h => h) (fun _ _ h => h.2) fun _ _ h => h

theorem Documented.attempt_triple {c : Checkout} (hR : M.Reversible c) (sourceId : String) {record : ChangeSetRecord}
    (hrecord : M.subject.SameSubject record) :
    Triple (fun s => s.2 = ⟨M.subject.paths, false, false, none⟩ ∧ M.view s.1 = c ∧ M.Idle (M.db s.1))
      (M.S.attempt M.context sourceId record) (fun _ s => M.Finalized s.1) (fun _ s => M.Failed c s) := by
  refine looks_bind (hM.inspect_stays record) (F := M.Idle) (K := fun _ => M.Ready c) (fun _ _ hd h => h.stays hd)
    (fun w _ _ hview h => hview ▸ hM.inspect_ok hrecord h) (fun e w hview h => .idle rfl hview h) fun sha hc => ?_
  refine ((call_triple (hM.begin_triple hR) _).weaken (fun _ h => h) (fun _ _ h => h) ?_).bind fun _ => ?_
  · rintro e ⟨w, p⟩ ⟨rfl, hview, h⟩
    exact .idle rfl hview h
  refine (assign_triple (P := fun w => M.view w = c ∧ M.Marked (M.db w)) _ _).bind fun _ => ?_
  refine looks_bind (F := M.Marked) (K := fun _ => True) LockManager.assertHealthy_stays (fun _ _ hd h => h.stays hd)
    (fun _ _ _ _ _ => trivial) (fun e w hview h => .marked rfl rfl rfl hc (.inl hview) h) fun _ _ => ?_
  refine looks_bind (F := M.Marked) (K := fun r => M.subject.SameSubject r.1) (hM.reverify_stays sourceId)
    (fun _ _ hd h => h.stays hd) (fun _ _ _ _ h => hM.reverify_ok h)
    (fun e w hview h => .marked rfl rfl rfl hc (.inl hview) h) fun r hr => ?_
  obtain ⟨record', approval⟩ := r
  refine (assign_triple (P := fun w => M.view w = c ∧ M.Marked (M.db w)) _ _).bind fun _ => ?_
  rw [hr.paths, hr.changeSetId]
  refine looks_bind (F := M.Marked) (K := fun r => M.Approved r.2) (hM.loadPatch _) (fun _ _ hd h => h.stays hd)
    (fun _ _ _ _ h => hM.patch h) (fun e w hview h => .marked rfl rfl rfl hc (.inl hview) h) fun r hpatch => ?_
  exact hM.publish_triple hc hR hr hpatch approval sha

/-! ## The handler -/

omit hM in
/-- The recovery raises nothing but a call for reconciliation. -/
theorem recoverFailure_error {p : MergeProgress} {w w' : W} {e : Fault}
    (h : M.S.recoverFailure M.context p w = .error e w') : e.isReconciliationRequired = true := by
  unfold MergePatchNodeHandler.recoverFailure at h
  split at h
  · cases h
  rw [run_reraise] at h
  cases hx : M.S.recover M.context p.changedPaths p.committed w with
  | ok u w₁ =>
    rw [hx] at h
    cases h
  | error e₁ w₁ =>
    rw [hx] at h
    cases h
    cases he : e₁.isReconciliationRequired
    · rfl
    · simpa using he

theorem Documented.recoverFailure_triple {c : Checkout} (hR : M.Reversible c) (e : Fault) {w : W} {p : MergeProgress}
    (h : M.Failed c (w, p)) :
    Ends (fun _ => M.Settled c e) (M.Settled c) (M.S.recoverFailure M.context p w) := by
  cases hx : M.S.recoverFailure M.context p w with
  | ok u w' =>
    unfold MergePatchNodeHandler.recoverFailure at hx
    cases h with
    | idle hp hview hidle =>
      rw [if_pos (by simp [hp])] at hx
      cases hx
      exact .inr (.inl ⟨hview, hidle.1⟩)
    | marked hp hnone hpaths hc htouched hmarked =>
      rw [if_neg (by simp [hp]), hpaths, hnone] at hx
      have hends := hM.recover_triple hc hR w ⟨htouched, hmarked⟩
      rw [ok_of_reraise hx] at hends
      exact .inr (.inl hends)
    | @committed _ _ commit hp hsome hdone =>
      rw [if_neg (by simp [hp]), hsome] at hx
      have hends := hM.recover_committed p.changedPaths commit w hdone
      rw [ok_of_reraise hx] at hends
      exact hends.elim
  | error e' w' =>
    have he := recoverFailure_error hx
    unfold MergePatchNodeHandler.recoverFailure at hx
    cases h with
    | idle hp hview hidle =>
      rw [if_pos (by simp [hp])] at hx
      cases hx
    | marked hp hnone hpaths hc htouched hmarked =>
      rw [if_neg (by simp [hp]), hpaths, hnone] at hx
      obtain ⟨e₀, hrun⟩ := error_of_reraise hx
      have hends := hM.recover_triple hc hR w ⟨htouched, hmarked⟩
      rw [hrun] at hends
      exact hends.elim (fun h => .inr (.inr ⟨he, h.1⟩)) fun h => .inr (.inl h)
    | @committed _ _ commit hp hsome hdone =>
      rw [if_neg (by simp [hp]), hsome] at hx
      obtain ⟨e₀, hrun⟩ := error_of_reraise hx
      have hends := hM.recover_committed p.changedPaths commit w hdone
      rw [hrun] at hends
      exact hends.elim (fun h => .inr (.inr ⟨he, h.1⟩)) .inl

theorem Documented.merge_triple {c : Checkout} (hR : M.Reversible c) (sourceId : String) {record : ChangeSetRecord}
    (hrecord : M.subject.SameSubject record) :
    Triple (fun w => M.view w = c ∧ M.Idle (M.db w)) (M.S.merge M.context sourceId record) (fun _ => M.Finalized)
      (M.Settled c) := by
  intro w hw
  have hends := hM.attempt_triple hR sourceId hrecord (w, ⟨M.subject.paths, false, false, none⟩) ⟨rfl, hw⟩
  unfold MergePatchNodeHandler.merge
  rw [run_bind, hrecord.paths]
  unfold capturing
  cases hx : M.S.attempt M.context sourceId record (w, ⟨M.subject.paths, false, false, none⟩) with
  | ok u s =>
    rw [hx] at hends
    exact hends
  | error e s =>
    rw [hx] at hends
    have hrecovered := hM.recoverFailure_triple hR e hends
    dsimp only
    rw [run_bind]
    cases hy : M.S.recoverFailure M.context s.2 s.1 with
    | ok u w' =>
      rw [hy] at hrecovered
      exact hrecovered
    | error e' w' =>
      rw [hy] at hrecovered
      exact hrecovered

omit hM in
theorem holdable (c : Checkout) : LockManager.Holdable M.Aside (fun w => M.view w = c ∧ M.Idle (M.db w))
    (fun _ : Unit => M.Finalized) (M.Settled c) where
  before h hR := ⟨hR.2.symm.trans h.1, h.2.stays hR.1⟩
  after h hR := h.stays hR
  raised h hR := h.stays hR
  early _ h := .inr (.inl ⟨h.1, h.2.1⟩)
  late _ h := .inl h
  renamed h := by
    rcases h with h | h | ⟨he, -⟩
    · exact .inl h
    · exact .inr (.inl h)
    · cases he

theorem Documented.execute_ends (w : W) (hR : M.Reversible (M.view w)) (hidle : M.Idle (M.db w)) :
    Ends (fun _ => M.Finalized) (M.Settled (M.view w)) (M.S.execute M.context w) := by
  have hlook : ∀ {α : Type} {x : EStateM Fault W α}, Stays M.Aside x →
      Triple (fun w' => M.view w' = M.view w ∧ M.Idle (M.db w')) x
        (fun _ w' => M.view w' = M.view w ∧ M.Idle (M.db w')) (M.Settled (M.view w)) := fun hx =>
    (looks hx (fun _ _ hd h => h.stays hd) _).weaken (fun _ h => h) (fun _ _ h => h) fun _ _ h => .inr (.inl ⟨h.1, h.2.1⟩)
  suffices h : Triple (fun w' => M.view w' = M.view w ∧ M.Idle (M.db w')) (M.S.execute M.context)
      (fun _ => M.Finalized) (M.Settled (M.view w)) from h w ⟨rfl, hidle⟩
  unfold MergePatchNodeHandler.execute
  cases M.context.node.sourceNodeId with
  | none => exact .throw fun _ h => .inr (.inl ⟨h.1, h.2.1⟩)
  | some sourceId =>
    intro v hv
    have hread := hlook (hM.getForSourceNode M.context.run.id sourceId) v hv
    dsimp only
    rw [run_bind]
    cases hx : M.S.getForSourceNode M.context.run.id sourceId v with
    | error e v' =>
      rw [hx] at hread
      exact hread
    | ok record v' =>
      rw [hx] at hread
      refine Triple.bind (hlook (hM.precheck_stays sourceId record)) (fun _ => ?_) v' hread
      refine (LockManager.hold_triple hM.keeps (holdable _) (hM.merge_triple hR sourceId (hM.subject hx)) _).bind fun _ => ?_
      exact .pure fun _ h => h

omit hM in
/-- However `execute` ends that starts in `w`, the merge was finalized, or the checkout is the one from before and the run
has no mark, or reconciliation is asked for with the mark still set. -/
def SettlesFrom (M : MergeSetting W) (w : W) : Prop :=
  (∀ r w', M.S.execute M.context w = .ok r w' → M.Finalized w') ∧
    ∀ e w', M.S.execute M.context w = .error e w' → M.Settled (M.view w) e w'

/-- A merge that fails is taken back or stays marked. -/
theorem execute_settles (w : W) (hR : M.Reversible (M.view w)) (hidle : M.Idle (M.db w)) : M.SettlesFrom w := by
  have hends := hM.execute_ends w hR hidle
  constructor
  · intro r w' h
    rw [h] at hends
    exact hends
  · intro e w' h
    rw [h] at hends
    exact hends

end

end MergeSetting

/-! ## A sample -/

/-- The world of the sample: the database, the lease that is held, and which of the next commits is the one whose caller
is cancelled meanwhile. -/
structure MergeRoom where
  db : Db
  held : HeldWorkspaceLease
  cancelled : Option Nat

namespace MergeRoom

def checkout : Checkout where
  head := "0000000000000000000000000000000000000000"
  index _ := none
  worktree := ⟨fun _ => none, fun _ => False⟩

/-- A repository without files; the patch makes one. -/
def rules : GitRules where
  tree _ _ := none
  ignored _ _ := False
  oldPaths _ := []
  newPaths _ := ["f.py"]

/-- What Git prints there; the patch does not apply. -/
def answer : List String → CompletedProcess
  | "rev-parse" :: _ => ⟨0, List.replicate 40 48, []⟩
  | "apply" :: _ => ⟨1, [], []⟩
  | "restore" :: _ => ⟨1, [], []⟩
  | _ => ⟨0, [], []⟩

def machine : MergeMachine MergeRoom where
  process _ args _ := pure (answer args)
  indexed _ _ args _ := pure (answer args)
  captureMetadataSeal _ _ := pure ⟨"", 0⟩
  buildCanonicalPatch _ _ := pure ⟨[], []⟩
  createPrivateTemporaryDirectory name := pure ["tmp", name]
  removePrivateTemporaryDirectory _ := pure ()
  inspectSourceRepository root _ := pure ⟨root, "", "", [], 0, false⟩
  createSessionRepository _ _ _ := pure ()
  probe _ :=
    { tree := pure (.files [])
      scandir := fun _ => pure true
      lstat := fun _ => pure ⟨.regular, 1, 0, 0, 0, 0, 0, 0⟩
      openBinary := fun _ => pure ⟨⟨.regular, 1, 0, 0, 0, 0, 0, 0⟩, [], ⟨.regular, 1, 0, 0, 0, 0, 0, 0⟩⟩
      assertPathIdentity := fun _ _ => pure () }
  openRoot _ := pure ()
  closeRoot _ := pure ()
  assertRootIdentity _ := pure ()
  setMode _ _ _ := pure ()
  unlinkRegular _ _ := pure ()
  removeDirectory _ _ := pure ()
  replaceRegular _ _ _ _ := pure ()
  openPolicy _ := pure ()
  validateCleanupPath _ path := pure ⟨path, true⟩
  validateCapturedPath _ path _ := pure ⟨path, true⟩
  comparisonKey path := path
  assertSecretFreeBytes _ _ := .ok ()

/-- A transaction; where there are cancellations, the one that is counted down to is committed and its caller hears of
one. -/
def transaction (cancels : Bool) {α : Type} (op : Instant → Op α) : EStateM Fault MergeRoom α := fun w =>
  match (op sampleNow).run w.db with
  | .error e => .error (.storage e) w
  | .ok (a, d) =>
    if cancels ∧ w.cancelled = some 0 then .error .cancelled { w with db := d, cancelled := none }
    else .ok a { w with db := d, cancelled := w.cancelled.map (· - 1) }

def node : WorkflowNode := sampleSystemNode "w6" .mergePatch "write.merge_patch.v1"

def nodeRun : NodeRunRow := { sampleNodeRun node with status := .running }

def run : WorkflowRunRow :=
  { sampleRunRow with status := .running, currentCommit := "0000000000000000000000000000000000000000" }

def subject : ChangeSetRecord :=
  .fromDocument "c" "s" "r" "rwrite" "t" .approved
    { manifest := { CaptureStore.sampleManifest with
        changes := [{ action := .created, path := "f.py", oldPath := none, beforeSha256 := none
                      afterSha256 := some CaptureStore.sampleManifest.postStateHash, beforeSize := none, afterSize := some 1
                      binary := false }] }
      canonicalPatchRef := ⟨"p", .patch, "p", sampleHost.sha256 [], 1⟩
      evidence := []
      preimages := [] } "" ""

def approval : ApprovalRow where
  id := "a"
  workflowRunId := "r"
  nodeRunId := "rw5"
  subjectType := .changeSet
  changeSetId := some "c"
  subjectSha256 := ""
  baseCommit := some CaptureStore.sampleManifest.baseCommit
  patchSha256 := some (sampleHost.sha256 [])
  evidenceSha256 := sampleHost.sha256 []
  effectiveRisk := .l1
  scope := ["f.py"]
  status := .approved
  expiresAt := "0002"
  createdAt := ""

def handler (cancels : Bool) : MergePatchNodeHandler MergeRoom where
  transaction := transaction cancels
  held := MergeRoom.held
  startHeartbeat lease w := { w with held := ⟨lease, none⟩ }
  setLease lease w := { w with held := { w.held with lease := lease } }
  stopHeartbeat w := w
  host := sampleHost
  git := machine
  ord := .table
  path text := [text]
  processId := 1
  ttl := 30
  heartbeat := some 5
  now := pure sampleNow
  getForSourceNode _ _ := pure subject
  loadPatch _ := pure (subject, [112])
  getForChangeSet _ := pure (some approval)
  buildManifest := none

def context : NodeExecutionContext where
  run := run
  nodeRun := nodeRun
  node := node
  session := ⟨"s", "/repo", run.currentCommit, .active, ""⟩
  masterLease := sampleLease

def setting (cancels : Bool) : MergeSetting MergeRoom :=
  ⟨handler cancels, context, subject, rules, fun _ => checkout, MergeRoom.db⟩

/-- Before the merge node runs, with the commit whose caller is cancelled. -/
def start (cancelled : Option Nat) : MergeRoom where
  db := { sampleDb with
    workflowRuns := ⟨[run], by decide, by decide⟩
    nodeRuns := ⟨[nodeRun], by decide, by decide⟩
    changeSets := ⟨[⟨"c", "t", run.currentCommit, subject.changeSet.patchSha256, .approved, "", ""⟩], by decide, by decide⟩
    fileLocks := Table.empty }
  held := ⟨⟨"", "", "", 0, 0, "", "", ""⟩, none⟩
  cancelled := cancelled

theorem machine_documented (cancels : Bool) : machine.Documented sampleHost rules (fun _ => checkout)
    ((handler cancels).repo context) (setting cancels).Others where
  keepsTree _ _ := .pure _
  keepsIndex _ _ := .pure _
  keepsHead _ _ := .pure _
  checks _ := .pure _
  applies patch w := ⟨fun _ _ => rfl, fun h => h.elim, fun h => h.elim, fun h => (h rfl).elim⟩
  applied _ _ _ _ := rfl
  restores _ _ := ⟨fun _ => rfl, fun h => h.elim, fun h => h.elim⟩
  indexed _ _ _ := .pure _
  createTemporary _ := .pure _
  removeTemporary _ := .pure _
  openRoot := .pure _
  closeRoot := .pure _
  unlink _ := .pure _
  unlinked _ := ⟨rfl, id⟩
  rmdir _ := .pure _
  removed _ := ⟨rfl, id⟩
  wellFormed _ := ⟨fun h => (h rfl).elim, fun h => h.elim, fun h => (h rfl).elim⟩
  printsHead h _ htext := by
    cases h
    have hprinted : sampleHost.decode (answer ["rev-parse", "--verify", "--end-of-options", "HEAD^\x7bcommit\x7d"]).stdout =
        some checkout.head := by decide +kernel
    rw [hprinted] at htext
    cases htext
    decide +kernel
  printsStaged h _ := by
    cases h
    simp [answer, checkout, rules]
  printsUnstaged h _ := by
    cases h
    simp [answer, checkout]
  printsUntracked h _ hpaths path := by
    cases h
    cases hpaths
    simp [checkout]

theorem setting_documented (cancels : Bool) : (setting cancels).Documented where
  git := machine_documented cancels
  transaction op w := by
    change Ends _ _ (transaction cancels op w)
    unfold transaction
    cases hrun : (op sampleNow).run w.db with
    | error e => exact ⟨rfl, .inl (refl_of (setting cancels).Meanwhile w.db)⟩
    | ok r =>
      obtain ⟨a, d⟩ := r
      have hcommitted : Committed (setting cancels).Meanwhile op a w.db d :=
        ⟨sampleNow, w.db, d, refl_of (setting cancels).Meanwhile _, hrun, refl_of (setting cancels).Meanwhile _⟩
      dsimp only
      split
      · exact ⟨rfl, .inr ⟨a, hcommitted⟩⟩
      · exact ⟨rfl, hcommitted⟩
  startHeartbeat _ w := ⟨refl_of (setting cancels).Meanwhile w.db, rfl⟩
  setLease _ w := ⟨refl_of (setting cancels).Meanwhile w.db, rfl⟩
  stopHeartbeat w := refl_of (setting cancels).Aside w
  now := .pure _
  getForSourceNode _ _ := .pure _
  getForChangeSet _ := .pure _
  loadPatch _ := .pure _
  buildManifest h := by cases h
  subject h := by
    cases h
    rfl
  patch h := by
    cases h
    rfl

theorem start_idle (cancels : Bool) (cancelled : Option Nat) : (setting cancels).Idle (start cancelled).db :=
  ⟨⟨run.currentCommit, rfl⟩, rfl⟩

/-- Where nobody is cancelled, the merge can be taken back. -/
theorem setting_reversible : (setting false).Reversible checkout where
  begins {w w' e} _ _ h := by
    change transaction false _ w = _ at h
    unfold transaction at h
    split at h
    · cases h
      exact refl_of (setting false).Meanwhile w.db
    · simp at h
  paths _ :=
    { old_tracked := fun h => by cases h
      existing_tracked := fun h => by
        rw [show (setting false).existing = [] by decide +kernel] at h
        cases h
      new_created := fun h => by
        rw [List.mem_singleton.1 h]
        decide +kernel
      of_created := fun {path} h => by
        rw [show (setting false).subject.created = ["f.py", "f.py"] by decide +kernel] at h
        exact .inl (by simpa [setting, rules] using h)
      folder_created := fun h => by cases h }
  room _ :=
    { listed := fun {path folder} h habove => by
        rw [List.mem_singleton.1 h] at habove
        have hslash : '/' ∈ "f.py".toList := habove.subset (by simp)
        exact absurd hslash (by decide)
      free := fun _ h => h
      unfiled := fun _ _ => rfl }
  shown _ _ hw _ := congrArg Checkout.worktree hw

end MergeRoom

namespace MergeSetting

/-- The patch does not apply, and the merge is taken back. -/
theorem execute_settles_sample : (MergeRoom.setting false).SettlesFrom (MergeRoom.start none) :=
  execute_settles (MergeRoom.setting_documented false) (MergeRoom.start none) MergeRoom.setting_reversible
    (MergeRoom.start_idle false none)

/-- The caller is cancelled as `begin_merge_finalizing` is committed: the run stays marked behind the cancellation. -/
theorem execute_leaves_mark : (MergeRoom.setting true).Documented ∧
    (MergeRoom.setting true).Idle (MergeRoom.start (some 1)).db ∧
    ¬ (MergeRoom.setting true).SettlesFrom (MergeRoom.start (some 1)) := by
  refine ⟨MergeRoom.setting_documented true, MergeRoom.start_idle true (some 1), fun h => ?_⟩
  have hrun : (match (MergeRoom.setting true).S.execute (MergeRoom.setting true).context (MergeRoom.start (some 1)) with
      | .ok _ _ => none
      | .error e w => some (e, (w.db.mergeMark "r").bind Prod.fst)) =
      some (Fault.cancelled, some "0001-01-01T00:00:00.000000Z") := by
    decide +kernel
  have herror := h.2
  generalize (MergeRoom.setting true).S.execute (MergeRoom.setting true).context (MergeRoom.start (some 1)) = r at herror hrun
  cases r with
  | ok a w => cases hrun
  | error e w =>
    obtain ⟨rfl, hmark⟩ := Prod.mk.inj (Option.some.inj hrun)
    rcases herror _ _ rfl with ⟨hnone, -⟩ | ⟨-, commit, hnone⟩ | ⟨he, -⟩
    · change w.db.mergeMark "r" = _ at hnone
      rw [hnone] at hmark
      cases hmark
    · change w.db.mergeMark "r" = _ at hnone
      rw [hnone] at hmark
      cases hmark
    · cases he

end MergeSetting

end AgentHub
