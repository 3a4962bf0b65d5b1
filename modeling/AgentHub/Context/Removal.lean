import AgentHub.Context.TaskBundle
import AgentHub.Lib.Contract
import Mathlib.Data.List.Forall2
/-!
# Taking a staging directory down

What the calls of a bundle do to the one directory that a materialization makes, and the removal of it: it takes that
directory down wherever it is, and leaves it alone where it is elsewhere.
-/

namespace AgentHub

open Lib Workspace

/-- The directory that a call made: where it is now, and its files. -/
structure OwnDir where
  path : Path
  files : String → Option Bytes

namespace BundleHost

variable {W : Type}

/-- What the calls do to the directory that the call made. Nobody else touches it. -/
structure Documented (M : BundleHost W) (own : W → Option OwnDir) : Prop where
  clock : Leaves own M.clock
  getRecord (artifactId : String) : Leaves own (M.getRecord artifactId)
  validateOwner (row : ArtifactRow) : Leaves own (M.validateOwner row)
  readBytes (artifactId : String) (artifactType : ArtifactType) : Leaves own (M.readBytes artifactId artifactType)
  pathExists (path : Path) : Leaves own (M.pathExists path)
  lstatIsLink (path : Path) : Leaves own (M.lstatIsLink path)
  fileAttributes (path : Path) : Leaves own (M.fileAttributes path)
  anyEntry (path : Path) : Leaves own (M.anyEntry path)
  scandir (path : Path) : Leaves own (M.scandir path)
  makeDirectories (path : Path) : Leaves own (M.makeDirectories path)
  chmod (path : Path) (mode : Nat) : Leaves own (M.chmod path mode)
  icacls (path : Path) (grant : String) : Leaves own (M.icacls path grant)
  makeTemporary (stem : String) (parent : Path) : Triple (fun w => own w = none) (M.makeTemporary stem parent)
    (fun path w => (∃ tail, path = parent ++ [stem ++ tail]) ∧ own w = some ⟨path, fun _ => none⟩) (fun _ w => own w = none)
  writeBytes (dir : Path) (files : String → Option Bytes) (name : String) (content : Bytes) :
    Triple (fun w => own w = some ⟨dir, files⟩) (M.writeBytes (dir ++ [name]) content)
      (fun _ w => own w = some ⟨dir, fun n => if n = name then some content else files n⟩)
      (fun _ w => ∃ files', own w = some ⟨dir, files'⟩)
  rename (dir target : Path) (files : String → Option Bytes) :
    Triple (fun w => own w = some ⟨dir, files⟩) (M.rename dir target) (fun _ w => own w = some ⟨target, files⟩)
      (fun _ w => own w = some ⟨dir, files⟩)
  unlink (dir : Path) (files : String → Option Bytes) (name : String) :
    Triple (fun w => own w = some ⟨dir, files⟩) (M.unlink (dir ++ [name]))
      (fun _ w => own w = some ⟨dir, fun n => if n = name then none else files n⟩)
      (fun _ w => own w = some ⟨dir, files⟩)
  unlinkOther (path : Path) (w : W) (h : ∀ d, own w = some d → ∀ name, path ≠ d.path ++ [name]) :
    own (Lib.ending (M.unlink path w)) = own w
  removeDirectory (dir : Path) (files : String → Option Bytes) :
    Triple (fun w => own w = some ⟨dir, files⟩) (M.removeDirectory dir) (fun _ w => own w = none)
      (fun _ w => own w = some ⟨dir, files⟩)
  removeDirectoryOther (path : Path) (w : W) (h : ∀ d, own w = some d → path ≠ d.path) :
    own (Lib.ending (M.removeDirectory path w)) = own w

/-- The call can take down what it made: its directory is there with the files it wrote, and they are its own. -/
structure Removes (M : BundleHost W) (own : W → Option OwnDir) : Prop where
  pathExists {d : OwnDir} {w : W} (h : own w = some d) : ∃ w', M.pathExists d.path w = .ok true w'
  scandir {d : OwnDir} {w : W} (h : own w = some d) : ∃ entries w', M.scandir d.path w = .ok entries w' ∧
    (∀ e ∈ entries, e.isDir = false) ∧ (entries.map DirEntry.name).Nodup ∧
    ∀ name, name ∈ entries.map DirEntry.name ↔ d.files name ≠ none
  chmod {d : OwnDir} {w w' : W} {name : String} {mode : Nat} {e : BundleFault} (h : own w = some d)
    (hraised : M.chmod (d.path ++ [name]) mode w = .error e w') : ∃ kind message, e = .os kind message
  icacls {d : OwnDir} {w : W} (name grant : String) (h : own w = some d) :
    ∃ code w', M.icacls (d.path ++ [name]) grant w = .ok code w'
  unlink {d : OwnDir} {w : W} {name : String} (h : own w = some d) (hfile : d.files name ≠ none) :
    ∃ w', M.unlink (d.path ++ [name]) w = .ok () w'
  removeDirectory {d : OwnDir} {w : W} (h : own w = some d) (hempty : ∀ name, d.files name = none) :
    ∃ w', M.removeDirectory d.path w = .ok () w'

end BundleHost

/-! ## Contracts of the calls -/

section
variable {σ ρ ε α β : Type} {view : σ → ρ}

/-- What leaves a view alone keeps what is said of the view, and what it returned it returned somewhere. -/
theorem Lib.Leaves.triple {x : EStateM ε σ α} (hx : Leaves view x) (P : ρ → Prop) :
    Triple (fun s => P (view s)) x (fun a s => (∃ s₀ s₁, x s₀ = .ok a s₁) ∧ P (view s)) (fun _ s => P (view s)) := by
  intro s hs
  have hview := hx s
  cases hrun : x s with
  | ok a s' =>
    rw [hrun, ending_ok] at hview
    refine ⟨⟨s, s', hrun⟩, ?_⟩
    rwa [hview]
  | error e s' =>
    rw [hrun, ending_error] at hview
    change P (view s')
    rwa [hview]

theorem Lib.Leaves.outcome {x : EStateM ε σ α} (hx : Leaves view x) : Leaves view (outcome x) := by
  intro s
  have hs := hx s
  unfold Lib.outcome
  cases h : x s <;> rw [h] at hs <;> exact hs

theorem outcome_ok {x : EStateM ε σ α} {s s' : σ} {a : α} (h : x s = .ok a s') : outcome x s = .ok (.ok a) s' := by
  unfold outcome
  rw [h]

theorem outcome_error {x : EStateM ε σ α} {s s' : σ} {e : ε} (h : x s = .error e s') : outcome x s = .ok (.error e) s' := by
  unfold outcome
  rw [h]

end

namespace BundleHost

open FileHost

variable {W : Type} {M : BundleHost W} {own : W → Option OwnDir}

theorem isReparseOrSymlink_leaves (hM : M.Documented own) (path : Path) : Leaves own (M.isReparseOrSymlink path) := by
  refine .bind (Leaves.outcome (.bind (hM.lstatIsLink path) fun link => ?_)) fun found => ?_
  · refine .ite (.pure _) (.ite (.bind (hM.fileAttributes path) fun _ => .pure _) (.pure _))
  · split
    · exact .pure _
    · exact .pure _
    · exact .throw _

theorem checkParts_leaves (hM : M.Documented own) (label : String) (parts : List String) :
    ∀ current, Leaves own (M.checkParts label current parts) := by
  induction parts with
  | nil => exact fun _ => .pure _
  | cons part parts ih =>
    intro current
    refine .bind (hM.pathExists _) fun there => ?_
    split
    · refine .bind (isReparseOrSymlink_leaves hM _) fun link => ?_
      split
      · exact .bind (.throw _) fun _ => ih _
      · exact ih _
    · exact ih _

theorem checkPathSafe_leaves (hM : M.Documented own) (path base : Path) (label : String) :
    Leaves own (M.checkPathSafe path base label) :=
  .ite (checkParts_leaves hM _ _ _) (.throw _)

theorem setPermissions_leaves (hM : M.Documented own) (path : Path) (grant : String) (mode : Nat) (denied failed : String) :
    Leaves own (M.setPermissions path grant mode denied failed) := by
  refine .ite (.ite (.throw _) (.bind (hM.icacls _ _) fun _ => .ite (.throw _) (.pure _))) (.bind (hM.chmod _ _).outcome ?_)
  intro found
  split
  · exact .pure _
  · exact .throw _
  · exact .throw _

theorem suppress_leaves {x : EStateM BundleFault W Unit} (hx : Leaves own x) : Leaves own (suppress x) := by
  refine .bind hx.outcome fun found => ?_
  split
  · exact .pure _
  · exact .pure _
  · exact .throw _

theorem restoreWrite_leaves (hM : M.Documented own) (path : Path) : Leaves own (M.restoreWrite path) :=
  .ite (.ite (.pure _) (.bind (hM.icacls _ _) fun _ => .pure _)) (suppress_leaves (hM.chmod _ _))

/-! ## Removal -/

/-- A call keeps the directory of the call as it is. -/
def Keeps {α : Type} (own : W → Option OwnDir) (o : Option OwnDir) (x : EStateM BundleFault W α) : Prop :=
  Triple (fun w => own w = o) x (fun _ w => own w = o) (fun _ w => own w = o)

section
variable {α β : Type} {o : Option OwnDir}

theorem Keeps.of_leaves {x : EStateM BundleFault W α} (hx : Leaves own x) : Keeps own o x :=
  (hx.triple (· = o)).weaken (fun _ h => h) (fun _ _ h => h.2) fun _ _ h => h

theorem Keeps.bind {x : EStateM BundleFault W α} {f : α → EStateM BundleFault W β} (hx : Keeps own o x)
    (hf : ∀ a, Keeps own o (f a)) : Keeps own o (x >>= f) := Triple.bind hx hf

theorem Keeps.forM {f : α → EStateM BundleFault W PUnit} {l : List α} (hf : ∀ a ∈ l, Keeps own o (f a)) :
    Keeps own o (l.forM f) := by
  induction l with
  | nil => exact Triple.pure fun _ h => h
  | cons a l ih => exact .bind (hf a List.mem_cons_self) fun _ => ih fun b hb => hf b (List.mem_cons_of_mem a hb)

theorem Keeps.foldlM {f : β → α → EStateM BundleFault W β} {l : List α} (hf : ∀ b, ∀ a ∈ l, Keeps own o (f b a)) :
    ∀ b, Keeps own o (l.foldlM f b) := by
  induction l with
  | nil => exact fun b => Triple.pure fun _ h => h
  | cons a l ih =>
    exact fun b => .bind (hf b a List.mem_cons_self) (ih fun b c hc => hf b c (List.mem_cons_of_mem a hc))

theorem Keeps.suppress {x : EStateM BundleFault W Unit} (hx : Keeps own o x) : Keeps own o (suppress x) := by
  intro w hw
  have hends := hx w hw
  unfold FileHost.suppress
  cases hrun : x w with
  | ok a w' =>
    rw [hrun] at hends
    rw [run_bind_ok (outcome_ok hrun)]
    exact hends
  | error e w' =>
    rw [hrun] at hends
    rw [run_bind_ok (outcome_error hrun)]
    cases e <;> exact hends

/-- Where the call has nothing, or has it elsewhere, a removal leaves it alone. -/
theorem forceRemoveIn_keeps (hM : M.Documented own) {root : Path} (hroot : ∀ d, o = some d → ¬ root <+: d.path)
    (dirs files : List String) : Keeps own o (M.forceRemoveIn root dirs files) := by
  refine .bind (.forM fun name _ => .bind (.of_leaves (restoreWrite_leaves hM _)) fun _ => .suppress fun w hw => ?_) fun _ =>
    .forM fun name _ => .suppress fun w hw => ?_
  · have hkept := hM.unlinkOther (root ++ [name]) w fun d hd name' heq =>
      hroot d (hw.symm.trans hd) ((List.append_inj_left' heq rfl) ▸ List.prefix_rfl)
    cases hrun : M.unlink (root ++ [name]) w <;> rw [hrun] at hkept <;> exact hkept.trans hw
  · have hkept := hM.removeDirectoryOther (root ++ [name]) w fun d hd heq =>
      hroot d (hw.symm.trans hd) (heq ▸ List.prefix_append root [name])
    cases hrun : M.removeDirectory (root ++ [name]) w <;> rw [hrun] at hkept <;> exact hkept.trans hw

theorem walkBottomUp_keeps (hM : M.Documented own) {body : Path → List String → List String → β → EStateM BundleFault W β}
    {staging : Path} (hbody : ∀ root, staging <+: root → ∀ dirs files b, Keeps own o (body root dirs files b)) (fuel : Nat) :
    ∀ top, staging <+: top → ∀ b, Keeps own o (M.walkBottomUp body fuel top b) := by
  induction fuel with
  | zero => exact fun top _ b => Triple.pure fun _ h => h
  | succ fuel ih =>
    intro top htop b
    refine .bind (.of_leaves (.bind (hM.scandir top).outcome fun found => ?_)) fun found => ?_
    · split
      · exact .pure _
      · exact .pure _
      · exact .throw _
    · cases found with
      | none => exact Triple.pure fun _ h => h
      | some entries =>
        exact .bind (.foldlM (fun b name _ => ih _ (htop.trans (List.prefix_append top [name])) b) b) fun b =>
          hbody top htop _ _ b

theorem forceRemoveStaging_keeps (hM : M.Documented own) {staging : Path} (hstaging : ∀ d, o = some d → ¬ staging <+: d.path)
    (fuel : Nat) : Keeps own o (M.forceRemoveStaging fuel staging) := by
  refine .bind (.of_leaves (hM.pathExists _)) fun there => ?_
  split
  · refine .bind (walkBottomUp_keeps hM (fun root hroot dirs files _ => ?_) _ _ List.prefix_rfl ()) fun _ => .suppress ?_
    · exact forceRemoveIn_keeps hM (fun d hd hpre => hstaging d hd (hroot.trans hpre)) dirs files
    · intro w hw
      have hkept := hM.removeDirectoryOther staging w fun d hd heq =>
        hstaging d (hw.symm.trans hd) (heq ▸ List.prefix_rfl)
      cases hrun : M.removeDirectory staging w <;> rw [hrun] at hkept <;> exact hkept.trans hw
  · exact Triple.pure fun _ h => h

end

/-- `with contextlib.suppress(OSError)` around what returned or raised such an error. -/
theorem suppress_ok {x : EStateM BundleFault W Unit} {w : W} (h : ∀ e w', x w = .error e w' → ∃ kind message, e = .os kind message) :
    suppress x w = .ok () (Lib.ending (x w)) := by
  unfold suppress
  cases hrun : x w with
  | ok a w' => exact (run_bind_ok (outcome_ok hrun)).trans rfl
  | error e w' =>
    obtain ⟨kind, message, rfl⟩ := h e w' hrun
    exact (run_bind_ok (outcome_error hrun)).trans rfl

theorem restoreWrite_ok (hM : M.Documented own) (hR : M.Removes own) {d : OwnDir} {w : W} (h : own w = some d) (name : String) :
    ∃ w', M.restoreWrite (d.path ++ [name]) w = .ok () w' ∧ own w' = some d := by
  have hkept := restoreWrite_leaves hM (d.path ++ [name]) w
  have hrun : ∃ w', M.restoreWrite (d.path ++ [name]) w = .ok () w' := by
    unfold restoreWrite
    split
    · split
      · exact ⟨w, rfl⟩
      · obtain ⟨code, w', hcode⟩ := hR.icacls name (M.user ++ ":(F)") h
        exact ⟨w', (run_bind_ok hcode).trans rfl⟩
    · exact ⟨_, suppress_ok fun _ _ hraised => hR.chmod h hraised⟩
  obtain ⟨w', hrun⟩ := hrun
  rw [hrun] at hkept
  exact ⟨w', hrun, hkept.trans h⟩

/-- The files of the directory go one by one. -/
theorem removeFiles_own (hM : M.Documented own) (hR : M.Removes own) {dir : Path} {names : List String} (hnd : names.Nodup) :
    ∀ {files : String → Option Bytes} {w : W}, own w = some ⟨dir, files⟩ → (∀ name ∈ names, files name ≠ none) →
      ∃ w', (names.forM fun name => do
          M.restoreWrite (dir ++ [name])
          suppress (M.unlink (dir ++ [name]))) w = .ok () w' ∧
        own w' = some ⟨dir, fun n => if n ∈ names then none else files n⟩ := by
  induction names with
  | nil => exact fun {files w} h _ => ⟨w, rfl, by simpa using h⟩
  | cons name names ih =>
    intro files w h hfiles
    obtain ⟨hname, hnames⟩ := List.nodup_cons.1 hnd
    obtain ⟨w₁, hrestore, h₁⟩ := restoreWrite_ok hM hR h name
    obtain ⟨w₂, hunlink⟩ := hR.unlink h₁ (hfiles name List.mem_cons_self)
    have h₂ := hM.unlink dir files name w₁ h₁
    rw [hunlink] at h₂
    have hsuppress : suppress (M.unlink (dir ++ [name])) w₁ = .ok () w₂ := (run_bind_ok (outcome_ok hunlink)).trans rfl
    have hrest : ∀ n ∈ names, (if n = name then none else files n) ≠ none := by
      intro n hn
      have hne : n ≠ name := by
        rintro rfl
        exact hname hn
      rw [if_neg hne]
      exact hfiles n (List.mem_cons_of_mem name hn)
    obtain ⟨w', hloop, h'⟩ := ih hnames h₂ hrest
    refine ⟨w', (run_bind_ok ((run_bind_ok hrestore).trans hsuppress)).trans hloop, ?_⟩
    rw [h']
    congr 2
    funext n
    by_cases hn : n = name <;> simp [hn]

/-- `_force_remove_staging` takes the directory of the call down. -/
theorem forceRemoveStaging_own (hM : M.Documented own) (hR : M.Removes own) {d : OwnDir} {w : W} (h : own w = some d) (fuel : Nat) :
    ∃ w', M.forceRemoveStaging fuel d.path w = .ok () w' ∧ own w' = none := by
  obtain ⟨w₁, hthere⟩ := hR.pathExists h
  have h₁ := (hM.pathExists d.path) w
  rw [hthere, ending_ok, h] at h₁
  obtain ⟨entries, w₂, hscan, hfiles, hnd, hnames⟩ := hR.scandir h₁
  have h₂ := (hM.scandir d.path) w₁
  rw [hscan, ending_ok, h₁] at h₂
  have hnone : entries.filter DirEntry.isDir = [] := List.filter_eq_nil_iff.2 fun e he => by simp [hfiles e he]
  have hbelow : entries.filter (fun e => e.isDir && !e.isSymlink) = [] :=
    List.filter_eq_nil_iff.2 fun e he => by simp [hfiles e he]
  have hall : fileNames entries = entries.map DirEntry.name := by
    rw [fileNames, List.filter_eq_self.2 fun e he => by simp [hfiles e he]]
  obtain ⟨w₃, hloop, h₃⟩ := removeFiles_own hM hR hnd h₂ fun name hname => (hnames name).1 hname
  obtain ⟨w₄, hrmdir⟩ := hR.removeDirectory h₃ fun name => by
    by_cases hname : name ∈ entries.map DirEntry.name
    · exact if_pos hname
    · exact (if_neg hname).trans (not_not.1 fun hfile => hname ((hnames name).2 hfile))
  have h₄ := hM.removeDirectory d.path _ w₃ h₃
  rw [hrmdir] at h₄
  refine ⟨w₄, ?_, h₄⟩
  have hlisting : M.listing d.path w₁ = .ok (some entries) w₂ := (run_bind_ok (outcome_ok hscan)).trans rfl
  have hwalk : M.walkBottomUp (fun root dirs files _ => M.forceRemoveIn root dirs files) (fuel + 1) d.path () w₁ = .ok () w₃ := by
    rw [walkBottomUp, run_bind_ok hlisting]
    simp only [hbelow, dirNames, hnone, hall, List.map_nil, List.foldlM_nil]
    exact (run_bind_ok hloop).trans rfl
  have hlast : suppress (M.removeDirectory d.path) w₃ = .ok () w₄ := (run_bind_ok (outcome_ok hrmdir)).trans rfl
  unfold forceRemoveStaging
  rw [run_bind_ok hthere, if_pos rfl, run_bind_ok hwalk]
  exact hlast

end BundleHost

end AgentHub
