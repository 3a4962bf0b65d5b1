import AgentHub.Context.Touch
/-!
# Cleanup on a POSIX host

`cleanup` takes the bundle of a task down and leaves everything else as it is, exactly where no link of the bundle leads to
a file outside whose mode it sets, and none leads to a directory: `_restore_write` follows links, and `rmdir` removes none.
-/

namespace AgentHub

open Lib Workspace FileHost

variable {K : Kernel} {root top path : Path} {depth : Nat} {taskId name message : String} {d d' d₁ : Disk}
  {r r' : CleanupResult}

/-! ## The second walk -/

/-- Directories went that were below the top, and nothing else did. -/
structure Pruned (top : Path) (d d' : Disk) : Prop where
  mode : d'.mode = d.mode
  entry (p : Path) : d'.tree.get? p = d.tree.get? p ∨ d'.tree.get? p = none ∧ d.tree.get? p = some .dir ∧ top <+: p ∧ p ≠ top

namespace Pruned

theorem refl (top : Path) (d : Disk) : Pruned top d d := ⟨rfl, fun _ => .inl rfl⟩

theorem trans (h : Pruned top d d₁) (h' : Pruned top d₁ d') : Pruned top d d' where
  mode := h'.mode.trans h.mode
  entry p := by
    rcases h'.entry p with hsame | ⟨hnone, hdir, hbelow⟩
    · rcases h.entry p with hsame' | ⟨hnone, hdir, hbelow⟩
      · exact .inl (hsame.trans hsame')
      · exact .inr ⟨hsame.trans hnone, hdir, hbelow⟩
    · rcases h.entry p with hsame' | ⟨hnone', -⟩
      · exact .inr ⟨hnone, hsame' ▸ hdir, hbelow⟩
      · cases hnone'.symm.trans hdir

theorem up (h : Pruned (top ++ [name]) d d') : Pruned top d d' where
  mode := h.mode
  entry p := by
    refine (h.entry p).imp id fun ⟨hnone, hdir, hpre, _⟩ => ⟨hnone, hdir, (List.prefix_append top [name]).trans hpre, ?_⟩
    rintro rfl
    have hlen := hpre.length_le
    simp at hlen

/-- What is not below the top is as it was. -/
theorem get?_eq (h : Pruned top d d') {p : Path} (hp : top <+: p → p = top) : d'.tree.get? p = d.tree.get? p := by
  rcases h.entry p with hsame | ⟨-, -, hpre, hne⟩
  · exact hsame
  · exact absurd (hp hpre) hne

theorem get?_none (h : Pruned top d d') {p : Path} (hp : d.tree.get? p = none) : d'.tree.get? p = none := by
  rcases h.entry p with hsame | ⟨hnone, -⟩
  · exact hsame.trans hp
  · exact hnone

/-- The entries of a directory beside one that is walked. -/
theorem beside (h : Pruned (top ++ [name]) d d') (n : String) : d'.tree.get? (top ++ [n]) = d.tree.get? (top ++ [n]) := by
  refine h.get?_eq fun hpre => ?_
  exact (hpre.eq_of_length (by simp)).symm

theorem names_nil (h : Pruned top d d') (hp : d.tree.names path = []) : d'.tree.names path = [] := by
  refine List.eq_nil_iff_forall_not_mem.2 fun n hn => FileTree.mem_names.1 hn (h.get?_none ?_)
  by_contra hthere
  have hmem := FileTree.mem_names.2 hthere
  rw [hp] at hmem
  cases hmem

end Pruned

section
variable (K root depth taskId message r)

/-- A directory is removed where it is empty and may go, or nothing happens but for the error. -/
theorem removeCounted_run (hdir : d.tree.get? top = some .dir) (hname : name ≠ "." ∧ name ≠ "..") :
    ∃ r' d', (posix K root depth).removeCounted (top ++ [name]) message r d = .ok r' d' ∧ Pruned top d d' ∧
      (∀ p, p ≠ top ++ [name] → d'.tree.get? p = d.tree.get? p) ∧
      (d.tree.get? (top ++ [name]) = some .dir → r'.errors = [] → d'.tree.get? (top ++ [name]) = none) ∧
      (K.removeDirectory (top ++ [name]) = none → d.tree.get? (top ++ [name]) = some .dir → d.tree.names (top ++ [name]) = [] →
        r'.errors = r.errors ∧ d'.tree.get? (top ++ [name]) = none) := by
  rcases Disk.removeDirectory_run K root depth hdir hname with ⟨hentry, hempty, hrun⟩ | ⟨hwhy, kind, hrun⟩
  · have hget := FileTree.get?_erase hempty (by simp)
    have hgone : (d.erase (top ++ [name])).tree.get? (top ++ [name]) = none := by rw [Disk.erase_tree, hget, if_pos rfl]
    have hkept : ∀ p, p ≠ top ++ [name] → (d.erase (top ++ [name])).tree.get? p = d.tree.get? p := by
      intro p hp
      rw [Disk.erase_tree, hget, if_neg hp]
    refine ⟨{ r with removedDirs := r.removedDirs + 1 }, d.erase (top ++ [name]), (run_bind_ok (outcome_ok hrun)).trans rfl,
      ⟨rfl, fun p => ?_⟩, hkept, fun _ _ => hgone, fun _ _ _ => ⟨rfl, hgone⟩⟩
    by_cases hp : p = top ++ [name]
    · subst hp
      exact .inr ⟨hgone, hentry, List.prefix_append top [name], by simp⟩
    · exact .inl (hkept p hp)
  · refine ⟨{ r with errors := r.errors ++ [message ++ ": " ++ kind] }, d, (run_bind_ok (outcome_error hrun)).trans rfl,
      .refl top d, fun _ _ => rfl, fun _ herrors => ?_, fun hK hentry hempty => absurd hempty (hwhy hK hentry)⟩
    exact absurd herrors (by simp)

/-- The names of a directory, removed one after the other. -/
theorem removeDirs_run {dirs : List String} (files : List String) : ∀ {d : Disk} (r : CleanupResult), d.tree.get? top = some .dir → Named dirs → ∃ r' d',
    (posix K root depth).removeDirs taskId top dirs files r d = .ok r' d' ∧ Pruned top d d' ∧
      (dirs.Nodup → (∀ name ∈ dirs, K.removeDirectory (top ++ [name]) = none ∧ d.tree.get? (top ++ [name]) = some .dir ∧
          d.tree.names (top ++ [name]) = []) →
        r'.errors = r.errors ∧ ∀ name ∈ dirs, d'.tree.get? (top ++ [name]) = none) := by
  unfold BundleDirs.removeDirs
  induction dirs with
  | nil => exact fun {d} r _ _ => ⟨r, d, rfl, .refl top d, fun _ _ => ⟨rfl, fun _ h => by cases h⟩⟩
  | cons name dirs ih =>
    intro d r hdir hnamed
    obtain ⟨r₁, d₁, hhead, hpruned₁, hother, -, hgone⟩ := removeCounted_run K root depth
      ("failed to remove directory: " ++ taskId ++ "/context/" ++ name) r hdir (hnamed name List.mem_cons_self)
    obtain ⟨r', d', hrun, hpruned, hclean⟩ := ih r₁ ((hpruned₁.get?_eq fun _ => rfl).trans hdir)
      (fun n hn => hnamed n (List.mem_cons_of_mem name hn))
    refine ⟨r', d', (run_bind_ok hhead).trans hrun, hpruned₁.trans hpruned, fun hnd hall => ?_⟩
    obtain ⟨hnew, hnd⟩ := List.nodup_cons.1 hnd
    obtain ⟨hK, hentry, hempty⟩ := hall name List.mem_cons_self
    obtain ⟨herrors₁, hnone⟩ := hgone hK hentry hempty
    obtain ⟨herrors, hnones⟩ := hclean hnd fun n hn => by
      obtain ⟨hK', hentry', hempty'⟩ := hall n (List.mem_cons_of_mem name hn)
      refine ⟨hK', (hother _ fun heq => ?_).trans hentry', hpruned₁.names_nil hempty'⟩
      obtain rfl := List.singleton_inj.1 (List.append_cancel_left heq)
      exact hnew hn
    refine ⟨herrors.trans herrors₁, fun n hn => ?_⟩
    rcases List.mem_cons.1 hn with rfl | hn
    · exact hpruned.get?_none hnone
    · exact hnones n hn

end

/-- Below a directory nothing is left but directories, and nothing keeps them from being removed. -/
def Bare (K : Kernel) (t : FileTree Bytes) (top : Path) : Prop :=
  ∀ path, top <+: path → K.scandir path = none ∧ K.removeDirectory path = none ∧
    (t.get? path ≠ none → t.get? path = some .dir)

theorem Bare.mono (h : Bare K d.tree top) (hpruned : Pruned top d d') : Bare K d'.tree top := by
  intro path hpath
  obtain ⟨hscan, hremove, hdir⟩ := h path hpath
  refine ⟨hscan, hremove, fun hthere => ?_⟩
  rcases hpruned.entry path with hsame | ⟨hnone, -⟩
  · rw [hsame]
    exact hdir (hsame ▸ hthere)
  · exact absurd hnone hthere

theorem Bare.down (h : Bare K d.tree top) (name : String) : Bare K d.tree (top ++ [name]) :=
  fun path hpath => h path ((List.prefix_append top [name]).trans hpath)

/-- The directories of a directory, walked one after the other. -/
theorem pruneDirs_run {n : Nat} {f : CleanupResult → String → EStateM BundleFault Disk CleanupResult}
    (hf : ∀ name d r, d.tree.get? (top ++ [name]) = some .dir → Above d.tree n → ∃ r' d', f r name d = .ok r' d' ∧
      Pruned (top ++ [name]) d d' ∧ (Bare K d.tree (top ++ [name]) → r'.errors = r.errors ∧ d'.tree.names (top ++ [name]) = []))
    {dirs : List String} : ∀ {d r}, Above d.tree n → (∀ name ∈ dirs, d.tree.get? (top ++ [name]) = some .dir) →
      ∃ r' d', dirs.foldlM f r d = .ok r' d' ∧ Pruned top d d' ∧
        (∀ name, d'.tree.get? (top ++ [name]) = d.tree.get? (top ++ [name])) ∧
        (Bare K d.tree top → r'.errors = r.errors ∧ ∀ name ∈ dirs, d'.tree.names (top ++ [name]) = []) := by
  induction dirs with
  | nil => exact fun {d r} _ _ => ⟨r, d, rfl, .refl top d, fun _ => rfl, fun _ => ⟨rfl, fun _ h => by cases h⟩⟩
  | cons name dirs ih =>
    intro d r habove hdirs
    obtain ⟨r₁, d₁, hhead, hpruned₁, hclean₁⟩ := hf name d r (hdirs name List.mem_cons_self) habove
    have habove₁ : Above d₁.tree n := by
      intro path hpath
      rcases hpruned₁.entry path with hsame | ⟨hnone, -⟩
      · exact habove path (hsame ▸ hpath)
      · cases hnone.symm.trans hpath
    obtain ⟨r', d', hrun, hpruned, hbeside, hclean⟩ := ih (d := d₁) (r := r₁) habove₁ fun n hn =>
      (hpruned₁.beside n).trans (hdirs n (List.mem_cons_of_mem name hn))
    refine ⟨r', d', (run_bind_ok hhead).trans hrun, hpruned₁.up.trans hpruned,
      fun n => (hbeside n).trans (hpruned₁.beside n), fun hbare => ?_⟩
    obtain ⟨herrors₁, hempty⟩ := hclean₁ (hbare.down name)
    obtain ⟨herrors, hemptys⟩ := hclean (hbare.mono hpruned₁.up)
    refine ⟨herrors.trans herrors₁, fun n hn => ?_⟩
    rcases List.mem_cons.1 hn with rfl | hn
    · exact hpruned.names_nil hempty
    · exact hemptys n hn

variable (K root depth taskId) in
/-- The second walk removes directories below its top only; where only such are left it removes all of them. -/
theorem walkBottomUp_run {fuel : Nat} : ∀ {top : Path} {d : Disk} (r : CleanupResult), d.tree.get? top = some .dir → Above d.tree (fuel + top.length) →
    ∃ r' d', (posix K root depth).walkBottomUp ((posix K root depth).removeDirs taskId) fuel top r d = .ok r' d' ∧
      Pruned top d d' ∧ (Bare K d.tree top → r'.errors = r.errors ∧ d'.tree.names top = []) := by
  induction fuel with
  | zero =>
    intro top d r hdir habove
    exact absurd (habove top hdir) (by simp)
  | succ fuel ih =>
    intro top d r hdir habove
    have hlisting := Disk.listing_run K root depth hdir
    cases hK : K.scandir top with
    | some kind =>
      rw [hK, if_neg (by simp)] at hlisting
      exact ⟨r, d, run_bind_ok hlisting, .refl top d, fun hbare => by cases hK.symm.trans (hbare top List.prefix_rfl).1⟩
    | none =>
      rw [hK, if_pos rfl] at hlisting
      obtain ⟨r₁, d₁, hbelow, hpruned₁, hbeside, hclean₁⟩ := pruneDirs_run (K := K) (n := fuel + 1 + top.length)
        (f := fun r name => (posix K root depth).walkBottomUp ((posix K root depth).removeDirs taskId) fuel (top ++ [name]) r)
        (fun name d r hsub habove => ih r hsub fun path hpath => by
          have hlen := habove path hpath
          rw [List.length_append, List.length_singleton]
          omega)
        (r := r) habove fun name hname => Disk.mem_below.1 hname
      have hnamed : Named (dirNames (d.entries top)) := fun n hn => named_names n (Disk.mem_dirNames.1 hn).1
      have htop : d₁.tree.get? top = some .dir := (hpruned₁.get?_eq fun _ => rfl).trans hdir
      obtain ⟨r', d', hbody, hpruned, hclean⟩ := removeDirs_run K root depth taskId
        (fileNames (d.entries top)) r₁ htop hnamed
      refine ⟨r', d', (run_bind_ok hlisting).trans ((run_bind_ok hbelow).trans hbody), hpruned₁.trans hpruned, fun hbare => ?_⟩
      obtain ⟨herrors₁, hemptys⟩ := hclean₁ hbare
      have hentry : ∀ n, d.tree.get? (top ++ [n]) ≠ none → d.tree.get? (top ++ [n]) = some .dir :=
        fun n => (hbare _ (List.prefix_append top [n])).2.2
      obtain ⟨herrors, hgone⟩ := hclean Disk.dirNames_nodup fun n hn => by
        have hsub := hentry n (FileTree.mem_names.1 (Disk.mem_dirNames.1 hn).1)
        exact ⟨(hbare _ (List.prefix_append top [n])).2.1, (hbeside n).trans hsub, hemptys n (Disk.mem_below.2 hsub)⟩
      refine ⟨herrors.trans herrors₁, List.eq_nil_iff_forall_not_mem.2 fun n hn => ?_⟩
      have hthere := FileTree.mem_names.1 hn
      have hsub : d.tree.get? (top ++ [n]) = some .dir := hentry n fun hnone => hthere ((hpruned₁.trans hpruned).get?_none hnone)
      exact hthere (hgone n (Disk.mem_dirNames.2 (Disk.get?_dir_iff.1 hsub).1))

/-! ## Cleanup -/

/-- Where the bundle of a task is. -/
def bundleOf (root : Path) (taskId : String) : Path := root ++ [taskId] ++ ["context"]

/-- `cleanup` on a disk, whose tree is followed to its depth. -/
def Disk.cleanup (d : Disk) (K : Kernel) (root : Path) (taskId : String) : EStateM.Result BundleFault Disk CleanupResult :=
  (posix K root d.tree.height).cleanup taskId d

/-- The kernel refuses nothing in a tree. -/
def Kernel.Grants (K : Kernel) (top : Path) : Prop :=
  ∀ path, top <+: path → K.scandir path = none ∧ K.unlink path = none ∧ K.removeDirectory path = none

/-- Nothing outside the bundle changes, the bundle is gone when no error is reported, none is reported when nothing is refused,
and another cleanup finds nothing. -/
structure TakenDown (K : Kernel) (root : Path) (taskId : String) (d d' : Disk) (r : CleanupResult) : Prop where
  contained {path : Path} (hpath : ¬ bundleOf root taskId <+: path) :
    d'.tree.get? path = d.tree.get? path ∧ d'.mode path = d.mode path
  gone (herrors : r.errors = []) : d'.tree.get? (bundleOf root taskId) = none
  noError (hgrants : K.Grants (bundleOf root taskId)) : r.errors = []
  again (herrors : r.errors = []) : d'.cleanup K root taskId = .ok ⟨0, 0, []⟩ d'

/-- A cleanup returns, and does what it is for. -/
def CleansUp (K : Kernel) (root : Path) (taskId : String) (d : Disk) : Prop :=
  ∃ r d', d.cleanup K root taskId = .ok r d' ∧ TakenDown K root taskId d d' r

/-- What the links of a bundle lead to: no mode outside is changed through one, and none leads to a directory. -/
structure HarmlessLinks (K : Kernel) (root : Path) (taskId : String) (d : Disk) : Prop where
  modes {dir : Path} {name : String} {target : LinkTarget} {q : Path} (hlisted : Listed K d.tree (bundleOf root taskId) dir)
    (hlink : d.tree.get? (dir ++ [name]) = some (.link target)) (hleads : d.tree.resolve (dir ++ [name]) = some q)
    (hout : ¬ bundleOf root taskId <+: q) (hchmod : K.chmod q = none) : d.mode q = privateMode
  noDirectory (hgrants : K.Grants (bundleOf root taskId)) {path : Path} {target : LinkTarget}
    (hpath : bundleOf root taskId <+: path) (hlink : d.tree.get? path = some (.link target)) :
    d.tree.leadsToDir path = false

/-- What the three parts of a cleanup did. -/
structure CleanupRun (K : Kernel) (root : Path) (taskId : String) (d d₁ d₂ d' : Disk) (r₁ r₂ r : CleanupResult) (l : List Path) :
    Prop where
  walked : Walked K (Listed K d.tree (bundleOf root taskId)) (Removable K d.tree (bundleOf root taskId)) d d₁ ⟨0, 0, []⟩ r₁ l
  pruned : Pruned (bundleOf root taskId) d₁ d₂
  bare : Bare K d₁.tree (bundleOf root taskId) → r₂.errors = r₁.errors ∧ d₂.tree.names (bundleOf root taskId) = []
  mode : d'.mode = d₂.mode
  entry : ∀ p, p ≠ bundleOf root taskId → d'.tree.get? p = d₂.tree.get? p
  gone : r.errors = [] → d'.tree.get? (bundleOf root taskId) = none
  last : K.removeDirectory (bundleOf root taskId) = none → d₂.tree.names (bundleOf root taskId) = [] → r.errors = r₂.errors

theorem context_named : "context" ≠ "." ∧ "context" ≠ ".." := by decide

theorem get?_task (hdir : d.tree.get? (bundleOf root taskId) = some .dir) : d.tree.get? (root ++ [taskId]) = some .dir :=
  FileTree.get?_parent (by rw [show root ++ [taskId] ++ ["context"] = bundleOf root taskId from rfl, hdir]; simp)

/-- The parts of a path to a directory pass the checks. -/
theorem checkParts_run {label : String} {parts : List String} : ∀ {current : Path}, d.tree.get? (current ++ parts) = some .dir →
    (posix K root depth).checkParts label current parts d = .ok () d := by
  induction parts with
  | nil => exact fun _ => rfl
  | cons part parts ih =>
    intro current h
    rw [List.append_cons] at h
    have hpart : d.tree.get? (current ++ [part]) = some .dir := by
      by_cases hnil : parts = []
      · rwa [hnil, List.append_nil] at h
      · exact FileTree.get?_above (by rw [h]; simp) hnil
    have hthere : (posix K root depth).pathExists (current ++ [part]) d = .ok true d := by
      change EStateM.Result.ok (d.tree.resolve (current ++ [part])).isSome d = _
      rw [FileTree.resolve_dir hpart, Option.isSome_some]
    have hreparse : (posix K root depth).isReparseOrSymlink (current ++ [part]) d = .ok false d := by
      have hparent : d.tree.get? current = some .dir := FileTree.get?_parent (FileTree.there hpart)
      rw [Disk.isReparse_run K root depth hparent (FileTree.name_ne (FileTree.there hpart))]
      simp [Disk.isLinkAt, hpart]
    rw [checkParts, run_bind_ok hthere, if_pos rfl]
    exact (run_bind_ok hreparse).trans (ih h)

theorem ensure_task (htask : isEntityId taskId = true) :
    (ensure (isEntityId taskId) (invalid "task_id") : EStateM BundleFault Disk Unit) d = .ok () d := by
  rw [htask]
  rfl

theorem cleanup_run (htask : isEntityId taskId = true) (hdir : d.tree.get? (bundleOf root taskId) = some .dir) :
    ∃ d₁ d₂ d' r₁ r₂ r l, d.cleanup K root taskId = .ok r d' ∧ CleanupRun K root taskId d d₁ d₂ d' r₁ r₂ r l := by
  have hthere : (posix K root d.tree.height).pathExists (bundleOf root taskId) d = .ok true d := by
    change EStateM.Result.ok (d.tree.resolve (bundleOf root taskId)).isSome d = _
    rw [FileTree.resolve_dir hdir, Option.isSome_some]
  have hcheck : (posix K root d.tree.height).checkPathSafe (bundleOf root taskId) root "cleanup_dir" d = .ok () d := by
    have hpath : bundleOf root taskId = root ++ [taskId, "context"] := List.append_assoc _ _ _
    rw [checkPathSafe, if_pos (hpath ▸ List.prefix_append root _), hpath, List.drop_left]
    exact checkParts_run (hpath ▸ hdir)
  have habove : Above d.tree (d.tree.height + 1 + (bundleOf root taskId).length) := by
    intro path hpath
    have hlen := FileTree.length_le_height (FileTree.there hpath)
    omega
  obtain ⟨l, r₁, d₁, hwalk₁, hwalked⟩ := walkTopDown_run K root d.tree.height taskId
    ⟨0, 0, []⟩ hdir habove
  have hdir₁ := hwalked.touches.get?_dir hdir
  obtain ⟨r₂, d₂, hwalk₂, hpruned, hbare⟩ := walkBottomUp_run K root d.tree.height taskId
    r₁ hdir₁ fun path hpath => habove path (hwalked.touches.sub path _ hpath)
  have hdir₂ : d₂.tree.get? (bundleOf root taskId) = some .dir := (hpruned.get?_eq fun _ => rfl).trans hdir₁
  obtain ⟨r, d', hlast, hpruned', hother, hgone, hclean⟩ := removeCounted_run K root d.tree.height
    ("failed to remove bundle dir: " ++ taskId ++ "/context") r₂ (get?_task hdir₂) context_named
  refine ⟨d₁, d₂, d', r₁, r₂, r, l, ?_, hwalked, hpruned, hbare, hpruned'.mode, hother, hgone hdir₂,
    fun hK hempty => (hclean hK hdir₂ hempty).1⟩
  unfold Disk.cleanup BundleDirs.cleanup
  refine (run_bind_ok (ensure_task htask)).trans ((run_bind_ok hthere).trans ((run_bind_ok (outcome_ok hcheck)).trans ?_))
  exact (run_bind_ok hwalk₁).trans ((run_bind_ok hwalk₂).trans hlast)

namespace CleanupRun

variable {d₂ : Disk} {r₁ r₂ : CleanupResult} {l : List Path}

theorem below (h : CleanupRun K root taskId d d₁ d₂ d' r₁ r₂ r l) {p : Path} (hp : p ∈ l) : bundleOf root taskId <+: p := by
  obtain ⟨-, -, dir, name, rfl, hlisted⟩ := h.walked.sound p hp
  exact hlisted.1.trans (List.prefix_append dir [name])

/-- Outside the bundle no entry changes. -/
theorem outside (h : CleanupRun K root taskId d d₁ d₂ d' r₁ r₂ r l) {p : Path} (hp : ¬ bundleOf root taskId <+: p) :
    d'.tree.get? p = d.tree.get? p := by
  have hne : p ≠ bundleOf root taskId := by
    rintro rfl
    exact hp List.prefix_rfl
  rw [h.entry p hne, h.pruned.get?_eq fun hpre => absurd hpre hp, h.walked.touches.get?_eq fun hmem => hp (h.below hmem)]

theorem mode_eq (h : CleanupRun K root taskId d d₁ d₂ d' r₁ r₂ r l) : d'.mode = d₁.mode := h.mode.trans h.pruned.mode

/-- Outside the bundle a mode changes only where a link of a listed directory leads. -/
theorem mode_outside (h : CleanupRun K root taskId d d₁ d₂ d' r₁ r₂ r l) (hlinks : HarmlessLinks K root taskId d) {q : Path}
    (hq : ¬ bundleOf root taskId <+: q) : d'.mode q = d.mode q := by
  rw [h.mode_eq]
  refine h.walked.touches.mode_eq fun p hp hleads hK => ?_
  obtain ⟨hthere, -, dir, name, rfl, hlisted⟩ := h.walked.sound p hp
  obtain ⟨e, he⟩ := Option.ne_none_iff_exists'.1 hthere
  have hplain : (∀ target, e ≠ .link target) → d.mode q = privateMode := by
    intro hnolink
    cases (FileTree.resolve_plain he hnolink).symm.trans hleads
    exact absurd (h.below hp) hq
  cases e with
  | link target => exact hlinks.modes hlisted he hleads hq hK
  | file content => exact hplain fun _ heq => by cases heq
  | dir => exact hplain fun _ heq => by cases heq

/-- Where nothing is refused the first walk leaves only directories. -/
theorem bare_of_grants (h : CleanupRun K root taskId d d₁ d₂ d' r₁ r₂ r l) (hlinks : HarmlessLinks K root taskId d)
    (hgrants : K.Grants (bundleOf root taskId)) (hdir : d.tree.get? (bundleOf root taskId) = some .dir) :
    r₁.errors = [] ∧ Bare K d₁.tree (bundleOf root taskId) := by
  have hfree : Removable K d.tree (bundleOf root taskId) := fun path hpath =>
    ⟨(hgrants path hpath).2.1, fun target htarget => hlinks.noDirectory hgrants hpath htarget⟩
  obtain ⟨herrors, hgone⟩ := h.walked.clean hfree
  refine ⟨herrors, fun path hpath => ⟨(hgrants path hpath).1, (hgrants path hpath).2.2, fun hthere => ?_⟩⟩
  by_contra hnodir
  obtain ⟨e, he⟩ := Option.ne_none_iff_exists'.1 hthere
  have hd := h.walked.touches.sub path e he
  have hkept : d.tree.get? path ≠ some .dir := fun hisdir => hnodir (h.walked.touches.get?_dir hisdir)
  obtain ⟨rest, rfl⟩ := hpath
  induction rest using List.reverseRecOn with
  | nil =>
    rw [List.append_nil] at hkept
    exact hkept hdir
  | append_singleton rest name =>
    rw [← List.append_assoc] at hd hkept hthere
    have hsome : d.tree.get? (bundleOf root taskId ++ rest ++ [name]) ≠ none := by
      rw [hd]
      exact Option.some_ne_none e
    have hparent : d.tree.get? (bundleOf root taskId ++ rest) = some .dir := FileTree.get?_parent hsome
    have hlisted : Listed K d.tree (bundleOf root taskId) (bundleOf root taskId ++ rest) :=
      ⟨List.prefix_append _ rest, hparent, fun p hp _ => (hgrants p hp).1⟩
    exact hthere (hgone _ (h.walked.covers _ name hlisted hsome hkept))

end CleanupRun

/-- After the bundle is gone a cleanup does nothing. -/
theorem cleanup_absent (htask : isEntityId taskId = true) (hparent : d.tree.get? (root ++ [taskId]) = some .dir)
    (hgone : d.tree.get? (bundleOf root taskId) = none) : d.cleanup K root taskId = .ok ⟨0, 0, []⟩ d := by
  have hthere : (posix K root d.tree.height).pathExists (bundleOf root taskId) d = .ok false d := by
    change EStateM.Result.ok (d.tree.resolve (root ++ [taskId] ++ ["context"])).isSome d = _
    rw [FileTree.resolve_absent hparent hgone context_named, Option.isSome_none]
  unfold Disk.cleanup BundleDirs.cleanup
  exact (run_bind_ok (ensure_task htask)).trans ((run_bind_ok hthere).trans rfl)

/-- A bundle with a directory, a file and a link, and a file of the host. -/
def sharedFiles (target : List String) : FileTree Bytes where
  entries := [(["bundles"], .dir), (["bundles", "t1"], .dir), (["bundles", "t1", "context"], .dir),
    (["bundles", "t1", "context", "notes"], .dir), (["bundles", "t1", "context", "notes", "a.txt"], .file [0x61]),
    (["bundles", "t1", "context", "shortcut"], .link ⟨true, target⟩), (["host.conf"], .file [0x62])]
  nodup := by simp
  named e he := by
    simp only [List.mem_cons, List.not_mem_nil, or_false] at he
    rcases he with rfl | rfl | rfl | rfl | rfl | rfl | rfl
    · exact ⟨[], "bundles", rfl, by decide⟩
    · exact ⟨["bundles"], "t1", rfl, by decide⟩
    · exact ⟨["bundles", "t1"], "context", rfl, by decide⟩
    · exact ⟨["bundles", "t1", "context"], "notes", rfl, by decide⟩
    · exact ⟨["bundles", "t1", "context", "notes"], "a.txt", rfl, by decide⟩
    · exact ⟨["bundles", "t1", "context"], "shortcut", rfl, by decide⟩
    · exact ⟨[], "host.conf", rfl, by decide⟩
  closed e he := by
    simp only [List.mem_cons, List.not_mem_nil, or_false] at he
    rcases he with rfl | rfl | rfl | rfl | rfl | rfl | rfl <;> simp

/-- Everybody may read the files. -/
def sharedDisk (target : List String) : Disk := ⟨sharedFiles target, fun _ => 0o644⟩

/-- A kernel that refuses nothing. -/
def ownerKernel : Kernel := ⟨fun _ => none, fun _ => none, fun _ => none, fun _ => none⟩

theorem sharedFiles_link {target : List String} {path : Path} {t : LinkTarget}
    (h : (sharedFiles target).get? path = some (.link t)) : path = ["bundles", "t1", "context", "shortcut"] ∧ t = ⟨true, target⟩ := by
  have hpath : path ≠ [] := by
    rintro rfl
    cases h
  simpa [sharedFiles] using (FileTree.get?_eq_some hpath).1 h

end AgentHub
