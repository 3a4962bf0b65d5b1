import AgentHub.Context.Posix
/-!
# What the first walk of a cleanup does

The first walk goes through the directories it can list and takes every entry of them that is no directory: it restores the
mode of what the entry leads to, and removes the entry where it can.
-/

namespace AgentHub

open Lib Workspace FileHost

/-- An entry is touched: it stays, or it goes where it leads to no directory. -/
inductive Touch (K : Kernel) (path : Path) (d : Disk) : Disk → Prop
  | kept (hentry : d.tree.get? path ≠ some .dir) : Touch K path d (d.restore K path)
  | gone (hentry : d.tree.get? path ≠ some .dir) (hleads : d.tree.leadsToDir path = false) :
      Touch K path d ((d.restore K path).erase path)

/-- Entries are touched one after the other. -/
inductive Touches (K : Kernel) : List Path → Disk → Disk → Prop
  | nil (d : Disk) : Touches K [] d d
  | cons {path : Path} {l : List Path} {d d₁ d' : Disk} (head : Touch K path d d₁) (tail : Touches K l d₁ d') :
      Touches K (path :: l) d d'

variable {K : Kernel} {path p q : Path} {d d' d₁ : Disk} {l l' : List Path}

/-! ## One entry -/

namespace Touch

theorem get?_eq (h : Touch K path d d') (hp : p ≠ path) : d'.tree.get? p = d.tree.get? p := by
  cases h with
  | kept => rw [Disk.restore_tree]
  | gone hentry =>
    have hroot : path ≠ [] := by
      rintro rfl
      exact hentry (FileTree.get?_nil _)
    rw [Disk.erase_tree, Disk.restore_tree, FileTree.get?_erase (FileTree.names_eq_nil hentry) hroot, if_neg hp]

theorem sub (h : Touch K path d d') : FileTree.Sub d'.tree d.tree := by
  intro p e he
  by_cases hp : p = path
  · subst hp
    cases h with
    | kept => rwa [Disk.restore_tree] at he
    | gone hentry =>
      have hroot : p ≠ [] := by
        rintro rfl
        exact hentry (FileTree.get?_nil _)
      rw [Disk.erase_tree, Disk.restore_tree, FileTree.get?_erase (FileTree.names_eq_nil hentry) hroot, if_pos rfl] at he
      cases he
  · rwa [h.get?_eq hp] at he

theorem get?_dir (h : Touch K path d d') (hp : d.tree.get? p = some .dir) : d'.tree.get? p = some .dir := by
  have hne : p ≠ path := by
    rintro rfl
    cases h with
    | kept hentry => exact hentry hp
    | gone hentry => exact hentry hp
  rw [h.get?_eq hne, hp]

theorem mode_eq (h : Touch K path d d') :
    d'.mode q = if d.tree.resolve path = some q ∧ K.chmod q = none then privateMode else d.mode q := by
  cases h with
  | kept => exact Disk.restore_mode
  | gone => exact Disk.restore_mode

/-- Where a path led it leads, or the entry led there and was no directory. -/
theorem resolve_eq (h : Touch K path d d') (hq : q ≠ path) (hp : d.tree.resolve p = some q) :
    d'.tree.resolve p = some q ∨ d.tree.resolve path = some q ∧ d.tree.get? q ≠ some .dir := by
  cases h with
  | kept => exact .inl (by rwa [Disk.restore_tree])
  | gone hentry hleads =>
    have hnodir : ∀ r, d.tree.resolve path = some r → d.tree.get? r ≠ some .dir := by
      intro r hr hdir
      rw [FileTree.leadsToDir_iff.2 ⟨r, hr, hdir⟩] at hleads
      cases hleads
    have hempty : d.tree.names path = [] := FileTree.names_eq_nil hentry
    rw [Disk.erase_tree, Disk.restore_tree, FileTree.erase, dif_pos hempty]
    rcases FileTree.resolve_remove hempty hentry hp with hkept | hq' | hpath | ⟨r, hr, hdir⟩
    · exact .inl hkept
    · exact absurd hq' hq
    · exact .inr ⟨hpath, hnodir q hpath⟩
    · exact absurd hdir (hnodir r hr)

/-- A link to a directory stays one. -/
theorem leadsToDir (h : Touch K path d d') (hp : d.tree.leadsToDir p = true) :
    d'.tree.leadsToDir p = true ∧ d'.tree.get? p = d.tree.get? p := by
  obtain ⟨q, hq, hdir⟩ := FileTree.leadsToDir_iff.1 hp
  constructor
  · have hne : q ≠ path := by
      rintro rfl
      cases h with
      | kept hentry => exact hentry hdir
      | gone hentry => exact hentry hdir
    rcases h.resolve_eq hne hq with hkept | ⟨-, hnodir⟩
    · exact FileTree.leadsToDir_iff.2 ⟨q, hkept, h.get?_dir hdir⟩
    · exact absurd hdir hnodir
  · by_cases heq : p = path
    · subst heq
      cases h with
      | kept => rw [Disk.restore_tree]
      | gone _ hleads => cases hp.symm.trans hleads
    · exact h.get?_eq heq

end Touch

/-! ## One after the other -/

namespace Touches

theorem append (h : Touches K l d d₁) (h' : Touches K l' d₁ d') : Touches K (l ++ l') d d' := by
  induction h with
  | nil => exact h'
  | cons head _ ih => exact .cons head (ih h')

theorem get?_eq (h : Touches K l d d') (hp : p ∉ l) : d'.tree.get? p = d.tree.get? p := by
  induction h with
  | nil => rfl
  | cons head _ ih =>
    obtain ⟨hne, hrest⟩ := List.ne_and_not_mem_of_not_mem_cons hp
    exact (ih hrest).trans (head.get?_eq hne)

theorem sub (h : Touches K l d d') : FileTree.Sub d'.tree d.tree := by
  induction h with
  | nil => exact fun _ _ he => he
  | cons head _ ih => exact fun p e he => head.sub p e (ih p e he)

theorem get?_dir (h : Touches K l d d') (hp : d.tree.get? p = some .dir) : d'.tree.get? p = some .dir := by
  induction h with
  | nil => exact hp
  | cons head _ ih => exact ih (head.get?_dir hp)

theorem get?_none (h : Touches K l d d') (hp : d.tree.get? p = none) : d'.tree.get? p = none := by
  refine Option.eq_none_iff_forall_not_mem.2 fun e he => ?_
  cases hp.symm.trans (h.sub p e he)

/-- A link to a directory outlives the walk. -/
theorem leadsToDir (h : Touches K l d d') (hp : d.tree.leadsToDir p = true) : d'.tree.get? p = d.tree.get? p := by
  induction h with
  | nil => rfl
  | cons head _ ih =>
    obtain ⟨hleads, hentry⟩ := head.leadsToDir hp
    exact (ih hleads).trans hentry

theorem leadsToDir_false (h : Touches K l d d') (hp : d.tree.leadsToDir p = false) : d'.tree.leadsToDir p = false := by
  refine Bool.eq_false_iff.2 fun hleads => ?_
  obtain ⟨q, hq, hdir⟩ := FileTree.leadsToDir_iff.1 hleads
  rw [FileTree.leadsToDir_iff.2 ⟨q, FileTree.resolve_mono h.sub hq, h.sub q _ hdir⟩] at hp
  cases hp

theorem mode_private (h : Touches K l d d') (hq : d.mode q = privateMode) : d'.mode q = privateMode := by
  induction h with
  | nil => exact hq
  | cons head _ ih =>
    refine ih ?_
    rw [head.mode_eq]
    split
    · rfl
    · exact hq

/-- No mode is changed that is not set through an entry. -/
theorem mode_eq (h : Touches K l d d')
    (hsafe : ∀ p ∈ l, d.tree.resolve p = some q → K.chmod q = none → d.mode q = privateMode) : d'.mode q = d.mode q := by
  induction h with
  | nil => rfl
  | @cons path l d d₁ d' head tail ih =>
    have hmode : d₁.mode q = d.mode q := by
      rw [head.mode_eq]
      split
      · next hset => exact (hsafe path List.mem_cons_self hset.1 hset.2).symm
      · rfl
    refine (ih fun p hp hleads hK => ?_).trans hmode
    rw [hmode]
    exact hsafe p (List.mem_cons_of_mem path hp) (FileTree.resolve_mono head.sub hleads) hK

/-- What an entry leads to has its mode set: through the entry, or before through one on the way. -/
theorem mode_set (h : Touches K l d d') (hp : p ∈ l) (hleads : d.tree.resolve p = some q) (hq : q ∉ l)
    (hK : K.chmod q = none) : d'.mode q = privateMode := by
  induction h with
  | nil => cases hp
  | @cons path l d d₁ d' head tail ih =>
    obtain ⟨hne, hrest⟩ := List.ne_and_not_mem_of_not_mem_cons hq
    have hset : d.tree.resolve path = some q → d'.mode q = privateMode := by
      intro hpath
      refine tail.mode_private ?_
      rw [head.mode_eq, if_pos ⟨hpath, hK⟩]
    rcases List.mem_cons.1 hp with rfl | hmem
    · exact hset hleads
    · rcases head.resolve_eq hne hleads with hkept | ⟨hpath, -⟩
      · exact ih hmem hkept hrest
      · exact hset hpath

end Touches

/-! ## The body of the walk -/

section
variable {root top : Path} {depth : Nat} {taskId name : String} {safe : List String} {r : CleanupResult}

/-- What follows `_restore_write`. -/
theorem restoring {x : EStateM BundleFault Disk Unit} {o : EStateM.Result BundleFault Disk Unit} (h : x (d.restore K path) = o) :
    (do (posix K root depth).restoreWrite path; x) d = o := (run_bind_ok Disk.restoreWrite_run).trans h

section
variable (K root depth taskId safe r)

/-- A link among the directories is touched, and stays. -/
theorem removeLink_run (hdir : d.tree.get? top = some .dir) (hname : name ≠ "." ∧ name ≠ "..") :
    ∃ r', (posix K root depth).removeLink taskId top (safe, r) name d =
        .ok (if d.isLinkAt (top ++ [name]) then safe else safe ++ [name], r')
          (if d.isLinkAt (top ++ [name]) then d.restore K (top ++ [name]) else d) ∧
      (d.isLinkAt (top ++ [name]) = false → r' = r) := by
  have hreparse := Disk.isReparse_run K root depth hdir hname
  cases hlink : d.isLinkAt (top ++ [name]) with
  | false =>
    rw [hlink] at hreparse
    exact ⟨r, (run_bind_ok hreparse).trans rfl, fun _ => rfl⟩
  | true =>
    rw [hlink] at hreparse
    obtain ⟨target, htarget⟩ := Disk.isLinkAt_iff.1 hlink
    have hremove := Disk.removeDirectory_run K root depth (d := d.restore K (top ++ [name]))
      (by rwa [Disk.restore_tree]) hname
    rw [Disk.restore_tree, htarget] at hremove
    rcases hremove with ⟨hisdir, -⟩ | ⟨-, kind, hremove⟩
    · cases hisdir
    · refine ⟨{ r with errors := r.errors ++ ["failed to remove junction: " ++ taskId ++ "/context/" ++ name ++ ": junction"] },
        (run_bind_ok hreparse).trans ?_, fun h => by cases h⟩
      exact run_bind_ok (outcome_error (restoring hremove))

/-- A file is touched; nothing is left of it where it may be removed. -/
theorem removeFile_run (hdir : d.tree.get? top = some .dir) (hname : name ≠ "." ∧ name ≠ "..")
    (hleads : d.tree.leadsToDir (top ++ [name]) = false) :
    ∃ r' d', (posix K root depth).removeFile taskId top r name d = .ok r' d' ∧ Touch K (top ++ [name]) d d' ∧
      (K.unlink (top ++ [name]) = none → d.tree.get? (top ++ [name]) ≠ none →
        r'.errors = r.errors ∧ d'.tree.get? (top ++ [name]) = none) := by
  have hentry := FileTree.get?_ne_dir hleads
  have hunlink := Disk.unlink_run K root depth (d := d.restore K (top ++ [name]))
    (by rwa [Disk.restore_tree]) hname
  rw [Disk.restore_tree] at hunlink
  rcases hunlink with ⟨-, hunlink⟩ | ⟨hthere, kind, hunlink⟩
  · refine ⟨{ r with removedFiles := r.removedFiles + 1 }, (d.restore K (top ++ [name])).erase (top ++ [name]), ?_,
      .gone hentry hleads, fun _ _ => ⟨rfl, ?_⟩⟩
    · exact run_bind_ok (outcome_ok (restoring hunlink))
    · rw [Disk.erase_tree, Disk.restore_tree, FileTree.get?_erase (FileTree.names_eq_nil hentry) (by simp), if_pos rfl]
  · refine ⟨{ r with errors := r.errors ++ ["failed to remove file: " ++ taskId ++ "/context/" ++ name ++ ": " ++ kind] },
      d.restore K (top ++ [name]), ?_, .kept hentry, fun hK hsome => ?_⟩
    · exact run_bind_ok (outcome_error (restoring hunlink))
    · rcases hthere hK with hnone | hisdir
      · exact absurd hnone hsome
      · exact absurd hisdir hentry

/-- Names that a tree has. -/
def Named (names : List String) : Prop := ∀ name ∈ names, name ≠ "." ∧ name ≠ ".."

theorem removeLinks_run {dirs : List String} : ∀ {d : Disk} (safe : List String) (r : CleanupResult),
    d.tree.get? top = some .dir → Named dirs → ∃ r' d',
      dirs.foldlM ((posix K root depth).removeLink taskId top) (safe, r) d =
        .ok (safe ++ dirs.filter (fun name => !d.isLinkAt (top ++ [name])), r') d' ∧
      Touches K ((dirs.filter fun name => d.isLinkAt (top ++ [name])).map fun name => top ++ [name]) d d' ∧
      d'.tree = d.tree ∧ ((∀ name ∈ dirs, d.isLinkAt (top ++ [name]) = false) → r'.errors = r.errors) := by
  induction dirs with
  | nil =>
    intro d safe r _ _
    refine ⟨r, d, ?_, .nil d, rfl, fun _ => rfl⟩
    rw [List.filter_nil, List.append_nil]
    rfl
  | cons name dirs ih =>
    intro d safe r hdir hnamed
    have hname := hnamed name List.mem_cons_self
    have hrest : Named dirs := fun n hn => hnamed n (List.mem_cons_of_mem name hn)
    obtain ⟨r₁, hhead, hsame⟩ := removeLink_run K root depth taskId safe r
      hdir hname
    rw [List.foldlM_cons]
    cases hlink : d.isLinkAt (top ++ [name]) with
    | false =>
      rw [hlink] at hhead
      obtain ⟨r', d', hrun, htouches, htree, hclean⟩ := ih (safe ++ [name]) r₁ hdir hrest
      refine ⟨r', d', (run_bind_ok hhead).trans (hrun.trans ?_), ?_, htree, fun hnone => ?_⟩
      · simp [hlink]
      · simpa [hlink] using htouches
      · rw [hclean fun n hn => hnone n (List.mem_cons_of_mem name hn), hsame hlink]
    | true =>
      rw [hlink] at hhead
      obtain ⟨target, htarget⟩ := Disk.isLinkAt_iff.1 hlink
      obtain ⟨r', d', hrun, htouches, htree, -⟩ := ih (d := d.restore K (top ++ [name])) safe r₁
        (by rwa [Disk.restore_tree]) hrest
      have hlinks : ∀ n, (d.restore K (top ++ [name])).isLinkAt (top ++ [n]) = d.isLinkAt (top ++ [n]) := by
        intro n
        unfold Disk.isLinkAt
        rw [Disk.restore_tree]
      simp only [hlinks] at hrun htouches
      refine ⟨r', d', (run_bind_ok hhead).trans (hrun.trans ?_), ?_, htree.trans Disk.restore_tree, fun hnone => ?_⟩
      · simp [hlink]
      · simpa [hlink] using Touches.cons (.kept (by simp [htarget])) htouches
      · cases hlink.symm.trans (hnone name List.mem_cons_self)

theorem removeFiles_run {files : List String} : ∀ {d : Disk} (r : CleanupResult),
    d.tree.get? top = some .dir → Named files → (∀ name ∈ files, d.tree.leadsToDir (top ++ [name]) = false) → ∃ r' d',
      files.foldlM ((posix K root depth).removeFile taskId top) r d = .ok r' d' ∧
      Touches K (files.map fun name => top ++ [name]) d d' ∧
      (files.Nodup → (∀ name ∈ files, K.unlink (top ++ [name]) = none ∧ d.tree.get? (top ++ [name]) ≠ none) →
        r'.errors = r.errors ∧ ∀ name ∈ files, d'.tree.get? (top ++ [name]) = none) := by
  induction files with
  | nil => exact fun {d} r _ _ _ => ⟨r, d, rfl, .nil d, fun _ _ => ⟨rfl, fun _ h => by cases h⟩⟩
  | cons name files ih =>
    intro d r hdir hnamed hleads
    obtain ⟨r₁, d₁, hhead, htouch, hgone⟩ := removeFile_run K root depth taskId r
      hdir (hnamed name List.mem_cons_self) (hleads name List.mem_cons_self)
    obtain ⟨r', d', hrun, htouches, hclean⟩ := ih r₁ (htouch.get?_dir hdir)
      (fun n hn => hnamed n (List.mem_cons_of_mem name hn))
      (fun n hn => (Touches.cons htouch (.nil d₁)).leadsToDir_false (hleads n (List.mem_cons_of_mem name hn)))
    refine ⟨r', d', (run_bind_ok hhead).trans hrun, .cons htouch htouches, fun hnd hfree => ?_⟩
    obtain ⟨hnew, hnd⟩ := List.nodup_cons.1 hnd
    obtain ⟨hK, hthere⟩ := hfree name List.mem_cons_self
    obtain ⟨herrors₁, hnone⟩ := hgone hK hthere
    obtain ⟨herrors, hnones⟩ := hclean hnd fun n hn => by
      have hne : top ++ [n] ≠ top ++ [name] := by
        intro heq
        obtain rfl := List.singleton_inj.1 (List.append_cancel_left heq)
        exact hnew hn
      rw [htouch.get?_eq hne]
      exact hfree n (List.mem_cons_of_mem name hn)
    refine ⟨herrors.trans herrors₁, fun n hn => ?_⟩
    rcases List.mem_cons.1 hn with rfl | hn
    · exact htouches.get?_none hnone
    · exact hnones n hn

/-- On the way to a directory from the top no listing is refused. -/
def Listed (K : Kernel) (t : FileTree Bytes) (top dir : Path) : Prop :=
  top <+: dir ∧ t.get? dir = some .dir ∧ ∀ path, top <+: path → path <+: dir → K.scandir path = none

/-- Every entry that is no directory may be removed, and none leads to a directory. -/
def Removable (K : Kernel) (t : FileTree Bytes) (top : Path) : Prop :=
  ∀ path, top <+: path → K.unlink path = none ∧ ∀ target, t.get? path = some (.link target) → t.leadsToDir path = false

theorem named_names {t : FileTree Bytes} : Named (t.names top) := fun _ h => FileTree.name_ne (FileTree.mem_names.1 h)

/-- The entries of a directory that are none are touched. -/
theorem removeEntries_run (hdir : d.tree.get? top = some .dir) : ∃ dirs l r' d',
    (posix K root depth).removeEntries taskId top (dirNames (d.entries top)) (fileNames (d.entries top)) r d = .ok (dirs, r') d' ∧
      (∀ name, name ∈ dirs ↔ d.tree.get? (top ++ [name]) = some .dir) ∧ Touches K l d d' ∧
      (∀ p, p ∈ l ↔ (∃ name, p = top ++ [name]) ∧ d.tree.get? p ≠ none ∧ d.tree.get? p ≠ some .dir) ∧
      (Removable K d.tree top → r'.errors = r.errors ∧ ∀ p ∈ l, d'.tree.get? p = none) := by
  have hdirs : Named (dirNames (d.entries top)) := fun n hn => named_names n (Disk.mem_dirNames.1 hn).1
  have hfiles : Named (fileNames (d.entries top)) := fun n hn => named_names n (Disk.mem_fileNames.1 hn).1
  obtain ⟨r₁, d₁, hrun₁, htouches₁, htree, hclean₁⟩ := removeLinks_run K root depth taskId
    [] r hdir hdirs
  obtain ⟨r', d', hrun, htouches, hclean⟩ := removeFiles_run K root depth taskId
    (d := d₁) r₁ (by rwa [htree]) hfiles fun n hn => by
      rw [htree]
      exact (Disk.mem_fileNames.1 hn).2
  refine ⟨_, _, r', d', (run_bind_ok hrun₁).trans ((run_bind_ok hrun).trans rfl), fun n => ?_, htouches₁.append htouches,
    fun p => ?_, fun hfree => ?_⟩
  · rw [List.nil_append, List.mem_filter, Disk.mem_dirNames, Disk.get?_dir_iff]
    simp
  · rw [List.mem_append, List.mem_map, List.mem_map]
    constructor
    · rintro (⟨n, hn, rfl⟩ | ⟨n, hn, rfl⟩)
      · obtain ⟨hmem, hlink⟩ := List.mem_filter.1 hn
        obtain ⟨target, htarget⟩ := Disk.isLinkAt_iff.1 hlink
        exact ⟨⟨n, rfl⟩, by simp [htarget], by simp [htarget]⟩
      · obtain ⟨hname, hleads⟩ := Disk.mem_fileNames.1 hn
        exact ⟨⟨n, rfl⟩, FileTree.mem_names.1 hname, FileTree.get?_ne_dir hleads⟩
    · rintro ⟨⟨n, rfl⟩, hthere, hnodir⟩
      have hname := FileTree.mem_names.2 hthere
      cases hleads : d.tree.leadsToDir (top ++ [n]) with
      | true =>
        have hlink := Disk.isLinkAt_of_leadsToDir hleads hthere hnodir
        exact .inl ⟨n, List.mem_filter.2 ⟨Disk.mem_dirNames.2 ⟨hname, hleads⟩, hlink⟩, rfl⟩
      | false => exact .inr ⟨n, Disk.mem_fileNames.2 ⟨hname, hleads⟩, rfl⟩
  · have hnolink : ∀ n ∈ dirNames (d.entries top), d.isLinkAt (top ++ [n]) = false := by
      intro n hn
      refine Bool.eq_false_iff.2 fun hlink => ?_
      obtain ⟨target, htarget⟩ := Disk.isLinkAt_iff.1 hlink
      cases (Disk.mem_dirNames.1 hn).2.symm.trans ((hfree _ (List.prefix_append top [n])).2 target htarget)
    have hnone : (dirNames (d.entries top)).filter (fun n => d.isLinkAt (top ++ [n])) = [] :=
      List.filter_eq_nil_iff.2 fun n hn => by simp [hnolink n hn]
    obtain ⟨herrors, hgone⟩ := hclean Disk.fileNames_nodup fun n hn =>
      ⟨(hfree _ (List.prefix_append top [n])).1, by
        rw [htree]
        exact FileTree.mem_names.1 (Disk.mem_fileNames.1 hn).1⟩
    refine ⟨herrors.trans (hclean₁ hnolink), fun p hp => ?_⟩
    rw [hnone, List.map_nil, List.nil_append, List.mem_map] at hp
    obtain ⟨n, hn, rfl⟩ := hp
    exact hgone n hn

end

/-! ## The walk -/

theorem listed_self (hdir : d.tree.get? top = some .dir) (hK : K.scandir top = none) : Listed K d.tree top top := by
  refine ⟨List.prefix_rfl, hdir, fun path htop hpath => ?_⟩
  rwa [← htop.eq_of_length (Nat.le_antisymm htop.length_le hpath.length_le)]

theorem Listed.down {t : FileTree Bytes} {dir : Path} (h : Listed K t (top ++ [name]) dir) (hK : K.scandir top = none) :
    Listed K t top dir := by
  obtain ⟨hpre, hdir, hscan⟩ := h
  refine ⟨(List.prefix_append top [name]).trans hpre, hdir, fun path htop hpath => ?_⟩
  rcases List.prefix_or_prefix_of_prefix hpath hpre with hup | hbelow
  · rcases List.prefix_concat_iff.1 hup with rfl | hpath'
    · exact hscan _ List.prefix_rfl hpath
    · rwa [← htop.eq_of_length (Nat.le_antisymm htop.length_le hpath'.length_le)]
  · exact hscan path hbelow hpath

/-- Below the top a listed directory is in an entry of it. -/
theorem Listed.cases {t : FileTree Bytes} {dir : Path} (h : Listed K t top dir) :
    dir = top ∨ ∃ name, t.get? (top ++ [name]) = some .dir ∧ Listed K t (top ++ [name]) dir := by
  obtain ⟨⟨rest, rfl⟩, hdir, hscan⟩ := h
  cases rest with
  | nil => exact .inl (List.append_nil top)
  | cons name rest =>
    have hpre : top ++ [name] <+: top ++ name :: rest := ⟨rest, by simp⟩
    refine .inr ⟨name, ?_, hpre, hdir, fun path htop hpath => hscan path ((List.prefix_append top [name]).trans htop) hpath⟩
    cases rest with
    | nil => exact hdir
    | cons part rest =>
      have hthere : t.get? (top ++ [name] ++ part :: rest) ≠ none := by
        rw [List.append_assoc, List.singleton_append, hdir]
        simp
      exact FileTree.get?_above hthere (by simp)

/-- What the walk from a directory does, with the entries it touched. -/
structure Walked (K : Kernel) (listed : Path → Prop) (free : Prop) (d d' : Disk) (r r' : CleanupResult) (l : List Path) : Prop where
  touches : Touches K l d d'
  sound : ∀ p ∈ l, d.tree.get? p ≠ none ∧ d.tree.get? p ≠ some .dir ∧ ∃ dir name, p = dir ++ [name] ∧ listed dir
  covers : ∀ dir name, listed dir → d.tree.get? (dir ++ [name]) ≠ none → d.tree.get? (dir ++ [name]) ≠ some .dir → dir ++ [name] ∈ l
  clean : free → r'.errors = r.errors ∧ ∀ p ∈ l, d'.tree.get? p = none

namespace Walked

variable {listed listed' listed₁ : Path → Prop} {free free₁ free₂ : Prop} {r₁ r' : CleanupResult}

/-- One walk after another, which starts from what the first has left. -/
theorem append (h : Walked K listed free₁ d d₁ r r₁ l) (h' : Walked K listed₁ free₂ d₁ d' r₁ r' l') (hfree₁ : free → free₁)
    (hfree₂ : free → free₂) (hlisted : ∀ dir, listed₁ dir ↔ listed' dir) :
    Walked K (fun dir => listed dir ∨ listed' dir) free d d' r r' (l ++ l') where
  touches := h.touches.append h'.touches
  sound p hp := by
    rcases List.mem_append.1 hp with hp | hp
    · obtain ⟨hthere, hnodir, dir, name, rfl, hdir⟩ := h.sound p hp
      exact ⟨hthere, hnodir, dir, name, rfl, .inl hdir⟩
    · obtain ⟨hthere, hnodir, dir, name, rfl, hdir⟩ := h'.sound p hp
      exact ⟨fun hnone => hthere (h.touches.get?_none hnone), fun hisdir => hnodir (h.touches.get?_dir hisdir), dir, name, rfl,
        .inr ((hlisted dir).1 hdir)⟩
  covers dir name hdir hthere hnodir := by
    rw [List.mem_append]
    rcases hdir with hdir | hdir
    · exact .inl (h.covers dir name hdir hthere hnodir)
    · by_cases hp : dir ++ [name] ∈ l
      · exact .inl hp
      · have hsame := h.touches.get?_eq hp
        exact .inr (h'.covers dir name ((hlisted dir).2 hdir) (by rwa [hsame]) (by rwa [hsame]))
  clean hall := by
    obtain ⟨herrors, hgone⟩ := h.clean (hfree₁ hall)
    obtain ⟨herrors', hgone'⟩ := h'.clean (hfree₂ hall)
    refine ⟨herrors'.trans herrors, fun p hp => ?_⟩
    rcases List.mem_append.1 hp with hp | hp
    · exact h'.touches.get?_none (hgone p hp)
    · exact hgone' p hp

theorem congr (h : Walked K listed free d d' r r' l) (hlisted : ∀ dir, listed' dir ↔ listed dir) :
    Walked K listed' free d d' r r' l where
  touches := h.touches
  sound p hp := by
    obtain ⟨hthere, hnodir, dir, name, rfl, hdir⟩ := h.sound p hp
    exact ⟨hthere, hnodir, dir, name, rfl, (hlisted dir).2 hdir⟩
  covers dir name hdir := h.covers dir name ((hlisted dir).1 hdir)
  clean := h.clean

end Walked

/-- Touching entries takes no directory out of the list. -/
theorem Touches.listed (h : Touches K l d d') {dir : Path} : Listed K d'.tree top dir ↔ Listed K d.tree top dir :=
  ⟨fun ⟨hpre, hdir, hscan⟩ => ⟨hpre, h.sub dir _ hdir, hscan⟩,
    fun ⟨hpre, hdir, hscan⟩ => ⟨hpre, h.get?_dir hdir, hscan⟩⟩

theorem Touches.removable (h : Touches K l d d') (hfree : Removable K d.tree top) : Removable K d'.tree top := by
  intro path htop
  obtain ⟨hK, hlink⟩ := hfree path htop
  exact ⟨hK, fun target htarget => h.leadsToDir_false (hlink target (h.sub path _ htarget))⟩

/-- Every directory of a tree is above a depth. -/
def Above (t : FileTree Bytes) (n : Nat) : Prop := ∀ path, t.get? path = some .dir → path.length < n

/-- The directories of a directory one after the other. -/
theorem walkDirs_run {n : Nat} {f : CleanupResult → String → EStateM BundleFault Disk CleanupResult}
    (hf : ∀ name d r, d.tree.get? top = some .dir → d.tree.get? (top ++ [name]) = some .dir → Above d.tree n → ∃ l r' d',
      f r name d = .ok r' d' ∧
        Walked K (Listed K d.tree (top ++ [name])) (Removable K d.tree (top ++ [name])) d d' r r' l) {dirs : List String} :
    ∀ {d r}, d.tree.get? top = some .dir → Above d.tree n → (∀ name ∈ dirs, d.tree.get? (top ++ [name]) = some .dir) →
      ∃ l r' d', dirs.foldlM f r d = .ok r' d' ∧
        Walked K (fun dir => ∃ name ∈ dirs, Listed K d.tree (top ++ [name]) dir) (Removable K d.tree top) d d' r r' l := by
  induction dirs with
  | nil =>
    intro d r _ _ _
    refine ⟨[], r, d, rfl, .nil d, ?_, ?_, fun _ => ⟨rfl, ?_⟩⟩
    · exact fun _ h => by cases h
    · rintro _ _ ⟨_, h, -⟩
      cases h
    · exact fun _ h => by cases h
  | cons name dirs ih =>
    intro d r hdir habove hdirs
    obtain ⟨l₁, r₁, d₁, hhead, hwalked₁⟩ := hf name d r hdir (hdirs name List.mem_cons_self) habove
    obtain ⟨l, r', d', hrun, hwalked⟩ := ih (d := d₁) (r := r₁) (hwalked₁.touches.get?_dir hdir)
      (fun path hpath => habove path (hwalked₁.touches.sub path _ hpath))
      (fun n hn => hwalked₁.touches.get?_dir (hdirs n (List.mem_cons_of_mem name hn)))
    have hboth : Walked K (fun dir => Listed K d.tree (top ++ [name]) dir ∨ ∃ n ∈ dirs, Listed K d.tree (top ++ [n]) dir)
        (Removable K d.tree top) d d' r r' (l₁ ++ l) := hwalked₁.append hwalked
      (fun hfree path hpath => hfree path ((List.prefix_append top [name]).trans hpath))
      hwalked₁.touches.removable (fun dir => by simp only [hwalked₁.touches.listed])
    exact ⟨l₁ ++ l, r', d', (run_bind_ok hhead).trans hrun, hboth.congr fun dir => by simp⟩

variable (K root depth taskId) in
/-- The first walk touches the entries that are no directory of every directory it lists. -/
theorem walkTopDown_run {fuel : Nat} : ∀ {top : Path} {d : Disk} (r : CleanupResult), d.tree.get? top = some .dir → Above d.tree (fuel + top.length) →
    ∃ l r' d', (posix K root depth).walkTopDown ((posix K root depth).removeEntries taskId) fuel top r d = .ok r' d' ∧
      Walked K (Listed K d.tree top) (Removable K d.tree top) d d' r r' l := by
  induction fuel with
  | zero =>
    intro top d r hdir habove
    exact absurd (habove top hdir) (by simp)
  | succ fuel ih =>
    intro top d r hdir habove
    have hlisting := Disk.listing_run K root depth hdir
    cases hK : K.scandir top with
    | some kind =>
      rw [hK, if_neg (by simp)] at hlisting
      have hnone : ∀ dir, ¬ Listed K d.tree top dir := fun dir hlisted => by
        cases hK.symm.trans (hlisted.2.2 top List.prefix_rfl hlisted.1)
      refine ⟨[], r, d, run_bind_ok hlisting, .nil d, ?_, ?_, fun _ => ⟨rfl, ?_⟩⟩
      · exact fun _ h => by cases h
      · exact fun dir _ hlisted => absurd hlisted (hnone dir)
      · exact fun _ h => by cases h
    | none =>
      rw [hK, if_pos rfl] at hlisting
      obtain ⟨dirs, l₁, r₁, d₁, hbody, hdirs, htouches, hl₁, hclean⟩ := removeEntries_run K root depth
        taskId r hdir
      have hhere : Walked K (· = top) (Removable K d.tree top) d d₁ r r₁ l₁ := by
        refine ⟨htouches, fun p hp => ?_, fun dir name hdir hthere hnodir => ?_, hclean⟩
        · obtain ⟨⟨name, rfl⟩, hthere, hnodir⟩ := (hl₁ p).1 hp
          exact ⟨hthere, hnodir, top, name, rfl, rfl⟩
        · subst hdir
          exact (hl₁ _).2 ⟨⟨name, rfl⟩, hthere, hnodir⟩
      obtain ⟨l, r', d', hrun, hwalked⟩ := walkDirs_run (K := K) (n := fuel + 1 + top.length)
        (f := fun r name => do
          if ← (posix K root depth).isLink (top ++ [name]) then pure r
          else (posix K root depth).walkTopDown ((posix K root depth).removeEntries taskId) fuel (top ++ [name]) r)
        (fun name d r htop hsub habove => by
          have hlink : (posix K root depth).isLink (top ++ [name]) d = .ok false d := by
            rw [Disk.isLink_run K root depth htop (FileTree.name_ne (FileTree.there hsub))]
            simp [Disk.isLinkAt, hsub]
          obtain ⟨l, r', d', hrun, hwalked⟩ := ih r hsub
            fun path hpath => by
              have hlen := habove path hpath
              rw [List.length_append, List.length_singleton]
              omega
          exact ⟨l, r', d', (run_bind_ok hlink).trans hrun, hwalked⟩)
        (r := r₁) (htouches.get?_dir hdir) (fun path hpath => habove path (htouches.sub path _ hpath))
        (fun name hname => htouches.get?_dir ((hdirs name).1 hname))
      have hboth : Walked K (fun dir => dir = top ∨ ∃ name ∈ dirs, Listed K d.tree (top ++ [name]) dir)
          (Removable K d.tree top) d d' r r' (l₁ ++ l) := hhere.append hwalked id htouches.removable
        (fun dir => by simp only [htouches.listed])
      refine ⟨l₁ ++ l, r', d', (run_bind_ok hlisting).trans ((run_bind_ok hbody).trans hrun), hboth.congr fun dir => ?_⟩
      constructor
      · intro hlisted
        rcases hlisted.cases with rfl | ⟨name, hsub, hbelow⟩
        · exact .inl rfl
        · exact .inr ⟨name, (hdirs name).2 hsub, hbelow⟩
      · rintro (rfl | ⟨name, -, hbelow⟩)
        · exact listed_self hdir hK
        · exact hbelow.down hK

end

end AgentHub
