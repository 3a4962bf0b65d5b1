import AgentHub.Context.Removal
import AgentHub.Lib.FileTree
/-!
# A POSIX host

The calls of a cleanup on a tree of files with modes. `lstat`, `unlink` and `rmdir` take the last name of a path as it is;
`exists`, `scandir` and `chmod` follow it where it leads. What the kernel refuses it refuses by the file that a call is about.
-/

namespace AgentHub

open Lib Workspace

/-- The files of a host and their modes. -/
structure Disk where
  tree : FileTree Bytes
  mode : Path → Nat

/-- What the kernel refuses, with the class of the error. -/
structure Kernel where
  scandir : Path → Option String
  chmod : Path → Option String
  unlink : Path → Option String
  removeDirectory : Path → Option String

namespace Disk

def setMode (d : Disk) (path : Path) (mode : Nat) : Disk := { d with mode := fun p => if p = path then mode else d.mode p }

def erase (d : Disk) (path : Path) : Disk := { d with tree := d.tree.erase path }

@[simp] theorem setMode_tree (d : Disk) (path : Path) (mode : Nat) : (d.setMode path mode).tree = d.tree := rfl

@[simp] theorem erase_tree (d : Disk) (path : Path) : (d.erase path).tree = d.tree.erase path := rfl

@[simp] theorem erase_mode (d : Disk) (path : Path) : (d.erase path).mode = d.mode := rfl

/-- What `os.scandir` says of a directory. -/
def entries (d : Disk) (dir : Path) : List DirEntry :=
  (d.tree.names dir).map fun name =>
    ⟨name, d.tree.leadsToDir (dir ++ [name]), d.tree.get? (dir ++ [name]) matches some (.link _)⟩

end Disk

/-- A call goes on, or the kernel refuses it. -/
def granted {α : Type} (refusal : Option String) (x : EStateM BundleFault Disk α) : EStateM BundleFault Disk α :=
  match refusal with
  | some kind => throw (.os kind "")
  | none => x

/-- A call on what a path is found to be. -/
def found {α : Type} (place : Option Path) (f : Path → EStateM BundleFault Disk α) : EStateM BundleFault Disk α :=
  match place with
  | some path => f path
  | none => throw (.os "FileNotFoundError" "")

/-- A POSIX host under a kernel, where directories are followed so deep. -/
def posix (K : Kernel) (bundleRoot : Path) (depth : Nat) : BundleDirs Disk where
  windows := false
  user := ""
  pathText path := "/" ++ "/".intercalate path
  pathExists path := fun d => .ok (d.tree.resolve path).isSome d
  lstatIsLink path := fun d => found (d.tree.locate path) (fun q =>
    match d.tree.get? q with
    | none => throw (.os "FileNotFoundError" "")
    | some (.link _) => pure true
    | some _ => pure false) d
  fileAttributes _ := pure none
  scandir path := fun d => found (d.tree.resolve path) (fun q =>
    match d.tree.get? q with
    | some .dir => granted (K.scandir q) (pure (d.entries q))
    | _ => throw (.os "NotADirectoryError" "")) d
  chmod path mode := fun d => found (d.tree.resolve path) (fun q => granted (K.chmod q) (set (d.setMode q mode))) d
  icacls _ _ := pure 0
  unlink path := fun d => found (d.tree.locate path) (fun q =>
    match d.tree.get? q with
    | none => throw (.os "FileNotFoundError" "")
    | some .dir => throw (.os "IsADirectoryError" "")
    | some _ => granted (K.unlink q) (set (d.erase q))) d
  removeDirectory path := fun d => found (d.tree.locate path) (fun q =>
    match d.tree.get? q with
    | none => throw (.os "FileNotFoundError" "")
    | some .dir =>
      if q = [] ∨ d.tree.names q ≠ [] then throw (.os "OSError" "") else granted (K.removeDirectory q) (set (d.erase q))
    | some _ => throw (.os "NotADirectoryError" "")) d
  bundleRoot := bundleRoot
  walkFuel := depth

namespace Disk

/-- The disk after `_restore_write`: the mode of what the path leads to, unless that is refused. -/
def restore (d : Disk) (K : Kernel) (path : Path) : Disk :=
  match d.tree.resolve path with
  | some q => if K.chmod q = none then d.setMode q FileHost.privateMode else d
  | none => d

/-! ## The calls on an entry of a directory -/

section
variable {K : Kernel} {root : Path} {depth : Nat} {d : Disk} {dir path : Path} {name : String}

@[simp] theorem restore_tree : (d.restore K path).tree = d.tree := by
  unfold restore
  split
  · split <;> rfl
  · rfl

theorem restore_mode {q : Path} : (d.restore K path).mode q =
    if d.tree.resolve path = some q ∧ K.chmod q = none then FileHost.privateMode else d.mode q := by
  unfold restore
  split
  · next q' hq =>
    rw [hq]
    by_cases heq : q = q'
    · subst heq
      split
      · next hK => simp [setMode, hK]
      · next hK => simp [hK]
    · have hne : ¬ (some q' = some q ∧ K.chmod q = none) := fun h => heq (Option.some.inj h.1).symm
      rw [if_neg hne]
      split
      · simp [setMode, heq]
      · rfl
  · next hq => simp [hq]

theorem restoreWrite_run : (posix K root depth).restoreWrite path d = .ok () (d.restore K path) := by
  change FileHost.suppress ((posix K root depth).chmod path FileHost.privateMode) d = _
  have hchmod : (posix K root depth).chmod path FileHost.privateMode d =
      found (d.tree.resolve path) (fun q => granted (K.chmod q) (set (d.setMode q FileHost.privateMode))) d := rfl
  unfold restore
  cases hq : d.tree.resolve path with
  | none =>
    rw [hq] at hchmod
    exact run_bind_ok (outcome_error hchmod)
  | some q =>
    rw [hq] at hchmod
    cases hK : K.chmod q with
    | some kind =>
      simp only [found, granted, hK] at hchmod
      dsimp only
      rw [if_neg (by simp [hK])]
      exact run_bind_ok (outcome_error hchmod)
    | none =>
      simp only [found, granted, hK] at hchmod
      dsimp only
      rw [if_pos hK]
      exact run_bind_ok (outcome_ok hchmod)

/-- A link is there under a path. -/
def isLinkAt (d : Disk) (path : Path) : Bool := d.tree.get? path matches some (.link _)

theorem isLinkAt_iff : d.isLinkAt path = true ↔ ∃ target, d.tree.get? path = some (.link target) := by
  unfold isLinkAt
  split
  · next target h => exact iff_of_true rfl ⟨target, h⟩
  · next h => exact iff_of_false Bool.false_ne_true fun ⟨target, htarget⟩ => h target htarget

section
variable (K root depth)

theorem lstat_run (hdir : d.tree.get? dir = some .dir) (hname : name ≠ "." ∧ name ≠ "..") :
    (posix K root depth).lstatIsLink (dir ++ [name]) d = .ok (d.isLinkAt (dir ++ [name])) d ∨
      d.isLinkAt (dir ++ [name]) = false ∧ ∃ kind, (posix K root depth).lstatIsLink (dir ++ [name]) d = .error (.os kind "") d := by
  change found (d.tree.locate (dir ++ [name])) _ d = _ ∨ _ ∧ ∃ kind, found (d.tree.locate (dir ++ [name])) _ d = _
  rw [FileTree.locate_eq hdir hname]
  unfold isLinkAt
  simp only [found]
  cases d.tree.get? (dir ++ [name]) with
  | none => exact .inr ⟨rfl, _, rfl⟩
  | some e => cases e <;> exact .inl rfl

theorem isReparse_run (hdir : d.tree.get? dir = some .dir) (hname : name ≠ "." ∧ name ≠ "..") :
    (posix K root depth).isReparseOrSymlink (dir ++ [name]) d = .ok (d.isLinkAt (dir ++ [name])) d := by
  rcases lstat_run K root depth hdir hname with hrun | ⟨hlink, kind, hrun⟩
  · refine (run_bind_ok (outcome_ok ((run_bind_ok hrun).trans (?_ : _ = EStateM.Result.ok (d.isLinkAt (dir ++ [name])) d)))).trans rfl
    cases d.isLinkAt (dir ++ [name]) <;> rfl
  · rw [hlink]
    exact (run_bind_ok (outcome_error (run_bind_error hrun))).trans rfl

theorem isLink_run (hdir : d.tree.get? dir = some .dir) (hname : name ≠ "." ∧ name ≠ "..") :
    (posix K root depth).isLink (dir ++ [name]) d = .ok (d.isLinkAt (dir ++ [name])) d := by
  rcases lstat_run K root depth hdir hname with hrun | ⟨hlink, kind, hrun⟩
  · exact (run_bind_ok (outcome_ok hrun)).trans rfl
  · rw [hlink]
    exact (run_bind_ok (outcome_error hrun)).trans rfl

/-- `unlink` takes what is no directory, or raises an `OSError`. -/
theorem unlink_run (hdir : d.tree.get? dir = some .dir) (hname : name ≠ "." ∧ name ≠ "..") :
    ((∃ e, d.tree.get? (dir ++ [name]) = some e ∧ e ≠ .dir) ∧
      (posix K root depth).unlink (dir ++ [name]) d = .ok () (d.erase (dir ++ [name]))) ∨
    ((K.unlink (dir ++ [name]) = none → d.tree.get? (dir ++ [name]) = none ∨ d.tree.get? (dir ++ [name]) = some .dir) ∧
      ∃ kind, (posix K root depth).unlink (dir ++ [name]) d = .error (.os kind "") d) := by
  change (_ ∧ found (d.tree.locate (dir ++ [name])) _ d = _) ∨ (_ ∧ ∃ kind, found (d.tree.locate (dir ++ [name])) _ d = _)
  rw [FileTree.locate_eq hdir hname]
  simp only [found]
  cases d.tree.get? (dir ++ [name]) with
  | none => exact .inr ⟨fun _ => .inl rfl, _, rfl⟩
  | some e =>
    cases hK : K.unlink (dir ++ [name]) with
    | some kind =>
      refine .inr ⟨fun h => (by cases h), ?_⟩
      cases e <;> exact ⟨_, rfl⟩
    | none =>
      cases e with
      | dir => exact .inr ⟨fun _ => .inr rfl, _, rfl⟩
      | file content => exact .inl ⟨⟨_, rfl, by simp⟩, rfl⟩
      | link target => exact .inl ⟨⟨_, rfl, by simp⟩, rfl⟩

/-- `rmdir` takes an empty directory, or raises an `OSError`. -/
theorem removeDirectory_run (hdir : d.tree.get? dir = some .dir) (hname : name ≠ "." ∧ name ≠ "..") :
    (d.tree.get? (dir ++ [name]) = some .dir ∧ d.tree.names (dir ++ [name]) = [] ∧
      (posix K root depth).removeDirectory (dir ++ [name]) d = .ok () (d.erase (dir ++ [name]))) ∨
    ((K.removeDirectory (dir ++ [name]) = none → d.tree.get? (dir ++ [name]) = some .dir → d.tree.names (dir ++ [name]) ≠ []) ∧
      ∃ kind, (posix K root depth).removeDirectory (dir ++ [name]) d = .error (.os kind "") d) := by
  change (_ ∧ _ ∧ found (d.tree.locate (dir ++ [name])) _ d = _) ∨ (_ ∧ ∃ kind, found (d.tree.locate (dir ++ [name])) _ d = _)
  rw [FileTree.locate_eq hdir hname]
  simp only [found]
  cases d.tree.get? (dir ++ [name]) with
  | none => exact .inr ⟨fun _ h => (by cases h), _, rfl⟩
  | some e =>
    cases e with
    | file content => exact .inr ⟨fun _ h => (by cases h), _, rfl⟩
    | link target => exact .inr ⟨fun _ h => (by cases h), _, rfl⟩
    | dir =>
      dsimp only
      by_cases hempty : d.tree.names (dir ++ [name]) = []
      · rw [if_neg (by simp [hempty])]
        cases hK : K.removeDirectory (dir ++ [name]) with
        | none => exact .inl ⟨rfl, hempty, rfl⟩
        | some kind => exact .inr ⟨fun h => (by cases h), kind, rfl⟩
      · rw [if_pos (.inr hempty)]
        exact .inr ⟨fun _ _ => hempty, _, rfl⟩

theorem listing_run (hdir : d.tree.get? dir = some .dir) :
    (posix K root depth).listing dir d = .ok (if K.scandir dir = none then some (d.entries dir) else none) d := by
  have hscan : (posix K root depth).scandir dir d = granted (K.scandir dir) (pure (d.entries dir)) d := by
    change found (d.tree.resolve dir) _ d = _
    rw [FileTree.resolve_dir hdir]
    simp only [found, hdir]
  cases hK : K.scandir dir with
  | some kind =>
    simp only [granted, hK] at hscan
    exact (run_bind_ok (outcome_error hscan)).trans rfl
  | none =>
    simp only [granted, hK] at hscan
    exact (run_bind_ok (outcome_ok hscan)).trans rfl

end

theorem mem_dirNames : name ∈ FileHost.dirNames (d.entries dir) ↔ name ∈ d.tree.names dir ∧ d.tree.leadsToDir (dir ++ [name]) = true := by
  simp [FileHost.dirNames, entries]

theorem mem_fileNames :
    name ∈ FileHost.fileNames (d.entries dir) ↔ name ∈ d.tree.names dir ∧ d.tree.leadsToDir (dir ++ [name]) = false := by
  simp [FileHost.fileNames, entries]

theorem map_names : (d.entries dir).map DirEntry.name = d.tree.names dir := by
  simp [entries, Function.comp_def]

/-- What leads to a directory is one, or a link. -/
theorem isLinkAt_of_leadsToDir (hleads : d.tree.leadsToDir (dir ++ [name]) = true)
    (hthere : d.tree.get? (dir ++ [name]) ≠ none) (hdir : d.tree.get? (dir ++ [name]) ≠ some .dir) :
    d.isLinkAt (dir ++ [name]) = true := by
  obtain ⟨e, he⟩ := Option.ne_none_iff_exists'.1 hthere
  by_contra hlink
  have hplain : ∀ target, e ≠ .link target := by
    rintro target rfl
    exact hlink (Disk.isLinkAt_iff.2 ⟨target, he⟩)
  obtain ⟨q, hq, hqdir⟩ := FileTree.leadsToDir_iff.1 hleads
  cases (FileTree.resolve_plain he hplain).symm.trans hq
  exact hdir hqdir

theorem get?_dir_iff : d.tree.get? (dir ++ [name]) = some .dir ↔
    (name ∈ d.tree.names dir ∧ d.tree.leadsToDir (dir ++ [name]) = true) ∧ d.isLinkAt (dir ++ [name]) = false := by
  constructor
  · intro h
    exact ⟨⟨FileTree.mem_names.2 (by simp [h]), FileTree.leadsToDir_iff.2 ⟨_, FileTree.resolve_dir h, h⟩⟩, by simp [isLinkAt, h]⟩
  · rintro ⟨⟨hname, hleads⟩, hlink⟩
    by_contra hdir
    cases hlink.symm.trans (isLinkAt_of_leadsToDir hleads (FileTree.mem_names.1 hname) hdir)

/-- The directories that a walk goes into. -/
theorem mem_below : name ∈ ((d.entries dir).filter fun e => e.isDir && !e.isSymlink).map DirEntry.name ↔
    d.tree.get? (dir ++ [name]) = some .dir := by
  rw [get?_dir_iff]
  simp [entries, isLinkAt, and_assoc]

theorem dirNames_nodup : (FileHost.dirNames (d.entries dir)).Nodup :=
  (map_names (d := d) ▸ d.tree.names_nodup dir).sublist (List.filter_sublist.map _)

theorem fileNames_nodup : (FileHost.fileNames (d.entries dir)).Nodup :=
  (map_names (d := d) ▸ d.tree.names_nodup dir).sublist (List.filter_sublist.map _)

end

end Disk

end AgentHub
