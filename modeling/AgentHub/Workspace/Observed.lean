import AgentHub.Lib.Tx
import AgentHub.Workspace.Transaction
/-!
# What a repository holds

The contents of a repository, apart from the machine that works on it, and what the walk and the Git commands report of
them. The walk runs on the contents as it runs on a machine; when it returns there, it has recorded every file and every
folder of the working tree.
-/

namespace AgentHub.Workspace

open Lib

/-- What a session repository holds: the working tree, and what its Git directory answers. -/
structure Repository where
  tree : Tree
  stat : String → FileStat
  content : String → Bytes
  /-- what a Git command that only reads prints -/
  answer : List String → CompletedProcess
  metadata : Bool → GitMetadataSeal

/-! ## The working tree -/

namespace Tree

/-- The paths of the entries below the folders of a folder, in the order of the walk. -/
def pathsBelow (path : String) : Tree → List String
  | .files _ => []
  | .folder name below rest =>
    below.names.map (join (join path name)) ++ below.pathsBelow (join path name) ++ rest.pathsBelow path

/-- The paths of the folders below the folders of a folder. -/
def foldersBelow (path : String) : Tree → List String
  | .files _ => []
  | .folder name below rest =>
    below.folders.map (join (join path name)) ++ below.foldersBelow (join path name) ++ rest.foldersBelow path

end Tree

namespace Repository

variable (H : Host) (r : Repository)

/-- The working tree: all but the Git directory. -/
def working : Tree := r.tree.prune fun name => name = ".git"

def paths : List String := r.working.names.map (join "") ++ r.working.pathsBelow ""

def directories : List String := r.working.folders.map (join "") ++ r.working.foldersBelow ""

def snapshot (path : String) : FileSnapshot := snapshotOf H path (r.content path) (r.stat path).mode

def sealed (path : String) : SealedFile := sealedOf H (r.content path) (r.stat path).mode

/-- Every file of the working tree, with its hash, size and mode. -/
def files : Dict FileSnapshot := r.paths.map fun path => (path, r.snapshot H path)

/-- The bytes of those files that are among `ignored`. -/
def contents (ignored : List String) : Dict SealedFile :=
  (r.paths.filter fun path => ignored.contains path).map fun path => (path, r.sealed H path)

/-- The walk over the contents. -/
def probe : Probe (Except Failure) where
  tree := .ok r.tree
  scandir _ := .ok true
  lstat path := .ok (r.stat path)
  openBinary path := .ok ⟨r.stat path, r.content path, r.stat path⟩
  assertPathIdentity _ _ := .ok ()

def git : GitProcess (Except Failure) := fun args _ => .ok (r.answer args)

/-- No other folder of the root has a name that folds to that of the Git directory. -/
def Plain : Prop := ∀ name ∈ r.tree.folders, foldsToGit name = true → name = ".git"

theorem Plain.working_eq {r : Repository} (h : r.Plain) : r.tree.prune foldsToGit = r.working := by
  apply Tree.prune_congr
  intro name hname
  rw [Bool.eq_iff_iff, decide_eq_true_eq]
  constructor
  · exact h name hname
  · rintro rfl
    decide +kernel

end Repository

/-- The workspace equals the baseline of the transaction: Git state and index, files with their modes, folders, and the
bytes of the ignored files. -/
structure WorkspaceTransaction.Restored (H : Host) (tx : WorkspaceTransaction) (r : Repository) : Prop where
  gitState : GitManager.state H r.git = .ok tx.baselineState
  index : GitManager.indexSha256 H r.git = .ok tx.baselineIndexSha256
  files : ∀ path, (r.files H).lookup path = tx.baselineInventory.files.lookup path
  directories : sorted r.directories = tx.baselineInventory.directories
  ignored : ∀ path, (r.contents H tx.baselineIgnored).lookup path = tx.baselineInventory.sealedFiles.lookup path

/-! ## What the walk records -/

section
variable {H : Host} {L : Limits} {r : Repository} {sealPaths : List String} {path name : String} {s s' : Scan}

/-- The walk went on from `s` to `s'` by recording `paths` and `folders`. -/
structure Records (H : Host) (r : Repository) (sealPaths paths folders : List String) (s s' : Scan) : Prop where
  files : s'.files = s.files ++ paths.map fun path => (path, r.snapshot H path)
  sealedFiles : s'.sealedFiles = s.sealedFiles ++
    (paths.filter fun path => sealPaths.contains path).map fun path => (path, r.sealed H path)
  directories : s'.directories = s.directories ++ folders

theorem Records.refl (s : Scan) : Records H r sealPaths [] [] s s := by
  constructor <;> simp

theorem Records.trans {paths paths' folders folders' : List String} {t : Scan}
    (h : Records H r sealPaths paths folders s s') (h' : Records H r sealPaths paths' folders' s' t) :
    Records H r sealPaths (paths ++ paths') (folders ++ folders') s t where
  files := by rw [h'.files, h.files, List.map_append, List.append_assoc]
  sealedFiles := by rw [h'.sealedFiles, h.sealedFiles, List.filter_append, List.map_append, List.append_assoc]
  directories := by rw [h'.directories, h.directories, List.append_assoc]

theorem relativePath_ok {relative result : String} (h : (relativePath H relative : Except Failure String) = .ok result) :
    result = relative := by
  unfold relativePath at h
  split at h
  · cases h
  · split at h
    · cases h
    · split at h
      · cases h
      · cases h
        rfl

theorem snapshotFile_ok {relative : String} {captureContent : Bool} {result : FileSnapshot × Option SealedFile}
    (h : snapshotFile H r.probe relative captureContent = .ok result) :
    result = (r.snapshot H relative, if captureContent then some (r.sealed H relative) else none) := by
  change (if _ then _ else _) = _ at h
  rw [if_neg (by simp)] at h
  cases h
  rfl

theorem scanFolder_records (h : scanFolder H r.probe path s name = .ok s') :
    Records H r sealPaths [] [join path name] s s' := by
  unfold scanFolder at h
  obtain ⟨_, -, h⟩ := Tx.bind_ok.1 h
  obtain ⟨relative, hrelative, h⟩ := Tx.bind_ok.1 h
  obtain rfl := relativePath_ok hrelative
  cases h
  constructor <;> simp

theorem scanContent_ok {relative : String} {content : Option SealedFile}
    (h : (scanContent L relative content s : Except Failure Scan) = .ok s') :
    s'.files = s.files ∧ s'.directories = s.directories ∧
      s'.sealedFiles = s.sealedFiles ++ content.toList.map fun content => (relative, content) := by
  unfold scanContent at h
  cases content with
  | none =>
    cases h
    simp
  | some content =>
    dsimp only at h
    split at h
    · cases h
    · cases h
      simp

theorem scanFile_records (h : scanFile H L r.probe sealPaths path s name = .ok s') :
    Records H r sealPaths [join path name] [] s s' := by
  unfold scanFile at h
  obtain ⟨_, -, h⟩ := Tx.bind_ok.1 h
  obtain ⟨relative, hrelative, h⟩ := Tx.bind_ok.1 h
  obtain rfl := relativePath_ok hrelative
  obtain ⟨result, hresult, h⟩ := Tx.bind_ok.1 h
  obtain rfl := snapshotFile_ok hresult
  obtain ⟨t, ht, h⟩ := Tx.bind_ok.1 h
  obtain ⟨hfiles, hdirectories, hsealed⟩ := scanContent_ok ht
  have hs' : s' = { t with totalBytes := t.totalBytes + (r.snapshot H (join path name)).sizeBytes } := by
    dsimp only at h
    split at h
    · cases h
    · split at h
      · cases h
      · cases h
        rfl
  subst hs'
  refine ⟨by simpa using hfiles, ?_, by simpa using hdirectories⟩
  rw [hsealed]
  simp only [List.filter_cons, List.filter_nil]
  cases sealPaths.contains (join path name) <;> rfl

/-- A loop over the entries of a folder records what each round records. -/
theorem foldlM_records {f : Scan → String → Except Failure Scan} {g k : String → List String}
    (hf : ∀ {name s s'}, f s name = .ok s' → Records H r sealPaths (g name) (k name) s s') (names : List String) :
    ∀ {s s' : Scan}, names.foldlM f s = .ok s' → Records H r sealPaths (names.flatMap g) (names.flatMap k) s s' := by
  induction names with
  | nil =>
    intro s s' h
    cases h
    exact .refl s
  | cons name names ih =>
    intro s s' h
    obtain ⟨t, ht, h⟩ := Tx.bind_ok.1 h
    exact (hf ht).trans (ih h)

theorem scanEntries_records {t : Tree} (h : scanEntries H L r.probe sealPaths path t s = .ok s') :
    Records H r sealPaths (t.names.map (join path)) (t.folders.map (join path)) s s' := by
  unfold scanEntries at h
  obtain ⟨u, hu, h⟩ := Tx.bind_ok.1 h
  have hfolders : Records H r sealPaths _ _ s u :=
    foldlM_records (g := fun _ => []) (k := fun name => [join path name]) (fun hname => scanFolder_records hname) _ hu
  have hfiles := foldlM_records (g := fun name => [join path name]) (k := fun _ => [])
    (fun hname => scanFile_records hname) _ h
  have hnil : ∀ names : List String, names.flatMap (fun _ => ([] : List String)) = [] := fun names =>
    List.flatMap_eq_nil_iff.2 fun _ _ => rfl
  rw [List.map_eq_flatMap, List.map_eq_flatMap]
  simpa only [hnil, List.nil_append, List.append_nil] using hfolders.trans hfiles

/-- Folder by folder: the entries of the folder, what is below it, and the folders after it. -/
theorem scanBelow_records {t : Tree} : ∀ {path : String} {s s' : Scan},
    scanBelow H L r.probe sealPaths path t s = .ok s' →
      Records H r sealPaths (t.pathsBelow path) (t.foldersBelow path) s s' := by
  induction t with
  | files names =>
    intro path s s' h
    cases h
    exact .refl s
  | folder name below rest ihbelow ihrest =>
    intro path s s' h
    unfold scanBelow at h
    obtain ⟨listed, hlisted, h⟩ := Tx.bind_ok.1 h
    cases hlisted
    rw [if_pos rfl] at h
    obtain ⟨u, hu, h⟩ := Tx.bind_ok.1 h
    obtain ⟨v, hv, h⟩ := Tx.bind_ok.1 h
    exact ((scanEntries_records hu).trans (ihbelow hv)).trans (ihrest h)

theorem scanInventory_ok {inventory : Inventory} (hplain : r.Plain)
    (h : scanInventory H L r.probe sealPaths = .ok inventory) :
    inventory.files = r.files H ∧ inventory.sealedFiles = r.contents H sealPaths ∧
      inventory.directories = sorted r.directories := by
  unfold scanInventory scanRoot at h
  obtain ⟨s, hs, h⟩ := Tx.bind_ok.1 h
  obtain ⟨t, ht, hs⟩ := Tx.bind_ok.1 hs
  cases ht
  obtain ⟨listed, hlisted, hs⟩ := Tx.bind_ok.1 hs
  cases hlisted
  rw [if_pos rfl, hplain.working_eq] at hs
  obtain ⟨u, hu, hs⟩ := Tx.bind_ok.1 hs
  have hrecords := (scanEntries_records hu).trans (scanBelow_records hs)
  cases h
  exact ⟨hrecords.files.trans (List.nil_append _), hrecords.sealedFiles.trans (List.nil_append _),
    congrArg sorted (hrecords.directories.trans (List.nil_append _))⟩

end

end AgentHub.Workspace
