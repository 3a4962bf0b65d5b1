import Mathlib.Data.List.Sort
import AgentHub.Lib.Effect
import AgentHub.Lib.Utf8
/-!
# The files of a workspace

What the transaction records of the working tree, and the walk that records it. A walk is written over the calls it
makes (`Probe`), so that the same text runs on a machine, where every call may raise, and on the contents of a
repository, where it says what there is to be found.
-/

namespace AgentHub.Workspace

open Lib

/-- The exceptions that the code tells apart; `interrupt` is any other one. -/
inductive ErrorKind where
  | workspaceTransaction | workspaceNotClean | workspaceRestore | gitManager | secureFile | pathPolicyViolation
  | secretPolicyViolation | validation | valueError | keyError | osError | interrupt
  deriving DecidableEq, Repr

structure Failure where
  kind : ErrorKind
  message : String
  deriving DecidableEq, Repr

def Failure.transaction (message : String) : Failure := ⟨.workspaceTransaction, message⟩

def Failure.restore (message : String) : Failure := ⟨.workspaceRestore, message⟩

def Failure.git (message : String) : Failure := ⟨.gitManager, message⟩

/-- `isinstance(error, SecureFileError)`. -/
def Failure.isSecureFile (e : Failure) : Bool := e.kind = .secureFile

/-- `except (PathPolicyViolation, SecretPolicyViolation)`. -/
def Failure.isPolicyViolation (e : Failure) : Bool := e.kind = .pathPolicyViolation || e.kind = .secretPolicyViolation

/-- The functions of the standard library that look into a text or its bytes. -/
structure Host where
  /-- `sha256(content).hexdigest()` -/
  sha256 : Bytes → String
  /-- `value.decode("utf-8", errors="strict")`, `none` where it raises -/
  decode : Bytes → Option String
  /-- `value.decode("utf-8", errors="replace")` -/
  decodeReplacing : Bytes → String
  /-- whether `value.encode("utf-8", errors="strict")` returns -/
  encodes : String → Bool
  /-- `unicodedata.normalize("NFC", value)` -/
  nfc : String → String

def utf8 (text : String) : Bytes := text.toUTF8.data.toList

/-! ## Records -/

structure FileSnapshot where
  path : String
  sha256 : String
  sizeBytes : Nat
  mode : Nat
  binary : Bool
  deriving DecidableEq, Repr

structure SealedFile where
  content : Bytes
  sha256 : String
  sizeBytes : Nat
  mode : Nat
  deriving DecidableEq, Repr

structure FilePreimage where
  path : String
  sha256 : String
  sizeBytes : Nat
  mode : Nat
  content : Bytes
  baselineIgnored : Bool
  deriving DecidableEq, Repr

/-- A dictionary, in insertion order. -/
abbrev Dict (α : Type) : Type := List (String × α)

namespace Dict

variable {α : Type}

def keys (d : Dict α) : List String := d.map Prod.fst

def has (d : Dict α) (key : String) : Bool := (d.lookup key).isSome

/-- `d[key] = value`. -/
def set (d : Dict α) (key : String) (value : α) : Dict α :=
  if d.has key then d.map fun p => if p.1 = key then (key, value) else p else d ++ [(key, value)]

/-- Equal as dictionaries, whatever the insertion order. -/
def same [DecidableEq α] (d d' : Dict α) : Bool := (d.keys ++ d'.keys).all fun key => d.lookup key = d'.lookup key

theorem lookup_eq_none {d : Dict α} {key : String} (h : key ∉ d.keys) : d.lookup key = none := by
  rw [List.lookup_eq_none_iff]
  intro p hp
  have hne : key ≠ p.1 := fun heq => h (heq ▸ List.mem_map_of_mem hp)
  simpa using hne

theorem same_iff [DecidableEq α] {d d' : Dict α} : d.same d' = true ↔ ∀ key, d.lookup key = d'.lookup key := by
  unfold same
  rw [List.all_eq_true]
  constructor
  · intro h key
    by_cases hkey : key ∈ d.keys ++ d'.keys
    · exact of_decide_eq_true (h key hkey)
    · rw [List.mem_append, not_or] at hkey
      rw [lookup_eq_none hkey.1, lookup_eq_none hkey.2]
  · exact fun h key _ => decide_eq_true (h key)

end Dict

structure Inventory where
  files : Dict FileSnapshot
  directories : List String
  stateHash : String
  totalBytes : Nat
  sealedFiles : Dict SealedFile
  deriving Repr

/-- `==` of two inventories. -/
def Inventory.same (a b : Inventory) : Bool :=
  Dict.same a.files b.files && a.directories = b.directories && a.stateHash = b.stateHash &&
    a.totalBytes = b.totalBytes && Dict.same a.sealedFiles b.sealedFiles

theorem Inventory.same_iff {a b : Inventory} : a.same b = true ↔
    (∀ path, a.files.lookup path = b.files.lookup path) ∧ a.directories = b.directories ∧ a.stateHash = b.stateHash ∧
      a.totalBytes = b.totalBytes ∧ ∀ path, a.sealedFiles.lookup path = b.sealedFiles.lookup path := by
  simp only [Inventory.same, Bool.and_eq_true, decide_eq_true_eq, Dict.same_iff, and_assoc]

def sorted (paths : List String) : List String := paths.insertionSort (· ≤ ·)

/-- `sorted` of a set. -/
def sortedSet (paths : List String) : List String := sorted paths.dedup

/-! ## The state hash -/

/-- A character inside a JSON text, `ensure_ascii=False`. -/
def jsonCharacter (c : Char) : List Char :=
  let escape (code : Nat) : List Char := [Char.ofNat 92, Char.ofNat code]
  match c.toNat with
  | 34 => escape 34
  | 92 => escape 92
  | 8 => escape 98
  | 9 => escape 116
  | 10 => escape 110
  | 12 => escape 102
  | 13 => escape 114
  | code =>
    if code < 32 then escape 117 ++ ['0', '0'] ++ [Nat.digitChar (code / 16), Nat.digitChar (code % 16)] else [c]

def jsonText (text : String) : String :=
  let quote := String.ofList [Char.ofNat 34]
  quote ++ String.ofList (text.toList.flatMap jsonCharacter) ++ quote

def jsonRow (path : String) (snapshot : FileSnapshot) : String :=
  "[" ++ ",".intercalate [jsonText path, jsonText snapshot.sha256, toString snapshot.sizeBytes, toString snapshot.mode] ++ "]"

/-- `_inventory_hash`. -/
def inventoryHash (H : Host) (files : Dict FileSnapshot) : String :=
  let payload := files.insertionSort fun a b => a.1 ≤ b.1
  H.sha256 (utf8 ("[" ++ ",".intercalate (payload.map fun p => jsonRow p.1 p.2) ++ "]"))

/-! ## Folders -/

/-- What a folder lists: its folders with what each of them lists, then its other entries, in the order of the names. -/
inductive Tree where
  | files (names : List String)
  | folder (name : String) (below rest : Tree)
  deriving DecidableEq, Repr

namespace Tree

/-- The other entries of the folder. -/
def names : Tree → List String
  | .files names => names
  | .folder _ _ rest => rest.names

/-- The folders in the folder. -/
def folders : Tree → List String
  | .files _ => []
  | .folder name _ rest => name :: rest.folders

/-- The folder without those of its folders that `drop` names. -/
def prune (drop : String → Bool) : Tree → Tree
  | .files names => .files names
  | .folder name below rest => if drop name then rest.prune drop else .folder name below (rest.prune drop)

theorem prune_congr {drop drop' : String → Bool} {t : Tree} (h : ∀ name ∈ t.folders, drop name = drop' name) :
    t.prune drop = t.prune drop' := by
  induction t with
  | files names => rfl
  | folder name below rest _ ih =>
    have hrest := ih fun n hn => h n (List.mem_cons_of_mem _ hn)
    simp only [prune, h name List.mem_cons_self, hrest]

end Tree

/-- The path of an entry, from the root. -/
def join (path name : String) : String := if path = "" then name else path ++ "/" ++ name

/-! ## Looking at an entry -/

/-- What an entry is; a reparse point counts as a link. -/
inductive EntryKind where
  | regular | directory | link | other
  deriving DecidableEq, Repr

/-- `os.stat_result`, with the mode bits of `S_IMODE`. -/
structure FileStat where
  kind : EntryKind
  links : Nat
  mode : Nat
  device : Nat
  inode : Nat
  size : Nat
  mtime : Nat
  ctime : Nat
  deriving DecidableEq, Repr

/-- The fields that stay the same while a file is only read. -/
def FileStat.stable (s : FileStat) : List Nat := [s.device, s.inode, s.size, s.mtime, s.ctime]

/-- A file read through one handle, with its metadata before and after. -/
structure OpenedFile where
  before : FileStat
  content : Bytes
  after : FileStat
  deriving DecidableEq, Repr

/-- The calls of a walk over one root. -/
structure Probe (m : Type → Type) where
  /-- the entries that `os.walk` meets -/
  tree : m Tree
  /-- whether the folder can be listed: `os.walk` passes over one that cannot -/
  scandir : String → m Bool
  lstat : String → m FileStat
  /-- `open_verified_binary`, read to the end -/
  openBinary : String → m OpenedFile
  assertPathIdentity : String → FileStat → m Unit

structure Limits where
  maxChangedPaths : Nat
  maxPatchBytes : Nat
  maxCreatedBytes : Nat
  maxInventoryPaths : Nat
  maxInventoryBytes : Nat
  maxIgnoredPreimageBytes : Nat

/-- `_max_sealed_bytes`. -/
def Limits.maxSealedBytes (L : Limits) : Nat := max L.maxPatchBytes (max L.maxCreatedBytes L.maxIgnoredPreimageBytes)

section
variable {m : Type → Type} [Monad m] [MonadExceptOf Failure m] (H : Host) (L : Limits) (P : Probe m)

/-- `_assert_plain_entry`. -/
def assertPlainEntry (path : String) (expectDirectory : Bool) : m Unit := do
  let metadata ← P.lstat path
  if metadata.kind = .link then
    throw (.transaction "workspace contains a symlink or reparse point")
  else if expectDirectory then
    if metadata.kind ≠ .directory then throw (.transaction "workspace directory inventory is unstable") else pure ()
  else if metadata.kind ≠ .regular ∨ metadata.links > 1 then
    throw (.transaction "workspace files must be regular and have one hard link")
  else pure ()

/-- `_relative_path`. -/
def relativePath (relative : String) : m String :=
  if H.nfc relative ≠ relative then throw (.transaction "workspace path is not Unicode NFC normalized")
  else if ¬ H.encodes relative then throw (.transaction "workspace path is not stable UTF-8")
  else if relative.toList.any fun c => c.toNat < 32 || c.toNat = 127 then
    throw (.transaction "workspace path contains control characters")
  else pure relative

def snapshotOf (relative : String) (content : Bytes) (mode : Nat) : FileSnapshot :=
  ⟨relative, H.sha256 content, content.length, mode, (content.take 8192).contains 0⟩

def sealedOf (content : Bytes) (mode : Nat) : SealedFile := ⟨content, H.sha256 content, content.length, mode⟩

/-- `_snapshot_file`. -/
def snapshotFile (relative : String) (captureContent : Bool) : m (FileSnapshot × Option SealedFile) := do
  let file ← reraise Failure.isSecureFile
    (fun _ => .transaction ("workspace file could not be safely opened: " ++ relative)) (P.openBinary relative)
  if file.before.stable ≠ file.after.stable then
    throw (.transaction ("workspace file changed while inventory was read: " ++ relative))
  else do
    reraise Failure.isSecureFile
      (fun _ => .transaction ("workspace file was replaced while inventory was read: " ++ relative))
      (P.assertPathIdentity relative file.after)
    pure (snapshotOf H relative file.content file.after.mode,
      if captureContent then some (sealedOf H file.content file.after.mode) else none)

/-! ## The inventory -/

/-- What the walk has recorded so far. -/
structure Scan where
  files : Dict FileSnapshot
  sealedFiles : Dict SealedFile
  directories : List String
  totalBytes : Nat
  sealedBytes : Nat

/-- One round of the loop over `sorted(directory_names)`. -/
def scanFolder (path : String) (s : Scan) (name : String) : m Scan := do
  assertPlainEntry P (join path name) true
  let relative ← relativePath H (join path name)
  pure { s with directories := s.directories ++ [relative] }

/-- Record the bytes of a file that is to be sealed. -/
def scanContent (relative : String) (content : Option SealedFile) (s : Scan) : m Scan :=
  match content with
  | none => pure s
  | some content =>
    let s := { s with
      sealedFiles := s.sealedFiles ++ [(relative, content)], sealedBytes := s.sealedBytes + content.sizeBytes }
    if s.sealedBytes > L.maxSealedBytes then throw (.transaction "workspace sealed content byte limit exceeded")
    else pure s

/-- One round of the loop over `sorted(file_names)`. A folder holds a name once, so no path is recorded twice. -/
def scanFile (sealPaths : List String) (path : String) (s : Scan) (name : String) : m Scan := do
  assertPlainEntry P (join path name) false
  let relative ← relativePath H (join path name)
  let (snapshot, content) ← snapshotFile H P relative (sealPaths.contains relative)
  let s ← scanContent L relative content { s with files := s.files ++ [(relative, snapshot)] }
  let s := { s with totalBytes := s.totalBytes + snapshot.sizeBytes }
  if s.files.length > L.maxInventoryPaths then throw (.transaction "workspace inventory path limit exceeded")
  else if s.totalBytes > L.maxInventoryBytes then throw (.transaction "workspace inventory byte limit exceeded")
  else pure s

/-- What the walk does with the entries of one folder. -/
def scanEntries (sealPaths : List String) (path : String) (t : Tree) (s : Scan) : m Scan := do
  let s ← t.folders.foldlM (scanFolder H P path) s
  t.names.foldlM (scanFile H L P sealPaths path) s

/-- Walk the folders in a folder, each of them if it can be listed. -/
def scanBelow (sealPaths : List String) (path : String) : Tree → Scan → m Scan
  | .files _, s => pure s
  | .folder name below rest, s => do
    let listed ← P.scandir (join path name)
    if listed then do
      let s ← scanEntries H L P sealPaths (join path name) below s
      let s ← scanBelow sealPaths (join path name) below s
      scanBelow sealPaths path rest s
    else scanBelow sealPaths path rest s

/-- `name.casefold() == ".git"`: only ASCII letters fold to these. -/
def foldsToGit (name : String) : Bool := name.toList.map Char.toLower = ['.', 'g', 'i', 't']

/-- The walk from the root. It does not descend into the folders of the root that fold to `.git`. -/
def scanRoot (sealPaths : List String) : m Scan := do
  let t ← P.tree
  let listed ← P.scandir ""
  if listed then do
    let s ← scanEntries H L P sealPaths "" (t.prune foldsToGit) ⟨[], [], [], 0, 0⟩
    scanBelow H L P sealPaths "" (t.prune foldsToGit) s
  else pure ⟨[], [], [], 0, 0⟩

/-- `_scan_inventory`. -/
def scanInventory (sealPaths : List String) : m Inventory := do
  let s ← scanRoot H L P sealPaths
  pure ⟨s.files, sorted s.directories, inventoryHash H s.files, s.totalBytes, s.sealedFiles⟩

/-! ## The folders -/

def listFolder (path : String) (directories : List String) (name : String) : m (List String) := do
  assertPlainEntry P (join path name) true
  let relative ← relativePath H (join path name)
  let directories := directories ++ [relative]
  if directories.length > L.maxInventoryPaths then
    throw (.transaction "workspace directory inventory path limit exceeded")
  else pure directories

def listBelow (path : String) : Tree → List String → m (List String)
  | .files _, directories => pure directories
  | .folder name below rest, directories => do
    let listed ← P.scandir (join path name)
    if listed then do
      let directories ← below.folders.foldlM (listFolder H L P (join path name)) directories
      let directories ← listBelow (join path name) below directories
      listBelow path rest directories
    else listBelow path rest directories

/-- `_scan_directories`. -/
def scanDirectories : m (List String) := do
  let t ← P.tree
  let listed ← P.scandir ""
  if listed then do
    let directories ← (t.prune foldsToGit).folders.foldlM (listFolder H L P "") []
    let directories ← listBelow H L P "" (t.prune foldsToGit) directories
    pure (sorted directories)
  else pure []

end

end AgentHub.Workspace
