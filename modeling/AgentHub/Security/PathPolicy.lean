import AgentHub.Lib.Tx
import AgentHub.Security.PathRules
/-!
# The path policy

Validation of the exact paths of a scope. `validateShape` judges the spelling alone; the other checks also look at the
disk, whose calls may raise. The policy accepts spellings it does not return: what it returns is the spelling the path
library writes, and the two are the same exactly for a path without idle segments (`validateShape_normalized_iff`).
-/

namespace AgentHub.Security

open Lib Workspace

def Failure.violation (message : String) : Failure := ⟨.pathPolicyViolation, message⟩

/-- What `lstat` tells of an entry. -/
structure Metadata where
  isLink : Bool
  /-- `attributes & reparse_flag` -/
  isReparse : Bool
  deriving DecidableEq, Repr

/-- The disk as the policy sees it. Paths are the lists of their parts. -/
structure Disk where
  /-- `path.lstat()`, `none` where it raises `FileNotFoundError` -/
  lstat : List String → Except Failure (Option Metadata)
  pathExists : List String → Except Failure Bool
  isSymlink : List String → Except Failure Bool
  isFile : List String → Except Failure Bool
  isDir : List String → Except Failure Bool
  /-- `path.resolve(strict=strict)` -/
  resolve : Bool → List String → Except Failure (List String)
  /-- `path.stat().st_nlink` -/
  linkCount : List String → Except Failure Nat

/-- `str.casefold`, which folds each character by itself. Slashes and dots fold to themselves, and no other character to
a text with one of them. -/
structure CaseFolding where
  fold : Char → Text
  fold_idle : ∀ c ∈ ['/', '.'], fold c = [c]
  of_mem_fold : ∀ c, ∀ d ∈ ['/', '.'], d ∈ fold c → c = d
  fold_ne_nil : ∀ c, fold c ≠ []

def CaseFolding.casefold (F : CaseFolding) (s : String) : String := String.ofList (s.toList.flatMap F.fold)

/-- The platform, where names may be compared without their case. -/
structure Platform where
  /-- `os.name == "nt"` -/
  nt : Bool
  folding : CaseFolding
  /-- `repr` of a text -/
  repr : String → String

structure ValidatedPath where
  relativePath : String
  absolutePath : List String
  found : Bool
  deriving DecidableEq, Repr

structure ValidatedScope where
  existingFiles : List String
  newFiles : List String
  deriving DecidableEq, Repr

structure PathPolicy where
  host : Host
  platform : Platform
  disk : Disk
  root : List String
  maxScopeFiles : Nat

namespace PathPolicy

/-! ## The spelling -/

/-- `comparison_key`. -/
def comparisonKey (P : PathPolicy) (path : String) : String :=
  let normalized := P.host.nfc path
  if P.platform.nt then P.platform.folding.casefold normalized else normalized

/-- The checks on one part of a path. -/
def validatePart (part : Text) : Except Failure Unit :=
  if part.getLast? = some ' ' ∨ part.getLast? = some '.' then
    .error (Failure.violation "path components cannot end with a dot or space")
  else if ':' ∈ part then .error (Failure.violation "NTFS alternate data streams are not allowed")
  else if dosReservedNames.contains (upper (part.takeWhile (· ≠ '.'))) then
    .error (Failure.violation ("reserved Windows path component: " ++ String.ofList part))
  else if isShortName part then
    .error (Failure.violation ("ambiguous Windows short-name component: " ++ String.ofList part))
  else .ok ()

/-- The checks on the text as a whole. -/
def validateText (P : PathPolicy) (candidate : String) : Except Failure Unit :=
  let text := candidate.toList
  if text = [] ∨ 1024 < text.length then .error (Failure.violation "path length must be within 1..1024 characters")
  else if ¬ P.host.encodes candidate then .error (Failure.violation "path must have a stable UTF-8 encoding")
  else if P.host.nfc candidate ≠ candidate then .error (Failure.violation "path must already be Unicode NFC normalized")
  else if text.any isControl then .error (Failure.violation "path contains a control character")
  else if backslash ∈ text then .error (Failure.violation "repo-relative paths must use '/' separators")
  else if globChars.any (text.contains ·) then .error (Failure.violation "glob patterns are not allowed")
  else if hasWindowsDriveOrRoot text ∨ PurePath.isAbsolute text ∨ (texts ["//"]).any (·.isPrefixOf text) then
    .error (Failure.violation "absolute, drive, UNC, and device paths are not allowed")
  else .ok ()

/-- The checks on the names among the parts. -/
def validateNames (P : PathPolicy) (candidate : String) (parts : List Text) (allowSensitive allowControl : Bool) :
    Except Failure Unit :=
  let lowered := parts.map casefold
  let control := forbiddenBasenames.contains (lowered.getLastD [])
  if lowered.any (forbiddenComponents.contains ·) then
    .error (Failure.violation "Git/runtime metadata and SSH paths are forbidden")
  else if !allowSensitive && isRestrictedRelativePath P.host candidate then
    if control then .error (Failure.violation "Git/Agent control files are forbidden")
    else .error (Failure.violation "sensitive file paths are forbidden")
  else if !allowControl && control then .error (Failure.violation "Git/Agent control files are forbidden")
  else .ok ()

/-- `_validate_shape`. -/
def validateShape (P : PathPolicy) (candidate : String) (allowSensitive allowControl : Bool) :
    Except Failure (String × List String) := do
  P.validateText candidate
  let parts := PurePath.parts candidate.toList
  if parts = [] ∨ parts.any isRelativeSegment then
    throw (Failure.violation "path must be canonical and cannot contain '.' or '..'")
  parts.forM validatePart
  P.validateNames candidate parts allowSensitive allowControl
  pure (String.ofList (PurePath.ofNames parts), parts.map String.ofList)

/-! ## The disk -/

/-- `_assert_not_link_or_reparse`. -/
def assertNotLinkOrReparse (P : PathPolicy) (path : List String) (label : String) : Except Failure Unit := do
  match ← P.disk.lstat path with
  | none => pure ()
  | some metadata =>
    if metadata.isLink then throw (Failure.violation ("symlink paths are not allowed: " ++ label))
    if metadata.isReparse then throw (Failure.violation ("reparse/junction paths are not allowed: " ++ label))

/-- `path.exists() or path.is_symlink()` -/
def hasEntry (P : PathPolicy) (path : List String) : Except Failure Bool := do
  if ← P.disk.pathExists path then pure true else P.disk.isSymlink path

/-- The loop of `_assert_ancestors_safe` over the parts below `current`. -/
def assertPartsSafe (P : PathPolicy) (label : String) : List String → List String → Except Failure Unit
  | _, [] => pure ()
  | current, part :: rest => do
    let current := current ++ [part]
    if ← P.hasEntry current then P.assertNotLinkOrReparse current label
    P.assertPartsSafe label current rest

/-- `_assert_ancestors_safe` of the target with these parts below the root. -/
def assertAncestorsSafe (P : PathPolicy) (parts : List String) (includeTarget : Bool) : Except Failure Unit := do
  P.assertNotLinkOrReparse P.root "repository root"
  P.assertPartsSafe ("/".intercalate parts) P.root (if includeTarget then parts else parts.dropLast)

/-- `_assert_contained`. -/
def assertContained (P : PathPolicy) (target : List String) : Except Failure Unit :=
  if P.root.isPrefixOf target then .ok () else .error (Failure.violation "path is outside the repository")

/-- The nearest folder above a new file that exists, or the root. The parts below the root come nearest first. -/
def nearestFolder (P : PathPolicy) : List String → Except Failure (List String)
  | [] => do
    let _ ← P.disk.pathExists P.root
    pure P.root
  | part :: above => do
    let found ← P.disk.pathExists (P.root ++ (part :: above).reverse)
    if found then pure (P.root ++ (part :: above).reverse) else P.nearestFolder above

/-- `validate_existing`. -/
def validateExisting (P : PathPolicy) (candidate : String) : Except Failure ValidatedPath := do
  let (normalized, parts) ← P.validateShape candidate false false
  let target := P.root ++ parts
  P.assertAncestorsSafe parts true
  if ¬ (← P.disk.pathExists target) then throw (Failure.violation ("existing path does not exist: " ++ normalized))
  if ¬ (← P.disk.isFile target) then
    throw (Failure.violation ("existing scope must name a regular file: " ++ normalized))
  P.assertContained (← P.disk.resolve true target)
  if 1 < (← P.disk.linkCount target) then
    throw (Failure.violation ("hard-linked files are not allowed: " ++ normalized))
  pure ⟨normalized, target, true⟩

/-- `validate_new`. -/
def validateNew (P : PathPolicy) (candidate : String) : Except Failure ValidatedPath := do
  let (normalized, parts) ← P.validateShape candidate false false
  let target := P.root ++ parts
  P.assertAncestorsSafe parts false
  if ← P.hasEntry target then throw (Failure.violation ("new path already exists: " ++ normalized))
  let nearest ← P.nearestFolder parts.dropLast.reverse
  if ¬ (← P.disk.isDir nearest) then
    throw (Failure.violation ("new path has no safe directory ancestor: " ++ normalized))
  P.assertNotLinkOrReparse nearest normalized
  P.assertContained (← P.disk.resolve true nearest)
  pure ⟨normalized, target, false⟩

/-- `validate_captured_path`. -/
def validateCapturedPath (P : PathPolicy) (candidate : String) (mustExist : Bool) : Except Failure ValidatedPath := do
  if mustExist then P.validateExisting candidate
  else
    let (normalized, parts) ← P.validateShape candidate false false
    let target := P.root ++ parts
    P.assertAncestorsSafe parts (← P.disk.pathExists target)
    P.assertContained (← P.disk.resolve false target)
    pure ⟨normalized, target, ← P.disk.pathExists target⟩

/-- `validate_cleanup_path`. -/
def validateCleanupPath (P : PathPolicy) (candidate : String) : Except Failure ValidatedPath := do
  let (normalized, parts) ← P.validateShape candidate true true
  let target := P.root ++ parts
  P.assertAncestorsSafe parts (← P.hasEntry target)
  P.assertContained (← P.disk.resolve false target)
  pure ⟨normalized, target, ← P.disk.pathExists target⟩

/-! ## The scope -/

/-- `register`: the paths seen so far, by their keys. -/
def register (P : PathPolicy) (seen : List (String × String)) (path : String) : Except Failure (List (String × String)) :=
  match seen.lookup (P.comparisonKey path) with
  | some previous =>
    .error (Failure.violation
      ("scope contains duplicate or case/Unicode-equivalent paths: " ++ P.platform.repr previous ++ ", " ++
        P.platform.repr path))
  | none => .ok (seen ++ [(P.comparisonKey path, path)])

/-- The loop over the existing files. -/
def validateExistingFiles (P : PathPolicy) :
    List String → List (String × String) → Except Failure (List String × List (String × String))
  | [], seen => pure ([], seen)
  | candidate :: rest, seen => do
    let validated ← P.validateExisting candidate
    let seen ← P.register seen validated.relativePath
    let (existing, seen) ← P.validateExistingFiles rest seen
    pure (validated.relativePath :: existing, seen)

/-- The loop over the new files. -/
def validateNewFiles (P : PathPolicy) : List String → List (String × String) → Except Failure (List String)
  | [], _ => pure []
  | candidate :: rest, seen => do
    let (normalized, _) ← P.validateShape candidate false false
    let seen ← P.register seen normalized
    let validated ← P.validateNew normalized
    let new ← P.validateNewFiles rest seen
    pure (validated.relativePath :: new)

/-- `sorted(paths, key=self.comparison_key)`. -/
def sortedByKey (P : PathPolicy) (paths : List String) : List String :=
  paths.insertionSort fun a b => P.comparisonKey a ≤ P.comparisonKey b

/-- `validate_scope`. -/
def validateScope (P : PathPolicy) (existingFiles newFiles : List String) : Except Failure ValidatedScope := do
  if P.maxScopeFiles < existingFiles.length + newFiles.length then
    throw (Failure.violation ("effective scope exceeds " ++ toString P.maxScopeFiles ++ " exact files"))
  let (existing, seen) ← P.validateExistingFiles existingFiles []
  let new ← P.validateNewFiles newFiles seen
  pure ⟨P.sortedByKey existing, P.sortedByKey new⟩

/-! ## What an accepted spelling is -/

variable {P : PathPolicy} {candidate normalized : String} {parts : List String} {allowSensitive allowControl : Bool}

theorem validateText_ok (h : P.validateText candidate = .ok ()) :
    P.host.nfc candidate = candidate ∧ PurePath.isAbsolute candidate.toList = false := by
  simp only [validateText] at h
  split at h
  · cases h
  split at h
  · cases h
  split at h
  · cases h
  rename_i hn
  iterate 3
    split at h
    · cases h
  split at h
  · cases h
  rename_i ha
  simp only [not_or, Bool.not_eq_true] at ha
  exact ⟨not_not.1 hn, ha.2.1⟩

/-- What `_validate_shape` returns: the names of the path, and the spelling the library writes for them. -/
theorem validateShape_ok (h : P.validateShape candidate allowSensitive allowControl = .ok (normalized, parts)) :
    P.host.nfc candidate = candidate ∧ PurePath.names candidate.toList ≠ [] ∧
      normalized = String.ofList (PurePath.ofNames (PurePath.names candidate.toList)) ∧
      parts = (PurePath.names candidate.toList).map String.ofList := by
  simp only [validateShape, Tx.bind_ok] at h
  obtain ⟨_, ht, h⟩ := h
  obtain ⟨hn, ha⟩ := validateText_ok ht
  rw [PurePath.parts_of_relative ha] at h
  split at h
  · simp at h
  rename_i hp
  simp only [Tx.bind_ok, Tx.pure_ok, Prod.mk.injEq] at h
  obtain ⟨_, -, _, -, hnormalized, hparts⟩ := h
  exact ⟨hn, fun h => hp (.inl h), hnormalized, hparts⟩

theorem validateExisting_shape {v : ValidatedPath} (h : P.validateExisting candidate = .ok v) :
    ∃ parts, P.validateShape candidate false false = .ok (v.relativePath, parts) := by
  simp only [validateExisting, Tx.bind_ok] at h
  obtain ⟨⟨normalized, parts⟩, hs, _, -, _, -, h⟩ := h
  refine ⟨parts, ?_⟩
  split at h
  · cases h
  obtain ⟨_, -, h⟩ := Tx.bind_ok.1 h
  split at h
  · cases h
  simp only [Tx.bind_ok] at h
  obtain ⟨_, -, _, -, _, -, h⟩ := h
  split at h
  · cases h
  · rw [← Except.ok.inj h]
    exact hs

theorem validateNew_shape {v : ValidatedPath} (h : P.validateNew candidate = .ok v) :
    ∃ parts, P.validateShape candidate false false = .ok (v.relativePath, parts) := by
  simp only [validateNew, Tx.bind_ok] at h
  obtain ⟨⟨normalized, parts⟩, hs, _, -, _, -, h⟩ := h
  refine ⟨parts, ?_⟩
  split at h
  · cases h
  simp only [Tx.bind_ok] at h
  obtain ⟨_, -, _, -, h⟩ := h
  split at h
  · cases h
  simp only [Tx.bind_ok, Tx.pure_ok] at h
  obtain ⟨_, -, _, -, _, -, h⟩ := h
  rw [h]
  exact hs

/-- A captured path that is accepted is in normal form. -/
theorem validateCapturedPath_nfc {mustExist : Bool} {v : ValidatedPath}
    (h : P.validateCapturedPath candidate mustExist = .ok v) : P.host.nfc candidate = candidate := by
  simp only [validateCapturedPath] at h
  split at h
  · obtain ⟨_, hs⟩ := validateExisting_shape h
    exact (validateShape_ok hs).1
  · simp only [Tx.bind_ok] at h
    obtain ⟨_, hs, -⟩ := h
    exact (validateShape_ok hs).1

/-- A new file of a validated scope is a canonical spelling in normal form: it was validated once more. -/
theorem validateNewFiles_canonical {files new : List String} {seen : List (String × String)}
    (h : P.validateNewFiles files seen = .ok new) :
    ∀ path ∈ new, P.host.nfc path = path ∧ PurePath.Canonical path.toList := by
  induction files generalizing seen new with
  | nil =>
    rw [← Except.ok.inj h]
    simp
  | cons candidate files ih =>
    simp only [validateNewFiles, Tx.bind_ok, Tx.pure_ok] at h
    obtain ⟨⟨normalized, parts⟩, hs, seen', -, v, hv, rest, hrest, rfl⟩ := h
    refine List.forall_mem_cons.2 ⟨?_, ih hrest⟩
    obtain ⟨-, hne, hn, -⟩ := validateShape_ok hs
    obtain ⟨_, hs'⟩ := validateNew_shape hv
    obtain ⟨hnfc, -, hn', -⟩ := validateShape_ok hs'
    have htext : normalized.toList = PurePath.ofNames (PurePath.names candidate.toList) := by rw [hn, String.toList_ofList]
    have hsame : v.relativePath = normalized := by rw [hn', htext, PurePath.names_ofNames_names, hn]
    rw [hsame]
    exact ⟨hnfc, htext ▸ PurePath.canonical_ofNames_names hne⟩

theorem mem_sortedByKey {paths : List String} {path : String} : path ∈ P.sortedByKey paths ↔ path ∈ paths :=
  (List.perm_insertionSort _ paths).mem_iff

theorem validateScope_new {existingFiles newFiles : List String} {scope : ValidatedScope}
    (h : P.validateScope existingFiles newFiles = .ok scope) :
    ∀ path ∈ scope.newFiles, P.host.nfc path = path ∧ PurePath.Canonical path.toList := by
  simp only [validateScope] at h
  split at h
  · cases h
  simp only [Tx.bind_ok, Tx.pure_ok] at h
  obtain ⟨_, -, new, hnew, rfl⟩ := h
  intro path hp
  exact validateNewFiles_canonical hnew path (mem_sortedByKey.1 hp)

/-! ## Keys -/

theorem CaseFolding.canonical_casefold_iff (F : CaseFolding) (path : String) :
    PurePath.Canonical (F.casefold path).toList ↔ PurePath.Canonical path.toList := by
  rw [CaseFolding.casefold, String.toList_ofList]
  exact PurePath.canonical_flatMap_iff (F.fold_idle _ (by simp)) (fun c => F.of_mem_fold c _ (by simp))
    (F.fold_idle _ (by simp)) (fun c => F.of_mem_fold c _ (by simp)) F.fold_ne_nil path.toList

/-- A path in normal form is canonical when its key is that of a canonical path in normal form. -/
theorem canonical_of_comparisonKey {path other : String} (h : P.comparisonKey path = P.comparisonKey other)
    (hp : P.host.nfc path = path) (ho : P.host.nfc other = other) (hc : PurePath.Canonical other.toList) :
    PurePath.Canonical path.toList := by
  simp only [comparisonKey, hp, ho] at h
  split at h
  · exact (CaseFolding.canonical_casefold_iff _ path).1 (h ▸ (CaseFolding.canonical_casefold_iff _ other).2 hc)
  · exact h ▸ hc

/-! ## Canonical spellings -/

theorem ofList_map_injective : Function.Injective (List.map String.ofList) :=
  List.map_injective_iff.2 fun a b h => by simpa using congrArg String.toList h

/-- An accepted spelling is the one the policy returns exactly when no segment of it is empty or a dot, and one file has
one such spelling. -/
theorem validateShape_normalized_iff
    (h : P.validateShape candidate allowSensitive allowControl = .ok (normalized, parts)) :
    (normalized = candidate ↔ PurePath.Canonical candidate.toList) ∧
      ∀ other normalized' sensitive control, P.validateShape other sensitive control = .ok (normalized', parts) →
        PurePath.Canonical candidate.toList → PurePath.Canonical other.toList → other = candidate := by
  obtain ⟨-, hne, hnormalized, hparts⟩ := validateShape_ok h
  subst hnormalized
  constructor
  · rw [← PurePath.ofNames_names_iff hne]
    constructor
    · intro he
      simpa using congrArg String.toList he
    · intro he
      rw [he, String.ofList_toList]
  · intro other normalized' sensitive control h' hc hc'
    obtain ⟨-, -, -, hp⟩ := validateShape_ok h'
    have hnames : PurePath.names other.toList = PurePath.names candidate.toList := ofList_map_injective (hp.symm.trans hparts)
    exact String.toList_inj.1 (hc'.eq_of_names hc hnames)

/-- A host whose texts are ASCII. -/
def asciiHost : Host := ⟨fun _ => "", fun _ => none, fun _ => "", fun _ => true, id⟩

/-- A disk on which nothing exists. -/
def emptyDisk : Disk where
  lstat _ := .ok none
  pathExists _ := .ok false
  isSymlink _ := .ok false
  isFile _ := .ok false
  isDir _ := .ok false
  resolve _ path := .ok path
  linkCount _ := .ok 1

/-- The folding of texts without capitals. -/
def plainFolding : CaseFolding where
  fold c := [c]
  fold_idle _ _ := rfl
  of_mem_fold _ _ _ h := (List.mem_singleton.1 h).symm
  fold_ne_nil := by simp

def samplePolicy : PathPolicy := ⟨asciiHost, ⟨false, plainFolding, id⟩, emptyDisk, ["repo"], 100⟩

theorem validateShape_sample :
    ("src/app.py" = "./src//app.py" ↔ PurePath.Canonical "./src//app.py".toList) ∧ "src/app.py" = "src/app.py" := by
  have hd : samplePolicy.validateShape "./src//app.py" false false = .ok ("src/app.py", ["src", "app.py"]) := by
    decide +kernel
  have hc : samplePolicy.validateShape "src/app.py" false false = .ok ("src/app.py", ["src", "app.py"]) := by
    decide +kernel
  exact ⟨(validateShape_normalized_iff hd).1,
    (validateShape_normalized_iff hc).2 "src/app.py" "src/app.py" false false hc (by decide) (by decide)⟩

/-- The policy accepts two spellings of one file and returns neither of them for the other: it returns one for both. -/
theorem validateShape_idle_segments :
    ¬ (∀ (P : PathPolicy) (candidate normalized : String) (parts : List String),
      P.validateShape candidate false false = .ok (normalized, parts) →
        normalized = candidate ∧ ∀ other normalized', P.validateShape other false false = .ok (normalized', parts) →
          other = candidate) := by
  intro h
  have hd : samplePolicy.validateShape "./src//app.py" false false = .ok ("src/app.py", ["src", "app.py"]) := by
    decide +kernel
  exact absurd (h samplePolicy "./src//app.py" _ _ hd).1 (by decide)

end PathPolicy

end AgentHub.Security
