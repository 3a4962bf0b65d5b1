import AgentHub.Lib.Diff
import AgentHub.Lib.Tx
import AgentHub.Workspace.ChangeSet
/-!
# The changes of a name-status output

A name-status output is a diff of two inventories, as Git sees them. Reading it never fails, and the changes that are read
are that diff: applied to the files before they give the files after.
-/

namespace AgentHub.Workspace

open Lib Lib.Diff

/-! ## Files as Git sees them -/

/-- The content of a file and whether it is executable. -/
structure GitFile where
  sha256 : String
  sizeBytes : Nat
  executable : Bool
  deriving DecidableEq, Repr

def FileSnapshot.gitFile (s : FileSnapshot) : GitFile := ⟨s.sha256, s.sizeBytes, s.mode &&& 0o111 ≠ 0⟩

/-- The hash and the size. -/
def GitFile.content (f : GitFile) : String × Nat := (f.sha256, f.sizeBytes)

def gitFiles (inventory : Inventory) : String → Option GitFile := fun path =>
  (inventory.files.lookup path).map FileSnapshot.gitFile

/-- The paths of an inventory with the hashes and sizes of their files. -/
def contents (inventory : Inventory) : String → Option (String × Nat) := fun path =>
  (inventory.files.lookup path).map fun s => (s.sha256, s.sizeBytes)

theorem contents_eq (inventory : Inventory) : contents inventory = fun path => (gitFiles inventory path).map GitFile.content := by
  funext path
  simp [contents, gitFiles, FileSnapshot.gitFile, GitFile.content, Option.map_map, Function.comp_def]

theorem lookup_filter {α : Type} (p : String → Bool) (d : Dict α) (key : String) :
    (d.filter fun e => p e.1).lookup key = if p key then d.lookup key else none := by
  induction d with
  | nil => simp
  | cons entry d ih =>
    obtain ⟨k, v⟩ := entry
    by_cases hkey : key = k
    · subst hkey
      cases hp : p key <;> simp [hp, ih]
    · have hbeq : (key == k) = false := by simpa using hkey
      cases hp : p k <;> simp [hp, ih, List.lookup_cons, hbeq]

theorem projectInventory_lookup (H : Host) (inventory : Inventory) (excluded : List String) (path : String) :
    (projectInventory H inventory excluded).files.lookup path =
      if path ∈ excluded then none else inventory.files.lookup path := by
  have h := lookup_filter (fun key => !excluded.contains key) inventory.files path
  by_cases hex : path ∈ excluded <;> simpa [projectInventory, hex] using h

/-- A file of a projection is a file. -/
theorem gitFiles_project {H : Host} {inventory : Inventory} {excluded : List String} {path : String} {f : GitFile}
    (h : gitFiles (projectInventory H inventory excluded) path = some f) :
    path ∉ excluded ∧ ∃ s, inventory.files.lookup path = some s ∧ s.gitFile = f := by
  simp only [gitFiles, projectInventory_lookup, Option.map_eq_some_iff] at h
  obtain ⟨s, hs, rfl⟩ := h
  by_cases hex : path ∈ excluded
  · simp [hex] at hs
  · rw [if_neg hex] at hs
    exact ⟨hex, s, hs, rfl⟩

theorem gitFiles_ne_none {H : Host} {inventory : Inventory} {excluded : List String} {path : String}
    (h : gitFiles (projectInventory H inventory excluded) path ≠ none) : ∃ s, inventory.files.lookup path = some s := by
  obtain ⟨f, hf⟩ := Option.ne_none_iff_exists'.1 h
  obtain ⟨-, s, hs, -⟩ := gitFiles_project hf
  exact ⟨s, hs⟩

theorem lookup_none_of_project {H : Host} {inventory : Inventory} {excluded : List String} {path : String}
    (h : gitFiles (projectInventory H inventory excluded) path = none) (hex : path ∉ excluded) :
    inventory.files.lookup path = none := by
  simpa [gitFiles, projectInventory_lookup, hex] using h

/-! ## Name-status outputs -/

/-- A record of a name-status output: a status and the path it is about, or the two paths of a rename. -/
inductive StatusRecord where
  | change (status path : Bytes)
  | rename (status old new : Bytes)
  deriving DecidableEq, Repr

namespace StatusRecord

def fields : StatusRecord → List Bytes
  | .change status path => [status, path]
  | .rename status old new => [status, old, new]

/-- The edit a record stands for. An added path that was there already, as an ignored file is to Git, is a modified one. -/
inductive Reads (H : Host) (P : String → Option GitFile) : StatusRecord → Edit String GitFile → Prop
  | added {score raw : Bytes} {path : String} {f : GitFile} : H.decode raw = some path → P path = none →
      Reads H P (.change (65 :: score) raw) (.create path f)
  | modified {letter : UInt8} {score raw : Bytes} {path : String} {f : GitFile} : letter = 65 ∨ letter = 77 ∨ letter = 84 →
      H.decode raw = some path → P path ≠ none → Reads H P (.change (letter :: score) raw) (.modify path f)
  | deleted {score raw : Bytes} {path : String} : H.decode raw = some path →
      Reads H P (.change (68 :: score) raw) (.delete path)
  | renamed {score rawOld rawNew : Bytes} {old new : String} {f : GitFile} : H.decode rawOld = some old →
      H.decode rawNew = some new → Reads H P (.rename (82 :: score) rawOld rawNew) (.rename old new f)

end StatusRecord

/-- The output of `git diff --name-status -z`. -/
def nameStatus (records : List StatusRecord) : Bytes := (records.flatMap StatusRecord.fields).flatMap (· ++ [0])

/-- The records are a diff with renames of two maps of files. -/
structure RenameDiff (H : Host) (P Q : String → Option GitFile) (records : List StatusRecord)
    (edits : List (Edit String GitFile)) : Prop where
  clean : ∀ r ∈ records, ∀ field ∈ r.fields, field ≠ [] ∧ 0 ∉ field
  reads : List.Forall₂ (StatusRecord.Reads H P) records edits
  diff : IsDiff P Q edits

/-! ## Reading the records -/

theorem splitNul_append {acc field rest : Bytes} (h : 0 ∉ field) :
    splitNul acc (field ++ 0 :: rest) = (acc.reverse ++ field) :: splitNul [] rest := by
  induction field generalizing acc with
  | nil => simp [splitNul]
  | cons b field ih =>
    simp only [List.mem_cons, not_or] at h
    rw [List.cons_append, splitNul, if_neg (Ne.symm h.1), ih h.2]
    simp

theorem splitNul_last (acc : Bytes) {field : Bytes} (h : 0 ∉ field) : splitNul acc field = [acc.reverse ++ field] := by
  induction field generalizing acc with
  | nil => simp [splitNul]
  | cons b field ih =>
    simp only [List.mem_cons, not_or] at h
    rw [splitNul, if_neg (Ne.symm h.1), ih _ h.2]
    simp

/-- The fields of an output are read back. -/
theorem splitNul_fields {fields : List Bytes} (hne : fields ≠ []) (h : ∀ field ∈ fields, 0 ∉ field) :
    splitNul [] (fields.flatMap (· ++ [0])).dropLast = fields := by
  induction fields with
  | nil => exact absurd rfl hne
  | cons field fields ih =>
    obtain ⟨hfirst, hrest⟩ := List.forall_mem_cons.1 h
    cases fields with
    | nil =>
      have hlast := splitNul_last [] hfirst
      simpa using hlast
    | cons next fields =>
      have hjoin : (field :: next :: fields).flatMap (· ++ [0]) = field ++ 0 :: (next :: fields).flatMap (· ++ [0]) := by
        simp
      have hsome : (next :: fields).flatMap (· ++ [0]) ≠ [] := by simp
      rw [hjoin, List.dropLast_append_of_ne_nil (by simp), List.dropLast_cons_of_ne_nil hsome, splitNul_append hfirst,
        ih (by simp) hrest]
      rfl

theorem statusRecords_nameStatus {records : List StatusRecord}
    (h : ∀ r ∈ records, ∀ field ∈ r.fields, field ≠ [] ∧ 0 ∉ field) :
    statusRecords (nameStatus records) = .ok (records.flatMap StatusRecord.fields) := by
  have hclean : ∀ field ∈ records.flatMap StatusRecord.fields, field ≠ [] ∧ 0 ∉ field := by
    intro field hfield
    obtain ⟨r, hr, hmem⟩ := List.mem_flatMap.1 hfield
    exact h r hr field hmem
  rw [nameStatus]
  generalize records.flatMap StatusRecord.fields = fields at hclean
  by_cases hne : fields = []
  · simp [statusRecords, hne]
  · have hlast : (fields.flatMap (· ++ [0])).getLast? = some 0 := by
      obtain ⟨init, last, rfl⟩ := (List.eq_nil_or_concat fields).resolve_left hne
      simp
    have hsome : fields.flatMap (· ++ [0]) ≠ [] := by
      intro hnil
      simp [hnil] at hlast
    rw [statusRecords, if_neg hsome, if_neg (by simp [hlast]), splitNul_fields hne fun f hf => (hclean f hf).2,
      List.filter_eq_self.2 fun f hf => by simpa using (hclean f hf).1]

/-! ## The changes -/

/-- What a change does to the contents of the files. -/
def FileChange.apply (files : String → Option (String × Nat)) (c : FileChange) : String → Option (String × Nat) :=
  let after := do pure (← c.afterSha256, ← c.afterSize)
  match c.action, c.oldPath with
  | .created, _ => Function.update files c.path after
  | .modified, _ => Function.update files c.path after
  | .deleted, _ => Function.update files c.path none
  | .renamed, some old => Function.update (Function.update files old none) c.path after
  | .renamed, none => Function.update files c.path after

def applyChanges (changes : List FileChange) (files : String → Option (String × Nat)) : String → Option (String × Nat) :=
  changes.foldl FileChange.apply files

/-- The path of the preimage of a change. -/
def FileChange.source (c : FileChange) : String := c.oldPath.getD c.path

/-- The change of an edit, with the files it is about. -/
inductive Changes (before after : Inventory) : Edit String GitFile → FileChange → Prop
  | created {path : String} {s : FileSnapshot} : after.files.lookup path = some s →
      Changes before after (.create path s.gitFile)
        ⟨.created, path, none, none, some s.sha256, none, some s.sizeBytes, s.binary⟩
  | modified {path : String} {o s : FileSnapshot} : before.files.lookup path = some o → after.files.lookup path = some s →
      Changes before after (.modify path s.gitFile)
        ⟨.modified, path, none, some o.sha256, some s.sha256, some o.sizeBytes, some s.sizeBytes, o.binary || s.binary⟩
  | deleted {path : String} {o : FileSnapshot} : before.files.lookup path = some o →
      Changes before after (.delete path) ⟨.deleted, path, none, some o.sha256, none, some o.sizeBytes, none, o.binary⟩
  | renamed {old new : String} {o s : FileSnapshot} : before.files.lookup old = some o → after.files.lookup new = some s →
      Changes before after (.rename old new s.gitFile)
        ⟨.renamed, new, some old, some o.sha256, some s.sha256, some o.sizeBytes, some s.sizeBytes, o.binary || s.binary⟩

namespace Changes

variable {before after : Inventory} {e : Edit String GitFile} {c : FileChange}

theorem paths_eq (h : Changes before after e c) : c.paths = e.keys := by
  cases h <;> rfl

theorem apply_eq (h : Changes before after e c) (files : String → Option (String × Nat)) :
    c.apply files = (e.map GitFile.content).apply files := by
  cases h <;> rfl

end Changes

theorem applyChanges_eq {before after : Inventory} {edits : List (Edit String GitFile)} {changes : List FileChange}
    (h : List.Forall₂ (Changes before after) edits changes) (files : String → Option (String × Nat)) :
    applyChanges changes files = applyAll (edits.map (Edit.map GitFile.content)) files := by
  induction h generalizing files with
  | nil => rfl
  | cons hc _ ih =>
    rw [applyChanges, List.foldl_cons, hc.apply_eq]
    exact ih _

theorem paths_eq {before after : Inventory} {edits : List (Edit String GitFile)} {changes : List FileChange}
    (h : List.Forall₂ (Changes before after) edits changes) : changes.flatMap FileChange.paths = Diff.keys edits := by
  induction h with
  | nil => rfl
  | cons hc _ ih => rw [List.flatMap_cons, ih, hc.paths_eq, Diff.keys, Diff.keys, List.flatMap_cons]

/-! ## The changes of a diff -/

/-- The hashes of an inventory are those of SHA-256. -/
def Inventory.Hashed (inventory : Inventory) : Prop :=
  ∀ path s, inventory.files.lookup path = some s → isSha256Hex s.sha256 = true

/-- The inventory holds snapshots of files. -/
def Inventory.Recorded (H : Host) (inventory : Inventory) : Prop :=
  ∀ path s, inventory.files.lookup path = some s → ∃ content mode, s = snapshotOf H path content mode

theorem Inventory.Recorded.hashed {H : Host} {inventory : Inventory} (h : inventory.Recorded H)
    (hhex : ∀ content, isSha256Hex (H.sha256 content) = true) : inventory.Hashed := by
  intro path s hs
  obtain ⟨content, mode, rfl⟩ := h path s hs
  exact hhex content

/-- The files that Git sees in the projections of two inventories differ. -/
def Affected (H : Host) (before after : Inventory) (excluded : List String) (path : String) : Prop :=
  gitFiles (projectInventory H before excluded) path ≠ gitFiles (projectInventory H after excluded) path

theorem Affected.differs {H : Host} {before after : Inventory} {excluded : List String} {path : String}
    (h : Affected H before after excluded path) : before.files.lookup path ≠ after.files.lookup path := by
  intro heq
  apply h
  rw [gitFiles, gitFiles, projectInventory_lookup, projectInventory_lookup, heq]

theorem build_ok {c : FileChange} (hpath : isRepoRelativePath c.path = true)
    (hold : c.oldPath.all isRepoRelativePath = true) (hbefore : c.beforeSha256.all isSha256Hex = true)
    (hafter : c.afterSha256.all isSha256Hex = true) (hshape : validateActionShape c = .ok ()) : c.build = .ok c := by
  simp only [FileChange.build, hpath, hold, hbefore, hafter, hshape]
  rfl

section
variable {H : Host} {before after : Inventory} {excluded : List String} {e : Edit String GitFile}

theorem requireSnapshot_ok {inventory : Inventory} {path label : String} {s : FileSnapshot}
    (h : inventory.files.lookup path = some s) : requireSnapshot inventory path label = .ok s := by
  rw [requireSnapshot, h]

/-- A record of a diff of the projections gives its change. -/
theorem pathChange_ok {status raw : Bytes}
    (hreads : StatusRecord.Reads H (gitFiles (projectInventory H before excluded)) (.change status raw) e)
    (hfits : e.Fits (gitFiles (projectInventory H before excluded)) (gitFiles (projectInventory H after excluded)))
    (hbefore : before.Hashed) (hafter : after.Hashed) (hpaths : ∀ path ∈ e.keys, isRepoRelativePath path = true) :
    status.take 1 ≠ [82] ∧ ∃ path c, H.decode raw = some path ∧ pathChange H before after status path = .ok c ∧
      Changes before after e c := by
  cases hreads with
  | @added score _ path f hdecode hnone =>
    obtain ⟨hex, s, hs, rfl⟩ := gitFiles_project hfits.2
    have hold := lookup_none_of_project hnone hex
    refine ⟨by simp, path, _, hdecode, ?_, .created hs⟩
    simp only [pathChange, hold, requireSnapshot_ok hs]
    exact build_ok (hpaths path (by simp [Edit.keys])) rfl rfl (hafter path s hs) rfl
  | @modified letter score _ path f hletter hdecode hsome =>
    obtain ⟨o, ho⟩ := gitFiles_ne_none hsome
    obtain ⟨-, s, hs, rfl⟩ := gitFiles_project hfits.2.2
    have hbuild := build_ok (c := ⟨.modified, path, none, some o.sha256, some s.sha256, some o.sizeBytes,
      some s.sizeBytes, o.binary || s.binary⟩) (hpaths path (by simp [Edit.keys])) rfl (hbefore path o ho)
      (hafter path s hs) rfl
    refine ⟨?_, path, _, hdecode, ?_, .modified ho hs⟩
    · rcases hletter with rfl | rfl | rfl <;> simp
    · -- an added path that the baseline holds is rewritten to a modified one
      rcases hletter with rfl | rfl | rfl <;>
        simpa [pathChange, ho, requireSnapshot_ok ho, requireSnapshot_ok hs, bind, Except.bind] using hbuild
  | @deleted score _ path hdecode =>
    obtain ⟨o, ho⟩ := gitFiles_ne_none hfits.1
    refine ⟨by simp, path, _, hdecode, ?_, .deleted ho⟩
    have hbuild := build_ok (c := ⟨.deleted, path, none, some o.sha256, none, some o.sizeBytes, none, o.binary⟩)
      (hpaths path (by simp [Edit.keys])) rfl (hbefore path o ho) rfl rfl
    simpa [pathChange, requireSnapshot_ok ho, bind, Except.bind] using hbuild

theorem renamedChange_ok {status rawOld rawNew : Bytes}
    (hreads : StatusRecord.Reads H (gitFiles (projectInventory H before excluded)) (.rename status rawOld rawNew) e)
    (hfits : e.Fits (gitFiles (projectInventory H before excluded)) (gitFiles (projectInventory H after excluded)))
    (hbefore : before.Hashed) (hafter : after.Hashed) (hpaths : ∀ path ∈ e.keys, isRepoRelativePath path = true) :
    status.take 1 = [82] ∧ ∃ old new c, H.decode rawOld = some old ∧ H.decode rawNew = some new ∧
      renamedChange before after old new = .ok c ∧ Changes before after e c := by
  cases hreads with
  | @renamed score _ _ old new f hold hnew =>
    obtain ⟨hne, hsome, -, -, hf⟩ := hfits
    obtain ⟨o, ho⟩ := gitFiles_ne_none hsome
    obtain ⟨-, s, hs, rfl⟩ := gitFiles_project hf
    have hshape : validateActionShape ⟨.renamed, new, some old, some o.sha256, some s.sha256, some o.sizeBytes,
        some s.sizeBytes, o.binary || s.binary⟩ = .ok () := by
      simp [validateActionShape, hne]
    refine ⟨by simp, old, new, _, hold, hnew, ?_, .renamed ho hs⟩
    simp only [renamedChange, requireSnapshot_ok ho, requireSnapshot_ok hs, bind, Except.bind]
    exact build_ok (hpaths new (by simp [Edit.keys])) (hpaths old (by simp [Edit.keys])) (hbefore old o ho)
      (hafter new s hs) hshape

theorem recordChanges_change {status raw : Bytes} {rest : List Bytes} {path : String} {c : FileChange}
    {changes : List FileChange} (hstatus : status.take 1 ≠ [82]) (hpath : H.decode raw = some path)
    (hc : pathChange H before after status path = .ok c) (hrest : recordChanges H before after rest = .ok changes) :
    recordChanges H before after (status :: raw :: rest) = .ok (c :: changes) := by
  cases rest with
  | nil =>
    obtain rfl : changes = [] := by simpa [recordChanges] using hrest.symm
    simp [recordChanges, hstatus, decodePath, hpath, hc, bind, Except.bind, pure, Except.pure]
  | cons next rest => simp [recordChanges, hstatus, decodePath, hpath, hc, hrest, bind, Except.bind, pure, Except.pure]

theorem recordChanges_rename {status rawOld rawNew : Bytes} {rest : List Bytes} {old new : String} {c : FileChange}
    {changes : List FileChange} (hstatus : status.take 1 = [82]) (hold : H.decode rawOld = some old)
    (hnew : H.decode rawNew = some new) (hc : renamedChange before after old new = .ok c)
    (hrest : recordChanges H before after rest = .ok changes) :
    recordChanges H before after (status :: rawOld :: rawNew :: rest) = .ok (c :: changes) := by
  simp [recordChanges, hstatus, decodePath, hold, hnew, hc, hrest, bind, Except.bind, pure, Except.pure]

theorem recordChanges_ok {records : List StatusRecord} {edits : List (Edit String GitFile)}
    (hreads : List.Forall₂ (StatusRecord.Reads H (gitFiles (projectInventory H before excluded))) records edits)
    (hfits : ∀ e ∈ edits, e.Fits (gitFiles (projectInventory H before excluded)) (gitFiles (projectInventory H after excluded)))
    (hbefore : before.Hashed) (hafter : after.Hashed)
    (hpaths : ∀ path ∈ Diff.keys edits, isRepoRelativePath path = true) :
    ∃ changes, recordChanges H before after (records.flatMap StatusRecord.fields) = .ok changes ∧
      List.Forall₂ (Changes before after) edits changes := by
  induction hreads with
  | nil => exact ⟨[], rfl, .nil⟩
  | @cons r e records edits hr _ ih =>
    obtain ⟨hfirst, hothers⟩ := List.forall_mem_cons.1 hfits
    obtain ⟨changes, hchanges, hall⟩ := ih hothers fun path hpath =>
      hpaths path (List.mem_append_right _ hpath)
    have hown : ∀ path ∈ e.keys, isRepoRelativePath path = true := fun path hpath =>
      hpaths path (List.mem_append_left _ hpath)
    rw [List.flatMap_cons]
    cases r with
    | change status raw =>
      obtain ⟨hstatus, path, c, hpath, hc, hchange⟩ := pathChange_ok hr hfirst hbefore hafter hown
      exact ⟨c :: changes, recordChanges_change hstatus hpath hc hchanges, .cons hchange hall⟩
    | rename status rawOld rawNew =>
      obtain ⟨hstatus, old, new, c, hold, hnew, hc, hchange⟩ := renamedChange_ok hr hfirst hbefore hafter hown
      exact ⟨c :: changes, recordChanges_rename hstatus hold hnew hc hchanges, .cons hchange hall⟩

theorem buildFileChanges_ok {records : List StatusRecord} {edits : List (Edit String GitFile)}
    (hdiff : RenameDiff H (gitFiles (projectInventory H before excluded)) (gitFiles (projectInventory H after excluded))
      records edits) (hbefore : before.Hashed) (hafter : after.Hashed)
    (hpaths : ∀ path ∈ Diff.keys edits, isRepoRelativePath path = true) :
    ∃ changes, buildFileChanges H before after (nameStatus records) = .ok changes ∧
      List.Forall₂ (Changes before after) edits changes := by
  obtain ⟨changes, hchanges, hall⟩ := recordChanges_ok hdiff.reads hdiff.diff.fits hbefore hafter hpaths
  refine ⟨changes, ?_, hall⟩
  rw [buildFileChanges, statusRecords_nameStatus hdiff.clean]
  exact hchanges

/-- The changes of a diff of two projections: reading them succeeds, they name once each path that is affected, and they
lead from the contents before to the contents after. -/
theorem buildFileChanges_faithful {records : List StatusRecord} {edits : List (Edit String GitFile)}
    (hdiff : RenameDiff H (gitFiles (projectInventory H before excluded)) (gitFiles (projectInventory H after excluded))
      records edits) (hbefore : before.Hashed) (hafter : after.Hashed)
    (hpaths : ∀ path, Affected H before after excluded path → isRepoRelativePath path = true) :
    ∃ changes, buildFileChanges H before after (nameStatus records) = .ok changes ∧
      List.Forall₂ (Changes before after) edits changes ∧ (changes.flatMap FileChange.paths).Nodup ∧
      (∀ path, path ∈ changes.flatMap FileChange.paths ↔ Affected H before after excluded path) ∧
      applyChanges changes (contents (projectInventory H before excluded)) =
        contents (projectInventory H after excluded) := by
  obtain ⟨changes, hchanges, hall⟩ := buildFileChanges_ok hdiff hbefore hafter fun path hpath =>
    hpaths path (hdiff.diff.mem_keys_iff.1 hpath)
  refine ⟨changes, hchanges, hall, ?_, fun path => ?_, ?_⟩
  · rw [paths_eq hall]
    exact hdiff.diff.nodup
  · rw [paths_eq hall]
    exact hdiff.diff.mem_keys_iff
  · rw [applyChanges_eq hall, contents_eq, contents_eq]
    exact hdiff.diff.applyAll_map GitFile.content

end

/-! ## What a change says of the baseline -/

theorem FileChange.build_eq {c c' : FileChange} (h : c.build = .ok c') : c' = c := by
  simp only [FileChange.build] at h
  iterate 4
    split at h
    · cases h
  obtain ⟨_, -, h⟩ := Tx.bind_ok.1 h
  exact Tx.pure_ok.1 h

theorem requireSnapshot_eq {inventory : Inventory} {path label : String} {s : FileSnapshot}
    (h : requireSnapshot inventory path label = .ok s) : inventory.files.lookup path = some s := by
  unfold requireSnapshot at h
  split at h
  · cases h
    assumption
  · cases h

/-- A change that is no creation has the hash of its source. -/
def FileChange.Sourced (before : Inventory) (c : FileChange) : Prop :=
  c.action ≠ .created → ∃ s, before.files.lookup c.source = some s ∧ c.beforeSha256 = some s.sha256

section
variable {H : Host} {before after : Inventory}

theorem renamedChange_sourced {old new : String} {c : FileChange} (h : renamedChange before after old new = .ok c) :
    c.Sourced before := by
  obtain ⟨o, ho, h⟩ := Tx.bind_ok.1 h
  obtain ⟨s, -, h⟩ := Tx.bind_ok.1 h
  rw [FileChange.build_eq h]
  exact fun _ => ⟨o, requireSnapshot_eq ho, rfl⟩

theorem pathChange_sourced {status : Bytes} {path : String} {c : FileChange}
    (h : pathChange H before after status path = .ok c) : c.Sourced before := by
  unfold pathChange at h
  dsimp only at h
  generalize (if status.take 1 = [65] ∧ (before.files.lookup path).isSome then [77] else status.take 1) = code at h
  split at h
  · obtain ⟨s, -, h⟩ := Tx.bind_ok.1 h
    rw [FileChange.build_eq h]
    exact fun hne => absurd rfl hne
  split at h
  · obtain ⟨o, ho, h⟩ := Tx.bind_ok.1 h
    obtain ⟨s, -, h⟩ := Tx.bind_ok.1 h
    rw [FileChange.build_eq h]
    exact fun _ => ⟨o, requireSnapshot_eq ho, rfl⟩
  split at h
  · obtain ⟨o, ho, h⟩ := Tx.bind_ok.1 h
    rw [FileChange.build_eq h]
    exact fun _ => ⟨o, requireSnapshot_eq ho, rfl⟩
  · cases h

theorem recordChanges_sourced {records : List Bytes} {changes : List FileChange}
    (h : recordChanges H before after records = .ok changes) : ∀ c ∈ changes, c.Sourced before := by
  induction records using recordChanges.induct generalizing changes with
  | case1 =>
    obtain rfl : changes = [] := by simpa [recordChanges] using h.symm
    simp
  | case2 status old path rest hstatus ih =>
    rw [recordChanges, if_pos hstatus] at h
    simp only [Tx.bind_ok, Tx.pure_ok] at h
    obtain ⟨_, -, _, -, c, hc, others, hothers, rfl⟩ := h
    exact List.forall_mem_cons.2 ⟨renamedChange_sourced hc, ih hothers⟩
  | case3 status old path rest hstatus ih =>
    rw [recordChanges, if_neg hstatus] at h
    simp only [Tx.bind_ok, Tx.pure_ok] at h
    obtain ⟨_, -, c, hc, others, hothers, rfl⟩ := h
    exact List.forall_mem_cons.2 ⟨pathChange_sourced hc, ih hothers⟩
  | case4 status path hstatus =>
    rw [recordChanges, if_pos hstatus] at h
    cases h
  | case5 status path hstatus =>
    rw [recordChanges, if_neg hstatus] at h
    simp only [Tx.bind_ok, Tx.pure_ok] at h
    obtain ⟨_, -, c, hc, rfl⟩ := h
    simpa using pathChange_sourced hc
  | case6 status hstatus =>
    rw [recordChanges, if_pos hstatus] at h
    cases h
  | case7 status hstatus =>
    rw [recordChanges, if_neg hstatus] at h
    cases h

theorem buildFileChanges_sourced {output : Bytes} {changes : List FileChange}
    (h : buildFileChanges H before after output = .ok changes) : ∀ c ∈ changes, c.Sourced before := by
  obtain ⟨records, -, h⟩ := Tx.bind_ok.1 h
  exact recordChanges_sourced h

end

end AgentHub.Workspace
