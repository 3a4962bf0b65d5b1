import AgentHub.Storage.Artifacts.Store
import AgentHub.Workflow.Canonical
import AgentHub.Workspace.ChangeSet
/-!
# The document of a ChangeSet

What `change_sets.manifest_json` holds: the manifest of a capture and the artifacts it is bound to, as canonical JSON. A
valid document is read back from its text.
-/

namespace AgentHub

open Lib Workspace

/-! ## Reading records -/

/-- The fields of an object, none of them unknown; the last one of a name counts. -/
def fieldsOf (known : List String) : Plain → Option (String → Option Plain)
  | .obj fields =>
    if fields.all fun field => known.contains field.1 then some fun key => fields.reverse.lookup key else none
  | _ => none

section
variable {α : Type}

def required (load : Plain → Option α) (fields : String → Option Plain) (key : String) : Option α := (fields key).bind load

def defaulted (load : Plain → Option α) (value : α) (fields : String → Option Plain) (key : String) : Option α :=
  match fields key with
  | none => some value
  | some j => load j

def loadOptional (load : Plain → Option α) : Plain → Option (Option α)
  | .null => some none
  | j => (load j).map some

def loadList (load : Plain → Option α) : Plain → Option (List α)
  | .arr items => items.mapM load
  | _ => none

/-- A member of an enumeration, by its value. -/
def loadMember (members : List α) (value : α → String) : Plain → Option α
  | .str s => members.find? fun member => value member = s
  | _ => none

end

def loadString : Plain → Option String
  | .str s => some s
  | _ => none

def natural (n : Nat) : Plain := .int n

/-- `Field(ge=0)`. -/
def loadNat : Plain → Option Nat
  | .int n => if 0 ≤ n then some n.toNat else none
  | _ => none

def loadBool : Plain → Option Bool
  | .bool b => some b
  | _ => none

theorem lookup_eq_some_iff {fields : List (String × Plain)} (hnd : (fields.map Prod.fst).Nodup) {key : String} {j : Plain} :
    fields.lookup key = some j ↔ (key, j) ∈ fields := by
  induction fields with
  | nil => simp
  | cons field fields ih =>
    obtain ⟨name, value⟩ := field
    rw [List.map_cons, List.nodup_cons] at hnd
    by_cases hkey : key = name
    · subst hkey
      have hother : (key, j) ∉ fields := fun hmem => hnd.1 (List.mem_map.2 ⟨_, hmem, rfl⟩)
      simp [List.mem_cons, hother, eq_comm]
    · have hbeq : (key == name) = false := by simpa using hkey
      rw [List.lookup_cons, hbeq, ih hnd.2]
      simp [hkey]

/-- A record with distinct keys has the values it was written with. -/
theorem fieldsOf_record {fields : List (String × Plain)} {known : List String} (h : fields.map Prod.fst = known)
    (hnd : known.Nodup) : fieldsOf known (record fields) = some fun key => fields.lookup key := by
  have hperm := List.perm_insertionSort (fun a b : String × Plain => a.1 ≤ b.1) fields
  have hall : ((fields.insertionSort fun a b => a.1 ≤ b.1).all fun field => known.contains field.1) = true := by
    rw [List.all_eq_true]
    intro field hfield
    rw [hperm.mem_iff] at hfield
    rw [List.contains_iff_mem, ← h]
    exact List.mem_map_of_mem hfield
  have hreverse := (List.reverse_perm _).trans hperm
  rw [record, fieldsOf, if_pos hall]
  congr 1
  funext key
  subst h
  ext j
  rw [lookup_eq_some_iff ((hreverse.map Prod.fst).nodup_iff.2 hnd), lookup_eq_some_iff hnd]
  exact hreverse.mem_iff

theorem lookup_next {key name : String} {j : Plain} {fields : List (String × Plain)} (h : key ≠ name) :
    ((name, j) :: fields).lookup key = fields.lookup key := by
  have hbeq : (key == name) = false := by simpa using h
  rw [List.lookup_cons, hbeq]

section
variable {α : Type} {load : Plain → Option α} {dump : α → Plain}

theorem loadOptional_optional (h : ∀ a, load (dump a) = some a) (hnull : ∀ a, dump a ≠ .null) (o : Option α) :
    loadOptional load (optional dump o) = some o := by
  cases o with
  | none => rfl
  | some a =>
    have hload : loadOptional load (dump a) = (load (dump a)).map some := by
      unfold loadOptional
      split
      next heq => exact absurd heq (hnull a)
      next => rfl
    rw [optional, hload, h, Option.map_some]

theorem loadList_listOf {l : List α} (h : ∀ a ∈ l, load (dump a) = some a) : loadList load (listOf dump l) = some l := by
  rw [listOf, loadList]
  induction l with
  | nil => rfl
  | cons a l ih =>
    obtain ⟨ha, hl⟩ := List.forall_mem_cons.1 h
    rw [List.map_cons, List.mapM_cons, ha, ih hl]
    rfl

end

@[simp] theorem loadString_str (s : String) : loadString (.str s) = some s := rfl

@[simp] theorem loadOptional_string (o : Option String) : loadOptional loadString (optional .str o) = some o :=
  loadOptional_optional loadString_str (fun _ h => nomatch h) o

@[simp] theorem loadBool_bool (b : Bool) : loadBool (.bool b) = some b := rfl

@[simp] theorem loadNat_natural (n : Nat) : loadNat (natural n) = some n := by
  rw [natural, loadNat, if_pos (by omega), Int.toNat_natCast]

@[simp] theorem loadOptional_natural (o : Option Nat) : loadOptional loadNat (optional natural o) = some o :=
  loadOptional_optional loadNat_natural (fun _ h => nomatch h) o

@[simp] theorem loadList_strings (l : List String) : loadList loadString (listOf .str l) = some l :=
  loadList_listOf fun s _ => loadString_str s

/-! ## The manifest -/

def Workspace.FileAction.value : FileAction → String
  | .created => "created" | .modified => "modified" | .deleted => "deleted" | .renamed => "renamed"

namespace Workspace.FileChange

def dump (c : FileChange) : Plain :=
  record [("action", .str c.action.value), ("path", .str c.path), ("old_path", optional .str c.oldPath),
    ("before_sha256", optional .str c.beforeSha256), ("after_sha256", optional .str c.afterSha256),
    ("before_size", optional natural c.beforeSize), ("after_size", optional natural c.afterSize),
    ("binary", .bool c.binary)]

def load (j : Plain) : Option FileChange := do
  let fields ← fieldsOf ["action", "path", "old_path", "before_sha256", "after_sha256", "before_size", "after_size", "binary"] j
  let c : FileChange :=
    { action := ← required (loadMember [.created, .modified, .deleted, .renamed] FileAction.value) fields "action"
      path := ← required loadString fields "path"
      oldPath := ← defaulted (loadOptional loadString) none fields "old_path"
      beforeSha256 := ← defaulted (loadOptional loadString) none fields "before_sha256"
      afterSha256 := ← defaulted (loadOptional loadString) none fields "after_sha256"
      beforeSize := ← defaulted (loadOptional loadNat) none fields "before_size"
      afterSize := ← defaulted (loadOptional loadNat) none fields "after_size"
      binary := ← defaulted loadBool false fields "binary" }
  c.build.toOption

theorem load_dump {c : FileChange} (h : c.build = .ok c) : load c.dump = some c := by
  have haction : loadMember [.created, .modified, .deleted, .renamed] FileAction.value (.str c.action.value) =
      some c.action := by
    cases c.action <;> decide
  rw [load, dump, fieldsOf_record]
  · simp [required, defaulted, lookup_next, haction, h, Except.toOption]
  · rfl
  · decide

end Workspace.FileChange

namespace Workspace.ChangeSetManifest

def dump (m : ChangeSetManifest) : Plain :=
  record [("base_commit", .str m.baseCommit), ("pre_state_hash", .str m.preStateHash),
    ("post_state_hash", .str m.postStateHash), ("changes", listOf FileChange.dump m.changes),
    ("created_directories", listOf .str m.createdDirectories), ("ignored_files_touched", listOf .str m.ignoredFilesTouched),
    ("staged_evidence_sha256", .str m.stagedEvidenceSha256), ("unstaged_evidence_sha256", .str m.unstagedEvidenceSha256),
    ("status_evidence_sha256", .str m.statusEvidenceSha256)]

def load (j : Plain) : Option ChangeSetManifest := do
  let fields ← fieldsOf ["base_commit", "pre_state_hash", "post_state_hash", "changes", "created_directories",
    "ignored_files_touched", "staged_evidence_sha256", "unstaged_evidence_sha256", "status_evidence_sha256"] j
  let m : ChangeSetManifest :=
    { baseCommit := ← required loadString fields "base_commit"
      preStateHash := ← required loadString fields "pre_state_hash"
      postStateHash := ← required loadString fields "post_state_hash"
      changes := ← defaulted (loadList FileChange.load) [] fields "changes"
      createdDirectories := ← defaulted (loadList loadString) [] fields "created_directories"
      ignoredFilesTouched := ← defaulted (loadList loadString) [] fields "ignored_files_touched"
      stagedEvidenceSha256 := ← required loadString fields "staged_evidence_sha256"
      unstagedEvidenceSha256 := ← required loadString fields "unstaged_evidence_sha256"
      statusEvidenceSha256 := ← required loadString fields "status_evidence_sha256" }
  m.build.toOption

/-- The model of a manifest holds nothing else: its fields, its paths and each of its changes were validated. -/
structure Valid (m : ChangeSetManifest) : Prop where
  build : m.build = .ok m
  changes : ∀ c ∈ m.changes, c.build = .ok c

theorem load_dump {m : ChangeSetManifest} (h : m.Valid) : load m.dump = some m := by
  have hchanges : loadList FileChange.load (listOf FileChange.dump m.changes) = some m.changes :=
    loadList_listOf fun c hc => FileChange.load_dump (h.changes c hc)
  rw [load, dump, fieldsOf_record]
  · simp [required, defaulted, lookup_next, hchanges, h.build, Except.toOption]
  · rfl
  · decide

end Workspace.ChangeSetManifest

/-! ## The artifacts a ChangeSet is bound to -/

structure ArtifactRef where
  artifactId : String
  artifactType : ArtifactType
  relativePath : String
  sha256 : String
  sizeBytes : Nat
  deriving DecidableEq, Repr

inductive EvidenceKind where
  | status | staged | unstaged
  deriving DecidableEq, Repr

def EvidenceKind.value : EvidenceKind → String
  | .status => "status" | .staged => "staged" | .unstaged => "unstaged"

structure EvidenceBinding where
  kind : EvidenceKind
  artifactRef : ArtifactRef
  deriving DecidableEq, Repr

structure PreimageBinding where
  path : String
  artifactRef : ArtifactRef
  mode : Nat
  baselineIgnored : Bool
  deriving DecidableEq, Repr

structure StoredChangeSetDocument where
  manifest : ChangeSetManifest
  canonicalPatchRef : ArtifactRef
  evidence : List EvidenceBinding
  preimages : List PreimageBinding
  deriving DecidableEq, Repr

/-- `_artifact_ref`. -/
def ArtifactRow.ref (row : ArtifactRow) : ArtifactRef := ⟨row.id, row.artifactType, row.relativePath, row.sha256, row.sizeBytes⟩

namespace ArtifactRef

def valid (r : ArtifactRef) : Bool := isEntityId r.artifactId && isRepoRelativePath r.relativePath && Workspace.isSha256Hex r.sha256

def dump (r : ArtifactRef) : Plain :=
  record [("artifact_id", .str r.artifactId), ("artifact_type", .str r.artifactType.value),
    ("relative_path", .str r.relativePath), ("sha256", .str r.sha256), ("size_bytes", natural r.sizeBytes)]

def load (j : Plain) : Option ArtifactRef := do
  let fields ← fieldsOf ["artifact_id", "artifact_type", "relative_path", "sha256", "size_bytes"] j
  let r : ArtifactRef :=
    { artifactId := ← required loadString fields "artifact_id"
      artifactType := ← required (loadMember
        [.log, .console, .diff, .patch, .report, .testResult, .runtimePolicy, .changePreimage] ArtifactType.value) fields
        "artifact_type"
      relativePath := ← required loadString fields "relative_path"
      sha256 := ← required loadString fields "sha256"
      sizeBytes := ← required loadNat fields "size_bytes" }
  if r.valid then some r else none

theorem load_dump {r : ArtifactRef} (h : r.valid = true) : load r.dump = some r := by
  have htype : loadMember [.log, .console, .diff, .patch, .report, .testResult, .runtimePolicy, .changePreimage]
      ArtifactType.value (.str r.artifactType.value) = some r.artifactType := by
    cases r.artifactType <;> decide
  rw [load, dump, fieldsOf_record]
  · simp [required, lookup_next, htype, h]
  · rfl
  · decide

end ArtifactRef

namespace EvidenceBinding

def dump (b : EvidenceBinding) : Plain := record [("kind", .str b.kind.value), ("artifact_ref", b.artifactRef.dump)]

def load (j : Plain) : Option EvidenceBinding := do
  let fields ← fieldsOf ["kind", "artifact_ref"] j
  some ⟨← required (loadMember [.status, .staged, .unstaged] EvidenceKind.value) fields "kind",
    ← required ArtifactRef.load fields "artifact_ref"⟩

theorem load_dump {b : EvidenceBinding} (h : b.artifactRef.valid = true) : load b.dump = some b := by
  have hkind : loadMember [.status, .staged, .unstaged] EvidenceKind.value (.str b.kind.value) = some b.kind := by
    cases b.kind <;> decide
  rw [load, dump, fieldsOf_record]
  · simp [required, lookup_next, hkind, ArtifactRef.load_dump h]
  · rfl
  · decide

end EvidenceBinding

namespace PreimageBinding

def valid (b : PreimageBinding) : Bool := isRepoRelativePath b.path && b.artifactRef.valid && b.mode ≤ 0o777

def dump (b : PreimageBinding) : Plain :=
  record [("path", .str b.path), ("artifact_ref", b.artifactRef.dump), ("mode", natural b.mode),
    ("baseline_ignored", .bool b.baselineIgnored)]

def load (j : Plain) : Option PreimageBinding := do
  let fields ← fieldsOf ["path", "artifact_ref", "mode", "baseline_ignored"] j
  let b : PreimageBinding :=
    { path := ← required loadString fields "path"
      artifactRef := ← required ArtifactRef.load fields "artifact_ref"
      mode := ← required loadNat fields "mode"
      baselineIgnored := ← required loadBool fields "baseline_ignored" }
  if b.valid then some b else none

theorem load_dump {b : PreimageBinding} (h : b.valid = true) : load b.dump = some b := by
  have href : b.artifactRef.valid = true := by
    simp only [valid, Bool.and_eq_true] at h
    exact h.1.2
  rw [load, dump, fieldsOf_record]
  · simp [required, lookup_next, ArtifactRef.load_dump href, h]
  · rfl
  · decide

end PreimageBinding

/-! ## The document -/

namespace StoredChangeSetDocument

/-- The fields and `validate_bindings`. -/
def valid (d : StoredChangeSetDocument) : Bool :=
  d.canonicalPatchRef.valid && d.evidence.length = 3 && d.evidence.all (fun b => b.artifactRef.valid) &&
    d.preimages.length ≤ 500 && d.preimages.all PreimageBinding.valid &&
    [EvidenceKind.status, .staged, .unstaged].all (fun kind => (d.evidence.map EvidenceBinding.kind).contains kind) &&
    (d.preimages.map PreimageBinding.path).Nodup

def dump (d : StoredChangeSetDocument) : Plain :=
  record [("manifest", d.manifest.dump), ("canonical_patch_ref", d.canonicalPatchRef.dump),
    ("evidence", listOf EvidenceBinding.dump d.evidence), ("preimages", listOf PreimageBinding.dump d.preimages)]

def load (j : Plain) : Option StoredChangeSetDocument := do
  let fields ← fieldsOf ["manifest", "canonical_patch_ref", "evidence", "preimages"] j
  let d : StoredChangeSetDocument :=
    { manifest := ← required ChangeSetManifest.load fields "manifest"
      canonicalPatchRef := ← required ArtifactRef.load fields "canonical_patch_ref"
      evidence := ← required (loadList EvidenceBinding.load) fields "evidence"
      preimages := ← defaulted (loadList PreimageBinding.load) [] fields "preimages" }
  if d.valid then some d else none

/-- `canonical_json(document).decode("utf-8")`. -/
def json (d : StoredChangeSetDocument) : String := String.ofList (Json.write noFloats d.dump)

/-- `model_validate_json(text, strict=True)`. -/
def parse (text : String) : Option StoredChangeSetDocument := (Json.parse noFloats text.toList).bind load

theorem load_dump {d : StoredChangeSetDocument} (hmanifest : d.manifest.Valid) (h : d.valid = true) :
    load d.dump = some d := by
  have hvalid := h
  simp only [valid, Bool.and_eq_true, List.all_eq_true] at hvalid
  obtain ⟨⟨⟨⟨⟨⟨hpatch, -⟩, hevidence⟩, -⟩, hpreimages⟩, -⟩, -⟩ := hvalid
  have hevidence' : loadList EvidenceBinding.load (listOf EvidenceBinding.dump d.evidence) = some d.evidence :=
    loadList_listOf fun b hb => EvidenceBinding.load_dump (hevidence b hb)
  have hpreimages' : loadList PreimageBinding.load (listOf PreimageBinding.dump d.preimages) = some d.preimages :=
    loadList_listOf fun b hb => PreimageBinding.load_dump (hpreimages b hb)
  rw [load, dump, fieldsOf_record]
  · simp [required, defaulted, lookup_next, ChangeSetManifest.load_dump hmanifest, ArtifactRef.load_dump hpatch,
      hevidence', hpreimages', h]
  · rfl
  · decide

/-- A valid document is what its text says. -/
theorem parse_json {d : StoredChangeSetDocument} (hmanifest : d.manifest.Valid) (h : d.valid = true) :
    parse d.json = some d := by
  rw [parse, json, String.toList_ofList, Json.parse_write noFloats_lawful, Option.bind_some, load_dump hmanifest h]

end StoredChangeSetDocument

end AgentHub
