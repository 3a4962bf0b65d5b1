import AgentHub.Storage.Captures.Commit
import AgentHub.Workspace.Manifest
/-!
# What is read back of a capture

A capture that was committed is read back as the record that was returned, exactly when its preimages are those its
changes call for, and stays so under transitions, which change the status and the time of the last update alone.
-/

namespace AgentHub

open Lib Workspace

namespace CaptureStore

open ChangeSetRepository WorkflowRunRepository

section
variable {R : ArtifactRepo} {s : CaptureStore} {sessionId taskId : String}

/-! ## One artifact -/

/-- The artifact has its row, with a task that has its session, and its file. -/
structure Holds (R : ArtifactRepo) (s : CaptureStore) (sessionId taskId : String) (row : ArtifactRow) : Prop where
  id : isEntityId row.id = true
  session : row.sessionId = sessionId
  task : row.taskId = some taskId
  planner : row.plannerRunId = none
  registered : Registered s.db row
  stored : row.Stored R s.files

/-- The task belongs to the session. -/
def Owns (db : Db) (sessionId taskId : String) : Prop :=
  ∃ lineage, taskWithRun db taskId = some lineage ∧ lineage.2.2.sessionId = sessionId

theorem getAndVerify_ok {row : ArtifactRow} {content : Bytes} (h : Holds R s sessionId taskId row)
    (howner : Owns s.db sessionId taskId) (hfile : s.files row.path = some content) :
    getAndVerify R s row.id sessionId taskId none = .ok (row, content) := by
  obtain ⟨lineage, hlineage, hsession⟩ := howner
  obtain ⟨stored, hstored, hsize, hsha⟩ := h.stored
  obtain rfl := Option.some.inj (hstored.symm.trans hfile)
  have hvalid : ArtifactRepo.validateOwnerIn (fun _ => none) s.db row = .ok () := by
    obtain ⟨session, hfound⟩ := Option.isSome_iff_exists.1 h.registered.2
    obtain ⟨task, node, run⟩ := lineage
    have hrun : run.sessionId = row.sessionId := hsession.trans h.session.symm
    simp [ArtifactRepo.validateOwnerIn, hfound, h.task, hlineage, hrun, h.planner, pure, Except.pure]
  have hread : ArtifactStore.readBytes s.files ⟨row.artifactType, row.id⟩ = .ok stored := by
    have hpath : s.files ⟨row.artifactType, row.id⟩ = some stored := hfile
    rw [ArtifactStore.readBytes, hpath]
  unfold getAndVerify
  rw [Tx.bind_ok]
  refine ⟨(), demand_ok.2 h.id, ?_⟩
  rw [h.registered.1]
  refine Tx.bind_ok.2 ⟨(), demand_ok.2 rfl, Tx.bind_ok.2 ⟨(), demand_ok.2 (by simpa using h.session), ?_⟩⟩
  refine Tx.bind_ok.2 ⟨(), demand_ok.2 (by simpa using h.task), Tx.bind_ok.2 ⟨(), hvalid, Tx.bind_ok.2 ⟨_, hread, ?_⟩⟩⟩
  refine Tx.bind_ok.2 ⟨(), demand_ok.2 rfl, Tx.bind_ok.2 ⟨(), demand_ok.2 (by simpa using hsha), ?_⟩⟩
  exact Tx.bind_ok.2 ⟨(), demand_ok.2 (by simpa using hsize), rfl⟩

/-! ## The references of a document -/

/-- What was read under an id has the digest of the artifact of that id. -/
def Faithful (R : ArtifactRepo) (s : CaptureStore) (contents : List (String × Bytes)) : Prop :=
  ∀ id content, contents.lookup id = some content →
    ∃ row, s.db.artifacts.get? id = some row ∧ R.store.sha256 content = row.sha256

theorem lookup_cons_cases {id key : String} {content c : Bytes} {contents : List (String × Bytes)}
    (h : ((id, content) :: contents).lookup key = some c) : (key = id ∧ c = content) ∨ contents.lookup key = some c := by
  rw [List.lookup_cons] at h
  split at h
  · next hkey => exact .inl ⟨by simpa using hkey, (Option.some.inj h).symm⟩
  · exact .inr h

/-- Reading references whose artifacts are held reads each of them. -/
theorem readReferences_ok {rows : List ArtifactRow} (hrows : ∀ row ∈ rows, Holds R s sessionId taskId row)
    (howner : Owns s.db sessionId taskId) (verified : Nat) (contents : List (String × Bytes))
    (hfaithful : Faithful R s contents) :
    ∃ contents', readReferences R s sessionId taskId none none (rows.map ArtifactRow.ref) verified contents = .ok contents' ∧
      Faithful R s contents' ∧
      ∀ id, (contents.lookup id).isSome = true ∨ id ∈ rows.map ArtifactRow.id → (contents'.lookup id).isSome = true := by
  induction rows generalizing verified contents with
  | nil => exact ⟨contents, rfl, hfaithful, fun id h => by simpa using h⟩
  | cons row rows ih =>
    obtain ⟨hrow, hrest⟩ := List.forall_mem_cons.1 hrows
    obtain ⟨content, hfile, hsize, hsha⟩ := hrow.stored
    have hget := getAndVerify_ok hrow howner hfile
    have hfaithful' : Faithful R s ((row.id, content) :: contents) := by
      intro id c hlookup
      rcases lookup_cons_cases hlookup with ⟨rfl, rfl⟩ | hold
      · exact ⟨row, hrow.registered.1, hsha⟩
      · exact hfaithful id c hold
    obtain ⟨contents', hread, hall, hsome⟩ := ih hrest (verified + content.length) _ hfaithful'
    refine ⟨contents', ?_, hall, fun id hid => hsome id ?_⟩
    · rw [List.map_cons, readReferences]
      refine Tx.bind_ok.2 ⟨(row, content), hget, ?_⟩
      exact Tx.bind_ok.2 ⟨(), demand_ok.2 (by simp [hrow.task, hrow.planner]), hread⟩
    · rw [List.map_cons, List.mem_cons] at hid
      rw [List.lookup_cons]
      split
      · exact .inl rfl
      · next hne =>
        rcases hid with hold | rfl | hmem
        · exact .inl hold
        · simp at hne
        · exact .inr hmem

theorem digestOf_eq {contents : List (String × Bytes)} (hfaithful : Faithful R s contents) {row : ArtifactRow}
    (hrow : Registered s.db row) (hsome : (contents.lookup row.id).isSome = true) :
    digestOf R contents row.ref = row.sha256 := by
  obtain ⟨content, hlookup⟩ := Option.isSome_iff_exists.1 hsome
  obtain ⟨row', hrow', hsha⟩ := hfaithful _ _ hlookup
  obtain rfl := Option.some.inj (hrow'.symm.trans hrow.1)
  have hlookup' : contents.lookup row'.ref.artifactId = some content := hlookup
  rw [digestOf, hlookup', Option.getD_some, hsha]

end

theorem references_valid {document : StoredChangeSetDocument} (h : document.valid = true) :
    ∀ ref ∈ references document, ref.valid = true := by
  simp only [StoredChangeSetDocument.valid, Bool.and_eq_true, List.all_eq_true] at h
  obtain ⟨⟨⟨⟨⟨⟨hpatch, -⟩, hevidence⟩, -⟩, hpreimages⟩, -⟩, -⟩ := h
  intro ref hmem
  rw [references, List.mem_cons, List.mem_append, List.mem_map, List.mem_map] at hmem
  rcases hmem with rfl | ⟨binding, hbinding, rfl⟩ | ⟨binding, hbinding, rfl⟩
  · exact hpatch
  · exact hevidence binding hbinding
  · have hvalid := hpreimages binding hbinding
    rw [PreimageBinding.valid, Bool.and_eq_true, Bool.and_eq_true] at hvalid
    exact hvalid.1.2

/-! ## A capture that is stored -/

section
variable (R : ArtifactRepo) (call : PersistCapture)

def PersistCapture.document : StoredChangeSetDocument := documentOf R call.sessionId call.taskId call.capture

def PersistCapture.artifacts : List NewArtifact := artifactsOf R call.sessionId call.taskId call.capture

/-- The record of a capture, in a status since a time. -/
def PersistCapture.record (status : ChangeSetStatus) (updatedAt : String) : ChangeSetRecord :=
  .fromDocument (call.changeSetId R) call.sessionId call.workflowRunId call.nodeRunId call.taskId status (call.document R)
    (utcNowText call.now) updatedAt

def PersistCapture.row (status : ChangeSetStatus) (updatedAt : String) : ChangeSetRow :=
  ⟨call.changeSetId R, call.taskId, call.capture.manifest.baseCommit, call.patchSha256 R, status, utcNowText call.now, updatedAt⟩

def PersistCapture.columns : CaptureColumns :=
  ⟨call.capture.manifest.preStateHash, call.capture.manifest.postStateHash, (call.document R).json,
    (call.document R).canonicalPatchRef.artifactId⟩

/-- What a capture was found to be before it was stored. -/
structure PersistCapture.Checked : Prop where
  manifest : call.capture.manifest.Valid
  document : (call.document R).valid = true
  record : (call.record R call.status (utcNowText call.now)).changeSet.valid = true
  evidence : ∀ kind ∈ evidenceKinds, R.store.sha256 (call.capture.evidence kind) = call.capture.manifest.evidenceSha256 kind
  preimages : ∀ preimage ∈ call.capture.preimages, R.store.sha256 preimage.content = preimage.sha256

/-- The ChangeSet, its lineage and its artifacts are in the store, in a status since a time. -/
structure PersistCapture.Stored (s : CaptureStore) (status : ChangeSetStatus) (updatedAt : String) : Prop where
  row : s.db.changeSets.get? (call.changeSetId R) = some (call.row R status updatedAt)
  lineage : ∃ lineage, taskWithRun s.db call.taskId = some lineage ∧
    lineageIds lineage = (call.taskId, call.nodeRunId, call.workflowRunId, call.sessionId)
  columns : s.columns (call.changeSetId R) = some (call.columns R)
  artifacts : ∀ new ∈ call.artifacts R, Registered s.db (stagedOf R new).record ∧ (stagedOf R new).record.Stored R s.files

/-- The preimages are those that the changes call for, with others only of ignored files, and no two artifacts have one
id. -/
structure PersistCapture.Readable : Prop where
  distinct : ((call.artifacts R).map NewArtifact.artifactId).Nodup
  covered : ∀ path ∈ expectedPreimages call.capture.manifest, path ∈ call.capture.preimages.map FilePreimage.path
  ignored : ∀ preimage ∈ call.capture.preimages,
    preimage.path ∈ expectedPreimages call.capture.manifest ∨ preimage.baselineIgnored = true

end

namespace PersistCapture

section
variable {R : ArtifactRepo} {call : PersistCapture} {s : CaptureStore} {status : ChangeSetStatus} {updatedAt : String}

theorem references_document : references (call.document R) =
    ((call.artifacts R).map fun new => (stagedOf R new).record).map ArtifactRow.ref := by
  simp only [references, document, documentOf, artifacts, artifactsOf, List.map_cons, List.map_append, List.map_map]
  rfl

theorem artifact_owner {new : NewArtifact} (h : new ∈ call.artifacts R) :
    new.sessionId = call.sessionId ∧ new.taskId = some call.taskId ∧ new.plannerRunId = none := by
  simp only [artifacts, artifactsOf, List.mem_cons, List.mem_append, List.mem_map] at h
  rcases h with rfl | ⟨kind, -, rfl⟩ | ⟨preimage, -, rfl⟩ <;> exact ⟨rfl, rfl, rfl⟩

/-- The ids of the artifacts of a valid document are entity ids. -/
theorem artifact_id (h : (call.document R).valid = true) {new : NewArtifact} (hnew : new ∈ call.artifacts R) :
    isEntityId new.artifactId = true := by
  have hmem : (stagedOf R new).record.ref ∈ references (call.document R) := by
    rw [references_document, List.map_map]
    exact List.mem_map_of_mem hnew
  have hvalid := references_valid h _ hmem
  rw [ArtifactRef.valid, Bool.and_eq_true, Bool.and_eq_true] at hvalid
  exact hvalid.1.1

theorem Stored.owns (h : call.Stored R s status updatedAt) : Owns s.db call.sessionId call.taskId := by
  obtain ⟨lineage, hlineage, hids⟩ := h.lineage
  simp only [lineageIds, Prod.mk.injEq] at hids
  exact ⟨lineage, hlineage, hids.2.2.2⟩

theorem Stored.holds (h : call.Stored R s status updatedAt) (hchecked : call.Checked R) {new : NewArtifact}
    (hnew : new ∈ call.artifacts R) : Holds R s call.sessionId call.taskId (stagedOf R new).record := by
  obtain ⟨hsession, htask, hplanner⟩ := artifact_owner hnew
  obtain ⟨hregistered, hstored⟩ := h.artifacts new hnew
  exact ⟨artifact_id hchecked.document hnew, hsession, htask, hplanner, hregistered, hstored⟩

/-- The contract of a record does not depend on its status. -/
theorem Checked.contract (h : call.Checked R) : (call.record R status updatedAt).changeSet.valid = true := h.record

/-- The contract of a capture holds when its document and its ids do. -/
theorem contract_valid (hmanifest : call.capture.manifest.Valid) (hdocument : (call.document R).valid = true)
    (hids : [call.changeSetId R, call.sessionId, call.workflowRunId, call.nodeRunId, call.taskId].all isEntityId = true)
    (hpatch : Workspace.isSha256Hex (call.patchSha256 R) = true) : (call.record R status updatedAt).changeSet.valid = true := by
  obtain ⟨hbase, hpre, hpost, hchanges, hdirectories, hignored⟩ := ChangeSetManifest.build_fields hmanifest.build
  have hpaths : ∀ action, ((pathsOf action call.capture.manifest.changes).length ≤ 500 &&
      (pathsOf action call.capture.manifest.changes).all isRepoRelativePath) = true := by
    intro action
    rw [Bool.and_eq_true, decide_eq_true_iff, List.all_eq_true, pathsOf, List.length_map]
    refine ⟨(List.length_filter_le _ _).trans hchanges, fun path hpath => ?_⟩
    obtain ⟨change, hchange, rfl⟩ := List.mem_map.1 hpath
    exact FileChange.build_path (hmanifest.changes change (List.mem_filter.1 hchange).1)
  have hrefs := references_valid hdocument
  rw [references, List.forall_mem_cons, List.forall_mem_append] at hrefs
  obtain ⟨hpatchRef, hevidence, hpreimages⟩ := hrefs
  have hlength : (call.document R).preimages.length ≤ 500 := by
    simp only [StoredChangeSetDocument.valid, Bool.and_eq_true, decide_eq_true_eq] at hdocument
    exact hdocument.1.1.1.2
  have hlist : ∀ {α : Type} {l : List α} {p : α → Bool}, l.length ≤ 500 → l.all p = true → (l.length ≤ 500 && l.all p) = true :=
    fun hlen hall => Bool.and_eq_true_iff.2 ⟨decide_eq_true hlen, hall⟩
  unfold ChangeSet.valid
  simp only [Bool.and_eq_true]
  refine ⟨⟨⟨⟨⟨hids, hbase⟩, ?_⟩, hpatchRef⟩, ?_⟩, ?_⟩
  · exact List.all_eq_true.2 (List.forall_mem_cons.2 ⟨hpre, List.forall_mem_cons.2 ⟨hpost, List.forall_mem_cons.2 ⟨hpatch, by simp⟩⟩⟩)
  · have hthree : ((call.document R).evidence.map EvidenceBinding.artifactRef).length ≤ 500 := by
      rw [List.length_map]
      exact (show (3 : Nat) ≤ 500 by decide)
    have hmany : ((call.document R).preimages.map PreimageBinding.artifactRef).length ≤ 500 := by
      rw [List.length_map]
      exact hlength
    refine List.all_eq_true.2 (List.forall_mem_cons.2 ⟨hlist hthree (List.all_eq_true.2 hevidence), ?_⟩)
    exact List.forall_mem_cons.2 ⟨hlist hmany (List.all_eq_true.2 hpreimages), by simp⟩
  · refine List.all_eq_true.2 (List.forall_mem_cons.2 ⟨hpaths .created, ?_⟩)
    refine List.forall_mem_cons.2 ⟨hlist hdirectories.1 hdirectories.2, List.forall_mem_cons.2 ⟨hpaths .modified, ?_⟩⟩
    refine List.forall_mem_cons.2 ⟨hpaths .deleted, List.forall_mem_cons.2 ⟨hpaths .renamed, ?_⟩⟩
    refine List.forall_mem_cons.2 ⟨hpaths .created, List.forall_mem_cons.2 ⟨hlist hignored.1 hignored.2, by simp⟩⟩

/-- A capture with valid fields whose contents have the digests that it says passes every check of the writer. -/
theorem Checked.of (hhex : ∀ content, Workspace.isSha256Hex (R.store.sha256 content) = true) (hmanifest : call.capture.manifest.Valid)
    (hids : [call.sessionId, call.workflowRunId, call.nodeRunId, call.taskId].all isEntityId = true)
    (hlength : call.capture.preimages.length ≤ 500) (hfields : call.capture.preimages.all fieldsValid = true)
    (hpaths : (call.capture.preimages.map FilePreimage.path).Nodup)
    (hevidence : ∀ kind ∈ evidenceKinds, R.store.sha256 (call.capture.evidence kind) = call.capture.manifest.evidenceSha256 kind)
    (hpreimages : ∀ preimage ∈ call.capture.preimages, R.store.sha256 preimage.content = preimage.sha256) : call.Checked R := by
  have hdocument : (call.document R).valid = true := documentOf_valid hhex hlength hfields hpaths
  have hid : isEntityId (call.changeSetId R) = true := isEntityId_stableId hhex (by simp [isEntityId]) (by decide) _
  refine ⟨hmanifest, hdocument, contract_valid hmanifest hdocument ?_ (hhex _), hevidence, hpreimages⟩
  rw [List.all_cons, hid, hids]
  rfl

/-- Whatever was read under the id of each artifact has its digest. -/
def Verified (R : ArtifactRepo) (call : PersistCapture) (contents : List (String × Bytes)) : Prop :=
  ∀ new ∈ call.artifacts R, digestOf R contents (stagedOf R new).record.ref = R.store.sha256 new.content

/-- The references of the document of a capture that is stored are read. -/
theorem Stored.read (h : call.Stored R s status updatedAt) (hchecked : call.Checked R) :
    ∃ contents, readReferences R s call.sessionId call.taskId none none (references (call.document R)) 0 [] = .ok contents ∧
      call.Verified R contents := by
  have hholds : ∀ row ∈ (call.artifacts R).map fun new => (stagedOf R new).record,
      Holds R s call.sessionId call.taskId row := by
    intro row hrow
    obtain ⟨new, hnew, rfl⟩ := List.mem_map.1 hrow
    exact h.holds hchecked hnew
  obtain ⟨contents, hread, hfaithful, hsome⟩ := readReferences_ok hholds h.owns 0 [] (fun id content hlookup => by cases hlookup)
  refine ⟨contents, by rw [references_document]; exact hread, fun new hnew => ?_⟩
  refine digestOf_eq hfaithful (h.artifacts new hnew).1 (hsome _ (.inr ?_))
  rw [List.map_map]
  exact List.mem_map_of_mem hnew

theorem patch_mem : patchArtifact R call.sessionId call.taskId call.capture ∈ call.artifacts R := List.mem_cons_self

theorem evidence_mem {kind : EvidenceKind} (h : kind ∈ evidenceKinds) :
    evidenceArtifact R call.sessionId call.taskId call.capture kind ∈ call.artifacts R :=
  List.mem_cons_of_mem _ (List.mem_append_left _ (List.mem_map_of_mem h))

theorem preimage_mem {preimage : FilePreimage} (h : preimage ∈ call.capture.preimages) :
    preimageArtifact R call.sessionId call.taskId preimage ∈ call.artifacts R :=
  List.mem_cons_of_mem _ (List.mem_append_right _ (List.mem_map_of_mem h))

/-- The binding of a kind of evidence is the one of its artifact. -/
theorem evidence_binding (kind : EvidenceKind) :
    (call.document R).evidence.reverse.find? (fun binding => binding.kind = kind) =
      some ⟨kind, (stagedOf R (evidenceArtifact R call.sessionId call.taskId call.capture kind)).record.ref⟩ := by
  cases kind <;> rfl

theorem checkContents_ok (hchecked : call.Checked R) {contents : List (String × Bytes)} (h : call.Verified R contents) :
    checkContents R (call.document R) contents = .ok () := by
  have hpatch := h _ patch_mem
  unfold checkContents
  refine Tx.bind_ok.2 ⟨(), demand_ok.2 rfl, Tx.bind_ok.2 ⟨(), demand_ok.2 (decide_eq_true hpatch), ?_⟩⟩
  refine forM_ok_iff.2 fun kind hkind => ?_
  have hdigest := (h _ (evidence_mem hkind)).trans (hchecked.evidence kind hkind)
  rw [evidence_binding]
  exact Tx.bind_ok.2 ⟨(), demand_ok.2 rfl, demand_ok.2 (decide_eq_true hdigest)⟩

theorem checkPreimages_iff {contents : List (String × Bytes)} (h : call.Verified R contents) :
    checkPreimages R (call.document R) contents = .ok () ↔
      (∀ path ∈ expectedPreimages call.capture.manifest, path ∈ call.capture.preimages.map FilePreimage.path) ∧
      ∀ preimage ∈ call.capture.preimages,
        preimage.path ∈ expectedPreimages call.capture.manifest ∨ preimage.baselineIgnored = true := by
  have hpaths : (call.document R).preimages.map PreimageBinding.path = call.capture.preimages.map FilePreimage.path := by
    simp only [document, documentOf, List.map_map]
    rfl
  have hmanifest : (call.document R).manifest = call.capture.manifest := rfl
  have hcovered : ((expectedPreimages call.capture.manifest).all fun path =>
      (call.capture.preimages.map FilePreimage.path).contains path) = true ↔
      ∀ path ∈ expectedPreimages call.capture.manifest, path ∈ call.capture.preimages.map FilePreimage.path := by
    simp only [List.all_eq_true, List.contains_iff_mem]
  have hignored : ((call.document R).preimages.all fun binding =>
      (expectedPreimages call.capture.manifest).contains binding.path || binding.baselineIgnored) = true ↔
      ∀ preimage ∈ call.capture.preimages,
        preimage.path ∈ expectedPreimages call.capture.manifest ∨ preimage.baselineIgnored = true := by
    simp only [document, documentOf, List.all_map, List.all_eq_true, Function.comp_apply, Bool.or_eq_true,
      List.contains_iff_mem]
  unfold checkPreimages
  rw [hpaths, hmanifest, ← hcovered, ← hignored]
  constructor
  · intro hok
    obtain ⟨_, hone, hok⟩ := Tx.bind_ok.1 hok
    obtain ⟨_, htwo, -⟩ := Tx.bind_ok.1 hok
    exact ⟨demand_ok.1 hone, demand_ok.1 htwo⟩
  · rintro ⟨hone, htwo⟩
    refine Tx.bind_ok.2 ⟨(), demand_ok.2 hone, Tx.bind_ok.2 ⟨(), demand_ok.2 htwo, forM_ok_iff.2 fun binding hbinding => ?_⟩⟩
    obtain ⟨preimage, hmem, rfl⟩ := List.mem_map.1 hbinding
    have hdigest := h _ (preimage_mem hmem)
    exact Tx.bind_ok.2 ⟨(), demand_ok.2 rfl, demand_ok.2 (decide_eq_true hdigest)⟩

theorem checkColumns_ok : checkColumns (call.row R status updatedAt) (call.columns R) (call.document R) = .ok () := by
  unfold checkColumns
  refine Tx.bind_ok.2 ⟨(), demand_ok.2 (decide_eq_true rfl), Tx.bind_ok.2 ⟨(), demand_ok.2 (decide_eq_true rfl), ?_⟩⟩
  refine Tx.bind_ok.2 ⟨(), demand_ok.2 (decide_eq_true rfl), Tx.bind_ok.2 ⟨(), demand_ok.2 (decide_eq_true rfl), ?_⟩⟩
  exact demand_ok.2 (decide_eq_true rfl)

/-- A capture that is stored is read when it is readable, and then as its record. -/
theorem Stored.get_iff (h : call.Stored R s status updatedAt) (hchecked : call.Checked R) {record : ChangeSetRecord} :
    get R s (call.changeSetId R) none none none = .ok record ↔
      call.Readable R ∧ record = call.record R status updatedAt := by
  obtain ⟨⟨task, node, run⟩, hlineage, hids⟩ := h.lineage
  simp only [lineageIds, Prod.mk.injEq] at hids
  obtain ⟨htask, hnode, hrun, hsession⟩ := hids
  have hfound : changeSetLineage s.db (call.changeSetId R) = some (call.row R status updatedAt, task, node, run) := by
    have hlineage' : taskWithRun s.db (call.row R status updatedAt).taskId = some (task, node, run) := hlineage
    rw [changeSetLineage, h.row, Option.bind_some, hlineage', Option.map_some]
  have hparse : StoredChangeSetDocument.parse (call.document R).json = some (call.document R) :=
    StoredChangeSetDocument.parse_json hchecked.manifest hchecked.document
  obtain ⟨contents, hread, hverified⟩ := h.read hchecked
  rw [← htask, ← hsession] at hread
  have hids : (references (call.document R)).map ArtifactRef.artifactId = (call.artifacts R).map NewArtifact.artifactId := by
    rw [references_document, List.map_map, List.map_map]
    rfl
  have hrecord : ChangeSetRecord.fromDocument (call.row R status updatedAt).id run.sessionId run.id node.id task.id
      (call.row R status updatedAt).status (call.document R) (call.row R status updatedAt).createdAt
      (call.row R status updatedAt).updatedAt = call.record R status updatedAt := by
    rw [htask, hnode, hrun, hsession]
    rfl
  have hjson : (call.columns R).manifestJson = (call.document R).json := rfl
  unfold get
  rw [hfound, h.columns]
  dsimp only
  unfold verifiedRecord
  rw [hjson, hparse]
  dsimp only
  rw [hids, hrecord]
  constructor
  · intro hok
    obtain ⟨_, -, hok⟩ := Tx.bind_ok.1 hok
    obtain ⟨_, -, hok⟩ := Tx.bind_ok.1 hok
    obtain ⟨_, -, hok⟩ := Tx.bind_ok.1 hok
    obtain ⟨_, hdistinct, hok⟩ := Tx.bind_ok.1 hok
    obtain ⟨_, -, hok⟩ := Tx.bind_ok.1 hok
    obtain ⟨contents', hread', hok⟩ := Tx.bind_ok.1 hok
    obtain rfl := Except.ok.inj (hread.symm.trans hread')
    obtain ⟨_, -, hok⟩ := Tx.bind_ok.1 hok
    obtain ⟨_, hpreimages, hok⟩ := Tx.bind_ok.1 hok
    obtain ⟨_, -, hok⟩ := Tx.bind_ok.1 hok
    obtain ⟨hcovered, hignored⟩ := (checkPreimages_iff hverified).1 hpreimages
    exact ⟨⟨of_decide_eq_true (demand_ok.1 hdistinct), hcovered, hignored⟩, Tx.pure_ok.1 hok⟩
  · rintro ⟨hreadable, rfl⟩
    have hpreimages := (checkPreimages_iff hverified).2 ⟨hreadable.covered, hreadable.ignored⟩
    refine Tx.bind_ok.2 ⟨(), demand_ok.2 rfl, Tx.bind_ok.2 ⟨(), demand_ok.2 (decide_eq_true rfl), ?_⟩⟩
    refine Tx.bind_ok.2 ⟨(), checkColumns_ok, Tx.bind_ok.2 ⟨(), demand_ok.2 (decide_eq_true hreadable.distinct), ?_⟩⟩
    refine Tx.bind_ok.2 ⟨(), demand_ok.2 rfl, Tx.bind_ok.2 ⟨contents, hread, ?_⟩⟩
    refine Tx.bind_ok.2 ⟨(), checkContents_ok hchecked hverified, Tx.bind_ok.2 ⟨(), hpreimages, ?_⟩⟩
    exact Tx.bind_ok.2 ⟨(), demand_ok.2 hchecked.contract, rfl⟩

/-! ## The bytes of the artifacts -/

/-- The file of each artifact is the one that was captured. -/
def Intact (R : ArtifactRepo) (call : PersistCapture) (files : ArtifactFiles) : Prop :=
  ∀ new ∈ call.artifacts R, files (pathOf new) = some new.content

theorem Stored.content (h : call.Stored R s status updatedAt) (hchecked : call.Checked R) (hintact : call.Intact R s.files)
    {new : NewArtifact} (hnew : new ∈ call.artifacts R) :
    getAndVerify R s new.artifactId call.sessionId call.taskId none = .ok ((stagedOf R new).record, new.content) :=
  getAndVerify_ok (h.holds hchecked hnew) h.owns (hintact new hnew)

theorem Stored.loadPatch_eq (h : call.Stored R s status updatedAt) (hchecked : call.Checked R)
    (hintact : call.Intact R s.files) (hreadable : call.Readable R) :
    loadPatch R s (call.changeSetId R) = .ok (call.record R status updatedAt, call.capture.patchBytes) := by
  refine Tx.bind_ok.2 ⟨_, (h.get_iff hchecked).2 ⟨hreadable, rfl⟩, Tx.bind_ok.2 ⟨_, h.content hchecked hintact patch_mem, ?_⟩⟩
  exact Tx.bind_ok.2 ⟨(), demand_ok.2 (decide_eq_true rfl), rfl⟩

/-- A preimage as it is loaded; its size is that of its content. -/
def loaded (preimage : FilePreimage) : FilePreimage := { preimage with sizeBytes := preimage.content.length }

theorem Stored.loadPreimages_eq (h : call.Stored R s status updatedAt) (hchecked : call.Checked R)
    (hintact : call.Intact R s.files) (hreadable : call.Readable R) :
    loadPreimages R s (call.changeSetId R) = .ok (call.capture.preimages.map loaded) := by
  refine Tx.bind_ok.2 ⟨_, (h.get_iff hchecked).2 ⟨hreadable, rfl⟩, mapM_ok_iff.2 ?_⟩
  refine List.forall₂_map_left_iff.2 (List.forall₂_map_right_iff.2 (List.forall₂_same.2 fun preimage hmem => ?_))
  have hsha : (stagedOf R (preimageArtifact R call.sessionId call.taskId preimage)).record.ref.sha256 = preimage.sha256 :=
    hchecked.preimages preimage hmem
  refine Tx.bind_ok.2 ⟨_, h.content hchecked hintact (preimage_mem hmem), ?_⟩
  refine Tx.bind_ok.2 ⟨(), demand_ok.2 (decide_eq_true rfl), ?_⟩
  rw [Tx.pure_ok, hsha]
  rfl

/-- No file that is already under the name of an artifact has its digest and another content. -/
def NoCollision (R : ArtifactRepo) (call : PersistCapture) (files : ArtifactFiles) : Prop :=
  ∀ new ∈ call.artifacts R, ∀ content, files (pathOf new) = some content →
    R.store.sha256 content = R.store.sha256 new.content → content = new.content

/-- The files of a commit are those captured, unless two contents share a digest. -/
theorem intact_of_commit {files files' : ArtifactFiles} (hcollision : call.NoCollision R files) (hreadable : call.Readable R)
    (hstored : ∀ new ∈ call.artifacts R, (stagedOf R new).record.Stored R files')
    (horigin : ∀ path content, files' path = some content →
      files path = some content ∨ ∃ new ∈ call.artifacts R, path = pathOf new ∧ content = new.content) :
    call.Intact R files' := by
  intro new hnew
  obtain ⟨content, hfile, -, hsha⟩ := hstored new hnew
  have hfile' : files' (pathOf new) = some content := hfile
  have hsame : content = new.content := by
    rcases horigin _ _ hfile' with hold | ⟨other, hother, hpath, rfl⟩
    · exact hcollision new hnew content hold hsha
    · -- Artifacts with one name have one id, so they are one.
      have hid : other.artifactId = new.artifactId := (congrArg ArtifactPath.artifactId hpath).symm
      rw [List.inj_on_of_nodup_map hreadable.distinct hother hnew hid]
  rw [hfile', hsame]

/-! ## From the commit on -/

/-- A checked capture within the limit is committed when its transaction and its publications go through. -/
theorem commit_of {H : Digests} (hchecked : call.Checked R)
    (hsize : ∀ new ∈ call.artifacts R, new.content.length ≤ R.store.maxArtifactBytes) {db : Db} {files : ArtifactFiles}
    {published : List StagedArtifact} (hrun : (call.transaction R H ((call.artifacts R).map (stagedOf R))).run s.db = .ok ((), db))
    (hpublish : publishFiles R s.db s.files ((call.artifacts R).map (stagedOf R)) = .ok (files, published)) :
    call.commit R H s = .ok (call.record R call.status (utcNowText call.now), published,
      ⟨db, Function.update s.columns (call.changeSetId R) (some (call.columns R)), files⟩) := by
  refine Tx.bind_ok.2 ⟨_, stageCapture_of hchecked.document hchecked.evidence hchecked.preimages hsize, ?_⟩
  refine Tx.bind_ok.2 ⟨(), demand_ok.2 hchecked.record, ?_⟩
  dsimp only
  rw [artifacts] at hrun hpublish
  rw [hrun]
  dsimp only
  rw [hpublish]
  rfl

/-- What a commit leaves. -/
theorem commit_stored {H : Digests} {record : ChangeSetRecord} {published : List StagedArtifact} {s' : CaptureStore}
    (h : call.commit R H s = .ok (record, published, s')) (hmanifest : call.capture.manifest.Valid) :
    call.Checked R ∧ record = call.record R call.status (utcNowText call.now) ∧
      call.Stored R s' call.status (utcNowText call.now) ∧ finalizePublished R s'.files published = .ok () ∧
      ∀ path content, s'.files path = some content →
        s.files path = some content ∨ ∃ new ∈ call.artifacts R, path = pathOf new ∧ content = new.content := by
  unfold commit at h
  obtain ⟨⟨staged, document⟩, hstage, h⟩ := Tx.bind_ok.1 h
  obtain ⟨rfl, rfl, hvalid, hevidence, hpreimages⟩ := stageCapture_ok hstage
  obtain ⟨_, hcontract, h⟩ := Tx.bind_ok.1 h
  split at h
  · cases h
  · next db hrun =>
    obtain ⟨⟨files, published'⟩, hpublish, h⟩ := Tx.bind_ok.1 h
    obtain ⟨rfl, rfl, rfl⟩ : record = _ ∧ published = _ ∧ s' = _ := by simpa using Tx.pure_ok.1 h
    have hchecked : call.Checked R := ⟨hmanifest, hvalid, demand_ok.1 hcontract, hevidence, hpreimages⟩
    obtain ⟨-, hstored, horigin, hfinal⟩ := publishFiles_ok hpublish
    obtain ⟨⟨lineage, hlineage, hids⟩, hrow, hregistered⟩ := persistCapture_ok hrun
    obtain ⟨lineage', hlineage', hsame⟩ := lineage_moves (K := anyPowers) (persistCapture_moves _ _ _ _ _ _ _ _ _ _ _ _ _ _ _ _ _ hrun) hlineage
    refine ⟨hchecked, rfl, ⟨hrow, ⟨lineage', hlineage', hsame.trans hids⟩, Function.update_self .., fun new hnew => ?_⟩,
      finalizePublished_ok hfinal, horigin⟩
    exact ⟨hregistered _ (List.mem_map_of_mem (List.mem_map_of_mem hnew)), hstored new hnew⟩

/-- A transition leaves a capture stored, and moves nothing else of it. -/
theorem Stored.transition (h : call.Stored R s status updatedAt) (t : Transition) :
    (t.apply s).files = s.files ∧ ∃ status updatedAt, call.Stored R (t.apply s) status updatedAt := by
  unfold Transition.apply
  split
  · next db hrun =>
    obtain ⟨⟨row, hrow, hself⟩, hothers, hregisters⟩ := transition_ok hrun
    have hmoves : Moves anyPowers s.db db := transition_moves (fun _ => trivial) _ _ _ _ _ _ _ _ _ hrun
    obtain ⟨lineage, hlineage, hids⟩ := h.lineage
    obtain ⟨lineage', hlineage', hsame⟩ := lineage_moves hmoves hlineage
    have hartifacts : ∀ new ∈ call.artifacts R,
        Registered db (stagedOf R new).record ∧ (stagedOf R new).record.Stored R s.files :=
      fun new hnew => ⟨(h.artifacts new hnew).1.kept hregisters, (h.artifacts new hnew).2⟩
    refine ⟨rfl, ?_⟩
    by_cases hid : call.changeSetId R = t.changeSetId
    · rw [← hid, h.row] at hrow
      obtain rfl := Option.some.inj hrow
      rw [← hid] at hself
      exact ⟨t.target, utcNowText t.now, hself, ⟨lineage', hlineage', hsame.trans hids⟩, h.columns, hartifacts⟩
    · exact ⟨status, updatedAt, (hothers _ hid).trans h.row, ⟨lineage', hlineage', hsame.trans hids⟩, h.columns, hartifacts⟩
  · exact ⟨rfl, status, updatedAt, h⟩

/-- Any number of them do. -/
theorem Stored.transitions (h : call.Stored R s status updatedAt) (ts : List Transition) :
    (ts.foldl (fun s t => t.apply s) s).files = s.files ∧
      ∃ status updatedAt, call.Stored R (ts.foldl (fun s t => t.apply s) s) status updatedAt := by
  induction ts generalizing s status updatedAt with
  | nil => exact ⟨rfl, status, updatedAt, h⟩
  | cons t ts ih =>
    obtain ⟨hfiles, _, _, hstored⟩ := h.transition t
    obtain ⟨hfiles', hrest⟩ := ih hstored
    exact ⟨hfiles'.trans hfiles, hrest⟩

end

end PersistCapture

/-- A record in another status, since another time. -/
def moved (record : ChangeSetRecord) (status : ChangeSetStatus) (updatedAt : String) : ChangeSetRecord :=
  { record with changeSet := { record.changeSet with status }, updatedAt }

/-- What the claims on a preimage are about. -/
def view (preimage : FilePreimage) : String × Bytes × Nat × Bool :=
  (preimage.path, preimage.content, preimage.mode, preimage.baselineIgnored)

/-- A capture that was committed is returned, and is read back exactly when it is readable. It is then read back as it was
returned, and after any transitions with another status and time at most; the patch and the preimages are loaded as they
were captured. -/
theorem capture_reads_back {R : ArtifactRepo} {H : Digests} {call : PersistCapture} {s s' : CaptureStore}
    {record : ChangeSetRecord} {published : List StagedArtifact} (hcommit : call.commit R H s = .ok (record, published, s'))
    (hmanifest : call.capture.manifest.Valid) :
    call.run R H s = (.ok record, s') ∧ record.changeSet.changeSetId = call.changeSetId R ∧
      ((∃ r, get R s' record.changeSet.changeSetId none none none = .ok r) ↔ call.Readable R) ∧
      (call.Readable R → get R s' record.changeSet.changeSetId none none none = .ok record ∧
        ∀ ts : List Transition, ∃ status updatedAt,
          let later := ts.foldl (fun s t => t.apply s) s'
          get R later record.changeSet.changeSetId none none none = .ok (moved record status updatedAt) ∧
            (call.NoCollision R s.files →
              loadPatch R later record.changeSet.changeSetId = .ok (moved record status updatedAt, call.capture.patchBytes) ∧
              ∃ preimages, loadPreimages R later record.changeSet.changeSetId = .ok preimages ∧
                preimages.map view = call.capture.preimages.map view)) := by
  obtain ⟨hchecked, rfl, hstored, hfinal, horigin⟩ := PersistCapture.commit_stored hcommit hmanifest
  have hget : call.Readable R → get R s' (call.changeSetId R) none none none =
      .ok (call.record R call.status (utcNowText call.now)) := fun hreadable => (hstored.get_iff hchecked).2 ⟨hreadable, rfl⟩
  refine ⟨?_, rfl, ⟨?_, fun hreadable => ⟨_, hget hreadable⟩⟩, fun hreadable => ⟨hget hreadable, fun ts => ?_⟩⟩
  · rw [PersistCapture.run, hcommit]
    dsimp only
    rw [hfinal]
    rfl
  · rintro ⟨r, hr⟩
    exact ((hstored.get_iff hchecked).1 hr).1
  · obtain ⟨hfiles, status, updatedAt, hlater⟩ := hstored.transitions ts
    refine ⟨status, updatedAt, (hlater.get_iff hchecked).2 ⟨hreadable, rfl⟩, fun hcollision => ?_⟩
    have hintact := PersistCapture.intact_of_commit hcollision hreadable (fun new hnew => (hstored.artifacts new hnew).2) horigin
    rw [← hfiles] at hintact
    refine ⟨hlater.loadPatch_eq hchecked hintact hreadable, _, hlater.loadPreimages_eq hchecked hintact hreadable, ?_⟩
    rw [List.map_map]
    rfl

/-- The preimages that a transaction builds for its changes are those they call for. -/
theorem built_preimages {W : Type} {host : Host} {machine : Machine W} {tx : WorkspaceTransaction}
    (hignored : WorkspaceTransaction.IgnoredRecorded host machine tx) {after : Inventory} {current : RepositoryState}
    {capture : CapturedWorkspaceChangeSet} {output : Bytes} {w w' : W}
    (hchanges : buildFileChanges host tx.baselineInventory after output = .ok capture.manifest.changes)
    (hpreimages : tx.buildPreimages host machine capture.manifest.changes (tx.ignoredChanges after current) w =
      .ok capture.preimages w') :
    (∀ path ∈ expectedPreimages capture.manifest, path ∈ capture.preimages.map FilePreimage.path) ∧
      ∀ preimage ∈ capture.preimages, preimage.path ∈ expectedPreimages capture.manifest ∨ preimage.baselineIgnored = true := by
  have hsourced := buildFileChanges_sourced hchanges
  obtain ⟨-, hkeys, -⟩ := WorkspaceTransaction.buildPreimages_ok hignored hsourced hpreimages
  have hexpected : ∀ path, path ∈ expectedPreimages capture.manifest ↔
      ∃ c ∈ capture.manifest.changes, c.action ≠ .created ∧ c.source = path := by
    intro path
    simp only [expectedPreimages, List.mem_map, List.mem_filter, decide_eq_true_eq, and_assoc]
    rfl
  refine ⟨fun path hpath => (hkeys path).2 (.inl ((hexpected path).1 hpath)), fun preimage hmem => ?_⟩
  exact (WorkspaceTransaction.buildPreimages_flagged hignored hsourced hpreimages preimage hmem).imp_left (hexpected _).2

/-! ## A sample capture -/

/-- The digests of what is digested of the sample: the texts that are joined by a NUL, and their digest. -/
def capturedTexts : List (List String × String) :=
  [([], "e3b0c44298fc1c149afbf4c8996fb92427ae41e4649b934ca495991b7852b855"),
    (["a"], "ca978112ca1bbdcafac231b39a23dc4da786eff8147c4e72b9807785afee48bb"),
    (["p"], "148de9c5a7a44d19e56cd9ae1a554bf67847afb0c58f6e12fa29ac7ddfca9940"),
    (["t", "148de9c5a7a44d19e56cd9ae1a554bf67847afb0c58f6e12fa29ac7ddfca9940"],
      "ca2deef2515b4ac50041718c58ae5312334d39994630896b08ed9c4d8b520756"),
    (["t", "e3b0c44298fc1c149afbf4c8996fb92427ae41e4649b934ca495991b7852b855"],
      "8a87eddaf04d03d38d5888988d074783e33afd5201350c56f078ed98dc2a187e"),
    (["t", "a.py", "ca978112ca1bbdcafac231b39a23dc4da786eff8147c4e72b9807785afee48bb"],
      "d810367bed842e500658ee24edf965ef22e46568830824795a4635e37f0ccbf5"),
    (["t", "0000000000000000000000000000000000000000", "72231043bc1807e6f740b235eb7511ecb33255a6a375435631196de8a9750d4b",
      "148de9c5a7a44d19e56cd9ae1a554bf67847afb0c58f6e12fa29ac7ddfca9940"],
      "02c7b845f6f1d81fe8e495d360b736f4da0f2e965a4d7b0a9691586945f63da8")]

def captureRepo : ArtifactRepo where
  store :=
    { sha256 := fun content => ((capturedTexts.find? fun entry =>
        utf8 ((String.ofList [Char.ofNat 0]).intercalate entry.1) = content).getD
        ([], "e3b0c44298fc1c149afbf4c8996fb92427ae41e4649b934ca495991b7852b855")).2
      maxArtifactBytes := 100 }
  limits := ⟨100, 1000⟩

theorem captureRepo_hex (content : Bytes) : Workspace.isSha256Hex (captureRepo.store.sha256 content) = true := by
  have htexts : ∀ entry ∈ capturedTexts, Workspace.isSha256Hex entry.2 = true := by decide +kernel
  rw [captureRepo]
  dsimp only
  cases hfound : capturedTexts.find? fun entry => utf8 ((String.ofList [Char.ofNat 0]).intercalate entry.1) = content with
  | none => exact htexts _ List.mem_cons_self
  | some entry => exact htexts entry (List.mem_of_find?_eq_some hfound)

/-- The sample run, its write task running. -/
def captureStore : CaptureStore where
  db := { sampleDb with
    workflowRuns := ⟨[{ sampleRunRow with status := .running, currentCommit := "0000000000000000000000000000000000000000" }],
      by decide, by decide⟩
    nodeRuns := ⟨sampleGraph.nodes.map fun n =>
      { sampleNodeRun n with status := if n.id = "write" then .running else .pending }, by decide, by decide⟩
    tasks := ⟨[⟨"t", "rwrite", "g", "0000000000000000000000000000000000000000", none, none, .running, "", none⟩],
      by decide, by decide⟩
    changeSets := Table.empty }
  columns _ := none
  files _ := none

/-- The task has written `b` where `a` was. -/
def sampleManifest : ChangeSetManifest where
  baseCommit := "0000000000000000000000000000000000000000"
  preStateHash := "695252f664b93b2375fc1738693a32a19e8c722fe14e81a3d80cc5b85a923da0"
  postStateHash := "72231043bc1807e6f740b235eb7511ecb33255a6a375435631196de8a9750d4b"
  changes := [
    { action := .modified, path := "a.py", oldPath := none
      beforeSha256 := some "ca978112ca1bbdcafac231b39a23dc4da786eff8147c4e72b9807785afee48bb"
      afterSha256 := some "3e23e8160039594a33894f6564e1b1348bbd7a0088d42c4acb73eeaed59c009d"
      beforeSize := some 1, afterSize := some 1, binary := false }]
  createdDirectories := []
  ignoredFilesTouched := []
  stagedEvidenceSha256 := "e3b0c44298fc1c149afbf4c8996fb92427ae41e4649b934ca495991b7852b855"
  unstagedEvidenceSha256 := "e3b0c44298fc1c149afbf4c8996fb92427ae41e4649b934ca495991b7852b855"
  statusEvidenceSha256 := "e3b0c44298fc1c149afbf4c8996fb92427ae41e4649b934ca495991b7852b855"

/-- The capture with these preimages. -/
def sampleCapture (preimages : List FilePreimage) : PersistCapture where
  sessionId := "s"
  workflowRunId := "r"
  nodeRunId := "rwrite"
  taskId := "t"
  capture := ⟨sampleManifest, [112], [], [], [], preimages⟩
  taskTarget := .succeeded
  taskErrorCode := none
  status := .captured
  reason := none
  masterLease := sampleLease
  workspaceLease := ⟨"session:s:integration", "agent_task", "t", 1, 1, "", "", "0002"⟩
  now := sampleNow

def samplePreimages : List FilePreimage :=
  [⟨"a.py", "ca978112ca1bbdcafac231b39a23dc4da786eff8147c4e72b9807785afee48bb", 1, 0o644, [97], false⟩]

theorem sampleManifest_valid : sampleManifest.Valid := ⟨by decide +kernel, by decide +kernel⟩

theorem sampleCapture_checked : ∀ preimages ∈ [[], samplePreimages], (sampleCapture preimages).Checked captureRepo := by
  intro preimages hmem
  have hfields : ∀ preimages ∈ [[], samplePreimages], preimages.length ≤ 500 ∧ preimages.all fieldsValid = true ∧
      (preimages.map FilePreimage.path).Nodup ∧
      ∀ preimage ∈ preimages, captureRepo.store.sha256 preimage.content = preimage.sha256 := by
    decide +kernel
  obtain ⟨hlength, hfields, hpaths, hpreimages⟩ := hfields preimages hmem
  refine .of captureRepo_hex sampleManifest_valid ?_ hlength hfields hpaths ?_ hpreimages
  · simp [sampleCapture, isEntityId]
  · have hempty : captureRepo.store.sha256 [] = "e3b0c44298fc1c149afbf4c8996fb92427ae41e4649b934ca495991b7852b855" := by
      decide +kernel
    intro kind _
    cases kind <;> exact hempty

/-- The sample is committed, with its preimage and without. -/
theorem sampleCapture_commits : ∀ preimages ∈ [[], samplePreimages], ∃ record published s',
    (sampleCapture preimages).commit captureRepo sampleDigests captureStore = .ok (record, published, s') := by
  intro preimages hmem
  have hrun : ∀ preimages ∈ [[], samplePreimages], (((sampleCapture preimages).transaction captureRepo sampleDigests
      (((sampleCapture preimages).artifacts captureRepo).map (stagedOf captureRepo))).run captureStore.db).toOption.isSome = true := by
    decide +kernel
  have hpublish : ∀ preimages ∈ [[], samplePreimages], (publishFiles captureRepo captureStore.db captureStore.files
      (((sampleCapture preimages).artifacts captureRepo).map (stagedOf captureRepo))).toOption.isSome = true := by
    decide +kernel
  have hsize : ∀ preimages ∈ [[], samplePreimages], ∀ new ∈ (sampleCapture preimages).artifacts captureRepo,
      new.content.length ≤ captureRepo.store.maxArtifactBytes := by
    decide +kernel
  have hok : ∀ {ε α : Type} {x : Except ε α}, x.toOption.isSome = true → ∃ a, x = .ok a := by
    rintro ε α (e | a) h
    · cases h
    · exact ⟨a, rfl⟩
  obtain ⟨⟨⟨⟩, db⟩, hdb⟩ := hok (hrun preimages hmem)
  obtain ⟨⟨files, published⟩, hfiles⟩ := hok (hpublish preimages hmem)
  exact ⟨_, _, _, PersistCapture.commit_of (sampleCapture_checked preimages hmem) (hsize preimages hmem) hdb hfiles⟩

/-- The guard of the sample passes. -/
def sampleTransition (changeSetId : String) : Transition :=
  ⟨changeSetId, .captured, .guardPassed, sampleLease, none, none, none, sampleNow⟩

/-- The sample is read back after its guard has passed, with the patch and the preimage that were captured. -/
theorem capture_reads_back_sample : ∃ record s' status updatedAt preimages,
    (sampleCapture samplePreimages).run captureRepo sampleDigests captureStore = (.ok record, s') ∧
    get captureRepo s' record.changeSet.changeSetId none none none = .ok record ∧
    loadPatch captureRepo ((sampleTransition record.changeSet.changeSetId).apply s') record.changeSet.changeSetId =
      .ok (moved record status updatedAt, [112]) ∧
    loadPreimages captureRepo ((sampleTransition record.changeSet.changeSetId).apply s') record.changeSet.changeSetId =
      .ok preimages ∧ preimages.map view = [("a.py", [97], 0o644, false)] := by
  obtain ⟨record, published, s', hcommit⟩ := sampleCapture_commits samplePreimages (by simp)
  have hreadable : (sampleCapture samplePreimages).Readable captureRepo := ⟨by decide +kernel, by decide, by decide⟩
  obtain ⟨hrun, -, -, hreads⟩ := capture_reads_back hcommit sampleManifest_valid
  obtain ⟨hget, hlater⟩ := hreads hreadable
  obtain ⟨status, updatedAt, -, hloads⟩ := hlater [sampleTransition record.changeSet.changeSetId]
  obtain ⟨hpatch, preimages, hpreimages, hview⟩ := hloads fun _ _ _ hfile => nomatch hfile
  exact ⟨record, s', status, updatedAt, preimages, hrun, hget, hpatch, hpreimages, hview⟩

/-- Without the preimage of what it modified, a capture is committed and never read. -/
theorem uncovered_capture : ∃ record published s', sampleManifest.Valid ∧
    (sampleCapture []).commit captureRepo sampleDigests captureStore = .ok (record, published, s') ∧
    ∀ r, get captureRepo s' record.changeSet.changeSetId none none none ≠ .ok r := by
  obtain ⟨record, published, s', hcommit⟩ := sampleCapture_commits [] (by simp)
  obtain ⟨hchecked, rfl, hstored, -⟩ := PersistCapture.commit_stored hcommit sampleManifest_valid
  refine ⟨_, published, s', sampleManifest_valid, hcommit, fun r hr => ?_⟩
  have hreadable := ((hstored.get_iff hchecked).1 hr).1
  exact absurd hreadable.covered (by decide)

end CaptureStore

end AgentHub
