import AgentHub.Storage.Artifacts.Agreement
import AgentHub.Storage.CallBooks
import AgentHub.Storage.Captures.Store
/-!
# What a committed capture leaves

The files of its artifacts, with the sizes and digests that were announced, their rows, and the row of the ChangeSet.
A transition leaves all of it but the status of the ChangeSet and the time of its last update.
-/

namespace AgentHub

open Lib Workspace

namespace CaptureStore

/-! ## What is staged -/

section
variable {R : ArtifactRepo} {sessionId taskId : String} {capture : CapturedWorkspaceChangeSet}

/-- Where the file of an artifact is. -/
def pathOf (new : NewArtifact) : ArtifactPath := ⟨new.artifactType, new.artifactId⟩

/-- What staging an artifact gives. -/
def stagedOf (R : ArtifactRepo) (new : NewArtifact) : StagedArtifact :=
  { record :=
      { id := new.artifactId
        sessionId := new.sessionId
        taskId := new.taskId
        plannerRunId := new.plannerRunId
        artifactType := new.artifactType
        relativePath := (pathOf new).relative
        sha256 := R.store.sha256 new.content
        sizeBytes := new.content.length
        redacted := new.redacted }
    handle := ⟨new.artifactId, new.artifactType, R.store.sha256 new.content, new.content.length, some new.content, .staged⟩ }

theorem stage_of {new : NewArtifact} (howner : new.plannerRunId = none) (h : new.content.length ≤ R.store.maxArtifactBytes) :
    R.stage new = .ok (stagedOf R new) := by
  unfold ArtifactRepo.stage ArtifactStore.writeTemp
  rw [if_neg (by simp [howner]), if_neg (by omega)]
  rfl

theorem stage_eq {new : NewArtifact} {s : StagedArtifact} (h : R.stage new = .ok s) : s = stagedOf R new := by
  unfold ArtifactRepo.stage ArtifactStore.writeTemp at h
  split at h
  · cases h
  · split at h
    · cases h
    · cases h
      rfl

/-- The artifacts of a capture, in the order in which they are staged. -/
def artifactsOf (R : ArtifactRepo) (sessionId taskId : String) (capture : CapturedWorkspaceChangeSet) : List NewArtifact :=
  patchArtifact R sessionId taskId capture :: (evidenceKinds.map (evidenceArtifact R sessionId taskId capture) ++
    capture.preimages.map (preimageArtifact R sessionId taskId))

/-- The document of a capture. -/
def documentOf (R : ArtifactRepo) (sessionId taskId : String) (capture : CapturedWorkspaceChangeSet) :
    StoredChangeSetDocument where
  manifest := capture.manifest
  canonicalPatchRef := (stagedOf R (patchArtifact R sessionId taskId capture)).record.ref
  evidence := evidenceKinds.map fun kind => ⟨kind, (stagedOf R (evidenceArtifact R sessionId taskId capture kind)).record.ref⟩
  preimages := capture.preimages.map fun preimage =>
    ⟨preimage.path, (stagedOf R (preimageArtifact R sessionId taskId preimage)).record.ref, preimage.mode,
      preimage.baselineIgnored⟩

theorem map_of_forall₂ {α β : Type} {p : α → β → Prop} {g : α → β} {l : List α} {l' : List β} (h : List.Forall₂ p l l')
    (hg : ∀ a b, p a b → b = g a) : l' = l.map g := by
  induction h with
  | nil => rfl
  | cons hab _ ih => rw [List.map_cons, ← ih, hg _ _ hab]

theorem exists_of_forall₂ {α β : Type} {p : α → β → Prop} {l : List α} {l' : List β} (h : List.Forall₂ p l l') :
    ∀ a ∈ l, ∃ b, p a b := by
  induction h with
  | nil => simp
  | cons hab _ ih => exact List.forall_mem_cons.2 ⟨⟨_, hab⟩, ih⟩

/-- A capture that is staged has the digests it is captured with and a valid document. -/
theorem stageCapture_ok {staged : List StagedArtifact} {document : StoredChangeSetDocument}
    (h : stageCapture R sessionId taskId capture = .ok (staged, document)) :
    staged = (artifactsOf R sessionId taskId capture).map (stagedOf R) ∧ document = documentOf R sessionId taskId capture ∧
      document.valid = true ∧
      (∀ kind ∈ evidenceKinds, R.store.sha256 (capture.evidence kind) = capture.manifest.evidenceSha256 kind) ∧
      ∀ preimage ∈ capture.preimages, R.store.sha256 preimage.content = preimage.sha256 := by
  unfold stageCapture at h
  obtain ⟨_, hdigests, h⟩ := Tx.bind_ok.1 h
  obtain ⟨patch, hpatch, h⟩ := Tx.bind_ok.1 h
  obtain ⟨evidence, hevidence, h⟩ := Tx.bind_ok.1 h
  obtain ⟨preimages, hpreimages, h⟩ := Tx.bind_ok.1 h
  obtain ⟨_, hvalid, h⟩ := Tx.bind_ok.1 h
  obtain ⟨rfl, rfl⟩ := Prod.mk.inj (Tx.pure_ok.1 h)
  have hevidence' := map_of_forall₂ (g := fun kind => (stagedOf R (evidenceArtifact R sessionId taskId capture kind),
    (⟨kind, (stagedOf R (evidenceArtifact R sessionId taskId capture kind)).record.ref⟩ : EvidenceBinding)))
    (mapM_ok_iff.1 hevidence) (by
      rintro kind b hb
      obtain ⟨s, hs, hb⟩ := Tx.bind_ok.1 hb
      rw [Tx.pure_ok.1 hb, stage_eq hs])
  have hpreimages' := map_of_forall₂ (g := fun preimage => (stagedOf R (preimageArtifact R sessionId taskId preimage),
    (⟨preimage.path, (stagedOf R (preimageArtifact R sessionId taskId preimage)).record.ref, preimage.mode,
      preimage.baselineIgnored⟩ : PreimageBinding)))
    (mapM_ok_iff.1 hpreimages) (by
      rintro preimage b hb
      obtain ⟨_, -, hb⟩ := Tx.bind_ok.1 hb
      obtain ⟨s, hs, hb⟩ := Tx.bind_ok.1 hb
      rw [Tx.pure_ok.1 hb, stage_eq hs])
  refine ⟨?_, ?_, demand_ok.1 hvalid, fun kind hkind => ?_, fun preimage hmem => ?_⟩
  · rw [stage_eq hpatch, hevidence', hpreimages']
    simp only [artifactsOf, List.map_cons, List.map_append, List.map_map]
    rfl
  · rw [stage_eq hpatch, hevidence', hpreimages']
    simp only [documentOf, List.map_map]
    rfl
  · simpa using forM_ok_iff.1 hdigests kind hkind
  · obtain ⟨b, hb⟩ := exists_of_forall₂ (mapM_ok_iff.1 hpreimages) preimage hmem
    obtain ⟨_, hsha, -⟩ := Tx.bind_ok.1 hb
    simpa using hsha

/-- And one that has both, with contents within the limit, is staged. -/
theorem stageCapture_of (hvalid : (documentOf R sessionId taskId capture).valid = true)
    (hevidence : ∀ kind ∈ evidenceKinds, R.store.sha256 (capture.evidence kind) = capture.manifest.evidenceSha256 kind)
    (hpreimages : ∀ preimage ∈ capture.preimages, R.store.sha256 preimage.content = preimage.sha256)
    (hsize : ∀ new ∈ artifactsOf R sessionId taskId capture, new.content.length ≤ R.store.maxArtifactBytes) :
    stageCapture R sessionId taskId capture =
      .ok ((artifactsOf R sessionId taskId capture).map (stagedOf R), documentOf R sessionId taskId capture) := by
  obtain ⟨hpatch, hrest⟩ := List.forall_mem_cons.1 hsize
  have hstagedEvidence : evidenceKinds.mapM (stageEvidence R sessionId taskId capture) = .ok (evidenceKinds.map fun kind =>
      (stagedOf R (evidenceArtifact R sessionId taskId capture kind),
        ⟨kind, (stagedOf R (evidenceArtifact R sessionId taskId capture kind)).record.ref⟩)) := by
    refine mapM_eq_map fun kind hkind => ?_
    have hlimit := hrest _ (List.mem_append_left _ (List.mem_map_of_mem hkind))
    exact Tx.bind_ok.2 ⟨_, stage_of rfl hlimit, rfl⟩
  have hstagedPreimages : capture.preimages.mapM (stagePreimage R sessionId taskId) = .ok (capture.preimages.map fun preimage =>
      (stagedOf R (preimageArtifact R sessionId taskId preimage),
        ⟨preimage.path, (stagedOf R (preimageArtifact R sessionId taskId preimage)).record.ref, preimage.mode,
          preimage.baselineIgnored⟩)) := by
    refine mapM_eq_map fun preimage hmem => ?_
    have hlimit := hrest _ (List.mem_append_right _ (List.mem_map_of_mem hmem))
    exact Tx.bind_ok.2 ⟨(), demand_ok.2 (decide_eq_true (hpreimages preimage hmem)), Tx.bind_ok.2 ⟨_, stage_of rfl hlimit, rfl⟩⟩
  refine Tx.bind_ok.2 ⟨(), forM_ok_iff.2 fun kind hkind => demand_ok.2 (decide_eq_true (hevidence kind hkind)), ?_⟩
  refine Tx.bind_ok.2 ⟨_, stage_of rfl hpatch, Tx.bind_ok.2 ⟨_, hstagedEvidence, Tx.bind_ok.2 ⟨_, hstagedPreimages, ?_⟩⟩⟩
  refine Tx.bind_ok.2 ⟨(), demand_ok.2 ?_, ?_⟩
  · rw [List.map_map, List.map_map]
    exact hvalid
  · rw [Tx.pure_ok, List.map_map, List.map_map, List.map_map, List.map_map]
    simp only [artifactsOf, documentOf, List.map_cons, List.map_append, List.map_map]
    rfl

end

/-! ## The contracts of what is staged -/

theorem isEntityId_stableId {sha256 : Bytes → String} (hhex : ∀ content, Workspace.isSha256Hex (sha256 content) = true) {label : String}
    (hlabel : isEntityId label = true) (hshort : label.toList.length ≤ 64) (values : List String) :
    isEntityId (stableId sha256 label values) = true := by
  have hlist : (stableId sha256 label values).toList =
      label.toList ++ '-' :: (sha256 (utf8 ((String.ofList [Char.ofNat 0]).intercalate values))).toList.take 32 := by
    simp [stableId]
  have hdigits := hhex (utf8 ((String.ofList [Char.ofNat 0]).intercalate values))
  simp only [Workspace.isSha256Hex, Bool.and_eq_true, List.all_eq_true] at hdigits
  rw [isEntityId_eq] at hlabel ⊢
  rw [hlist]
  cases hchars : label.toList with
  | nil => simp [hchars] at hlabel
  | cons c cs =>
    rw [hchars] at hlabel hshort
    simp only [Bool.and_eq_true, List.all_eq_true, decide_eq_true_eq] at hlabel
    simp only [List.cons_append, Bool.and_eq_true, List.all_eq_true, decide_eq_true_eq, List.mem_append, List.mem_cons]
    obtain ⟨⟨hc, hcs⟩, -⟩ := hlabel
    refine ⟨⟨hc, ?_⟩, ?_⟩
    · rintro d (hd | rfl | hd)
      · exact hcs d hd
      · decide
      · have hdigit := hdigits.2 d (List.mem_of_mem_take hd)
        have halpha : d.isAlphanum = true := by
          simp only [Bool.or_eq_true, Bool.and_eq_true, decide_eq_true_eq] at hdigit
          rcases hdigit with hdigit | ⟨ha, hf⟩
          · exact Bool.or_eq_true_iff.2 (.inr hdigit)
          · have hz : d ≤ 'z' := le_trans hf (by decide)
            have hlower : d.isLower = true := Bool.and_eq_true_iff.2 ⟨decide_eq_true ha, decide_eq_true hz⟩
            exact Bool.or_eq_true_iff.2 (.inl (Bool.or_eq_true_iff.2 (.inr hlower)))
        rw [halpha]
        rfl
    · simp only [List.length_cons, List.length_append, List.length_take] at hshort ⊢
      omega

theorem isRepoRelativePath_relative {p : ArtifactPath} (h : isEntityId p.artifactId = true) : isRepoRelativePath p.relative = true := by
  have hlen : p.artifactId.length ≤ 128 := by
    rw [isEntityId_eq] at h
    rw [← String.length_toList]
    cases hchars : p.artifactId.toList with
    | nil => exact Nat.zero_le _
    | cons c cs =>
      rw [hchars, Bool.and_eq_true, decide_eq_true_iff] at h
      rw [List.length_cons]
      omega
  have htype : p.artifactType.value.length ≤ 15 := by cases p.artifactType <;> decide
  have hslash : "/".length = 1 := by decide
  have hrelative : p.relative.length = p.artifactType.value.length + 1 + p.artifactId.length := by
    rw [ArtifactPath.relative, String.length_append, String.length_append, hslash]
  rw [isRepoRelativePath, hrelative, Bool.and_eq_true, decide_eq_true_iff, decide_eq_true_iff]
  omega

section
variable {R : ArtifactRepo} {sessionId taskId : String} {capture : CapturedWorkspaceChangeSet}

/-- The references of staged artifacts are valid. -/
theorem stagedRef_valid (hhex : ∀ content, Workspace.isSha256Hex (R.store.sha256 content) = true) {new : NewArtifact}
    (hid : isEntityId new.artifactId = true) : (stagedOf R new).record.ref.valid = true := by
  have hpath : isRepoRelativePath (pathOf new).relative = true := isRepoRelativePath_relative hid
  rw [ArtifactRef.valid, Bool.and_eq_true, Bool.and_eq_true]
  exact ⟨⟨hid, hpath⟩, hhex _⟩

/-- The ids of the artifacts of a capture are entity ids. -/
theorem artifactsOf_ids (hhex : ∀ content, Workspace.isSha256Hex (R.store.sha256 content) = true) :
    ∀ new ∈ artifactsOf R sessionId taskId capture, isEntityId new.artifactId = true := by
  intro new hnew
  rw [artifactsOf, List.mem_cons, List.mem_append, List.mem_map, List.mem_map] at hnew
  rcases hnew with rfl | ⟨kind, -, rfl⟩ | ⟨preimage, -, rfl⟩
  · exact isEntityId_stableId hhex (by simp [isEntityId]) (by decide) _
  · cases kind <;> exact isEntityId_stableId hhex (by simp [isEntityId, EvidenceKind.value]) (by decide) _
  · exact isEntityId_stableId hhex (by simp [isEntityId]) (by decide) _

/-- The fields of a preimage, as a binding has them. -/
def fieldsValid (preimage : FilePreimage) : Bool := isRepoRelativePath preimage.path && preimage.mode ≤ 0o777

/-- The document of a capture is valid when its preimages are, no two of them of one path. -/
theorem documentOf_valid (hhex : ∀ content, Workspace.isSha256Hex (R.store.sha256 content) = true)
    (hlength : capture.preimages.length ≤ 500) (hfields : capture.preimages.all fieldsValid = true)
    (hpaths : (capture.preimages.map FilePreimage.path).Nodup) : (documentOf R sessionId taskId capture).valid = true := by
  have href : ∀ new ∈ artifactsOf R sessionId taskId capture, (stagedOf R new).record.ref.valid = true :=
    fun new hnew => stagedRef_valid hhex (artifactsOf_ids hhex new hnew)
  obtain ⟨hpatch, hrest⟩ := List.forall_mem_cons.1 href
  have hpaths' : (documentOf R sessionId taskId capture).preimages.map PreimageBinding.path =
      capture.preimages.map FilePreimage.path := by
    simp only [documentOf, List.map_map]
    rfl
  have hkinds : (documentOf R sessionId taskId capture).evidence.map EvidenceBinding.kind = evidenceKinds := rfl
  rw [StoredChangeSetDocument.valid, hpaths', hkinds]
  simp only [Bool.and_eq_true, List.all_eq_true]
  refine ⟨⟨⟨⟨⟨⟨hpatch, rfl⟩, ?_⟩, ?_⟩, ?_⟩, by decide⟩, decide_eq_true hpaths⟩
  · intro binding hbinding
    obtain ⟨kind, hkind, rfl⟩ := List.mem_map.1 hbinding
    exact hrest _ (List.mem_append_left _ (List.mem_map_of_mem hkind))
  · rw [documentOf, List.length_map]
    exact decide_eq_true hlength
  · intro binding hbinding
    obtain ⟨preimage, hmem, rfl⟩ := List.mem_map.1 hbinding
    have hvalid := List.all_eq_true.1 hfields preimage hmem
    rw [fieldsValid, Bool.and_eq_true] at hvalid
    rw [PreimageBinding.valid, Bool.and_eq_true, Bool.and_eq_true]
    exact ⟨⟨hvalid.1, hrest _ (List.mem_append_right _ (List.mem_map_of_mem hmem))⟩, hvalid.2⟩

end

/-! ## What is published -/

section
variable {R : ArtifactRepo} {planners : String → Option String} {db db' : Db} {files files' : ArtifactFiles}

/-- The handle of an artifact whose file was linked. -/
def linkedOf (R : ArtifactRepo) (new : NewArtifact) : TempWriteResult :=
  { (stagedOf R new).handle with temp := none, state := .published }

theorem publish_staged {new : NewArtifact} (hfree : files (pathOf new) = none) :
    R.store.publish files (stagedOf R new).handle =
      (.ok (), Function.update files (pathOf new) (some new.content), linkedOf R new) := by
  have hpath : (stagedOf R new).handle.path = pathOf new := rfl
  unfold ArtifactStore.publish
  rw [hpath, hfree]
  simp [stagedOf, linkedOf]

theorem publishStagedIn_ok {new : NewArtifact} {created : Bool} {s : StagedArtifact}
    (h : R.publishStagedIn planners true db files (stagedOf R new) = (.ok (created, db'), files', s)) :
    (created = false ∧ files' = files ∧ (stagedOf R new).record.Stored R files) ∨
      (created = true ∧ files (pathOf new) = none ∧ files' = Function.update files (pathOf new) (some new.content) ∧
        s.handle = linkedOf R new) := by
  unfold ArtifactRepo.publishStagedIn at h
  split at h
  · cases h
  · split at h
    · next existing _ =>
      -- The row is there: its file was read and has the digest of the row.
      simp only [not_true, if_false] at h
      split at h
      · cases h
      · next hsame =>
        obtain rfl := not_not.1 hsame
        split at h
        · cases h
        · next content hread =>
          split at h
          · cases h
          · next hfits =>
            split at h
            · cases h
            · cases h
              refine .inl ⟨rfl, rfl, content, ?_, ?_⟩
              · unfold ArtifactStore.readBytes at hread
                split at hread
                · cases hread
                · next hfile =>
                  cases hread
                  exact hfile
              · simpa [ArtifactStore.fits] using hfits
    · split at h
      · cases h
      · unfold ArtifactRepo.publishAndInsert at h
        rcases hp : R.store.publish files (stagedOf R new).handle with ⟨⟨e⟩ | ⟨⟨⟩⟩, files₁, handle⟩
        · simp only [hp] at h
          cases h
        · simp only [hp] at h
          split at h
          · cases h
          · cases h
            obtain ⟨-, hfree, -⟩ := publish_ok hp
            have hnone : files (pathOf new) = none := hfree
            rw [publish_staged hnone] at hp
            simp only [Prod.mk.injEq, true_and] at hp
            exact .inr ⟨rfl, hnone, hp.1.symm, hp.2.symm⟩

/-- What a file is once the artifacts are published: as it was, if there was one. -/
theorem publishFiles_ok {news : List NewArtifact} {published : List StagedArtifact}
    (h : publishFiles R db files (news.map (stagedOf R)) = .ok (files', published)) :
    (∀ path content, files path = some content → files' path = some content) ∧
      (∀ new ∈ news, (stagedOf R new).record.Stored R files') ∧
      (∀ path content, files' path = some content →
        files path = some content ∨ ∃ new ∈ news, path = pathOf new ∧ content = new.content) ∧
      ∀ s ∈ published, ∃ handle, R.store.finalize files' s.handle = .ok handle := by
  induction news generalizing db files files' published with
  | nil =>
    obtain ⟨rfl, rfl⟩ := Prod.mk.inj (Except.ok.inj h)
    exact ⟨fun _ _ hfile => hfile, by simp, fun _ _ => .inl, by simp⟩
  | cons new news ih =>
    rw [List.map_cons, publishFiles] at h
    split at h
    · cases h
    · next created db₁ files₁ s hpublish =>
      obtain ⟨⟨files₂, rest⟩, hrest, h⟩ := Tx.bind_ok.1 h
      obtain ⟨rfl, rfl⟩ := Prod.mk.inj (Tx.pure_ok.1 h)
      obtain ⟨hkept, hstored, horigin, hfinal⟩ := ih hrest
      rcases publishStagedIn_ok hpublish with ⟨rfl, rfl, content, hfile, hfits⟩ | ⟨rfl, hnone, rfl, hhandle⟩
      · refine ⟨hkept, List.forall_mem_cons.2 ⟨⟨content, hkept _ _ hfile, hfits⟩, hstored⟩, fun path content hpath => ?_, hfinal⟩
        rcases horigin path content hpath with hfile | ⟨other, hmem, heq⟩
        · exact .inl hfile
        · exact .inr ⟨other, List.mem_cons_of_mem _ hmem, heq⟩
      · -- The file is new, and the publications that follow leave it alone.
        have hfile := hkept (pathOf new) new.content (Function.update_self ..)
        refine ⟨fun path content hpath => hkept _ _ ?_, List.forall_mem_cons.2 ⟨⟨new.content, hfile, rfl, rfl⟩, hstored⟩,
          fun path content hpath => ?_, List.forall_mem_cons.2 ⟨?_, hfinal⟩⟩
        · rw [Function.update_of_ne, hpath]
          rintro rfl
          cases hnone.symm.trans hpath
        · rcases horigin path content hpath with hold | ⟨other, hmem, heq⟩
          · by_cases hnew : path = pathOf new
            · subst hnew
              rw [Function.update_self] at hold
              exact .inr ⟨new, List.mem_cons_self, rfl, (Option.some.inj hold).symm⟩
            · rw [Function.update_of_ne hnew] at hold
              exact .inl hold
          · exact .inr ⟨other, List.mem_cons_of_mem _ hmem, heq⟩
        · have hpath : (linkedOf R new).path = pathOf new := rfl
          have hfits : R.store.fits new.content (linkedOf R new).sizeBytes (linkedOf R new).sha256 = true := by
            simp [ArtifactStore.fits, linkedOf, stagedOf]
          refine ⟨{ linkedOf R new with state := .finalized }, ?_⟩
          rw [hhandle, ArtifactStore.finalize, hpath, hfile, if_neg (by simp [linkedOf])]
          exact if_pos hfits

theorem finalizePublished_ok {published : List StagedArtifact}
    (h : ∀ s ∈ published, ∃ handle, R.store.finalize files s.handle = .ok handle) :
    finalizePublished R files published = .ok () := by
  refine forM_ok_iff.2 fun s hs => ?_
  obtain ⟨handle, hfinal⟩ := h s hs
  rw [hfinal]

end

end CaptureStore

/-! ## The rows -/

namespace ChangeSetRepository

/-- The ChangeSets, artifacts and sessions are as they were. -/
structure Untouched (db db' : Db) : Prop where
  changeSets : db'.changeSets = db.changeSets
  artifacts : db'.artifacts = db.artifacts
  sessions : db'.sessions = db.sessions

instance : IsPreorder Db Untouched where
  refl _ := ⟨rfl, rfl, rfl⟩
  trans _ _ _ h h' := ⟨h'.changeSets.trans h.changeSets, h'.artifacts.trans h.artifacts, h'.sessions.trans h.sessions⟩

theorem quiet_untouched {db db' : Db} (h : Quiet db db') : Untouched db db' := ⟨h.changeSets, h.artifacts, h.sessions⟩

/-- The row of a capture. -/
def capturedRow (taskId : String) (capture : Capture) (status : ChangeSetStatus) (now : Instant) : ChangeSetRow :=
  ⟨capture.changeSetId, taskId, capture.baseCommit, capture.patchSha256, status, utcNowText now, utcNowText now⟩

/-- The artifact is registered, in a session that exists. -/
def Registered (db : Db) (record : ArtifactRow) : Prop :=
  db.artifacts.get? record.id = some record ∧ (db.sessions.get? record.sessionId).isSome = true

section
variable {db db' : Db} {lease : MasterLease} {now : Instant} {u : Unit}

theorem finishTask_untouched (lineage : TaskRow × NodeRunRow × WorkflowRunRow) (target : TaskStatus) (error : Option String)
    (lease : MasterLease) (ws : WorkspaceLease) (now : Instant) :
    Tx.Within Untouched (finishTask lineage target error lease ws now) := by
  obtain ⟨task, node, run⟩ := lineage
  refine .bind (TableRef.cas_within fun _ _ => ⟨rfl, rfl, rfl⟩) fun _ => ?_
  exact fun _ _ _ h => quiet_untouched (EventRepository.appendIn_quiet h)

theorem insertCapture_ok {lineage : TaskRow × NodeRunRow × WorkflowRunRow} {capture : Capture} {status : ChangeSetStatus}
    {reason : Option String} {ws : WorkspaceLease}
    (h : (insertCapture lineage capture status reason lease ws now).run db = .ok (u, db')) :
    db'.changeSets.get? capture.changeSetId = some (capturedRow lineage.1.id capture status now) ∧
      db'.artifacts = db.artifacts ∧ db'.sessions = db.sessions := by
  obtain ⟨task, node, run⟩ := lineage
  simp only [insertCapture, StateT.run_bind, Tx.bind_ok, TableRef.insert_ok] at h
  obtain ⟨⟨_, db₁⟩, ⟨t, ht, hdb₁⟩, hrest⟩ := h
  obtain rfl := (Prod.mk.inj hdb₁).2
  have hrow : t.get? capture.changeSetId = some (capturedRow task.id capture status now) :=
    (Table.get?_insert ht _).trans (if_pos rfl)
  obtain ⟨⟨_, db₂⟩, hnode, ⟨_, db₃⟩, happend, hlast⟩ := hrest
  have hnode' : Untouched _ db₂ := TableRef.cas_within (fun _ _ => ⟨rfl, rfl, rfl⟩) _ _ _ hnode
  have happend' := quiet_untouched (appendStateEvent_quiet happend)
  have hlast' : Untouched db₃ db' := by
    split at hlast
    · exact quiet_untouched (appendSecurityEvent_quiet hlast)
    · rw [(Prod.mk.inj (Tx.pure_ok.1 hlast)).2]
      exact refl_of Untouched _
  have hall := trans_of Untouched hnode' (trans_of Untouched happend' hlast')
  exact ⟨by rw [hall.changeSets]; exact hrow, hall.artifacts, hall.sessions⟩

/-- What was registered stays so, with its artifact. -/
structure Registers (db db' : Db) : Prop where
  artifacts : ∀ id row, db.artifacts.get? id = some row → db'.artifacts.get? id = some row
  sessions : db'.sessions = db.sessions

instance : IsPreorder Db Registers where
  refl _ := ⟨fun _ _ => id, rfl⟩
  trans _ _ _ h h' := ⟨fun id row hrow => h'.artifacts id row (h.artifacts id row hrow), h'.sessions.trans h.sessions⟩

theorem Registered.kept {record : ArtifactRow} (h : Registered db record) (hdb : Registers db db') : Registered db' record :=
  ⟨hdb.artifacts _ _ h.1, by rw [hdb.sessions]; exact h.2⟩

theorem validateOwner_ok {record : ArtifactRow} {taskId : String}
    (h : (ArtifactRepository.validateOwner record taskId).run db = .ok (u, db')) :
    (db.sessions.get? record.sessionId).isSome = true ∧ db' = db := by
  refine ⟨?_, validateOwner_readOnly _ _ _ _ h⟩
  simp only [ArtifactRepository.validateOwner, StateT.run_bind, Tx.bind_ok, TableRef.select_ok, Tx.require_ok] at h
  obtain ⟨_, rfl, _, ⟨hsession, -⟩, -⟩ := h
  exact Option.isSome_of_eq_some hsession

theorem publishStaged_ok {limits : ArtifactLimits} {taskId : String} {record : ArtifactRow}
    (h : (ArtifactRepository.publishStaged limits taskId record).run db = .ok (u, db')) :
    Registers db db' ∧ Registered db' record := by
  unfold ArtifactRepository.publishStaged at h
  rw [StateT.run_bind, Tx.bind_ok] at h
  obtain ⟨⟨_, db₁⟩, howner, h⟩ := h
  obtain ⟨hsession, hdb₁⟩ := validateOwner_ok howner
  subst hdb₁
  rw [StateT.run_bind, Tx.bind_ok] at h
  obtain ⟨_, hselect, h⟩ := h
  obtain rfl := TableRef.select_ok.1 hselect
  dsimp only at h
  cases hfound : db₁.artifacts.get? record.id with
  | some existing =>
    rw [hfound] at h
    obtain ⟨hsame, hdb⟩ := Tx.ensure_ok.1 h
    obtain rfl := (Prod.mk.inj hdb).2
    obtain rfl := of_decide_eq_true hsame
    exact ⟨refl_of Registers _, hfound, hsession⟩
  | none =>
    rw [hfound] at h
    simp only [StateT.run_bind, Tx.bind_ok, Tx.ensure_ok, Tx.read_ok, TableRef.insert_ok] at h
    obtain ⟨_, ⟨-, rfl⟩, _, rfl, _, ⟨-, rfl⟩, t, ht, hdb⟩ := h
    obtain rfl := (Prod.mk.inj hdb).2
    refine ⟨⟨fun id row hrow => ?_, rfl⟩, (Table.get?_insert ht _).trans (if_pos rfl), hsession⟩
    have hne : record.id ≠ id := by
      rintro rfl
      cases hfound.symm.trans hrow
    exact (Table.get?_insert ht _).trans ((if_neg hne).trans hrow)

/-- A loop of publications registers every one. -/
theorem publishAll_ok {limits : ArtifactLimits} {taskId : String} {records : List ArtifactRow}
    (h : (ApprovalRepository.forEach (ArtifactRepository.publishStaged limits taskId) records).run db = .ok (u, db')) :
    Registers db db' ∧ ∀ record ∈ records, Registered db' record := by
  induction records generalizing db with
  | nil =>
    obtain rfl := (Prod.mk.inj (Tx.pure_ok.1 h)).2
    exact ⟨refl_of Registers _, by simp⟩
  | cons record records ih =>
    unfold ApprovalRepository.forEach at h
    rw [StateT.run_bind, Tx.bind_ok] at h
    obtain ⟨⟨_, db₁⟩, hpublish, h⟩ := h
    obtain ⟨hdb₁, hrecord⟩ := publishStaged_ok hpublish
    obtain ⟨hdb', hrecords⟩ := ih h
    exact ⟨trans_of Registers hdb₁ hdb', List.forall_mem_cons.2 ⟨hrecord.kept hdb', hrecords⟩⟩

/-- The ids of a lineage. -/
def lineageIds (l : TaskRow × NodeRunRow × WorkflowRunRow) : String × String × String × String :=
  (l.1.id, l.2.1.id, l.2.2.id, l.2.2.sessionId)

theorem validateLineage_ok {H : Digests} {lineage : TaskRow × NodeRunRow × WorkflowRunRow} {sid rid nid base : String}
    (h : (validateLineage H lineage sid rid nid base).run db = .ok (u, db')) :
    lineage.2.2.sessionId = sid ∧ lineage.2.2.id = rid ∧ lineage.2.1.id = nid := by
  obtain ⟨task, node, run⟩ := lineage
  simp only [validateLineage, StateT.run_bind, Tx.bind_ok, Tx.ensure_ok] at h
  obtain ⟨_, ⟨hsession, rfl⟩, _, ⟨hrun, rfl⟩, _, ⟨hnode, rfl⟩, -⟩ := h
  exact ⟨of_decide_eq_true hsession, of_decide_eq_true hrun, of_decide_eq_true hnode⟩

/-- A capture that was persisted has its row, those of its artifacts, and a task of the lineage it was called with. -/
theorem persistCapture_ok {H : Digests} {limits : ArtifactLimits} {sid rid nid taskId : String} {capture : Capture}
    {target : TaskStatus} {error : Option String} {status : ChangeSetStatus} {reason : Option String} {ws : WorkspaceLease}
    (h : (persistCapture H limits sid rid nid taskId capture target error status reason lease ws now).run db = .ok (u, db')) :
    (∃ lineage, WorkflowRunRepository.taskWithRun db taskId = some lineage ∧ lineageIds lineage = (taskId, nid, rid, sid)) ∧
      db'.changeSets.get? capture.changeSetId = some (capturedRow taskId capture status now) ∧
      ∀ record ∈ capture.staged, Registered db' record := by
  simp only [persistCapture, StateT.run_bind, Tx.bind_ok, Tx.ensure_ok, Tx.read_ok, Tx.require_ok] at h
  obtain ⟨⟨_, s₀⟩, htargets, ⟨_, s₁⟩, hlease, _, ⟨-, rfl⟩, ⟨_, s₂⟩, hws, _, ⟨-, rfl⟩, _, rfl, ⟨lineage, _⟩, ⟨hrow, rfl⟩,
    ⟨_, s₃⟩, hvalid, _, rfl, _, ⟨-, rfl⟩, ⟨_, db₁⟩, hpublish, ⟨_, db₂⟩, hinsert, hfinish⟩ := h
  dsimp only at hlease hws hrow hvalid hpublish hinsert hfinish
  have hs₀ := (checkTargets_ok htargets).2.2
  have hs₁ := assertMaster_readOnly _ _ _ _ hlease
  have hs₂ := assertWorkspace_readOnly _ _ _ _ hws
  have hs₃ := validateLineage_readOnly _ _ _ _ _ _ _ _ hvalid
  dsimp only at hs₀ hs₁ hs₂ hs₃
  subst hs₀ hs₁ hs₂ hs₃
  obtain ⟨hsession, hrun, hnode⟩ := validateLineage_ok hvalid
  obtain rfl := (taskWithRun_owner hrow).1
  obtain ⟨hchangeSet, hartifacts, hsessions⟩ := insertCapture_ok hinsert
  have hfinish' := finishTask_untouched _ _ _ _ _ _ _ _ _ hfinish
  refine ⟨⟨lineage, hrow, by rw [lineageIds, hsession, hrun, hnode]⟩, by rw [hfinish'.changeSets]; exact hchangeSet, ?_⟩
  intro record hrecord
  refine ((publishAll_ok hpublish).2 record hrecord).kept ⟨fun id row hrow => ?_, hfinish'.sessions.trans hsessions⟩
  rw [hfinish'.artifacts, hartifacts]
  exact hrow

/-- A transition that was made moved the status of its ChangeSet and the time of its last update. -/
theorem transition_ok {id : String} {expected target : ChangeSetStatus} {ws : Option WorkspaceLease}
    {reason severity : Option String}
    (h : (transition id expected target lease ws reason severity now).run db = .ok (u, db')) :
    (∃ row, db.changeSets.get? id = some row ∧
        db'.changeSets.get? id = some { row with status := target, updatedAt := utcNowText now }) ∧
      (∀ other, other ≠ id → db'.changeSets.get? other = db.changeSets.get? other) ∧ Registers db db' := by
  simp only [transition, StateT.run_bind, Tx.bind_ok, Tx.ensure_ok, Tx.read_ok, Tx.require_ok] at h
  obtain ⟨_, ⟨-, rfl⟩, _, ⟨-, rfl⟩, ⟨_, s⟩, hlease, _, rfl, ⟨⟨changeSet, lineage⟩, _⟩, ⟨-, rfl⟩, ⟨_, s'⟩, hws,
    ⟨_, db₁⟩, hcas, ⟨_, db₂⟩, happend, hlast⟩ := h
  dsimp only at hws hcas happend hlast
  have hs := assertMaster_readOnly _ _ _ _ hlease
  have hs' := checkLease_readOnly _ _ _ _ _ hws
  dsimp only at hs hs'
  subst hs hs'
  obtain ⟨row, hrow, -, hself, hothers⟩ := TableRef.cas_writes hcas
  have hdb₁ := (Prod.mk.inj (TableRef.cas_ok.1 hcas).2).2
  have happend' := quiet_untouched (appendStateEvent_quiet happend)
  have hlast' : Untouched db₂ db' := by
    split at hlast
    · rw [(Prod.mk.inj (Tx.pure_ok.1 hlast)).2]
      exact refl_of Untouched _
    · exact quiet_untouched (appendSecurityEvent_quiet hlast)
  have hall := trans_of Untouched happend' hlast'
  refine ⟨⟨row, hrow, ?_⟩, fun other hother => ?_, fun id' a ha => ?_, ?_⟩
  · rw [hall.changeSets]
    exact hself
  · rw [hall.changeSets]
    exact hothers other hother
  · rw [hall.artifacts, hdb₁]
    exact ha
  · rw [hall.sessions, hdb₁]

/-- The rows of a lineage stay, with their ids. -/
theorem lineage_moves {K : Powers} (h : Moves K db db') {taskId : String} {lineage : TaskRow × NodeRunRow × WorkflowRunRow}
    (hlineage : WorkflowRunRepository.taskWithRun db taskId = some lineage) :
    ∃ lineage', WorkflowRunRepository.taskWithRun db' taskId = some lineage' ∧ lineageIds lineage' = lineageIds lineage := by
  obtain ⟨task, node, run⟩ := lineage
  simp only [WorkflowRunRepository.taskWithRun, WorkflowRunRepository.nodeWithRun, Option.bind_eq_some_iff,
    Option.map_eq_some_iff, Prod.mk.injEq] at hlineage
  obtain ⟨_, htask, _, ⟨_, hnode, _, hrun, rfl⟩, rfl, rfl, rfl⟩ := hlineage
  obtain ⟨task', htask', htaskKeeps⟩ := h.tasks.kept _ _ htask
  obtain ⟨node', hnode', hnodeKeeps⟩ := h.nodeRuns.kept _ _ hnode
  obtain ⟨run', hrun', hrunKeeps⟩ := h.workflowRuns.kept _ _ hrun
  have htaskSame := htaskKeeps.same
  have hnodeSame := hnodeKeeps.same
  have hrunSame := hrunKeeps.same
  simp only [Prod.mk.injEq, NodeRunRow.skeleton] at htaskSame hnodeSame hrunSame
  refine ⟨(task', node', run'), ?_, ?_⟩
  · simp only [WorkflowRunRepository.taskWithRun, WorkflowRunRepository.nodeWithRun, htask', Option.bind_some, htaskSame,
      hnode', hnodeSame, hrun', Option.map_some]
  · simp only [lineageIds, htaskSame, hnodeSame, hrunSame]

/-- Every power, with digests that no operation of this repository takes. -/
def anyPowers : Powers := .all ⟨fun _ => String.ofList (List.replicate 64 '0'), fun _ => by decide, fun _ _ _ _ => ""⟩

end

end ChangeSetRepository

end AgentHub
