import AgentHub.Context.Removal
/-!
# Materialization is all or nothing

What a call has left behind when it raised, and what the bundle holds when it returned. The call is undone unless it raises
between making the staging directory and guarding it, or the seal of the parent raises no `BundleError`.
-/

namespace AgentHub

open Lib Workspace

/-! ## File names -/

theorem cut_unique {α : Type} {x : α} {m m' l l' : List α} (hm : x ∉ m) (hm' : x ∉ m') (h : m ++ x :: l = m' ++ x :: l') :
    m = m' ∧ l = l' := by
  induction m generalizing m' with
  | nil =>
    cases m' with
    | nil => exact ⟨rfl, (List.cons.inj h).2⟩
    | cons y m' => exact absurd ((List.cons.inj h).1 ▸ List.mem_cons_self) hm'
  | cons y m ih =>
    cases m' with
    | nil => exact absurd ((List.cons.inj h).1 ▸ List.mem_cons_self) hm
    | cons z m' =>
      obtain ⟨rfl, htail⟩ := List.cons.inj h
      obtain ⟨rfl, rfl⟩ := ih (fun hx => hm (List.mem_cons_of_mem y hx)) (fun hx => hm' (List.mem_cons_of_mem y hx)) htail
      exact ⟨rfl, rfl⟩

/-- A name is cut in one way at its last dot. -/
theorem dotted_inj {a b s t : String} (hs : '.' ∉ s.toList) (ht : '.' ∉ t.toList) (h : a ++ "." ++ s = b ++ "." ++ t) :
    a = b ∧ s = t := by
  have hdot : ".".toList = ['.'] := by decide
  have hlist := congrArg (List.reverse ∘ String.toList) h
  simp only [Function.comp_apply, String.toList_append, List.reverse_append, hdot, List.reverse_singleton,
    List.singleton_append] at hlist
  have hcut := cut_unique (by simpa using hs) (by simpa using ht) hlist
  exact ⟨String.toList_inj.1 (List.reverse_injective hcut.2), String.toList_inj.1 (List.reverse_injective hcut.1)⟩

namespace TaskContextBundle

variable {W : Type} {B : TaskContextBundle W} {own : W → Option OwnDir}

theorem value_undotted (t : ArtifactType) : '.' ∉ t.value.toList := by
  cases t <;> decide

theorem filename_inj {a b : String} {s t : ArtifactType} (h : filename a s = filename b t) : a = b :=
  (dotted_inj (value_undotted s) (value_undotted t) h).1

theorem filename_ne_manifest (a : String) (t : ArtifactType) : filename a t ≠ "manifest.json" := by
  intro h
  have hvalue := (dotted_inj (value_undotted t) (t := "json") (by decide) (b := "manifest") h).2
  cases t <;> simp [ArtifactType.value] at hvalue

/-! ## What a call returns with -/

/-- The name of the file of a reference. -/
def nameOf (ref : ArtifactRef) : String := filename ref.artifactId ref.artifactType

theorem nameOf_inj {ref ref' : ArtifactRef} (h : nameOf ref = nameOf ref') : ref.artifactId = ref'.artifactId := filename_inj h

/-- The manifest entry of a reference. -/
def entryFor (expiresAt : String) (ref : ArtifactRef) : ManifestEntry :=
  ⟨ref.artifactId, ref.artifactType, ref, nameOf ref, ref.sha256, ref.sizeBytes, expiresAt⟩

/-- A content was read for a reference, and verified against its record: it is of the session and the task, it is redacted,
its bytes are those of the record, and the record is what the reference says. -/
def Verified (B : TaskContextBundle W) (taskId sessionId : String) (ref : ArtifactRef) (content : Bytes) : Prop :=
  ∃ row, (∃ w w', B.getRecord ref.artifactId w = .ok row w') ∧
    (∃ w w', B.readBytes ref.artifactId row.artifactType w = .ok content w') ∧
    row.sessionId = sessionId ∧ row.taskId.all (· = taskId) = true ∧ row.redacted = true ∧
    B.sha256 content = row.sha256 ∧ content.length = row.sizeBytes ∧ ref = verifiedRef ref.artifactId row

/-- The files of the references by name. -/
def fileOf (refs : List ArtifactRef) (contents : List Bytes) (name : String) : Option Bytes :=
  ((refs.map nameOf).zip contents).lookup name

/-- The bundle of a call that returned. -/
structure Complete (B : TaskContextBundle W) (own : W → Option OwnDir) (taskId sessionId expiresAt : String)
    (refs : List ArtifactRef) (contents : List Bytes) (result : BundleResult) (w : W) : Prop where
  verified : List.Forall₂ (B.Verified taskId sessionId) refs contents
  dir : result.bundleDir = B.bundleDir taskId
  task : result.manifest.taskId = taskId
  session : result.manifest.sessionId = sessionId
  entries : result.manifest.entries = refs.map (entryFor expiresAt)
  distinct : (refs.map ArtifactRef.artifactId).Nodup
  total : result.manifest.totalBytes = (contents.map List.length).sum
  bounded : result.manifest.totalBytes ≤ B.maxBundleBytes
  hash : result.manifest.bundleSha256 = B.computeManifestHash result.manifest.entries result.manifest.taskId
    result.manifest.sessionId result.manifest.totalBytes
  names : ("manifest.json" :: refs.map nameOf).Nodup
  files : own w = some ⟨B.bundleDir taskId, fun name =>
    if name = "manifest.json" then some (canonicalJson result.manifest.dump) else fileOf refs contents name⟩

/-- All or nothing: a call that raised has left nothing behind, a call that returned a whole bundle. -/
structure AllOrNothing (B : TaskContextBundle W) (own : W → Option OwnDir) (taskId sessionId : String) (refs : List ArtifactRef)
    (now : Option Instant) (w : W) : Prop where
  nothing (e : BundleFault) (w' : W) (h : B.materialize taskId sessionId refs now w = .error e w') : own w' = none
  all (result : BundleResult) (w' : W) (h : B.materialize taskId sessionId refs now w = .ok result w') :
    ∃ expiresAt contents, Complete B own taskId sessionId expiresAt refs contents result w'

theorem allOrNothing_of_error {taskId sessionId : String} {refs : List ArtifactRef} {now : Option Instant} {w w' : W}
    {e : BundleFault} (h : B.materialize taskId sessionId refs now w = .error e w') :
    B.AllOrNothing own taskId sessionId refs now w ↔ own w' = none := by
  refine ⟨fun hall => hall.nothing e w' h, fun hnone => ⟨fun e₁ w₁ h₁ => ?_, fun r w₁ h₁ => ?_⟩⟩
  · cases h.symm.trans h₁
    exact hnone
  · cases h.symm.trans h₁

theorem allOrNothing_of_ok {taskId sessionId expiresAt : String} {refs : List ArtifactRef} {now : Option Instant} {w w' : W}
    {result : BundleResult} {contents : List Bytes} (h : B.materialize taskId sessionId refs now w = .ok result w')
    (hcomplete : Complete B own taskId sessionId expiresAt refs contents result w') :
    B.AllOrNothing own taskId sessionId refs now w := by
  refine ⟨fun e w₁ h₁ => ?_, fun r w₁ h₁ => ?_⟩
  · cases h.symm.trans h₁
  · cases h.symm.trans h₁
    exact ⟨expiresAt, contents, hcomplete⟩

/-! ## Staging -/

theorem ensure_triple {α : Type} {P : W → Prop} {Q : α → W → Prop} {E : BundleFault → W → Prop} {b : Bool} {e : BundleFault}
    {f : Unit → EStateM BundleFault W α} (hE : ∀ w, P w → E e w) (hf : b = true → Triple P (f ()) Q E) :
    Triple P (ensure b e >>= f) Q E := by
  cases b with
  | true => exact hf rfl
  | false => exact hE

theorem ensure_ok {b : Bool} {e : BundleFault} {w w' : W} {u : Unit} (h : ensure b e w = .ok u w') : b = true ∧ w' = w := by
  cases b <;> cases h
  exact ⟨rfl, rfl⟩

theorem ensure_leaves (b : Bool) (e : BundleFault) : Leaves own (ensure b e) := .ite (.pure _) (.throw _)

theorem checkRecord_leaves (taskId : String) (ref : ArtifactRef) (row : ArtifactRow) : Leaves own (checkRecord taskId ref row) :=
  .bind (ensure_leaves _ _) fun _ => .bind (ensure_leaves _ _) fun _ => .bind (ensure_leaves _ _) fun _ =>
    .bind (ensure_leaves _ _) fun _ => .bind (ensure_leaves _ _) fun _ => ensure_leaves _ _

theorem checkRecord_ok {taskId : String} {ref : ArtifactRef} {row : ArtifactRow} {w w' : W} {u : Unit}
    (h : checkRecord taskId ref row w = .ok u w') :
    row.taskId.all (· = taskId) = true ∧ row.redacted = true ∧ ref = verifiedRef ref.artifactId row := by
  obtain ⟨_, _, htask, h⟩ := bind_eq_ok.1 h
  obtain ⟨_, _, hredacted, h⟩ := bind_eq_ok.1 h
  obtain ⟨_, _, hsha, h⟩ := bind_eq_ok.1 h
  obtain ⟨_, _, hsize, h⟩ := bind_eq_ok.1 h
  obtain ⟨_, _, htype, h⟩ := bind_eq_ok.1 h
  refine ⟨(ensure_ok htask).1, (ensure_ok hredacted).1, ?_⟩
  cases ref
  simp only [verifiedRef, ArtifactRef.mk.injEq, true_and]
  exact ⟨of_decide_eq_true (ensure_ok htype).1, of_decide_eq_true (ensure_ok h).1, of_decide_eq_true (ensure_ok hsha).1,
    of_decide_eq_true (ensure_ok hsize).1⟩

theorem getAndVerify_leaves (hM : B.Documented own) (artifactId sessionId : String) :
    Leaves own (B.getAndVerify artifactId sessionId) :=
  .bind (hM.getRecord _) fun _ => .bind (ensure_leaves _ _) fun _ => .bind (hM.validateOwner _) fun _ =>
    .bind (hM.readBytes _ _) fun _ => .bind (ensure_leaves _ _) fun _ => .bind (ensure_leaves _ _) fun _ => .pure _

theorem getAndVerify_ok {artifactId sessionId : String} {row : ArtifactRow} {content : Bytes} {w w' : W}
    (h : B.getAndVerify artifactId sessionId w = .ok (row, content) w') :
    (∃ w w', B.getRecord artifactId w = .ok row w') ∧ (∃ w w', B.readBytes artifactId row.artifactType w = .ok content w') ∧
      row.sessionId = sessionId ∧ B.sha256 content = row.sha256 ∧ content.length = row.sizeBytes := by
  obtain ⟨_, _, hrecord, h⟩ := bind_eq_ok.1 h
  obtain ⟨_, _, hsession, h⟩ := bind_eq_ok.1 h
  obtain ⟨_, _, -, h⟩ := bind_eq_ok.1 h
  obtain ⟨_, _, hread, h⟩ := bind_eq_ok.1 h
  obtain ⟨_, _, hsha, h⟩ := bind_eq_ok.1 h
  obtain ⟨_, _, hsize, h⟩ := bind_eq_ok.1 h
  cases h
  exact ⟨⟨_, _, hrecord⟩, ⟨_, _, hread⟩, of_decide_eq_true (ensure_ok hsession).1, of_decide_eq_true (ensure_ok hsha).1,
    of_decide_eq_true (ensure_ok hsize).1⟩

theorem fetch_leaves (hM : B.Documented own) (artifactId sessionId : String) : Leaves own (B.fetch artifactId sessionId) := by
  refine .bind (getAndVerify_leaves hM _ _).outcome fun found => ?_
  split
  · exact .pure _
  · exact .ite (.throw _) (.throw _)

theorem fetch_ok {artifactId sessionId : String} {p : ArtifactRow × Bytes} {w w' : W}
    (h : B.fetch artifactId sessionId w = .ok p w') : B.getAndVerify artifactId sessionId w = .ok p w' := by
  unfold fetch at h
  cases hrun : B.getAndVerify artifactId sessionId w with
  | ok q w₁ =>
    rw [run_bind_ok (outcome_ok hrun)] at h
    exact h
  | error e w₁ =>
    rw [run_bind_ok (outcome_error hrun)] at h
    dsimp only at h
    split at h <;> cases h

/-- What the loop has assigned once it staged some references. -/
structure StagedSoFar (B : TaskContextBundle W) (taskId sessionId expiresAt : String) (refs : List ArtifactRef)
    (contents : List Bytes) (s : Staged) : Prop where
  verified : List.Forall₂ (B.Verified taskId sessionId) refs contents
  entries : s.entries = refs.map (entryFor expiresAt)
  total : s.totalBytes = (contents.map List.length).sum
  bounded : s.totalBytes ≤ B.maxBundleBytes
  seen : ∀ id, id ∈ s.seenIds ↔ id ∈ refs.map ArtifactRef.artifactId
  distinct : (refs.map ArtifactRef.artifactId).Nodup

theorem fileOf_concat {refs : List ArtifactRef} {contents : List Bytes} {ref : ArtifactRef} {content : Bytes}
    (hlength : refs.length = contents.length) (hfresh : ref.artifactId ∉ refs.map ArtifactRef.artifactId) :
    fileOf (refs ++ [ref]) (contents ++ [content]) =
      fun name => if name = nameOf ref then some content else fileOf refs contents name := by
  have hname : nameOf ref ∉ refs.map nameOf := by
    intro hmem
    obtain ⟨ref', hmem, heq⟩ := List.mem_map.1 hmem
    exact hfresh (List.mem_map.2 ⟨ref', hmem, nameOf_inj heq⟩)
  have hnone : ((refs.map nameOf).zip contents).lookup (nameOf ref) = none := by
    refine List.lookup_eq_none_iff.2 fun p hp => bne_iff_ne.2 ?_
    rintro heq
    exact hname (heq ▸ (List.of_mem_zip hp).1)
  funext name
  rw [fileOf, List.map_append, List.zip_append (by simpa using hlength), List.lookup_append]
  by_cases heq : name = nameOf ref
  · subst heq
    simp [hnone]
  · have hlast : [(nameOf ref, content)].lookup name = none := List.lookup_eq_none_iff.2 (by simpa using heq)
    rw [if_neg heq, List.map_singleton, List.zip_cons_cons, List.zip_nil_left, hlast, Option.or_none, fileOf]

section
variable {α : Type} {staging : Path} {files : String → Option Bytes} {Q : α → W → Prop}

/-- The directory is still the staging directory. -/
def Staging (own : W → Option OwnDir) (staging : Path) (w : W) : Prop := ∃ files, own w = some ⟨staging, files⟩

/-- A call that leaves the directory alone, and what comes after it. -/
theorem leaves_bind {β : Type} {x : EStateM BundleFault W β} {f : β → EStateM BundleFault W α} (hx : Leaves own x)
    (hf : ∀ b, (∃ w w', x w = .ok b w') →
      Triple (fun w => own w = some ⟨staging, files⟩) (f b) Q fun _ => Staging own staging) :
    Triple (fun w => own w = some ⟨staging, files⟩) (x >>= f) Q fun _ => Staging own staging := by
  have hcall := (hx.triple (· = some (OwnDir.mk staging files))).weaken (fun _ h => h) (fun _ _ h => h)
    fun _ w h => (⟨files, h⟩ : Staging own staging w)
  exact hcall.bind fun b => .assume (hf b)

/-- One artifact is staged, or the call raises while the directory is the staging directory. -/
theorem stageRef_triple (hM : B.Documented own) {taskId sessionId expiresAt : String} {refs : List ArtifactRef}
    {contents : List Bytes} {s : Staged} (hs : StagedSoFar B taskId sessionId expiresAt refs contents s) (ref : ArtifactRef) :
    Triple (fun w => own w = some ⟨staging, fileOf refs contents⟩) (B.stageRef taskId sessionId expiresAt staging s ref)
      (fun s' w => ∃ content, StagedSoFar B taskId sessionId expiresAt (refs ++ [ref]) (contents ++ [content]) s' ∧
        own w = some ⟨staging, fileOf (refs ++ [ref]) (contents ++ [content])⟩)
      fun _ => Staging own staging := by
  refine ensure_triple (fun _ h => ⟨_, h⟩) fun _ => ensure_triple (fun _ h => ⟨_, h⟩) fun hfresh => ?_
  refine leaves_bind (fetch_leaves hM _ _) fun ⟨row, content⟩ ⟨_, _, hfetch⟩ => ?_
  refine leaves_bind (checkRecord_leaves _ _ _) fun _ ⟨_, _, hcheck⟩ => ?_
  refine ensure_triple (fun _ h => ⟨_, h⟩) fun _ => ensure_triple (fun _ h => ⟨_, h⟩) fun hroom => ?_
  refine leaves_bind (BundleHost.checkPathSafe_leaves hM _ _ _) fun _ _ => ?_
  refine (hM.writeBytes staging _ _ content).bind fun _ => ?_
  refine leaves_bind (BundleHost.setPermissions_leaves hM _ _ _ _ _) fun _ _ => ?_
  refine ensure_triple (fun _ h => ⟨_, h⟩) fun _ => .pure fun w hw => ?_
  obtain ⟨hrecord, hread, hsession, hsha, hsize⟩ := getAndVerify_ok (fetch_ok hfetch)
  obtain ⟨htask, hredacted, hsame⟩ := checkRecord_ok hcheck
  have hnew : ref.artifactId ∉ refs.map ArtifactRef.artifactId := fun hmem =>
    absurd ((hs.seen _).2 hmem) (of_decide_eq_true hfresh)
  have hentry : entryOf ref.artifactId row expiresAt = entryFor expiresAt ref := by
    rw [hsame]
    rfl
  refine ⟨content, ⟨?_, ?_, ?_, of_decide_eq_true hroom, ?_, ?_⟩, ?_⟩
  · exact List.rel_append hs.verified (.cons ⟨row, hrecord, hread, hsession, htask, hredacted, hsha, hsize, hsame⟩ .nil)
  · simp [hs.entries, hentry]
  · simp [hs.total, hsize]
  · intro id
    simp [hs.seen id, or_comm]
  · rw [List.map_append, List.map_singleton]
    exact List.nodup_append.2 ⟨hs.distinct, List.nodup_singleton _, fun id hid id' hid' heq =>
      hnew (List.mem_singleton.1 hid' ▸ heq ▸ hid)⟩
  · have hname : filename ref.artifactId row.artifactType = nameOf ref := by
      rw [hsame]
      rfl
    rw [hw, fileOf_concat hs.verified.length_eq hnew, hname]

theorem stage_triple (hM : B.Documented own) {taskId sessionId expiresAt : String} (refs : List ArtifactRef) :
    ∀ {staged : List ArtifactRef} {contents : List Bytes} {s : Staged},
      StagedSoFar B taskId sessionId expiresAt staged contents s →
      Triple (fun w => own w = some ⟨staging, fileOf staged contents⟩)
        (refs.foldlM (B.stageRef taskId sessionId expiresAt staging) s)
        (fun s' w => ∃ contents', StagedSoFar B taskId sessionId expiresAt (staged ++ refs) contents' s' ∧
          own w = some ⟨staging, fileOf (staged ++ refs) contents'⟩)
        fun _ => Staging own staging := by
  induction refs with
  | nil =>
    intro staged contents s hs
    refine .pure fun w hw => ⟨contents, ?_, ?_⟩
    · rwa [List.append_nil]
    · rwa [List.append_nil]
  | cons ref refs ih =>
    intro staged contents s hs
    refine (stageRef_triple hM hs ref).bind fun s' w hw => ?_
    obtain ⟨content, hs', hown⟩ := hw
    have hrest := ih hs' w hown
    rwa [List.append_assoc] at hrest

end

/-! ## Publication -/

/-- The directory is filled and at its final place, or the call raises while it is the staging directory. -/
theorem publish_triple (hM : B.Documented own) (taskId sessionId expiresAt : String) (refs : List ArtifactRef)
    (staging : Path) : Triple (fun w => own w = some ⟨staging, fun _ => none⟩)
      (B.publish taskId sessionId expiresAt refs staging)
      (fun manifest w => ∃ contents,
        Complete B own taskId sessionId expiresAt refs contents ⟨manifest, B.bundleDir taskId⟩ w)
      fun _ => Staging own staging := by
  have hstart : StagedSoFar B taskId sessionId expiresAt [] [] {} :=
    ⟨.nil, rfl, rfl, Nat.zero_le _, fun id => Iff.rfl, List.nodup_nil⟩
  refine (stage_triple hM refs hstart).bind fun s w hw => ?_
  obtain ⟨contents, hs, hown⟩ := hw
  rw [List.nil_append] at hs hown
  let manifest := B.manifestOf taskId sessionId s
  have hrest : Triple (fun w => own w = some ⟨staging, fileOf refs contents⟩) (do
      ensure manifest.valid (invalid "BundleManifest")
      B.writeBytes (staging ++ ["manifest.json"]) (canonicalJson manifest.dump)
      B.setFileReadonly (staging ++ ["manifest.json"])
      B.setDirPrivate staging
      let appeared ← B.pathExists (B.bundleDir taskId)
      ensure (!appeared) (.bundle "bundle directory appeared during staging")
      B.rename staging (B.bundleDir taskId)
      pure manifest) (fun m w => m = manifest ∧ own w = some ⟨B.bundleDir taskId, fun name =>
        if name = "manifest.json" then some (canonicalJson manifest.dump) else fileOf refs contents name⟩)
      fun _ => Staging own staging := by
    refine ensure_triple (fun _ h => ⟨_, h⟩) fun _ => (hM.writeBytes staging _ _ _).bind fun _ => ?_
    refine leaves_bind (BundleHost.setPermissions_leaves hM _ _ _ _ _) fun _ _ => ?_
    refine leaves_bind (BundleHost.setPermissions_leaves hM _ _ _ _ _) fun _ _ => ?_
    refine leaves_bind (hM.pathExists _) fun _ _ => ensure_triple (fun _ h => ⟨_, h⟩) fun _ => ?_
    refine ((hM.rename staging (B.bundleDir taskId) _).weaken (fun _ h => h) (fun _ _ h => h) fun _ _ h => ⟨_, h⟩).bind
      fun _ => .pure fun _ h => ⟨rfl, h⟩
  refine Triple.weaken hrest (fun _ h => h) (fun m w h => ?_) (fun _ _ h => h) w hown
  obtain ⟨rfl, hfiles⟩ := h
  refine ⟨contents, hs.verified, rfl, rfl, rfl, hs.entries, hs.distinct, hs.total, hs.bounded, rfl, ?_, hfiles⟩
  refine List.nodup_cons.2 ⟨fun hmem => ?_, ?_⟩
  · obtain ⟨ref, -, heq⟩ := List.mem_map.1 hmem
    exact filename_ne_manifest _ _ heq
  · exact (List.Nodup.of_map _ hs.distinct).map_on fun a ha b hb heq =>
      List.inj_on_of_nodup_map hs.distinct ha hb (nameOf_inj heq)

/-- The staging directory is made, and it is empty. -/
def Made (B : TaskContextBundle W) (own : W → Option OwnDir) (taskId : String) (staging : Path) (w : W) : Prop :=
  (∃ tail, staging = B.taskDir taskId ++ [".bundle-staging-" ++ tail]) ∧ own w = some ⟨staging, fun _ => none⟩

/-- A call before the directory is made, and what comes after it. -/
theorem none_bind {α β : Type} {x : EStateM BundleFault W β} {f : β → EStateM BundleFault W α} {Q : α → W → Prop}
    (hx : BundleHost.Keeps own none x) (hf : ∀ b, Triple (fun w => own w = none) (f b) Q fun _ w => own w = none) :
    Triple (fun w => own w = none) (x >>= f) Q fun _ w => own w = none :=
  Triple.bind hx hf

theorem removeDirectory_none (hM : B.Documented own) (path : Path) : BundleHost.Keeps own none (B.removeDirectory path) := by
  intro w hw
  have hkept := hM.removeDirectoryOther path w fun d hd => by
    rw [hw] at hd
    cases hd
  cases hrun : B.removeDirectory path w <;> rw [hrun] at hkept <;> exact hkept.trans hw

theorem prepare_triple (hM : B.Documented own) (taskId : String) :
    Triple (fun w => own w = none) (B.prepare taskId) (Made B own taskId) fun _ w => own w = none := by
  have hcheck : ∀ path base label, BundleHost.Keeps own none (B.checkPathSafe path base label) := fun path base label =>
    .of_leaves (BundleHost.checkPathSafe_leaves hM path base label)
  have hmake : Triple (fun w => own w = none) (do
      B.checkPathSafe (B.taskDir taskId) B.bundleRoot "bundle_parent"
      B.makeDirectories (B.taskDir taskId)
      B.makeTemporary ".bundle-staging-" (B.taskDir taskId)) (Made B own taskId) fun _ w => own w = none :=
    none_bind (hcheck _ _ _) fun _ => none_bind (.of_leaves (hM.makeDirectories _)) fun _ => hM.makeTemporary _ _
  refine none_bind (hcheck _ _ _) fun _ => none_bind (.of_leaves (hM.pathExists _)) fun there => ?_
  split
  · refine none_bind (hcheck _ _ _) fun _ => none_bind (.of_leaves (hM.anyEntry _)) fun any => ?_
    split
    · exact none_bind (Triple.throw fun _ h => h) fun _ => none_bind (removeDirectory_none hM _) fun _ => hmake
    · exact none_bind (removeDirectory_none hM _) fun _ => hmake
  · exact hmake

theorem opening_triple (hM : B.Documented own) (taskId sessionId : String) (now : Option Instant) :
    Triple (fun w => own w = none) (B.opening taskId sessionId now) (fun p => Made B own taskId p.2)
      fun _ w => own w = none := by
  refine none_bind (.of_leaves (ensure_leaves _ _)) fun _ => none_bind (.of_leaves (ensure_leaves _ _)) fun _ => ?_
  cases now with
  | some now =>
    refine none_bind (Triple.pure fun _ h => h) fun now => ?_
    beta_reduce
    split
    · exact .throw fun _ h => h
    · exact (prepare_triple hM taskId).bind fun _ => .pure fun _ h => h
  | none =>
    refine none_bind (.of_leaves hM.clock) fun now => ?_
    beta_reduce
    split
    · exact .throw fun _ h => h
    · exact (prepare_triple hM taskId).bind fun _ => .pure fun _ h => h

/-! ## All or nothing -/

/-- The call does not raise where nothing undoes it: the fresh staging directory passes its path check, and the seal of the
parent raises `BundleError` if it raises. -/
def Guarded (B : TaskContextBundle W) (taskId sessionId : String) (refs : List ArtifactRef) (now : Option Instant) (w : W) :
    Prop :=
  ∀ expiresAt staging w₁, B.opening taskId sessionId now w = .ok (expiresAt, staging) w₁ →
    ∃ w₂, B.checkPathSafe staging B.bundleRoot "staging" w₁ = .ok () w₂ ∧
      ∀ manifest w₃, B.publish taskId sessionId expiresAt refs staging w₂ = .ok manifest w₃ →
        ∀ e w₄, B.setDirPrivate (B.taskDir taskId) w₃ = .error e w₄ → e.isBundleError = true

variable {taskId sessionId expiresAt : String} {refs : List ArtifactRef} {now : Option Instant} {staging : Path} {w w₁ w₂ w₃ : W}

/-- The staging directory is no place for the bundle. -/
theorem staging_apart {tail : String} (hname : staging = B.taskDir taskId ++ [".bundle-staging-" ++ tail]) :
    ¬ staging <+: B.bundleDir taskId := by
  intro hpre
  have hsame : staging = B.taskDir taskId ++ ["context"] := hpre.eq_of_length (by simp [hname, BundleDirs.bundleDir])
  rw [hname, List.append_cancel_left_eq, List.cons.injEq] at hsame
  have hhead := congrArg String.toList hsame.1
  rw [String.toList_append, show ".bundle-staging-".toList = '.' :: "bundle-staging-".toList by decide,
    show "context".toList = 'c' :: "ontext".toList by decide, List.cons_append] at hhead
  exact absurd (List.cons.inj hhead).1 (by decide)

/-- What the handler makes of an error: it takes the staging directory down when it is there. -/
def undo (B : TaskContextBundle W) (staging : Path) (e : BundleFault) : EStateM BundleFault W BundleResult := do
  if ← B.pathExists staging then B.forceRemoveStaging B.walkFuel staging
  throw e

theorem materialize_run (refs : List ArtifactRef) (hopen : B.opening taskId sessionId now w = .ok (expiresAt, staging) w₁)
    (hcheck : B.checkPathSafe staging B.bundleRoot "staging" w₁ = .ok () w₂) :
    B.materialize taskId sessionId refs now w =
      match B.publish taskId sessionId expiresAt refs staging w₂ with
      | .error e w₃ => undo B staging e w₃
      | .ok manifest w₃ =>
        match B.sealParent taskId w₃ with
        | .ok _ w₄ => .ok ⟨manifest, B.bundleDir taskId⟩ w₄
        | .error e w₄ => undo B staging e w₄ := by
  refine (run_bind_ok hopen).trans ((run_bind_ok hcheck).trans ?_)
  cases hpublish : B.publish taskId sessionId expiresAt refs staging w₂ with
  | error e w₃ => exact run_bind_ok (outcome_error (run_bind_error hpublish))
  | ok manifest w₃ =>
    let built : EStateM BundleFault W BundleManifest := do
      let manifest ← B.publish taskId sessionId expiresAt refs staging
      B.sealParent taskId
      pure manifest
    cases hseal : B.sealParent taskId w₃ with
    | ok u w₄ =>
      have hbuilt : built w₂ = .ok manifest w₄ := (run_bind_ok hpublish).trans ((run_bind_ok hseal).trans rfl)
      refine (run_bind_ok (outcome_ok hbuilt)).trans ?_
      dsimp only
      rw [hseal]
      rfl
    | error e w₄ =>
      have hbuilt : built w₂ = .error e w₄ := (run_bind_ok hpublish).trans (run_bind_error hseal)
      refine (run_bind_ok (outcome_error hbuilt)).trans ?_
      dsimp only
      rw [hseal]
      rfl

/-- The handler leaves a directory alone that is not in the way. -/
theorem undo_keeps (hM : B.Documented own) (staging : Path) {o : Option OwnDir} (happart : ∀ d, o = some d → ¬ staging <+: d.path)
    (e : BundleFault) (ho : own w = o) : ∃ e' w', undo B staging e w = .error e' w' ∧ own w' = o := by
  have hkeeps : BundleHost.Keeps own o (undo B staging e) := by
    refine .bind (.of_leaves (hM.pathExists _)) fun there => ?_
    split
    · exact .bind (BundleHost.forceRemoveStaging_keeps hM happart _) fun _ => Triple.throw fun _ h => h
    · exact Triple.throw fun _ h => h
  have hends := hkeeps w ho
  cases hrun : undo B staging e w with
  | error e' w' =>
    rw [hrun] at hends
    exact ⟨e', w', rfl, hends⟩
  | ok r w' =>
    obtain ⟨there, w₁, -, hrest⟩ := bind_eq_ok.1 hrun
    split at hrest
    · obtain ⟨_, _, -, hthrow⟩ := bind_eq_ok.1 hrest
      cases hthrow
    · cases hrest

/-- It takes the staging directory down. -/
theorem undo_staging (hM : B.Documented own) (hR : B.Removes own) (h : Staging own staging w) (e : BundleFault) :
    ∃ w', undo B staging e w = .error e w' ∧ own w' = none := by
  obtain ⟨files, h⟩ := h
  obtain ⟨w₁, hthere⟩ := hR.pathExists h
  have h₁ := hM.pathExists staging w
  rw [hthere, ending_ok, h] at h₁
  obtain ⟨w₂, hremove, h₂⟩ := BundleHost.forceRemoveStaging_own hM hR h₁ B.walkFuel
  refine ⟨w₂, ?_, h₂⟩
  unfold undo
  rw [run_bind_ok hthere, if_pos rfl]
  exact (run_bind_ok hremove).trans rfl

/-- The seal of the parent: it is sealed, or the bundle is gone, or it raised no `BundleError` and the bundle is there. -/
theorem sealParent_run (hM : B.Documented own) (hR : B.Removes own) {files : String → Option Bytes}
    (h : own w = some ⟨B.bundleDir taskId, files⟩) :
    (∃ w', B.setDirPrivate (B.taskDir taskId) w = .ok () w' ∧ B.sealParent taskId w = .ok () w' ∧ own w' = own w) ∨
      ∃ e w₁ w', B.setDirPrivate (B.taskDir taskId) w = .error e w₁ ∧ B.sealParent taskId w = .error e w' ∧
        own w' = if e.isBundleError then none else own w := by
  have hleaves := BundleHost.setPermissions_leaves hM (B.taskDir taskId) ":(F)" FileHost.privateMode
    "failed to set private permissions on directory" "failed to set dir private: " w
  cases hseal : B.setDirPrivate (B.taskDir taskId) w with
  | ok u w₁ =>
    rw [show B.setPermissions _ _ _ _ _ w = .ok u w₁ from hseal, ending_ok] at hleaves
    exact .inl ⟨w₁, rfl, run_bind_ok (outcome_ok hseal), hleaves⟩
  | error e w₁ =>
    rw [show B.setPermissions _ _ _ _ _ w = .error e w₁ from hseal, ending_error] at hleaves
    refine .inr ⟨e, w₁, ?_⟩
    unfold sealParent
    rw [run_bind_ok (outcome_error hseal)]
    dsimp only
    cases e.isBundleError with
    | true =>
      obtain ⟨w', hremove, hnone⟩ := BundleHost.forceRemoveStaging_own hM hR (hleaves.trans h) B.walkFuel
      exact ⟨w', rfl, (run_bind_ok hremove).trans rfl, hnone⟩
    | false => exact ⟨w₁, rfl, rfl, hleaves⟩

theorem Complete.congr {contents : List Bytes} {result : BundleResult} {w' : W}
    (h : Complete B own taskId sessionId expiresAt refs contents result w) (hown : own w' = own w) :
    Complete B own taskId sessionId expiresAt refs contents result w' :=
  { h with files := hown.trans h.files }

/-- Materialization is all or nothing exactly where every raise is guarded. -/
theorem materialize_all_or_nothing (hM : B.Documented own) (hR : B.Removes own) {w : W} (h : own w = none)
    (taskId sessionId : String) (refs : List ArtifactRef) (now : Option Instant) :
    B.AllOrNothing own taskId sessionId refs now w ↔ B.Guarded taskId sessionId refs now w := by
  have hopening := opening_triple hM taskId sessionId now w h
  unfold Guarded
  cases hopen : B.opening taskId sessionId now w with
  | error e w₁ =>
    rw [hopen] at hopening
    rw [allOrNothing_of_error (run_bind_error hopen)]
    exact iff_of_true hopening fun _ _ _ hok => by cases hok
  | ok p w₁ =>
    obtain ⟨expiresAt, staging⟩ := p
    rw [hopen] at hopening
    obtain ⟨⟨tail, hname⟩, hmade⟩ := hopening
    have hleaves := BundleHost.checkPathSafe_leaves hM staging B.bundleRoot "staging" w₁
    cases hcheck : B.checkPathSafe staging B.bundleRoot "staging" w₁ with
    | error e w₂ =>
      -- the staging directory is there, and nothing undoes it
      rw [hcheck, ending_error] at hleaves
      rw [allOrNothing_of_error ((run_bind_ok hopen).trans (run_bind_error hcheck)), hleaves, hmade]
      refine iff_of_false (Option.some_ne_none _) fun hguarded => ?_
      obtain ⟨w₂', hok, -⟩ := hguarded _ _ _ rfl
      cases hcheck.symm.trans hok
    | ok u w₂ =>
      rw [hcheck, ending_ok] at hleaves
      have hends := publish_triple hM taskId sessionId expiresAt refs staging w₂ (hleaves.trans hmade)
      have hrun := materialize_run refs hopen hcheck
      cases hpublish : B.publish taskId sessionId expiresAt refs staging w₂ with
      | error e w₃ =>
        rw [hpublish] at hends hrun
        obtain ⟨w₄, hundo, hnone⟩ := undo_staging hM hR hends e
        rw [allOrNothing_of_error (hrun.trans hundo)]
        refine iff_of_true hnone fun _ _ _ hok => ?_
        cases hok
        exact ⟨w₂, hcheck, fun _ _ hok => by cases hpublish.symm.trans hok⟩
      | ok manifest w₃ =>
        rw [hpublish] at hends hrun
        obtain ⟨contents, hcomplete⟩ := hends
        dsimp only at hrun
        rcases sealParent_run hM hR hcomplete.files with ⟨w₄, hsealed, hseal, hkept⟩ | ⟨e, w₄, w₅, hraised, hseal, hown⟩
        · rw [hseal] at hrun
          refine iff_of_true (allOrNothing_of_ok hrun (hcomplete.congr hkept)) fun _ _ _ hok => ?_
          cases hok
          refine ⟨w₂, hcheck, fun _ _ hok _ _ hraised => ?_⟩
          cases hpublish.symm.trans hok
          cases hsealed.symm.trans hraised
        · rw [hseal] at hrun
          -- the staging directory is gone; what is left is the bundle, if the seal raised no `BundleError`
          cases hkind : e.isBundleError with
          | true =>
            rw [hkind, if_pos rfl] at hown
            obtain ⟨e', w₆, hundo, hnone⟩ := undo_keeps hM staging (fun d hd => by cases hd) e hown
            rw [allOrNothing_of_error (hrun.trans hundo)]
            refine iff_of_true hnone fun _ _ _ hok => ?_
            cases hok
            refine ⟨w₂, hcheck, fun _ _ hok _ _ hraised' => ?_⟩
            cases hpublish.symm.trans hok
            cases hraised.symm.trans hraised'
            exact hkind
          | false =>
            rw [hkind, if_neg Bool.false_ne_true, hcomplete.files] at hown
            have happart : ∀ d, own w₅ = some d → ¬ staging <+: d.path := by
              intro d hd
              cases hown.symm.trans hd
              exact staging_apart hname
            obtain ⟨e', w₆, hundo, hstays⟩ := undo_keeps hM staging happart e rfl
            rw [allOrNothing_of_error (hrun.trans hundo), hstays, hown]
            refine iff_of_false (Option.some_ne_none _) fun hguarded => ?_
            obtain ⟨w₂', hok, hsealed⟩ := hguarded _ _ _ rfl
            cases hcheck.symm.trans hok
            exact Bool.false_ne_true (hkind.symm.trans (hsealed _ _ hpublish _ _ hraised))

/-- On POSIX the seal raises nothing else. -/
theorem seal_posix (hposix : B.windows = false)
    (hchmod : ∀ path mode w e w', B.chmod path mode w = .error e w' → ∃ kind message, e = .os kind message) {e : BundleFault}
    {w' : W} (h : B.setDirPrivate (B.taskDir taskId) w = .error e w') : e.isBundleError = true := by
  unfold FileHost.setDirPrivate FileHost.setPermissions at h
  rw [if_neg (by simp [hposix])] at h
  cases hrun : B.chmod (B.taskDir taskId) FileHost.privateMode w with
  | ok u w₁ =>
    rw [run_bind_ok (outcome_ok hrun)] at h
    cases h
  | error e' w₁ =>
    obtain ⟨kind, message, rfl⟩ := hchmod _ _ _ _ _ hrun
    rw [run_bind_ok (outcome_error hrun)] at h
    cases h
    rfl

/-! ## A task directory that becomes a link -/

def roomSha256 : String := "0000000000000000000000000000000000000000000000000000000000000000"

def roomRow : ArtifactRow where
  id := "a1"
  sessionId := "s1"
  artifactType := .log
  relativePath := "log/a1"
  sha256 := roomSha256
  sizeBytes := 2
  redacted := true

/-- A host with one directory of its own and one artifact. Where it is `linked`, somebody puts a link in the place of the task
directory while the staging directory is made. -/
def room (linked : Bool) : TaskContextBundle (Option (Path × List (String × Bytes))) where
  windows := false
  user := ""
  pathText path := "/" ++ "/".intercalate path
  sha256 _ := roomSha256
  clock := pure ⟨0, zero_lt_maxMicros⟩
  getRecord artifactId :=
    if artifactId = "a1" then pure roomRow
    else throw (.exception "ArtifactNotFound" ("artifact not found: " ++ artifactId))
  validateOwner _ := pure ()
  readBytes _ _ := pure [0x68, 0x69]
  pathExists path := fun w => .ok (w.any fun d => path <+: d.1) w
  lstatIsLink path := pure (linked && path = ["bundles", "t1"])
  fileAttributes _ := pure none
  anyEntry _ := pure false
  scandir path := fun w => match w with
    | some d => if path = d.1 then .ok ((d.2.map Prod.fst).dedup.map fun name => ⟨name, false, false⟩) w
      else .error (.os "FileNotFoundError" "") w
    | none => .error (.os "FileNotFoundError" "") w
  makeDirectories _ := pure ()
  makeTemporary stem parent := fun w => match w with
    | some _ => .error (.os "FileExistsError" "") w
    | none => .ok (parent ++ [stem ++ "x"]) (some (parent ++ [stem ++ "x"], []))
  writeBytes path content := fun w => match w with
    | some d => if path = d.1 ++ [path.getLastD ""] then .ok () (some (d.1, (path.getLastD "", content) :: d.2))
      else .error (.os "FileNotFoundError" "") w
    | none => .error (.os "FileNotFoundError" "") w
  chmod _ _ := pure ()
  icacls _ _ := pure 0
  rename source target := fun w => match w with
    | some d => if source = d.1 then .ok () (some (target, d.2)) else .error (.os "FileNotFoundError" "") w
    | none => .error (.os "FileNotFoundError" "") w
  unlink path := fun w => match w with
    | some d => if path = d.1 ++ [path.getLastD ""] then .ok () (some (d.1, d.2.filter fun f => f.1 ≠ path.getLastD ""))
      else .error (.os "FileNotFoundError" "") w
    | none => .error (.os "FileNotFoundError" "") w
  removeDirectory path := fun w => match w with
    | some d => if path = d.1 ∧ d.2 = [] then .ok () none else .error (.os "OSError" "") w
    | none => .error (.os "FileNotFoundError" "") w
  bundleRoot := ["bundles"]
  maxBundleBytes := 1024
  ttlSeconds := 3600
  walkFuel := 0

/-- The directory of the room. -/
def roomOwn (w : Option (Path × List (String × Bytes))) : Option OwnDir := w.map fun d => ⟨d.1, fun name => d.2.lookup name⟩

theorem roomOwn_eq_some {w : Option (Path × List (String × Bytes))} {d : OwnDir} (h : roomOwn w = some d) :
    ∃ l, w = some (d.path, l) ∧ d.files = fun name => l.lookup name := by
  obtain ⟨⟨path, l⟩, rfl, rfl⟩ := Option.map_eq_some_iff.1 h
  exact ⟨l, rfl, rfl⟩

theorem lookup_unlinked (l : List (String × Bytes)) (name n : String) :
    (l.filter fun f => f.1 ≠ name).lookup n = if n = name then none else l.lookup n := by
  induction l with
  | nil => simp
  | cons f l ih =>
    by_cases hname : f.1 = name
    · rw [List.filter_cons_of_neg (by simpa using hname), ih, List.lookup_cons]
      by_cases hn : n = name
      · rw [if_pos hn, if_pos hn]
      · rw [if_neg hn, if_neg hn, beq_false_of_ne (hname ▸ hn)]
    · rw [List.filter_cons_of_pos (by simpa using hname), List.lookup_cons, ih, List.lookup_cons]
      by_cases hn : n = f.1
      · subst hn
        simp [hname]
      · rw [beq_false_of_ne hn]

theorem room_documented (linked : Bool) : (room linked).Documented roomOwn where
  clock _ := rfl
  getRecord artifactId := .ite (.pure _) (.throw _)
  validateOwner _ _ := rfl
  readBytes _ _ _ := rfl
  pathExists _ _ := rfl
  lstatIsLink _ _ := rfl
  fileAttributes _ _ := rfl
  anyEntry _ _ := rfl
  scandir path w := by
    cases w with
    | none => rfl
    | some d =>
      change roomOwn (Lib.ending (if path = d.1 then _ else _)) = _
      split <;> rfl
  makeDirectories _ _ := rfl
  chmod _ _ _ := rfl
  icacls _ _ _ := rfl
  makeTemporary stem parent w hw := by
    obtain rfl := Option.map_eq_none_iff.1 hw
    exact ⟨⟨"x", rfl⟩, rfl⟩
  writeBytes dir files name content w hw := by
    obtain ⟨l, rfl, hfiles⟩ := roomOwn_eq_some hw
    dsimp only at hfiles
    subst hfiles
    change Ends _ _ (if dir ++ [name] = dir ++ [(dir ++ [name]).getLastD ""] then _ else _)
    rw [if_pos (by rw [List.getLastD_concat])]
    change roomOwn _ = _
    simp only [roomOwn, Option.map_some, List.getLastD_concat, Option.some.injEq, OwnDir.mk.injEq, true_and]
    funext n
    rw [List.lookup_cons]
    by_cases hn : n = name
    · simp [hn]
    · simp [hn, beq_false_of_ne hn]
  rename dir target files w hw := by
    obtain ⟨l, rfl, hfiles⟩ := roomOwn_eq_some hw
    dsimp only at hfiles
    subst hfiles
    change Ends _ _ (if dir = dir then _ else _)
    rw [if_pos rfl]
    rfl
  unlink dir files name w hw := by
    obtain ⟨l, rfl, hfiles⟩ := roomOwn_eq_some hw
    dsimp only at hfiles
    subst hfiles
    change Ends _ _ (if dir ++ [name] = dir ++ [(dir ++ [name]).getLastD ""] then _ else _)
    rw [if_pos (by rw [List.getLastD_concat])]
    change roomOwn _ = _
    simp only [roomOwn, Option.map_some, List.getLastD_concat, lookup_unlinked]
  unlinkOther path w hw := by
    cases w with
    | none => rfl
    | some d =>
      change roomOwn (Lib.ending (if path = d.1 ++ [path.getLastD ""] then _ else _)) = _
      rw [if_neg (hw _ rfl _)]
      rfl
  removeDirectory dir files w hw := by
    obtain ⟨l, rfl, hfiles⟩ := roomOwn_eq_some hw
    change Ends _ _ (if dir = dir ∧ l = [] then _ else _)
    split
    · rfl
    · exact hw
  removeDirectoryOther path w hw := by
    cases w with
    | none => rfl
    | some d =>
      change roomOwn (Lib.ending (if path = d.1 ∧ d.2 = [] then _ else _)) = _
      rw [if_neg fun hdir => hw _ rfl hdir.1]
      rfl

theorem room_removes (linked : Bool) : (room linked).Removes roomOwn where
  pathExists {d w} h := by
    obtain ⟨l, rfl, -⟩ := roomOwn_eq_some h
    refine ⟨some (d.path, l), ?_⟩
    change EStateM.Result.ok (decide (d.path <+: d.path)) _ = _
    rw [decide_eq_true List.prefix_rfl]
  scandir {d w} h := by
    obtain ⟨l, rfl, hfiles⟩ := roomOwn_eq_some h
    refine ⟨(l.map Prod.fst).dedup.map fun name => ⟨name, false, false⟩, _, if_pos rfl, fun e he => ?_, ?_, fun name => ?_⟩
    · obtain ⟨_, -, rfl⟩ := List.mem_map.1 he
      rfl
    · rw [List.map_map]
      exact (List.nodup_dedup _).map fun _ _ heq => heq
    · simp [hfiles]
  chmod _ hraised := by cases hraised
  icacls _ _ _ := ⟨0, _, rfl⟩
  unlink {d w name} h _ := by
    obtain ⟨l, rfl, -⟩ := roomOwn_eq_some h
    exact ⟨_, if_pos (by rw [List.getLastD_concat])⟩
  removeDirectory {d w} h hempty := by
    obtain ⟨l, rfl, hfiles⟩ := roomOwn_eq_some h
    cases l with
    | nil => exact ⟨none, if_pos ⟨rfl, rfl⟩⟩
    | cons f l =>
      have hnone := hempty f.1
      rw [hfiles] at hnone
      simp at hnone

/-- Without the link the path checks pass, and the seal does not raise. -/
theorem room_guarded (taskId sessionId : String) (refs : List ArtifactRef) (now : Option Instant) :
    (room false).Guarded taskId sessionId refs now none := by
  have hparts : ∀ label parts current w, (room false).checkParts label current parts w = .ok () w := by
    intro label parts
    induction parts with
    | nil => exact fun _ _ => rfl
    | cons part parts ih =>
      intro current w
      have hlink : (room false).isReparseOrSymlink (current ++ [part]) w = .ok false w := rfl
      rw [FileHost.checkParts, run_bind_ok (show (room false).pathExists (current ++ [part]) w = .ok _ w from rfl)]
      split
      · exact (run_bind_ok hlink).trans (ih _ _)
      · exact ih _ _
  intro expiresAt staging w₁ hopen
  have hopening := opening_triple (room_documented false) taskId sessionId now none rfl
  rw [hopen] at hopening
  obtain ⟨⟨tail, rfl⟩, -⟩ := hopening
  refine ⟨w₁, ?_, fun _ _ _ e w₄ hraised => ?_⟩
  · exact (congrFun (if_pos ((List.prefix_append _ _).trans (List.prefix_append _ _))) w₁).trans (hparts _ _ _ _)
  · cases hraised

theorem materialize_all_or_nothing_sample : (room false).AllOrNothing roomOwn "t1" "s1"
    [roomRow.ref] none none := by
  have hnone : roomOwn none = none := rfl
  exact (materialize_all_or_nothing (room_documented false) (room_removes false) hnone "t1" "s1" [roomRow.ref] none).2
    (room_guarded "t1" "s1" [roomRow.ref] none)

/-- With it the call raises, and its staging directory is still there. -/
theorem staging_left_behind : (room true).Documented roomOwn ∧ (room true).Removes roomOwn ∧
    ¬ (room true).AllOrNothing roomOwn "t1" "s1" [] none none := by
  refine ⟨room_documented true, room_removes true, fun h => ?_⟩
  have hraised : (room true).materialize "t1" "s1" [] none none =
      .error (.bundle "staging: symlink/junction/reparse in path: /bundles/t1")
        (some (["bundles", "t1", ".bundle-staging-x"], [])) := rfl
  cases h.nothing _ _ hraised

end TaskContextBundle

end AgentHub
