import AgentHub.Workspace.FileChanges
import AgentHub.Workspace.Restoration
import Mathlib.Data.List.Dedup
/-!
# What a manifest says

The preimages of a ChangeSet are the files of the baseline that its changes and the touched ignored files were, and a patch
that was verified has led from the one state of the manifest to the other.
-/

namespace AgentHub.Workspace

open Lib Lib.Diff

/-! ## The preimages of ignored files -/

section
variable (H : Host) (maxIgnoredPreimageBytes : Nat) (assertSecretFreeBytes : Bytes → String → Except Failure Unit)

/-- One round of `_capture_ignored_preimages`. -/
def captureIgnoredPreimage (inventory : Inventory) (s : Dict FilePreimage × Nat) (path : String) :
    Except Failure (Dict FilePreimage × Nat) :=
  match inventory.files.lookup path with
  | none => pure s
  | some snapshot =>
    match inventory.sealedFiles.lookup path with
    | none => throw ⟨.workspaceNotClean, "ignored baseline content was not sealed"⟩
    | some content => do
      assertSealedContent H path snapshot content
      reraise (fun e : Failure => e.kind = .secretPolicyViolation)
        (fun _ => ⟨.workspaceNotClean, "ignored baseline contains content that cannot enter artifacts"⟩)
        (assertSecretFreeBytes content.content ("ignored workspace file '" ++ path ++ "'"))
      if s.2 + content.sizeBytes > maxIgnoredPreimageBytes then
        throw ⟨.workspaceNotClean, "ignored preimages exceed the workspace baseline limit"⟩
      else
        pure (s.1 ++ [(path, ⟨path, snapshot.sha256, snapshot.sizeBytes, snapshot.mode, content.content, true⟩)],
          s.2 + content.sizeBytes)

/-- `_capture_ignored_preimages`. -/
def captureIgnoredPreimages (ignored : List String) (inventory : Inventory) : Except Failure (Dict FilePreimage) := do
  let s ← (sortedSet ignored).foldlM (captureIgnoredPreimage H maxIgnoredPreimageBytes assertSecretFreeBytes inventory) ([], 0)
  pure s.1

end

/-- The entry is the file of the baseline under its path. -/
def PreimageOf (H : Host) (baseline : Inventory) (path : String) (preimage : FilePreimage) : Prop :=
  preimage.path = path ∧ preimage.sha256 = H.sha256 preimage.content ∧
    ∃ s, baseline.files.lookup path = some s ∧ preimage.sha256 = s.sha256

section
variable {H : Host} {maxBytes : Nat} {secretFree : Bytes → String → Except Failure Unit} {inventory : Inventory}

theorem assertSealedContent_ok {path : String} {snapshot : FileSnapshot} {content : SealedFile}
    (h : assertSealedContent H path snapshot content = .ok ()) : snapshot.sha256 = H.sha256 content.content := by
  unfold assertSealedContent at h
  split at h
  · cases h
  next hne =>
    simp only [not_or, not_not] at hne
    rw [hne.2.2.1, hne.2.2.2.2.2]

/-- A round leaves the preimages it has and adds the one of its path, when there is a file. -/
theorem captureIgnoredPreimage_ok {s s' : Dict FilePreimage × Nat} {path : String}
    (h : captureIgnoredPreimage H maxBytes secretFree inventory s path = .ok s') :
    (inventory.files.lookup path = none ∧ s'.1 = s.1) ∨
      ∃ preimage, PreimageOf H inventory path preimage ∧ preimage.baselineIgnored = true ∧
        s'.1 = s.1 ++ [(path, preimage)] := by
  unfold captureIgnoredPreimage at h
  split at h
  next hnone =>
    cases h
    exact .inl ⟨hnone, rfl⟩
  next snapshot hsome =>
    split at h
    · cases h
    next content hcontent =>
      obtain ⟨_, hsealed, h⟩ := Tx.bind_ok.1 h
      obtain ⟨_, -, h⟩ := Tx.bind_ok.1 h
      split at h
      · cases h
      · cases h
        exact .inr ⟨_, ⟨rfl, assertSealedContent_ok hsealed, snapshot, hsome, rfl⟩, rfl, rfl⟩

/-- Every entry is flagged as one of an ignored file. -/
theorem captureIgnoredPreimages_flagged {paths : List String} {s s' : Dict FilePreimage × Nat}
    (h : paths.foldlM (captureIgnoredPreimage H maxBytes secretFree inventory) s = .ok s')
    (hs : ∀ entry ∈ s.1, entry.2.baselineIgnored = true) : ∀ entry ∈ s'.1, entry.2.baselineIgnored = true := by
  induction paths generalizing s with
  | nil =>
    cases h
    exact hs
  | cons path paths ih =>
    rw [List.foldlM_cons] at h
    obtain ⟨t, ht, h⟩ := Tx.bind_ok.1 h
    refine ih h fun entry hentry => ?_
    rcases captureIgnoredPreimage_ok ht with ⟨-, heq⟩ | ⟨preimage, -, hflag, heq⟩
    · exact hs entry (heq ▸ hentry)
    · rw [heq, List.mem_append, List.mem_singleton] at hentry
      rcases hentry with hold | rfl
      · exact hs entry hold
      · exact hflag

theorem captureIgnoredPreimages_fold {paths : List String} {s s' : Dict FilePreimage × Nat}
    (h : paths.foldlM (captureIgnoredPreimage H maxBytes secretFree inventory) s = .ok s') :
    (∀ path preimage, s'.1.lookup path = some preimage →
      s.1.lookup path = some preimage ∨ path ∈ paths ∧ PreimageOf H inventory path preimage) ∧
    (∀ path, s.1.lookup path ≠ none ∨ path ∈ paths ∧ inventory.files.lookup path ≠ none → s'.1.lookup path ≠ none) := by
  induction paths generalizing s with
  | nil =>
    cases h
    exact ⟨fun _ _ h => .inl h, fun path h => h.resolve_right (by simp)⟩
  | cons first paths ih =>
    rw [List.foldlM_cons] at h
    obtain ⟨t, ht, h⟩ := Tx.bind_ok.1 h
    obtain ⟨hfrom, hkeep⟩ := ih h
    rcases captureIgnoredPreimage_ok ht with ⟨hnone, heq⟩ | ⟨added, hadded, -, heq⟩
    · rw [heq] at hfrom hkeep
      refine ⟨fun path preimage hp => (hfrom path preimage hp).imp_right fun h => ⟨List.mem_cons_of_mem _ h.1, h.2⟩, ?_⟩
      rintro path (hp | ⟨hmem, hfile⟩)
      · exact hkeep path (.inl hp)
      · rcases List.mem_cons.1 hmem with rfl | hmem
        · exact absurd hnone hfile
        · exact hkeep path (.inr ⟨hmem, hfile⟩)
    · simp only [heq, List.lookup_append] at hfrom hkeep
      constructor
      · intro path preimage hp
        rcases hfrom path preimage hp with hfound | ⟨hmem, hpre⟩
        · cases hs : s.1.lookup path with
          | some other => exact .inl (by simpa [hs] using hfound)
          | none =>
            have hcons : ([(first, added)] : Dict FilePreimage).lookup path = some preimage := by simpa [hs] using hfound
            by_cases hpath : path = first
            · subst hpath
              obtain rfl : added = preimage := by simpa using hcons
              exact .inr ⟨List.mem_cons_self, hadded⟩
            · have hbeq : (path == first) = false := by simpa using hpath
              simp [List.lookup_cons, hbeq] at hcons
        · exact .inr ⟨List.mem_cons_of_mem _ hmem, hpre⟩
      · rintro path (hp | ⟨hmem, hfile⟩)
        · exact hkeep path (.inl (by simp [hp]))
        · rcases List.mem_cons.1 hmem with rfl | hmem
          · exact hkeep path (.inl (by simp))
          · exact hkeep path (.inr ⟨hmem, hfile⟩)

end

/-! ## The preimages of a ChangeSet -/

theorem has_iff {α : Type} {d : Dict α} {key : String} : d.has key = true ↔ key ∈ d.keys := by
  rw [Dict.has, Option.isSome_iff_ne_none, ne_eq, List.lookup_eq_none_iff]
  simp [Dict.keys]

namespace WorkspaceTransaction

variable {W : Type} {H : Host} {M : Machine W} {tx : WorkspaceTransaction}

/-- Preimages of the baseline, one for a path. -/
structure Preimages (H : Host) (tx : WorkspaceTransaction) (d : Dict FilePreimage) : Prop where
  nodup : d.keys.Nodup
  each : ∀ entry ∈ d, PreimageOf H tx.baselineInventory entry.1 entry.2

/-- The preimage of a change is there, or it is added. -/
theorem buildPreimage_ok {d d' : Dict FilePreimage} {c : FileChange} {w w' : W} (hc : c.Sourced tx.baselineInventory)
    (h : tx.buildPreimage H M d c w = .ok d' w') :
    ((c.action = .created ∨ c.source ∈ d.keys) ∧ d' = d) ∨
      (c.action ≠ .created ∧ c.source ∉ d.keys ∧
        ∃ preimage, PreimageOf H tx.baselineInventory c.source preimage ∧ d' = d ++ [(c.source, preimage)]) := by
  unfold buildPreimage at h
  have hsource : c.oldPath.getD c.path = c.source := rfl
  simp only [hsource] at h
  split at h
  next hskip =>
    cases h
    exact .inl ⟨hskip.imp_right has_iff.1, rfl⟩
  next hskip =>
    rw [not_or] at hskip
    obtain ⟨content, w₁, -, h⟩ := bind_eq_ok.1 h
    split at h
    · cases h
    next hdigest =>
      obtain ⟨s, hs, hbefore⟩ := hc hskip.1
      simp only [hs] at h
      cases h
      have hsha : H.sha256 content = s.sha256 := by
        have := (not_not.1 hdigest).symm.trans hbefore
        simpa using this
      refine .inr ⟨hskip.1, fun hmem => hskip.2 (has_iff.2 hmem), ⟨c.source, H.sha256 content, content.length, s.mode,
        content, false⟩, ⟨rfl, rfl, s, hs, hsha⟩, ?_⟩
      exact if_neg hskip.2

theorem buildPreimages_fold {changes : List FileChange} {d d' : Dict FilePreimage} {w w' : W}
    (hchanges : ∀ c ∈ changes, c.Sourced tx.baselineInventory) (hd : Preimages H tx d)
    (h : changes.foldlM (tx.buildPreimage H M) d w = .ok d' w') :
    Preimages H tx d' ∧
      ∀ path, path ∈ d'.keys ↔ path ∈ d.keys ∨ ∃ c ∈ changes, c.action ≠ .created ∧ c.source = path := by
  induction changes generalizing d w with
  | nil =>
    cases h
    exact ⟨hd, by simp⟩
  | cons c changes ih =>
    obtain ⟨hc, hrest⟩ := List.forall_mem_cons.1 hchanges
    rw [List.foldlM_cons] at h
    obtain ⟨t, w₁, ht, hothers⟩ := bind_eq_ok.1 h
    rcases buildPreimage_ok hc ht with ⟨hskip, rfl⟩ | ⟨haction, hnew, preimage, hpreimage, rfl⟩
    · obtain ⟨hd', hkeys⟩ := ih hrest hd hothers
      refine ⟨hd', fun path => ?_⟩
      rw [hkeys]
      constructor
      · rintro (hpath | ⟨c', hc', hother⟩)
        · exact .inl hpath
        · exact .inr ⟨c', List.mem_cons_of_mem _ hc', hother⟩
      · rintro (hpath | ⟨c', hc', haction, rfl⟩)
        · exact .inl hpath
        · rcases List.mem_cons.1 hc' with rfl | hc'
          · exact .inl (hskip.resolve_left haction)
          · exact .inr ⟨c', hc', haction, rfl⟩
    · have ht' : Preimages H tx (d ++ [(c.source, preimage)]) := by
        refine ⟨?_, ?_⟩
        · rw [Dict.keys, List.map_append, List.nodup_append]
          refine ⟨hd.nodup, by simp, ?_⟩
          rintro path hpath _ hmem rfl
          obtain rfl : path = c.source := List.mem_singleton.1 hmem
          exact hnew hpath
        · intro entry hentry
          rcases List.mem_append.1 hentry with hentry | hentry
          · exact hd.each entry hentry
          · rw [List.mem_singleton.1 hentry]
            exact hpreimage
      obtain ⟨hd', hkeys⟩ := ih hrest ht' hothers
      refine ⟨hd', fun path => ?_⟩
      rw [hkeys, Dict.keys, List.map_append, List.mem_append]
      constructor
      · rintro ((hpath | hpath) | ⟨c', hc', hother⟩)
        · exact .inl hpath
        · exact .inr ⟨c, List.mem_cons_self, haction, by simpa using (List.mem_singleton.1 hpath).symm⟩
        · exact .inr ⟨c', List.mem_cons_of_mem _ hc', hother⟩
      · rintro (hpath | ⟨c', hc', haction', rfl⟩)
        · exact .inl (.inl hpath)
        · rcases List.mem_cons.1 hc' with rfl | hc'
          · exact .inl (.inr (by simp))
          · exact .inr ⟨c', hc', haction', rfl⟩

/-- What `begin` records of the ignored files. -/
def IgnoredRecorded (H : Host) (M : Machine W) (tx : WorkspaceTransaction) : Prop :=
  captureIgnoredPreimages H tx.limits.maxIgnoredPreimageBytes M.assertSecretFreeBytes tx.baselineIgnored
    tx.baselineInventory = .ok tx.ignoredPreimages

theorem ignoredPreimages_lookup (h : IgnoredRecorded H M tx) {path : String} {preimage : FilePreimage}
    (hp : tx.ignoredPreimages.lookup path = some preimage) :
    path ∈ tx.baselineIgnored ∧ PreimageOf H tx.baselineInventory path preimage := by
  obtain ⟨s, hs, h⟩ := Tx.bind_ok.1 h
  rw [Tx.pure_ok.1 h] at hp
  rcases (captureIgnoredPreimages_fold hs).1 path preimage hp with hnone | ⟨hmem, hpre⟩
  · cases hnone
  · rw [sortedSet, sorted, (List.perm_insertionSort _ _).mem_iff, List.mem_dedup] at hmem
    exact ⟨hmem, hpre⟩

theorem ignoredPreimages_ne_none (h : IgnoredRecorded H M tx) {path : String} (hmem : path ∈ tx.baselineIgnored)
    (hfile : tx.baselineInventory.files.lookup path ≠ none) : tx.ignoredPreimages.lookup path ≠ none := by
  obtain ⟨s, hs, h⟩ := Tx.bind_ok.1 h
  rw [Tx.pure_ok.1 h]
  refine (captureIgnoredPreimages_fold hs).2 path (.inr ⟨?_, hfile⟩)
  rwa [sortedSet, sorted, (List.perm_insertionSort _ _).mem_iff, List.mem_dedup]

/-- A touched path is a file that the baseline ignored. -/
def TouchedFile (tx : WorkspaceTransaction) (after : Inventory) (current : RepositoryState) (path : String) : Prop :=
  path ∈ tx.ignoredChanges after current ∧ path ∈ tx.baselineIgnored ∧ tx.baselineInventory.files.lookup path ≠ none

theorem mem_touchedPreimages {touched : List String} {entry : String × FilePreimage} :
    entry ∈ tx.touchedPreimages touched ↔ entry.1 ∈ touched ∧ tx.ignoredPreimages.lookup entry.1 = some entry.2 := by
  simp only [touchedPreimages, List.mem_filterMap, Option.map_eq_some_iff]
  constructor
  · rintro ⟨path, hpath, preimage, hp, rfl⟩
    exact ⟨hpath, hp⟩
  · rintro ⟨hpath, hp⟩
    exact ⟨entry.1, hpath, entry.2, hp, rfl⟩

theorem touchedPreimages_keys (touched : List String) : (tx.touchedPreimages touched).keys.Sublist touched := by
  induction touched with
  | nil => exact .refl _
  | cons path touched ih =>
    simp only [touchedPreimages, Dict.keys, List.filterMap_cons] at ih ⊢
    cases tx.ignoredPreimages.lookup path with
    | none => exact ih.cons _
    | some preimage => exact ih.cons_cons _

theorem ignoredChanges_nodup (after : Inventory) (current : RepositoryState) :
    (tx.ignoredChanges after current).Nodup :=
  (List.perm_insertionSort _ _).nodup_iff.2 (List.nodup_dedup _)

theorem mem_ignoredChanges {after : Inventory} {current : RepositoryState} {path : String} :
    path ∈ tx.ignoredChanges after current ↔ (path ∈ tx.baselineIgnored ∨ path ∈ current.ignoredFiles) ∧
      tx.baselineInventory.files.lookup path ≠ after.files.lookup path := by
  rw [ignoredChanges, sortedSet, sorted, (List.perm_insertionSort _ _).mem_iff, List.mem_dedup, List.mem_filter]
  simp

theorem touchedPreimages_ok (h : IgnoredRecorded H M tx) (after : Inventory) (current : RepositoryState) :
    Preimages H tx (tx.touchedPreimages (tx.ignoredChanges after current)) ∧
      ∀ path, path ∈ (tx.touchedPreimages (tx.ignoredChanges after current)).keys ↔ tx.TouchedFile after current path := by
  refine ⟨⟨(ignoredChanges_nodup after current).sublist (touchedPreimages_keys _), fun entry hentry =>
    (ignoredPreimages_lookup h (mem_touchedPreimages.1 hentry).2).2⟩, fun path => ?_⟩
  constructor
  · intro hmem
    obtain ⟨entry, hentry, rfl⟩ := List.mem_map.1 hmem
    obtain ⟨htouched, hp⟩ := mem_touchedPreimages.1 hentry
    obtain ⟨hignored, -, -, s, hs, -⟩ := ignoredPreimages_lookup h hp
    exact ⟨htouched, hignored, by simp [hs]⟩
  · rintro ⟨htouched, hignored, hfile⟩
    obtain ⟨preimage, hp⟩ := Option.ne_none_iff_exists'.1 (ignoredPreimages_ne_none h hignored hfile)
    exact List.mem_map.2 ⟨(path, preimage), mem_touchedPreimages.2 ⟨htouched, hp⟩, rfl⟩

/-- The preimages are those of the sources of the changes and of the ignored files that were touched, each once, with the
hashes the baseline has. -/
theorem buildPreimages_ok (hignored : IgnoredRecorded H M tx) {after : Inventory} {current : RepositoryState}
    {changes : List FileChange} {preimages : List FilePreimage} {w w' : W}
    (hchanges : ∀ c ∈ changes, c.Sourced tx.baselineInventory)
    (h : tx.buildPreimages H M changes (tx.ignoredChanges after current) w = .ok preimages w') :
    (preimages.map FilePreimage.path).Nodup ∧
    (∀ path, path ∈ preimages.map FilePreimage.path ↔
      (∃ c ∈ changes, c.action ≠ .created ∧ c.source = path) ∨ tx.TouchedFile after current path) ∧
    ∀ preimage ∈ preimages, PreimageOf H tx.baselineInventory preimage.path preimage := by
  obtain ⟨d, w₁, hd, h⟩ := bind_eq_ok.1 h
  obtain ⟨htouched, hkeys⟩ := touchedPreimages_ok hignored after current
  obtain ⟨hd', hkeys'⟩ := buildPreimages_fold hchanges htouched hd
  cases h
  have hperm := List.perm_insertionSort (fun a b : String × FilePreimage => a.1 ≤ b.1) d
  have hpaths : ((d.insertionSort fun a b => a.1 ≤ b.1).map Prod.snd).map FilePreimage.path =
      (d.insertionSort fun a b => a.1 ≤ b.1).map Prod.fst := by
    rw [List.map_map]
    exact List.map_congr_left fun entry hentry => (hd'.each entry (hperm.mem_iff.1 hentry)).1
  refine ⟨?_, fun path => ?_, fun preimage hmem => ?_⟩
  · rw [hpaths, (hperm.map Prod.fst).nodup_iff]
    exact hd'.nodup
  · rw [hpaths, (hperm.map Prod.fst).mem_iff]
    exact (hkeys' path).trans ((or_congr_left (hkeys path)).trans or_comm)
  · obtain ⟨entry, hentry, rfl⟩ := List.mem_map.1 hmem
    have heach := hd'.each entry (hperm.mem_iff.1 hentry)
    rwa [heach.1]

theorem ignoredPreimages_flagged (h : IgnoredRecorded H M tx) : ∀ entry ∈ tx.ignoredPreimages, entry.2.baselineIgnored = true := by
  obtain ⟨s, hs, h⟩ := Tx.bind_ok.1 h
  rw [Tx.pure_ok.1 h]
  exact captureIgnoredPreimages_flagged hs (by simp)

/-- A preimage is that of the source of a change, or flagged as one of an ignored file. -/
theorem buildPreimages_flagged (hignored : IgnoredRecorded H M tx) {after : Inventory} {current : RepositoryState}
    {changes : List FileChange} {preimages : List FilePreimage} {w w' : W}
    (hchanges : ∀ c ∈ changes, c.Sourced tx.baselineInventory)
    (h : tx.buildPreimages H M changes (tx.ignoredChanges after current) w = .ok preimages w') :
    ∀ preimage ∈ preimages, (∃ c ∈ changes, c.action ≠ .created ∧ c.source = preimage.path) ∨
      preimage.baselineIgnored = true := by
  obtain ⟨d, w₁, hd, h⟩ := bind_eq_ok.1 h
  cases h
  -- What a round adds is the preimage of the source of its change.
  have hfold : ∀ (l : List FileChange) (d d' : Dict FilePreimage) (w w' : W), (∀ c ∈ l, c ∈ changes) →
      (∀ entry ∈ d, (∃ c ∈ changes, c.action ≠ .created ∧ c.source = entry.2.path) ∨ entry.2.baselineIgnored = true) →
      l.foldlM (tx.buildPreimage H M) d w = .ok d' w' →
      ∀ entry ∈ d', (∃ c ∈ changes, c.action ≠ .created ∧ c.source = entry.2.path) ∨ entry.2.baselineIgnored = true := by
    intro l
    induction l with
    | nil =>
      intro d d' w w' _ hd h
      cases h
      exact hd
    | cons c l ih =>
      intro d d' w w' hl hd h
      obtain ⟨hc, hl⟩ := List.forall_mem_cons.1 hl
      rw [List.foldlM_cons] at h
      obtain ⟨t, w₁, ht, h⟩ := bind_eq_ok.1 h
      refine ih t d' w₁ w' hl (fun entry hentry => ?_) h
      rcases buildPreimage_ok (hchanges c hc) ht with ⟨-, rfl⟩ | ⟨haction, -, preimage, hpreimage, rfl⟩
      · exact hd entry hentry
      · rcases List.mem_append.1 hentry with hold | hnew
        · exact hd entry hold
        · rw [List.mem_singleton.1 hnew]
          exact .inl ⟨c, hc, haction, hpreimage.1.symm⟩
  have hall := hfold changes _ d _ _ (fun _ hc => hc) (fun entry hentry => ?_) hd
  · intro preimage hmem
    obtain ⟨entry, hentry, rfl⟩ := List.mem_map.1 hmem
    exact hall entry ((List.perm_insertionSort (fun a b : String × FilePreimage => a.1 ≤ b.1) d).mem_iff.1 hentry)
  · obtain ⟨-, hlookup⟩ := mem_touchedPreimages.1 hentry
    obtain ⟨before, rest, heq, -⟩ := List.lookup_eq_some_iff.1 hlookup
    exact .inr (ignoredPreimages_flagged hignored (entry.1, entry.2) (by simp [heq]))

/-- Git prints the committed bytes of the files that are not ignored, and they are those of the baseline. -/
def TrackedReadable (H : Host) (M : Machine W) (tx : WorkspaceTransaction) : Prop :=
  ∀ path s, tx.baselineInventory.files.lookup path = some s → path ∉ tx.baselineIgnored → ∀ w, ∃ content w',
    GitManager.readBlob H (M.process tx.repo) tx.baseCommit path w = .ok content w' ∧ H.sha256 content = s.sha256

theorem buildPreimage_returns (hgit : TrackedReadable H M tx) {d : Dict FilePreimage} {c : FileChange}
    (hc : c.Sourced tx.baselineInventory)
    (hignored : c.action ≠ .created → c.source ∈ tx.baselineIgnored → c.source ∈ d.keys) (w : W) :
    ∃ d' w', tx.buildPreimage H M d c w = .ok d' w' ∧ d.keys ⊆ d'.keys := by
  have hsource : c.oldPath.getD c.path = c.source := rfl
  by_cases hskip : c.action = .created ∨ d.has c.source = true
  · refine ⟨d, w, ?_, fun _ h => h⟩
    simp only [buildPreimage, hsource, if_pos hskip]
    rfl
  · obtain ⟨haction, hnew⟩ := not_or.1 hskip
    obtain ⟨s, hs, hbefore⟩ := hc haction
    have htracked : c.source ∉ tx.baselineIgnored := fun hmem => hnew (has_iff.2 (hignored haction hmem))
    obtain ⟨content, w', hread, hsha⟩ := hgit c.source s hs htracked w
    refine ⟨d.set c.source ⟨c.source, H.sha256 content, content.length, s.mode, content, false⟩, w', ?_, ?_⟩
    · simp only [buildPreimage, hsource, if_neg hskip]
      rw [run_bind_ok hread, if_neg (by simp [hbefore, hsha]), hs]
      rfl
    · rw [Dict.set, if_neg hnew, Dict.keys, Dict.keys, List.map_append]
      exact List.subset_append_left _ _

theorem buildPreimages_returns (hgit : TrackedReadable H M tx) {changes : List FileChange} {d : Dict FilePreimage}
    (hchanges : ∀ c ∈ changes, c.Sourced tx.baselineInventory)
    (hignored : ∀ c ∈ changes, c.action ≠ .created → c.source ∈ tx.baselineIgnored → c.source ∈ d.keys) (w : W) :
    ∃ d' w', changes.foldlM (tx.buildPreimage H M) d w = .ok d' w' := by
  induction changes generalizing d w with
  | nil => exact ⟨d, w, rfl⟩
  | cons c changes ih =>
    obtain ⟨hc, hrest⟩ := List.forall_mem_cons.1 hchanges
    obtain ⟨d', w', hd', hkeys⟩ := buildPreimage_returns hgit hc (hignored c List.mem_cons_self) w
    rw [List.foldlM_cons, run_bind_ok hd']
    exact ih hrest (fun c' hc' haction hmem => hkeys (hignored c' (List.mem_cons_of_mem _ hc') haction hmem)) w'

/-! ## The replay -/

/-- In a replay of the patch, the inventory had the first hash before the patch was applied and the second one after. -/
def Replayed (H : Host) (M : Machine W) (tx : WorkspaceTransaction) (patch : Bytes) (preStateHash postStateHash : String) :
    Prop :=
  ∃ repo w₁ w₂ w₃ w₄ w₅ before after, scanInventory H tx.limits (M.probe repo) [] w₁ = .ok before w₂ ∧
    before.stateHash = preStateHash ∧ GitManager.applyCheck H (M.process repo) patch w₂ = .ok () w₃ ∧
    GitManager.applyPatch H (M.process repo) patch w₃ = .ok () w₄ ∧
    scanInventory H tx.limits (M.probe repo) [] w₄ = .ok after w₅ ∧ after.stateHash = postStateHash

/-- The state that the patch of a ChangeSet leads to from its first state is its second one. -/
def Reaches (H : Host) (M : Machine W) (tx : WorkspaceTransaction) (result : CapturedWorkspaceChangeSet) : Prop :=
  if result.patchBytes = [] then result.manifest.preStateHash = result.manifest.postStateHash
  else Replayed H M tx result.patchBytes result.manifest.preStateHash result.manifest.postStateHash

theorem replay_replayed {result : CapturedWorkspaceChangeSet} {post : Inventory} {repo : Path} {sessionId : String}
    {w w' : W} (h : tx.replay H M result post repo sessionId w = .ok () w') :
    Replayed H M tx result.patchBytes result.manifest.preStateHash result.manifest.postStateHash := by
  obtain ⟨source, w₁, -, h⟩ := bind_eq_ok.1 h
  obtain ⟨_, w₂, -, h⟩ := bind_eq_ok.1 h
  obtain ⟨_, w₃, -, h⟩ := bind_eq_ok.1 h
  obtain ⟨before, w₄, hbefore, h⟩ := bind_eq_ok.1 h
  split at h
  · cases h
  next hpre =>
    obtain ⟨_, w₅, hcheck, h⟩ := bind_eq_ok.1 h
    obtain ⟨_, w₆, hpatch, h⟩ := bind_eq_ok.1 h
    obtain ⟨after, w₇, hafter, h⟩ := bind_eq_ok.1 h
    split at h
    · cases h
    next hpost =>
      exact ⟨repo, w₃, w₄, w₅, w₆, w₇, before, after, hbefore, not_not.1 hpre, hcheck, hpatch, hafter, not_not.1 hpost⟩

theorem verifyCanonicalPatch_reaches {result : CapturedWorkspaceChangeSet} {post : Inventory} {w w' : W}
    (h : tx.verifyCanonicalPatch H M result post w = .ok () w') : tx.Reaches H M result := by
  unfold verifyCanonicalPatch at h
  unfold Reaches
  split at h
  next hempty =>
    rw [if_pos hempty]
    split at h
    · cases h
    next hsame => exact not_not.1 hsame
  next hpatch =>
    rw [if_neg hpatch]
    obtain ⟨root, w₁, -, h⟩ := bind_eq_ok.1 h
    split at h
    · obtain ⟨_, w₂, -, h⟩ := bind_eq_ok.1 h
      cases h
    · rw [run_tryFinally] at h
      split at h
      next hreplay _ => exact replay_replayed hreplay
      all_goals cases h

/-! ## The manifest -/

theorem source_mem_paths (c : FileChange) : c.source ∈ c.paths := by
  unfold FileChange.source FileChange.paths
  cases c.oldPath <;> simp

/-- The preimages of a diff from the baseline are built. -/
theorem buildPreimages_of_diff (hignored : IgnoredRecorded H M tx) (hgit : TrackedReadable H M tx) {after : Inventory}
    {current : RepositoryState} {excluded : List String} {output : Bytes} {changes : List FileChange}
    (hchanges : buildFileChanges H tx.baselineInventory after output = .ok changes)
    (haffected : ∀ path ∈ changes.flatMap FileChange.paths, Affected H tx.baselineInventory after excluded path) (w : W) :
    ∃ preimages w', tx.buildPreimages H M changes (tx.ignoredChanges after current) w = .ok preimages w' := by
  have hsourced := buildFileChanges_sourced hchanges
  have hkeys := (touchedPreimages_ok hignored after current).2
  obtain ⟨d, w', hd⟩ := buildPreimages_returns (d := tx.touchedPreimages (tx.ignoredChanges after current)) hgit hsourced
    (fun c hc haction hmem => by
      obtain ⟨s, hs, -⟩ := hsourced c hc haction
      -- an ignored source is affected, so it is among the touched
      have hdiffers := (haffected _ (List.mem_flatMap.2 ⟨c, hc, source_mem_paths c⟩)).differs
      exact (hkeys _).2 ⟨mem_ignoredChanges.2 ⟨.inl hmem, hdiffers⟩, hmem, by simp [hs]⟩) w
  exact ⟨_, w', run_bind_ok hd⟩

/-- The manifest is faithful: the changes are the diff of the two states, the preimages are the files before it, and a
ChangeSet that was verified has the state that its patch leads to. -/
theorem manifest_faithful (H : Host) (M : Machine W) (tx : WorkspaceTransaction)
    (hhex : ∀ content, isSha256Hex (H.sha256 content) = true) (hignored : IgnoredRecorded H M tx) :
    (∀ (before after : Inventory) (excluded : List String) (records : List StatusRecord)
      (edits : List (Edit String GitFile)), before.Recorded H → after.Recorded H →
      RenameDiff H (gitFiles (projectInventory H before excluded)) (gitFiles (projectInventory H after excluded)) records
        edits → (∀ path, Affected H before after excluded path → isRepoRelativePath path = true) →
      ∃ changes, buildFileChanges H before after (nameStatus records) = .ok changes ∧
        (changes.flatMap FileChange.paths).Nodup ∧
        (∀ path, path ∈ changes.flatMap FileChange.paths ↔ Affected H before after excluded path) ∧
        applyChanges changes (contents (projectInventory H before excluded)) =
          contents (projectInventory H after excluded) ∧
        (before = tx.baselineInventory → TrackedReadable H M tx → ∀ current w, ∃ preimages w',
          tx.buildPreimages H M changes (tx.ignoredChanges after current) w = .ok preimages w')) ∧
    (∀ (after : Inventory) (current : RepositoryState) (output : Bytes) (changes : List FileChange)
      (preimages : List FilePreimage) (w w' : W), buildFileChanges H tx.baselineInventory after output = .ok changes →
      tx.buildPreimages H M changes (tx.ignoredChanges after current) w = .ok preimages w' →
      (preimages.map FilePreimage.path).Nodup ∧
        (∀ path, path ∈ preimages.map FilePreimage.path ↔
          (∃ c ∈ changes, c.action ≠ .created ∧ c.source = path) ∨ tx.TouchedFile after current path) ∧
        (∀ c ∈ changes, c.action ≠ .created → ∀ preimage ∈ preimages, preimage.path = c.source →
          c.beforeSha256 = some preimage.sha256) ∧
        ∀ preimage ∈ preimages, PreimageOf H tx.baselineInventory preimage.path preimage) ∧
    ∀ (result : CapturedWorkspaceChangeSet) (post : Inventory) (w w' : W),
      tx.verifyCanonicalPatch H M result post w = .ok () w' → tx.Reaches H M result := by
  refine ⟨?_, ?_, fun result post w w' h => verifyCanonicalPatch_reaches h⟩
  · intro before after excluded records edits hbefore hafter hdiff hpaths
    obtain ⟨changes, hchanges, -, hnd, hmem, happly⟩ :=
      buildFileChanges_faithful hdiff (hbefore.hashed hhex) (hafter.hashed hhex) hpaths
    refine ⟨changes, hchanges, hnd, hmem, happly, ?_⟩
    rintro rfl hgit current w
    exact buildPreimages_of_diff hignored hgit hchanges (fun path hpath => (hmem path).1 hpath) w
  · intro after current output changes preimages w w' hchanges h
    have hsourced := buildFileChanges_sourced hchanges
    obtain ⟨hnd, hmem, heach⟩ := buildPreimages_ok hignored hsourced h
    refine ⟨hnd, hmem, fun c hc haction preimage hpreimage hpath => ?_, heach⟩
    obtain ⟨s, hs, hbefore⟩ := hsourced c hc haction
    obtain ⟨-, -, s', hs', hsha⟩ := heach preimage hpreimage
    rw [hpath, hs] at hs'
    rw [hbefore, hsha, Option.some.inj hs']

end WorkspaceTransaction

/-! ## A sample -/

/-- SHA-256, on the contents of the files below and on the texts that their inventories are hashed from. -/
def renameHost : Host where
  sha256 content :=
    if content = [97] then "ca978112ca1bbdcafac231b39a23dc4da786eff8147c4e72b9807785afee48bb"
    else if content = [98] then "3e23e8160039594a33894f6564e1b1348bbd7a0088d42c4acb73eeaed59c009d"
    else if content.length = 173 then "473d083cae4a7e42c01bf7597cf55654d3ad831b704fe3c7ffd64ba6b64f8e00"
    else if content.length = 172 then "42a6dce3b6e30b0a2091bb8c84f3643b31408cdaa957cdbdc8ac1d8240d96fdc"
    else sampleHost.sha256 content
  decode := sampleHost.decode
  decodeReplacing := sampleHost.decodeReplacing
  encodes := sampleHost.encodes
  nfc := sampleHost.nfc

theorem renameHost_hex (content : Bytes) : isSha256Hex (renameHost.sha256 content) = true := by
  simp only [renameHost, sampleHost]
  split_ifs <;> decide +kernel

/-- An inventory of text files, every one of them with mode 0644. -/
def textInventory (files : Dict Bytes) : Inventory where
  files := files.map fun p => (p.1, snapshotOf renameHost p.1 p.2 420)
  directories := []
  stateHash := inventoryHash renameHost (files.map fun p => (p.1, snapshotOf renameHost p.1 p.2 420))
  totalBytes := (files.map fun p => p.2.length).sum
  sealedFiles := files.map fun p => (p.1, sealedOf renameHost p.2 420)

theorem textInventory_recorded (files : Dict Bytes) : (textInventory files).Recorded renameHost := by
  intro path s hs
  induction files with
  | nil => simp [textInventory] at hs
  | cons file files ih =>
    simp only [textInventory, List.map_cons, List.lookup_cons] at hs
    split at hs
    next hpath =>
      obtain rfl : path = file.1 := by simpa using hpath
      exact ⟨file.2, 420, (Option.some.inj hs).symm⟩
    · exact ih hs

/-- A log that Git ignores and a module. -/
def filesBefore : Dict Bytes := [("build.log", [97]), ("main.py", [97])]

/-- The log has another line and the module another name. -/
def filesAfter : Dict Bytes := [("app.py", [97]), ("build.log", [98])]

/-- A machine on the files, whose state says whether the patch was applied. -/
def renameMachine : Machine Bytes :=
  let files (applied : Bytes) : Dict Bytes := if applied = [] then filesBefore else filesAfter
  { sampleMachine with
    process := fun _ args _ applied =>
      match args with
      | "cat-file" :: _ => .ok ⟨0, [97], []⟩ applied
      | ["apply", "--binary", "--whitespace=nowarn", "-"] => .ok ⟨0, [], []⟩ [1]
      | _ => .ok ⟨0, [], []⟩ applied
    probe := fun _ =>
      { tree := fun applied => .ok (.files (files applied).keys) applied
        scandir := fun _ => pure true
        lstat := fun _ => pure ⟨.regular, 1, 420, 0, 0, 1, 0, 0⟩
        openBinary := fun path applied =>
          let metadata : FileStat := ⟨.regular, 1, 420, 0, 0, 1, 0, 0⟩
          .ok ⟨metadata, ((files applied).lookup path).getD [], metadata⟩ applied
        assertPathIdentity := fun _ _ => pure () } }

/-- The added log is a modified one: Git ignored it. -/
def renameRecords : List StatusRecord :=
  [.change [65] (utf8 "build.log"), .rename [82, 49, 48, 48] (utf8 "main.py") (utf8 "app.py")]

def renameEdits : List (Edit String GitFile) :=
  [.modify "build.log" ⟨renameHost.sha256 [98], 1, false⟩, .rename "main.py" "app.py" ⟨renameHost.sha256 [97], 1, false⟩]

theorem renameRecords_diff : RenameDiff renameHost (gitFiles (projectInventory renameHost (textInventory filesBefore) []))
    (gitFiles (projectInventory renameHost (textInventory filesAfter) [])) renameRecords renameEdits where
  clean := by decide +kernel
  reads := .cons (.modified (.inl rfl) (by decide +kernel) (by decide +kernel))
    (.cons (.renamed (by decide +kernel) (by decide +kernel)) .nil)
  diff :=
    { fits := by
        simp only [renameEdits, List.forall_mem_cons]
        refine ⟨⟨by decide +kernel, by decide +kernel, by decide +kernel⟩, ⟨by decide +kernel, by decide +kernel,
          by decide +kernel, by decide +kernel, by decide +kernel⟩, by simp⟩
      nodup := by decide +kernel
      covers := by
        intro path hne
        by_contra hpath
        simp only [renameEdits, Diff.keys, List.flatMap_cons, List.flatMap_nil, Edit.keys, List.append_nil, List.mem_cons,
          List.mem_append, List.not_mem_nil, or_false, not_or] at hpath
        apply hne
        have hb : (path == "build.log") = false := by simpa using hpath.1
        have ha : (path == "app.py") = false := by simpa using hpath.2.1
        have hm : (path == "main.py") = false := by simpa using hpath.2.2
        simp [gitFiles, projectInventory, textInventory, filesBefore, filesAfter, List.lookup_cons, hb, ha, hm] }

namespace WorkspaceTransaction

def renameTransaction : WorkspaceTransaction :=
  { sampleTransaction with
    baselineInventory := textInventory filesBefore
    baselineTracked := ["main.py"]
    baselineIgnored := ["build.log"]
    ignoredPreimages := [("build.log", ⟨"build.log", renameHost.sha256 [97], 1, 420, [97], true⟩)] }

def renameCapture : CapturedWorkspaceChangeSet where
  manifest :=
    { baseCommit := renameTransaction.baseCommit
      preStateHash := (textInventory filesBefore).stateHash
      postStateHash := (textInventory filesAfter).stateHash
      changes := []
      createdDirectories := []
      ignoredFilesTouched := ["build.log"]
      stagedEvidenceSha256 := sampleHost.sha256 []
      unstagedEvidenceSha256 := sampleHost.sha256 []
      statusEvidenceSha256 := sampleHost.sha256 [] }
  patchBytes := utf8 "diff --git"
  statusEvidence := []
  stagedEvidence := []
  unstagedEvidence := []
  preimages := []

theorem renameTransaction_readable : TrackedReadable renameHost renameMachine renameTransaction := by
  intro path s hs htracked w
  by_cases hpath : path = "main.py"
  · subst hpath
    obtain rfl : snapshotOf renameHost "main.py" [97] 420 = s := Option.some.inj hs
    exact ⟨[97], w, by rfl, rfl⟩
  · have hlog : (path == "build.log") = false := by simpa [renameTransaction] using htracked
    have hmain : (path == "main.py") = false := by simpa using hpath
    simp [renameTransaction, textInventory, filesBefore, List.lookup_cons, hlog, hmain] at hs

theorem renameTransaction_recorded : IgnoredRecorded renameHost renameMachine renameTransaction := by
  unfold IgnoredRecorded
  decide +kernel

/-- The module was renamed and the ignored log has another line: the changes and the preimages are there, and the replay
reaches the state after. -/
theorem manifest_faithful_sample :
    (∃ changes preimages w',
      buildFileChanges renameHost (textInventory filesBefore) (textInventory filesAfter) (nameStatus renameRecords) =
        .ok changes ∧
      (∀ path, path ∈ changes.flatMap FileChange.paths ↔
        Affected renameHost (textInventory filesBefore) (textInventory filesAfter) [] path) ∧
      applyChanges changes (contents (projectInventory renameHost (textInventory filesBefore) [])) =
        contents (projectInventory renameHost (textInventory filesAfter) []) ∧
      renameTransaction.buildPreimages renameHost renameMachine changes
        (renameTransaction.ignoredChanges (textInventory filesAfter) renameTransaction.baselineState) [] =
          .ok preimages w' ∧
      (preimages.map FilePreimage.path).Nodup) ∧
    renameTransaction.Reaches renameHost renameMachine renameCapture := by
  obtain ⟨hbuild, hpreimages, hverify⟩ :=
    manifest_faithful renameHost renameMachine renameTransaction renameHost_hex renameTransaction_recorded
  have hpaths : ∀ path, Affected renameHost (textInventory filesBefore) (textInventory filesAfter) [] path →
      isRepoRelativePath path = true := by
    intro path hpath
    have hmem : path ∈ Diff.keys renameEdits := renameRecords_diff.diff.covers path hpath
    have hall : ∀ key ∈ Diff.keys renameEdits, isRepoRelativePath key = true := by decide +kernel
    exact hall path hmem
  obtain ⟨changes, hchanges, -, hmem, happly, hpre⟩ := hbuild _ _ _ _ _ (textInventory_recorded filesBefore)
    (textInventory_recorded filesAfter) renameRecords_diff hpaths
  obtain ⟨preimages, w', hw⟩ := hpre rfl renameTransaction_readable renameTransaction.baselineState []
  refine ⟨⟨changes, preimages, w', hchanges, hmem, happly, hw, (hpreimages _ _ _ _ _ _ _ hchanges hw).1⟩, ?_⟩
  have hreturned : returned (renameTransaction.verifyCanonicalPatch renameHost renameMachine renameCapture
      (textInventory filesAfter) []) = true := by
    decide +kernel
  obtain ⟨_, w'', hrun⟩ := returned_iff.1 hreturned
  exact hverify _ _ _ _ hrun

end WorkspaceTransaction

end AgentHub.Workspace
