import AgentHub.Security.PatchGuard
/-!
# What a passed patch is

The guard passes when it has no reason, so each of its checks holds of a manifest it passed: `check_passed` collects them.
Paths are the same when their keys are; a path that passed is in normal form, so where case matters its key is the path.
-/

namespace AgentHub.Security

open Lib Workspace

theorem refusal_none {α : Type} {kinds : List ErrorKind} {x : Except Failure α} (h : refusal kinds x = .ok none) :
    ∃ a, x = .ok a := by
  unfold refusal at h
  split at h
  · exact ⟨_, rfl⟩
  · split at h <;> cases h

namespace PatchGuard

variable {G : PatchGuard} {K : ScopeKeys} {c : FileChange}

/-! ## No reasons -/

theorem pathReasons_snd (seen paths : List String) : (G.pathReasons seen paths).2 = (paths.map G.key).reverse ++ seen := by
  induction paths generalizing seen with
  | nil => rfl
  | cons path paths ih =>
    simp only [pathReasons, List.map_cons, List.reverse_cons, List.append_assoc, List.singleton_append]
    exact ih _

theorem pathReasons_nil {seen paths : List String} (h : (G.pathReasons seen paths).1 = []) :
    (paths.map G.key).Nodup ∧ (∀ path ∈ paths, G.key path ∉ seen) ∧
      ∀ path ∈ paths, casefold (PurePath.name path.toList) ∉ forbiddenGitFiles := by
  induction paths generalizing seen with
  | nil => simp
  | cons path paths ih =>
    simp only [pathReasons, List.append_eq_nil_iff] at h
    obtain ⟨⟨hseen, hgit⟩, hrest⟩ := h
    obtain ⟨hnodup, hnot, hforbidden⟩ := ih hrest
    have hkey : G.key path ∉ seen := fun hk => by simp [hk] at hseen
    have hname : casefold (PurePath.name path.toList) ∉ forbiddenGitFiles := fun hk => by simp [hk] at hgit
    refine ⟨?_, ?_, List.forall_mem_cons.2 ⟨hname, hforbidden⟩⟩
    · rw [List.map_cons, List.nodup_cons]
      refine ⟨fun hmem => ?_, hnodup⟩
      obtain ⟨other, ho, he⟩ := List.mem_map.1 hmem
      exact hnot other ho (he ▸ List.mem_cons_self)
    · exact List.forall_mem_cons.2 ⟨hkey, fun other ho hk => hnot other ho (List.mem_cons_of_mem _ hk)⟩

/-- What the checks of one change say when they give no reason. -/
structure Passed (G : PatchGuard) (K : ScopeKeys) (c : FileChange) : Prop where
  action : G.validateAction K c = .ok ()
  git : ∀ path ∈ namedPaths c, casefold (PurePath.name path.toList) ∉ forbiddenGitFiles
  granted : ∀ path ∈ protectedPaths c, G.lacksGrant K c path = false

theorem changeReasons_nil {seen seen' : List String} (h : G.changeReasons K seen c = .ok ([], seen')) :
    G.Passed K c ∧ ((namedPaths c).map G.key).Nodup ∧ (∀ path ∈ namedPaths c, G.key path ∉ seen) ∧
      seen' = ((namedPaths c).map G.key).reverse ++ seen := by
  simp only [changeReasons, Tx.bind_ok, Tx.pure_ok, Prod.mk.injEq] at h
  obtain ⟨refused, hrefused, hreasons, hseen⟩ := h
  obtain ⟨⟨hpaths, hnone⟩, hprivileged⟩ := by simpa only [List.append_eq_nil_iff] using hreasons.symm
  obtain ⟨hnodup, hnot, hgit⟩ := pathReasons_nil hpaths
  obtain rfl : refused = none := by simpa using hnone
  obtain ⟨_, haction⟩ := refusal_none hrefused
  refine ⟨⟨haction, hgit, fun path hp => ?_⟩, hnodup, hnot, hseen.trans (pathReasons_snd seen _)⟩
  by_contra hlacks
  have hmem : path ∈ (protectedPaths c).filter (G.lacksGrant K c) := List.mem_filter.2 ⟨hp, by simpa using hlacks⟩
  rw [List.map_eq_nil_iff.1 hprivileged] at hmem
  exact List.not_mem_nil hmem

theorem allChangeReasons_nil {seen : List String} {changes : List FileChange}
    (h : G.allChangeReasons K seen changes = .ok []) :
    (∀ c ∈ changes, G.Passed K c) ∧ ((changes.flatMap namedPaths).map G.key).Nodup ∧
      ∀ path ∈ changes.flatMap namedPaths, G.key path ∉ seen := by
  induction changes generalizing seen with
  | nil => simp
  | cons c changes ih =>
    simp only [allChangeReasons, Tx.bind_ok, Tx.pure_ok] at h
    obtain ⟨⟨reasons, seen'⟩, hc, others, hrest, hnil⟩ := h
    obtain ⟨rfl, rfl⟩ := List.append_eq_nil_iff.1 hnil.symm
    obtain ⟨hpassed, hnodup, hnot, rfl⟩ := changeReasons_nil hc
    obtain ⟨hall, hnodup', hnot'⟩ := ih hrest
    refine ⟨List.forall_mem_cons.2 ⟨hpassed, hall⟩, ?_, ?_⟩
    · rw [List.flatMap_cons, List.map_append, List.nodup_append]
      refine ⟨hnodup, hnodup', ?_⟩
      rintro k hk k' hk' rfl
      obtain ⟨path, hp, rfl⟩ := List.mem_map.1 hk'
      exact hnot' path hp (List.mem_append_left _ (List.mem_reverse.2 hk))
    · intro path hp
      rcases List.mem_append.1 (List.flatMap_cons ▸ hp) with hp | hp
      · exact hnot path hp
      · exact fun hk => hnot' path hp (List.mem_append_right _ hk)

theorem allDirectoryReasons_nil {createdFiles directories : List String}
    (h : G.allDirectoryReasons createdFiles directories = .ok []) :
    ∀ directory ∈ directories, ∃ path ∈ createdFiles, (directory ++ "/").toList <+: path.toList := by
  induction directories with
  | nil => simp
  | cons directory directories ih =>
    simp only [allDirectoryReasons, Tx.bind_ok, Tx.pure_ok] at h
    obtain ⟨reasons, hd, others, hrest, hnil⟩ := h
    obtain ⟨rfl, rfl⟩ := List.append_eq_nil_iff.1 hnil.symm
    refine List.forall_mem_cons.2 ⟨?_, ih hrest⟩
    simp only [directoryReasons, Tx.bind_ok] at hd
    obtain ⟨refused, -, hd⟩ := hd
    split at hd
    · cases hd
    · split at hd
      · rename_i hany
        obtain ⟨path, hp, hprefix⟩ := List.any_eq_true.1 hany
        exact ⟨path, hp, List.isPrefixOf_iff_prefix.1 hprefix⟩
      · cases hd

theorem report_passed {manifest : ChangeSetManifest} {patch : Bytes} {reasons : List String}
    (h : (G.report manifest patch reasons).decision = .passed) : reasons = [] := by
  unfold report at h
  split at h
  · cases h
  split at h
  · cases h
  split at h
  · cases h
  · rename_i hne
    exact not_not.1 hne

/-! ## Actions -/

theorem validateAction_write (ha : c.action = .modified ∨ c.action = .deleted) (h : G.validateAction K c = .ok ()) :
    G.policy.host.nfc c.path = c.path ∧ G.key c.path ∈ K.existing := by
  have hbody : (do
      let _ ← G.policy.validateCapturedPath c.path true
      if ¬ K.existing.contains (G.key c.path) then
        throw (⟨.valueError, "existing_scope_violation:" ++ c.path⟩ : Failure)) = .ok () := by
    rcases ha with ha | ha <;>
    · rw [validateAction, ha] at h
      exact h
  obtain ⟨_, hv, h⟩ := Tx.bind_ok.1 hbody
  refine ⟨PathPolicy.validateCapturedPath_nfc hv, ?_⟩
  split at h
  · cases h
  · rename_i hin
    simpa using hin

theorem validateAction_created (ha : c.action = .created) (h : G.validateAction K c = .ok ()) :
    G.policy.host.nfc c.path = c.path ∧ G.key c.path ∈ K.new := by
  rw [validateAction, ha] at h
  obtain ⟨_, hv, h⟩ := Tx.bind_ok.1 h
  refine ⟨PathPolicy.validateCapturedPath_nfc hv, ?_⟩
  split at h
  · cases h
  · rename_i hin
    simpa using hin

theorem validateAction_renamed (ha : c.action = .renamed) (h : G.validateAction K c = .ok ()) :
    ∃ oldPath, c.oldPath = some oldPath ∧ G.key oldPath ≠ G.key c.path ∧ G.policy.host.nfc oldPath = oldPath ∧
      G.policy.host.nfc c.path = c.path ∧ G.key oldPath ∈ K.existing ∧ G.key c.path ∈ K.new := by
  rw [validateAction, ha] at h
  dsimp only at h
  split at h
  · cases h
  rename_i oldPath ho
  split at h
  · cases h
  rename_i hne
  simp only [Tx.bind_ok] at h
  obtain ⟨_, hold, _, hpath, h⟩ := h
  split at h
  · cases h
  rename_i hexisting
  split at h
  · cases h
  rename_i hnew
  exact ⟨oldPath, ho, hne, PathPolicy.validateCapturedPath_nfc hold, PathPolicy.validateCapturedPath_nfc hpath,
    by simpa using hexisting, by simpa using hnew⟩

/-! ## The manifest -/

/-- What the guard promises of a manifest it passes. -/
structure Sound (G : PatchGuard) (manifest : ChangeSetManifest) (patch : Bytes) (scope : ValidatedScope)
    (grantedExistingFiles : List String) (expectedPatchSha256 : Option String) : Prop where
  hash : ∀ expected, expectedPatchSha256 = some expected → G.policy.host.sha256 patch = expected
  ignored : manifest.ignoredFilesTouched = []
  distinct : ((manifest.changes.flatMap namedPaths).map G.key).Nodup
  normal : ∀ c ∈ manifest.changes, ∀ path ∈ namedPaths c, G.policy.host.nfc path = path
  written : ∀ c ∈ manifest.changes, c.action = .modified ∨ c.action = .deleted →
    G.key c.path ∈ scope.existingFiles.map G.key
  created : ∀ c ∈ manifest.changes, c.action = .created → G.key c.path ∈ scope.newFiles.map G.key
  renamed : ∀ c ∈ manifest.changes, c.action = .renamed → ∃ oldPath, c.oldPath = some oldPath ∧
    G.key oldPath ∈ scope.existingFiles.map G.key ∧ G.key c.path ∈ scope.newFiles.map G.key
  granted : ∀ c ∈ manifest.changes, ∀ path ∈ namedPaths c, eligibleActions G.policy.host path ≠ [] →
    G.key path ∈ grantedExistingFiles.map G.key ∧
      ((c.action = .modified ∨ c.action = .deleted) ∧ path = c.path ∨
        c.action = .renamed ∧ c.oldPath = some path ∧ path ≠ c.path)
  directories : ∀ directory ∈ manifest.createdDirectories, ∃ c ∈ manifest.changes,
    (c.action = .created ∨ c.action = .renamed) ∧ ∃ below, below ≠ [] ∧
      PurePath.names c.path.toList = PurePath.names directory.toList ++ below
  git : ∀ c ∈ manifest.changes, ∀ path ∈ namedPaths c, casefold (PurePath.name path.toList) ∉ forbiddenGitFiles

theorem namedPaths_of_shape (h : validateActionShape c = .ok ()) (ha : c.action ≠ .renamed) : namedPaths c = [c.path] := by
  have hold : c.oldPath = none := by
    by_contra hne
    unfold validateActionShape at h
    cases ha' : c.action <;> simp [ha', hne, invalid] at h ha
  simp [namedPaths, hold]

theorem mem_protectedPaths (h : validateActionShape c = .ok ()) {path : String} (hp : path ∈ namedPaths c) :
    path ∈ protectedPaths c := by
  unfold protectedPaths
  split
  · exact hp
  · rename_i ha
    exact namedPaths_of_shape h ha ▸ hp

/-- A protected path that needs a grant has one, and is neither created nor the target of a rename. -/
theorem granted_of_passed (hshape : validateActionShape c = .ok ()) (h : G.Passed K c) {path : String}
    (hp : path ∈ namedPaths c) (he : eligibleActions G.policy.host path ≠ []) :
    G.key path ∈ K.granted ∧ ((c.action = .modified ∨ c.action = .deleted) ∧ path = c.path ∨
      c.action = .renamed ∧ c.oldPath = some path ∧ path ≠ c.path) := by
  have hlacks := h.granted path (mem_protectedPaths hshape hp)
  simp only [lacksGrant, he, ne_eq, not_false_eq_true, decide_true, Bool.true_and, Bool.or_eq_false_iff,
    Bool.and_eq_false_iff, decide_eq_false_iff_not, Bool.not_eq_false', List.contains_iff_mem] at hlacks
  obtain ⟨htarget, hgranted⟩ := hlacks
  refine ⟨hgranted, ?_⟩
  by_cases ha : c.action = .renamed
  · have hne : path ≠ c.path := by
      rintro rfl
      simp [ha] at htarget
    refine .inr ⟨ha, ?_, hne⟩
    simpa [namedPaths, hne] using hp
  · have hpath : path = c.path := by simpa [namedPaths_of_shape hshape ha] using hp
    refine .inl ⟨?_, hpath⟩
    cases hact : c.action with
    | modified => exact .inl rfl
    | deleted => exact .inr rfl
    | created => simp [hpath, hact] at htarget
    | renamed => exact absurd hact ha

/-- The folder of a text prefix is above a canonical path. -/
theorem names_of_prefix {directory path : List Char} (h : directory ++ ['/'] <+: path) (hc : PurePath.Canonical path) :
    ∃ below, below ≠ [] ∧ PurePath.names path = PurePath.names directory ++ below := by
  obtain ⟨rest, rfl⟩ := h
  have happend : directory ++ ['/'] ++ rest = directory ++ '/' :: rest := by simp
  rw [happend] at hc ⊢
  have hrest : PurePath.Canonical rest := fun s hs =>
    hc s (by rw [PurePath.segments_append]; exact List.mem_append_right _ hs)
  refine ⟨PurePath.names rest, ?_, PurePath.names_append directory rest⟩
  rw [hrest.names_eq]
  exact PurePath.segments_ne_nil rest

/-- A created file, or the target of a rename, is a canonical spelling in normal form. -/
theorem canonical_of_passed {existingFiles newFiles : List String} {scope : ValidatedScope}
    (hscope : G.policy.validateScope existingFiles newFiles = .ok scope) (hnew : K.new = scope.newFiles.map G.key)
    (ha : c.action = .created ∨ c.action = .renamed) (h : G.Passed K c) : PurePath.Canonical c.path.toList := by
  have hkey : G.policy.host.nfc c.path = c.path ∧ G.key c.path ∈ K.new := by
    rcases ha with ha | ha
    · exact validateAction_created ha h.action
    · obtain ⟨_, -, -, -, hn, -, hk⟩ := validateAction_renamed ha h.action
      exact ⟨hn, hk⟩
  obtain ⟨hn, hk⟩ := hkey
  rw [hnew] at hk
  obtain ⟨other, ho, he⟩ := List.mem_map.1 hk
  obtain ⟨hno, hco⟩ := PathPolicy.validateScope_new hscope other ho
  exact PathPolicy.canonical_of_comparisonKey he.symm hn hno hco

theorem normal_of_passed (hshape : validateActionShape c = .ok ()) (h : G.Passed K c) :
    ∀ path ∈ namedPaths c, G.policy.host.nfc path = path := by
  have hsingle : c.action ≠ .renamed → G.policy.host.nfc c.path = c.path → ∀ path ∈ namedPaths c,
      G.policy.host.nfc path = path := by
    intro ha hn path hp
    rw [namedPaths_of_shape hshape ha, List.mem_singleton] at hp
    exact hp ▸ hn
  cases ha : c.action with
  | created => exact hsingle (by simp [ha]) (validateAction_created ha h.action).1
  | modified => exact hsingle (by simp [ha]) (validateAction_write (.inl ha) h.action).1
  | deleted => exact hsingle (by simp [ha]) (validateAction_write (.inr ha) h.action).1
  | renamed =>
    obtain ⟨oldPath, ho, -, hnold, hn, -⟩ := validateAction_renamed ha h.action
    intro path hp
    simp only [namedPaths, ho, Option.toList_some, List.singleton_append, List.mem_cons, List.not_mem_nil,
      or_false] at hp
    rcases hp with rfl | rfl
    · exact hnold
    · exact hn

/-- What the guard promises holds of a manifest of well-formed changes that it passes. -/
theorem check_passed {manifest : ChangeSetManifest} {patch : Bytes} {existingFiles newFiles granted : List String}
    {expected : Option String} {report : PatchGuardReport}
    (hshape : ∀ c ∈ manifest.changes, validateActionShape c = .ok ())
    (h : G.check manifest patch existingFiles newFiles granted expected = .ok report) (hp : report.decision = .passed) :
    ∃ scope, G.policy.validateScope existingFiles newFiles = .ok scope ∧ G.Sound manifest patch scope granted expected := by
  unfold check at h
  split at h
  · split at h
    · obtain rfl := Except.ok.inj h
      dsimp only at hp
      split at hp <;> cases hp
    · cases h
  rename_i scope hscope
  simp only [Tx.bind_ok, Tx.pure_ok] at h
  obtain ⟨directories, hdirectories, changes, hchanges, rfl⟩ := h
  have hreasons := report_passed hp
  simp only [List.append_eq_nil_iff, plainReasons] at hreasons
  obtain ⟨⟨⟨⟨⟨⟨hhash, -⟩, -⟩, -⟩, hignored⟩, rfl⟩, rfl⟩ := hreasons
  obtain ⟨hpassed, hnodup, -⟩ := allChangeReasons_nil hchanges
  refine ⟨scope, hscope, ?_⟩
  constructor
  case hash =>
    rintro e rfl
    by_contra hne
    simp [Ne.symm hne] at hhash
  case ignored =>
    by_contra hne
    simp [hne] at hignored
  case distinct => exact hnodup
  case normal => exact fun c hc => normal_of_passed (hshape c hc) (hpassed c hc)
  case written => exact fun c hc ha => (validateAction_write ha (hpassed c hc).action).2
  case created => exact fun c hc ha => (validateAction_created ha (hpassed c hc).action).2
  case renamed =>
    intro c hc ha
    obtain ⟨oldPath, ho, -, -, -, hold, hnew⟩ := validateAction_renamed ha (hpassed c hc).action
    exact ⟨oldPath, ho, hold, hnew⟩
  case granted => exact fun c hc path hpath he => granted_of_passed (hshape c hc) (hpassed c hc) hpath he
  case directories =>
    intro directory hd
    obtain ⟨path, hpath, hprefix⟩ := allDirectoryReasons_nil hdirectories directory hd
    obtain ⟨c, hc, rfl⟩ := List.mem_map.1 hpath
    obtain ⟨hc, ha⟩ := List.mem_filter.1 hc
    have ha : c.action = .created ∨ c.action = .renamed := by simpa using ha
    refine ⟨c, hc, ha, names_of_prefix ?_ (canonical_of_passed hscope rfl ha (hpassed c hc))⟩
    simpa using hprefix
  case git => exact fun c hc => (hpassed c hc).git

/-- A disk on which every path is a plain file. -/
def fileDisk : Disk where
  lstat _ := .ok (some ⟨false, false⟩)
  pathExists _ := .ok true
  isSymlink _ := .ok false
  isFile _ := .ok true
  isDir _ := .ok false
  resolve _ path := .ok path
  linkCount _ := .ok 1

def sampleGuard : PatchGuard := { policy := { PathPolicy.samplePolicy with disk := fileDisk } }

def sampleManifest : ChangeSetManifest := sampleEdits ["src/app.py", "package.json"]

theorem check_passed_sample :
    ∃ scope, sampleGuard.policy.validateScope ["src/app.py", "package.json"] [] = .ok scope ∧
      sampleGuard.Sound sampleManifest (utf8 "patch") scope ["package.json"] (some "") := by
  have h : sampleGuard.check sampleManifest (utf8 "patch") ["src/app.py", "package.json"] [] ["package.json"] (some "") =
      .ok ⟨.passed, "", ["package.json", "src/app.py"], []⟩ := by decide +kernel
  refine check_passed ?_ h rfl
  intro c hc
  obtain ⟨p, -, rfl⟩ := List.mem_map.1 hc
  rfl

end PatchGuard

end AgentHub.Security
