import AgentHub.Workspace.Observed
/-!
# Restored or quarantined

A capture on a machine whose reading calls tell the truth ends closed over a workspace that equals the baseline, or
orphaned with a restore error, exactly when the steps before the restore that no handler covers return.
-/

namespace AgentHub.Workspace

open Lib

variable {W : Type} {H : Host} {M : Machine W} {view : W → Repository} {tx : WorkspaceTransaction}

/-! ## The machine -/

/-- The Git commands that only read. -/
def reading (args : List String) : Bool :=
  match args.head? with
  | some command => ["rev-parse", "symbolic-ref", "diff", "ls-files"].contains command
  | none => false

/-- A walk that reports what the repository holds. -/
structure Probe.Reports (P : Probe (EStateM Failure W)) (view : W → Repository) : Prop where
  tree : Lib.Reads view P.tree fun r => r.probe.tree
  scandir (path : String) : Lib.Reads view (P.scandir path) fun r => r.probe.scandir path
  lstat (path : String) : Lib.Reads view (P.lstat path) fun r => r.probe.lstat path
  openBinary (path : String) : Lib.Reads view (P.openBinary path) fun r => r.probe.openBinary path
  assertPathIdentity (path : String) (s : FileStat) :
    Lib.Reads view (P.assertPathIdentity path s) fun r => r.probe.assertPathIdentity path s

/-- A walk that leaves the repository alone. -/
structure Probe.Leaves (P : Probe (EStateM Failure W)) (view : W → Repository) : Prop where
  tree : Lib.Leaves view P.tree
  scandir (path : String) : Lib.Leaves view (P.scandir path)
  lstat (path : String) : Lib.Leaves view (P.lstat path)
  openBinary (path : String) : Lib.Leaves view (P.openBinary path)
  assertPathIdentity (path : String) (s : FileStat) : Lib.Leaves view (P.assertPathIdentity path s)

/-- Neither path lies in the other. -/
def Apart (a b : Path) : Prop := ¬ a <+: b ∧ ¬ b <+: a

theorem Apart.append {a b : Path} (h : Apart a b) (c : Path) : Apart a (b ++ c) := by
  constructor
  · intro hprefix
    rcases List.prefix_or_prefix_of_prefix hprefix (List.prefix_append b c) with hab | hba
    · exact h.1 hab
    · exact h.2 hba
  · intro hprefix
    exact h.2 ((List.prefix_append b c).trans hprefix)

/-- The calls at a root that leave the repository alone. -/
structure Machine.Elsewhere (M : Machine W) (view : W → Repository) (root : Path) : Prop where
  process (args : List String) (input : Option Bytes) : Leaves view (M.process root args input)
  probe : (M.probe root).Leaves view
  openRoot : Leaves view (M.openRoot root)
  closeRoot : Leaves view (M.closeRoot root)
  assertRootIdentity : Leaves view (M.assertRootIdentity root)
  openPolicy : Leaves view (M.openPolicy root)
  validateCleanupPath (path : String) : Leaves view (M.validateCleanupPath root path)
  replaceRegular (path : String) (content : Bytes) (mode : Nat) : Leaves view (M.replaceRegular root path content mode)

/-- What the capture relies on: the commands that read, the seal and the walk report what the repository holds, every
folder can be listed, the handle of the root is closed without an error, and the replay lies in a private directory
apart from the repository. -/
structure Machine.Lawful (M : Machine W) (view : W → Repository) (repo : Path) : Prop where
  git {args : List String} (h : reading args = true) : Lib.Reads view (M.process repo args none) fun r => r.git args none
  metadata (includeObjects : Bool) :
    Lib.Reads view (M.captureMetadataSeal repo includeObjects) fun r => (.ok (r.metadata includeObjects) : Except Failure _)
  walk : (M.probe repo).Reports view
  plain (w : W) : (view w).Plain
  close (w : W) : ∃ w', M.closeRoot repo w = .ok () w' ∧ view w' = view w
  create (name : String) : Leaves view (M.createPrivateTemporaryDirectory name)
  apart {name : String} {w w' : W} {root : Path} (h : M.createPrivateTemporaryDirectory name w = .ok root w') :
    Apart repo root
  remove (root : Path) : Leaves view (M.removePrivateTemporaryDirectory root)
  inspect (commit : String) : Leaves view (M.inspectSourceRepository repo commit)
  clone {destination : Path} (h : Apart repo destination) (source : SourceRepository) (id : String) :
    Leaves view (M.createSessionRepository source destination id)
  elsewhere {root : Path} (h : Apart repo root) : M.Elsewhere view root

/-! ## The Git commands report what the repository holds -/

namespace GitManager

section
variable {git : GitProcess (EStateM Failure W)} {args : List String}

theorem run_reads (h : Lib.Reads view (git args none) fun r => r.git args none) (allowed : List Int) :
    Lib.Reads view (run H git args none allowed) fun r => run H r.git args none allowed := by
  apply Lib.Reads.bind h
  intro completed
  apply Lib.Reads.ite
  · exact .pure completed
  · exact .throw _ _

theorem decode_reads {ρ : Type} {view : W → ρ} (value : Bytes) :
    Lib.Reads view (decode H value : EStateM Failure W String) fun _ => (decode H value : Except Failure String) := by
  unfold decode
  cases H.decode value with
  | some text => exact .pure text
  | none => exact .throw _ _

theorem nulRecords_reads {ρ : Type} {view : W → ρ} (value : Bytes) :
    Lib.Reads view (nulRecords value : EStateM Failure W (List Bytes)) fun _ =>
      (nulRecords value : Except Failure (List Bytes)) := by
  apply Lib.Reads.ite
  · exact .pure _
  · apply Lib.Reads.ite
    · exact .throw _ _
    · exact .pure _

theorem nulPaths_reads {ρ : Type} {view : W → ρ} (value : Bytes) :
    Lib.Reads view (nulPaths H value : EStateM Failure W (List String)) fun _ =>
      (nulPaths H value : Except Failure (List String)) := by
  apply Lib.Reads.bind (nulRecords_reads value)
  intro records
  apply Lib.Reads.foldlM
  intro paths record
  apply Lib.Reads.bind (decode_reads record)
  exact fun path => .pure _

theorem state_reads (hgit : ∀ {args}, reading args = true → Lib.Reads view (git args none) fun r => r.git args none) :
    Lib.Reads view (state H git) fun r => state H r.git := by
  apply Lib.Reads.bind (run_reads (hgit (by decide)) _)
  intro head
  apply Lib.Reads.bind (decode_reads _)
  intro commit
  apply Lib.Reads.ite
  · exact .throw _ _
  apply Lib.Reads.bind (run_reads (hgit (by decide)) _)
  intro branchResult
  apply Lib.Reads.bind (decode_reads _)
  intro branch
  apply Lib.Reads.bind (run_reads (hgit (by decide)) _)
  intro staged
  apply Lib.Reads.bind (run_reads (hgit (by decide)) _)
  intro unstaged
  apply Lib.Reads.bind (run_reads (hgit (by decide)) _)
  intro others
  apply Lib.Reads.bind (nulPaths_reads _)
  intro untracked
  apply Lib.Reads.bind (run_reads (hgit (by decide)) _)
  intro hidden
  apply Lib.Reads.bind (nulPaths_reads _)
  exact fun ignored => .pure _

theorem indexSha256_reads (hgit : ∀ {args}, reading args = true → Lib.Reads view (git args none) fun r => r.git args none) :
    Lib.Reads view (indexSha256 H git) fun r => indexSha256 H r.git := by
  apply Lib.Reads.bind (run_reads (hgit (by decide)) _)
  exact fun entries => .pure _

end

theorem run_leaves {git : GitProcess (EStateM Failure W)} (hgit : ∀ args input, Leaves view (git args input))
    (args : List String) (input : Option Bytes) (allowed : List Int) : Leaves view (run H git args input allowed) := by
  apply Leaves.bind (hgit args input)
  intro completed
  apply Leaves.ite
  · exact .pure completed
  · exact .throw _

end GitManager

/-! ## So does the walk -/

section
variable {L : Limits} {P : Probe (EStateM Failure W)} {sealPaths : List String}

theorem relativePath_reads (relative : String) : Lib.Reads view (relativePath H relative : EStateM Failure W String) fun _ =>
    (relativePath H relative : Except Failure String) := by
  apply Lib.Reads.ite
  · exact .throw _ _
  apply Lib.Reads.ite
  · exact .throw _ _
  apply Lib.Reads.ite
  · exact .throw _ _
  · exact .pure relative

theorem scanContent_reads (relative : String) (content : Option SealedFile) (s : Scan) :
    Lib.Reads view (scanContent L relative content s : EStateM Failure W Scan) fun _ =>
      (scanContent L relative content s : Except Failure Scan) := by
  cases content with
  | none => exact .pure s
  | some content =>
    apply Lib.Reads.ite
    · exact .throw _ _
    · exact .pure _

namespace Probe.Reports

theorem assertPlainEntry_reads (hP : P.Reports view) (path : String) (expectDirectory : Bool) :
    Lib.Reads view (assertPlainEntry P path expectDirectory) fun r => assertPlainEntry r.probe path expectDirectory := by
  apply Lib.Reads.bind (hP.lstat path)
  intro metadata
  apply Lib.Reads.ite
  · exact .throw _ _
  apply Lib.Reads.ite
  · apply Lib.Reads.ite
    · exact .throw _ _
    · exact .pure ()
  · apply Lib.Reads.ite
    · exact .throw _ _
    · exact .pure ()

theorem snapshotFile_reads (hP : P.Reports view) (relative : String) (captureContent : Bool) :
    Lib.Reads view (snapshotFile H P relative captureContent) fun r => snapshotFile H r.probe relative captureContent := by
  apply Lib.Reads.bind (Lib.Reads.reraise (hP.openBinary relative))
  intro file
  apply Lib.Reads.ite
  · exact .throw _ _
  apply Lib.Reads.bind (Lib.Reads.reraise (hP.assertPathIdentity relative file.after))
  exact fun _ => .pure _

theorem scanFolder_reads (hP : P.Reports view) (path : String) (s : Scan) (name : String) :
    Lib.Reads view (scanFolder H P path s name) fun r => scanFolder H r.probe path s name := by
  apply Lib.Reads.bind (hP.assertPlainEntry_reads _ _)
  intro _
  apply Lib.Reads.bind (relativePath_reads _)
  exact fun relative => .pure _

theorem scanFile_reads (hP : P.Reports view) (path : String) (s : Scan) (name : String) :
    Lib.Reads view (scanFile H L P sealPaths path s name) fun r => scanFile H L r.probe sealPaths path s name := by
  apply Lib.Reads.bind (hP.assertPlainEntry_reads _ _)
  intro _
  apply Lib.Reads.bind (relativePath_reads _)
  intro relative
  apply Lib.Reads.bind (hP.snapshotFile_reads _ _)
  intro result
  apply Lib.Reads.bind (scanContent_reads _ _ _)
  intro s
  apply Lib.Reads.ite
  · exact .throw _ _
  apply Lib.Reads.ite
  · exact .throw _ _
  · exact .pure _

theorem scanEntries_reads (hP : P.Reports view) (path : String) (t : Tree) (s : Scan) :
    Lib.Reads view (scanEntries H L P sealPaths path t s) fun r => scanEntries H L r.probe sealPaths path t s := by
  apply Lib.Reads.bind (Lib.Reads.foldlM (hP.scanFolder_reads path) _ s)
  exact fun s => Lib.Reads.foldlM (hP.scanFile_reads path) _ s

theorem scanBelow_reads (hP : P.Reports view) (t : Tree) : ∀ (path : String) (s : Scan),
    Lib.Reads view (scanBelow H L P sealPaths path t s) fun r => scanBelow H L r.probe sealPaths path t s := by
  induction t with
  | files names => exact fun path s => .pure s
  | folder name below rest ihbelow ihrest =>
    intro path s
    apply Lib.Reads.bind (hP.scandir _)
    intro listed
    apply Lib.Reads.ite
    · apply Lib.Reads.bind (hP.scanEntries_reads _ _ _)
      intro s
      apply Lib.Reads.bind (ihbelow _ s)
      exact fun s => ihrest path s
    · exact ihrest path s

theorem scanInventory_reads (hP : P.Reports view) :
    Lib.Reads view (scanInventory H L P sealPaths) fun r => scanInventory H L r.probe sealPaths := by
  have hroot : Lib.Reads view (scanRoot H L P sealPaths) fun r => scanRoot H L r.probe sealPaths := by
    apply Lib.Reads.bind hP.tree
    intro t
    apply Lib.Reads.bind (hP.scandir _)
    intro listed
    apply Lib.Reads.ite
    · apply Lib.Reads.bind (hP.scanEntries_reads _ _ _)
      exact fun s => hP.scanBelow_reads _ _ s
    · exact .pure _
  apply Lib.Reads.bind hroot
  exact fun s => .pure _

end Probe.Reports

/-! ## A walk elsewhere -/

namespace Probe.Leaves

theorem assertPlainEntry_leaves (hP : P.Leaves view) (path : String) (expectDirectory : Bool) :
    Lib.Leaves view (assertPlainEntry P path expectDirectory) := by
  apply Lib.Leaves.bind (hP.lstat path)
  intro metadata
  apply Lib.Leaves.ite
  · exact .throw _
  apply Lib.Leaves.ite
  · apply Lib.Leaves.ite
    · exact .throw _
    · exact .pure ()
  · apply Lib.Leaves.ite
    · exact .throw _
    · exact .pure ()

theorem relativePath_leaves (relative : String) : Lib.Leaves view (relativePath H relative : EStateM Failure W String) :=
  (relativePath_reads relative).leaves

theorem snapshotFile_leaves (hP : P.Leaves view) (relative : String) (captureContent : Bool) :
    Lib.Leaves view (snapshotFile H P relative captureContent) := by
  apply Lib.Leaves.bind (Lib.Leaves.reraise (hP.openBinary relative))
  intro file
  apply Lib.Leaves.ite
  · exact .throw _
  apply Lib.Leaves.bind (Lib.Leaves.reraise (hP.assertPathIdentity relative file.after))
  exact fun _ => .pure _

theorem scanEntries_leaves (hP : P.Leaves view) (path : String) (t : Tree) (s : Scan) :
    Lib.Leaves view (scanEntries H L P sealPaths path t s) := by
  have hfolder : ∀ s name, Lib.Leaves view (scanFolder H P path s name) := by
    intro s name
    apply Lib.Leaves.bind (hP.assertPlainEntry_leaves _ _)
    intro _
    apply Lib.Leaves.bind (relativePath_leaves _)
    exact fun relative => .pure _
  have hfile : ∀ s name, Lib.Leaves view (scanFile H L P sealPaths path s name) := by
    intro s name
    apply Lib.Leaves.bind (hP.assertPlainEntry_leaves _ _)
    intro _
    apply Lib.Leaves.bind (relativePath_leaves _)
    intro relative
    apply Lib.Leaves.bind (hP.snapshotFile_leaves _ _)
    intro result
    apply Lib.Leaves.bind (scanContent_reads _ _ _).leaves
    intro s
    apply Lib.Leaves.ite
    · exact .throw _
    apply Lib.Leaves.ite
    · exact .throw _
    · exact .pure _
  apply Lib.Leaves.bind (Lib.Leaves.foldlM hfolder _ s)
  exact fun s => Lib.Leaves.foldlM hfile _ s

theorem scanBelow_leaves (hP : P.Leaves view) (t : Tree) : ∀ (path : String) (s : Scan),
    Lib.Leaves view (scanBelow H L P sealPaths path t s) := by
  induction t with
  | files names => exact fun path s => .pure s
  | folder name below rest ihbelow ihrest =>
    intro path s
    apply Lib.Leaves.bind (hP.scandir _)
    intro listed
    apply Lib.Leaves.ite
    · apply Lib.Leaves.bind (hP.scanEntries_leaves _ _ _)
      intro s
      apply Lib.Leaves.bind (ihbelow _ s)
      exact fun s => ihrest path s
    · exact ihrest path s

theorem scanInventory_leaves (hP : P.Leaves view) : Lib.Leaves view (scanInventory H L P sealPaths) := by
  have hroot : Lib.Leaves view (scanRoot H L P sealPaths) := by
    apply Lib.Leaves.bind hP.tree
    intro t
    apply Lib.Leaves.bind (hP.scandir _)
    intro listed
    apply Lib.Leaves.ite
    · apply Lib.Leaves.bind (hP.scanEntries_leaves _ _ _)
      exact fun s => hP.scanBelow_leaves _ _ s
    · exact .pure _
  apply Lib.Leaves.bind hroot
  exact fun s => .pure _

end Probe.Leaves

end

/-! ## The replay leaves the repository alone -/

theorem materializeWorkspacePreimages_leaves {root : Path} (hroot : M.Elsewhere view root) (preimages : List FilePreimage)
    (maxPaths : Nat) : Leaves view (materializeWorkspacePreimages H M root preimages maxPaths true) := by
  apply Leaves.ite
  · exact .throw _
  apply Leaves.ite
  · exact .throw _
  apply Leaves.ite
  · exact .throw _
  apply Leaves.bind hroot.openRoot
  intro _
  refine Leaves.tryFinally ?_ hroot.closeRoot
  apply Leaves.bind hroot.assertRootIdentity
  intro _
  apply Leaves.bind hroot.openPolicy
  intro _
  apply Leaves.forM
  intro preimage
  apply Leaves.ite
  · exact .throw _
  apply Leaves.bind (hroot.validateCleanupPath _)
  intro validated
  exact Leaves.reraise (hroot.replaceRegular _ _ _)

namespace WorkspaceTransaction

theorem replay_leaves (hM : M.Lawful view tx.repo) {root : Path} (hroot : Apart tx.repo root)
    (result : CapturedWorkspaceChangeSet) (postInventory : Inventory) (id : String) :
    Leaves view (tx.replay H M result postInventory root id) := by
  have helse := hM.elsewhere hroot
  apply Leaves.bind (hM.inspect _)
  intro source
  apply Leaves.bind (hM.clone hroot _ _)
  intro _
  apply Leaves.bind (materializeWorkspacePreimages_leaves helse _ _)
  intro _
  apply Leaves.bind helse.probe.scanInventory_leaves
  intro replayBaseline
  apply Leaves.ite
  · exact .throw _
  apply Leaves.bind (Leaves.bind (GitManager.run_leaves helse.process _ _ _) fun _ => .pure ())
  intro _
  apply Leaves.bind (Leaves.bind (GitManager.run_leaves helse.process _ _ _) fun _ => .pure ())
  intro _
  apply Leaves.bind helse.probe.scanInventory_leaves
  intro applied
  apply Leaves.ite
  · exact .throw _
  apply Leaves.ite
  · exact .throw _
  · exact .pure ()

/-- The directory of the replay is apart from the repository, so nothing the replay does reaches it. -/
theorem verifyCanonicalPatch_leaves (hM : M.Lawful view tx.repo) (result : CapturedWorkspaceChangeSet)
    (postInventory : Inventory) : Leaves view (tx.verifyCanonicalPatch H M result postInventory) := by
  apply Leaves.ite
  · apply Leaves.ite
    · exact .throw _
    · exact .pure ()
  intro w
  have hw := hM.create "ah-replay-" w
  rw [run_bind]
  cases hcreate : M.createPrivateTemporaryDirectory "ah-replay-" w with
  | error e w' =>
    rw [hcreate] at hw
    exact hw
  | ok root w' =>
    rw [hcreate] at hw
    refine Eq.trans ?_ hw
    refine Leaves.ite ?_ ?_ w'
    · apply Leaves.bind (hM.remove root)
      exact fun _ => .throw _
    · exact Leaves.tryFinally (replay_leaves hM ((hM.apart hcreate).append _) _ _ _) (hM.remove root)

/-! ## The last check of the restore -/

theorem assertRestored_restored (hM : M.Lawful view tx.repo) {w w' : W} (h : tx.assertRestored H M w = .ok () w') :
    tx.Restored H (view w') := by
  unfold assertRestored at h
  obtain ⟨_, w₁, -, h⟩ := bind_eq_ok.1 h
  obtain ⟨current, w₂, hcurrent, h⟩ := bind_eq_ok.1 h
  obtain ⟨hview₂, hstate⟩ := (GitManager.state_reads fun hargs => hM.git hargs).ok hcurrent
  split at h
  · cases h
  next hsame =>
    obtain ⟨index, w₃, hindex, h⟩ := bind_eq_ok.1 h
    obtain ⟨hview₃, hindex⟩ := (GitManager.indexSha256_reads fun hargs => hM.git hargs).ok hindex
    split at h
    · cases h
    next hindexsame =>
      obtain ⟨inventory, w₄, hscan, h⟩ := bind_eq_ok.1 h
      obtain ⟨hview₄, hreport⟩ := hM.walk.scanInventory_reads.ok hscan
      split at h
      · cases h
      next hinventory =>
        cases h
        obtain ⟨hfiles, hsealed, hdirectories⟩ := scanInventory_ok (hM.plain w₃) hreport
        obtain ⟨hsamefiles, hsamedirectories, -, -, hsamesealed⟩ := Inventory.same_iff.1 (not_not.1 hinventory)
        rw [hview₄]
        refine ⟨?_, ?_, ?_, ?_, ?_⟩
        · rw [hview₃, hview₂, hstate, not_not.1 hsame]
        · rw [hview₃, hindex, not_not.1 hindexsame]
        · rw [← hfiles]
          exact hsamefiles
        · rw [← hdirectories]
          exact hsamedirectories
        · rw [← hsealed]
          exact hsamesealed

/-! ## How a capture ends -/

/-- Closed over a workspace that equals the baseline, or orphaned with a restore error. -/
def Settled (H : Host) (tx : WorkspaceTransaction) (view : W → Repository)
    (end_ : EStateM.Result Failure (Session W) CapturedWorkspaceChangeSet) : Prop :=
  ((Lib.ending end_).phase = .closed ∧ tx.Restored H (view (Lib.ending end_).world)) ∨
    ((Lib.ending end_).phase = .orphaned ∧ ∃ e s, end_ = .error e s ∧ e.kind = .workspaceRestore)

/-- The steps before the capture return: the root is the pinned one, the seal of the Git directory can be checked, and
while it and the HEAD are those of the baseline, the state and the evidence can be read. -/
def Guarded (H : Host) (M : Machine W) (tx : WorkspaceTransaction) (w : W) : Prop :=
  ∃ w₁, M.assertRootIdentity tx.repo w = .ok () w₁ ∧
    ((∃ e w₂, tx.assertMetadataSeal M w₁ = .error e w₂ ∧ e.kind = .gitManager) ∨
      ∃ w₂ current w₃, tx.assertMetadataSeal M w₁ = .ok () w₂ ∧
        GitManager.state H (M.process tx.repo) w₂ = .ok current w₃ ∧
        (current.commit ≠ tx.baselineState.commit ∨ current.branch ≠ tx.baselineState.branch ∨
          ∃ evidence w₄, GitManager.captureEvidence H (M.process tx.repo) w₃ = .ok evidence w₄))

theorem within_ok {β : Type} {x : EStateM Failure W β} {s : Session W} {b : β} {w : W} (h : x s.world = .ok b w) :
    within x s = .ok b { s with world := w } := by
  unfold within
  rw [h]

theorem within_error {β : Type} {x : EStateM Failure W β} {s : Session W} {e : Failure} {w : W}
    (h : x s.world = .error e w) : within x s = .error e { s with world := w } := by
  unfold within
  rw [h]

theorem within_outcome {x : EStateM Failure W PUnit} (s : Session W) : within (outcome x) s =
    match x s.world with
    | .ok a w => .ok (.ok a) { s with world := w }
    | .error e w => .ok (.error e) { s with world := w } := by
  unfold within outcome
  cases x s.world <;> rfl

theorem conclude_settled (hM : M.Lawful view tx.repo) {s : Session W} (hs : tx.Restored H (view s.world))
    (result : Except Failure (CapturedWorkspaceChangeSet × Inventory)) :
    tx.Settled H view (tx.conclude H M result s) := by
  cases result with
  | error e => exact .inl ⟨rfl, hs⟩
  | ok captured =>
    obtain ⟨result, replayAfter⟩ := captured
    have hleaves := verifyCanonicalPatch_leaves (H := H) hM result replayAfter s.world
    simp only [conclude]
    rw [run_bind, within_outcome]
    cases hverify : tx.verifyCanonicalPatch H M result replayAfter s.world with
    | ok a w =>
      rw [hverify] at hleaves
      refine .inl ⟨rfl, ?_⟩
      change tx.Restored H (view w)
      rw [show view w = view s.world from hleaves]
      exact hs
    | error e w =>
      rw [hverify] at hleaves
      by_cases he : e.kind = .workspaceRestore
      · refine .inr ⟨?_, e, _, rfl, he⟩
        change (if e.kind = .workspaceRestore then Phase.orphaned else Phase.closed) = _
        rw [if_pos he]
      · refine .inl ⟨?_, ?_⟩
        · change (if e.kind = .workspaceRestore then Phase.orphaned else Phase.closed) = _
          rw [if_neg he]
        · change tx.Restored H (view w)
          rw [show view w = view s.world from hleaves]
          exact hs

/-- Once the capture has begun, its end is settled, whatever raises on the way. -/
theorem captureThenRestore_settled (hM : M.Lawful view tx.repo) (current : RepositoryState) (evidence : GitEvidence)
    (s : Session W) : tx.Settled H view (tx.captureThenRestore H M current evidence s) := by
  unfold captureThenRestore
  rw [run_bind]
  -- the capture hands back how it ended and never raises
  obtain ⟨captured, w₁, hcaptured⟩ : ∃ captured w₁, within (capturing (tx.capture H M current evidence)
      ⟨evidence.changedPaths, [], sortedSet (tx.baselineIgnored ++ current.ignoredFiles)⟩) s =
        .ok captured { s with world := w₁ } := by
    unfold within capturing
    cases tx.capture H M current evidence _ <;> exact ⟨_, _, rfl⟩
  obtain ⟨result, marks⟩ := captured
  rw [hcaptured]
  dsimp only
  rw [run_bind, within_outcome]
  cases hrestore : (tx.restore H M marks >>= fun _ => tx.assertRestored H M) w₁ with
  | error e w =>
    exact .inr ⟨rfl, _, _, rfl, rfl⟩
  | ok a w =>
    obtain ⟨_, w₂, -, hassert⟩ := bind_eq_ok.1 hrestore
    exact conclude_settled hM (s := ⟨w, s.phase⟩) (assertRestored_restored hM hassert) result

/-- The steps before the capture, one by one: the phase moves in none of those that may raise unhandled. -/
theorem captureAndRestorePinned_settled (hM : M.Lawful view tx.repo) (w : W) :
    tx.Settled H view (tx.captureAndRestorePinned H M ⟨w, .active⟩) ↔ tx.Guarded H M w := by
  have hstuck : ∀ {e : Failure} {w' : W}, ¬ tx.Settled H view (.error e ⟨w', .active⟩) := by
    rintro e w' (⟨hphase, -⟩ | ⟨hphase, -⟩) <;> cases hphase
  unfold captureAndRestorePinned Guarded
  cases hroot : M.assertRootIdentity tx.repo w with
  | error e w₁ =>
    rw [run_bind_error (within_error (s := ⟨w, .active⟩) hroot)]
    exact ⟨fun h => (hstuck h).elim, fun ⟨_, h, _⟩ => by cases h⟩
  | ok a w₁ =>
    rw [run_bind_ok (within_ok (s := ⟨w, .active⟩) hroot), run_bind, within_outcome]
    simp only [EStateM.Result.ok.injEq, true_and, exists_eq_left']
    cases hseal : tx.assertMetadataSeal M w₁ with
    | error e w₂ =>
      by_cases he : e.kind = .gitManager
      · simp only [if_pos he]
        exact ⟨fun _ => .inl ⟨e, w₂, rfl, he⟩, fun _ => .inr ⟨rfl, _, _, rfl, rfl⟩⟩
      · simp only [if_neg he]
        refine ⟨fun h => (hstuck h).elim, ?_⟩
        rintro (⟨_, _, h, he'⟩ | ⟨_, _, _, h, _⟩)
        · cases h
          exact absurd he' he
        · cases h
    | ok a w₂ =>
      dsimp only
      cases hstate : GitManager.state H (M.process tx.repo) w₂ with
      | error e w₃ =>
        rw [run_bind_error (within_error (s := ⟨w₂, .active⟩) hstate)]
        refine ⟨fun h => (hstuck h).elim, ?_⟩
        rintro (⟨_, _, h, _⟩ | ⟨_, _, _, h, h', _⟩)
        · cases h
        · cases h
          rw [hstate] at h'
          cases h'
      | ok current w₃ =>
        rw [run_bind_ok (within_ok (s := ⟨w₂, .active⟩) hstate)]
        by_cases hmoved : current.commit ≠ tx.baselineState.commit ∨ current.branch ≠ tx.baselineState.branch
        · rw [if_pos hmoved]
          refine ⟨fun _ => .inr ⟨w₂, current, w₃, rfl, hstate, ?_⟩, fun _ => .inr ⟨rfl, _, _, rfl, rfl⟩⟩
          exact hmoved.imp_right .inl
        rw [if_neg hmoved]
        cases hevidence : GitManager.captureEvidence H (M.process tx.repo) w₃ with
        | error e w₄ =>
          rw [run_bind_error (within_error (s := ⟨w₃, .active⟩) hevidence)]
          refine ⟨fun h => (hstuck h).elim, ?_⟩
          rintro (⟨_, _, h, _⟩ | ⟨_, _, _, h, h', hrest⟩)
          · cases h
          · cases h
            rw [hstate] at h'
            cases h'
            rcases hrest with h | h | ⟨_, _, h⟩
            · exact absurd (.inl h) hmoved
            · exact absurd (.inr h) hmoved
            · rw [hevidence] at h
              cases h
        | ok evidence w₄ =>
          rw [run_bind_ok (within_ok (s := ⟨w₃, .active⟩) hevidence)]
          exact ⟨fun _ => .inr ⟨w₂, current, w₃, rfl, hstate, .inr (.inr ⟨evidence, w₄, hevidence⟩)⟩,
            fun _ => captureThenRestore_settled hM current evidence _⟩

end WorkspaceTransaction

/-! ## A sample -/

/-- The standard library, on ASCII. -/
def sampleHost : Host where
  sha256 _ := "e3b0c44298fc1c149afbf4c8996fb92427ae41e4649b934ca495991b7852b855"
  decode value := if value.all (· < 128) then some (String.ofList (value.map fun b => Char.ofNat b.toNat)) else none
  decodeReplacing value := String.ofList (value.map fun b => if b < 128 then Char.ofNat b.toNat else Char.ofNat 65533)
  encodes _ := true
  nfc text := text

/-- A repository whose tree is empty, with what Git prints of its untracked files. -/
def sampleRepository (others : Bytes) : Repository where
  tree := .files []
  stat _ := ⟨.regular, 1, 0, 0, 0, 0, 0, 0⟩
  content _ := []
  answer
    | "rev-parse" :: _ => ⟨0, List.replicate 40 97, []⟩
    | "symbolic-ref" :: _ => ⟨0, [109], []⟩
    | ["ls-files", "--others", "--exclude-standard", "-z", "--"] => ⟨0, others, []⟩
    | _ => ⟨0, [], []⟩
  metadata _ := ⟨"", 0⟩

/-- A machine on which every call of the transaction returns; its state is what Git prints of the untracked files. -/
def sampleMachine : Machine Bytes where
  process _ args _ := fun others => .ok ((sampleRepository others).answer args) others
  captureMetadataSeal _ _ := pure ⟨"", 0⟩
  buildCanonicalPatch _ _ := pure ⟨[], []⟩
  createPrivateTemporaryDirectory name := pure ["tmp", name]
  removePrivateTemporaryDirectory _ := pure ()
  inspectSourceRepository root _ := pure ⟨root, "", "", [], 0, false⟩
  createSessionRepository _ _ _ := pure ()
  probe _ :=
    { tree := pure (.files [])
      scandir := fun _ => pure true
      lstat := fun _ => pure ⟨.regular, 1, 0, 0, 0, 0, 0, 0⟩
      openBinary := fun _ => pure ⟨⟨.regular, 1, 0, 0, 0, 0, 0, 0⟩, [], ⟨.regular, 1, 0, 0, 0, 0, 0, 0⟩⟩
      assertPathIdentity := fun _ _ => pure () }
  openRoot _ := pure ()
  closeRoot _ := pure ()
  assertRootIdentity _ := pure ()
  setMode _ _ _ := pure ()
  unlinkRegular _ _ := pure ()
  removeDirectory _ _ := pure ()
  replaceRegular _ _ _ _ := pure ()
  openPolicy _ := pure ()
  validateCleanupPath _ path := pure ⟨path, true⟩
  validateCapturedPath _ path _ := pure ⟨path, true⟩
  comparisonKey path := path
  assertSecretFreeBytes _ _ := .ok ()

def sampleTransaction : WorkspaceTransaction where
  repo := ["srv", "repo"]
  baseCommit := String.ofList (List.replicate 40 'a')
  tempDirectory := ["srv", "tmp"]
  limits := ⟨500, 1000, 1000, 1000, 1000, 1000⟩
  sealGitObjects := false
  forbiddenPaths := []
  baselineState := ⟨String.ofList (List.replicate 40 'a'), "m", false, false, [], []⟩
  baselineInventory := ⟨[], [], sampleHost.sha256 [], 0, []⟩
  baselineTracked := []
  baselineIgnored := []
  ignoredPreimages := []
  baselineIndexSha256 := sampleHost.sha256 []
  gitMetadataSeal := ⟨"", 0⟩

theorem sampleMachine_lawful : sampleMachine.Lawful sampleRepository sampleTransaction.repo where
  git _ := ⟨fun _ => rfl, fun h => by cases h; rfl⟩
  metadata _ := ⟨.pure _, fun h => by cases h; rfl⟩
  walk :=
    { tree := ⟨fun _ => rfl, fun h => by cases h; rfl⟩
      scandir := fun _ => ⟨.pure _, fun h => by cases h; rfl⟩
      lstat := fun _ => ⟨fun _ => rfl, fun h => by cases h; rfl⟩
      openBinary := fun _ => ⟨fun _ => rfl, fun h => by cases h; rfl⟩
      assertPathIdentity := fun _ _ => ⟨.pure _, fun h => by cases h; rfl⟩ }
  plain _ := fun _ h => by cases h
  close others := ⟨others, rfl, rfl⟩
  create _ := .pure _
  apart h := by
    cases h
    constructor <;> simp [sampleTransaction]
  remove _ := .pure _
  inspect _ := .pure _
  clone _ _ _ := .pure _
  elsewhere _ :=
    { process := fun _ _ _ => rfl
      probe := ⟨.pure _, fun _ => .pure _, fun _ => .pure _, fun _ => .pure _, fun _ _ => .pure _⟩
      openRoot := .pure _
      closeRoot := .pure _
      assertRootIdentity := .pure _
      openPolicy := .pure _
      validateCleanupPath := fun _ => .pure _
      replaceRegular := fun _ _ _ => .pure _ }

namespace WorkspaceTransaction

end WorkspaceTransaction

end AgentHub.Workspace
