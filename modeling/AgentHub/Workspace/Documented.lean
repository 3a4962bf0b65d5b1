import Mathlib.Data.List.Dedup
import AgentHub.Workspace.Checkout
import AgentHub.Workspace.Restoration
/-!
# Git as documented

What the handler relies on: which commands leave HEAD, the index and the working tree alone, what those that do not can
leave behind, and that the commands that only read tell the truth. Every law speaks of the state a call ends in, whether
it returned or raised.
-/

namespace AgentHub.Workspace

open Lib

namespace Checkout

def SameHead (c c' : Checkout) : Prop := c'.head = c.head

def SameIndex (c c' : Checkout) : Prop := c'.index = c.index

def SameTree (c c' : Checkout) : Prop := c'.worktree = c.worktree

/-- Only the paths were removed, and only from the working tree. -/
def Cleared (paths : List String) (c c' : Checkout) : Prop :=
  SameHead c c' ∧ SameIndex c c' ∧ Worktree.Removes paths c.worktree c'.worktree

instance : IsPreorder Checkout SameHead where
  refl _ := rfl
  trans _ _ _ h h' := Eq.trans h' h

instance : IsPreorder Checkout SameIndex where
  refl _ := rfl
  trans _ _ _ h h' := Eq.trans h' h

instance : IsPreorder Checkout SameTree where
  refl _ := rfl
  trans _ _ _ h h' := Eq.trans h' h

instance (paths : List String) : IsPreorder Checkout (Cleared paths) where
  refl c := ⟨rfl, rfl, refl_of (Worktree.Removes paths) c.worktree⟩
  trans _ _ _ h h' := ⟨h'.1.trans h.1, h'.2.1.trans h.2.1, trans_of (Worktree.Removes paths) h.2.2 h'.2.2⟩

theorem eq_of_same {c c' : Checkout} (h : SameHead c c') (hi : SameIndex c c') (ht : SameTree c c') : c = c' :=
  (Checkout.ext h hi ht).symm

end Checkout

/-- The commands that write the working tree of a repository. -/
def writesTree (args : List String) : Bool := args.head? = some "apply" || args.head? = some "restore"

/-- The commands that write the index of a repository. -/
def writesIndex (args : List String) : Bool :=
  args.head? = some "add" || args.head? = some "restore" || args.head? = some "rm" || args.head? = some "commit"

def writesHead (args : List String) : Bool := args.head? = some "commit"

/-- The records of `--pathspec-file-nul`. -/
def pathspecOf (paths : List String) : Bytes := paths.flatMap fun path => utf8 path ++ [0]

variable {W : Type}

open Checkout in
/-- The laws of a repository on a machine; `B` is what others do to the rest of the world in the meantime. -/
structure MergeMachine.Documented (M : MergeMachine W) (H : Host) (G : GitRules) (view : W → Checkout) (repo : Path)
    (B : W → W → Prop) : Prop where
  keepsTree {args : List String} (h : writesTree args = false) (input : Option Bytes) :
    Stays (Along B view SameTree) (M.process repo args input)
  keepsIndex {args : List String} (h : writesIndex args = false) (input : Option Bytes) :
    Stays (Along B view SameIndex) (M.process repo args input)
  keepsHead {args : List String} (h : writesHead args = false) (input : Option Bytes) :
    Stays (Along B view SameHead) (M.process repo args input)
  checks (patch : Bytes) : Stays (Along B view SameTree)
    (M.process repo ["apply", "--check", "--binary", "--whitespace=nowarn", "-"] (some patch))
  applies (patch : Bytes) (w : W) : Worktree.Applies G patch (view w).worktree
    (view (Lib.ending (M.process repo ["apply", "--binary", "--whitespace=nowarn", "-"] (some patch) w))).worktree
  /-- an apply that succeeded found no file where it was to make one -/
  applied {patch : Bytes} {w w' : W} {out : CompletedProcess}
    (h : M.process repo ["apply", "--binary", "--whitespace=nowarn", "-"] (some patch) w = .ok out w')
    (hcode : out.returncode = 0) {path : String} (hpath : path ∈ G.newPaths patch) : (view w).worktree.files path = none
  restores {commit : String} {paths : List String} (h : ∀ path ∈ paths, G.tree commit path ≠ none) (w : W) :
    Worktree.Restores paths (view w).worktree (view (Lib.ending (M.process repo ["restore", "--source=" ++ commit, "--staged",
      "--worktree", "--pathspec-from-file=-", "--pathspec-file-nul"] (some (pathspecOf paths)) w))).worktree
  indexed (index : Path) (args : List String) (input : Option Bytes) :
    Stays (Along B view Eq) (M.indexed index repo args input)
  createTemporary (name : String) : Stays (Along B view Eq) (M.createPrivateTemporaryDirectory name)
  removeTemporary (path : Path) : Stays (Along B view Eq) (M.removePrivateTemporaryDirectory path)
  openRoot : Stays (Along B view Eq) (M.openRoot repo)
  closeRoot : Stays (Along B view Eq) (M.closeRoot repo)
  unlink (path : String) : Stays (Along B view (Cleared [path])) (M.unlinkRegular repo path)
  unlinked {path : String} {w w' : W} (h : M.unlinkRegular repo path w = .ok () w') : (view w').worktree.Vacant path
  rmdir (path : String) : Stays (Along B view (Cleared [path])) (M.removeDirectory repo path)
  removed {path : String} {w w' : W} (h : M.removeDirectory repo path w = .ok () w') : (view w').worktree.Vacant path
  wellFormed (w : W) : (view w).worktree.WellFormed
  printsHead {w w' : W} {out : CompletedProcess} {text : String}
    (h : M.process repo ["rev-parse", "--verify", "--end-of-options", "HEAD^\x7bcommit\x7d"] none w = .ok out w')
    (hcode : out.returncode = 0) (htext : H.decode out.stdout = some text) : strip text = (view w).head
  printsStaged {w w' : W} {out : CompletedProcess}
    (h : M.process repo ["diff", "--cached", "--quiet", "--no-ext-diff", "--no-textconv", "--"] none w = .ok out w')
    (hcode : out.returncode ∈ [0, 1]) : out.returncode = 1 ↔ (view w).index ≠ G.tree (view w).head
  printsUnstaged {w w' : W} {out : CompletedProcess}
    (h : M.process repo ["diff", "--quiet", "--no-ext-diff", "--no-textconv", "--"] none w = .ok out w')
    (hcode : out.returncode ∈ [0, 1]) :
    out.returncode = 1 ↔ ∃ path b, (view w).index path = some b ∧ (view w).worktree.files path ≠ some b
  printsUntracked {w w' : W} {out : CompletedProcess} {paths : List String}
    (h : M.process repo ["ls-files", "--others", "--exclude-standard", "-z", "--"] none w = .ok out w')
    (hcode : out.returncode = 0) (hpaths : (GitManager.nulPaths H out.stdout : Except Failure _) = .ok paths)
    (path : String) : path ∈ paths ↔ (view w).worktree.files path ≠ none ∧ (view w).index path = none ∧
      ¬ G.ignored (view w).worktree path

namespace GitManager

variable {H : Host} {G : GitRules} {M : MergeMachine W} {view : W → Checkout} {repo : Path} {B : W → W → Prop}

/-! ## One command -/

section
variable {git : GitProcess (EStateM Failure W)} {args : List String} {input : Option Bytes} {allowed : List Int} {w w' : W}
  {out : CompletedProcess}

theorem run_ok (h : run H git args input allowed w = .ok out w') :
    git args input w = .ok out w' ∧ out.returncode ∈ allowed := by
  obtain ⟨out', w₁, hgit, h⟩ := bind_eq_ok.1 h
  split at h
  · next hallowed =>
    cases h
    exact ⟨hgit, List.contains_iff_mem.1 hallowed⟩
  · cases h

theorem run_ending : Lib.ending (run H git args input allowed w) = Lib.ending (git args input w) := by
  unfold run
  rw [run_bind]
  cases git args input w with
  | error e w₁ => rfl
  | ok out w₁ =>
    dsimp only
    split <;> rfl

theorem run_stays {R : W → W → Prop} (h : Stays R (git args input)) : Stays R (run H git args input allowed) := by
  intro w
  rw [run_ending]
  exact h w

theorem decode_ok {value : Bytes} {text : String} (h : (decode H value : EStateM Failure W String) w = .ok text w') :
    w' = w ∧ H.decode value = some text := by
  unfold decode at h
  cases hd : H.decode value with
  | none =>
    rw [hd] at h
    cases h
  | some text' =>
    rw [hd] at h
    cases h
    exact ⟨rfl, rfl⟩

theorem decode_stays {R : W → W → Prop} [IsPreorder W R] (value : Bytes) :
    Stays R (decode H value : EStateM Failure W String) := by
  unfold decode
  cases H.decode value with
  | none => exact .throw _
  | some text => exact .pure _

theorem requireObjectId_stays {R : W → W → Prop} [IsPreorder W R] (value : String) :
    Stays R (requireObjectId value : EStateM Failure W Unit) := .ite (.pure _) (.throw _)

theorem nulPaths_stays {R : W → W → Prop} [IsPreorder W R] (value : Bytes) :
    Stays R (nulPaths H value : EStateM Failure W (List String)) := by
  refine .bind (.ite (.pure _) (.ite (.throw _) (.pure _))) fun records => .foldlM (fun paths record => ?_) _ _
  exact .bind (decode_stays record) fun path => .pure _

theorem pathspecBytes_stays {R : W → W → Prop} [IsPreorder W R] (paths : List String) :
    Stays R (pathspecBytes H paths : EStateM Failure W Bytes) :=
  .foldlM (fun _ _ => .ite (.throw _) (.ite (.throw _) (.pure _))) _ _

theorem pathspecBytes_ok {paths : List String} {bytes : Bytes}
    (h : (pathspecBytes H paths : EStateM Failure W Bytes) w = .ok bytes w') : w' = w ∧ bytes = pathspecOf paths := by
  have hfold : ∀ (encoded : Bytes), (paths.foldlM (fun encoded path =>
      if path = "" ∨ path.toList.contains (Char.ofNat 0) then
        throw (.git "pathspec entries must be non-empty NUL-free strings")
      else if ¬ H.encodes path then throw (.git "pathspec is not stable UTF-8")
      else pure (encoded ++ utf8 path ++ [0])) encoded : EStateM Failure W Bytes) w = .ok bytes w' →
      w' = w ∧ bytes = encoded ++ pathspecOf paths := by
    clear h
    induction paths with
    | nil =>
      intro encoded h
      cases h
      exact ⟨rfl, (List.append_nil _).symm⟩
    | cons path paths ih =>
      intro encoded h
      obtain ⟨next, w₁, hnext, h⟩ := bind_eq_ok.1 h
      dsimp only at hnext
      split at hnext
      · cases hnext
      split at hnext
      · cases hnext
      cases hnext
      obtain ⟨hw, hbytes⟩ := ih _ h
      exact ⟨hw, by simpa [pathspecOf, List.append_assoc] using hbytes⟩
  exact hfold [] h

end

/-! ## Commands that only read -/

section
variable {w w' : W}

theorem reads (hM : M.Documented H G view repo B) {args : List String} (htree : writesTree args = false)
    (hindex : writesIndex args = false) (hhead : writesHead args = false) (input : Option Bytes) :
    Stays (Along B view Eq) (M.process repo args input) := fun w =>
  ⟨(hM.keepsHead hhead input w).1, Checkout.eq_of_same (hM.keepsHead hhead input w).2 (hM.keepsIndex hindex input w).2
    (hM.keepsTree htree input w).2⟩

/-- A command that only reads, when it returned. -/
theorem read_ok (hM : M.Documented H G view repo B) {args : List String} {input : Option Bytes} {allowed : List Int}
    {out : CompletedProcess} (h : run H (M.process repo) args input allowed w = .ok out w')
    (htree : writesTree args = false) (hindex : writesIndex args = false) (hhead : writesHead args = false) :
    view w = view w' := ((run_stays (reads hM htree hindex hhead input)).ok h).2

variable [IsPreorder W B]

theorem state_stays (hM : M.Documented H G view repo B) : Stays (Along B view Eq) (state H (M.process repo)) := by
  refine .bind (run_stays (reads hM (by decide) (by decide) (by decide) _)) fun head => .bind (decode_stays _) fun _ => ?_
  refine .ite (.throw _) (.bind (run_stays (reads hM (by decide) (by decide) (by decide) _)) fun branch => ?_)
  refine .bind (decode_stays _) fun _ => .bind (run_stays (reads hM (by decide) (by decide) (by decide) _)) fun staged => ?_
  refine .bind (run_stays (reads hM (by decide) (by decide) (by decide) _)) fun unstaged => ?_
  refine .bind (run_stays (reads hM (by decide) (by decide) (by decide) _)) fun others => .bind (nulPaths_stays _) fun _ => ?_
  refine .bind (run_stays (reads hM (by decide) (by decide) (by decide) _)) fun hidden => ?_
  exact .bind (nulPaths_stays _) fun _ => .pure _

theorem indexSha256_stays (hM : M.Documented H G view repo B) :
    Stays (Along B view Eq) (indexSha256 H (M.process repo)) :=
  .bind (run_stays (reads hM (by decide) (by decide) (by decide) _)) fun _ => .pure _

end

/-- What the records of an output are does not depend on the machine. -/
theorem nulPaths_ok {w w' : W} {value : Bytes} {paths : List String}
    (h : (nulPaths H value : EStateM Failure W (List String)) w = .ok paths w') :
    w' = w ∧ (nulPaths H value : Except Failure (List String)) = .ok paths := by
  have hreads : Lib.Reads (id : W → W) _ _ := nulPaths_reads (H := H) value
  exact hreads.ok h

/-- The staged, unstaged and untracked flags are down exactly on a clean checkout. -/
theorem clean_iff (c : Checkout) : c.Clean G ↔ c.index = G.tree c.head ∧
    (¬ ∃ path b, c.index path = some b ∧ c.worktree.files path ≠ some b) ∧
    ¬ ∃ path, c.worktree.files path ≠ none ∧ c.index path = none ∧ ¬ G.ignored c.worktree path := by
  constructor
  · rintro ⟨hindex, htracked, hother⟩
    refine ⟨hindex, ?_, ?_⟩
    · rintro ⟨path, b, hb, hne⟩
      exact hne (htracked (hindex ▸ hb))
    · rintro ⟨path, hfile, hnone, hshown⟩
      exact hshown (hother hfile (hindex ▸ hnone))
  · rintro ⟨hindex, hunstaged, huntracked⟩
    refine ⟨hindex, fun {path b} hb => ?_, fun {path} hfile hnone => ?_⟩
    · by_contra hne
      exact hunstaged ⟨path, b, hindex ▸ hb, hne⟩
    · by_contra hshown
      exact huntracked ⟨path, hfile, hindex ▸ hnone, hshown⟩

theorem dirty_eq_false {s : RepositoryState} :
    s.dirty = false ↔ s.staged = false ∧ s.unstaged = false ∧ s.untrackedFiles = [] := by
  simp [RepositoryState.dirty, and_assoc]

theorem state_ok (hM : M.Documented H G view repo B) {w w' : W} {s : RepositoryState}
    (h : state H (M.process repo) w = .ok s w') :
    s.commit = (view w).head ∧ (s.dirty = false ↔ (view w).Clean G) := by
  obtain ⟨head, w₁, hhead, hafter₁⟩ := bind_eq_ok.1 h
  obtain ⟨text, _, hdecode, hafter₂⟩ := bind_eq_ok.1 hafter₁
  obtain ⟨rfl, htext⟩ := decode_ok hdecode
  dsimp only at hafter₂
  split at hafter₂
  · cases hafter₂
  obtain ⟨branch, w₂, hbranch, hafter₃⟩ := bind_eq_ok.1 hafter₂
  obtain ⟨name, _, hname, hafter₄⟩ := bind_eq_ok.1 hafter₃
  obtain ⟨rfl, -⟩ := decode_ok hname
  obtain ⟨staged, w₃, hstaged, hafter₅⟩ := bind_eq_ok.1 hafter₄
  obtain ⟨unstaged, w₄, hunstaged, hafter₆⟩ := bind_eq_ok.1 hafter₅
  obtain ⟨others, w₅, hothers, hafter₇⟩ := bind_eq_ok.1 hafter₆
  obtain ⟨untracked, _, hlisted, hafter₈⟩ := bind_eq_ok.1 hafter₇
  obtain ⟨rfl, huntracked⟩ := nulPaths_ok hlisted
  obtain ⟨hidden, w₆, -, hafter₉⟩ := bind_eq_ok.1 hafter₈
  obtain ⟨ignored, w₇, -, hend⟩ := bind_eq_ok.1 hafter₉
  cases hend
  have h₁ := read_ok hM hhead (by decide) (by decide) (by decide)
  have h₂ := h₁.trans (read_ok hM hbranch (by decide) (by decide) (by decide))
  have h₃ := h₂.trans (read_ok hM hstaged (by decide) (by decide) (by decide))
  have h₄ := h₃.trans (read_ok hM hunstaged (by decide) (by decide) (by decide))
  obtain ⟨hhead, hcode⟩ := run_ok hhead
  obtain ⟨hstaged, hcode₃⟩ := run_ok hstaged
  obtain ⟨hunstaged, hcode₄⟩ := run_ok hunstaged
  obtain ⟨hothers, hcode₅⟩ := run_ok hothers
  refine ⟨hM.printsHead hhead (List.mem_singleton.1 hcode) htext, ?_⟩
  have hs := hM.printsStaged hstaged hcode₃
  have hu := hM.printsUnstaged hunstaged hcode₄
  have ho := hM.printsUntracked hothers (List.mem_singleton.1 hcode₅) huntracked
  rw [← h₂] at hs
  rw [← h₃] at hu
  rw [← h₄] at ho
  rw [dirty_eq_false, clean_iff]
  dsimp only
  rw [decide_eq_false_iff_not, decide_eq_false_iff_not, hs, hu, List.eq_nil_iff_forall_not_mem, not_not, not_exists]
  simp only [ho, not_exists]

/-! ## Commands that write -/

section
variable {w w' : W}

theorem applyCheck_stays (hM : M.Documented H G view repo B) (patch : Bytes) [IsPreorder W B] :
    Stays (Along B view Eq) (applyCheck H (M.process repo) patch) := by
  refine .bind (run_stays fun w => ⟨(hM.checks patch w).1, Checkout.eq_of_same ?_ ?_ (hM.checks patch w).2⟩) fun _ => .pure _
  · exact (hM.keepsHead (by decide) _ w).2
  · exact (hM.keepsIndex (by decide) _ w).2

/-- A sequence that ends in a constant ends where its first part does. -/
theorem ending_bind_pure {α β : Type} {x : EStateM Failure W α} {b : β} {w : W} :
    Lib.ending ((x >>= fun _ => pure b) w) = Lib.ending (x w) := by
  rw [run_bind]
  cases x w <;> rfl

/-- An apply that may not have ended. -/
theorem applyPatch_leaves (hM : M.Documented H G view repo B) (patch : Bytes) (w : W) :
    let w' := Lib.ending (applyPatch H (M.process repo) patch w)
    B w w' ∧ (view w').head = (view w).head ∧ (view w').index = (view w).index ∧
      Worktree.Applies G patch (view w).worktree (view w').worktree := by
  dsimp only
  unfold applyPatch
  rw [ending_bind_pure, run_ending]
  have hwrites : writesHead ["apply", "--binary", "--whitespace=nowarn", "-"] = false ∧
      writesIndex ["apply", "--binary", "--whitespace=nowarn", "-"] = false := by decide
  have hhead := hM.keepsHead hwrites.1 (some patch) w
  have hindex := hM.keepsIndex hwrites.2 (some patch) w
  exact ⟨hhead.1, hhead.2, hindex.2, hM.applies patch w⟩

theorem applyPatch_ok (hM : M.Documented H G view repo B) {patch : Bytes}
    (h : applyPatch H (M.process repo) patch w = .ok () w') {path : String} (hpath : path ∈ G.newPaths patch) :
    (view w).worktree.files path = none := by
  obtain ⟨out, w₁, hrun, -⟩ := bind_eq_ok.1 h
  obtain ⟨hgit, hcode⟩ := run_ok hrun
  exact hM.applied hgit (List.mem_singleton.1 hcode) hpath

/-- A restore of tracked files that returned. -/
theorem restoreExistingPaths_ok (hM : M.Documented H G view repo B) {commit : String} {paths : List String}
    (hpaths : ∀ path ∈ paths, G.tree commit path ≠ none)
    (h : restoreExistingPaths H (M.process repo) commit paths w = .ok () w') :
    Worktree.Restores paths (view w).worktree (view w').worktree := by
  obtain ⟨_, w₁, hid, hafter⟩ := bind_eq_ok.1 h
  obtain rfl := (requireObjectId_stays (R := (Eq : W → W → Prop)) commit).ok hid
  split at hafter
  · next hnil =>
    cases hafter
    exact ⟨fun _ => rfl, fun hf hnew => absurd hf hnew, fun hf hgone => absurd hf hgone⟩
  · obtain ⟨bytes, w₂, hbytes, hafter⟩ := bind_eq_ok.1 hafter
    obtain ⟨rfl, rfl⟩ := pathspecBytes_ok hbytes
    obtain ⟨out, w₃, hrun, hend⟩ := bind_eq_ok.1 hafter
    cases hend
    have hrestore := hM.restores hpaths w₂
    rw [(run_ok hrun).1] at hrestore
    exact hrestore

theorem removeWorktreeEntry_ok (hM : M.Documented H G view repo B) {path : String}
    (h : removeWorktreeEntry M repo path w = .ok () w') : (view w').worktree.Vacant path := by
  obtain ⟨removed, w₁, hremoved, hafter⟩ := bind_eq_ok.1 h
  cases removed with
  | ok u =>
    cases hafter
    unfold outcome at hremoved
    cases hx : M.unlinkRegular repo path w with
    | ok u' w₂ =>
      rw [hx] at hremoved
      cases hremoved
      exact hM.unlinked hx
    | error e w₂ =>
      rw [hx] at hremoved
      cases hremoved
  | error e =>
    dsimp only at hafter
    split at hafter
    · cases hafter
    · rw [run_reraise] at hafter
      cases hx : M.removeDirectory repo path w₁ with
      | ok u w₂ =>
        rw [hx] at hafter
        cases hafter
        exact hM.removed hx
      | error e' w₂ =>
        rw [hx] at hafter
        cases hafter

variable [IsPreorder W B]

theorem restoreExistingPaths_stays (hM : M.Documented H G view repo B) (commit : String) (paths : List String) :
    Stays (Along B view Checkout.SameHead) (restoreExistingPaths H (M.process repo) commit paths) := by
  refine .bind (requireObjectId_stays _) fun _ => .ite (.pure _) (.bind (pathspecBytes_stays _) fun pathspec => ?_)
  exact .bind (run_stays (hM.keepsHead (by simp [writesHead]) _)) fun _ => .pure _

/-- Unstaging keeps whatever the command keeps. -/
theorem unstageNewPaths_stays {R : W → W → Prop} [IsPreorder W R]
    (hR : ∀ input, Stays R (M.process repo
      ["rm", "--cached", "-f", "--ignore-unmatch", "--pathspec-from-file=-", "--pathspec-file-nul"] input))
    (paths : List String) : Stays R (unstageNewPaths H (M.process repo) paths) :=
  .ite (.pure _) (.bind (pathspecBytes_stays _) fun _ => .bind (run_stays (hR _)) fun _ => .pure _)

/-! ### Removing entries -/

theorem removeWorktreeEntry_stays (hM : M.Documented H G view repo B) (path : String) :
    Stays (Along B view (Checkout.Cleared [path])) (removeWorktreeEntry M repo path) := by
  refine .bind ((hM.unlink path).outcome) fun removed => ?_
  cases removed with
  | ok _ => exact .pure _
  | error e => exact .ite (.throw _) (.reraise (hM.rmdir path))

/-- Each path of a list that was gone through is vacant, and those that were vacant before still are. -/
theorem removeEntries_ok (hM : M.Documented H G view repo B) (paths : List String) : ∀ {w w' : W},
    paths.forM (removeWorktreeEntry M repo) w = .ok () w' →
      Along B view (Checkout.Cleared paths) w w' ∧ ∀ path ∈ paths, (view w').worktree.Vacant path := by
  induction paths with
  | nil =>
    intro w w' h
    cases h
    exact ⟨refl_of _ w, by simp⟩
  | cons path paths ih =>
    intro w w' h
    obtain ⟨_, w₁, hentry, hrest⟩ := bind_eq_ok.1 h
    have hfirst := (removeWorktreeEntry_stays hM path).ok hentry
    obtain ⟨hothers, hvacant⟩ := ih hrest
    have hpath := removeWorktreeEntry_ok hM hentry
    have hremoves : Worktree.Removes (path :: paths) (view w₁).worktree (view w').worktree :=
      hothers.2.2.2.mono fun _ hp => List.mem_cons_of_mem _ hp
    refine ⟨⟨trans_of B hfirst.1 hothers.1, hothers.2.1.trans hfirst.2.1, hothers.2.2.1.trans hfirst.2.2.1, ?_⟩, ?_⟩
    · exact trans_of (Worktree.Removes (path :: paths)) (hfirst.2.2.2.mono (by simp)) hremoves
    · rintro p (_ | ⟨_, hp⟩)
      · exact hremoves.vacant hpath
      · exact hvacant p hp

theorem mem_removalOrder {paths : List String} {path : String} : path ∈ removalOrder paths ↔ path ∈ paths := by
  rw [removalOrder, List.mem_reverse, List.mem_insertionSort, List.mem_dedup]

theorem removeWorktreeEntries_stays (hM : M.Documented H G view repo B) (paths : List String) :
    Stays (Along B view (Checkout.Cleared paths)) (removeWorktreeEntries M repo paths) := by
  have hsame : ∀ {α : Type} {x : EStateM Failure W α}, Stays (Along B view Eq) x →
      Stays (Along B view (Checkout.Cleared paths)) x := fun h =>
    h.mono fun w w' hw => ⟨hw.1, hw.2 ▸ refl_of (Checkout.Cleared paths) (view w)⟩
  refine .ite (.throw _) (.reraise (.bind (hsame hM.openRoot) fun _ => .tryFinally (.forM fun path hpath => ?_)
    (hsame hM.closeRoot)))
  refine (removeWorktreeEntry_stays hM path).mono fun w w' hw => ⟨hw.1, hw.2.1, hw.2.2.1, hw.2.2.2.mono ?_⟩
  rintro p hp
  rw [List.mem_singleton.1 hp]
  exact mem_removalOrder.1 hpath

theorem removeWorktreeEntries_ok (hM : M.Documented H G view repo B) {paths : List String}
    (h : removeWorktreeEntries M repo paths w = .ok () w') : ∀ path ∈ paths, (view w').worktree.Vacant path := by
  unfold removeWorktreeEntries at h
  split at h
  · cases h
  obtain ⟨_, w₁, hopen, hrest⟩ := bind_eq_ok.1 (ok_of_reraise h)
  obtain ⟨w₂, _, hloop, hclose⟩ := ok_of_tryFinally hrest
  have hview := hM.closeRoot.ok hclose
  obtain ⟨-, hvacant⟩ := removeEntries_ok hM _ hloop
  intro path hpath
  rw [← hview.2]
  exact hvacant path (mem_removalOrder.2 hpath)

/-! ### Committing -/

omit [IsPreorder W B] in
/-- What only reads keeps any part of the checkout. -/
theorem stays_of_eq {α : Type} {R : Checkout → Checkout → Prop} [IsPreorder Checkout R] {x : EStateM Failure W α}
    (h : Stays (Along B view Eq) x) : Stays (Along B view R) x :=
  h.mono fun w _ hw => ⟨hw.1, hw.2 ▸ refl_of R (view w)⟩

theorem printedId_stays {R : W → W → Prop} [IsPreorder W R] (completed : CompletedProcess) :
    Stays R (printedId H completed : EStateM Failure W String) :=
  .bind (decode_stays _) fun _ => .bind (requireObjectId_stays _) fun _ => .pure _

theorem canonicalPatchTree_stays (hM : M.Documented H G view repo B) (commit : String) (patch : Bytes) :
    Stays (Along B view Eq) (canonicalPatchTree H M repo commit patch) := by
  refine .bind (requireObjectId_stays _) fun _ => .bind (hM.createTemporary _) fun root => .tryFinally ?_ (hM.removeTemporary _)
  refine .bind (run_stays (hM.indexed _ _ _)) fun _ => .bind (run_stays (hM.indexed _ _ _)) fun _ => ?_
  exact .bind (run_stays (hM.indexed _ _ _)) fun _ => printedId_stays _

theorem readCommitMetadata_stays {R : W → W → Prop} [IsPreorder W R]
    (hR : ∀ args, writesTree args = false → writesIndex args = false → writesHead args = false →
      Stays R (M.process repo args none)) (commit : String) :
    Stays R (readCommitMetadata H (M.process repo) commit) :=
  .bind (requireObjectId_stays _) fun _ =>
    .bind (run_stays (hR _ (by simp [writesTree]) (by simp [writesIndex]) (by simp [writesHead]))) fun _ =>
      .bind (decode_stays _) fun _ => .pure _

theorem stageApprovedPatch_stays (hM : M.Documented H G view repo B) (patch : ApprovedPatch) (expectedTree : String) :
    Stays (Along B view Checkout.SameTree) (stageApprovedPatch H M repo patch expectedTree) := by
  refine .bind (pathspecBytes_stays _) fun _ => .bind (run_stays (hM.keepsTree (by decide) _)) fun _ => ?_
  refine .bind (run_stays (hM.keepsTree (by decide) _)) fun _ => .bind (nulPaths_stays _) fun _ => .ite (.throw _) ?_
  refine .bind (stays_of_eq (state_stays hM)) fun _ => .ite (.throw _) ?_
  refine .bind (run_stays (hM.keepsTree (by decide) _)) fun _ => .ite (.throw _) ?_
  exact .bind (run_stays (hM.keepsTree (by decide) _)) fun _ => .bind (printedId_stays _) fun _ => .ite (.throw _) (.pure _)

/-- What follows the commit is only read. -/
theorem publishApprovedPatch_stays (hM : M.Documented H G view repo B) (patch : ApprovedPatch)
    (expectedTree treeBefore : String) :
    Stays (Along B view Checkout.SameTree) (publishApprovedPatch H M repo patch expectedTree treeBefore) := by
  refine .bind (run_stays (hM.keepsTree (by simp [writesTree]) _)) fun _ => .bind (stays_of_eq (state_stays hM)) fun _ => ?_
  refine .ite (.throw _) (.bind (run_stays (hM.keepsTree (by decide) _)) fun _ => .bind (decode_stays _) fun _ => ?_)
  refine .ite (.throw _) (.bind (run_stays (hM.keepsTree (by decide) _)) fun _ => .bind (printedId_stays _) fun _ => ?_)
  refine .ite (.throw _) (.bind (readCommitMetadata_stays (fun args h _ _ => hM.keepsTree h none) _) fun _ => ?_)
  exact .ite (.throw _) (.pure _)

theorem commitApprovedPatch_stays (hM : M.Documented H G view repo B) (patch : ApprovedPatch) :
    Stays (Along B view Checkout.SameTree) (commitApprovedPatch H M repo patch) := by
  refine .bind (requireObjectId_stays _) fun _ => .ite (.throw _) (.ite (.throw _) (.bind (pathspecBytes_stays _) fun _ => ?_))
  refine .bind (stays_of_eq (state_stays hM)) fun _ => .ite (.throw _) (.bind ?_ fun _ => ?_)
  · cases patch.expectedIndexSha256 with
    | none => exact .pure _
    | some expected => exact .bind (stays_of_eq (indexSha256_stays hM)) fun _ => .ite (.throw _) (.pure _)
  · refine .bind (stays_of_eq (canonicalPatchTree_stays hM _ _)) fun _ => .bind (stageApprovedPatch_stays hM _ _) fun _ => ?_
    exact publishApprovedPatch_stays hM _ _ _

/-- The commit that is returned is the one HEAD names. -/
theorem publishApprovedPatch_ok (hM : M.Documented H G view repo B) {patch : ApprovedPatch}
    {expectedTree treeBefore : String} {r : String × String}
    (h : publishApprovedPatch H M repo patch expectedTree treeBefore w = .ok r w') : r.1 = (view w').head := by
  obtain ⟨_, w₁, -, hafter⟩ := bind_eq_ok.1 h
  obtain ⟨current, w₂, hstate, hrest⟩ := bind_eq_ok.1 hafter
  have hcommit := (state_ok hM hstate).1
  rw [((state_stays hM).ok hstate).2] at hcommit
  -- the commands after the read leave HEAD, and the commit is handed on
  split at hrest
  · cases hrest
  obtain ⟨above, w₃, habove, hrest⟩ := bind_eq_ok.1 hrest
  obtain ⟨parent, _, hparent, hrest₄⟩ := bind_eq_ok.1 hrest
  obtain ⟨rfl, -⟩ := decode_ok hparent
  split at hrest₄
  · cases hrest₄
  obtain ⟨printed, w₅, hprinted, hrest₅⟩ := bind_eq_ok.1 hrest₄
  obtain ⟨tree, w₆, htree, hrest₆⟩ := bind_eq_ok.1 hrest₅
  split at hrest₆
  · cases hrest₆
  obtain ⟨metadata, w₇, hmetadata, hend⟩ := bind_eq_ok.1 hrest₆
  split at hend
  · cases hend
  cases hend
  have h₃ := ((run_stays (hM.keepsHead (by decide) none)).ok habove).2
  have h₅ := ((run_stays (hM.keepsHead (by decide) none)).ok hprinted).2
  have h₆ := ((printedId_stays (R := Along B view Checkout.SameHead) printed).ok htree).2
  have h₇ := ((readCommitMetadata_stays (fun args _ _ h => hM.keepsHead h none) current.commit).ok hmetadata).2
  exact hcommit.trans ((h₇.trans (h₆.trans (h₅.trans h₃))).symm)

theorem commitApprovedPatch_ok (hM : M.Documented H G view repo B) {patch : ApprovedPatch} {r : String × String}
    (h : commitApprovedPatch H M repo patch w = .ok r w') : r.1 = (view w').head := by
  obtain ⟨_, w₁, -, h₁⟩ := bind_eq_ok.1 h
  split at h₁
  · cases h₁
  split at h₁
  · cases h₁
  obtain ⟨_, w₂, -, h₂⟩ := bind_eq_ok.1 h₁
  obtain ⟨before, w₃, -, h₃⟩ := bind_eq_ok.1 h₂
  split at h₃
  · cases h₃
  obtain ⟨_, w₄, -, h₄⟩ := bind_eq_ok.1 h₃
  obtain ⟨expectedTree, w₅, -, h₅⟩ := bind_eq_ok.1 h₄
  obtain ⟨treeBefore, w₆, -, h₆⟩ := bind_eq_ok.1 h₅
  exact publishApprovedPatch_ok hM h₆

end

end GitManager

end AgentHub.Workspace
