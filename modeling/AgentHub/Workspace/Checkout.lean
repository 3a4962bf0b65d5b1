import AgentHub.Lib.Contract
import AgentHub.Workspace.Merge
/-!
# What a merge can change in a repository

The commit HEAD names, the index and the working tree, and what Git and the file system are documented to do to them.
Any call may raise at any point and leave behind what the documentation allows of a call that did not end.
-/

namespace AgentHub.Workspace

open Lib

/-- What Git records of a file. -/
structure Blob where
  executable : Bool
  content : Bytes
  deriving DecidableEq, Repr

/-- The files and folders of a working tree, without the Git directory. -/
@[ext]
structure Worktree where
  files : String → Option Blob
  directories : String → Prop

@[ext]
structure Checkout where
  head : String
  index : String → Option Blob
  worktree : Worktree

/-- What Git knows besides: the files of a commit, which paths the rules of a working tree ignore, and the paths a patch
is about. -/
structure GitRules where
  tree : String → String → Option Blob
  ignored : Worktree → String → Prop
  /-- the files that a patch changes or takes away -/
  oldPaths : Bytes → List String
  /-- the files that a patch makes -/
  newPaths : Bytes → List String

/-- `folder` lies on the way to `path`. -/
def Above (folder path : String) : Prop := (folder ++ "/").toList <+: path.toList

namespace Worktree

/-- What every file system keeps. -/
structure WellFormed (t : Worktree) : Prop where
  parent {path folder : String} (h : t.files path ≠ none) (habove : Above folder path) : t.directories folder
  above {path folder : String} (h : t.directories path) (habove : Above folder path) : t.directories folder
  apart {path : String} (h : t.files path ≠ none) : ¬ t.directories path

/-- `git status` shows nothing against a commit: the files of the commit are there, and any other is ignored. -/
structure Matches (G : GitRules) (commit : String) (t : Worktree) : Prop where
  tracked {path : String} {b : Blob} (h : G.tree commit path = some b) : t.files path = some b
  other {path : String} (h : t.files path ≠ none) (hnew : G.tree commit path = none) : G.ignored t path

/-- What is left of a patch that was applied to the end or was not. -/
structure Applies (G : GitRules) (patch : Bytes) (t t' : Worktree) : Prop where
  files {path : String} (h : path ∉ G.oldPaths patch) (h' : path ∉ G.newPaths patch) : t'.files path = t.files path
  made {folder : String} (h : t'.directories folder) (hnew : ¬ t.directories folder) :
    ∃ path ∈ G.newPaths patch, Above folder path
  /-- folders that became empty go, and an empty one where a file is to be -/
  removed {folder : String} (h : t.directories folder) (hgone : ¬ t'.directories folder) :
    (∃ path ∈ G.oldPaths patch, Above folder path) ∨ folder ∈ G.newPaths patch
  /-- nothing is touched before every file to be made is known to be absent -/
  fresh (h : t' ≠ t) {path : String} (hpath : path ∈ G.newPaths patch) : t.files path = none

/-- What is left of a restore of files from a commit. -/
structure Restores (paths : List String) (t t' : Worktree) : Prop where
  files {path : String} (h : ∀ q ∈ paths, path ≠ q ∧ ¬ Above path q ∧ ¬ Above q path) : t'.files path = t.files path
  made {folder : String} (h : t'.directories folder) (hnew : ¬ t.directories folder) : ∃ q ∈ paths, Above folder q
  removed {folder : String} (h : t.directories folder) (hgone : ¬ t'.directories folder) :
    ∃ q ∈ paths, folder = q ∨ Above q folder

/-- What is left of a removal of files and empty folders. -/
structure Removes (paths : List String) (t t' : Worktree) : Prop where
  files (path : String) : t'.files path = t.files path ∨ (path ∈ paths ∧ t'.files path = none)
  kept {folder : String} (h : t'.directories folder) : t.directories folder
  removed {folder : String} (h : t.directories folder) (hgone : ¬ t'.directories folder) : folder ∈ paths

/-- Nothing stands at the path. -/
def Vacant (t : Worktree) (path : String) : Prop := t.files path = none ∧ ¬ t.directories path

instance (paths : List String) : IsPreorder Worktree (Removes paths) where
  refl _ := ⟨fun _ => .inl rfl, id, fun h hgone => absurd h hgone⟩
  trans t t' t'' h h' := by
    refine ⟨fun path => ?_, fun hf => h.kept (h'.kept hf), fun {folder} hf hgone => ?_⟩
    · rcases h'.files path with hsame | hgone
      · rw [hsame]
        exact h.files path
      · exact .inr hgone
    · by_cases hmid : t'.directories folder
      · exact h'.removed hmid hgone
      · exact h.removed hf hmid

theorem Removes.mono {paths paths' : List String} {t t' : Worktree} (h : Removes paths t t') (hsub : ∀ p ∈ paths, p ∈ paths') :
    Removes paths' t t' where
  files path := (h.files path).imp_right fun hp => ⟨hsub _ hp.1, hp.2⟩
  kept := h.kept
  removed hf hgone := hsub _ (h.removed hf hgone)

theorem Removes.vacant {paths : List String} {t t' : Worktree} (h : Removes paths t t') {path : String}
    (hv : t.Vacant path) : t'.Vacant path := by
  refine ⟨?_, fun hf => hv.2 (h.kept hf)⟩
  rcases h.files path with hsame | hgone
  · rw [hsame]
    exact hv.1
  · exact hgone.2

end Worktree

namespace Checkout

/-- `RepositoryState.dirty` is false. -/
structure Clean (G : GitRules) (c : Checkout) : Prop where
  index : c.index = G.tree c.head
  worktree : c.worktree.Matches G c.head

/-- Two clean checkouts of one commit with the same working tree are the same. -/
theorem Clean.ext {G : GitRules} {c c' : Checkout} (h : c.Clean G) (h' : c'.Clean G) (hhead : c'.head = c.head)
    (htree : c'.worktree = c.worktree) : c' = c := by
  refine Checkout.ext hhead ?_ htree
  rw [h'.index, h.index, hhead]

end Checkout

/-! ## A rollback restores the working tree -/

/-- What a ChangeSet says of its patch: the files it changes are tracked, and those it makes are listed. -/
structure PatchPaths (G : GitRules) (commit : String) (patch : Bytes) (existing created folders : List String) : Prop where
  old_tracked {path : String} (h : path ∈ G.oldPaths patch) : G.tree commit path ≠ none
  existing_tracked {path : String} (h : path ∈ existing) : G.tree commit path ≠ none
  new_created {path : String} (h : path ∈ G.newPaths patch) : path ∈ created
  of_created {path : String} (h : path ∈ created) : path ∈ G.newPaths patch ∨ path ∈ folders
  folder_created {path : String} (h : path ∈ folders) : path ∈ created

/-- Every folder that has to be made for a new file is among `folders`, and no folder stands where something is to be
made; nor does an untracked file where a folder is. -/
structure Worktree.Room (G : GitRules) (commit : String) (patch : Bytes) (created folders : List String) (t : Worktree) :
    Prop where
  listed {path folder : String} (h : path ∈ G.newPaths patch) (habove : Above folder path) :
    t.directories folder ∨ folder ∈ folders
  free {path : String} (h : path ∈ created) : ¬ t.directories path
  unfiled {folder : String} (h : folder ∈ folders) (hnew : G.tree commit folder = none) : t.files folder = none

section
open Worktree

variable {G : GitRules} {commit : String} {patch : Bytes} {existing created folders : List String}
  {before applied restored after : Worktree}

/-- A file that is no file of the commit: the patch and the rollback leave it, or it was not there and is gone. -/
theorem rollback_untracked (hpaths : PatchPaths G commit patch existing created folders)
    (hroom : before.Room G commit patch created folders) (hwell : before.WellFormed) (hwell' : after.WellFormed)
    (hbefore : before.Matches G commit) (hafter : after.Matches G commit)
    (happly : Applies G patch before applied) (hfresh : ∀ path ∈ G.newPaths patch, before.files path = none)
    (hrestore : Restores existing applied restored) (hremove : Removes created restored after)
    (hgone : ∀ path ∈ created, after.Vacant path) {path : String} (hnew : G.tree commit path = none) :
    after.files path = before.files path := by
  by_cases hcreated : path ∈ created
  · rw [(hgone path hcreated).1]
    rcases hpaths.of_created hcreated with h | h
    · exact (hfresh path h).symm
    · exact (hroom.unfiled h hnew).symm
  have hremoved : after.files path = restored.files path := by
    rcases hremove.files path with h | h
    · exact h
    · exact absurd h.1 hcreated
  have happlied : applied.files path = before.files path :=
    happly.files (fun h => hpaths.old_tracked h hnew) fun h => hcreated (hpaths.new_created h)
  by_cases hapart : ∀ q ∈ existing, path ≠ q ∧ ¬ Above path q ∧ ¬ Above q path
  · rw [hremoved, hrestore.files hapart, happlied]
  -- a path on the way to a tracked file, or below one, holds no file on either side
  have hnone : ∀ t : Worktree, t.WellFormed → t.Matches G commit → t.files path = none := by
    intro t hw hm
    by_contra hfile
    refine hapart fun q hq => ?_
    have htracked : t.files q ≠ none := by
      cases hb : G.tree commit q with
      | none => exact absurd hb (hpaths.existing_tracked hq)
      | some b => simp [hm.tracked hb]
    refine ⟨?_, fun h => hw.apart hfile (hw.parent htracked h), fun h => hw.apart htracked (hw.parent hfile h)⟩
    rintro rfl
    exact hpaths.existing_tracked hq hnew
  rw [hnone after hwell' hafter, hnone before hwell hbefore]

/-- A folder that was there is there again. -/
theorem rollback_folder_kept (hpaths : PatchPaths G commit patch existing created folders)
    (hroom : before.Room G commit patch created folders) (hwell : before.WellFormed) (hwell' : after.WellFormed)
    (hbefore : before.Matches G commit) (hafter : after.Matches G commit) (happly : Applies G patch before applied)
    (hrestore : Restores existing applied restored) (hremove : Removes created restored after) {folder : String}
    (h : before.directories folder) : after.directories folder := by
  have htracked : ∀ {t : Worktree}, t.Matches G commit → ∀ {q}, G.tree commit q ≠ none → t.files q ≠ none := by
    intro t hm q hq
    cases hb : G.tree commit q with
    | none => exact absurd hb hq
    | some b => simp [hm.tracked hb]
  by_contra hgone
  by_cases hrestored : restored.directories folder
  · exact hroom.free (hremove.removed hrestored hgone) h
  by_cases happlied : applied.directories folder
  · obtain ⟨q, hq, rfl | hbelow⟩ := hrestore.removed happlied hrestored
    · exact hwell.apart (htracked hbefore (hpaths.existing_tracked hq)) h
    · exact hwell.apart (htracked hbefore (hpaths.existing_tracked hq)) (hwell.above h hbelow)
  · rcases happly.removed h happlied with ⟨q, hq, habove⟩ | hnew
    · exact hgone (hwell'.parent (htracked hafter (hpaths.old_tracked hq)) habove)
    · exact hroom.free (hpaths.new_created hnew) h

/-- A folder that was not there is gone. -/
theorem rollback_folder_gone (hpaths : PatchPaths G commit patch existing created folders)
    (hroom : before.Room G commit patch created folders) (hwell : before.WellFormed) (hbefore : before.Matches G commit)
    (happly : Applies G patch before applied) (hrestore : Restores existing applied restored)
    (hremove : Removes created restored after) (hgone : ∀ path ∈ created, after.Vacant path) {folder : String}
    (h : after.directories folder) : before.directories folder := by
  by_contra hnew
  have hrestored := hremove.kept h
  by_cases happlied : applied.directories folder
  · obtain ⟨path, hpath, habove⟩ := happly.made happlied hnew
    rcases hroom.listed hpath habove with hthere | hlisted
    · exact hnew hthere
    · exact (hgone folder (hpaths.folder_created hlisted)).2 h
  · obtain ⟨q, hq, habove⟩ := hrestore.made hrestored happlied
    cases hb : G.tree commit q with
    | none => exact hpaths.existing_tracked hq hb
    | some b => exact hnew (hwell.parent (by simp [hbefore.tracked hb]) habove)

theorem rollback_restores (hpaths : PatchPaths G commit patch existing created folders)
    (hroom : before.Room G commit patch created folders) (hwell : before.WellFormed) (hwell' : after.WellFormed)
    (hbefore : before.Matches G commit) (hafter : after.Matches G commit)
    (happly : Applies G patch before applied) (hfresh : ∀ path ∈ G.newPaths patch, before.files path = none)
    (hrestore : Restores existing applied restored) (hremove : Removes created restored after)
    (hgone : ∀ path ∈ created, after.Vacant path) : after = before := by
  apply Worktree.ext
  · funext path
    cases hb : G.tree commit path with
    | some b => rw [hafter.tracked hb, hbefore.tracked hb]
    | none =>
      exact rollback_untracked hpaths hroom hwell hwell' hbefore hafter happly hfresh hrestore hremove hgone hb
  · funext folder
    exact propext ⟨rollback_folder_gone hpaths hroom hwell hbefore happly hrestore hremove hgone,
      rollback_folder_kept hpaths hroom hwell hwell' hbefore hafter happly hrestore hremove⟩

end

end AgentHub.Workspace
