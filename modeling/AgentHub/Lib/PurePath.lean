import Mathlib.Data.List.Basic
import Mathlib.Tactic.Common
/-!
# Pure paths

A path as the text that spells it, and what a path library makes of the text: it splits at the slashes and leaves out
the segments that are empty or a dot. Two spellings of one path differ in such segments only, so a path is spelled as
the library would write it exactly when it has none (`ofNames_names_iff`).
-/

namespace AgentHub.Lib.PurePath

/-- What stands between the slashes. -/
def segments (path : List Char) : List (List Char) := path.splitOn '/'

/-- A segment that stays where it is. -/
def isIdle (segment : List Char) : Bool := segment = [] || segment = ['.']

/-- The segments of a path that move. -/
def names (path : List Char) : List (List Char) := (segments path).filter fun s => !isIdle s

/-- The slashes an absolute path starts with: two when there are exactly two, else one. -/
def root (path : List Char) : List Char :=
  if (path.takeWhile (· = '/')).length = 2 then ['/', '/'] else path.take 1 |>.filter (· = '/')

/-- `PurePosixPath(path).parts` -/
def parts (path : List Char) : List (List Char) := (if root path = [] then [] else [root path]) ++ names path

def isAbsolute (path : List Char) : Bool := path.head? = some '/'

def ofNames (names : List (List Char)) : List Char := ['/'].intercalate names

/-- `PurePosixPath(path).name` -/
def name (path : List Char) : List Char := (names path).getLastD []

/-- A path without idle segments. -/
def Canonical (path : List Char) : Prop := ∀ s ∈ segments path, isIdle s = false

instance (path : List Char) : Decidable (Canonical path) := inferInstanceAs (Decidable (∀ s ∈ segments path, isIdle s = false))

theorem slash_not_mem {path s : List Char} (h : s ∈ segments path) : '/' ∉ s := by
  induction path generalizing s with
  | nil => simp_all [segments]
  | cons c path ih =>
    rw [segments, List.splitOn_cons_eq_if_modifyHead] at h
    obtain ⟨first, rest, hp⟩ := List.exists_cons_of_ne_nil (List.splitOn_ne_nil '/' path)
    have hs : ∀ s ∈ first :: rest, '/' ∉ s := fun s hs => ih (by rw [segments, hp]; exact hs)
    split at h
    · rcases List.mem_cons.1 h with rfl | h
      · exact List.not_mem_nil
      · exact hs s (hp ▸ h)
    · rename_i hc
      rw [hp, List.modifyHead_cons] at h
      rcases List.mem_cons.1 h with rfl | h
      · have hfirst := hs first List.mem_cons_self
        have hne : '/' ≠ c := fun h => hc (beq_iff_eq.2 h.symm)
        simp [hfirst, hne]
      · exact hs s (List.mem_cons_of_mem _ h)

theorem segments_ne_nil (path : List Char) : segments path ≠ [] := List.splitOn_ne_nil '/' path

theorem segments_append (path rest : List Char) : segments (path ++ '/' :: rest) = segments path ++ segments rest :=
  List.splitOn_append_cons_self path rest

theorem segments_cons {s : List Char} (rest : List Char) (h : '/' ∉ s) : segments (s ++ '/' :: rest) = s :: segments rest :=
  List.splitOn_append_cons_self_of_not_mem h rest

/-- A text without slashes goes in front of the first segment. -/
theorem segments_prepend {s : List Char} (rest : List Char) (h : '/' ∉ s) :
    segments (s ++ rest) = (segments rest).modifyHead (s ++ ·) := by
  induction s with
  | nil =>
    rw [List.nil_append]
    cases segments rest <;> rfl
  | cons c s ih =>
    have hc : (c == '/') = false := beq_false_of_ne fun he => h (he ▸ List.mem_cons_self)
    rw [List.cons_append, segments, List.splitOn_cons_eq_if_modifyHead, hc, ← segments,
      ih fun hs => h (List.mem_cons_of_mem _ hs)]
    cases segments rest <;> simp

@[simp] theorem ofNames_segments (path : List Char) : ofNames (segments path) = path := List.intercalate_splitOn '/'

theorem mem_segments_of_mem_names {path s : List Char} (h : s ∈ names path) : s ∈ segments path := (List.mem_filter.1 h).1

/-- What is no slash stands in a segment. -/
theorem exists_segment {path : List Char} {c : Char} (hc : c ∈ path) (hslash : c ≠ '/') : ∃ s ∈ segments path, c ∈ s := by
  induction path with
  | nil => exact absurd hc List.not_mem_nil
  | cons d path ih =>
    rw [segments, List.splitOn_cons_eq_if_modifyHead, ← segments]
    obtain ⟨first, rest, hp⟩ := List.exists_cons_of_ne_nil (segments_ne_nil path)
    split
    · rename_i hd
      have hne : c ≠ d := fun h => hslash (h.trans (beq_iff_eq.1 hd))
      obtain ⟨s, hs, hmem⟩ := ih ((List.mem_cons.1 hc).resolve_left hne)
      exact ⟨s, List.mem_cons_of_mem _ hs, hmem⟩
    · rw [hp, List.modifyHead_cons]
      rcases List.mem_cons.1 hc with rfl | hc
      · exact ⟨_, List.mem_cons_self, List.mem_cons_self⟩
      · obtain ⟨s, hs, hmem⟩ := ih hc
        rw [hp] at hs
        rcases List.mem_cons.1 hs with rfl | hs
        · exact ⟨_, List.mem_cons_self, List.mem_cons_of_mem _ hmem⟩
        · exact ⟨s, List.mem_cons_of_mem _ hs, hmem⟩

theorem isIdle_of_mem_names {path s : List Char} (h : s ∈ names path) : isIdle s = false := by
  simpa using (List.mem_filter.1 h).2

theorem segments_ofNames {l : List (List Char)} (hl : l ≠ []) (h : ∀ s ∈ l, '/' ∉ s) : segments (ofNames l) = l :=
  List.splitOn_intercalate '/' h hl

theorem segments_ofNames_names {path : List Char} (h : names path ≠ []) : segments (ofNames (names path)) = names path :=
  segments_ofNames h fun _ hs => slash_not_mem (mem_segments_of_mem_names hs)

theorem Canonical.names_eq {path : List Char} (h : Canonical path) : names path = segments path :=
  List.filter_eq_self.2 fun s hs => by simp [h s hs]

/-- Writing the names of a path gives the path back exactly when it has no idle segment. -/
theorem ofNames_names_iff {path : List Char} (h : names path ≠ []) : ofNames (names path) = path ↔ Canonical path := by
  constructor
  · intro he s hs
    rw [← he, segments_ofNames_names h] at hs
    exact isIdle_of_mem_names hs
  · intro hc
    rw [hc.names_eq, ofNames_segments]

/-- The spelling the library writes names the same path. -/
theorem names_ofNames_names (path : List Char) : names (ofNames (names path)) = names path := by
  by_cases h : names path = []
  · rw [h]
    decide
  · rw [names, segments_ofNames_names h]
    exact List.filter_eq_self.2 fun s hs => by simp [isIdle_of_mem_names hs]

theorem canonical_ofNames_names {path : List Char} (h : names path ≠ []) : Canonical (ofNames (names path)) := by
  intro s hs
  rw [segments_ofNames_names h] at hs
  exact isIdle_of_mem_names hs

/-- One path has one canonical spelling. -/
theorem Canonical.eq_of_names {path other : List Char} (h : Canonical path) (h' : Canonical other)
    (he : names path = names other) : path = other := by
  rw [← ofNames_segments path, ← ofNames_segments other, ← h.names_eq, ← h'.names_eq, he]

theorem names_append (path rest : List Char) : names (path ++ '/' :: rest) = names path ++ names rest := by
  rw [names, segments_append, List.filter_append, names, names]

/-! ## Folding the characters -/

section
variable {f : Char → List Char} (hslash : f '/' = ['/']) (honly : ∀ c, '/' ∈ f c → c = '/')

include hslash honly

/-- A path is folded segment by segment when only slashes fold to slashes. -/
theorem segments_flatMap (path : List Char) : segments (path.flatMap f) = (segments path).map fun s => s.flatMap f := by
  induction path with
  | nil => rfl
  | cons c path ih =>
    have hsegments : segments (c :: path) = if c == '/' then [] :: segments path else (segments path).modifyHead (c :: ·) :=
      List.splitOn_cons_eq_if_modifyHead c path
    rw [List.flatMap_cons, hsegments]
    split
    · rename_i hc
      rw [beq_iff_eq.1 hc, hslash, ← List.nil_append (['/'] ++ _), List.singleton_append,
        segments_cons _ List.not_mem_nil, ih]
      rfl
    · rename_i hc
      rw [segments_prepend _ fun h => hc (beq_iff_eq.2 (honly c h)), ih]
      cases segments path <;> simp

variable (hdot : f '.' = ['.']) (hdots : ∀ c, '.' ∈ f c → c = '.') (hne : ∀ c, f c ≠ [])

include hdot hdots hne

omit hslash honly in
theorem isIdle_flatMap (s : List Char) : isIdle (s.flatMap f) = isIdle s := by
  rcases s with _ | ⟨c, s⟩
  · rfl
  · rcases s with _ | ⟨d, s⟩
    · by_cases hc : c = '.'
      · simp [hc, hdot, isIdle]
      · have hf : f c ≠ ['.'] := fun h => hc (hdots c (h ▸ List.mem_cons_self))
        simp [isIdle, hc, hf, hne]
    · have hlen : 2 ≤ ((c :: d :: s).flatMap f).length := by
        have hc := List.length_pos_iff.2 (hne c)
        have hd := List.length_pos_iff.2 (hne d)
        simp only [List.flatMap_cons, List.length_append]
        omega
      have hidle : ∀ t : List Char, 2 ≤ t.length → isIdle t = false := by
        intro t ht
        match t with
        | [] => simp at ht
        | [_] => simp at ht
        | _ :: _ :: _ => simp [isIdle]
      rw [hidle _ hlen, hidle _ (by simp)]

theorem names_flatMap (path : List Char) : names (path.flatMap f) = (names path).map fun s => s.flatMap f := by
  rw [names, segments_flatMap hslash honly, List.filter_map, names]
  congr 1
  exact List.filter_congr fun s _ => by simp [isIdle_flatMap hdot hdots hne]

theorem canonical_flatMap_iff (path : List Char) : Canonical (path.flatMap f) ↔ Canonical path := by
  rw [Canonical, segments_flatMap hslash honly, List.forall_mem_map]
  exact forall₂_congr fun s _ => by rw [isIdle_flatMap hdot hdots hne]

end

/-! ## Relative paths -/

theorem root_eq_nil {path : List Char} (h : isAbsolute path = false) : root path = [] := by
  cases path with
  | nil => rfl
  | cons c path =>
    have hc : c ≠ '/' := by simpa [isAbsolute] using h
    simp [root, hc]

theorem parts_of_relative {path : List Char} (h : isAbsolute path = false) : parts path = names path := by
  simp [parts, root_eq_nil h]

end AgentHub.Lib.PurePath
