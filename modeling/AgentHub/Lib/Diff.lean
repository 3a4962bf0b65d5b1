import Mathlib.Data.List.Nodup
import Mathlib.Logic.Function.Basic
import Mathlib.Tactic.Common
/-!
# Diffs of maps

A map from keys to optional values, the edits of a diff (a key appears, changes, disappears, or moves with its value),
and when a list of edits is the diff of two maps. Applied to the first map, a diff gives the second: each key is named
once, so the edits do not meet.
-/

namespace AgentHub.Lib.Diff

variable {κ ν ω : Type}

inductive Edit (κ ν : Type) where
  | create (key : κ) (value : ν)
  | modify (key : κ) (value : ν)
  | delete (key : κ)
  | rename (old new : κ) (value : ν)

namespace Edit

/-- The keys an edit names. -/
def keys : Edit κ ν → List κ
  | .create key _ => [key]
  | .modify key _ => [key]
  | .delete key => [key]
  | .rename old new _ => [new, old]

def apply [DecidableEq κ] (m : κ → Option ν) : Edit κ ν → κ → Option ν
  | .create key value => Function.update m key (some value)
  | .modify key value => Function.update m key (some value)
  | .delete key => Function.update m key none
  | .rename old new value => Function.update (Function.update m old none) new (some value)

/-- The edit leads from one map to the other. -/
def Fits (P Q : κ → Option ν) : Edit κ ν → Prop
  | .create key value => P key = none ∧ Q key = some value
  | .modify key value => P key ≠ none ∧ P key ≠ Q key ∧ Q key = some value
  | .delete key => P key ≠ none ∧ Q key = none
  | .rename old new value => old ≠ new ∧ P old ≠ none ∧ Q old = none ∧ P new = none ∧ Q new = some value

/-- The edit with another view of its value. -/
def map (f : ν → ω) : Edit κ ν → Edit κ ω
  | .create key value => .create key (f value)
  | .modify key value => .modify key (f value)
  | .delete key => .delete key
  | .rename old new value => .rename old new (f value)

@[simp] theorem keys_map (f : ν → ω) (e : Edit κ ν) : (e.map f).keys = e.keys := by
  cases e <;> rfl

section
variable [DecidableEq κ] {P Q m : κ → Option ν} {e : Edit κ ν} {key : κ}

/-- An edit leaves the other keys alone. -/
theorem apply_of_not_mem (h : key ∉ e.keys) : e.apply m key = m key := by
  cases e with
  | create k v => exact Function.update_of_ne (by simpa [keys] using h) _ _
  | modify k v => exact Function.update_of_ne (by simpa [keys] using h) _ _
  | delete k => exact Function.update_of_ne (by simpa [keys] using h) _ _
  | rename old new v =>
    simp only [keys, List.mem_cons, List.not_mem_nil, or_false, not_or] at h
    rw [apply, Function.update_of_ne h.1, Function.update_of_ne h.2]

/-- An edit gives its keys what the second map has. -/
theorem apply_of_mem (hfits : e.Fits P Q) (h : key ∈ e.keys) : e.apply m key = Q key := by
  cases e with
  | create k v =>
    obtain rfl : key = k := by simpa [keys] using h
    rw [apply, Function.update_self, hfits.2]
  | modify k v =>
    obtain rfl : key = k := by simpa [keys] using h
    rw [apply, Function.update_self, hfits.2.2]
  | delete k =>
    obtain rfl : key = k := by simpa [keys] using h
    rw [apply, Function.update_self, hfits.2]
  | rename old new v =>
    obtain ⟨hne, -, hold, -, hnew⟩ := hfits
    simp only [keys, List.mem_cons, List.not_mem_nil, or_false] at h
    rcases h with rfl | rfl
    · rw [apply, Function.update_self, hnew]
    · rw [apply, Function.update_of_ne hne, Function.update_self, hold]

end

/-- An edit names keys on which the maps differ. -/
theorem Fits.differs {P Q : κ → Option ν} {e : Edit κ ν} (h : e.Fits P Q) {key : κ} (hkey : key ∈ e.keys) :
    P key ≠ Q key := by
  cases e with
  | create k v =>
    obtain rfl : key = k := by simpa [keys] using hkey
    rw [h.1, h.2]
    simp
  | modify k v =>
    obtain rfl : key = k := by simpa [keys] using hkey
    exact h.2.1
  | delete k =>
    obtain rfl : key = k := by simpa [keys] using hkey
    rw [h.2]
    exact h.1
  | rename old new v =>
    obtain ⟨-, hold, hold', hnew, hnew'⟩ := h
    simp only [keys, List.mem_cons, List.not_mem_nil, or_false] at hkey
    rcases hkey with rfl | rfl
    · rw [hnew, hnew']
      simp
    · rwa [hold']

end Edit

/-- The edits, applied in their order. -/
def applyAll [DecidableEq κ] (edits : List (Edit κ ν)) (m : κ → Option ν) : κ → Option ν := edits.foldl Edit.apply m

def keys (edits : List (Edit κ ν)) : List κ := edits.flatMap Edit.keys

/-- The edits are a diff of the maps: each of them fits, and together they name once each key on which the maps differ. -/
structure IsDiff (P Q : κ → Option ν) (edits : List (Edit κ ν)) : Prop where
  fits : ∀ e ∈ edits, e.Fits P Q
  nodup : (keys edits).Nodup
  covers : ∀ key, P key ≠ Q key → key ∈ keys edits

section
variable [DecidableEq κ] {P Q m : κ → Option ν} {edits : List (Edit κ ν)}

theorem applyAll_of_not_mem {key : κ} (h : key ∉ keys edits) : applyAll edits m key = m key := by
  induction edits generalizing m with
  | nil => rfl
  | cons e edits ih =>
    simp only [keys, List.flatMap_cons, List.mem_append, not_or] at h
    rw [applyAll, List.foldl_cons]
    exact (ih h.2).trans (Edit.apply_of_not_mem h.1)

theorem applyAll_of_mem {key : κ} (hfits : ∀ e ∈ edits, e.Fits P Q) (hnd : (keys edits).Nodup) (h : key ∈ keys edits) :
    applyAll edits m key = Q key := by
  induction edits generalizing m with
  | nil => simp [keys] at h
  | cons e edits ih =>
    obtain ⟨hfirst, hrest⟩ := List.forall_mem_cons.1 hfits
    simp only [keys, List.flatMap_cons, List.nodup_append, List.mem_append] at hnd h
    rw [applyAll, List.foldl_cons]
    rcases h with h | h
    · -- no later edit names the key again
      have hnot : key ∉ keys edits := fun hmem => hnd.2.2 key h key hmem rfl
      exact (applyAll_of_not_mem hnot).trans (Edit.apply_of_mem hfirst h)
    · exact ih hrest hnd.2.1 h

/-- A diff leads from its first map to its second. -/
theorem IsDiff.applyAll_eq (h : IsDiff P Q edits) : applyAll edits P = Q := by
  funext key
  by_cases hkey : key ∈ keys edits
  · exact applyAll_of_mem h.fits h.nodup hkey
  · rw [applyAll_of_not_mem hkey]
    exact not_not.1 fun hne => hkey (h.covers key hne)

end

/-- A diff names the keys on which the maps differ. -/
theorem IsDiff.mem_keys_iff {P Q : κ → Option ν} {edits : List (Edit κ ν)} (h : IsDiff P Q edits) {key : κ} :
    key ∈ keys edits ↔ P key ≠ Q key := by
  refine ⟨fun hkey => ?_, h.covers key⟩
  obtain ⟨e, he, hmem⟩ := List.mem_flatMap.1 hkey
  exact (h.fits e he).differs hmem

/-- Seen through a view of the values, what the second map has is still what the edits put there. -/
theorem IsDiff.applyAll_map [DecidableEq κ] {P Q : κ → Option ν} {edits : List (Edit κ ν)} (h : IsDiff P Q edits)
    (f : ν → ω) : applyAll (edits.map (Edit.map f)) (fun key => (P key).map f) = fun key => (Q key).map f := by
  have hstep (m : κ → Option ν) (e : Edit κ ν) :
      (e.map f).apply (fun key => (m key).map f) = fun key => (e.apply m key).map f := by
    funext key
    cases e <;> simp only [Edit.map, Edit.apply, Function.update_apply] <;> split <;> (try split) <;> rfl
  have hrun : ∀ (edits : List (Edit κ ν)) (m : κ → Option ν),
      applyAll (edits.map (Edit.map f)) (fun key => (m key).map f) = fun key => (applyAll edits m key).map f := by
    intro edits
    induction edits with
    | nil => exact fun m => rfl
    | cons e edits ih =>
      intro m
      rw [List.map_cons, applyAll, List.foldl_cons, hstep]
      exact ih _
  rw [hrun, h.applyAll_eq]

end AgentHub.Lib.Diff
