import Mathlib.Data.List.Forall2
import Mathlib.Data.List.Nodup
import Mathlib.Data.List.Sort
/-!
# Lists in another order

`Rearranged R l l'`: the elements of `l'` are those of `l` in another order, each up to `R`. What is computed from every
element by itself is rearranged with them, and a sort brings equal elements back into one order.
-/

namespace AgentHub.Lib

/-- Another order of `l`, each element up to `R`. -/
def Rearranged {α β : Type} (R : α → β → Prop) (l : List α) (l' : List β) : Prop := ∃ m, l.Perm m ∧ List.Forall₂ R m l'

namespace Rearranged

variable {α β γ δ : Type} {R : α → β → Prop} {l : List α} {l' : List β}

theorem length_eq (h : Rearranged R l l') : l.length = l'.length := by
  obtain ⟨m, hperm, hm⟩ := h
  rw [hperm.length_eq, hm.length_eq]

theorem isEmpty_eq (h : Rearranged R l l') : l.isEmpty = l'.isEmpty := by
  rw [Bool.eq_iff_iff, List.isEmpty_iff_length_eq_zero, List.isEmpty_iff_length_eq_zero, h.length_eq]

/-- What is read off equally is a permutation. -/
theorem map_perm (h : Rearranged R l l') {f : α → γ} {g : β → γ} (hfg : ∀ {a b}, R a b → f a = g b) :
    (l.map f).Perm (l'.map g) := by
  obtain ⟨m, hperm, hm⟩ := h
  refine (hperm.map f).trans (.of_eq ?_)
  clear hperm
  induction hm with
  | nil => rfl
  | cons hab _ ih => rw [List.map_cons, List.map_cons, hfg hab, ih]

theorem flatMap_perm (h : Rearranged R l l') {f : α → List γ} {g : β → List γ} (hfg : ∀ {a b}, R a b → (f a).Perm (g b)) :
    (l.flatMap f).Perm (l'.flatMap g) := by
  obtain ⟨m, hperm, hm⟩ := h
  refine (hperm.flatMap_right f).trans ?_
  clear hperm
  induction hm with
  | nil => exact .refl _
  | cons hab _ ih =>
    rw [List.flatMap_cons, List.flatMap_cons]
    exact (hfg hab).append ih

theorem filter (h : Rearranged R l l') {p : α → Bool} {q : β → Bool} (hpq : ∀ {a b}, R a b → p a = q b) :
    Rearranged R (l.filter p) (l'.filter q) := by
  obtain ⟨m, hperm, hm⟩ := h
  exact ⟨m.filter p, hperm.filter p, List.rel_filter (fun _ _ hab => iff_of_eq (congrArg (· = true) (hpq hab))) hm⟩

/-- Every element is found on the other side. -/
theorem exists_right (h : Rearranged R l l') {a : α} (ha : a ∈ l) : ∃ b ∈ l', R a b := by
  obtain ⟨m, hperm, hm⟩ := h
  rw [hperm.mem_iff] at ha
  clear hperm
  induction hm with
  | nil => cases ha
  | cons hab _ ih =>
    rcases List.mem_cons.1 ha with rfl | ha
    · exact ⟨_, List.mem_cons_self, hab⟩
    · obtain ⟨b, hb, hR⟩ := ih ha
      exact ⟨b, List.mem_cons_of_mem _ hb, hR⟩

theorem singleton {a : α} (h : Rearranged R [a] l') : ∃ b, l' = [b] ∧ R a b := by
  obtain ⟨m, hperm, hm⟩ := h
  obtain rfl := List.singleton_perm.1 hperm
  cases hm with
  | cons hab hnil =>
    cases hnil
    exact ⟨_, rfl, hab⟩

end Rearranged

/-! ## Sorting -/

section
variable {α : Type}

/-- A sort by a total order forgets the order its elements came in. -/
theorem insertionSort_perm {r : α → α → Prop} [DecidableRel r] (htotal : ∀ a b, r a b ∨ r b a)
    (htrans : ∀ a b c, r a b → r b c → r a c) {l l' : List α} (h : l.Perm l')
    (hanti : ∀ a ∈ l, ∀ b ∈ l, r a b → r b a → a = b) : l.insertionSort r = l'.insertionSort r := by
  have : Std.Total r := ⟨htotal⟩
  have : IsTrans α r := ⟨htrans⟩
  have hperm : (l.insertionSort r).Perm (l'.insertionSort r) :=
    ((List.perm_insertionSort r l).trans h).trans (List.perm_insertionSort r l').symm
  refine hperm.eq_of_pairwise (fun a b ha hb => ?_) (List.pairwise_insertionSort r l) (List.pairwise_insertionSort r l')
  refine hanti a ((List.perm_insertionSort r l).mem_iff.1 ha) b ?_
  exact h.mem_iff.2 ((List.perm_insertionSort r l').mem_iff.1 hb)

/-- So does a sort by a key that differs on its elements. -/
theorem insertionSort_key_perm {κ : Type} [LinearOrder κ] {key : α → κ} {l l' : List α} (h : l.Perm l')
    (hnd : (l.map key).Nodup) :
    l.insertionSort (fun a b => key a ≤ key b) = l'.insertionSort fun a b => key a ≤ key b :=
  insertionSort_perm (fun a b => le_total (key a) (key b)) (fun _ _ _ => le_trans) h
    fun _ ha _ hb hab hba => List.inj_on_of_nodup_map hnd ha hb (le_antisymm hab hba)

theorem insertionSort_le_perm [LinearOrder α] {l l' : List α} (h : l.Perm l') :
    l.insertionSort (· ≤ ·) = l'.insertionSort (· ≤ ·) :=
  insertionSort_perm le_total (fun _ _ _ => le_trans) h fun _ _ _ _ => le_antisymm

/-- A sort leaves what it sorted. -/
theorem insertionSort_insertionSort {r : α → α → Prop} [DecidableRel r] (htotal : ∀ a b, r a b ∨ r b a)
    (htrans : ∀ a b c, r a b → r b c → r a c) (l : List α) : (l.insertionSort r).insertionSort r = l.insertionSort r := by
  have : Std.Total r := ⟨htotal⟩
  have : IsTrans α r := ⟨htrans⟩
  exact (List.pairwise_insertionSort r l).insertionSort_eq

end

end AgentHub.Lib
