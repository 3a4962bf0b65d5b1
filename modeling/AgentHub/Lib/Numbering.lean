import Mathlib.Data.List.Perm.Basic
import Mathlib.Data.List.Nodup
import Mathlib.Data.List.Sort
import Mathlib.Order.Defs.Unbundled
import Mathlib.Tactic.Common
/-!
# Gap-free numbering

A log whose entries may carry a number of an owner, and a counter for each owner that holds the next
number. `Grows` is what a batch of appends does: each owner's new entries carry, in some order, the next
numbers, and its counter moves past them. It composes, and it keeps `Dense`: every owner's numbers are
1, 2, … up to its counter.
-/

namespace AgentHub.Lib.Numbering

variable {ε ο : Type} [DecidableEq ο] (slot : ε → Option (ο × Nat))

/-- The numbers the entries of `o` carry. -/
def numbers (log : List ε) (o : ο) : List Nat :=
  log.filterMap fun e => (slot e).bind fun s => if s.1 = o then some s.2 else none

/-- `log'` is `log` with entries appended that take the next numbers of their owners. -/
def Grows (log log' : List ε) (counter counter' : ο → Nat) : Prop :=
  ∃ new, log' = log ++ new ∧ ∀ o, ∃ k, counter' o = counter o + k ∧ (numbers slot new o).Perm (List.range' (counter o) k)

/-- Every owner's numbers are exactly those below its counter. -/
def Dense (log : List ε) (counter : ο → Nat) : Prop :=
  ∀ o, 1 ≤ counter o ∧ (numbers slot log o).Perm (List.range' 1 (counter o - 1))

variable {slot} {log log' log'' : List ε} {counter counter' counter'' : ο → Nat} {o : ο} {n : Nat}

theorem mem_numbers : n ∈ numbers slot log o ↔ ∃ e ∈ log, slot e = some (o, n) := by
  unfold numbers
  simp only [List.mem_filterMap, Option.bind_eq_some_iff]
  constructor
  · rintro ⟨e, he, ⟨o', m⟩, hs, h⟩
    split at h
    · next heq =>
      simp only at heq
      obtain rfl := Option.some.inj h
      subst heq
      exact ⟨e, he, hs⟩
    · cases h
  · rintro ⟨e, he, hs⟩
    exact ⟨e, he, (o, n), hs, if_pos rfl⟩

theorem numbers_append (l l' : List ε) (o : ο) : numbers slot (l ++ l') o = numbers slot l o ++ numbers slot l' o :=
  List.filterMap_append

theorem numbers_perm {l l' : List ε} (h : l.Perm l') (o : ο) : (numbers slot l o).Perm (numbers slot l' o) :=
  h.filterMap _

theorem Grows.refl (log : List ε) (counter : ο → Nat) : Grows slot log log counter counter :=
  ⟨[], (List.append_nil log).symm, fun _ => ⟨0, rfl, .nil⟩⟩

theorem Grows.trans (h : Grows slot log log' counter counter') (h' : Grows slot log' log'' counter' counter'') :
    Grows slot log log'' counter counter'' := by
  obtain ⟨new, rfl, hnew⟩ := h
  obtain ⟨new', rfl, hnew'⟩ := h'
  refine ⟨new ++ new', List.append_assoc _ _ _, fun o => ?_⟩
  obtain ⟨k, hk, hp⟩ := hnew o
  obtain ⟨k', hk', hp'⟩ := hnew' o
  refine ⟨k + k', by omega, ?_⟩
  rw [numbers_append, ← List.range'_append_1, ← hk]
  exact hp.append hp'

theorem Grows.appended (h : Grows slot log log' counter counter') : log <+: log' := by
  obtain ⟨new, rfl, -⟩ := h
  exact List.prefix_append _ _

theorem Grows.counter_le (h : Grows slot log log' counter counter') (o : ο) : counter o ≤ counter' o := by
  obtain ⟨new, -, hnew⟩ := h
  obtain ⟨k, hk, -⟩ := hnew o
  omega

/-- Appends take up where the numbering ended. -/
theorem Dense.grows (hd : Dense slot log counter) (h : Grows slot log log' counter counter') : Dense slot log' counter' := by
  obtain ⟨new, rfl, hnew⟩ := h
  intro o
  obtain ⟨hpos, hp⟩ := hd o
  obtain ⟨k, hk, hp'⟩ := hnew o
  refine ⟨by omega, ?_⟩
  have hsplit : List.range' 1 (counter' o - 1) = List.range' 1 (counter o - 1) ++ List.range' (counter o) k := by
    rw [show counter' o - 1 = (counter o - 1) + k by omega, ← List.range'_append_1,
      show 1 + (counter o - 1) = counter o by omega]
  rw [numbers_append, hsplit]
  exact hp.append hp'

theorem Dense.lt_counter (hd : Dense slot log counter) (hn : n ∈ numbers slot log o) : 1 ≤ n ∧ n < counter o := by
  obtain ⟨hpos, hp⟩ := hd o
  obtain ⟨h1, h2⟩ := List.mem_range'_1.1 (hp.mem_iff.1 hn)
  omega

theorem Dense.nodup (hd : Dense slot log counter) (o : ο) : (numbers slot log o).Nodup :=
  (hd o).2.nodup_iff.2 List.nodup_range'

/-- A number taken later is larger. -/
theorem Dense.lt_of_later {new : List ε} {m : Nat} (hd : Dense slot log counter)
    (h : Grows slot log (log ++ new) counter counter') (hn : n ∈ numbers slot log o) (hm : m ∈ numbers slot new o) : n < m := by
  obtain ⟨new', heq, hnew⟩ := h
  obtain rfl := List.append_cancel_left heq
  obtain ⟨k, -, hp⟩ := hnew o
  have hlow := (List.mem_range'_1.1 (hp.mem_iff.1 hm)).1
  have hhigh := (hd.lt_counter hn).2
  omega

/-! ## Ranks -/

section
variable {α κ : Type} [LinearOrder κ] (key : α → κ)

/-- Sorting by a key that no two elements share sorts strictly. -/
theorem pairwise_mergeSort {l : List α} (hnd : (l.map key).Nodup) :
    (l.mergeSort fun a b => key a ≤ key b).Pairwise fun a b => key a < key b := by
  have hperm := l.mergeSort_perm fun a b => key a ≤ key b
  have hle := @List.pairwise_mergeSort _ (fun a b => decide (key a ≤ key b))
    (fun a b c h h' => decide_eq_true (le_trans (of_decide_eq_true h) (of_decide_eq_true h')))
    (fun a b => by simpa using le_total (key a) (key b)) l
  have hne : (l.mergeSort fun a b => key a ≤ key b).Pairwise fun a b => key a ≠ key b :=
    List.pairwise_map.1 ((hperm.map key).nodup_iff.2 hnd)
  exact (hle.and hne).imp fun h => lt_of_le_of_ne (of_decide_eq_true h.1) h.2

/-- There is one strictly sorted list of given elements. -/
theorem eq_of_sorted {l l' : List α} (hperm : l.Perm l') (hs : l.Pairwise fun a b => key a < key b)
    (hs' : l'.Pairwise fun a b => key a < key b) : l = l' :=
  hperm.eq_of_pairwise (fun _ _ _ _ h h' => absurd (lt_trans h h') (lt_irrefl _)) hs hs'

/-- `ROW_NUMBER() OVER (ORDER BY key) - 1` of an element whose key is no other's. -/
def rank (l : List α) (a : α) : Nat := l.countP fun b => key b < key a

theorem rank_perm {l l' : List α} (h : l.Perm l') (a : α) : rank key l a = rank key l' a := h.countP_eq _

theorem map_rank_sorted {l : List α} (hs : l.Pairwise fun a b => key a < key b) : l.map (rank key l) = List.range l.length := by
  apply List.ext_getElem
  · simp
  · intro i h₁ h₂
    rw [List.length_map] at h₁
    rw [List.getElem_map, List.getElem_range]
    -- The elements below the i-th are the first i.
    unfold rank
    have htake : (l.take i).countP (fun b => key b < key l[i]) = i := by
      rw [List.countP_eq_length.2, List.length_take, Nat.min_eq_left (Nat.le_of_lt h₁)]
      intro b hb
      obtain ⟨j, hj, rfl⟩ := List.mem_take_iff_getElem.1 hb
      exact decide_eq_true (List.pairwise_iff_getElem.1 hs j i _ h₁ (by omega))
    have hdrop : (l.drop i).countP (fun b => key b < key l[i]) = 0 := by
      rw [List.countP_eq_zero]
      intro b hb
      obtain ⟨j, hj, rfl⟩ := List.mem_drop_iff_getElem.1 hb
      rw [decide_eq_true_eq, not_lt]
      rcases Nat.eq_zero_or_pos j with rfl | hpos
      · exact le_of_eq (by simp)
      · exact le_of_lt (List.pairwise_iff_getElem.1 hs i (i + j) h₁ (by omega) (by omega))
    calc l.countP (fun b => key b < key l[i])
        = (l.take i).countP (fun b => key b < key l[i]) + (l.drop i).countP (fun b => key b < key l[i]) := by
          rw [← List.countP_append, List.take_append_drop]
      _ = i := by rw [htake, hdrop]; rfl

/-- The ranks of a list with distinct keys are 0, 1, … in some order. -/
theorem map_rank_perm {l : List α} (hnd : (l.map key).Nodup) : (l.map (rank key l)).Perm (List.range l.length) := by
  have hperm := l.mergeSort_perm fun a b => key a ≤ key b
  have hrank := map_rank_sorted key (pairwise_mergeSort key hnd)
  rw [hperm.length_eq] at hrank
  rw [← hrank]
  refine (hperm.symm.map _).trans (List.Perm.of_eq (List.map_congr_left fun a _ => rank_perm key hperm.symm a))

/-- Counted up from `n`, they are the `l.length` numbers from `n`. -/
theorem map_rank_range' {l : List α} (hnd : (l.map key).Nodup) (n : Nat) :
    (l.map fun a => n + rank key l a).Perm (List.range' n l.length) := by
  have hperm := (map_rank_perm key hnd).map fun i => n + i
  rw [List.map_map, ← List.range'_eq_map_range] at hperm
  exact hperm

end

end AgentHub.Lib.Numbering
