import Mathlib.Data.List.Basic
import Mathlib.Data.List.Infix
import Mathlib.Order.Lattice
import Mathlib.Tactic.Common
/-!
# Reading a log page by page

A reader asks for the items after a cursor, a page at a time, and moves the cursor to the last item of a
full page; a page that is not full is the last. The log may grow between two pages. `readAll_eq` says
that the reader has then read what the log of its last page holds after the first cursor.
-/

namespace AgentHub.Lib.Pages

variable {α κ : Type} [LinearOrder κ] (key : α → κ)

/-- The first `limit` items after `cursor`. -/
def page (items : List α) (cursor : κ) (limit : Nat) : List α := (items.filter fun a => cursor < key a).take limit

/-- Read on from the `n`-th page; with the index of the page that was the last. `none` is out of fuel, or a limit of
zero, under which every page is full and none has a last item. -/
def readAll (items : Nat → List α) (limit : Nat) : (fuel n : Nat) → (cursor : κ) → (result : List α) → Option (Nat × List α)
  | 0, _, _, _ => none
  | fuel + 1, n, cursor, result =>
    let p := page key (items n) cursor limit
    if p.length < limit then some (n, result ++ p)
    else match p.getLast? with
      | none => none
      | some last => readAll items limit fuel (n + 1) (key last) (result ++ p)

variable {key} {items : Nat → List α} {limit : Nat}

/-- In a sorted list, what is above the last of the first `n` items is what follows them. -/
theorem filter_above_take {l : List α} (hs : l.Pairwise fun a b => key a < key b) {n : Nat} {last : α}
    (hlast : (l.take n).getLast? = some last) : (l.filter fun a => key last < key a) = l.drop n := by
  have hs' := hs
  rw [← List.take_append_drop n l, List.pairwise_append] at hs'
  obtain ⟨htake, -, hcross⟩ := hs'
  obtain ⟨init, hinit⟩ := List.getLast?_eq_some_iff.1 hlast
  have hgone : ((l.take n).filter fun a => key last < key a) = [] := by
    rw [List.filter_eq_nil_iff]
    intro a ha
    rw [decide_eq_true_eq, not_lt]
    rw [hinit] at ha htake
    rcases List.mem_append.1 ha with h | h
    · exact le_of_lt ((List.pairwise_append.1 htake).2.2 a h last (List.mem_singleton_self _))
    · rw [List.mem_singleton.1 h]
  have hkept : ((l.drop n).filter fun a => key last < key a) = l.drop n :=
    List.filter_eq_self.2 fun a ha => decide_eq_true (hcross last (List.mem_of_getLast? hlast) a ha)
  calc (l.filter fun a => key last < key a)
      = (l.take n ++ l.drop n).filter fun a => key last < key a := by rw [List.take_append_drop]
    _ = l.drop n := by rw [List.filter_append, hgone, hkept, List.nil_append]

/-- What follows a cursor is a page and what follows the page's last item. -/
theorem filter_after_page {l : List α} (hs : l.Pairwise fun a b => key a < key b) {cursor : κ} {last : α}
    (hlast : (page key l cursor limit).getLast? = some last) :
    (l.filter fun a => cursor < key a) = page key l cursor limit ++ l.filter fun a => key last < key a := by
  have hmem : last ∈ l.filter fun a => cursor < key a := List.mem_of_mem_take (List.mem_of_getLast? hlast)
  have hcur : cursor < key last := by simpa using (List.mem_filter.1 hmem).2
  have hagain : (l.filter fun a => key last < key a) = (l.filter fun a => cursor < key a).filter fun a => key last < key a := by
    rw [List.filter_filter]
    refine List.filter_congr fun a _ => ?_
    by_cases h : key last < key a
    · simp [h, lt_trans hcur h]
    · simp [h]
  rw [hagain, filter_above_take (hs.filter _) hlast]
  exact (List.take_append_drop limit _).symm

/-- A page that is not full holds everything after the cursor. -/
theorem page_of_short {l : List α} {cursor : κ} (h : (page key l cursor limit).length < limit) :
    page key l cursor limit = l.filter fun a => cursor < key a := by
  unfold page at h ⊢
  rw [List.length_take] at h
  exact List.take_of_length_le (by omega)

/-- A full page stays the same page when the log grows. -/
theorem page_of_full {l l' : List α} (hpre : l <+: l') {cursor : κ} (h : limit ≤ (page key l cursor limit).length) :
    page key l' cursor limit = page key l cursor limit := by
  obtain ⟨new, rfl⟩ := hpre
  unfold page at h ⊢
  rw [List.length_take] at h
  rw [List.filter_append, List.take_append_of_le_length (by omega)]

section
variable (hsorted : ∀ n, (items n).Pairwise fun a b => key a < key b) (hgrows : ∀ n, items n <+: items (n + 1))
include hgrows

theorem items_mono {n m : Nat} (h : n ≤ m) : items n <+: items m := by
  induction h with
  | refl => exact List.prefix_rfl
  | step _ ih => exact ih.trans (hgrows _)

include hsorted

/-- The reader returns what its last page's log holds after the cursor, each item once and in order. -/
theorem readAll_eq {fuel : Nat} : ∀ {n m : Nat} {cursor : κ} {result r : List α},
    readAll key items limit fuel n cursor result = some (m, r) →
    n ≤ m ∧ r = result ++ (items m).filter fun a => cursor < key a := by
  induction fuel with
  | zero => intro n m cursor result r h; cases h
  | succ fuel ih =>
    intro n m cursor result r h
    unfold readAll at h
    simp only at h
    split at h
    · next hshort =>
      simp only [Option.some.injEq, Prod.mk.injEq] at h
      obtain ⟨rfl, rfl⟩ := h
      exact ⟨Nat.le_refl _, by rw [page_of_short hshort]⟩
    · next hfull =>
      split at h
      · cases h
      · next last hlast =>
        obtain ⟨hle, rfl⟩ := ih h
        have hle' : n ≤ m := by omega
        have hpage := page_of_full (items_mono hgrows hle') (Nat.le_of_not_lt hfull)
        rw [← hpage] at hlast ⊢
        exact ⟨hle', by rw [List.append_assoc, filter_after_page (hsorted m) hlast]⟩

/-- A log of at most `bound` items after the cursor is read in at most `bound + 1` pages. -/
theorem readAll_some (hlimit : 1 ≤ limit) {bound : Nat} : ∀ {n : Nat} {cursor : κ} {result : List α},
    (∀ m, ((items m).filter fun a => cursor < key a).length ≤ bound) →
    ∃ r, readAll key items limit (bound + 1) n cursor result = some r := by
  induction bound with
  | zero =>
    intro n cursor result hb
    have hlen := hb n
    unfold readAll page
    simp only [List.length_take]
    rw [if_pos (by omega)]
    exact ⟨_, rfl⟩
  | succ bound ih =>
    intro n cursor result hb
    unfold readAll
    simp only
    split
    · exact ⟨_, rfl⟩
    · next hfull =>
      cases hlast : (page key (items n) cursor limit).getLast? with
      | none =>
        rw [List.getLast?_eq_none_iff.1 hlast] at hfull
        exact absurd hlimit (by simpa using hfull)
      | some last =>
        refine ih fun m => ?_
        -- The page's items no longer count towards the bound.
        rcases Nat.le_total n m with hle | hle
        · have hpage := page_of_full (items_mono hgrows hle) (Nat.le_of_not_lt hfull)
          have hsplit := filter_after_page (hsorted m) (hpage ▸ hlast)
          have hlen := hb m
          rw [hsplit, List.length_append, hpage] at hlen
          omega
        · have hsplit := filter_after_page (hsorted n) hlast
          have hlen := hb n
          rw [hsplit, List.length_append] at hlen
          have hle' := (((items_mono hgrows hle).sublist).filter fun a => decide (key last < key a)).length_le
          omega

end

end AgentHub.Lib.Pages
