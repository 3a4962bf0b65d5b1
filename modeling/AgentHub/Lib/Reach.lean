import Mathlib.Logic.Relation
import Mathlib.Data.List.Nodup
import Mathlib.Data.List.Perm.Subperm
import Mathlib.Tactic.Common
/-!
# Breadth-first search

The visited set and the queue of a breadth-first search. `mem_search` says that the search visits
exactly the nodes reachable from its start, given fuel for every node it can meet.
-/

namespace AgentHub.Lib.Reach

variable {α : Type} [DecidableEq α]

/-- Add the targets not seen yet to the visited set and to the queue. -/
def visit : List α → List α → List α → List α × List α
  | [], seen, q => (seen, q)
  | t :: ts, seen, q => if t ∈ seen then visit ts seen q else visit ts (seen ++ [t]) (q ++ [t])

def loop (next : α → List α) : Nat → List α → List α → List α
  | 0, seen, _ => seen
  | _ + 1, seen, [] => seen
  | n + 1, seen, c :: q =>
    let s := visit (next c) seen q
    loop next n s.1 s.2

/-- The nodes visited from `start`. -/
def search (next : α → List α) (fuel : Nat) (start : α) : List α := loop next fuel [start] [start]

/-! ## The visited set -/

theorem visit_spec (ts : List α) : ∀ seen q : List α, ∃ new, visit ts seen q = (seen ++ new, q ++ new) ∧
    (seen.Nodup → (seen ++ new).Nodup) ∧ (∀ t ∈ ts, t ∈ seen ++ new) ∧ ∀ t ∈ new, t ∈ ts := by
  induction ts with
  | nil => intro seen q; exact ⟨[], by simp [visit], by simp, by simp, by simp⟩
  | cons t ts ih =>
    intro seen q
    by_cases ht : t ∈ seen
    · obtain ⟨new, heq, hnd, hall, hnew⟩ := ih seen q
      refine ⟨new, by simp [visit, ht, heq], hnd, ?_, fun x hx => by simp [hnew x hx]⟩
      intro x hx
      rcases List.mem_cons.1 hx with rfl | hx
      · simp [ht]
      · exact hall x hx
    · obtain ⟨new, heq, hnd, hall, hnew⟩ := ih (seen ++ [t]) (q ++ [t])
      refine ⟨t :: new, by simp [visit, ht, heq], fun hs => ?_, ?_, ?_⟩
      · have := hnd (List.Nodup.append hs (List.nodup_singleton t) (by simpa using ht))
        simpa using this
      · intro x hx
        rcases List.mem_cons.1 hx with rfl | hx
        · simp
        · simpa using hall x hx
      · intro x hx
        rcases List.mem_cons.1 hx with rfl | hx
        · simp
        · simp [hnew x hx]

/-- The visited set is what has been taken from the queue followed by the queue. -/
structure Inv (next : α → List α) (all : List α) (start : α) (done q seen : List α) : Prop where
  split : seen = done ++ q
  nodup : seen.Nodup
  start_mem : start ∈ seen
  closed : ∀ u ∈ done, ∀ v ∈ next u, v ∈ seen
  sound : ∀ v ∈ seen, Relation.ReflTransGen (fun u v => v ∈ next u) start v
  sub : ∀ v ∈ seen, v ∈ all

theorem Inv.loop {next : α → List α} {all : List α} {start : α} (hall : ∀ u, ∀ v ∈ next u, v ∈ all) :
    ∀ (n : Nat) {done q seen : List α}, Inv next all start done q seen → all.length ≤ done.length + n →
      ∃ done, Inv next all start done [] (Reach.loop next n seen q) := by
  intro n
  induction n with
  | zero =>
    intro done q seen h hlen
    have hle := (h.nodup.subperm h.sub).length_le
    have hq : q = [] := by
      rw [h.split, List.length_append] at hle
      exact List.length_eq_zero_iff.1 (by omega)
    subst hq
    exact ⟨done, h⟩
  | succ n ih =>
    intro done q seen h hlen
    match q with
    | [] => exact ⟨done, h⟩
    | c :: q =>
      obtain ⟨new, heq, hnd, hmem, hnew⟩ := visit_spec (next c) seen q
      simp only [Reach.loop, heq]
      have hc : c ∈ seen := by simp [h.split]
      have hreach := h.sound c hc
      refine @ih (done ++ [c]) _ _ ⟨by simp [h.split], hnd h.nodup, by simp [h.start_mem], ?_, ?_, ?_⟩ ?_
      · intro u hu v hv
        rcases List.mem_append.1 hu with hu | hu
        · exact List.mem_append_left _ (h.closed u hu v hv)
        · rw [List.mem_singleton.1 hu] at hv; exact hmem v hv
      · intro v hv
        rcases List.mem_append.1 hv with hv | hv
        · exact h.sound v hv
        · exact hreach.tail (hnew v hv)
      · intro v hv
        rcases List.mem_append.1 hv with hv | hv
        · exact h.sub v hv
        · exact hall c v (hnew v hv)
      · simp only [List.length_append, List.length_cons, List.length_nil]; omega

/-- The search visits exactly what is reachable. -/
theorem mem_search {next : α → List α} {all : List α} {start : α} (hall : ∀ u, ∀ v ∈ next u, v ∈ all)
    (hstart : start ∈ all) {fuel : Nat} (hfuel : all.length ≤ fuel) (v : α) :
    v ∈ search next fuel start ↔ Relation.ReflTransGen (fun u v => v ∈ next u) start v := by
  have hinit : Inv next all start [] [start] [start] :=
    ⟨rfl, List.nodup_singleton start, by simp, by simp,
      by intro u hu; rw [List.mem_singleton.1 hu], by intro u hu; rw [List.mem_singleton.1 hu]; exact hstart⟩
  obtain ⟨done, h⟩ := hinit.loop hall fuel (by simpa using hfuel)
  refine ⟨h.sound v, fun hr => ?_⟩
  induction hr with
  | refl => exact h.start_mem
  | @tail u w _ hstep ih =>
    have hdone : u ∈ done := by
      have hsplit := h.split
      rw [List.append_nil] at hsplit
      exact hsplit ▸ ih
    exact h.closed u hdone w hstep

end AgentHub.Lib.Reach
