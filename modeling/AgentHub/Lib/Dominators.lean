import Mathlib.Data.List.Chain
import Mathlib.Data.List.Nodup
import Mathlib.Data.List.Perm.Subperm
import Mathlib.Data.Nat.Find
import Mathlib.Logic.Function.Basic
import Mathlib.Order.Basic
import Mathlib.Tactic.Common
/-!
# Dominators by iteration

A node dominates another when every path from a root to the other passes through it. The iteration starts from all nodes
everywhere and visits the nodes in a fixed order, again and again, keeping what dominates all predecessors. After `k` passes a
node is gone from where a path of `k` edges around it leads; a shortest such path has fewer edges than there are nodes.
-/

namespace AgentHub.Lib.Dominators

variable {α : Type}

/-! ## Paths -/

/-- A list of nodes from one to another along the edges. -/
def IsPath (E : α → α → Prop) (p : List α) (r v : α) : Prop := p.head? = some r ∧ p.getLast? = some v ∧ p.IsChain E

/-- A path of at most so many edges leads from a root to a node around another node. -/
inductive Around (E : α → α → Prop) (root : α → Prop) (u : α) : Nat → α → Prop
  | root {k : Nat} {v : α} (hroot : root v) (hne : v ≠ u) : Around E root u k v
  | step {k : Nat} {v w : α} (h : Around E root u k v) (hedge : E v w) (hne : w ≠ u) : Around E root u (k + 1) w

variable {E : α → α → Prop} {root : α → Prop} {u v w : α} {k j : Nat}

namespace Around

theorem mono (h : Around E root u k v) (hkj : k ≤ j) : Around E root u j v := by
  induction h generalizing j with
  | root hroot hne => exact .root hroot hne
  | step _ hedge hne ih =>
    obtain ⟨j, rfl⟩ : ∃ i, j = i + 1 := ⟨j - 1, by omega⟩
    exact .step (ih (by omega)) hedge hne

/-- Around a node there is a list that leaves it out. -/
theorem path (h : Around E root u k v) : ∃ p r, root r ∧ IsPath E p r v ∧ u ∉ p := by
  induction h with
  | @root k v hroot hne =>
    exact ⟨[v], v, hroot, ⟨rfl, rfl, List.isChain_singleton v⟩, by simpa using hne.symm⟩
  | @step k v w _ hedge hne ih =>
    obtain ⟨p, r, hr, ⟨hhead, hlast, hchain⟩, hu⟩ := ih
    refine ⟨p ++ [w], r, hr, ⟨?_, by simp, ?_⟩, ?_⟩
    · rw [List.head?_append, hhead]
      rfl
    · refine hchain.append (List.isChain_singleton w) fun x hx y hy => ?_
      rw [hlast] at hx
      cases hx
      cases hy
      exact hedge
    · rw [List.mem_append, not_or]
      exact ⟨hu, by simpa using hne.symm⟩

end Around

/-- The ways around a node: at a root, or one edge further. -/
theorem exists_around : (∃ k, Around E root u k v) ↔ v ≠ u ∧ (root v ∨ ∃ p, E p v ∧ ∃ k, Around E root u k p) := by
  constructor
  · rintro ⟨k, h⟩
    cases h with
    | root hroot hne => exact ⟨hne, .inl hroot⟩
    | step hp hedge hne => exact ⟨hne, .inr ⟨_, hedge, _, hp⟩⟩
  · rintro ⟨hne, hroot | ⟨p, hedge, k, hp⟩⟩
    · exact ⟨0, .root hroot hne⟩
    · exact ⟨k + 1, .step hp hedge hne⟩

/-- A list that leaves a node out leads around it. -/
theorem IsPath.around {p : List α} {r : α} (h : IsPath E p r v) (hr : root r) (hu : u ∉ p) : ∃ k, Around E root u k v := by
  induction p using List.reverseRecOn generalizing v with
  | nil => cases h.1
  | append_singleton p w ih =>
    obtain ⟨hhead, hlast, hchain⟩ := h
    rw [List.getLast?_concat] at hlast
    obtain rfl := Option.some.inj hlast
    have hne : w ≠ u := by
      rintro rfl
      exact hu (by simp)
    cases hp : p.getLast? with
    | none =>
      rw [List.getLast?_eq_none_iff] at hp
      subst hp
      cases hhead
      exact ⟨0, .root hr hne⟩
    | some x =>
      have hne' : p ≠ [] := by
        rintro rfl
        cases hp
      have hhead' : p.head? = some r := by rwa [List.head?_append_of_ne_nil _ hne'] at hhead
      obtain ⟨hchain', -, hedge⟩ := List.isChain_append.1 hchain
      obtain ⟨k, hk⟩ := ih ⟨hhead', hp, hchain'⟩ fun hmem => hu (List.mem_append_left _ hmem)
      exact ⟨k + 1, .step hk (hedge x hp w rfl) hne⟩

/-- A shortest way around visits a new node at every edge. -/
theorem Around.visited {nodes : List α} (hE : ∀ v w, E v w → w ∈ nodes) (hroot : ∀ v, root v → v ∈ nodes)
    (h : Around E root u k v) (hleast : ∀ j, j < k → ¬ Around E root u j v) :
    ∃ l : List α, l.Nodup ∧ l.length = k + 1 ∧ ∀ x ∈ l, x ∈ nodes ∧ Around E root u k x := by
  induction h with
  | @root k v hr hne =>
    cases k with
    | zero => exact ⟨[v], List.nodup_singleton v, rfl, by simpa using ⟨hroot v hr, .root hr hne⟩⟩
    | succ k => exact absurd (.root hr hne) (hleast 0 k.succ_pos)
  | @step k v w hv hedge hne ih =>
    obtain ⟨l, hnd, hlen, hl⟩ := ih fun j hj hjv => hleast (j + 1) (Nat.succ_lt_succ hj) (.step hjv hedge hne)
    refine ⟨w :: l, List.nodup_cons.2 ⟨fun hw => hleast k k.lt_succ_self (hl w hw).2, hnd⟩, by rw [List.length_cons, hlen], ?_⟩
    rintro x (_ | ⟨_, hx⟩)
    · exact ⟨hE v w hedge, .step hv hedge hne⟩
    · exact ⟨(hl x hx).1, (hl x hx).2.mono k.le_succ⟩

/-- So it has fewer edges than there are nodes. -/
theorem Around.bounded {nodes : List α} (hE : ∀ v w, E v w → w ∈ nodes) (hroot : ∀ v, root v → v ∈ nodes)
    (h : Around E root u k v) : Around E root u nodes.length v := by
  classical
  have hex : ∃ k, Around E root u k v := ⟨k, h⟩
  obtain ⟨l, hnd, hlen, hl⟩ := (Nat.find_spec hex).visited hE hroot fun j hj => Nat.find_min hex hj
  have hle := (hnd.subperm fun x hx => (hl x hx).1).length_le
  exact (Nat.find_spec hex).mono (by omega)

/-! ## The iteration -/

section
variable [DecidableEq α] (ids : List α) (preds : α → List α)

/-- A node itself, and what dominates all its predecessors. -/
def update (D : α → List α) (v : α) : List α :=
  ids.filter fun u => u = v || (!(preds v).isEmpty && (preds v).all fun p => (D p).contains u)

/-- A visit of a node, which notes whether anything changed. -/
def visit (s : (α → List α) × Bool) (v : α) : (α → List α) × Bool :=
  let updated := update ids preds s.1 v
  if updated ≠ s.1 v then (Function.update s.1 v updated, true) else s

def pass (D : α → List α) : (α → List α) × Bool := ids.foldl (visit ids preds) (D, false)

/-- So many passes, fewer when one changes nothing. -/
def passes : Nat → (α → List α) → α → List α
  | 0, D => D
  | n + 1, D =>
    let s := pass ids preds D
    if s.2 then passes n s.1 else s.1

/-- A root is dominated by itself, for the others nothing is ruled out yet. -/
def start (v : α) : List α := if (preds v).isEmpty then [v] else ids

def dominators : α → List α := passes ids preds (max 1 ids.length) (start ids preds)

/-- An edge to a node from its predecessor. -/
def Edge (a b : α) : Prop := a ∈ preds b

def Root (v : α) : Prop := v ∈ ids ∧ preds v = []

variable {ids preds} {D : α → List α} {n : Nat}

theorem mem_update : u ∈ update ids preds D v ↔ u ∈ ids ∧ (u = v ∨ preds v ≠ [] ∧ ∀ p ∈ preds v, u ∈ D p) := by
  simp [update]

theorem visit_eq (s : (α → List α) × Bool) (v : α) : visit ids preds s v =
    if update ids preds s.1 v ≠ s.1 v then (Function.update s.1 v (update ids preds s.1 v), true) else s := rfl

/-- An update is listed in the order of the nodes. -/
theorem update_listed : update ids preds D v = ids.filter fun u => u ∈ update ids preds D v := by
  refine List.filter_congr fun u hu => ?_
  rw [Bool.eq_iff_iff, decide_eq_true_iff, update, List.mem_filter]
  simp [hu]

/-- What is true of the iteration after `k` passes. -/
structure Approx (ids : List α) (preds : α → List α) (k : Nat) (D : α → List α) : Prop where
  listed : ∀ v ∈ ids, D v = ids.filter fun u => u ∈ D v
  sound : ∀ v ∈ ids, ∀ u ∈ ids, u ∉ D v → ∃ j, Around (Edge preds) (Root ids preds) u j v
  complete : ∀ v ∈ ids, ∀ u, Around (Edge preds) (Root ids preds) u k v → u ∉ D v

theorem not_mem_update (hu : u ∈ ids) :
    u ∉ update ids preds D v ↔ v ≠ u ∧ (preds v = [] ∨ ∃ p ∈ preds v, u ∉ D p) := by
  rw [mem_update]
  simp only [hu, true_and, not_or, not_and_or, not_not, not_forall, exists_prop, ne_eq, eq_comm]

/-- One step around a node leads where the update has ruled it out. -/
theorem around_ruled_out (hpreds : ∀ v, ∀ p ∈ preds v, p ∈ ids)
    (hD : ∀ v ∈ ids, ∀ u, Around (Edge preds) (Root ids preds) u k v → u ∉ D v)
    (h : Around (Edge preds) (Root ids preds) u (k + 1) v) : u ∉ update ids preds D v := by
  by_cases hu : u ∈ ids
  · rw [not_mem_update hu]
    cases h with
    | root hroot hne => exact ⟨hne, .inl hroot.2⟩
    | step hp hedge hne => exact ⟨hne, .inr ⟨_, hedge, hD _ (hpreds v _ hedge) u hp⟩⟩
  · exact fun hmem => hu (mem_update.1 hmem).1

theorem Approx.visit (hpreds : ∀ v, ∀ p ∈ preds v, p ∈ ids) {s : (α → List α) × Bool} (h : Approx ids preds k s.1) (hv : v ∈ ids) :
    Approx ids preds k (visit ids preds s v).1 ∧
      (∀ u, Around (Edge preds) (Root ids preds) u (k + 1) v → u ∉ (Dominators.visit ids preds s v).1 v) ∧
      ∀ w, w ≠ v → (Dominators.visit ids preds s v).1 w = s.1 w := by
  have hvisit : ∀ w, (Dominators.visit ids preds s v).1 w = if w = v then update ids preds s.1 v else s.1 w := by
    intro w
    rw [visit_eq]
    split
    · exact Function.update_apply s.1 v _ w
    · next hsame =>
      split
      · next hw => rw [hw, not_not.1 hsame]
      · rfl
  have hnew : ∀ u, Around (Edge preds) (Root ids preds) u (k + 1) v → u ∉ update ids preds s.1 v :=
    fun u hu => around_ruled_out hpreds h.complete hu
  refine ⟨⟨fun w hw => ?_, fun w hw u hu hmem => ?_, fun w hw u hu => ?_⟩, fun u hu => ?_, fun w hw => ?_⟩
  · rw [hvisit]
    split
    · exact update_listed
    · exact h.listed w hw
  · rw [hvisit] at hmem
    split at hmem
    · next hwv =>
      subst hwv
      obtain ⟨hne, hcases⟩ := (not_mem_update hu).1 hmem
      refine exists_around.2 ⟨hne, hcases.imp (fun hnil => ⟨hw, hnil⟩) fun ⟨p, hp, hup⟩ => ⟨p, hp, ?_⟩⟩
      exact h.sound p (hpreds w p hp) u hu hup
    · exact h.sound w hw u hu hmem
  · rw [hvisit]
    split
    · next hwv =>
      subst hwv
      exact hnew u (hu.mono k.le_succ)
    · exact h.complete w hw u hu
  · rw [hvisit, if_pos rfl]
    exact hnew u hu
  · rw [hvisit, if_neg hw]

/-- A pass rules out one more edge. -/
theorem Approx.pass (hpreds : ∀ v, ∀ p ∈ preds v, p ∈ ids) (hids : ids.Nodup) (h : Approx ids preds k D) :
    Approx ids preds (k + 1) (pass ids preds D).1 := by
  have hfold : ∀ (todo done : List α) (s : (α → List α) × Bool), done ++ todo = ids → Approx ids preds k s.1 →
      (∀ v ∈ done, ∀ u, Around (Edge preds) (Root ids preds) u (k + 1) v → u ∉ s.1 v) →
      Approx ids preds (k + 1) (todo.foldl (Dominators.visit ids preds) s).1 := by
    intro todo
    induction todo with
    | nil =>
      intro done s hsplit hs hdone
      rw [List.append_nil] at hsplit
      subst hsplit
      exact ⟨hs.listed, hs.sound, hdone⟩
    | cons v todo ih =>
      intro done s hsplit hs hdone
      have hv : v ∈ ids := by
        rw [← hsplit]
        simp
      obtain ⟨hs', hnew, hold⟩ := hs.visit hpreds hv
      refine ih (done ++ [v]) _ (by rw [← hsplit, List.append_assoc, List.singleton_append]) hs' fun w hw u hu => ?_
      have hnd := hids
      rw [← hsplit, List.nodup_append] at hnd
      rcases List.mem_append.1 hw with hw | hw
      · have hne : w ≠ v := hnd.2.2 w hw v List.mem_cons_self
        rw [hold w hne]
        exact hdone w hw u hu
      · obtain rfl := List.mem_singleton.1 hw
        exact hnew u hu
  exact hfold ids [] (D, false) rfl h fun v hv => absurd hv (List.not_mem_nil)

/-- A pass that changed nothing changed nothing anywhere. -/
theorem pass_unchanged (h : (pass ids preds D).2 = false) : (pass ids preds D).1 = D := by
  have hflag : ∀ (l : List α) (s : (α → List α) × Bool), s.2 = true → (l.foldl (visit ids preds) s).2 = true := by
    intro l
    induction l with
    | nil => exact fun _ hs => hs
    | cons v l ih =>
      intro s hs
      refine ih _ ?_
      rw [visit_eq]
      split
      · rfl
      · exact hs
  have hfold : ∀ (l : List α) (s : (α → List α) × Bool), (l.foldl (visit ids preds) s).2 = false →
      (l.foldl (visit ids preds) s).1 = s.1 := by
    intro l
    induction l with
    | nil => exact fun _ _ => rfl
    | cons v l ih =>
      intro s hs
      rw [List.foldl_cons] at hs ⊢
      rw [ih _ hs]
      rw [visit_eq] at hs ⊢
      split
      · next hne =>
        rw [if_pos hne, hflag l _ rfl] at hs
        cases hs
      · rfl
  exact hfold ids (D, false) h

/-- An approximation that a pass does not change is right about every path. -/
theorem Approx.of_unchanged (hpreds : ∀ v, ∀ p ∈ preds v, p ∈ ids) (hids : ids.Nodup) (h : Approx ids preds k D)
    (hsame : (Dominators.pass ids preds D).2 = false) : ∀ j, Approx ids preds (k + j) D := by
  intro j
  induction j with
  | zero => exact h
  | succ j ih =>
    have hnext := ih.pass hpreds hids
    rwa [pass_unchanged hsame] at hnext

theorem Approx.passes (hpreds : ∀ v, ∀ p ∈ preds v, p ∈ ids) (hids : ids.Nodup) (h : Approx ids preds k D) :
    Approx ids preds (k + n) (passes ids preds n D) := by
  induction n generalizing k D with
  | zero => exact h
  | succ n ih =>
    rw [Dominators.passes]
    split
    · have hrest := ih (h.pass hpreds hids)
      rwa [Nat.add_assoc, Nat.add_comm 1 n] at hrest
    · next hsame =>
      rw [Bool.not_eq_true] at hsame
      rw [pass_unchanged hsame]
      exact h.of_unchanged hpreds hids hsame (n + 1)

theorem start_approx (hids : ids.Nodup) : Approx ids preds 0 (start ids preds) := by
  refine ⟨fun v hv => ?_, fun v hv u hu hmem => ?_, fun v hv u h => ?_⟩
  · unfold start
    split
    · simp only [List.mem_singleton]
      rw [List.filter_eq v, List.count_eq_one_of_mem hids hv]
      rfl
    · exact (List.filter_eq_self.2 fun u hu => by simpa using hu).symm
  · unfold start at hmem
    split at hmem
    · next hnil => exact ⟨0, .root ⟨hv, List.isEmpty_iff.1 hnil⟩ fun heq => hmem (by simp [heq])⟩
    · exact absurd hu hmem
  · cases h with
    | root hroot hne =>
      rw [start, if_pos (List.isEmpty_iff.2 hroot.2), List.mem_singleton]
      exact hne.symm

/-- The iteration rules out exactly what a path leads around. -/
theorem not_mem_dominators (hpreds : ∀ v, ∀ p ∈ preds v, v ∈ ids ∧ p ∈ ids) (hids : ids.Nodup) (hv : v ∈ ids) (hu : u ∈ ids) :
    u ∉ dominators ids preds v ↔ ∃ k, Around (Edge preds) (Root ids preds) u k v := by
  have happrox : Approx ids preds (0 + max 1 ids.length) (dominators ids preds) :=
    (start_approx hids).passes (fun v p hp => (hpreds v p hp).2) hids
  constructor
  · exact happrox.sound v hv u hu
  · rintro ⟨k, hk⟩
    have hshort := hk.bounded (fun a b hab => (hpreds b a hab).1) fun a ha => ha.1
    exact happrox.complete v hv u (hshort.mono (by omega))

theorem dominators_sub (hpreds : ∀ v, ∀ p ∈ preds v, v ∈ ids ∧ p ∈ ids) (hids : ids.Nodup) (hv : v ∈ ids)
    (hu : u ∈ dominators ids preds v) : u ∈ ids := by
  have happrox : Approx ids preds (0 + max 1 ids.length) (dominators ids preds) :=
    (start_approx hids).passes (fun v p hp => (hpreds v p hp).2) hids
  rw [happrox.listed v hv] at hu
  exact (List.mem_filter.1 hu).1

/-- The iteration finds the dominators. -/
theorem mem_dominators (hpreds : ∀ v, ∀ p ∈ preds v, v ∈ ids ∧ p ∈ ids) (hids : ids.Nodup) (hv : v ∈ ids) :
    u ∈ dominators ids preds v ↔ u ∈ ids ∧ ∀ p r, Root ids preds r → IsPath (Edge preds) p r v → u ∈ p := by
  constructor
  · intro hu
    have hmem := dominators_sub hpreds hids hv hu
    refine ⟨hmem, fun p r hr hp => ?_⟩
    by_contra hnot
    exact (not_mem_dominators hpreds hids hv hmem).2 (hp.around hr hnot) hu
  · rintro ⟨hmem, hall⟩
    by_contra hu
    obtain ⟨k, hk⟩ := (not_mem_dominators hpreds hids hv hmem).1 hu
    obtain ⟨p, r, hr, hp, hnot⟩ := hk.path
    exact hnot (hall p r hr hp)

/-- What the iteration ends with another update does not change. -/
theorem update_dominators (hpreds : ∀ v, ∀ p ∈ preds v, v ∈ ids ∧ p ∈ ids) (hids : ids.Nodup) (hv : v ∈ ids) :
    update ids preds (dominators ids preds) v = dominators ids preds v := by
  have happrox : Approx ids preds (0 + max 1 ids.length) (dominators ids preds) :=
    (start_approx hids).passes (fun v p hp => (hpreds v p hp).2) hids
  rw [happrox.listed v hv, update_listed]
  refine List.filter_congr fun u hu => decide_eq_decide.2 ?_
  rw [← not_iff_not, not_mem_update hu, not_mem_dominators hpreds hids hv hu, exists_around]
  refine and_congr_right fun _ => or_congr (iff_of_eq (by simp [Root, hv])) (exists_congr fun p => and_congr_right fun hp => ?_)
  exact not_mem_dominators hpreds hids (hpreds v p hp).2 hu

end

end AgentHub.Lib.Dominators
