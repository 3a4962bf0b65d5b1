import Mathlib.Logic.Relation
import Mathlib.Logic.Function.Basic
import Mathlib.Tactic.Common
/-!
# One token on a branching graph

A node waits until its predecessors are done, then runs if one of them took the edge to it and
is skipped otherwise. When a node takes at most one edge, only one node is ever active
(`Inv.active_unique`), every node that ran was reached along taken edges (`Inv.live_reach`), and
a graph in which no waiting node can be decided and none is active is done (`all_done`).
-/

namespace AgentHub.Lib.Token

variable {N C O : Type}

/-- A graph whose edges carry conditions on the outcome of their source. Outcomes satisfy one
condition at most, a node has one edge at most per condition, and edges never return. -/
structure Net (N C O : Type) where
  edge : N → C → N → Prop
  input : N
  fires : O → C → Prop
  rank : N → Nat
  fires_unique : ∀ {o c c'}, fires o c → fires o c' → c = c'
  edge_unique : ∀ {u c v v'}, edge u c v → edge u c v' → v = v'
  edge_rank : ∀ {u c v}, edge u c v → rank u < rank v
  edge_input : ∀ {u c v}, edge u c v → v ≠ input

/-- What has happened at a node: nothing, it is active, or it is done with an outcome, `none` when it was skipped. -/
inductive Mark (O : Type) where
  | pending
  | active
  | done (outcome : Option O)

/-- The node ran: it is active or done with an outcome. -/
def Mark.Live : Mark O → Prop
  | .pending => False
  | .active => True
  | .done o => o ≠ none

/-- `u` is done and took its edge to `v`. -/
def Fired (net : Net N C O) (m : N → Mark O) (u v : N) : Prop :=
  ∃ c o, net.edge u c v ∧ m u = .done (some o) ∧ net.fires o c

/-- Every predecessor of `v` is done. -/
def Ready (net : Net N C O) (m : N → Mark O) (v : N) : Prop := ∀ u c, net.edge u c v → ∃ o, m u = .done o

structure Inv (net : Net N C O) (m : N → Mark O) : Prop where
  ready : ∀ v, m v ≠ .pending → Ready net m v
  fired : ∀ v, v ≠ net.input → (m v).Live → ∃ u, Fired net m u v
  skipped : ∀ v, m v = .done none → v ≠ net.input ∧ ¬ ∃ u, Fired net m u v

/-- What one step does to the marks, `m'` being the marks after it. -/
inductive Step (net : Net N C O) (m m' : N → Mark O) : Prop
  | start (h : m net.input = .pending) (hi : m' net.input = .active) (hne : ∀ u, u ≠ net.input → m' u = m u)
  | activate (v : N) (h : m v = .pending) (hr : Ready net m v) (hf : ∃ u, Fired net m u v)
      (hv : m' v = .active) (hne : ∀ u, u ≠ v → m' u = m u)
  | skip (v : N) (h : m v = .pending) (hin : v ≠ net.input) (hr : Ready net m v) (hf : ¬ ∃ u, Fired net m u v)
      (hv : m' v = .done none) (hne : ∀ u, u ≠ v → m' u = m u)
  | finish (v : N) (o : O) (h : m v = .active) (hv : m' v = .done (some o)) (hne : ∀ u, u ≠ v → m' u = m u)

variable {net : Net N C O} {m m' : N → Mark O}

/-! ## The invariant -/

theorem inv_start : Inv net (fun _ => .pending) where
  ready v h := absurd rfl h
  fired v _ h := absurd h (by simp [Mark.Live])
  skipped v h := by simp at h

/-- A node that is not done yet has taken no edge. -/
theorem not_fired_of {u v : N} (h : ∀ o, m u ≠ .done o) : ¬ Fired net m u v := by
  rintro ⟨c, o, -, hu, -⟩
  exact h _ hu

/-- Marks that differ at one undone node agree on what fired, except out of that node. -/
theorem fired_congr {x : N} (hx : ∀ o, m x ≠ .done o) (hne : ∀ u, u ≠ x → m' u = m u) {u v : N} :
    Fired net m' u v ↔ Fired net m u v ∨ (u = x ∧ Fired net m' u v) := by
  by_cases hu : u = x
  · subst hu
    simp [not_fired_of hx]
  · simp only [hu, false_and, or_false, Fired, hne u hu]

/-- A step at a node keeps ready every node that was, when it leaves done nodes alone. -/
theorem Ready.step {x v : N} (hx : ∀ o, m x ≠ .done o) (hne : ∀ u, u ≠ x → m' u = m u) (h : Ready net m v) :
    Ready net m' v := by
  intro u c he
  obtain ⟨o, ho⟩ := h u c he
  have hu : u ≠ x := fun hu => hx o (hu ▸ ho)
  exact ⟨o, (hne u hu).trans ho⟩

/-- A pending node decided as its predecessors say keeps the invariant. -/
theorem Inv.decide (hinv : Inv net m) {x : N} (hx : m x = .pending) (hr : Ready net m x)
    (hne : ∀ u, u ≠ x → m' u = m u)
    (hcase : (m' x = .active ∧ (x ≠ net.input → ∃ u, Fired net m u x)) ∨
      (m' x = .done none ∧ x ≠ net.input ∧ ¬ ∃ u, Fired net m u x)) : Inv net m' := by
  have hnd : ∀ o, m x ≠ .done o := by simp [hx]
  have hnf : ∀ v, ¬ Fired net m' x v := by
    rintro v ⟨c, o, -, ho, -⟩
    rcases hcase with ⟨h, -⟩ | ⟨h, -⟩ <;> rw [h] at ho <;> simp at ho
  have hiff : ∀ u v, Fired net m' u v ↔ Fired net m u v := by
    intro u v
    rw [fired_congr hnd hne]
    constructor
    · rintro (h | ⟨rfl, h⟩)
      · exact h
      · exact absurd h (hnf v)
    · exact .inl
  refine ⟨fun v hv => ?_, fun v hin hl => ?_, fun v hv => ?_⟩
  · by_cases hvx : v = x
    · subst hvx; exact hr.step hnd hne
    · rw [hne v hvx] at hv; exact (hinv.ready v hv).step hnd hne
  · simp only [hiff]
    by_cases hvx : v = x
    · subst hvx
      rcases hcase with ⟨-, h⟩ | ⟨h, -⟩
      · exact h hin
      · rw [h] at hl; simp [Mark.Live] at hl
    · rw [hne v hvx] at hl; exact hinv.fired v hin hl
  · simp only [hiff]
    by_cases hvx : v = x
    · subst hvx
      rcases hcase with ⟨h, -⟩ | ⟨-, h⟩
      · rw [h] at hv; simp at hv
      · exact h
    · rw [hne v hvx] at hv; exact hinv.skipped v hv

theorem Inv.step (hinv : Inv net m) (hs : Step net m m') : Inv net m' := by
  cases hs with
  | start h hi hne =>
    exact hinv.decide h (fun u c he => absurd rfl (net.edge_input he)) hne (.inl ⟨hi, fun h => absurd rfl h⟩)
  | activate v h hr hf hv hne => exact hinv.decide h hr hne (.inl ⟨hv, fun _ => hf⟩)
  | skip v h hin hr hf hv hne => exact hinv.decide h hr hne (.inr ⟨hv, hin, hf⟩)
  | finish x o h hx hne =>
    have hnd : ∀ o, m x ≠ .done o := by simp [h]
    -- The successors of an active node are pending, so the edge it takes decides nothing yet.
    have hpend : ∀ v c, net.edge x c v → m v = .pending := by
      intro v c he
      by_contra hv
      obtain ⟨o', ho'⟩ := hinv.ready v hv x c he
      exact hnd o' ho'
    refine ⟨fun v hv => ?_, fun v hin hl => ?_, fun v hv => ?_⟩
    · refine Ready.step hnd hne (hinv.ready v ?_)
      by_cases hvx : v = x
      · subst hvx; simp [h]
      · rwa [hne v hvx] at hv
    · obtain ⟨u, hu⟩ : ∃ u, Fired net m u v := by
        by_cases hvx : v = x
        · subst hvx; exact hinv.fired v hin (by rw [h]; trivial)
        · rw [hne v hvx] at hl; exact hinv.fired v hin hl
      exact ⟨u, (fired_congr hnd hne).2 (.inl hu)⟩
    · have hvx : v ≠ x := by rintro rfl; rw [hx] at hv; simp at hv
      rw [hne v hvx] at hv
      refine ⟨(hinv.skipped v hv).1, ?_⟩
      rintro ⟨u, hu⟩
      rcases (fired_congr hnd hne).1 hu with hu | ⟨rfl, c, o', he, -, -⟩
      · exact (hinv.skipped v hv).2 ⟨u, hu⟩
      · have := hpend v c he
        rw [hv] at this
        simp at this

theorem Inv.run {m m' : N → Mark O} (hinv : Inv net m) (h : Relation.ReflTransGen (Step net) m m') : Inv net m' := by
  induction h with
  | refl => exact hinv
  | tail _ hs ih => exact ih.step hs

/-! ## The token -/

theorem fired_unique {u v v' : N} (h : Fired net m u v) (h' : Fired net m u v') : v = v' := by
  obtain ⟨c, o, he, ho, hf⟩ := h
  obtain ⟨c', o', he', ho', hf'⟩ := h'
  have heq : o = o' := by rw [ho] at ho'; simpa using ho'
  subst heq
  have hc := net.fires_unique hf hf'
  subst hc
  exact net.edge_unique he he'

/-- Every node that ran was reached from the input along taken edges. -/
theorem Inv.live_reach (hinv : Inv net m) {v : N} (hl : (m v).Live) :
    Relation.ReflTransGen (Fired net m) net.input v := by
  induction hn : net.rank v using Nat.strongRecOn generalizing v with
  | _ n ih =>
    by_cases hv : v = net.input
    · rw [hv]
    · obtain ⟨u, hu⟩ := hinv.fired v hv hl
      obtain ⟨c, o, he, ho, -⟩ := id hu
      have hul : (m u).Live := by rw [ho]; simp [Mark.Live]
      exact (ih _ (hn ▸ net.edge_rank he) hul rfl).tail hu

/-- At most one node is active. -/
theorem Inv.active_unique (hinv : Inv net m) {u v : N} (hu : m u = .active) (hv : m v = .active) : u = v := by
  have hru := hinv.live_reach (v := u) (by rw [hu]; trivial)
  have hrv := hinv.live_reach (v := v) (by rw [hv]; trivial)
  have hstop : ∀ {x y}, m x = .active → Relation.ReflTransGen (Fired net m) x y → x = y := by
    intro x y hx h
    induction h using Relation.ReflTransGen.head_induction_on with
    | refl => rfl
    | head hstep _ _ => exact absurd hstep (not_fired_of (by simp [hx]))
  have huniq : Relator.RightUnique (Fired net m) := fun _ _ _ h h' => fired_unique h h'
  rcases Relation.ReflTransGen.total_of_right_unique huniq hru hrv with h | h
  · exact hstop hu h
  · exact (hstop hv h).symm

/-- When no node is active and no pending node can be decided, every node is done. -/
theorem all_done {S : N → Prop} (hsource : ∀ u c v, net.edge u c v → S v → S u)
    (hfix : ∀ v, S v → m v = .pending → ∃ u c, net.edge u c v ∧ ∀ o, m u ≠ .done o)
    (hactive : ∀ v, S v → m v ≠ .active) {v : N} (hv : S v) : ∃ o, m v = .done o := by
  induction hn : net.rank v using Nat.strongRecOn generalizing v with
  | _ n ih =>
    cases hm : m v with
    | done o => exact ⟨o, rfl⟩
    | active => exact absurd hm (hactive v hv)
    | pending =>
      obtain ⟨u, c, he, hu⟩ := hfix v hv hm
      obtain ⟨o, ho⟩ := ih _ (hn ▸ net.edge_rank he) (hsource u c v he hv) rfl
      exact absurd ho (hu o)

/-- A node that ran and has one incoming edge got there by it. -/
theorem Inv.by_only_edge (hinv : Inv net m) {u v : N} {c : C} (hv : (m v).Live) (he : net.edge u c v)
    (honly : ∀ u' c', net.edge u' c' v → u' = u ∧ c' = c) : ∃ o, m u = .done (some o) ∧ net.fires o c := by
  obtain ⟨u', c', o, he', ho, hf⟩ := hinv.fired v (net.edge_input he) hv
  obtain ⟨rfl, rfl⟩ := honly u' c' he'
  exact ⟨o, ho, hf⟩

/-! ## Dominators -/

/-- Every path from `r` to `v` passes through `d`. -/
def Dominates (E : N → N → Prop) (r d v : N) : Prop :=
  d = r ∨ d = v ∨ ¬ Relation.ReflTransGen (fun a b => E a b ∧ b ≠ d) r v

/-- A path from `r` to `v` avoids `d` or passes through it. -/
theorem avoids_or_passes {E : N → N → Prop} {r v : N} (d : N) (h : Relation.ReflTransGen E r v) :
    Relation.ReflTransGen (fun a b => E a b ∧ b ≠ d) r v ∨ Relation.ReflTransGen E d v := by
  classical
  induction h with
  | refl => exact .inl .refl
  | @tail b c _ hbc ih =>
    rcases ih with ih | ih
    · by_cases hc : c = d
      · subst hc; exact .inr .refl
      · exact .inl (ih.tail ⟨hbc, hc⟩)
    · exact .inr (ih.tail hbc)

/-- The dominators of a node that ran are done with an outcome, itself apart. -/
theorem Inv.dominator_done (hinv : Inv net m) {d v : N} (hv : (m v).Live) (hne : d ≠ v)
    (hd : Dominates (fun a b => ∃ c, net.edge a c b) net.input d v) : ∃ o, m d = .done (some o) := by
  have hrun := hinv.live_reach hv
  have hpass : Relation.ReflTransGen (Fired net m) d v := by
    rcases hd with rfl | h | h
    · exact hrun
    · exact absurd h hne
    · rcases avoids_or_passes d hrun with ha | hp
      · refine absurd (Relation.ReflTransGen.mono (fun a b hab => ?_) _ _ ha) h
        obtain ⟨⟨c, o, he, -, -⟩, hb⟩ := hab
        exact ⟨⟨c, he⟩, hb⟩
      · exact hp
  rcases Relation.ReflTransGen.cases_head hpass with h | ⟨x, ⟨c, o, -, ho, -⟩, -⟩
  · exact absurd h hne
  · exact ⟨o, ho⟩

end AgentHub.Lib.Token
