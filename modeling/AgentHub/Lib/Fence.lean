import Mathlib.Logic.Relation
import Mathlib.Order.Lattice
import Mathlib.Tactic.Common
/-!
# Fenced leases

A cell holds one lease: its holder, a fencing token and an expiry. An operation at a clock
reading either leaves the cell, renews or releases a live lease, or hands a dead one to a new
holder under the next token. `Lost.run`: with a clock that never goes back, a lease that is no
longer live stays lost.
-/

namespace AgentHub.Lib.Fence

variable {H T : Type} [LinearOrder T]

structure Cell (H T : Type) where
  holder : H
  token : Nat
  expires : T
  released : Bool

/-- The lease in the cell still holds at `now`. -/
def Cell.Live (c : Cell H T) (now : T) : Prop := c.released = false ∧ now < c.expires

/-- What an operation at `now` can do to a cell. -/
inductive Step (now : T) : Option (Cell H T) → Option (Cell H T) → Prop
  | first (h : H) (e : T) : Step now none (some ⟨h, 1, e, false⟩)
  | renew (c : Cell H T) (e : T) (live : c.Live now) : Step now (some c) (some { c with expires := e })
  | take (c : Cell H T) (h : H) (e : T) (dead : ¬ c.Live now) :
      Step now (some c) (some ⟨h, c.token + 1, e, false⟩)
  | release (c : Cell H T) (b : Bool) (live : c.Live now) :
      Step now (some c) (some { c with expires := now, released := b })
  | stay (c : Option (Cell H T)) : Step now c c

/-- A step at a clock reading no earlier than the last one. -/
def TimedStep (s s' : T × Option (Cell H T)) : Prop := s.1 ≤ s'.1 ∧ Step s'.1 s.2 s'.2

/-- The lease with token `tok` is gone at `t`: a larger token is stored, or its own is no longer live. -/
def Lost (tok : Nat) (t : T) (cell : Option (Cell H T)) : Prop :=
  ∃ c, cell = some c ∧ (tok < c.token ∨ tok = c.token ∧ ¬ c.Live t)

theorem Cell.Live.mono {c : Cell H T} {t t' : T} (h : c.Live t') (hle : t ≤ t') : c.Live t :=
  ⟨h.1, lt_of_le_of_lt hle h.2⟩

/-- Tokens never go down. -/
theorem Step.token_le {now : T} {c : Cell H T} {cell' : Option (Cell H T)} (h : Step now (some c) cell') :
    ∃ c', cell' = some c' ∧ c.token ≤ c'.token := by
  cases h with
  | renew _ e _ => exact ⟨_, rfl, Nat.le_refl _⟩
  | take _ h e _ => exact ⟨_, rfl, Nat.le_succ _⟩
  | release _ b _ => exact ⟨_, rfl, Nat.le_refl _⟩
  | stay _ => exact ⟨_, rfl, Nat.le_refl _⟩

theorem Lost.step {tok : Nat} {s s' : T × Option (Cell H T)} (h : Lost tok s.1 s.2) (hs : TimedStep s s') :
    Lost tok s'.1 s'.2 := by
  obtain ⟨t, cell⟩ := s
  obtain ⟨t', cell'⟩ := s'
  obtain ⟨hle, hstep⟩ := hs
  obtain ⟨c, rfl, hc⟩ := h
  simp only at hle hstep ⊢
  rcases hc with hlt | ⟨rfl, hdead⟩
  · obtain ⟨c', rfl, hc'⟩ := hstep.token_le
    exact ⟨c', rfl, .inl (Nat.lt_of_lt_of_le hlt hc')⟩
  · have hdead' : ¬ c.Live t' := fun hl => hdead (hl.mono hle)
    cases hstep with
    | renew _ e live => exact absurd live hdead'
    | take _ h e _ => exact ⟨_, rfl, .inl (Nat.lt_succ_self _)⟩
    | release _ b live => exact absurd live hdead'
    | stay _ => exact ⟨c, rfl, .inr ⟨rfl, hdead'⟩⟩

/-- Once lost, lost in every later state. -/
theorem Lost.run {tok : Nat} {s s' : T × Option (Cell H T)} (hrun : Relation.ReflTransGen TimedStep s s')
    (h : Lost tok s.1 s.2) : Lost tok s'.1 s'.2 := by
  induction hrun with
  | refl => exact h
  | tail _ hs ih => exact ih.step hs

/-- A lost lease is not live at any later reading. -/
theorem Lost.not_live {tok : Nat} {t now : T} {c : Cell H T} (h : Lost tok t (some c)) (hle : t ≤ now)
    (htok : c.token = tok) : ¬ c.Live now := by
  obtain ⟨_, hc, hlt | ⟨_, hdead⟩⟩ := h
  · simp only [Option.some.injEq] at hc; subst hc; omega
  · simp only [Option.some.injEq] at hc; subst hc; exact fun hl => hdead (hl.mono hle)

/-- A released lease is lost from its release on. -/
theorem Lost.of_release (c : Cell H T) (b : Bool) (now : T) :
    Lost c.token now (some { c with expires := now, released := b }) :=
  ⟨_, rfl, .inr ⟨rfl, fun h => lt_irrefl now h.2⟩⟩

end AgentHub.Lib.Fence
