import Mathlib.Order.Basic
import Mathlib.Tactic.Common
/-!
# Timed runs

A system whose steps read a clock that never goes back. `Timed step t s t' s'` is a run from `s` at
time `t` to `s'` whose last step was taken at `t'`.
-/

namespace AgentHub.Lib

variable {T σ : Type}

inductive Timed [LE T] (step : T → σ → σ → Prop) (t : T) (s : σ) : T → σ → Prop
  | refl : Timed step t s t s
  | tail {t' t'' : T} {s' s'' : σ} (h : Timed step t s t' s') (hle : t' ≤ t'') (hs : step t'' s' s'') :
      Timed step t s t'' s''

namespace Timed

variable [Preorder T] {step : T → σ → σ → Prop} {t t' t'' : T} {s s' s'' : σ}

theorem le (h : Timed step t s t' s') : t ≤ t' := by
  induction h with
  | refl => exact le_refl t
  | tail _ hle _ ih => exact le_trans ih hle

theorem trans (h : Timed step t s t' s') (h' : Timed step t' s' t'' s'') : Timed step t s t'' s'' := by
  induction h' with
  | refl => exact h
  | tail _ hle hs ih => exact ih.tail hle hs

/-- What every step keeps, given that it held when the step was taken, holds after the run. -/
theorem inv {I : σ → Prop} (hstep : ∀ t s s', I s → step t s s' → I s') (h : Timed step t s t' s') (hs : I s) :
    I s' := by
  induction h with
  | refl => exact hs
  | tail _ _ hst ih => exact hstep _ _ _ ih hst

/-- An invariant that also speaks of the time: later times keep it, and a step at its time keeps it. -/
theorem invAt {I : T → σ → Prop} (hlater : ∀ t t' s, t ≤ t' → I t s → I t' s)
    (hstep : ∀ t s s', I t s → step t s s' → I t s') (h : Timed step t s t' s') (hs : I t s) : I t' s' := by
  induction h with
  | refl => exact hs
  | tail _ hle hst ih => exact hstep _ _ _ (hlater _ _ _ hle ih) hst

/-- A run of one system is a run of another that simulates it. -/
theorem map {T' τ : Type} [LE T'] {step' : T' → τ → τ → Prop} {f : T → T'} {g : σ → τ} (hf : ∀ t t', t ≤ t' → f t ≤ f t')
    (hg : ∀ t s s', step t s s' → step' (f t) (g s) (g s')) (h : Timed step t s t' s') :
    Timed step' (f t) (g s) (f t') (g s') := by
  induction h with
  | refl => exact .refl
  | tail _ hle hst ih => exact ih.tail (hf _ _ hle) (hg _ _ _ hst)

end Timed

end AgentHub.Lib
