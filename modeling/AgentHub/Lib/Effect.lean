import Mathlib.Logic.Basic
import Mathlib.Tactic.Common
/-!
# Programs that read a part of their state

A program over a state that may raise keeps the state it reached when it raises. `Leaves view` is a program that leaves
a view of the state as it was, whether it returns or raises; `Reads view x y` is one that also returns what the pure
program `y` computes from the view, when it returns at all. Both are closed under sequencing, loops and handlers, so a
long check of the state reports the truth once each of its calls does.
-/

namespace AgentHub.Lib

variable {σ ρ ε δ α β : Type} {view : σ → ρ}

/-- The state a program ends in, however it ends. -/
def ending : EStateM.Result ε σ α → σ
  | .ok _ s => s
  | .error _ s => s

@[simp] theorem ending_ok (a : α) (s : σ) : ending (.ok a s : EStateM.Result ε σ α) = s := rfl

@[simp] theorem ending_error (e : ε) (s : σ) : ending (.error e s : EStateM.Result ε σ α) = s := rfl

/-- A program returned. -/
def returned : EStateM.Result ε σ α → Bool
  | .ok _ _ => true
  | .error _ _ => false

theorem returned_iff {r : EStateM.Result ε σ α} : returned r = true ↔ ∃ a s, r = .ok a s := by
  cases r <;> simp [returned]

/-- Run `x` with a part of the state that the caller keeps next to the state itself, and hand back how it ended and the
part: what `x` assigned before it raised stays assigned. -/
def capturing (x : EStateM ε (σ × β) α) (b : β) : EStateM ε σ (Except ε α × β) := fun s =>
  match x (s, b) with
  | .ok a (s', b') => .ok (.ok a, b') s'
  | .error e (s', b') => .ok (.error e, b') s'

/-- How `x` ended, as a value. -/
def outcome (x : EStateM ε σ α) : EStateM ε σ (Except ε α) := fun s =>
  match x s with
  | .ok a s' => .ok (.ok a) s'
  | .error e s' => .ok (.error e) s'

/-- `x`, with the errors that `p` names raised as `f` says. -/
def reraise {m : Type → Type} [MonadExceptOf ε m] (p : ε → Bool) (f : ε → ε) (x : m α) : m α :=
  tryCatchThe ε x fun e => throwThe ε (if p e then f e else e)

/-! ## What a program did, step by step -/

theorem run_bind (x : EStateM ε σ α) (f : α → EStateM ε σ β) (s : σ) :
    (x >>= f) s = match x s with
      | .ok a s' => f a s'
      | .error e s' => .error e s' := by
  change EStateM.bind x f s = _
  unfold EStateM.bind
  cases x s <;> rfl

theorem run_bind_ok {x : EStateM ε σ α} {f : α → EStateM ε σ β} {s s' : σ} {a : α} (h : x s = .ok a s') :
    (x >>= f) s = f a s' := by
  rw [run_bind, h]

theorem run_bind_error {x : EStateM ε σ α} {f : α → EStateM ε σ β} {s s' : σ} {e : ε} (h : x s = .error e s') :
    (x >>= f) s = .error e s' := by
  rw [run_bind, h]

/-- A sequence that returned ran both of its parts to their ends. -/
theorem bind_eq_ok {x : EStateM ε σ α} {f : α → EStateM ε σ β} {s t : σ} {b : β} :
    (x >>= f) s = .ok b t ↔ ∃ a s', x s = .ok a s' ∧ f a s' = .ok b t := by
  rw [run_bind]
  cases h : x s <;> simp

theorem run_tryFinally (x : EStateM ε σ α) (y : EStateM ε σ β) (s : σ) :
    (tryFinally x y) s = match x s, y (ending (x s)) with
      | .ok a _, .ok _ t => .ok a t
      | .error e _, .ok _ t => .error e t
      | _, .error e t => .error e t := by
  simp only [tryFinally, tryFinally', Functor.map, EStateM.map]
  cases hx : x s with
  | ok a s' =>
    simp only [ending_ok]
    cases y s' <;> rfl
  | error e s' =>
    simp only [ending_error]
    cases y s' <;> rfl

theorem run_reraise {p : ε → Bool} {f : ε → ε} {x : EStateM ε σ α} {s : σ} :
    reraise p f x s = match x s with
      | .ok a s' => .ok a s'
      | .error e s' => .error (if p e then f e else e) s' := by
  change EStateM.tryCatch x _ s = _
  unfold EStateM.tryCatch
  cases x s <;> rfl

/-! ## Programs that leave a view alone -/

def Leaves (view : σ → ρ) (x : EStateM ε σ α) : Prop := ∀ s, view (ending (x s)) = view s

namespace Leaves

theorem pure (a : α) : Leaves view (pure a : EStateM ε σ α) := fun _ => rfl

theorem throw (e : ε) : Leaves view (throw e : EStateM ε σ α) := fun _ => rfl

theorem bind {x : EStateM ε σ α} {f : α → EStateM ε σ β} (hx : Leaves view x) (hf : ∀ a, Leaves view (f a)) :
    Leaves view (x >>= f) := by
  intro s
  have hs := hx s
  rw [run_bind]
  cases h : x s with
  | ok a s' =>
    rw [h] at hs
    exact (hf a s').trans hs
  | error e s' =>
    rw [h] at hs
    exact hs

theorem ite {c : Prop} [Decidable c] {x y : EStateM ε σ α} (hx : Leaves view x) (hy : Leaves view y) :
    Leaves view (if c then x else y) := by
  split
  · exact hx
  · exact hy

theorem forM {f : α → EStateM ε σ PUnit} (hf : ∀ a, Leaves view (f a)) (l : List α) : Leaves view (l.forM f) := by
  induction l with
  | nil => exact pure _
  | cons a l ih => exact bind (hf a) fun _ => ih

theorem foldlM {f : β → α → EStateM ε σ β} (hf : ∀ b a, Leaves view (f b a)) (l : List α) :
    ∀ b, Leaves view (l.foldlM f b) := by
  induction l with
  | nil => exact fun b => pure b
  | cons a l ih => exact fun b => bind (hf b a) ih

theorem reraise {p : ε → Bool} {f : ε → ε} {x : EStateM ε σ α} (hx : Leaves view x) : Leaves view (reraise p f x) := by
  intro s
  have hs := hx s
  rw [run_reraise]
  cases h : x s <;> rw [h] at hs <;> exact hs

/-- The cleanup runs where the program ended. -/
theorem tryFinally {x : EStateM ε σ α} {y : EStateM ε σ β} (hx : Leaves view x) (hy : Leaves view y) :
    Leaves view (tryFinally x y) := by
  intro s
  have hs := hx s
  have ht := (hy (ending (x s))).trans hs
  rw [run_tryFinally]
  cases h : x s <;> rw [h] at ht <;> cases h' : y _ <;> rw [h'] at ht <;> exact ht

end Leaves

/-! ## Programs that report what a view holds -/

structure Reads (view : σ → ρ) (x : EStateM ε σ α) (y : ρ → Except δ α) : Prop where
  leaves : Leaves view x
  reports : ∀ {s s' : σ} {a : α}, x s = .ok a s' → y (view s) = .ok a

namespace Reads

/-- What a program that returned leaves and reports. -/
theorem ok {x : EStateM ε σ α} {y : ρ → Except δ α} (h : Reads view x y) {s s' : σ} {a : α} (hx : x s = .ok a s') :
    view s' = view s ∧ y (view s) = .ok a := by
  have hs := h.leaves s
  rw [hx] at hs
  exact ⟨hs, h.reports hx⟩

theorem pure (a : α) : Reads view (pure a : EStateM ε σ α) (fun _ => (Pure.pure a : Except δ α)) where
  leaves := .pure a
  reports h := by cases h; rfl

theorem throw (e : ε) (y : ρ → Except δ α) : Reads view (throw e : EStateM ε σ α) y where
  leaves := .throw e
  reports h := by cases h

theorem bind {x : EStateM ε σ α} {y : ρ → Except δ α} {f : α → EStateM ε σ β} {g : α → ρ → Except δ β}
    (hx : Reads view x y) (hf : ∀ a, Reads view (f a) (g a)) :
    Reads view (x >>= f) (fun r => y r >>= fun a => g a r) where
  leaves := .bind hx.leaves fun a => (hf a).leaves
  reports {s t b} h := by
    obtain ⟨a, s', ha, hb⟩ := bind_eq_ok.1 h
    obtain ⟨hview, hy⟩ := hx.ok ha
    have hg := (hf a).reports hb
    rw [hview] at hg
    change Except.bind (y (view s)) _ = _
    rw [hy]
    exact hg

theorem ite {c : Prop} [Decidable c] {x x' : EStateM ε σ α} {y y' : ρ → Except δ α} (h : Reads view x y)
    (h' : Reads view x' y') : Reads view (if c then x else x') (fun r => if c then y r else y' r) := by
  by_cases hc : c
  · simpa only [if_pos hc] using h
  · simpa only [if_neg hc] using h'

theorem foldlM {f : β → α → EStateM ε σ β} {g : β → α → ρ → Except δ β} (hf : ∀ b a, Reads view (f b a) (g b a))
    (l : List α) : ∀ b, Reads view (l.foldlM f b) (fun r => l.foldlM (fun b a => g b a r) b) := by
  induction l with
  | nil => exact fun b => pure b
  | cons a l ih => exact fun b => bind (hf b a) ih

theorem reraise {p : ε → Bool} {f : ε → ε} {q : δ → Bool} {g : δ → δ} {x : EStateM ε σ α} {y : ρ → Except δ α}
    (h : Reads view x y) : Reads view (reraise p f x) (fun r => Lib.reraise q g (y r)) where
  leaves := h.leaves.reraise
  reports {s s' a} hx := by
    rw [run_reraise] at hx
    cases hrun : x s with
    | ok b t =>
      rw [hrun] at hx
      cases hx
      simp only [h.reports hrun]
      rfl
    | error e t => simp [hrun] at hx

end Reads

end AgentHub.Lib
