import Mathlib.Order.Defs.Unbundled
import AgentHub.Lib.Effect
/-!
# Contracts of programs that may raise

`Stays R` is a program that moves its state only as a preorder `R` allows, wherever it ends. `Triple P x Q E` is a
contract: started where `P` holds, `x` returns where `Q` holds of its value or raises where `E` holds of its error.
Both have one rule for each way to put programs together, so a proof follows the text of the program.
-/

namespace AgentHub.Lib

variable {σ ρ ε δ α β : Type}

/-! ## Programs within a preorder -/

/-- `R` on a view of the state, and `B` on the state itself. -/
def Along (B : σ → σ → Prop) (view : σ → ρ) (R : ρ → ρ → Prop) (s s' : σ) : Prop := B s s' ∧ R (view s) (view s')

instance (B : σ → σ → Prop) [IsPreorder σ B] (view : σ → ρ) (R : ρ → ρ → Prop) [IsPreorder ρ R] :
    IsPreorder σ (Along B view R) where
  refl s := ⟨refl_of B s, refl_of R (view s)⟩
  trans _ _ _ h h' := ⟨trans_of B h.1 h'.1, trans_of R h.2 h'.2⟩

def Stays (R : σ → σ → Prop) (x : EStateM ε σ α) : Prop := ∀ s, R s (ending (x s))

namespace Stays

variable {R R' : σ → σ → Prop}

theorem ok {x : EStateM ε σ α} (h : Stays R x) {s s' : σ} {a : α} (hx : x s = .ok a s') : R s s' := by
  have hs := h s
  rwa [hx] at hs

theorem error {x : EStateM ε σ α} (h : Stays R x) {s s' : σ} {e : ε} (hx : x s = .error e s') : R s s' := by
  have hs := h s
  rwa [hx] at hs

theorem mono {x : EStateM ε σ α} (h : Stays R x) (hR : ∀ s s', R s s' → R' s s') : Stays R' x := fun s => hR _ _ (h s)

theorem ite {c : Prop} [Decidable c] {x y : EStateM ε σ α} (hx : Stays R x) (hy : Stays R y) :
    Stays R (if c then x else y) := by
  split
  · exact hx
  · exact hy

theorem outcome {x : EStateM ε σ α} (hx : Stays R x) : Stays R (outcome x) := by
  intro s
  have hs := hx s
  unfold Lib.outcome
  cases h : x s <;> rw [h] at hs <;> exact hs

theorem reraise {p : ε → Bool} {f : ε → ε} {x : EStateM ε σ α} (hx : Stays R x) : Stays R (reraise p f x) := by
  intro s
  have hs := hx s
  rw [run_reraise]
  cases h : x s <;> rw [h] at hs <;> exact hs

variable [IsPreorder σ R]

theorem pure (a : α) : Stays R (pure a : EStateM ε σ α) := fun s => refl_of R s

theorem throw (e : ε) : Stays R (throw e : EStateM ε σ α) := fun s => refl_of R s

theorem bind {x : EStateM ε σ α} {f : α → EStateM ε σ β} (hx : Stays R x) (hf : ∀ a, Stays R (f a)) :
    Stays R (x >>= f) := by
  intro s
  have hs := hx s
  rw [run_bind]
  cases h : x s with
  | ok a s' =>
    rw [h] at hs
    exact trans_of R hs (hf a s')
  | error e s' =>
    rw [h] at hs
    exact hs

/-- A check that raises, and what follows it. -/
theorem check {c : Prop} [Decidable c] {e : ε} {f : PUnit → EStateM ε σ α} (hf : Stays R (f ⟨⟩)) :
    Stays R (if c then MonadExcept.throw e >>= f else f ⟨⟩) := .ite (.bind (.throw e) fun _ => hf) hf

theorem forM {f : α → EStateM ε σ PUnit} {l : List α} (hf : ∀ a ∈ l, Stays R (f a)) : Stays R (l.forM f) := by
  induction l with
  | nil => exact pure _
  | cons a l ih => exact bind (hf a List.mem_cons_self) fun _ => ih fun b hb => hf b (List.mem_cons_of_mem a hb)

theorem foldlM {f : β → α → EStateM ε σ β} (hf : ∀ b a, Stays R (f b a)) (l : List α) :
    ∀ b, Stays R (l.foldlM f b) := by
  induction l with
  | nil => exact fun b => pure b
  | cons a l ih => exact fun b => bind (hf b a) ih

theorem tryFinally {x : EStateM ε σ α} {y : EStateM ε σ β} (hx : Stays R x) (hy : Stays R y) :
    Stays R (tryFinally x y) := by
  intro s
  have ht := trans_of R (hx s) (hy (ending (x s)))
  rw [run_tryFinally]
  cases h : x s <;> rw [h] at ht <;> cases h' : y _ <;> rw [h'] at ht <;> exact ht

end Stays

/-! ## Programs that returned -/

theorem ok_of_reraise {p : ε → Bool} {f : ε → ε} {x : EStateM ε σ α} {s s' : σ} {a : α}
    (h : reraise p f x s = .ok a s') : x s = .ok a s' := by
  rw [run_reraise] at h
  cases hx : x s <;> rw [hx] at h <;> cases h
  rfl

theorem error_of_reraise {p : ε → Bool} {f : ε → ε} {x : EStateM ε σ α} {s s' : σ} {e : ε}
    (h : reraise p f x s = .error e s') : ∃ e₀, x s = .error e₀ s' := by
  rw [run_reraise] at h
  cases hx : x s <;> rw [hx] at h <;> cases h
  exact ⟨_, rfl⟩

/-- A program with a cleanup returned what it returned, and the cleanup returned. -/
theorem ok_of_tryFinally {x : EStateM ε σ α} {y : EStateM ε σ β} {s t : σ} {a : α} (h : tryFinally x y s = .ok a t) :
    ∃ s' b, x s = .ok a s' ∧ y s' = .ok b t := by
  rw [run_tryFinally] at h
  cases hx : x s with
  | error e s' =>
    rw [hx] at h
    cases hy : y s' <;> rw [ending_error, hy] at h <;> cases h
  | ok a' s' =>
    rw [hx] at h
    cases hy : y s' <;> rw [ending_ok, hy] at h <;> cases h
    exact ⟨s', _, rfl, hy⟩

/-! ## Contracts -/

/-- `Q` holds of what a program returned, or `E` of what it raised. -/
def Ends (Q : α → σ → Prop) (E : ε → σ → Prop) : EStateM.Result ε σ α → Prop
  | .ok a s => Q a s
  | .error e s => E e s

def Triple (P : σ → Prop) (x : EStateM ε σ α) (Q : α → σ → Prop) (E : ε → σ → Prop) : Prop := ∀ s, P s → Ends Q E (x s)

namespace Triple

variable {P P' : σ → Prop} {Q Q' : α → σ → Prop} {E E' : ε → σ → Prop}

theorem weaken {x : EStateM ε σ α} (h : Triple P x Q E) (hP : ∀ s, P' s → P s) (hQ : ∀ a s, Q a s → Q' a s)
    (hE : ∀ e s, E e s → E' e s) : Triple P' x Q' E' := by
  intro s hs
  have hends := h s (hP s hs)
  cases hx : x s <;> rw [hx] at hends
  · exact hQ _ _ hends
  · exact hE _ _ hends

theorem pure {a : α} (h : ∀ s, P s → Q a s) : Triple P (pure a : EStateM ε σ α) Q E := fun s hs => h s hs

theorem throw {e : ε} (h : ∀ s, P s → E e s) : Triple P (throw e : EStateM ε σ α) Q E := fun s hs => h s hs

theorem bind {x : EStateM ε σ α} {f : α → EStateM ε σ β} {S : β → σ → Prop} (hx : Triple P x Q E)
    (hf : ∀ a, Triple (Q a) (f a) S E) : Triple P (x >>= f) S E := by
  intro s hs
  have hends := hx s hs
  rw [run_bind]
  cases h : x s with
  | ok a s' =>
    rw [h] at hends
    exact hf a s' hends
  | error e s' =>
    rw [h] at hends
    exact hends

theorem ite {c : Prop} [Decidable c] {x y : EStateM ε σ α} (hx : c → Triple P x Q E) (hy : ¬ c → Triple P y Q E) :
    Triple P (if c then x else y) Q E := by
  split
  · next hc => exact hx hc
  · next hc => exact hy hc

/-- A fact that does not depend on the state may be assumed. -/
theorem assume {x : EStateM ε σ α} {p : Prop} (h : p → Triple P x Q E) : Triple (fun s => p ∧ P s) x Q E :=
  fun s hs => h hs.1 s hs.2

/-- A program within a preorder, from a property that the preorder carries along. -/
theorem of_stays {R : σ → σ → Prop} {x : EStateM ε σ α} (hx : Stays R x) (h : ∀ s s', P s → R s s' → P s') :
    Triple P x (fun _ => P) (fun _ => P) := by
  intro s hs
  have hR := hx s
  cases hrun : x s <;> rw [hrun] at hR <;> exact h _ _ hs hR

end Triple

end AgentHub.Lib
