import Mathlib.Logic.Relation
import Mathlib.Order.Defs.Unbundled
import Mathlib.Tactic.Common
/-!
# Transactions

A transaction reads and writes a state and may raise. When it raises, the caller
rolls back: `commit` keeps the state it started from. The inversion lemmas say what
a transaction that returned must have done, one step at a time, so that no proof
unfolds the monad.
-/

namespace AgentHub.Lib

/-- A transaction over the state `σ` that may raise an `ε`. -/
abbrev Tx (σ ε α : Type) : Type := StateT σ (Except ε) α

namespace Tx

variable {σ ε α β : Type}

/-- Raise `e` unless the check holds. -/
def ensure (b : Bool) (e : ε) : Tx σ ε Unit := fun s => if b then .ok ((), s) else .error e

/-- The value of a lookup, or raise `e` when there is none. -/
def require (o : Option α) (e : ε) : Tx σ ε α := fun s =>
  match o with
  | some a => .ok (a, s)
  | none => .error e

/-- Raise `e`. -/
def fail (e : ε) : Tx σ ε α := fun _ => .error e

/-- Read a part of the state. -/
def read (f : σ → α) : Tx σ ε α := fun s => .ok (f s, s)

/-- Replace the state. -/
def write (f : σ → σ) : Tx σ ε Unit := fun s => .ok ((), f s)

/-- Run a transaction: its writes stay when it returns and are lost when it raises. -/
def commit (x : Tx σ ε α) (s : σ) : Except ε α × σ :=
  match x.run s with
  | .ok (a, s') => (.ok a, s')
  | .error e => (.error e, s)

/-! ## What a transaction that returned did -/

@[simp] theorem bind_ok {x : Except ε α} {f : α → Except ε β} {r : β} :
    (x >>= f) = .ok r ↔ ∃ a, x = .ok a ∧ f a = .ok r := by
  cases x <;> simp [bind, Except.bind]

@[simp] theorem pure_ok {a r : α} : (pure a : Except ε α) = .ok r ↔ r = a := by
  simp [pure, Except.pure, eq_comm]

@[simp] theorem ensure_ok {b : Bool} {e : ε} {s : σ} {r : Unit × σ} :
    (ensure b e : Tx σ ε Unit).run s = .ok r ↔ b = true ∧ r = ((), s) := by
  cases b <;> simp [ensure, StateT.run, eq_comm]

@[simp] theorem require_ok {o : Option α} {e : ε} {s : σ} {r : α × σ} :
    (require o e : Tx σ ε α).run s = .ok r ↔ o = some r.1 ∧ r.2 = s := by
  obtain ⟨a, s'⟩ := r
  cases o <;> simp [require, StateT.run, eq_comm]

@[simp] theorem fail_ok {e : ε} {s : σ} {r : α × σ} : (fail e : Tx σ ε α).run s = .ok r ↔ False := by
  simp [fail, StateT.run]

@[simp] theorem read_ok {f : σ → α} {s : σ} {r : α × σ} :
    (read f : Tx σ ε α).run s = .ok r ↔ r = (f s, s) := by
  simp [read, StateT.run, eq_comm]

@[simp] theorem write_ok {f : σ → σ} {s : σ} {r : Unit × σ} :
    (write f : Tx σ ε Unit).run s = .ok r ↔ r = ((), f s) := by
  simp [write, StateT.run, eq_comm]

/-! ## What a transaction raises -/

theorem error_of_bind {x : Tx σ ε α} {f : α → Tx σ ε β} {s : σ} {e : ε} (h : x.run s = .error e) :
    (x >>= f).run s = .error e := by
  rw [StateT.run_bind, h]; rfl

theorem error_after {x : Tx σ ε α} {f : α → Tx σ ε β} {s s' : σ} {a : α} {e : ε} (h : x.run s = .ok (a, s'))
    (hf : (f a).run s' = .error e) : (x >>= f).run s = .error e := by
  rw [StateT.run_bind, h]; exact hf

theorem ensure_error {b : Bool} {e : ε} {s : σ} (h : b = false) : (ensure b e : Tx σ ε Unit).run s = .error e := by
  subst h; rfl

theorem commit_ok {x : Tx σ ε α} {s s' : σ} {a : α} (h : commit x s = (.ok a, s')) :
    x.run s = .ok (a, s') := by
  unfold commit at h
  split at h
  · next a' s'' hx => simp only [Prod.mk.injEq, Except.ok.injEq] at h; rw [hx, h.1, h.2]
  · simp at h

theorem commit_error {x : Tx σ ε α} {s s' : σ} {e : ε} (h : commit x s = (.error e, s')) : s' = s := by
  unfold commit at h
  split at h
  · simp at h
  · simp only [Prod.mk.injEq] at h; exact h.2.symm

theorem commit_of_ok {x : Tx σ ε α} {s s' : σ} {a : α} (h : x.run s = .ok (a, s')) : commit x s = (.ok a, s') := by
  unfold commit
  rw [h]

theorem commit_of_error {x : Tx σ ε α} {s : σ} {e : ε} (h : x.run s = .error e) : commit x s = (.error e, s) := by
  unfold commit
  rw [h]

/-- A commit leaves the state it started from, or the one the transaction returned in. -/
theorem commit_cases (x : Tx σ ε α) (s : σ) : (commit x s).2 = s ∨ ∃ a, x.run s = .ok (a, (commit x s).2) := by
  unfold commit
  split
  · next a s' h => exact .inr ⟨a, h⟩
  · exact .inl rfl

theorem bind_error {x : Tx σ ε α} {f : α → Tx σ ε β} {s : σ} {e : ε} :
    (x >>= f).run s = .error e ↔
      x.run s = .error e ∨ ∃ a s', x.run s = .ok (a, s') ∧ (f a).run s' = .error e := by
  rw [StateT.run_bind]
  cases h : x.run s with
  | error e' => simp [bind, Except.bind]
  | ok r =>
    obtain ⟨a, s'⟩ := r
    simp [bind, Except.bind]

/-- Whatever the transaction raises satisfies `P`. -/
def Raises (P : ε → Prop) (x : Tx σ ε α) : Prop := ∀ s e, x.run s = .error e → P e

section
variable {P : ε → Prop}

theorem Raises.bind {x : Tx σ ε α} {f : α → Tx σ ε β} (hx : Raises P x) (hf : ∀ a, Raises P (f a)) :
    Raises P (x >>= f) := by
  intro s e h
  rcases bind_error.1 h with h | ⟨a, s', -, h⟩
  · exact hx s e h
  · exact hf a s' e h

theorem Raises.pure (a : α) : Raises P (pure a : Tx σ ε α) := by
  intro s e h
  rw [StateT.run_pure] at h
  cases h

theorem Raises.ensure {b : Bool} {e : ε} (he : P e) : Raises P (Tx.ensure b e : Tx σ ε Unit) := by
  intro s e' h
  cases b <;> simp only [Tx.ensure, StateT.run] at h
  · cases h; exact he
  · cases h

theorem Raises.require {o : Option α} {e : ε} (he : P e) : Raises P (Tx.require o e : Tx σ ε α) := by
  intro s e' h
  cases o <;> simp only [Tx.require, StateT.run] at h
  · cases h; exact he
  · cases h

theorem Raises.fail {e : ε} (he : P e) : Raises P (Tx.fail e : Tx σ ε α) := by
  intro s e' h
  cases h; exact he

theorem Raises.read (f : σ → α) : Raises P (Tx.read f : Tx σ ε α) := by
  intro s e h
  cases h

theorem Raises.write (f : σ → σ) : Raises P (Tx.write f : Tx σ ε Unit) := by
  intro s e h
  cases h

theorem Raises.ite {p : Prop} [Decidable p] {x y : Tx σ ε α} (hx : Raises P x) (hy : Raises P y) :
    Raises P (if p then x else y) := by
  split
  · exact hx
  · exact hy

end

/-! ## Transactions that only read -/

/-- Whenever the transaction returns, the state is as it was. -/
def ReadOnly (x : Tx σ ε α) : Prop := ∀ s r, x.run s = .ok r → r.2 = s

theorem ReadOnly.bind {x : Tx σ ε α} {f : α → Tx σ ε β} (hx : ReadOnly x) (hf : ∀ a, ReadOnly (f a)) :
    ReadOnly (x >>= f) := by
  intro s r h
  rw [StateT.run_bind, bind_ok] at h
  obtain ⟨⟨a, s'⟩, ha, h⟩ := h
  rw [hf a s' r h]
  exact hx s _ ha

/-- What follows a read starts from the same state. -/
theorem ReadOnly.bind_ok {x : Tx σ ε α} {f : α → Tx σ ε β} (hx : ReadOnly x) {s : σ} {r : β × σ}
    (h : (x >>= f).run s = .ok r) : ∃ a, x.run s = .ok (a, s) ∧ (f a).run s = .ok r := by
  rw [StateT.run_bind, Tx.bind_ok] at h
  obtain ⟨⟨a, s'⟩, ha, h⟩ := h
  obtain rfl : s' = s := hx s _ ha
  exact ⟨a, ha, h⟩

theorem ReadOnly.pure (a : α) : ReadOnly (pure a : Tx σ ε α) := by
  intro s r h
  rw [StateT.run_pure, pure_ok] at h
  rw [h]

theorem ReadOnly.ensure (b : Bool) (e : ε) : ReadOnly (Tx.ensure b e : Tx σ ε Unit) := by
  intro s r h
  rw [(ensure_ok.1 h).2]

theorem ReadOnly.require (o : Option α) (e : ε) : ReadOnly (Tx.require o e : Tx σ ε α) :=
  fun _ _ h => (require_ok.1 h).2

theorem ReadOnly.fail (e : ε) : ReadOnly (Tx.fail e : Tx σ ε α) := fun _ _ h => (fail_ok.1 h).elim

theorem ReadOnly.read (f : σ → α) : ReadOnly (Tx.read f : Tx σ ε α) := by
  intro s r h
  rw [read_ok.1 h]

theorem ReadOnly.ite {p : Prop} [Decidable p] {x y : Tx σ ε α} (hx : ReadOnly x) (hy : ReadOnly y) :
    ReadOnly (if p then x else y) := by
  split
  · exact hx
  · exact hy

/-! ## Relations between the state before and after -/

/-- Whenever the transaction returns, `R` relates the state before to the state after. -/
def Within (R : σ → σ → Prop) (x : Tx σ ε α) : Prop := ∀ s a s', x.run s = .ok (a, s') → R s s'

section
variable {R : σ → σ → Prop}

theorem Within.write {f : σ → σ} (hf : ∀ s, R s (f s)) : Within R (Tx.write f : Tx σ ε Unit) := by
  intro s a s' h
  rw [write_ok, Prod.mk.injEq] at h
  rw [h.2]
  exact hf s

theorem Within.fail (e : ε) : Within R (Tx.fail e : Tx σ ε α) := fun _ _ _ h => (fail_ok.1 h).elim

theorem Within.ite {p : Prop} [Decidable p] {x y : Tx σ ε α} (hx : Within R x) (hy : Within R y) :
    Within R (if p then x else y) := by
  split
  · exact hx
  · exact hy

/-- What follows a check may use it. -/
theorem Within.check {b : Bool} {e : ε} {f : Unit → Tx σ ε α} (hf : b = true → Within R (f ())) :
    Within R (Tx.ensure b e >>= f) := by
  intro s a s' h
  rw [StateT.run_bind, bind_ok] at h
  obtain ⟨r, hr, h⟩ := h
  obtain ⟨hb, rfl⟩ := ensure_ok.1 hr
  exact hf hb s a s' h

/-- What follows a lookup may use what it found. -/
theorem Within.found {o : Option β} {e : ε} {f : β → Tx σ ε α} (hf : ∀ b, o = some b → Within R (f b)) :
    Within R (Tx.require o e >>= f) := by
  intro s a s' h
  rw [StateT.run_bind, bind_ok] at h
  obtain ⟨⟨b, s₁⟩, hr, h⟩ := h
  obtain ⟨hb, rfl⟩ := require_ok.1 hr
  exact hf b hb _ a s' h

variable [IsPreorder σ R]

theorem ReadOnly.within {x : Tx σ ε α} (h : ReadOnly x) : Within R x := by
  intro s a s' hx
  rw [show s' = s from h s _ hx]
  exact refl_of R s

theorem Within.bind {x : Tx σ ε α} {f : α → Tx σ ε β} (hx : Within R x) (hf : ∀ a, Within R (f a)) :
    Within R (x >>= f) := by
  intro s b s'' h
  rw [StateT.run_bind, bind_ok] at h
  obtain ⟨⟨a, s'⟩, ha, h⟩ := h
  exact trans_of R (hx s a s' ha) (hf a s' b s'' h)

theorem Within.pure (a : α) : Within R (pure a : Tx σ ε α) := (ReadOnly.pure a).within

theorem Within.ensure (b : Bool) (e : ε) : Within R (Tx.ensure b e : Tx σ ε Unit) := (ReadOnly.ensure b e).within

theorem Within.require (o : Option α) (e : ε) : Within R (Tx.require o e : Tx σ ε α) := (ReadOnly.require o e).within

theorem Within.read (f : σ → α) : Within R (Tx.read f : Tx σ ε α) := (ReadOnly.read f).within

end

/-- What follows a transaction that returned runs on what it returned. -/
theorem run_bind_of_ok {x : Tx σ ε α} {f : α → Tx σ ε β} {s s' : σ} {a : α} (h : x.run s = .ok (a, s')) :
    (x >>= f).run s = (f a).run s' := by
  rw [StateT.run_bind, h]; rfl

/-- What follows a read runs on what it read. -/
theorem run_read_bind {f : σ → α} {g : α → Tx σ ε β} {s : σ} : (read f >>= g).run s = (g (f s)).run s := rfl

/-- Transactions whose first steps agree and whose continuations agree wherever that step returns. -/
theorem bind_congr {x y : Tx σ ε α} {f g : α → Tx σ ε β} {s : σ} (hx : x.run s = y.run s)
    (h : ∀ a s', x.run s = .ok (a, s') → (f a).run s' = (g a).run s') : (x >>= f).run s = (y >>= g).run s := by
  rw [StateT.run_bind, StateT.run_bind, ← hx]
  cases hr : x.run s with
  | error e => rfl
  | ok r => exact h r.1 r.2 hr

/-! ## Invariants of transactions -/

/-- Whenever the transaction returns, it keeps `I`. -/
def Keeps (I : σ → Prop) (x : Tx σ ε α) : Prop := ∀ s a s', I s → x.run s = .ok (a, s') → I s'

theorem Keeps.commit {I : σ → Prop} {x : Tx σ ε α} (h : Keeps I x) {s : σ} (hs : I s) : I (commit x s).2 := by
  unfold Tx.commit
  split
  · next a s' hx => exact h s a s' hs hx
  · exact hs

/-- An invariant kept by every step holds in every state a run reaches. -/
theorem inv_of_steps {step : σ → σ → Prop} {I : σ → Prop} (hstep : ∀ s s', I s → step s s' → I s')
    {s s' : σ} (hrun : Relation.ReflTransGen step s s') (hs : I s) : I s' := by
  induction hrun with
  | refl => exact hs
  | tail _ h ih => exact hstep _ _ ih h

end Tx

end AgentHub.Lib
