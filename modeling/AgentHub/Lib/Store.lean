import AgentHub.Lib.Table
import AgentHub.Lib.Tx
/-!
# Tables inside a transaction

A `TableRef` names one table of a state. Its statements are the keyed ones a repository
issues: select by key, update where, insert. Each has one inversion lemma.
-/

namespace AgentHub.Lib

/-- A table of the state `σ`. -/
structure TableRef (σ : Type) {ρ κ ι : Type} (key : ρ → κ) (uniq : ρ → ι) where
  get : σ → Table ρ key uniq
  set : σ → Table ρ key uniq → σ
  get_set : ∀ s t, get (set s t) = t

namespace TableRef

variable {σ ε ρ κ ι : Type} {key : ρ → κ} {uniq : ρ → ι}

/-- `SELECT … WHERE key = k`. -/
def select [DecidableEq κ] (T : TableRef σ key uniq) (k : κ) : Tx σ ε (Option ρ) := Tx.read fun s => (T.get s).get? k

/-- `UPDATE … SET f WHERE p`, with the number of rows changed. -/
def update (T : TableRef σ key uniq) (p : ρ → Bool) (f : ρ → ρ) (hk : ∀ r, key (f r) = key r)
    (hu : ∀ r, uniq (f r) = uniq r) : Tx σ ε Nat := fun s =>
  .ok ((T.get s).count p, T.set s ((T.get s).update p f hk hu))

/-- `DELETE … WHERE p`, with the number of rows removed. -/
def delete (T : TableRef σ key uniq) (p : ρ → Bool) : Tx σ ε Nat := fun s =>
  .ok ((T.get s).count p, T.set s ((T.get s).delete p))

/-- `UPDATE … WHERE key = k AND g` that must change its row, else raise `e`. -/
def cas [DecidableEq κ] (T : TableRef σ key uniq) (k : κ) (g : ρ → Bool) (f : ρ → ρ) (hk : ∀ r, key (f r) = key r)
    (hu : ∀ r, uniq (f r) = uniq r) (e : ε) : Tx σ ε Unit := do
  let changed ← T.update (fun r => decide (key r = k) && g r) f hk hu
  Tx.ensure (changed = 1) e

/-- `INSERT`, raising `e` when a unique column already holds the value. -/
def insert [DecidableEq κ] [DecidableEq ι] (T : TableRef σ key uniq) (r : ρ) (e : ε) : Tx σ ε Unit := fun s =>
  match (T.get s).insert r with
  | some t => .ok ((), T.set s t)
  | none => .error e

@[simp] theorem select_ok [DecidableEq κ] {T : TableRef σ key uniq} {k : κ} {s : σ} {r : Option ρ × σ} :
    (T.select k : Tx σ ε (Option ρ)).run s = .ok r ↔ r = ((T.get s).get? k, s) := Tx.read_ok

@[simp] theorem update_ok {T : TableRef σ key uniq} {p f hk hu} {s : σ} {r : Nat × σ} :
    (T.update p f hk hu : Tx σ ε Nat).run s = .ok r ↔
      r = ((T.get s).count p, T.set s ((T.get s).update p f hk hu)) := by
  simp [update, StateT.run, eq_comm]

@[simp] theorem delete_ok {T : TableRef σ key uniq} {p : ρ → Bool} {s : σ} {r : Nat × σ} :
    (T.delete p : Tx σ ε Nat).run s = .ok r ↔ r = ((T.get s).count p, T.set s ((T.get s).delete p)) := by
  simp [delete, StateT.run, eq_comm]

@[simp] theorem cas_ok [DecidableEq κ] {T : TableRef σ key uniq} {k : κ} {g f hk hu} {e : ε} {s : σ}
    {r : Unit × σ} :
    (T.cas k g f hk hu e).run s = .ok r ↔ (∃ row, (T.get s).get? k = some row ∧ g row = true) ∧
      r = ((), T.set s ((T.get s).update (fun r => decide (key r = k) && g r) f hk hu)) := by
  rw [← Table.count_key_eq_one]
  simp [cas]

/-- A guarded update by key that returned is the plain update. -/
theorem cas_update [DecidableEq κ] {T : TableRef σ key uniq} {k : κ} {g f hk hu} {e : ε} {s s' : σ} {u : Unit}
    (h : (T.cas k g f hk hu e).run s = .ok (u, s')) :
    ∃ n, (T.update (fun r => decide (key r = k) && g r) f hk hu : Tx σ ε Nat).run s = .ok (n, s') := by
  obtain ⟨-, hs⟩ := cas_ok.1 h
  exact ⟨_, update_ok.2 (by rw [(Prod.mk.inj hs).2])⟩

/-- An update by key whose row passes the guard is the guarded one. -/
theorem update_cas [DecidableEq κ] {T : TableRef σ key uniq} {k : κ} {g f hk hu} {e : ε} {s s' : σ} {n : Nat} {row : ρ}
    (h : (T.update (fun r => decide (key r = k) && g r) f hk hu : Tx σ ε Nat).run s = .ok (n, s'))
    (hrow : (T.get s).get? k = some row) (hg : g row = true) :
    (T.cas k g f hk hu e).run s = .ok ((), s') :=
  cas_ok.2 ⟨⟨row, hrow, hg⟩, by rw [(Prod.mk.inj (update_ok.1 h)).2]⟩

/-- A guarded update by key writes the row of that key and no other. -/
theorem cas_writes [DecidableEq κ] {T : TableRef σ key uniq} {k : κ} {g f hk hu} {e : ε} {s s' : σ} {u : Unit}
    (h : (T.cas k g f hk hu e).run s = .ok (u, s')) :
    ∃ row, (T.get s).get? k = some row ∧ g row = true ∧ (T.get s').get? k = some (f row) ∧
      ∀ k', k' ≠ k → (T.get s').get? k' = (T.get s).get? k' := by
  obtain ⟨⟨row, hrow, hg⟩, hs⟩ := cas_ok.1 h
  simp only [Prod.mk.injEq] at hs
  obtain ⟨-, rfl⟩ := hs
  refine ⟨row, hrow, hg, ?_, fun k' hk' => by rw [T.get_set, Table.get?_update_ne hk']⟩
  rw [T.get_set, Table.get?_update_self hrow, if_pos hg]

theorem cas_error [DecidableEq κ] {T : TableRef σ key uniq} {k : κ} {g f hk hu} {e : ε} {s : σ}
    (h : ¬ ∃ row, (T.get s).get? k = some row ∧ g row = true) : (T.cas k g f hk hu e).run s = .error e := by
  rw [← Table.count_key_eq_one] at h
  simp [cas, update, Tx.ensure, StateT.run, bind, StateT.bind, Except.bind, h]

theorem cas_raises [DecidableEq κ] {T : TableRef σ key uniq} {k : κ} {g f hk hu} {e : ε} {P : ε → Prop} (he : P e) :
    Tx.Raises P (T.cas k g f hk hu e) := by
  refine .bind ?_ fun _ => .ensure he
  intro s e' h
  cases h

@[simp] theorem insert_ok [DecidableEq κ] [DecidableEq ι] {T : TableRef σ key uniq} {row : ρ} {e : ε} {s : σ}
    {r : Unit × σ} :
    (T.insert row e).run s = .ok r ↔ ∃ t, (T.get s).insert row = some t ∧ r = ((), T.set s t) := by
  unfold insert
  simp only [StateT.run]
  cases h : (T.get s).insert row with
  | none => simp
  | some t => simp [eq_comm]

/-! ## Statements that stay within a relation -/

section
variable {R : σ → σ → Prop} {T : TableRef σ key uniq}

theorem update_within (hset : ∀ s t, R s (T.set s t)) {p f hk hu} : Tx.Within R (T.update p f hk hu : Tx σ ε Nat) := by
  intro s a s' h
  rw [update_ok, Prod.mk.injEq] at h
  rw [h.2]
  exact hset _ _

theorem cas_within [DecidableEq κ] (hset : ∀ s t, R s (T.set s t)) {k : κ} {g f hk hu} {e : ε} :
    Tx.Within R (T.cas k g f hk hu e) := by
  intro s a s' h
  obtain ⟨-, hs⟩ := cas_ok.1 h
  rw [(Prod.mk.inj hs).2]
  exact hset _ _

theorem insert_within [DecidableEq κ] [DecidableEq ι] (hset : ∀ s t, R s (T.set s t)) {row : ρ} {e : ε} :
    Tx.Within R (T.insert row e) := by
  intro s a s' h
  obtain ⟨t, -, hs⟩ := insert_ok.1 h
  rw [(Prod.mk.inj hs).2]
  exact hset _ _

theorem select_within [DecidableEq κ] [IsPreorder σ R] (k : κ) : Tx.Within R (T.select k : Tx σ ε (Option ρ)) :=
  Tx.Within.read _

/-- What follows a select by key may use that the row it found has the key. -/
theorem selected_within [DecidableEq κ] {α : Type} {k : κ} {f : Option ρ → Tx σ ε α}
    (hf : ∀ o, (∀ r, o = some r → key r = k) → Tx.Within R (f o)) : Tx.Within R (T.select k >>= f) := by
  intro s a s' h
  rw [StateT.run_bind, Tx.bind_ok] at h
  obtain ⟨_, hr, h⟩ := h
  obtain rfl := select_ok.1 hr
  exact hf _ (fun r hr => Table.get?_key hr) _ _ _ h

end

end TableRef

end AgentHub.Lib
