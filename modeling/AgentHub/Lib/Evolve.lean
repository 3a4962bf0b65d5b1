import AgentHub.Lib.Store
/-!
# How the rows of a table change

`Evolves R fresh t t'`: the rows of `t` are still in `t'`, each moved by `R`, and the others came in as
fresh rows. Updates and inserts are its steps; an invariant of rows is carried along by `Evolves.inv`.
-/

namespace AgentHub.Lib

section
variable {ρ κ ι : Type} {key : ρ → κ} {uniq : ρ → ι} [DecidableEq κ] {R : ρ → ρ → Prop} {fresh : ρ → Prop}

structure Evolves (R : ρ → ρ → Prop) (fresh : ρ → Prop) (t t' : Table ρ key uniq) : Prop where
  kept : ∀ k r, t.get? k = some r → ∃ r', t'.get? k = some r' ∧ R r r'
  added : ∀ k r', t.get? k = none → t'.get? k = some r' → ∃ r, fresh r ∧ R r r'

namespace Evolves

theorem refl [IsPreorder ρ R] (t : Table ρ key uniq) : Evolves R fresh t t where
  kept _ r h := ⟨r, h, refl_of R r⟩
  added k r' hnone hsome := by rw [hnone] at hsome; cases hsome

theorem of_eq [IsPreorder ρ R] {t t' : Table ρ key uniq} (h : t' = t) : Evolves R fresh t t' := by
  rw [h]
  exact refl t

theorem trans [IsPreorder ρ R] {a b c : Table ρ key uniq} (h : Evolves R fresh a b) (h' : Evolves R fresh b c) :
    Evolves R fresh a c where
  kept k r hr := by
    obtain ⟨r', hr', hR⟩ := h.kept k r hr
    obtain ⟨r'', hr'', hR'⟩ := h'.kept k r' hr'
    exact ⟨r'', hr'', trans_of R hR hR'⟩
  added k r'' hnone hr'' := by
    cases hb : b.get? k with
    | none => exact h'.added k r'' hb hr''
    | some r' =>
      obtain ⟨r, hfresh, hR⟩ := h.added k r' hnone hb
      obtain ⟨x, hx, hR'⟩ := h'.kept k r' hb
      rw [hr''] at hx
      cases hx
      exact ⟨r, hfresh, trans_of R hR hR'⟩

/-- An update moves the rows it writes. -/
theorem update [IsPreorder ρ R] (t : Table ρ key uniq) {p : ρ → Bool} {f : ρ → ρ} {hk hu}
    (h : ∀ r ∈ t.rows, p r = true → R r (f r)) : Evolves R fresh t (t.update p f hk hu) where
  kept k r hr := by
    refine ⟨if p r then f r else r, by rw [Table.get?_update, hr]; rfl, ?_⟩
    split
    · next hp => exact h r (Table.mem_of_get? hr) hp
    · exact refl_of R r
  added k r' hnone hr' := by
    rw [Table.get?_update, hnone] at hr'
    cases hr'

/-- An update by key moves the row of that key. -/
theorem updateKey [IsPreorder ρ R] {t : Table ρ key uniq} {k : κ} {row : ρ} {g : ρ → Bool} {f : ρ → ρ} {hk hu}
    (hrow : t.get? k = some row) (h : R row (f row)) :
    Evolves R fresh t (t.update (fun r => decide (key r = k) && g r) f hk hu) := by
  refine update t fun r hmem hr => ?_
  have hget := Table.get?_of_mem hmem
  rw [of_decide_eq_true (Bool.and_eq_true_iff.1 hr).1, hrow] at hget
  cases hget
  exact h

/-- An insert adds a fresh row. -/
theorem insert [IsPreorder ρ R] [DecidableEq ι] {t t' : Table ρ key uniq} {row : ρ} (h : t.insert row = some t')
    (hfresh : fresh row) : Evolves R fresh t t' where
  kept k r hr := by
    refine ⟨r, ?_, refl_of R r⟩
    rw [Table.get?_insert h, if_neg, hr]
    rintro rfl
    rw [(Table.insert_eq_some h).2.1] at hr
    cases hr
  added k r' hnone hr' := by
    rw [Table.get?_insert h] at hr'
    split at hr'
    · cases hr'
      exact ⟨row, hfresh, refl_of R row⟩
    · rw [hnone] at hr'
      cases hr'

theorem mono {R' : ρ → ρ → Prop} {fresh' : ρ → Prop} {t t' : Table ρ key uniq} (h : Evolves R fresh t t')
    (hR : ∀ r r', R r r' → R' r r') (hfresh : ∀ r, fresh r → fresh' r) : Evolves R' fresh' t t' where
  kept k r hr := by
    obtain ⟨r', hr', hrr⟩ := h.kept k r hr
    exact ⟨r', hr', hR _ _ hrr⟩
  added k r' hnone hr' := by
    obtain ⟨r, hr, hrr⟩ := h.added k r' hnone hr'
    exact ⟨r, hfresh r hr, hR _ _ hrr⟩

/-- A row was there before, or came in fresh. -/
theorem origin {t t' : Table ρ key uniq} (h : Evolves R fresh t t') {r' : ρ} (hr' : r' ∈ t'.rows) :
    (∃ r ∈ t.rows, R r r') ∨ ∃ r, fresh r ∧ R r r' := by
  have hget := Table.get?_of_mem hr'
  cases hold : t.get? (key r') with
  | none => exact .inr (h.added _ _ hold hget)
  | some r =>
    obtain ⟨x, hx, hrr⟩ := h.kept _ _ hold
    rw [hget] at hx
    cases hx
    exact .inl ⟨r, Table.mem_of_get? hold, hrr⟩

/-- A row that is there stays. -/
theorem keeps {t t' : Table ρ key uniq} (h : Evolves R fresh t t') {r : ρ} (hr : r ∈ t.rows) : ∃ r' ∈ t'.rows, R r r' := by
  obtain ⟨r', hr', hrr⟩ := h.kept _ _ (Table.get?_of_mem hr)
  exact ⟨r', Table.mem_of_get? hr', hrr⟩

/-- What fresh rows satisfy and moves keep holds of every row, if it did before. -/
theorem inv {I : ρ → Prop} {t t' : Table ρ key uniq} (h : Evolves R fresh t t') (hI : ∀ r ∈ t.rows, I r)
    (hfresh : ∀ r, fresh r → I r) (hR : ∀ r r', R r r' → I r → I r') : ∀ r ∈ t'.rows, I r := by
  intro r' hr'
  rcases h.origin hr' with ⟨r, hr, hrr⟩ | ⟨r, hr, hrr⟩
  · exact hR _ _ hrr (hI r hr)
  · exact hR _ _ hrr (hfresh r hr)

end Evolves

end

end AgentHub.Lib
