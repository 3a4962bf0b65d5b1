import AgentHub.Lib.Fence
/-!
# One holder's lease in a fenced cell

What a holder knows of a cell it once took, while others use the cell too: its lease is in the cell or a larger token has
taken its place (`Tenant`), others change the cell only by taking it (`Foreign`), and a lease that is gone stays gone
whatever the others do.
-/

namespace AgentHub.Lib.Fence

variable {H T : Type} [LinearOrder T] {h : H} {tok : Nat} {t t' now : T} {cell cell' : Option (Cell H T)}

/-- The lease of `h` with token `tok` is in the cell and live. -/
def Held (h : H) (tok : Nat) (t : T) (cell : Option (Cell H T)) : Prop :=
  ∃ c, cell = some c ∧ c.holder = h ∧ c.token = tok ∧ c.Live t

/-- The lease of `h` with token `tok` is in the cell, or a larger token is. -/
def Tenant (h : H) (tok : Nat) (cell : Option (Cell H T)) : Prop :=
  ∃ c, cell = some c ∧ (tok < c.token ∨ c.token = tok ∧ c.holder = h)

/-- What somebody other than `h` does: the cell of `h` stays, or is taken under a larger token. -/
structure Foreign (h : H) (now : T) (cell cell' : Option (Cell H T)) : Prop where
  step : Step now cell cell'
  takes : ∀ c, cell = some c → c.holder = h → cell' = cell ∨ ∃ c', cell' = some c' ∧ c.token < c'.token

theorem Held.tenant (hheld : Held h tok t cell) : Tenant h tok cell := by
  obtain ⟨c, hc, hh, htok, -⟩ := hheld
  exact ⟨c, hc, .inr ⟨htok, hh⟩⟩

theorem Held.mono (hheld : Held h tok t' cell) (hle : t ≤ t') : Held h tok t cell := by
  obtain ⟨c, hc, hh, htok, hlive⟩ := hheld
  exact ⟨c, hc, hh, htok, hlive.mono hle⟩

theorem Lost.mono (hlost : Lost tok t cell) (hle : t ≤ t') : Lost tok t' cell := by
  obtain ⟨c, hc, hlt | ⟨htok, hdead⟩⟩ := hlost
  · exact ⟨c, hc, .inl hlt⟩
  · exact ⟨c, hc, .inr ⟨htok, fun hlive => hdead (hlive.mono hle)⟩⟩

/-- A tenant's lease is live or lost. -/
theorem Tenant.held_or_lost (htenant : Tenant h tok cell) (t : T) : Held h tok t cell ∨ Lost tok t cell := by
  obtain ⟨c, hc, hlt | ⟨htok, hh⟩⟩ := htenant
  · exact .inr ⟨c, hc, .inl hlt⟩
  · by_cases hlive : c.Live t
    · exact .inl ⟨c, hc, hh, htok, hlive⟩
    · exact .inr ⟨c, hc, .inr ⟨htok.symm, hlive⟩⟩

theorem Held.not_lost (hheld : Held h tok t cell) : ¬ Lost tok t cell := by
  obtain ⟨c, hc, -, htok, hlive⟩ := hheld
  rintro ⟨c', hc', hlt | ⟨-, hdead⟩⟩
  · rw [hc] at hc'
    cases hc'
    omega
  · rw [hc] at hc'
    cases hc'
    exact hdead hlive

theorem Tenant.foreign (htenant : Tenant h tok cell) (hstep : Foreign h now cell cell') : Tenant h tok cell' := by
  obtain ⟨c, rfl, hlt | ⟨htok, hh⟩⟩ := htenant
  · obtain ⟨c', hc', hle⟩ := hstep.step.token_le
    exact ⟨c', hc', .inl (Nat.lt_of_lt_of_le hlt hle)⟩
  · rcases hstep.takes c rfl hh with hsame | ⟨c', hc', hlt⟩
    · exact ⟨c, hsame, .inr ⟨htok, hh⟩⟩
    · exact ⟨c', hc', .inl (htok ▸ hlt)⟩

/-- Others do not bring a lost lease back, whatever their clock readings. -/
theorem Lost.foreign (hlost : Lost tok t cell) (htenant : Tenant h tok cell) (hstep : Foreign h now cell cell') :
    Lost tok t cell' := by
  obtain ⟨c, rfl, hcase⟩ := hlost
  obtain ⟨d, hd, hdcase⟩ := htenant
  obtain rfl := Option.some.inj hd
  rcases hcase with hlt | ⟨htok, hdead⟩
  · obtain ⟨c', hc', hle⟩ := hstep.step.token_le
    exact ⟨c', hc', .inl (Nat.lt_of_lt_of_le hlt hle)⟩
  · have hh : c.holder = h := (hdcase.resolve_left (by omega)).2
    rcases hstep.takes c rfl hh with hsame | ⟨c', hc', hlt⟩
    · exact ⟨c, hsame, .inr ⟨htok, hdead⟩⟩
    · exact ⟨c', hc', .inl (htok ▸ hlt)⟩

end AgentHub.Lib.Fence
