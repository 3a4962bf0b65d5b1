import AgentHub.Lib.Timed
import Mathlib.Order.Lattice
/-!
# Answering a request once

A cell remembers the answer to one request until the answer expires. A request is worked on only
when the cell holds no live answer; `Timed.live_stays` says that a live answer is then given until it
expires, whatever else happens to the cell.
-/

namespace AgentHub.Lib.Once

/-- The answer `response` to `request`, kept until `expires`. -/
structure Entry (ρ τ T : Type) where
  request : ρ
  response : τ
  expires : T

variable {ρ τ T : Type} [LinearOrder T]

/-- The entry that counts at `now`. -/
def live (now : T) (c : Option (Entry ρ τ T)) : Option (Entry ρ τ T) := c.filter fun e => now < e.expires

theorem live_eq_some {now : T} {c : Option (Entry ρ τ T)} {e : Entry ρ τ T} :
    live now c = some e ↔ c = some e ∧ now < e.expires := by
  cases c with
  | none => simp [live]
  | some e' =>
    simp only [live, Option.filter_some, decide_eq_true_eq, Option.some.injEq]
    constructor
    · intro h
      split at h
      · next hlt => obtain rfl := Option.some.inj h; exact ⟨rfl, hlt⟩
      · cases h
    · rintro ⟨rfl, hlt⟩
      rw [if_pos hlt]

/-- What may happen to a cell at `now`: nothing, a new answer where none was live, or the removal of one
that has expired. -/
inductive Step (now : T) (c : Option (Entry ρ τ T)) : Option (Entry ρ τ T) → Prop
  | keep : Step now c c
  | record (e : Entry ρ τ T) (h : live now c = none) : Step now c (some e)
  | drop (h : live now c = none) : Step now c none

theorem Step.live_stays {now : T} {c c' : Option (Entry ρ τ T)} {e : Entry ρ τ T} (h : Step now c c')
    (hlive : live now c = some e) : live now c' = some e := by
  cases h with
  | keep => exact hlive
  | record _ hnone => rw [hnone] at hlive; cases hlive
  | drop hnone => rw [hnone] at hlive; cases hlive

/-- An entry stays for as long as it is live. -/
theorem stays {t t' : T} {c c' : Option (Entry ρ τ T)} {e : Entry ρ τ T} (h : Timed Step t c t' c') (hc : c = some e)
    (hlt : t' < e.expires) : c' = some e := by
  induction h with
  | refl => exact hc
  | tail _ hle hstep ih =>
    have hlive := hstep.live_stays (live_eq_some.2 ⟨ih (lt_of_le_of_lt hle hlt), hlt⟩)
    exact (live_eq_some.1 hlive).1

end AgentHub.Lib.Once
