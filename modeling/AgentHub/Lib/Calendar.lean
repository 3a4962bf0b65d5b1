import Mathlib.Tactic.Common
import Mathlib.Order.Monotone.Basic
/-!
# The proleptic Gregorian calendar

Day numbers count from 0001-01-01. `ofDays` computes the date of a day number by the
usual division into 400, 100, 4 and 1 year cycles; `ofDays_lt` says that dates come in the
order of their day numbers.
-/

namespace AgentHub.Lib.Calendar

/-- Whether the year `z + 1` has 366 days. -/
def isLeap (z : Nat) : Bool := (z + 1) % 4 = 0 ∧ ((z + 1) % 100 ≠ 0 ∨ (z + 1) % 400 = 0)

def leapDay (z : Nat) : Nat := if isLeap z then 1 else 0

/-- Days before the year `z + 1`. -/
def daysBeforeYear (z : Nat) : Nat := 365 * z + z / 4 - z / 100 + z / 400

/-- Days of the year before a month, for `leap` extra days in February; month 13 is the next year. -/
def daysBeforeMonth (leap : Nat) : Nat → Nat
  | 0 => 0
  | 1 => 0
  | 2 => 31
  | 3 => 59 + leap
  | 4 => 90 + leap
  | 5 => 120 + leap
  | 6 => 151 + leap
  | 7 => 181 + leap
  | 8 => 212 + leap
  | 9 => 243 + leap
  | 10 => 273 + leap
  | 11 => 304 + leap
  | 12 => 334 + leap
  | _ => 365 + leap

/-- The last month up to `m` that starts by the day `d` of a year. -/
def monthUpTo (leap d : Nat) : Nat → Nat
  | 0 => 0
  | m + 1 => if daysBeforeMonth leap (m + 1) ≤ d then m + 1 else monthUpTo leap d m

/-- The month that holds the day `d` of a year. -/
def monthOf (leap d : Nat) : Nat := monthUpTo leap d 12

/-- Years completed before day `n`. -/
def yearsBefore (n : Nat) : Nat :=
  let r := n % 146097
  let n100 := min 3 (r / 36524)
  let r := r - n100 * 36524
  let n4 := r / 1461
  let r := r % 1461
  400 * (n / 146097) + 100 * n100 + 4 * n4 + min 3 (r / 365)

structure Date where
  year : Nat
  month : Nat
  day : Nat
  deriving DecidableEq, Repr

/-- The date of day `n`, with year, month and day counted from 1. -/
def ofDays (n : Nat) : Date :=
  let z := yearsBefore n
  let d := n - daysBeforeYear z
  let m := monthOf (leapDay z) d
  ⟨z + 1, m, d - daysBeforeMonth (leapDay z) m + 1⟩

/-! ## Order -/

theorem daysBeforeYear_succ (z : Nat) : daysBeforeYear (z + 1) = daysBeforeYear z + 365 + leapDay z := by
  have h100 : 100 ∣ z + 1 → 4 ∣ z + 1 := Nat.dvd_trans (by decide)
  have h400 : 400 ∣ z + 1 → 100 ∣ z + 1 := Nat.dvd_trans (by decide)
  have hle : z / 100 ≤ z := Nat.div_le_self z 100
  unfold daysBeforeYear leapDay isLeap
  simp only [Nat.succ_div, ← Nat.dvd_iff_mod_eq_zero, decide_eq_true_eq, ne_eq]
  by_cases h4 : 4 ∣ z + 1
  · by_cases hc : 100 ∣ z + 1
    · by_cases hq : 400 ∣ z + 1 <;> simp only [h4, hc, hq, if_true, if_false] <;> simp <;> omega
    · have hq : ¬ 400 ∣ z + 1 := fun h => hc (h400 h)
      simp only [h4, hc, hq, if_true, if_false]; simp; omega
  · have hc : ¬ 100 ∣ z + 1 := fun h => h4 (h100 h)
    have hq : ¬ 400 ∣ z + 1 := fun h => hc (h400 h)
    simp only [h4, hc, hq, if_false]; simp; omega

theorem daysBeforeYear_mono {a b : Nat} (h : a ≤ b) : daysBeforeYear a ≤ daysBeforeYear b := by
  induction h with
  | refl => exact Nat.le_refl _
  | step _ ih => rw [daysBeforeYear_succ]; omega

/-- The days before a year, from its place in the 400, 100 and 4 year cycles. -/
theorem daysBeforeYear_cycles {q a b c : Nat} (ha : a ≤ 3) (hb : b ≤ 24) (hc : c ≤ 3) :
    daysBeforeYear (400 * q + 100 * a + 4 * b + c) = 146097 * q + 36524 * a + 1461 * b + 365 * c := by
  have h400 : (400 * q + 100 * a + 4 * b + c) / 400 = q := by omega
  have h100 : (400 * q + 100 * a + 4 * b + c) / 100 = 4 * q + a := by omega
  have h4 : (400 * q + 100 * a + 4 * b + c) / 4 = 100 * q + 25 * a + b := by omega
  unfold daysBeforeYear
  rw [h400, h100, h4]
  omega

/-- The last year of a four year cycle has its leap day, unless it ends a century that is not the fourth. -/
theorem leapDay_cycles {q a b : Nat} (hb : b ≤ 24) (h : b < 24 ∨ a = 3) :
    leapDay (400 * q + 100 * a + 4 * b + 3) = 1 := by
  have h4 : (400 * q + 100 * a + 4 * b + 3 + 1) % 4 = 0 := by omega
  have h100 : (400 * q + 100 * a + 4 * b + 3 + 1) % 100 ≠ 0 ∨ (400 * q + 100 * a + 4 * b + 3 + 1) % 400 = 0 := by
    omega
  simp [leapDay, isLeap, h4, h100]

/-- Day `n` lies in the year after `yearsBefore n`. -/
theorem yearsBefore_spec (n : Nat) :
    daysBeforeYear (yearsBefore n) ≤ n ∧ n < daysBeforeYear (yearsBefore n + 1) := by
  obtain ⟨q, hq⟩ : ∃ q, q = n / 146097 := ⟨_, rfl⟩
  obtain ⟨r, hr⟩ : ∃ r, r = n % 146097 := ⟨_, rfl⟩
  obtain ⟨a, ha⟩ : ∃ a, a = min 3 (r / 36524) := ⟨_, rfl⟩
  obtain ⟨s, hs⟩ : ∃ s, s = r - a * 36524 := ⟨_, rfl⟩
  obtain ⟨b, hb⟩ : ∃ b, b = s / 1461 := ⟨_, rfl⟩
  obtain ⟨t, ht⟩ : ∃ t, t = s % 1461 := ⟨_, rfl⟩
  obtain ⟨c, hc⟩ : ∃ c, c = min 3 (t / 365) := ⟨_, rfl⟩
  have hz : yearsBefore n = 400 * q + 100 * a + 4 * b + c := by
    simp only [yearsBefore, ← hr, ← hq, ← ha, ← hs, ← hb, ← ht, ← hc]
  have hn : n = 146097 * q + r := by omega
  have hrs : r = 36524 * a + s := by omega
  have hst : s = 1461 * b + t := by omega
  have hslt : s < 36524 ∨ a = 3 ∧ s ≤ 36524 := by omega
  have ha3 : a ≤ 3 := by omega
  have hb24 : b ≤ 24 := by omega
  have hc3 : c ≤ 3 := by omega
  rw [hz, daysBeforeYear_succ, daysBeforeYear_cycles ha3 hb24 hc3]
  refine ⟨by omega, ?_⟩
  by_cases hlast : t = 1460
  · have hcl : c = 3 := by omega
    rw [hcl, leapDay_cycles hb24 (by omega)]
    omega
  · omega

theorem yearsBefore_mono {n m : Nat} (h : n ≤ m) : yearsBefore n ≤ yearsBefore m := by
  by_contra hlt
  have h1 := daysBeforeYear_mono (Nat.lt_of_not_le hlt)
  have h2 := (yearsBefore_spec n).1
  have h3 := (yearsBefore_spec m).2
  simp only [Nat.succ_eq_add_one] at h1
  omega

/-- The day of the year is below the length of its year. -/
theorem dayOfYear_lt (n : Nat) : n - daysBeforeYear (yearsBefore n) < 365 + leapDay (yearsBefore n) := by
  have h := yearsBefore_spec n
  rw [daysBeforeYear_succ] at h
  omega

theorem daysBeforeMonth_mono (leap : Nat) : Monotone (daysBeforeMonth leap) := by
  refine monotone_nat_of_le_succ fun m => ?_
  match m with
  | 0 | 1 | 2 | 3 | 4 | 5 | 6 | 7 | 8 | 9 | 10 | 11 | 12 => simp only [daysBeforeMonth]; omega
  | m + 13 => exact Nat.le_refl _

/-- No month is longer than 31 days. -/
theorem daysBeforeMonth_succ_le {leap : Nat} (hl : leap ≤ 1) (m : Nat) :
    daysBeforeMonth leap (m + 1) ≤ daysBeforeMonth leap m + 31 := by
  match m with
  | 0 | 1 | 2 | 3 | 4 | 5 | 6 | 7 | 8 | 9 | 10 | 11 | 12 => simp only [daysBeforeMonth]; omega
  | m + 13 => simp [daysBeforeMonth]

theorem leapDay_le (z : Nat) : leapDay z ≤ 1 := by
  unfold leapDay
  split <;> omega

theorem monthUpTo_le (leap d m : Nat) : monthUpTo leap d m ≤ m := by
  induction m with
  | zero => exact Nat.le_refl _
  | succ m ih => unfold monthUpTo; split <;> omega

theorem monthUpTo_spec (leap d : Nat) :
    ∀ m, 1 ≤ m → d < daysBeforeMonth leap (m + 1) →
      daysBeforeMonth leap (monthUpTo leap d m) ≤ d ∧ d < daysBeforeMonth leap (monthUpTo leap d m + 1) := by
  intro m
  induction m with
  | zero => intro h; omega
  | succ m ih =>
    intro _ hd
    unfold monthUpTo
    by_cases hm : daysBeforeMonth leap (m + 1) ≤ d
    · rw [if_pos hm]; exact ⟨hm, hd⟩
    · rw [if_neg hm]
      match m with
      | 0 => simp [daysBeforeMonth] at hm
      | m + 1 => exact ih (by omega) (by omega)

theorem monthOf_spec (leap d : Nat) (hd : d < 365 + leap) :
    daysBeforeMonth leap (monthOf leap d) ≤ d ∧ d < daysBeforeMonth leap (monthOf leap d + 1) :=
  monthUpTo_spec leap d 12 (by omega) hd

theorem monthOf_mono {leap d e : Nat} (he : e < 365 + leap) (h : d ≤ e) : monthOf leap d ≤ monthOf leap e := by
  by_contra hlt
  have h1 := daysBeforeMonth_mono leap (Nat.lt_of_not_le hlt)
  have h2 := (monthOf_spec leap d (by omega)).1
  have h3 := (monthOf_spec leap e he).2
  simp only [Nat.succ_eq_add_one] at h1
  omega

/-- Months run to 12 and days to 31. -/
theorem ofDays_bounds (n : Nat) : (ofDays n).month ≤ 12 ∧ (ofDays n).day ≤ 31 := by
  have hm := monthUpTo_le (leapDay (yearsBefore n)) (n - daysBeforeYear (yearsBefore n)) 12
  have hs := monthOf_spec _ _ (dayOfYear_lt n)
  have hl := daysBeforeMonth_succ_le (leapDay_le (yearsBefore n))
    (monthOf (leapDay (yearsBefore n)) (n - daysBeforeYear (yearsBefore n)))
  refine ⟨hm, ?_⟩
  simp only [ofDays]
  omega

/-- Dates come in the order of their day numbers, year before month before day. -/
theorem ofDays_lt {n m : Nat} (h : n < m) :
    (ofDays n).year < (ofDays m).year ∨
      (ofDays n).year = (ofDays m).year ∧ ((ofDays n).month < (ofDays m).month ∨
        (ofDays n).month = (ofDays m).month ∧ (ofDays n).day < (ofDays m).day) := by
  have hy := yearsBefore_mono (Nat.le_of_lt h)
  rcases Nat.lt_or_eq_of_le hy with hy | hy
  · exact .inl (by simpa [ofDays] using hy)
  · have hn := (yearsBefore_spec n).1
    have hm := dayOfYear_lt m
    have hd : n - daysBeforeYear (yearsBefore n) < m - daysBeforeYear (yearsBefore m) := by
      rw [hy] at hn ⊢; omega
    refine .inr ⟨by simp [ofDays, hy], ?_⟩
    have hmo := monthOf_mono (d := n - daysBeforeYear (yearsBefore n)) hm (by omega)
    rcases Nat.lt_or_eq_of_le hmo with hmo | hmo
    · exact .inl (by simpa [ofDays, hy] using hmo)
    · refine .inr ⟨by simpa [ofDays, hy] using hmo, ?_⟩
      have h1 := (monthOf_spec _ _ (dayOfYear_lt n)).1
      have h2 := (monthOf_spec _ _ (dayOfYear_lt m)).1
      simp only [ofDays, hy] at h1 h2 hmo hd ⊢
      rw [hmo] at h1 ⊢
      omega

end AgentHub.Lib.Calendar
