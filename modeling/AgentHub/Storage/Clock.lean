import AgentHub.Lib.Calendar
import AgentHub.Lib.FixedWidth
/-!
# Clock readings and their text

The database stores every time as fixed-width UTC text and compares it as text.
`utcNowText_strictMono` is why that is sound: the text of a later instant is the larger one.
-/

namespace AgentHub

open Lib

/-- The first microsecond after the year 9999. -/
def maxMicros : Nat := 3652059 * 86400000000

/-- A UTC clock reading: microseconds since the start of the year 1, within the years a `datetime` holds. -/
structure Instant where
  micros : Nat
  bound : micros < maxMicros
  deriving DecidableEq

/-- The first readings are within the years. -/
theorem zero_lt_maxMicros : 0 < maxMicros := by decide

theorem one_lt_maxMicros : 1 < maxMicros := by decide

namespace Instant

instance : LE Instant := ⟨fun a b => a.micros ≤ b.micros⟩

instance (a b : Instant) : Decidable (a ≤ b) := inferInstanceAs (Decidable (a.micros ≤ b.micros))

instance : Preorder Instant where
  le_refl a := Nat.le_refl a.micros
  le_trans _ _ _ := Nat.le_trans

/-- `now + timedelta(seconds=ttl)`; `none` past the last year. -/
def addSeconds (now : Instant) (ttl : Nat) : Option Instant :=
  if h : now.micros + ttl * 1000000 < maxMicros then some ⟨now.micros + ttl * 1000000, h⟩ else none

theorem addSeconds_eq_some {now later : Instant} {ttl : Nat} (h : now.addSeconds ttl = some later) :
    later.micros = now.micros + ttl * 1000000 := by
  unfold addSeconds at h
  split at h
  · simp only [Option.some.injEq] at h; rw [← h]
  · simp at h

end Instant

/-- The fields of `%Y-%m-%dT%H:%M:%S.%fZ`. -/
def textFields : List (Nat × Char) :=
  [(4, '-'), (2, '-'), (2, 'T'), (2, ':'), (2, ':'), (2, '.'), (6, 'Z')]

def textValues (now : Instant) : List Nat :=
  let date := Calendar.ofDays (now.micros / 86400000000)
  let rest := now.micros % 86400000000
  [date.year, date.month, date.day, rest / 3600000000, rest / 60000000 % 60, rest / 1000000 % 60,
    rest % 1000000]

/-- `utc_now_text`: fixed-width UTC text whose lexical order matches time order. -/
def utcNowText (now : Instant) : String := String.ofList (render textFields (textValues now))

/-! ## Order -/

theorem textValues_fits (now : Instant) : Fits textFields (textValues now) := by
  have hb := now.bound
  unfold maxMicros at hb
  have hy : Calendar.yearsBefore (now.micros / 86400000000) < 9999 := by
    have h : Calendar.yearsBefore 3652058 = 9998 := by decide
    have := Calendar.yearsBefore_mono (n := now.micros / 86400000000) (m := 3652058) (by omega)
    omega
  have hd := Calendar.ofDays_bounds (now.micros / 86400000000)
  have hyear : (Calendar.ofDays (now.micros / 86400000000)).year = _ + 1 := rfl
  refine .cons ?_ (.cons ?_ (.cons ?_ (.cons ?_ (.cons ?_ (.cons ?_ (.cons ?_ .nil))))))
  · simp only [hyear]; omega
  all_goals simp only; omega

theorem textValues_lt {a b : Instant} (h : a.micros < b.micros) : textValues a < textValues b := by
  have hmod : a.micros / 86400000000 < b.micros / 86400000000 ∨
      a.micros / 86400000000 = b.micros / 86400000000 ∧ a.micros % 86400000000 < b.micros % 86400000000 := by
    omega
  simp only [textValues, List.cons_lt_cons_iff]
  rcases hmod with hlt | ⟨heq, hlt⟩
  · rcases Calendar.ofDays_lt hlt with h | ⟨hy, h | ⟨hm, h⟩⟩
    · exact .inl h
    · exact .inr ⟨hy, .inl h⟩
    · exact .inr ⟨hy, .inr ⟨hm, .inl h⟩⟩
  · rw [heq]
    generalize a.micros % 86400000000 = x at hlt
    generalize b.micros % 86400000000 = y at hlt
    refine .inr ⟨rfl, .inr ⟨rfl, .inr ⟨rfl, ?_⟩⟩⟩
    have h1 : x / 3600000000 < y / 3600000000 ∨ x / 3600000000 = y / 3600000000 := by omega
    have h2 : x / 60000000 < y / 60000000 ∨ x / 60000000 = y / 60000000 := by omega
    have h3 : x / 1000000 < y / 1000000 ∨ x / 1000000 = y / 1000000 := by omega
    simp only [List.not_lt_nil, and_false, or_false]
    omega

theorem utcNowText_lt {a b : Instant} (h : a.micros < b.micros) : utcNowText a < utcNowText b := by
  rw [String.lt_iff_toList_lt]
  simpa [utcNowText] using render_lt (textValues_fits a) (textValues_fits b) (textValues_lt h)

/-- Comparing the texts is comparing the instants. -/
theorem utcNowText_lt_iff {a b : Instant} : utcNowText a < utcNowText b ↔ a.micros < b.micros := by
  refine ⟨fun h => ?_, utcNowText_lt⟩
  rcases Nat.lt_trichotomy a.micros b.micros with hlt | heq | hgt
  · exact hlt
  · have : a = b := by cases a; cases b; simpa using heq
    exact absurd h (by rw [this]; exact lt_irrefl _)
  · exact absurd (utcNowText_lt hgt) (lt_asymm h)

theorem utcNowText_le_iff {a b : Instant} : utcNowText a ≤ utcNowText b ↔ a.micros ≤ b.micros := by
  rw [← not_lt, utcNowText_lt_iff, Nat.not_lt]

/-- Every stored time has the 27 characters the schema asks for. -/
theorem utcNowText_length (now : Instant) : (utcNowText now).length = 27 := by
  have h := length_render (textValues_fits now)
  simpa [utcNowText, textFields] using h

example : utcNowText ⟨63839664000000001, by decide⟩ = "2024-01-01T00:00:00.000001Z" := by decide

end AgentHub
