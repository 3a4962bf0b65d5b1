import Mathlib.Data.Nat.Digits.Defs
import Mathlib.Data.String.Basic
import Mathlib.Tactic.Common
import Mathlib.Tactic.IntervalCases
/-!
# Fixed-width decimal text

Numbers written with a fixed number of digits sort as text the way they sort as
numbers. `digits_lt_iff` says so for one field, `render_lt` for a text made of several
fields with fixed separators.
-/

namespace AgentHub.Lib

/-- The last `w` decimal digits of `n`, most significant first. -/
def digits : Nat → Nat → List Char
  | 0, _ => []
  | w + 1, n => digits w (n / 10) ++ [Nat.digitChar (n % 10)]

@[simp] theorem length_digits (w n : Nat) : (digits w n).length = w := by
  induction w generalizing n with
  | zero => rfl
  | succ w ih => simp [digits, ih]

theorem digitChar_lt {a b : Nat} (ha : a < 10) (hb : b < 10) : Nat.digitChar a < Nat.digitChar b ↔ a < b := by
  interval_cases a <;> interval_cases b <;> decide

theorem digitChar_inj {a b : Nat} (ha : a < 10) (hb : b < 10) (h : Nat.digitChar a = Nat.digitChar b) : a = b := by
  have hab := (digitChar_lt ha hb).not
  have hba := (digitChar_lt hb ha).not
  rw [h] at hab hba
  have h1 := hab.1 (by simp)
  have h2 := hba.1 (by simp)
  omega

/-! ## Text order -/

/-- Texts of equal first length compare by their first parts, then by their second. -/
theorem append_lt_append_iff {a a' b b' : List Char} (h : a.length = a'.length) :
    a ++ b < a' ++ b' ↔ a < a' ∨ a = a' ∧ b < b' := by
  induction a generalizing a' with
  | nil =>
    cases a' with
    | nil => simp
    | cons c a' => simp at h
  | cons c a ih =>
    cases a' with
    | nil => simp at h
    | cons c' a' =>
      have hl : a.length = a'.length := by simpa using h
      simp only [List.cons_append, List.cons_lt_cons_iff, ih hl, List.cons.injEq]
      tauto

/-- The same character put in front does not change the order. -/
theorem cons_lt_cons_same {c : Char} {l l' : List Char} : c :: l < c :: l' ↔ l < l' := by simp

theorem digits_inj {w a b : Nat} (ha : a < 10 ^ w) (hb : b < 10 ^ w) (h : digits w a = digits w b) : a = b := by
  induction w generalizing a b with
  | zero => simp at ha hb; omega
  | succ w ih =>
    have hp : 10 ^ (w + 1) = 10 ^ w * 10 := pow_succ 10 w
    obtain ⟨h1, h2⟩ := List.append_inj h (by simp)
    have hd := ih (by omega) (by omega) h1
    have hm := digitChar_inj (Nat.mod_lt a (by omega)) (Nat.mod_lt b (by omega)) (by simpa using h2)
    omega

theorem digits_lt_iff {w a b : Nat} (ha : a < 10 ^ w) (hb : b < 10 ^ w) :
    digits w a < digits w b ↔ a < b := by
  induction w generalizing a b with
  | zero => simp at ha hb; subst ha hb; simp [digits]
  | succ w ih =>
    have hp : 10 ^ (w + 1) = 10 ^ w * 10 := pow_succ 10 w
    have ha' : a / 10 < 10 ^ w := by omega
    have hb' : b / 10 < 10 ^ w := by omega
    have hm : ∀ n, n % 10 < 10 := fun n => Nat.mod_lt n (by omega)
    rw [digits, digits, append_lt_append_iff (by simp), ih ha' hb', List.cons_lt_cons_iff,
      digitChar_lt (hm a) (hm b)]
    constructor
    · rintro (h | ⟨h, h' | ⟨-, h'⟩⟩)
      · omega
      · have := digits_inj ha' hb' h
        omega
      · exact absurd h' (by simp)
    · intro h
      rcases Nat.lt_or_ge (a / 10) (b / 10) with hd | hd
      · exact .inl hd
      · have heq : a / 10 = b / 10 := by omega
        exact .inr ⟨by rw [heq], .inl (by omega)⟩

/-! ## Texts of several fields -/

/-- Write values in fields, each given by its width and the character that follows it. -/
def render : List (Nat × Char) → List Nat → List Char
  | (w, c) :: fs, v :: vs => digits w v ++ c :: render fs vs
  | _, _ => []

/-- Every value fits its field. -/
def Fits (fs : List (Nat × Char)) (vs : List Nat) : Prop := List.Forall₂ (fun f v => v < 10 ^ f.1) fs vs

/-- Values in lexicographic order are rendered in text order. -/
theorem render_lt {fs : List (Nat × Char)} {vs vs' : List Nat} (h : Fits fs vs) (h' : Fits fs vs')
    (hlt : vs < vs') : render fs vs < render fs vs' := by
  induction h generalizing vs' with
  | nil => cases h'; simp at hlt
  | @cons f v fs vs hv _ ih =>
    cases h' with
    | @cons _ v' _ vs' hv' h' =>
      rw [render, render, append_lt_append_iff (by simp), cons_lt_cons_same, digits_lt_iff hv hv']
      rcases List.cons_lt_cons_iff.1 hlt with h | ⟨rfl, h⟩
      · exact .inl h
      · exact .inr ⟨rfl, ih h' h⟩

theorem length_render {fs : List (Nat × Char)} {vs : List Nat} (h : Fits fs vs) :
    (render fs vs).length = (fs.map (fun f => f.1 + 1)).sum := by
  induction h with
  | nil => rfl
  | cons _ _ ih => simp [render, ih]; omega

end AgentHub.Lib
