import Mathlib.Tactic.Common
/-!
# Machines that answer their inputs

A step takes a state and an input to the next state and a list of answers. What a machine answers to two words in a row
is what it answers to the first, and then to the second from where the first left it.
-/

namespace AgentHub.Lib.Mealy

variable {σ α β : Type}

def run (step : σ → α → σ × List β) : σ → List α → σ × List β
  | s, [] => (s, [])
  | s, a :: as => ((run step (step s a).1 as).1, (step s a).2 ++ (run step (step s a).1 as).2)

variable {step : σ → α → σ × List β}

@[simp] theorem run_nil (s : σ) : run step s [] = (s, []) := rfl

theorem run_cons (s : σ) (a : α) (as : List α) :
    run step s (a :: as) = ((run step (step s a).1 as).1, (step s a).2 ++ (run step (step s a).1 as).2) := rfl

theorem run_append (s : σ) (as bs : List α) : run step s (as ++ bs) =
    ((run step (run step s as).1 bs).1, (run step s as).2 ++ (run step (run step s as).1 bs).2) := by
  induction as generalizing s with
  | nil => rfl
  | cons a as ih => rw [List.cons_append, run_cons, ih, run_cons, List.append_assoc]

theorem run_singleton (s : σ) (a : α) : run step s [a] = step s a := by
  rw [run_cons, run_nil, List.append_nil]

/-- What every answer has, all answers have. -/
theorem run_forall {P : β → Prop} (hstep : ∀ s a, ∀ b ∈ (step s a).2, P b) (s : σ) (as : List α) :
    ∀ b ∈ (run step s as).2, P b := by
  induction as generalizing s with
  | nil =>
    intro b hb
    cases hb
  | cons a as ih =>
    intro b hb
    rw [run_cons] at hb
    rcases List.mem_append.1 hb with hb | hb
    · exact hstep s a b hb
    · exact ih _ b hb

/-- The input that an answer is given to. -/
theorem run_eq_append_cons {s : σ} {as : List α} {pre post : List β} {b : β} (h : (run step s as).2 = pre ++ b :: post) :
    ∃ before a after pre' post', as = before ++ a :: after ∧ pre = (run step s before).2 ++ pre' ∧
      (step (run step s before).1 a).2 = pre' ++ b :: post' := by
  induction as generalizing s pre with
  | nil =>
    rw [run_nil] at h
    exact absurd h (by simp)
  | cons a as ih =>
    rw [run_cons] at h
    rcases List.append_eq_append_iff.1 h with ⟨pre', rfl, h'⟩ | ⟨pre', hfirst, h'⟩
    · obtain ⟨before, a', after, pre'', post', rfl, rfl, hstep⟩ := ih h'
      exact ⟨a :: before, a', after, pre'', post', rfl, by rw [run_cons, List.append_assoc], hstep⟩
    · cases pre' with
      | nil =>
        rw [List.append_nil] at hfirst
        obtain ⟨before, a', after, pre'', post', rfl, hnil, hstep⟩ := @ih _ [] h'.symm
        refine ⟨a :: before, a', after, pre'', post', rfl, ?_, hstep⟩
        rw [run_cons, List.append_assoc, ← hnil, List.append_nil, hfirst]
      | cons b' post' =>
        obtain ⟨rfl, -⟩ := List.cons.inj h'
        exact ⟨[], a, as, pre, post', rfl, rfl, hfirst⟩

end AgentHub.Lib.Mealy
