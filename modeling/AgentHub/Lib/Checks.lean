import AgentHub.Lib.Tx
import Mathlib.Data.List.Forall2
/-!
# Lists of checks

A check of each element of a list, one after the other, up to the first that fails. The whole passes when each does, and
fails as an element does that is reached: one before which every other passes.
-/

namespace AgentHub.Lib

variable {ε α : Type} {check : α → Except ε Unit} {l : List α} {a : α} {e : ε}

/-- A single check. -/
def demand (b : Bool) (e : ε) : Except ε Unit := if b then .ok () else .error e

@[simp] theorem demand_ok {b : Bool} {u : Unit} : demand b e = .ok u ↔ b = true := by
  cases b <;> simp [demand]

/-- The elements that are checked. -/
def Reached (check : α → Except ε Unit) (l : List α) (a : α) : Prop :=
  ∃ before after, l = before ++ a :: after ∧ ∀ b ∈ before, check b = .ok ()

theorem Reached.head : Reached check (a :: l) a := ⟨[], l, rfl, by simp⟩

theorem Reached.cons {b : α} (hb : check b = .ok ()) (h : Reached check l a) : Reached check (b :: l) a := by
  obtain ⟨before, after, rfl, hbefore⟩ := h
  exact ⟨b :: before, after, rfl, List.forall_mem_cons.2 ⟨hb, hbefore⟩⟩

theorem Reached.mem (h : Reached check l a) : a ∈ l := by
  obtain ⟨before, after, rfl, -⟩ := h
  simp

theorem reached_cons {b : α} : Reached check (b :: l) a ↔ a = b ∨ check b = .ok () ∧ Reached check l a := by
  constructor
  · rintro ⟨before, after, he, hbefore⟩
    cases before with
    | nil => exact .inl (List.cons.inj he).1.symm
    | cons c before =>
      obtain ⟨rfl, rfl⟩ := List.cons.inj he
      exact .inr ⟨hbefore b List.mem_cons_self, before, after, rfl, fun d hd => hbefore d (List.mem_cons_of_mem _ hd)⟩
  · rintro (rfl | ⟨hb, h⟩)
    · exact .head
    · exact h.cons hb

theorem forM_cons (b : α) (l : List α) : (b :: l).forM check = (check b >>= fun _ => l.forM check) := rfl

theorem forM_ok_iff : l.forM check = .ok () ↔ ∀ a ∈ l, check a = .ok () := by
  induction l with
  | nil => simp [pure, Except.pure]
  | cons b l ih =>
    rw [forM_cons, Tx.bind_ok, List.forall_mem_cons, ← ih]
    exact ⟨fun ⟨_, hb, h⟩ => ⟨hb, h⟩, fun ⟨hb, h⟩ => ⟨(), hb, h⟩⟩

theorem forM_error_iff : l.forM check = .error e ↔ ∃ a, Reached check l a ∧ check a = .error e := by
  induction l with
  | nil => simp [Reached, pure, Except.pure]
  | cons b l ih =>
    rw [forM_cons]
    cases hb : check b with
    | error e' =>
      have h : ((Except.error e' : Except ε Unit) >>= fun _ => l.forM check) = .error e' := rfl
      rw [h]
      constructor
      · intro he
        exact ⟨b, .head, hb.trans he⟩
      · rintro ⟨a, ha, he⟩
        rcases reached_cons.1 ha with rfl | ⟨hok, -⟩
        · exact hb.symm.trans he
        · rw [hb] at hok
          cases hok
    | ok u =>
      have h : (Except.ok u >>= fun _ => l.forM check) = l.forM check := rfl
      rw [h, ih]
      constructor
      · rintro ⟨a, ha, he⟩
        exact ⟨a, ha.cons hb, he⟩
      · rintro ⟨a, ha, he⟩
        rcases reached_cons.1 ha with rfl | ⟨-, ha⟩
        · rw [hb] at he
          cases he
        · exact ⟨a, ha, he⟩

/-- A map that may raise gives a value for each element, in order. -/
theorem mapM_ok_iff {β : Type} {f : α → Except ε β} {l' : List β} :
    l.mapM f = .ok l' ↔ List.Forall₂ (fun a b => f a = .ok b) l l' := by
  induction l generalizing l' with
  | nil => rw [List.mapM_nil, Tx.pure_ok, List.forall₂_nil_left_iff]
  | cons a l ih =>
    rw [List.mapM_cons, Tx.bind_ok]
    constructor
    · rintro ⟨b, hb, h⟩
      obtain ⟨bs, hbs, h⟩ := Tx.bind_ok.1 h
      rw [Tx.pure_ok.1 h]
      exact .cons hb (ih.1 hbs)
    · intro h
      cases h with
      | cons hb hbs => exact ⟨_, hb, Tx.bind_ok.2 ⟨_, ih.2 hbs, rfl⟩⟩

/-- Each element with the value that is known of it. -/
theorem mapM_eq_map {β : Type} {f : α → Except ε β} {g : α → β} (h : ∀ a ∈ l, f a = .ok (g a)) : l.mapM f = .ok (l.map g) :=
  mapM_ok_iff.2 (List.forall₂_map_right_iff.2 (List.forall₂_same.2 h))

end AgentHub.Lib
