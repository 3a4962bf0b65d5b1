import AgentHub.Lib.Store
/-!
# Closing rows

The rows of a table have a status that is open or closed, and a bulk write closes the open rows that a predicate
names. `Closes` says so of the whole table, in both directions: which rows are closed and which stay as they
were. Writes by key, bulk writes and loops over them compose by the union of what they name.
-/

namespace AgentHub.Lib

/-- What a closing write looks at: the row's key, the key of its owner and its status. -/
structure Standing (κ ω σ : Type) where
  id : κ
  owner : ω
  status : σ

section
variable {κ ω σ : Type}

open Classical in
/-- The standing of a row after the open ones that `P` names are closed. -/
noncomputable def Standing.close (opened : σ → Bool) (closed : σ) (P : Standing κ ω σ → Prop) (v : Standing κ ω σ) :
    Standing κ ω σ := if opened v.status = true ∧ P v then { v with status := closed } else v

variable {opened : σ → Bool} {closed : σ} {P Q : Standing κ ω σ → Prop} {v : Standing κ ω σ}

theorem Standing.close_of (h : opened v.status = true) (hP : P v) : v.close opened closed P = { v with status := closed } :=
  if_pos ⟨h, hP⟩

theorem Standing.close_of_not (h : ¬ (opened v.status = true ∧ P v)) : v.close opened closed P = v := if_neg h

@[simp] theorem Standing.close_nothing : v.close opened closed (fun _ => False) = v := close_of_not And.right

/-- Closing leaves the keys alone. -/
theorem Standing.close_keys : (v.close opened closed P).id = v.id ∧ (v.close opened closed P).owner = v.owner := by
  unfold close
  split <;> exact ⟨rfl, rfl⟩

/-- A row that is open after closing was open before, and not named. -/
theorem Standing.open_close (hclosed : opened closed = false) :
    opened (v.close opened closed P).status = true ↔ opened v.status = true ∧ ¬ P v := by
  unfold close
  split
  · next h => simp [hclosed, h.2]
  · next h =>
    constructor
    · exact fun hopen => ⟨hopen, fun hP => h ⟨hopen, hP⟩⟩
    · exact fun hopen => hopen.1

theorem Standing.close_congr (h : opened v.status = true → (P v ↔ Q v)) : v.close opened closed P = v.close opened closed Q := by
  by_cases hopen : opened v.status = true
  · by_cases hP : P v
    · rw [close_of hopen hP, close_of hopen ((h hopen).1 hP)]
    · rw [close_of_not fun hn => hP hn.2, close_of_not fun hn => hP ((h hopen).2 hn.2)]
  · rw [close_of_not fun hn => hopen hn.1, close_of_not fun hn => hopen hn.1]

theorem Standing.close_close (hclosed : opened closed = false) :
    (v.close opened closed P).close opened closed Q = v.close opened closed fun v => P v ∨ Q v := by
  by_cases hopen : opened v.status = true
  · by_cases hP : P v
    · rw [close_of hopen hP, close_of hopen (.inl hP), close_of_not fun h => by rw [hclosed] at h; cases h.1]
    · rw [close_of_not (P := P) fun h => hP h.2]
      by_cases hQ : Q v
      · rw [close_of hopen hQ, close_of hopen (.inr hQ)]
      · rw [close_of_not fun h => hQ h.2, close_of_not fun h => h.2.elim hP hQ]
  · rw [close_of_not (P := P) fun h => hopen h.1, close_of_not fun h => hopen h.1, close_of_not fun h => hopen h.1]

end

/-- How the rows of a table with this key stand. -/
structure Ledger {ρ κ : Type} (key : ρ → κ) (ω σ : Type) where
  view : ρ → Standing κ ω σ
  view_id : ∀ r, (view r).id = key r
  opened : σ → Bool
  closed : σ
  ends : opened closed = false

section
variable {ρ κ ω σ ι : Type} {key : ρ → κ} {uniq : ρ → ι} (L : Ledger key ω σ)

/-- `t'` is `t` with the open rows that `P` names closed. -/
def Closes (P : Standing κ ω σ → Prop) (t t' : Table ρ key uniq) : Prop :=
  t'.rows.map L.view = t.rows.map fun r => (L.view r).close L.opened L.closed P

variable {L} {P Q : Standing κ ω σ → Prop} {a b c : Table ρ key uniq}

namespace Closes

theorem refl (t : Table ρ key uniq) : Closes L (fun _ => False) t t :=
  List.map_congr_left fun _ _ => (Standing.close_of_not fun h => h.2).symm

theorem of_eq (h : b = a) : Closes L (fun _ => False) a b := by
  rw [h]
  exact refl a

theorem trans (h : Closes L P a b) (h' : Closes L Q b c) : Closes L (fun v => P v ∨ Q v) a c := by
  unfold Closes at h h' ⊢
  have hmap : (b.rows.map fun r => (L.view r).close L.opened L.closed Q) =
      (b.rows.map L.view).map fun v => v.close L.opened L.closed Q := by rw [List.map_map]; rfl
  rw [h', hmap, h, List.map_map]
  exact List.map_congr_left fun _ _ => Standing.close_close L.ends

theorem congr (h : Closes L P a b) (hiff : ∀ r ∈ a.rows, L.opened (L.view r).status = true → (P (L.view r) ↔ Q (L.view r))) :
    Closes L Q a b :=
  Eq.trans h (List.map_congr_left fun r hr => Standing.close_congr (hiff r hr))

/-- A write that leaves the standings alone. -/
theorem update_same {p : ρ → Bool} {f : ρ → ρ} {hk hu} (hf : ∀ r, L.view (f r) = L.view r) :
    Closes L (fun _ => False) a (a.update p f hk hu) := by
  unfold Closes
  rw [Table.rows_update, List.map_map]
  refine List.map_congr_left fun r _ => ?_
  rw [Standing.close_of_not fun h => h.2, Function.comp_apply]
  split
  · exact hf r
  · rfl

/-- A bulk write that closes the open rows named. -/
theorem update {p : ρ → Bool} {f : ρ → ρ} {hk hu}
    (hp : ∀ r ∈ a.rows, p r = true ↔ L.opened (L.view r).status = true ∧ P (L.view r))
    (hf : ∀ r, L.view (f r) = { L.view r with status := L.closed }) : Closes L P a (a.update p f hk hu) := by
  unfold Closes
  rw [Table.rows_update, List.map_map]
  refine List.map_congr_left fun r hr => ?_
  rw [Function.comp_apply]
  by_cases h : p r = true
  · rw [if_pos h, hf, Standing.close_of ((hp r hr).1 h).1 ((hp r hr).1 h).2]
  · rw [if_neg h, Standing.close_of_not fun hopen => h ((hp r hr).2 hopen)]

/-- A guarded write by key that closes the row of that key. -/
theorem updateKey [DecidableEq κ] {k : κ} {row : ρ} {g : ρ → Bool} {f : ρ → ρ} {hk hu} (hrow : a.get? k = some row)
    (hg : g row = true) (hopen : ∀ r, g r = true → L.opened (L.view r).status = true)
    (hf : ∀ r, L.view (f r) = { L.view r with status := L.closed }) :
    Closes L (fun v => v.id = k) a (a.update (fun r => decide (key r = k) && g r) f hk hu) := by
  refine update (fun r hr => ?_) hf
  rw [Bool.and_eq_true, decide_eq_true_eq, L.view_id]
  constructor
  · exact fun h => ⟨hopen r h.2, h.1⟩
  · rintro ⟨-, hid⟩
    have hget := Table.get?_of_mem hr
    rw [hid, hrow] at hget
    exact ⟨hid, Option.some.inj hget ▸ hg⟩

/-- Where a row came from. -/
theorem before (h : Closes L P a b) {r' : ρ} (hr' : r' ∈ b.rows) :
    ∃ r ∈ a.rows, L.view r' = (L.view r).close L.opened L.closed P := by
  have hmem : L.view r' ∈ b.rows.map L.view := List.mem_map_of_mem hr'
  rw [h] at hmem
  obtain ⟨r, hr, heq⟩ := List.mem_map.1 hmem
  exact ⟨r, hr, heq.symm⟩

/-- What became of a row. -/
theorem after (h : Closes L P a b) {r : ρ} (hr : r ∈ a.rows) :
    ∃ r' ∈ b.rows, L.view r' = (L.view r).close L.opened L.closed P := by
  have hmem : (L.view r).close L.opened L.closed P ∈ a.rows.map fun r => (L.view r).close L.opened L.closed P :=
    List.mem_map.2 ⟨r, hr, rfl⟩
  rw [← h] at hmem
  obtain ⟨r', hr', heq⟩ := List.mem_map.1 hmem
  exact ⟨r', hr', heq⟩

/-- Some row stands so afterwards exactly when some row came to stand so. -/
theorem exists_iff (h : Closes L P a b) {J : Standing κ ω σ → Prop} :
    (∃ r' ∈ b.rows, J (L.view r')) ↔ ∃ r ∈ a.rows, J ((L.view r).close L.opened L.closed P) := by
  constructor
  · rintro ⟨r', hr', hJ⟩
    obtain ⟨r, hr, hview⟩ := h.before hr'
    exact ⟨r, hr, by rw [← hview]; exact hJ⟩
  · rintro ⟨r, hr, hJ⟩
    obtain ⟨r', hr', hview⟩ := h.after hr
    exact ⟨r', hr', by rw [hview]; exact hJ⟩

/-- A table whose rows keep their standing has the same ones afterwards. -/
theorem rows_iff (h : Closes L P a b) (hP : ∀ v, ¬ P v) {J : Standing κ ω σ → Prop} :
    (∃ r' ∈ b.rows, J (L.view r')) ↔ ∃ r ∈ a.rows, J (L.view r) := by
  rw [h.exists_iff]
  exact exists_congr fun r => and_congr_right' (by rw [Standing.close_of_not fun hn => hP _ hn.2])

/-- No row is gained or lost, and none changes its keys. -/
theorem keys_iff (h : Closes L P a b) {I : κ → ω → Prop} :
    (∃ r' ∈ b.rows, I (L.view r').id (L.view r').owner) ↔ ∃ r ∈ a.rows, I (L.view r).id (L.view r).owner := by
  rw [h.exists_iff (J := fun v => I v.id v.owner)]
  simp only [Standing.close_keys]

/-- No row of the kind `I` is open afterwards exactly when every one that was open is named. -/
theorem all_closed (h : Closes L P a b) {I : κ → ω → Prop} :
    (∀ r' ∈ b.rows, I (L.view r').id (L.view r').owner → L.opened (L.view r').status = false) ↔
      ∀ r ∈ a.rows, I (L.view r).id (L.view r).owner → L.opened (L.view r).status = true → P (L.view r) := by
  constructor
  · intro hall r hr hI hopen
    obtain ⟨r', hr', hview⟩ := h.after hr
    by_contra hP
    have hkeep : L.view r' = L.view r := hview.trans (Standing.close_of_not fun hn => hP hn.2)
    have hshut := hall r' hr' (by rw [hkeep]; exact hI)
    rw [hkeep, hopen] at hshut
    cases hshut
  · intro hall r' hr' hI
    obtain ⟨r, hr, hview⟩ := h.before hr'
    have hkeys : (L.view r').id = (L.view r).id ∧ (L.view r').owner = (L.view r).owner := by
      rw [hview]
      exact Standing.close_keys
    rw [hkeys.1, hkeys.2] at hI
    rw [Bool.eq_false_iff, hview]
    intro hopen
    obtain ⟨hbefore, hnot⟩ := (Standing.open_close L.ends).1 hopen
    exact hnot (hall r hr hI hbefore)

end Closes

end

/-! ## Statements -/

namespace TableRef

section
variable {σ ρ κ ω τ ι ε : Type} {key : ρ → κ} {uniq : ρ → ι} {L : Ledger key ω τ} {T : TableRef σ key uniq} {s s' : σ}
  {f : ρ → ρ} {hk hu}

theorem update_standing {p : ρ → Bool} {n : Nat} (h : (T.update p f hk hu : Tx σ ε Nat).run s = .ok (n, s'))
    (hf : ∀ r, L.view (f r) = L.view r) : Closes L (fun _ => False) (T.get s) (T.get s') := by
  rw [update_ok, Prod.mk.injEq] at h
  rw [h.2, T.get_set]
  exact .update_same hf

theorem update_closes {P : Standing κ ω τ → Prop} {p : ρ → Bool} {n : Nat}
    (h : (T.update p f hk hu : Tx σ ε Nat).run s = .ok (n, s'))
    (hp : ∀ r, p r = true ↔ L.opened (L.view r).status = true ∧ P (L.view r))
    (hf : ∀ r, L.view (f r) = { L.view r with status := L.closed }) : Closes L P (T.get s) (T.get s') := by
  rw [update_ok, Prod.mk.injEq] at h
  rw [h.2, T.get_set]
  exact .update (fun r _ => hp r) hf

theorem cas_closes [DecidableEq κ] {k : κ} {g : ρ → Bool} {e : ε} {u : Unit}
    (h : (T.cas k g f hk hu e).run s = .ok (u, s')) (hopen : ∀ r, g r = true → L.opened (L.view r).status = true)
    (hf : ∀ r, L.view (f r) = { L.view r with status := L.closed }) :
    Closes L (fun v => v.id = k) (T.get s) (T.get s') := by
  obtain ⟨⟨row, hrow, hg⟩, hs⟩ := cas_ok.1 h
  rw [(Prod.mk.inj hs).2, T.get_set]
  exact .updateKey hrow hg hopen hf

end

end TableRef

end AgentHub.Lib
