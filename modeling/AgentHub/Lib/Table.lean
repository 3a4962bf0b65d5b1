import Mathlib.Data.List.Perm.Basic
import Mathlib.Data.List.Nodup
import Mathlib.Tactic.Common
/-!
# Tables

A table is a list of rows with a primary key and a second unique column. Both
constraints are fields of the type: an insert that would break one is refused, an
update is only expressible when it leaves both columns alone. `get?` reads a table as
a finite map; `get?_update` and `get?_insert` are the only facts later proofs need.
-/

namespace AgentHub.Lib

/-- Rows `ρ` with primary key `key` and unique column `uniq`. -/
structure Table (ρ : Type) {κ ι : Type} (key : ρ → κ) (uniq : ρ → ι) where
  rows : List ρ
  key_nodup : (rows.map key).Nodup
  uniq_nodup : (rows.map uniq).Nodup

/-- In a list whose keys are distinct, the first element of a key is the one of that key. -/
theorem find?_key {ρ κ : Type} [DecidableEq κ] {key : ρ → κ} {l : List ρ} (hnd : (l.map key).Nodup) {k : κ} {r : ρ} :
    l.find? (fun x => key x = k) = some r ↔ r ∈ l ∧ key r = k := by
  constructor
  · intro h
    exact ⟨List.mem_of_find?_eq_some h, by simpa using List.find?_some h⟩
  · rintro ⟨hr, rfl⟩
    cases h : l.find? (fun x => key x = key r) with
    | none => exact absurd (List.find?_eq_none.1 h r hr) (by simp)
    | some r' =>
      have hk : key r' = key r := by simpa using List.find?_some h
      rw [List.inj_on_of_nodup_map hnd (List.mem_of_find?_eq_some h) hr hk]

/-- A fold that at each element keeps what it has or takes the element yields an element. -/
theorem mem_of_foldl_pick {α : Type} {f : Option α → α → Option α} (hf : ∀ o a, f o a = some a ∨ f o a = o) {l : List α} :
    ∀ {o : Option α} {x : α}, l.foldl f o = some x → o = some x ∨ x ∈ l := by
  induction l with
  | nil => intro o x h; exact .inl h
  | cons a l ih =>
    intro o x h
    rcases ih h with ho | hmem
    · rcases hf o a with ha | ha
      · rw [ha] at ho
        exact .inr (by simp [Option.some.inj ho])
      · rw [ha] at ho
        exact .inl ho
    · exact .inr (List.mem_cons_of_mem _ hmem)

section
variable {α : Type} {f : Option α → α → Option α} {value : α → Nat} {l : List α} (hnone : ∀ a, f none a = some a)
  (hsome : ∀ b a, f (some b) a = if value b < value a then some a else some b)
include hnone hsome

/-- A fold that keeps an element of the highest value yields one that no element exceeds. -/
theorem le_of_foldl_max : ∀ {o : Option α} {x : α}, l.foldl f o = some x →
    (∀ b, o = some b → value b ≤ value x) ∧ ∀ a ∈ l, value a ≤ value x := by
  induction l with
  | nil =>
    intro o x h
    refine ⟨fun b hb => ?_, by simp⟩
    rw [List.foldl_nil, hb, Option.some.injEq] at h
    exact h ▸ Nat.le_refl _
  | cons a l ih =>
    intro o x h
    obtain ⟨hhead, hl⟩ := ih h
    cases o with
    | none => exact ⟨by simp, List.forall_mem_cons.2 ⟨hhead a (hnone a), hl⟩⟩
    | some b =>
      rw [hsome] at hhead
      split at hhead
      · next hlt =>
        have ha := hhead a rfl
        exact ⟨fun b' hb => by obtain rfl := Option.some.inj hb; omega, List.forall_mem_cons.2 ⟨ha, hl⟩⟩
      · next hge =>
        have hb := hhead b rfl
        exact ⟨fun b' hb' => Option.some.inj hb' ▸ hb, List.forall_mem_cons.2 ⟨by omega, hl⟩⟩

/-- That fold yields nothing from an empty list only. -/
theorem foldl_max_none : ∀ {o : Option α}, l.foldl f o = none → o = none ∧ l = [] := by
  induction l with
  | nil => exact fun h => ⟨h, rfl⟩
  | cons a l ih =>
    intro o h
    have hstep := (ih h).1
    cases o with
    | none => rw [hnone] at hstep; cases hstep
    | some b =>
      rw [hsome] at hstep
      split at hstep <;> cases hstep

end

namespace Table

variable {ρ κ ι : Type} {key : ρ → κ} {uniq : ρ → ι}

def empty : Table ρ key uniq := ⟨[], List.nodup_nil, List.nodup_nil⟩

/-- The row with key `k`. -/
def get? [DecidableEq κ] (t : Table ρ key uniq) (k : κ) : Option ρ := t.rows.find? (fun r => key r = k)

/-- How many rows satisfy `p`: the row count an update reports. -/
def count (t : Table ρ key uniq) (p : ρ → Bool) : Nat := t.rows.countP p

/-- Write `f` to the rows that satisfy `p`. -/
def update (t : Table ρ key uniq) (p : ρ → Bool) (f : ρ → ρ) (hk : ∀ r, key (f r) = key r)
    (hu : ∀ r, uniq (f r) = uniq r) : Table ρ key uniq where
  rows := t.rows.map (fun r => if p r then f r else r)
  key_nodup := by
    have h : (key ∘ fun r => if p r then f r else r) = key := by
      funext r; by_cases hp : p r <;> simp [hp, hk]
    rw [List.map_map, h]; exact t.key_nodup
  uniq_nodup := by
    have h : (uniq ∘ fun r => if p r then f r else r) = uniq := by
      funext r; by_cases hp : p r <;> simp [hp, hu]
    rw [List.map_map, h]; exact t.uniq_nodup

/-- Remove the rows that satisfy `p`. -/
def delete (t : Table ρ key uniq) (p : ρ → Bool) : Table ρ key uniq where
  rows := t.rows.filter fun r => !p r
  key_nodup := t.key_nodup.sublist (List.filter_sublist.map _)
  uniq_nodup := t.uniq_nodup.sublist (List.filter_sublist.map _)

/-- Append a row; `none` when a unique column already holds its value. -/
def insert [DecidableEq κ] [DecidableEq ι] (t : Table ρ key uniq) (r : ρ) : Option (Table ρ key uniq) :=
  if h : key r ∉ t.rows.map key ∧ uniq r ∉ t.rows.map uniq then
    some ⟨t.rows ++ [r],
      by rw [List.map_append]; exact List.Nodup.append t.key_nodup (by simp) (by simpa using h.1),
      by rw [List.map_append]; exact List.Nodup.append t.uniq_nodup (by simp) (by simpa using h.2)⟩
  else none

/-! ## Reading -/

section
variable [DecidableEq κ]

theorem get?_eq_some {t : Table ρ key uniq} {k : κ} {r : ρ} : t.get? k = some r ↔ r ∈ t.rows ∧ key r = k :=
  find?_key t.key_nodup

theorem get?_key {t : Table ρ key uniq} {k : κ} {r : ρ} (h : t.get? k = some r) : key r = k :=
  (get?_eq_some.1 h).2

theorem mem_of_get? {t : Table ρ key uniq} {k : κ} {r : ρ} (h : t.get? k = some r) : r ∈ t.rows :=
  (get?_eq_some.1 h).1

theorem get?_of_mem {t : Table ρ key uniq} {r : ρ} (h : r ∈ t.rows) : t.get? (key r) = some r :=
  get?_eq_some.2 ⟨h, rfl⟩

/-- The row with the key of `r`, among those that satisfy `p` and `q`, is `r` itself. -/
theorem exists_key_iff {t : Table ρ key uniq} {r : ρ} (hr : r ∈ t.rows) {p q : ρ → Prop} :
    (∃ r' ∈ t.rows, p r' ∧ q r' ∧ key r = key r') ↔ p r ∧ q r := by
  constructor
  · rintro ⟨r', hr', hp, hq, hkey⟩
    have hget := get?_of_mem hr
    rw [hkey, get?_of_mem hr'] at hget
    obtain rfl := Option.some.inj hget
    exact ⟨hp, hq⟩
  · exact fun ⟨hp, hq⟩ => ⟨r, hr, hp, hq, rfl⟩

end

theorem eq_of_uniq {t : Table ρ key uniq} {r r' : ρ} (h : r ∈ t.rows) (h' : r' ∈ t.rows)
    (hu : uniq r = uniq r') : r = r' := List.inj_on_of_nodup_map t.uniq_nodup h h' hu

/-! ## Writing -/

@[simp] theorem rows_update (t : Table ρ key uniq) (p f hk hu) :
    (t.update p f hk hu).rows = t.rows.map (fun r => if p r then f r else r) := rfl

theorem get?_update [DecidableEq κ] (t : Table ρ key uniq) (p f hk hu) (k : κ) :
    (t.update p f hk hu).get? k = (t.get? k).map (fun r => if p r then f r else r) := by
  unfold get?
  rw [rows_update, List.find?_map]
  congr 2
  funext r
  by_cases hp : p r <;> simp [hp, hk]

@[simp] theorem rows_delete (t : Table ρ key uniq) (p : ρ → Bool) : (t.delete p).rows = t.rows.filter fun r => !p r := rfl

theorem get?_delete [DecidableEq κ] (t : Table ρ key uniq) (p : ρ → Bool) (k : κ) :
    (t.delete p).get? k = (t.get? k).filter fun r => !p r := by
  cases h : t.get? k with
  | none =>
    have hnone : ∀ r ∈ t.rows, key r ≠ k := by simpa [get?, List.find?_eq_none] using h
    exact List.find?_eq_none.2 fun r hr => by simpa using hnone r (List.mem_filter.1 hr).1
  | some r =>
    obtain ⟨hr, hk⟩ := get?_eq_some.1 h
    cases hp : p r with
    | false =>
      have hmem : r ∈ (t.delete p).rows := List.mem_filter.2 ⟨hr, by simp [hp]⟩
      rw [get?_eq_some.2 ⟨hmem, hk⟩, Option.filter_some]
      simp [hp]
    | true =>
      simp only [Option.filter_some, hp, Bool.not_true, Bool.false_eq_true, if_false]
      refine List.find?_eq_none.2 fun r' hr' hk' => ?_
      obtain ⟨hr', hp'⟩ := List.mem_filter.1 hr'
      have heq : r' = r := List.inj_on_of_nodup_map t.key_nodup hr' hr (by rw [hk]; simpa using hk')
      simp [heq, hp] at hp'

theorem ext_rows {t t' : Table ρ key uniq} (h : t.rows = t'.rows) : t = t' := by
  cases t
  cases t'
  simp only at h
  subst h
  rfl

/-- Removing the row of a key removes nothing when there is none. -/
theorem delete_key_of_none [DecidableEq κ] {t : Table ρ key uniq} {k : κ} (h : t.get? k = none) :
    (t.delete fun r => decide (key r = k)) = t := by
  apply ext_rows
  rw [rows_delete, List.filter_eq_self]
  intro r hr
  have hne : key r ≠ k := by simpa using List.find?_eq_none.1 h r hr
  simp [hne]

theorem delete_false (t : Table ρ key uniq) : (t.delete fun _ => false) = t := by
  apply ext_rows
  rw [rows_delete]
  exact List.filter_eq_self.2 fun _ _ => rfl

/-- An update by key leaves the other keys alone. -/
theorem get?_update_ne [DecidableEq κ] {t : Table ρ key uniq} {k k' : κ} {g : ρ → Bool} {f hk hu} (h : k' ≠ k) :
    (t.update (fun r => decide (key r = k) && g r) f hk hu).get? k' = t.get? k' := by
  rw [get?_update]
  cases hr : t.get? k' with
  | none => rfl
  | some r => simp [get?_key hr, h]

/-- An update by key writes the row of that key when its guard holds. -/
theorem get?_update_self [DecidableEq κ] {t : Table ρ key uniq} {k : κ} {r : ρ} {g : ρ → Bool} {f hk hu}
    (h : t.get? k = some r) :
    (t.update (fun r => decide (key r = k) && g r) f hk hu).get? k = some (if g r then f r else r) := by
  rw [get?_update, h]
  simp [get?_key h]

/-- Updates by key agree when their guards agree on the row of that key. -/
theorem update_key_congr [DecidableEq κ] {t : Table ρ key uniq} {k : κ} {row : ρ} {g g' : ρ → Bool} {f hk hu}
    (hrow : t.get? k = some row) (h : g row = g' row) :
    t.update (fun r => decide (key r = k) && g r) f hk hu = t.update (fun r => decide (key r = k) && g' r) f hk hu := by
  apply ext_rows
  rw [rows_update, rows_update, List.map_inj_left]
  intro r hr
  by_cases hkey : key r = k
  · have hget := get?_of_mem hr
    rw [hkey, hrow] at hget
    rw [← Option.some.inj hget, h]
  · simp [hkey]

/-- An update by key whose guard fails changes nothing. -/
theorem update_key_of_false [DecidableEq κ] {t : Table ρ key uniq} {k : κ} {row : ρ} {g : ρ → Bool} {f hk hu}
    (hrow : t.get? k = some row) (h : g row = false) : t.update (fun r => decide (key r = k) && g r) f hk hu = t := by
  have hcongr : t.update (fun r => decide (key r = k) && g r) f hk hu =
      t.update (fun r => decide (key r = k) && false) f hk hu := update_key_congr hrow h
  rw [hcongr]
  apply ext_rows
  simp

/-- A write that finds no row changes nothing. -/
theorem update_of_none {t : Table ρ key uniq} {p f hk hu} (h : ∀ r ∈ t.rows, p r = false) : t.update p f hk hu = t := by
  apply ext_rows
  rw [rows_update]
  refine (List.map_congr_left fun r hr => ?_).trans t.rows.map_id
  rw [h r hr]
  rfl

theorem mem_update {t : Table ρ key uniq} {p f hk hu} {r' : ρ} :
    r' ∈ (t.update p f hk hu).rows ↔ ∃ r ∈ t.rows, (if p r then f r else r) = r' := by
  simp

/-- An update by key that reports one row found the row and its guard. -/
theorem count_key_eq_one [DecidableEq κ] {t : Table ρ key uniq} {k : κ} {g : ρ → Bool} :
    t.count (fun r => decide (key r = k) && g r) = 1 ↔ ∃ r, t.get? k = some r ∧ g r = true := by
  have hle : t.rows.countP (fun r => decide (key r = k) && g r) ≤ 1 := by
    have h1 : t.rows.countP (fun r => decide (key r = k)) ≤ 1 := by
      have h := List.nodup_iff_count_le_one.1 t.key_nodup k
      rw [List.count, List.countP_map] at h
      simpa [Function.comp_def, beq_iff_eq, BEq.beq] using h
    exact Nat.le_trans (List.countP_mono_left (by simp +contextual)) h1
  have hpos : 0 < t.rows.countP (fun r => decide (key r = k) && g r) ↔ ∃ r, t.get? k = some r ∧ g r = true := by
    simp only [List.countP_pos_iff, Bool.and_eq_true, decide_eq_true_eq, get?_eq_some, and_assoc]
  rw [← hpos]
  unfold count
  omega

section
variable [DecidableEq κ] [DecidableEq ι]

theorem insert_eq_some {t t' : Table ρ key uniq} {r : ρ} (h : t.insert r = some t') :
    t'.rows = t.rows ++ [r] ∧ t.get? (key r) = none ∧ ∀ r' ∈ t.rows, uniq r' ≠ uniq r := by
  unfold insert at h
  split at h
  · next hn =>
    simp only [Option.some.injEq] at h
    subst h
    refine ⟨rfl, ?_, fun r' hr' hu => hn.2 (List.mem_map.2 ⟨r', hr', hu⟩)⟩
    exact List.find?_eq_none.2 fun r' hr' hk => hn.1 (List.mem_map.2 ⟨r', hr', by simpa using hk⟩)
  · simp at h

/-- A row whose unique columns are new is inserted. -/
theorem insert_of_new {t : Table ρ key uniq} {r : ρ} (hk : t.get? (key r) = none) (hu : ∀ r' ∈ t.rows, uniq r' ≠ uniq r) :
    ∃ t', t.insert r = some t' := by
  have hkey : key r ∉ t.rows.map key := by
    intro hmem
    obtain ⟨r', hr', heq⟩ := List.mem_map.1 hmem
    exact List.find?_eq_none.1 hk r' hr' (by simpa using heq)
  have huniq : uniq r ∉ t.rows.map uniq := by
    intro hmem
    obtain ⟨r', hr', heq⟩ := List.mem_map.1 hmem
    exact hu r' hr' heq
  unfold insert
  rw [dif_pos ⟨hkey, huniq⟩]
  exact ⟨_, rfl⟩

theorem get?_insert {t t' : Table ρ key uniq} {r : ρ} (h : t.insert r = some t') (k : κ) :
    t'.get? k = if key r = k then some r else t.get? k := by
  obtain ⟨hrows, hnone, -⟩ := insert_eq_some h
  unfold get? at hnone ⊢
  rw [hrows, List.find?_append]
  by_cases hk : key r = k
  · subst hk; simp [hnone]
  · simp [hk]

end

end Table

end AgentHub.Lib
