import AgentHub.Lib.Json
import AgentHub.Lib.Table
import Mathlib.Data.List.Sort
import Mathlib.Logic.Equiv.Defs
/-!
# Codecs

A codec dumps values as JSON and loads them back, and says which values it admits. Its two laws: what it admits loads
back from its dump, and what it loads it admits. Codecs are put together from those of the parts, so a record's codec is
the list of its fields. The fields of an object come in any order; a name may be missing where it has a default, a name
that occurs twice counts where it occurs last, and a name of no field is refused.
-/

namespace AgentHub.Lib

/-- How values are dumped as JSON and loaded back, and which of them are admitted. -/
structure Codec (φ α : Type) where
  dump : α → Json φ
  load : Json φ → Option α
  Valid : α → Prop
  load_dump : ∀ a, Valid a → load (dump a) = some a
  valid_of_load : ∀ j a, load j = some a → Valid a

namespace Codec

variable {φ α β : Type}

/-! ## Scalars -/

def str : Codec φ String where
  dump := .str
  load
    | .str s => some s
    | _ => none
  Valid _ := True
  load_dump _ _ := rfl
  valid_of_load _ _ _ := trivial

def bool : Codec φ Bool where
  dump := .bool
  load
    | .bool b => some b
    | _ => none
  Valid _ := True
  load_dump _ _ := rfl
  valid_of_load _ _ _ := trivial

/-- An integer that is not negative. -/
def nat : Codec φ Nat where
  dump n := .int n
  load
    | .int n => if 0 ≤ n then some n.toNat else none
    | _ => none
  Valid _ := True
  load_dump n _ := by simp
  valid_of_load _ _ _ := trivial

def float : Codec φ φ where
  dump := .float
  load
    | .float x => some x
    | _ => none
  Valid _ := True
  load_dump _ _ := rfl
  valid_of_load _ _ _ := trivial

/-! ## Restrictions and changes of type -/

/-- Admit only the values that pass the check. -/
def guard (c : Codec φ α) (p : α → Bool) : Codec φ α where
  dump := c.dump
  load j := (c.load j).filter p
  Valid a := c.Valid a ∧ p a = true
  load_dump a h := by rw [c.load_dump a h.1, Option.filter_some, if_pos h.2]
  valid_of_load j a h := by
    obtain ⟨hload, hp⟩ := Option.filter_eq_some_iff.1 h
    exact ⟨c.valid_of_load j a hload, hp⟩

/-- The same JSON, read at another type. -/
def via (c : Codec φ α) (e : β ≃ α) : Codec φ β where
  dump b := c.dump (e b)
  load j := (c.load j).map e.symm
  Valid b := c.Valid (e b)
  load_dump b h := by rw [c.load_dump _ h, Option.map_some, e.symm_apply_apply]
  valid_of_load j b h := by
    obtain ⟨a, hload, rfl⟩ := Option.map_eq_some_iff.1 h
    rw [e.apply_symm_apply]
    exact c.valid_of_load j a hload

/-- An enumeration, by the texts of its members. -/
def enum (text : α → String) (members : List α) (hall : ∀ a, a ∈ members) (hnd : (members.map text).Nodup) : Codec φ α where
  dump a := .str (text a)
  load
    | .str s => members.find? fun a => text a = s
    | _ => none
  Valid _ := True
  load_dump a _ := (find?_key hnd).2 ⟨hall a, rfl⟩
  valid_of_load _ _ _ := trivial

/-! ## Null and lists -/

/-- A value that may be null; the codec of the value must not read null itself. -/
def nullable (c : Codec φ α) (hnull : c.load .null = none) : Codec φ (Option α) where
  dump
    | none => .null
    | some a => c.dump a
  load
    | .null => some none
    | j => (c.load j).map some
  Valid o := ∀ a, o = some a → c.Valid a
  load_dump o h := by
    cases o with
    | none => rfl
    | some a =>
      have hload := c.load_dump a (h a rfl)
      cases hj : c.dump a with
      | null =>
        rw [hj, hnull] at hload
        cases hload
      | _ =>
        rw [hj] at hload
        simp only [hj, hload, Option.map_some]
  valid_of_load j o h a ha := by
    subst ha
    cases j with
    | null => cases h
    | _ =>
      obtain ⟨b, hload, hb⟩ := Option.map_eq_some_iff.1 h
      cases hb
      exact c.valid_of_load _ _ hload

/-- `mapM` of a reader over the dumps of admitted values. -/
theorem mapM_load_dump (c : Codec φ α) {l : List α} (h : ∀ a ∈ l, c.Valid a) : (l.map c.dump).mapM c.load = some l := by
  induction l with
  | nil => rfl
  | cons a l ih =>
    rw [List.map_cons, List.mapM_cons, c.load_dump a (h a List.mem_cons_self),
      ih fun b hb => h b (List.mem_cons_of_mem _ hb)]
    rfl

theorem valid_of_mapM (c : Codec φ α) {items : List (Json φ)} :
    ∀ {l : List α}, items.mapM c.load = some l → ∀ a ∈ l, c.Valid a := by
  induction items with
  | nil =>
    intro l h
    cases h
    simp
  | cons j items ih =>
    intro l h
    simp only [List.mapM_cons, Option.bind_eq_bind, Option.bind_eq_some_iff, Option.pure_def, Option.some.injEq] at h
    obtain ⟨b, hb, rest, hrest, rfl⟩ := h
    exact List.forall_mem_cons.2 ⟨c.valid_of_load j b hb, ih hrest⟩

def list (c : Codec φ α) : Codec φ (List α) where
  dump l := .arr (l.map c.dump)
  load
    | .arr items => items.mapM c.load
    | _ => none
  Valid l := ∀ a ∈ l, c.Valid a
  load_dump l h := c.mapM_load_dump h
  valid_of_load j l h := by
    cases j with
    | arr items => exact c.valid_of_mapM h
    | _ => cases h

end Codec

/-! ## Objects -/

/-- The fields of an object: their names, how they are dumped, and how they are read from a lookup of names. -/
structure Fields (φ τ : Type) where
  names : List String
  dump : τ → List (String × Json φ)
  load : (String → Option (Json φ)) → Option τ
  Valid : τ → Prop
  keys_dump : ∀ t, (dump t).map Prod.fst = names
  load_dump : ∀ t look, Valid t → (∀ p ∈ dump t, look p.1 = some p.2) → load look = some t
  valid_of_load : ∀ look t, load look = some t → Valid t

namespace Fields

variable {φ α τ : Type}

def nil : Fields φ Unit where
  names := []
  dump _ := []
  load _ := some ()
  Valid _ := True
  keys_dump _ := rfl
  load_dump _ _ _ _ := rfl
  valid_of_load _ _ _ := trivial

/-- A field that must be there. -/
def required (name : String) (c : Codec φ α) (rest : Fields φ τ) : Fields φ (α × τ) where
  names := name :: rest.names
  dump t := (name, c.dump t.1) :: rest.dump t.2
  load look := (look name).bind fun j => (c.load j).bind fun a => (rest.load look).map fun t => (a, t)
  Valid t := c.Valid t.1 ∧ rest.Valid t.2
  keys_dump t := by rw [List.map_cons, rest.keys_dump]
  load_dump t look h hlook := by
    rw [hlook _ List.mem_cons_self, Option.bind_some, c.load_dump _ h.1, Option.bind_some,
      rest.load_dump t.2 look h.2 fun p hp => hlook p (List.mem_cons_of_mem _ hp), Option.map_some]
  valid_of_load look t h := by
    obtain ⟨j, -, h⟩ := Option.bind_eq_some_iff.1 h
    obtain ⟨a, ha, h⟩ := Option.bind_eq_some_iff.1 h
    obtain ⟨u, hu, rfl⟩ := Option.map_eq_some_iff.1 h
    exact ⟨c.valid_of_load j a ha, rest.valid_of_load look u hu⟩

/-- A field that stands for its default, which the codec admits, when it is not there. -/
def optional (name : String) (c : Codec φ α) (default : α) (hdefault : c.Valid default) (rest : Fields φ τ) :
    Fields φ (α × τ) where
  names := name :: rest.names
  dump t := (name, c.dump t.1) :: rest.dump t.2
  load look := ((look name).elim (some default) c.load).bind fun a => (rest.load look).map fun t => (a, t)
  Valid t := c.Valid t.1 ∧ rest.Valid t.2
  keys_dump t := by rw [List.map_cons, rest.keys_dump]
  load_dump t look h hlook := by
    rw [hlook _ List.mem_cons_self, Option.elim_some, c.load_dump _ h.1, Option.bind_some,
      rest.load_dump t.2 look h.2 fun p hp => hlook p (List.mem_cons_of_mem _ hp), Option.map_some]
  valid_of_load look t h := by
    obtain ⟨a, ha, h⟩ := Option.bind_eq_some_iff.1 h
    obtain ⟨u, hu, rfl⟩ := Option.map_eq_some_iff.1 h
    refine ⟨?_, rest.valid_of_load look u hu⟩
    cases hj : look name with
    | none =>
      rw [hj] at ha
      cases ha
      exact hdefault
    | some j =>
      rw [hj] at ha
      exact c.valid_of_load j a ha

end Fields

namespace Codec

variable {φ τ : Type}

/-- The value of a name: the last one, where the name occurs twice. -/
def member (entries : List (String × Json φ)) (name : String) : Option (Json φ) := entries.reverse.lookup name

/-- A pair of a list with distinct keys is found by its key. -/
theorem lookup_of_mem {entries : List (String × Json φ)} (hnd : (entries.map Prod.fst).Nodup) {p : String × Json φ}
    (hp : p ∈ entries) : entries.lookup p.1 = some p.2 := by
  induction entries with
  | nil => cases hp
  | cons q entries ih =>
    obtain ⟨hq, hrest⟩ := List.nodup_cons.1 hnd
    rcases List.mem_cons.1 hp with rfl | hlater
    · exact List.lookup_cons_self
    · have hne : p.1 ≠ q.1 := fun heq => hq (heq ▸ List.mem_map_of_mem hlater)
      rw [List.lookup_cons, beq_false_of_ne hne]
      exact ih hrest hlater

theorem member_of_perm {entries fields : List (String × Json φ)} (hperm : entries.Perm fields)
    (hnd : (fields.map Prod.fst).Nodup) {p : String × Json φ} (hp : p ∈ fields) : member entries p.1 = some p.2 := by
  have hperm' := (List.reverse_perm entries).trans hperm
  exact lookup_of_mem ((hperm'.map Prod.fst).nodup_iff.2 hnd) (hperm'.mem_iff.2 hp)

/-- An object of exactly these fields, dumped in the order of their names. -/
def object (fields : Fields φ τ) (hnd : fields.names.Nodup) : Codec φ τ where
  dump t := .obj ((fields.dump t).insertionSort fun a b => a.1 ≤ b.1)
  load
    | .obj entries => if entries.all fun p => p.1 ∈ fields.names then fields.load (member entries) else none
    | _ => none
  Valid := fields.Valid
  load_dump t h := by
    have hperm := List.perm_insertionSort (fun a b : String × Json φ => a.1 ≤ b.1) (fields.dump t)
    have hnames : ((fields.dump t).insertionSort fun a b => a.1 ≤ b.1).all (fun p => p.1 ∈ fields.names) = true := by
      rw [List.all_eq_true]
      intro p hp
      rw [decide_eq_true_iff, ← fields.keys_dump t]
      exact List.mem_map_of_mem (hperm.mem_iff.1 hp)
    refine (if_pos hnames).trans ?_
    exact fields.load_dump t _ h fun p hp => member_of_perm hperm (by rw [fields.keys_dump]; exact hnd) hp
  valid_of_load j t h := by
    cases j with
    | obj entries =>
      dsimp only at h
      split at h
      · exact fields.valid_of_load _ t h
      · cases h
    | _ => cases h

/-! ## Texts -/

section
variable {α : Type} (F : FloatText φ) (c : Codec φ α)

/-- The text of a value. -/
def toText (a : α) : String := String.ofList (Json.write F (c.dump a))

def ofText (text : String) : Option α := (Json.parse F text.toList).bind c.load

variable {F} {c}

theorem ofText_toText (hF : F.Lawful) {a : α} (h : c.Valid a) : c.ofText F (c.toText F a) = some a := by
  rw [ofText, toText, String.toList_ofList, Json.parse_write hF, Option.bind_some, c.load_dump a h]

theorem valid_of_ofText {text : String} {a : α} (h : c.ofText F text = some a) : c.Valid a := by
  obtain ⟨j, -, h⟩ := Option.bind_eq_some_iff.1 h
  exact c.valid_of_load j a h

end

end Codec

end AgentHub.Lib
