import Mathlib.Algebra.BigOperators.Group.List.Basic
import Mathlib.Algebra.Ring.Nat
import AgentHub.Lib.Json
/-!
# How long a JSON text is

The octets of the compact text of a value, by its parts: an array grows with every item, and an object does not depend on
the order of its fields.
-/

namespace AgentHub.Lib.Json

/-- The octets of a text in UTF-8. -/
def octets (l : List Char) : Nat := (l.map Char.utf8Size).sum

@[simp] theorem octets_nil : octets [] = 0 := rfl

@[simp] theorem octets_cons (c : Char) (l : List Char) : octets (c :: l) = c.utf8Size + octets l := by
  simp [octets]

@[simp] theorem octets_append (a b : List Char) : octets (a ++ b) = octets a + octets b := by
  simp [octets]

variable {φ : Type} (F : FloatText φ)

/-- The octets of the text of a value. -/
def size (j : Json φ) : Nat := octets (write F j)

/-- The octets of a field, without the comma. -/
def fieldSize (f : String × Json φ) : Nat := octets (writeString f.1) + 1 + size F f.2

theorem octets_writeItems (items : List (Json φ)) :
    octets (writeItems F items) = 1 + (items.map (size F)).sum + items.length := by
  induction items with
  | nil => rfl
  | cons j items ih =>
    rw [writeItems, octets_cons, octets_append, ih, List.map_cons, List.sum_cons, List.length_cons, size]
    change 1 + _ = _
    omega

theorem octets_writeFields (fields : List (String × Json φ)) :
    octets (writeFields F fields) = 1 + (fields.map (fieldSize F)).sum + fields.length := by
  induction fields with
  | nil => rfl
  | cons f fields ih =>
    obtain ⟨key, j⟩ := f
    rw [writeFields, octets_cons, octets_append, octets_cons, octets_append, ih, List.map_cons, List.sum_cons, List.length_cons,
      fieldSize, size]
    change 1 + (_ + (1 + _)) = _
    dsimp only
    omega

theorem size_arr (items : List (Json φ)) : size F (.arr items) = 2 + (items.map (size F)).sum + (items.length - 1) := by
  cases items with
  | nil => rfl
  | cons j items =>
    rw [size, write, octets_cons, octets_append, octets_writeItems, List.map_cons, List.sum_cons, List.length_cons, size]
    change 1 + _ = _
    omega

theorem size_obj (fields : List (String × Json φ)) :
    size F (.obj fields) = 2 + (fields.map (fieldSize F)).sum + (fields.length - 1) := by
  cases fields with
  | nil => rfl
  | cons f fields =>
    obtain ⟨key, j⟩ := f
    rw [size, write, octets_cons, octets_append, octets_cons, octets_append, octets_writeFields, List.map_cons, List.sum_cons,
      List.length_cons, fieldSize, size]
    change 1 + (_ + (1 + _)) = _
    dsimp only
    omega

variable {F}

/-- More items make a longer text. -/
theorem size_arr_append (a b : List (Json φ)) : size F (.arr a) ≤ size F (.arr (a ++ b)) := by
  rw [size_arr, size_arr, List.map_append, List.sum_append, List.length_append]
  omega

theorem size_obj_perm {a b : List (String × Json φ)} (h : a.Perm b) : size F (.obj a) = size F (.obj b) := by
  rw [size_obj, size_obj, (h.map _).sum_eq, h.length_eq]

end AgentHub.Lib.Json
