import Mathlib.Algebra.Ring.Nat
import Mathlib.Tactic.Common
/-!
# UTF-8 with ill-formed input

`scan` looks at the first sequence of a byte string: a character, a maximal subpart of an ill-formed one, or the start of
one that the bytes do not finish. `pieces` goes through a whole string, and leaves what more bytes may finish; what has
been read does not depend on where the string was cut (`pieces_append`).
-/

namespace AgentHub.Lib

abbrev Bytes : Type := List UInt8

namespace Utf8

/-- The values that the bytes after a first byte may have, by the table of well-formed sequences. -/
def tailRanges (lead : UInt8) : Option (List (Nat × Nat)) :=
  let tail := (0x80, 0xBF)
  let n := lead.toNat
  if n < 0x80 then some []
  else if n < 0xC2 then none
  else if n < 0xE0 then some [tail]
  else if n = 0xE0 then some [(0xA0, 0xBF), tail]
  else if n = 0xED then some [(0x80, 0x9F), tail]
  else if n < 0xF0 then some [tail, tail]
  else if n = 0xF0 then some [(0x90, 0xBF), tail, tail]
  else if n < 0xF4 then some [tail, tail, tail]
  else if n = 0xF4 then some [(0x80, 0x8F), tail, tail]
  else none

/-- How bytes compare with the ranges they should be in. -/
inductive Follow where
  | complete
  /-- the bytes end first -/
  | ended
  /-- the first byte out of its range, counted from `0` -/
  | broken (k : Nat)
  deriving DecidableEq, Repr

def follow : List (Nat × Nat) → List UInt8 → Follow
  | [], _ => .complete
  | _ :: _, [] => .ended
  | r :: ranges, b :: bytes =>
    if r.1 ≤ b.toNat ∧ b.toNat ≤ r.2 then
      match follow ranges bytes with
      | .broken k => .broken (k + 1)
      | other => other
    else .broken 0

/-- The character of a well-formed sequence. -/
def charOf (lead : UInt8) (tail : List UInt8) : Char :=
  let high := match tail.length with
    | 0 => lead.toNat
    | 1 => lead.toNat % 32
    | 2 => lead.toNat % 16
    | _ => lead.toNat % 8
  Char.ofNat (tail.foldl (fun v b => v * 64 + b.toNat % 64) high)

/-- What a byte string starts with, and in how many bytes. -/
inductive Scan where
  | char (c : Char) (size : Nat)
  | illFormed (size : Nat)
  | incomplete
  deriving DecidableEq, Repr

def scan (lead : UInt8) (rest : List UInt8) : Scan :=
  match tailRanges lead with
  | none => .illFormed 1
  | some ranges =>
    match follow ranges rest with
    | .complete => .char (charOf lead (rest.take ranges.length)) (ranges.length + 1)
    | .ended => .incomplete
    | .broken k => .illFormed (k + 1)

section
variable {ranges : List (Nat × Nat)} {bytes more : List UInt8} {lead : UInt8} {rest : List UInt8}

theorem length_of_complete (h : follow ranges bytes = .complete) : ranges.length ≤ bytes.length := by
  fun_induction follow ranges bytes with
  | case1 => exact Nat.zero_le _
  | case2 => cases h
  | case3 => cases h
  | case4 r ranges b bytes _ _ ih =>
    simp only [List.length_cons]
    exact Nat.succ_le_succ (ih h)
  | case5 => cases h

theorem length_of_broken {k : Nat} (h : follow ranges bytes = .broken k) : k < bytes.length := by
  fun_induction follow ranges bytes generalizing k with
  | case1 => cases h
  | case2 => cases h
  | case3 r ranges b bytes _ j hj ih =>
    cases h
    exact Nat.succ_lt_succ (ih hj)
  | case4 r ranges b bytes _ hne ih => exact absurd h (hne k)
  | case5 =>
    cases h
    exact Nat.succ_pos _

/-- What was decided stays decided when bytes are added. -/
theorem follow_append (h : follow ranges bytes ≠ .ended) : follow ranges (bytes ++ more) = follow ranges bytes := by
  fun_induction follow ranges bytes with
  | case1 => rfl
  | case2 => exact absurd rfl h
  | case3 r ranges b bytes hr k hk ih =>
    rw [List.cons_append, follow, if_pos hr, ih (by simp [hk]), hk]
  | case4 r ranges b bytes hr hne ih =>
    rw [List.cons_append, follow, if_pos hr, ih h]
    split
    · next k hk => exact absurd hk (hne k)
    · rfl
  | case5 r ranges b bytes hr => rw [List.cons_append, follow, if_neg hr]

theorem follow_take {n : Nat} (h : follow ranges bytes = .complete) (hn : ranges.length ≤ n) :
    follow ranges (bytes.take n) = .complete := by
  fun_induction follow ranges bytes generalizing n with
  | case1 => rfl
  | case2 => cases h
  | case3 => cases h
  | case4 r ranges b bytes hr hne ih =>
    cases n with
    | zero => cases hn
    | succ n => rw [List.take_succ_cons, follow, if_pos hr, ih h (Nat.le_of_succ_le_succ hn)]
  | case5 => cases h

theorem scan_char_size {c : Char} {size : Nat} (h : scan lead rest = .char c size) :
    0 < size ∧ size ≤ rest.length + 1 := by
  unfold scan at h
  cases hranges : tailRanges lead with
  | none => simp [hranges] at h
  | some ranges =>
    rw [hranges] at h
    cases hfollow : follow ranges rest with
    | ended => simp [hfollow] at h
    | broken k => simp [hfollow] at h
    | complete =>
      simp only [hfollow, Scan.char.injEq] at h
      have hlength := length_of_complete hfollow
      omega

/-- A character is read the same when the string is cut after it. -/
theorem scan_take {c : Char} {size n : Nat} (h : scan lead rest = .char c size) (hn : size ≤ n + 1) :
    scan lead (rest.take n) = .char c size := by
  unfold scan at h ⊢
  cases hranges : tailRanges lead with
  | none => simp [hranges] at h
  | some ranges =>
    rw [hranges] at h
    cases hfollow : follow ranges rest with
    | ended => simp [hfollow] at h
    | broken k => simp [hfollow] at h
    | complete =>
      simp only [hfollow, Scan.char.injEq] at h
      have hle : ranges.length ≤ n := by omega
      simp only [follow_take hfollow hle, List.take_take, Nat.min_eq_left hle, h]

theorem scan_illFormed_size {size : Nat} (h : scan lead rest = .illFormed size) : 0 < size ∧ size ≤ rest.length + 1 := by
  unfold scan at h
  cases hranges : tailRanges lead with
  | none =>
    rw [hranges] at h
    cases h
    omega
  | some ranges =>
    rw [hranges] at h
    cases hfollow : follow ranges rest with
    | ended => simp [hfollow] at h
    | complete => simp [hfollow] at h
    | broken k =>
      simp only [hfollow, Scan.illFormed.injEq] at h
      have hlength := length_of_broken hfollow
      omega

theorem scan_append (h : scan lead rest ≠ .incomplete) : scan lead (rest ++ more) = scan lead rest := by
  unfold scan at h ⊢
  cases hranges : tailRanges lead with
  | none => rfl
  | some ranges =>
    rw [hranges] at h
    have hfollow : follow ranges rest ≠ .ended := by
      intro hended
      simp [hended] at h
    dsimp only
    rw [follow_append hfollow]
    cases hx : follow ranges rest with
    | ended => exact absurd hx hfollow
    | broken k => rfl
    | complete =>
      dsimp only
      rw [List.take_append_of_le_length (length_of_complete hx)]

end

/-! ## A whole byte string -/

/-- A character, or the number of bytes of a maximal subpart that is dropped. -/
inductive Piece where
  | char (c : Char)
  | dropped (size : Nat)
  deriving DecidableEq, Repr

/-- What a byte string holds, and its end when more bytes may finish it. -/
def pieces : List UInt8 → List Piece × List UInt8
  | [] => ([], [])
  | lead :: rest =>
    match _h : scan lead rest with
    | .incomplete => ([], lead :: rest)
    | .char c size =>
      let (found, tail) := pieces ((lead :: rest).drop size)
      (.char c :: found, tail)
    | .illFormed size =>
      let (found, tail) := pieces ((lead :: rest).drop size)
      (.dropped size :: found, tail)
termination_by bytes => bytes.length
decreasing_by
  · have hsize := scan_char_size _h
    simp only [List.length_drop, List.length_cons]
    omega
  · have hsize := scan_illFormed_size _h
    simp only [List.length_drop, List.length_cons]
    omega

def chars (found : List Piece) : List Char :=
  found.filterMap fun
    | .char c => some c
    | .dropped _ => none

/-- The number of bytes that were dropped. -/
def droppedBytes (found : List Piece) : Nat :=
  (found.map fun
    | .char _ => 0
    | .dropped size => size).sum

/-- The pieces of a byte string that nothing follows: an end that is not finished is dropped. -/
def finalPieces (bytes : List UInt8) : List Piece :=
  (pieces bytes).1 ++ if (pieces bytes).2 = [] then [] else [.dropped (pieces bytes).2.length]

section
variable {lead : UInt8} {rest : List UInt8}

@[simp] theorem pieces_nil : pieces [] = ([], []) := by rw [pieces]

theorem pieces_incomplete (h : scan lead rest = .incomplete) : pieces (lead :: rest) = ([], lead :: rest) := by
  rw [pieces]
  split
  · rfl
  · next h' => rw [h] at h'; cases h'
  · next h' => rw [h] at h'; cases h'

theorem pieces_char {c : Char} {size : Nat} (h : scan lead rest = .char c size) :
    pieces (lead :: rest) = (.char c :: (pieces ((lead :: rest).drop size)).1, (pieces ((lead :: rest).drop size)).2) := by
  rw [pieces]
  split
  · next h' => rw [h] at h'; cases h'
  · next h' =>
    rw [h] at h'
    cases h'
    rfl
  · next h' => rw [h] at h'; cases h'

theorem pieces_illFormed {size : Nat} (h : scan lead rest = .illFormed size) : pieces (lead :: rest) =
    (.dropped size :: (pieces ((lead :: rest).drop size)).1, (pieces ((lead :: rest).drop size)).2) := by
  rw [pieces]
  split
  · next h' => rw [h] at h'; cases h'
  · next h' => rw [h] at h'; cases h'
  · next h' =>
    rw [h] at h'
    cases h'
    rfl

end

/-- Where a byte string was cut does not matter: what was left over is read again with the rest. -/
theorem pieces_append (bytes more : List UInt8) :
    pieces (bytes ++ more) = ((pieces bytes).1 ++ (pieces ((pieces bytes).2 ++ more)).1, (pieces ((pieces bytes).2 ++ more)).2) := by
  fun_induction pieces bytes with
  | case1 => simp
  | case2 lead rest h => simp
  | case3 lead rest c size h found tail heq ih =>
    have hsize := scan_char_size h
    have happend : scan lead (rest ++ more) = .char c size := by
      rw [scan_append (by simp [h]), h]
    rw [List.cons_append, pieces_char happend, ← List.cons_append, List.drop_append_of_le_length (by simpa using hsize.2), ih, heq]
    rfl
  | case4 lead rest size h found tail heq ih =>
    have hsize := scan_illFormed_size h
    have happend : scan lead (rest ++ more) = .illFormed size := by
      rw [scan_append (by simp [h]), h]
    rw [List.cons_append, pieces_illFormed happend, ← List.cons_append, List.drop_append_of_le_length (by simpa using hsize.2),
      ih, heq]
    rfl

/-- What a string leaves holds nothing that can be read. -/
theorem pieces_left (bytes : List UInt8) : pieces (pieces bytes).2 = ([], (pieces bytes).2) := by
  have h := pieces_append bytes []
  rw [List.append_nil, List.append_nil] at h
  exact Prod.ext (List.self_eq_append_right.1 (congrArg Prod.fst h)) (congrArg Prod.snd h).symm

theorem finalPieces_append (bytes more : List UInt8) :
    finalPieces (bytes ++ more) = (pieces bytes).1 ++ finalPieces ((pieces bytes).2 ++ more) := by
  rw [finalPieces, finalPieces, pieces_append, List.append_assoc]

@[simp] theorem chars_append (found found' : List Piece) : chars (found ++ found') = chars found ++ chars found' :=
  List.filterMap_append

@[simp] theorem droppedBytes_append (found found' : List Piece) :
    droppedBytes (found ++ found') = droppedBytes found + droppedBytes found' := by
  simp [droppedBytes]

@[simp] theorem chars_map (text : List Char) : chars (text.map .char) = text := by
  induction text with
  | nil => rfl
  | cons c text ih => exact congrArg (c :: ·) ih

@[simp] theorem droppedBytes_map (text : List Char) : droppedBytes (text.map .char) = 0 := by
  induction text with
  | nil => rfl
  | cons c text ih =>
    rw [List.map_cons, ← ih]
    exact Nat.zero_add _

@[simp] theorem chars_nil : chars [] = [] := rfl

@[simp] theorem droppedBytes_nil : droppedBytes [] = 0 := rfl

@[simp] theorem chars_dropped (n : Nat) (found : List Piece) : chars (.dropped n :: found) = chars found := rfl

@[simp] theorem droppedBytes_dropped (n : Nat) (found : List Piece) :
    droppedBytes (.dropped n :: found) = n + droppedBytes found := by
  simp [droppedBytes]

theorem chars_eq_nil {found : List Piece} (h : ∀ piece ∈ found, ∃ k, piece = .dropped k) : chars found = [] := by
  refine List.filterMap_eq_nil_iff.2 fun piece hpiece => ?_
  obtain ⟨k, rfl⟩ := h piece hpiece
  rfl

/-! ## Decoding a string that may be cut short -/

/-- Where a strict decoder stops: the bytes from `start` to `stop` are a maximal subpart, or the end of the input is not
the end of a character. -/
structure DecodeError where
  start : Nat
  stop : Nat
  reason : String
  deriving DecidableEq, Repr

def endOfData : String := "unexpected end of data"

/-- A strict decoder. -/
def decode : List UInt8 → Except DecodeError (List Char)
  | [] => .ok []
  | lead :: rest =>
    match h : scan lead rest with
    | .incomplete => .error ⟨0, rest.length + 1, endOfData⟩
    | .illFormed size =>
      .error ⟨0, size, if (tailRanges lead).isNone then "invalid start byte" else "invalid continuation byte"⟩
    | .char c size =>
      match decode ((lead :: rest).drop size) with
      | .ok text => .ok (c :: text)
      | .error e => .error ⟨e.start + size, e.stop + size, e.reason⟩
termination_by bytes => bytes.length
decreasing_by
  have hsize := scan_char_size h
  simp only [List.length_drop, List.length_cons]
  omega

/-- What a strict decoder read of a string, before it stopped at `bytes.drop e.start`. -/
structure StoppedAt (bytes : List UInt8) (e : DecodeError) (text : List Char) : Prop where
  prefix_decodes : decode (bytes.take e.start) = .ok text
  pieces_eq : pieces bytes = (text.map .char ++ (pieces (bytes.drop e.start)).1, (pieces (bytes.drop e.start)).2)
  text_nil : e.start = 0 ↔ text = []
  stop : ∃ lead rest, bytes.drop e.start = lead :: rest ∧
    ((scan lead rest = .incomplete ∧ e.reason = endOfData ∧ e.stop = bytes.length) ∨
      (scan lead rest = .illFormed (e.stop - e.start) ∧ e.reason ≠ endOfData))

theorem decode_ok {bytes : List UInt8} {text : List Char} (h : decode bytes = .ok text) :
    pieces bytes = (text.map .char, []) := by
  fun_induction decode bytes generalizing text with
  | case1 =>
    cases h
    simp
  | case2 => cases h
  | case3 => cases h
  | case4 lead rest c size hscan text' heq ih =>
    cases h
    rw [pieces_char hscan, ih heq]
    rfl
  | case5 => cases h

theorem decode_char {lead : UInt8} {rest : List UInt8} {c : Char} {size : Nat} (h : scan lead rest = .char c size) :
    decode (lead :: rest) = match decode ((lead :: rest).drop size) with
      | .ok text => .ok (c :: text)
      | .error e => .error ⟨e.start + size, e.stop + size, e.reason⟩ := by
  rw [decode]
  split
  · next h' => rw [h] at h'; cases h'
  · next h' => rw [h] at h'; cases h'
  · next h' =>
    rw [h] at h'
    cases h'
    rfl

theorem decode_error {bytes : List UInt8} {e : DecodeError} (h : decode bytes = .error e) :
    ∃ text, StoppedAt bytes e text := by
  fun_induction decode bytes generalizing e with
  | case1 => cases h
  | case2 lead rest hscan =>
    cases h
    exact ⟨[], by simp [decode], by simp, by simp, lead, rest, rfl, .inl ⟨hscan, rfl, rfl⟩⟩
  | case3 lead rest size hscan =>
    cases h
    refine ⟨[], by simp [decode], by simp, by simp, lead, rest, rfl, .inr ⟨by simpa using hscan, ?_⟩⟩
    dsimp only
    split <;> decide
  | case4 => cases h
  | case5 lead rest c size hscan e' heq ih =>
    cases h
    have hsize := scan_char_size hscan
    obtain ⟨text, hprefix, hpieces, htext, lead', rest', hrest, hstop⟩ := ih heq
    have hdrop : (lead :: rest).drop (e'.start + size) = ((lead :: rest).drop size).drop e'.start := by
      rw [List.drop_drop, Nat.add_comm]
    refine ⟨c :: text, ?_, ?_, ?_, lead', rest', by rw [hdrop, hrest], ?_⟩
    · -- the character is whole in the prefix
      obtain ⟨n, hn⟩ : ∃ n, e'.start + size = n + 1 := ⟨e'.start + size - 1, by omega⟩
      have hscan' : scan lead (rest.take n) = .char c size := scan_take hscan (by omega)
      have hrest : (lead :: rest.take n).drop size = ((lead :: rest).drop size).take e'.start := by
        rw [← List.take_succ_cons, ← hn, List.drop_take, Nat.add_sub_cancel]
      dsimp only
      rw [hn, List.take_succ_cons, decode_char hscan', hrest, hprefix]
    · rw [pieces_char hscan, hpieces, hdrop]
      rfl
    · have hne : size ≠ 0 := by omega
      simp [hne]
    · rcases hstop with ⟨hs, hr, hl⟩ | ⟨hs, hr⟩
      · refine .inl ⟨hs, hr, ?_⟩
        simp only [hl, List.length_drop, List.length_cons]
        omega
      · exact .inr ⟨by rw [hs, Nat.add_sub_add_right], hr⟩

/-! ## The decoder reads what the encoder writes -/

theorem toNat_ofNat_small {n : Nat} (h : n < 256) : (UInt8.ofNat n).toNat = n := by
  rw [UInt8.toNat_ofNat', Nat.mod_eq_of_lt h]

theorem scan_encode (c : Char) : ∃ lead tail, String.utf8EncodeChar c = lead :: tail ∧
    ∀ rest, scan lead (tail ++ rest) = .char c (tail.length + 1) := by
  have hvalid : c.val.toNat < 0xD800 ∨ (0xDFFF < c.val.toNat ∧ c.val.toNat < 0x110000) := c.valid
  have hc : Char.ofNat c.val.toNat = c := Char.ofNat_toNat c
  unfold String.utf8EncodeChar
  generalize c.val.toNat = v at hvalid hc
  subst hc
  dsimp only
  split
  · next h =>
    refine ⟨_, _, rfl, fun rest => ?_⟩
    simp [scan, tailRanges, follow, charOf, toNat_ofNat_small (n := v) (by omega), show v < 128 by omega]
  split
  · next h₁ h₂ =>
    refine ⟨_, _, rfl, fun rest => ?_⟩
    have hl := toNat_ofNat_small (n := v / 64 % 32 + 192) (by omega)
    have ht := toNat_ofNat_small (n := v % 64 + 128) (by omega)
    have hranges : tailRanges (UInt8.ofNat (v / 64 % 32 + 192)) = some [(0x80, 0xBF)] := by
      unfold tailRanges
      rw [hl, if_neg (by omega), if_neg (by omega), if_pos (by omega)]
    have hvalue : (v / 64 % 32 + 192) % 32 * 64 + (v % 64 + 128) % 64 = v := by omega
    simp only [scan, hranges, follow, List.cons_append, List.nil_append, ht, charOf, hl, List.length_cons, List.length_nil,
      List.take_succ_cons, List.take_zero, List.foldl_cons, List.foldl_nil, hvalue]
    rw [if_pos (by omega)]
  split
  · next h₁ h₂ h₃ =>
    refine ⟨_, _, rfl, fun rest => ?_⟩
    have hl := toNat_ofNat_small (n := v / 4096 % 16 + 224) (by omega)
    have ht := toNat_ofNat_small (n := v / 64 % 64 + 128) (by omega)
    have hu := toNat_ofNat_small (n := v % 64 + 128) (by omega)
    have hranges : ∃ r : Nat × Nat, tailRanges (UInt8.ofNat (v / 4096 % 16 + 224)) = some [r, (0x80, 0xBF)] ∧
        r.1 ≤ v / 64 % 64 + 128 ∧ v / 64 % 64 + 128 ≤ r.2 := by
      unfold tailRanges
      rw [hl, if_neg (by omega), if_neg (by omega), if_neg (by omega)]
      split
      · exact ⟨_, rfl, by dsimp only; omega, by dsimp only; omega⟩
      split
      · exact ⟨_, rfl, by dsimp only; omega, by dsimp only; omega⟩
      · rw [if_pos (by omega)]
        exact ⟨_, rfl, by dsimp only; omega, by dsimp only; omega⟩
    obtain ⟨r, hranges, hr⟩ := hranges
    have hvalue : ((v / 4096 % 16 + 224) % 16 * 64 + (v / 64 % 64 + 128) % 64) * 64 + (v % 64 + 128) % 64 = v := by omega
    simp only [scan, hranges, follow, List.cons_append, List.nil_append, ht, hu, charOf, hl, List.length_cons,
      List.length_nil, List.take_succ_cons, List.take_zero, List.foldl_cons, List.foldl_nil, hvalue]
    rw [if_pos hr, if_pos (by omega)]
  · next h₁ h₂ h₃ =>
    refine ⟨_, _, rfl, fun rest => ?_⟩
    have hl := toNat_ofNat_small (n := v / 262144 % 8 + 240) (by omega)
    have ht := toNat_ofNat_small (n := v / 4096 % 64 + 128) (by omega)
    have hu := toNat_ofNat_small (n := v / 64 % 64 + 128) (by omega)
    have hw := toNat_ofNat_small (n := v % 64 + 128) (by omega)
    have hranges : ∃ r : Nat × Nat, tailRanges (UInt8.ofNat (v / 262144 % 8 + 240)) =
        some [r, (0x80, 0xBF), (0x80, 0xBF)] ∧ r.1 ≤ v / 4096 % 64 + 128 ∧ v / 4096 % 64 + 128 ≤ r.2 := by
      unfold tailRanges
      rw [hl, if_neg (by omega), if_neg (by omega), if_neg (by omega), if_neg (by omega), if_neg (by omega),
        if_neg (by omega)]
      split
      · exact ⟨_, rfl, by dsimp only; omega, by dsimp only; omega⟩
      split
      · exact ⟨_, rfl, by dsimp only; omega, by dsimp only; omega⟩
      · rw [if_pos (by omega)]
        exact ⟨_, rfl, by dsimp only; omega, by dsimp only; omega⟩
    obtain ⟨r, hranges, hr⟩ := hranges
    have hvalue : (((v / 262144 % 8 + 240) % 8 * 64 + (v / 4096 % 64 + 128) % 64) * 64 + (v / 64 % 64 + 128) % 64) * 64 +
        (v % 64 + 128) % 64 = v := by
      omega
    simp only [scan, hranges, follow, List.cons_append, List.nil_append, ht, hu, hw, charOf, hl, List.length_cons,
      List.length_nil, List.take_succ_cons, List.take_zero, List.foldl_cons, List.foldl_nil, hvalue]
    rw [if_pos hr, if_pos (by omega), if_pos (by omega)]

def encode (text : List Char) : List UInt8 := text.flatMap String.utf8EncodeChar

theorem pieces_encode (text : List Char) (more : List UInt8) :
    pieces (encode text ++ more) = (text.map .char ++ (pieces more).1, (pieces more).2) := by
  induction text with
  | nil => rfl
  | cons c text ih =>
    obtain ⟨lead, tail, hencode, hscan⟩ := scan_encode c
    have hbytes : encode (c :: text) ++ more = lead :: (tail ++ (encode text ++ more)) := by
      rw [encode, List.flatMap_cons, hencode, List.cons_append, List.cons_append, List.append_assoc]
      rfl
    rw [hbytes, pieces_char (hscan _), List.drop_succ_cons, List.drop_left, ih]
    rfl

end Utf8

end AgentHub.Lib
