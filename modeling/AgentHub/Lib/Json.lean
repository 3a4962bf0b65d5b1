import Mathlib.Data.List.Sort
import Mathlib.Tactic.Common
/-!
# JSON texts

JSON values over a type of floats, the compact text of a value, and a reader. `parse_write`: the reader inverts the
writer, for every value. Floats come with their own text (`FloatText`), of which only the round trip is assumed.
-/

namespace AgentHub.Lib

inductive Json (φ : Type) where
  | null
  | bool (b : Bool)
  | int (n : Int)
  | float (x : φ)
  | str (s : String)
  | arr (items : List (Json φ))
  | obj (fields : List (String × Json φ))

namespace Json

/-! ## Characters -/

def quote : Char := Char.ofNat 34

def backslash : Char := Char.ofNat 92

def openBrace : Char := Char.ofNat 123

def closeBrace : Char := Char.ofNat 125

def isBlank (c : Char) : Bool := c = ' ' || c = '\n' || c = '\r' || c = '\t'

def isNumberChar (c : Char) : Bool := c.isDigit || c = '-' || c = '+' || c = '.' || c = 'e' || c = 'E'

/-- A character inside a string; the others than these stand for themselves. -/
def escape (c : Char) : List Char :=
  match c.toNat with
  | 34 => [backslash, quote]
  | 92 => [backslash, backslash]
  | 8 => [backslash, 'b']
  | 9 => [backslash, 't']
  | 10 => [backslash, 'n']
  | 12 => [backslash, 'f']
  | 13 => [backslash, 'r']
  | code =>
    if code < 32 then [backslash, 'u', '0', '0', Nat.digitChar (code / 16), Nat.digitChar (code % 16)] else [c]

/-! ## Writing -/

def writeString (s : String) : List Char := quote :: (s.toList.flatMap escape ++ [quote])

def writeInt (n : Int) : List Char :=
  if n < 0 then '-' :: Nat.toDigits 10 n.natAbs else Nat.toDigits 10 n.natAbs

end Json

/-- How floats are written and read. -/
structure FloatText (φ : Type) where
  write : φ → List Char
  read : List Char → Option φ

namespace Json

section
variable {φ : Type} (F : FloatText φ)

mutual

/-- The compact text of a value. -/
def write : Json φ → List Char
  | .null => ['n', 'u', 'l', 'l']
  | .bool true => ['t', 'r', 'u', 'e']
  | .bool false => ['f', 'a', 'l', 's', 'e']
  | .int n => writeInt n
  | .float x => F.write x
  | .str s => writeString s
  | .arr [] => ['[', ']']
  | .arr (j :: items) => '[' :: (write j ++ writeItems items)
  | .obj [] => [openBrace, closeBrace]
  | .obj ((key, j) :: fields) => openBrace :: (writeString key ++ ':' :: (write j ++ writeFields fields))

/-- The items after the first. -/
def writeItems : List (Json φ) → List Char
  | [] => [']']
  | j :: items => ',' :: (write j ++ writeItems items)

/-- The fields after the first. -/
def writeFields : List (String × Json φ) → List Char
  | [] => [closeBrace]
  | (key, j) :: fields => ',' :: (writeString key ++ ':' :: (write j ++ writeFields fields))

end

/-! ## The length of a text -/

mutual

/-- A bound on the length of the text of a value. -/
def width : Json φ → Nat
  | .null => 4
  | .bool _ => 5
  | .int n => (writeInt n).length
  | .float x => (F.write x).length
  | .str s => 6 * s.length + 2
  | .arr items => widthItems items + 2
  | .obj fields => widthFields fields + 2

def widthItems : List (Json φ) → Nat
  | [] => 0
  | j :: items => width j + 1 + widthItems items

def widthFields : List (String × Json φ) → Nat
  | [] => 0
  | (key, j) :: fields => 6 * key.length + 4 + width j + widthFields fields

end

theorem length_escape_le (c : Char) : (escape c).length ≤ 6 := by
  unfold escape
  split
  iterate 7 simp
  split <;> simp

theorem length_writeString_le (s : String) : (writeString s).length ≤ 6 * s.length + 2 := by
  have hflat : ∀ l : List Char, (l.flatMap escape).length ≤ 6 * l.length := by
    intro l
    induction l with
    | nil => simp
    | cons c l ih =>
      have := length_escape_le c
      simp only [List.flatMap_cons, List.length_append, List.length_cons]
      omega
  have := hflat s.toList
  rw [String.length_toList] at this
  simp only [writeString, List.length_cons, List.length_append, List.length_nil]
  omega

mutual

theorem length_write_le : ∀ j : Json φ, (write F j).length ≤ width F j
  | .null => by rw [write, width]; simp
  | .bool true => by rw [write, width]; simp
  | .bool false => by rw [write, width]; simp
  | .int n => by rw [write, width]
  | .float x => by rw [write, width]
  | .str s => by
    rw [write, width]
    exact length_writeString_le s
  | .arr [] => by rw [write, width]; simp
  | .arr (j :: items) => by
    have hj := length_write_le j
    have hitems := length_writeItems_le items
    rw [write, width, widthItems, List.length_cons, List.length_append]
    omega
  | .obj [] => by rw [write, width]; simp
  | .obj ((key, j) :: fields) => by
    have hkey := length_writeString_le key
    have hj := length_write_le j
    have hfields := length_writeFields_le fields
    rw [write, width, widthFields, List.length_cons, List.length_append, List.length_cons, List.length_append]
    omega

theorem length_writeItems_le : ∀ items : List (Json φ), (writeItems F items).length ≤ widthItems F items + 1
  | [] => by rw [writeItems, widthItems]; simp
  | j :: items => by
    have hj := length_write_le j
    have hitems := length_writeItems_le items
    rw [writeItems, widthItems, List.length_cons, List.length_append]
    omega

theorem length_writeFields_le : ∀ fields : List (String × Json φ),
    (writeFields F fields).length ≤ widthFields F fields + 1
  | [] => by rw [writeFields, widthFields]; simp
  | (key, j) :: fields => by
    have hkey := length_writeString_le key
    have hj := length_write_le j
    have hfields := length_writeFields_le fields
    rw [writeFields, widthFields, List.length_cons, List.length_append, List.length_cons, List.length_append]
    omega

end

/-- The order of the fields does not matter. -/
theorem widthFields_perm {fields fields' : List (String × Json φ)} (h : fields.Perm fields') :
    widthFields F fields = widthFields F fields' := by
  induction h with
  | nil => rfl
  | cons x _ ih => rw [widthFields, widthFields, ih]
  | swap x y l =>
    simp only [widthFields]
    omega
  | trans _ _ ih ih' => rw [ih, ih']

/-! ## Reading -/

def skipBlanks (text : List Char) : List Char := text.dropWhile isBlank

def hexValue (c : Char) : Option Nat :=
  if c.isDigit then some (c.toNat - 48)
  else if 'a' ≤ c ∧ c ≤ 'f' then some (c.toNat - 87)
  else if 'A' ≤ c ∧ c ≤ 'F' then some (c.toNat - 55)
  else none

/-- Four hexadecimal digits, and what follows them. -/
def readHex : List Char → Option (Nat × List Char)
  | a :: b :: c :: d :: rest => do
    let a ← hexValue a
    let b ← hexValue b
    let c ← hexValue c
    let d ← hexValue d
    some (4096 * a + 256 * b + 16 * c + d, rest)
  | _ => none

/-- The character of an escape after `\u`; a high surrogate wants a low one behind it. -/
def readUnicode (text : List Char) : Option (Char × List Char) := do
  let (code, rest) ← readHex text
  if 55296 ≤ code ∧ code < 56320 then
    match rest with
    | b :: u :: rest => do
      let (low, rest) ← readHex rest
      if b = backslash ∧ u = 'u' ∧ 56320 ≤ low ∧ low < 57344 then
        some (Char.ofNat (65536 + 1024 * (code - 55296) + (low - 56320)), rest)
      else none
    | _ => none
  else if 56320 ≤ code ∧ code < 57344 then none
  else some (Char.ofNat code, rest)

/-- The character of an escape after the backslash. -/
def readEscape : List Char → Option (Char × List Char)
  | [] => none
  | c :: rest =>
    if c = quote ∨ c = backslash ∨ c = '/' then some (c, rest)
    else if c = 'b' then some (Char.ofNat 8, rest)
    else if c = 't' then some (Char.ofNat 9, rest)
    else if c = 'n' then some (Char.ofNat 10, rest)
    else if c = 'f' then some (Char.ofNat 12, rest)
    else if c = 'r' then some (Char.ofNat 13, rest)
    else if c = 'u' then readUnicode rest
    else none

/-- The rest of a string, up to its closing quote. -/
def readString : Nat → List Char → Option (List Char × List Char)
  | 0, _ => none
  | _ + 1, [] => none
  | fuel + 1, c :: rest =>
    if c = quote then some ([], rest)
    else if c = backslash then do
      let (c, rest) ← readEscape rest
      let (s, rest) ← readString fuel rest
      some (c :: s, rest)
    else if c.toNat < 32 then none
    else do
      let (s, rest) ← readString fuel rest
      some (c :: s, rest)

/-- The digits of an integer: a sign, then digits. -/
def integerDigits : List Char → Option (Bool × List Char)
  | '-' :: digits => if digits ≠ [] ∧ digits.all Char.isDigit then some (true, digits) else none
  | digits => if digits ≠ [] ∧ digits.all Char.isDigit then some (false, digits) else none

def readNumber (text : List Char) : Option (Json φ × List Char) :=
  let token := text.takeWhile isNumberChar
  let rest := text.dropWhile isNumberChar
  match integerDigits token with
  | some (true, digits) => some (.int (-(Nat.ofDigitChars 10 digits 0 : Nat)), rest)
  | some (false, digits) => some (.int (Nat.ofDigitChars 10 digits 0 : Nat), rest)
  | none => (F.read token).map fun x => (.float x, rest)

/-- A key and the colon behind it. -/
def readKey (fuel : Nat) (text : List Char) : Option (String × List Char) :=
  match skipBlanks text with
  | [] => none
  | c :: rest =>
    if c = quote then do
      let (key, rest) ← readString fuel rest
      match skipBlanks rest with
      | [] => none
      | c :: rest => if c = ':' then some (String.ofList key, rest) else none
    else none

mutual

def read : Nat → List Char → Option (Json φ × List Char)
  | 0, _ => none
  | fuel + 1, text =>
    match skipBlanks text with
    | [] => none
    | c :: rest =>
      if c = quote then (readString fuel rest).map fun p => (.str (String.ofList p.1), p.2)
      else if c = '[' then
        match skipBlanks rest with
        | [] => none
        | d :: after =>
          if d = ']' then some (.arr [], after)
          else do
            let (j, rest) ← read fuel (d :: after)
            let (items, rest) ← readItems fuel rest
            some (.arr (j :: items), rest)
      else if c = openBrace then
        match skipBlanks rest with
        | [] => none
        | d :: after =>
          if d = closeBrace then some (.obj [], after)
          else do
            let (key, rest) ← readKey fuel (d :: after)
            let (j, rest) ← read fuel rest
            let (fields, rest) ← readFields fuel rest
            some (.obj ((key, j) :: fields), rest)
      else if rest.take 3 = ['u', 'l', 'l'] ∧ c = 'n' then some (.null, rest.drop 3)
      else if rest.take 3 = ['r', 'u', 'e'] ∧ c = 't' then some (.bool true, rest.drop 3)
      else if rest.take 4 = ['a', 'l', 's', 'e'] ∧ c = 'f' then some (.bool false, rest.drop 4)
      else readNumber F (c :: rest)

/-- The items after the first, up to the closing bracket. -/
def readItems : Nat → List Char → Option (List (Json φ) × List Char)
  | 0, _ => none
  | fuel + 1, text =>
    match skipBlanks text with
    | [] => none
    | c :: rest =>
      if c = ']' then some ([], rest)
      else if c = ',' then do
        let (j, rest) ← read fuel rest
        let (items, rest) ← readItems fuel rest
        some (j :: items, rest)
      else none

/-- The fields after the first, up to the closing brace. -/
def readFields : Nat → List Char → Option (List (String × Json φ) × List Char)
  | 0, _ => none
  | fuel + 1, text =>
    match skipBlanks text with
    | [] => none
    | c :: rest =>
      if c = closeBrace then some ([], rest)
      else if c = ',' then do
        let (key, rest) ← readKey fuel rest
        let (j, rest) ← read fuel rest
        let (fields, rest) ← readFields fuel rest
        some ((key, j) :: fields, rest)
      else none

end

/-- The value of a text that holds nothing else. -/
def parse (text : List Char) : Option (Json φ) := do
  let (j, rest) ← read F (text.length + 1) text
  if skipBlanks rest = [] then some j else none

end

/-! ## Strings read back -/

theorem hexValue_digitChar : ∀ k < 16, hexValue (Nat.digitChar k) = some k := by
  decide

theorem readUnicode_control {code : Nat} (h : code < 32) (rest : List Char) :
    readUnicode ('0' :: '0' :: Nat.digitChar (code / 16) :: Nat.digitChar (code % 16) :: rest) =
      some (Char.ofNat code, rest) := by
  have h0 : hexValue '0' = some 0 := by decide
  have hcode : 4096 * 0 + 256 * 0 + 16 * (code / 16) + code % 16 = code := by omega
  have hhigh : ¬ (55296 ≤ code ∧ code < 56320) := by omega
  have hlow : ¬ (56320 ≤ code ∧ code < 57344) := by omega
  simp only [readUnicode, readHex, h0, hexValue_digitChar _ (show code / 16 < 16 by omega),
    hexValue_digitChar _ (show code % 16 < 16 by omega), Option.bind_eq_bind, Option.bind_some, hcode, if_neg hhigh,
    if_neg hlow]

theorem eq_ofNat {c : Char} {code : Nat} (h : c.toNat = code) : c = Char.ofNat code := by
  rw [← h, Char.ofNat_toNat]

/-- An escape that names a character is read as that character. -/
theorem readString_escape {c d : Char} {fuel : Nat} {text rest : List Char} (h : readEscape (d :: text) = some (c, rest)) :
    readString (fuel + 1) (backslash :: d :: text) = (readString fuel rest).map fun p => (c :: p.1, p.2) := by
  rw [readString, if_neg (by decide), if_pos rfl, h, Option.bind_eq_bind, Option.bind_some]
  dsimp only
  cases readString fuel rest <;> rfl

/-- One written character is read back with one unit of fuel. -/
theorem readString_cons (c : Char) (fuel : Nat) (text : List Char) :
    readString (fuel + 1) (escape c ++ text) = (readString fuel text).map fun p => (c :: p.1, p.2) := by
  unfold escape
  split
  next h => exact readString_escape (by rw [eq_ofNat h]; rfl)
  next h => exact readString_escape (by rw [eq_ofNat h]; rfl)
  next h => exact readString_escape (by rw [eq_ofNat h]; rfl)
  next h => exact readString_escape (by rw [eq_ofNat h]; rfl)
  next h => exact readString_escape (by rw [eq_ofNat h]; rfl)
  next h => exact readString_escape (by rw [eq_ofNat h]; rfl)
  next h => exact readString_escape (by rw [eq_ofNat h]; rfl)
  next hquote hbackslash _ _ _ _ _ =>
    split
    next h =>
      have hcontrol := readUnicode_control h text
      rw [Char.ofNat_toNat] at hcontrol
      exact readString_escape hcontrol
    next h =>
      have hq : c ≠ quote := fun hc => hquote (by rw [hc]; rfl)
      have hb : c ≠ backslash := fun hc => hbackslash (by rw [hc]; rfl)
      rw [List.singleton_append, readString, if_neg hq, if_neg hb, if_neg h]
      cases readString fuel text <;> rfl

theorem readString_chars (s : List Char) (rest : List Char) : ∀ fuel, s.length < fuel →
    readString fuel (s.flatMap escape ++ quote :: rest) = some (s, rest) := by
  induction s with
  | nil =>
    intro fuel hfuel
    obtain ⟨fuel, rfl⟩ := Nat.exists_eq_succ_of_ne_zero (by omega : fuel ≠ 0)
    rw [List.flatMap_nil, List.nil_append, readString, if_pos rfl]
  | cons c s ih =>
    intro fuel hfuel
    obtain ⟨fuel, rfl⟩ := Nat.exists_eq_succ_of_ne_zero (by omega : fuel ≠ 0)
    rw [List.length_cons] at hfuel
    rw [List.flatMap_cons, List.append_assoc, readString_cons, ih fuel (by omega)]
    rfl

theorem length_le_escaped (s : List Char) : s.length ≤ (s.flatMap escape).length := by
  induction s with
  | nil => exact Nat.le_refl _
  | cons c s ih =>
    have hc : 1 ≤ (escape c).length := by
      unfold escape
      split
      all_goals try exact Nat.le_add_left _ _
      split <;> exact Nat.le_add_left _ _
    rw [List.flatMap_cons, List.length_append, List.length_cons]
    omega

/-- A written string, behind its opening quote, is read back. -/
theorem readString_write {s : String} {fuel : Nat} (h : (writeString s).length ≤ fuel + 1) (rest : List Char) :
    readString fuel (s.toList.flatMap escape ++ quote :: rest) = some (s.toList, rest) := by
  apply readString_chars
  have hlen := length_le_escaped s.toList
  simp only [writeString, List.length_cons, List.length_append, List.length_nil] at h
  omega

/-! ## Numbers read back -/

/-- The text goes on with no character of a number. -/
def Stops (rest : List Char) : Prop := rest.takeWhile isNumberChar = []

theorem Stops.cons {c : Char} (hc : isNumberChar c = false) (rest : List Char) : Stops (c :: rest) := by
  unfold Stops
  rw [List.takeWhile_cons_of_neg (by simp [hc])]

theorem token_append {token rest : List Char} (htoken : ∀ c ∈ token, isNumberChar c = true) (hrest : Stops rest) :
    (token ++ rest).takeWhile isNumberChar = token ∧ (token ++ rest).dropWhile isNumberChar = rest := by
  have hdrop : rest.dropWhile isNumberChar = rest := by
    have happend := List.takeWhile_append_dropWhile (p := isNumberChar) (l := rest)
    rwa [show rest.takeWhile isNumberChar = [] from hrest, List.nil_append] at happend
  constructor
  · rw [List.takeWhile_append_of_pos htoken, show rest.takeWhile isNumberChar = [] from hrest, List.append_nil]
  · rw [List.dropWhile_append_of_pos htoken, hdrop]

theorem isNumberChar_of_isDigit {c : Char} (h : c.isDigit = true) : isNumberChar c = true := by
  simp [isNumberChar, h]

theorem isDigit_toDigits {n : Nat} {c : Char} (h : c ∈ Nat.toDigits 10 n) : c.isDigit = true :=
  Nat.isDigit_of_mem_toDigits (by omega) (by omega) h

theorem integerDigits_toDigits (n : Nat) : integerDigits (Nat.toDigits 10 n) = some (false, Nat.toDigits 10 n) := by
  have hall : (Nat.toDigits 10 n).all Char.isDigit = true := List.all_eq_true.2 fun c hc => isDigit_toDigits hc
  unfold integerDigits
  split
  next digits hdigits =>
    rw [hdigits] at hall
    cases hall
  next => rw [if_pos ⟨Nat.toDigits_ne_nil, hall⟩]

theorem readNumber_writeInt {φ : Type} (F : FloatText φ) (n : Int) {rest : List Char} (hrest : Stops rest) :
    readNumber F (writeInt n ++ rest) = some (.int n, rest) := by
  have hall : (Nat.toDigits 10 n.natAbs).all Char.isDigit = true := List.all_eq_true.2 fun c hc => isDigit_toDigits hc
  have hdigits : ∀ c ∈ Nat.toDigits 10 n.natAbs, isNumberChar c = true := fun c hc =>
    isNumberChar_of_isDigit (isDigit_toDigits hc)
  unfold writeInt
  split
  next hneg =>
    have htoken : ∀ c ∈ '-' :: Nat.toDigits 10 n.natAbs, isNumberChar c = true :=
      List.forall_mem_cons.2 ⟨by decide, hdigits⟩
    obtain ⟨htake, hdrop⟩ := token_append htoken hrest
    have hint : integerDigits ('-' :: Nat.toDigits 10 n.natAbs) = some (true, Nat.toDigits 10 n.natAbs) :=
      if_pos ⟨Nat.toDigits_ne_nil, hall⟩
    simp only [readNumber, htake, hdrop, hint, Nat.ofDigitChars_ten_toDigits]
    congr 3
    omega
  next hpos =>
    obtain ⟨htake, hdrop⟩ := token_append hdigits hrest
    simp only [readNumber, htake, hdrop, integerDigits_toDigits, Nat.ofDigitChars_ten_toDigits]
    congr 3
    omega

end Json

/-- What is assumed of the text of floats: it is a number but no integer, and is read back as the float. -/
structure FloatText.Lawful {φ : Type} (F : FloatText φ) : Prop where
  isNumber (x : φ) : ∀ c ∈ F.write x, Json.isNumberChar c = true
  ne_nil (x : φ) : F.write x ≠ []
  notInteger (x : φ) : Json.integerDigits (F.write x) = none
  read_write (x : φ) : F.read (F.write x) = some x

namespace Json

section
variable {φ : Type} {F : FloatText φ}

theorem readNumber_float (hF : F.Lawful) (x : φ) {rest : List Char} (hrest : Stops rest) :
    readNumber F (F.write x ++ rest) = some (.float x, rest) := by
  obtain ⟨htake, hdrop⟩ := token_append (hF.isNumber x) hrest
  simp only [readNumber, htake, hdrop, hF.notInteger, hF.read_write, Option.map_some]

/-! ## Values read back -/

/-- The characters that begin a value. -/
def begins (c : Char) : Bool :=
  isNumberChar c || c = quote || c = '[' || c = openBrace || c = 'n' || c = 't' || c = 'f'

theorem begins_number {c : Char} (h : isNumberChar c = true) : begins c = true := by
  simp [begins, h]

theorem writeInt_begins (n : Int) : ∃ c text, writeInt n = c :: text ∧ isNumberChar c = true := by
  rw [writeInt]
  split
  · exact ⟨_, _, rfl, by decide⟩
  · cases hdigits : Nat.toDigits 10 n.natAbs with
    | nil => exact absurd hdigits Nat.toDigits_ne_nil
    | cons c text =>
      have hc : c ∈ Nat.toDigits 10 n.natAbs := hdigits ▸ List.mem_cons_self
      exact ⟨c, text, rfl, isNumberChar_of_isDigit (isDigit_toDigits hc)⟩

theorem write_begins (hF : F.Lawful) (j : Json φ) : ∃ c text, write F j = c :: text ∧ begins c = true := by
  cases j with
  | null => exact ⟨_, _, by rw [write], by decide⟩
  | bool b => cases b <;> exact ⟨_, _, by rw [write], by decide⟩
  | int n =>
    obtain ⟨c, text, htext, hc⟩ := writeInt_begins n
    exact ⟨c, text, by rw [write, htext], begins_number hc⟩
  | float x =>
    rw [write]
    cases hx : F.write x with
    | nil => exact absurd hx (hF.ne_nil x)
    | cons c text => exact ⟨c, text, rfl, begins_number (hF.isNumber x c (hx ▸ List.mem_cons_self))⟩
  | str s => exact ⟨_, _, by rw [write, writeString], by decide⟩
  | arr items => cases items <;> exact ⟨_, _, by rw [write], by decide⟩
  | obj fields => cases fields <;> exact ⟨_, _, by rw [write], by decide⟩

/-- A character that begins a value is no blank and does not close a list. -/
theorem begins_ne {c : Char} (h : begins c = true) : isBlank c = false ∧ c ≠ ']' := by
  constructor
  · apply Bool.eq_false_of_not_eq_true
    intro hblank
    simp only [isBlank, Bool.or_eq_true, decide_eq_true_eq] at hblank
    rcases hblank with ((rfl | rfl) | rfl) | rfl <;> revert h <;> decide
  · rintro rfl
    revert h
    decide

theorem skipBlanks_cons {c : Char} (hc : isBlank c = false) (text : List Char) : skipBlanks (c :: text) = c :: text := by
  unfold skipBlanks
  rw [List.dropWhile_cons_of_neg (by simp [hc])]

theorem writeItems_stops (items : List (Json φ)) (rest : List Char) : Stops (writeItems F items ++ rest) := by
  cases items with
  | nil => rw [writeItems]; exact .cons (by decide) _
  | cons j items => rw [writeItems]; exact .cons (by decide) _

theorem writeFields_stops (fields : List (String × Json φ)) (rest : List Char) :
    Stops (writeFields F fields ++ rest) := by
  cases fields with
  | nil => rw [writeFields]; exact .cons (by decide) _
  | cons field fields =>
    obtain ⟨key, j⟩ := field
    rw [writeFields]
    exact .cons (by decide) _

theorem readKey_write {key : String} {fuel : Nat} (h : (writeString key).length ≤ fuel + 1) (rest : List Char) :
    readKey fuel (writeString key ++ ':' :: rest) = some (key, rest) := by
  have hread := readString_write h (':' :: rest)
  have htext : writeString key ++ ':' :: rest = quote :: (key.toList.flatMap escape ++ quote :: ':' :: rest) := by
    simp [writeString]
  rw [readKey, htext, skipBlanks_cons (by decide)]
  dsimp only
  rw [if_pos rfl, hread, Option.bind_eq_bind, Option.bind_some]
  dsimp only
  rw [skipBlanks_cons (by decide)]
  dsimp only
  rw [if_pos rfl, String.ofList_toList]

theorem number_ne {c : Char} (h : isNumberChar c = true) :
    c ≠ quote ∧ c ≠ '[' ∧ c ≠ openBrace ∧ c ≠ 'n' ∧ c ≠ 't' ∧ c ≠ 'f' := by
  refine ⟨?_, ?_, ?_, ?_, ?_, ?_⟩ <;> rintro rfl <;> revert h <;> decide

theorem read_number {c : Char} {fuel : Nat} {text : List Char} (hc : isNumberChar c = true) :
    read F (fuel + 1) (c :: text) = readNumber F (c :: text) := by
  obtain ⟨hquote, hbracket, hbrace, hn, ht, hf⟩ := number_ne hc
  rw [read, skipBlanks_cons (begins_ne (begins_number hc)).1]
  dsimp only
  rw [if_neg hquote, if_neg hbracket, if_neg hbrace, if_neg (fun h => hn h.2), if_neg (fun h => ht h.2),
    if_neg (fun h => hf h.2)]

theorem read_str {s : String} {fuel : Nat} (h : (writeString s).length ≤ fuel + 1) (rest : List Char) :
    read F (fuel + 1) (writeString s ++ rest) = some (.str s, rest) := by
  have hread := readString_write h rest
  have htext : writeString s ++ rest = quote :: (s.toList.flatMap escape ++ quote :: rest) := by simp [writeString]
  rw [htext, read, skipBlanks_cons (by decide)]
  dsimp only
  rw [if_pos rfl, hread, Option.map_some, String.ofList_toList]

mutual

/-- The reader inverts the writer, whatever follows, with as much fuel as the text is long. -/
theorem read_write (hF : F.Lawful) : ∀ (j : Json φ) (fuel : Nat) (rest : List Char), (write F j).length ≤ fuel + 1 →
    Stops rest → read F (fuel + 1) (write F j ++ rest) = some (j, rest)
  | .null, fuel, rest, _, _ => by
    rw [write, read, List.cons_append, skipBlanks_cons (by decide)]
    rfl
  | .bool true, fuel, rest, _, _ => by
    rw [write, read, List.cons_append, skipBlanks_cons (by decide)]
    rfl
  | .bool false, fuel, rest, _, _ => by
    rw [write, read, List.cons_append, skipBlanks_cons (by decide)]
    rfl
  | .int n, fuel, rest, _, hrest => by
    obtain ⟨c, text, htext, hc⟩ := writeInt_begins n
    rw [write]
    have hread := readNumber_writeInt F n hrest
    rw [htext, List.cons_append] at hread ⊢
    rw [read_number hc, hread]
  | .float x, fuel, rest, _, hrest => by
    rw [write]
    have hread := readNumber_float hF x hrest
    cases hx : F.write x with
    | nil => exact absurd hx (hF.ne_nil x)
    | cons c text =>
      have hc := hF.isNumber x c (hx ▸ List.mem_cons_self)
      rw [hx, List.cons_append] at hread
      rw [List.cons_append, read_number hc, hread]
  | .str s, fuel, rest, hfuel, _ => by
    rw [write] at hfuel ⊢
    exact read_str hfuel rest
  | .arr [], fuel, rest, _, _ => by
    rw [write, read, List.cons_append, skipBlanks_cons (by decide)]
    rfl
  | .arr (j :: items), fuel, rest, hfuel, _ => by
    have hj := fun fuel rest => read_write hF j fuel rest
    have hitems := fun fuel rest => readItems_write hF items fuel rest
    obtain ⟨c, text, htext, hc⟩ := write_begins hF j
    obtain ⟨hblank, hclose⟩ := begins_ne hc
    rw [write, List.length_cons, List.length_append] at hfuel
    have hpos : 0 < (writeItems F items).length := by cases items <;> rw [writeItems] <;> simp
    obtain ⟨fuel, rfl⟩ := Nat.exists_eq_succ_of_ne_zero (show fuel ≠ 0 by omega)
    rw [write, read, List.cons_append, skipBlanks_cons (by decide), List.append_assoc]
    dsimp only
    rw [if_neg (by decide), if_pos rfl, htext, List.cons_append, skipBlanks_cons hblank]
    dsimp only
    rw [if_neg hclose, ← List.cons_append, ← htext, hj fuel _ (by omega) (writeItems_stops items rest)]
    rw [Option.bind_eq_bind, Option.bind_some]
    dsimp only
    rw [hitems (fuel + 1) rest (by omega)]
    rfl
  | .obj [], fuel, rest, _, _ => by
    rw [write, read, List.cons_append, skipBlanks_cons (by decide)]
    rfl
  | .obj ((key, j) :: fields), fuel, rest, hfuel, _ => by
    have hj := fun fuel rest => read_write hF j fuel rest
    have hfields := fun fuel rest => readFields_write hF fields fuel rest
    rw [write, List.length_cons, List.length_append, List.length_cons, List.length_append] at hfuel
    have hpos : 0 < (writeFields F fields).length := by cases fields <;> rw [writeFields] <;> simp
    have hkey : writeString key = quote :: (key.toList.flatMap escape ++ [quote]) := rfl
    obtain ⟨fuel, rfl⟩ := Nat.exists_eq_succ_of_ne_zero (show fuel ≠ 0 by omega)
    rw [write, read, List.cons_append, skipBlanks_cons (by decide), List.append_assoc]
    dsimp only
    rw [if_neg (by decide), if_neg (by decide), if_pos rfl, hkey, List.cons_append, skipBlanks_cons (by decide)]
    dsimp only
    rw [if_neg (by decide), ← List.cons_append, ← hkey, List.cons_append, readKey_write (by omega)]
    rw [Option.bind_eq_bind, Option.bind_some]
    dsimp only
    rw [List.append_assoc, hj fuel _ (by omega) (writeFields_stops fields rest), Option.bind_eq_bind, Option.bind_some]
    dsimp only
    rw [hfields (fuel + 1) rest (by omega)]
    rfl

theorem readItems_write (hF : F.Lawful) : ∀ (items : List (Json φ)) (fuel : Nat) (rest : List Char),
    (writeItems F items).length ≤ fuel → readItems F fuel (writeItems F items ++ rest) = some (items, rest)
  | [], fuel, rest, hfuel => by
    rw [writeItems] at hfuel ⊢
    obtain ⟨fuel, rfl⟩ := Nat.exists_eq_succ_of_ne_zero (show fuel ≠ 0 by rintro rfl; simp at hfuel)
    rw [readItems, List.cons_append, skipBlanks_cons (by decide)]
    rfl
  | j :: items, fuel, rest, hfuel => by
    have hj := fun fuel rest => read_write hF j fuel rest
    have hitems := fun fuel rest => readItems_write hF items fuel rest
    rw [writeItems, List.length_cons, List.length_append] at hfuel
    have hpos : 0 < (writeItems F items).length := by cases items <;> rw [writeItems] <;> simp
    obtain ⟨fuel, rfl⟩ := Nat.exists_eq_add_of_le' (show 2 ≤ fuel by omega)
    rw [writeItems, readItems, List.cons_append, skipBlanks_cons (by decide), List.append_assoc]
    dsimp only
    rw [if_neg (by decide), if_pos rfl, hj fuel _ (by omega) (writeItems_stops items rest), Option.bind_eq_bind,
      Option.bind_some]
    dsimp only
    rw [hitems (fuel + 1) rest (by omega)]
    rfl

theorem readFields_write (hF : F.Lawful) : ∀ (fields : List (String × Json φ)) (fuel : Nat) (rest : List Char),
    (writeFields F fields).length ≤ fuel → readFields F fuel (writeFields F fields ++ rest) = some (fields, rest)
  | [], fuel, rest, hfuel => by
    rw [writeFields] at hfuel ⊢
    obtain ⟨fuel, rfl⟩ := Nat.exists_eq_succ_of_ne_zero (show fuel ≠ 0 by rintro rfl; simp at hfuel)
    rw [readFields, List.cons_append, skipBlanks_cons (by decide)]
    rfl
  | (key, j) :: fields, fuel, rest, hfuel => by
    have hj := fun fuel rest => read_write hF j fuel rest
    have hfields := fun fuel rest => readFields_write hF fields fuel rest
    rw [writeFields, List.length_cons, List.length_append, List.length_cons, List.length_append] at hfuel
    have hpos : 0 < (writeFields F fields).length := by cases fields <;> rw [writeFields] <;> simp
    obtain ⟨fuel, rfl⟩ := Nat.exists_eq_add_of_le' (show 2 ≤ fuel by omega)
    rw [writeFields, readFields, List.cons_append, skipBlanks_cons (by decide), List.append_assoc, List.cons_append]
    dsimp only
    rw [if_neg (by decide), if_pos rfl, readKey_write (by omega), Option.bind_eq_bind, Option.bind_some]
    dsimp only
    rw [List.append_assoc, hj fuel _ (by omega) (writeFields_stops fields rest), Option.bind_eq_bind, Option.bind_some]
    dsimp only
    rw [hfields (fuel + 1) rest (by omega)]
    rfl

end

/-- A value is what its text says. -/
theorem parse_write (hF : F.Lawful) (j : Json φ) : parse F (write F j) = some j := by
  have hread := read_write hF j (write F j).length [] (Nat.le_succ _) rfl
  rw [List.append_nil] at hread
  rw [parse, hread]
  rfl

theorem write_injective (hF : F.Lawful) {j j' : Json φ} (h : write F j = write F j') : j = j' := by
  have hj := parse_write hF j
  rw [h, parse_write hF j'] at hj
  exact (Option.some.inj hj).symm

end

end Json

end AgentHub.Lib
