import AgentHub.Lib.Mealy
import AgentHub.Lib.Utf8
import Mathlib.Data.List.Infix
/-!
# The stream assembler

`StreamAssembler` makes lines of chunks of bytes. A method is what it makes of the assembler and the calls it makes, in
their order. `reference` is what the calls should be: the text is split on newlines, and each line is reported for itself.
-/

namespace AgentHub

open Lib Lib.Utf8

def maxLineBytes : Nat := 64 * 1024

def newline : Char := Char.ofNat 10

/-- The characters `str.strip` takes off. -/
def isSpace (c : Char) : Bool :=
  let n := c.toNat
  (9 ≤ n && n ≤ 13) || (28 ≤ n && n ≤ 32) || n = 0x85 || n = 0xA0 || n = 0x1680 || (0x2000 ≤ n && n ≤ 0x200A) ||
    n = 0x2028 || n = 0x2029 || n = 0x202F || n = 0x205F || n = 0x3000

/-- Whether `strip` leaves nothing. -/
def isBlank (text : List Char) : Bool := text.all isSpace

inductive Callback where
  | onLine (text : String)
  | onOversized (totalBytes : Nat)
  | onDecodeError (count : Nat)
  deriving DecidableEq, Repr

/-- The fields about the line that is not finished yet. -/
structure LineBuffer where
  lineBuf : List Char := []
  lineBytes : Nat := 0
  oversizeReported : Bool := false
  skipping : Bool := false
  deriving DecidableEq, Repr

structure StreamAssembler extends LineBuffer where
  pending : List UInt8 := []
  deriving DecidableEq, Repr

namespace LineBuffer

def finishLine (s : LineBuffer) : LineBuffer × List Callback :=
  let buffered := s.lineBuf
  let wasOversized := s.skipping
  ({}, if wasOversized || isBlank buffered then [] else [.onLine (String.ofList buffered)])

/-- One turn of `_emit_text`. -/
def emitChar (s : LineBuffer) (char : Char) : LineBuffer × List Callback :=
  if char = newline then s.finishLine
  else if s.skipping then (s, [])
  else
    let pieceLen := char.utf8Size
    if maxLineBytes < s.lineBytes + pieceLen then
      ({ s with oversizeReported := true, skipping := true, lineBuf := [] },
        if s.oversizeReported then [] else [.onOversized (s.lineBytes + pieceLen)])
    else ({ s with lineBuf := s.lineBuf ++ [char], lineBytes := s.lineBytes + pieceLen }, [])

def emitText : LineBuffer → List Char → LineBuffer × List Callback := Mealy.run emitChar

end LineBuffer

namespace StreamAssembler

def flushDrop (dropRun : Nat) : List Callback := if dropRun = 0 then [] else [.onDecodeError dropRun]

/-- The part of `_drain_pending` before an ill-formed sequence: the valid prefix, then the bytes dropped before it. -/
def emitPrefix (s : LineBuffer) (dropRun : Nat) (chunk : List UInt8) (start : Nat) : LineBuffer × List Callback × Nat :=
  if 0 < start then
    -- the prefix always decodes, by `StoppedAt.prefix_decodes`
    let (s, calls) := s.emitText ((decode (chunk.take start)).toOption.getD [])
    (s, calls ++ flushDrop dropRun, 0)
  else (s, [], dropRun)

/-- The loop of `_drain_pending`, over what `offset` leaves of the buffer. `dropRun` counts bytes that were dropped and not
reported. -/
def drain (final : Bool) (s : LineBuffer) (dropRun : Nat) (chunk : List UInt8) : StreamAssembler × List Callback :=
  if _h : chunk = [] then (⟨s, []⟩, flushDrop dropRun)
  else match decode chunk with
    | .ok text => (⟨(s.emitText text).1, []⟩, flushDrop dropRun ++ (s.emitText text).2)
    | .error e =>
      let (s, calls, dropRun) := emitPrefix s dropRun chunk e.start
      let rest := chunk.drop e.start
      let badLen := max (e.stop - e.start) 1
      let incompleteTail := !final && e.reason = endOfData && chunk.length ≤ e.start + e.stop
      if rest = [] || incompleteTail then (⟨s, rest⟩, calls ++ flushDrop dropRun)
      else
        let (s, calls') := drain final s (dropRun + badLen) (rest.drop badLen)
        (s, calls ++ calls')
termination_by chunk.length
decreasing_by
  have hpos : 0 < chunk.length := List.length_pos_iff.2 _h
  simp only [List.length_drop]
  omega

def feed (s : StreamAssembler) (data : List UInt8) : StreamAssembler × List Callback :=
  drain false s.toLineBuffer 0 (s.pending ++ data)

def flush (s : StreamAssembler) : StreamAssembler × List Callback :=
  let (s', calls) := drain true s.toLineBuffer 0 s.pending
  (⟨s'.finishLine.1, s'.pending⟩, calls ++ s'.finishLine.2)

/-- The calls of a whole stream. -/
def calls (chunks : List (List UInt8)) : List Callback :=
  let (s, fed) := Mealy.run feed {} chunks
  fed ++ s.flush.2

end StreamAssembler

/-! ## The reference -/

def utf8Length (text : List Char) : Nat := (text.map Char.utf8Size).sum

/-- The length at which a line first exceeds the limit. -/
def firstOver (line : List Char) : Option Nat := (line.inits.map utf8Length).find? (maxLineBytes < ·)

/-- What is reported of a line: that it is too long, or the line unless it is blank. -/
def report (line : List Char) : List Callback :=
  match firstOver line with
  | some n => [.onOversized n]
  | none => if isBlank line then [] else [.onLine (String.ofList line)]

def reference (text : List Char) : List Callback := (text.splitOn newline).flatMap report

/-- What is reported of a line before it ends. -/
def overflow (line : List Char) : List Callback :=
  match firstOver line with
  | some n => [.onOversized n]
  | none => []

/-- What is reported of a line when it ends. -/
def ending (line : List Char) : List Callback :=
  if (firstOver line).isSome || isBlank line then [] else [.onLine (String.ofList line)]

def endedLines (text : List Char) : List (List Char) := (text.splitOn newline).dropLast

def currentLine (text : List Char) : List Char := (text.splitOn newline).getLast (List.splitOn_ne_nil _ _)

/-- The calls that a text causes while more of it may come. -/
def callsOn (text : List Char) : List Callback := (endedLines text).flatMap report ++ overflow (currentLine text)

section
variable {line text : List Char} {c : Char}

@[simp] theorem utf8Length_nil : utf8Length [] = 0 := rfl

@[simp] theorem utf8Length_append (text text' : List Char) :
    utf8Length (text ++ text') = utf8Length text + utf8Length text' := by
  simp [utf8Length]

@[simp] theorem utf8Length_singleton (c : Char) : utf8Length [c] = c.utf8Size := by
  simp [utf8Length]

theorem firstOver_nil : firstOver [] = none := rfl

theorem firstOver_concat (line : List Char) (c : Char) : firstOver (line ++ [c]) = (firstOver line).or
    (if maxLineBytes < utf8Length line + c.utf8Size then some (utf8Length line + c.utf8Size) else none) := by
  unfold firstOver
  rw [List.inits_append, List.map_append, List.find?_append]
  congr 1
  by_cases hover : maxLineBytes < utf8Length line + c.utf8Size
  · simp [hover]
  · simp [hover]

/-- It says so of the lines that are too long. -/
theorem firstOver_isSome (line : List Char) : (firstOver line).isSome ↔ maxLineBytes < utf8Length line := by
  unfold firstOver
  rw [List.find?_isSome]
  constructor
  · rintro ⟨n, hn, hover⟩
    obtain ⟨start, hstart, rfl⟩ := List.mem_map.1 hn
    obtain ⟨rest, rfl⟩ := (List.mem_inits _ _).1 hstart
    rw [utf8Length_append]
    exact Nat.lt_of_lt_of_le (of_decide_eq_true hover) (Nat.le_add_right _ _)
  · intro h
    exact ⟨utf8Length line, List.mem_map_of_mem ((List.mem_inits _ _).2 (List.prefix_refl line)), decide_eq_true h⟩

theorem report_eq (line : List Char) : report line = overflow line ++ ending line := by
  unfold report overflow ending
  cases firstOver line <;> simp

theorem splitOn_eq (text : List Char) : text.splitOn newline = endedLines text ++ [currentLine text] :=
  (List.dropLast_concat_getLast _).symm

theorem reference_eq (text : List Char) : reference text = callsOn text ++ ending (currentLine text) := by
  rw [reference, splitOn_eq, List.flatMap_append, callsOn, List.flatMap_singleton, report_eq, List.append_assoc]

theorem lines_of_splitOn {ended : List (List Char)} {current : List Char} (h : text.splitOn newline = ended ++ [current]) :
    endedLines text = ended ∧ currentLine text = current := by
  constructor
  · rw [endedLines, h, List.dropLast_concat]
  · simp only [currentLine, h, List.getLast_append_singleton]

theorem lines_newline (text : List Char) :
    endedLines (text ++ [newline]) = endedLines text ++ [currentLine text] ∧ currentLine (text ++ [newline]) = [] :=
  lines_of_splitOn (by rw [List.splitOn_append_cons_self, List.splitOn_nil, ← splitOn_eq])

/-- Characters that are no newline go to the current line. -/
theorem lines_append (text more : List Char) (hmore : newline ∉ more) :
    endedLines (text ++ more) = endedLines text ∧ currentLine (text ++ more) = currentLine text ++ more := by
  induction text using List.reverseRecOn generalizing more with
  | nil => exact lines_of_splitOn (List.splitOn_eq_singleton hmore)
  | append_singleton text c ih =>
    by_cases hc : c = newline
    · subst hc
      obtain ⟨hended, hcurrent⟩ := lines_newline text
      rw [hended, hcurrent]
      refine lines_of_splitOn ?_
      rw [List.append_assoc, List.singleton_append, List.splitOn_append_cons_self, List.splitOn_eq_singleton hmore,
        splitOn_eq, List.nil_append]
    · have hone : newline ∉ [c] := by simpa using Ne.symm hc
      have hmore' : newline ∉ c :: more := by simpa using ⟨Ne.symm hc, hmore⟩
      obtain ⟨hended, hcurrent⟩ := ih [c] hone
      rw [hended, hcurrent, List.append_assoc, List.append_assoc]
      exact ih (c :: more) hmore'

theorem lines_concat (text : List Char) (hc : c ≠ newline) :
    endedLines (text ++ [c]) = endedLines text ∧ currentLine (text ++ [c]) = currentLine text ++ [c] :=
  lines_append text [c] (by simpa using Ne.symm hc)

end

/-! ## Lines -/

namespace LineBuffer

/-- The buffer after `line`, which has no newline. -/
structure Reads (s : LineBuffer) (line : List Char) : Prop where
  within : firstOver line = none → s = { lineBuf := line, lineBytes := utf8Length line }
  tooLong : firstOver line ≠ none → s.skipping = true

variable {s : LineBuffer} {line : List Char} {c : Char}

theorem reads_nil : Reads {} [] := ⟨fun _ => rfl, fun h => absurd firstOver_nil h⟩

theorem Reads.finishLine (h : s.Reads line) : s.finishLine = ({}, ending line) := by
  cases hover : firstOver line with
  | none => simp [LineBuffer.finishLine, h.within hover, ending, hover]
  | some n => simp [LineBuffer.finishLine, h.tooLong (by simp [hover]), ending, hover]

theorem Reads.emitChar (h : s.Reads line) (hc : c ≠ newline) :
    (s.emitChar c).1.Reads (line ++ [c]) ∧ overflow (line ++ [c]) = overflow line ++ (s.emitChar c).2 := by
  have hconcat := firstOver_concat line c
  cases hover : firstOver line with
  | some n =>
    have hskip := h.tooLong (by simp [hover])
    have hfirst : firstOver (line ++ [c]) = some n := by rw [hconcat, hover]; rfl
    rw [LineBuffer.emitChar, if_neg hc, if_pos hskip]
    exact ⟨⟨fun hnone => by simp [hfirst] at hnone, fun _ => hskip⟩, by simp [overflow, hover, hfirst]⟩
  | none =>
    rw [h.within hover, LineBuffer.emitChar, if_neg hc, if_neg (by simp)]
    rw [hover, Option.none_or] at hconcat
    by_cases hlimit : maxLineBytes < utf8Length line + c.utf8Size
    · rw [if_pos hlimit] at hconcat
      dsimp only
      rw [if_pos hlimit]
      exact ⟨⟨fun hnone => by simp [hconcat] at hnone, fun _ => rfl⟩, by simp [overflow, hover, hconcat]⟩
    · rw [if_neg hlimit] at hconcat
      dsimp only
      rw [if_neg hlimit]
      exact ⟨⟨fun _ => by simp, fun hsome => absurd hconcat hsome⟩, by simp [overflow, hover, hconcat]⟩

theorem emitText_append (s : LineBuffer) (text text' : List Char) : s.emitText (text ++ text') =
    (((s.emitText text).1.emitText text').1, (s.emitText text).2 ++ ((s.emitText text).1.emitText text').2) :=
  Mealy.run_append s text text'

/-- Where a buffer is after a text, and the calls on the way. -/
theorem emitText_reads (text : List Char) :
    (emitText {} text).1.Reads (currentLine text) ∧ (emitText {} text).2 = callsOn text := by
  induction text using List.reverseRecOn with
  | nil => exact ⟨reads_nil, rfl⟩
  | append_singleton text c ih =>
    obtain ⟨hreads, hcalls⟩ := ih
    rw [emitText_append, hcalls]
    have hone : ∀ s : LineBuffer, s.emitText [c] = s.emitChar c := fun s => Mealy.run_singleton s c
    rw [hone]
    by_cases hc : c = newline
    · subst hc
      obtain ⟨hended, hcurrent⟩ := lines_newline text
      have hfinish : (emitText {} text).1.emitChar newline = ({}, ending (currentLine text)) := by
        rw [LineBuffer.emitChar, if_pos rfl, hreads.finishLine]
      rw [hfinish, hcurrent, callsOn, callsOn, hended, hcurrent]
      refine ⟨reads_nil, ?_⟩
      rw [List.flatMap_append, List.flatMap_singleton, report_eq]
      simp [overflow, firstOver_nil]
    · obtain ⟨hended, hcurrent⟩ := lines_concat text hc
      obtain ⟨hreads', hoverflow⟩ := hreads.emitChar hc
      rw [hcurrent, callsOn, callsOn, hended, hcurrent, hoverflow, List.append_assoc]
      exact ⟨hreads', rfl⟩

theorem emitChar_lines (s : LineBuffer) (c : Char) : ∀ call ∈ (s.emitChar c).2, ∀ n, call ≠ .onDecodeError n := by
  unfold LineBuffer.emitChar LineBuffer.finishLine
  intro call hcall n heq
  subst heq
  split at hcall
  · simp at hcall
  split at hcall
  · cases hcall
  dsimp only at hcall
  split at hcall
  · simp at hcall
  · cases hcall

/-- The calls of a text are all about lines. -/
theorem emitText_lines (s : LineBuffer) (text : List Char) : ∀ call ∈ (s.emitText text).2, ∀ n, call ≠ .onDecodeError n :=
  Mealy.run_forall emitChar_lines s text

end LineBuffer

/-! ## Draining -/

/-- The calls about lines. -/
def lineCalls (calls : List Callback) : List Callback :=
  calls.filter fun
    | .onDecodeError _ => false
    | _ => true

/-- The bytes that calls report as dropped. -/
def reported (calls : List Callback) : Nat :=
  (calls.map fun
    | .onDecodeError n => n
    | _ => 0).sum

/-- What a drain reads of a buffer, and what it leaves there. -/
def taken (final : Bool) (chunk : List UInt8) : List Piece × List UInt8 :=
  if final then (finalPieces chunk, []) else pieces chunk

section
variable {calls calls' : List Callback}

@[simp] theorem lineCalls_append : lineCalls (calls ++ calls') = lineCalls calls ++ lineCalls calls' :=
  List.filter_append ..

@[simp] theorem reported_append : reported (calls ++ calls') = reported calls + reported calls' := by
  simp [reported]

theorem lineCalls_eq_self (h : ∀ call ∈ calls, ∀ n, call ≠ .onDecodeError n) : lineCalls calls = calls := by
  refine List.filter_eq_self.2 fun call hcall => ?_
  split
  · exact absurd rfl (h _ hcall _)
  · rfl

theorem reported_eq_zero (h : ∀ call ∈ calls, ∀ n, call ≠ .onDecodeError n) : reported calls = 0 := by
  refine List.sum_eq_zero_iff_forall_eq_nat.2 fun n hn => ?_
  obtain ⟨call, hcall, rfl⟩ := List.mem_map.1 hn
  split
  · exact absurd rfl (h _ hcall _)
  · rfl

end

namespace StreamAssembler

@[simp] theorem lineCalls_flushDrop (n : Nat) : lineCalls (flushDrop n) = [] := by
  unfold flushDrop
  split <;> rfl

@[simp] theorem reported_flushDrop (n : Nat) : reported (flushDrop n) = n := by
  unfold flushDrop
  split
  · next h => exact h.symm
  · simp [reported]

@[simp] theorem lineCalls_emitText (s : LineBuffer) (text : List Char) : lineCalls (s.emitText text).2 = (s.emitText text).2 :=
  lineCalls_eq_self (s.emitText_lines text)

@[simp] theorem reported_emitText (s : LineBuffer) (text : List Char) : reported (s.emitText text).2 = 0 :=
  reported_eq_zero (s.emitText_lines text)

theorem taken_nil (final : Bool) : taken final [] = ([], []) := by
  cases final <;> simp [taken, finalPieces]

theorem emitPrefix_eq {s : LineBuffer} {dropRun : Nat} {chunk : List UInt8} {e : DecodeError} {text : List Char}
    (h : StoppedAt chunk e text) : emitPrefix s dropRun chunk e.start =
      ((s.emitText text).1, (s.emitText text).2 ++ flushDrop (if text = [] then 0 else dropRun),
        if text = [] then dropRun else 0) := by
  unfold emitPrefix
  by_cases htext : text = []
  · rw [if_neg (by simp [h.text_nil.2 htext])]
    subst htext
    rfl
  · have hpos : 0 < e.start := Nat.pos_of_ne_zero fun hzero => htext (h.text_nil.1 hzero)
    rw [if_pos hpos, h.prefix_decodes]
    simp [htext, Except.toOption]

/-- The step of a drain after a valid prefix: it waits for the rest of a sequence, or drops one and goes on. -/
theorem drain_error {final : Bool} {chunk : List UInt8} {e : DecodeError} {text : List Char} (hne : chunk ≠ [])
    (h : decode chunk = .error e) (hstopped : StoppedAt chunk e text) (s : LineBuffer) (dropRun : Nat) :
    drain final s dropRun chunk =
      if !final && e.reason = endOfData && chunk.length ≤ e.start + e.stop then
        (⟨(s.emitText text).1, chunk.drop e.start⟩, (s.emitText text).2 ++ flushDrop dropRun)
      else
        ((drain final (s.emitText text).1 ((if text = [] then dropRun else 0) + max (e.stop - e.start) 1)
            ((chunk.drop e.start).drop (max (e.stop - e.start) 1))).1,
          (s.emitText text).2 ++ flushDrop (if text = [] then 0 else dropRun) ++
            (drain final (s.emitText text).1 ((if text = [] then dropRun else 0) + max (e.stop - e.start) 1)
              ((chunk.drop e.start).drop (max (e.stop - e.start) 1))).2) := by
  obtain ⟨lead, rest, hrest, -⟩ := hstopped.stop
  have hrest' : chunk.drop e.start ≠ [] := by simp [hrest]
  rw [drain, dif_neg hne]
  simp only [h, emitPrefix_eq hstopped, hrest', decide_false, Bool.false_or]
  split
  · by_cases htext : text = [] <;> simp [htext, flushDrop]
  · rfl

/-- How a drain goes on: all of the buffer is valid, or it ends in a sequence to wait for, or a sequence is dropped after the
valid prefix. -/
theorem drain_cases (final : Bool) (chunk : List UInt8) :
    (∃ text, taken final chunk = (text.map .char, []) ∧ ∀ s dropRun, drain final s dropRun chunk =
      (⟨(s.emitText text).1, []⟩, flushDrop dropRun ++ (s.emitText text).2)) ∨
    (∃ text rest, rest ≠ [] ∧ taken final chunk = (text.map .char, rest) ∧ ∀ s dropRun, drain final s dropRun chunk =
      (⟨(s.emitText text).1, rest⟩, (s.emitText text).2 ++ flushDrop dropRun)) ∨
    (∃ text n more, 0 < n ∧ more.length < chunk.length ∧
      taken final chunk = (text.map .char ++ .dropped n :: (taken final more).1, (taken final more).2) ∧
      ∀ s dropRun, drain final s dropRun chunk =
        ((drain final (s.emitText text).1 ((if text = [] then dropRun else 0) + n) more).1,
          (s.emitText text).2 ++ flushDrop (if text = [] then 0 else dropRun) ++
            (drain final (s.emitText text).1 ((if text = [] then dropRun else 0) + n) more).2)) := by
  by_cases hnil : chunk = []
  · subst hnil
    refine .inl ⟨[], taken_nil final, fun s dropRun => ?_⟩
    rw [drain, dif_pos rfl]
    simp [LineBuffer.emitText]
  cases hdecode : decode chunk with
  | ok text =>
    refine .inl ⟨text, ?_, fun s dropRun => ?_⟩
    · cases final <;> simp [taken, finalPieces, decode_ok hdecode]
    · rw [drain, dif_neg hnil]
      simp only [hdecode]
  | error e =>
    obtain ⟨text, hstopped⟩ := decode_error hdecode
    obtain ⟨lead, rest, hrest, hstop⟩ := hstopped.stop
    have hdrain := fun s dropRun => @drain_error final _ _ _ hnil hdecode hstopped s dropRun
    have hpieces := hstopped.pieces_eq
    have hlength : chunk.length = e.start + (rest.length + 1) := by
      have h := congrArg List.length hrest
      simp only [List.length_drop, List.length_cons] at h
      omega
    right
    rcases hstop with ⟨hscan, hreason, hend⟩ | ⟨hscan, hreason⟩
    · rw [hrest, pieces_incomplete hscan, List.append_nil] at hpieces
      cases final with
      | false =>
        refine .inl ⟨text, lead :: rest, by simp, hpieces, fun s dropRun => ?_⟩
        rw [hdrain, if_pos (by simp [hreason, hend]), hrest]
      | true =>
        have hbad : max (e.stop - e.start) 1 = rest.length + 1 := by omega
        have hmore : (lead :: rest).drop (rest.length + 1) = [] := List.drop_length
        refine .inr ⟨text, rest.length + 1, [], by omega, List.length_pos_iff.2 hnil, ?_, fun s dropRun => ?_⟩
        · simp [taken, finalPieces, hpieces]
        · rw [hdrain, if_neg (by simp), hbad, hrest, hmore]
    · have hsize := scan_illFormed_size hscan
      have hbad : max (e.stop - e.start) 1 = e.stop - e.start := by omega
      rw [hrest, pieces_illFormed hscan] at hpieces
      refine .inr ⟨text, e.stop - e.start, (lead :: rest).drop (e.stop - e.start), hsize.1, ?_, ?_, fun s dropRun => ?_⟩
      · simp only [List.length_drop, List.length_cons]
        omega
      · cases final <;> simp [taken, finalPieces, hpieces]
      · rw [hdrain, if_neg (by simp [hreason]), hbad, hrest]

end StreamAssembler

end AgentHub
