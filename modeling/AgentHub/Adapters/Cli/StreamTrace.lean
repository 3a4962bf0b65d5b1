import AgentHub.Adapters.Cli.Streams
/-!
# What a stream causes

One drain makes the calls of the text it reads and reports the bytes it drops (`drain_spec`), so the calls about lines do
not depend on the chunks (`calls_eq_reference`). A report of dropped bytes stands where the bytes stood, but for valid
text that the same drain reads before another ill-formed sequence (`decodeError_in_order`).
-/

namespace AgentHub

open Lib Lib.Utf8

namespace StreamAssembler

theorem drain_spec (final : Bool) (s : LineBuffer) (dropRun : Nat) (chunk : List UInt8) :
    (drain final s dropRun chunk).1 = ⟨(s.emitText (chars (taken final chunk).1)).1, (taken final chunk).2⟩ ∧
      lineCalls (drain final s dropRun chunk).2 = (s.emitText (chars (taken final chunk).1)).2 ∧
      reported (drain final s dropRun chunk).2 = dropRun + droppedBytes (taken final chunk).1 := by
  induction hn : chunk.length using Nat.strong_induction_on generalizing s dropRun chunk with
  | _ n ih =>
    rcases drain_cases final chunk with ⟨text, htaken, hdrain⟩ | ⟨text, rest, -, htaken, hdrain⟩ |
      ⟨text, n, more, -, hlt, htaken, hdrain⟩
    · rw [hdrain, htaken]
      simp
    · rw [hdrain, htaken]
      simp
    · obtain ⟨hstate, hlines, hreported⟩ := ih _ (hn ▸ hlt) (s.emitText text).1 ((if text = [] then dropRun else 0) + n)
        more rfl
      rw [hdrain, htaken]
      simp only [chars_append, chars_map, chars_dropped, LineBuffer.emitText_append, droppedBytes_append,
        droppedBytes_map, droppedBytes_dropped, lineCalls_append, reported_append, hstate, hlines, hreported,
        lineCalls_emitText, lineCalls_flushDrop, reported_emitText, reported_flushDrop, List.append_nil, true_and]
      split <;> omega

/-- Where a report of `n` bytes stands among the calls of a buffer that starts at `s`: `past` was read before the bytes of
the report, `run`, and `extra` is text that was read after them and has had its calls. -/
structure Placed (s : LineBuffer) (found : List Piece) (left : List UInt8) (calls : List Callback) (n : Nat)
    (past run : List Piece) (extra : List Char) (rest : List Piece) : Prop where
  found_eq : found = past ++ run ++ extra.map .char ++ rest
  dropped : ∀ piece ∈ run, ∃ k, piece = .dropped k
  count : droppedBytes run = n
  reported_eq : reported calls = droppedBytes past
  lines : lineCalls calls = (s.emitText (chars past ++ extra)).2
  overtaken : extra = [] ∨ (∃ k more, rest = .dropped k :: more) ∨ (rest = [] ∧ left ≠ [])

/-- A report that flushes a run is about the run. -/
theorem flushDrop_eq_append {n m : Nat} {pre post : List Callback} (h : flushDrop n = pre ++ .onDecodeError m :: post) :
    pre = [] ∧ m = n ∧ post = [] ∧ n ≠ 0 := by
  unfold flushDrop at h
  split at h
  · simp at h
  · next hn =>
    rcases pre with _ | ⟨call, pre⟩
    · simp only [List.nil_append, List.cons.injEq, Callback.onDecodeError.injEq] at h
      exact ⟨rfl, h.1.symm, h.2.symm, hn⟩
    · simp at h

/-- Where a report among calls in a row is. -/
theorem append_eq_append_report {calls calls' pre post : List Callback} {n : Nat}
    (h : calls ++ calls' = pre ++ .onDecodeError n :: post) :
    (∃ post', calls = pre ++ .onDecodeError n :: post') ∨
      ∃ pre', pre = calls ++ pre' ∧ calls' = pre' ++ .onDecodeError n :: post := by
  rcases List.append_eq_append_iff.1 h with ⟨pre', rfl, h'⟩ | ⟨pre', rfl, h'⟩
  · exact .inr ⟨pre', rfl, h'⟩
  · rcases pre' with _ | ⟨call, pre'⟩
    · exact .inr ⟨[], by simp, h'.symm⟩
    · simp only [List.cons_append, List.cons.injEq] at h'
      exact .inl ⟨pre', by rw [h'.1]⟩

/-- It is not among calls about lines. -/
theorem not_report {calls pre post : List Callback} {n : Nat} (hlines : ∀ call ∈ calls, ∀ m, call ≠ .onDecodeError m) :
    calls ≠ pre ++ .onDecodeError n :: post := by
  rintro rfl
  exact hlines (.onDecodeError n) (by simp) n rfl

theorem drain_placed (final : Bool) {held : List Piece} (hheld : ∀ piece ∈ held, ∃ k, piece = .dropped k) (s : LineBuffer)
    (chunk : List UInt8) {pre post : List Callback} {n : Nat}
    (h : (drain final s (droppedBytes held) chunk).2 = pre ++ .onDecodeError n :: post) :
    n ≠ 0 ∧ ∃ past run extra rest,
      Placed s (held ++ (taken final chunk).1) (taken final chunk).2 pre n past run extra rest := by
  induction hn : chunk.length using Nat.strong_induction_on generalizing s held chunk pre with
  | _ len ih =>
    rcases drain_cases final chunk with ⟨text, htaken, hdrain⟩ | ⟨text, left, hleft, htaken, hdrain⟩ |
      ⟨text, size, more, hsize, hlt, htaken, hdrain⟩
    · -- the report is in front of the text
      rw [hdrain] at h
      rcases append_eq_append_report h with ⟨post', h'⟩ | ⟨pre', -, h'⟩
      · obtain ⟨rfl, rfl, -, hne⟩ := flushDrop_eq_append h'
        rw [htaken]
        exact ⟨hne, [], held, [], text.map .char, by simp, hheld, rfl, rfl, rfl, .inl rfl⟩
      · exact absurd h' (not_report (s.emitText_lines text))
    · -- the text is in front of the report
      rw [hdrain] at h
      rcases append_eq_append_report h with ⟨post', h'⟩ | ⟨pre', rfl, h'⟩
      · exact absurd h' (not_report (s.emitText_lines text))
      · obtain ⟨rfl, rfl, -, hne⟩ := flushDrop_eq_append h'
        rw [htaken]
        exact ⟨hne, [], held, text, [], by simp, hheld, rfl, by simp, by simp, .inr (.inr ⟨rfl, hleft⟩)⟩
    · rw [hdrain, List.append_assoc] at h
      rcases append_eq_append_report h with ⟨post', h'⟩ | ⟨pre', rfl, h₁⟩
      · exact absurd h' (not_report (s.emitText_lines text))
      rw [htaken]
      by_cases htext : text = []
      · -- the run goes on
        subst htext
        have hheld' : ∀ piece ∈ held ++ [.dropped size], ∃ k, piece = .dropped k := by
          intro piece hpiece
          rcases List.mem_append.1 hpiece with hpiece | hpiece
          · exact hheld piece hpiece
          · exact ⟨size, List.mem_singleton.1 hpiece⟩
        have hcount : droppedBytes (held ++ [.dropped size]) = droppedBytes held + size := by simp
        obtain ⟨hne, past, run, extra, rest, hplaced⟩ := ih _ (hn ▸ hlt) hheld' s more (by
          rw [hcount]
          exact h₁) rfl
        exact ⟨hne, past, run, extra, rest, by simpa using hplaced.found_eq, hplaced.dropped, hplaced.count,
          hplaced.reported_eq, hplaced.lines, hplaced.overtaken⟩
      · rw [if_neg htext, if_neg htext, Nat.zero_add] at h₁
        rcases append_eq_append_report h₁ with ⟨post', h'⟩ | ⟨pre'', rfl, h'⟩
        · -- the run that the text ends
          obtain ⟨rfl, rfl, -, hne⟩ := flushDrop_eq_append h'
          exact ⟨hne, [], held, text, .dropped size :: (taken final more).1, by simp, hheld, rfl, by simp, by simp,
            .inr (.inl ⟨size, _, rfl⟩)⟩
        · -- a later run
          have hone : ∀ piece ∈ [Piece.dropped size], ∃ k, piece = .dropped k := by simp
          obtain ⟨hne, past, run, extra, rest, hplaced⟩ := ih _ (hn ▸ hlt) hone (s.emitText text).1 more h' rfl
          refine ⟨hne, held ++ text.map .char ++ past, run, extra, rest, by simpa using hplaced.found_eq, hplaced.dropped,
            hplaced.count, ?_, ?_, hplaced.overtaken⟩
          · simp [hplaced.reported_eq]
          · simp [hplaced.lines, LineBuffer.emitText_append, chars_eq_nil hheld]

/-! ## Whole streams -/

theorem run_feed_spec (chunks : List (List UInt8)) :
    (Mealy.run feed {} chunks).1 =
        ⟨(LineBuffer.emitText {} (chars (pieces chunks.flatten).1)).1, (pieces chunks.flatten).2⟩ ∧
      lineCalls (Mealy.run feed {} chunks).2 = callsOn (chars (pieces chunks.flatten).1) ∧
      reported (Mealy.run feed {} chunks).2 = droppedBytes (pieces chunks.flatten).1 := by
  induction chunks using List.reverseRecOn with
  | nil => simp [LineBuffer.emitText, callsOn, endedLines, currentLine, overflow, firstOver_nil, lineCalls, reported]
  | append_singleton chunks data ih =>
    obtain ⟨hstate, hlines, hreported⟩ := ih
    have hdrain := drain_spec false (LineBuffer.emitText {} (chars (pieces chunks.flatten).1)).1 0
      ((pieces chunks.flatten).2 ++ data)
    simp only [taken, Bool.false_eq_true, if_false, Nat.zero_add] at hdrain
    obtain ⟨hstate', hlines', hreported'⟩ := hdrain
    have hflatten : (chunks ++ [data]).flatten = chunks.flatten ++ data := by simp
    rw [hflatten, pieces_append, Mealy.run_append, Mealy.run_singleton, hstate]
    refine ⟨?_, ?_, ?_⟩
    · rw [feed, hstate', chars_append, LineBuffer.emitText_append]
    · rw [lineCalls_append, hlines, feed, hlines', chars_append, ← (LineBuffer.emitText_reads _).2,
        ← (LineBuffer.emitText_reads _).2, LineBuffer.emitText_append]
    · rw [reported_append, hreported, feed, hreported', droppedBytes_append]

theorem finishLine_lines (s : LineBuffer) : ∀ call ∈ s.finishLine.2, ∀ n, call ≠ .onDecodeError n := by
  unfold LineBuffer.finishLine
  intro call hcall n heq
  subst heq
  simp at hcall

theorem finalPieces_eq (bytes : List UInt8) : finalPieces bytes = (pieces bytes).1 ++ finalPieces (pieces bytes).2 := by
  have h := finalPieces_append bytes []
  rwa [List.append_nil, List.append_nil] at h

/-- The drain of what a stream leaves. -/
theorem flush_drain (chunks : List (List UInt8)) :
    let last := drain true (LineBuffer.emitText {} (chars (pieces chunks.flatten).1)).1 0 (pieces chunks.flatten).2
    calls chunks = (Mealy.run feed {} chunks).2 ++
        (last.2 ++ (LineBuffer.emitText {} (chars (finalPieces chunks.flatten))).1.finishLine.2) ∧
      callsOn (chars (pieces chunks.flatten).1) ++ lineCalls last.2 = callsOn (chars (finalPieces chunks.flatten)) ∧
      reported last.2 = droppedBytes (finalPieces (pieces chunks.flatten).2) := by
  intro last
  obtain ⟨hstate, hlines, hreported⟩ := drain_spec true
    (LineBuffer.emitText {} (chars (pieces chunks.flatten).1)).1 0 (pieces chunks.flatten).2
  simp only [taken, if_true, Nat.zero_add] at hstate hlines hreported
  refine ⟨?_, ?_, hreported⟩
  · simp only [calls, flush, (run_feed_spec chunks).1, hstate, finalPieces_eq chunks.flatten, chars_append,
      LineBuffer.emitText_append, last]
  · rw [hlines, finalPieces_eq chunks.flatten, chars_append, ← (LineBuffer.emitText_reads _).2,
      ← (LineBuffer.emitText_reads _).2, LineBuffer.emitText_append]

theorem lineCalls_calls (chunks : List (List UInt8)) :
    lineCalls (calls chunks) = reference (chars (finalPieces chunks.flatten)) := by
  obtain ⟨hcalls, hlines, -⟩ := flush_drain chunks
  rw [hcalls, lineCalls_append, lineCalls_append, (run_feed_spec chunks).2.1, ← List.append_assoc, hlines,
    lineCalls_eq_self (finishLine_lines _), (LineBuffer.emitText_reads _).1.finishLine, reference_eq]

theorem reported_calls (chunks : List (List UInt8)) :
    reported (calls chunks) = droppedBytes (finalPieces chunks.flatten) := by
  obtain ⟨hcalls, -, hreported⟩ := flush_drain chunks
  rw [hcalls, reported_append, reported_append, (run_feed_spec chunks).2.2, hreported,
    reported_eq_zero (finishLine_lines _), finalPieces_eq chunks.flatten, droppedBytes_append, Nat.add_zero]

/-- The calls about lines are those of the reference however the stream is cut, and every dropped byte is reported. -/
theorem calls_eq_reference (chunks : List (List UInt8)) :
    lineCalls (calls chunks) = reference (chars (finalPieces chunks.flatten)) ∧
      reported (calls chunks) = droppedBytes (finalPieces chunks.flatten) :=
  ⟨lineCalls_calls chunks, reported_calls chunks⟩

theorem callsOn_of_newline_not_mem {text : List Char} (h : newline ∉ text) :
    endedLines text = [] ∧ callsOn text = overflow text := by
  obtain ⟨hended, hcurrent⟩ := lines_append [] text h
  have hnil : endedLines [] = [] ∧ currentLine [] = [] := ⟨rfl, rfl⟩
  rw [List.nil_append, hnil.1] at hended
  rw [List.nil_append, hnil.2, List.nil_append] at hcurrent
  exact ⟨hended, by rw [callsOn, hended, hcurrent]; rfl⟩

theorem overflow_of_long {line : List Char} (h : maxLineBytes < utf8Length line) : ∃ n, overflow line = [.onOversized n] := by
  obtain ⟨n, hn⟩ := Option.isSome_iff_exists.1 ((firstOver_isSome line).2 h)
  exact ⟨n, by rw [overflow, hn]⟩

theorem utf8Length_replicate (n : Nat) (c : Char) : utf8Length (List.replicate n c) = n * c.utf8Size := by
  simp [utf8Length]

theorem overflow_replicate {n : Nat} (hn : maxLineBytes < n) (c : Char) :
    ∃ k, overflow (List.replicate n c) = [.onOversized k] := by
  refine overflow_of_long ?_
  rw [utf8Length_replicate]
  exact Nat.lt_of_lt_of_le hn (Nat.le_mul_of_pos_right n (Char.utf8Size_pos c))

theorem newline_not_mem_replicate {c : Char} (hc : c ≠ newline) (n : Nat) : newline ∉ List.replicate n c :=
  fun hmem => hc (List.eq_of_mem_replicate hmem).symm

theorem finalPieces_encode (text : List Char) : finalPieces (encode text) = text.map .char := by
  have hpieces := pieces_encode text []
  rw [List.append_nil] at hpieces
  simp [finalPieces, hpieces]

/-- A blank line that is too long is reported. -/
theorem lineCalls_spaces {n : Nat} (hn : maxLineBytes < n) :
    ∃ k, lineCalls (calls [encode (List.replicate n ' ')]) = [.onOversized k] := by
  obtain ⟨k, hk⟩ := overflow_replicate hn ' '
  have hover : (firstOver (List.replicate n ' ')).isSome := by
    rw [firstOver_isSome, utf8Length_replicate]
    exact Nat.lt_of_lt_of_le hn (Nat.le_mul_of_pos_right n (Char.utf8Size_pos ' '))
  refine ⟨k, ?_⟩
  rw [lineCalls_calls, List.flatten_singleton, finalPieces_encode, chars_map, reference,
    List.splitOn_eq_singleton (newline_not_mem_replicate (by decide) n), List.flatMap_singleton, report_eq, hk, ending,
    hover]
  rfl

/-- Blank lines are not skipped when they are too long. -/
theorem calls_blank_line :
    ¬ ∀ chunks, lineCalls (calls chunks) =
      ((chars (finalPieces chunks.flatten)).splitOn newline).flatMap fun line => if isBlank line then [] else report line := by
  intro h
  have hblank := h [encode (List.replicate 65537 ' ')]
  obtain ⟨k, hk⟩ := lineCalls_spaces (n := 65537) (by decide)
  rw [hk, List.flatten_singleton, finalPieces_encode, chars_map,
    List.splitOn_eq_singleton (newline_not_mem_replicate (by decide) 65537), List.flatMap_singleton,
    if_pos (by rw [isBlank, List.all_replicate]; rfl)] at hblank
  cases hblank

/-! ## The order of reports -/

/-- Valid text comes between `run`, which one drain reads after `early`, and another sequence that this drain drops or keeps
for later. -/
def Overtaken (chunks : List (List UInt8)) (past run : List Piece) : Prop :=
  ∃ before data after early text rest, chunks = before ++ data :: after ∧ past = (pieces before.flatten).1 ++ early ∧
    (pieces ((pieces before.flatten).2 ++ data)).1 = early ++ run ++ text.map .char ++ rest ∧ text ≠ [] ∧
    ((∃ k more, rest = .dropped k :: more) ∨ (rest = [] ∧ (pieces ((pieces before.flatten).2 ++ data)).2 ≠ []))

theorem Placed.run_ne_nil {s : LineBuffer} {found : List Piece} {left : List UInt8} {calls : List Callback} {n : Nat}
    {past run : List Piece} {extra : List Char} {rest : List Piece} (h : Placed s found left calls n past run extra rest)
    (hn : n ≠ 0) : run ≠ [] := by
  rintro rfl
  exact hn h.count.symm

theorem callsOn_append (text text' : List Char) :
    callsOn (text ++ text') = callsOn text ++ ((LineBuffer.emitText {} text).1.emitText text').2 := by
  rw [← (LineBuffer.emitText_reads _).2, ← (LineBuffer.emitText_reads _).2, LineBuffer.emitText_append]

/-- A report while a stream is fed. -/
theorem feed_placed {chunks : List (List UInt8)} {pre post : List Callback} {n : Nat}
    (h : (Mealy.run feed {} chunks).2 = pre ++ .onDecodeError n :: post) :
    ∃ past run extra rest, finalPieces chunks.flatten = past ++ run ++ extra.map .char ++ rest ∧ run ≠ [] ∧
      (∀ piece ∈ run, ∃ k, piece = .dropped k) ∧ droppedBytes run = n ∧ reported pre = droppedBytes past ∧
      lineCalls pre = callsOn (chars past ++ extra) ∧ (extra = [] ∨ Overtaken chunks past run) := by
  obtain ⟨before, data, after, pre', post', rfl, rfl, hstep⟩ := Mealy.run_eq_append_cons h
  obtain ⟨hstate, hlines, hreported⟩ := run_feed_spec before
  have hnone : ∀ piece ∈ ([] : List Piece), ∃ k, piece = .dropped k := by simp
  rw [hstate] at hstep
  obtain ⟨hn, early, run, extra, rest, hplaced⟩ := drain_placed false hnone _ _ hstep
  have hfound := hplaced.found_eq
  simp only [taken, Bool.false_eq_true, if_false, List.nil_append] at hfound
  refine ⟨(pieces before.flatten).1 ++ early, run, extra,
    rest ++ finalPieces ((pieces ((pieces before.flatten).2 ++ data)).2 ++ after.flatten), ?_, hplaced.run_ne_nil hn,
    hplaced.dropped, hplaced.count, ?_, ?_, ?_⟩
  · have hflatten : (before ++ data :: after).flatten = before.flatten ++ (data ++ after.flatten) := by simp
    rw [hflatten, finalPieces_append, ← List.append_assoc, finalPieces_append, hfound]
    simp only [List.append_assoc]
  · rw [reported_append, hreported, hplaced.reported_eq, droppedBytes_append]
  · rw [lineCalls_append, hlines, hplaced.lines, chars_append, List.append_assoc, ← callsOn_append]
  · by_cases hover : extra = []
    · exact .inl hover
    · exact .inr ⟨before, data, after, early, extra, rest, rfl, rfl, hfound, hover, hplaced.overtaken.resolve_left hover⟩

/-- A report when a stream is flushed is about its end. -/
theorem flush_placed {chunks : List (List UInt8)} {pre post : List Callback} {n : Nat}
    (h : (Mealy.run feed {} chunks).1.flush.2 = pre ++ .onDecodeError n :: post) :
    ∃ run, finalPieces chunks.flatten = (pieces chunks.flatten).1 ++ run ∧ run ≠ [] ∧
      (∀ piece ∈ run, ∃ k, piece = .dropped k) ∧ droppedBytes run = n ∧ reported pre = 0 ∧ lineCalls pre = [] := by
  rw [flush, (run_feed_spec chunks).1] at h
  rcases append_eq_append_report h with ⟨post', h'⟩ | ⟨pre', -, h'⟩
  swap
  · exact absurd h' (not_report (finishLine_lines _))
  have hnone : ∀ piece ∈ ([] : List Piece), ∃ k, piece = .dropped k := by simp
  obtain ⟨hn, past, run, extra, rest, hplaced⟩ := drain_placed true hnone _ _ h'
  have hrun := hplaced.run_ne_nil hn
  have hfound := hplaced.found_eq
  simp only [taken, if_true, List.nil_append] at hfound
  -- at most one sequence is left
  have hlength : (finalPieces (pieces chunks.flatten).2).length ≤ 1 := by
    rw [finalPieces, pieces_left]
    split <;> simp
  have hpos : 0 < run.length := List.length_pos_iff.2 hrun
  have hsum := congrArg List.length hfound
  simp only [List.length_append, List.length_map] at hsum
  obtain rfl : past = [] := List.length_eq_zero_iff.1 (by omega)
  obtain rfl : extra = [] := List.length_eq_zero_iff.1 (by omega)
  obtain rfl : rest = [] := List.length_eq_zero_iff.1 (by omega)
  simp only [List.nil_append, List.map_nil, List.append_nil] at hfound
  refine ⟨run, ?_, hrun, hplaced.dropped, hplaced.count, hplaced.reported_eq, hplaced.lines⟩
  rw [finalPieces_eq, hfound]

/-- Every report stands where its bytes stood, or after the text that overtook it. -/
theorem calls_placed {chunks : List (List UInt8)} {pre post : List Callback} {n : Nat}
    (h : calls chunks = pre ++ .onDecodeError n :: post) :
    ∃ past run extra rest, finalPieces chunks.flatten = past ++ run ++ extra.map .char ++ rest ∧ run ≠ [] ∧
      (∀ piece ∈ run, ∃ k, piece = .dropped k) ∧ droppedBytes run = n ∧ reported pre = droppedBytes past ∧
      lineCalls pre = callsOn (chars past ++ extra) ∧ (extra = [] ∨ Overtaken chunks past run) := by
  rcases append_eq_append_report h with ⟨post', h'⟩ | ⟨pre', rfl, h'⟩
  · exact feed_placed h'
  · obtain ⟨run, hfinal, hrun, hdropped, hcount, hreported, hlines⟩ := flush_placed h'
    obtain ⟨-, hlines', hreported'⟩ := run_feed_spec chunks
    refine ⟨(pieces chunks.flatten).1, run, [], [], by simpa using hfinal, hrun, hdropped, hcount, ?_, ?_, .inl rfl⟩
    · rw [reported_append, hreported', hreported, Nat.add_zero]
    · rw [lineCalls_append, hlines', hlines, List.append_nil, List.append_nil]

/-- A report is of bytes that were dropped in a row. It comes after every call that the characters before these bytes
cause, and before every other call unless text overtook it. -/
theorem decodeError_in_order {chunks : List (List UInt8)} {pre post : List Callback} {n : Nat}
    (h : calls chunks = pre ++ .onDecodeError n :: post) :
    ∃ past run rest, finalPieces chunks.flatten = past ++ run ++ rest ∧ run ≠ [] ∧
      (∀ piece ∈ run, ∃ k, piece = .dropped k) ∧ droppedBytes run = n ∧ reported pre = droppedBytes past ∧
      callsOn (chars past) <+: lineCalls pre ∧ (lineCalls pre = callsOn (chars past) ∨ Overtaken chunks past run) := by
  obtain ⟨past, run, extra, rest, hfound, hrun, hdropped, hcount, hreported, hlines, hover⟩ := calls_placed h
  refine ⟨past, run, extra.map .char ++ rest, by rw [hfound, List.append_assoc], hrun, hdropped, hcount, hreported, ?_, ?_⟩
  · rw [hlines, callsOn_append]
    exact List.prefix_append _ _
  · rcases hover with rfl | hover
    · exact .inl (by rw [hlines, List.append_nil])
    · exact .inr hover

theorem decodeError_in_order_sample : ∃ past run rest,
    finalPieces [[0x61, 0xFF, 0x0A]].flatten = past ++ run ++ rest ∧ run ≠ [] ∧ (∀ piece ∈ run, ∃ k, piece = .dropped k) ∧
      droppedBytes run = 1 ∧ reported [] = droppedBytes past ∧ callsOn (chars past) <+: lineCalls [] ∧
      (lineCalls [] = callsOn (chars past) ∨ Overtaken [[0x61, 0xFF, 0x0A]] past run) := by
  have hcalls : calls [[0x61, 0xFF, 0x0A]] = [] ++ [.onDecodeError 1, .onLine "a"] := by decide +kernel
  exact decodeError_in_order hcalls

theorem exists_report {calls : List Callback} (h : reported calls ≠ 0) : ∃ pre n post, calls = pre ++ .onDecodeError n :: post := by
  by_contra hnone
  refine h (reported_eq_zero fun call hcall n heq => ?_)
  obtain ⟨pre, post, rfl⟩ := List.append_of_mem hcall
  exact hnone ⟨pre, n, post, by rw [heq]⟩

/-- One sequence is dropped between two texts: what is before it is the first. -/
theorem past_of_one {text : List Char} {size : Nat} {c : Char} {past run rest : List Piece} (hrun : run ≠ [])
    (hdropped : ∀ piece ∈ run, ∃ k, piece = .dropped k)
    (h : text.map .char ++ [.dropped size, .char c] = past ++ run ++ rest) : past = text.map .char := by
  obtain ⟨piece, run, rfl⟩ := List.exists_cons_of_ne_nil hrun
  obtain ⟨k, rfl⟩ := hdropped piece (by simp)
  rw [List.append_assoc, List.cons_append] at h
  rcases List.append_eq_append_iff.1 h with ⟨past', rfl, h'⟩ | ⟨text', htext, h'⟩
  · rcases past' with _ | ⟨first, past'⟩
    · rw [List.append_nil]
    · -- the second piece is a character, and nothing comes after it
      obtain ⟨-, h'⟩ := List.cons.inj h'
      rcases past' with _ | ⟨second, past'⟩
      · cases h'
      · simp at h'
  · rcases text' with _ | ⟨first, text'⟩
    · rw [htext, List.append_nil]
    · have hfirst : first ∈ text.map Piece.char := by simp [htext]
      obtain ⟨c', -, rfl⟩ := List.mem_map.1 hfirst
      cases (List.cons.inj h').1

/-- A line that is too long is reported when it gets so, and thus before the bytes that are dropped later in it. -/
theorem calls_oversized_first :
    ¬ ∀ chunks pre n post, calls chunks = pre ++ .onDecodeError n :: post →
      ∃ past run rest, finalPieces chunks.flatten = past ++ run ++ rest ∧ run ≠ [] ∧
        (∀ piece ∈ run, ∃ k, piece = .dropped k) ∧ droppedBytes run = n ∧
        lineCalls pre <+: (endedLines (chars past)).flatMap report := by
  intro h
  have hdecoded : finalPieces [encode (List.replicate 65537 'a') ++ [0xFF, 0x0A]].flatten =
      (List.replicate 65537 'a').map .char ++ [.dropped 1, .char newline] := by
    have hend : pieces [0xFF, 0x0A] = ([.dropped 1, .char newline], []) := by decide +kernel
    rw [List.flatten_singleton, finalPieces, pieces_encode, hend]
    exact List.append_nil _
  have hreported : reported (calls [encode (List.replicate 65537 'a') ++ [0xFF, 0x0A]]) ≠ 0 := by
    rw [reported_calls, hdecoded, droppedBytes_append, droppedBytes_map]
    exact Nat.one_ne_zero
  obtain ⟨pre, n, post, hcalls⟩ := exists_report hreported
  obtain ⟨past, run, rest, hfound, hrun, hdropped, -, hprefix⟩ := h _ _ _ _ hcalls
  obtain ⟨past', run', extra, rest', hfound', hrun', hdropped', -, -, hlines, -⟩ := calls_placed hcalls
  rw [hdecoded] at hfound hfound'
  obtain rfl := past_of_one hrun hdropped hfound
  obtain rfl := past_of_one hrun' hdropped' (by rw [hfound', List.append_assoc])
  obtain ⟨hended, hon⟩ := callsOn_of_newline_not_mem (newline_not_mem_replicate (c := 'a') (by decide) 65537)
  obtain ⟨k, hk⟩ := overflow_replicate (n := 65537) (by decide) 'a'
  rw [hlines, chars_map, callsOn_append, hon, hk, hended] at hprefix
  cases List.prefix_nil.1 hprefix

end StreamAssembler

end AgentHub
