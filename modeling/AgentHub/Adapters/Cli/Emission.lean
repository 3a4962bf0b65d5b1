import AgentHub.Adapters.Cli.Events
import AgentHub.Adapters.Cli.StreamTrace
/-!
# From callbacks to events

The callbacks of `_make_assembler` and `_emit`, over the calls that two assemblers make in the order of the feeds. A
callback that raises ends the feed it is in, and with it the pump. `survives_iff` says of which streams this is never so.
-/

namespace AgentHub

open Lib

namespace CliAgentRunner

/-! ## The two assemblers -/

structure Assemblers where
  stdout : StreamAssembler := {}
  stderr : StreamAssembler := {}
  deriving DecidableEq, Repr

/-- A chunk for one of the streams, and the calls that its assembler makes. -/
def feedTo (a : Assemblers) : Stream × List UInt8 → Assemblers × List (Stream × Callback)
  | (.stdout, data) => ({ a with stdout := (a.stdout.feed data).1 }, (a.stdout.feed data).2.map (.stdout, ·))
  | (.stderr, data) => ({ a with stderr := (a.stderr.feed data).1 }, (a.stderr.feed data).2.map (.stderr, ·))

/-- The calls of a run: those of the feeds, and then those of the two flushes. -/
def deliveries (feeds : List (Stream × List UInt8)) : List (Stream × Callback) :=
  let (a, fed) := Mealy.run feedTo {} feeds
  fed ++ a.stdout.flush.2.map (.stdout, ·) ++ a.stderr.flush.2.map (.stderr, ·)

/-! ## Emitting -/

/-- `_events`, `_dropped_events` and `_seq`. -/
structure Emitted where
  seq : Nat := 0
  events : List CliEvent := []
  droppedEvents : Nat := 0
  deriving DecidableEq, Repr

/-- `str.strip` -/
def strip (text : List Char) : List Char := ((text.dropWhile isSpace).reverse.dropWhile isSpace).reverse

section
variable {φ : Type} (R : PyRuntime φ)

/-- The event that `_emit` makes of a payload. -/
def store (seq : Nat) (stream : Stream) (payload : Payload φ) : Except PyError CliEvent := do
  let clean ← sanitizeValue R (R.frames .emit) (.dict payload)
  let fields ← clean.asDict
  CliEvent.create R seq stream fields

def emit (stream : Stream) (payload : Payload φ) (s : Emitted) : Except PyError Emitted := do
  let s := { s with seq := s.seq + 1 }
  if maxEvents ≤ s.events.length then return { s with droppedEvents := s.droppedEvents + 1 }
  let event ← store R s.seq stream payload
  return { s with events := s.events ++ [event] }

def eventOf (eventType : String) (key : String) (n : Nat) : Payload φ :=
  [(.of "event_type", .str (.of eventType)), (.of key, .int n)]

/-- What the callbacks of `_make_assembler` give to `_emit`. -/
def payloadOf : Callback → Except PyError (Option (Payload φ))
  | .onLine text =>
    let stripped := strip text.toList
    if stripped = [] then .ok none
    else match R.loads (R.frames .onLine) (stripped.map Char.toNat) with
      | .error .valueError => .ok (some (eventOf "cli.bad_line" "chars" stripped.length))
      | .error .recursionError => .error .recursionError
      | .ok (.dict fields) => .ok (some fields)
      | .ok _ => .ok (some (eventOf "cli.json_non_object" "chars" stripped.length))
  | .onOversized totalBytes => .ok (some (eventOf "cli.line_oversized" "bytes" totalBytes))
  | .onDecodeError dropped => .ok (some (eventOf "cli.malformed_utf8" "dropped" dropped))

def onCall (s : Emitted) (item : Stream × Callback) : Except PyError Emitted := do
  match ← payloadOf R item.2 with
  | none => return s
  | some payload => emit R item.1 payload s

def emitAll (items : List (Stream × Callback)) : Except PyError Emitted := items.foldlM (onCall R) {}

/-! ## What the pumps promise -/

/-- Every item has its event while there is room, and is counted afterwards. -/
structure Counted (items : List (Stream × Callback)) (s : Emitted) : Prop where
  stored : s.events.length = min items.length maxEvents
  dropped : s.droppedEvents = items.length - maxEvents
  total : s.events.length + s.droppedEvents = items.length
  seq : s.seq = items.length
  event : ∀ i event, s.events[i]? = some event → event.seq = i + 1 ∧ ∃ call, items[i]? = some (event.stream, call)

/-- No feed and no flush raises, and at each moment the items so far are counted. -/
def Survives (feeds : List (Stream × List UInt8)) : Prop :=
  ∀ items, items <+: deliveries feeds → ∃ s, emitAll R items = .ok s ∧ Counted items s

/-- A payload that an event can be made of: it is not too deep to be sanitised, written and read again, and what is left of
it has no lone surrogate. -/
def Storable (payload : Payload φ) : Prop :=
  ∃ fields json fields' json', sanitizeValue R (R.frames .emit) (.dict payload) = .ok (.dict fields) ∧
    canonicalPayloadJson R (R.frames .create) fields = .ok json ∧ json.any isSurrogate = false ∧
    R.loads (R.frames .validate) json = .ok (.dict fields') ∧
    canonicalPayloadJson R (R.frames .validate) fields' = .ok json' ∧ json'.byteLength ≤ maxEventBytes

/-- Calls that no callback raises at: no line is too deep for `json.loads`, and what is to be stored is storable. -/
structure Harmless (items : List (Stream × Callback)) : Prop where
  shallow : ∀ stream text, (stream, .onLine text) ∈ items →
    R.loads (R.frames .onLine) ((strip text.toList).map Char.toNat) ≠ .error .recursionError
  storable : ∀ item ∈ items.take maxEvents, ∀ payload, payloadOf R item.2 = .ok (some payload) → Storable R payload

end

/-! ## Streams apart -/

def Assemblers.of (a : Assemblers) : Stream → StreamAssembler
  | .stdout => a.stdout
  | .stderr => a.stderr

/-- What of a list is tagged with a stream. -/
def ofStream {α : Type} (stream : Stream) (items : List (Stream × α)) : List α :=
  items.filterMap fun item => if item.1 = stream then some item.2 else none

section
variable {α : Type} {stream stream' : Stream}

@[simp] theorem ofStream_append (items items' : List (Stream × α)) :
    ofStream stream (items ++ items') = ofStream stream items ++ ofStream stream items' :=
  List.filterMap_append

theorem mem_ofStream {items : List (Stream × α)} {a : α} : a ∈ ofStream stream items ↔ (stream, a) ∈ items := by
  simp [ofStream]

theorem ofStream_tagged (as : List α) : ofStream stream (as.map (stream', ·)) = if stream' = stream then as else [] := by
  unfold ofStream
  rw [List.filterMap_map]
  split
  · next h => simp [h]
  · next h => simp [h]

end

theorem feedTo_of (a : Assemblers) (stream stream' : Stream) (data : List UInt8) :
    (feedTo a (stream', data)).1.of stream = (if stream' = stream then ((a.of stream).feed data).1 else a.of stream) ∧
      ofStream stream (feedTo a (stream', data)).2 = if stream' = stream then ((a.of stream).feed data).2 else [] := by
  cases stream' <;> cases stream <;> simp [feedTo, Assemblers.of, ofStream_tagged]

theorem run_feedTo (a : Assemblers) (stream : Stream) (feeds : List (Stream × List UInt8)) :
    (Mealy.run feedTo a feeds).1.of stream = (Mealy.run StreamAssembler.feed (a.of stream) (ofStream stream feeds)).1 ∧
      ofStream stream (Mealy.run feedTo a feeds).2 =
        (Mealy.run StreamAssembler.feed (a.of stream) (ofStream stream feeds)).2 := by
  induction feeds generalizing a with
  | nil => exact ⟨rfl, rfl⟩
  | cons f feeds ih =>
    obtain ⟨stream', data⟩ := f
    obtain ⟨hstate, hcalls⟩ := feedTo_of a stream stream' data
    obtain ⟨hstate', hcalls'⟩ := ih (feedTo a (stream', data)).1
    rw [Mealy.run_cons, ofStream_append, hstate', hcalls', hstate, hcalls]
    by_cases h : stream' = stream
    · simp [ofStream, h, Mealy.run_cons]
    · simp [ofStream, h]

/-- Each stream has the calls of its own assembler, however the feeds are mixed. -/
theorem deliveries_stream (stream : Stream) (feeds : List (Stream × List UInt8)) :
    ofStream stream (deliveries feeds) = StreamAssembler.calls (ofStream stream feeds) := by
  obtain ⟨hstate, hcalls⟩ := run_feedTo {} stream feeds
  have hstart : (({} : Assemblers).of stream) = {} := by cases stream <;> rfl
  rw [hstart] at hstate hcalls
  simp only [deliveries, ofStream_append, hcalls, ofStream_tagged, StreamAssembler.calls, ← hstate]
  cases stream <;> simp [Assemblers.of]

theorem strip_ne_nil {text : List Char} (h : isBlank text = false) : strip text ≠ [] := by
  obtain ⟨c, hc, hspace⟩ := List.all_eq_false.1 h
  have hdrop : ∀ l : List Char, c ∈ l → c ∈ l.dropWhile isSpace := by
    intro l hl
    rcases List.mem_append.1 ((List.takeWhile_append_dropWhile (p := isSpace) (l := l)).symm ▸ hl) with htake | hdrop
    · exact absurd (List.all_eq_true.1 List.all_takeWhile c htake) hspace
    · exact hdrop
  have hmem : c ∈ strip text :=
    List.mem_reverse.2 (hdrop _ (List.mem_reverse.2 (hdrop _ hc)))
  exact List.ne_nil_of_mem hmem

theorem not_blank_of_report {line : List Char} {text : String} (h : .onLine text ∈ report line) :
    isBlank text.toList = false := by
  unfold report at h
  split at h
  · simp at h
  · split at h
    · cases h
    · next hblank =>
      obtain rfl := Callback.onLine.inj (List.mem_singleton.1 h)
      simpa using hblank

/-- The lines that an assembler calls with are not blank. -/
theorem deliveries_not_blank {feeds : List (Stream × List UInt8)} {stream : Stream} {text : String}
    (h : (stream, .onLine text) ∈ deliveries feeds) : strip text.toList ≠ [] := by
  rw [← mem_ofStream, deliveries_stream] at h
  have hline : .onLine text ∈ lineCalls (StreamAssembler.calls (ofStream stream feeds)) := List.mem_filter.2 ⟨h, rfl⟩
  rw [StreamAssembler.lineCalls_calls] at hline
  obtain ⟨line, -, hreport⟩ := List.mem_flatMap.1 hline
  exact strip_ne_nil (not_blank_of_report hreport)

/-! ## One item -/

section
variable {φ : Type} {R : PyRuntime φ}

theorem validated_ok {seq : Nat} {stream : Stream} {json : PyStr} {event : CliEvent} :
    CliEvent.validated R seq stream json = .ok event ↔ json.any isSurrogate = false ∧ ∃ fields json',
      R.loads (R.frames .validate) json = .ok (.dict fields) ∧
        canonicalPayloadJson R (R.frames .validate) fields = .ok json' ∧ json'.byteLength ≤ maxEventBytes ∧
        event = ⟨seq, stream, json'⟩ := by
  simp only [CliEvent.validated, Tx.bind_ok, Tx.pure_ok, demand_ok, asDict_ok, Bool.not_eq_true', decide_eq_true_eq]
  constructor
  · rintro ⟨_, hsurrogate, _, hloads, fields, rfl, json', hcanonical, _, hsize, rfl⟩
    exact ⟨hsurrogate, fields, json', hloads, hcanonical, hsize, rfl⟩
  · rintro ⟨hsurrogate, fields, json', hloads, hcanonical, hsize, rfl⟩
    exact ⟨(), hsurrogate, _, hloads, fields, rfl, json', hcanonical, (), hsize, rfl⟩

theorem store_storable {seq : Nat} {stream : Stream} {payload : Payload φ} {event : CliEvent}
    (h : store R seq stream payload = .ok event) : event.seq = seq ∧ event.stream = stream ∧ Storable R payload := by
  simp only [store, CliEvent.create, Tx.bind_ok, asDict_ok, validated_ok] at h
  obtain ⟨_, hsanitize, fields, rfl, json, hcanonical, hsurrogate, fields', json', hloads, hcanonical', hsize, rfl⟩ := h
  exact ⟨rfl, rfl, fields, json, fields', json', hsanitize, hcanonical, hsurrogate, hloads, hcanonical', hsize⟩

theorem Storable.store {payload : Payload φ} (h : Storable R payload) (seq : Nat) (stream : Stream) :
    ∃ event, store R seq stream payload = .ok event := by
  obtain ⟨fields, json, fields', json', hsanitize, hcanonical, hsurrogate, hloads, hcanonical', hsize⟩ := h
  simp only [CliAgentRunner.store, CliEvent.create, Tx.bind_ok, asDict_ok, validated_ok]
  exact ⟨_, _, hsanitize, fields, rfl, json, hcanonical, hsurrogate, fields', json', hloads, hcanonical', hsize, rfl⟩

theorem payloadOf_error {call : Callback} {e : PyError} (h : payloadOf R call = .error e) :
    ∃ text, call = .onLine text ∧
      R.loads (R.frames .onLine) ((strip text.toList).map Char.toNat) = .error .recursionError := by
  unfold payloadOf at h
  split at h
  · next text =>
    dsimp only at h
    split at h
    · cases h
    · split at h
      · cases h
      · next hloads => exact ⟨text, rfl, hloads⟩
      · cases h
      · cases h
  · cases h
  · cases h

theorem payloadOf_none {call : Callback} (h : payloadOf R call = .ok none) :
    ∃ text, call = .onLine text ∧ strip text.toList = [] := by
  unfold payloadOf at h
  split at h
  · next text =>
    dsimp only at h
    split at h
    · next hblank => exact ⟨text, rfl, hblank⟩
    · split at h <;> cases h
  · cases h
  · cases h

theorem payloadOf_recursion {text : String} (hblank : strip text.toList ≠ [])
    (h : R.loads (R.frames .onLine) ((strip text.toList).map Char.toNat) = .error .recursionError) :
    payloadOf R (.onLine text) = .error .recursionError := by
  simp [payloadOf, hblank, h]

/-! ## All items -/

theorem emitAll_concat {items : List (Stream × Callback)} {item : Stream × Callback} {s : Emitted} :
    emitAll R (items ++ [item]) = .ok s ↔ ∃ s', emitAll R items = .ok s' ∧ onCall R s' item = .ok s := by
  rw [emitAll, List.foldlM_append, Tx.bind_ok]
  simp only [List.foldlM_cons, List.foldlM_nil, Tx.bind_ok, Tx.pure_ok]
  constructor
  · rintro ⟨s', h, s'', h', rfl⟩
    exact ⟨s', h, h'⟩
  · rintro ⟨s', h, h'⟩
    exact ⟨s', h, s, h', rfl⟩

theorem Harmless.of_concat {items : List (Stream × Callback)} {item : Stream × Callback}
    (h : Harmless R (items ++ [item])) : Harmless R items where
  shallow stream text hmem := h.shallow stream text (List.mem_append_left _ hmem)
  storable x hx := h.storable x (by
    rw [List.take_append]
    exact List.mem_append_left _ hx)

theorem emit_ok {stream : Stream} {payload : Payload φ} {s s' : Emitted} : emit R stream payload s = .ok s' ↔
    (maxEvents ≤ s.events.length ∧ s' = { s with seq := s.seq + 1, droppedEvents := s.droppedEvents + 1 }) ∨
      (s.events.length < maxEvents ∧ ∃ event, store R (s.seq + 1) stream payload = .ok event ∧
        s' = { s with seq := s.seq + 1, events := s.events ++ [event] }) := by
  unfold emit
  by_cases hfull : maxEvents ≤ s.events.length
  · simp [hfull, Nat.not_lt.2 hfull]
  · have hroom := Nat.not_le.1 hfull
    rw [if_neg hfull]
    simp only [Tx.bind_ok, Tx.pure_ok, hfull, false_and, false_or, hroom, true_and]

theorem onCall_ok {item : Stream × Callback} {s s' : Emitted} (hpayload : payloadOf R item.2 ≠ .ok none) :
    onCall R s item = .ok s' ↔ ∃ payload, payloadOf R item.2 = .ok (some payload) ∧ emit R item.1 payload s = .ok s' := by
  rw [onCall, Tx.bind_ok]
  constructor
  · rintro ⟨payload, hpayload', h⟩
    cases payload with
    | none => exact absurd hpayload' hpayload
    | some payload => exact ⟨payload, hpayload', h⟩
  · rintro ⟨payload, hpayload', h⟩
    exact ⟨some payload, hpayload', h⟩

/-- One more item is counted, unless its callback raises. -/
theorem Counted.onCall {items : List (Stream × Callback)} {item : Stream × Callback} {s s' : Emitted}
    (h : Counted items s) (hpayload : payloadOf R item.2 ≠ .ok none) (hcall : onCall R s item = .ok s') :
    Counted (items ++ [item]) s' := by
  obtain ⟨payload, -, hemit⟩ := (onCall_ok hpayload).1 hcall
  have hstored := h.stored
  have hdropped := h.dropped
  have hlength : (items ++ [item]).length = items.length + 1 := by simp
  have hold : ∀ i event, s.events[i]? = some event →
      event.seq = i + 1 ∧ ∃ call, (items ++ [item])[i]? = some (event.stream, call) := by
    intro i event hevent
    obtain ⟨hseq, call, hitem⟩ := h.event i event hevent
    obtain ⟨hlt, -⟩ := List.getElem?_eq_some_iff.1 hitem
    exact ⟨hseq, call, by rw [List.getElem?_append_left hlt, hitem]⟩
  rcases emit_ok.1 hemit with ⟨hfull, rfl⟩ | ⟨hroom, event, hstore, rfl⟩
  · refine ⟨?_, ?_, ?_, by simp [h.seq], hold⟩
    all_goals
      simp only [hlength]
      omega
  · obtain ⟨hseq, hstream, -⟩ := store_storable hstore
    have hcount : (s.events ++ [event]).length = s.events.length + 1 := by simp
    refine ⟨?_, ?_, ?_, by simp [h.seq], ?_⟩
    · simp only [hlength, hcount]
      omega
    · simp only [hlength]
      omega
    · simp only [hlength, hcount]
      omega
    · intro i event' hevent
      by_cases hi : i < s.events.length
      · rw [List.getElem?_append_left hi] at hevent
        exact hold i event' hevent
      · -- the new event stands where the item does
        have hlast : s.events.length = items.length := by omega
        obtain ⟨hlt, -⟩ := List.getElem?_eq_some_iff.1 hevent
        rw [hcount] at hlt
        obtain rfl : i = items.length := by omega
        rw [← hlast, List.getElem?_concat_length] at hevent
        obtain rfl := Option.some.inj hevent
        refine ⟨by rw [hseq, h.seq], item.2, ?_⟩
        rw [List.getElem?_concat_length, hstream]

theorem mem_take_concat {items : List (Stream × Callback)} {item : Stream × Callback} (h : items.length < maxEvents) :
    item ∈ (items ++ [item]).take maxEvents := by
  rw [List.take_of_length_le (by simp only [List.length_append, List.length_singleton]; omega)]
  simp

/-- Lines that are not blank. -/
def NoBlanks (items : List (Stream × Callback)) : Prop :=
  ∀ stream text, (stream, .onLine text) ∈ items → strip text.toList ≠ []

theorem NoBlanks.payloadOf {items : List (Stream × Callback)} (h : NoBlanks items) {item : Stream × Callback}
    (hitem : item ∈ items) : payloadOf R item.2 ≠ .ok none := by
  intro hnone
  obtain ⟨text, hline, hblank⟩ := payloadOf_none hnone
  exact h item.1 text (hline ▸ hitem) hblank

theorem NoBlanks.of_concat {items : List (Stream × Callback)} {item : Stream × Callback} (h : NoBlanks (items ++ [item])) :
    NoBlanks items :=
  fun stream text hmem => h stream text (List.mem_append_left _ hmem)

theorem Harmless.emitAll {items : List (Stream × Callback)} (hblank : NoBlanks items) (h : Harmless R items) :
    ∃ s, emitAll R items = .ok s ∧ Counted items s := by
  induction items using List.reverseRecOn with
  | nil => exact ⟨{}, rfl, by constructor <;> simp⟩
  | append_singleton items item ih =>
    obtain ⟨s, hs, hcounted⟩ := ih hblank.of_concat h.of_concat
    have hitem : payloadOf R item.2 ≠ .ok none := hblank.payloadOf (by simp)
    obtain ⟨s', hcall⟩ : ∃ s', CliAgentRunner.onCall R s item = .ok s' := by
      cases hx : payloadOf R item.2 with
      | error e =>
        obtain ⟨text, hline, hdeep⟩ := payloadOf_error hx
        exact absurd hdeep (h.shallow item.1 text (by simp [← hline]))
      | ok payload =>
        cases payload with
        | none => exact absurd hx hitem
        | some payload =>
          by_cases hfull : maxEvents ≤ s.events.length
          · exact ⟨_, (onCall_ok hitem).2 ⟨payload, hx, emit_ok.2 (.inl ⟨hfull, rfl⟩)⟩⟩
          · have hroom : items.length < maxEvents := by
              have hstored := hcounted.stored
              omega
            obtain ⟨event, hstore⟩ := (h.storable item (mem_take_concat hroom) payload hx).store (s.seq + 1) item.1
            exact ⟨_, (onCall_ok hitem).2 ⟨payload, hx, emit_ok.2 (.inr ⟨Nat.not_le.1 hfull, event, hstore, rfl⟩)⟩⟩
    exact ⟨s', emitAll_concat.2 ⟨s, hs, hcall⟩, hcounted.onCall hitem hcall⟩

/-- No callback raised, so the items were harmless. -/
theorem harmless_of_emitAll {items : List (Stream × Callback)} {s : Emitted} (hblank : NoBlanks items)
    (h : CliAgentRunner.emitAll R items = .ok s) : Harmless R items ∧ Counted items s := by
  induction items using List.reverseRecOn generalizing s with
  | nil =>
    cases h
    exact ⟨⟨by simp, by simp⟩, by constructor <;> simp⟩
  | append_singleton items item ih =>
    obtain ⟨s', hs', hcall⟩ := emitAll_concat.1 h
    obtain ⟨hharmless, hcounted⟩ := ih hblank.of_concat hs'
    have hpayload : payloadOf R item.2 ≠ .ok none := hblank.payloadOf (by simp)
    refine ⟨⟨?_, ?_⟩, hcounted.onCall hpayload hcall⟩
    · intro stream text hmem hdeep
      rcases List.mem_append.1 hmem with hold | hnew
      · exact hharmless.shallow stream text hold hdeep
      · obtain rfl := List.mem_singleton.1 hnew
        obtain ⟨payload, hok, -⟩ := (onCall_ok hpayload).1 hcall
        rw [payloadOf_recursion (hblank stream text (by simp)) hdeep] at hok
        cases hok
    · intro x hx payload hx'
      rw [List.take_append] at hx
      rcases List.mem_append.1 hx with hold | hnew
      · exact hharmless.storable x hold payload hx'
      · -- there was room for the item
        have hroom : items.length < maxEvents := by
          by_contra hfull
          rw [Nat.sub_eq_zero_of_le (Nat.not_lt.1 hfull)] at hnew
          cases hnew
        obtain rfl := List.mem_singleton.1 (List.mem_of_mem_take hnew)
        obtain ⟨payload', hok, hemit⟩ := (onCall_ok hpayload).1 hcall
        obtain rfl := Option.some.inj (Except.ok.inj (hx'.symm.trans hok))
        have hstored := hcounted.stored
        rcases emit_ok.1 hemit with ⟨hfull, -⟩ | ⟨-, event, hstore, -⟩
        · omega
        · exact (store_storable hstore).2.2

end

/-! ## Runs -/

section
variable {φ : Type} (R : PyRuntime φ) (feeds : List (Stream × List UInt8))

end

/-- A line with one field, whose value is a lone surrogate. -/
def surrogateLine : String := "\x7b\"a\":\"\\ud800\"\x7d"

/-- What Python does with that line. -/
def sampleRuntime : PyRuntime Unit where
  frames _ := 900
  listFrame := false
  loads _ text := if text = .of surrogateLine then .ok (.dict [(.of "a", .str [0xD800])]) else .error .valueError
  dumps _ value :=
    match value with
    | .dict [(key, .str text)] => .ok (.of "\x7b\"" ++ key ++ .of "\": \"" ++ text ++ .of "\"\x7d")
    | _ => .error .valueError
  str _ value :=
    match value with
    | .str text => .ok text
    | _ => .error .valueError
  redactPatterns _ text := .ok text

end CliAgentRunner

end AgentHub
