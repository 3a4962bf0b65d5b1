import AgentHub.Adapters.Cli.Runner
/-!
# What a result says about the output

Two invariants over schedules. `Books` counts the bytes: until a chunk goes over the limit every byte that was
read was fed, from then on none is. `Fate` follows the body of `run`: a result that does not say that the run
was stopped comes from the one course that waited for the exit and found nobody alive.
-/

namespace AgentHub

namespace CliAgentRunner

/-! ## Schedules -/

theorem run_append (s : Runner) (es es' : List Event) : run s (es ++ es') = (run s es).bind fun s => run s es' := by
  induction es generalizing s with
  | nil => rfl
  | cons e es ih =>
    simp only [List.cons_append, run]
    cases step s e with
    | none => rfl
    | some s' => exact ih s'

/-- What a step keeps, whatever came before it, a schedule keeps. -/
theorem inv_of_run {I : List Event → Runner → Prop}
    (hstep : ∀ past s e s', I past s → step s e = some s' → I (past ++ [e]) s') {past es : List Event} {s s' : Runner}
    (hs : I past s) (hrun : run s es = some s') : I (past ++ es) s' := by
  induction es generalizing past s with
  | nil =>
    obtain rfl := Option.some.inj hrun
    rw [List.append_nil]
    exact hs
  | cons e es ih =>
    simp only [run, Option.bind_eq_some_iff] at hrun
    obtain ⟨mid, hmid, hrest⟩ := hrun
    have h := ih (hstep past s e mid hs hmid) hrest
    rw [List.append_assoc] at h
    exact h

/-- The bytes a schedule reads, and how many of them came before the chunk that went over the limit. -/
structure Reading where
  total : Nat := 0
  crossedAt : Option Nat := none
  deriving DecidableEq, Repr

def Reading.add (limit : Nat) (r : Reading) : Event → Reading
  | .chunk _ bytes =>
    ⟨r.total + bytes.length,
      if r.crossedAt = none ∧ limit < r.total + bytes.length then some r.total else r.crossedAt⟩
  | _ => r

def Reading.of (limit : Nat) (es : List Event) : Reading := es.foldl (Reading.add limit) {}

theorem Reading.of_snoc (limit : Nat) (es : List Event) (e : Event) :
    Reading.of limit (es ++ [e]) = (Reading.of limit es).add limit e := by
  unfold Reading.of
  rw [List.foldl_append]
  rfl

/-! ## The bytes -/

/-- The books of a run: up to the crossing all that was read was fed, and what came later counts as truncated from the
limit on. -/
structure Books (limit : Nat) (r : Reading) (s : Runner) : Prop where
  bound : s.budget.limit = limit
  used : s.budget.used = r.total
  delivered : s.stdout.delivered.length + s.stderr.delivered.length = r.total
  fed : s.stdout.fed.length + s.stderr.fed.length = r.crossedAt.getD r.total
  truncated : s.budget.truncated = if r.crossedAt = none then 0 else r.total - limit
  exceeded : s.budget.exceeded = true ↔ r.crossedAt ≠ none
  whole : r.crossedAt = none → s.stdout.fed = s.stdout.delivered ∧ s.stderr.fed = s.stderr.delivered
  within : r.crossedAt = none → r.total ≤ limit
  crossed : ∀ m, r.crossedAt = some m → m ≤ limit ∧ limit < r.total

/-- The books only look at the budget and at the bytes of the pumps. -/
theorem Books.congr {limit : Nat} {r : Reading} {s s' : Runner} (h : Books limit r s) (hbudget : s'.budget = s.budget)
    (hout : (s'.stdout.delivered, s'.stdout.fed) = (s.stdout.delivered, s.stdout.fed))
    (herr : (s'.stderr.delivered, s'.stderr.fed) = (s.stderr.delivered, s.stderr.fed)) : Books limit r s' := by
  obtain ⟨hd, hf⟩ := Prod.mk.inj hout
  obtain ⟨hd', hf'⟩ := Prod.mk.inj herr
  constructor
  · rw [hbudget]; exact h.bound
  · rw [hbudget]; exact h.used
  · rw [hd, hd']; exact h.delivered
  · rw [hf, hf']; exact h.fed
  · rw [hbudget]; exact h.truncated
  · rw [hbudget]; exact h.exceeded
  · rw [hd, hd', hf, hf']; exact h.whole
  · exact h.within
  · exact h.crossed

theorem pump_cancel_bytes (p : Pump) : (p.cancel.delivered, p.cancel.fed) = (p.delivered, p.fed) := by
  unfold Pump.cancel
  split <;> rfl

theorem Books.cancelPumps {limit : Nat} {r : Reading} {s : Runner} (h : Books limit r s) :
    Books limit r s.cancelPumps := h.congr rfl (pump_cancel_bytes _) (pump_cancel_bytes _)

/-- What a chunk does to the budget. -/
theorem consume_cases {limit : Nat} {r : Reading} {s : Runner} (h : Books limit r s) (size : Nat) :
    (r.crossedAt = none ∧ r.total + size ≤ limit ∧ s.budget.consume size = ⟨limit, r.total + size, 0, false⟩) ∨
      ((r.crossedAt ≠ none ∨ limit < r.total + size) ∧
        s.budget.consume size = ⟨limit, r.total + size, r.total + size - limit, true⟩) := by
  have hbound := h.bound
  have hused := h.used
  have htruncated := h.truncated
  have hexceeded := h.exceeded
  cases hb : s.budget with | mk bound used truncated exceeded
  simp only [hb] at hbound hused htruncated hexceeded
  subst hbound hused
  unfold OutputBudget.consume
  dsimp only
  by_cases hcrossed : r.crossedAt = none
  · have hnot : exceeded = false := by simpa [hcrossed] using hexceeded
    rw [if_pos hcrossed] at htruncated
    subst hnot htruncated
    by_cases hover : bound < r.total + size
    · refine .inr ⟨.inr hover, ?_⟩
      simp [hover]
    · refine .inl ⟨hcrossed, Nat.le_of_not_lt hover, ?_⟩
      simp [hover]
  · obtain ⟨m, hm⟩ := Option.ne_none_iff_exists'.1 hcrossed
    have hover := (h.crossed m hm).2
    rw [if_neg hcrossed] at htruncated
    obtain rfl := hexceeded.2 hcrossed
    subst htruncated
    refine .inr ⟨.inl hcrossed, ?_⟩
    simp only [if_true, OutputBudget.mk.injEq, true_and, and_true]
    omega

/-- A chunk enters the books. -/
theorem Books.receive {limit : Nat} {r : Reading} {s : Runner} (h : Books limit r s) (stream : Stream)
    (bytes : List UInt8) : Books limit (r.add limit (.chunk stream bytes)) (s.receive stream bytes) := by
  have hdelivered := h.delivered
  have hfed := h.fed
  rcases consume_cases h bytes.length with ⟨hnone, hle, hb⟩ | ⟨hover, hb⟩
  · -- within the limit: read and fed
    obtain ⟨hout, herr⟩ := h.whole hnone
    have hadd : r.add limit (.chunk stream bytes) = ⟨r.total + bytes.length, none⟩ := by
      simp [Reading.add, hnone, Nat.not_lt.2 hle]
    rw [hadd]
    rw [hnone, Option.getD_none] at hfed
    unfold Runner.receive
    rw [hb]
    constructor <;> cases stream <;> simp [Runner.setPump, Runner.pump, hout, herr, hle] at hdelivered hfed ⊢ <;> omega
  · -- over the limit, now or before: read only
    have hadd : r.add limit (.chunk stream bytes) = ⟨r.total + bytes.length, some (r.crossedAt.getD r.total)⟩ := by
      unfold Reading.add
      cases hc : r.crossedAt with
      | none => simp [hover.resolve_left (not_not_intro hc)]
      | some m => simp
    have hcross : r.crossedAt.getD r.total ≤ limit ∧ limit < r.total + bytes.length := by
      cases hc : r.crossedAt with
      | none => exact ⟨h.within hc, hover.resolve_left (not_not_intro hc)⟩
      | some m => exact ⟨(h.crossed m hc).1, Nat.lt_of_lt_of_le (h.crossed m hc).2 (Nat.le_add_right _ _)⟩
    rw [hadd]
    unfold Runner.receive
    rw [hb]
    constructor <;> cases stream <;> simp [Runner.setPump, Runner.pump, hcross] at hdelivered hfed ⊢ <;> omega

theorem books_start (limit : Nat) (windows : Bool) : Books limit {} (start limit windows) := by
  constructor <;> simp [start]

/-- The bytes of a state: its budget, and what its pumps read and fed. -/
def Runner.bytes (s : Runner) : OutputBudget × (List UInt8 × List UInt8) × (List UInt8 × List UInt8) :=
  (s.budget, (s.stdout.delivered, s.stdout.fed), (s.stderr.delivered, s.stderr.fed))

@[simp] theorem cancelPumps_bytes (s : Runner) : s.cancelPumps.bytes = s.bytes := by
  simp [Runner.bytes, Runner.cancelPumps, pump_cancel_bytes]

/-- Only a chunk moves bytes. -/
theorem step_bytes {s s' : Runner} {e : Event} (hstep : step s e = some s')
    (hne : ∀ stream bytes, e ≠ .chunk stream bytes) : s'.bytes = s.bytes := by
  cases e with
  | chunk stream bytes => exact absurd rfl (hne stream bytes)
  | eof stream =>
    simp only [step, Option.ite_none_right_eq_some, Option.some.injEq] at hstep
    rw [← hstep.2]
    cases stream <;> rfl
  | interrupt =>
    simp only [step, Runner.interrupt] at hstep
    split at hstep <;> cases hstep <;> rfl
  | launched l =>
    cases l
    all_goals
      simp only [step, Runner.launch, Option.ite_none_right_eq_some, Option.some.injEq] at hstep
      try rw [← hstep.2]
      try rw [← hstep.2.2]
      rfl
  | woke w =>
    simp only [step, Option.ite_none_right_eq_some, Option.some.injEq] at hstep
    rw [← hstep.2]
    cases w <;> rfl
  | reaped =>
    simp only [step, Runner.reap] at hstep
    split at hstep <;> cases hstep <;> first | rfl | exact cancelPumps_bytes s
  | collected =>
    simp only [step, Option.ite_none_right_eq_some, Option.some.injEq] at hstep
    rw [← hstep.2]
    exact cancelPumps_bytes s
  | survivors found =>
    simp only [step, Runner.survey] at hstep
    split at hstep <;> cases hstep <;> first | rfl | exact cancelPumps_bytes s
  | gathered =>
    simp only [step, Runner.gather] at hstep
    split at hstep <;> cases hstep <;> rfl
  | _ =>
    simp only [step, Option.ite_none_right_eq_some, Option.some.injEq] at hstep
    first | (rw [← hstep.2]; rfl) | (cases hstep; rfl)

theorem books_step {limit : Nat} (past : List Event) (s : Runner) (e : Event) (s' : Runner)
    (h : Books limit (Reading.of limit past) s) (hstep : step s e = some s') :
    Books limit (Reading.of limit (past ++ [e])) s' := by
  rw [Reading.of_snoc]
  by_cases hchunk : ∃ stream bytes, e = .chunk stream bytes
  · obtain ⟨stream, bytes, rfl⟩ := hchunk
    simp only [step, Option.ite_none_right_eq_some, Option.some.injEq] at hstep
    rw [← hstep.2]
    exact h.receive stream bytes
  · push Not at hchunk
    have hbytes := step_bytes hstep hchunk
    simp only [Runner.bytes, Prod.mk.injEq] at hbytes
    have hadd : (Reading.of limit past).add limit e = Reading.of limit past := by
      cases e <;> first | rfl | exact absurd rfl (hchunk _ _)
    rw [hadd]
    exact h.congr hbytes.1 (Prod.ext hbytes.2.1.1 hbytes.2.1.2) (Prod.ext hbytes.2.2.1 hbytes.2.2.2)

/-! ## The course of the body -/

/-- The codes of a run that was stopped. -/
def stopCodes : List CliRunErrorCode := [.outputLimitExceeded, .timedOut, .cancelled, .orphanedDescendants]

/-- The first wait ended with the exit, no survivor was found and the caller did not cancel. -/
def Plain (es : List Event) : Prop := .woke .exit ∈ es ∧ .survivors true ∉ es ∧ .interrupt ∉ es

instance (es : List Event) : Decidable (Plain es) := inferInstanceAs (Decidable (_ ∧ _))

/-- Nothing stopped the run so far. -/
structure Runner.Running (s : Runner) : Prop where
  timedOut : s.timedOut = false
  cancelled : s.cancelled = false
  errorCode : s.errorCode = .ok

/-- Before the first wait is over. -/
structure Fresh (past : List Event) (s : Runner) : Prop where
  running : s.Running
  orphaned : s.orphaned = false
  exited : .woke .exit ∉ past
  found : .survivors true ∉ past
  interrupted : .interrupt ∉ past

/-- After the exit: the run remembers the survivors it found, and a cancellation only came in while they were reaped. -/
structure Drains (past : List Event) (s : Runner) : Prop where
  running : s.Running
  exited : .woke .exit ∈ past
  found : s.orphaned = true ↔ .survivors true ∈ past
  interrupted : .interrupt ∈ past → s.orphaned = true

/-- The run was stopped before it saw an exit. -/
structure Stopped (past : List Event) (s : Runner) : Prop where
  exited : .woke .exit ∉ past
  stopped : s.stopped = true
  errorCode : s.errorCode ∈ stopCodes

/-- How a result came about: refused before anything was read, stopped, or at the end of a plain course. -/
inductive Outcome (past : List Event) (s : Runner) (r : CliRunResult) : Prop
  | refused (hused : s.budget.used = 0) (hcode : r.errorCode ∉ [.ok, .exitNonZero])
  | stopped (hplain : ¬ Plain past) (hcode : r.errorCode ∈ stopCodes)
  | plain (hplain : Plain past) (hcode : r.errorCode ∈ [.ok, .exitNonZero])
      (hflushed : s.flushed = some (s.stdout.fed, s.stderr.fed))

/-- What is known at each await. -/
def Fate (past : List Event) (s : Runner) : Prop :=
  match s.phase with
  | .launching => Fresh past s ∧ s.budget.used = 0
  | .refusing code => s.budget.used = 0 ∧ code ∉ [.ok, .exitNonZero]
  | .waiting => Fresh past s
  | .reapingLimit | .collecting => .woke .exit ∉ past ∧ s.Running
  | .reaping | .stoppingReaders => Stopped past s
  | .draining | .probingPending => Drains past s
  | .gathering => Drains past s ∧ s.pumpsDone = true
  | .probing => Drains past s ∧ s.pumpsDone = true ∧ s.flushed = some (s.stdout.fed, s.stderr.fed)
  | .reapingPending | .reapingSurvivors => Drains past s ∧ s.orphaned = true
  | .unwinding => .interrupt ∈ past
  | .ended none => True
  | .ended (some r) => r.truncatedOutputBytes = s.budget.truncated ∧ Outcome past s r

/-- The events that decide the outcome. -/
def marks : List Event := [.woke .exit, .survivors true, .interrupt]

section
variable {past : List Event} {e : Event} {s s' : Runner}

theorem mem_snoc_of_not_mark {m : Event} (hm : m ∈ marks) (he : e ∉ marks) : m ∈ past ++ [e] ↔ m ∈ past := by
  rw [List.mem_append, List.mem_singleton, or_iff_left]
  rintro rfl
  exact he hm

theorem plain_snoc (he : e ∉ marks) : Plain (past ++ [e]) ↔ Plain past := by
  unfold Plain
  rw [mem_snoc_of_not_mark (by simp [marks]) he, mem_snoc_of_not_mark (by simp [marks]) he,
    mem_snoc_of_not_mark (by simp [marks]) he]

/-- The variables of the body. -/
def Runner.locals (s : Runner) : Bool × Bool × Bool × CliRunErrorCode := (s.timedOut, s.cancelled, s.orphaned, s.errorCode)

theorem Runner.Running.congr (h : s.Running) (hl : s'.locals = s.locals) : s'.Running := by
  simp only [Runner.locals, Prod.mk.injEq] at hl
  exact ⟨hl.1.trans h.timedOut, hl.2.1.trans h.cancelled, hl.2.2.2.trans h.errorCode⟩

theorem Fresh.snoc (h : Fresh past s) (he : e ∉ marks) (hl : s'.locals = s.locals) : Fresh (past ++ [e]) s' where
  running := h.running.congr hl
  orphaned := by
    simp only [Runner.locals, Prod.mk.injEq] at hl
    exact hl.2.2.1.trans h.orphaned
  exited := by rw [mem_snoc_of_not_mark (by simp [marks]) he]; exact h.exited
  found := by rw [mem_snoc_of_not_mark (by simp [marks]) he]; exact h.found
  interrupted := by rw [mem_snoc_of_not_mark (by simp [marks]) he]; exact h.interrupted

theorem Drains.snoc (h : Drains past s) (he : e ∉ marks) (hl : s'.locals = s.locals) : Drains (past ++ [e]) s' := by
  have hrunning := h.running.congr hl
  simp only [Runner.locals, Prod.mk.injEq] at hl
  refine ⟨hrunning, ?_, ?_, ?_⟩
  · rw [mem_snoc_of_not_mark (by simp [marks]) he]; exact h.exited
  · rw [mem_snoc_of_not_mark (by simp [marks]) he, hl.2.2.1]; exact h.found
  · rw [mem_snoc_of_not_mark (by simp [marks]) he, hl.2.2.1]; exact h.interrupted

theorem Stopped.snoc (h : Stopped past s) (he : e ∉ marks) (hl : s'.locals = s.locals) : Stopped (past ++ [e]) s' := by
  simp only [Runner.locals, Prod.mk.injEq] at hl
  obtain ⟨ht, hc, -, hcode⟩ := hl
  refine ⟨?_, ?_, ?_⟩
  · rw [mem_snoc_of_not_mark (by simp [marks]) he]; exact h.exited
  · unfold Runner.stopped; rw [ht, hc, hcode]; exact h.stopped
  · rw [hcode]; exact h.errorCode

theorem Outcome.snoc {r : CliRunResult} (h : Outcome past s r) (he : e ∉ marks) (hbytes : s'.bytes = s.bytes)
    (hflushed : s'.flushed = s.flushed) : Outcome (past ++ [e]) s' r := by
  simp only [Runner.bytes, Prod.mk.injEq] at hbytes
  obtain ⟨hbudget, hout, herr⟩ := hbytes
  cases h with
  | refused hused hcode => exact .refused (by rw [hbudget]; exact hused) hcode
  | stopped hplain hcode => exact .stopped (by rw [plain_snoc he]; exact hplain) hcode
  | plain hplain hcode hf => exact .plain ((plain_snoc he).2 hplain) hcode (by rw [hflushed, hout.2, herr.2]; exact hf)

/-- An event that moves neither the body nor a byte. -/
theorem Fate.idle (h : Fate past s) (he : e ∉ marks) (hphase : s'.phase = s.phase) (hl : s'.locals = s.locals)
    (hbytes : s'.bytes = s.bytes) (hflushed : s'.flushed = s.flushed)
    (hdone : s.pumpsDone = true → s'.pumpsDone = true) : Fate (past ++ [e]) s' := by
  have hb := hbytes
  simp only [Runner.bytes, Prod.mk.injEq] at hb
  obtain ⟨hbudget, hout, herr⟩ := hb
  unfold Fate at h ⊢
  rw [hphase]
  split at h
  · exact ⟨h.1.snoc he hl, by rw [hbudget]; exact h.2⟩
  · exact ⟨by rw [hbudget]; exact h.1, h.2⟩
  · exact h.snoc he hl
  · exact ⟨by rw [mem_snoc_of_not_mark (by simp [marks]) he]; exact h.1, h.2.congr hl⟩
  · exact ⟨by rw [mem_snoc_of_not_mark (by simp [marks]) he]; exact h.1, h.2.congr hl⟩
  · exact h.snoc he hl
  · exact h.snoc he hl
  · exact h.snoc he hl
  · exact h.snoc he hl
  · exact ⟨h.1.snoc he hl, hdone h.2⟩
  · exact ⟨h.1.snoc he hl, hdone h.2.1, by rw [hflushed, hout.2, herr.2]; exact h.2.2⟩
  · simp only [Runner.locals, Prod.mk.injEq] at hl
    exact ⟨h.1.snoc he (by simp [Runner.locals, hl]), hl.2.2.1.trans h.2⟩
  · simp only [Runner.locals, Prod.mk.injEq] at hl
    exact ⟨h.1.snoc he (by simp [Runner.locals, hl]), hl.2.2.1.trans h.2⟩
  · exact (mem_snoc_of_not_mark (by simp [marks]) he).2 h
  · trivial
  · exact ⟨h.1.trans (by rw [hbudget]), h.2.snoc he hbytes hflushed⟩

/-- A chunk is only read while the body still waits for the pump. -/
theorem Fate.chunk (h : Fate past s) {stream : Stream} {bytes : List UInt8} (hreads : s.phase.reads = true)
    (hreading : (s.pump stream).status = .reading) : Fate (past ++ [.chunk stream bytes]) (s.receive stream bytes) := by
  have he : Event.chunk stream bytes ∉ marks := by simp [marks]
  have hphase : (s.receive stream bytes).phase = s.phase := by
    unfold Runner.receive
    cases stream <;> dsimp only <;> split <;> rfl
  have hl : (s.receive stream bytes).locals = s.locals := by
    unfold Runner.receive
    cases stream <;> dsimp only <;> split <;> rfl
  have hbusy : s.pumpsDone = false := by
    unfold Runner.pumpsDone
    cases stream <;> simp [Runner.pump] at hreading <;> simp [hreading]
  unfold Fate at h ⊢
  rw [hphase]
  cases hp : s.phase with
  | launching | refusing | ended => rw [hp] at hreads; cases hreads
  | gathering | probing =>
    simp only [hp, hbusy] at h
    exact absurd h (by simp)
  | waiting => simp only [hp] at h; exact h.snoc he hl
  | reapingLimit | collecting =>
    simp only [hp] at h
    exact ⟨by rw [mem_snoc_of_not_mark (by simp [marks]) he]; exact h.1, h.2.congr hl⟩
  | reaping | stoppingReaders => simp only [hp] at h; exact h.snoc he hl
  | draining | probingPending => simp only [hp] at h; exact h.snoc he hl
  | reapingPending | reapingSurvivors =>
    simp only [hp] at h
    have horphaned : (s.receive stream bytes).orphaned = s.orphaned := congrArg (fun l => l.2.2.1) hl
    exact ⟨h.1.snoc he hl, horphaned.trans h.2⟩
  | unwinding => simp only [hp] at h; exact (mem_snoc_of_not_mark (by simp [marks]) he).2 h

/-! ### The marks -/

theorem Fate.wake (h : Fate past s) (hp : s.phase = .waiting) (w : Wake) : Fate (past ++ [.woke w]) (s.wake w) := by
  have hfresh : Fresh past s := by simpa only [Fate, hp] using h
  obtain ⟨⟨ht, hc, hcode⟩, horphaned, hexited, hfound, hinterrupted⟩ := hfresh
  cases w with
  | cancel => refine ⟨by simpa using hexited, ?_, ?_⟩ <;> simp [Runner.wake, Runner.stopped, stopCodes]
  | limit => exact ⟨by simpa using hexited, ht, hc, hcode⟩
  | exit =>
    refine ⟨⟨ht, hc, hcode⟩, by simp, ?_, ?_⟩
    · simp [Runner.wake, horphaned, hfound]
    · simp [hinterrupted]
  | timeout => refine ⟨by simpa using hexited, ?_, ?_⟩ <;> simp [Runner.wake, Runner.stopped, stopCodes]

theorem Fate.interrupt (h : Fate past s) (hs : s.interrupt = some s') : Fate (past ++ [.interrupt]) s' := by
  unfold Runner.interrupt at hs
  cases hp : s.phase with
  | waiting =>
    simp only [hp, Option.some.injEq] at hs
    have hfresh : Fresh past s := by simpa only [Fate, hp] using h
    subst hs
    refine ⟨by simpa using hfresh.exited, ?_, ?_⟩ <;> simp [Runner.stopped, stopCodes]
  | collecting =>
    simp only [hp, Option.some.injEq] at hs
    have hcollecting : .woke .exit ∉ past ∧ s.Running := by simpa only [Fate, hp] using h
    subst hs
    refine ⟨by simpa using hcollecting.1, ?_, ?_⟩ <;> simp [Runner.stopped, stopCodes]
  | stoppingReaders | draining | probingPending | gathering | probing =>
    simp only [hp, Option.some.injEq] at hs
    subst hs
    simp [Fate]
  | refusing code =>
    simp only [hp, Option.some.injEq] at hs
    subst hs
    simpa only [Fate, hp] using h
  | reapingLimit =>
    simp only [hp, Option.some.injEq] at hs
    subst hs
    simpa [Fate, hp] using h
  | reaping =>
    simp only [hp, Option.some.injEq] at hs
    have hstopped : Stopped past s := by simpa only [Fate, hp] using h
    subst hs
    simp only [Fate, hp]
    exact ⟨by simpa using hstopped.exited, hstopped.stopped, hstopped.errorCode⟩
  | reapingPending | reapingSurvivors =>
    simp only [hp, Option.some.injEq] at hs
    subst hs
    simp only [Fate, hp] at h ⊢
    obtain ⟨⟨hrunning, hexited, hfound, -⟩, horphaned⟩ := h
    exact ⟨⟨hrunning, by simpa using hexited, by simpa using hfound, fun _ => horphaned⟩, horphaned⟩
  | unwinding =>
    simp only [hp, Option.some.injEq] at hs
    subst hs
    simp [Fate, hp]
  | launching | ended =>
    rw [hp] at hs
    cases hs

/-- A result that was built from the locals of the body. -/
theorem fate_end {r : CliRunResult} (htruncated : r.truncatedOutputBytes = s.budget.truncated)
    (h : Outcome past (s.end r) r) : Fate past (s.end r) := by
  unfold Runner.end at h ⊢
  cases hr : r.check with
  | true =>
    simp only [hr, if_true] at h
    exact ⟨htruncated, h⟩
  | false => trivial

/-- The end of a drained run: the code says whether survivors were found. -/
theorem Drains.outcome (h : Drains past s) (hflushed : s.flushed = some (s.stdout.fed, s.stderr.fed) ∨ s.orphaned = true) :
    Outcome past (s.end s.result) s.result := by
  have hstopped : s.stopped = false := by
    simp [Runner.stopped, h.running.timedOut, h.running.cancelled, h.running.errorCode]
  by_cases horphaned : s.orphaned = true
  · refine .stopped (fun hplain => hplain.2.1 (h.found.1 horphaned)) ?_
    simp [Runner.result, Runner.finalCode, hstopped, horphaned, stopCodes]
  · refine .plain ⟨h.exited, fun hf => horphaned (h.found.2 hf), fun hi => horphaned (h.interrupted hi)⟩ ?_
      (hflushed.resolve_right horphaned)
    have hcode : s.result.errorCode = if s.exitCode ∉ [none, some 0] then .exitNonZero else .ok := by
      simp only [Runner.result, Runner.finalCode, hstopped, horphaned, Bool.false_eq_true, if_false]
    rw [hcode]
    split <;> simp

theorem Stopped.outcome (h : Stopped past s) : Outcome past (s.flush.end s.result) s.result := by
  refine .stopped (fun hplain => h.exited hplain.1) ?_
  have hcode : s.result.errorCode = s.errorCode := by simp [Runner.result, Runner.finalCode, h.stopped]
  rw [hcode]
  exact h.errorCode

theorem cancelPumps_done (s : Runner) : s.cancelPumps.pumpsDone = true := by
  have hdone : ∀ p : Pump, p.cancel.status ≠ .reading := by
    intro p
    unfold Pump.cancel
    split
    · simp
    · next h => exact h
  simp [Runner.pumpsDone, Runner.cancelPumps, hdone]

theorem Fate.reaped (h : Fate past s) (hs : s.reap = some s') : Fate (past ++ [.reaped]) s' := by
  have he : Event.reaped ∉ marks := by simp [marks]
  unfold Runner.reap at hs
  cases hp : s.phase with
  | refusing code =>
    simp only [hp, Option.some.injEq] at hs
    obtain ⟨hused, hcode⟩ : s.budget.used = 0 ∧ code ∉ [.ok, .exitNonZero] := by simpa only [Fate, hp] using h
    subst hs
    have hrefusal : (s.refusal code).errorCode = code ∧ (s.refusal code).truncatedOutputBytes = s.budget.truncated := by
      unfold Runner.refusal
      split
      · next hc => exact ⟨hc.symm, rfl⟩
      · exact ⟨rfl, rfl⟩
    exact fate_end hrefusal.2 (.refused hused (by rw [hrefusal.1]; exact hcode))
  | reapingLimit =>
    simp only [hp, Option.some.injEq] at hs
    subst hs
    obtain ⟨hexited, hrunning⟩ : .woke .exit ∉ past ∧ s.Running := by simpa only [Fate, hp] using h
    exact ⟨by simpa using hexited, hrunning.congr rfl⟩
  | reaping =>
    simp only [hp, Option.some.injEq] at hs
    subst hs
    have hstopped : Stopped past s := by simpa only [Fate, hp] using h
    exact hstopped.snoc he rfl
  | reapingPending =>
    simp only [hp, Option.some.injEq] at hs
    subst hs
    have hdrains : Drains past s ∧ s.orphaned = true := by simpa only [Fate, hp] using h
    exact ⟨hdrains.1.snoc he rfl, cancelPumps_done s⟩
  | reapingSurvivors =>
    simp only [hp, Option.some.injEq] at hs
    subst hs
    have hdrains : Drains past s ∧ s.orphaned = true := by simpa only [Fate, hp] using h
    exact fate_end rfl ((hdrains.1.outcome (.inr hdrains.2)).snoc he rfl rfl)
  | unwinding =>
    simp only [hp, Option.some.injEq] at hs
    subst hs
    have hinterrupted : .interrupt ∈ past := by simpa only [Fate, hp] using h
    exact fate_end rfl (.stopped (fun hplain => hplain.2.2 (by simp [hinterrupted])) (by simp [Runner.cancellationResult, stopCodes]))
  | _ =>
    rw [hp] at hs
    cases hs

theorem Fate.survey (h : Fate past s) {found : Bool} (hs : s.survey found = some s') :
    Fate (past ++ [.survivors found]) s' := by
  have he : Event.survivors false ∉ marks := by simp [marks]
  have hfound (hd : Drains past s) {t : Runner} (ht : t.locals = (s.timedOut, s.cancelled, true, s.errorCode)) :
      Drains (past ++ [.survivors true]) t ∧ t.orphaned = true := by
    simp only [Runner.locals, Prod.mk.injEq] at ht
    obtain ⟨htime, hcancel, horphaned, hcode⟩ := ht
    refine ⟨⟨⟨htime.trans hd.running.timedOut, hcancel.trans hd.running.cancelled, hcode.trans hd.running.errorCode⟩, ?_, ?_,
      fun _ => horphaned⟩, horphaned⟩
    · simpa using hd.exited
    · simp [horphaned]
  unfold Runner.survey at hs
  split at hs
  · next hp =>
    cases hs
    exact hfound (by simpa only [Fate, hp] using h) rfl
  · next hp =>
    cases hs
    have hd : Drains past s := by simpa only [Fate, hp] using h
    exact ⟨hd.snoc he rfl, cancelPumps_done s⟩
  · next hp =>
    cases hs
    have hd : Drains past s ∧ s.pumpsDone = true ∧ s.flushed = some (s.stdout.fed, s.stderr.fed) := by
      simpa only [Fate, hp] using h
    exact hfound hd.1 rfl
  · next hp =>
    cases hs
    have hd : Drains past s ∧ s.pumpsDone = true ∧ s.flushed = some (s.stdout.fed, s.stderr.fed) := by
      simpa only [Fate, hp] using h
    exact fate_end rfl ((hd.1.outcome (.inl hd.2.2)).snoc he rfl rfl)
  · cases hs

theorem Fate.gathered (h : Fate past s) (hs : s.gather = some s') : Fate (past ++ [.gathered]) s' := by
  have he : Event.gathered ∉ marks := by simp [marks]
  unfold Runner.gather at hs
  split at hs
  · next hp =>
    cases hs
    have hstopped : Stopped past s := by simpa only [Fate, hp] using h
    exact fate_end rfl (hstopped.outcome.snoc he rfl rfl)
  · next hp =>
    cases hs
    have hd : Drains past s ∧ s.pumpsDone = true := by simpa only [Fate, hp] using h
    exact ⟨hd.1.snoc he rfl, hd.2, rfl⟩
  · cases hs

theorem Fate.launch (h : Fate past s) (hp : s.phase = .launching) {l : Launch} (hs : s.launch l = some s') :
    Fate (past ++ [.launched l]) s' := by
  have he : Event.launched l ∉ marks := by simp [marks]
  obtain ⟨hfresh, hused⟩ : Fresh past s ∧ s.budget.used = 0 := by simpa only [Fate, hp] using h
  cases l with
  | resumed =>
    cases hs
    exact hfresh.snoc he rfl
  | cancelled =>
    simp only [Runner.launch, Option.ite_none_right_eq_some, Option.some.injEq] at hs
    obtain ⟨-, rfl⟩ := hs
    exact ⟨hused, by simp⟩
  | drift =>
    cases hs
    exact ⟨hused, by simp⟩
  | isolation =>
    cases hs
    exact ⟨hused, by simp⟩

end

theorem fate_start (limit : Nat) (windows : Bool) : Fate [] (start limit windows) := by
  have hfresh : Fresh [] (start limit windows) := ⟨⟨rfl, rfl, rfl⟩, rfl, by simp, by simp, by simp⟩
  cases windows
  · exact hfresh
  · exact ⟨hfresh, rfl⟩

theorem fate_step (past : List Event) (s : Runner) (e : Event) (s' : Runner) (h : Fate past s)
    (hstep : step s e = some s') : Fate (past ++ [e]) s' := by
  cases e with
  | chunk stream bytes =>
    simp only [step, Option.ite_none_right_eq_some, Option.some.injEq, Bool.and_eq_true, decide_eq_true_eq] at hstep
    obtain ⟨⟨⟨⟨hreads, hreading⟩, -⟩, -⟩, rfl⟩ := hstep
    exact h.chunk hreads hreading
  | eof stream =>
    have hbytes := step_bytes hstep (by simp)
    simp only [step, Option.ite_none_right_eq_some, Option.some.injEq] at hstep
    obtain ⟨-, rfl⟩ := hstep
    refine h.idle (by simp [marks]) ?_ ?_ hbytes ?_ ?_
    · cases stream <;> rfl
    · cases stream <;> rfl
    · cases stream <;> rfl
    · intro hdone
      simp only [Runner.pumpsDone, Bool.and_eq_true] at hdone ⊢
      cases stream
      · exact ⟨rfl, hdone.2⟩
      · exact ⟨hdone.1, rfl⟩
  | interrupt => exact h.interrupt hstep
  | launched l =>
    simp only [step, Option.ite_none_right_eq_some] at hstep
    exact h.launch hstep.1 hstep.2
  | woke w =>
    simp only [step, Option.ite_none_right_eq_some, Option.some.injEq, Bool.and_eq_true, decide_eq_true_eq] at hstep
    obtain ⟨⟨hp, -⟩, rfl⟩ := hstep
    exact h.wake hp w
  | reaped => exact h.reaped hstep
  | collected =>
    simp only [step, Option.ite_none_right_eq_some, Option.some.injEq] at hstep
    obtain ⟨hp, rfl⟩ := hstep
    obtain ⟨hexited, hrunning⟩ : .woke .exit ∉ past ∧ s.Running := by simpa only [Fate, hp] using h
    refine ⟨by simpa using hexited, ?_, ?_⟩ <;> simp [Runner.stopped, stopCodes]
  | drained =>
    simp only [step, Option.ite_none_right_eq_some, Option.some.injEq, Bool.and_eq_true, decide_eq_true_eq] at hstep
    obtain ⟨⟨hp, hdone⟩, rfl⟩ := hstep
    have hd : Drains past s := by simpa only [Fate, hp] using h
    exact ⟨hd.snoc (by simp [marks]) rfl, hdone⟩
  | drainTimeout =>
    simp only [step, Option.ite_none_right_eq_some, Option.some.injEq, Bool.and_eq_true, decide_eq_true_eq] at hstep
    obtain ⟨⟨hp, -⟩, rfl⟩ := hstep
    have hd : Drains past s := by simpa only [Fate, hp] using h
    exact hd.snoc (by simp [marks]) rfl
  | survivors found => exact h.survey hstep
  | gathered => exact h.gathered hstep
  | _ =>
    simp only [step, Option.ite_none_right_eq_some, Option.some.injEq] at hstep
    obtain ⟨-, rfl⟩ := hstep
    exact h.idle (by simp [marks]) rfl rfl rfl rfl id

/-! ## The claim of a result -/

/-- What a result says about the output is so: a run that was not stopped was read and fed in full, an exceeded budget shows
in the code, and every byte that was read was fed or is counted as truncated. -/
structure Faithful (s : Runner) (r : CliRunResult) : Prop where
  complete : r.errorCode ∈ [.ok, .exitNonZero] →
    s.flushed = some (s.stdout.delivered, s.stderr.delivered) ∧ r.truncatedOutputBytes = 0
  signalled : s.budget.exceeded = true → r.errorCode ∈ stopCodes
  balanced : s.stdout.fed.length + s.stderr.fed.length + r.truncatedOutputBytes =
    s.stdout.delivered.length + s.stderr.delivered.length

/-- The child exits at once; what it wrote is read in the drain. -/
def shortLived (drain : List Event) : List Event :=
  [.exited 0, .waitTask, .woke .exit] ++ drain ++ [.drained, .gathered, .survivors false]

/-- Where its run ends under a limit. -/
def shortLivedEnd (limit : Nat) (drain : List Event) : Runner :=
  (run (start limit false) (shortLived drain)).getD (start limit false)

def shortLivedResult (truncated : Nat) : CliRunResult := ⟨.ok, some 0, false, false, true, truncated⟩

/-- Two bytes under a limit of one: the pump of the chunk returns by itself. -/
def twoBytes : List Event := [.chunk .stdout [97, 98], .eof .stderr]

/-- One byte under the same limit. -/
def oneByte : List Event := [.chunk .stdout [97], .eof .stdout, .eof .stderr]

end CliAgentRunner

end AgentHub
