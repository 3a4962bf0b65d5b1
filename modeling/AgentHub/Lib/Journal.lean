import Mathlib.Data.List.Basic
import Mathlib.Tactic.Common
/-!
# Journals

A journal lists the changes of one subject, each from the status it had to the value it got. A page is
balanced when whoever replays the journal, checking that every change starts where the one before it ended,
ends with the value that is stored.
-/

namespace AgentHub.Lib

/-- A recorded change: the status it started from, none for a subject that comes into being, and the value. -/
structure Change (σ ν : Type) where
  previous : Option σ
  value : ν
  deriving DecidableEq, Repr

/-- What is recorded of a subject and what is stored of it. -/
@[ext] structure Page (σ ν : Type) where
  log : List (Change σ ν)
  stored : Option ν

namespace Page

variable {σ ν : Type}

def set (p : Page σ ν) (v : ν) : Page σ ν := { p with stored := some v }

def record (p : Page σ ν) (c : Change σ ν) : Page σ ν := { p with log := p.log ++ [c] }

/-- The page once the changes are recorded. -/
def paid (p : Page σ ν) (cs : List (Change σ ν)) : Page σ ν := { p with log := p.log ++ cs }

@[simp] theorem paid_nil {p : Page σ ν} : p.paid [] = p := by simp [paid]

@[simp] theorem paid_record {p : Page σ ν} {c : Change σ ν} {cs : List (Change σ ν)} :
    (p.record c).paid cs = p.paid (c :: cs) := by simp [paid, record]

end Page

namespace Journal

variable {σ ν : Type}

/-- The value after the changes. -/
def replay (initial : ν) (log : List (Change σ ν)) : ν := log.foldl (fun _ c => c.value) initial

@[simp] theorem replay_nil {initial : ν} : replay initial ([] : List (Change σ ν)) = initial := rfl

@[simp] theorem replay_snoc {initial : ν} {log : List (Change σ ν)} {c : Change σ ν} :
    replay initial (log ++ [c]) = c.value := by simp [replay]

/-- Every change starts from the status the changes before it end in. The first may be the subject's creation. -/
def Linked (status : ν → σ) (initial : ν) (log : List (Change σ ν)) : Prop :=
  ∀ before c after, log = before ++ c :: after →
    c.previous = some (status (replay initial before)) ∨ before = [] ∧ c.previous = none

/-- The journal is linked and replays to what is stored; nothing is recorded of what is not there. -/
structure Balanced (status : ν → σ) (initial : ν) (p : Page σ ν) : Prop where
  linked : Linked status initial p.log
  faithful : ∀ v, p.stored = some v → replay initial p.log = v
  absent : p.stored = none → p.log = []

variable {status : ν → σ} {initial : ν} {p : Page σ ν} {c : Change σ ν} {v : ν}

theorem linked_nil : Linked status initial ([] : List (Change σ ν)) := by
  intro before c after h
  simp at h

theorem Linked.snoc {log : List (Change σ ν)} (h : Linked status initial log)
    (hc : c.previous = some (status (replay initial log)) ∨ log = [] ∧ c.previous = none) :
    Linked status initial (log ++ [c]) := by
  intro before d after heq
  rcases List.eq_nil_or_concat after with rfl | ⟨after, e, rfl⟩
  · obtain ⟨rfl, hd⟩ := List.append_inj' heq rfl
    simp only [List.cons.injEq, and_true] at hd
    subst hd
    exact hc
  · -- The change is not the last: it was there before.
    rw [List.concat_eq_append, ← List.cons_append, ← List.append_assoc] at heq
    exact h before d after (List.append_inj' heq rfl).1

/-- A subject that is inserted in its initial state needs no record. -/
theorem Balanced.enter (h : Balanced status initial p) (hnone : p.stored = none) : Balanced status initial (p.set initial) := by
  have hlog : (p.set initial).log = [] := h.absent hnone
  refine ⟨h.linked, fun v hv => ?_, fun hn => by cases hn⟩
  rw [hlog]
  exact Option.some.inj hv

/-- A subject that is inserted with a record of it. -/
theorem Balanced.create (h : Balanced status initial p) (hnone : p.stored = none) (hc : c.previous = none) :
    Balanced status initial ((p.set c.value).record c) := by
  have hlog := h.absent hnone
  refine ⟨h.linked.snoc (.inr ⟨hlog, hc⟩), fun v hv => ?_, fun hn => by cases hn⟩
  exact replay_snoc.trans (Option.some.inj hv)

/-- A change that is recorded as it is made. -/
theorem Balanced.move (h : Balanced status initial p) (hstored : p.stored = some v) (hc : c.previous = some (status v)) :
    Balanced status initial ((p.set c.value).record c) := by
  refine ⟨h.linked.snoc (.inl ?_), fun v hv => ?_, fun hn => by cases hn⟩
  · rw [hc, h.faithful v hstored]
  · exact replay_snoc.trans (Option.some.inj hv)

/-- The last record carries what is stored. -/
theorem Balanced.last (h : Balanced status initial p) {log : List (Change σ ν)} (hlog : p.log = log ++ [c]) :
    p.stored = some c.value := by
  cases hs : p.stored with
  | none =>
    rw [h.absent hs] at hlog
    simp at hlog
  | some v =>
    have hv := h.faithful v hs
    rw [hlog, replay_snoc] at hv
    rw [hv]

end Journal

end AgentHub.Lib
