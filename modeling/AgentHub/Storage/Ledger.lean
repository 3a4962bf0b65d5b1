import AgentHub.Lib.Journal
import AgentHub.Storage.EventLog
import AgentHub.Storage.Moves
/-!
# What the state events say

The state events of a run, a node run or a task are its journal; its row is what is stored of it. `Follows` says
what an operation does to the books: a balanced page stays balanced, unless the operation is licensed to end its
subject silently, and a ChangeSet moves only as it is licensed to. It holds of each statement that writes no
status, and of each status write together with its event.
-/

namespace AgentHub

open Lib WorkflowRunRepository

/-! ## Journals -/

/-- What a state event is about. -/
inductive Subject where
  | run (id : String) | node (id : String) | task (id : String)
  deriving DecidableEq, Repr

inductive SubjectStatus where
  | run (status : WorkflowRunStatus) | node (status : NodeRunStatus) | task (status : TaskStatus)
  deriving DecidableEq, Repr

/-- A status and, of a node run, its outcome. -/
abbrev SubjectValue : Type := SubjectStatus × Option NodeOutcome

abbrev StateChange : Type := Change SubjectStatus SubjectValue

/-- Every subject is pending at first. -/
def Subject.initial : Subject → SubjectValue
  | .run _ => (.run .pending, none)
  | .node _ => (.node .pending, none)
  | .task _ => (.task .pending, none)

/-- The change a state event records. -/
def EventRow.stateChange (e : EventRow) : Option (Subject × StateChange) :=
  match e.payload with
  | .run _ id previous status _ =>
    if e.eventType = runStateChanged then some (.run id, ⟨previous.map .run, .run status, none⟩) else none
  | .node _ _ id _ previous status outcome _ _ =>
    if e.eventType = nodeStateChanged then some (.node id, ⟨some (.node previous), .node status, outcome⟩) else none
  | .task _ _ _ _ id previous status _ =>
    if e.eventType = taskStateChanged then some (.task id, ⟨previous.map .task, .task status, none⟩) else none
  | _ => none

/-- The change of a ChangeSet an event records. -/
def EventRow.changeSetChange (e : EventRow) : Option (String × Change ChangeSetStatus ChangeSetStatus) :=
  match e.payload with
  | .changeSet _ _ _ _ _ id previous status _ _ =>
    if e.eventType = changeSetStateChanged then some (id, ⟨previous, status⟩) else none
  | _ => none

/-- The changes of a subject that an event records. -/
def EventRow.changeOf (s : Subject) (e : EventRow) : Option StateChange :=
  e.stateChange.bind fun p => if p.1 = s then some p.2 else none

namespace Db

def log (db : Db) (s : Subject) : List StateChange := db.events.filterMap (EventRow.changeOf s)

/-- The events that say a ChangeSet moved. -/
def changeSetEvents (db : Db) : List EventRow := db.events.filter fun e => e.changeSetChange.isSome

/-- What the row of a subject holds. -/
def stored (db : Db) : Subject → Option SubjectValue
  | .run id => (db.workflowRuns.get? id).map fun r => (.run r.status, none)
  | .node id => (db.nodeRuns.get? id).map fun r => (.node r.status, r.outcome)
  | .task id => (db.tasks.get? id).map fun r => (.task r.status, none)

/-- The run a subject belongs to. -/
def owner (db : Db) : Subject → Option String
  | .run id => (db.workflowRuns.get? id).map WorkflowRunRow.id
  | .node id => (db.nodeRuns.get? id).map NodeRunRow.workflowRunId
  | .task id => (db.tasks.get? id).bind fun t => (db.nodeRuns.get? t.nodeRunId).map NodeRunRow.workflowRunId

def page (db : Db) (s : Subject) : Page SubjectStatus SubjectValue := ⟨db.log s, db.stored s⟩

def changeSetStatus (db : Db) (id : String) : Option ChangeSetStatus := (db.changeSets.get? id).map ChangeSetRow.status

/-- The run a ChangeSet belongs to. -/
def changeSetRun (db : Db) (id : String) : Option String := (db.changeSets.get? id).bind fun c => db.owner (.task c.taskId)

/-- The events of a run, `ORDER BY run_seq`. -/
def stream (db : Db) (workflowRunId : String) : List EventRow :=
  (db.events.filter fun e => e.workflowRunId = some workflowRunId).mergeSort fun a b => a.runSeq.getD 0 ≤ b.runSeq.getD 0

end Db

/-- The page of a subject is balanced. -/
abbrev Balanced (db : Db) (s : Subject) : Prop := Journal.Balanced Prod.fst s.initial (db.page s)

/-! ## The law of the log -/

/-- The events of every run are numbered in the order they were appended, a state event belongs to the run of its
subject, and a node run that is not finished has no outcome. -/
structure LedgerLaw (db : Db) : Prop where
  numbered : ∀ e ∈ db.events, e.workflowRunId.isSome → e.runSeq.isSome
  ordered : db.events.Pairwise fun a b => ∀ r n m, a.slot = some (r, n) → b.slot = some (r, m) → n < m
  counted : ∀ e ∈ db.events, ∀ r n, e.slot = some (r, n) → n < db.nextSeq r
  owned : ∀ e ∈ db.events, ∀ s c, e.stateChange = some (s, c) → ∃ r, db.owner s = some r ∧ e.workflowRunId = some r
  open_ : ∀ r ∈ db.nodeRuns.rows, r.status.isLive = true → r.outcome = none

/-- What is read off the events of a run, by number, is read off all events, if the others say nothing of it. -/
theorem LedgerLaw.read {β : Type} {db : Db} (h : LedgerLaw db) {rid : String} {f : EventRow → Option β}
    (hf : ∀ e ∈ db.events, f e ≠ none → e.workflowRunId = some rid) : (db.stream rid).filterMap f = db.events.filterMap f := by
  have hslot : ∀ e ∈ db.events, e.workflowRunId = some rid → e.slot = some (rid, e.runSeq.getD 0) := by
    intro e he hrun
    have hsome := h.numbered e he (by simp [hrun])
    obtain ⟨n, hn⟩ := Option.isSome_iff_exists.1 hsome
    simp [EventRow.slot, hrun, hn]
  have hsorted : (db.events.filter fun e => e.workflowRunId = some rid).Pairwise fun a b =>
      decide (a.runSeq.getD 0 ≤ b.runSeq.getD 0) = true := by
    refine (h.ordered.filter _).imp_of_mem fun {a b} ha hb hlt => ?_
    obtain ⟨ha, harun⟩ := List.mem_filter.1 ha
    obtain ⟨hb, hbrun⟩ := List.mem_filter.1 hb
    have := hlt rid _ _ (hslot a ha (of_decide_eq_true harun)) (hslot b hb (of_decide_eq_true hbrun))
    simp only [decide_eq_true_eq]
    omega
  unfold Db.stream
  rw [List.mergeSort_of_pairwise hsorted, List.filterMap_filter]
  apply List.filterMap_congr
  intro e he
  split
  · rfl
  · next hrun =>
    by_contra hne
    exact hrun (decide_eq_true (hf e he (Ne.symm hne)))

/-- The journal of a subject read from its run is its journal. -/
theorem LedgerLaw.stream {db : Db} (h : LedgerLaw db) {s : Subject} {rid : String} (howner : db.owner s = some rid) :
    (db.stream rid).filterMap (EventRow.changeOf s) = db.log s := by
  refine h.read fun e he hne => ?_
  cases hc : e.stateChange with
  | none => simp [EventRow.changeOf, hc] at hne
  | some p =>
    obtain ⟨r, hr, herun⟩ := h.owned e he p.1 p.2 hc
    have hs : p.1 = s := by
      by_contra hs
      simp [EventRow.changeOf, hc, hs] at hne
    rw [hs, howner] at hr
    rw [herun, ← hr]

/-! ## What an operation does to the books -/

/-- Whose subjects are known to belong to which run, whose end may go unrecorded, and which ChangeSet may move, from
which status and to which. -/
structure Licence where
  owns : Subject → String → Prop
  silent : Subject → Prop
  moves : String → ChangeSetStatus → Prop
  target : ChangeSetStatus

def Licence.Holds (P : Licence) (db : Db) : Prop := ∀ s r, P.owns s r → db.owner s = some r

/-- The law of the log is kept, and no subject changes its run. -/
structure Lawful (P : Licence) (db db' : Db) : Prop where
  owners : ∀ s r, db.owner s = some r → db'.owner s = some r
  law : P.Holds db → LedgerLaw db → LedgerLaw db'

/-- Balanced pages stay balanced. -/
structure Tells (P : Licence) (db db' : Db) : Prop extends Lawful P db db' where
  books : P.Holds db → LedgerLaw db → ∀ s, ¬ P.silent s → Balanced db s → Balanced db' s

/-- The ChangeSet stays or makes the one move it is licensed to. -/
structure ChangeSetMoves (P : Licence) (c c' : ChangeSetRow) : Prop where
  same : c'.subject = c.subject
  moved : c'.status = c.status ∨ P.moves c.id c.status ∧ c'.status = P.target

/-- The books are kept, ChangeSets only make licensed moves, and no event says that one moved. -/
structure Follows (P : Licence) (db db' : Db) : Prop extends Tells P db db' where
  changeSets : Evolves (ChangeSetMoves P) (fun _ => False) db.changeSets db'.changeSets
  changeLog : db'.changeSetEvents = db.changeSetEvents

variable {P : Licence}

theorem Lawful.holds {db db' : Db} (h : Lawful P db db') (hP : P.Holds db) : P.Holds db' :=
  fun s r hs => h.owners s r (hP s r hs)

instance (P : Licence) : IsPreorder Db (Lawful P) where
  refl _ := ⟨fun _ _ h => h, fun _ h => h⟩
  trans _ _ _ h h' :=
    ⟨fun s r hs => h'.owners s r (h.owners s r hs), fun hP hlaw => h'.law (h.holds hP) (h.law hP hlaw)⟩

instance (P : Licence) : IsPreorder Db (Tells P) where
  refl db := ⟨refl_of (Lawful P) db, fun _ _ _ _ h => h⟩
  trans _ _ _ h h' := by
    refine ⟨trans_of (Lawful P) h.toLawful h'.toLawful, fun hP hlaw s hs hb => ?_⟩
    exact h'.books (h.holds hP) (h.law hP hlaw) s hs (h.books hP hlaw s hs hb)

instance (P : Licence) : IsPreorder ChangeSetRow (ChangeSetMoves P) where
  refl _ := ⟨rfl, .inl rfl⟩
  trans a b c h h' := by
    refine ⟨h'.same.trans h.same, ?_⟩
    have hid : b.id = a.id := (Prod.mk.inj h.same).1
    rcases h'.moved with heq | ⟨hmove, htarget⟩
    · rw [heq]
      exact h.moved
    · rcases h.moved with heq | ⟨hmove', -⟩
      · rw [hid, heq] at hmove
        exact .inr ⟨hmove, htarget⟩
      · exact .inr ⟨hmove', htarget⟩

instance (P : Licence) : IsPreorder Db (Follows P) where
  refl db := ⟨refl_of (Tells P) db, .refl _, rfl⟩
  trans _ _ _ h h' := ⟨trans_of (Tells P) h.toTells h'.toTells, h.changeSets.trans h'.changeSets,
    h'.changeLog.trans h.changeLog⟩

theorem Follows.changeSetStatus {db db' : Db} (h : Follows P db db') (id : String) :
    db'.changeSetStatus id = db.changeSetStatus id ∨
      ∃ s, db.changeSetStatus id = some s ∧ P.moves id s ∧ db'.changeSetStatus id = some P.target := by
  unfold Db.changeSetStatus
  cases hold : db.changeSets.get? id with
  | none =>
    cases hnew : db'.changeSets.get? id with
    | none => exact .inl rfl
    | some c =>
      obtain ⟨_, hfalse, -⟩ := h.changeSets.added id c hold hnew
      exact hfalse.elim
  | some c =>
    obtain ⟨c', hc', hmoves⟩ := h.changeSets.kept id c hold
    rw [hc']
    rcases hmoves.moved with hsame | ⟨hmove, htarget⟩
    · exact .inl (congrArg some hsame)
    · refine .inr ⟨c.status, rfl, ?_, congrArg some htarget⟩
      rw [← Table.get?_key hold]
      exact hmove

/-- A ChangeSet stays with its run. -/
theorem Follows.changeSetRun {db db' : Db} (h : Follows P db db') {id rid : String} (hrun : db.changeSetRun id = some rid) :
    db'.changeSetRun id = some rid := by
  obtain ⟨c, hc, howner⟩ := Option.bind_eq_some_iff.1 hrun
  obtain ⟨c', hc', hmoves⟩ := h.changeSets.kept id c hc
  refine Option.bind_eq_some_iff.2 ⟨c', hc', ?_⟩
  rw [(Prod.mk.inj (Prod.mk.inj hmoves.same).2).1]
  exact h.owners _ _ howner

/-! ## Owners and pages -/

section
variable {db db' : Db}

theorem owner_congr (hruns : ∀ id, (db'.workflowRuns.get? id).map WorkflowRunRow.id = (db.workflowRuns.get? id).map WorkflowRunRow.id)
    (hnodes : ∀ id, (db'.nodeRuns.get? id).map NodeRunRow.workflowRunId = (db.nodeRuns.get? id).map NodeRunRow.workflowRunId)
    (htasks : ∀ id, (db'.tasks.get? id).map TaskRow.nodeRunId = (db.tasks.get? id).map TaskRow.nodeRunId) :
    db'.owner = db.owner := by
  funext s
  cases s with
  | run id => exact hruns id
  | node id => exact hnodes id
  | task id =>
    have hbind : ∀ d : Db, d.owner (.task id) =
        ((d.tasks.get? id).map TaskRow.nodeRunId).bind fun n => (d.nodeRuns.get? n).map NodeRunRow.workflowRunId := by
      intro d
      simp only [Db.owner]
      cases d.tasks.get? id <;> rfl
    rw [hbind, hbind, htasks]
    congr 1
    funext n
    exact hnodes n

/-- A statement that writes neither events, counters nor owners. -/
theorem Lawful.of (hevents : db'.events = db.events) (hnext : ∀ r, db'.nextSeq r = db.nextSeq r)
    (howners : ∀ s r, db.owner s = some r → db'.owner s = some r)
    (hopen : LedgerLaw db → ∀ r ∈ db'.nodeRuns.rows, r.status.isLive = true → r.outcome = none) : Lawful P db db' := by
  refine ⟨howners, fun _ h => ⟨?_, ?_, ?_, ?_, hopen h⟩⟩
  · rw [hevents]; exact h.numbered
  · rw [hevents]; exact h.ordered
  · intro e he r n hs
    rw [hevents] at he
    rw [hnext]
    exact h.counted e he r n hs
  · intro e he s c hs
    rw [hevents] at he
    obtain ⟨r, hr, hrun⟩ := h.owned e he s c hs
    exact ⟨r, howners s r hr, hrun⟩

theorem page_congr (hevents : db'.events = db.events) {s : Subject} (hstored : db'.stored s = db.stored s) :
    db'.page s = db.page s := by
  simp only [Db.page, Db.log, hevents, hstored]

theorem Tells.of (h : Lawful P db db') (hpage : ∀ s, db'.page s = db.page s) : Tells P db db' := by
  refine ⟨h, fun _ _ s _ hb => ?_⟩
  unfold Balanced
  rw [hpage]
  exact hb

/-- A statement on another table. -/
structure Aside (db db' : Db) : Prop where
  workflowRuns : db'.workflowRuns = db.workflowRuns
  nodeRuns : db'.nodeRuns = db.nodeRuns
  tasks : db'.tasks = db.tasks
  changeSets : db'.changeSets = db.changeSets
  events : db'.events = db.events

theorem Aside.stored (h : Aside db db') (s : Subject) : db'.stored s = db.stored s := by
  cases s <;> simp only [Db.stored, h.workflowRuns, h.nodeRuns, h.tasks]

theorem Aside.lawful (h : Aside db db') : Lawful P db db' := by
  refine .of h.events (fun r => by simp only [Db.nextSeq, h.workflowRuns]) (fun s r hs => ?_) fun hlaw => ?_
  · rw [← hs]
    exact congrFun (owner_congr (fun _ => by rw [h.workflowRuns]) (fun _ => by rw [h.nodeRuns]) fun _ => by rw [h.tasks]) s
  · rw [h.nodeRuns]
    exact hlaw.open_

theorem Aside.follows (h : Aside db db') : Follows P db db' :=
  ⟨.of h.lawful fun s => page_congr h.events (h.stored s), .of_eq h.changeSets, by simp only [Db.changeSetEvents, h.events]⟩

end

/-! ## Updates -/

section
variable {db : Db}

theorem runUpdate_lawful {p : WorkflowRunRow → Bool} {f : WorkflowRunRow → WorkflowRunRow} {hk hu}
    (hseq : ∀ r, (f r).nextEventSeq = r.nextEventSeq) :
    Lawful P db { db with workflowRuns := db.workflowRuns.update p f hk hu } := by
  refine .of rfl (fun r => ?_) (fun s r hs => ?_) fun hlaw => hlaw.open_
  · unfold Db.nextSeq
    simp only [Table.get?_update, Option.map_map]
    congr 2
    funext row
    by_cases hp : p row = true <;> simp [hp, hseq]
  · rw [← hs]
    refine congrFun (owner_congr (fun id => ?_) (by intro _; rfl) (by intro _; rfl)) s
    simp only [Table.get?_update, Option.map_map]
    congr 1
    funext row
    by_cases hp : p row = true <;> simp [hp, hk]

theorem nodeUpdate_lawful {p : NodeRunRow → Bool} {f : NodeRunRow → NodeRunRow} {hk hu}
    (hrun : ∀ r, (f r).workflowRunId = r.workflowRunId)
    (hopen : ∀ r ∈ db.nodeRuns.rows, p r = true → (r.status.isLive = true → r.outcome = none) →
      (f r).status.isLive = true → (f r).outcome = none) :
    Lawful P db { db with nodeRuns := db.nodeRuns.update p f hk hu } := by
  refine .of rfl (fun _ => rfl) (fun s r hs => ?_) fun hlaw r' hr' hlive => ?_
  · rw [← hs]
    refine congrFun (owner_congr (by intro _; rfl) (fun id => ?_) (by intro _; rfl)) s
    simp only [Table.get?_update, Option.map_map]
    congr 1
    funext row
    by_cases hp : p row = true <;> simp [hp, hrun]
  · change r' ∈ (db.nodeRuns.update p f hk hu).rows at hr'
    rw [Table.mem_update] at hr'
    obtain ⟨r, hr, rfl⟩ := hr'
    split at hlive
    · next hp =>
      rw [if_pos hp]
      exact hopen r hr hp (hlaw.open_ r hr) hlive
    · next hp =>
      rw [if_neg hp]
      exact hlaw.open_ r hr hlive

theorem taskUpdate_lawful {p : TaskRow → Bool} {f : TaskRow → TaskRow} {hk hu} :
    Lawful P db { db with tasks := db.tasks.update p f hk hu } := by
  refine .of rfl (fun _ => rfl) (fun s r hs => ?_) fun hlaw => hlaw.open_
  rw [← hs]
  refine congrFun (owner_congr (by intro _; rfl) (by intro _; rfl) fun id => ?_) s
  simp only [Table.get?_update, Option.map_map]
  congr 1
  funext row
  by_cases hp : p row = true <;> simp [hp, hu]

/-- A write to run rows that keeps their status. -/
theorem runUpdate_follows {p : WorkflowRunRow → Bool} {f : WorkflowRunRow → WorkflowRunRow} {hk hu}
    (hseq : ∀ r, (f r).nextEventSeq = r.nextEventSeq) (hstatus : ∀ r, (f r).status = r.status) :
    Follows P db { db with workflowRuns := db.workflowRuns.update p f hk hu } := by
  refine ⟨.of (runUpdate_lawful hseq) fun s => page_congr (by rfl) ?_, .refl _, rfl⟩
  cases s with
  | run id =>
    simp only [Db.stored, Table.get?_update, Option.map_map]
    congr 1
    funext row
    by_cases hp : p row = true <;> simp [hp, hstatus]
  | node id => rfl
  | task id => rfl

/-- A write to node runs that keeps status and outcome. -/
theorem nodeUpdate_follows {p : NodeRunRow → Bool} {f : NodeRunRow → NodeRunRow} {hk hu}
    (hrun : ∀ r, (f r).workflowRunId = r.workflowRunId) (hvalue : ∀ r, ((f r).status, (f r).outcome) = (r.status, r.outcome)) :
    Follows P db { db with nodeRuns := db.nodeRuns.update p f hk hu } := by
  have hvalue r := Prod.mk.inj (hvalue r)
  refine ⟨.of (nodeUpdate_lawful hrun fun r _ _ h hlive => ?_) fun s => page_congr (by rfl) ?_, .refl _, rfl⟩
  · rw [(hvalue r).1] at hlive
    rw [(hvalue r).2]
    exact h hlive
  · cases s with
    | run id => rfl
    | node id =>
      simp only [Db.stored, Table.get?_update, Option.map_map]
      congr 1
      funext row
      by_cases hp : p row = true <;> simp [hp, hvalue]
    | task id => rfl

/-- A write to tasks that keeps their status. -/
theorem taskUpdate_follows {p : TaskRow → Bool} {f : TaskRow → TaskRow} {hk hu} (hstatus : ∀ r, (f r).status = r.status) :
    Follows P db { db with tasks := db.tasks.update p f hk hu } := by
  refine ⟨.of taskUpdate_lawful fun s => page_congr (by rfl) ?_, .refl _, rfl⟩
  cases s with
  | run id => rfl
  | node id => rfl
  | task id =>
    simp only [Db.stored, Table.get?_update, Option.map_map]
    congr 1
    funext row
    by_cases hp : p row = true <;> simp [hp, hstatus]

theorem changeSets_lawful {t} : Lawful P db { db with changeSets := t } := by
  refine .of rfl (fun _ => rfl) (fun s r hs => ?_) fun hlaw => hlaw.open_
  cases s <;> exact hs

theorem changeSets_tells {t} : Tells P db { db with changeSets := t } :=
  .of changeSets_lawful fun s => page_congr (by rfl) (by cases s <;> rfl)

/-- A write to ChangeSets that makes licensed moves. -/
theorem changeSetUpdate_follows {p : ChangeSetRow → Bool} {f : ChangeSetRow → ChangeSetRow} {hk hu}
    (hf : ∀ c ∈ db.changeSets.rows, p c = true → ChangeSetMoves P c (f c)) :
    Follows P db { db with changeSets := db.changeSets.update p f hk hu } :=
  ⟨changeSets_tells, @Evolves.update _ _ _ _ _ _ _ _ _ db.changeSets p f hk hu hf, rfl⟩

end

/-! ## Statements that write one value -/

/-- The row of one subject got a value. -/
structure Sets (s₀ : Subject) (v : SubjectValue) (db db' : Db) : Prop where
  events : db'.events = db.events
  self : db'.stored s₀ = some v
  others : ∀ s, s ≠ s₀ → db'.stored s = db.stored s

theorem Sets.page {s₀ : Subject} {v : SubjectValue} {db db' : Db} (h : Sets s₀ v db db') (s : Subject) :
    db'.page s = if s = s₀ then (db.page s).set v else db.page s := by
  split
  · next hs =>
    subst hs
    simp only [Db.page, Db.log, h.events, h.self, Page.set]
  · next hs => exact page_congr h.events (h.others s hs)

/-- A subject that was not there comes in pending. -/
theorem Sets.enter {s₀ : Subject} {db db' : Db} (h : Sets s₀ s₀.initial db db') (hnone : db.stored s₀ = none) (s : Subject)
    (hb : Balanced db s) : Balanced db' s := by
  unfold Balanced
  rw [h.page]
  split
  · next hs =>
    subst hs
    exact Journal.Balanced.enter hb hnone
  · exact hb

section
variable {db : Db}

theorem runInsert_sets {row : WorkflowRunRow} {t} (h : db.workflowRuns.insert row = some t) :
    Sets (.run row.id) (.run row.status, none) db { db with workflowRuns := t } ∧ db.stored (.run row.id) = none := by
  refine ⟨⟨rfl, ?_, fun s hs => ?_⟩, ?_⟩
  · simp [Db.stored, Table.get?_insert h]
  · cases s with
    | run id =>
      have hne : row.id ≠ id := fun heq => hs (by rw [heq])
      simp [Db.stored, Table.get?_insert h, hne]
    | node id => rfl
    | task id => rfl
  · simp [Db.stored, (Table.insert_eq_some h).2.1]

theorem nodeInsert_sets {row : NodeRunRow} {t} (h : db.nodeRuns.insert row = some t) :
    Sets (.node row.id) (.node row.status, row.outcome) db { db with nodeRuns := t } ∧ db.stored (.node row.id) = none := by
  refine ⟨⟨rfl, ?_, fun s hs => ?_⟩, ?_⟩
  · simp [Db.stored, Table.get?_insert h]
  · cases s with
    | node id =>
      have hne : row.id ≠ id := fun heq => hs (by rw [heq])
      simp [Db.stored, Table.get?_insert h, hne]
    | run id => rfl
    | task id => rfl
  · simp [Db.stored, (Table.insert_eq_some h).2.1]

theorem taskInsert_sets {row : TaskRow} {t} (h : db.tasks.insert row = some t) :
    Sets (.task row.id) (.task row.status, none) db { db with tasks := t } ∧ db.stored (.task row.id) = none := by
  refine ⟨⟨rfl, ?_, fun s hs => ?_⟩, ?_⟩
  · simp [Db.stored, Table.get?_insert h]
  · cases s with
    | task id =>
      have hne : row.id ≠ id := fun heq => hs (by rw [heq])
      simp [Db.stored, Table.get?_insert h, hne]
    | run id => rfl
    | node id => rfl
  · simp [Db.stored, (Table.insert_eq_some h).2.1]

/-- A row that is inserted was not there: what has an owner keeps it. -/
theorem runInsert_lawful {row : WorkflowRunRow} {t} (h : db.workflowRuns.insert row = some t) (hseq : row.nextEventSeq = 1) :
    Lawful P db { db with workflowRuns := t } := by
  have hnone := (Table.insert_eq_some h).2.1
  refine .of rfl (fun r => ?_) (fun s r hs => ?_) fun hlaw => hlaw.open_
  · unfold Db.nextSeq
    simp only [Table.get?_insert h]
    split
    · next heq =>
      subst heq
      rw [hnone]
      exact hseq
    · rfl
  · cases s with
    | run id =>
      have hne : row.id ≠ id := by
        rintro rfl
        simp [Db.owner, hnone] at hs
      simpa [Db.owner, Table.get?_insert h, hne] using hs
    | node id => exact hs
    | task id => exact hs

theorem nodeInsert_lawful {row : NodeRunRow} {t} (h : db.nodeRuns.insert row = some t) (hnew : row.outcome = none) :
    Lawful P db { db with nodeRuns := t } := by
  have hnone := (Table.insert_eq_some h).2.1
  refine .of rfl (fun r => rfl) (fun s r hs => ?_) fun hlaw r hr hlive => ?_
  · cases s with
    | run id => exact hs
    | node id =>
      have hne : row.id ≠ id := by
        rintro rfl
        simp [Db.owner, hnone] at hs
      simpa [Db.owner, Table.get?_insert h, hne] using hs
    | task id =>
      simp only [Db.owner, Option.bind_eq_some_iff] at hs ⊢
      obtain ⟨task, htask, hnode⟩ := hs
      have hne : row.id ≠ task.nodeRunId := by
        intro heq
        rw [← heq, hnone] at hnode
        cases hnode
      exact ⟨task, htask, by simpa [Table.get?_insert h, hne] using hnode⟩
  · rw [(Table.insert_eq_some h).1, List.mem_append, List.mem_singleton] at hr
    rcases hr with hr | rfl
    · exact hlaw.open_ r hr hlive
    · exact hnew

theorem taskInsert_lawful {row : TaskRow} {t} (h : db.tasks.insert row = some t) : Lawful P db { db with tasks := t } := by
  refine .of rfl (fun r => rfl) (fun s r hs => ?_) fun hlaw => hlaw.open_
  cases s with
  | run id => exact hs
  | node id => exact hs
  | task id =>
    have hne : row.id ≠ id := by
      rintro rfl
      simp [Db.owner, (Table.insert_eq_some h).2.1] at hs
    simpa [Db.owner, Table.get?_insert h, hne] using hs

end

end AgentHub
