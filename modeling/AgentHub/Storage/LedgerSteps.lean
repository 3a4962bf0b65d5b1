import AgentHub.Storage.Ledger
/-!
# A status with its event

A status is written by one statement and its event appended by a later one, so only the two together keep the
books. What stands between them here are at most the writes and events of other subjects.
-/

namespace AgentHub

open Lib WorkflowRunRepository

variable {P : Licence} {db db' : Db}

/-! ## Guarded writes -/

section
variable {id : String} {e : StorageError} {u : Unit}

theorem runCas_sets {g : WorkflowRunRow → Bool} {f : WorkflowRunRow → WorkflowRunRow} {hk hu}
    (h : (Db.workflowRunsT.cas id g f hk hu e).run db = .ok (u, db')) :
    ∃ row, g row = true ∧ db.stored (.run id) = some (.run row.status, none) ∧
      Sets (.run id) (.run (f row).status, none) db db' := by
  obtain ⟨row, hrow, hg, hself, hne⟩ := TableRef.cas_writes h
  obtain ⟨-, hs⟩ := TableRef.cas_ok.1 h
  have hdb := (Prod.mk.inj hs).2
  refine ⟨row, hg, by simp only [Db.stored, hrow, Option.map_some], ?_, ?_, fun s hs => ?_⟩
  · rw [hdb]
  · simp only [Db.stored, hself, Option.map_some]
  · cases s with
    | run id' => simp only [Db.stored, hne id' fun heq => hs (by rw [heq])]
    | node id' => rw [hdb]; rfl
    | task id' => rw [hdb]; rfl

theorem nodeCas_sets {g : NodeRunRow → Bool} {f : NodeRunRow → NodeRunRow} {hk hu}
    (h : (Db.nodeRunsT.cas id g f hk hu e).run db = .ok (u, db')) :
    ∃ row, db.nodeRuns.get? id = some row ∧ g row = true ∧ db.stored (.node id) = some (.node row.status, row.outcome) ∧
      Sets (.node id) (.node (f row).status, (f row).outcome) db db' := by
  obtain ⟨row, hrow, hg, hself, hne⟩ := TableRef.cas_writes h
  obtain ⟨-, hs⟩ := TableRef.cas_ok.1 h
  have hdb := (Prod.mk.inj hs).2
  refine ⟨row, hrow, hg, by simp only [Db.stored, hrow, Option.map_some], ?_, ?_, fun s hs => ?_⟩
  · rw [hdb]
  · simp only [Db.stored, hself, Option.map_some]
  · cases s with
    | run id' => rw [hdb]; rfl
    | node id' => simp only [Db.stored, hne id' fun heq => hs (by rw [heq])]
    | task id' => rw [hdb]; rfl

theorem taskCas_sets {g : TaskRow → Bool} {f : TaskRow → TaskRow} {hk hu}
    (h : (Db.tasksT.cas id g f hk hu e).run db = .ok (u, db')) :
    ∃ row, g row = true ∧ db.stored (.task id) = some (.task row.status, none) ∧
      Sets (.task id) (.task (f row).status, none) db db' := by
  obtain ⟨row, hrow, hg, hself, hne⟩ := TableRef.cas_writes h
  obtain ⟨-, hs⟩ := TableRef.cas_ok.1 h
  have hdb := (Prod.mk.inj hs).2
  refine ⟨row, hg, by simp only [Db.stored, hrow, Option.map_some], ?_, ?_, fun s hs => ?_⟩
  · rw [hdb]
  · simp only [Db.stored, hself, Option.map_some]
  · cases s with
    | run id' => rw [hdb]; rfl
    | node id' => rw [hdb]; rfl
    | task id' => simp only [Db.stored, hne id' fun heq => hs (by rw [heq])]

theorem runCas_lawful {g : WorkflowRunRow → Bool} {f : WorkflowRunRow → WorkflowRunRow} {hk hu}
    (hseq : ∀ r, (f r).nextEventSeq = r.nextEventSeq) : Tx.Within (Lawful P) (Db.workflowRunsT.cas id g f hk hu e) := by
  intro db u db' h
  obtain ⟨-, hs⟩ := TableRef.cas_ok.1 h
  rw [(Prod.mk.inj hs).2]
  exact runUpdate_lawful hseq

theorem nodeCas_lawful {g : NodeRunRow → Bool} {f : NodeRunRow → NodeRunRow} {hk hu}
    (hrun : ∀ r, (f r).workflowRunId = r.workflowRunId)
    (hopen : ∀ r, g r = true → (r.status.isLive = true → r.outcome = none) → (f r).status.isLive = true → (f r).outcome = none) :
    Tx.Within (Lawful P) (Db.nodeRunsT.cas id g f hk hu e) := by
  intro db u db' h
  obtain ⟨-, hs⟩ := TableRef.cas_ok.1 h
  rw [(Prod.mk.inj hs).2]
  exact nodeUpdate_lawful hrun fun r _ hp => hopen r (Bool.and_eq_true_iff.1 hp).2

theorem taskCas_lawful {g : TaskRow → Bool} {f : TaskRow → TaskRow} {hk hu} :
    Tx.Within (Lawful P) (Db.tasksT.cas id g f hk hu e) := by
  intro db u db' h
  obtain ⟨-, hs⟩ := TableRef.cas_ok.1 h
  rw [(Prod.mk.inj hs).2]
  exact taskUpdate_lawful

/-- A write to a run that keeps its status. -/
theorem runCas_follows {g : WorkflowRunRow → Bool} {f : WorkflowRunRow → WorkflowRunRow} {hk hu}
    (hseq : ∀ r, (f r).nextEventSeq = r.nextEventSeq) (hstatus : ∀ r, (f r).status = r.status) :
    Tx.Within (Follows P) (Db.workflowRunsT.cas id g f hk hu e) := by
  intro db u db' h
  obtain ⟨-, hs⟩ := TableRef.cas_ok.1 h
  rw [(Prod.mk.inj hs).2]
  exact runUpdate_follows hseq hstatus

theorem nodeCas_follows {g : NodeRunRow → Bool} {f : NodeRunRow → NodeRunRow} {hk hu}
    (hrun : ∀ r, (f r).workflowRunId = r.workflowRunId) (hvalue : ∀ r, ((f r).status, (f r).outcome) = (r.status, r.outcome)) :
    Tx.Within (Follows P) (Db.nodeRunsT.cas id g f hk hu e) := by
  intro db u db' h
  obtain ⟨-, hs⟩ := TableRef.cas_ok.1 h
  rw [(Prod.mk.inj hs).2]
  exact nodeUpdate_follows hrun hvalue

theorem taskCas_follows {g : TaskRow → Bool} {f : TaskRow → TaskRow} {hk hu} (hstatus : ∀ r, (f r).status = r.status) :
    Tx.Within (Follows P) (Db.tasksT.cas id g f hk hu e) := by
  intro db u db' h
  obtain ⟨-, hs⟩ := TableRef.cas_ok.1 h
  rw [(Prod.mk.inj hs).2]
  exact taskUpdate_follows hstatus

theorem changeSetCas_follows {g : ChangeSetRow → Bool} {f : ChangeSetRow → ChangeSetRow} {hk hu}
    (hsame : ∀ c, (f c).subject = c.subject)
    (hf : ∀ c, c.id = id → g c = true → P.moves id c.status ∧ (f c).status = P.target) :
    Tx.Within (Follows P) (Db.changeSetsT.cas id g f hk hu e) := by
  intro db u db' h
  obtain ⟨-, hs⟩ := TableRef.cas_ok.1 h
  rw [(Prod.mk.inj hs).2]
  refine changeSetUpdate_follows fun c _ hp => ⟨hsame c, ?_⟩
  obtain ⟨hkey, hg⟩ := Bool.and_eq_true_iff.1 hp
  obtain rfl := of_decide_eq_true hkey
  exact .inr (hf c rfl hg)

end

/-! ## Events -/

/-- One event of a run was appended, with the run's next number. -/
structure Appends (ev : EventRow) (db db' : Db) : Prop where
  quiet : Quiet db db'
  events : db'.events = db.events ++ [ev]
  numbered : ∃ r, ev.workflowRunId = some r ∧ ev.runSeq = some (db.nextSeq r) ∧ db.owner (.run r) = some r ∧
    ∀ r', db'.nextSeq r' = if r' = r then db.nextSeq r' + 1 else db.nextSeq r'

theorem allocateSeq_owner {sid wid rid : String} {n : Nat}
    (h : (EventRepository.allocateSeq sid wid rid).run db = .ok (n, db')) : db.owner (.run rid) = some rid := by
  simp only [EventRepository.allocateSeq, StateT.run_bind, Tx.bind_ok, Tx.read_ok, Tx.require_ok, Tx.ensure_ok,
    TableRef.select_ok, StateT.run_pure, Tx.pure_ok] at h
  obtain ⟨_, rfl, ⟨w, s⟩, ⟨-, rfl⟩, _, ⟨-, rfl⟩, _, rfl, ⟨run, s⟩, ⟨hrun, rfl⟩, -⟩ := h
  have hrun : s.workflowRuns.get? rid = some run := hrun
  simp only [Db.owner, hrun, Option.map_some, Table.get?_key hrun]

theorem appendIn_appends {sid typ actor : String} {payload : EventPayload} {wid rid : String} {now : Instant} {u : Unit}
    (h : (EventRepository.appendIn sid typ actor payload wid rid now).run db = .ok (u, db')) :
    ∃ n, Appends ⟨sid, some wid, some rid, some n, typ, .master, some actor, payload, utcNowText now⟩ db db' := by
  have hquiet := EventRepository.appendIn_quiet h
  simp only [EventRepository.appendIn, StateT.run_bind, Tx.bind_ok, Tx.require_ok, TableRef.select_ok, Tx.write_ok] at h
  obtain ⟨_, rfl, ⟨_, s⟩, ⟨-, rfl⟩, ⟨n, s⟩, hs, h⟩ := h
  simp only [Prod.mk.injEq] at h
  obtain ⟨-, rfl⟩ := h
  obtain ⟨rfl, hevents, hnext⟩ := EventRepository.allocateSeq_spec hs
  refine ⟨_, hquiet, by rw [hevents], rid, rfl, rfl, allocateSeq_owner hs, hnext⟩

/-- The counter of a run is not part of what is stored of it. -/
theorem stored_run (db : Db) (id : String) :
    db.stored (.run id) = (db.run? id).map fun r => (SubjectStatus.run r.status, none) := by
  simp only [Db.stored, Db.run?, Option.map_map]
  rfl

namespace Appends

variable {ev : EventRow}

theorem stored (h : Appends ev db db') (s : Subject) : db'.stored s = db.stored s := by
  cases s with
  | run id => rw [stored_run, stored_run, h.quiet.runs]
  | node id => simp only [Db.stored, h.quiet.nodeRuns]
  | task id => simp only [Db.stored, h.quiet.tasks]

theorem owner (h : Appends ev db db') : db'.owner = db.owner := by
  refine owner_congr (fun id => ?_) (fun _ => by rw [h.quiet.nodeRuns]) fun _ => by rw [h.quiet.tasks]
  have hcore : ∀ d : Db, (d.workflowRuns.get? id).map WorkflowRunRow.id = (d.run? id).map WorkflowRunRow.id := by
    intro d
    simp only [Db.run?, Option.map_map]
    rfl
  rw [hcore, hcore, h.quiet.runs]

/-- The event is a new record of its subject. -/
theorem page (h : Appends ev db db') (s : Subject) :
    db'.page s = match ev.changeOf s with
      | none => db.page s
      | some c => (db.page s).record c := by
  have hlog : db'.log s = db.log s ++ (ev.changeOf s).toList := by
    unfold Db.log
    rw [h.events, List.filterMap_append]
    cases hc : ev.changeOf s <;> simp [hc]
  cases hc : ev.changeOf s with
  | none => simp [Db.page, hlog, hc, h.stored]
  | some c => simp [Db.page, hlog, hc, h.stored, Page.record]

theorem lawful (h : Appends ev db db')
    (howned : P.Holds db → ∀ s c, ev.stateChange = some (s, c) → ∃ r, db.owner s = some r ∧ ev.workflowRunId = some r) :
    Lawful P db db' := by
  obtain ⟨rid, hrun, hseq, -, hnext⟩ := h.numbered
  have hslot : ev.slot = some (rid, db.nextSeq rid) := by simp [EventRow.slot, hrun, hseq]
  refine ⟨fun s r hs => by rw [h.owner]; exact hs, fun hP hlaw => ⟨?_, ?_, ?_, ?_, ?_⟩⟩
  · intro e he
    rw [h.events, List.mem_append, List.mem_singleton] at he
    rcases he with he | rfl
    · exact hlaw.numbered e he
    · intro _
      rw [hseq]
      rfl
  · rw [h.events, List.pairwise_append]
    refine ⟨hlaw.ordered, List.pairwise_singleton _ _, fun a ha b hb r n m hn hm => ?_⟩
    rw [List.mem_singleton] at hb
    subst hb
    rw [hslot, Option.some.injEq, Prod.mk.injEq] at hm
    obtain ⟨rfl, rfl⟩ := hm
    exact hlaw.counted a ha _ _ hn
  · intro e he r n hn
    rw [hnext]
    rw [h.events, List.mem_append, List.mem_singleton] at he
    rcases he with he | rfl
    · have := hlaw.counted e he r n hn
      split <;> omega
    · rw [hslot, Option.some.injEq, Prod.mk.injEq] at hn
      obtain ⟨rfl, rfl⟩ := hn
      rw [if_pos rfl]
      omega
  · intro e he s c hs
    rw [h.owner]
    rw [h.events, List.mem_append, List.mem_singleton] at he
    rcases he with he | rfl
    · exact hlaw.owned e he s c hs
    · exact howned hP s c hs
  · rw [h.quiet.nodeRuns]
    exact hlaw.open_

theorem changeLog (h : Appends ev db db') :
    db'.changeSetEvents = db.changeSetEvents ++ if ev.changeSetChange.isSome then [ev] else [] := by
  unfold Db.changeSetEvents
  rw [h.events, List.filter_append]
  cases hc : ev.changeSetChange <;> simp [hc]

/-- An event that is no state event changes no page. -/
theorem tells (h : Appends ev db db') (hstate : ev.stateChange = none) : Tells P db db' := by
  refine .of (h.lawful fun _ s c hs => ?_) fun s => ?_
  · rw [hstate] at hs
    cases hs
  · rw [h.page, show ev.changeOf s = none by simp [EventRow.changeOf, hstate]]

theorem follows (h : Appends ev db db') (hstate : ev.stateChange = none) (hchange : ev.changeSetChange = none) :
    Follows P db db' := by
  refine ⟨h.tells hstate, .of_eq h.quiet.changeSets, ?_⟩
  rw [h.changeLog, hchange]
  simp

end Appends

/-- An event about something else. -/
theorem appendIn_follows {sid typ actor : String} {payload : EventPayload} {wid rid : String} {now : Instant}
    (hstate : ∀ n, EventRow.stateChange ⟨sid, some wid, some rid, n, typ, .master, some actor, payload, utcNowText now⟩ = none)
    (hchange : ∀ n, EventRow.changeSetChange ⟨sid, some wid, some rid, n, typ, .master, some actor, payload, utcNowText now⟩ = none) :
    Tx.Within (Follows P) (EventRepository.appendIn sid typ actor payload wid rid now) := by
  intro db u db' h
  obtain ⟨n, happend⟩ := appendIn_appends h
  exact happend.follows (hstate _) (hchange _)

/-! ## Debts -/

/-- An event of a run recorded a change of a subject. -/
def Records (s : Subject) (c : StateChange) (rid : String) (db db' : Db) : Prop :=
  ∃ ev, Appends ev db db' ∧ ev.workflowRunId = some rid ∧ ev.stateChange = some (s, c) ∧ ev.changeSetChange = none

section
variable {s₀ : Subject} {c : StateChange} {rid : String}

theorem Records.page (h : Records s₀ c rid db db') (s : Subject) :
    db'.page s = if s = s₀ then (db.page s).record c else db.page s := by
  obtain ⟨ev, happend, -, hstate, -⟩ := h
  have hc : ev.changeOf s = if s₀ = s then some c else none := by simp [EventRow.changeOf, hstate]
  rw [happend.page, hc]
  by_cases hs : s₀ = s
  · simp [hs]
  · simp [hs, Ne.symm hs]

theorem Records.lawful (h : Records s₀ c rid db db') (howner : P.Holds db → db.owner s₀ = some rid) : Lawful P db db' := by
  obtain ⟨ev, happend, hrun, hstate, -⟩ := h
  refine happend.lawful fun hP s d hs => ?_
  rw [hstate, Option.some.injEq, Prod.mk.injEq] at hs
  obtain ⟨rfl, -⟩ := hs
  exact ⟨rid, howner hP, hrun⟩

theorem Records.changeSets (h : Records s₀ c rid db db') : db'.changeSets = db.changeSets := by
  obtain ⟨ev, happend, -⟩ := h
  exact happend.quiet.changeSets

theorem Records.changeLog (h : Records s₀ c rid db db') : db'.changeSetEvents = db.changeSetEvents := by
  obtain ⟨ev, happend, -, -, hchange⟩ := h
  simp [happend.changeLog, hchange]

end

/-- From a state that owes the records `D`, the books are kept as `Follows` says, and nothing is owed at the end. -/
structure Settles (P : Licence) (D : Subject → List StateChange) (db db' : Db) : Prop extends Lawful P db db' where
  books : P.Holds db → LedgerLaw db → ∀ s, ¬ P.silent s →
    Journal.Balanced Prod.fst s.initial ((db.page s).paid (D s)) → Balanced db' s
  changeSets : Evolves (ChangeSetMoves P) (fun _ => False) db.changeSets db'.changeSets
  changeLog : db'.changeSetEvents = db.changeSetEvents

section
variable {D : Subject → List StateChange} {s₀ : Subject} {c : StateChange} {cs : List StateChange} {db₁ : Db}

theorem Settles.follows (h : Settles P (fun _ => []) db db') : Follows P db db' :=
  ⟨⟨h.toLawful, fun hP hlaw s hs hb => h.books hP hlaw s hs (by rwa [Page.paid_nil])⟩, h.changeSets, h.changeLog⟩

theorem Follows.settles (hD : ∀ s, D s = []) (h : Follows P db db') : Settles P D db db' := by
  refine ⟨h.toLawful, fun hP hlaw s hs hb => h.books hP hlaw s hs ?_, h.changeSets, h.changeLog⟩
  rwa [hD, Page.paid_nil] at hb

/-- A write owes its records. -/
theorem Settles.write {v : SubjectValue} (hlawful : Lawful P db db₁) (hset : LedgerLaw db → Sets s₀ v db db₁)
    (howed : LedgerLaw db → Balanced db s₀ → Journal.Balanced Prod.fst s₀.initial (((db.page s₀).set v).paid cs))
    (hframe : db₁.changeSets = db.changeSets ∧ db₁.events = db.events) (hD : D s₀ = [])
    (h : Settles P (Function.update D s₀ cs) db₁ db') : Settles P D db db' := by
  refine ⟨trans_of (Lawful P) hlawful h.toLawful, fun hP hlaw s hs hb => ?_, ?_, ?_⟩
  · refine h.books (hlawful.holds hP) (hlawful.law hP hlaw) s hs ?_
    rw [(hset hlaw).page]
    by_cases heq : s = s₀
    · subst heq
      rw [hD, Page.paid_nil] at hb
      rw [if_pos rfl, Function.update_self]
      exact howed hlaw hb
    · rw [if_neg heq, Function.update_of_ne heq]
      exact hb
  · have hsets := h.changeSets
    rw [hframe.1] at hsets
    exact hsets
  · rw [h.changeLog]
    simp only [Db.changeSetEvents, hframe.2]

/-- A status written owes its event. -/
theorem Settles.set (hlawful : Lawful P db db₁)
    (hset : LedgerLaw db → Sets s₀ c.value db db₁ ∧ ∃ v, db.stored s₀ = some v ∧ c.previous = some v.1)
    (hframe : db₁.changeSets = db.changeSets ∧ db₁.events = db.events) (hD : D s₀ = [])
    (h : Settles P (Function.update D s₀ [c]) db₁ db') : Settles P D db db' := by
  refine .write hlawful (fun hlaw => (hset hlaw).1) (fun hlaw hb => ?_) hframe hD h
  obtain ⟨-, v, hstored, hprevious⟩ := hset hlaw
  exact Journal.Balanced.move hb hstored hprevious

/-- A write that leaves the pages that count. -/
theorem Settles.still (hlawful : Lawful P db db₁) (hpage : ∀ s, ¬ P.silent s → db₁.page s = db.page s)
    (hframe : db₁.changeSets = db.changeSets ∧ db₁.events = db.events) (h : Settles P D db₁ db') : Settles P D db db' := by
  refine ⟨trans_of (Lawful P) hlawful h.toLawful, fun hP hlaw s hs hb => ?_, ?_, ?_⟩
  · refine h.books (hlawful.holds hP) (hlawful.law hP hlaw) s hs ?_
    rw [hpage s hs]
    exact hb
  · have hsets := h.changeSets
    rw [hframe.1] at hsets
    exact hsets
  · rw [h.changeLog]
    simp only [Db.changeSetEvents, hframe.2]

/-- A record made is no longer owed. -/
theorem Settles.record {rid : String} (hrec : Records s₀ c rid db db₁) (hlawful : Lawful P db db₁) (hD : D s₀ = c :: cs)
    (h : Settles P (Function.update D s₀ cs) db₁ db') : Settles P D db db' := by
  refine ⟨trans_of (Lawful P) hlawful h.toLawful, fun hP hlaw s hs hb => ?_, ?_, ?_⟩
  · refine h.books (hlawful.holds hP) (hlawful.law hP hlaw) s hs ?_
    rw [hrec.page]
    by_cases heq : s = s₀
    · subst heq
      rw [hD] at hb
      rw [if_pos rfl, Function.update_self, Page.paid_record]
      exact hb
    · rw [if_neg heq, Function.update_of_ne heq]
      exact hb
  · have hsets := h.changeSets
    rw [hrec.changeSets] at hsets
    exact hsets
  · rw [h.changeLog, hrec.changeLog]

end

theorem appendRunState_records {run : WorkflowRunRow} {lease : MasterLease} {previous target : WorkflowRunStatus}
    {now : Instant} {u : Unit} (h : (appendRunState run lease previous target now).run db = .ok (u, db')) :
    Records (.run run.id) ⟨some (.run previous), .run target, none⟩ run.id db db' := by
  obtain ⟨n, happend⟩ := appendIn_appends h
  exact ⟨_, happend, rfl, rfl, rfl⟩

theorem appendNodeState_records {run : WorkflowRunRow} {lease : MasterLease} {id nodeId summary : String}
    {previous target : NodeRunStatus} {outcome : Option NodeOutcome} {error : Option String} {now : Instant} {u : Unit}
    (h : (appendNodeState run lease id nodeId previous target outcome summary error now).run db = .ok (u, db')) :
    Records (.node id) ⟨some (.node previous), .node target, outcome⟩ run.id db db' := by
  obtain ⟨n, happend⟩ := appendIn_appends h
  exact ⟨_, happend, rfl, rfl, rfl⟩

theorem appendTaskState_records {run : WorkflowRunRow} {lease : MasterLease} {nodeRunId id : String}
    {previous : Option TaskStatus} {target : TaskStatus} {error : Option String} {token : Option Nat} {now : Instant}
    {u : Unit} (h : (appendTaskState run lease nodeRunId id previous target error token now).run db = .ok (u, db')) :
    Records (.task id) ⟨previous.map .task, .task target, none⟩ run.id db db' := by
  obtain ⟨n, happend⟩ := appendIn_appends h
  exact ⟨_, happend, rfl, rfl, rfl⟩

/-- The event of a run is of its run. -/
theorem appendRunState_lawful {run : WorkflowRunRow} {lease : MasterLease} {previous target : WorkflowRunStatus}
    {now : Instant} : Tx.Within (Lawful P) (appendRunState run lease previous target now) := by
  intro db u db' h
  obtain ⟨n, happend⟩ := appendIn_appends h
  refine happend.lawful fun _ s c hs => ?_
  obtain ⟨r, hrun, -, howner, -⟩ := happend.numbered
  cases hrun
  cases hs
  exact ⟨_, howner, rfl⟩

theorem appendNodeState_lawful {run : WorkflowRunRow} {lease : MasterLease} {id nodeId summary : String}
    {previous target : NodeRunStatus} {outcome : Option NodeOutcome} {error : Option String} {now : Instant}
    (howns : P.owns (.node id) run.id) :
    Tx.Within (Lawful P) (appendNodeState run lease id nodeId previous target outcome summary error now) :=
  fun _ _ _ h => (appendNodeState_records h).lawful fun hP => hP _ _ howns

theorem appendTaskState_lawful {run : WorkflowRunRow} {lease : MasterLease} {nodeRunId id : String}
    {previous : Option TaskStatus} {target : TaskStatus} {error : Option String} {token : Option Nat} {now : Instant}
    (howns : P.owns (.task id) run.id) :
    Tx.Within (Lawful P) (appendTaskState run lease nodeRunId id previous target error token now) :=
  fun _ _ _ h => (appendTaskState_records h).lawful fun hP => hP _ _ howns

/-! ## Writes and events in an operation -/

section
variable {α : Type} {D : Subject → List StateChange} {l : List StateChange} {run : WorkflowRunRow} {lease : MasterLease} {now : Instant}
  {id nodeId nodeRunId summary : String} {e : StorageError} {error : Option String}

theorem settled {x : Op α} (h : Tx.Within (Settles P fun _ => []) x) : Tx.Within (Follows P) x :=
  fun _ _ _ hx => (h _ _ _ hx).follows

/-- A node run whose status is known gets another. -/
theorem Settles.nodeSet {g : NodeRunRow → Bool} {f : NodeRunRow → NodeRunRow} {hk hu} {db₁ : Db} {u : Unit}
    (previous target : NodeRunStatus) (outcome : Option NodeOutcome)
    (hcas : (Db.nodeRunsT.cas id g f hk hu e).run db = .ok (u, db₁)) (hrun : ∀ r, (f r).workflowRunId = r.workflowRunId)
    (hg : ∀ r, db.nodeRuns.get? id = some r → g r = true → r.status = previous)
    (hf : ∀ r, g r = true → (r.status.isLive = true → r.outcome = none) → (f r).status = target ∧ (f r).outcome = outcome)
    (hopen : target.isLive = true → outcome = none) (hD : D (.node id) = [])
    (h : Settles P (Function.update D (.node id) [⟨some (.node previous), .node target, outcome⟩]) db₁ db') :
    Settles P D db db' := by
  have hdb := (Prod.mk.inj (TableRef.cas_ok.1 hcas).2).2
  refine .set (nodeCas_lawful hrun (fun r hr ho hlive => ?_) _ _ _ hcas) (fun hlaw => ?_) ?_ hD h
  · obtain ⟨hs, hout⟩ := hf r hr ho
    rw [hs] at hlive
    rw [hout, hopen hlive]
  · obtain ⟨row, hrow, hg', hstored, hset⟩ := nodeCas_sets hcas
    obtain ⟨hs, hout⟩ := hf row hg' (hlaw.open_ row (Table.mem_of_get? hrow))
    rw [hs, hout] at hset
    rw [hg row hrow hg'] at hstored
    exact ⟨hset, _, hstored, rfl⟩
  · rw [hdb]
    exact ⟨rfl, rfl⟩

/-- A run whose status is known gets another. -/
theorem Settles.runSet {g : WorkflowRunRow → Bool} {f : WorkflowRunRow → WorkflowRunRow} {hk hu} {db₁ : Db} {u : Unit}
    (previous target : WorkflowRunStatus) (hcas : (Db.workflowRunsT.cas id g f hk hu e).run db = .ok (u, db₁))
    (hseq : ∀ r, (f r).nextEventSeq = r.nextEventSeq) (hf : ∀ r, (f r).status = target)
    (hprevious : db.stored (.run id) = some (.run previous, none)) (hD : D (.run id) = [])
    (h : Settles P (Function.update D (.run id) [⟨some (.run previous), .run target, none⟩]) db₁ db') : Settles P D db db' := by
  have hdb := (Prod.mk.inj (TableRef.cas_ok.1 hcas).2).2
  refine .set (runCas_lawful hseq _ _ _ hcas) (fun _ => ?_) ?_ hD h
  · obtain ⟨row, -, -, hset⟩ := runCas_sets hcas
    rw [hf] at hset
    exact ⟨hset, _, hprevious, rfl⟩
  · rw [hdb]
    exact ⟨rfl, rfl⟩

theorem nodeCas_settles {g : NodeRunRow → Bool} {f : NodeRunRow → NodeRunRow} {hk hu} {k : Unit → Op α}
    {previous target : NodeRunStatus} {outcome : Option NodeOutcome} (hrun : ∀ r, (f r).workflowRunId = r.workflowRunId)
    (hg : ∀ r, g r = true → r.status = previous)
    (hf : ∀ r, g r = true → (r.status.isLive = true → r.outcome = none) → (f r).status = target ∧ (f r).outcome = outcome)
    (hopen : target.isLive = true → outcome = none) (hD : D (.node id) = [])
    (h : ∀ u, Tx.Within (Settles P (Function.update D (.node id) [⟨some (.node previous), .node target, outcome⟩])) (k u)) :
    Tx.Within (Settles P D) (Db.nodeRunsT.cas id g f hk hu e >>= k) := by
  intro db a db' hx
  rw [StateT.run_bind, Tx.bind_ok] at hx
  obtain ⟨⟨u, db₁⟩, hcas, hx⟩ := hx
  exact .nodeSet _ _ _ hcas hrun (fun r _ => hg r) hf hopen hD (h u _ _ _ hx)

theorem runCas_settles {g : WorkflowRunRow → Bool} {f : WorkflowRunRow → WorkflowRunRow} {hk hu} {k : Unit → Op α}
    {previous target : WorkflowRunStatus} (hseq : ∀ r, (f r).nextEventSeq = r.nextEventSeq)
    (hg : ∀ r, g r = true → r.status = previous) (hf : ∀ r, (f r).status = target) (hD : D (.run id) = [])
    (h : ∀ u, Tx.Within (Settles P (Function.update D (.run id) [⟨some (.run previous), .run target, none⟩])) (k u)) :
    Tx.Within (Settles P D) (Db.workflowRunsT.cas id g f hk hu e >>= k) := by
  intro db a db' hx
  rw [StateT.run_bind, Tx.bind_ok] at hx
  obtain ⟨⟨u, db₁⟩, hcas, hx⟩ := hx
  obtain ⟨row, hg', hstored, -⟩ := runCas_sets hcas
  rw [hg row hg'] at hstored
  exact .runSet _ _ hcas hseq hf hstored hD (h u _ _ _ hx)

theorem taskCas_settles {g : TaskRow → Bool} {f : TaskRow → TaskRow} {hk hu} {k : Unit → Op α}
    {previous target : TaskStatus} (hg : ∀ r, g r = true → r.status = previous) (hf : ∀ r, (f r).status = target)
    (hD : D (.task id) = [])
    (h : ∀ u, Tx.Within (Settles P (Function.update D (.task id) [⟨some (.task previous), .task target, none⟩])) (k u)) :
    Tx.Within (Settles P D) (Db.tasksT.cas id g f hk hu e >>= k) := by
  intro db a db' hx
  rw [StateT.run_bind, Tx.bind_ok] at hx
  obtain ⟨⟨u, db₁⟩, hcas, hx⟩ := hx
  have hdb := (Prod.mk.inj (TableRef.cas_ok.1 hcas).2).2
  refine .set (taskCas_lawful _ _ _ hcas) (fun _ => ?_) ?_ hD (h u _ _ _ hx)
  · obtain ⟨row, hg', hstored, hset⟩ := taskCas_sets hcas
    rw [hf] at hset
    rw [hg row hg'] at hstored
    exact ⟨hset, _, hstored, rfl⟩
  · rw [hdb]
    exact ⟨rfl, rfl⟩

theorem appendNodeState_settles {k : Unit → Op α} {previous target : NodeRunStatus} {outcome : Option NodeOutcome}
    (howns : P.owns (.node id) run.id) (hD : D (.node id) = ⟨some (.node previous), .node target, outcome⟩ :: l)
    (h : ∀ u, Tx.Within (Settles P (Function.update D (.node id) l)) (k u)) :
    Tx.Within (Settles P D) (appendNodeState run lease id nodeId previous target outcome summary error now >>= k) := by
  intro db a db' hx
  rw [StateT.run_bind, Tx.bind_ok] at hx
  obtain ⟨⟨u, db₁⟩, happend, hx⟩ := hx
  exact .record (appendNodeState_records happend) (appendNodeState_lawful howns _ _ _ happend) hD (h u _ _ _ hx)

theorem appendRunState_settles {k : Unit → Op α} {previous target : WorkflowRunStatus}
    (hD : D (.run run.id) = ⟨some (.run previous), .run target, none⟩ :: l)
    (h : ∀ u, Tx.Within (Settles P (Function.update D (.run run.id) l)) (k u)) :
    Tx.Within (Settles P D) (appendRunState run lease previous target now >>= k) := by
  intro db a db' hx
  rw [StateT.run_bind, Tx.bind_ok] at hx
  obtain ⟨⟨u, db₁⟩, happend, hx⟩ := hx
  exact .record (appendRunState_records happend) (appendRunState_lawful _ _ _ happend) hD (h u _ _ _ hx)

theorem appendTaskState_settles {k : Unit → Op α} {previous : Option TaskStatus} {target : TaskStatus} {token : Option Nat}
    (howns : P.owns (.task id) run.id) (hD : D (.task id) = ⟨previous.map .task, .task target, none⟩ :: l)
    (h : ∀ u, Tx.Within (Settles P (Function.update D (.task id) l)) (k u)) :
    Tx.Within (Settles P D) (appendTaskState run lease nodeRunId id previous target error token now >>= k) := by
  intro db a db' hx
  rw [StateT.run_bind, Tx.bind_ok] at hx
  obtain ⟨⟨u, db₁⟩, happend, hx⟩ := hx
  exact .record (appendTaskState_records happend) (appendTaskState_lawful howns _ _ _ happend) hD (h u _ _ _ hx)

/-- Nothing is owed any more. -/
theorem settles_rest {x : Op α} (hD : ∀ s, D s = []) (h : Tx.Within (Follows P) x) : Tx.Within (Settles P D) x :=
  fun _ _ _ hx => (h _ _ _ hx).settles hD

end

/-! ## One status at a time -/

theorem tail_within {R : Db → Db → Prop} {α : Type} {x : Op α} (h : Tx.Within R (x >>= pure)) : Tx.Within R x := by
  rwa [bind_pure] at h

/-- Two statements that only together stay within a relation, and what follows them. -/
theorem pair_within {R : Db → Db → Prop} [IsPreorder Db R] {α β γ : Type} {x : Op α} {y : α → Op β} {k : β → Op γ}
    (h : Tx.Within R (x >>= y)) (hk : ∀ b, Tx.Within R (k b)) : Tx.Within R (x >>= fun a => y a >>= k) := by
  have hall := h.bind hk
  rwa [bind_assoc] at hall

section
variable {run : WorkflowRunRow} {lease : MasterLease} {now : Instant} {id nodeId nodeRunId summary : String}
  {e : StorageError} {error : Option String}

/-- A node run moves, and its event says so. -/
theorem nodeMove_follows {g : NodeRunRow → Bool} {f : NodeRunRow → NodeRunRow} {hk hu} {previous target : NodeRunStatus}
    {outcome : Option NodeOutcome} (howns : P.owns (.node id) run.id)
    (hrun : ∀ r, (f r).workflowRunId = r.workflowRunId) (hg : ∀ r, g r = true → r.status = previous)
    (hf : ∀ r, g r = true → (r.status.isLive = true → r.outcome = none) → (f r).status = target ∧ (f r).outcome = outcome)
    (hopen : target.isLive = true → outcome = none) :
    Tx.Within (Follows P) (Db.nodeRunsT.cas id g f hk hu e >>= fun _ =>
      appendNodeState run lease id nodeId previous target outcome summary error now) := by
  apply settled
  apply nodeCas_settles hrun hg hf hopen rfl
  intro _
  apply tail_within
  apply appendNodeState_settles howns (Function.update_self _ _ _)
  intro u
  apply settles_rest _ (.pure u)
  intro s
  by_cases hs : s = .node id <;> simp [hs]

theorem runMove_follows {g : WorkflowRunRow → Bool} {f : WorkflowRunRow → WorkflowRunRow} {hk hu}
    {previous target : WorkflowRunStatus} (hseq : ∀ r, (f r).nextEventSeq = r.nextEventSeq)
    (hg : ∀ r, g r = true → r.status = previous) (hf : ∀ r, (f r).status = target) :
    Tx.Within (Follows P) (Db.workflowRunsT.cas run.id g f hk hu e >>= fun _ =>
      appendRunState run lease previous target now) := by
  apply settled
  apply runCas_settles hseq hg hf rfl
  intro _
  apply tail_within
  apply appendRunState_settles (Function.update_self _ _ _)
  intro u
  apply settles_rest _ (.pure u)
  intro s
  by_cases hs : s = .run run.id <;> simp [hs]

theorem taskMove_follows {g : TaskRow → Bool} {f : TaskRow → TaskRow} {hk hu} {previous target : TaskStatus}
    {token : Option Nat} (howns : P.owns (.task id) run.id) (hg : ∀ r, g r = true → r.status = previous)
    (hf : ∀ r, (f r).status = target) :
    Tx.Within (Follows P) (Db.tasksT.cas id g f hk hu e >>= fun _ =>
      appendTaskState run lease nodeRunId id (some previous) target error token now) := by
  apply settled
  apply taskCas_settles hg hf rfl
  intro _
  apply tail_within
  apply appendTaskState_settles howns (Function.update_self _ _ _)
  intro u
  apply settles_rest _ (.pure u)
  intro s
  by_cases hs : s = .task id <;> simp [hs]

end

/-! ## What a read tells -/

/-- The licence of an operation that has also learnt the facts `Q`. -/
def Licence.knowing (P : Licence) (Q : Subject → String → Prop) : Licence := { P with owns := fun s r => P.owns s r ∨ Q s r }

theorem Settles.knew {Q : Subject → String → Prop} {D : Subject → List StateChange} (hQ : P.Holds db → ∀ s r, Q s r → db.owner s = some r)
    (h : Settles (P.knowing Q) D db db') : Settles P D db db' := by
  have hholds : P.Holds db → (P.knowing Q).Holds db := fun hP s r hs => hs.elim (hP s r) (hQ hP s r)
  refine ⟨⟨h.owners, fun hP => h.law (hholds hP)⟩, fun hP => h.books (hholds hP), ?_, h.changeLog⟩
  exact h.changeSets.mono (fun _ _ hc => ⟨hc.same, hc.moved⟩) fun _ => id

theorem Follows.knew {Q : Subject → String → Prop} (hQ : P.Holds db → ∀ s r, Q s r → db.owner s = some r)
    (h : Follows (P.knowing Q) db db') : Follows P db db' :=
  ((h.settles (D := fun _ => []) fun _ => rfl).knew hQ).follows

section
variable {α β : Type} {Q : β → Subject → String → Prop}

/-- What follows a read may use what it says about owners. -/
theorem learn_follows {x : Op β} {k : β → Op α} (hx : Tx.ReadOnly x)
    (hQ : ∀ db b, x.run db = .ok (b, db) → P.Holds db → ∀ s r, Q b s r → db.owner s = some r)
    (h : ∀ db b, x.run db = .ok (b, db) → Tx.Within (Follows (P.knowing (Q b))) (k b)) : Tx.Within (Follows P) (x >>= k) := by
  intro db a db' hrun
  rw [StateT.run_bind, Tx.bind_ok] at hrun
  obtain ⟨⟨b, s⟩, hread, hrun⟩ := hrun
  obtain rfl : s = db := hx _ _ hread
  exact (h _ b hread _ _ _ hrun).knew (hQ _ b hread)

theorem found_follows {find : Db → Option β} {e : StorageError} {k : β → Op α}
    (hQ : ∀ db b, find db = some b → ∀ s r, Q b s r → db.owner s = some r)
    (h : ∀ db b, find db = some b → Tx.Within (Follows (P.knowing (Q b))) (k b)) :
    Tx.Within (Follows P) (Tx.read find >>= fun o => Tx.require o e >>= k) := by
  have hfound : ∀ db b, (Tx.read find >>= fun o => Tx.require o e : Op β).run db = .ok (b, db) → find db = some b := by
    intro db b hread
    rw [Tx.run_read_bind] at hread
    exact (Tx.require_ok.1 hread).1
  have hall := learn_follows (P := P) (Q := Q) (k := k) (.bind (.read find) fun o => .require o e)
    (fun db b hread _ => hQ db b (hfound db b hread)) fun db b hread => h db b (hfound db b hread)
  rwa [bind_assoc] at hall

end

end AgentHub
