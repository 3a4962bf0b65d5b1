import AgentHub.Storage.CallBooks
import AgentHub.Storage.Runs.CancelCleanup
import Mathlib.Data.List.Induction
/-!
# The replay of runs, node runs and tasks

Whoever folds the events of a run, in their order, gets the stored status of the run, its node runs and its tasks. A
cancellation that ends the unfinished tasks of the node runs it cancels appends no event for them; no other call
leaves a change out.
-/

namespace AgentHub

open Lib

/-- The changes of a subject that the events of a run record, in the order of their numbers. -/
def Db.journal (db : Db) (rid : String) (s : Subject) : List StateChange := (db.stream rid).filterMap (EventRow.changeOf s)

/-- The events of its run replay to a subject: each starts where the one before it ended, and the last one carries
what is stored. -/
structure Reconstructs (db : Db) (s : Subject) : Prop where
  linked : ∀ rid, db.owner s = some rid → Journal.Linked Prod.fst s.initial (db.journal rid s)
  last : ∀ rid, db.owner s = some rid → ∀ log c, db.journal rid s = log ++ [c] → db.stored s = some c.value
  faithful : ∀ rid, db.owner s = some rid → db.stored s = some (Journal.replay s.initial (db.journal rid s))

/-- The log is lawful and every page is balanced. -/
structure BooksLaw (db : Db) : Prop extends LedgerLaw db where
  books : ∀ s, Balanced db s

/-- A subject of a run is stored. -/
theorem owner_stored {db : Db} {s : Subject} {rid : String} (h : db.owner s = some rid) : ∃ v, db.stored s = some v := by
  cases s with
  | run id =>
    obtain ⟨r, hr, -⟩ := Option.map_eq_some_iff.1 h
    exact ⟨_, Option.map_eq_some_iff.2 ⟨r, hr, rfl⟩⟩
  | node id =>
    obtain ⟨r, hr, -⟩ := Option.map_eq_some_iff.1 h
    exact ⟨_, Option.map_eq_some_iff.2 ⟨r, hr, rfl⟩⟩
  | task id =>
    obtain ⟨t, ht, -⟩ := Option.bind_eq_some_iff.1 h
    exact ⟨_, Option.map_eq_some_iff.2 ⟨t, ht, rfl⟩⟩

theorem BooksLaw.replays {db : Db} (h : BooksLaw db) (s : Subject) : Reconstructs db s where
  linked rid howner := by
    rw [Db.journal, h.toLedgerLaw.stream howner]
    exact (h.books s).linked
  last rid howner log c hlog := by
    rw [Db.journal, h.toLedgerLaw.stream howner] at hlog
    exact (h.books s).last hlog
  faithful rid howner := by
    obtain ⟨v, hv⟩ := owner_stored howner
    rw [Db.journal, h.toLedgerLaw.stream howner, hv]
    exact congrArg some ((h.books s).faithful v hv).symm

/-! ## Every run -/

section
variable {repo : ApprovalRepository} {db db' : Db}

/-- A call that ends nothing silently, or something elsewhere. -/
inductive ReplayStep (repo : ApprovalRepository) (db : Db) : Db → Prop
  | call (i : StoreInvocation) (h : (i.commit repo db).1 = .ok () → ∀ s, ¬ i.call.Silences db s) :
      ReplayStep repo db (i.commit repo db).2
  | other {db' : Db} (h : Outside db db') : ReplayStep repo db db'

/-- What a call without silent ends does to the books. -/
theorem Tells.booksLaw {P : Licence} (h : Tells P db db') (hP : P.Holds db) (hsilent : ∀ s, ¬ P.silent s) (hlaw : BooksLaw db) :
    BooksLaw db' where
  toLedgerLaw := h.law hP hlaw.toLedgerLaw
  books s := h.books hP hlaw.toLedgerLaw s (hsilent s) (hlaw.books s)

theorem BooksLaw.step (hlaw : BooksLaw db) (hstep : ReplayStep repo db db') : BooksLaw db' := by
  cases hstep with
  | other h => exact (h.tells (P := ChangeSetRepository.idle)).booksLaw (fun _ _ hs => hs.elim) (fun _ hs => hs) hlaw
  | call i hsilent =>
    unfold StoreInvocation.commit at hsilent ⊢
    rcases Tx.commit_cases (i.call.op repo i.ord i.lease i.now) db with hs | ⟨u, h⟩
    · -- A call that fails leaves the database.
      rw [hs]
      exact hlaw
    · exact (StoreCall.tells h).booksLaw (fun _ _ hs => hs.elim) (hsilent (by rw [Tx.commit_of_ok h])) hlaw

/-- From a database with balanced books, over any commits none of which ends a task silently, the events of every run
replay to its status and to those of its node runs and tasks. -/
theorem stream_replays (hlaw : BooksLaw db) (hrun : Relation.ReflTransGen (ReplayStep repo) db db') (s : Subject) :
    Reconstructs db' s := by
  have hlaw' : BooksLaw db' := Tx.inv_of_steps (fun _ _ h hstep => h.step hstep) hrun hlaw
  exact hlaw'.replays s

end

/-! ## A sample -/

/-- A database in which everything is pending and nothing was recorded. -/
theorem BooksLaw.fresh {db : Db} (hevents : db.events = []) (hruns : ∀ r ∈ db.workflowRuns.rows, r.status = .pending)
    (hnodes : ∀ r ∈ db.nodeRuns.rows, r.status = .pending ∧ r.outcome = none)
    (htasks : ∀ t ∈ db.tasks.rows, t.status = .pending) : BooksLaw db where
  numbered := by simp [hevents]
  ordered := by simp [hevents]
  counted := by simp [hevents]
  owned := by simp [hevents]
  open_ r hr _ := (hnodes r hr).2
  books s := by
    have hlog : (db.page s).log = [] := by simp [Db.page, Db.log, hevents]
    refine ⟨hlog ▸ Journal.linked_nil, fun v hv => ?_, fun _ => hlog⟩
    rw [hlog, Journal.replay_nil]
    cases s with
    | run id =>
      obtain ⟨r, hr, rfl⟩ := Option.map_eq_some_iff.1 hv
      rw [hruns r (Table.mem_of_get? hr)]
      rfl
    | node id =>
      obtain ⟨r, hr, rfl⟩ := Option.map_eq_some_iff.1 hv
      rw [(hnodes r (Table.mem_of_get? hr)).1, (hnodes r (Table.mem_of_get? hr)).2]
      rfl
    | task id =>
      obtain ⟨t, ht, rfl⟩ := Option.map_eq_some_iff.1 hv
      rw [htasks t (Table.mem_of_get? ht)]
      rfl

/-- The run of the graph with one agent that only reads, as it was created. -/
def plannedDb : Db := { sampleDb with
  workflowRuns := ⟨[{ sampleRunRow with compiledSnapshot := readGraph }], by decide, by decide⟩
  nodeRuns := ⟨readGraph.nodes.map sampleNodeRun, by decide, by decide⟩
  tasks := Table.empty
  changeSets := Table.empty
  events := [] }

theorem plannedDb_lawful : BooksLaw plannedDb := .fresh rfl (by decide) (by decide) (by decide)

/-- The database after calls on the sample. -/
def afterCalls (calls : List StoreCall) : Db :=
  calls.foldl (fun db call => ((sampleInvocation call).commit ApprovalRepository.sampleApprovals db).2) plannedDb

theorem afterCalls_snoc (calls : List StoreCall) (call : StoreCall) :
    afterCalls (calls ++ [call]) = ((sampleInvocation call).commit ApprovalRepository.sampleApprovals (afterCalls calls)).2 := by
  simp only [afterCalls, List.foldl_append, List.foldl_cons, List.foldl_nil]

/-- Calls that complete no cancellation end nothing silently. -/
theorem afterCalls_told (calls : List StoreCall) (h : ∀ call ∈ calls, call.cancels = none) :
    Relation.ReflTransGen (ReplayStep ApprovalRepository.sampleApprovals) plannedDb (afterCalls calls) := by
  induction calls using List.reverseRecOn with
  | nil => exact .refl
  | append_singleton calls call ih =>
    rw [afterCalls_snoc]
    refine (ih fun c hc => h c (List.mem_append_left _ hc)).tail (.call _ fun _ s hs => ?_)
    obtain ⟨rid, id, hcancels, -⟩ := hs
    have hnone := h call (List.mem_append_right _ (List.mem_singleton_self call))
    rw [show (sampleInvocation call).call = call from rfl, hnone] at hcancels
    cases hcancels

/-- The agent is given its task. -/
def sampleTasking : List StoreCall :=
  [.run (.startAndReconcile "r"), .run (.claimNext "r"), .run (.completeNode "rin" .completed .success "" none none),
    .run (.startAndReconcile "r"), .run (.claimNext "r"), .createTask "t" "rread" "None" "0"]

/-- The task is there, and the events of the run tell it. -/
theorem stream_replays_sample : (afterCalls sampleTasking).stored (.task "t") = some (.task .pending, none) ∧
    Reconstructs (afterCalls sampleTasking) (.task "t") := by
  have hrun := afterCalls_told sampleTasking (by decide)
  exact ⟨by decide +kernel, stream_replays plannedDb_lawful hrun (.task "t")⟩

/-- The run is cancelled before the agent starts: its task is stored as cancelled, and the events of the run still
say that it is pending. -/
theorem cancelled_task_untold : BooksLaw plannedDb ∧
    ∃ db', StoreRun ApprovalRepository.sampleApprovals plannedDb db' ∧ ¬ ∀ s, Reconstructs db' s := by
  have hasked : BooksLaw (afterCalls (sampleTasking ++ [.run (.requestCancel "r")])) :=
    Tx.inv_of_steps (fun _ _ h hstep => h.step hstep) (afterCalls_told _ (by decide)) plannedDb_lawful
  have hlaw := (sampleInvocation (.run (.completeCancel "r"))).law ApprovalRepository.sampleApprovals hasked.toLedgerLaw
  rw [← afterCalls_snoc] at hlaw
  have hrun : ∀ calls, StoreRun ApprovalRepository.sampleApprovals plannedDb (afterCalls calls) := by
    intro calls
    induction calls using List.reverseRecOn with
    | nil => exact .refl
    | append_singleton calls call ih =>
      rw [afterCalls_snoc]
      exact ih.tail (.call _)
  refine ⟨plannedDb_lawful, _, hrun (sampleTasking ++ [.run (.requestCancel "r")] ++ [.run (.completeCancel "r")]), fun h => ?_⟩
  have howner : (afterCalls (sampleTasking ++ [.run (.requestCancel "r")] ++ [.run (.completeCancel "r")])).owner (.task "t") =
      some "r" := by
    decide +kernel
  have hlast := (h (.task "t")).last "r" howner [] ⟨none, .task .pending, none⟩ ?_
  · revert hlast
    decide +kernel
  · rw [Db.journal, hlaw.stream howner]
    decide +kernel

end AgentHub
