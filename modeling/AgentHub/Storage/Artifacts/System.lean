import AgentHub.Storage.Artifacts.Store
/-!
# Callers of the artifact store

Any number of callers create, publish, delete and reconcile artifacts. A transaction holds the database from its BEGIN
to its COMMIT or ROLLBACK; what a caller does to the files outside its transaction may come between any two steps of
the others.
-/

namespace AgentHub

inductive WriteKind where
  /-- `create` -/
  | create
  /-- `publish_staged_in` for each of the caller's artifacts -/
  | publish (allowExisting : Bool)
  deriving DecidableEq, Repr

/-- How far an operation got. -/
inductive ArtifactOp where
  /-- staged, no transaction yet -/
  | staged (kind : WriteKind) (artifacts : List StagedArtifact)
  /-- in its transaction: what it went through, the last one first, and what is left -/
  | writing (kind : WriteKind) (done todo : List StagedArtifact)
  /-- committed: what is left to finalize -/
  | finalizing (artifacts : List StagedArtifact)
  /-- rolled back: what is left to abort -/
  | aborting (artifacts : List StagedArtifact)
  /-- `create` raised after it published its file -/
  | reconciling (artifact : StagedArtifact)
  /-- `delete` has read the row -/
  | deleting (record : ArtifactRow)
  /-- `delete` has committed -/
  | unlinking (path : ArtifactPath)
  deriving DecidableEq, Repr

/-- The handle stands for its final file. -/
def StagedArtifact.Published (s : StagedArtifact) : Prop := s.handle.state = .published

instance (s : StagedArtifact) : Decidable s.Published := inferInstanceAs (Decidable (s.handle.state = .published))

/-- The final files an operation in progress answers for. -/
def ArtifactOp.Owns (path : ArtifactPath) : ArtifactOp → Prop
  | .writing _ done todo => ∃ s ∈ done ++ todo, s.Published ∧ s.handle.path = path
  | .aborting artifacts => ∃ s ∈ artifacts, s.Published ∧ s.handle.path = path
  | .reconciling s => s.Published ∧ s.handle.path = path
  | .unlinking p => p = path
  | _ => False

/-- The database as it is committed, the open transaction with its owner and the database it sees, the final files and
the operations in progress. -/
structure ArtifactSystem where
  db : Db
  tx : Option (Nat × Db)
  files : ArtifactFiles
  ops : Nat → Option ArtifactOp

/-- What the callers, or the rest of the program, do next. -/
inductive ArtifactEvent where
  | create (i : Nat) (new : NewArtifact)
  | stage (i : Nat) (allowExisting : Bool) (new : List NewArtifact)
  | beginImmediate (i : Nat)
  /-- the next artifact of the transaction; `planners` is what `planner_runs` holds -/
  | publish (i : Nat) (planners : String → Option String)
  /-- another statement of the transaction -/
  | statement (i : Nat) (db : Db)
  /-- the transaction raises and is rolled back -/
  | raise (i : Nat)
  | commit (i : Nat)
  /-- the COMMIT of `create` raises, after it took effect or not -/
  | commitRaises (i : Nat) (tookEffect : Bool)
  | finalize (i : Nat)
  | abort (i : Nat)
  | reconcile (i : Nat)
  | delete (i : Nat) (artifactId : String)
  /-- the transaction of `delete`; a row that is referenced stays -/
  | deleteRow (i : Nat) (referenced : Bool)
  | unlink (i : Nat)
  | reconcileOrphan (artifactId : String) (artifactType : ArtifactType)
  /-- a transaction of the rest of the program -/
  | other (db : Db)

namespace ArtifactSystem

/-- Put an operation where it got to; none when it is over. -/
def setOp (sys : ArtifactSystem) (i : Nat) (op : Option ArtifactOp) : ArtifactSystem :=
  { sys with ops := Function.update sys.ops i op }

/-- What follows when the transaction of an operation raises: `create` reconciles a file it published, and everything
else is aborted, the last one staged first. -/
def raised (kind : WriteKind) (done todo : List StagedArtifact) : ArtifactOp :=
  match kind, done ++ todo with
  | .create, [s] => if s.Published then .reconciling s else .aborting [s]
  | _, _ => .aborting (todo.reverse ++ done)

/-- The columns of `artifacts` that nothing but this repository writes; a task may be bound to an artifact later. -/
def artifactColumns (db : Db) : List (String × String × ArtifactType × String × Nat) :=
  db.artifacts.rows.map fun a => (a.id, a.sessionId, a.artifactType, a.sha256, a.sizeBytes)

variable (R : ArtifactRepo)

/-- One publication in the transaction of an operation. -/
def publishNext (kind : WriteKind) (planners : String → Option String) (db : Db) (files : ArtifactFiles)
    (s : StagedArtifact) : ArtifactRepo.Published :=
  match kind with
  | .create => R.createIn planners db files s
  | .publish allowExisting => R.publishStagedIn planners allowExisting db files s

/-- The step of an event, if it can happen. -/
def step (sys : ArtifactSystem) : ArtifactEvent → Option ArtifactSystem
  | .create i new =>
    match sys.ops i, R.stage new with
    | none, .ok s => some (sys.setOp i (some (.staged .create [s])))
    | none, .error _ => some sys
    | some _, _ => none
  | .stage i allowExisting new =>
    match sys.ops i, new.mapM R.stage with
    | none, .ok artifacts => some (sys.setOp i (some (.staged (.publish allowExisting) artifacts)))
    | none, .error _ => some sys
    | some _, _ => none
  | .beginImmediate i =>
    match sys.ops i, sys.tx with
    | some (.staged kind artifacts), none => some { sys.setOp i (some (.writing kind [] artifacts)) with tx := some (i, sys.db) }
    | _, _ => none
  | .publish i planners =>
    match sys.ops i, sys.tx with
    | some (.writing kind done (s :: todo)), some (_, db) =>
      match publishNext R kind planners db sys.files s with
      | (.ok (_, db), files, s) => some { sys.setOp i (some (.writing kind (s :: done) todo)) with tx := some (i, db), files }
      | (.error _, files, s) => some { sys.setOp i (some (raised kind done (s :: todo))) with tx := none, files }
    | _, _ => none
  | .statement i db' =>
    match sys.ops i, sys.tx with
    | some (.writing _ _ _), some (_, db) =>
      if db'.artifacts.rows = db.artifacts.rows then some { sys with tx := some (i, db') } else none
    | _, _ => none
  | .raise i =>
    match sys.ops i with
    | some (.writing kind done todo) => some { sys.setOp i (some (raised kind done todo)) with tx := none }
    | _ => none
  | .commit i =>
    match sys.ops i, sys.tx with
    | some (.writing _ done []), some (_, db) =>
      some { sys.setOp i (some (.finalizing (done.reverse.filter fun s => s.Published))) with db, tx := none }
    | _, _ => none
  | .commitRaises i tookEffect =>
    match sys.ops i, sys.tx with
    | some (.writing .create [s] []), some (_, db) =>
      some { sys.setOp i (some (.reconciling s)) with db := if tookEffect then db else sys.db, tx := none }
    | _, _ => none
  | .finalize i =>
    match sys.ops i with
    | some (.finalizing (s :: rest)) =>
      match R.store.finalize sys.files s.handle with
      | .ok _ => some (sys.setOp i (some (.finalizing rest)))
      | .error _ => some (sys.setOp i none)
    | some (.finalizing []) => some (sys.setOp i none)
    | _ => none
  | .abort i =>
    match sys.ops i with
    | some (.aborting (s :: rest)) =>
      some { sys.setOp i (some (.aborting rest)) with files := (ArtifactStore.abort sys.files s.handle).2.1 }
    | some (.aborting []) => some (sys.setOp i none)
    | _ => none
  | .reconcile i =>
    match sys.ops i, sys.tx with
    | some (.reconciling s), none => some { sys.setOp i none with files := (R.reconcileCreateCommit sys.db sys.files s).2 }
    | _, _ => none
  | .delete i artifactId =>
    match sys.ops i with
    | none => some (sys.setOp i ((sys.db.artifacts.get? artifactId).map .deleting))
    | some _ => none
  | .deleteRow i referenced =>
    match sys.ops i, sys.tx with
    | some (.deleting record), none =>
      if referenced then some (sys.setOp i none)
      else some { sys.setOp i (some (.unlinking record.path)) with
        db := { sys.db with artifacts := sys.db.artifacts.delete fun a => a.id = record.id } }
    | _, _ => none
  | .unlink i =>
    match sys.ops i with
    | some (.unlinking path) => some { sys.setOp i none with files := ArtifactStore.delete sys.files path }
    | _ => none
  | .reconcileOrphan artifactId artifactType =>
    match sys.tx with
    | some _ => none
    | none =>
      if (sys.db.artifacts.get? artifactId).isSome then some sys
      else some { sys with files := ArtifactStore.delete sys.files ⟨artifactType, artifactId⟩ }
  | .other db =>
    if sys.tx = none ∧ artifactColumns db = artifactColumns sys.db then some { sys with db } else none

end ArtifactSystem

end AgentHub
