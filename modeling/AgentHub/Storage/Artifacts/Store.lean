import AgentHub.Lib.Utf8
import AgentHub.Storage.ChangeSets
/-!
# The artifact store

Final files under `artifact_type/artifact_id`, and the one-time handles of staged writes. A file operation is one
step and does not fail halfway, so the checks that follow a link in `publish` find the file that was linked, and no
handle is left to be cleaned up.
-/

namespace AgentHub

open Lib

/-- Where a final file is, under the base directory. -/
structure ArtifactPath where
  artifactType : ArtifactType
  artifactId : String
  deriving DecidableEq, Repr

/-- The final files. -/
abbrev ArtifactFiles : Type := ArtifactPath → Option Bytes

def ArtifactType.value : ArtifactType → String
  | .log => "log" | .console => "console" | .diff => "diff" | .patch => "patch" | .report => "report"
  | .testResult => "test_result" | .runtimePolicy => "runtime_policy" | .changePreimage => "change_preimage"

/-- `relative_path`: the path from the base directory. -/
def ArtifactPath.relative (p : ArtifactPath) : String := p.artifactType.value ++ "/" ++ p.artifactId

def ArtifactRow.path (row : ArtifactRow) : ArtifactPath := ⟨row.artifactType, row.id⟩

inductive ArtifactError where
  | storage (e : StorageError)
  | pathEscape (message : String)
  | quotaExceeded (message : String)
  | containmentViolation (message : String)
  | artifactNotFound (message : String)
  | reconciliationRequired (message : String)
  | valueError (message : String)
  deriving DecidableEq, Repr

inductive HandleState where
  | staged | published | rolledBack | discarded | finalized
  deriving DecidableEq, Repr

/-- A staged write: what was announced of it, the temporary file while it is there, and how far it got. -/
structure TempWriteResult where
  artifactId : String
  artifactType : ArtifactType
  sha256 : String
  sizeBytes : Nat
  temp : Option Bytes
  state : HandleState
  deriving DecidableEq, Repr

def TempWriteResult.path (h : TempWriteResult) : ArtifactPath := ⟨h.artifactType, h.artifactId⟩

/-- SHA-256 as hexadecimal digits, and the size limit of a file. -/
structure ArtifactStore where
  sha256 : Bytes → String
  maxArtifactBytes : Nat

namespace ArtifactStore

variable (S : ArtifactStore)

/-- `write_temp`. -/
def writeTemp (artifactId : String) (artifactType : ArtifactType) (content : Bytes) : Except ArtifactError TempWriteResult :=
  if content.length > S.maxArtifactBytes then
    .error (.quotaExceeded ("artifact size " ++ toString content.length ++ " exceeds limit " ++ toString S.maxArtifactBytes))
  else
    .ok ⟨artifactId, artifactType, S.sha256 content, content.length, some content, .staged⟩

/-- What a call leaves: the files and the handle, also when it raises. -/
abbrev Left : Type := Except ArtifactError Unit × ArtifactFiles × TempWriteResult

/-- `publish`: link the temporary file to the final name, which must be free. -/
def publish (files : ArtifactFiles) (h : TempWriteResult) : Left :=
  if h.state ≠ .staged then (.error (.pathEscape "publish: invalid handle state"), files, h)
  else match h.temp with
    | none => (.error (.pathEscape "staged temp missing"), files, h)
    | some data =>
      if data.length ≠ h.sizeBytes then
        (.error (.pathEscape ("temp size changed: expected " ++ toString h.sizeBytes ++ ", got " ++ toString data.length)),
          files, h)
      else if S.sha256 data ≠ h.sha256 then
        (.error (.pathEscape ("temp hash changed: expected " ++ h.sha256)), files, h)
      else if (files h.path).isSome then
        (.error (.pathEscape ("artifact already exists: " ++ h.path.relative ++ "; immutable, cannot overwrite")), files,
          { h with temp := none, state := .discarded })
      else (.ok (), Function.update files h.path (some data), { h with temp := none, state := .published })

/-- The content has the announced size and digest. -/
def fits (content : Bytes) (sizeBytes : Nat) (sha256 : String) : Bool := content.length = sizeBytes ∧ S.sha256 content = sha256

/-- `read_bytes`. -/
def readBytes (files : ArtifactFiles) (path : ArtifactPath) : Except ArtifactError Bytes :=
  match files path with
  | none => .error (.pathEscape ("artifact file missing: " ++ path.relative))
  | some content => .ok content

/-- `finalize`. -/
def finalize (files : ArtifactFiles) (h : TempWriteResult) : Except ArtifactError TempWriteResult :=
  if h.state ≠ .published then .error (.pathEscape "finalize: invalid handle state")
  else match files h.path with
    | none => .error (.pathEscape ("published final is missing: " ++ h.path.relative))
    | some content =>
      if S.fits content h.sizeBytes h.sha256 then .ok { h with state := .finalized }
      else .error (.pathEscape "published final content does not match staged metadata")

/-- `discard_staged`. -/
def discardStaged (h : TempWriteResult) : Except ArtifactError TempWriteResult :=
  if h.state = .staged ∨ h.state = .rolledBack then .ok { h with temp := none, state := .discarded }
  else .error (.pathEscape "discard: invalid handle state")

/-- `abort`: a published handle loses its final file, and any handle its temporary one. -/
def abort (files : ArtifactFiles) (h : TempWriteResult) : Left :=
  match h.state with
  | .finalized => (.error (.pathEscape "abort: finalized handle cannot be aborted"), files, h)
  | .discarded => (.ok (), files, h)
  | .published => (.ok (), Function.update files h.path none, { h with temp := none, state := .discarded })
  | .staged | .rolledBack => (.ok (), files, { h with temp := none, state := .discarded })

/-- `delete` and `delete_orphan`. -/
def delete (files : ArtifactFiles) (path : ArtifactPath) : ArtifactFiles := Function.update files path none

end ArtifactStore

/-! ## Staged artifacts -/

structure StagedArtifact where
  record : ArtifactRow
  handle : TempWriteResult
  deriving DecidableEq, Repr

/-- What a caller asks to be stored. -/
structure NewArtifact where
  artifactId : String
  sessionId : String
  artifactType : ArtifactType
  content : Bytes
  taskId : Option String
  plannerRunId : Option String
  redacted : Bool
  deriving DecidableEq, Repr

/-- The store and the limits of the repository. -/
structure ArtifactRepo where
  store : ArtifactStore
  limits : ArtifactLimits

namespace ArtifactRepo

variable (R : ArtifactRepo)

/-- `stage`; `create` begins the same way. -/
def stage (new : NewArtifact) : Except ArtifactError StagedArtifact :=
  if new.taskId.isSome ∧ new.plannerRunId.isSome then
    .error (.valueError "task_id and planner_run_id are mutually exclusive")
  else (R.store.writeTemp new.artifactId new.artifactType new.content).map fun h =>
    ⟨⟨new.artifactId, new.sessionId, new.taskId, new.plannerRunId, new.artifactType, h.path.relative, h.sha256, h.sizeBytes,
      new.redacted⟩, h⟩

/-- `_validate_owner_in`, given the session of each planner run. -/
def validateOwnerIn (planners : String → Option String) (db : Db) (record : ArtifactRow) : Except ArtifactError Unit := do
  if (db.sessions.get? record.sessionId).isNone then
    throw (.storage (.recordNotFound ("session not found: " ++ record.sessionId)))
  if let some taskId := record.taskId then
    match WorkflowRunRepository.taskWithRun db taskId with
    | none => throw (.storage (.recordNotFound ("task not found: " ++ taskId)))
    | some (_, _, run) =>
      if run.sessionId ≠ record.sessionId then
        throw (.containmentViolation ("task " ++ taskId ++ " does not belong to session " ++ record.sessionId))
  if let some plannerRunId := record.plannerRunId then
    match planners plannerRunId with
    | none => throw (.storage (.recordNotFound ("planner run not found: " ++ plannerRunId)))
    | some sessionId =>
      if sessionId ≠ record.sessionId then
        throw (.containmentViolation ("planner run " ++ plannerRunId ++ " does not belong to session " ++ record.sessionId))

/-- `COALESCE(SUM(size_bytes), 0)` of a session. -/
def sessionBytes (db : Db) (sessionId : String) : Nat :=
  ((db.artifacts.rows.filter fun a => a.sessionId = sessionId).map ArtifactRow.sizeBytes).sum

/-- The quota checks. -/
def checkQuota (db : Db) (record : ArtifactRow) : Except ArtifactError Unit := do
  if record.sizeBytes > R.limits.maxArtifactBytes then
    throw (.quotaExceeded ("artifact size " ++ toString record.sizeBytes ++ " exceeds per-artifact limit " ++
      toString R.limits.maxArtifactBytes))
  if sessionBytes db record.sessionId + record.sizeBytes > R.limits.maxSessionArtifactBytes then
    throw (.quotaExceeded ("session " ++ record.sessionId ++ " artifact quota exceeded: " ++
      toString (sessionBytes db record.sessionId) ++ " + " ++ toString record.sizeBytes ++ " > " ++
      toString R.limits.maxSessionArtifactBytes))

/-- What a publication in a transaction leaves: whether it created a row and the database of the transaction, if it did
not raise; the files and the handle in any case. -/
abbrev Published : Type := Except ArtifactError (Bool × Db) × ArtifactFiles × StagedArtifact

/-- Publish the file, then insert the row. -/
def publishAndInsert (db : Db) (files : ArtifactFiles) (staged : StagedArtifact) (record : ArtifactRow) : Published :=
  match R.store.publish files staged.handle with
  | (.error e, files, handle) => (.error e, files, { staged with handle })
  | (.ok (), files, handle) =>
    match db.artifacts.insert record with
    | none => (.error (.storage (.integrityError "artifacts")), files, { staged with handle })
    | some t => (.ok (true, { db with artifacts := t }), files, { staged with handle })

/-- The row the handle calls for. -/
def expected (staged : StagedArtifact) : ArtifactRow :=
  { staged.record with
    id := staged.handle.artifactId
    artifactType := staged.handle.artifactType
    relativePath := staged.handle.path.relative
    sha256 := staged.handle.sha256
    sizeBytes := staged.handle.sizeBytes }

/-- The checks `publish_staged_in` makes before it looks for the row. -/
def checkStaged (planners : String → Option String) (db : Db) (staged : StagedArtifact) : Except ArtifactError Unit := do
  let record := staged.record
  let handle := staged.handle
  if record.id ≠ handle.artifactId ∨ record.artifactType ≠ handle.artifactType ∨ record.sha256 ≠ handle.sha256 ∨
      record.sizeBytes ≠ handle.sizeBytes then
    throw (.containmentViolation "staged artifact handle and metadata do not match")
  if record.relativePath ≠ handle.path.relative then
    throw (.containmentViolation "staged artifact relative path does not match its handle")
  validateOwnerIn planners db record

/-- `publish_staged_in`. -/
def publishStagedIn (planners : String → Option String) (allowExisting : Bool) (db : Db) (files : ArtifactFiles)
    (staged : StagedArtifact) : Published :=
  match checkStaged planners db staged with
  | .error e => (.error e, files, staged)
  | .ok () =>
    match db.artifacts.get? staged.record.id with
    | some existing =>
      if ¬ allowExisting then
        (.error (.pathEscape ("artifact already exists: " ++ staged.record.id ++ "; immutable, cannot overwrite")), files, staged)
      else if existing ≠ staged.record then
        (.error (.containmentViolation ("existing artifact metadata mismatch: " ++ staged.record.id)), files, staged)
      else match ArtifactStore.readBytes files existing.path with
        | .error e => (.error e, files, staged)
        | .ok content =>
          if ¬ R.store.fits content existing.sizeBytes existing.sha256 then
            (.error (.containmentViolation ("existing artifact content mismatch: " ++ staged.record.id)), files, staged)
          else match ArtifactStore.discardStaged staged.handle with
            | .error e => (.error e, files, staged)
            | .ok handle => (.ok (false, db), files, { staged with handle })
    | none =>
      match R.checkQuota db staged.record with
      | .error e => (.error e, files, staged)
      | .ok () => R.publishAndInsert db files staged staged.record

/-- The transaction of `create`. -/
def createIn (planners : String → Option String) (db : Db) (files : ArtifactFiles) (staged : StagedArtifact) : Published :=
  match (do validateOwnerIn planners db staged.record; R.checkQuota db (expected staged) : Except ArtifactError Unit) with
  | .error e => (.error e, files, staged)
  | .ok () =>
    match db.artifacts.get? staged.handle.artifactId with
    | some _ =>
      (.error (.pathEscape ("artifact already exists: " ++ staged.handle.artifactId ++ "; immutable, cannot overwrite")),
        files, staged)
    | none => R.publishAndInsert db files staged (expected staged)

/-- `_reconcile_create_commit`: without a row the file is removed; with one, the row must be the one `create` wrote, and
its file must be there. -/
def reconcileCreateCommit (db : Db) (files : ArtifactFiles) (staged : StagedArtifact) :
    Except ArtifactError (Option ArtifactRow) × ArtifactFiles :=
  match db.artifacts.get? staged.handle.artifactId with
  | none =>
    match ArtifactStore.abort files staged.handle with
    | (.error e, files, _) => (.error e, files)
    | (.ok (), files, _) => (.ok none, files)
  | some committed =>
    if committed ≠ expected staged then
      (.error (.reconciliationRequired ("committed artifact metadata does not match staged write: " ++ committed.id)), files)
    else match ArtifactStore.readBytes files committed.path with
      | .error _ =>
        (.error (.reconciliationRequired ("committed artifact file could not be verified: " ++ committed.id)), files)
      | .ok content =>
        if ¬ R.store.fits content committed.sizeBytes committed.sha256 then
          (.error (.reconciliationRequired ("committed artifact content does not match metadata: " ++ committed.id)), files)
        else match R.store.finalize files staged.handle with
          | .error e => (.error e, files)
          | .ok _ => (.ok (some committed), files)

end ArtifactRepo

end AgentHub
