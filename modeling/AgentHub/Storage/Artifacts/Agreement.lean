import AgentHub.Storage.Artifacts.System
import AgentHub.Storage.Runs.Scheduling
import Mathlib.Algebra.Order.BigOperators.Group.List
import Mathlib.Logic.Relation
/-!
# Artifact rows and files

What a transaction does to a file it decides by the rows it sees, and nobody else writes rows meanwhile. The two
removals outside a transaction, the unlink of `delete` and the abort of a publication that was rolled back, do not look
again. Over runs in which those find no row, every row has its file, every file a row or an operation that answers for
it, and no session exceeds its limit.
-/

namespace AgentHub

open Lib ArtifactRepo

/-! ## One publication -/

section
variable {R : ArtifactRepo} {planners : String → Option String} {db db' : Db} {files files' : ArtifactFiles}
  {s s' : StagedArtifact} {created : Bool} {e : ArtifactError}

/-- A file with the size and digest of the row. -/
def ArtifactRow.Stored (R : ArtifactRepo) (files : ArtifactFiles) (row : ArtifactRow) : Prop :=
  ∃ content, files row.path = some content ∧ content.length = row.sizeBytes ∧ R.store.sha256 content = row.sha256

/-- The file of a handle was linked to its free name. -/
structure Links (R : ArtifactRepo) (files files' : ArtifactFiles) (s s' : StagedArtifact) : Prop where
  free : files s.handle.path = none
  published : s'.Published
  linked : ∃ content, files' = Function.update files s.handle.path (some content) ∧ content.length = s.handle.sizeBytes ∧
    R.store.sha256 content = s.handle.sha256

theorem publish_ok {h h' : TempWriteResult} (hp : R.store.publish files h = (.ok (), files', h')) :
    h'.path = h.path ∧ files h.path = none ∧ h'.state = .published ∧
      ∃ content, files' = Function.update files h.path (some content) ∧ content.length = h.sizeBytes ∧
        R.store.sha256 content = h.sha256 := by
  unfold ArtifactStore.publish at hp
  split at hp
  · cases hp
  · split at hp
    · cases hp
    · next data _ =>
      split at hp
      · cases hp
      · next hsize =>
        split at hp
        · cases hp
        · next hsha =>
          split at hp
          · cases hp
          · next hfree =>
            cases hp
            exact ⟨rfl, by simpa using hfree, rfl, data, rfl, not_not.1 hsize, not_not.1 hsha⟩

theorem publish_error {h h' : TempWriteResult} (hp : R.store.publish files h = (.error e, files', h')) :
    h'.path = h.path ∧ files' = files ∧ (h'.state = .published → h.state = .published) := by
  unfold ArtifactStore.publish at hp
  split at hp
  · cases hp
    exact ⟨rfl, rfl, id⟩
  · split at hp
    · cases hp
      exact ⟨rfl, rfl, id⟩
    · split at hp
      · cases hp
        exact ⟨rfl, rfl, id⟩
      · split at hp
        · cases hp
          exact ⟨rfl, rfl, id⟩
        · split at hp
          · cases hp
            exact ⟨rfl, rfl, fun hstate => by cases hstate⟩
          · cases hp

theorem sessionBytes_snoc {record : ArtifactRow} (h : db'.artifacts.rows = db.artifacts.rows ++ [record]) (sid : String) :
    sessionBytes db' sid = sessionBytes db sid + if record.sessionId = sid then record.sizeBytes else 0 := by
  unfold sessionBytes
  rw [h, List.filter_append, List.map_append, List.sum_append]
  by_cases hsid : record.sessionId = sid <;> simp [hsid]

/-- A row was added, at the path of the handle, as its file was linked. -/
structure Adds (R : ArtifactRepo) (db db' : Db) (files files' : ArtifactFiles) (s s' : StagedArtifact) : Prop
    extends Links R files files' s s' where
  added : ∃ record, db'.artifacts.rows = db.artifacts.rows ++ [record] ∧ record.path = s.handle.path ∧
    record.sizeBytes = s.handle.sizeBytes ∧ record.sha256 = s.handle.sha256 ∧
    sessionBytes db record.sessionId + record.sizeBytes ≤ R.limits.maxSessionArtifactBytes

/-- Nothing was written, and the handle does not stand for the file. -/
structure Finds (db db' : Db) (files files' : ArtifactFiles) (s' : StagedArtifact) : Prop where
  db : db' = db
  files : files' = files
  discarded : ¬ s'.Published

/-- A publication that raises may have linked the file, and else has done nothing. -/
def Fails (R : ArtifactRepo) (files files' : ArtifactFiles) (s s' : StagedArtifact) : Prop :=
  Links R files files' s s' ∨ files' = files ∧ (s'.Published → s.Published)

theorem checkQuota_ok {record : ArtifactRow} (h : R.checkQuota db record = .ok ()) :
    sessionBytes db record.sessionId + record.sizeBytes ≤ R.limits.maxSessionArtifactBytes := by
  by_contra hover
  simp only [checkQuota] at h
  split at h
  · cases h
  · simp [Nat.lt_of_not_le hover] at h

theorem publishAndInsert_ok {record : ArtifactRow} (hpath : record.path = s.handle.path)
    (hsize : record.sizeBytes = s.handle.sizeBytes) (hsha : record.sha256 = s.handle.sha256)
    (hquota : R.checkQuota db record = .ok ()) (h : R.publishAndInsert db files s record = (.ok (created, db'), files', s')) :
    s'.handle.path = s.handle.path ∧ Adds R db db' files files' s s' := by
  unfold publishAndInsert at h
  rcases hp : R.store.publish files s.handle with ⟨⟨e⟩ | ⟨⟨⟩⟩, files₁, handle⟩
  · simp only [hp] at h
    cases h
  · simp only [hp] at h
    obtain ⟨hsame, hfree, hstate, hlinked⟩ := publish_ok hp
    split at h
    · cases h
    · next t ht =>
      cases h
      exact ⟨hsame, ⟨hfree, hstate, hlinked⟩, record, (Table.insert_eq_some ht).1, hpath, hsize, hsha, checkQuota_ok hquota⟩

theorem publishAndInsert_error {record : ArtifactRow} (h : R.publishAndInsert db files s record = (.error e, files', s')) :
    s'.handle.path = s.handle.path ∧ Fails R files files' s s' := by
  unfold publishAndInsert at h
  rcases hp : R.store.publish files s.handle with ⟨⟨e⟩ | ⟨⟨⟩⟩, files₁, handle⟩
  · simp only [hp] at h
    cases h
    obtain ⟨hsame, hfiles, hstate⟩ := publish_error hp
    exact ⟨hsame, .inr ⟨hfiles, hstate⟩⟩
  · simp only [hp] at h
    obtain ⟨hsame, hfree, hstate, hlinked⟩ := publish_ok hp
    split at h
    · cases h
      exact ⟨hsame, .inl ⟨hfree, hstate, hlinked⟩⟩
    · cases h

theorem checkStaged_ok (h : checkStaged planners db s = .ok ()) : s.record.path = s.handle.path ∧
    s.record.sizeBytes = s.handle.sizeBytes ∧ s.record.sha256 = s.handle.sha256 := by
  simp only [checkStaged] at h
  split at h
  · cases h
  · next hsame =>
    simp only [ne_eq, not_or, not_not] at hsame
    obtain ⟨hid, htype, hsha, hsize⟩ := hsame
    refine ⟨?_, hsize, hsha⟩
    rw [ArtifactRow.path, TempWriteResult.path, hid, htype]

theorem discardStaged_ok {h h' : TempWriteResult} (hd : ArtifactStore.discardStaged h = .ok h') :
    h'.path = h.path ∧ h'.state = .discarded := by
  unfold ArtifactStore.discardStaged at hd
  split at hd
  · cases hd
    exact ⟨rfl, rfl⟩
  · cases hd

theorem discarded_not_published {s : StagedArtifact} (h : s.handle.state = .discarded) : ¬ s.Published := by
  intro hp
  rw [StagedArtifact.Published, h] at hp
  cases hp

/-- A publication adds a row with its file, or finds both. -/
theorem publishNext_ok {kind : WriteKind}
    (h : ArtifactSystem.publishNext R kind planners db files s = (.ok (created, db'), files', s')) :
    s'.handle.path = s.handle.path ∧ (Adds R db db' files files' s s' ∨ Finds db db' files files' s') := by
  cases kind with
  | create =>
    simp only [ArtifactSystem.publishNext, createIn] at h
    split at h
    · cases h
    · next hchecks =>
      split at h
      · cases h
      · have hquota : R.checkQuota db (expected s) = .ok () := by
          cases howner : validateOwnerIn planners db s.record with
          | error e => simp [howner, bind, Except.bind] at hchecks
          | ok u => simpa [howner, bind, Except.bind] using hchecks
        obtain ⟨hpath, hadds⟩ := publishAndInsert_ok rfl rfl rfl hquota h
        exact ⟨hpath, .inl hadds⟩
  | publish allowExisting =>
    simp only [ArtifactSystem.publishNext, publishStagedIn] at h
    split at h
    · cases h
    · next hchecks =>
      obtain ⟨hpath, hsize, hsha⟩ := checkStaged_ok hchecks
      split at h
      · -- The row is there: the caller takes it and discards what it staged.
        split at h
        · cases h
        · split at h
          · cases h
          · split at h
            · cases h
            · split at h
              · cases h
              · split at h
                · cases h
                · next handle hdiscard =>
                  cases h
                  obtain ⟨hsame, hstate⟩ := discardStaged_ok hdiscard
                  exact ⟨hsame, .inr ⟨rfl, rfl, discarded_not_published hstate⟩⟩
      · split at h
        · cases h
        · next hquota =>
          obtain ⟨hsame, hadds⟩ := publishAndInsert_ok hpath hsize hsha hquota h
          exact ⟨hsame, .inl hadds⟩

theorem publishNext_error {kind : WriteKind}
    (h : ArtifactSystem.publishNext R kind planners db files s = (.error e, files', s')) :
    s'.handle.path = s.handle.path ∧ Fails R files files' s s' := by
  have hsame : ∀ {e' : ArtifactError}, ((.error e', files, s) : Published) = (.error e, files', s') →
      s'.handle.path = s.handle.path ∧ Fails R files files' s s' := by
    intro e' heq
    cases heq
    exact ⟨rfl, .inr ⟨rfl, id⟩⟩
  cases kind with
  | create =>
    simp only [ArtifactSystem.publishNext, createIn] at h
    split at h
    · exact hsame h
    · split at h
      · exact hsame h
      · exact publishAndInsert_error h
  | publish allowExisting =>
    simp only [ArtifactSystem.publishNext, publishStagedIn] at h
    split at h
    · exact hsame h
    · split at h
      · split at h
        · exact hsame h
        · split at h
          · exact hsame h
          · split at h
            · exact hsame h
            · split at h
              · exact hsame h
              · split at h
                · exact hsame h
                · cases h
      · split at h
        · exact hsame h
        · exact publishAndInsert_error h

end

/-! ## The law -/

namespace ArtifactSystem

/-- A database in which rows of the repository are seen: as committed, or by the open transaction. -/
def Sees (sys : ArtifactSystem) (db : Db) : Prop := db = sys.db ∨ ∃ i, sys.tx = some (i, db)

/-- There is a row for the path. -/
def Claims (sys : ArtifactSystem) (path : ArtifactPath) : Prop := ∃ db, sys.Sees db ∧ ∃ row ∈ db.artifacts.rows, row.path = path

/-- There is a committed row for the path, or an operation in progress answers for it. -/
def Covered (sys : ArtifactSystem) (path : ArtifactPath) : Prop :=
  (∃ row ∈ sys.db.artifacts.rows, row.path = path) ∨ ∃ i op, sys.ops i = some op ∧ op.Owns path

/-- Every row has its file, and no session exceeds its limit. -/
structure Sound (R : ArtifactRepo) (files : ArtifactFiles) (db : Db) : Prop where
  stored : ∀ row ∈ db.artifacts.rows, row.Stored R files
  within : ∀ sid, sessionBytes db sid ≤ R.limits.maxSessionArtifactBytes

/-- Rows and files agree: the committed rows have their files and stay within the limits, and a file has its row or an
operation in progress. -/
structure Agree (R : ArtifactRepo) (sys : ArtifactSystem) : Prop extends Sound R sys.files sys.db where
  covered : ∀ path, sys.files path ≠ none → sys.Covered path

/-- The rows of a transaction: those that are committed, and one for each file it published. -/
structure Writes (sys : ArtifactSystem) (db : Db) (done todo : List StagedArtifact) : Prop where
  committed : ∀ row ∈ sys.db.artifacts.rows, row ∈ db.artifacts.rows
  published : ∀ s ∈ done, s.Published → ∃ row ∈ db.artifacts.rows, row.path = s.handle.path
  staged : ∀ s ∈ todo, ¬ s.Published

structure Law (R : ArtifactRepo) (sys : ArtifactSystem) : Prop where
  sound : ∀ db, sys.Sees db → Sound R sys.files db
  covered : ∀ path, sys.files path ≠ none → sys.Covered path
  writes : ∀ i kind done todo, sys.ops i = some (.writing kind done todo) → ∃ db, sys.tx = some (i, db) ∧ sys.Writes db done todo
  staged : ∀ i kind artifacts, sys.ops i = some (.staged kind artifacts) → ∀ s ∈ artifacts, ¬ s.Published

theorem Law.agree {R : ArtifactRepo} {sys : ArtifactSystem} (h : Law R sys) : Agree R sys := ⟨h.sound _ (.inl rfl), h.covered⟩

/-- What happens outside the transactions runs into no row: an aborted publication or a deleted artifact has none of its
own path when its file is removed; and the row a deletion removes, or a reconciliation finds, is of the type it was
read or written with. -/
def Clear (sys : ArtifactSystem) : ArtifactEvent → Prop
  | .abort i => ∀ s rest, sys.ops i = some (.aborting (s :: rest)) → s.Published → ¬ sys.Claims s.handle.path
  | .unlink i => ∀ path, sys.ops i = some (.unlinking path) → ¬ sys.Claims path
  | .deleteRow i _ => ∀ record, sys.ops i = some (.deleting record) →
    ∀ row, sys.db.artifacts.get? record.id = some row → row.artifactType = record.artifactType
  | .reconcile i => ∀ s, sys.ops i = some (.reconciling s) →
    ∀ row, sys.db.artifacts.get? s.handle.artifactId = some row → row.artifactType = s.handle.artifactType
  | _ => True

/-- A step by an event that is allowed where it happens. -/
def Step (R : ArtifactRepo) (P : ArtifactSystem → ArtifactEvent → Prop) (sys sys' : ArtifactSystem) : Prop :=
  ∃ e, P sys e ∧ sys.step R e = some sys'

section
variable {R : ArtifactRepo} {sys sys' : ArtifactSystem} {i : Nat}

/-- Files at the paths of rows are left alone. -/
def Spares (sys : ArtifactSystem) (files' : ArtifactFiles) : Prop := ∀ path, sys.Claims path → files' path = sys.files path

theorem Spares.refl (sys : ArtifactSystem) : sys.Spares sys.files := fun _ _ => rfl

theorem Spares.update {path : ArtifactPath} {content : Option Bytes} (hfree : ¬ sys.Claims path) :
    sys.Spares (Function.update sys.files path content) := by
  intro p hp
  have hne : p ≠ path := by
    rintro rfl
    exact hfree hp
  rw [Function.update_of_ne hne]

theorem Sound.spared {files' : ArtifactFiles} {db : Db} (h : Sound R sys.files db) (hsees : sys.Sees db)
    (hspares : sys.Spares files') : Sound R files' db where
  stored row hrow := by
    obtain ⟨content, hfile, hfits⟩ := h.stored row hrow
    exact ⟨content, (hspares _ ⟨db, hsees, row, hrow, rfl⟩).trans hfile, hfits⟩
  within := h.within

/-- A path no row claims: nothing is there. -/
theorem Law.free (h : Law R sys) {path : ArtifactPath} (hfree : sys.files path = none) : ¬ sys.Claims path := by
  rintro ⟨db, hsees, row, hrow, rfl⟩
  obtain ⟨content, hfile, -⟩ := (h.sound db hsees).stored row hrow
  rw [hfree] at hfile
  cases hfile

/-- A path stays covered when its rows do and the one operation that moved still answers for it. -/
theorem Covered.of {path : ArtifactPath} (h : sys.Covered path) (hops : ∀ j, j ≠ i → sys'.ops j = sys.ops j)
    (hrows : ∀ row ∈ sys.db.artifacts.rows, row.path = path → sys'.Covered path)
    (hown : ∀ op, sys.ops i = some op → op.Owns path → sys'.Covered path) : sys'.Covered path := by
  rcases h with ⟨row, hrow, hpath⟩ | ⟨j, op, hop, howns⟩
  · exact hrows row hrow hpath
  · by_cases hj : j = i
    · subst hj
      exact hown op hop howns
    · exact .inr ⟨j, op, (hops j hj).trans hop, howns⟩

theorem setOp_self {op : Option ArtifactOp} : (sys.setOp i op).ops i = op := Function.update_self ..

theorem setOp_ne {op : Option ArtifactOp} {j : Nat} (hj : j ≠ i) : (sys.setOp i op).ops j = sys.ops j := Function.update_of_ne hj ..

/-- Only the operation `i` moved, and either the transaction stayed as it was or no other operation is in one. -/
theorem Law.of (h : Law R sys) (hops : ∀ j, j ≠ i → sys'.ops j = sys.ops j) (hsound : ∀ db, sys'.Sees db → Sound R sys'.files db)
    (hcovered : ∀ path, sys'.files path ≠ none → sys'.Covered path)
    (hheld : (sys'.tx = sys.tx ∧ sys'.db = sys.db) ∨ sys.tx = none ∨ ∃ db, sys.tx = some (i, db))
    (hself : ∀ kind done todo, sys'.ops i = some (.writing kind done todo) → ∃ db, sys'.tx = some (i, db) ∧ sys'.Writes db done todo)
    (hstaged : ∀ kind artifacts, sys'.ops i = some (.staged kind artifacts) → ∀ s ∈ artifacts, ¬ s.Published) : Law R sys' where
  sound := hsound
  covered := hcovered
  writes j kind done todo hj := by
    by_cases hji : j = i
    · subst hji
      exact hself kind done todo hj
    · rw [hops j hji] at hj
      obtain ⟨db, htx, hwrites⟩ := h.writes j kind done todo hj
      rcases hheld with ⟨hsame, hdb⟩ | hnone | ⟨db', hi⟩
      · exact ⟨db, hsame.trans htx, by rw [hdb]; exact hwrites.committed, hwrites.published, hwrites.staged⟩
      · rw [hnone] at htx
        cases htx
      · rw [hi] at htx
        exact absurd (Prod.mk.inj (Option.some.inj htx)).1.symm hji
  staged j kind artifacts hj := by
    by_cases hji : j = i
    · subst hji
      exact hstaged kind artifacts hj
    · rw [hops j hji] at hj
      exact h.staged j kind artifacts hj

/-- The operation is in no transaction and holds nothing that was not staged. -/
def Apart (op : Option ArtifactOp) : Prop :=
  (∀ kind done todo, op ≠ some (.writing kind done todo)) ∧
    ∀ kind artifacts, op = some (.staged kind artifacts) → ∀ s ∈ artifacts, ¬ s.Published

/-- An operation moves outside the transactions. Files may be removed that no row claims. -/
theorem Law.moved (h : Law R sys) {op : Option ArtifactOp} {files' : ArtifactFiles} (hspares : sys.Spares files')
    (hless : ∀ path, files' path ≠ none → sys.files path ≠ none)
    (hown : ∀ path, files' path ≠ none → ∀ old, sys.ops i = some old → old.Owns path → ∃ new, op = some new ∧ new.Owns path)
    (hapart : Apart op) : Law R { sys.setOp i op with files := files' } := by
  refine h.of (i := i) (fun j hj => setOp_ne hj) (fun db hsees => ?_) (fun path hpath => ?_) (.inl ⟨rfl, rfl⟩) ?_ ?_
  · exact (h.sound db hsees).spared hsees hspares
  · refine (h.covered path (hless path hpath)).of (i := i) (fun j hj => setOp_ne hj) (fun row hrow hp => .inl ⟨row, hrow, hp⟩)
      fun old hold howns => ?_
    obtain ⟨new, rfl, hnew⟩ := hown path hpath old hold howns
    exact .inr ⟨i, new, setOp_self, hnew⟩
  · intro kind done todo hi
    exact absurd (setOp_self.symm.trans hi) (hapart.1 kind done todo)
  · intro kind artifacts hi
    exact hapart.2 kind artifacts (setOp_self.symm.trans hi)

/-! ## Outside the transactions -/

theorem stage_ok {new : NewArtifact} {s : StagedArtifact} (h : R.stage new = .ok s) : ¬ s.Published := by
  simp only [stage, ArtifactStore.writeTemp] at h
  split at h
  · cases h
  · split at h
    · cases h
    · cases h
      intro hp
      cases hp

theorem stage_all {new : List NewArtifact} {artifacts : List StagedArtifact} (h : new.mapM R.stage = .ok artifacts) :
    ∀ s ∈ artifacts, ¬ s.Published := by
  induction new generalizing artifacts with
  | nil =>
    cases h
    intro s hs
    cases hs
  | cons new rest ih =>
    rw [List.mapM_cons] at h
    cases hs : R.stage new with
    | error e =>
      rw [hs] at h
      cases h
    | ok s =>
      rw [hs] at h
      cases hl : rest.mapM R.stage with
      | error e =>
        simp only [hl, bind, Except.bind] at h
        cases h
      | ok l =>
        simp only [hl, bind, Except.bind] at h
        cases h
        exact List.forall_mem_cons.2 ⟨stage_ok hs, ih hl⟩

theorem apart_none : Apart none := by simp [Apart]

/-- An operation that owns nothing moves, and the files stay. -/
theorem Law.moved_still (h : Law R sys) {op : Option ArtifactOp} (hapart : Apart op)
    (hnone : ∀ old, sys.ops i = some old → ∀ path, ¬ old.Owns path) : Law R (sys.setOp i op) :=
  h.moved (Spares.refl sys) (fun _ h => h) (fun path _ old hold howns => absurd howns (hnone old hold path)) hapart

/-- A removal at a path no row claims. -/
theorem removed {path p : ArtifactPath} {files : ArtifactFiles} (h : Function.update files path none p ≠ none) :
    p ≠ path ∧ files p ≠ none := by
  have hne : p ≠ path := by
    rintro rfl
    exact h (Function.update_self ..)
  rw [Function.update_of_ne hne] at h
  exact ⟨hne, h⟩

/-- What an abort removes: the file of a published handle. -/
theorem abort_cases (files : ArtifactFiles) (handle : TempWriteResult) :
    (handle.state = .published ∧ (ArtifactStore.abort files handle).2.1 = Function.update files handle.path none) ∨
      (handle.state ≠ .published ∧ (ArtifactStore.abort files handle).2.1 = files) := by
  unfold ArtifactStore.abort
  split
  · next h => exact .inr ⟨by simp [h], rfl⟩
  · next h => exact .inr ⟨by simp [h], rfl⟩
  · next h => exact .inl ⟨h, rfl⟩
  · next h => exact .inr ⟨by simp [h], rfl⟩
  · next h => exact .inr ⟨by simp [h], rfl⟩

theorem Law.aborted (h : Law R sys) {s : StagedArtifact} {rest : List StagedArtifact} (hop : sys.ops i = some (.aborting (s :: rest)))
    (hclear : s.Published → ¬ sys.Claims s.handle.path) :
    sys.Spares (ArtifactStore.abort sys.files s.handle).2.1 ∧
      Law R { sys.setOp i (some (.aborting rest)) with files := (ArtifactStore.abort sys.files s.handle).2.1 } := by
  have hapart : Apart (some (ArtifactOp.aborting rest)) := by simp [Apart]
  have howns : ∀ path, ArtifactOp.Owns path (.aborting (s :: rest)) →
      s.Published ∧ s.handle.path = path ∨ ArtifactOp.Owns path (.aborting rest) := by
    rintro path ⟨s', hs', hpub, hpath⟩
    rcases List.mem_cons.1 hs' with rfl | hs'
    · exact .inl ⟨hpub, hpath⟩
    · exact .inr ⟨s', hs', hpub, hpath⟩
  rcases abort_cases sys.files s.handle with ⟨hpub, hfiles⟩ | ⟨hnot, hfiles⟩
  · rw [hfiles]
    refine ⟨.update (hclear hpub), h.moved (.update (hclear hpub)) (fun path hpath => (removed hpath).2)
      (fun path hpath old hold ho => ?_) hapart⟩
    obtain rfl := Option.some.inj (hop.symm.trans hold)
    rcases howns path ho with ⟨-, heq⟩ | ho
    · exact absurd heq.symm (removed hpath).1
    · exact ⟨_, rfl, ho⟩
  · rw [hfiles]
    refine ⟨.refl sys, h.moved (Spares.refl sys) (fun _ hpath => hpath) (fun path _ old hold ho => ?_) hapart⟩
    obtain rfl := Option.some.inj (hop.symm.trans hold)
    rcases howns path ho with ⟨hpub, -⟩ | ho
    · exact absurd hpub hnot
    · exact ⟨_, rfl, ho⟩

theorem Law.unlinked (h : Law R sys) {path : ArtifactPath} (hop : sys.ops i = some (.unlinking path))
    (hclear : ¬ sys.Claims path) : Law R { sys.setOp i none with files := ArtifactStore.delete sys.files path } := by
  refine h.moved (.update hclear) (fun p hp => (removed hp).2) (fun p hp old hold ho => ?_) apart_none
  obtain rfl := Option.some.inj (hop.symm.trans hold)
  exact absurd ho.symm (removed hp).1

theorem Law.reconciled (h : Law R sys) {s : StagedArtifact} (hop : sys.ops i = some (.reconciling s)) (htx : sys.tx = none)
    (hclear : ∀ row, sys.db.artifacts.get? s.handle.artifactId = some row → row.artifactType = s.handle.artifactType) :
    sys.Spares (R.reconcileCreateCommit sys.db sys.files s).2 ∧
      Law R { sys.setOp i none with files := (R.reconcileCreateCommit sys.db sys.files s).2 } := by
  cases hget : sys.db.artifacts.get? s.handle.artifactId with
  | none =>
    -- No row has the id, so removing the file of the handle spares the rows.
    have hfree : ¬ sys.Claims s.handle.path := by
      rintro ⟨db, rfl | ⟨j, hj⟩, row, hrow, hpath⟩
      · have hid : row.id = s.handle.artifactId := (ArtifactPath.mk.inj hpath).2
        rw [← hid, Table.get?_of_mem hrow] at hget
        cases hget
      · rw [htx] at hj
        cases hj
    have hfiles : (R.reconcileCreateCommit sys.db sys.files s).2 = (ArtifactStore.abort sys.files s.handle).2.1 := by
      unfold reconcileCreateCommit
      simp only [hget]
      split <;> simp_all
    rw [hfiles]
    rcases abort_cases sys.files s.handle with ⟨hpub, habort⟩ | ⟨hnot, habort⟩
    · rw [habort]
      refine ⟨.update hfree, h.moved (.update hfree) (fun p hp => (removed hp).2) (fun p hp old hold ho => ?_) apart_none⟩
      obtain rfl := Option.some.inj (hop.symm.trans hold)
      exact absurd ho.2.symm (removed hp).1
    · rw [habort]
      refine ⟨.refl sys, h.moved (.refl sys) (fun _ hp => hp) (fun p _ old hold ho => ?_) apart_none⟩
      obtain rfl := Option.some.inj (hop.symm.trans hold)
      exact absurd ho.1 hnot
  | some row =>
    have hfiles : (R.reconcileCreateCommit sys.db sys.files s).2 = sys.files := by
      unfold reconcileCreateCommit
      simp only [hget]
      split
      · rfl
      · split
        · rfl
        · split
          · rfl
          · split <;> rfl
    rw [hfiles]
    refine ⟨.refl sys, h.of (i := i) (fun j hj => setOp_ne hj) (fun db hsees => h.sound db hsees) (fun path hpath => ?_)
      (.inl ⟨rfl, rfl⟩) (fun _ _ _ hi => ?_) fun _ _ hi => ?_⟩
    · refine (h.covered path hpath).of (i := i) (fun j hj => setOp_ne hj) (fun row hrow hp => .inl ⟨row, hrow, hp⟩) ?_
      intro old hold ho
      obtain rfl := Option.some.inj (hop.symm.trans hold)
      -- The row found is of the path of the handle.
      refine .inl ⟨row, Table.mem_of_get? hget, ?_⟩
      rw [← ho.2, ArtifactRow.path, TempWriteResult.path, hclear row hget, Table.get?_key hget]
    · cases setOp_self.symm.trans hi
    · cases setOp_self.symm.trans hi

/-! ## Transactions -/

theorem Law.begun (h : Law R sys) {kind : WriteKind} {artifacts : List StagedArtifact}
    (hop : sys.ops i = some (.staged kind artifacts)) (htx : sys.tx = none) :
    Law R { sys.setOp i (some (.writing kind [] artifacts)) with tx := some (i, sys.db) } := by
  refine h.of (i := i) (fun j hj => setOp_ne hj) (fun db hsees => ?_) (fun path hpath => ?_) (.inr (.inl htx)) ?_ ?_
  · rcases hsees with rfl | ⟨j, hj⟩
    · exact h.sound _ (.inl rfl)
    · obtain ⟨-, rfl⟩ := Prod.mk.inj (Option.some.inj hj)
      exact h.sound _ (.inl rfl)
  · refine (h.covered path hpath).of (i := i) (fun j hj => setOp_ne hj) (fun row hrow hp => .inl ⟨row, hrow, hp⟩) ?_
    intro old hold ho
    obtain rfl := Option.some.inj (hop.symm.trans hold)
    cases ho
  · intro kind' done todo hi
    obtain ⟨rfl, rfl, rfl⟩ := ArtifactOp.writing.inj (Option.some.inj (setOp_self.symm.trans hi))
    exact ⟨_, rfl, fun _ hrow => hrow, by simp, h.staged i _ _ hop⟩
  · intro kind' artifacts' hi
    cases Option.some.inj (setOp_self.symm.trans hi)

/-- What a transaction published it answers for after it has raised. -/
theorem raised_owns {kind : WriteKind} {done todo : List StagedArtifact} {s : StagedArtifact} (hs : s ∈ done ++ todo)
    (hpub : s.Published) : (raised kind done todo).Owns s.handle.path := by
  unfold raised
  split
  · next x hx =>
    rw [hx, List.mem_singleton] at hs
    subst hs
    rw [if_pos hpub]
    exact ⟨hpub, rfl⟩
  · refine ⟨s, ?_, hpub, rfl⟩
    rw [List.mem_append] at hs ⊢
    rw [List.mem_reverse]
    exact hs.symm

theorem raised_apart (kind : WriteKind) (done todo : List StagedArtifact) : Apart (some (raised kind done todo)) := by
  unfold raised
  split
  · split <;> simp [Apart]
  · simp [Apart]

/-- The open transaction is the one of the operation that is writing. -/
theorem Law.holds (h : Law R sys) {kind : WriteKind} {done todo : List StagedArtifact}
    (hop : sys.ops i = some (.writing kind done todo)) {j : Nat} {db : Db} (htx : sys.tx = some (j, db)) :
    j = i ∧ sys.Sees db ∧ sys.Writes db done todo := by
  obtain ⟨db', hi, hwrites⟩ := h.writes i kind done todo hop
  rw [htx] at hi
  obtain ⟨rfl, rfl⟩ := Prod.mk.inj (Option.some.inj hi)
  exact ⟨rfl, .inr ⟨j, htx⟩, hwrites⟩

/-- A transaction raises: what it published stays with the operation. -/
theorem Law.rolledBack (h : Law R sys) {kind : WriteKind} {done todo todo' : List StagedArtifact} {files' : ArtifactFiles}
    (hop : sys.ops i = some (.writing kind done todo)) (hspares : sys.Spares files')
    (hnew : ∀ path, files' path ≠ none → sys.files path ≠ none ∨ ∃ s ∈ done ++ todo', s.Published ∧ s.handle.path = path)
    (hkept : ∀ s ∈ done ++ todo, s.Published → ∃ s' ∈ done ++ todo', s'.Published ∧ s'.handle.path = s.handle.path) :
    Law R { sys.setOp i (some (raised kind done todo')) with tx := none, files := files' } := by
  obtain ⟨db, htx, -⟩ := h.writes i kind done todo hop
  have howns : ∀ path, (∃ s ∈ done ++ todo', s.Published ∧ s.handle.path = path) → (raised kind done todo').Owns path := by
    rintro _ ⟨s, hs, hpub, rfl⟩
    exact raised_owns hs hpub
  refine h.of (i := i) (fun j hj => setOp_ne hj) (fun db' hsees => ?_) (fun path hpath => ?_) (.inr (.inr ⟨db, htx⟩)) ?_ ?_
  · rcases hsees with rfl | ⟨j, hj⟩
    · exact (h.sound _ (.inl rfl)).spared (.inl rfl) hspares
    · cases hj
  · rcases hnew path hpath with hold | hown
    · refine (h.covered path hold).of (i := i) (fun j hj => setOp_ne hj) (fun row hrow hp => .inl ⟨row, hrow, hp⟩) ?_
      intro old hi ho
      obtain rfl := Option.some.inj (hop.symm.trans hi)
      obtain ⟨s, hs, hpub, rfl⟩ := ho
      exact .inr ⟨i, _, setOp_self, howns _ (hkept s hs hpub)⟩
    · exact .inr ⟨i, _, setOp_self, howns path hown⟩
  · intro kind' done' todo'' hi
    exact absurd (setOp_self.symm.trans hi) ((raised_apart kind done todo').1 kind' done' todo'')
  · intro kind' artifacts hi
    exact (raised_apart kind done todo').2 kind' artifacts (setOp_self.symm.trans hi)

theorem Law.raised (h : Law R sys) {kind : WriteKind} {done todo : List StagedArtifact}
    (hop : sys.ops i = some (.writing kind done todo)) :
    Law R { sys.setOp i (some (raised kind done todo)) with tx := none } :=
  h.rolledBack hop (.refl sys) (fun _ hpath => .inl hpath) fun s hs hpub => ⟨s, hs, hpub, rfl⟩

theorem Law.publishFailed (h : Law R sys) {kind : WriteKind} {done todo : List StagedArtifact} {s s' : StagedArtifact}
    {files' : ArtifactFiles} (hop : sys.ops i = some (.writing kind done (s :: todo))) (hpath : s'.handle.path = s.handle.path)
    (hfails : Fails R sys.files files' s s') :
    sys.Spares files' ∧ Law R { sys.setOp i (some (ArtifactSystem.raised kind done (s' :: todo))) with tx := none, files := files' } := by
  obtain ⟨db, htx, hwrites⟩ := h.writes i kind done (s :: todo) hop
  have hunpublished : ¬ s.Published := hwrites.staged s List.mem_cons_self
  have hmem : ∀ x, x ∈ done ++ todo → x ∈ done ++ s' :: todo := by
    intro x hx
    rw [List.mem_append] at hx ⊢
    exact hx.imp_right (List.mem_cons_of_mem _)
  have hkept : ∀ x ∈ done ++ s :: todo, x.Published → ∃ x' ∈ done ++ s' :: todo, x'.Published ∧ x'.handle.path = x.handle.path := by
    intro x hx hpub
    rcases List.mem_append.1 hx with hx | hx
    · exact ⟨x, hmem x (List.mem_append_left _ hx), hpub, rfl⟩
    · rcases List.mem_cons.1 hx with rfl | hx
      · exact absurd hpub hunpublished
      · exact ⟨x, hmem x (List.mem_append_right _ hx), hpub, rfl⟩
  rcases hfails with hlinks | ⟨rfl, -⟩
  · obtain ⟨content, rfl, -⟩ := hlinks.linked
    have hspares : sys.Spares (Function.update sys.files s.handle.path (some content)) := .update (h.free hlinks.free)
    refine ⟨hspares, h.rolledBack hop hspares (fun path hp => ?_) hkept⟩
    by_cases heq : path = s.handle.path
    · exact .inr ⟨s', List.mem_append_right _ List.mem_cons_self, hlinks.published, hpath.trans heq.symm⟩
    · rw [Function.update_of_ne heq] at hp
      exact .inl hp
  · exact ⟨.refl sys, h.rolledBack hop (.refl sys) (fun _ hp => .inl hp) hkept⟩

/-- A row that comes in with its file, within the limit. -/
theorem Sound.add {db db' : Db} {s s' : StagedArtifact} {files' : ArtifactFiles} (h : Sound R sys.files db) (hsees : sys.Sees db)
    (hspares : sys.Spares files') (hadds : Adds R db db' sys.files files' s s') : Sound R files' db' := by
  obtain ⟨record, hrows, hpath, hsize, hsha, hquota⟩ := hadds.added
  obtain ⟨content, rfl, hlength, hdigest⟩ := hadds.linked
  refine ⟨fun row hrow => ?_, fun sid => ?_⟩
  · rw [hrows, List.mem_append, List.mem_singleton] at hrow
    rcases hrow with hrow | rfl
    · exact (h.spared hsees hspares).stored row hrow
    · exact ⟨content, by rw [hpath, Function.update_self], hlength.trans hsize.symm, hdigest.trans hsha.symm⟩
  · rw [sessionBytes_snoc hrows]
    split
    · next hsid =>
      subst hsid
      exact hquota
    · exact h.within sid

theorem Law.published (h : Law R sys) {kind : WriteKind} {done todo : List StagedArtifact} {s s' : StagedArtifact} {j : Nat}
    {db db' : Db} {files' : ArtifactFiles} (hop : sys.ops i = some (.writing kind done (s :: todo))) (htx : sys.tx = some (j, db))
    (hpath : s'.handle.path = s.handle.path)
    (hcase : Adds R db db' sys.files files' s s' ∨ Finds db db' sys.files files' s') :
    sys.Spares files' ∧
      Law R { sys.setOp i (some (.writing kind (s' :: done) todo)) with tx := some (i, db'), files := files' } := by
  obtain ⟨rfl, hsees, hwrites⟩ := h.holds hop htx
  have hunpublished : ¬ s.Published := hwrites.staged s List.mem_cons_self
  have hspares : sys.Spares files' := by
    rcases hcase with hadds | hfinds
    · obtain ⟨content, rfl, -⟩ := hadds.linked
      exact .update (h.free hadds.free)
    · rw [hfinds.files]
      exact .refl sys
  have hsound : Sound R files' db' := by
    rcases hcase with hadds | hfinds
    · exact (h.sound db hsees).add hsees hspares hadds
    · rw [hfinds.db]
      exact (h.sound db hsees).spared hsees hspares
  have hrows : ∀ row ∈ db.artifacts.rows, row ∈ db'.artifacts.rows := by
    rcases hcase with hadds | hfinds
    · obtain ⟨record, hadded, -⟩ := hadds.added
      intro row hrow
      rw [hadded]
      exact List.mem_append_left _ hrow
    · rw [hfinds.db]
      exact fun _ hrow => hrow
  refine ⟨hspares, h.of (i := j) (fun k hk => setOp_ne hk) (fun d hd => ?_) (fun path hp => ?_) (.inr (.inr ⟨db, htx⟩)) ?_ ?_⟩
  · rcases hd with rfl | ⟨k, hk⟩
    · exact (h.sound _ (.inl rfl)).spared (.inl rfl) hspares
    · obtain ⟨-, rfl⟩ := Prod.mk.inj (Option.some.inj hk)
      exact hsound
  · change files' path ≠ none at hp
    have hold : sys.files path ≠ none → Covered
        { sys.setOp j (some (.writing kind (s' :: done) todo)) with tx := some (j, db'), files := files' } path := by
      intro hfile
      refine (h.covered path hfile).of (i := j) (fun k hk => setOp_ne hk) (fun row hrow hp => .inl ⟨row, hrow, hp⟩) ?_
      intro old hi ho
      obtain rfl := Option.some.inj (hop.symm.trans hi)
      obtain ⟨x, hx, hpub, hxpath⟩ := ho
      refine .inr ⟨j, _, setOp_self, x, ?_, hpub, hxpath⟩
      rcases List.mem_append.1 hx with hx | hx
      · exact List.mem_append_left _ (List.mem_cons_of_mem _ hx)
      · rcases List.mem_cons.1 hx with rfl | hx
        · exact absurd hpub hunpublished
        · exact List.mem_append_right _ hx
    rcases hcase with hadds | hfinds
    · obtain ⟨content, rfl, -⟩ := hadds.linked
      by_cases heq : path = s.handle.path
      · exact .inr ⟨j, _, setOp_self, s', List.mem_append_left _ List.mem_cons_self, hadds.published, hpath.trans heq.symm⟩
      · rw [Function.update_of_ne heq] at hp
        exact hold hp
    · rw [hfinds.files] at hp
      exact hold hp
  · intro kind' done' todo' hi
    obtain ⟨rfl, rfl, rfl⟩ := ArtifactOp.writing.inj (Option.some.inj (setOp_self.symm.trans hi))
    refine ⟨db', rfl, fun row hrow => hrows row (hwrites.committed row hrow), fun x hx hpub => ?_, fun x hx => ?_⟩
    · rcases List.mem_cons.1 hx with rfl | hx
      · rcases hcase with hadds | hfinds
        · obtain ⟨record, hadded, hrecord, -⟩ := hadds.added
          refine ⟨record, ?_, hrecord.trans hpath.symm⟩
          rw [hadded]
          exact List.mem_append_right _ (List.mem_singleton_self _)
        · exact absurd hpub hfinds.discarded
      · obtain ⟨row, hrow, hrowpath⟩ := hwrites.published x hx hpub
        exact ⟨row, hrows row hrow, hrowpath⟩
    · exact hwrites.staged x (List.mem_cons_of_mem _ hx)
  · intro kind' artifacts hi
    cases Option.some.inj (setOp_self.symm.trans hi)

theorem Law.stated (h : Law R sys) {kind : WriteKind} {done todo : List StagedArtifact} {j : Nat} {db db' : Db}
    (hop : sys.ops i = some (.writing kind done todo)) (htx : sys.tx = some (j, db))
    (hrows : db'.artifacts.rows = db.artifacts.rows) : Law R { sys with tx := some (i, db') } := by
  obtain ⟨rfl, hsees, hwrites⟩ := h.holds hop htx
  refine h.of (i := j) (fun _ _ => rfl) (fun d hd => ?_) h.covered (.inr (.inr ⟨db, htx⟩)) ?_ (h.staged j)
  · rcases hd with rfl | ⟨k, hk⟩
    · exact h.sound _ (.inl rfl)
    · obtain ⟨-, rfl⟩ := Prod.mk.inj (Option.some.inj hk)
      have hsound := h.sound db hsees
      refine ⟨fun row hrow => hsound.stored row (hrows ▸ hrow), fun sid => ?_⟩
      rw [sessionBytes, hrows]
      exact hsound.within sid
  · intro kind' done' todo' hi
    obtain ⟨rfl, rfl, rfl⟩ := ArtifactOp.writing.inj (Option.some.inj (hop.symm.trans hi))
    refine ⟨db', rfl, ?_, ?_, hwrites.staged⟩
    · rw [hrows]
      exact hwrites.committed
    · rw [hrows]
      exact hwrites.published

/-- A transaction ends with everything published: it is committed, or was rolled back and its operation still answers for
the file. -/
theorem Law.closed (h : Law R sys) {kind : WriteKind} {done : List StagedArtifact} {db' : Db} {op : ArtifactOp}
    (hop : sys.ops i = some (.writing kind done [])) (hsees : sys.Sees db')
    (hrows : ∀ row ∈ sys.db.artifacts.rows, row ∈ db'.artifacts.rows)
    (hown : ∀ s ∈ done, s.Published → (∃ row ∈ db'.artifacts.rows, row.path = s.handle.path) ∨ op.Owns s.handle.path)
    (hapart : Apart (some op)) : Law R { sys.setOp i (some op) with db := db', tx := none } := by
  obtain ⟨db, htx, -⟩ := h.writes i kind done [] hop
  refine h.of (i := i) (fun k hk => setOp_ne hk) (fun d hd => ?_) (fun path hp => ?_) (.inr (.inr ⟨db, htx⟩)) ?_ ?_
  · rcases hd with rfl | ⟨k, hk⟩
    · exact h.sound _ hsees
    · cases hk
  · refine (h.covered path hp).of (i := i) (fun k hk => setOp_ne hk) (fun row hrow hp => .inl ⟨row, hrows row hrow, hp⟩) ?_
    intro old hi ho
    obtain rfl := Option.some.inj (hop.symm.trans hi)
    obtain ⟨s, hs, hpub, rfl⟩ := ho
    rw [List.append_nil] at hs
    rcases hown s hs hpub with hrow | hop'
    · exact .inl hrow
    · exact .inr ⟨i, op, setOp_self, hop'⟩
  · intro kind' done' todo hi
    exact absurd (setOp_self.symm.trans hi) (hapart.1 kind' done' todo)
  · intro kind' artifacts hi
    exact hapart.2 kind' artifacts (setOp_self.symm.trans hi)

theorem sessionBytes_sublist {db db' : Db} (h : db'.artifacts.rows.Sublist db.artifacts.rows) (sid : String) :
    sessionBytes db' sid ≤ sessionBytes db sid :=
  ((h.filter _).map _).sum_le_sum fun _ _ => Nat.zero_le _

/-- A deletion removes a row of the type it has read: its file now belongs to the deletion. -/
theorem Law.deleted (h : Law R sys) {record : ArtifactRow} (hop : sys.ops i = some (.deleting record)) (htx : sys.tx = none)
    (hclear : ∀ row, sys.db.artifacts.get? record.id = some row → row.artifactType = record.artifactType) :
    Law R { sys.setOp i (some (.unlinking record.path)) with
      db := { sys.db with artifacts := sys.db.artifacts.delete fun a => a.id = record.id } } := by
  have hsub : (sys.db.artifacts.delete fun a => a.id = record.id).rows.Sublist sys.db.artifacts.rows := List.filter_sublist
  have hsound := h.sound _ (.inl rfl)
  refine h.of (i := i) (fun k hk => setOp_ne hk) (fun d hd => ?_) (fun path hp => ?_) (.inr (.inl htx)) ?_ ?_
  · rcases hd with rfl | ⟨k, hk⟩
    · exact ⟨fun row hrow => hsound.stored row (hsub.subset hrow),
        fun sid => Nat.le_trans (sessionBytes_sublist hsub sid) (hsound.within sid)⟩
    · cases htx.symm.trans hk
  · refine (h.covered path hp).of (i := i) (fun k hk => setOp_ne hk) (fun row hrow hpath => ?_) ?_
    · by_cases hid : row.id = record.id
      · -- The row that goes: the deletion answers for its path.
        refine .inr ⟨i, _, setOp_self, ?_⟩
        have htype := hclear row (hid ▸ Table.get?_of_mem hrow)
        rw [← hpath, ArtifactRow.path, hid, htype]
        exact rfl
      · refine .inl ⟨row, List.mem_filter.2 ⟨hrow, by simpa using hid⟩, hpath⟩
    · intro old hi ho
      obtain rfl := Option.some.inj (hop.symm.trans hi)
      cases ho
  · intro kind done todo hi
    cases Option.some.inj (setOp_self.symm.trans hi)
  · intro kind artifacts hi
    cases Option.some.inj (setOp_self.symm.trans hi)

theorem sessionBytes_columns {db db' : Db} (h : artifactColumns db' = artifactColumns db) (sid : String) :
    sessionBytes db' sid = sessionBytes db sid := by
  have hsum : ∀ d : Db, sessionBytes d sid =
      (((artifactColumns d).filter fun c => c.2.1 = sid).map fun c => c.2.2.2.2).sum := by
    intro d
    rw [artifactColumns, List.filter_map, List.map_map]
    rfl
  rw [hsum, hsum, h]

theorem column_mem {db db' : Db} (h : artifactColumns db' = artifactColumns db) {row : ArtifactRow}
    (hrow : row ∈ db'.artifacts.rows) :
    ∃ row₀ ∈ db.artifacts.rows, row₀.path = row.path ∧ row₀.sha256 = row.sha256 ∧ row₀.sizeBytes = row.sizeBytes := by
  have hmem := List.mem_map_of_mem (f := fun a : ArtifactRow => (a.id, a.sessionId, a.artifactType, a.sha256, a.sizeBytes)) hrow
  change _ ∈ artifactColumns db' at hmem
  rw [h] at hmem
  obtain ⟨row₀, hrow₀, heq⟩ := List.mem_map.1 hmem
  simp only [Prod.mk.injEq] at heq
  obtain ⟨hid, -, htype, hsha, hsize⟩ := heq
  exact ⟨row₀, hrow₀, by rw [ArtifactRow.path, ArtifactRow.path, hid, htype], hsha, hsize⟩

/-- The rest of the program keeps the columns of the repository. -/
theorem Law.otherwise (h : Law R sys) {db' : Db} (htx : sys.tx = none) (hcolumns : artifactColumns db' = artifactColumns sys.db) :
    Law R { sys with db := db' } := by
  have hsound := h.sound _ (.inl rfl)
  refine h.of (i := 0) (fun _ _ => rfl) (fun d hd => ?_) (fun path hp => ?_) (.inr (.inl htx)) (fun kind done todo hi => ?_) (h.staged 0)
  · rcases hd with rfl | ⟨k, hk⟩
    · refine ⟨fun row hrow => ?_, fun sid => ?_⟩
      · obtain ⟨row₀, hrow₀, hpath, hsha, hsize⟩ := column_mem hcolumns hrow
        obtain ⟨content, hfile, hlength, hdigest⟩ := hsound.stored row₀ hrow₀
        exact ⟨content, hpath ▸ hfile, hlength.trans hsize, hdigest.trans hsha⟩
      · rw [sessionBytes_columns hcolumns]
        exact hsound.within sid
    · cases htx.symm.trans hk
  · rcases h.covered path hp with ⟨row, hrow, hpath⟩ | ⟨k, op, hop, howns⟩
    · obtain ⟨row', hrow', hsame, -⟩ := column_mem hcolumns.symm hrow
      exact .inl ⟨row', hrow', hsame.trans hpath⟩
    · exact .inr ⟨k, op, hop, howns⟩
  · obtain ⟨db, hi, -⟩ := h.writes 0 kind done todo hi
    cases htx.symm.trans hi

/-- An orphan has no row, and the file that goes was covered by no row either. -/
theorem Law.orphaned (h : Law R sys) {id : String} {type : ArtifactType} (htx : sys.tx = none)
    (hnone : sys.db.artifacts.get? id = none) :
    sys.Spares (ArtifactStore.delete sys.files ⟨type, id⟩) ∧
      Law R { sys with files := ArtifactStore.delete sys.files ⟨type, id⟩ } := by
  have hfree : ¬ sys.Claims ⟨type, id⟩ := by
    rintro ⟨db, rfl | ⟨j, hj⟩, row, hrow, hpath⟩
    · have hid : row.id = id := (ArtifactPath.mk.inj hpath).2
      rw [← hid, Table.get?_of_mem hrow] at hnone
      cases hnone
    · cases htx.symm.trans hj
  refine ⟨.update hfree, h.of (i := 0) (fun _ _ => rfl) (fun d hd => (h.sound d hd).spared hd (.update hfree))
    (fun path hp => h.covered path (removed hp).2) (.inl ⟨rfl, rfl⟩) (fun kind done todo hi => ?_) (h.staged 0)⟩
  obtain ⟨db, hi, -⟩ := h.writes 0 kind done todo hi
  cases htx.symm.trans hi

/-! ## Every step -/

/-- A step that runs into no row keeps the law, and leaves the files of all rows alone. -/
theorem Law.step (h : Law R sys) {e : ArtifactEvent} (hclear : sys.Clear e) (hstep : sys.step R e = some sys') :
    sys.Spares sys'.files ∧ Law R sys' := by
  cases e with
  | create i new =>
    simp only [ArtifactSystem.step] at hstep
    split at hstep
    · next s hop hs =>
      cases hstep
      refine ⟨.refl sys, h.moved_still ⟨by simp, ?_⟩ (by simp [hop])⟩
      intro kind artifacts heq s' hs'
      cases heq
      rw [List.mem_singleton.1 hs']
      exact stage_ok hs
    · cases hstep
      exact ⟨.refl sys, h⟩
    · cases hstep
  | stage i allowExisting new =>
    simp only [ArtifactSystem.step] at hstep
    split at hstep
    · next artifacts hop hs =>
      cases hstep
      refine ⟨.refl sys, h.moved_still ⟨by simp, ?_⟩ (by simp [hop])⟩
      intro kind artifacts heq
      cases heq
      exact stage_all hs
    · cases hstep
      exact ⟨.refl sys, h⟩
    · cases hstep
  | beginImmediate i =>
    simp only [ArtifactSystem.step] at hstep
    split at hstep
    · next kind artifacts hop htx =>
      cases hstep
      exact ⟨.refl sys, h.begun hop htx⟩
    · cases hstep
  | publish i planners =>
    simp only [ArtifactSystem.step] at hstep
    split at hstep
    · next kind done s todo j db hop htx =>
      split at hstep
      · next created db' files' s' hnext =>
        cases hstep
        obtain ⟨hpath, hcase⟩ := publishNext_ok hnext
        exact h.published hop htx hpath hcase
      · next error files' s' hnext =>
        cases hstep
        obtain ⟨hpath, hfails⟩ := publishNext_error hnext
        exact h.publishFailed hop hpath hfails
    · cases hstep
  | statement i db' =>
    simp only [ArtifactSystem.step] at hstep
    split at hstep
    · next kind done todo j db hop htx =>
      split at hstep
      · next hrows =>
        cases hstep
        exact ⟨.refl sys, h.stated hop htx hrows⟩
      · cases hstep
    · cases hstep
  | raise i =>
    simp only [ArtifactSystem.step] at hstep
    split at hstep
    · next kind done todo hop =>
      cases hstep
      exact ⟨.refl sys, h.raised hop⟩
    · cases hstep
  | commit i =>
    simp only [ArtifactSystem.step] at hstep
    split at hstep
    · next kind done j db hop htx =>
      cases hstep
      obtain ⟨-, hsees, hwrites⟩ := h.holds hop htx
      exact ⟨.refl sys, h.closed hop hsees hwrites.committed (fun s hs hpub => .inl (hwrites.published s hs hpub)) (by simp [Apart])⟩
    · cases hstep
  | commitRaises i tookEffect =>
    simp only [ArtifactSystem.step] at hstep
    split at hstep
    · next s j db hop htx =>
      cases hstep
      obtain ⟨-, hsees, hwrites⟩ := h.holds hop htx
      have hown : ∀ x ∈ [s], x.Published → (ArtifactOp.reconciling s).Owns x.handle.path := by
        intro x hx hpub
        obtain rfl := List.mem_singleton.1 hx
        exact ⟨hpub, rfl⟩
      cases tookEffect with
      | true => exact ⟨.refl sys, h.closed hop hsees hwrites.committed (fun x hx hpub => .inr (hown x hx hpub)) (by simp [Apart])⟩
      | false =>
        refine ⟨.refl sys, h.closed hop (.inl rfl) (fun _ hrow => hrow) (fun x hx hpub => .inr (hown x hx hpub)) (by simp [Apart])⟩
    · cases hstep
  | finalize i =>
    simp only [ArtifactSystem.step] at hstep
    split at hstep
    · next s rest hop =>
      have hnone : ∀ old, sys.ops i = some old → ∀ path, ¬ old.Owns path := by simp [hop, ArtifactOp.Owns]
      split at hstep
      · cases hstep
        exact ⟨.refl sys, h.moved_still (by simp [Apart]) hnone⟩
      · cases hstep
        exact ⟨.refl sys, h.moved_still apart_none hnone⟩
    · next hop =>
      cases hstep
      exact ⟨.refl sys, h.moved_still apart_none (by simp [hop, ArtifactOp.Owns])⟩
    · cases hstep
  | abort i =>
    simp only [ArtifactSystem.step] at hstep
    split at hstep
    · next s rest hop =>
      cases hstep
      exact h.aborted hop (hclear s rest hop)
    · next hop =>
      cases hstep
      exact ⟨.refl sys, h.moved_still apart_none (by simp [hop, ArtifactOp.Owns])⟩
    · cases hstep
  | reconcile i =>
    simp only [ArtifactSystem.step] at hstep
    split at hstep
    · next s hop htx =>
      cases hstep
      exact h.reconciled hop htx (hclear s hop)
    · cases hstep
  | delete i artifactId =>
    simp only [ArtifactSystem.step] at hstep
    split at hstep
    · next hop =>
      cases hstep
      refine ⟨.refl sys, h.moved_still ⟨by simp, by simp⟩ (by simp [hop])⟩
    · cases hstep
  | deleteRow i referenced =>
    simp only [ArtifactSystem.step] at hstep
    split at hstep
    · next record hop htx =>
      split at hstep
      · cases hstep
        exact ⟨.refl sys, h.moved_still apart_none (by simp [hop, ArtifactOp.Owns])⟩
      · cases hstep
        exact ⟨.refl sys, h.deleted hop htx (hclear record hop)⟩
    · cases hstep
  | unlink i =>
    simp only [ArtifactSystem.step] at hstep
    split at hstep
    · next path hop =>
      cases hstep
      exact ⟨.update (hclear path hop), h.unlinked hop (hclear path hop)⟩
    · cases hstep
  | reconcileOrphan id type =>
    simp only [ArtifactSystem.step] at hstep
    split at hstep
    · cases hstep
    · next htx =>
      split at hstep
      · cases hstep
        exact ⟨.refl sys, h⟩
      · next hnone =>
        cases hstep
        exact h.orphaned htx (by simpa using hnone)
  | other db =>
    simp only [ArtifactSystem.step] at hstep
    split at hstep
    · next hother =>
      cases hstep
      exact ⟨.refl sys, h.otherwise hother.1 hother.2⟩
    · cases hstep

theorem Agree.law (h : Agree R sys) (htx : sys.tx = none) (hops : ∀ i, sys.ops i = none) : Law R sys where
  sound db hsees := by
    rcases hsees with rfl | ⟨j, hj⟩
    · exact h.toSound
    · cases htx.symm.trans hj
  covered := h.covered
  writes i kind done todo hi := by cases (hops i).symm.trans hi
  staged i kind artifacts hi := by cases (hops i).symm.trans hi

/-- From rows and files that agree, with nothing in progress, over any interleaving of any callers in which no removal
outside a transaction runs into a row: rows and files agree, and no step touches the file of a committed row. -/
theorem artifacts_agree (hagree : Agree R sys) (htx : sys.tx = none) (hops : ∀ i, sys.ops i = none)
    (hrun : Relation.ReflTransGen (Step R Clear) sys sys') :
    Agree R sys' ∧ ∀ sys'', Step R Clear sys' sys'' → ∀ row ∈ sys'.db.artifacts.rows, sys''.files row.path = sys'.files row.path := by
  have hlaw : Law R sys' := by
    induction hrun with
    | refl => exact hagree.law htx hops
    | tail _ hstep ih =>
      obtain ⟨e, hclear, hstep⟩ := hstep
      exact (ih.step hclear hstep).2
  refine ⟨hlaw.agree, fun sys'' hstep row hrow => ?_⟩
  obtain ⟨e, hclear, hstep⟩ := hstep
  exact (hlaw.step hclear hstep).1 row.path ⟨_, .inl rfl, row, hrow, rfl⟩

/-! ## A sample -/

/-- Events one after another; none if one cannot happen. -/
def run (R : ArtifactRepo) : ArtifactSystem → List ArtifactEvent → Option ArtifactSystem
  | sys, [] => some sys
  | sys, e :: es => (sys.step R e).bind fun sys => run R sys es

theorem run_reaches {P : ArtifactSystem → ArtifactEvent → Prop} {es : List ArtifactEvent} (hes : ∀ e ∈ es, ∀ s, P s e)
    (h : run R sys es = some sys') : Relation.ReflTransGen (Step R P) sys sys' := by
  induction es generalizing sys with
  | nil =>
    obtain rfl := Option.some.inj h
    exact .refl
  | cons e es ih =>
    obtain ⟨mid, hmid, hrest⟩ := Option.bind_eq_some_iff.1 h
    exact .head ⟨e, hes e List.mem_cons_self sys, hmid⟩ (ih (fun e he => hes e (List.mem_cons_of_mem _ he)) hrest)

end

/-- The digest of the byte of the sample. -/
def sampleRepo : ArtifactRepo where
  store :=
    { sha256 := fun content => if content = [97] then "ca978112ca1bbdcafac231b39a23dc4da786eff8147c4e72b9807785afee48bb" else ""
      maxArtifactBytes := 100 }
  limits := ⟨100, 1000⟩

def sampleArtifact : NewArtifact := ⟨"a", "s", .log, [97], none, none, true⟩

/-- The sample session without artifacts. -/
def sampleSystem : ArtifactSystem := ⟨sampleDb, none, fun _ => none, fun _ => none⟩

theorem sampleSystem_agrees : Agree sampleRepo sampleSystem :=
  ⟨⟨fun _ hrow => (List.not_mem_nil hrow).elim, fun _ => Nat.zero_le _⟩, fun _ hfile => (hfile rfl).elim⟩

/-- A caller stores the artifact. -/
def sampleCreate (i : Nat) : List ArtifactEvent :=
  [.create i sampleArtifact, .beginImmediate i, .publish i fun _ => none, .commit i, .finalize i, .finalize i]

/-- An artifact is stored, and its file is there. -/
theorem artifacts_agree_sample : ∃ sys, sampleSystem.run sampleRepo (sampleCreate 0) = some sys ∧ Agree sampleRepo sys ∧
    sys.files ⟨.log, "a"⟩ = some [97] := by
  have hrun : ((sampleSystem.run sampleRepo (sampleCreate 0)).any fun sys => sys.files ⟨.log, "a"⟩ = some [97]) = true := by
    decide +kernel
  obtain ⟨sys, hsys, hfile⟩ := (Option.any_eq_true _ _).1 hrun
  have hclear : ∀ e ∈ sampleCreate 0, ∀ s : ArtifactSystem, s.Clear e := by simp [sampleCreate, Clear]
  exact ⟨sys, hsys, (artifacts_agree sampleSystem_agrees rfl (fun _ => rfl) (run_reaches hclear hsys)).1, of_decide_eq_true hfile⟩

/-- Two callers have read the row to delete it. The second one unlinks the file after a third has stored the artifact
again: its row is committed and its file gone. -/
theorem late_unlink : Agree sampleRepo sampleSystem ∧
    ∃ sys, Relation.ReflTransGen (Step sampleRepo fun _ _ => True) sampleSystem sys ∧ ¬ Agree sampleRepo sys := by
  have hrun : ((sampleSystem.run sampleRepo (sampleCreate 0 ++ [.delete 1 "a", .delete 2 "a", .deleteRow 1 false,
      .deleteRow 2 false, .unlink 1] ++ sampleCreate 3 ++ [.unlink 2])).any fun sys =>
      sys.files ⟨.log, "a"⟩ = none ∧ (sys.db.artifacts.get? "a").any fun row => row.artifactType = .log) = true := by
    decide +kernel
  obtain ⟨sys, hsys, hlost⟩ := (Option.any_eq_true _ _).1 hrun
  obtain ⟨hfile, hrow⟩ := of_decide_eq_true hlost
  obtain ⟨row, hrow, htype⟩ := (Option.any_eq_true _ _).1 hrow
  refine ⟨sampleSystem_agrees, sys, run_reaches (fun _ _ _ => trivial) hsys, fun hagree => ?_⟩
  obtain ⟨content, hcontent, -⟩ := hagree.stored row (Table.mem_of_get? hrow)
  have hpath : row.path = ⟨.log, "a"⟩ := by rw [ArtifactRow.path, of_decide_eq_true htype, Table.get?_key hrow]
  rw [hpath, hfile] at hcontent
  cases hcontent

end ArtifactSystem

end AgentHub
