import Mathlib.Data.List.Forall2
import AgentHub.Lib.PurePath
import AgentHub.Security.PathRules
import AgentHub.Workspace.ChangeSet
/-!
# The risk classifier

The risk of a list of paths, which the compiler freezes as a floor, and the risk of a captured manifest. Both are a
running maximum, and `Rating.Bounded` describes each from above by what raised it. So a larger manifest is never rated
lower (`classify_mono`), and plain edits within a list of paths are rated no higher than the list (`classify_le_floor`).
-/

namespace AgentHub.Security

open Lib Workspace

/-! ## The constants -/

def binaryExtensions : List Text := texts [
  ".7z", ".bin", ".dll", ".dylib", ".exe", ".gif", ".gz", ".ico", ".jar", ".jpeg", ".jpg", ".pdf", ".png", ".so",
  ".tar", ".wasm", ".zip"]

def l3Components : List Text := texts [
  "auth", "authentication", "authorization", "payment", "payments", "permission", "permissions", "security"]

def l2Components : List Text := texts [
  ".github", "ci", "config", "configs", "migration", "migrations", "schema", "schemas", "script", "scripts", "test",
  "tests"]

def l2Basenames : List Text := texts [
  ".gitignore", "dockerfile", "package-lock.json", "package.json", "pnpm-lock.yaml", "pyproject.toml",
  "requirements.txt", "requirements.lock", "uv.lock", "yarn.lock"]

def l4Components : List Text := texts [".agent-hub", ".git", ".ssh"]

structure RiskAssessment where
  runtimeRisk : RiskLevel
  effectiveRisk : RiskLevel
  reasons : List String
  deriving DecidableEq, Repr

/-- `requires_approval` -/
def RiskAssessment.requiresApproval (a : RiskAssessment) : Bool := RiskLevel.l2.index ≤ a.effectiveRisk.index

/-- `blocked` -/
def RiskAssessment.blocked (a : RiskAssessment) : Bool := a.effectiveRisk = .l4

/-! ## Paths -/

def startsWithOneOf (values : List String) (s : Text) : Bool := (texts values).any (·.isPrefixOf s)

/-- `_classify_path`. -/
def classifyPath (path : String) : RiskLevel × Option String :=
  let components := (PurePath.parts path.toList).map casefold
  let basename := components.getLastD []
  let stem := casefold (splitName (PurePath.name path.toList)).1
  let suffix := casefold (splitName (PurePath.name path.toList)).2
  if components.any (l4Components.contains ·) || basename = ".env".toList || startsWithOneOf [".env."] basename ||
      (texts ["id_rsa", "id_dsa", "id_ecdsa", "id_ed25519"]).contains basename ||
      (texts [".key", ".pem", ".p12", ".pfx"]).contains suffix then
    (.l4, some ("forbidden_or_sensitive_path:" ++ path))
  else if components.any (l3Components.contains ·) || l3Components.contains stem ||
      startsWithOneOf ["auth_", "payment_", "permission_", "security_"] stem then
    (.l3, some ("security_sensitive_component:" ++ path))
  else if binaryExtensions.contains suffix then (.l3, some ("binary_extension:" ++ path))
  else if l2Basenames.contains basename || components.any (l2Components.contains ·) ||
      startsWithOneOf ["dockerfile.", "requirements.", "constraints."] basename then
    (.l2, some ("configuration_or_test_path:" ++ path))
  else (.l1, none)

/-! ## Ratings -/

/-- The running maximum and the reasons so far. -/
structure Rating where
  runtime : RiskLevel
  reasons : List String

namespace Rating

def reason (r : Rating) (text : String) : Rating := { r with reasons := r.reasons ++ [text] }

/-- `runtime = risk` -/
def set (r : Rating) (risk : RiskLevel) : Rating := { r with runtime := risk }

/-- `runtime = _max_risk(runtime, risk)` -/
def raise (r : Rating) (risk : RiskLevel) : Rating := r.set (maxRisk r.runtime risk)

/-- The body of the loop over the paths. -/
def path (r : Rating) (path : String) : Rating :=
  let r' := r.raise (classifyPath path).1
  match (classifyPath path).2 with
  | none => r'
  | some text => r'.reason text

/-- What the number of changes or of paths adds. A manifest without changes gives no reason. -/
def count (r : Rating) (n : Nat) : Rating :=
  if 20 < n then (r.raise .l3).reason "more_than_20_changed_paths"
  else if 6 ≤ n then (r.raise .l2).reason "six_to_20_changed_paths"
  else if n ≠ 0 then r.reason "one_to_five_changed_paths"
  else r

end Rating

/-- `classify_paths`. -/
def classifyPaths (paths : List String) : RiskAssessment :=
  let uniquePaths := paths.eraseDups
  if uniquePaths = [] then ⟨.l0, .l0, []⟩
  else
    let r := uniquePaths.foldl Rating.path ⟨.l1, []⟩
    let r := r.count uniquePaths.length
    ⟨r.runtime, r.runtime, r.reasons.eraseDups⟩

/-- The paths of a change that count, the old one first. -/
def changedPaths (c : FileChange) : List String :=
  match c.oldPath with
  | none => [c.path]
  | some oldPath => if oldPath = "" then [c.path] else [oldPath, c.path]

/-- The runtime risk of `classify`. -/
def runtimeRating (manifest : ChangeSetManifest) (bypassIntent : Bool) : Rating :=
  let changed := manifest.changes.flatMap changedPaths
  let r : Rating := ⟨if changed = [] then .l0 else .l1, []⟩
  let r := if bypassIntent then (r.set .l4).reason "runtime_policy_bypass_intent" else r
  let r := (changed ++ manifest.ignoredFilesTouched).foldl Rating.path r
  let r := if manifest.ignoredFilesTouched ≠ [] then (r.set .l4).reason "ignored_workspace_mutation" else r
  let r := if manifest.changes.any (·.binary) then (r.raise .l3).reason "binary_change" else r
  let r :=
    if manifest.changes.any fun c => c.action = .deleted || c.action = .renamed then
      (r.raise .l3).reason "delete_or_rename"
    else r
  r.count manifest.changes.length

/-- The levels that callers give to `classify`. -/
structure Hints where
  policyFloor : RiskLevel := .l0
  userHint : RiskLevel := .l0
  plannerHint : RiskLevel := .l0
  agentHint : RiskLevel := .l0
  deriving DecidableEq, Repr

/-- The hints with the names `classify` reports them under. -/
def Hints.sources (hints : Hints) : List (String × RiskLevel) :=
  [("policy_floor", hints.policyFloor), ("user_hint", hints.userHint), ("planner_hint", hints.plannerHint),
    ("agent_hint", hints.agentHint)]

/-- The body of the loop over the hints, with the effective risk as the maximum. -/
def Rating.hint (r : Rating) (source : String × RiskLevel) : Rating :=
  if r.runtime.index < source.2.index then (r.set source.2).reason (source.1 ++ "_raised_risk") else r

/-- `classify`. -/
def classify (manifest : ChangeSetManifest) (hints : Hints) (bypassIntent : Bool) : RiskAssessment :=
  let r := runtimeRating manifest bypassIntent
  let e := hints.sources.foldl Rating.hint r
  ⟨r.runtime, e.runtime, e.reasons.eraseDups⟩

/-! ## Bounds -/

theorem index_maxRisk (a b : RiskLevel) : (maxRisk a b).index = max a.index b.index := by
  unfold maxRisk
  split <;> omega

namespace Rating

variable {r : Rating} {n : Nat}

@[simp] theorem reason_runtime (text : String) : (r.reason text).runtime = r.runtime := rfl

@[simp] theorem set_runtime (risk : RiskLevel) : (r.set risk).runtime = risk := rfl

@[simp] theorem raise_runtime (risk : RiskLevel) : (r.raise risk).runtime.index = max r.runtime.index risk.index :=
  index_maxRisk _ _

@[simp] theorem path_runtime (p : String) : (r.path p).runtime.index = max r.runtime.index (classifyPath p).1.index := by
  unfold path
  rcases (classifyPath p).2 with _ | text <;> simp

/-- What a number of paths is worth by itself. -/
def worth (n : Nat) : Nat := if 20 < n then 3 else if 6 ≤ n then 2 else 0

theorem worth_mono {m n : Nat} (h : m ≤ n) : worth m ≤ worth n := by
  unfold worth
  repeat' split
  all_goals omega

theorem worth_le (n : Nat) : worth n ≤ 4 := by
  unfold worth
  repeat' split
  all_goals omega

@[simp] theorem count_runtime (n : Nat) : (r.count n).runtime.index = max r.runtime.index (worth n) := by
  unfold count worth
  split
  · exact raise_runtime .l3
  split
  · exact raise_runtime .l2
  · split <;> simp

theorem hint_runtime (source : String × RiskLevel) : (r.hint source).runtime.index = max r.runtime.index source.2.index := by
  unfold hint
  split
  · rw [reason_runtime, set_runtime]
    omega
  · omega

/-- The walk over the paths stays below a bound when the start and each path do. -/
theorem foldl_path_le (paths : List String) :
    (paths.foldl path r).runtime.index ≤ n ↔ r.runtime.index ≤ n ∧ ∀ p ∈ paths, (classifyPath p).1.index ≤ n := by
  induction paths generalizing r with
  | nil => simp
  | cons p paths ih =>
    rw [List.foldl_cons, ih, path_runtime, List.forall_mem_cons, max_le_iff, and_assoc]

theorem foldl_hint_le (sources : List (String × RiskLevel)) :
    (sources.foldl hint r).runtime.index ≤ n ↔ r.runtime.index ≤ n ∧ ∀ s ∈ sources, s.2.index ≤ n := by
  induction sources generalizing r with
  | nil => simp
  | cons s sources ih =>
    rw [List.foldl_cons, ih, hint_runtime, List.forall_mem_cons, max_le_iff, and_assoc]

end Rating

/-! ## The risk of a manifest -/

theorem index_le_four (risk : RiskLevel) : risk.index ≤ 4 := by cases risk <;> decide

/-- What raises the risk of a manifest, as the levels below a bound. -/
structure Bounded (manifest : ChangeSetManifest) (bypassIntent : Bool) (n : Nat) : Prop where
  change : manifest.changes ≠ [] → 1 ≤ n
  bypass : bypassIntent = true → 4 ≤ n
  path : ∀ c ∈ manifest.changes, ∀ p ∈ changedPaths c, (classifyPath p).1.index ≤ n
  ignored : manifest.ignoredFilesTouched ≠ [] → 4 ≤ n
  binary : ∀ c ∈ manifest.changes, c.binary = true → 3 ≤ n
  removal : ∀ c ∈ manifest.changes, c.action = .deleted ∨ c.action = .renamed → 3 ≤ n
  count : Rating.worth manifest.changes.length ≤ n

theorem changedPaths_ne_nil (c : FileChange) : changedPaths c ≠ [] := by
  unfold changedPaths
  split
  · simp
  · split <;> simp

theorem path_mem_changedPaths (c : FileChange) : c.path ∈ changedPaths c := by
  unfold changedPaths
  split
  · simp
  · split <;> simp

theorem flatMap_changedPaths_eq_nil {changes : List FileChange} : changes.flatMap changedPaths = [] ↔ changes = [] := by
  rw [List.flatMap_eq_nil_iff]
  constructor
  · intro h
    exact List.eq_nil_iff_forall_not_mem.2 fun c hc => changedPaths_ne_nil c (h c hc)
  · rintro rfl c hc
    exact absurd hc List.not_mem_nil

/-- A step that raises the risk under a condition. -/
theorem ite_runtime_le {r r' : Rating} {c : Prop} [Decidable c] {n k : Nat} (h : r'.runtime.index = max r.runtime.index k) :
    (if c then r' else r).runtime.index ≤ n ↔ r.runtime.index ≤ n ∧ (c → k ≤ n) := by
  split
  · rename_i hc
    rw [h, max_le_iff]
    exact and_congr_right fun _ => ⟨fun hk _ => hk, fun hk => hk hc⟩
  · rename_i hc
    exact ⟨fun hr => ⟨hr, fun h => absurd h hc⟩, And.left⟩

/-- The runtime risk is the least bound of what raises it. -/
theorem runtimeRating_le_iff {manifest : ChangeSetManifest} {bypassIntent : Bool} {n : Nat} :
    (runtimeRating manifest bypassIntent).runtime.index ≤ n ↔ Bounded manifest bypassIntent n := by
  have hset : ∀ (r : Rating) (text : String), ((r.set .l4).reason text).runtime.index = max r.runtime.index 4 := by
    intro r text
    have := index_le_four r.runtime
    rw [Rating.reason_runtime, Rating.set_runtime, RiskLevel.index]
    omega
  have hraise : ∀ (r : Rating) (text : String), ((r.raise .l3).reason text).runtime.index = max r.runtime.index 3 :=
    fun r text => Rating.raise_runtime .l3
  simp only [runtimeRating, Rating.count_runtime, max_le_iff]
  rw [ite_runtime_le (hraise _ _), ite_runtime_le (hraise _ _), ite_runtime_le (hset _ _), Rating.foldl_path_le,
    ite_runtime_le (hset _ _)]
  constructor
  · rintro ⟨⟨⟨⟨⟨⟨hchange, hbypass⟩, hpath⟩, hignored⟩, hbinary⟩, hremoval⟩, hcount⟩
    refine ⟨fun h => ?_, hbypass, fun c hc p hp => ?_, hignored, fun c hc hb => ?_, fun c hc ha => ?_, hcount⟩
    · rw [if_neg (flatMap_changedPaths_eq_nil.not.2 h)] at hchange
      exact hchange
    · exact hpath p (List.mem_append_left _ (List.mem_flatMap.2 ⟨c, hc, hp⟩))
    · exact hbinary (List.any_eq_true.2 ⟨c, hc, hb⟩)
    · exact hremoval (List.any_eq_true.2 ⟨c, hc, by simpa using ha⟩)
  · intro h
    refine ⟨⟨⟨⟨⟨⟨?_, h.bypass⟩, ?_⟩, h.ignored⟩, ?_⟩, ?_⟩, h.count⟩
    · split
      · exact Nat.zero_le n
      · rename_i hc
        exact h.change (flatMap_changedPaths_eq_nil.not.1 hc)
    · intro p hp
      rcases List.mem_append.1 hp with hp | hp
      · obtain ⟨c, hc, hp⟩ := List.mem_flatMap.1 hp
        exact h.path c hc p hp
      · exact (index_le_four _).trans (h.ignored (List.ne_nil_of_mem hp))
    · intro hb
      obtain ⟨c, hc, hb⟩ := List.any_eq_true.1 hb
      exact h.binary c hc hb
    · intro ha
      obtain ⟨c, hc, ha⟩ := List.any_eq_true.1 ha
      exact h.removal c hc (by simpa using ha)

/-- The effective risk is the greatest of the runtime risk and the hints. -/
theorem classify_le_iff {manifest : ChangeSetManifest} {hints : Hints} {bypassIntent : Bool} {n : Nat} :
    (classify manifest hints bypassIntent).effectiveRisk.index ≤ n ↔
      (classify manifest hints bypassIntent).runtimeRisk.index ≤ n ∧ ∀ s ∈ hints.sources, s.2.index ≤ n :=
  Rating.foldl_hint_le hints.sources

/-! ## Monotonicity -/

/-- The change, or the change with its binary flag set. -/
def Flagged (c c' : FileChange) : Prop := c' = { c with binary := c'.binary } ∧ (c.binary = true → c'.binary = true)

/-- A manifest with more changes, more binary flags and more ignored paths. -/
structure Extends (m m' : ChangeSetManifest) : Prop where
  changes : List.SublistForall₂ Flagged m.changes m'.changes
  ignored : m.ignoredFilesTouched ⊆ m'.ignoredFilesTouched

/-- Hints none of which is lower. -/
structure Hints.Raised (hints hints' : Hints) : Prop where
  policyFloor : hints.policyFloor.index ≤ hints'.policyFloor.index
  userHint : hints.userHint.index ≤ hints'.userHint.index
  plannerHint : hints.plannerHint.index ≤ hints'.plannerHint.index
  agentHint : hints.agentHint.index ≤ hints'.agentHint.index

theorem Hints.forall_sources {hints : Hints} {P : RiskLevel → Prop} :
    (∀ s ∈ hints.sources, P s.2) ↔ P hints.policyFloor ∧ P hints.userHint ∧ P hints.plannerHint ∧ P hints.agentHint := by
  simp [Hints.sources]

theorem exists_flagged {l l' : List FileChange} (h : List.SublistForall₂ Flagged l l') {c : FileChange} (hc : c ∈ l) :
    ∃ c' ∈ l', Flagged c c' := by
  induction h with
  | nil => exact absurd hc List.not_mem_nil
  | cons hf _ ih =>
    rcases List.mem_cons.1 hc with rfl | hc
    · exact ⟨_, List.mem_cons_self, hf⟩
    · obtain ⟨c', hc', hf'⟩ := ih hc
      exact ⟨c', List.mem_cons_of_mem _ hc', hf'⟩
  | cons_right _ ih =>
    obtain ⟨c', hc', hf'⟩ := ih hc
    exact ⟨c', List.mem_cons_of_mem _ hc', hf'⟩

theorem length_le_of_flagged {l l' : List FileChange} (h : List.SublistForall₂ Flagged l l') : l.length ≤ l'.length := by
  obtain ⟨k, hk, hs⟩ := List.sublistForall₂_iff.1 h
  exact hk.length_eq.trans_le hs.length_le

/-- What bounds a larger manifest bounds a smaller one. -/
theorem Bounded.anti {m m' : ChangeSetManifest} {bypass bypass' : Bool} {n : Nat} (h : Extends m m')
    (hbypass : bypass = true → bypass' = true) (hb : Bounded m' bypass' n) : Bounded m bypass n where
  change hne := by
    obtain ⟨c, hc⟩ := List.exists_mem_of_ne_nil _ hne
    obtain ⟨c', hc', -⟩ := exists_flagged h.changes hc
    exact hb.change (List.ne_nil_of_mem hc')
  bypass hp := hb.bypass (hbypass hp)
  path c hc p hp := by
    obtain ⟨c', hc', hf, -⟩ := exists_flagged h.changes hc
    refine hb.path c' hc' p ?_
    rw [hf]
    exact hp
  ignored hne := by
    obtain ⟨p, hp⟩ := List.exists_mem_of_ne_nil _ hne
    exact hb.ignored (List.ne_nil_of_mem (h.ignored hp))
  binary c hc hbin := by
    obtain ⟨c', hc', -, hf⟩ := exists_flagged h.changes hc
    exact hb.binary c' hc' (hf hbin)
  removal c hc ha := by
    obtain ⟨c', hc', hf, -⟩ := exists_flagged h.changes hc
    refine hb.removal c' hc' ?_
    rw [hf]
    exact ha
  count := (Rating.worth_mono (length_le_of_flagged h.changes)).trans hb.count

/-- A manifest with more in it, rated with hints none of which is lower, is rated no lower. -/
theorem classify_mono {m m' : ChangeSetManifest} {hints hints' : Hints} {bypass bypass' : Bool} (h : Extends m m')
    (hh : hints.Raised hints') (hb : bypass = true → bypass' = true) :
    (classify m hints bypass).runtimeRisk.index ≤ (classify m' hints' bypass').runtimeRisk.index ∧
      (classify m hints bypass).effectiveRisk.index ≤ (classify m' hints' bypass').effectiveRisk.index := by
  have hruntime : (classify m hints bypass).runtimeRisk.index ≤ (classify m' hints' bypass').runtimeRisk.index :=
    runtimeRating_le_iff.2 ((runtimeRating_le_iff.1 le_rfl).anti h hb)
  refine ⟨hruntime, classify_le_iff.2 ?_⟩
  obtain ⟨hr, hs⟩ := classify_le_iff.1 (le_refl (classify m' hints' bypass').effectiveRisk.index)
  rw [Hints.forall_sources (P := fun risk => risk.index ≤ _)] at hs ⊢
  exact ⟨hruntime.trans hr, hh.policyFloor.trans hs.1, hh.userHint.trans hs.2.1, hh.plannerHint.trans hs.2.2.1,
    hh.agentHint.trans hs.2.2.2⟩

/-- The effective risk is no lower than the runtime risk, a hint, or the risk of a changed path. -/
theorem le_classify (m : ChangeSetManifest) (hints : Hints) (bypass : Bool) :
    (classify m hints bypass).runtimeRisk.index ≤ (classify m hints bypass).effectiveRisk.index ∧
      (∀ s ∈ hints.sources, s.2.index ≤ (classify m hints bypass).effectiveRisk.index) ∧
      ∀ c ∈ m.changes, ∀ p ∈ changedPaths c, (classifyPath p).1.index ≤ (classify m hints bypass).effectiveRisk.index := by
  obtain ⟨hr, hs⟩ := classify_le_iff.1 (le_refl (classify m hints bypass).effectiveRisk.index)
  exact ⟨hr, hs, (runtimeRating_le_iff.1 hr).path⟩

/-! ## The floor -/

/-- What a list of paths is rated: each of its paths, their number, and that there are any. -/
theorem classifyPaths_le_iff {paths : List String} {n : Nat} (h : paths ≠ []) :
    (classifyPaths paths).effectiveRisk.index ≤ n ↔
      1 ≤ n ∧ (∀ p ∈ paths, (classifyPath p).1.index ≤ n) ∧ Rating.worth paths.eraseDups.length ≤ n := by
  have hne : paths.eraseDups ≠ [] := by
    obtain ⟨p, hp⟩ := List.exists_mem_of_ne_nil _ h
    exact List.ne_nil_of_mem (List.mem_eraseDups.2 hp)
  simp only [classifyPaths, if_neg hne, Rating.count_runtime, max_le_iff, Rating.foldl_path_le, List.mem_eraseDups, and_assoc]
  rfl

/-- A change that writes a file: it is valid, not binary, and creates or modifies. -/
structure PlainEdit (c : FileChange) : Prop where
  shape : validateActionShape c = .ok ()
  action : c.action = .created ∨ c.action = .modified
  text : c.binary = false

theorem PlainEdit.oldPath {c : FileChange} (h : PlainEdit c) : c.oldPath = none := by
  have hs := h.shape
  unfold validateActionShape at hs
  rcases h.action with ha | ha <;>
  · rw [ha] at hs
    by_contra hne
    simp [hne, invalid] at hs

theorem PlainEdit.changedPaths {c : FileChange} (h : PlainEdit c) : changedPaths c = [c.path] := by
  rw [Security.changedPaths, h.oldPath]

/-- Plain edits of distinct paths of a list are rated no higher than the list, which is the floor the compiler freezes. -/
theorem classify_le_floor {m : ChangeSetManifest} {paths : List String} (hints : Hints)
    (hplain : ∀ c ∈ m.changes, PlainEdit c) (hpaths : ∀ c ∈ m.changes, c.path ∈ paths)
    (hnodup : (m.changes.map (·.path)).Nodup) (hignored : m.ignoredFilesTouched = []) :
    (classify m hints false).runtimeRisk.index ≤ (classifyPaths paths).effectiveRisk.index := by
  refine runtimeRating_le_iff.2 ?_
  by_cases hne : m.changes = []
  · refine ⟨fun h => absurd hne h, by simp, ?_, fun h => absurd hignored h, ?_, ?_, ?_⟩
    all_goals simp [hne, Rating.worth]
  obtain ⟨c₀, hc₀⟩ := List.exists_mem_of_ne_nil _ hne
  obtain ⟨hone, hpath, hcount⟩ :=
    (classifyPaths_le_iff (List.ne_nil_of_mem (hpaths c₀ hc₀))).1 (le_refl (classifyPaths paths).effectiveRisk.index)
  have hlength : m.changes.length ≤ paths.eraseDups.length := by
    have hsub : m.changes.map (·.path) ⊆ paths.eraseDups := by
      intro p hp
      obtain ⟨c, hc, rfl⟩ := List.mem_map.1 hp
      exact List.mem_eraseDups.2 (hpaths c hc)
    simpa using (hnodup.subperm hsub).length_le
  refine ⟨fun _ => hone, by simp, ?_, fun h => absurd hignored h, ?_, ?_, (Rating.worth_mono hlength).trans hcount⟩
  · intro c hc p hp
    rw [(hplain c hc).changedPaths] at hp
    rw [List.mem_singleton.1 hp]
    exact hpath _ (hpaths c hc)
  · intro c hc hb
    rw [(hplain c hc).text] at hb
    cases hb
  · intro c hc ha
    rcases (hplain c hc).action with h | h <;> simp [h] at ha

/-- The classifier is monotone, its effective risk bounds what raised it, and the floor of a list of paths bounds the plain
edits of them. -/
theorem classify_sound :
    (∀ (m m' : ChangeSetManifest) (hints hints' : Hints) (bypass bypass' : Bool), Extends m m' → hints.Raised hints' →
      (bypass = true → bypass' = true) →
        (classify m hints bypass).runtimeRisk.index ≤ (classify m' hints' bypass').runtimeRisk.index ∧
          (classify m hints bypass).effectiveRisk.index ≤ (classify m' hints' bypass').effectiveRisk.index) ∧
      (∀ (m : ChangeSetManifest) (hints : Hints) (bypass : Bool),
        (classify m hints bypass).runtimeRisk.index ≤ (classify m hints bypass).effectiveRisk.index ∧
          (∀ s ∈ hints.sources, s.2.index ≤ (classify m hints bypass).effectiveRisk.index) ∧
            ∀ c ∈ m.changes, ∀ p ∈ changedPaths c,
              (classifyPath p).1.index ≤ (classify m hints bypass).effectiveRisk.index) ∧
        ∀ (m : ChangeSetManifest) (paths : List String) (hints : Hints), (∀ c ∈ m.changes, PlainEdit c) →
          (∀ c ∈ m.changes, c.path ∈ paths) → (m.changes.map (·.path)).Nodup → m.ignoredFilesTouched = [] →
            (classify m hints false).runtimeRisk.index ≤ (classifyPaths paths).effectiveRisk.index :=
  ⟨fun _ _ _ _ _ _ h hh hb => classify_mono h hh hb, le_classify,
    fun _ _ hints hplain hpaths hnodup hignored => classify_le_floor hints hplain hpaths hnodup hignored⟩

def sampleEdit (path : String) : FileChange := ⟨.modified, path, none, some "", some "", some 1, some 1, false⟩

def sampleEdits (paths : List String) : ChangeSetManifest := ⟨"", "", "", paths.map sampleEdit, [], [], "", "", ""⟩

theorem classify_sound_sample :
    (classify (sampleEdits ["a.py"]) {} false).effectiveRisk.index ≤
        (classify (sampleEdits ["a.py", "tests/b.py"]) ⟨.l1, .l0, .l0, .l0⟩ true).effectiveRisk.index ∧
      (classify (sampleEdits ["a.py", "tests/b.py"]) {} false).runtimeRisk.index ≤
        (classifyPaths ["a.py", "tests/b.py", "c.py"]).effectiveRisk.index := by
  have hext : Extends (sampleEdits ["a.py"]) (sampleEdits ["a.py", "tests/b.py"]) :=
    ⟨.cons ⟨rfl, id⟩ (.cons_right .nil), List.Subset.refl _⟩
  have hplain : ∀ c ∈ (sampleEdits ["a.py", "tests/b.py"]).changes, PlainEdit c := by
    intro c hc
    obtain ⟨p, -, rfl⟩ := List.mem_map.1 hc
    exact ⟨rfl, .inr rfl, rfl⟩
  exact ⟨(classify_sound.1 _ _ {} ⟨.l1, .l0, .l0, .l0⟩ false true hext
      ⟨by decide, by decide, by decide, by decide⟩ (by decide)).2,
    classify_sound.2.2 _ ["a.py", "tests/b.py", "c.py"] {} hplain (by decide) (by decide) rfl⟩

end AgentHub.Security
