import AgentHub.Security.CommandGuard
/-!
# What the command guard promises

A command that passes is registered, and each of its arguments is an allowed flag or a selector that stays below the
working directory and that no runner takes for an option. The guard keeps this promise on some commands only
(`validate_sound_iff`): a digit that `int` does not read makes it raise another exception than its own, and a selector
may start with the character after which a runner reads its arguments from a file.
-/

namespace AgentHub.Security

open Lib

namespace CommandGuard

/-! ## The promise -/

/-- The flags of pytest that are allowed. -/
def PytestFlag (D : Digits) (token : String) : Prop :=
  token ∈ pytestFlags ∨ (∃ value n, token.toList = maxfail.toList ++ value ∧ D.readInt value = some n ∧ 1 ≤ n ∧ n ≤ 20) ∨
    (∃ value ∈ ["short", "line", "native", "no"], token = "--tb=" ++ value) ∨
      ∃ value ∈ ["yes", "no", "auto"], token = "--color=" ++ value

/-- A token whose path part is relative, without empty or parent segments, and that no runner reads as an option or as
the name of an option file. -/
structure SafeSelector (part : Text → Text) (token : String) : Prop where
  relative : PurePath.isAbsolute (part token.toList) = false
  segments : ∀ s ∈ PurePath.segments (part token.toList), s ≠ [] ∧ s ≠ ['.', '.']
  operand : ∀ c ∈ ['-', '/', '@'], token.toList.head? ≠ some c

/-- The registered commands: the flags they allow, what is the path in a selector, and the arguments after the template. -/
inductive Registered (D : Digits) : List String → (String → Prop) → (Text → Text) → List String → Prop where
  | pytest {exe args} (h : casefold exe.toList = "pytest".toList) :
    Registered D (exe :: args) (PytestFlag D) pathPart args
  | pythonPytest {exe args} (h : casefold exe.toList ∈ texts ["python", "python3"]) :
    Registered D (exe :: "-m" :: "pytest" :: args) (PytestFlag D) pathPart args
  | packageAlone {exe} (h : casefold exe.toList ∈ texts ["npm", "pnpm"]) :
    Registered D [exe, "test"] (· ∈ npmForwardedFlags) pathPart []
  | packageTest {exe args} (h : casefold exe.toList ∈ texts ["npm", "pnpm"]) :
    Registered D (exe :: "test" :: "--" :: args) (· ∈ npmForwardedFlags) pathPart args
  | goTest {exe args} (h : casefold exe.toList = "go".toList) :
    Registered D (exe :: "test" :: args) (· = "-count=1") id args

/-- A registered command whose arguments are allowed flags and safe selectors. -/
def Sound (D : Digits) (argv : List String) : Prop :=
  ∃ isFlag part args, Registered D argv isFlag part args ∧ ∀ token ∈ args, isFlag token ∨ SafeSelector part token

/-! ## Selectors -/

theorem head_pathPart {text : Text} (h : pathPart text ≠ []) : (pathPart text).head? = text.head? := by
  fun_cases pathPart text <;> simp_all [pathPart]

theorem safeRelativeSelector_spec {selector : Text} (h : safeRelativeSelector selector = true) :
    selector ≠ [] ∧ selector.head? ≠ some '/' ∧ selector.head? ≠ some '-' ∧
      ∀ s ∈ PurePath.segments selector, s ≠ [] ∧ s ≠ ['.', '.'] := by
  simp only [safeRelativeSelector, Bool.and_eq_true, decide_eq_true_eq, List.all_eq_true] at h
  obtain ⟨⟨⟨⟨⟨hne, -⟩, -⟩, hs⟩, hm⟩, hall⟩ := h
  exact ⟨hne, hs, hm, hall⟩

/-- A selector the guard takes is safe unless the runner reads its arguments from it. -/
theorem validateTestSelector_safe {token : String} (h : validateTestSelector token = .ok ())
    (ha : token.toList.head? ≠ some '@') : SafeSelector pathPart token := by
  simp only [validateTestSelector] at h
  split at h
  · cases h
  rename_i hs
  obtain ⟨hne, hslash, hminus, hall⟩ := safeRelativeSelector_spec (not_not.1 (not_or.1 hs).2)
  have hhead := head_pathPart hne
  refine ⟨by simpa [PurePath.isAbsolute] using hslash, hall, ?_⟩
  intro c hc
  rw [hhead] at hslash hminus
  simp only [List.mem_cons, List.not_mem_nil, or_false] at hc
  rcases hc with rfl | rfl | rfl
  · exact hminus
  · exact hslash
  · exact ha

theorem isFlagWith_spec {flag : String} {values : List String} {token : String} (h : isFlagWith flag values token = true) :
    ∃ value ∈ values, token = flag ++ value := by
  simp only [isFlagWith, Bool.and_eq_true, List.isPrefixOf_iff_prefix, List.contains_iff_mem, texts, List.mem_map] at h
  obtain ⟨⟨rest, hrest⟩, value, hv, he⟩ := h
  refine ⟨value, hv, ?_⟩
  rw [← hrest, ← String.length_toList, List.drop_left] at he
  apply String.toList_inj.1
  rw [← hrest, ← he, String.toList_append]

theorem validatePytestRest_spec {token : String} (h : validatePytestRest token = .ok ()) :
    (∀ D, PytestFlag D token) ∨ validateTestSelector token = .ok () := by
  simp only [validatePytestRest] at h
  split at h
  · rename_i hf
    exact .inl fun D => .inr (.inr (.inl (isFlagWith_spec hf)))
  split at h
  · rename_i hf
    exact .inl fun D => .inr (.inr (.inr (isFlagWith_spec hf)))
  split at h
  · cases h
  · exact .inr h

theorem maxfailDigits_spec {D : Digits} {token : String} {value : Text} (h : maxfailDigits D token = some value) :
    token.toList = maxfail.toList ++ value := by
  simp only [maxfailDigits] at h
  split at h
  · rename_i hp
    obtain ⟨rest, hrest⟩ := List.isPrefixOf_iff_prefix.1 hp.1
    obtain rfl := Option.some.inj h
    rw [← hrest, ← String.length_toList, List.drop_left]
  · cases h

/-- What the guard takes as an argument of pytest. -/
theorem validatePytestToken_spec {D : Digits} {token : String} (h : validatePytestToken D token = .ok ()) :
    PytestFlag D token ∨ validateTestSelector token = .ok () := by
  simp only [validatePytestToken] at h
  split at h
  · rename_i hf
    exact .inl (.inl (by simpa using hf))
  split at h
  · exact (validatePytestRest_spec h).imp_left fun hf => hf D
  · rename_i value hv
    split at h
    · cases h
    · rename_i n hn
      split at h
      · rename_i hb
        exact .inl (.inr (.inl ⟨value, n, maxfailDigits_spec hv, hn, hb.1, hb.2⟩))
      · exact (validatePytestRest_spec h).imp_left fun hf => hf D

theorem validatePackageToken_spec {token : String} (h : validatePackageToken token = .ok ()) :
    token ∈ npmForwardedFlags ∨ validateTestSelector token = .ok () := by
  simp only [validatePackageToken] at h
  split at h
  · rename_i hf
    exact .inl (by simpa using hf)
  split at h
  · cases h
  · exact .inr h

/-! ## Packages -/

/-- A package is relative, and its path is a safe selector between `./` and `/...`. -/
theorem isGoPackage_safe {token : String} (h : isGoPackage token = true) : SafeSelector id token := by
  simp only [isGoPackage, Bool.or_eq_true, decide_eq_true_eq, Bool.and_eq_true, List.isPrefixOf_iff_prefix,
    List.isSuffixOf_iff_suffix] at h
  rcases h with rfl | ⟨⟨⟨y, hy⟩, hsuffix⟩, hs⟩
  · exact ⟨by decide, by decide, by simp⟩
  have hy : '.' :: '/' :: y = token.toList := hy
  have hoperand : ∀ c ∈ ['-', '/', '@'], token.toList.head? ≠ some c := by
    rw [← hy]
    simp
  refine ⟨by rw [id, ← hy]; rfl, ?_, hoperand⟩
  rw [id, ← hy]
  have hsegments : PurePath.segments ('.' :: '/' :: y) = ['.'] :: PurePath.segments y := 
    PurePath.segments_cons y (s := ['.']) (by decide)
  rw [hsegments, List.forall_mem_cons]
  refine ⟨by decide, ?_⟩
  -- the suffix starts inside `y`, or `y` is all of it but the slash
  rw [← hy, List.suffix_cons_iff, List.suffix_cons_iff] at hsuffix
  rcases hsuffix with h | h | ⟨x, rfl⟩
  · exact absurd (List.cons.inj h).1 (by decide)
  · obtain rfl := (List.cons.inj h).2
    decide
  · rw [← hy] at hs
    have hx : ((('.' :: '/' :: (x ++ "/...".toList)).drop 2).dropLast.dropLast.dropLast.dropLast) = x := by
      simp
    rw [hx] at hs
    have hlast : PurePath.segments (x ++ "/...".toList) = PurePath.segments x ++ [['.', '.', '.']] := PurePath.segments_append x _
    rw [hlast]
    intro s hmem
    rcases List.mem_append.1 hmem with hmem | hmem
    · exact (safeRelativeSelector_spec hs).2.2.2 s hmem
    · rw [List.mem_singleton.1 hmem]
      decide

theorem validateGoTokens_spec {args : List String} {packageSeen : Bool} (h : validateGoTokens args packageSeen = .ok ()) :
    ∀ token ∈ args, token = "-count=1" ∨ SafeSelector id token := by
  induction args generalizing packageSeen with
  | nil => simp
  | cons token rest ih =>
    rw [List.forall_mem_cons]
    simp only [validateGoTokens] at h
    split at h
    · rename_i hc
      exact ⟨.inl hc, ih h⟩
    iterate 2
      split at h
      · cases h
    split at h
    · rename_i hp
      exact ⟨.inr (isGoPackage_safe hp), ih h⟩
    · cases h

/-! ## When the promise is kept -/

/-- The arguments of the templates that run pytest. -/
inductive PytestArguments : Text → List String → List String → Prop where
  | pytest {executable args} (h : executable = "pytest".toList) : PytestArguments executable args args
  | pythonPytest {executable args} (h : executable ∈ texts ["python", "python3"]) :
    PytestArguments executable ("-m" :: "pytest" :: args) args

/-- The templates with selectors for a test runner: the check of each argument, and the arguments. -/
inductive RunnerArguments (D : Digits) : Text → List String → (String → Except CommandError Unit) → List String → Prop where
  | pytest {executable args rest} (h : PytestArguments executable args rest) :
    RunnerArguments D executable args (validatePytestToken D) rest
  | package {executable args} (h : executable ∈ texts ["npm", "pnpm"]) :
    RunnerArguments D executable ("test" :: "--" :: args) validatePackageToken args

/-- A `--maxfail=` whose value is made of digits that `int` does not read. -/
def UnreadableMaxfail (D : Digits) (token : String) : Prop := ∃ value, maxfailDigits D token = some value ∧ D.readInt value = none

/-- What the promise takes: no unreadable `--maxfail=` is reached, and where each argument is one the guard would take
none names an option file. -/
structure Clear (D : Digits) (executable : Text) (args : List String) : Prop where
  readable : ∀ rest, PytestArguments executable args rest →
    ∀ token, Reached (validatePytestToken D) rest token → ¬ UnreadableMaxfail D token
  operands : ∀ check rest, RunnerArguments D executable args check rest → (∀ token ∈ rest, check token = .ok ()) →
    ∀ token ∈ rest, token.toList.head? ≠ some '@'

/-- The guard returns and its promise holds, or it raises its own exception. -/
def Meets {α : Type} (x : Except CommandError α) (promise : α → Prop) : Prop :=
  (∃ a, x = .ok a ∧ promise a) ∨ ∃ message, x = .error (.violation message)

theorem validateTestSelector_error {token : String} {e : CommandError} (h : validateTestSelector token = .error e) :
    ∃ message, e = .violation message := by
  simp only [validateTestSelector] at h
  split at h
  · exact ⟨_, (Except.error.inj h).symm⟩
  split at h
  · cases h
  · exact ⟨_, (Except.error.inj h).symm⟩

theorem validatePytestRest_error {token : String} {e : CommandError} (h : validatePytestRest token = .error e) :
    ∃ message, e = .violation message := by
  simp only [validatePytestRest] at h
  iterate 2
    split at h
    · cases h
  split at h
  · exact ⟨_, (Except.error.inj h).symm⟩
  · exact validateTestSelector_error h

theorem validatePackageToken_error {token : String} {e : CommandError} (h : validatePackageToken token = .error e) :
    ∃ message, e = .violation message := by
  simp only [validatePackageToken] at h
  split at h
  · cases h
  split at h
  · exact ⟨_, (Except.error.inj h).symm⟩
  · exact validateTestSelector_error h

theorem pytestFlags_not_maxfail {D : Digits} {token : String} (h : token ∈ pytestFlags) : maxfailDigits D token = none := by
  have hflags : ∀ flag ∈ pytestFlags, maxfail.toList.isPrefixOf flag.toList = false := by decide
  simp [maxfailDigits, hflags token h]

/-- The check of a pytest argument raises what `int` raises exactly for an unreadable `--maxfail=`. -/
theorem validatePytestToken_valueError {D : Digits} {token : String} :
    validatePytestToken D token = .error .valueError ↔ UnreadableMaxfail D token := by
  constructor
  · intro h
    simp only [validatePytestToken] at h
    split at h
    · cases h
    split at h
    · obtain ⟨_, he⟩ := validatePytestRest_error h
      cases he
    · rename_i value hv
      split at h
      · rename_i hn
        exact ⟨value, hv, hn⟩
      · split at h
        · cases h
        · obtain ⟨_, he⟩ := validatePytestRest_error h
          cases he
  · rintro ⟨value, hv, hn⟩
    have hf : token ∉ pytestFlags := fun hf => by simp [pytestFlags_not_maxfail hf] at hv
    simp [validatePytestToken, hf, hv, hn]

theorem normalize_error {argv : List String} {e : CommandError} (h : normalize argv = .error e) :
    ∃ message, e = .violation message := by
  cases argv with
  | nil => exact ⟨_, (Except.error.inj h).symm⟩
  | cons first args =>
    simp only [normalize] at h
    split at h
    · exact ⟨_, (Except.error.inj h).symm⟩
    cases hm : (first :: args).forM normalizeToken with
    | error e' =>
      rw [hm] at h
      obtain rfl := Except.error.inj h
      obtain ⟨token, -, ht⟩ := forM_error_iff.1 hm
      simp only [normalizeToken] at ht
      split at ht
      · exact ⟨_, (Except.error.inj ht).symm⟩
      split at ht
      · exact ⟨_, (Except.error.inj ht).symm⟩
      · cases ht
    | ok u =>
      rw [hm] at h
      simp only [bind, Except.bind] at h
      split at h
      · exact ⟨_, (Except.error.inj h).symm⟩
      · cases h

theorem normalize_ok {argv : List String} {first : String} {args : List String} (h : normalize argv = .ok (first, args)) :
    argv = first :: args := by
  cases argv with
  | nil => cases h
  | cons executable rest =>
    simp only [normalize] at h
    split at h
    · cases h
    simp only [Tx.bind_ok] at h
    obtain ⟨_, -, h⟩ := h
    split at h
    · cases h
    · obtain ⟨rfl, rfl⟩ := Prod.mk.inj (Except.ok.inj h)
      rfl

/-- Checking the arguments one by one keeps a promise when no argument that is reached raises a `ValueError` and the
promise holds once each passes. -/
theorem meets_forM {α : Type} {check : String → Except CommandError Unit} {rest : List String} {a : α} {promise : Prop} :
    Meets (do rest.forM check; pure a) (fun _ => promise) ↔
      (∀ token, Reached check rest token → check token ≠ .error .valueError) ∧
        ((∀ token ∈ rest, check token = .ok ()) → promise) := by
  cases h : rest.forM check with
  | ok u =>
    have hall := forM_ok_iff.1 h
    have hm : Meets (.ok a) (fun _ => promise) ↔ promise := by simp [Meets]
    refine hm.trans ?_
    constructor
    · intro hp
      refine ⟨fun token ht he => ?_, fun _ => hp⟩
      rw [hall token ht.mem] at he
      cases he
    · exact fun hp => hp.2 hall
  | error e =>
    have hnot : ¬ ∀ token ∈ rest, check token = .ok () := fun hall => by
      rw [forM_ok_iff.2 hall] at h
      cases h
    cases e with
    | violation message =>
      refine ⟨fun _ => ⟨fun token ht he => ?_, fun hall => absurd hall hnot⟩, fun _ => .inr ⟨message, rfl⟩⟩
      have := forM_error_iff.2 ⟨token, ht, he⟩
      rw [h] at this
      cases this
    | valueError =>
      obtain ⟨token, ht, he⟩ := forM_error_iff.1 h
      refine ⟨?_, fun hp => absurd he (hp.1 token ht)⟩
      rintro (⟨_, h, -⟩ | ⟨_, h⟩) <;> cases h

/-! ## The arguments of a command -/

theorem pytestFlag_not_at {D : Digits} {token : String} (h : PytestFlag D token) : token.toList.head? ≠ some '@' := by
  rcases h with h | ⟨value, n, h, -⟩ | ⟨value, -, rfl⟩ | ⟨value, -, rfl⟩
  · have hflags : ∀ flag ∈ pytestFlags, flag.toList.head? ≠ some '@' := by decide
    exact hflags token h
  · rw [h]
    simp [maxfail]
  · simp
  · simp

theorem PytestArguments.unique {executable : Text} {args rest rest' : List String} (h : PytestArguments executable args rest)
    (h' : PytestArguments executable args rest') : rest' = rest := by
  cases h with
  | pytest he =>
    cases h' with
    | pytest => rfl
    | pythonPytest h => exact absurd (he ▸ h) (by decide)
  | pythonPytest h =>
    cases h' with
    | pytest he => exact absurd (he ▸ h) (by decide)
    | pythonPytest => rfl

theorem PytestArguments.not_package {executable : Text} {args rest : List String} (h : PytestArguments executable args rest) :
    executable ∉ texts ["npm", "pnpm"] := by
  cases h with
  | pytest he =>
    rw [he]
    decide
  | pythonPytest h =>
    have hall : ∀ e ∈ texts ["python", "python3"], e ∉ texts ["npm", "pnpm"] := by decide
    exact hall _ h

theorem Registered.executable {D : Digits} {argv : List String} {isFlag : String → Prop} {part : Text → Text}
    {args : List String} (h : Registered D argv isFlag part args) {first : String} {rest : List String}
    (he : argv = first :: rest) :
    (PytestArguments (casefold first.toList) rest args ∧ isFlag = PytestFlag D ∧ part = pathPart) ∨
      (casefold first.toList ∈ texts ["npm", "pnpm"] ∧ isFlag = (· ∈ npmForwardedFlags) ∧ part = pathPart ∧
        (rest = ["test"] ∧ args = [] ∨ rest = "test" :: "--" :: args)) ∨
      (casefold first.toList = "go".toList ∧ isFlag = (· = "-count=1") ∧ part = id ∧ rest = "test" :: args) := by
  cases h with
  | pytest h =>
    obtain ⟨rfl, rfl⟩ := List.cons.inj he
    exact .inl ⟨.pytest h, rfl, rfl⟩
  | pythonPytest h =>
    obtain ⟨rfl, rfl⟩ := List.cons.inj he
    exact .inl ⟨.pythonPytest h, rfl, rfl⟩
  | packageAlone h =>
    obtain ⟨rfl, rfl⟩ := List.cons.inj he
    exact .inr (.inl ⟨h, rfl, rfl, .inl ⟨rfl, rfl⟩⟩)
  | packageTest h =>
    obtain ⟨rfl, rfl⟩ := List.cons.inj he
    exact .inr (.inl ⟨h, rfl, rfl, .inr rfl⟩)
  | goTest h =>
    obtain ⟨rfl, rfl⟩ := List.cons.inj he
    exact .inr (.inr ⟨h, rfl, rfl, rfl⟩)

theorem SafeSelector.not_at {part : Text → Text} {token : String} (h : SafeSelector part token) :
    token.toList.head? ≠ some '@' := h.operand _ (by decide)

theorem PytestArguments.not_go {executable : Text} {args rest : List String} (h : PytestArguments executable args rest) :
    executable ≠ "go".toList := by
  rintro rfl
  cases h with
  | pytest he => exact absurd he (by decide)
  | pythonPytest h => exact absurd h (by decide)

/-- Where each argument passes, the promise is that none names an option file. -/
theorem sound_pytest_iff {D : Digits} {first : String} {args rest : List String}
    (h : PytestArguments (casefold first.toList) args rest) (hall : ∀ token ∈ rest, validatePytestToken D token = .ok ()) :
    Sound D (first :: args) ↔ ∀ token ∈ rest, token.toList.head? ≠ some '@' := by
  constructor
  · rintro ⟨isFlag, part, rest', hr, hargs⟩ token ht
    rcases hr.executable rfl with ⟨hp, rfl, rfl⟩ | ⟨hp, -⟩ | ⟨hp, -⟩
    · obtain rfl := h.unique hp
      rcases hargs token ht with hf | hs
      · exact pytestFlag_not_at hf
      · exact hs.not_at
    · exact absurd hp h.not_package
    · exact absurd hp h.not_go
  · intro hat
    refine ⟨PytestFlag D, pathPart, rest, ?_, ?_⟩
    · cases h with
      | pytest he => exact .pytest he
      | pythonPytest he => exact .pythonPytest he
    · intro token ht
      exact (validatePytestToken_spec (hall token ht)).imp_right fun hs => validateTestSelector_safe hs (hat token ht)

theorem sound_package_iff {D : Digits} {first : String} {rest : List String}
    (h : casefold first.toList ∈ texts ["npm", "pnpm"]) (hall : ∀ token ∈ rest, validatePackageToken token = .ok ()) :
    Sound D (first :: "test" :: "--" :: rest) ↔ ∀ token ∈ rest, token.toList.head? ≠ some '@' := by
  constructor
  · rintro ⟨isFlag, part, rest', hr, hargs⟩ token ht
    rcases hr.executable rfl with ⟨hp, -⟩ | ⟨-, rfl, rfl, ⟨he, -⟩ | he⟩ | ⟨hp, -⟩
    · exact absurd h hp.not_package
    · cases he
    · cases he
      rcases hargs token ht with hf | hs
      · have hflags : ∀ flag ∈ npmForwardedFlags, flag.toList.head? ≠ some '@' := by decide
        exact hflags token hf
      · exact hs.not_at
    · rw [hp] at h
      exact absurd h (by decide)
  · intro hat
    refine ⟨_, _, _, .packageTest h, ?_⟩
    intro token ht
    exact (validatePackageToken_spec (hall token ht)).imp_right fun hs => validateTestSelector_safe hs (hat token ht)

theorem validateGoTokens_error {args : List String} {packageSeen : Bool} {e : CommandError}
    (h : validateGoTokens args packageSeen = .error e) : ∃ message, e = .violation message := by
  induction args generalizing packageSeen with
  | nil =>
    simp only [validateGoTokens] at h
    split at h
    · cases h
    · exact ⟨_, (Except.error.inj h).symm⟩
  | cons token rest ih =>
    simp only [validateGoTokens] at h
    split at h
    · exact ih h
    iterate 2
      split at h
      · exact ⟨_, (Except.error.inj h).symm⟩
    split at h
    · exact ih h
    · exact ⟨_, (Except.error.inj h).symm⟩

theorem validateGoTest_meets (D : Digits) {first : String} (args : List String) (h : casefold first.toList = "go".toList) :
    Meets (validateGoTest args) fun _ => Sound D (first :: args) := by
  rcases hv : validateGoTest args with e | u
  · unfold validateGoTest at hv
    split at hv
    · obtain ⟨message, rfl⟩ := validateGoTokens_error hv
      exact .inr ⟨message, rfl⟩
    · exact .inr ⟨_, by rw [← Except.error.inj hv]⟩
  · unfold validateGoTest at hv
    split at hv
    · exact .inl ⟨u, rfl, _, _, _, .goTest h, validateGoTokens_spec hv⟩
    · cases hv

/-! ## When the promise is kept, template by template -/

variable {D : Digits} {executable : Text} {args rest : List String}

theorem Clear.vacuous (h : ∀ check rest, ¬ RunnerArguments D executable args check rest) : Clear D executable args where
  readable rest hp := absurd (.pytest hp) (h _ rest)
  operands check rest hr := absurd hr (h check rest)

theorem clear_pytest_iff (h : PytestArguments executable args rest) :
    Clear D executable args ↔ (∀ token, Reached (validatePytestToken D) rest token → ¬ UnreadableMaxfail D token) ∧
      ((∀ token ∈ rest, validatePytestToken D token = .ok ()) → ∀ token ∈ rest, token.toList.head? ≠ some '@') := by
  constructor
  · exact fun hc => ⟨hc.readable rest h, hc.operands _ rest (.pytest h)⟩
  · rintro ⟨hread, hop⟩
    refine ⟨?_, ?_⟩
    · intro rest' h'
      rw [h.unique h']
      exact hread
    · intro check rest' hr
      cases hr with
      | pytest h' =>
        rw [h.unique h']
        exact hop
      | package h' => exact absurd h' h.not_package

theorem clear_package_iff (h : executable ∈ texts ["npm", "pnpm"]) :
    Clear D executable ("test" :: "--" :: rest) ↔
      ((∀ token ∈ rest, validatePackageToken token = .ok ()) → ∀ token ∈ rest, token.toList.head? ≠ some '@') := by
  constructor
  · exact fun hc => hc.operands _ rest (.package h)
  · intro hop
    refine ⟨fun rest' h' => absurd h h'.not_package, ?_⟩
    intro check rest' hr
    cases hr with
    | pytest h' => exact absurd h h'.not_package
    | package => exact hop

theorem meets_pytest_iff {α : Type} {first : String} {a : α} (h : PytestArguments (casefold first.toList) args rest) :
    Meets (do validatePytest D rest; pure a) (fun _ => Sound D (first :: args)) ↔ Clear D (casefold first.toList) args := by
  rw [clear_pytest_iff h, validatePytest, meets_forM]
  refine and_congr ?_ ?_
  · exact forall₂_congr fun token _ => not_congr validatePytestToken_valueError
  · exact forall_congr' fun hall => sound_pytest_iff h hall

theorem meets_package_iff {α : Type} {first : String} {a : α} (h : casefold first.toList ∈ texts ["npm", "pnpm"]) :
    Meets (do validatePackageTest args; pure a) (fun _ => Sound D (first :: args)) ↔
      Clear D (casefold first.toList) args := by
  have hvacuous : (∀ rest, args ≠ "test" :: "--" :: rest) → Clear D (casefold first.toList) args := by
    intro hne
    refine .vacuous ?_
    rintro check rest (h' | h')
    · exact h'.not_package h
    · exact hne _ rfl
  unfold validatePackageTest
  split
  · refine ⟨fun _ => hvacuous (by simp), fun _ => .inl ⟨a, rfl, _, _, _, .packageAlone h, by simp⟩⟩
  · rename_i rest
    rw [clear_package_iff h, meets_forM]
    constructor
    · intro hm hall
      exact (sound_package_iff h hall).1 (hm.2 hall)
    · intro hc
      refine ⟨fun token _ he => ?_, fun hall => (sound_package_iff h hall).2 (hc hall)⟩
      obtain ⟨_, hv⟩ := validatePackageToken_error he
      cases hv
  · rename_i rest hne
    refine ⟨fun _ => hvacuous fun rest' he => ?_, fun _ => .inr ⟨_, rfl⟩⟩
    cases he
    exact hne _ rfl
  · rename_i hne
    refine ⟨fun _ => hvacuous fun rest' he => ?_, fun _ => .inr ⟨_, rfl⟩⟩
    cases he
    exact hne _ rfl

theorem validateTemplate_meets_iff (first : String) :
    Meets (validateTemplate D first args) (fun _ => Sound D (first :: args)) ↔ Clear D (casefold first.toList) args := by
  have hvacuous : (∀ rest, ¬ PytestArguments (casefold first.toList) args rest) →
      casefold first.toList ∉ texts ["npm", "pnpm"] → Clear D (casefold first.toList) args := by
    intro hp hn
    refine .vacuous ?_
    rintro check rest (h | h)
    · exact hp _ h
    · exact hn h
  simp only [validateTemplate, List.contains_iff_mem]
  split
  · rename_i hp
    exact meets_pytest_iff (.pytest hp)
  rename_i hpytest
  split
  · rename_i hp
    unfold validatePythonPytest
    split
    · exact meets_pytest_iff (.pythonPytest hp)
    · rename_i hne
      refine ⟨fun _ => hvacuous ?_ ?_, fun _ => .inr ⟨_, rfl⟩⟩
      · intro rest h
        cases h with
        | pytest he => exact hpytest he
        | pythonPytest => exact hne _ rfl
      · have hall : ∀ e ∈ texts ["python", "python3"], e ∉ texts ["npm", "pnpm"] := by decide
        exact hall _ hp
  rename_i hpython
  split
  · rename_i hn
    exact meets_package_iff hn
  rename_i hpackage
  have hc : Clear D (casefold first.toList) args := by
    refine hvacuous ?_ hpackage
    rintro rest (h | h)
    · exact hpytest h
    · exact hpython h
  split
  · rename_i hgo
    refine ⟨fun _ => hc, fun _ => ?_⟩
    rcases validateGoTest_meets D args hgo with ⟨_, hv, hs⟩ | ⟨message, hv⟩
    · exact .inl ⟨_, by rw [hv]; rfl, hs⟩
    · exact .inr ⟨message, by rw [hv]; rfl⟩
  · exact ⟨fun _ => hc, fun _ => .inr ⟨_, rfl⟩⟩

/-- The guard keeps its promise exactly on the commands that are clear. -/
theorem validate_sound_iff (D : Digits) (argv : List String) :
    Meets (validate D argv) (fun command => command.argv = argv ∧ Sound D argv) ↔
      ∀ first args, normalize argv = .ok (first, args) → Clear D (casefold first.toList) args := by
  cases hn : normalize argv with
  | error e =>
    obtain ⟨message, rfl⟩ := normalize_error hn
    have hv : validate D argv = .error (.violation message) := by simp [validate, hn, bind, Except.bind]
    constructor
    · intro _ first args h
      cases h
    · exact fun _ => .inr ⟨message, hv⟩
  | ok p =>
    obtain ⟨first, args⟩ := p
    have hargv := normalize_ok hn
    have hv : validate D argv = (validateTemplate D first args).map fun templateId => ⟨templateId, argv⟩ := by
      simp only [validate, hn, bind, Except.bind]
      cases validateTemplate D first args <;> rfl
    have hclear : (∀ first' args', (Except.ok (first, args) : Except CommandError _) = .ok (first', args') →
        Clear D (casefold first'.toList) args') ↔ Clear D (casefold first.toList) args :=
      ⟨fun h => h first args rfl, fun h _ _ he => by cases he; exact h⟩
    rw [hclear, ← validateTemplate_meets_iff first, hv, hargv]
    cases validateTemplate D first args with
    | error e => simp [Meets, Except.map]
    | ok templateId => simp [Meets, Except.map]

/-- The digits of ASCII, and the superscripts that are digits without being decimal. -/
def asciiDigits : Digits where
  isDigit c := c.isDigit || [0xB2, 0xB3, 0xB9].contains c.toNat
  decimal c := if c.isDigit then some (c.toNat - 48) else none

/-- A superscript two makes the guard raise what `int` raises, and an option file passes as a selector. -/
theorem validate_option_file :
    validate asciiDigits ["pytest", "--maxfail=²"] = .error .valueError ∧
      validate asciiDigits ["pytest", "@cfg/test_api.py"] = .ok ⟨"pytest", ["pytest", "@cfg/test_api.py"]⟩ ∧
      ¬ ∀ argv, Meets (validate asciiDigits argv) fun command => command.argv = argv ∧ Sound asciiDigits argv := by
  have hv : validate asciiDigits ["pytest", "--maxfail=²"] = .error .valueError := by decide +kernel
  refine ⟨hv, by decide +kernel, fun h => ?_⟩
  rcases h ["pytest", "--maxfail=²"] with ⟨_, he, -⟩ | ⟨_, he⟩ <;>
  · rw [hv] at he
    cases he

end CommandGuard

end AgentHub.Security
