import AgentHub.Lib.Checks
import AgentHub.Security.PathRules
/-!
# The command guard

The registered test commands and their arguments. A command is a list of tokens, and the guard either returns it
unchanged or raises.
-/

namespace AgentHub.Security

open Lib

/-- What `str.isdigit` and `int` make of a character. -/
structure Digits where
  isDigit : Char → Bool
  /-- the value of a decimal digit, which is all that `int` reads -/
  decimal : Char → Option Nat

/-- `int(value)` of a value made of digits, `none` where it raises `ValueError`. -/
def Digits.readInt (D : Digits) (value : Text) : Option Nat :=
  value.foldlM (fun n c => (D.decimal c).map (10 * n + ·)) 0

inductive CommandError where
  | violation (message : String)
  /-- the `ValueError` of `int` -/
  | valueError
  deriving DecidableEq, Repr

structure ApprovedCommand where
  templateId : String
  argv : List String
  deriving DecidableEq, Repr

namespace CommandGuard

/-! ## The constants -/

def shellMetacharacters : Text := [';', '&', '|', '>', '<', Char.ofNat 96, Char.ofNat 13, Char.ofNat 10]

def pytestFlags : List String :=
  ["-q", "--quiet", "-x", "--strict-config", "--strict-markers", "--disable-warnings"]

def npmForwardedFlags : List String := ["--passWithNoTests", "--run", "--runInBand", "--watch=false"]

/-- The characters of `_SAFE_SELECTOR`. -/
def isSelectorChar (c : Char) : Bool := isAsciiWord c || ['_', '.', '/', ':', '+', '@', '=', '-'].contains c

/-! ## Tokens -/

/-- Whether a token is the flag with one of the values. -/
def isFlagWith (flag : String) (values : List String) (token : String) : Bool :=
  flag.toList.isPrefixOf token.toList && (texts values).contains (token.toList.drop flag.length)

/-- `token.startswith("-")` -/
def isOption (token : String) : Bool := token.toList.head? = some '-'

/-- `_safe_relative_selector`. -/
def safeRelativeSelector (selector : Text) : Bool :=
  selector ≠ [] && selector.length ≤ 512 && selector.all isSelectorChar && selector.head? ≠ some '/' &&
    selector.head? ≠ some '-' && (PurePath.segments selector).all fun part => part ≠ [] && part ≠ ['.', '.']

/-- `selector.split("::", 1)[0]` -/
def pathPart : Text → Text
  | ':' :: ':' :: _ => []
  | c :: rest => c :: pathPart rest
  | [] => []

/-- Whether a path names tests. -/
def isTestPath (path : Text) : Bool :=
  let lowered := casefold path
  let basename := (PurePath.segments lowered).getLastD []
  lowered = ['.'] || lowered = "tests".toList || "tests/".toList.isPrefixOf lowered ||
    "test_".toList.isPrefixOf basename ||
    (texts ["_test.py", ".test.ts", ".test.tsx", ".spec.ts", ".spec.tsx"]).any (·.isSuffixOf basename)

/-- `_validate_test_selector`. -/
def validateTestSelector (selector : String) : Except CommandError Unit :=
  let path := pathPart selector.toList
  if ':' ∈ path ∨ ¬ safeRelativeSelector path then .error (.violation ("unsafe test selector: " ++ selector))
  else if isTestPath path then .ok ()
  else .error (.violation ("test selector is outside registered test paths: " ++ selector))

/-! ## Arguments -/

def maxfail : String := "--maxfail="

/-- The value of a `--maxfail=` flag made of digits. -/
def maxfailDigits (D : Digits) (token : String) : Option Text :=
  let value := token.toList.drop maxfail.length
  if maxfail.toList.isPrefixOf token.toList ∧ value ≠ [] ∧ value.all D.isDigit then some value else none

/-- What follows in `_validate_pytest` for a token that is neither a listed flag nor a `--maxfail=` in bounds. -/
def validatePytestRest (token : String) : Except CommandError Unit :=
  if isFlagWith "--tb=" ["short", "line", "native", "no"] token then .ok ()
  else if isFlagWith "--color=" ["yes", "no", "auto"] token then .ok ()
  else if isOption token then .error (.violation ("pytest argument is not allowlisted: " ++ token))
  else validateTestSelector token

/-- The body of the loop of `_validate_pytest`. -/
def validatePytestToken (D : Digits) (token : String) : Except CommandError Unit :=
  if pytestFlags.contains token then .ok ()
  else
    match maxfailDigits D token with
    | none => validatePytestRest token
    | some value =>
      match D.readInt value with
      | none => .error .valueError
      | some n => if 1 ≤ n ∧ n ≤ 20 then .ok () else validatePytestRest token

/-- `_validate_pytest`. -/
def validatePytest (D : Digits) (args : List String) : Except CommandError Unit := args.forM (validatePytestToken D)

/-- The body of the loop of `_validate_package_test`. -/
def validatePackageToken (token : String) : Except CommandError Unit :=
  if npmForwardedFlags.contains token then .ok ()
  else if isOption token then .error (.violation ("test runner argument is not allowlisted: " ++ token))
  else validateTestSelector token

/-- `_validate_package_test`, of what follows the executable. -/
def validatePackageTest : List String → Except CommandError Unit
  | "test" :: [] => .ok ()
  | "test" :: "--" :: args => args.forM validatePackageToken
  | "test" :: _ => .error (.violation "test script arguments must follow an explicit '--'")
  | _ => .error (.violation "package managers are only allowed with the test script")

/-- `./...` or `./path/...`. -/
def isGoPackage (token : String) : Bool :=
  token = "./..." ||
    ("./".toList.isPrefixOf token.toList && "/...".toList.isSuffixOf token.toList &&
      safeRelativeSelector ((token.toList.drop 2).dropLast.dropLast.dropLast.dropLast))

/-- The loop of `_validate_go_test`, which accepts one package. -/
def validateGoTokens : List String → Bool → Except CommandError Unit
  | [], packageSeen =>
    if packageSeen then .ok () else .error (.violation "go test requires an explicit package selector")
  | token :: rest, packageSeen =>
    if token = "-count=1" then validateGoTokens rest packageSeen
    else if isOption token then .error (.violation ("go test argument is not allowlisted: " ++ token))
    else if packageSeen then .error (.violation "go test accepts one package selector in demo mode")
    else if isGoPackage token then validateGoTokens rest true
    else .error (.violation "go test package must be './...' or './path/...'")

/-- `_validate_go_test`, of what follows the executable. -/
def validateGoTest : List String → Except CommandError Unit
  | "test" :: first :: args => validateGoTokens (first :: args) false
  | _ => .error (.violation "go is only allowed with the test subcommand")

/-! ## Commands -/

def hasShellSyntax (token : Text) : Bool :=
  token.contains (Char.ofNat 0) || token.tails.any (['$', '('].isPrefixOf ·) || token.any (shellMetacharacters.contains ·)

/-- The check of one token in `_normalize`. -/
def normalizeToken (token : String) : Except CommandError Unit :=
  if token.toList = [] ∨ 4096 < token.length then .error (.violation "every argv token must be a bounded string")
  else if hasShellSyntax token.toList then .error (.violation "shell syntax is not allowed in argv tokens")
  else .ok ()

def isBareName (executable : Text) : Bool :=
  executable.head? ≠ some '-' && executable.head? ≠ some '@' && !executable.contains '/' &&
    !executable.contains backslash && !executable.contains ':'

/-- `_normalize`, which returns its argument as the executable and what follows it. -/
def normalize (argv : List String) : Except CommandError (String × List String) := do
  match argv with
  | [] => throw (.violation "argv must contain 1..64 tokens")
  | executable :: args =>
    if 64 < argv.length then throw (.violation "argv must contain 1..64 tokens")
    argv.forM normalizeToken
    if ¬ isBareName executable.toList then throw (.violation "executable must be a registered bare name")
    pure (executable, args)

/-- What follows `python`. -/
def validatePythonPytest (D : Digits) : List String → Except CommandError Unit
  | "-m" :: "pytest" :: args => validatePytest D args
  | _ => .error (.violation "python is only allowed as 'python -m pytest'")

/-- The templates of `validate`, by the case-folded executable, which answer with their id. -/
def validateTemplate (D : Digits) (first : String) (args : List String) : Except CommandError String :=
  let executable := casefold first.toList
  if executable = "pytest".toList then do
    validatePytest D args
    pure "pytest"
  else if (texts ["python", "python3"]).contains executable then do
    validatePythonPytest D args
    pure "python-pytest"
  else if (texts ["npm", "pnpm"]).contains executable then do
    validatePackageTest args
    pure (String.ofList executable ++ "-test")
  else if executable = "go".toList then do
    validateGoTest args
    pure "go-test"
  else .error (.violation ("unregistered test executable: " ++ first))

/-- `validate`. -/
def validate (D : Digits) (argv : List String) : Except CommandError ApprovedCommand := do
  let (first, args) ← normalize argv
  let templateId ← validateTemplate D first args
  pure ⟨templateId, argv⟩

/-- The loop of `validate_many`. -/
def validateEach (D : Digits) : List (List String) → List (List String) → Except CommandError (List ApprovedCommand)
  | [], _ => pure []
  | candidate :: rest, seen => do
    let command ← validate D candidate
    if seen.contains command.argv then throw (.violation "duplicate command templates are not allowed")
    let approved ← validateEach D rest (seen ++ [command.argv])
    pure (command :: approved)

/-- `validate_many`. -/
def validateMany (D : Digits) (commands : List (List String)) (maxCommands : Nat) :
    Except CommandError (List ApprovedCommand) := do
  if maxCommands < commands.length then
    throw (.violation ("command list exceeds " ++ toString maxCommands ++ " entries"))
  validateEach D commands []

end CommandGuard

end AgentHub.Security
