import AgentHub.Adapters.Cli.Runner
import AgentHub.Adapters.Cli.Streams
import AgentHub.Lib.Checks
/-!
# Events

`sanitize_value`, `_canonical_payload_json` and `CliEvent`. Strings here are Python's, which may hold lone surrogates: a
JSON text can name one. Python's own functions come as a `PyRuntime`, since how deep a value they take is up to the stack.
-/

namespace AgentHub

open Lib

/-! ## Python values -/

/-- A `str`, by its code points. -/
abbrev PyStr := List Nat

def PyStr.of (s : String) : PyStr := s.toList.map Char.toNat

def isSurrogate (n : Nat) : Bool := 0xD800 ≤ n && n ≤ 0xDFFF

/-- The length of `encode("utf-8", "replace")`, which writes a question mark for a surrogate. -/
def PyStr.byteLength (s : PyStr) : Nat :=
  (s.map fun n => if n < 0x80 then 1 else if n < 0x800 then 2 else if isSurrogate n then 1 else if n < 0x10000 then 3 else 4).sum

inductive PyValue (φ : Type) where
  | none
  | bool (b : Bool)
  | int (n : Int)
  | float (x : φ)
  | str (s : PyStr)
  | list (items : List (PyValue φ))
  | dict (fields : List (PyStr × PyValue φ))

/-- The exceptions that matter: `ValueError` with its subclasses, and `RecursionError`. -/
inductive PyError where
  | valueError | recursionError
  deriving DecidableEq, Repr

/-- Where the stack is when a function is called. -/
inductive Site where
  | onLine | emit | create | validate
  deriving DecidableEq, Repr

/-- What Python provides. Each function is told how many frames the stack has left. -/
structure PyRuntime (φ : Type) where
  frames : Site → Nat
  /-- Python 3.11 runs a list comprehension in a frame of its own. -/
  listFrame : Bool
  /-- `json.loads` -/
  loads : Nat → PyStr → Except PyError (PyValue φ)
  /-- `json.dumps` with `ensure_ascii=False, default=str, sort_keys=True` -/
  dumps : Nat → PyValue φ → Except PyError PyStr
  /-- `str` -/
  str : Nat → PyValue φ → Except PyError PyStr
  /-- the substitutions of `redact_string`, `redact_secret_text` among them -/
  redactPatterns : Nat → PyStr → Except PyError PyStr

/-! ## Redaction -/

def isUpperCode (n : Nat) : Bool := 65 ≤ n && n ≤ 90

def isLowerCode (n : Nat) : Bool := 97 ≤ n && n ≤ 122

def isDigitCode (n : Nat) : Bool := 48 ≤ n && n ≤ 57

/-- `_CAMEL_BOUNDARY_RE.sub("_", key)` -/
def camelSpaced : PyStr → PyStr
  | a :: b :: rest =>
    if (isLowerCode a || isDigitCode a) && isUpperCode b then a :: 95 :: camelSpaced (b :: rest)
    else a :: camelSpaced (b :: rest)
  | short => short

def keyWords (key : PyStr) : List PyStr :=
  let words := (camelSpaced key).splitOnP fun n => !(isUpperCode n || isLowerCode n || isDigitCode n)
  (words.filter (· ≠ [])).map fun word => word.map fun n => if isUpperCode n then n + 32 else n

def credentialNouns : List PyStr :=
  ["key", "keys", "secret", "secrets", "token", "tokens", "password", "passwd", "pwd", "pass", "credential",
    "credentials"].map .of

def safeExactWords : List (List PyStr) :=
  [["primary", "key"], ["foreign", "key"], ["unique", "key"], ["candidate", "key"], ["shard", "key"], ["sort", "key"],
    ["partition", "key"], ["token", "count"]].map (·.map .of)

def legacyExact : List PyStr :=
  ["authorization", "cookie", "bearer", "session_id", "sessionid", "auth"].map .of

def isSensitiveKey (key : PyStr) : Bool :=
  let words := keyWords key
  if words = [] then false
  else if words ∈ safeExactWords then false
  else if [95].intercalate words ∈ legacyExact then true
  else words.any (· ∈ credentialNouns)

def maxValueChars : Nat := 2000

def redacted : PyStr := .of "[REDACTED]"

section
variable {φ : Type} (R : PyRuntime φ)

def redactString (frames : Nat) (text : PyStr) : Except PyError PyStr := do
  let truncated := maxValueChars < text.length
  let text ← R.redactPatterns frames (text.take maxValueChars)
  return if truncated then text ++ .of "...<truncated>" else text

/-- The recursion is over the frames that are left. -/
def sanitizeValue : Nat → PyValue φ → Except PyError (PyValue φ)
  | 0, _ => .error .recursionError
  | frames + 1, .dict fields => do
    let cleaned ← fields.mapM fun (key, item) =>
      if isSensitiveKey key then .ok (key, .str redacted) else do
        let item ← sanitizeValue frames item
        return (key, item)
    return .dict cleaned
  | frames + 1, .str s => do
    let s ← redactString R frames s
    return .str s
  | frames + 1, .list items =>
    if R.listFrame then
      match frames with
      | 0 => .error .recursionError
      | frames + 1 => do
        let items ← items.mapM (sanitizeValue frames)
        return .list items
    else do
      let items ← items.mapM (sanitizeValue frames)
      return .list items
  | _ + 1, value => .ok value

/-! ## Events -/

def maxEventBytes : Nat := 4096

def maxEvents : Nat := 1000

abbrev Payload (φ : Type) := List (PyStr × PyValue φ)

def Payload.get (payload : Payload φ) (key : String) (default : PyValue φ) : PyValue φ :=
  ((payload.find? fun field => field.1 = .of key).map (·.2)).getD default

def canonicalPayloadJson (frames : Nat) (payload : Payload φ) : Except PyError PyStr := do
  let clean ← sanitizeValue R frames (.dict payload)
  let encoded ← R.dumps frames clean
  if encoded.byteLength ≤ maxEventBytes then return encoded
  let original ← R.str frames (payload.get "event_type" (.str (.of "cli.unknown")))
  R.dumps frames (.dict [(.of "event_type", .str (.of "cli.event_oversized")),
    (.of "original_type", .str (original.take 128)), (.of "limit_bytes", .int maxEventBytes)])

structure CliEvent where
  seq : Nat
  stream : CliAgentRunner.Stream
  payloadJson : PyStr
  deriving DecidableEq, Repr

/-- `isinstance(value, dict)` -/
def PyValue.asDict : PyValue φ → Except PyError (Payload φ)
  | .dict fields => .ok fields
  | _ => .error .valueError

/-- The construction of a `CliEvent`: pydantic takes no string with a lone surrogate, and then the validator runs. -/
def CliEvent.validated (seq : Nat) (stream : CliAgentRunner.Stream) (payloadJson : PyStr) : Except PyError CliEvent := do
  demand (!payloadJson.any isSurrogate) .valueError
  let parsed ← R.loads (R.frames .validate) payloadJson
  let fields ← parsed.asDict
  let canonical ← canonicalPayloadJson R (R.frames .validate) fields
  demand (canonical.byteLength ≤ maxEventBytes) .valueError
  return { seq := seq, stream := stream, payloadJson := canonical }

def CliEvent.create (seq : Nat) (stream : CliAgentRunner.Stream) (payload : Payload φ) : Except PyError CliEvent := do
  let json ← canonicalPayloadJson R (R.frames .create) payload
  CliEvent.validated R seq stream json

@[simp] theorem asDict_ok {value : PyValue φ} {fields : Payload φ} : value.asDict = .ok fields ↔ value = .dict fields := by
  cases value <;> simp [PyValue.asDict]

end

end AgentHub
