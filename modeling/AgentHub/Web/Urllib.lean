import AgentHub.Adapters.Cli.Streams
import AgentHub.Security.Respelling
/-!
# URLs

`urlsplit`, the fields of its result and `parse_qsl`, as far as the boundary of the server uses them. What they ask of addresses and
of Unicode is left to the host.
-/

namespace AgentHub.Web

open Lib Workspace Security

/-- `text.partition(c)[0]` -/
def before (c : Char) (text : Text) : Text := text.takeWhile (· ≠ c)

/-- `text.partition(c)[2]` -/
def after (c : Char) (text : Text) : Text := (text.dropWhile (· ≠ c)).drop 1

/-- `text.rpartition(c)[2]` -/
def afterLast (c : Char) (text : Text) : Text := (text.reverse.takeWhile (· ≠ c)).reverse

/-- What `ipaddress.ip_address` makes of a text. -/
structure Address where
  isV4 : Bool
  isLoopback : Bool
  deriving DecidableEq, Repr

/-- What the library asks of others. -/
structure Urllib where
  /-- `ipaddress.ip_address(text)`, `none` where it raises -/
  ipAddress : Text → Option Address
  /-- no character of a netloc decomposes under NFKC into one of `/?#@:` -/
  nfkcSafe : Text → Bool

/-- The digits that `int` takes at most. -/
def maxStrDigits : Nat := 4300

/-- `int(text)` of ASCII digits, `none` where it raises. -/
def intOf (digits : Text) : Option Nat :=
  if digits ≠ [] ∧ digits.all Char.isDigit ∧ digits.length ≤ maxStrDigits then some (Nat.ofDigitChars 10 digits 0) else none

/-! ## Splitting -/

structure SplitResult where
  scheme : Text := []
  netloc : Text := []
  path : Text := []
  query : Text := []
  fragment : Text := []
  deriving DecidableEq, Repr

/-- Leading control characters and spaces go, and tabs and line ends everywhere. -/
def stripUnsafe (url : Text) : Text :=
  (url.dropWhile fun c => c.toNat ≤ 32).filter fun c => c.toNat ≠ 9 && c.toNat ≠ 10 && c.toNat ≠ 13

def isSchemeChar (c : Char) : Bool := c.isAlphanum || c = '+' || c = '-' || c = '.'

def isScheme : Text → Bool
  | [] => false
  | c :: rest => c.isAlpha && rest.all isSchemeChar

def splitScheme (url : Text) : Text × Text :=
  if ':' ∈ url ∧ isScheme (before ':' url) then (lower (before ':' url), after ':' url) else ([], url)

def isDelimiter (c : Char) : Bool := c = '/' || c = '?' || c = '#'

def splitNetloc : Text → Text × Text
  | '/' :: '/' :: rest => (rest.takeWhile (!isDelimiter ·), rest.dropWhile (!isDelimiter ·))
  | rest => ([], rest)

def isIpvFuture : Text → Bool
  | 'v' :: rest => 1 ≤ (before '.' rest).length && (before '.' rest).all (fun c => c.isDigit || 'a' ≤ c && c ≤ 'f' || 'A' ≤ c && c ≤ 'F') &&
      1 ≤ (after '.' rest).length
  | _ => false

/-- The checks on the brackets of a netloc. -/
def bracketsOk (lib : Urllib) (netloc : Text) : Bool :=
  let hostAndPort := afterLast '@' netloc
  let hostLiteral (host : Text) : Bool :=
    if host.head? = some 'v' then isIpvFuture host else (lib.ipAddress host).any (!·.isV4)
  if '[' ∉ netloc ∧ ']' ∉ netloc then true
  else if '[' ∉ netloc ∨ ']' ∉ netloc then false
  else if '[' ∈ hostAndPort then
    before '[' hostAndPort = [] && ((after ']' (after '[' hostAndPort)).head?.all (· = ':')) &&
      hostLiteral (before ']' (after '[' hostAndPort))
  else hostLiteral (before ':' hostAndPort)

/-- `urlsplit`, `none` where it raises. -/
def urlsplit (lib : Urllib) (url : Text) : Option SplitResult :=
  let (scheme, rest) := splitScheme (stripUnsafe url)
  let (netloc, rest) := splitNetloc rest
  let (rest, fragment) := (before '#' rest, after '#' rest)
  if bracketsOk lib netloc && lib.nfkcSafe netloc then some ⟨scheme, netloc, before '?' rest, after '?' rest, fragment⟩ else none

/-- `_hostinfo`: the text of the host and of the port. -/
def hostinfo (netloc : Text) : Text × Text :=
  let info := afterLast '@' netloc
  if '[' ∈ info then (before ']' (after '[' info), after ':' (after ']' (after '[' info))) else (before ':' info, after ':' info)

/-- `hostname` of a netloc without a zone. -/
def hostname (netloc : Text) : Option Text :=
  let host := (hostinfo netloc).1
  if host = [] then none else some (lower host)

/-- `port`: the inner option is the port, the outer is `none` where it raises. -/
def port (netloc : Text) : Option (Option Nat) :=
  let text := (hostinfo netloc).2
  if text = [] then some none
  else
    match intOf text with
    | none => none
    | some n => if n ≤ 65535 then some (some n) else none

/-! ## Queries -/

def hexValue (c : Char) : Option Nat :=
  if c.isDigit then some (c.toNat - 48)
  else if 'a' ≤ c ∧ c ≤ 'f' then some (c.toNat - 87)
  else if 'A' ≤ c ∧ c ≤ 'F' then some (c.toNat - 55)
  else none

/-- The byte that two characters spell. -/
def hexByte (a b : Char) : Option UInt8 := do
  let high ← hexValue a
  let low ← hexValue b
  some (UInt8.ofNat (high * 16 + low))

/-- `unquote_to_bytes` of an ASCII text. -/
def unquoteToBytes : Text → Bytes
  | c :: a :: b :: rest =>
    match if c = '%' then hexByte a b else none with
    | some byte => byte :: unquoteToBytes rest
    | none => UInt8.ofNat c.toNat :: unquoteToBytes (a :: b :: rest)
  | text => text.map fun c => UInt8.ofNat c.toNat

/-- `bytes.decode("utf-8", errors="replace")` -/
def decodeReplace (bytes : Bytes) : Text :=
  (Utf8.finalPieces bytes).map fun
    | .char c => c
    | .dropped _ => Char.ofNat 0xFFFD

/-- `unquote`: each run of ASCII characters is read for itself. -/
def unquoteRuns (run : Text) : Text → Text
  | [] => decodeReplace (unquoteToBytes run)
  | c :: rest =>
    if c.toNat < 128 then unquoteRuns (run ++ [c]) rest
    else decodeReplace (unquoteToBytes run) ++ c :: unquoteRuns [] rest

def unquote (text : Text) : Text := if '%' ∈ text then unquoteRuns [] text else text

def plusToSpace (text : Text) : Text := text.map fun c => if c = '+' then ' ' else c

/-- A field of a query, read. -/
def readField (field : Text) : Text × Text := (unquote (plusToSpace (before '=' field)), unquote (plusToSpace (after '=' field)))

/-- `parse_qsl(query, keep_blank_values=True, max_num_fields=maxNumFields)`, `none` where it raises. -/
def parseQsl (maxNumFields : Nat) (query : Text) : Option (List (Text × Text)) :=
  if query = [] then some []
  else if maxNumFields < 1 + query.count '&' then none
  else some (((query.splitOn '&').filter (· ≠ [])).map readField)

end AgentHub.Web
