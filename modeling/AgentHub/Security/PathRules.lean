import AgentHub.Lib.PurePath
import AgentHub.Workflow.Graph
import AgentHub.Workspace.Files
/-!
# Path rules

The rules shared by the workspace and the capability gates: which spellings are paths at all, and which paths may hold
secrets or control the runtime. A text is the list of its characters.
-/

namespace AgentHub.Security

open Lib Workspace

abbrev Text : Type := List Char

def texts (values : List String) : List Text := values.map String.toList

/-! ## Text -/

/-- `str.upper` as far as its result is ASCII text: letters, and the characters whose upper case is letters. -/
def upperChar (c : Char) : Text :=
  if c.val = 0xDF then ['S', 'S']
  else if c.val = 0x131 then ['I']
  else if c.val = 0x17F then ['S']
  else if c.val = 0xFB00 then ['F', 'F']
  else if c.val = 0xFB01 then ['F', 'I']
  else if c.val = 0xFB02 then ['F', 'L']
  else if c.val = 0xFB03 then ['F', 'F', 'I']
  else if c.val = 0xFB04 then ['F', 'F', 'L']
  else if c.val = 0xFB05 ∨ c.val = 0xFB06 then ['S', 'T']
  else [c.toUpper]

def upper (s : Text) : Text := s.flatMap upperChar

/-- `ord(character) < 32 or ord(character) == 127` -/
def isControl (c : Char) : Bool := c.toNat < 32 || c.toNat = 127

/-- `value.rsplit(".", 1)[0]` -/
def beforeLastDot (s : Text) : Text :=
  if '.' ∈ s then ((s.reverse.dropWhile (· ≠ '.')).drop 1).reverse else s

/-! ## The constants -/

def backslash : Char := Char.ofNat 92

def globChars : Text := ['*', '?', '[', ']']

def dosReservedNames : List Text :=
  texts ["CON", "PRN", "AUX", "NUL", "COM1", "COM2", "COM3", "COM4", "COM5", "COM6", "COM7", "COM8", "COM9",
    "LPT1", "LPT2", "LPT3", "LPT4", "LPT5", "LPT6", "LPT7", "LPT8", "LPT9"]

def secretBasenames : List Text := texts [
  ".envrc", ".netrc", ".npmrc", ".terraformrc", ".pypirc", ".yarnrc", ".yarnrc.yml", "_netrc",
  "application_default_credentials.json", "auth.json", "api-key.json", "apikey.json", "apikeys.json",
  "access-token.json", "id_rsa", "id_dsa", "id_ecdsa", "id_ed25519", "credentials", "credentials.json",
  "credentials.toml", "credentials.tfrc.json", "gradle.properties", "nuget.config", "pip.conf", "pip.ini", "jwt.json",
  "oauth.json", "password.json", "passwords.json", "private.json", "secret.json", "secrets.json",
  "service-account.json", "settings-security.xml", "token.json", "tokens.json"]

def secretComponents : List Text :=
  texts [".aws", ".azure", ".cargo", ".docker", ".gradle", ".kube", ".m2", ".terraform.d", "gcloud"]

def secretPathPrefixes : List (List Text) :=
  [[".config", "gh"], [".config", "glab"], [".config", "gcloud"], [".config", "pypoetry"], [".config", "rclone"]].map texts

def forbiddenComponents : List Text :=
  texts [".agent-hub", ".aider", ".claude", ".codex", ".git", ".opencode", ".ssh"]

def forbiddenBasenames : List Text := texts [
  ".aider.conf.yml", ".gitattributes", ".gitmodules", "agents.md", "claude.md", "opencode.json", "opencode.jsonc"]

def sensitiveNameWords : List Text := texts [
  "access", "auth", "credential", "credentials", "key", "pass", "passwd", "password", "private", "pwd", "secret",
  "secrets", "security", "token", "tokens"]

def sensitiveDirectoryTerminals : List Text := texts [
  "access", "credential", "credentials", "key", "pass", "passwd", "password", "private", "secret", "secrets", "token",
  "tokens"]

def sensitiveNameSequences : List (List Text) := [["service", "account"], ["settings", "security"]].map texts

/-! ## Spellings -/

/-- `_SHORT_NAME_PATTERN`: something, a tilde, digits, then the end or a dot. -/
def isShortName (part : Text) : Bool :=
  (part.drop 1).tails.any fun
    | '~' :: rest =>
      let after := rest.dropWhile (·.isDigit)
      decide (after.length < rest.length) && (after.head?.all (· = '.'))
    | _ => false

/-- `PureWindowsPath(candidate).drive or .root`, for a candidate without backslashes. -/
def hasWindowsDriveOrRoot (candidate : Text) : Bool := candidate.head? = some '/' || candidate[1]? = some ':'

/-- `PureWindowsPath(candidate).is_absolute()`, for a candidate without backslashes: a drive and a root, or a share. -/
def isWindowsAbsolute (candidate : Text) : Bool :=
  (texts ["//"]).any (·.isPrefixOf candidate) || (candidate[1]? = some ':' && candidate[2]? = some '/')

def isRelativeSegment (part : Text) : Bool := part = [] || part = ['.'] || part = ['.', '.']

/-- `relative_parts`. -/
def relativeParts (H : Host) (candidate : String) : Option (List Text) :=
  let text := candidate.toList
  let parts := PurePath.parts text
  if text = [] ∨ backslash ∈ text then none
  else if text.any isControl ∨ text.any (globChars.contains ·) then none
  else if H.nfc candidate ≠ candidate then none
  else if PurePath.isAbsolute text ∨ isWindowsAbsolute text then none
  else if parts = [] ∨ parts.any isRelativeSegment then none
  else if parts.any fun part =>
      part.getLast? = some '.' || part.getLast? = some ' ' || part.contains ':' ||
        dosReservedNames.contains (upper (beforeLastDot part)) || isShortName part then none
  else some parts

/-! ## Names -/

def isAsciiUpper (c : Char) : Bool := 'A' ≤ c && c ≤ 'Z'

def isAsciiLower (c : Char) : Bool := 'a' ≤ c && c ≤ 'z'

/-- A space at every place where `boundary` holds of the character before and the text after. -/
def spaced (boundary : Char → Text → Bool) : Text → Text
  | [] => []
  | c :: rest => if boundary c rest then c :: ' ' :: spaced boundary rest else c :: spaced boundary rest

/-- `_CAMEL_BOUNDARY_1` -/
def camelBoundary1 (c : Char) (rest : Text) : Bool := (isAsciiLower c || c.isDigit) && rest.head?.any isAsciiUpper

/-- `_CAMEL_BOUNDARY_2` -/
def camelBoundary2 (c : Char) (rest : Text) : Bool :=
  isAsciiUpper c && rest.head?.any isAsciiUpper && rest[1]?.any isAsciiLower

def isAsciiWord (c : Char) : Bool := isAsciiUpper c || isAsciiLower c || c.isDigit

/-- `_name_words`. -/
def nameWords (name : Text) : List Text :=
  let value := spaced camelBoundary1 (spaced camelBoundary2 name)
  ((value.splitOnP fun c => !isAsciiWord c).filter (· ≠ [])).map casefold

/-- Whether one of the sequences stands in a list without gaps. -/
def hasSequence (sequences : List (List Text)) (l : List Text) : Bool := l.tails.any fun t => sequences.any (·.isPrefixOf t)

/-- `_sensitive_basename`. -/
def sensitiveBasename (rawName : Text) : Bool :=
  let name := casefold rawName
  let words := nameWords (beforeLastDot rawName)
  (name = ".env".toList || ".env.".toList.isPrefixOf name || ".envrc.".toList.isPrefixOf name ||
    secretBasenames.contains name || (texts [".pem", ".key", ".p12", ".pfx"]).any (·.isSuffixOf name)) ||
  (words.any (sensitiveNameWords.contains ·) || hasSequence sensitiveNameSequences words)

/-- `_sensitive_directory`. -/
def sensitiveDirectory (parts : List Text) : Bool :=
  let lowered := parts.map casefold
  lowered.any (fun part => secretComponents.contains part || forbiddenComponents.contains part) ||
  hasSequence secretPathPrefixes lowered ||
  parts.dropLast.any fun component => (nameWords component).getLast?.any (sensitiveDirectoryTerminals.contains ·)

/-- `is_restricted_relative_path`. -/
def isRestrictedRelativePath (H : Host) (candidate : String) : Bool :=
  match relativeParts H candidate with
  | none => true
  | some parts =>
    sensitiveDirectory parts || forbiddenBasenames.contains (casefold (parts.getLastD [])) ||
      sensitiveBasename (parts.getLastD [])

end AgentHub.Security
