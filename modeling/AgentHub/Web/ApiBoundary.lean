import AgentHub.Lib.Json
import AgentHub.Web.Urllib
import AgentHub.Workflow.Canonical
/-!
# The boundary of the HTTP surface

`ApiBoundaryMiddleware` judges the head of a request, then reads its body up to a limit, and only then calls the application, which
gets the messages that were read over again.
-/

namespace AgentHub.Web

open Lib Workspace Security

/-! ## Messages -/

/-- A message of the server. -/
structure Message where
  type : String
  body : Bytes := []
  moreBody : Bool := false
  deriving DecidableEq, Repr

/-- A message to the server. -/
inductive SendEvent where
  | start (status : Nat) (headers : List (Bytes × Bytes))
  | body (body : Bytes) (moreBody : Bool)
  deriving DecidableEq, Repr

/-- A scope of the type `http`. -/
structure Scope where
  scheme : Option Text := none
  headers : List (Bytes × Bytes) := []
  queryString : Bytes := []
  path : Text := []
  deriving DecidableEq, Repr

/-- `bytes.decode("latin-1")` -/
def latin1 (bytes : Bytes) : Text := bytes.map fun b => Char.ofNat b.toNat

/-- `bytes.lower()` -/
def lowerBytes (bytes : Bytes) : Bytes := bytes.map fun b => if 65 ≤ b ∧ b ≤ 90 then b + 32 else b

/-- A literal of ASCII bytes. -/
def ascii (text : String) : Bytes := text.toList.map fun c => UInt8.ofNat c.toNat

structure Refusal where
  status : Nat
  code : String
  message : String
  deriving DecidableEq, Repr

/-- `_json_error`. -/
def jsonError (r : Refusal) : List SendEvent :=
  let body := utf8 (String.ofList (Json.write noFloats (.obj [("error", .obj [("code", .str r.code), ("message", .str r.message)])])))
  [.start r.status [(ascii "content-type", ascii "application/json; charset=utf-8"),
      (ascii "content-length", ascii (toString body.length)), (ascii "connection", ascii "close")],
    .body body false]

/-! ## The head of a request -/

/-- `_headers`. -/
def headers (scope : Scope) : Bytes → Option Bytes :=
  scope.headers.foldl (fun result header =>
    let normalized := lowerBytes header.1
    if (result normalized).isSome ∧ (normalized = ascii "host" ∨ normalized = ascii "origin") then
      Function.update result normalized (some [])
    else Function.update result normalized (some header.2)) fun _ => none

/-- `_is_loopback`. -/
def isLoopback (lib : Urllib) (hostname : Text) : Bool :=
  casefold hostname = "localhost".toList || (lib.ipAddress hostname).any (·.isLoopback)

def defaultPort (scheme : Text) : Nat := if scheme = "https".toList then 443 else 80

/-- `_parse_authority`. -/
def parseAuthority (lib : Urllib) (value scheme : Text) : Option (Text × Nat) :=
  if value = [] ∨ '@' ∈ value ∨ '%' ∈ value ∨ value.any isSpace then none
  else do
    let parsed ← urlsplit lib (scheme ++ "://".toList ++ value)
    let given ← port parsed.netloc
    let host ← hostname parsed.netloc
    -- a port of zero counts as none
    let port := match given with
      | some (n + 1) => n + 1
      | _ => defaultPort scheme
    if parsed.path ≠ [] ∨ parsed.query ≠ [] ∨ parsed.fragment ≠ [] ∨ ¬ isLoopback lib host then none
    else some (casefold host, port)

structure ApiBoundaryMiddleware where
  lib : Urllib
  /-- the host, folded -/
  host : Text
  port : Nat
  maxBodyBytes : Nat

namespace ApiBoundaryMiddleware

def invalidHost : Refusal := ⟨421, "invalid_host", "Request host is not allowed."⟩

def invalidOrigin : Refusal := ⟨403, "invalid_origin", "Request origin is not allowed."⟩

def queryTooLarge : Refusal := ⟨414, "query_too_large", "Request query exceeds the limit."⟩

def invalidQuery : Refusal := ⟨400, "invalid_query", "Request query is invalid."⟩

def tokenInUrl : Refusal := ⟨400, "token_in_url", "Credentials must use the Authorization header."⟩

def notFound : Refusal := ⟨404, "not_found", "Endpoint not found."⟩

def invalidContentLength : Refusal := ⟨400, "invalid_content_length", "Invalid request framing."⟩

def bodyTooLarge : Refusal := ⟨413, "request_body_too_large", "Request body exceeds the limit."⟩

/-- Whether an origin is that of the host. -/
def originAllowed (M : ApiBoundaryMiddleware) (scope : Scope) (origin : Text) : Bool :=
  let parsedOrigin := (urlsplit M.lib origin).getD {}
  let originHost := parseAuthority M.lib parsedOrigin.netloc parsedOrigin.scheme
  some parsedOrigin.scheme = scope.scheme && (parsedOrigin.path = [] || parsedOrigin.path = ['/']) && parsedOrigin.query = [] &&
    parsedOrigin.fragment = [] && originHost = some (M.host, M.port)

def tokenKeys : List Text := texts ["token", "access_token"]

/-- The values of the headers `content-length`. -/
def contentLengths (scope : Scope) : List Bytes :=
  (scope.headers.filter fun header => lowerBytes header.1 = ascii "content-length").map Prod.snd

/-- The checks on the query. -/
def checkQuery (scope : Scope) : Except Refusal Unit :=
  if 4096 < scope.queryString.length then .error queryTooLarge
  else
    match parseQsl 128 (latin1 scope.queryString) with
    | none => .error invalidQuery
    | some query => if query.any fun field => tokenKeys.contains (casefold field.1) then .error tokenInUrl else .ok ()

/-- The checks on the declared length. -/
def checkLength (M : ApiBoundaryMiddleware) (scope : Scope) : Except Refusal Unit :=
  match contentLengths scope with
  | [] => .ok ()
  | [value] =>
    match intOf (latin1 value) with
    | none => .error invalidContentLength
    | some declared => if M.maxBodyBytes < declared then .error bodyTooLarge else .ok ()
  | _ => .error invalidContentLength

/-- `__call__` up to the body. -/
def checkHead (M : ApiBoundaryMiddleware) (scope : Scope) : Except Refusal Unit := do
  let host := latin1 ((headers scope (ascii "host")).getD [])
  if parseAuthority M.lib host (scope.scheme.getD "http".toList) ≠ some (M.host, M.port) then throw invalidHost
  match headers scope (ascii "origin") with
  | none => pure ()
  | some origin => if ¬ M.originAllowed scope (latin1 origin) then throw invalidOrigin
  checkQuery scope
  if "/ws/".toList.isPrefixOf scope.path ∨ scope.path = "/ws".toList then throw notFound
  M.checkLength scope

/-! ## The body -/

/-- How a call goes on. -/
inductive Outcome where
  /-- it answers for itself -/
  | responds (events : List SendEvent)
  /-- it calls the application, with what it read and what is still to come -/
  | calls (buffered rest : List Message)
  /-- it waits for a message -/
  | waits
  deriving DecidableEq, Repr

/-- The loop over the messages. -/
def receiveBody (M : ApiBoundaryMiddleware) : List Message → List Message → Nat → Outcome
  | [], _, _ => .waits
  | message :: rest, buffered, received =>
    let buffered := buffered ++ [message]
    if message.type = "http.request" then
      let received := received + message.body.length
      if M.maxBodyBytes < received then .responds (jsonError bodyTooLarge)
      else if ¬ message.moreBody then .calls buffered rest
      else M.receiveBody rest buffered received
    else if message.type = "http.disconnect" then .calls buffered rest
    else M.receiveBody rest buffered received

/-- `__call__` for an `http` scope. -/
def call (M : ApiBoundaryMiddleware) (scope : Scope) (messages : List Message) : Outcome :=
  match M.checkHead scope with
  | .error refusal => .responds (jsonError refusal)
  | .ok () => M.receiveBody messages [] 0

/-- What `replay_receive` has left. -/
structure Replay where
  buffered : List Message
  bufferedIndex : Nat := 0
  rest : List Message
  deriving DecidableEq, Repr

/-- `replay_receive`, `none` while it waits. -/
def replayReceive (r : Replay) : Option (Message × Replay) :=
  match r.buffered[r.bufferedIndex]? with
  | some message => some (message, { r with bufferedIndex := r.bufferedIndex + 1 })
  | none =>
    match r.rest with
    | [] => none
    | message :: rest => some (message, { r with rest := rest })

/-- What the application gets of so many calls. -/
def delivered : Nat → Replay → List Message
  | 0, _ => []
  | n + 1, r =>
    match replayReceive r with
    | none => []
    | some (message, r) => message :: delivered n r

end ApiBoundaryMiddleware

end AgentHub.Web
