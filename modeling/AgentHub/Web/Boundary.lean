import AgentHub.Web.Authority
/-!
# What the boundary lets through

A call of the application comes after all checks, with the messages as they were received (`delivered_eq`). The checks ask for what they
should but for the two slips of `_parse_authority` (`meets_iff`).
-/

namespace AgentHub.Web

open Lib Workspace Security

/-! ## Headers -/

/-- The values of the headers of a name. -/
def headerValues (scope : Scope) (name : Bytes) : List Bytes :=
  (scope.headers.filter fun header => lowerBytes header.1 = name).map Prod.snd

/-- A value after another of the same name. -/
def nextValue (result : Option Bytes) (value : Bytes) : Option Bytes := if result.isSome then some [] else some value

theorem headers_eq (scope : Scope) {name : Bytes} (hname : name = ascii "host" ∨ name = ascii "origin") :
    headers scope name = (headerValues scope name).foldl nextValue none := by
  have hrun : ∀ (l : List (Bytes × Bytes)) (result : Bytes → Option Bytes),
      l.foldl (fun result header =>
        let normalized := lowerBytes header.1
        if (result normalized).isSome ∧ (normalized = ascii "host" ∨ normalized = ascii "origin") then
          Function.update result normalized (some [])
        else Function.update result normalized (some header.2)) result name =
      ((l.filter fun header => lowerBytes header.1 = name).map Prod.snd).foldl nextValue (result name) := by
    intro l
    induction l with
    | nil => exact fun _ => rfl
    | cons header l ih =>
      intro result
      rw [List.foldl_cons, ih]
      by_cases hheader : lowerBytes header.1 = name
      · rw [List.filter_cons_of_pos (by simpa using hheader), List.map_cons, List.foldl_cons]
        congr 1
        simp only [hheader, hname, and_true, nextValue]
        split <;> exact Function.update_self ..
      · rw [List.filter_cons_of_neg (by simpa using hheader)]
        congr 1
        split <;> exact Function.update_of_ne (Ne.symm hheader) ..
  exact hrun scope.headers fun _ => none

/-- A name that occurs more than once has the empty value. -/
theorem foldl_nextValue (values : List Bytes) (first : Bytes) :
    values.foldl nextValue (some first) = if values = [] then some first else some [] := by
  induction values generalizing first with
  | nil => rfl
  | cons value values ih =>
    rw [List.foldl_cons, if_neg (List.cons_ne_nil _ _)]
    change values.foldl nextValue (some []) = _
    rw [ih, ite_self]

theorem headers_some {scope : Scope} {name value : Bytes} (hname : name = ascii "host" ∨ name = ascii "origin")
    (h : headers scope name = some value) : headerValues scope name = [value] ∨ value = [] := by
  rw [headers_eq scope hname] at h
  match hvalues : headerValues scope name, h with
  | first :: rest, h =>
    rw [List.foldl_cons] at h
    change rest.foldl nextValue (some first) = _ at h
    rw [foldl_nextValue] at h
    split at h
    · rename_i hrest
      rw [hrest, Option.some.inj h]
      exact .inl rfl
    · exact .inr (Option.some.inj h).symm

theorem headers_none {scope : Scope} {name : Bytes} (hname : name = ascii "host" ∨ name = ascii "origin")
    (h : headers scope name = none) : headerValues scope name = [] := by
  rw [headers_eq scope hname] at h
  match hvalues : headerValues scope name, h with
  | [], _ => rfl
  | first :: rest, h =>
    rw [List.foldl_cons] at h
    change rest.foldl nextValue (some first) = _ at h
    rw [foldl_nextValue] at h
    split at h <;> cases h

/-! ## Queries -/

/-- A text that spells a name in some case, some of its characters by their codes. -/
inductive Spells : Text → Text → Prop where
  | nil : Spells [] []
  | char {c n : Char} {raw name : Text} (hc : c.toLower = n) (h : Spells raw name) : Spells (c :: raw) (n :: name)
  | percent {a b n : Char} {byte : UInt8} {raw name : Text} (hbyte : hexByte a b = some byte)
      (hc : (Char.ofNat byte.toNat).toLower = n) (h : Spells raw name) : Spells ('%' :: a :: b :: raw) (n :: name)

/-- The characters of the names: ASCII characters that a query writes as they are. -/
def isPlainChar (c : Char) : Bool := c.toNat < 128 && c ≠ '%' && c ≠ '+'

theorem toNat_lt_of_toLower {c : Char} (h : c.toLower.toNat < 128) : c.toNat < 128 := by
  by_cases hc : c.isUpper = true
  · have hle := (toNat_of_upper hc).2
    omega
  · rwa [Char.toLower_eq_of_not_isUpper hc] at h

theorem unquoteToBytes_cons {c : Char} (hc : c ≠ '%') (text : Text) :
    unquoteToBytes (c :: text) = UInt8.ofNat c.toNat :: unquoteToBytes text := by
  match text with
  | [] => rfl
  | [_] => rfl
  | _ :: _ :: _ => rw [unquoteToBytes, if_neg hc]

theorem unquoteToBytes_percent {a b : Char} {byte : UInt8} (h : hexByte a b = some byte) (text : Text) :
    unquoteToBytes ('%' :: a :: b :: text) = byte :: unquoteToBytes text := by
  rw [unquoteToBytes, if_pos rfl, h]

theorem hexValue_some {c : Char} {n : Nat} (h : hexValue c = some n) : c.toNat < 128 ∧ c ≠ '+' := by
  have hle : c.toNat < 128 := by
    rw [hexValue] at h
    split at h
    · rename_i hdigit
      simp only [Char.isDigit, Bool.and_eq_true, decide_eq_true_eq] at hdigit
      exact (UInt32.le_iff_toNat_le.1 hdigit.2).trans_lt (by decide)
    · split at h
      · rename_i hsmall
        exact (UInt32.le_iff_toNat_le.1 hsmall.2).trans_lt (by decide)
      · split at h
        · rename_i hbig
          exact (UInt32.le_iff_toNat_le.1 hbig.2).trans_lt (by decide)
        · cases h
  refine ⟨hle, ?_⟩
  rintro rfl
  exact absurd h (by simp [hexValue])

theorem unquoteRuns_ascii {text : Text} (h : ∀ c ∈ text, c.toNat < 128) (run : Text) :
    unquoteRuns run text = decodeReplace (unquoteToBytes (run ++ text)) := by
  induction text generalizing run with
  | nil => rw [unquoteRuns, List.append_nil]
  | cons c text ih =>
    rw [List.forall_mem_cons] at h
    rw [unquoteRuns, if_pos h.1, ih h.2, List.append_assoc, List.singleton_append]

theorem decodeReplace_ascii {t : Text} (h : ∀ c ∈ t, c.toNat < 128) : decodeReplace (t.map fun c => UInt8.ofNat c.toNat) = t := by
  have hencode : (t.map fun c => UInt8.ofNat c.toNat) = Utf8.encode t := by
    rw [Utf8.encode, List.map_eq_flatMap]
    refine List.flatMap_congr fun c hc => ?_
    have hle : c.val.toNat ≤ 127 := Nat.le_of_lt_succ (h c hc)
    rw [String.utf8EncodeChar, if_pos hle]
    rfl
  have hpieces := Utf8.pieces_encode t []
  rw [List.append_nil, Utf8.pieces_nil] at hpieces
  rw [hencode, decodeReplace, Utf8.finalPieces, hpieces, if_pos rfl, List.append_nil, List.append_nil, List.map_map]
  exact List.map_id'' (fun _ => rfl) t

theorem casefold_ascii {t : Text} (h : ∀ c ∈ t, c.toNat < 128) : casefold t = lower t := by
  rw [casefold, lower, List.map_eq_flatMap]
  exact List.flatMap_congr fun c hc => casefoldChar_ascii (h c hc)

section
variable {raw name : Text} (hname : ∀ c ∈ name, isPlainChar c = true) (h : Spells raw name)
include hname h

/-- What spells a name is read as the name in some case. -/
theorem Spells.unquoteToBytes :
    ∃ t : Text, lower t = name ∧ (∀ c ∈ t, c.toNat < 128) ∧ Web.unquoteToBytes raw = t.map fun c => UInt8.ofNat c.toNat := by
  induction h with
  | nil => exact ⟨[], rfl, by simp, rfl⟩
  | @char c n raw name hc h ih =>
    rw [List.forall_mem_cons, isPlainChar, Bool.and_eq_true, Bool.and_eq_true, decide_eq_true_eq, decide_eq_true_eq] at hname
    obtain ⟨⟨⟨hn, hpercent⟩, -⟩, hrest⟩ := hname
    obtain ⟨t, hlower, hascii, hbytes⟩ := ih hrest
    have hne : c ≠ '%' := by
      rintro rfl
      exact hpercent (hc ▸ rfl)
    refine ⟨c :: t, congrArg₂ List.cons hc hlower, List.forall_mem_cons.2 ⟨toNat_lt_of_toLower (by rwa [hc]), hascii⟩, ?_⟩
    rw [unquoteToBytes_cons hne, hbytes]
    rfl
  | @percent a b n byte raw name hbyte hc h ih =>
    rw [List.forall_mem_cons, isPlainChar, Bool.and_eq_true, Bool.and_eq_true, decide_eq_true_eq] at hname
    obtain ⟨⟨⟨hn, -⟩, -⟩, hrest⟩ := hname
    obtain ⟨t, hlower, hascii, hbytes⟩ := ih hrest
    have hvalid : (Char.ofNat byte.toNat).toNat = byte.toNat := by
      have hlt := byte.toNat_lt
      rw [Char.toNat_ofNat, if_pos (.inl (by omega))]
    refine ⟨Char.ofNat byte.toNat :: t, congrArg₂ List.cons hc hlower,
      List.forall_mem_cons.2 ⟨toNat_lt_of_toLower (by rwa [hc]), hascii⟩, ?_⟩
    rw [unquoteToBytes_percent hbyte, hbytes, List.map_cons, hvalid, UInt8.ofNat_toNat]

/-- All it is written with is ASCII, and no plus. -/
theorem Spells.chars : ∀ c ∈ raw, c.toNat < 128 ∧ c ≠ '+' := by
  induction h with
  | nil => simp
  | @char c n raw name hc h ih =>
    rw [List.forall_mem_cons, isPlainChar, Bool.and_eq_true, Bool.and_eq_true, decide_eq_true_eq, decide_eq_true_eq,
      decide_eq_true_eq] at hname
    refine List.forall_mem_cons.2 ⟨⟨toNat_lt_of_toLower (by rw [hc]; exact hname.1.1.1), ?_⟩, ih hname.2⟩
    rintro rfl
    exact hname.1.2 (hc ▸ rfl)
  | @percent a b n byte raw name hbyte hc h ih =>
    rw [List.forall_mem_cons] at hname
    simp only [hexByte, Option.bind_eq_bind, Option.bind_eq_some_iff] at hbyte
    obtain ⟨high, hhigh, low, hlow, -⟩ := hbyte
    simp only [List.forall_mem_cons]
    exact ⟨by decide, hexValue_some hhigh, hexValue_some hlow, ih hname.2⟩

omit hname in
theorem Spells.lower_of_plain (hplain : '%' ∉ raw) : lower raw = name := by
  induction h with
  | nil => rfl
  | char hc h ih => exact congrArg₂ List.cons hc (ih fun hmem => hplain (List.mem_cons_of_mem _ hmem))
  | percent => exact absurd List.mem_cons_self hplain

theorem Spells.casefold_unquote : casefold (unquote (plusToSpace raw)) = name := by
  have hchars := h.chars hname
  have hplus : plusToSpace raw = raw := by
    conv_rhs => rw [← List.map_id raw]
    exact List.map_congr_left fun c hc => if_neg (hchars c hc).2
  rw [hplus, unquote]
  split
  · obtain ⟨t, hlower, hascii, hbytes⟩ := h.unquoteToBytes hname
    rw [unquoteRuns_ascii fun c hc => (hchars c hc).1, List.nil_append, hbytes, decodeReplace_ascii hascii, ← hlower,
      casefold_ascii hascii]
  · rename_i hplain
    rw [casefold_ascii fun c hc => (hchars c hc).1, h.lower_of_plain hplain]

end

/-- No field of a query has a name that spells one of the keys of tokens. -/
def QueryClean (query : Text) : Prop := ∀ field ∈ query.splitOn '&', ∀ name ∈ ApiBoundaryMiddleware.tokenKeys, ¬ Spells (before '=' field) name

theorem queryClean_of_check {scope : Scope} (h : ApiBoundaryMiddleware.checkQuery scope = .ok ()) :
    QueryClean (latin1 scope.queryString) := by
  intro field hfield name hname hspells
  have hplain : ApiBoundaryMiddleware.tokenKeys.all (·.all isPlainChar) = true := by decide
  have hfold := hspells.casefold_unquote (List.all_eq_true.1 (List.all_eq_true.1 hplain name hname))
  have hnonempty : ∀ name ∈ ApiBoundaryMiddleware.tokenKeys, name ≠ [] := by decide
  have hne : field ≠ [] := by
    rintro rfl
    cases hspells
    exact hnonempty [] hname rfl
  have hquery : latin1 scope.queryString ≠ [] := by
    intro hnil
    rw [hnil] at hfield
    exact hne (List.mem_singleton.1 hfield)
  rw [ApiBoundaryMiddleware.checkQuery] at h
  split at h
  · cases h
  rw [parseQsl, if_neg hquery] at h
  split at h
  · cases h
  rename_i query hparse
  split at hparse
  · cases hparse
  obtain rfl := Option.some.inj hparse
  split at h
  · cases h
  rename_i hkeys
  refine hkeys (List.any_eq_true.2 ⟨readField field, List.mem_map_of_mem (List.mem_filter.2 ⟨hfield, by simpa using hne⟩), ?_⟩)
  rw [readField, hfold]
  exact List.contains_iff_mem.2 hname

/-! ## Bodies -/

/-- The message after which nothing of a body comes. -/
def Message.isFinal (m : Message) : Bool := m.type = "http.request" && !m.moreBody || m.type = "http.disconnect"

/-- The messages up to the last of a body. -/
def upToFinal : List Message → List Message
  | [] => []
  | m :: rest => if m.isFinal then [m] else m :: upToFinal rest

/-- The bytes of a body. -/
def bodyBytes (messages : List Message) : Nat :=
  ((messages.filter fun m => m.type = "http.request").map fun m => m.body.length).sum

namespace ApiBoundaryMiddleware

variable {M : ApiBoundaryMiddleware} {scope : Scope} {messages : List Message}

theorem bodyBytes_cons (m : Message) (rest : List Message) :
    bodyBytes (m :: rest) = (if m.type = "http.request" then m.body.length else 0) + bodyBytes rest := by
  by_cases hm : m.type = "http.request" <;> simp [bodyBytes, hm]

/-- A round of the loop, by whether the message is too much or the last. -/
theorem receiveBody_cons (m : Message) (rest buffered : List Message) (received : Nat) (h : received ≤ M.maxBodyBytes) :
    M.receiveBody (m :: rest) buffered received =
      if M.maxBodyBytes < received + bodyBytes [m] then .responds (jsonError bodyTooLarge)
      else if m.isFinal then .calls (buffered ++ [m]) rest
      else M.receiveBody rest (buffered ++ [m]) (received + bodyBytes [m]) := by
  rw [receiveBody, bodyBytes_cons, Message.isFinal]
  have hnone : bodyBytes [] = 0 := rfl
  rw [hnone, Nat.add_zero]
  by_cases hm : m.type = "http.request"
  · have hdisconnect : m.type ≠ "http.disconnect" := by
      rw [hm]
      decide
    simp only [hm, if_true]
    cases m.moreBody <;> simp
  · rw [if_neg hm, if_neg hm, Nat.add_zero, if_neg (not_lt.2 h)]
    simp [hm]

/-- The loop reads up to the last message, unless the body gets too long before. -/
theorem receiveBody_eq (messages buffered : List Message) (received : Nat) (h : received ≤ M.maxBodyBytes) :
    M.receiveBody messages buffered received =
      if M.maxBodyBytes < received + bodyBytes (upToFinal messages) then .responds (jsonError bodyTooLarge)
      else if messages.any Message.isFinal then
        .calls (buffered ++ upToFinal messages) (messages.drop (upToFinal messages).length)
      else .waits := by
  induction messages generalizing buffered received with
  | nil =>
    have hnone : bodyBytes (upToFinal []) = 0 := rfl
    rw [hnone, Nat.add_zero, if_neg (not_lt.2 h)]
    rfl
  | cons m rest ih =>
    have hsplit : bodyBytes (m :: upToFinal rest) = bodyBytes [m] + bodyBytes (upToFinal rest) := by
      rw [bodyBytes_cons, bodyBytes_cons]
      rfl
    rw [receiveBody_cons m rest buffered received h, List.any_cons, upToFinal]
    by_cases hfinal : m.isFinal = true
    · simp [hfinal]
    · rw [if_neg hfinal, if_neg hfinal, hsplit, ← Nat.add_assoc]
      by_cases hover : M.maxBodyBytes < received + bodyBytes [m]
      · rw [if_pos hover, if_pos (Nat.lt_add_right _ hover)]
      · rw [if_neg hover, ih _ _ (not_lt.1 hover)]
        simp [hfinal]

/-- The application gets the messages as they came, one for each call. -/
theorem delivered_eq (n : Nat) (buffered rest : List Message) (i : Nat) :
    delivered n ⟨buffered, i, rest⟩ = (buffered.drop i ++ rest).take n := by
  induction n generalizing i rest with
  | zero => rfl
  | succ n ih =>
    rw [delivered, replayReceive]
    dsimp only
    by_cases hi : i < buffered.length
    · rw [List.getElem?_eq_getElem hi]
      dsimp only
      rw [ih, List.drop_eq_getElem_cons hi, List.cons_append, List.take_succ_cons]
    · have hnone : buffered.drop i = [] := List.drop_eq_nil_of_le (not_lt.1 hi)
      rw [List.getElem?_eq_none (not_lt.1 hi), hnone, List.nil_append]
      dsimp only
      cases rest with
      | nil => rfl
      | cons m rest =>
        dsimp only
        rw [ih, hnone, List.nil_append, List.take_succ_cons]

/-! ## The boundary -/

/-- The checks on the head of a request. -/
structure Passes (M : ApiBoundaryMiddleware) (scope : Scope) : Prop where
  host : parseAuthority M.lib (latin1 ((headers scope (ascii "host")).getD [])) (scope.scheme.getD "http".toList) =
    some (M.host, M.port)
  origin (value : Bytes) (hvalue : headers scope (ascii "origin") = some value) : M.originAllowed scope (latin1 value) = true
  query : checkQuery scope = .ok ()
  path : ¬ ("/ws/".toList.isPrefixOf scope.path = true ∨ scope.path = "/ws".toList)
  length : M.checkLength scope = .ok ()

/-- The one host names the server. -/
def HostMatches (M : ApiBoundaryMiddleware) (scope : Scope) : Prop :=
  ∃ value, headerValues scope (ascii "host") = [value] ∧
    Denotes (scope.scheme.getD "http".toList) (latin1 value) M.host M.port ∧ ∃ h, casefold h = M.host ∧ isLoopback M.lib h = true

/-- There is no origin, or one that names the server in the scheme of the request. -/
def OriginMatches (M : ApiBoundaryMiddleware) (scope : Scope) : Prop :=
  headerValues scope (ascii "origin") = [] ∨ ∃ value r, headerValues scope (ascii "origin") = [value] ∧
    urlsplit M.lib (latin1 value) = some r ∧ scope.scheme = some r.scheme ∧ Denotes r.scheme r.netloc M.host M.port

/-- A whole answer. -/
def IsAnswer (events : List SendEvent) : Prop :=
  ∃ status headers body, events = [.start status headers, .body body false] ∧ 400 ≤ status ∧ status < 500 ∧
    (ascii "content-length", ascii (toString body.length)) ∈ headers

/-- What a call may come to. -/
def Meets (M : ApiBoundaryMiddleware) (scope : Scope) (messages : List Message) : Prop :=
  match M.call scope messages with
  | .responds events => IsAnswer events
  | .calls buffered rest =>
    M.HostMatches scope ∧ M.OriginMatches scope ∧ QueryClean (latin1 scope.queryString) ∧ (contentLengths scope).length ≤ 1 ∧
      bodyBytes buffered ≤ M.maxBodyBytes ∧ ∀ n, delivered n ⟨buffered, 0, rest⟩ = messages.take n
  | .waits => False

/-- The host has no mark behind it, and neither the host nor the origin a port of zeros. -/
structure Plain (lib : Urllib) (scope : Scope) : Prop where
  host (value : Bytes) (hvalue : value ∈ headerValues scope (ascii "host")) : ¬ Marked (latin1 value) ∧ ¬ ZeroPort (latin1 value)
  origin (value : Bytes) (hvalue : value ∈ headerValues scope (ascii "origin")) :
    ¬ ZeroPort ((urlsplit lib (latin1 value)).getD {}).netloc

theorem isAnswer_jsonError {r : Refusal} (h : 400 ≤ r.status ∧ r.status < 500) : IsAnswer (jsonError r) :=
  ⟨_, _, _, rfl, h.1, h.2, by simp⟩

/-- The checks one after the other. -/
theorem checkHead_eq (M : ApiBoundaryMiddleware) (scope : Scope) : M.checkHead scope =
    if parseAuthority M.lib (latin1 ((headers scope (ascii "host")).getD [])) (scope.scheme.getD "http".toList) ≠
      some (M.host, M.port) then .error invalidHost
    else if (headers scope (ascii "origin")).any (fun value => !M.originAllowed scope (latin1 value)) then .error invalidOrigin
    else
      match checkQuery scope with
      | .error r => .error r
      | .ok () => if "/ws/".toList.isPrefixOf scope.path = true ∨ scope.path = "/ws".toList then .error notFound else M.checkLength scope := by
  have htail : (do
      checkQuery scope
      if "/ws/".toList.isPrefixOf scope.path = true ∨ scope.path = "/ws".toList then throw notFound
      M.checkLength scope) =
      match checkQuery scope with
      | .error r => .error r
      | .ok () => if "/ws/".toList.isPrefixOf scope.path = true ∨ scope.path = "/ws".toList then .error notFound
        else M.checkLength scope := by
    rcases checkQuery scope with r | ⟨⟩
    · rfl
    · split <;> rfl
  rw [checkHead, ← htail]
  by_cases hhost : parseAuthority M.lib (latin1 ((headers scope (ascii "host")).getD [])) (scope.scheme.getD "http".toList) ≠
      some (M.host, M.port)
  · rw [if_pos hhost, if_pos hhost]
    rfl
  · rw [if_neg hhost, if_neg hhost]
    rcases headers scope (ascii "origin") with _ | value
    · rfl
    · rw [Option.any_some]
      dsimp only
      cases M.originAllowed scope (latin1 value)
      · rw [if_pos (show ¬ false = true from Bool.false_ne_true), if_pos (show (!false) = true from rfl)]
        rfl
      · rw [if_neg (show ¬¬ true = true from not_not.2 rfl), if_neg (show ¬ (!true) = true from Bool.false_ne_true)]

theorem checkHead_ok : M.checkHead scope = .ok () ↔ M.Passes scope := by
  rw [checkHead_eq]
  constructor
  · intro h
    split at h
    · cases h
    rename_i hhost
    split at h
    · cases h
    rename_i horigin
    split at h
    · cases h
    rename_i hquery
    split at h
    · cases h
    rename_i hpath
    refine ⟨not_not.1 hhost, fun value hvalue => ?_, hquery, hpath, h⟩
    rw [hvalue, Option.any_some] at horigin
    simpa using horigin
  · rintro ⟨hhost, horigin, hquery, hpath, hlength⟩
    rw [if_neg (not_not.2 hhost), if_neg, hquery]
    · dsimp only
      rw [if_neg hpath, hlength]
    · intro hany
      obtain ⟨value, hvalue, hnot⟩ := (Option.any_eq_true _ _).1 hany
      rw [horigin value hvalue] at hnot
      cases hnot

theorem checkQuery_error {r : Refusal} (h : checkQuery scope = .error r) : 400 ≤ r.status ∧ r.status < 500 := by
  rw [checkQuery] at h
  split at h
  · rw [← Except.error.inj h]
    decide
  · split at h
    · rw [← Except.error.inj h]
      decide
    · split at h
      · rw [← Except.error.inj h]
        decide
      · cases h

theorem checkLength_error {r : Refusal} (h : M.checkLength scope = .error r) : 400 ≤ r.status ∧ r.status < 500 := by
  rw [checkLength] at h
  split at h
  · cases h
  · split at h
    · rw [← Except.error.inj h]
      decide
    · split at h
      · rw [← Except.error.inj h]
        decide
      · cases h
  · rw [← Except.error.inj h]
    decide

theorem checkHead_error {r : Refusal} (h : M.checkHead scope = .error r) : 400 ≤ r.status ∧ r.status < 500 := by
  rw [checkHead_eq] at h
  split at h
  · rw [← Except.error.inj h]
    decide
  split at h
  · rw [← Except.error.inj h]
    decide
  split at h
  · rename_i hquery
    rw [← Except.error.inj h]
    exact checkQuery_error hquery
  split at h
  · rw [← Except.error.inj h]
    decide
  · exact checkLength_error h

theorem Passes.hostMatches (h : M.Passes scope) : M.HostMatches scope ↔
    ∀ value ∈ headerValues scope (ascii "host"), ¬ Marked (latin1 value) ∧ ¬ ZeroPort (latin1 value) := by
  have hparse := h.host
  have hempty : parseAuthority M.lib (latin1 []) (scope.scheme.getD "http".toList) = none := if_pos (.inl rfl)
  rcases hhost : headers scope (ascii "host") with _ | value
  · rw [hhost, Option.getD_none, hempty] at hparse
    cases hparse
  · rw [hhost, Option.getD_some] at hparse
    rcases headers_some (.inl rfl) hhost with hone | rfl
    · rw [HostMatches, hone]
      simp only [List.mem_singleton, forall_eq, List.cons.injEq, and_true, exists_eq_left', parseAuthority_denotes hparse]
      exact and_iff_left (parseAuthority_loopback hparse)
    · rw [hempty] at hparse
      cases hparse

theorem Passes.originMatches (h : M.Passes scope) : M.OriginMatches scope ↔
    ∀ value ∈ headerValues scope (ascii "origin"), ¬ ZeroPort ((urlsplit M.lib (latin1 value)).getD {}).netloc := by
  rcases horigin : headers scope (ascii "origin") with _ | value
  · have hnone := headers_none (.inr rfl) horigin
    rw [hnone]
    exact iff_of_true (.inl hnone) fun _ hmem => absurd hmem List.not_mem_nil
  · have hallowed := h.origin value horigin
    simp only [originAllowed, Bool.and_eq_true, decide_eq_true_eq] at hallowed
    obtain ⟨⟨⟨⟨hscheme, -⟩, -⟩, -⟩, hparse⟩ := hallowed
    have hempty : ∀ scheme, parseAuthority M.lib [] scheme = none := fun _ => if_pos (.inl rfl)
    rcases hsplit : urlsplit M.lib (latin1 value) with _ | r
    · rw [hsplit, Option.getD_none, hempty] at hparse
      cases hparse
    · rw [hsplit, Option.getD_some] at hparse hscheme
      rcases headers_some (.inr rfl) horigin with hone | rfl
      · have hmarked : ¬ Marked r.netloc := not_marked (urlsplit_netloc hsplit)
        rw [OriginMatches, hone]
        simp only [List.mem_singleton, forall_eq, hsplit, Option.getD_some]
        constructor
        · rintro (hnil | ⟨value', r', hvalue, hsplit', -, hdenotes⟩)
          · cases hnil
          · obtain rfl := List.singleton_inj.1 hvalue
            obtain rfl := Option.some.inj (hsplit.symm.trans hsplit')
            exact ((parseAuthority_denotes hparse).1 hdenotes).2
        · intro hzero
          exact .inr ⟨value, r, rfl, hsplit, hscheme.symm, (parseAuthority_denotes hparse).2 ⟨hmarked, hzero⟩⟩
      · -- an origin that occurs twice is read as an empty one
        have hnetloc : r.netloc = [] := by
          rw [urlsplit] at hsplit
          dsimp only at hsplit
          split at hsplit
          · obtain rfl := Option.some.inj hsplit
            rfl
          · cases hsplit
        rw [hnetloc, hempty] at hparse
        cases hparse

theorem Passes.contentLengths (h : M.Passes scope) : (contentLengths scope).length ≤ 1 := by
  have hlength := h.length
  rw [checkLength] at hlength
  split at hlength
  · rename_i hnil
    rw [hnil]
    exact Nat.zero_le 1
  · rename_i hone
    rw [hone]
    exact Nat.le_refl 1
  · cases hlength

theorem take_upToFinal (messages : List Message) : upToFinal messages ++ messages.drop (upToFinal messages).length = messages := by
  induction messages with
  | nil => rfl
  | cons m rest ih =>
    rw [upToFinal]
    split
    · rfl
    · rw [List.cons_append, List.length_cons, List.drop_succ_cons, ih]

/-- The boundary does what it should exactly when a check refuses the request, or its body is too long, or the body ends and the host
and the origin are spelled without the marks and the zeros that `_parse_authority` overlooks. -/
theorem meets_iff (M : ApiBoundaryMiddleware) (scope : Scope) (messages : List Message) :
    M.Meets scope messages ↔
      ¬ M.Passes scope ∨ M.maxBodyBytes < bodyBytes (upToFinal messages) ∨
        (messages.any Message.isFinal = true ∧ Plain M.lib scope) := by
  rw [Meets, call]
  rcases hhead : M.checkHead scope with r | ⟨⟩
  · have hnot : ¬ M.Passes scope := by
      rw [← checkHead_ok, hhead]
      exact fun h => nomatch h
    exact iff_of_true (isAnswer_jsonError (checkHead_error hhead)) (.inl hnot)
  · have hpasses := checkHead_ok.1 hhead
    dsimp only
    rw [receiveBody_eq messages [] 0 (Nat.zero_le _), Nat.zero_add]
    by_cases hover : M.maxBodyBytes < bodyBytes (upToFinal messages)
    · rw [if_pos hover]
      exact iff_of_true (isAnswer_jsonError ⟨by decide, by decide⟩) (.inr (.inl hover))
    · rw [if_neg hover]
      by_cases hends : messages.any Message.isFinal = true
      · rw [if_pos hends, List.nil_append]
        dsimp only
        have hdelivered : ∀ n, delivered n ⟨upToFinal messages, 0, messages.drop (upToFinal messages).length⟩ = messages.take n := by
          intro n
          rw [delivered_eq, List.drop_zero, take_upToFinal]
        constructor
        · rintro ⟨hhost, horigin, -⟩
          exact .inr (.inr ⟨hends, ⟨hpasses.hostMatches.1 hhost, hpasses.originMatches.1 horigin⟩⟩)
        · rintro (hnot | hlong | ⟨-, hplain⟩)
          · exact absurd hpasses hnot
          · exact absurd hlong hover
          · exact ⟨hpasses.hostMatches.2 hplain.host, hpasses.originMatches.2 hplain.origin, queryClean_of_check hpasses.query,
              hpasses.contentLengths, not_lt.1 hover, hdelivered⟩
      · rw [if_neg hends]
        exact iff_of_false id fun h => h.elim (absurd hpasses) (Or.rec hover fun h => hends h.1)

/-- A server on the port of the scheme. -/
def sampleBoundary : ApiBoundaryMiddleware :=
  ⟨⟨fun host => if host = "127.0.0.1".toList then some ⟨true, true⟩ else none, fun _ => true⟩, "localhost".toList, 80, 1024⟩

/-- A request to such a host. -/
def sampleScope (host : String) : Scope where
  scheme := some "http".toList
  headers := [(ascii "HOST", ascii host), (ascii "origin", ascii "http://LocalHost/")]
  path := "/api".toList

example : sampleBoundary.call (sampleScope "localhost:80") [⟨"http.request", [1, 2], false⟩] =
    .calls [⟨"http.request", [1, 2], false⟩] [] := by decide +kernel

/-- A host with the port zero gets through to the application. -/
theorem meets_zero : ¬ ∀ (M : ApiBoundaryMiddleware) (scope : Scope) (messages : List Message), M.Meets scope messages := by
  intro h
  have hmeets := h sampleBoundary (sampleScope "localhost:0") [⟨"http.request", [], false⟩]
  have hcall : sampleBoundary.call (sampleScope "localhost:0") [⟨"http.request", [], false⟩] =
      .calls [⟨"http.request", [], false⟩] [] := by decide +kernel
  rw [Meets, hcall] at hmeets
  obtain ⟨⟨value, hvalue, hdenotes, -⟩, -⟩ := hmeets
  have hone : headerValues (sampleScope "localhost:0") (ascii "host") = [ascii "localhost:0"] := by decide +kernel
  obtain rfl := List.singleton_inj.1 (hone.symm.trans hvalue)
  have hzero : ZeroPort (latin1 (ascii "localhost:0")) := ⟨"localhost".toList, ['0'], by decide +kernel, by simp, by simp⟩
  exact absurd (hdenotes.zeroPort hzero) (by decide)

end ApiBoundaryMiddleware

end AgentHub.Web
