import Mathlib.Data.List.TakeWhile
import AgentHub.Web.ApiBoundary
/-!
# What an authority denotes

`_parse_authority` accepts a text when it is a host and a port as they should be, and in two cases more: empty marks of a query or a
fragment may follow, and a port of zero counts as none (`parseAuthority_denotes`).
-/

namespace AgentHub.Web

open Lib Workspace Security

/-- The spelling of a host: a name or an address, or an address in brackets. -/
inductive HostText : Text → Text → Prop where
  | plain {h : Text} (hne : h ≠ []) (hplain : ∀ c ∈ h, c ≠ ':' ∧ c ≠ '[' ∧ ¬ isDelimiter c) : HostText h h
  | bracketed {h : Text} (hne : h ≠ []) (hplain : ∀ c ∈ h, c ≠ ']' ∧ ¬ isDelimiter c) : HostText ('[' :: (h ++ [']'])) h

/-- The spelling of a port behind a host. -/
inductive PortText (scheme : Text) : Text → Nat → Prop where
  | absent : PortText scheme [] (defaultPort scheme)
  | empty : PortText scheme [':'] (defaultPort scheme)
  | digits {ds : Text} (hne : ds ≠ []) (hdigits : ds.all Char.isDigit = true) : PortText scheme (':' :: ds) (Nat.ofDigitChars 10 ds 0)

/-- The host, folded, and the port that an authority denotes. -/
def Denotes (scheme value host : Text) (port : Nat) : Prop :=
  ∃ h hostText portText, value = hostText ++ portText ∧ HostText hostText h ∧ casefold h = host ∧ PortText scheme portText port

/-- A text with a port of zeros. -/
def ZeroPort (value : Text) : Prop := ∃ a ds, value = a ++ ':' :: ds ∧ ds ≠ [] ∧ ∀ d ∈ ds, d = '0'

/-- A text with a mark of a query or a fragment. -/
def Marked (value : Text) : Prop := '?' ∈ value ∨ '#' ∈ value

/-! ## Partitions -/

variable {c : Char} {t : Text}

theorem not_mem_before (c : Char) (t : Text) : c ∉ before c t := fun h => by
  simpa using List.mem_takeWhile_imp h

theorem before_append_after (c : Char) (t : Text) : t = before c t ∧ after c t = [] ∧ c ∉ t ∨ t = before c t ++ c :: after c t := by
  have hsplit := List.takeWhile_append_dropWhile (p := fun d => decide (d ≠ c)) (l := t)
  rcases hdrop : t.dropWhile fun d => decide (d ≠ c) with _ | ⟨d, rest⟩
  · refine .inl ?_
    rw [hdrop, List.append_nil] at hsplit
    refine ⟨hsplit.symm, by rw [after, hdrop]; rfl, ?_⟩
    rw [← hsplit]
    exact not_mem_before c t
  · refine .inr ?_
    have hd : d = c := by
      have hhead := List.head?_dropWhile_not (fun d => decide (d ≠ c)) t
      rw [hdrop] at hhead
      simpa using hhead
    subst hd
    have hafter : after d t = rest := by rw [after, hdrop]; rfl
    rw [hafter, before, ← hdrop]
    exact hsplit.symm

theorem before_append {a : Text} (ha : c ∉ a) (rest : Text) : before c (a ++ c :: rest) = a := by
  rw [before, List.takeWhile_append_of_pos, List.takeWhile_cons_of_neg, List.append_nil]
  · simp
  · intro d hd
    exact decide_eq_true fun h => ha (h ▸ hd)

theorem after_append {a : Text} (ha : c ∉ a) (rest : Text) : after c (a ++ c :: rest) = rest := by
  rw [after, List.dropWhile_append_of_pos, List.dropWhile_cons_of_neg, List.drop_succ_cons, List.drop_zero]
  · simp
  · intro d hd
    exact decide_eq_true fun h => ha (h ▸ hd)

theorem afterLast_of_not_mem (h : c ∉ t) : afterLast c t = t := by
  have hall : t.reverse.takeWhile (fun d => decide (d ≠ c)) = t.reverse := by
    refine List.takeWhile_eq_self_iff.2 fun d hd => decide_eq_true ?_
    rintro rfl
    exact h (List.mem_reverse.1 hd)
  rw [afterLast, hall, List.reverse_reverse]

/-- What stands behind a last separator. -/
theorem eq_of_last {a a' b b' : Text} (h : a ++ c :: b = a' ++ c :: b') (hb : c ∉ b) (hb' : c ∉ b') : b = b' := by
  have hlast : ∀ a b : Text, c ∉ b → afterLast c (a ++ c :: b) = b := by
    intro a b hb
    have hmem : ∀ d ∈ b.reverse, decide (d ≠ c) = true := by
      intro d hd
      refine decide_eq_true ?_
      rintro rfl
      exact hb (List.mem_reverse.1 hd)
    rw [afterLast, List.reverse_append, List.reverse_cons, List.append_assoc, List.takeWhile_append_of_pos hmem]
    simp
  rw [← hlast a b hb, h, hlast a' b' hb']

/-! ## The text of a URL -/

/-- The empty marks of a query and a fragment. -/
def emptyMarks : List Text := texts ["", "?", "#", "?#"]

theorem mem_emptyMarks {rest : Text} (hpath : before '?' (before '#' rest) = []) (hquery : after '?' (before '#' rest) = [])
    (hfragment : after '#' rest = []) : rest ∈ emptyMarks := by
  have hfront : before '#' rest = [] ∨ before '#' rest = ['?'] := by
    rcases before_append_after '?' (before '#' rest) with ⟨h, -, -⟩ | h
    · exact .inl (h.trans hpath)
    · rw [hpath, hquery] at h
      exact .inr h
  rcases before_append_after '#' rest with ⟨h, -, -⟩ | h
  · rcases hfront with hf | hf <;> rw [h, hf] <;> decide
  · rw [hfragment] at h
    rcases hfront with hf | hf <;> rw [h, hf] <;> decide

theorem stripUnsafe_authority (scheme value : Text) (hvalue : value.any isSpace = false) :
    ∃ s, stripUnsafe (scheme ++ "://".toList ++ value) = s ++ "://".toList ++ value := by
  have hkept : value.filter (fun c => c.toNat ≠ 9 && c.toNat ≠ 10 && c.toNat ≠ 13) = value := by
    refine List.filter_eq_self.2 fun c hc => ?_
    have hspace : isSpace c = false := by simpa using List.any_eq_false.1 hvalue c hc
    simp only [isSpace, Bool.or_eq_false_iff, Bool.and_eq_false_iff, decide_eq_false_iff_not] at hspace
    simp only [Bool.and_eq_true, decide_eq_true_eq]
    omega
  have hdrop : ∀ s : Text, (s ++ ("://".toList ++ value)).dropWhile (fun c => decide (c.toNat ≤ 32)) =
      s.dropWhile (fun c => decide (c.toNat ≤ 32)) ++ ("://".toList ++ value) := by
    intro s
    induction s with
    | nil => rfl
    | cons c s ih =>
      rw [List.cons_append, List.dropWhile_cons, List.dropWhile_cons, ih]
      split <;> rfl
  refine ⟨(scheme.dropWhile fun c => decide (c.toNat ≤ 32)).filter fun c => c.toNat ≠ 9 && c.toNat ≠ 10 && c.toNat ≠ 13, ?_⟩
  rw [stripUnsafe, List.append_assoc, hdrop, List.filter_append, List.filter_append, hkept, List.append_assoc]
  rfl

/-- The rest behind the scheme still has the authority. -/
theorem splitScheme_rest (s value : Text) : (splitScheme (s ++ "://".toList ++ value)).2 = "//".toList ++ value ∨
    ∃ more, (splitScheme (s ++ "://".toList ++ value)).2 = more ++ "://".toList ++ value := by
  rw [splitScheme]
  split
  · by_cases hcolon : ':' ∈ s
    · refine .inr ?_
      rcases before_append_after ':' s with ⟨-, -, hnot⟩ | h
      · exact absurd hcolon hnot
      · refine ⟨after ':' s, ?_⟩
        dsimp only
        have hs : s ++ "://".toList ++ value = before ':' s ++ ':' :: (after ':' s ++ "://".toList ++ value) := by
          conv_lhs => rw [h]
          simp
        rw [hs, after_append (not_mem_before ':' s)]
    · refine .inl ?_
      have hs : s ++ "://".toList ++ value = s ++ ':' :: ("//".toList ++ value) := by simp
      rw [hs, after_append hcolon]
  · exact .inr ⟨s, rfl⟩

theorem splitNetloc_netloc {rest : Text} (h : (splitNetloc rest).1 ≠ []) :
    ∃ x, rest = '/' :: '/' :: x ∧ splitNetloc rest = (x.takeWhile (!isDelimiter ·), x.dropWhile (!isDelimiter ·)) := by
  unfold splitNetloc at h ⊢
  split
  · exact ⟨_, rfl, rfl⟩
  · rename_i hnot
    exfalso
    split at h
    · exact hnot _ rfl
    · exact h rfl

/-- When a URL of an authority has nothing but a netloc, the authority is the netloc, with empty marks. -/
theorem urlsplit_authority {lib : Urllib} {scheme value : Text} {r : SplitResult} (hvalue : value.any isSpace = false)
    (h : urlsplit lib (scheme ++ "://".toList ++ value) = some r) (hnetloc : r.netloc ≠ []) (hpath : r.path = [])
    (hquery : r.query = []) (hfragment : r.fragment = []) :
    ∃ marks ∈ emptyMarks, value = r.netloc ++ marks ∧ (∀ c ∈ r.netloc, isDelimiter c = false) ∧ bracketsOk lib r.netloc = true := by
  obtain ⟨s, hs⟩ := stripUnsafe_authority scheme value hvalue
  rw [urlsplit, hs] at h
  dsimp only at h
  split at h
  · rename_i hchecks
    obtain rfl := Option.some.inj h
    dsimp only at hnetloc hpath hquery hfragment ⊢
    obtain ⟨x, hrest, hsplit⟩ := splitNetloc_netloc hnetloc
    rw [hsplit] at hpath hquery hfragment hchecks ⊢
    have hmarks := mem_emptyMarks hpath hquery hfragment
    have hnot : ∀ c ∈ x.takeWhile (!isDelimiter ·), isDelimiter c = false := fun c hc => by
      simpa using List.mem_takeWhile_imp hc
    rw [Bool.and_eq_true] at hchecks
    rcases splitScheme_rest s value with hscheme | ⟨more, hscheme⟩
    · rw [hscheme] at hrest
      obtain rfl : value = x := by simpa using hrest
      exact ⟨_, hmarks, (List.takeWhile_append_dropWhile).symm, hnot, hchecks.1⟩
    · -- a slash of the mark stands behind the netloc
      exfalso
      rw [hscheme] at hrest
      have hslash : '/' ∈ x := by
        match more, hrest with
        | [], hrest => simp at hrest
        | [_], hrest => simp at hrest
        | _ :: _ :: more, hrest =>
          simp only [List.cons_append, List.cons.injEq] at hrest
          rw [← hrest.2.2]
          simp
      rw [← List.takeWhile_append_dropWhile (p := (!isDelimiter ·)) (l := x), List.mem_append] at hslash
      rcases hslash with hslash | hslash
      · exact absurd (hnot _ hslash) (by decide)
      · have hnone : ∀ marks ∈ emptyMarks, '/' ∉ marks := by decide
        exact hnone _ hmarks hslash
  · cases h

/-! ## The netloc -/

/-- What stands behind the host in a netloc: nothing, or a colon and the text of the port. -/
def PortPart (part portText : Text) : Prop := part = [] ∧ portText = [] ∨ part = ':' :: portText

/-- A netloc is the spelling of its host and what stands behind it. -/
theorem hostinfo_netloc {lib : Urllib} {netloc : Text} (hat : '@' ∉ netloc) (hbrackets : bracketsOk lib netloc = true)
    (hdelimiters : ∀ c ∈ netloc, isDelimiter c = false) (hhost : (hostinfo netloc).1 ≠ []) :
    ∃ hostText part, netloc = hostText ++ part ∧ HostText hostText (hostinfo netloc).1 ∧ PortPart part (hostinfo netloc).2 := by
  have hlast := afterLast_of_not_mem hat
  by_cases hopen : '[' ∈ netloc
  · have hclose : ']' ∈ netloc := by
      by_contra hnot
      simp [bracketsOk, hopen, hnot] at hbrackets
    simp only [bracketsOk, hlast, hopen, hclose, not_true_eq_false, and_self, or_self, if_false, if_true, Bool.and_eq_true,
      decide_eq_true_eq] at hbrackets
    obtain ⟨⟨hfirst, hport⟩, -⟩ := hbrackets
    simp only [hostinfo, hlast, hopen, if_true] at hhost ⊢
    rcases before_append_after '[' netloc with ⟨-, -, hnot⟩ | hnetloc
    · exact absurd hopen hnot
    rw [hfirst, List.nil_append] at hnetloc
    have hclose' : ']' ∈ after '[' netloc := by
      rw [hnetloc] at hclose
      exact (List.mem_cons.1 hclose).resolve_left (by decide)
    rcases before_append_after ']' (after '[' netloc) with ⟨-, -, hnot⟩ | hinner
    · exact absurd hclose' hnot
    refine ⟨'[' :: (before ']' (after '[' netloc) ++ [']']), after ']' (after '[' netloc), ?_, ?_, ?_⟩
    · rw [List.cons_append, List.append_assoc, List.singleton_append, ← hinner]
      exact hnetloc
    · refine .bracketed hhost fun c hc => ⟨?_, ?_⟩
      · rintro rfl
        exact not_mem_before _ _ hc
      · have hmem : c ∈ netloc := by
          rw [hnetloc, hinner]
          exact List.mem_cons_of_mem _ (List.mem_append_left _ hc)
        rw [hdelimiters c hmem]
        exact Bool.false_ne_true
    · rcases hpart : after ']' (after '[' netloc) with _ | ⟨d, rest⟩
      · exact .inl ⟨rfl, rfl⟩
      · rw [hpart] at hport
        obtain rfl : d = ':' := by simpa using hport
        exact .inr (congrArg (':' :: ·) (after_append (a := []) List.not_mem_nil rest).symm)
  · have hopen' : '[' ∉ afterLast '@' netloc := by rwa [hlast]
    simp only [hostinfo, hlast, hopen, if_false] at hhost ⊢
    have hplain : HostText (before ':' netloc) (before ':' netloc) := by
      refine .plain hhost fun c hc => ?_
      have hmem : c ∈ netloc := (List.takeWhile_prefix _).subset hc
      refine ⟨?_, ?_, by rw [hdelimiters c hmem]; exact Bool.false_ne_true⟩
      · rintro rfl
        exact not_mem_before _ _ hc
      · rintro rfl
        exact hopen hmem
    rcases before_append_after ':' netloc with ⟨hall, hnone, -⟩ | hsplit
    · exact ⟨_, [], by rw [List.append_nil]; exact hall, hplain, .inl ⟨rfl, hnone⟩⟩
    · exact ⟨_, _, hsplit, hplain, .inr rfl⟩

/-! ## Denotation -/

variable {scheme value host : Text} {p : Nat}

/-- The port that a netloc is taken to have. -/
def portOr (scheme : Text) : Option Nat → Nat
  | some (n + 1) => n + 1
  | _ => defaultPort scheme

theorem portOr_ne_zero (scheme : Text) (given : Option Nat) : portOr scheme given ≠ 0 := by
  have hdefault : defaultPort scheme ≠ 0 := by
    rw [defaultPort]
    split <;> decide
  match given with
  | none => exact hdefault
  | some 0 => exact hdefault
  | some (n + 1) => exact Nat.succ_ne_zero n

theorem ofDigitChars_eq_zero {ds : Text} (hdigits : ds.all Char.isDigit = true) :
    Nat.ofDigitChars 10 ds 0 = 0 ↔ ∀ d ∈ ds, d = '0' := by
  induction ds with
  | nil => simp
  | cons d ds ih =>
    rw [List.all_cons, Bool.and_eq_true] at hdigits
    have hzero : d.toNat - 48 = 0 ↔ d = '0' := by
      have hd := hdigits.1
      simp only [Char.isDigit, Bool.and_eq_true, decide_eq_true_eq] at hd
      have hlow : 48 ≤ d.toNat := UInt32.le_iff_toNat_le.1 hd.1
      constructor
      · intro h
        exact Char.toNat_inj.1 (show d.toNat = 48 by omega)
      · rintro rfl
        rfl
    rw [Nat.ofDigitChars_cons, Nat.ofDigitChars_eq_ofDigitChars_zero, List.forall_mem_cons, ← ih hdigits.2, ← hzero]
    have hpos : 0 < 10 ^ ds.length := Nat.pow_pos (by omega)
    rw [Nat.mul_zero, Nat.zero_add, Nat.add_eq_zero_iff, Nat.mul_eq_zero]
    exact and_congr_left' (or_iff_right hpos.ne')

/-- What `_parse_authority` accepts: a host, what stands behind it, and empty marks. -/
theorem parseAuthority_some {lib : Urllib} (h : parseAuthority lib value scheme = some (host, p)) :
    ∃ hostText host' part portText given, ∃ marks ∈ emptyMarks, value = hostText ++ part ++ marks ∧ HostText hostText host' ∧
      casefold host' = host ∧ PortPart part portText ∧ (∀ c ∈ hostText ++ part, isDelimiter c = false) ∧
      (portText = [] ∧ given = none ∨ ∃ n, intOf portText = some n ∧ given = some n) ∧ p = portOr scheme given := by
  rw [parseAuthority] at h
  split at h
  · cases h
  rename_i hchars
  simp only [not_or, Bool.not_eq_true] at hchars
  simp only [Option.bind_eq_bind, Option.bind_eq_some_iff] at h
  obtain ⟨parsed, hsplit, given, hgiven, host', hhost, h⟩ := h
  split at h
  · cases h
  rename_i hrest
  simp only [not_or, not_not] at hrest
  obtain ⟨hpath, hquery, hfragment, -⟩ := hrest
  obtain ⟨hname, hport⟩ := Prod.mk.inj (Option.some.inj h)
  rw [hostname] at hhost
  split at hhost
  · cases hhost
  rename_i hne
  obtain rfl := Option.some.inj hhost
  have hnetloc : parsed.netloc ≠ [] := by
    intro hnil
    rw [hnil] at hne
    exact hne rfl
  obtain ⟨marks, hmarks, hvalue, hdelimiters, hbrackets⟩ := urlsplit_authority hchars.2.2.2 hsplit hnetloc hpath hquery hfragment
  have hat : '@' ∉ parsed.netloc := fun hmem => hchars.2.1 (by rw [hvalue]; exact List.mem_append_left _ hmem)
  obtain ⟨hostText, part, hparts, hspelled, hpart⟩ := hostinfo_netloc hat hbrackets hdelimiters hne
  refine ⟨hostText, _, part, (hostinfo parsed.netloc).2, given, marks, hmarks, ?_, hspelled, ?_, hpart, ?_, ?_, ?_⟩
  · rw [← hparts, hvalue]
  · rw [← hname, casefold_lower]
  · rwa [← hparts]
  · rw [Web.port] at hgiven
    split at hgiven
    · rename_i hnil
      exact .inl ⟨hnil, (Option.some.inj hgiven).symm⟩
    · split at hgiven
      · cases hgiven
      · rename_i n hn
        split at hgiven
        · exact .inr ⟨n, hn, (Option.some.inj hgiven).symm⟩
        · cases hgiven
  · rw [← hport]
    rfl

theorem HostText.delimiters {hostText h : Text} (hspelled : HostText hostText h) : ∀ c ∈ hostText, isDelimiter c = false := by
  intro c hc
  cases hspelled with
  | plain hne hplain => simpa using (hplain c hc).2.2
  | bracketed hne hplain =>
    rcases List.mem_cons.1 hc with rfl | hc
    · decide
    · rcases List.mem_append.1 hc with hc | hc
      · simpa using (hplain c hc).2
      · rw [List.mem_singleton.1 hc]
        decide

theorem isDelimiter_of_digit {d : Char} (hd : d.isDigit = true) : isDelimiter d = false := by
  rw [← Bool.not_eq_true]
  intro h
  simp only [isDelimiter, Bool.or_eq_true, decide_eq_true_eq] at h
  rcases h with (rfl | rfl) | rfl <;> exact absurd hd (by decide)

theorem PortText.delimiters {portText : Text} (hspelled : PortText scheme portText p) : ∀ c ∈ portText, isDelimiter c = false := by
  intro c hc
  cases hspelled with
  | absent => exact absurd hc List.not_mem_nil
  | empty =>
    rw [List.mem_singleton.1 hc]
    decide
  | digits hne hdigits =>
    rcases List.mem_cons.1 hc with rfl | hc
    · decide
    · exact isDelimiter_of_digit (List.all_eq_true.1 hdigits c hc)

theorem not_marked {a : Text} (h : ∀ c ∈ a, isDelimiter c = false) : ¬ Marked a := by
  rintro (hmem | hmem)
  · exact absurd (h _ hmem) (by decide)
  · exact absurd (h _ hmem) (by decide)

/-- A text of a host has no port of zeros. -/
theorem HostText.not_zeroPort {hostText h : Text} (hspelled : HostText hostText h) : ¬ ZeroPort hostText := by
  rintro ⟨a, ds, heq, hne, hzeros⟩
  cases hspelled with
  | plain _ hplain => exact (hplain ':' (by rw [heq]; simp)).1 rfl
  | bracketed _ hplain =>
    -- the last character is a bracket and not a zero
    obtain ⟨init, z, rfl⟩ := List.eq_nil_or_concat ds |>.resolve_left hne
    have hends : ('[' :: h) ++ [']'] = (a ++ ':' :: init) ++ [z] := by simpa using heq
    have hlast := List.singleton_inj.1 (List.append_inj' hends rfl).2
    rw [hzeros z (by simp)] at hlast
    exact absurd hlast (by decide)

theorem not_mem_of_digits {ds : Text} (h : ds.all Char.isDigit = true) : ':' ∉ ds := fun hmem =>
  absurd (List.all_eq_true.1 h _ hmem) (by decide)

/-- Of an authority with a port of zeros the port is zero. -/
theorem Denotes.zeroPort (h : Denotes scheme value host p) (hzero : ZeroPort value) : p = 0 := by
  obtain ⟨h', hostText, portText, rfl, hspelled, -, hport⟩ := h
  have hzero' := hzero
  obtain ⟨a, ds, heq, hne, hzeros⟩ := hzero'
  have hdigits : ds.all Char.isDigit = true := List.all_eq_true.2 fun d hd => by rw [hzeros d hd]; decide
  cases hport with
  | absent =>
    rw [List.append_nil] at hzero
    exact absurd hzero hspelled.not_zeroPort
  | empty => exact absurd (eq_of_last heq List.not_mem_nil (not_mem_of_digits hdigits)).symm hne
  | digits _ hdigits' =>
    rw [eq_of_last heq (not_mem_of_digits hdigits') (not_mem_of_digits hdigits), ofDigitChars_eq_zero hdigits]
    exact hzeros

/-- An accepted text denotes what it is taken for exactly when nothing follows the authority and its port is not zero. -/
theorem parseAuthority_denotes {lib : Urllib} (h : parseAuthority lib value scheme = some (host, p)) :
    Denotes scheme value host p ↔ ¬ Marked value ∧ ¬ ZeroPort value := by
  obtain ⟨hostText, host', part, portText, given, marks, hmarks, rfl, hspelled, hhost, hpart, hdelimiters, hgiven, rfl⟩ :=
    parseAuthority_some h
  constructor
  · intro hdenotes
    refine ⟨?_, fun hzero => portOr_ne_zero scheme given (hdenotes.zeroPort hzero)⟩
    obtain ⟨h', hostText', portText', heq, hspelled', -, hport'⟩ := hdenotes
    rw [heq]
    refine not_marked fun c hc => ?_
    rcases List.mem_append.1 hc with hc | hc
    · exact hspelled'.delimiters c hc
    · exact hport'.delimiters c hc
  · rintro ⟨hmark, hzero⟩
    obtain rfl : marks = [] := by
      by_contra hne
      have hsome : ∀ m ∈ emptyMarks, m ≠ [] → '?' ∈ m ∨ '#' ∈ m := by decide
      exact hmark ((hsome marks hmarks hne).imp (List.mem_append_right _) (List.mem_append_right _))
    rw [List.append_nil] at hzero ⊢
    refine ⟨host', hostText, part, rfl, hspelled, hhost, ?_⟩
    have hint : ∀ n, intOf portText = some n →
        portText ≠ [] ∧ portText.all Char.isDigit = true ∧ n = Nat.ofDigitChars 10 portText 0 := by
      intro n hn
      rw [intOf] at hn
      split at hn
      · rename_i hall
        exact ⟨hall.1, hall.2.1, (Option.some.inj hn).symm⟩
      · cases hn
    rcases hgiven with ⟨rfl, rfl⟩ | ⟨n, hn, rfl⟩
    · rcases hpart with ⟨rfl, -⟩ | rfl
      · exact .absent
      · exact .empty
    · obtain ⟨hne, hdigits, rfl⟩ := hint n hn
      rcases hpart with ⟨-, rfl⟩ | rfl
      · exact absurd rfl hne
      · have hpos : Nat.ofDigitChars 10 portText 0 ≠ 0 := by
          intro hnone
          exact hzero ⟨hostText, portText, rfl, hne, (ofDigitChars_eq_zero hdigits).1 hnone⟩
        obtain ⟨n, hn'⟩ := Nat.exists_eq_succ_of_ne_zero hpos
        have hport : portOr scheme (some (Nat.ofDigitChars 10 portText 0)) = Nat.ofDigitChars 10 portText 0 := by
          rw [hn']
          rfl
        rw [hport]
        exact .digits hne hdigits

/-- The host of an accepted text is a loopback host. -/
theorem parseAuthority_loopback {lib : Urllib} (h : parseAuthority lib value scheme = some (host, p)) :
    ∃ h', casefold h' = host ∧ isLoopback lib h' = true := by
  rw [parseAuthority] at h
  split at h
  · cases h
  simp only [Option.bind_eq_bind, Option.bind_eq_some_iff] at h
  obtain ⟨parsed, -, given, -, host', -, h⟩ := h
  split at h
  · cases h
  rename_i hrest
  simp only [not_or, not_not] at hrest
  exact ⟨host', (Prod.mk.inj (Option.some.inj h)).1, hrest.2.2.2⟩

/-- A netloc has no delimiter. -/
theorem urlsplit_netloc {lib : Urllib} {url : Text} {r : SplitResult} (h : urlsplit lib url = some r) :
    ∀ c ∈ r.netloc, isDelimiter c = false := by
  rw [urlsplit] at h
  dsimp only at h
  split at h
  · obtain rfl := Option.some.inj h
    intro c hc
    obtain ⟨x, -, hsplit⟩ := splitNetloc_netloc (List.ne_nil_of_mem hc)
    rw [hsplit] at hc
    simpa using List.mem_takeWhile_imp hc
  · cases h

end AgentHub.Web
