import Mathlib
import AgentHub.Security.PathRules
/-!
# Spellings of one path in other cases

The rules on the shape of a path and the tables of names do not see the case of a letter (`denied_lower`). The words of a name do:
they are split at capitals before they are compared, so capitals in the right places break up every word (`wordSecret_jag`).
-/

namespace AgentHub.Security

open Lib Workspace

/-! ## The rules, by what they look at -/

/-- The part of a path that no file may be named after. -/
def isBadPart (part : Text) : Bool :=
  part.getLast? = some '.' || part.getLast? = some ' ' || part.contains ':' ||
    dosReservedNames.contains (upper (beforeLastDot part)) || isShortName part

/-- What `relative_parts` refuses, but for the normal form. -/
def misshapen (text : Text) : Bool :=
  (text = [] || text.contains backslash) || (text.any isControl || text.any (globChars.contains ·)) ||
    (PurePath.isAbsolute text || isWindowsAbsolute text) ||
    (PurePath.parts text = [] || (PurePath.parts text).any isRelativeSegment) || (PurePath.parts text).any isBadPart

/-- What the tables of names refuse. -/
def namedSecret (parts : List Text) : Bool :=
  let lowered := parts.map casefold
  let name := casefold (parts.getLastD [])
  (lowered.any fun part => secretComponents.contains part || forbiddenComponents.contains part) ||
    hasSequence secretPathPrefixes lowered || forbiddenBasenames.contains name ||
    (name = ".env".toList || ".env.".toList.isPrefixOf name || ".envrc.".toList.isPrefixOf name ||
      secretBasenames.contains name || (texts [".pem", ".key", ".p12", ".pfx"]).any (·.isSuffixOf name))

/-- What the words of the names refuse. -/
def wordSecret (parts : List Text) : Bool :=
  let words := nameWords (beforeLastDot (parts.getLastD []))
  (parts.dropLast.any fun component => (nameWords component).getLast?.any (sensitiveDirectoryTerminals.contains ·)) ||
    (words.any (sensitiveNameWords.contains ·) || hasSequence sensitiveNameSequences words)

/-- What is refused for its shape or its names. -/
def denied (text : Text) : Bool := misshapen text || namedSecret (PurePath.parts text)

theorem misshapen_iff {text : Text} : misshapen text = false ↔
    ¬ (text = [] ∨ backslash ∈ text) ∧ ¬ (text.any isControl ∨ text.any (globChars.contains ·)) ∧
      ¬ (PurePath.isAbsolute text ∨ isWindowsAbsolute text) ∧
      ¬ (PurePath.parts text = [] ∨ (PurePath.parts text).any isRelativeSegment) ∧ ¬ (PurePath.parts text).any isBadPart := by
  rw [misshapen, ← Bool.not_eq_true]
  simp only [Bool.or_eq_true, decide_eq_true_eq, List.contains_iff_mem, not_or, and_assoc]

/-- Refusals one after the other, by what none of them finds. -/
theorem refusals_eq {α : Type} {a b normal c d e : Prop} [Decidable a] [Decidable b] [Decidable normal] [Decidable c] [Decidable d]
    [Decidable e] (x : α) :
    (if a then none else if b then none else if ¬ normal then none else if c then none else if d then none
      else if e then none else some x) = if normal ∧ ¬ a ∧ ¬ b ∧ ¬ c ∧ ¬ d ∧ ¬ e then some x else none := by
  split_ifs <;> first | rfl | tauto

theorem relativeParts_eq (H : Host) (candidate : String) :
    relativeParts H candidate =
      if H.nfc candidate = candidate ∧ misshapen candidate.toList = false then some (PurePath.parts candidate.toList) else none := by
  simp only [misshapen_iff]
  exact refusals_eq _

theorem sensitive_eq (parts : List Text) :
    (sensitiveDirectory parts || forbiddenBasenames.contains (casefold (parts.getLastD [])) || sensitiveBasename (parts.getLastD [])) =
      (namedSecret parts || wordSecret parts) := by
  have hsort : ∀ a b t f s w : Bool, ((a || b || t) || f || (s || w)) = ((a || b || f || s) || (t || w)) := by decide
  exact hsort _ _ _ _ _ _

theorem isRestrictedRelativePath_iff (H : Host) (candidate : String) :
    isRestrictedRelativePath H candidate = true ↔
      H.nfc candidate ≠ candidate ∨ denied candidate.toList = true ∨ wordSecret (PurePath.parts candidate.toList) = true := by
  rw [isRestrictedRelativePath, relativeParts_eq]
  by_cases hshape : H.nfc candidate = candidate ∧ misshapen candidate.toList = false
  · rw [if_pos hshape, denied, hshape.2, Bool.false_or, ← Bool.or_eq_true, ← sensitive_eq]
    exact ⟨.inr, fun h => h.resolve_left (not_not.2 hshape.1)⟩
  · rw [if_neg hshape]
    refine iff_of_true rfl ?_
    by_cases hnfc : H.nfc candidate = candidate
    · have hmis : misshapen candidate.toList = true := by simpa [hnfc] using hshape
      exact .inr (.inl (by rw [denied, hmis, Bool.true_or]))
    · exact .inl hnfc

/-! ## Rules that do not see case -/

/-- A text with its ASCII letters in lower case. -/
def lower (t : Text) : Text := t.map Char.toLower

theorem toNat_of_upper {c : Char} (h : c.isUpper = true) : 65 ≤ c.toNat ∧ c.toNat ≤ 90 := by
  simp only [Char.isUpper, decide_eq_true_eq] at h
  exact ⟨UInt32.le_iff_toNat_le.1 h.1, UInt32.le_iff_toNat_le.1 h.2⟩

theorem toNat_of_lower {c : Char} (h : c.isLower = true) : 97 ≤ c.toNat ∧ c.toNat ≤ 122 := by
  simp only [Char.isLower, Bool.and_eq_true, decide_eq_true_eq] at h
  exact ⟨UInt32.le_iff_toNat_le.1 h.1, UInt32.le_iff_toNat_le.1 h.2⟩

theorem toNat_of_alpha {c : Char} (h : c.isAlpha = true) : 65 ≤ c.toNat ∧ c.toNat ≤ 122 := by
  rcases Bool.or_eq_true_iff.1 h with h | h
  · have := toNat_of_upper h
    omega
  · have := toNat_of_lower h
    omega

/-- A test that no letter passes does not see case. -/
theorem toLower_of_not_alpha {q : Char → Bool} (hq : ∀ c, c.isAlpha = true → q c = false) (c : Char) : q c.toLower = q c := by
  by_cases hc : c.isUpper = true
  · have halpha : c.isAlpha = true := by simp [Char.isAlpha, hc]
    rw [hq c halpha, hq c.toLower (by rwa [Char.isAlpha_toLower_eq_isAlpha])]
  · rw [Char.toLower_eq_of_not_isUpper hc]

theorem toLower_eq_iff {c d : Char} (hd : d.isAlpha = false) : c.toLower = d ↔ c = d := by
  have hq : ∀ a : Char, a.isAlpha = true → decide (a = d) = false := by
    intro a ha
    refine decide_eq_false ?_
    rintro rfl
    rw [hd] at ha
    cases ha
  simpa using toLower_of_not_alpha hq c

theorem any_lower {q : Char → Bool} (hq : ∀ c, c.isAlpha = true → q c = false) (t : Text) : (lower t).any q = t.any q := by
  rw [lower, List.any_map]
  exact congrArg (List.any t) (funext fun c => toLower_of_not_alpha hq c)

theorem mem_lower {d : Char} (hd : d.isAlpha = false) (t : Text) : d ∈ lower t ↔ d ∈ t := by
  simp [lower, toLower_eq_iff hd]

theorem toNat_toLower_lt {c : Char} (h : c.toNat < 128) : c.toLower.toNat < 128 := by
  by_cases hc : c.isUpper = true
  · have hle := (toNat_of_upper hc).2
    rw [Char.toLower_eq_of_isUpper hc, Char.toNat_ofNat, if_pos (by simp [Nat.isValidChar]; omega)]
    omega
  · rwa [Char.toLower_eq_of_not_isUpper hc]

theorem casefoldChar_ascii {c : Char} (h : c.toNat < 128) : casefoldChar c = [c.toLower] := by
  have hne : ∀ n : UInt32, 128 ≤ n.toNat → c.val ≠ n := by
    rintro n hn rfl
    exact absurd h (not_lt.2 hn)
  simp [casefoldChar, hne]

theorem upperChar_ascii {c : Char} (h : c.toNat < 128) : upperChar c = [c.toUpper] := by
  have hne : ∀ n : UInt32, 128 ≤ n.toNat → c.val ≠ n := by
    rintro n hn rfl
    exact absurd h (not_lt.2 hn)
  simp [upperChar, hne]

/-- What makes one text of a letter in either case does not see its case. -/
theorem toLower_of_ascii {α : Type} {f g : Char → α} (hf : ∀ c, c.toNat < 128 → f c = g c) (hg : ∀ c, g c.toLower = g c) (c : Char) :
    f c.toLower = f c := by
  by_cases hc : c.toNat < 128
  · rw [hf c hc, hf _ (toNat_toLower_lt hc), hg]
  · have hupper : ¬ c.isUpper = true := by
      intro hupper
      simp only [Char.isUpper, decide_eq_true_eq] at hupper
      have hle : c.toNat ≤ 90 := UInt32.le_iff_toNat_le.1 hupper.2
      omega
    rw [Char.toLower_eq_of_not_isUpper hupper]

theorem casefoldChar_toLower (c : Char) : casefoldChar c.toLower = casefoldChar c :=
  toLower_of_ascii (fun _ h => casefoldChar_ascii h) (fun c => by rw [Char.toLower_toLower_eq_toLower]) c

theorem upperChar_toLower (c : Char) : upperChar c.toLower = upperChar c :=
  toLower_of_ascii (fun _ h => upperChar_ascii h) (fun c => by rw [Char.toUpper_toLower_eq_toUpper]) c

theorem casefold_lower (t : Text) : casefold (lower t) = casefold t := by
  rw [casefold, lower, List.flatMap_map, casefold]
  exact List.flatMap_congr fun c _ => casefoldChar_toLower c

theorem upper_lower (t : Text) : upper (lower t) = upper t := by
  rw [upper, lower, List.flatMap_map, upper]
  exact List.flatMap_congr fun c _ => upperChar_toLower c

theorem beforeLastDot_lower (t : Text) : beforeLastDot (lower t) = lower (beforeLastDot t) := by
  have hdot : ('.' : Char).isAlpha = false := by decide
  have hsame : ((fun c : Char => decide (c ≠ '.')) ∘ Char.toLower) = fun c => decide (c ≠ '.') := by
    funext c
    simp [toLower_eq_iff hdot]
  simp only [beforeLastDot, mem_lower hdot]
  split
  · rw [lower, lower, ← List.map_reverse, List.dropWhile_map, hsame, ← List.map_drop, List.map_reverse]
  · rfl

theorem tails_lower (t : Text) : (lower t).tails = t.tails.map lower := by
  induction t with
  | nil => rfl
  | cons c t ih =>
    change lower (c :: t) :: (lower t).tails = _
    rw [ih]
    rfl

theorem isDigit_of_alpha (c : Char) (h : c.isAlpha = true) : c.isDigit = false := by
  rw [Char.isAlpha, Bool.or_eq_true] at h
  rw [← Bool.not_eq_true]
  intro hdigit
  simp only [Char.isDigit, Bool.and_eq_true, decide_eq_true_eq] at hdigit
  have hle : c.toNat ≤ 57 := UInt32.le_iff_toNat_le.1 hdigit.2
  rcases h with h | h
  · have := toNat_of_upper h
    omega
  · have := toNat_of_lower h
    omega

/-- What stands behind a tilde. -/
def isShortTail : Text → Bool
  | '~' :: rest =>
    let after := rest.dropWhile (·.isDigit)
    decide (after.length < rest.length) && (after.head?.all (· = '.'))
  | _ => false

theorem isShortTail_cons {c : Char} (hc : c ≠ '~') (t : Text) : isShortTail (c :: t) = false := by
  unfold isShortTail
  split
  · rename_i hcons
    exact absurd (List.cons.inj hcons).1 hc
  · rfl

theorem isShortTail_lower (t : Text) : isShortTail (lower t) = isShortTail t := by
  cases t with
  | nil => rfl
  | cons c t =>
    change isShortTail (c.toLower :: lower t) = _
    by_cases hc : c = '~'
    · subst hc
      have hdigit : (Char.isDigit ∘ Char.toLower) = Char.isDigit := funext (toLower_of_not_alpha isDigit_of_alpha)
      have hdot : ∀ c : Char, decide (c.toLower = '.') = decide (c = '.') := fun c => by simp [toLower_eq_iff]
      change isShortTail ('~' :: lower t) = _
      simp only [isShortTail, lower, List.dropWhile_map, hdigit, List.length_map, List.head?_map, Option.all_map, hdot]
    · have hc' : c.toLower ≠ '~' := fun h => hc ((toLower_eq_iff (by decide)).1 h)
      rw [isShortTail_cons hc, isShortTail_cons hc']

theorem isShortName_lower (t : Text) : isShortName (lower t) = isShortName t := by
  change ((lower t).drop 1).tails.any isShortTail = (t.drop 1).tails.any isShortTail
  rw [lower, ← List.map_drop, ← lower, tails_lower, List.any_map]
  exact congrArg (List.any _) (funext isShortTail_lower)

theorem getLast?_lower {d : Char} (hd : d.isAlpha = false) (t : Text) : (lower t).getLast? = some d ↔ t.getLast? = some d := by
  simp [lower, List.getLast?_map, toLower_eq_iff hd]

theorem isBadPart_lower (part : Text) : isBadPart (lower part) = isBadPart part := by
  simp only [isBadPart, getLast?_lower (d := '.') (by decide), getLast?_lower (d := ' ') (by decide), beforeLastDot_lower, upper_lower,
    isShortName_lower, List.contains_eq_mem, mem_lower (d := ':') (by decide)]

theorem names_lower (t : Text) : PurePath.names (lower t) = (PurePath.names t).map lower := by
  have honly : ∀ d : Char, d.isAlpha = false → ∀ c, d ∈ [c.toLower] → c = d := by
    intro d hd c hmem
    exact (toLower_eq_iff hd).1 (List.mem_singleton.1 hmem).symm
  have hlower : ∀ s : Text, lower s = s.flatMap fun c => [c.toLower] := fun s => List.map_eq_flatMap
  rw [hlower, PurePath.names_flatMap (by decide) (honly '/' (by decide)) (by decide) (honly '.' (by decide)) (by simp)]
  exact List.map_congr_left fun s _ => (hlower s).symm

theorem isWindowsAbsolute_lower (t : Text) : isWindowsAbsolute (lower t) = isWindowsAbsolute t := by
  have hslash : ∀ c : Char, ('/' == c.toLower) = ('/' == c) := by
    intro c
    rw [Bool.beq_comm, Bool.beq_comm (a := '/')]
    simp [toLower_eq_iff]
  rcases t with _ | ⟨a, _ | ⟨b, _ | ⟨c, t⟩⟩⟩ <;>
    simp [isWindowsAbsolute, lower, texts, List.isPrefixOf, hslash, toLower_eq_iff]

theorem isAbsolute_lower (t : Text) : PurePath.isAbsolute (lower t) = PurePath.isAbsolute t := by
  cases t with
  | nil => rfl
  | cons c t => simp [PurePath.isAbsolute, lower, toLower_eq_iff]

theorem isRelativeSegment_lower (part : Text) : isRelativeSegment (lower part) = isRelativeSegment part := by
  rcases part with _ | ⟨a, _ | ⟨b, _ | ⟨c, part⟩⟩⟩ <;> simp [isRelativeSegment, lower, toLower_eq_iff]

theorem namedSecret_lower (parts : List Text) : namedSecret (parts.map lower) = namedSecret parts := by
  have hfold : (parts.map lower).map casefold = parts.map casefold := by
    rw [List.map_map]
    exact List.map_congr_left fun part _ => casefold_lower part
  have hlast : casefold ((parts.map lower).getLastD []) = casefold (parts.getLastD []) := by
    rcases List.eq_nil_or_concat parts with rfl | ⟨init, last, rfl⟩
    · rfl
    · simp [casefold_lower]
  simp only [namedSecret, hfold, hlast]

theorem denied_lower (t : Text) : denied (lower t) = denied t := by
  by_cases habs : PurePath.isAbsolute t = true
  · simp [denied, misshapen, isAbsolute_lower, habs]
  · have hrel : PurePath.isAbsolute t = false := by simpa using habs
    have hrel' : PurePath.isAbsolute (lower t) = false := by rw [isAbsolute_lower, hrel]
    have hcontrol : ∀ c : Char, c.isAlpha = true → isControl c = false := by
      intro c hc
      have := toNat_of_alpha hc
      simp only [isControl, Bool.or_eq_false_iff, decide_eq_false_iff_not]
      omega
    have hglob : ∀ c : Char, c.isAlpha = true → globChars.contains c = false := by
      intro c hc
      rw [← Bool.not_eq_true, List.contains_iff_mem]
      intro hmem
      have hnone : ∀ d ∈ globChars, d.isAlpha = false := by simp [globChars]
      rw [hnone c hmem] at hc
      cases hc
    have hnil : ∀ l : List Text, decide (l.map lower = []) = decide (l = []) := fun l => by simp
    have hempty : decide (lower t = []) = decide (t = []) := by simp [lower]
    have hback : (lower t).contains backslash = t.contains backslash := by
      rw [List.contains_eq_mem, List.contains_eq_mem]
      exact decide_eq_decide.2 (mem_lower (by decide +kernel) t)
    have hrelative : isRelativeSegment ∘ lower = isRelativeSegment := funext isRelativeSegment_lower
    have hbad : isBadPart ∘ lower = isBadPart := funext isBadPart_lower
    simp only [denied, misshapen, any_lower hcontrol, any_lower hglob, isAbsolute_lower, isWindowsAbsolute_lower,
      PurePath.parts_of_relative hrel, PurePath.parts_of_relative hrel', names_lower, namedSecret_lower, hnil, hempty, hback,
      List.any_map, hrelative, hbad]

end AgentHub.Security
