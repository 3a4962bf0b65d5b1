import Mathlib.Data.List.Infix
import AgentHub.Security.Respelling
/-!
# Breaking up the words of a name

A word of a name ends where a capital follows a small letter. `jag` puts capitals so that of three letters in a row two always
belong to different words, and so no sensitive word is left.
-/

namespace AgentHub.Security

open Lib Workspace

/-- A text where of three letters in a row some capital follows a small letter. -/
def Jagged (t : Text) : Prop :=
  ∀ c d e rest, c :: d :: e :: rest <:+ t → c.isAlpha = true → d.isAlpha = true → e.isAlpha = true →
    (isAsciiLower c = true ∧ isAsciiUpper d = true) ∨ (isAsciiLower d = true ∧ isAsciiUpper e = true)

variable {t u : Text}

theorem Jagged.part (h : Jagged t) (hu : u <:+: t) : Jagged u := by
  obtain ⟨a, b, rfl⟩ := hu
  rintro c d e rest ⟨before, rfl⟩ hc hd he
  exact h c d e (rest ++ b) ⟨a ++ before, by simp⟩ hc hd he

/-- The pieces between separators stand in the text, the first at its start, and have no separator. -/
theorem splitOnP_pieces (p : Char → Bool) (t : Text) :
    (∀ u ∈ (t.splitOnP p).head?, u <+: t) ∧ (∀ u ∈ t.splitOnP p, u <:+: t) ∧ ∀ u ∈ t.splitOnP p, ∀ c ∈ u, p c = false := by
  induction t with
  | nil => simp [List.splitOnP_nil]
  | cons x t ih =>
    obtain ⟨hhead, hstands, hnone⟩ := ih
    rw [List.splitOnP_cons_eq_if_modifyHead]
    split
    · refine ⟨by simp, ?_, ?_⟩
      · rw [List.forall_mem_cons]
        exact ⟨(List.nil_prefix).isInfix, fun u hu => (hstands u hu).trans (List.suffix_cons x t).isInfix⟩
      · rw [List.forall_mem_cons]
        exact ⟨by simp, hnone⟩
    · rename_i hx
      obtain ⟨first, rest, hp⟩ := List.exists_cons_of_ne_nil (List.splitOnP_ne_nil p t)
      rw [hp] at hhead hstands hnone ⊢
      rw [List.forall_mem_cons] at hstands hnone
      have hfirst : x :: first <+: x :: t := List.cons_prefix_cons.2 ⟨rfl, hhead first rfl⟩
      rw [List.modifyHead_cons]
      refine ⟨by simpa using hfirst, ?_, ?_⟩
      · rw [List.forall_mem_cons]
        exact ⟨hfirst.isInfix, fun u hu => (hstands.2 u hu).trans (List.suffix_cons x t).isInfix⟩
      · rw [List.forall_mem_cons, List.forall_mem_cons]
        exact ⟨⟨by simpa using hx, hnone.1⟩, hnone.2⟩

/-! ## Words -/

/-- Where a spaced text has no space, it is the spaced rest of the text. -/
theorem suffix_of_spaced {boundary : Char → Text → Bool} {c : Char} {rest : Text} (h : c :: rest <:+ spaced boundary t)
    (hc : c ≠ ' ') : ∃ r, c :: r <:+ t ∧ spaced boundary (c :: r) = c :: rest := by
  induction t with
  | nil => exact absurd (List.suffix_nil.1 h) (List.cons_ne_nil _ _)
  | cons x t ih =>
    have hlater (hl : c :: rest <:+ spaced boundary t) : ∃ r, c :: r <:+ x :: t ∧ spaced boundary (c :: r) = c :: rest := by
      obtain ⟨r, hr, heq⟩ := ih hl
      exact ⟨r, hr.trans (List.suffix_cons x t), heq⟩
    have hspaced : spaced boundary (x :: t) = x :: ' ' :: spaced boundary t ∨ spaced boundary (x :: t) = x :: spaced boundary t := by
      rw [spaced]
      split
      · exact .inl rfl
      · exact .inr rfl
    have hhere (hl : c :: rest = spaced boundary (x :: t)) (hx : c = x) :
        ∃ r, c :: r <:+ x :: t ∧ spaced boundary (c :: r) = c :: rest := by
      subst hx
      exact ⟨t, List.suffix_rfl, hl.symm⟩
    rcases hspaced with hspaced | hspaced
    · rw [hspaced] at h
      rcases List.suffix_cons_iff.1 h with h | h
      · exact hhere (h.trans hspaced.symm) (List.cons.inj h).1
      · rcases List.suffix_cons_iff.1 h with h | h
        · exact absurd (List.cons.inj h).1 hc
        · exact hlater h
    · rw [hspaced] at h
      rcases List.suffix_cons_iff.1 h with h | h
      · exact hhere (h.trans hspaced.symm) (List.cons.inj h).1
      · exact hlater h

theorem spaced_cons {boundary : Char → Text → Bool} {c d : Char} {r rest : Text} (h : spaced boundary (c :: r) = c :: d :: rest)
    (hd : d ≠ ' ') : ∃ r', r = d :: r' ∧ boundary c (d :: r') = false ∧ spaced boundary (d :: r') = d :: rest := by
  rw [spaced] at h
  split at h
  · rw [List.cons.injEq, List.cons.injEq] at h
    exact absurd h.2.1.symm hd
  · rename_i hb
    have hr := (List.cons.inj h).2
    cases r with
    | nil => cases hr
    | cons x r =>
      have hx : x = d := by
        rw [spaced] at hr
        split at hr <;> exact (List.cons.inj hr).1
      subst hx
      exact ⟨r, rfl, by simpa using hb, hr⟩

theorem not_space {c : Char} (h : c.isAlpha = true) : c ≠ ' ' := by
  rintro rfl
  exact absurd h (by decide)

/-- Three letters that no space was put between. -/
theorem spaced_letters {boundary : Char → Text → Bool} {c d e : Char} {rest : Text} (h : c :: d :: e :: rest <:+ spaced boundary t)
    (hc : c.isAlpha = true) (hd : d.isAlpha = true) (he : e.isAlpha = true) :
    ∃ r, c :: d :: e :: r <:+ t ∧ boundary c (d :: e :: r) = false ∧ boundary d (e :: r) = false := by
  obtain ⟨r, hr, heq⟩ := suffix_of_spaced h (not_space hc)
  obtain ⟨r₁, rfl, hb, heq₁⟩ := spaced_cons heq (not_space hd)
  obtain ⟨r₂, rfl, hb₁, -⟩ := spaced_cons heq₁ (not_space he)
  exact ⟨r₂, hr, hb, hb₁⟩

theorem camelBoundary1_eq_false {c d : Char} {rest : Text} (h : camelBoundary1 c (d :: rest) = false) :
    ¬ (isAsciiLower c = true ∧ isAsciiUpper d = true) := by
  rintro ⟨hc, hd⟩
  simp [camelBoundary1, hc, hd] at h

theorem isAsciiUpper_eq (c : Char) : isAsciiUpper c = c.isUpper := by
  simp only [isAsciiUpper, Char.isUpper, Char.le_def, ge_iff_le, Bool.decide_and]

theorem isAsciiLower_eq (c : Char) : isAsciiLower c = c.isLower := by
  simp only [isAsciiLower, Char.isLower, Char.le_def, ge_iff_le]

theorem toNat_of_word {c : Char} (h : isAsciiWord c = true) : c.toNat < 128 := by
  rw [isAsciiWord, isAsciiUpper_eq, isAsciiLower_eq, Bool.or_eq_true, Bool.or_eq_true] at h
  rcases h with (h | h) | h
  · have := toNat_of_upper h
    omega
  · have := toNat_of_lower h
    omega
  · simp only [Char.isDigit, Bool.and_eq_true, decide_eq_true_eq] at h
    have hle : c.toNat ≤ 57 := UInt32.le_iff_toNat_le.1 h.2
    omega

theorem casefold_word {t : Text} (h : ∀ c ∈ t, isAsciiWord c = true) : casefold t = lower t := by
  rw [casefold, lower, List.map_eq_flatMap]
  exact List.flatMap_congr fun c hc => casefoldChar_ascii (toNat_of_word (h c hc))

/-- No word of a jagged name starts with three letters. -/
theorem Jagged.nameWords (h : Jagged t) {c d e : Char} {rest : Text} (hw : c :: d :: e :: rest ∈ nameWords t) :
    ¬ (c.isAlpha = true ∧ d.isAlpha = true ∧ e.isAlpha = true) := by
  rintro ⟨hc, hd, he⟩
  simp only [Security.nameWords, List.mem_map, List.mem_filter] at hw
  obtain ⟨piece, ⟨hpiece, -⟩, hfold⟩ := hw
  obtain ⟨-, hstands, hnone⟩ := splitOnP_pieces (fun c => !isAsciiWord c) (spaced camelBoundary1 (spaced camelBoundary2 t))
  have hword : ∀ c ∈ piece, isAsciiWord c = true := fun c hc => by simpa using hnone piece hpiece c hc
  rw [casefold_word hword] at hfold
  match piece, hfold with
  | c' :: d' :: e' :: rest', hfold =>
    simp only [lower, List.map_cons, List.cons.injEq] at hfold
    obtain ⟨rfl, rfl, rfl, -⟩ := hfold
    rw [Char.isAlpha_toLower_eq_isAlpha] at hc hd he
    obtain ⟨a, b, hab⟩ := hstands _ hpiece
    have hsuffix : c' :: d' :: e' :: (rest' ++ b) <:+ spaced camelBoundary1 (spaced camelBoundary2 t) := ⟨a, by rw [← hab]; simp⟩
    obtain ⟨r, hr, hb, hb'⟩ := spaced_letters hsuffix hc hd he
    obtain ⟨r', hr', -, -⟩ := spaced_letters hr hc hd he
    rcases h c' d' e' r' hr' hc hd he with hboth | hboth
    · exact camelBoundary1_eq_false hb hboth
    · exact camelBoundary1_eq_false hb' hboth

/-- Whether a text starts with three letters. -/
def isLettered : Text → Bool
  | c :: d :: e :: _ => c.isAlpha && d.isAlpha && e.isAlpha
  | _ => false

theorem Jagged.not_lettered (h : Jagged t) {w : Text} (hw : w ∈ Security.nameWords t) : isLettered w = false := by
  rw [← Bool.not_eq_true]
  intro hl
  match w, hl with
  | c :: d :: e :: rest, hl =>
    simp only [isLettered, Bool.and_eq_true, and_assoc] at hl
    exact h.nameWords hw hl

theorem jagged_nil : Jagged [] := by
  intro c d e rest h
  exact absurd (List.suffix_nil.1 h) (List.cons_ne_nil _ _)

theorem beforeLastDot_starts (t : Text) : beforeLastDot t <+: t := by
  rw [beforeLastDot]
  split
  · have hsuffix := (List.drop_suffix 1 _).trans (List.dropWhile_suffix (l := t.reverse) fun c => decide (c ≠ '.'))
    simpa using List.reverse_prefix.2 hsuffix
  · exact List.prefix_rfl

/-- Of jagged names no word is sensitive. -/
theorem wordSecret_jagged {parts : List Text} (h : ∀ part ∈ parts, Jagged part) : wordSecret parts = false := by
  have hwords : sensitiveNameWords.all isLettered = true := by decide +kernel
  have hterminals : sensitiveDirectoryTerminals.all isLettered = true := by decide +kernel
  have hsequences : sensitiveNameSequences.all (fun s => s.head?.any isLettered) = true := by decide +kernel
  rw [List.all_eq_true] at hwords hterminals hsequences
  have hname : Jagged (beforeLastDot (parts.getLastD [])) := by
    refine Jagged.part ?_ (beforeLastDot_starts _).isInfix
    rcases List.eq_nil_or_concat parts with rfl | ⟨init, last, rfl⟩
    · exact jagged_nil
    · rw [List.concat_eq_append, List.getLastD_concat]
      exact h last (by simp)
  rw [wordSecret, ← Bool.not_eq_true]
  simp only [Bool.or_eq_true, List.any_eq_true]
  rintro (⟨component, hmem, hterminal⟩ | ⟨w, hw, hsensitive⟩ | hsequence)
  · obtain ⟨w, hlast, hsensitive⟩ := (Option.any_eq_true _ _).1 hterminal
    have hlettered := hterminals w (by simpa using hsensitive)
    have hcomponent := h component (List.dropLast_subset _ hmem)
    rw [hcomponent.not_lettered (List.mem_of_getLast? hlast)] at hlettered
    cases hlettered
  · have hlettered := hwords w (by simpa using hsensitive)
    rw [hname.not_lettered hw] at hlettered
    cases hlettered
  · simp only [hasSequence, List.any_eq_true, List.mem_tails, List.isPrefixOf_iff_prefix] at hsequence
    obtain ⟨rest, hrest, s, hs, hpre⟩ := hsequence
    have hfirst := hsequences s hs
    match s, hfirst, hpre with
    | w :: s, hfirst, hpre =>
      have hw := hrest.subset (hpre.subset List.mem_cons_self)
      rw [List.head?_cons, Option.any_some, hname.not_lettered hw] at hfirst
      cases hfirst

/-! ## Capitals in the right places -/

def isAscii (c : Char) : Bool := c.toNat < 128

/-- A text with its letters in such cases that it is jagged. A letter in front of a character that is not ASCII stays. -/
def jag : Text → Text
  | [] => []
  | c :: rest =>
    (if rest.head?.any isAscii then if (jag rest).head?.any isAsciiUpper then c.toLower else c.toUpper else c) :: jag rest

theorem lower_jag (t : Text) : lower (jag t) = lower t := by
  induction t with
  | nil => rfl
  | cons c t ih =>
    change Char.toLower _ :: lower (jag t) = c.toLower :: lower t
    rw [ih]
    split_ifs <;> simp

theorem suffix_of_jag (h : u <:+ jag t) : ∃ s, s <:+ t ∧ jag s = u := by
  induction t with
  | nil => exact ⟨[], List.suffix_rfl, (List.suffix_nil.1 h).symm⟩
  | cons c t ih =>
    rcases List.suffix_cons_iff.1 h with rfl | h
    · exact ⟨c :: t, List.suffix_rfl, rfl⟩
    · obtain ⟨s, hs, hjag⟩ := ih h
      exact ⟨s, hs.trans (List.suffix_cons c t), hjag⟩

theorem isAscii_of_recased {c c' : Char} (h : c.toLower = c'.toLower) (hc : c.isAlpha = true) : isAscii c' = true := by
  rw [← Char.isAlpha_toLower_eq_isAlpha, h, Char.isAlpha_toLower_eq_isAlpha] at hc
  have hle := (toNat_of_alpha hc).2
  exact decide_eq_true (by omega)

theorem jagged_jag (t : Text) : Jagged (jag t) := by
  intro c d e rest h hc hd he
  obtain ⟨s, -, hjag⟩ := suffix_of_jag h
  have hlower := lower_jag s
  match s, hjag with
  | c' :: d' :: e' :: s, hjag =>
    rw [hjag] at hlower
    simp only [lower, List.map_cons, List.cons.injEq] at hlower
    obtain ⟨-, hd', he', -⟩ := hlower
    obtain ⟨hcc, htail⟩ := List.cons.inj hjag
    obtain ⟨hdd, htail'⟩ := List.cons.inj htail
    rw [htail, List.head?_cons, Option.any_some, if_pos (isAscii_of_recased hd' hd), List.head?_cons, Option.any_some] at hcc
    rw [htail', List.head?_cons, Option.any_some, if_pos (isAscii_of_recased he' he), List.head?_cons, Option.any_some] at hdd
    simp only [isAsciiUpper_eq, isAsciiLower_eq] at hcc hdd ⊢
    -- from the right: each letter is small in front of a capital, and else a capital
    by_cases heu : e.isUpper = true
    · rw [if_pos heu] at hdd
      subst hdd
      exact .inr ⟨by rwa [Char.isLower_toLower_eq_isAlpha, ← Char.isAlpha_toLower_eq_isAlpha], heu⟩
    · rw [if_neg heu] at hdd
      subst hdd
      have hdu : d'.toUpper.isUpper = true := by rwa [Char.isUpper_toUpper_eq_isAlpha, ← Char.isAlpha_toUpper_eq_isAlpha]
      rw [if_pos hdu] at hcc
      subst hcc
      exact .inl ⟨by rwa [Char.isLower_toLower_eq_isAlpha, ← Char.isAlpha_toLower_eq_isAlpha], hdu⟩

/-! ## Normal forms -/

/-- A text that the host leaves as it is. -/
def Normal (nfc : String → String) (t : Text) : Prop := nfc (String.ofList t) = String.ofList t

/-- What is known of normal forms: a part of a normal text is normal, and an ASCII character does not combine with what stands
before it. -/
structure NormalForm (nfc : String → String) : Prop where
  part {a b : Text} (h : Normal nfc (a ++ b)) : Normal nfc a ∧ Normal nfc b
  append {a b : Text} {c : Char} (hc : isAscii c = true) (ha : Normal nfc a) (hb : Normal nfc (c :: b)) : Normal nfc (a ++ c :: b)
  ascii {c : Char} (hc : isAscii c = true) : Normal nfc [c]

variable {nfc : String → String}

theorem isAscii_toLower {c : Char} (hc : isAscii c = true) : isAscii c.toLower = true := by
  rw [isAscii, decide_eq_true_eq] at hc ⊢
  exact toNat_toLower_lt hc

theorem isAscii_toUpper {c : Char} (hc : isAscii c = true) : isAscii c.toUpper = true := by
  by_cases hl : c.isLower = true
  · exact isAscii_of_recased (c := c) (Char.toLower_toUpper_eq_toLower c).symm (by simp [Char.isAlpha, hl])
  · rwa [Char.toUpper_eq_of_not_isLower hl]

theorem head?_jag_ascii {t : Text} (h : t.head?.any isAscii = true) : ∃ c rest, jag t = c :: rest ∧ isAscii c = true := by
  cases t with
  | nil => cases h
  | cons c t =>
    refine ⟨_, _, rfl, ?_⟩
    have hc : isAscii c = true := h
    split_ifs
    · exact isAscii_toLower hc
    · exact isAscii_toUpper hc
    · exact hc

/-- A normal text stays normal with its letters in other cases, since a letter that stands in front of another character than
an ASCII one stays. -/
theorem normal_jag (hnfc : NormalForm nfc) {a : Text} (h : Normal nfc (a ++ t)) : Normal nfc (a ++ jag t) := by
  induction t generalizing a with
  | nil => exact h
  | cons c t ih =>
    have hkept (hsame : jag (c :: t) = c :: jag t) : Normal nfc (a ++ jag (c :: t)) := by
      rw [hsame, List.append_cons]
      exact ih (by rwa [← List.append_cons])
    by_cases hnext : t.head?.any isAscii = true
    · by_cases hc : isAscii c = true
      · obtain ⟨ha, hct⟩ := hnfc.part h
        obtain ⟨-, ht⟩ := hnfc.part (a := [c]) hct
        obtain ⟨d, rest, hjag, hd⟩ := head?_jag_ascii hnext
        have hrest : Normal nfc (jag t) := ih (a := []) ht
        have hswap : ∀ c', isAscii c' = true → Normal nfc (a ++ c' :: jag t) := by
          intro c' hc'
          refine hnfc.append hc' ha ?_
          rw [hjag] at hrest ⊢
          exact hnfc.append (a := [c']) hd (hnfc.ascii hc') hrest
        rw [jag, if_pos hnext]
        split_ifs
        · exact hswap _ (isAscii_toLower hc)
        · exact hswap _ (isAscii_toUpper hc)
      · have hletter : ¬ c.isAlpha = true := fun hl => hc (isAscii_of_recased rfl hl)
        rw [Char.isAlpha, Bool.or_eq_true, not_or] at hletter
        refine hkept ?_
        rw [jag, Char.toLower_eq_of_not_isUpper hletter.1, Char.toUpper_eq_of_not_isLower hletter.2, ite_self, ite_self]
    · exact hkept (by rw [jag, if_neg hnext])

end AgentHub.Security
