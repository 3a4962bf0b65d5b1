import AgentHub.Lib.Checks
import AgentHub.Security.CamelCase
import AgentHub.Security.PathPolicy
import AgentHub.Workflow.CapabilityPolicy
/-!
# The gates on a path

What a spelling is judged by in other cases of its letters, and what the capability gate and the workspace gate say of one path.
The words of a name are found in some cases only (`keepsRestricted_iff`), and the capability gate looks for reserved names and idle
segments less closely than the workspace gate (`gatesAgree_iff`).
-/

namespace AgentHub.Security

open Lib Workspace

/-- A path in small letters. -/
def lowerSpelling (path : String) : String := String.ofList (lower path.toList)

/-- If the path in small letters is restricted, every spelling of it is that differs in the case of ASCII letters. -/
def KeepsRestricted (H : Host) (path : String) : Prop :=
  isRestrictedRelativePath H (lowerSpelling path) = true →
    ∀ spelling, lowerSpelling spelling = lowerSpelling path → isRestrictedRelativePath H spelling = true

/-- What may be granted as a capability is accepted as a path under the same name. -/
def GatesAgree (P : PathPolicy) (path : String) : Prop :=
  eligibleActions P.host path ≠ [] → ∃ parts, P.validateShape path false false = .ok (path, parts)

/-! ## Spellings -/

theorem lowerSpelling_inj {p q : String} : lowerSpelling p = lowerSpelling q ↔ lower p.toList = lower q.toList := by
  rw [lowerSpelling, lowerSpelling, String.ofList_inj]

theorem wordSecret_parts_jag (t : Text) (hrel : PurePath.isAbsolute t = false) : wordSecret (PurePath.parts (jag t)) = false := by
  have hrel' : PurePath.isAbsolute (jag t) = false := by rw [← isAbsolute_lower, lower_jag, isAbsolute_lower, hrel]
  rw [PurePath.parts_of_relative hrel']
  refine wordSecret_jagged fun part hpart => (jagged_jag t).part ?_
  exact (splitOnP_pieces (· == '/') (jag t)).2.1 part (PurePath.mem_segments_of_mem_names hpart)

/-- Every spelling of a restricted path is restricted exactly when it is so for its shape or for a name of the tables, or when
no spelling of it is normal. -/
theorem keepsRestricted_iff {H : Host} (hnfc : NormalForm H.nfc) (path : String) :
    KeepsRestricted H path ↔ denied path.toList = true ∨
      (Normal H.nfc (lower path.toList) ∧ wordSecret (PurePath.parts (lower path.toList)) = false) ∨
      ∀ spelling, lower spelling = lower path.toList → ¬ Normal H.nfc spelling := by
  have hdenied : ∀ spelling, lower spelling = lower path.toList → denied spelling = denied path.toList := by
    intro spelling hsame
    rw [← denied_lower, hsame, denied_lower]
  constructor
  · intro hkeeps
    by_contra hnot
    simp only [not_or, not_and, not_forall, not_not] at hnot
    obtain ⟨hshape, hwords, spelling, hsame, hnormal⟩ := hnot
    have hlow : isRestrictedRelativePath H (lowerSpelling path) = true := by
      rw [isRestrictedRelativePath_iff, lowerSpelling, String.toList_ofList]
      by_cases hn : Normal H.nfc (lower path.toList)
      · exact .inr (.inr (by simpa using hwords hn))
      · exact .inl hn
    have hjag : lower (jag spelling) = lower path.toList := by rw [lower_jag, hsame]
    have hres := hkeeps hlow (String.ofList (jag spelling)) (by rw [lowerSpelling_inj, String.toList_ofList, hjag])
    rw [isRestrictedRelativePath_iff, String.toList_ofList, hdenied _ hjag] at hres
    rcases hres with hres | hres | hres
    · exact hres (normal_jag hnfc (a := []) hnormal)
    · exact hshape hres
    · rw [wordSecret_parts_jag] at hres
      · cases hres
      · rw [← Bool.not_eq_true]
        intro habs
        refine hshape ?_
        rw [← hdenied _ hsame, denied, misshapen, habs]
        simp
  · rintro (hshape | ⟨hn, hwords⟩ | hnone) hlow spelling hsame
    · rw [isRestrictedRelativePath_iff, hdenied _ (lowerSpelling_inj.1 hsame)]
      exact .inr (.inl hshape)
    · rw [isRestrictedRelativePath_iff, lowerSpelling, String.toList_ofList, hwords, denied_lower] at hlow
      rw [isRestrictedRelativePath_iff, hdenied _ (lowerSpelling_inj.1 hsame)]
      rcases hlow with hlow | hlow | hlow
      · exact absurd hn hlow
      · exact .inr (.inl hlow)
      · cases hlow
    · rw [isRestrictedRelativePath_iff]
      refine .inl fun hnormal => hnone spelling.toList (lowerSpelling_inj.1 hsame) ?_
      rwa [Normal, String.ofList_toList]

/-! ## Grants -/

/-- Whether the name of a path is one that a capability can be granted for. -/
def isGrantable (path : String) : Bool :=
  let name := casefold (PurePath.name path.toList)
  isDependencyManifest name || isProjectConfig name

/-- The name of a part before its first dot is reserved. -/
def isReservedPart (part : Text) : Bool := dosReservedNames.contains (upper (part.takeWhile (· ≠ '.')))

variable {P : PathPolicy} {path : String}

/-- What is known of a path that is not restricted. -/
theorem unrestricted_iff {H : Host} : isRestrictedRelativePath H path = false ↔
    H.nfc path = path ∧ misshapen path.toList = false ∧ namedSecret (PurePath.parts path.toList) = false ∧
      wordSecret (PurePath.parts path.toList) = false := by
  rw [← Bool.not_eq_true, isRestrictedRelativePath_iff, denied]
  simp only [not_or, not_not, Bool.or_eq_true, Bool.not_eq_true, and_assoc]

theorem relative_of_unrestricted {H : Host} (h : isRestrictedRelativePath H path = false) :
    PurePath.isAbsolute path.toList = false ∧ PurePath.parts path.toList = PurePath.names path.toList := by
  obtain ⟨-, hshape, -⟩ := unrestricted_iff.1 h
  have habs : PurePath.isAbsolute path.toList = false := by
    rw [← Bool.not_eq_true]
    exact fun habs => (misshapen_iff.1 hshape).2.2.1 (.inl habs)
  exact ⟨habs, PurePath.parts_of_relative habs⟩

theorem getLastD_map_casefold (parts : List Text) : (parts.map casefold).getLastD [] = casefold (parts.getLastD []) := by
  rcases List.eq_nil_or_concat parts with rfl | ⟨init, last, rfl⟩
  · rfl
  · simp

theorem eligibleActions_ne_nil {H : Host} :
    eligibleActions H path ≠ [] ↔ isRestrictedRelativePath H path = false ∧ isGrantable path = true := by
  by_cases hres : isRestrictedRelativePath H path = true
  · simp [eligibleActions, hres]
  · rw [Bool.not_eq_true] at hres
    obtain ⟨habs, hparts⟩ := relative_of_unrestricted hres
    obtain ⟨-, hshape, -⟩ := unrestricted_iff.1 hres
    obtain ⟨htext, -, -, hsegments, -⟩ := misshapen_iff.1 hshape
    have hgate : capabilityParts path = some ((PurePath.names path.toList).map casefold) := by
      rw [not_or] at hsegments
      rw [capabilityParts, if_neg htext, if_neg, hparts]
      rintro (h | h)
      · rw [habs] at h
        cases h
      · exact hsegments.2 h
    rw [eligibleActions, hres, if_neg Bool.false_ne_true, hgate]
    dsimp only
    rw [getLastD_map_casefold, ← PurePath.name, isGrantable]
    cases isDependencyManifest (casefold (PurePath.name path.toList)) <;>
      cases isProjectConfig (casefold (PurePath.name path.toList)) <;> simp

/-- A colon of an unrestricted path would stand in one of its parts. -/
theorem colon_not_mem {H : Host} (h : isRestrictedRelativePath H path = false) : ':' ∉ path.toList := by
  obtain ⟨-, hparts⟩ := relative_of_unrestricted h
  obtain ⟨-, hshape, -⟩ := unrestricted_iff.1 h
  obtain ⟨-, -, -, -, hbad⟩ := misshapen_iff.1 hshape
  intro hcolon
  obtain ⟨s, hs, hmem⟩ := PurePath.exists_segment hcolon (by decide)
  refine hbad (List.any_eq_true.2 ⟨s, ?_, by simp [isBadPart, hmem]⟩)
  rw [hparts, PurePath.names, List.mem_filter, Bool.not_eq_true', PurePath.isIdle, Bool.or_eq_false_iff, decide_eq_false_iff_not,
    decide_eq_false_iff_not]
  refine ⟨hs, ?_, ?_⟩
  · rintro rfl
    exact absurd hmem List.not_mem_nil
  · rintro rfl
    exact absurd (List.mem_singleton.1 hmem) (by decide)

theorem validateText_of_unrestricted (h : isRestrictedRelativePath P.host path = false) (hlen : path.length ≤ 1024)
    (hencodes : P.host.encodes path = true) : P.validateText path = .ok () := by
  obtain ⟨habs, -⟩ := relative_of_unrestricted h
  obtain ⟨hnfc, hshape, -⟩ := unrestricted_iff.1 h
  obtain ⟨htext, hchars, hwindows, -⟩ := misshapen_iff.1 hshape
  rw [not_or] at htext hchars hwindows
  have hglob : ¬ globChars.any (path.toList.contains ·) = true := by
    intro hany
    obtain ⟨c, hc, hmem⟩ := List.any_eq_true.1 hany
    exact hchars.2 (List.any_eq_true.2 ⟨c, by simpa using hmem, by simpa using hc⟩)
  have hdrive : ¬ (hasWindowsDriveOrRoot path.toList = true ∨ PurePath.isAbsolute path.toList = true ∨
      (texts ["//"]).any (·.isPrefixOf path.toList) = true) := by
    have hhead : path.toList.head? ≠ some '/' := by simpa [PurePath.isAbsolute] using habs
    have hsecond : path.toList[1]? ≠ some ':' := fun hsome => colon_not_mem h (List.mem_of_getElem? hsome)
    rintro (hdrive | hroot | hshare)
    · simp [hasWindowsDriveOrRoot, hhead, hsecond] at hdrive
    · rw [habs] at hroot
      cases hroot
    · obtain ⟨rest, hrest⟩ : ['/', '/'] <+: path.toList := by simpa [texts] using hshare
      exact hhead (by rw [← hrest]; rfl)
  rw [PathPolicy.validateText]
  rw [if_neg, if_neg, if_neg, if_neg hchars.1, if_neg htext.2, if_neg hglob, if_neg hdrive]
  · exact not_not.2 hnfc
  · exact not_not.2 hencodes
  · rw [String.length_toList, not_or]
    exact ⟨htext.1, not_lt.2 hlen⟩

theorem validatePart_iff {part : Text} (h : isBadPart part = false) :
    PathPolicy.validatePart part = .ok () ↔ isReservedPart part = false := by
  simp only [isBadPart, Bool.or_eq_false_iff, decide_eq_false_iff_not, List.contains_eq_mem] at h
  obtain ⟨⟨⟨⟨hdot, hspace⟩, hcolon⟩, -⟩, hshort⟩ := h
  rw [PathPolicy.validatePart, if_neg (not_or.2 ⟨hspace, hdot⟩), if_neg hcolon, ← isReservedPart, hshort, if_neg Bool.false_ne_true]
  cases isReservedPart part <;> simp

theorem validateNames_of_unrestricted (h : isRestrictedRelativePath P.host path = false) :
    P.validateNames path (PurePath.parts path.toList) false false = .ok () := by
  obtain ⟨-, -, hnamed, -⟩ := unrestricted_iff.1 h
  simp only [namedSecret, Bool.or_eq_false_iff] at hnamed
  obtain ⟨⟨⟨hcomponents, -⟩, hcontrol⟩, -⟩ := hnamed
  have hforbidden : ¬ ((PurePath.parts path.toList).map casefold).any (forbiddenComponents.contains ·) = true := by
    intro hany
    obtain ⟨part, hpart, hmem⟩ := List.any_eq_true.1 hany
    have hnot := List.any_eq_false.1 hcomponents part hpart
    rw [hmem, Bool.or_true] at hnot
    exact hnot rfl
  rw [PathPolicy.validateNames]
  rw [if_neg hforbidden, h, getLastD_map_casefold, hcontrol]
  rfl

theorem gatesAgree_iff (hlen : path.length ≤ 1024) (hencodes : P.host.encodes path = true) :
    GatesAgree P path ↔ isRestrictedRelativePath P.host path = true ∨ isGrantable path = false ∨
      (PurePath.Canonical path.toList ∧ (PurePath.names path.toList).any isReservedPart = false) := by
  rw [GatesAgree, eligibleActions_ne_nil]
  by_cases hres : isRestrictedRelativePath P.host path = true
  · simp [hres]
  rw [Bool.not_eq_true] at hres
  obtain ⟨-, hparts⟩ := relative_of_unrestricted hres
  obtain ⟨-, hshape, -⟩ := unrestricted_iff.1 hres
  obtain ⟨-, -, -, hsegments, hbad⟩ := misshapen_iff.1 hshape
  have hgood : ∀ part ∈ PurePath.names path.toList, isBadPart part = false := by
    intro part hpart
    rw [← hparts] at hpart
    simpa using fun h => hbad (List.any_eq_true.2 ⟨part, hpart, h⟩)
  have hne : PurePath.names path.toList ≠ [] := fun h => hsegments (.inl (hparts.trans h))
  have hchecks : (PurePath.names path.toList).forM PathPolicy.validatePart = .ok () ↔
      (PurePath.names path.toList).any isReservedPart = false := by
    rw [forM_ok_iff, List.any_eq_false]
    refine forall₂_congr fun part hpart => ?_
    rw [validatePart_iff (hgood part hpart), Bool.not_eq_true]
  have hnames := validateNames_of_unrestricted hres
  rw [hparts] at hnames hsegments
  have hshape_iff : ∀ normalized parts, P.validateShape path false false = .ok (normalized, parts) ↔
      (PurePath.names path.toList).any isReservedPart = false ∧
        (String.ofList (PurePath.ofNames (PurePath.names path.toList)), (PurePath.names path.toList).map String.ofList) =
          (normalized, parts) := by
    intro normalized parts
    rw [← hchecks, PathPolicy.validateShape, validateText_of_unrestricted hres hlen hencodes, hparts]
    simp only [Tx.bind_ok, if_neg hsegments, hnames, Tx.pure_ok]
    constructor
    · rintro ⟨_, -, _, hforM, _, -, heq⟩
      exact ⟨hforM, heq.symm⟩
    · rintro ⟨hforM, heq⟩
      exact ⟨(), trivial, (), hforM, (), trivial, heq.symm⟩
  have hcanonical : String.ofList (PurePath.ofNames (PurePath.names path.toList)) = path ↔ PurePath.Canonical path.toList := by
    rw [← PurePath.ofNames_names_iff hne, ← String.ofList_inj, String.ofList_toList]
  simp only [hres, true_and, Bool.false_eq_true, false_or, hshape_iff, Prod.mk.injEq, hcanonical]
  cases isGrantable path <;> simp [and_comm]

/-! ## Both -/

/-- A path keeps its restriction in every case and means the same to both gates exactly when it is refused for its shape or a name
of the tables, or for none of its words, and when a grant of it would be for a canonical spelling without reserved names. -/
theorem spellings_and_gates (hnfc : NormalForm P.host.nfc) (path : String) (hlen : path.length ≤ 1024)
    (hencodes : P.host.encodes path = true) :
    (KeepsRestricted P.host path ∧ GatesAgree P path) ↔
      (denied path.toList = true ∨
        (Normal P.host.nfc (lower path.toList) ∧ wordSecret (PurePath.parts (lower path.toList)) = false) ∨
        ∀ spelling, lower spelling = lower path.toList → ¬ Normal P.host.nfc spelling) ∧
      (isRestrictedRelativePath P.host path = true ∨ isGrantable path = false ∨
        (PurePath.Canonical path.toList ∧ (PurePath.names path.toList).any isReservedPart = false)) :=
  and_congr (keepsRestricted_iff hnfc path) (gatesAgree_iff hlen hencodes)

/-- Of ASCII texts all are normal. -/
theorem normalForm_id : NormalForm id where
  part _ := ⟨rfl, rfl⟩
  append _ _ _ := rfl
  ascii _ := rfl

theorem spellings_and_gates_sample :
    KeepsRestricted PathPolicy.asciiHost "web/package.json" ∧ GatesAgree PathPolicy.samplePolicy "web/package.json" :=
  (spellings_and_gates (P := PathPolicy.samplePolicy) normalForm_id "web/package.json" (by decide) rfl).2
    ⟨.inr (.inl ⟨rfl, by decide +kernel⟩), .inr (.inr ⟨by decide, by decide +kernel⟩)⟩

/-- A capital hides a word, and a grant goes to a reserved name and to a spelling that is not canonical. -/
theorem spellings_and_gates_part :
    ¬ KeepsRestricted PathPolicy.asciiHost "token.txt" ∧ ¬ GatesAgree PathPolicy.samplePolicy "con.test.json" ∧
      ¬ GatesAgree PathPolicy.samplePolicy "./package.json" := by
  have hcase : isRestrictedRelativePath PathPolicy.asciiHost "tOken.txt" = false := by decide +kernel
  have hreserved : eligibleActions PathPolicy.asciiHost "con.test.json" ≠ [] := by decide +kernel
  have hidle : eligibleActions PathPolicy.asciiHost "./package.json" ≠ [] := by decide +kernel
  refine ⟨fun h => ?_, fun h => ?_, fun h => ?_⟩
  · have hres := h (by decide +kernel) "tOken.txt" (by decide +kernel)
    rw [hcase] at hres
    cases hres
  · obtain ⟨parts, hparts⟩ := h hreserved
    have herr : PathPolicy.samplePolicy.validateShape "con.test.json" false false =
        .error (Failure.violation "reserved Windows path component: con.test.json") := by decide +kernel
    rw [herr] at hparts
    cases hparts
  · obtain ⟨parts, hparts⟩ := h hidle
    have hok : PathPolicy.samplePolicy.validateShape "./package.json" false false = .ok ("package.json", ["package.json"]) := by
      decide +kernel
    rw [hok] at hparts
    exact absurd (Prod.mk.inj (Except.ok.inj hparts)).1 (by decide)

end AgentHub.Security
