import AgentHub.Context.ContextBuilder
/-!
# Trimming a pack to its budget

A build keeps a prefix of each of the four lists. It stops at the first pack that fits, since the text of a pack grows with its
lists; so it fails exactly when the pack with empty lists is too long.
-/

namespace AgentHub

open Lib Workspace

namespace ContextBuilder

/-! ## Prefixes of the lists -/

/-- The lists cut to so many items each. -/
def Lists.take (l : Lists) (n : Trim → Nat) : Lists where
  upstream := l.upstream.take (n .upstreamSummary)
  refs := l.refs.take (n .artifactRef)
  forbidden := l.forbidden.take (n .forbiddenPath)
  criteria := l.criteria.take (n .acceptanceCriterion)

/-- How many items a list has. -/
def Lists.count (l : Lists) (k : Trim) : Nat := (l.ids k).length

/-- The place of a list in the order of trimming. -/
def Trim.rank : Trim → Nat
  | .artifactRef => 0
  | .upstreamSummary => 1
  | .forbiddenPath => 2
  | .acceptanceCriterion => 3

variable {l : Lists} {n n' : Trim → Nat} {k : Trim} {m : Nat}

@[simp] theorem ids_take (l : Lists) (n : Trim → Nat) (k : Trim) : (l.take n).ids k = (l.ids k).take (n k) := by
  cases k <;> simp [Lists.ids, Lists.take]

theorem take_count (h : ∀ k, n k = l.count k) : l.take n = l := by
  obtain ⟨upstream, refs, forbidden, criteria⟩ := l
  simp [Lists.take, h, Lists.count, Lists.ids]

theorem take_zero (h : ∀ k, n k = 0) : l.take n = {} := by
  simp [Lists.take, h]

theorem dropLast_take_succ {α : Type} {items : List α} (h : m < items.length) : (items.take (m + 1)).dropLast = items.take m := by
  rw [List.take_succ_eq_append_getElem h, List.dropLast_concat]

/-- `pop` makes a prefix shorter by one. -/
theorem pop_take (h : m < l.count k) :
    (l.take (Function.update n k (m + 1))).pop k = l.take (Function.update n k m) := by
  cases k <;> simp [Lists.pop, Lists.take, Lists.count, Lists.ids] at h ⊢ <;> exact dropLast_take_succ h

theorem getLast?_ids (h : m < l.count k) :
    ∃ id, ((l.take (Function.update n k (m + 1))).ids k).getLast? = some id ∧ (l.ids k).take (m + 1) = (l.ids k).take m ++ [id] := by
  have hlt : m < (l.ids k).length := h
  refine ⟨(l.ids k)[m], ?_, List.take_succ_eq_append_getElem hlt⟩
  rw [ids_take, Function.update_self, List.take_succ_eq_append_getElem hlt, List.getLast?_concat]

/-! ## Bounds -/

/-- The bounds on the texts. -/
def Texts.valid (t : Texts) : Bool :=
  t.sessionGoal.length ≤ 20000 && (1 ≤ t.currentNodeTitle.length && t.currentNodeTitle.length ≤ 500) && t.currentTask.length ≤ 20000

/-- The bounds on the lists. -/
def Lists.valid (l : Lists) : Bool :=
  l.upstream.length ≤ 100 && l.refs.length ≤ 500 && (l.forbidden.length ≤ 2000 && l.forbidden.all isRepoRelativePath) &&
    (l.criteria.length ≤ 100 && l.criteria.all isShortReason)

/-- What a build is called with. -/
structure InBounds (task : TaskPackage) (texts : Texts) (l : Lists) (maxPromptChars : Int) : Prop where
  task : task.valid = true
  texts : texts.valid = true
  lists : l.valid = true
  low : 1000 ≤ maxPromptChars
  high : maxPromptChars ≤ 24000

theorem all_take {α : Type} {p : α → Bool} {items : List α} (h : items.all p = true) (m : Nat) : (items.take m).all p = true :=
  List.all_eq_true.2 fun a ha => List.all_eq_true.1 h a (List.mem_of_mem_take ha)

theorem valid_take (h : l.valid = true) (n : Trim → Nat) : (l.take n).valid = true := by
  simp only [Lists.valid, Bool.and_eq_true, decide_eq_true_eq] at h ⊢
  obtain ⟨⟨⟨hup, hrefs⟩, hforbidden, hpaths⟩, hcriteria, hreasons⟩ := h
  have hlen : ∀ {α : Type} (items : List α) (m bound : Nat), items.length ≤ bound → (items.take m).length ≤ bound :=
    fun items m bound hbound => (List.length_take_le' m items).trans hbound
  exact ⟨⟨⟨hlen _ _ _ hup, hlen _ _ _ hrefs⟩, hlen _ _ _ hforbidden, all_take hpaths _⟩, hlen _ _ _ hcriteria, all_take hreasons _⟩

/-- Within the bounds every pack of prefixes is valid. -/
theorem buildPack_take {task : TaskPackage} {texts : Texts} {maxPromptChars : Int} (h : InBounds task texts l maxPromptChars)
    (n : Trim → Nat) :
    buildPack task texts maxPromptChars (l.take n) = .ok (packOf task texts maxPromptChars (l.take n)) := by
  have hlists := valid_take h.lists n
  have htask := h.task
  have htexts := h.texts
  refine if_pos ?_
  simp only [Lists.valid, TaskPackage.valid, Texts.valid, ContextPack.valid, packOf, Bool.and_eq_true, decide_eq_true_eq] at *
  simp only [htask, htexts, hlists, h.low, h.high, decide_true, and_self]

/-! ## Sizes -/

/-- Of a list a prefix is no longer. -/
theorem size_take {α : Type} (dump : α → Plain) (items : List α) {a b : Nat} (h : a ≤ b) :
    Json.size noFloats (listOf dump (items.take a)) ≤ Json.size noFloats (listOf dump (items.take b)) := by
  obtain ⟨rest, hrest⟩ := List.take_prefix_take_left (l := items) h
  rw [listOf, listOf, ← hrest, List.map_append]
  exact Json.size_arr_append _ _

variable {task : TaskPackage} {texts : Texts} {maxPromptChars : Int}

/-- The octets of a pack of prefixes. -/
def sizeOf (task : TaskPackage) (texts : Texts) (maxPromptChars : Int) (l : Lists) (n : Trim → Nat) : Nat :=
  (canonicalJson (packOf task texts maxPromptChars (l.take n)).dump).length

theorem sizeOf_mono (h : ∀ k, n k ≤ n' k) : sizeOf task texts maxPromptChars l n ≤ sizeOf task texts maxPromptChars l n' := by
  unfold sizeOf
  rw [length_canonicalJson, length_canonicalJson, ContextPack.dump, ContextPack.dump, size_record, size_record, Json.size_obj,
    Json.size_obj]
  have hup := size_take NodeSummary.dump l.upstream (h .upstreamSummary)
  have hrefs := size_take ArtifactRef.dump l.refs (h .artifactRef)
  have hforbidden := size_take (.str : String → Plain) l.forbidden (h .forbiddenPath)
  have hcriteria := size_take (.str : String → Plain) l.criteria (h .acceptanceCriterion)
  simp only [ContextPack.fields, packOf, Lists.take, List.map_cons, List.map_nil, List.sum_cons, List.sum_nil, Json.fieldSize,
    List.length_cons, List.length_nil]
  omega

/-! ## One loop -/

/-- What the loops have assigned when the lists are cut to so many items. -/
def stateOf (task : TaskPackage) (texts : Texts) (maxPromptChars : Int) (l : Lists) (n : Trim → Nat) (trimmed : List TrimmedItem) :
    Building :=
  ⟨l.take n, packOf task texts maxPromptChars (l.take n), sizeOf task texts maxPromptChars l n, trimmed⟩

/-- What a record says of the item it is about. -/
def TrimmedItem.about (i : TrimmedItem) : String × String := (i.itemType, i.itemId)

/-- The records of the items of a list from some place on, the last first. -/
def removed (l : Lists) (k : Trim) (m : Nat) : List (String × String) :=
  ((l.ids k).drop m).reverse.map fun id => (k.value, id)

/-- What a loop over a list ends with, that has `j` items before and `m` after it. -/
structure LoopEnds (task : TaskPackage) (texts : Texts) (maxPromptChars : Int) (l : Lists) (n : Trim → Nat) (k : Trim) (j m : Nat)
    (items : List TrimmedItem) : Prop where
  le : m ≤ j
  items : items.map TrimmedItem.about = (((l.ids k).take j).drop m).reverse.map fun id => (k.value, id)
  fits : (sizeOf task texts maxPromptChars l (Function.update n k m) : Int) ≤ maxPromptChars ∨ m = 0
  exceeds : m < j → maxPromptChars < sizeOf task texts maxPromptChars l (Function.update n k (m + 1))

/-- The record of an item that goes. -/
def trimmedItem (k : Trim) (id : String) (packBytes : Nat) (maxPromptChars : Int) : TrimmedItem :=
  ⟨k.value, id, "budget exceeded (" ++ toString packBytes ++ " > " ++ toString maxPromptChars ++ ")"⟩

theorem trimLoop_over {lists : Lists} {pack pack' : ContextPack} {bytes bytes' j : Nat} {trimmed : List TrimmedItem} {id : String}
    (hid : (lists.ids k).getLast? = some id) (hover : maxPromptChars < bytes)
    (hpack : buildPack task texts maxPromptChars (lists.pop k) = .ok pack') (hbytes : (canonicalJson pack'.dump).length = bytes') :
    trimLoop task texts maxPromptChars k (j + 1) ⟨lists, pack, bytes, trimmed⟩ = trimLoop task texts maxPromptChars k j
      ⟨lists.pop k, pack', bytes', trimmed ++ [trimmedItem k id bytes maxPromptChars]⟩ := by
  subst hbytes
  rw [trimLoop]
  dsimp only
  rw [hid]
  dsimp only
  rw [if_pos hover, hpack]
  rfl

theorem trimLoop_fits {lists : Lists} {pack : ContextPack} {bytes j : Nat} {trimmed : List TrimmedItem}
    (hfits : ¬ maxPromptChars < bytes) :
    trimLoop task texts maxPromptChars k j ⟨lists, pack, bytes, trimmed⟩ = .ok ⟨lists, pack, bytes, trimmed⟩ := by
  cases j with
  | zero => rfl
  | succ j =>
    rw [trimLoop]
    split
    · rfl
    · rw [if_neg hfits]

theorem trimLoop_run (h : InBounds task texts l maxPromptChars) (n : Trim → Nat) (k : Trim) : ∀ j ≤ l.count k, ∀ trimmed,
    ∃ m items, trimLoop task texts maxPromptChars k j (stateOf task texts maxPromptChars l (Function.update n k j) trimmed) =
        .ok (stateOf task texts maxPromptChars l (Function.update n k m) (trimmed ++ items)) ∧
      LoopEnds task texts maxPromptChars l n k j m items := by
  intro j
  induction j with
  | zero =>
    intro _ trimmed
    refine ⟨0, [], ?_, Nat.le_refl 0, by simp, .inr rfl, fun hlt => absurd hlt (Nat.lt_irrefl 0)⟩
    rw [List.append_nil]
    rfl
  | succ j ih =>
    intro hj trimmed
    obtain ⟨id, hid, htake⟩ := getLast?_ids (n := n) hj
    by_cases hover : maxPromptChars < sizeOf task texts maxPromptChars l (Function.update n k (j + 1))
    · obtain ⟨m, items, hrun, hends⟩ := ih (Nat.le_of_succ_le hj) (trimmed ++
        [trimmedItem k id (sizeOf task texts maxPromptChars l (Function.update n k (j + 1))) maxPromptChars])
      have hpack := buildPack_take h (Function.update n k j)
      rw [← pop_take hj] at hpack
      refine ⟨m, trimmedItem k id (sizeOf task texts maxPromptChars l (Function.update n k (j + 1))) maxPromptChars :: items, ?_,
        Nat.le_succ_of_le hends.le, ?_, hends.fits, fun hlt => ?_⟩
      · rw [List.append_assoc] at hrun
        rw [stateOf, trimLoop_over hid hover hpack rfl, pop_take hj]
        exact hrun
      · rw [htake, List.drop_append_of_le_length, List.reverse_append, List.map_append, ← hends.items]
        · rfl
        · rw [List.length_take]
          exact Nat.le_min.2 ⟨hends.le, hends.le.trans (Nat.le_of_succ_le hj)⟩
      · rcases Nat.lt_succ_iff_lt_or_eq.1 hlt with hlt | rfl
        · exact hends.exceeds hlt
        · exact hover
    · refine ⟨j + 1, [], ?_, Nat.le_refl _, ?_, .inl (not_lt.1 hover), fun hlt => absurd hlt (Nat.lt_irrefl _)⟩
      · rw [List.append_nil, stateOf, trimLoop_fits hover]
      · rw [List.drop_eq_nil_of_le (List.length_take_le _ _)]
        rfl

/-! ## The loops one after the other -/

/-- What holds when the loops over some of the lists are done. -/
structure Loops (task : TaskPackage) (texts : Texts) (maxPromptChars : Int) (l : Lists) (done : List Trim) (n : Trim → Nat)
    (trimmed : List TrimmedItem) : Prop where
  within (k : Trim) : n k ≤ l.count k
  todo (k : Trim) (hk : k ∉ done) : n k = l.count k
  items : trimmed.map TrimmedItem.about = done.flatMap fun k => removed l k (n k)
  fits : (sizeOf task texts maxPromptChars l n : Int) ≤ maxPromptChars ∨ ∀ k ∈ done, n k = 0
  later : done.Pairwise fun k k' => n k' < l.count k' → n k = 0
  exceeds (a b : List Trim) (k : Trim) (hsplit : done = a ++ k :: b) (hk : n k < l.count k) (hb : ∀ k' ∈ b, n k' = l.count k') :
    maxPromptChars < sizeOf task texts maxPromptChars l (Function.update n k (n k + 1))

theorem removed_count (l : Lists) (k : Trim) : removed l k (l.count k) = [] := by
  rw [removed, Lists.count, List.drop_length]
  rfl

/-- The loop over the next list. -/
theorem Loops.next (h : InBounds task texts l maxPromptChars) {done : List Trim} {n : Trim → Nat} {trimmed : List TrimmedItem}
    (hloops : Loops task texts maxPromptChars l done n trimmed) {k : Trim} (hk : k ∉ done) :
    ∃ n' trimmed', trimLoop task texts maxPromptChars k (l.count k) (stateOf task texts maxPromptChars l n trimmed) =
        .ok (stateOf task texts maxPromptChars l n' trimmed') ∧
      Loops task texts maxPromptChars l (done ++ [k]) n' trimmed' := by
  obtain ⟨m, items, hrun, hends⟩ := trimLoop_run h n k (l.count k) (Nat.le_refl _) trimmed
  have hfull : Function.update n k (l.count k) = n := by rw [← hloops.todo k hk, Function.update_eq_self]
  have hother : ∀ k' ∈ done, Function.update n k m k' = n k' := by
    intro k' hk'
    refine Function.update_of_ne ?_ _ _
    rintro rfl
    exact hk hk'
  rw [hfull] at hrun
  -- a loop that removes anything started over the budget
  have hzero : m < l.count k → ∀ k' ∈ done, n k' = 0 := by
    intro hlt
    refine hloops.fits.resolve_left fun hfits => ?_
    have hmono : sizeOf task texts maxPromptChars l (Function.update n k (m + 1)) ≤ sizeOf task texts maxPromptChars l n := by
      refine sizeOf_mono fun k' => ?_
      by_cases heq : k' = k
      · subst heq
        rw [Function.update_self, hloops.todo k' hk]
        exact hlt
      · rw [Function.update_of_ne heq]
    have hover := hends.exceeds hlt
    omega
  refine ⟨Function.update n k m, trimmed ++ items, hrun, ?_, ?_, ?_, ?_, ?_, ?_⟩
  · intro k'
    by_cases heq : k' = k
    · subst heq
      rw [Function.update_self]
      exact hends.le
    · rw [Function.update_of_ne heq]
      exact hloops.within k'
  · intro k' hk'
    rw [List.mem_append, not_or, List.mem_singleton] at hk'
    rw [Function.update_of_ne hk'.2]
    exact hloops.todo k' hk'.1
  · rw [List.map_append, hloops.items, hends.items, List.flatMap_append, List.flatMap_singleton, removed, Function.update_self]
    have hsame : done.flatMap (fun k' => removed l k' (Function.update n k m k')) = done.flatMap fun k' => removed l k' (n k') :=
      List.flatMap_congr fun k' hk' => by rw [hother k' hk']
    rw [hsame, Lists.count, List.take_length]
  · rcases hends.fits with hfits | hm
    · exact .inl hfits
    · subst hm
      by_cases hnone : l.count k = 0
      · have hsame : Function.update n k 0 = n := by rw [← hnone, hfull]
        rw [hsame]
        refine hloops.fits.imp id fun hall k' hk' => ?_
        rcases List.mem_append.1 hk' with hk' | hk'
        · exact hall k' hk'
        · rw [List.mem_singleton.1 hk', hloops.todo k hk, hnone]
      · refine .inr fun k' hk' => ?_
        rcases List.mem_append.1 hk' with hk' | hk'
        · rw [hother k' hk']
          exact hzero (Nat.pos_of_ne_zero hnone) k' hk'
        · rw [List.mem_singleton.1 hk', Function.update_self]
  · rw [List.pairwise_append]
    refine ⟨hloops.later.imp_of_mem fun {a b} ha hb hlater hlt => ?_, List.pairwise_singleton _ _, fun a ha b hb hlt => ?_⟩
    · rw [hother a ha]
      rw [hother b hb] at hlt
      exact hlater hlt
    · obtain rfl := List.mem_singleton.1 hb
      rw [Function.update_self] at hlt
      rw [hother a ha]
      exact hzero hlt a ha
  · intro a b k' hsplit hlt hb
    rcases List.eq_nil_or_concat b with rfl | ⟨b, z, rfl⟩
    · obtain ⟨rfl, hlast⟩ := List.append_inj' hsplit rfl
      obtain rfl := List.singleton_inj.1 hlast
      rw [Function.update_self] at hlt ⊢
      rw [Function.update_idem]
      exact hends.exceeds hlt
    · have hsplit' : done ++ [k] = (a ++ k' :: b) ++ [z] := by simpa using hsplit
      obtain ⟨rfl, hlast⟩ := List.append_inj' hsplit' rfl
      obtain rfl := List.singleton_inj.1 hlast
      have hm : m = l.count k := by
        have hfullk := hb k (by simp)
        rwa [Function.update_self] at hfullk
      rw [hm, hfull] at hlt ⊢
      refine hloops.exceeds a b k' rfl hlt fun k'' hk'' => ?_
      have hfull' := hb k'' (by simp [hk''])
      rwa [hm, hfull] at hfull'

theorem Loops.start (l : Lists) (task : TaskPackage) (texts : Texts) (maxPromptChars : Int) :
    Loops task texts maxPromptChars l [] l.count [] where
  within k := Nat.le_refl _
  todo k _ := rfl
  items := rfl
  fits := .inr fun k hk => absurd hk List.not_mem_nil
  later := .nil
  exceeds a b k hsplit := absurd hsplit (by simp)

theorem loops_run (h : InBounds task texts l maxPromptChars) {todo : List Trim} : ∀ {done n trimmed}, (done ++ todo).Nodup →
    Loops task texts maxPromptChars l done n trimmed → ∃ n' trimmed',
      todo.foldlM (fun b k => trimLoop task texts maxPromptChars k (b.lists.ids k).length b)
          (stateOf task texts maxPromptChars l n trimmed) = .ok (stateOf task texts maxPromptChars l n' trimmed') ∧
        Loops task texts maxPromptChars l (done ++ todo) n' trimmed' := by
  induction todo with
  | nil =>
    intro done n trimmed _ hloops
    exact ⟨n, trimmed, rfl, by rwa [List.append_nil]⟩
  | cons k todo ih =>
    intro done n trimmed hnd hloops
    have hk : k ∉ done := fun hmem => (List.nodup_append.1 hnd).2.2 k hmem k List.mem_cons_self rfl
    obtain ⟨n₁, trimmed₁, hrun₁, hloops₁⟩ := hloops.next h hk
    have hnd' : (done ++ [k] ++ todo).Nodup := by rwa [List.append_assoc]
    obtain ⟨n', trimmed', hrun, hloops'⟩ := ih hnd' hloops₁
    have hlen : ((l.take n).ids k).length = l.count k := by rw [ids_take, List.length_take, hloops.todo k hk, Lists.count, Nat.min_self]
    refine ⟨n', trimmed', ?_, ?_⟩
    · rw [List.foldlM_cons]
      change (trimLoop task texts maxPromptChars k ((l.take n).ids k).length _ >>= _) = _
      rw [hlen, hrun₁]
      exact hrun
    · rwa [List.append_assoc] at hloops'

/-! ## Builds -/

/-- A pack of the first items of each list, and of the others a record, is the first that fits. -/
structure TrimmedTo (task : TaskPackage) (texts : Texts) (maxPromptChars : Int) (l : Lists) (n : Trim → Nat) (r : ContextBuildResult) :
    Prop where
  within (k : Trim) : n k ≤ l.count k
  pack : r.pack = packOf task texts maxPromptChars (l.take n)
  scope : r.pack.effectiveAllowedFiles = task.effectiveAllowedFiles ∧ r.pack.effectiveNewFiles = task.effectiveNewFiles ∧
    r.pack.activeCapabilityGrantId = task.activeCapabilityGrantId ∧ r.pack.grantedExistingFiles = task.grantedExistingFiles ∧
    r.pack.effectiveAllowedCommands = task.effectiveAllowedCommands
  total : r.totalBytes = (canonicalJson r.pack.dump).length
  fits : (r.totalBytes : Int) ≤ maxPromptChars
  items : r.trimmed.map TrimmedItem.about = Trim.all.flatMap fun k => removed l k (n k)
  later {k k' : Trim} (hbefore : k.rank < k'.rank) (htrimmed : n k' < l.count k') : n k = 0
  minimal (k : Trim) (htrimmed : n k < l.count k) (hlast : ∀ k', k.rank < k'.rank → n k' = l.count k') :
    maxPromptChars < (canonicalJson (packOf task texts maxPromptChars (l.take (Function.update n k (n k + 1)))).dump).length

/-- The order of the loops is the order of the ranks. -/
theorem Loops.later_rank {n : Trim → Nat} {trimmed : List TrimmedItem} (h : Loops task texts maxPromptChars l Trim.all n trimmed)
    {k k' : Trim} (hbefore : k.rank < k'.rank) (hlt : n k' < l.count k') : n k = 0 := by
  have hpairs := h.later
  simp only [Trim.all, List.pairwise_cons, List.mem_cons, List.not_mem_nil, or_false, forall_eq_or_imp, forall_eq] at hpairs
  obtain ⟨⟨hru, hrf, hrc⟩, ⟨huf, huc⟩, hfc, -⟩ := hpairs
  cases k <;> cases k' <;> simp only [Trim.rank] at hbefore <;> omega

theorem Loops.minimal {n : Trim → Nat} {trimmed : List TrimmedItem} (h : Loops task texts maxPromptChars l Trim.all n trimmed)
    (k : Trim) (hlt : n k < l.count k) (hlast : ∀ k', k.rank < k'.rank → n k' = l.count k') :
    maxPromptChars < sizeOf task texts maxPromptChars l (Function.update n k (n k + 1)) := by
  cases k with
  | artifactRef =>
    refine h.exceeds [] [.upstreamSummary, .forbiddenPath, .acceptanceCriterion] _ rfl hlt fun k' hk' => hlast k' ?_
    simp only [List.mem_cons, List.not_mem_nil, or_false] at hk'
    rcases hk' with rfl | rfl | rfl <;> decide
  | upstreamSummary =>
    refine h.exceeds [.artifactRef] [.forbiddenPath, .acceptanceCriterion] _ rfl hlt fun k' hk' => hlast k' ?_
    simp only [List.mem_cons, List.not_mem_nil, or_false] at hk'
    rcases hk' with rfl | rfl <;> decide
  | forbiddenPath =>
    refine h.exceeds [.artifactRef, .upstreamSummary] [.acceptanceCriterion] _ rfl hlt fun k' hk' => hlast k' ?_
    obtain rfl := List.mem_singleton.1 hk'
    decide
  | acceptanceCriterion =>
    exact h.exceeds [.artifactRef, .upstreamSummary, .forbiddenPath] [] _ rfl hlt fun k' hk' => absurd hk' List.not_mem_nil

/-- The result of the loops when it fits. -/
theorem Loops.trimmedTo {n : Trim → Nat} {trimmed : List TrimmedItem} (h : Loops task texts maxPromptChars l Trim.all n trimmed)
    {bytes : Nat} (hbytes : sizeOf task texts maxPromptChars l n = bytes) (hfits : (bytes : Int) ≤ maxPromptChars) :
    TrimmedTo task texts maxPromptChars l n ⟨packOf task texts maxPromptChars (l.take n), trimmed, bytes⟩ where
  within := h.within
  pack := rfl
  scope := ⟨rfl, rfl, rfl, rfl, rfl⟩
  total := by rw [← hbytes, sizeOf]
  fits := hfits
  items := h.items
  later := h.later_rank
  minimal k htrimmed hlast := by
    have hmin := h.minimal k htrimmed hlast
    rwa [sizeOf] at hmin

theorem Trim.mem_all (k : Trim) : k ∈ Trim.all := by
  cases k <;> decide

/-- What a build comes to once its packs are valid and its loops have run. -/
theorem build_eq {pack minimal : ContextPack} {b : Building} (hlow : 1000 ≤ maxPromptChars) (hhigh : maxPromptChars ≤ 24000)
    (hpack : buildPack task texts maxPromptChars l = .ok pack) (hminimal : buildPack task texts maxPromptChars {} = .ok minimal)
    (hrun : Trim.all.foldlM (fun b k => trimLoop task texts maxPromptChars k (b.lists.ids k).length b)
      ⟨l, pack, (canonicalJson pack.dump).length, []⟩ = .ok b) :
    build task texts l maxPromptChars =
      if maxPromptChars < b.packBytes ∧ maxPromptChars < (canonicalJson minimal.dump).length then
        .error (.budgetExceeded ("required fields alone produce " ++ toString (canonicalJson minimal.dump).length ++
          " bytes, exceeding budget " ++ toString maxPromptChars))
      else .ok ⟨b.pack, b.trimmed, b.packBytes⟩ := by
  unfold build
  rw [if_neg (by omega), hpack]
  change Except.bind (List.foldlM _ _ Trim.all) _ = _
  rw [hrun]
  change (if maxPromptChars < b.packBytes then _ else _) = _
  by_cases hover : maxPromptChars < b.packBytes
  · rw [if_pos hover, hminimal]
    change (if maxPromptChars < (canonicalJson minimal.dump).length then _ else _) = _
    by_cases hleast : maxPromptChars < (canonicalJson minimal.dump).length
    · rw [if_pos hleast, if_pos ⟨hover, hleast⟩]
      rfl
    · rw [if_neg hleast, if_neg fun hboth => hleast hboth.2]
      rfl
  · rw [if_neg hover, if_neg fun hboth => hover hboth.1]
    rfl

/-- A build trims as little as it can, and fails exactly when trimming everything does not help. -/
theorem build_spec (h : InBounds task texts l maxPromptChars) :
    ((canonicalJson (packOf task texts maxPromptChars {}).dump).length ≤ maxPromptChars ∧
        ∃ r n, build task texts l maxPromptChars = .ok r ∧ TrimmedTo task texts maxPromptChars l n r) ∨
      (maxPromptChars < (canonicalJson (packOf task texts maxPromptChars {}).dump).length ∧
        ∃ message, build task texts l maxPromptChars = .error (.budgetExceeded message)) := by
  obtain ⟨n, trimmed, hrun, hloops⟩ := @loops_run l task texts maxPromptChars h Trim.all [] l.count [] (by decide) (Loops.start l task texts maxPromptChars)
  rw [List.nil_append] at hloops
  have hfirst := buildPack_take h l.count
  have hminimal := buildPack_take h fun _ => 0
  rw [take_count fun _ => rfl] at hfirst
  rw [take_zero fun _ => rfl] at hminimal
  have hstart : (⟨l, packOf task texts maxPromptChars l, (canonicalJson (packOf task texts maxPromptChars l).dump).length, []⟩ : Building) =
      stateOf task texts maxPromptChars l l.count [] := by
    rw [stateOf, sizeOf, take_count fun _ => rfl]
  obtain ⟨bytes, hbytes⟩ : ∃ bytes, sizeOf task texts maxPromptChars l n = bytes := ⟨_, rfl⟩
  obtain ⟨least, hleast⟩ : ∃ bytes, (canonicalJson (packOf task texts maxPromptChars {}).dump).length = bytes := ⟨_, rfl⟩
  have hzero : sizeOf task texts maxPromptChars l (fun _ => 0) = least := by rw [← hleast, sizeOf, take_zero fun _ => rfl]
  have hle : least ≤ bytes := by
    rw [← hzero, ← hbytes]
    exact sizeOf_mono fun k => Nat.zero_le (n k)
  rw [← hstart, stateOf, hbytes] at hrun
  have hbuild := build_eq h.low h.high hfirst hminimal hrun
  rw [hleast] at hbuild ⊢
  dsimp only at hbuild
  by_cases hover : maxPromptChars < least
  · have hlong : maxPromptChars < bytes := hover.trans_le (Int.ofNat_le.2 hle)
    rw [if_pos ⟨hlong, hover⟩] at hbuild
    exact .inr ⟨hover, _, hbuild⟩
  · have hfits : (bytes : Int) ≤ maxPromptChars := by
      rcases hloops.fits with hfits | hall
      · rwa [hbytes] at hfits
      · have hnone : n = fun _ => 0 := funext fun k => hall k k.mem_all
        rw [← hbytes, hnone, hzero]
        exact not_lt.1 hover
    rw [if_neg fun hboth => hover hboth.2] at hbuild
    exact .inl ⟨not_lt.1 hover, _, n, hbuild, hloops.trimmedTo hbytes hfits⟩

/-- A task with a single file in its scope. -/
def sampleTask : TaskPackage where
  taskId := "task-1"
  nodeId := "node-1"
  taskKind := .implement
  effectiveAllowedFiles := ["src/main.py"]

/-- Two criteria that do not both fit. -/
def sampleLists : Lists where
  criteria := [String.ofList (List.replicate 300 'a'), String.ofList (List.replicate 600 'b')]

theorem build_spec_sample : ∃ r n, build sampleTask ⟨"goal", "title", "work"⟩ sampleLists 1000 = .ok r ∧
    TrimmedTo sampleTask ⟨"goal", "title", "work"⟩ 1000 sampleLists n r := by
  have hbounds : InBounds sampleTask ⟨"goal", "title", "work"⟩ sampleLists 1000 := by
    refine ⟨?_, by decide, ?_, by decide, by decide⟩
    · simp [TaskPackage.valid, sampleTask, isEntityId, isRepoRelativePath]
      decide
    · simp only [Lists.valid, sampleLists, List.all_cons, isShortReason, String.length_ofList, List.length_replicate]
      decide
  have hsize : Json.size noFloats (packOf sampleTask ⟨"goal", "title", "work"⟩ 1000 {}).dump ≤ 1000 := by decide +kernel
  rw [← length_canonicalJson] at hsize
  rcases build_spec hbounds with ⟨-, hfits⟩ | ⟨hover, -⟩
  · exact hfits
  · omega

end ContextBuilder

end AgentHub
