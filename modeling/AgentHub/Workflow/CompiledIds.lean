import AgentHub.Workflow.Compiler
import Mathlib.Data.List.Nodup
import Std.Data.String.ToNat
/-!
# The ids of a compiled graph

The ids of a chain are digests, and the texts under them name their task, rule and ordinal. So they differ from each other
when the digest keeps those texts apart. Nothing keeps them apart from the ids an author chose.
-/

namespace AgentHub

open Lib Workspace Security

/-! ## The texts that are hashed -/

/-- What comes before the first separator is read off a text. -/
theorem append_cons_cancel {α : Type} {sep : α} {a b x y : List α} (ha : sep ∉ a) (hb : sep ∉ b)
    (h : a ++ sep :: x = b ++ sep :: y) : a = b ∧ x = y := by
  induction a generalizing b with
  | nil =>
    cases b with
    | nil => simpa using h
    | cons c b =>
      simp only [List.nil_append, List.cons_append, List.cons.injEq] at h
      simp [h.1] at hb
  | cons c a ih =>
    cases b with
    | nil =>
      simp only [List.nil_append, List.cons_append, List.cons.injEq] at h
      simp [h.1] at ha
    | cons d b =>
      simp only [List.cons_append, List.cons.injEq] at h
      simp only [List.mem_cons, not_or] at ha hb
      obtain ⟨rfl, rfl⟩ := ih ha.2 hb.2 h.2
      exact ⟨by rw [h.1], rfl⟩

/-- The text can stand between separators. -/
def NulFree (text : String) : Prop := Char.ofNat 0 ∉ text.toList

instance (text : String) : Decidable (NulFree text) := inferInstanceAs (Decidable (_ ∉ _))

theorem nulFree_append {a b : String} : NulFree (a ++ b) ↔ NulFree a ∧ NulFree b := by
  simp [NulFree]

theorem nulFree_repr (n : Nat) : NulFree (toString n) := by
  intro h
  rw [Nat.toString_eq_repr, Nat.toList_repr] at h
  exact absurd (Nat.isDigit_of_mem_toDigits (by omega) (by omega) h) (by decide)

theorem nulFree_of_isEntityId {id : String} (h : isEntityId id = true) : NulFree id := by
  intro hmem
  unfold isEntityId at h
  split at h
  · cases h
  next c cs htext =>
    rw [htext] at hmem
    simp only [Bool.and_eq_true, List.all_eq_true] at h
    rcases List.mem_cons.1 hmem with rfl | hmem
    · exact absurd h.1.1 (by decide)
    · have hall := h.1.2 _ hmem
      rw [String.contains_char_eq] at hall
      exact absurd hall (by decide)

theorem toList_systemIdText (source rule : String) (ordinal : Nat) :
    (systemIdText source rule ordinal).toList =
      source.toList ++ Char.ofNat 0 :: (rule.toList ++ Char.ofNat 0 :: (toString ordinal).toList) := by
  simp [systemIdText, nul]

theorem systemIdText_inj {source source' rule rule' : String} {n n' : Nat} (hs : NulFree source) (hs' : NulFree source')
    (hr : NulFree rule) (hr' : NulFree rule') (h : systemIdText source rule n = systemIdText source' rule' n') :
    source = source' ∧ n = n' := by
  have htext := congrArg String.toList h
  rw [toList_systemIdText, toList_systemIdText] at htext
  obtain ⟨hsource, hrest⟩ := append_cons_cancel hs hs' htext
  obtain ⟨-, hn⟩ := append_cons_cancel hr hr' hrest
  exact ⟨String.toList_injective hsource, Nat.repr_inj.1 (String.toList_injective hn)⟩

theorem toList_systemEdgeText (source : String) (spec : EdgeSpec) :
    (systemEdgeText source spec).toList =
      source.toList ++ Char.ofNat 0 :: (spec.rule.toList ++ Char.ofNat 0 :: ((toString spec.ordinal).toList ++
        Char.ofNat 0 :: (spec.fromNode ++ nul ++ spec.toNode ++ nul ++ spec.condition.value).toList)) := by
  simp [systemEdgeText, nul]

theorem systemEdgeText_inj {source source' : String} {spec spec' : EdgeSpec} (hs : NulFree source)
    (hs' : NulFree source') (hr : NulFree spec.rule) (hr' : NulFree spec'.rule)
    (h : systemEdgeText source spec = systemEdgeText source' spec') :
    source = source' ∧ spec.rule = spec'.rule ∧ spec.ordinal = spec'.ordinal := by
  have htext := congrArg String.toList h
  rw [toList_systemEdgeText, toList_systemEdgeText] at htext
  obtain ⟨hsource, hrest⟩ := append_cons_cancel hs hs' htext
  obtain ⟨hrule, hrest⟩ := append_cons_cancel hr hr' hrest
  obtain ⟨hordinal, -⟩ := append_cons_cancel (nulFree_repr _) (nulFree_repr _) hrest
  exact ⟨String.toList_injective hsource, String.toList_injective hrule,
    Nat.repr_inj.1 (String.toList_injective hordinal)⟩

/-! ## Numbered lists -/

theorem map_mapIdx {α β γ : Type} (f : Nat → α → β) (g : β → γ) (l : List α) :
    (l.mapIdx f).map g = l.mapIdx fun i a => g (f i a) := by
  apply List.ext_getElem <;> simp

theorem nodup_mapIdx {α β : Type} {f : Nat → α → β} {l : List α}
    (h : ∀ a ∈ l, ∀ b ∈ l, ∀ i j, f i a = f j b → i = j) : (l.mapIdx f).Nodup := by
  rw [List.Nodup, List.pairwise_iff_getElem]
  intro i j hi hj hlt heq
  rw [List.getElem_mapIdx, List.getElem_mapIdx] at heq
  have := h _ (List.getElem_mem _) _ (List.getElem_mem _) i j heq
  omega

/-! ## The texts of a chain -/

/-- A system id with what it hashes. -/
def idOfText (H : Host) (text : String) : String := "sys-" ++ digest H text

def edgeIdOfText (H : Host) (text : String) : String := "sys-edge-" ++ digest H text

/-- What the ids of the nodes of a chain hash. -/
def chainIdTexts (sourceId : String) (tests : List ChainStep) : List String :=
  (chainSteps tests).mapIdx fun i step => systemIdText sourceId step.rule (i + 1)

/-- What the ids of the edges of a chain hash. -/
def chainEdgeTexts (H : Host) (sourceId : String) (tests : List ChainStep) (originalSuccess : List WorkflowEdge)
    (outputId : String) : List String :=
  (chainEdgeSpecs H sourceId tests originalSuccess outputId).map (systemEdgeText sourceId)

theorem chainIds_fst (H : Host) (sourceId : String) (tests : List ChainStep) :
    (chainIds H sourceId tests).map Prod.fst = (chainIdTexts sourceId tests).map (idOfText H) := by
  rw [chainIds, chainIdTexts, map_mapIdx, map_mapIdx]
  rfl

theorem chainNodes_ids (H : Host) (source : WorkflowNode) (tests : List ChainStep) :
    nodeIds (chainNodes H source tests) = (chainIdTexts source.id tests).map (idOfText H) := by
  rw [nodeIds, chainNodes, chainIdTexts, map_mapIdx, map_mapIdx]
  rfl

theorem chainEdges_ids (H : Host) (sourceId : String) (specs : List EdgeSpec) :
    (specs.map (systemEdge H sourceId)).map WorkflowEdge.id =
      (specs.map (systemEdgeText sourceId)).map (edgeIdOfText H) := by
  simp [edgeIdOfText, systemEdge, Function.comp_def]

/-- The tests of a chain, whose rules can stand between separators. -/
def RulesPlain (tests : List ChainStep) : Prop := ∀ step ∈ tests, NulFree step.rule

theorem docsSteps_plain : RulesPlain docsSteps := by
  simp only [RulesPlain, docsSteps, List.mem_singleton, forall_eq]
  decide +kernel

theorem missingSteps_plain : RulesPlain missingSteps := by
  simp only [RulesPlain, missingSteps, List.mem_cons, List.not_mem_nil, or_false, forall_eq_or_imp, forall_eq]
  decide +kernel

theorem commandSteps_plain (commands : List (List String)) : RulesPlain (commandSteps commands) := by
  intro step hstep
  simp only [commandSteps, List.mem_flatten, List.mem_mapIdx] at hstep
  obtain ⟨_, ⟨i, hi, rfl⟩, hstep⟩ := hstep
  have hguard : NulFree "write.command_guard." := by decide +kernel
  have htest : NulFree "write.command_test." := by decide +kernel
  have hend : NulFree ".v1" := by decide +kernel
  simp only [List.mem_cons, List.not_mem_nil, or_false] at hstep
  rcases hstep with rfl | rfl
  · exact nulFree_append.2 ⟨nulFree_append.2 ⟨hguard, nulFree_repr _⟩, hend⟩
  · exact nulFree_append.2 ⟨nulFree_append.2 ⟨htest, nulFree_repr _⟩, hend⟩

theorem testSteps_plain (source : WorkflowNode) : RulesPlain (testSteps source) := by
  simp only [testSteps]
  split
  · exact docsSteps_plain
  split
  · exact commandSteps_plain _
  · exact missingSteps_plain

theorem chainSteps_plain {tests : List ChainStep} (h : RulesPlain tests) : RulesPlain (chainSteps tests) := by
  intro step hstep
  simp only [chainSteps, List.cons_append, List.mem_cons, List.mem_append, List.not_mem_nil, or_false] at hstep
  rcases hstep with rfl | hstep | rfl | rfl | rfl
  · decide +kernel
  · exact h step hstep
  all_goals decide +kernel

theorem mem_chainIdTexts {sourceId text : String} {tests : List ChainStep} :
    text ∈ chainIdTexts sourceId tests ↔
      ∃ i, ∃ h : i < (chainSteps tests).length, systemIdText sourceId (chainSteps tests)[i].rule (i + 1) = text := by
  simp only [chainIdTexts, List.mem_mapIdx]

theorem chainIdTexts_nodup {sourceId : String} {tests : List ChainStep} (hs : NulFree sourceId) (h : RulesPlain tests) :
    (chainIdTexts sourceId tests).Nodup := by
  refine nodup_mapIdx fun a ha b hb i j hij => ?_
  have := (systemIdText_inj hs hs (chainSteps_plain h a ha) (chainSteps_plain h b hb) hij).2
  omega

/-- The texts of the chains of two tasks differ. -/
theorem chainIdTexts_source {s s' text : String} {tests tests' : List ChainStep} (hs : NulFree s) (hs' : NulFree s')
    (h : RulesPlain tests) (h' : RulesPlain tests') (hmem : text ∈ chainIdTexts s tests)
    (hmem' : text ∈ chainIdTexts s' tests') : s = s' := by
  obtain ⟨i, hi, rfl⟩ := mem_chainIdTexts.1 hmem
  obtain ⟨j, hj, heq⟩ := mem_chainIdTexts.1 hmem'
  exact (systemIdText_inj hs' hs (chainSteps_plain h' _ (List.getElem_mem _)) (chainSteps_plain h _ (List.getElem_mem _))
    heq).1.symm

/-! ## The edges of a chain -/

theorem chainIds_length (H : Host) (sourceId : String) (tests : List ChainStep) :
    (chainIds H sourceId tests).length = tests.length + 4 := by
  simp [chainIds, chainSteps]

/-- The steps of a chain from which other edges than those along it leave. -/
theorem chainSteps_ends (H : Host) (sourceId : String) (tests : List ChainStep) :
    systemId H sourceId "write.changeset_approval.v1" (tests.length + 3) ∈ (chainIds H sourceId tests).map Prod.fst ∧
      systemId H sourceId "write.merge_patch.v1" (tests.length + 4) ∈ (chainIds H sourceId tests).map Prod.fst := by
  have hat (i : Nat) (step : ChainStep) (h : (chainSteps tests)[i]? = some step) :
      systemId H sourceId step.rule (i + 1) ∈ (chainIds H sourceId tests).map Prod.fst := by
    obtain ⟨hi, rfl⟩ := List.getElem?_eq_some_iff.1 h
    rw [chainIds, map_mapIdx, List.mem_mapIdx]
    exact ⟨i, hi, rfl⟩
  constructor
  · exact hat (tests.length + 2) ⟨.approval, "write.changeset_approval.v1", "Approve final change set", none, none⟩
      (by simp [chainSteps])
  · exact hat (tests.length + 3) ⟨.mergePatch, "write.merge_patch.v1", "Merge approved patch", none, none⟩
      (by simp [chainSteps])

/-- Edges of a chain leave its task or its nodes. -/
theorem chainEdgeSpecs_from {H : Host} {sourceId outputId : String} {tests : List ChainStep}
    {originalSuccess : List WorkflowEdge} {spec : EdgeSpec}
    (h : spec ∈ chainEdgeSpecs H sourceId tests originalSuccess outputId) :
    spec.fromNode = sourceId ∨ spec.fromNode ∈ (chainIds H sourceId tests).map Prod.fst := by
  obtain ⟨happroval, hmerge⟩ := chainSteps_ends H sourceId tests
  simp only [chainEdgeSpecs, List.mem_append, List.mem_singleton, List.mem_mapIdx, List.mem_map, List.mem_filter] at h
  rcases h with (((rfl | ⟨i, hi, rfl⟩) | rfl) | ⟨p, ⟨⟨i, hi, rfl⟩, -⟩, rfl⟩) | h
  · exact .inl rfl
  · refine .inr (List.mem_map_of_mem ?_)
    rw [List.getElem_zip]
    exact List.getElem_mem _
  · exact .inr happroval
  · exact .inr (List.mem_map_of_mem (List.getElem_mem _))
  · -- the edges on to what followed the task leave its merge
    refine .inr ?_
    split at h
    · rw [List.mem_singleton.1 h]
      exact hmerge
    · obtain ⟨i, hi, rfl⟩ := List.mem_mapIdx.1 h
      exact hmerge

def edgeRules : List String := ["enter", "chain", "approval-rejected", "failure-output", "finish", "resume-success"]

theorem edgeRules_plain {rule : String} (h : rule ∈ edgeRules) : NulFree rule := by
  revert rule
  simp only [edgeRules, List.forall_mem_cons]
  decide +kernel

theorem chainEdgeSpecs_rule {H : Host} {sourceId outputId : String} {tests : List ChainStep}
    {originalSuccess : List WorkflowEdge} {spec : EdgeSpec}
    (h : spec ∈ chainEdgeSpecs H sourceId tests originalSuccess outputId) : NulFree spec.rule := by
  apply edgeRules_plain
  simp only [chainEdgeSpecs, List.mem_append, List.mem_singleton, List.mem_mapIdx, List.mem_map, List.mem_filter] at h
  rcases h with (((rfl | ⟨i, hi, rfl⟩) | rfl) | ⟨p, ⟨⟨i, hi, rfl⟩, -⟩, rfl⟩) | h
  iterate 4 simp [edgeRules]
  split at h
  · rw [List.mem_singleton.1 h]
    simp [edgeRules]
  · obtain ⟨i, hi, rfl⟩ := List.mem_mapIdx.1 h
    simp [edgeRules]

/-- Labels with other rules are other labels. -/
theorem nodup_append_labels {l l' : List (String × Nat)} (rules : List String) (hn : l.Nodup) (hn' : l'.Nodup)
    (h : ∀ x ∈ l, x.1 ∈ rules) (h' : ∀ x ∈ l', x.1 ∉ rules) : (l ++ l').Nodup := by
  refine List.nodup_append.2 ⟨hn, hn', ?_⟩
  rintro x hx _ hx' rfl
  exact h' x hx' (h x hx)

/-- No two edges of a chain share a rule and an ordinal. -/
theorem chainEdgeSpecs_nodup (H : Host) (sourceId outputId : String) (tests : List ChainStep)
    (originalSuccess : List WorkflowEdge) :
    ((chainEdgeSpecs H sourceId tests originalSuccess outputId).map fun spec => (spec.rule, spec.ordinal)).Nodup := by
  have hfailures : (((chainIds H sourceId tests).mapIdx fun i p => (i + 1, p)).map
      fun p => (("failure-output", p.1) : String × Nat)).Nodup := by
    rw [map_mapIdx]
    exact nodup_mapIdx fun _ _ _ _ i j hij => by simpa using hij
  simp only [chainEdgeSpecs, List.map_append, map_mapIdx, List.map_map, List.map_cons, List.map_nil,
    Function.comp_def, apply_ite (List.map _)]
  refine nodup_append_labels ["enter", "chain", "approval-rejected", "failure-output"] ?_ ?_ ?_ ?_
  · refine nodup_append_labels ["enter", "chain", "approval-rejected"] ?_ ?_ ?_ ?_
    · refine nodup_append_labels ["enter", "chain"] ?_ (List.nodup_singleton _) ?_ ?_
      · refine nodup_append_labels ["enter"] (List.nodup_singleton _) ?_ ?_ ?_
        · exact nodup_mapIdx fun _ _ _ _ i j hij => by simpa using hij
        · simp
        · simp only [List.mem_mapIdx]
          rintro _ ⟨i, hi, rfl⟩
          simp
      · simp only [List.mem_append, List.mem_singleton, List.mem_mapIdx]
        rintro _ (rfl | ⟨i, hi, rfl⟩) <;> simp
      · simp
    · exact hfailures.sublist (List.filter_sublist.map _)
    · simp only [List.mem_append, List.mem_singleton, List.mem_mapIdx]
      rintro _ ((rfl | ⟨i, hi, rfl⟩) | rfl) <;> simp
    · simp only [List.mem_map]
      rintro _ ⟨p, -, rfl⟩
      simp
  · split
    · exact List.nodup_singleton _
    · exact nodup_mapIdx fun _ _ _ _ i j hij => by simpa using hij
  · simp only [List.mem_append, List.mem_singleton, List.mem_mapIdx, List.mem_map]
    rintro _ (((rfl | ⟨i, hi, rfl⟩) | rfl) | ⟨p, -, rfl⟩) <;> simp
  · split
    · simp
    · simp only [List.mem_mapIdx]
      rintro _ ⟨i, hi, rfl⟩
      simp

/-- The texts of the edges of a chain differ. -/
theorem chainEdgeTexts_nodup {H : Host} {sourceId outputId : String} {tests : List ChainStep}
    {originalSuccess : List WorkflowEdge} (hs : NulFree sourceId) :
    (chainEdgeTexts H sourceId tests originalSuccess outputId).Nodup := by
  have hlabels := chainEdgeSpecs_nodup H sourceId outputId tests originalSuccess
  refine List.Nodup.map_on (fun a ha b hb hab => ?_) (List.Nodup.of_map _ hlabels)
  have h := systemEdgeText_inj hs hs (chainEdgeSpecs_rule ha) (chainEdgeSpecs_rule hb) hab
  exact List.inj_on_of_nodup_map hlabels ha hb (by rw [h.2.1, h.2.2])

theorem chainEdgeTexts_source {H : Host} {s s' outputId outputId' text : String} {tests tests' : List ChainStep}
    {originalSuccess originalSuccess' : List WorkflowEdge} (hs : NulFree s) (hs' : NulFree s')
    (hmem : text ∈ chainEdgeTexts H s tests originalSuccess outputId)
    (hmem' : text ∈ chainEdgeTexts H s' tests' originalSuccess' outputId') : s = s' := by
  obtain ⟨a, ha, rfl⟩ := List.mem_map.1 hmem
  obtain ⟨b, hb, heq⟩ := List.mem_map.1 hmem'
  exact (systemEdgeText_inj hs' hs (chainEdgeSpecs_rule hb) (chainEdgeSpecs_rule ha) heq).1.symm

/-! ## The edges after an injection -/

theorem mem_successEdges {edges : List WorkflowEdge} {id : String} {e : WorkflowEdge} :
    e ∈ successEdges edges id ↔ e ∈ edges ∧ e.fromNode = id ∧ e.condition = .success := by
  rw [successEdges, byEdgeId, (List.perm_insertionSort _ _).mem_iff, mem_outgoingOn]

theorem successEdges_append {edges others : List WorkflowEdge} {id : String} (h : ∀ e ∈ others, e.fromNode ≠ id) :
    successEdges (edges ++ others) id = successEdges edges id := by
  have hothers : outgoing others id = [] := List.filter_eq_nil_iff.2 fun e he => by simpa using h e he
  simp only [successEdges, outgoingOn, outgoing, List.filter_append] at hothers ⊢
  rw [hothers, List.filter_nil, List.append_nil]

theorem successEdges_filter {edges : List WorkflowEdge} {id : String} {p : WorkflowEdge → Bool}
    (h : ∀ e ∈ edges, e.fromNode = id → p e = true) : successEdges (edges.filter p) id = successEdges edges id := by
  have houtgoing : outgoing (edges.filter p) id = outgoing edges id := by
    rw [outgoing, outgoing, List.filter_filter]
    refine List.filter_congr fun e he => ?_
    by_cases hid : e.fromNode = id
    · simp [hid, h e he hid]
    · simp [hid]
  rw [successEdges, outgoingOn, houtgoing]
  rfl

/-- The author edges an injection keeps: all but the success edges of the tasks. -/
def keptEdges (tasks : List String) (edges : List WorkflowEdge) : List WorkflowEdge :=
  edges.filter fun e => ¬ (e.fromNode ∈ tasks ∧ e.condition = .success)

/-- Chains are injected independently of each other, as no edge of one leaves the task of another. -/
theorem foldl_injectChain {H : Host} {outputId : String} {tasks : List WorkflowNode} {edges system : List WorkflowEdge}
    (hnd : (nodeIds tasks).Nodup)
    (hchains : ∀ task ∈ tasks, ∀ e ∈ chainEdges H edges outputId task, e.fromNode ≠ task.id → e.fromNode ∉ nodeIds tasks)
    (hsystem : ∀ e ∈ system, e.fromNode ∉ nodeIds tasks) :
    tasks.foldl (injectChain H outputId) (edges ++ system) =
      keptEdges (nodeIds tasks) edges ++ (system ++ tasks.flatMap (chainEdges H edges outputId)) := by
  induction tasks generalizing edges system with
  | nil => simp [keptEdges, nodeIds]
  | cons task tasks ih =>
    simp only [nodeIds, List.map_cons, List.nodup_cons] at hnd
    have hown : successEdges (edges ++ system) task.id = successEdges edges task.id :=
      successEdges_append fun e he heq => hsystem e he (by simp [nodeIds, heq])
    -- the body of the loop on the task, whose chain goes to the system edges
    have hbody : injectChain H outputId (edges ++ system) task =
        keptEdges [task.id] edges ++ (system ++ chainEdges H edges outputId task) := by
      have hkept : edges.filter (fun e => e ∉ successEdges edges task.id) = keptEdges [task.id] edges :=
        List.filter_congr fun e he => by simp [mem_successEdges, he]
      have hkeep : system.filter (fun e => e ∉ successEdges edges task.id) = system :=
        List.filter_eq_self.2 fun e he => by
          have : e.fromNode ≠ task.id := fun heq => hsystem e he (by simp [nodeIds, heq])
          simp [mem_successEdges, this]
      rw [injectChain, chainEdges, hown, List.filter_append, hkept, hkeep, List.append_assoc]
      rfl
    have hothers : ∀ other ∈ tasks, chainEdges H (keptEdges [task.id] edges) outputId other =
        chainEdges H edges outputId other := by
      intro other hother
      have hne : other.id ≠ task.id := fun heq => hnd.1 (heq ▸ List.mem_map_of_mem hother)
      rw [chainEdges, keptEdges, successEdges_filter fun e _ heq => by simp [heq, hne]]
      rfl
    have hkept : keptEdges (nodeIds tasks) (keptEdges [task.id] edges) = keptEdges (nodeIds (task :: tasks)) edges := by
      rw [keptEdges, keptEdges, List.filter_filter]
      refine List.filter_congr fun e _ => ?_
      simp only [nodeIds, List.map_cons, List.mem_cons, List.not_mem_nil, or_false]
      grind
    rw [List.foldl_cons, hbody, ih hnd.2, hkept, List.flatMap_cons, List.append_assoc]
    · congr 3
      exact List.flatMap_congr fun other hother => hothers other hother
    · intro other hother e he hne
      rw [hothers other hother] at he
      have := hchains other (List.mem_cons_of_mem _ hother) e he hne
      simp only [nodeIds, List.map_cons, List.mem_cons, not_or] at this
      exact this.2
    · intro e he
      rcases List.mem_append.1 he with he | he
      · have := hsystem e he
        simp only [nodeIds, List.map_cons, List.mem_cons, not_or] at this
        exact this.2
      · by_cases heq : e.fromNode = task.id
        · rw [heq]
          exact hnd.1
        · have := hchains task List.mem_cons_self e he heq
          simp only [nodeIds, List.map_cons, List.mem_cons, not_or] at this
          exact this.2

/-! ## When the ids differ -/

/-- A write task with the tests of its chain. -/
structure TaskChain where
  sourceId : String
  tests : List ChainStep
  deriving DecidableEq

namespace TaskChain

/-- What the ids of its nodes hash. -/
def idTexts (c : TaskChain) : List String := chainIdTexts c.sourceId c.tests

/-- What the ids of its edges hash. -/
def edgeTexts (H : Host) (edges : List WorkflowEdge) (outputId : String) (c : TaskChain) : List String :=
  chainEdgeTexts H c.sourceId c.tests (successEdges edges c.sourceId) outputId

/-- Its texts are read back. -/
structure Readable (c : TaskChain) : Prop where
  source : NulFree c.sourceId
  rules : RulesPlain c.tests

end TaskChain

/-- Texts of different chains differ. -/
theorem flatMap_texts_nodup {chains : List TaskChain} {texts : TaskChain → List String}
    (hnd : (chains.map TaskChain.sourceId).Nodup) (hown : ∀ c ∈ chains, (texts c).Nodup)
    (hsource : ∀ c ∈ chains, ∀ c' ∈ chains, ∀ text ∈ texts c, text ∈ texts c' → c.sourceId = c'.sourceId) :
    (chains.flatMap texts).Nodup := by
  refine List.nodup_flatMap.2 ⟨hown, ?_⟩
  refine (List.pairwise_map.1 hnd).imp_of_mem fun {c c'} hc hc' hne => ?_
  intro text htext htext'
  exact hne (hsource c hc c' hc' text htext htext')

/-- Ids made of different texts differ from the others when they are none of them. -/
theorem nodup_append_map_iff {ids texts : List String} {idOf : String → String} (hids : ids.Nodup) (htexts : texts.Nodup)
    (hinj : ∀ a ∈ texts, ∀ b ∈ texts, idOf a = idOf b → a = b) :
    (ids ++ texts.map idOf).Nodup ↔ ∀ text ∈ texts, idOf text ∉ ids := by
  rw [List.nodup_append]
  constructor
  · rintro ⟨-, -, h⟩ text htext hmem
    exact h _ hmem _ (List.mem_map_of_mem htext) rfl
  · intro h
    refine ⟨hids, htexts.map_on hinj, ?_⟩
    rintro id hid _ hmem rfl
    obtain ⟨text, htext, rfl⟩ := List.mem_map.1 hmem
    exact h text htext hid

section Apart

variable (H : Host) (ids : List String) (edges : List WorkflowEdge) (chains : List TaskChain) (outputs : List String)

/-- What the ids of the chains hash. -/
def hashedTexts : List String :=
  chains.flatMap fun c => c.idTexts ++ outputs.flatMap fun outputId => c.edgeTexts H edges outputId

/-- The author chose no id of a node of a chain, and no id of an edge of a chain for an edge that stays. -/
structure IdsApart : Prop where
  nodes : ∀ c ∈ chains, ∀ text ∈ c.idTexts, idOfText H text ∉ ids
  edges : ∀ c ∈ chains, ∀ outputId ∈ outputs, ∀ text ∈ c.edgeTexts H edges outputId,
    edgeIdOfText H text ∉ (keptEdges (chains.map TaskChain.sourceId) edges).map WorkflowEdge.id

variable {chains} {chains' : List TaskChain}

theorem keptEdges_congr {tasks tasks' : List String} (h : ∀ id, id ∈ tasks ↔ id ∈ tasks') :
    keptEdges tasks edges = keptEdges tasks' edges := by
  simp only [keptEdges, h]

theorem mem_hashedTexts_congr (h : ∀ c, c ∈ chains ↔ c ∈ chains') {text : String} :
    text ∈ hashedTexts H edges chains outputs ↔ text ∈ hashedTexts H edges chains' outputs := by
  simp only [hashedTexts, List.mem_flatMap, h]

/-- Only the set of the chains matters. -/
theorem idsApart_congr (h : ∀ c, c ∈ chains ↔ c ∈ chains') :
    IdsApart H ids edges chains outputs ↔ IdsApart H ids edges chains' outputs := by
  have hkept : keptEdges (chains.map TaskChain.sourceId) edges = keptEdges (chains'.map TaskChain.sourceId) edges :=
    keptEdges_congr edges fun id => by simp only [List.mem_map, h]
  constructor
  · rintro ⟨hnodes, hedges⟩
    exact ⟨fun c hc => hnodes c ((h c).2 hc), fun c hc => hkept ▸ hedges c ((h c).2 hc)⟩
  · rintro ⟨hnodes, hedges⟩
    exact ⟨fun c hc => hnodes c ((h c).1 hc), fun c hc => hkept ▸ hedges c ((h c).1 hc)⟩

end Apart

/-! ## What an injection gives -/

section Inject

variable {H : Host} {nodes : List WorkflowNode} {edges : List WorkflowEdge}

/-- The chains of compiled write tasks. -/
def compiledChains (nodes : List WorkflowNode) : List TaskChain := (writeTasks nodes).map fun n => ⟨n.id, testSteps n⟩

def outputIds (nodes : List WorkflowNode) : List String := nodeIds (nodes.filter (·.nodeType = .output))

theorem mem_writeTasks {n : WorkflowNode} :
    n ∈ writeTasks nodes ↔ n ∈ nodes ∧ n.nodeType = .agentTask ∧ n.requiresWrite = true := by
  rw [writeTasks, byNodeId, (List.perm_insertionSort _ _).mem_iff, List.mem_filter]
  simp

theorem compiledChains_sources (nodes : List WorkflowNode) :
    (compiledChains nodes).map TaskChain.sourceId = nodeIds (writeTasks nodes) := by
  simp [compiledChains, nodeIds]

theorem writeTasks_nodup (hnd : (nodeIds nodes).Nodup) : (nodeIds (writeTasks nodes)).Nodup := by
  have hperm := ((List.perm_insertionSort (fun a b : WorkflowNode => a.id ≤ b.id)
    (nodes.filter fun n => n.nodeType = .agentTask && n.requiresWrite)).map WorkflowNode.id)
  exact hperm.nodup_iff.2 (hnd.sublist (List.filter_sublist.map _))

theorem compiledChains_readable (hplain : ∀ n ∈ nodes, NulFree n.id) {c : TaskChain} (h : c ∈ compiledChains nodes) :
    c.Readable := by
  obtain ⟨n, hn, rfl⟩ := List.mem_map.1 h
  exact ⟨hplain n (mem_writeTasks.1 hn).1, testSteps_plain n⟩

theorem inject_nodes {output : WorkflowNode} (hout : nodes.filter (·.nodeType = .output) = [output]) :
    nodeIds (inject H nodes edges).1 =
      nodeIds nodes ++ ((compiledChains nodes).flatMap TaskChain.idTexts).map (idOfText H) := by
  simp only [inject, hout, nodeIds, List.map_append, compiledChains, List.flatMap_map, List.map_flatMap]
  congr 1
  exact List.flatMap_congr fun n _ => chainNodes_ids H n (testSteps n)

/-- The edges of an injection: what is kept of the author's, and the edges of the chains. -/
theorem inject_edges_eq {output : WorkflowNode} (hout : nodes.filter (·.nodeType = .output) = [output])
    (hnd : (nodeIds nodes).Nodup)
    (hapart : ∀ c ∈ compiledChains nodes, ∀ text ∈ c.idTexts, idOfText H text ∉ nodeIds nodes) :
    (inject H nodes edges).2.1 = keptEdges (nodeIds (writeTasks nodes)) edges ++
      (writeTasks nodes).flatMap (chainEdges H edges output.id) := by
  have hchains : ∀ task ∈ writeTasks nodes, ∀ e ∈ chainEdges H edges output.id task, e.fromNode ≠ task.id →
      e.fromNode ∉ nodeIds (writeTasks nodes) := by
    intro task htask e he hne hmem
    obtain ⟨spec, hspec, rfl⟩ := List.mem_map.1 he
    rcases chainEdgeSpecs_from hspec with h | h
    · exact hne h
    · rw [chainIds_fst] at h
      obtain ⟨text, htext, hid⟩ := List.mem_map.1 h
      obtain ⟨w, hw, hwid⟩ := List.mem_map.1 hmem
      refine hapart _ (List.mem_map_of_mem htask) text htext ?_
      have hin : w.id ∈ nodeIds nodes := List.mem_map_of_mem (mem_writeTasks.1 hw).1
      rw [hid]
      rwa [hwid] at hin
  have hfold := @foldl_injectChain H output.id (writeTasks nodes) edges [] (writeTasks_nodup hnd) hchains (by simp)
  simp only [List.append_nil, List.nil_append] at hfold
  simp only [inject, hout, hfold]

theorem inject_edges {output : WorkflowNode} (hout : nodes.filter (·.nodeType = .output) = [output])
    (hnd : (nodeIds nodes).Nodup)
    (hapart : ∀ c ∈ compiledChains nodes, ∀ text ∈ c.idTexts, idOfText H text ∉ nodeIds nodes) :
    (inject H nodes edges).2.1.map WorkflowEdge.id =
      (keptEdges ((compiledChains nodes).map TaskChain.sourceId) edges).map WorkflowEdge.id ++
        ((compiledChains nodes).flatMap fun c => c.edgeTexts H edges output.id).map (edgeIdOfText H) := by
  rw [inject_edges_eq hout hnd hapart, List.map_append, compiledChains_sources]
  congr 1
  simp only [compiledChains, List.flatMap_map, List.map_flatMap]
  exact List.flatMap_congr fun n _ => chainEdges_ids H n.id _

theorem compiledChains_nodup (hnd : (nodeIds nodes).Nodup) :
    ((compiledChains nodes).map TaskChain.sourceId).Nodup := by
  rw [compiledChains_sources]
  exact writeTasks_nodup hnd

variable {output : WorkflowNode} (hout : nodes.filter (·.nodeType = .output) = [output]) (hnd : (nodeIds nodes).Nodup)
  (hplain : ∀ n ∈ nodes, NulFree n.id)
  (hinj : ∀ a ∈ hashedTexts H edges (compiledChains nodes) [output.id],
    ∀ b ∈ hashedTexts H edges (compiledChains nodes) [output.id], digest H a = digest H b → a = b)

include hout hnd hplain hinj

theorem inject_nodes_nodup_iff :
    (nodeIds (inject H nodes edges).1).Nodup ↔
      ∀ c ∈ compiledChains nodes, ∀ text ∈ c.idTexts, idOfText H text ∉ nodeIds nodes := by
  have hreadable (c : TaskChain) (hc : c ∈ compiledChains nodes) : c.Readable := compiledChains_readable hplain hc
  rw [inject_nodes hout, nodup_append_map_iff hnd]
  · simp only [List.mem_flatMap, forall_exists_index, and_imp]
    exact ⟨fun h c hc text ht => h text c hc ht, fun h text c hc ht => h c hc text ht⟩
  · exact flatMap_texts_nodup (compiledChains_nodup hnd)
      (fun c hc => chainIdTexts_nodup (hreadable c hc).source (hreadable c hc).rules)
      fun c hc c' hc' text ht ht' => chainIdTexts_source (hreadable c hc).source (hreadable c' hc').source
        (hreadable c hc).rules (hreadable c' hc').rules ht ht'
  · intro a ha b hb hab
    have hmem {text : String} (h : text ∈ (compiledChains nodes).flatMap TaskChain.idTexts) :
        text ∈ hashedTexts H edges (compiledChains nodes) [output.id] := by
      obtain ⟨c, hc, htext⟩ := List.mem_flatMap.1 h
      exact List.mem_flatMap.2 ⟨c, hc, List.mem_append_left _ htext⟩
    exact hinj a (hmem ha) b (hmem hb) (by simpa [idOfText] using hab)

theorem inject_edges_nodup_iff (hedges : (edges.map WorkflowEdge.id).Nodup)
    (hapart : ∀ c ∈ compiledChains nodes, ∀ text ∈ c.idTexts, idOfText H text ∉ nodeIds nodes) :
    ((inject H nodes edges).2.1.map WorkflowEdge.id).Nodup ↔
      ∀ c ∈ compiledChains nodes, ∀ text ∈ c.edgeTexts H edges output.id,
        edgeIdOfText H text ∉ (keptEdges ((compiledChains nodes).map TaskChain.sourceId) edges).map WorkflowEdge.id := by
  have hreadable (c : TaskChain) (hc : c ∈ compiledChains nodes) : c.Readable := compiledChains_readable hplain hc
  have hkept : ((keptEdges ((compiledChains nodes).map TaskChain.sourceId) edges).map WorkflowEdge.id).Nodup :=
    hedges.sublist (List.filter_sublist.map _)
  rw [inject_edges hout hnd hapart, nodup_append_map_iff hkept]
  · simp only [List.mem_flatMap, forall_exists_index, and_imp]
    exact ⟨fun h c hc text ht => h text c hc ht, fun h text c hc ht => h c hc text ht⟩
  · exact flatMap_texts_nodup (compiledChains_nodup hnd) (fun c hc => chainEdgeTexts_nodup (hreadable c hc).source)
      fun c hc c' hc' text ht ht' => chainEdgeTexts_source (hreadable c hc).source (hreadable c' hc').source ht ht'
  · intro a ha b hb hab
    have hmem {text : String} (h : text ∈ (compiledChains nodes).flatMap fun c => c.edgeTexts H edges output.id) :
        text ∈ hashedTexts H edges (compiledChains nodes) [output.id] := by
      obtain ⟨c, hc, htext⟩ := List.mem_flatMap.1 h
      exact List.mem_flatMap.2 ⟨c, hc, List.mem_append_right _ (by simpa using htext)⟩
    exact hinj a (hmem ha) b (hmem hb) (by simpa [edgeIdOfText] using hab)

/-- The ids after an injection differ exactly when the author's are apart from those of the chains. -/
theorem inject_nodup_iff (hedges : (edges.map WorkflowEdge.id).Nodup) :
    (nodeIds (inject H nodes edges).1).Nodup ∧ ((inject H nodes edges).2.1.map WorkflowEdge.id).Nodup ↔
      IdsApart H (nodeIds nodes) edges (compiledChains nodes) [output.id] := by
  rw [inject_nodes_nodup_iff hout hnd hplain hinj]
  constructor
  · rintro ⟨hapart, hnodup⟩
    refine ⟨hapart, fun c hc outputId ho => ?_⟩
    rw [List.mem_singleton.1 ho]
    exact (inject_edges_nodup_iff hout hnd hplain hinj hedges hapart).1 hnodup c hc
  · rintro ⟨hapart, hkept⟩
    exact ⟨hapart, (inject_edges_nodup_iff hout hnd hplain hinj hedges hapart).2 fun c hc =>
      hkept c hc _ (List.mem_singleton_self _)⟩

end Inject

/-! ## The chains of an author graph -/

/-- The tests of the chain of a write task, when it is compiled. -/
def taskTests (task : WorkflowNode) : List ChainStep :=
  let commands := normalizeCommandTemplates task.allowedCommandsCandidate
  if commands = [] then docsSteps else commandSteps commands

def authorChains (graph : AuthorGraph) : List TaskChain := (writeTasks graph.nodes).map fun task => ⟨task.id, taskTests task⟩

theorem validateEach_argv {D : Digits} {commands seen : List (List String)} {approved : List ApprovedCommand}
    (h : CommandGuard.validateEach D commands seen = .ok approved) : approved.map (·.argv) = commands := by
  induction commands generalizing seen approved with
  | nil =>
    obtain rfl : approved = [] := by simpa [CommandGuard.validateEach, pure, Except.pure] using h.symm
    rfl
  | cons candidate rest ih =>
    rw [CommandGuard.validateEach] at h
    obtain ⟨command, hcommand, h⟩ := Tx.bind_ok.1 h
    simp only [CommandGuard.validate, Tx.bind_ok, Tx.pure_ok] at hcommand
    obtain ⟨_, -, _, -, rfl⟩ := hcommand
    dsimp only at h
    split at h
    · cases h
    obtain ⟨others, hothers, h⟩ := Tx.bind_ok.1 h
    obtain rfl := Tx.pure_ok.1 h
    rw [List.map_cons, ih hothers]

theorem effectiveCommands_eq {C : WorkflowCompiler} {node : WorkflowNode} {commands : List (List String)}
    (h : C.effectiveCommands node = .ok (.ok commands)) :
    commands = normalizeCommandTemplates node.allowedCommandsCandidate := by
  unfold WorkflowCompiler.effectiveCommands at h
  dsimp only at h
  split at h
  · split at h
    next approved happroved =>
      simp only [Except.ok.injEq] at h
      rw [CommandGuard.validateMany] at happroved
      split at happroved
      · cases happroved
      rw [← h, validateEach_argv happroved]
    all_goals simp at h
  · split at h
    · simp at h
    · simpa using h.symm

/-- A node that `compile` goes on with is the node itself or a task with its agent, scope and floor. -/
theorem compileNode_ok {C : WorkflowCompiler} {node : WorkflowNode} {compiled : Option WorkflowNode}
    (h : C.compileNode node = .ok (compiled, [])) :
    (node.nodeType ≠ .agentTask ∧ compiled = some node) ∨
    (node.nodeType = .agentTask ∧ ∃ routed existing new, compiled = some (WorkflowCompiler.resolved node routed existing new
      (normalizeCommandTemplates node.allowedCommandsCandidate))) := by
  unfold WorkflowCompiler.compileNode at h
  split at h
  next htype =>
    simp only [Tx.pure_ok, Prod.mk.injEq] at h
    exact .inl ⟨htype, h.1⟩
  next htype =>
    refine .inr ⟨not_not.1 htype, ?_⟩
    obtain ⟨result, hresult, h⟩ := Tx.bind_ok.1 h
    obtain ⟨_, -, h⟩ := Tx.bind_ok.1 h
    obtain rfl := Tx.pure_ok.1 h
    -- every branch without a node has an issue
    unfold WorkflowCompiler.compileTask at hresult
    dsimp only at hresult
    split at hresult
    · simp [Tx.pure_ok] at hresult
    obtain ⟨scope, -, hresult⟩ := Tx.bind_ok.1 hresult
    split at hresult
    · simp [Tx.pure_ok] at hresult
    split at hresult
    · simp [Tx.pure_ok] at hresult
    obtain ⟨commands, hcommands, hresult⟩ := Tx.bind_ok.1 hresult
    split at hresult
    · simp [Tx.pure_ok] at hresult
    simp only [Tx.pure_ok, Prod.mk.injEq] at hresult
    rw [effectiveCommands_eq hcommands] at hresult
    exact ⟨_, _, _, hresult.1⟩

/-- What the ids of a compiled graph see of a node. -/
structure Compiles (node compiled : WorkflowNode) : Prop where
  id : compiled.id = node.id
  nodeType : compiled.nodeType = node.nodeType
  requiresWrite : compiled.requiresWrite = node.requiresWrite
  tests : node.nodeType = .agentTask → chainIssues compiled = [] → testSteps compiled = taskTests node

/-- Without an issue, a task without commands is documentation. -/
theorem testSteps_of_chainIssues {n : WorkflowNode} (h : chainIssues n = []) :
    testSteps n = if n.effectiveAllowedCommands.getD [] = [] then docsSteps
      else commandSteps (n.effectiveAllowedCommands.getD []) := by
  simp only [chainIssues, issueIf_nil, Bool.and_eq_false_iff, Bool.not_eq_false'] at h
  by_cases hnone : n.effectiveAllowedCommands.getD [] = []
  · have hdocs : isDocsStatic n = true := by simpa [hnone] using h
    simp [testSteps, hdocs, hnone]
  · have hdocs : isDocsStatic n = false := by simp [isDocsStatic, hnone]
    simp [testSteps, hdocs, hnone]

theorem compileNode_compiles {C : WorkflowCompiler} {node : WorkflowNode} {compiled : Option WorkflowNode}
    (h : C.compileNode node = .ok (compiled, [])) : ∃ n, compiled = some n ∧ Compiles node n := by
  rcases compileNode_ok h with ⟨htype, rfl⟩ | ⟨htype, routed, existing, new, rfl⟩
  · exact ⟨node, rfl, rfl, rfl, rfl, fun h => absurd h htype⟩
  · exact ⟨_, rfl, rfl, rfl, rfl, fun _ hissues => testSteps_of_chainIssues hissues⟩

/-- What holds of every node that is compiled holds along the loop. -/
theorem compileNodes_forall₂ {C : WorkflowCompiler} {R : WorkflowNode → WorkflowNode → Prop}
    (hR : ∀ {node : WorkflowNode} {compiled : Option WorkflowNode}, C.compileNode node = .ok (compiled, []) →
      ∃ n, compiled = some n ∧ R node n)
    {nodes compiled : List WorkflowNode} (h : C.compileNodes nodes = .ok (compiled, [])) :
    List.Forall₂ R nodes compiled := by
  induction nodes generalizing compiled with
  | nil =>
    simp only [WorkflowCompiler.compileNodes, Tx.pure_ok, Prod.mk.injEq] at h
    rw [h.1]
    exact .nil
  | cons node rest ih =>
    rw [WorkflowCompiler.compileNodes] at h
    obtain ⟨⟨first, issues⟩, hfirst, h⟩ := Tx.bind_ok.1 h
    obtain ⟨⟨others, moreIssues⟩, hothers, h⟩ := Tx.bind_ok.1 h
    simp only [Tx.pure_ok, Prod.mk.injEq, List.nil_eq, List.append_eq_nil_iff] at h
    obtain ⟨rfl, rfl, rfl⟩ := h
    obtain ⟨n, rfl, hn⟩ := hR hfirst
    exact .cons hn (ih hothers)

theorem compileNodes_compiles {C : WorkflowCompiler} {nodes compiled : List WorkflowNode}
    (h : C.compileNodes nodes = .ok (compiled, [])) : List.Forall₂ Compiles nodes compiled :=
  compileNodes_forall₂ compileNode_compiles h

theorem forall₂_exists {α β : Type} {R : α → β → Prop} {l : List α} {l' : List β} (h : List.Forall₂ R l l') :
    ∀ a ∈ l, ∃ b ∈ l', R a b := by
  induction h with
  | nil => simp
  | cons hab _ ih =>
    rintro a (_ | ⟨_, ha⟩)
    · exact ⟨_, List.mem_cons_self, hab⟩
    · obtain ⟨b, hb, hR⟩ := ih a ha
      exact ⟨b, List.mem_cons_of_mem _ hb, hR⟩

section Compiled

variable {nodes compiled : List WorkflowNode} (h : List.Forall₂ Compiles nodes compiled)

include h

theorem compiled_ids : nodeIds compiled = nodeIds nodes := by
  induction h with
  | nil => rfl
  | cons hn _ ih => rw [nodeIds, List.map_cons, hn.id]; exact congrArg _ ih

theorem compiled_outputs : outputIds compiled = outputIds nodes := by
  induction h with
  | nil => rfl
  | @cons node n _ _ hn _ ih =>
    simp only [outputIds, nodeIds, List.filter_cons, hn.nodeType] at ih ⊢
    split
    · rw [List.map_cons, List.map_cons, hn.id, ih]
    · exact ih

theorem mem_compiledChains (hissues : ∀ n ∈ writeTasks compiled, chainIssues n = []) {c : TaskChain} :
    c ∈ compiledChains compiled ↔ ∃ task ∈ writeTasks nodes, c = ⟨task.id, taskTests task⟩ := by
  have hchain {task n : WorkflowNode} (hn : Compiles task n) (hmem : n ∈ writeTasks compiled) :
      (⟨n.id, testSteps n⟩ : TaskChain) = ⟨task.id, taskTests task⟩ := by
    rw [hn.id, hn.tests (hn.nodeType ▸ (mem_writeTasks.1 hmem).2.1) (hissues n hmem)]
  constructor
  · intro hc
    obtain ⟨n, hn, rfl⟩ := List.mem_map.1 hc
    obtain ⟨hmem, htype, hwrite⟩ := mem_writeTasks.1 hn
    obtain ⟨task, htask, hcompiles⟩ := forall₂_exists h.flip n hmem
    exact ⟨task, mem_writeTasks.2 ⟨htask, hcompiles.nodeType ▸ htype, hcompiles.requiresWrite ▸ hwrite⟩,
      hchain hcompiles hn⟩
  · rintro ⟨task, htask, rfl⟩
    obtain ⟨hmem, htype, hwrite⟩ := mem_writeTasks.1 htask
    obtain ⟨n, hn, hcompiles⟩ := forall₂_exists h task hmem
    have hn' : n ∈ writeTasks compiled :=
      mem_writeTasks.2 ⟨hn, hcompiles.nodeType.trans htype, hcompiles.requiresWrite.trans hwrite⟩
    exact List.mem_map.2 ⟨n, hn', hchain hcompiles hn'⟩

end Compiled

/-! ## Compiled graphs -/

theorem build_eq {g built : CompiledGraph} (h : g.build = .ok built) : built = g := by
  unfold CompiledGraph.build at h
  dsimp only at h
  iterate 6
    split at h
    · cases h
  exact Tx.pure_ok.1 h

theorem build_of_valid {g : CompiledGraph} (hsource : Workspace.isSha256Hex g.sourceAuthorHash = true)
    (hcommit : isObjectId g.integrationBaseCommit = true) (hpolicy : 1 ≤ g.policyVersion.length)
    (hpolicy' : g.policyVersion.length ≤ 64) (hcatalog : Workspace.isSha256Hex g.agentCatalogSnapshotHash = true)
    (hnodes : g.nodes.length ≤ 300) (hedges : g.edges.length ≤ 600) : g.build = .ok g := by
  simp only [CompiledGraph.build, hsource, hcommit, hcatalog]
  rw [if_neg (by simp), if_neg (by simp), if_neg (by omega), if_neg (by simp), if_neg (by omega), if_neg (by omega)]
  rfl

theorem validate_errors {V : DraftValidator} {graph : AuthorGraph} {requireComplete : Bool} {report : ValidationReport}
    (h : V.validate graph requireComplete = .ok report) : report.errors = V.errors graph requireComplete := by
  rw [DraftValidator.validate] at h
  obtain ⟨_, -, h⟩ := Tx.bind_ok.1 h
  rw [Tx.pure_ok.1 h]

/-- A graph compiled without errors is what `inject` gives on valid nodes. -/
theorem compile_graph {C : WorkflowCompiler} {graph : AuthorGraph} {commit : String} {result : CompilationResult}
    {g : CompiledGraph} (h : C.compile graph commit = .ok result) (hok : result.ok = true) (hg : result.graph = some g) :
    C.validator.errors graph true = [] ∧ ∃ compiled,
      C.compileNodes (normalizeAuthorGraph graph).nodes = .ok (compiled, []) ∧
      (inject C.host compiled (normalizeAuthorGraph graph).edges).2.2 = [] ∧
      g.nodes = byNodeId (inject C.host compiled (normalizeAuthorGraph graph).edges).1 ∧
      g.edges = byEdgeId (inject C.host compiled (normalizeAuthorGraph graph).edges).2.1 := by
  unfold WorkflowCompiler.compile at h
  obtain ⟨report, hreport, h⟩ := Tx.bind_ok.1 h
  rw [← validate_errors hreport]
  dsimp only at h
  split at h
  · obtain rfl := Tx.pure_ok.1 h
    cases hg
  next hvalid =>
    refine ⟨by simpa [ValidationReport.ok] using hvalid, ?_⟩
    obtain ⟨⟨compiled, errors⟩, hcompiled, h⟩ := Tx.bind_ok.1 h
    dsimp only at h
    split at h
    · obtain rfl := Tx.pure_ok.1 h
      cases hg
    next herrors =>
      obtain rfl := not_not.1 herrors
      obtain ⟨built, hbuilt, h⟩ := Tx.bind_ok.1 h
      obtain rfl := Tx.pure_ok.1 h
      obtain rfl : built = g := by simpa using hg
      rw [build_eq hbuilt]
      simp only [CompilationResult.ok, Bool.and_eq_true, List.isEmpty_iff] at hok
      exact ⟨compiled, hcompiled, hok.2, rfl, rfl⟩

/-- A valid graph whose nodes compile without issues is compiled to what `inject` gives. -/
theorem compile_of_valid {C : WorkflowCompiler} {graph : AuthorGraph} {commit : String} {compiled : List WorkflowNode}
    (hvalid : C.validator.errors graph true = [])
    (hcompiled : C.compileNodes (normalizeAuthorGraph graph).nodes = .ok (compiled, []))
    (hsource : Workspace.isSha256Hex (C.host.sha256 (canonicalJson (normalizeAuthorGraph graph).dump)) = true)
    (hcommit : isObjectId commit = true) (hpolicy : 1 ≤ C.policyVersion.length ∧ C.policyVersion.length ≤ 64)
    (hcatalog : Workspace.isSha256Hex C.catalog.catalogHash = true)
    (hnodes : (inject C.host compiled (normalizeAuthorGraph graph).edges).1.length ≤ 300)
    (hedges : (inject C.host compiled (normalizeAuthorGraph graph).edges).2.1.length ≤ 600) :
    ∃ result, C.compile graph commit = .ok result ∧
      result.errors = (inject C.host compiled (normalizeAuthorGraph graph).edges).2.2 ∧
      result.graph = some
        { sourceAuthorHash := C.host.sha256 (canonicalJson (normalizeAuthorGraph graph).dump)
          integrationBaseCommit := commit
          policyVersion := C.policyVersion
          agentCatalogSnapshotHash := C.catalog.catalogHash
          nodes := byNodeId (inject C.host compiled (normalizeAuthorGraph graph).edges).1
          edges := byEdgeId (inject C.host compiled (normalizeAuthorGraph graph).edges).2.1 } := by
  have hreport : C.validator.validate graph true = .ok ⟨[], []⟩ := by
    rw [DraftValidator.validate, hvalid]
    rfl
  have hbuild : CompiledGraph.build
      { sourceAuthorHash := C.host.sha256 (canonicalJson (normalizeAuthorGraph graph).dump)
        integrationBaseCommit := commit
        policyVersion := C.policyVersion
        agentCatalogSnapshotHash := C.catalog.catalogHash
        nodes := byNodeId (inject C.host compiled (normalizeAuthorGraph graph).edges).1
        edges := byEdgeId (inject C.host compiled (normalizeAuthorGraph graph).edges).2.1 } = .ok _ :=
    build_of_valid hsource hcommit hpolicy.1 hpolicy.2 hcatalog (by rwa [byNodeId, List.length_insertionSort])
      (by rwa [byEdgeId, List.length_insertionSort])
  simp only [WorkflowCompiler.compile, hreport, bind, Except.bind, hcompiled]
  exact ⟨_, by rw [if_neg (by simp [ValidationReport.ok]), if_neg (by simp), hbuild]; rfl, rfl, rfl⟩

theorem compiled_valid {V : DraftValidator} {graph : AuthorGraph} (h : V.errors graph true = []) :
    (nodeIds graph.nodes).Nodup ∧ (graph.edges.map WorkflowEdge.id).Nodup ∧ (outputIds graph.nodes).length = 1 := by
  simp only [DraftValidator.errors, List.append_eq_nil_iff, if_true] at h
  obtain ⟨⟨⟨⟨⟨⟨⟨-, hduplicates⟩, -⟩, -⟩, -⟩, -⟩, -⟩, hcomplete⟩ := h
  simp only [DraftValidator.duplicateErrors, List.append_eq_nil_iff, List.map_eq_nil_iff, duplicates_eq_nil]
    at hduplicates
  simp only [DraftValidator.completeGraphErrors, List.append_eq_nil_iff, issueIf_nil] at hcomplete
  obtain ⟨⟨⟨⟨⟨-, houtputs⟩, -⟩, -⟩, -⟩, -⟩ := hcomplete
  exact ⟨hduplicates.1, hduplicates.2, by simpa [outputIds, nodeIds] using houtputs⟩

theorem normalized_ids (graph : AuthorGraph) :
    (nodeIds (normalizeAuthorGraph graph).nodes).Perm (nodeIds graph.nodes) := by
  have hperm := (List.perm_insertionSort (fun a b : WorkflowNode => a.id ≤ b.id)
    (graph.nodes.map normalizeNode)).map WorkflowNode.id
  rwa [List.map_map] at hperm

theorem normalized_outputs (graph : AuthorGraph) :
    (outputIds (normalizeAuthorGraph graph).nodes).length = (outputIds graph.nodes).length := by
  have hperm := ((List.perm_insertionSort (fun a b : WorkflowNode => a.id ≤ b.id)
    (graph.nodes.map normalizeNode)).filter (·.nodeType = .output)).length_eq
  simp only [outputIds, nodeIds, List.length_map, normalizeAuthorGraph, byNodeId, hperm, List.filter_map]
  rfl

theorem mem_normalized {graph : AuthorGraph} {n' : WorkflowNode} :
    n' ∈ (normalizeAuthorGraph graph).nodes ↔ ∃ n ∈ graph.nodes, normalizeNode n = n' := by
  rw [normalizeAuthorGraph, byNodeId, (List.perm_insertionSort _ _).mem_iff, List.mem_map]

/-- A valid graph has one output when it is compiled. -/
theorem compiled_output {V : DraftValidator} {graph : AuthorGraph} {compiled : List WorkflowNode}
    (hvalid : V.errors graph true = []) (h : List.Forall₂ Compiles (normalizeAuthorGraph graph).nodes compiled) :
    ∃ output, compiled.filter (·.nodeType = .output) = [output] := by
  obtain ⟨-, -, houtputs⟩ := compiled_valid hvalid
  have hlength : (outputIds compiled).length = 1 := by rw [compiled_outputs h, normalized_outputs, houtputs]
  simpa [outputIds, nodeIds, List.length_eq_one_iff] using hlength

/-- What the ids of the chains of an author graph hash. -/
def authorTexts (H : Host) (author : AuthorGraph) : List String :=
  hashedTexts H author.edges (authorChains author) (outputIds author.nodes)

/-- The ids of an author graph are apart from those of the chains its write tasks get. -/
def AuthorApart (H : Host) (author : AuthorGraph) : Prop :=
  IdsApart H (nodeIds author.nodes) author.edges (authorChains author) (outputIds author.nodes)

/-- The ids of a graph that was compiled without errors differ exactly when the author chose none of those that the chains
of the graph have. -/
theorem compile_ids_nodup_iff (C : WorkflowCompiler) (graph : AuthorGraph) (commit : String) (result : CompilationResult)
    (g : CompiledGraph) (hids : ∀ n ∈ graph.nodes, isEntityId n.id = true) (h : C.compile graph commit = .ok result)
    (hok : result.ok = true) (hg : result.graph = some g)
    (hinj : ∀ a ∈ authorTexts C.host (normalizeAuthorGraph graph), ∀ b ∈ authorTexts C.host (normalizeAuthorGraph graph),
      digest C.host a = digest C.host b → a = b) :
    (nodeIds g.nodes).Nodup ∧ (g.edges.map WorkflowEdge.id).Nodup ↔ AuthorApart C.host (normalizeAuthorGraph graph) := by
  obtain ⟨hvalid, compiled, hcompiled, hissues, hnodes, hedges⟩ := compile_graph h hok hg
  obtain ⟨hnd, hend, -⟩ := compiled_valid hvalid
  have hcompiles := compileNodes_compiles hcompiled
  have hcids : nodeIds compiled = nodeIds (normalizeAuthorGraph graph).nodes := compiled_ids hcompiles
  have hcout : outputIds compiled = outputIds (normalizeAuthorGraph graph).nodes := compiled_outputs hcompiles
  obtain ⟨output, hout⟩ := compiled_output hvalid hcompiles
  have hcoutput : outputIds (normalizeAuthorGraph graph).nodes = [output.id] := by
    rw [← hcout, outputIds, hout]
    rfl
  have hchains : ∀ c, c ∈ compiledChains compiled ↔ c ∈ authorChains (normalizeAuthorGraph graph) := by
    intro c
    have hnone : ∀ n ∈ writeTasks compiled, chainIssues n = [] := by
      rw [inject, hout] at hissues
      exact List.flatMap_eq_nil_iff.1 hissues
    rw [mem_compiledChains hcompiles hnone, authorChains, List.mem_map]
    simp only [eq_comm]
  have hcnd : (nodeIds compiled).Nodup := by
    rw [hcids]
    exact (normalized_ids graph).nodup_iff.2 hnd
  have hcend : ((normalizeAuthorGraph graph).edges.map WorkflowEdge.id).Nodup :=
    ((List.perm_insertionSort _ graph.edges).map WorkflowEdge.id).nodup_iff.2 hend
  have hplain : ∀ n ∈ compiled, NulFree n.id := by
    intro n hn
    have hmem : n.id ∈ nodeIds graph.nodes :=
      (normalized_ids graph).subset (hcids ▸ List.mem_map_of_mem hn)
    obtain ⟨raw, hraw, hid⟩ := List.mem_map.1 hmem
    exact nulFree_of_isEntityId (hid ▸ hids raw hraw)
  simp only [authorTexts, hcoutput] at hinj
  have hapart := inject_nodup_iff hout hcnd hplain
    (fun a ha b hb => hinj a ((mem_hashedTexts_congr _ _ _ hchains).1 ha) b ((mem_hashedTexts_congr _ _ _ hchains).1 hb))
    hcend
  rw [AuthorApart, ← hcids, hcoutput, ← idsApart_congr _ _ _ _ hchains, ← hapart, hnodes, hedges]
  have hnodesPerm := (List.perm_insertionSort (fun a b : WorkflowNode => a.id ≤ b.id)
    (inject C.host compiled (normalizeAuthorGraph graph).edges).1).map WorkflowNode.id
  have hedgesPerm := (List.perm_insertionSort (fun a b : WorkflowEdge => a.id ≤ b.id)
    (inject C.host compiled (normalizeAuthorGraph graph).edges).2.1).map WorkflowEdge.id
  exact and_congr hnodesPerm.nodup_iff hedgesPerm.nodup_iff

/-! ## A graph with one write task -/

/-- SHA-256 of what the ids of its chain hash. -/
def draftDigests : List (String × Nat) :=
  [(systemIdText "write" "write.patch_guard.v1" 1, 0xcea9fcdc55c110aa28dad5f378ad5b31bc8cb3f8a2bc53550012386321c5ae13),
    (systemIdText "write" "write.docs_static_test.v1" 2, 0xf5d555a9b3223345c23fcdfe8a2c79bba59988dcbefc1e32e2cf73ca97508794),
    (systemIdText "write" "write.risk_classifier.v1" 3, 0x48b1838f49a3a305cffec85b3aebb3c6125c652b9e52362cf69501aaa6a81a1b),
    (systemIdText "write" "write.changeset_approval.v1" 4, 0xc7b1d7c7f49df35b2205592b23f5a60bbf3477c2a5c7654f25f218b0d29901ff),
    (systemIdText "write" "write.merge_patch.v1" 5, 0x97a10d17bbe72c7fec2a1f7f3d535ffe7c07ee2637ca9ecb17d1e05b826584f2),
    (systemEdgeText "write" ⟨"write", "sys-cea9fcdc55c110aa28da", "enter", 0, .success⟩,
      0xf02c9f3e6a2ae903c8d5c3e4a5356cb6f236e6241690ee888f8cece7b6755d1e),
    (systemEdgeText "write" ⟨"sys-cea9fcdc55c110aa28da", "sys-f5d555a9b3223345c23f", "chain", 1, .success⟩,
      0x819f3a155b8004994e9cc2b9350bcdb8bdb5fbefdc363a46e1743f945bb9a52a),
    (systemEdgeText "write" ⟨"sys-f5d555a9b3223345c23f", "sys-48b1838f49a3a305cffe", "chain", 2, .success⟩,
      0x7c57a561109707d904bc55179652cdefd68ef96101514fbd0a7438916da12293),
    (systemEdgeText "write" ⟨"sys-48b1838f49a3a305cffe", "sys-c7b1d7c7f49df35b2205", "chain", 3, .success⟩,
      0x5700dc1e842b9daabac9edba0289a34a9ed88c8c40864457f348ee5cc313ac1c),
    (systemEdgeText "write" ⟨"sys-c7b1d7c7f49df35b2205", "sys-97a10d17bbe72c7fec2a", "chain", 4, .approved⟩,
      0x30a245f003a8a49bf926b2d017872b8017de16f9cba9bc5905a80480592adb92),
    (systemEdgeText "write" ⟨"sys-c7b1d7c7f49df35b2205", "end", "approval-rejected", 0, .rejected⟩,
      0x306841e1aa9acdb80715584713550f453f8488683ab061cb0ab3eee99450aff1),
    (systemEdgeText "write" ⟨"sys-cea9fcdc55c110aa28da", "end", "failure-output", 1, .failure⟩,
      0x9bc6e0436e1ae3691f598b452f9979f1917b3380d580c9d965ee838f13a4c6ae),
    (systemEdgeText "write" ⟨"sys-f5d555a9b3223345c23f", "end", "failure-output", 2, .failure⟩,
      0xa42496b44dfbd7e814831c8434471175885abd43e9b16e8596f14e5779f18701),
    (systemEdgeText "write" ⟨"sys-48b1838f49a3a305cffe", "end", "failure-output", 3, .failure⟩,
      0x74664e2e7901e3b269578f6ddd294d790f90b0e1591f5bca984c3e2b4d5ae4ac),
    (systemEdgeText "write" ⟨"sys-97a10d17bbe72c7fec2a", "end", "failure-output", 5, .failure⟩,
      0x2c533cac404a4873c665815aacd86ae7fe9adbaba9b2685b71d1905b4edf7a39),
    (systemEdgeText "write" ⟨"sys-97a10d17bbe72c7fec2a", "end", "resume-success", 1, .success⟩,
      0x2b4be31581aac440c58f23319d758419140e266c439f7b24b61d4a7491a898bc)]

/-- A text of a length, for the hashes that are not looked at. -/
def filler (length : Nat) (c : Char) : String := String.ofList (List.replicate length c)

/-- A host with these digests. -/
def digestHost : Host :=
  ⟨fun content => hexText (((draftDigests.find? fun entry => utf8 entry.1 = content).map Prod.snd).getD 0),
    fun _ => none, fun _ => "", fun _ => true, id⟩

def sampleCompiler : WorkflowCompiler where
  host := digestHost
  catalog := ⟨[⟨"writer", "Writer", "cli", filler 64 'a', [.readCode, .docs, .writeFiles, .generatePatch], true, true, true,
    none⟩], filler 64 'b'⟩
  policyVersion := "demo-v1"
  validator := ⟨id⟩
  pathPolicy := none
  commandGuard := none

/-- A documentation task between an input with this id and an output. -/
def writeGraph (inputId : String) : AuthorGraph where
  nodes := [
    { id := inputId, nodeType := .input, title := "Input" },
    { id := "write", nodeType := .agentTask, title := "Write", taskKind := some .docs, instruction := some "Write a guide",
      newFilesCandidate := ["guide.md"], requiresWrite := true },
    { id := "end", nodeType := .output, title := "Output" }]
  edges := [⟨"e1", inputId, "write", .success, false⟩, ⟨"e2", "write", "end", .success, false⟩]

/-- An input of its own, and one with the id of the patch guard. -/
def sampleInputs : List String := ["start", "sys-cea9fcdc55c110aa28da"]

theorem writeGraph_small : ∀ inputId ∈ sampleInputs, DraftValidator.sizeErrors (writeGraph inputId) = [] := by
  have hwidth : ∀ inputId ∈ sampleInputs, Json.width noFloats (writeGraph inputId).dump ≤ 100000 := by
    simp only [AuthorGraph.dump, WorkflowNode.dump, WorkflowEdge.dump, writeGraph, width_record, Json.widthFields,
      Json.width, Json.widthItems, listOf, optional, dumpCommands, List.map_cons, List.map_nil]
    decide +kernel
  intro inputId hinput
  have hbytes := length_canonicalJson_le (writeGraph inputId).dump
  have hsize : (canonicalJson (writeGraph inputId).dump).length ≤ maxAuthorGraphBytes := by
    have := hwidth inputId hinput
    rw [maxAuthorGraphBytes]
    omega
  simp only [DraftValidator.sizeErrors, List.append_eq_nil_iff, issueIf_nil, decide_eq_false_iff_not, not_lt]
  exact ⟨⟨by simp [writeGraph, maxAuthorNodes], by simp [writeGraph, maxAuthorEdges]⟩, hsize⟩

theorem writeGraph_valid : ∀ inputId ∈ sampleInputs, sampleCompiler.validator.errors (writeGraph inputId) true = [] := by
  intro inputId hinput
  simp only [DraftValidator.errors, writeGraph_small inputId hinput, List.nil_append]
  revert inputId
  decide +kernel

/-- The chain of the task is the same whatever the id of the input. -/
theorem writeGraph_texts (H : Host) : ∀ inputId ∈ sampleInputs,
    authorTexts H (normalizeAuthorGraph (writeGraph inputId)) = chainIdTexts "write" docsSteps ++
      chainEdgeTexts H "write" docsSteps [⟨"e2", "write", "end", .success, false⟩] "end" := by
  have hparts : ∀ inputId ∈ sampleInputs, authorChains (normalizeAuthorGraph (writeGraph inputId)) = [⟨"write", docsSteps⟩] ∧
      outputIds (normalizeAuthorGraph (writeGraph inputId)).nodes = ["end"] ∧
      successEdges (normalizeAuthorGraph (writeGraph inputId)).edges "write" = [⟨"e2", "write", "end", .success, false⟩] := by
    decide +kernel
  intro inputId hinput
  obtain ⟨hchains, houtputs, hsuccess⟩ := hparts inputId hinput
  simp [authorTexts, hashedTexts, hchains, houtputs, TaskChain.idTexts, TaskChain.edgeTexts, hsuccess]

theorem writeGraph_injective : ∀ inputId ∈ sampleInputs,
    ∀ a ∈ authorTexts digestHost (normalizeAuthorGraph (writeGraph inputId)),
    ∀ b ∈ authorTexts digestHost (normalizeAuthorGraph (writeGraph inputId)),
    digest digestHost a = digest digestHost b → a = b := by
  intro inputId hinput
  rw [writeGraph_texts digestHost inputId hinput]
  have hnd : ((chainIdTexts "write" docsSteps ++ chainEdgeTexts digestHost "write" docsSteps
      [⟨"e2", "write", "end", .success, false⟩] "end").map (digest digestHost)).Nodup := by
    decide +kernel
  exact fun a ha b hb => List.inj_on_of_nodup_map hnd ha hb

theorem writeGraph_ids : ∀ inputId ∈ sampleInputs, ∀ n ∈ (writeGraph inputId).nodes, isEntityId n.id = true := by
  simp only [isEntityId_eq]
  decide +kernel

/-- The sample is compiled without errors, and its chain brings the id of its patch guard. -/
theorem writeGraph_compiled : ∀ inputId ∈ sampleInputs, ∃ result g,
    sampleCompiler.compile (writeGraph inputId) (filler 40 'c') = .ok result ∧ result.ok = true ∧ result.graph = some g ∧
    (nodeIds g.nodes).count "sys-cea9fcdc55c110aa28da" = if inputId = "start" then 1 else 2 := by
  have hparts : ∀ inputId ∈ sampleInputs, (sampleCompiler.compileNodes (normalizeAuthorGraph (writeGraph inputId)).nodes
      ).toOption.any (fun p => p.2.isEmpty &&
        (inject digestHost p.1 (normalizeAuthorGraph (writeGraph inputId)).edges).1.length = 8 &&
        (inject digestHost p.1 (normalizeAuthorGraph (writeGraph inputId)).edges).2.1.length = 12 &&
        (inject digestHost p.1 (normalizeAuthorGraph (writeGraph inputId)).edges).2.2.isEmpty &&
        (nodeIds (inject digestHost p.1 (normalizeAuthorGraph (writeGraph inputId)).edges).1).count
          "sys-cea9fcdc55c110aa28da" = if inputId = "start" then 1 else 2) = true := by
    decide +kernel
  intro inputId hinput
  have h := hparts inputId hinput
  cases hcompiled : sampleCompiler.compileNodes (normalizeAuthorGraph (writeGraph inputId)).nodes with
  | error e => simp [hcompiled, Except.toOption] at h
  | ok p =>
    obtain ⟨compiled, errors⟩ := p
    simp only [hcompiled, Except.toOption, Option.any_some, Bool.and_eq_true, List.isEmpty_iff, decide_eq_true_eq] at h
    obtain ⟨⟨⟨⟨rfl, hnodes⟩, hedges⟩, hissues⟩, hcount⟩ := h
    obtain ⟨result, hresult, herrors, hg⟩ := compile_of_valid
      (writeGraph_valid inputId hinput) hcompiled (isSha256Hex_hexText _)
      (show isObjectId (filler 40 'c') = true by decide +kernel) (by decide)
      (by decide +kernel) (hnodes.trans_le (by omega)) (hedges.trans_le (by omega))
    refine ⟨result, _, hresult, ?_, hg, ?_⟩
    · rw [CompilationResult.ok, hg, herrors]
      exact List.isEmpty_iff.2 hissues
    · rw [← hcount]
      exact ((List.perm_insertionSort _ _).map WorkflowNode.id).count_eq _

theorem compile_ids_nodup_sample :
    ∃ g : CompiledGraph, ((nodeIds g.nodes).Nodup ∧ (g.edges.map WorkflowEdge.id).Nodup ↔
      AuthorApart digestHost (normalizeAuthorGraph (writeGraph "start"))) ∧
      (nodeIds g.nodes).count "sys-cea9fcdc55c110aa28da" = 1 := by
  obtain ⟨result, g, hresult, hok, hg, hcount⟩ := writeGraph_compiled "start" (by decide)
  exact ⟨g, compile_ids_nodup_iff sampleCompiler (writeGraph "start") (filler 40 'c') result g
    (writeGraph_ids "start" (by decide)) hresult hok hg (writeGraph_injective "start" (by decide)), hcount⟩

/-- An author who chooses the id of the patch guard of a task for another node gets a compiled graph with that id twice. -/
theorem compile_chosen_id :
    ¬ (∀ (C : WorkflowCompiler) (graph : AuthorGraph) (commit : String) (result : CompilationResult) (g : CompiledGraph),
      (∀ n ∈ graph.nodes, isEntityId n.id = true) → C.compile graph commit = .ok result → result.ok = true →
      result.graph = some g →
      (∀ a ∈ authorTexts C.host (normalizeAuthorGraph graph), ∀ b ∈ authorTexts C.host (normalizeAuthorGraph graph),
        digest C.host a = digest C.host b → a = b) →
      (nodeIds g.nodes).Nodup ∧ (g.edges.map WorkflowEdge.id).Nodup) := by
  intro h
  have hinput : "sys-cea9fcdc55c110aa28da" ∈ sampleInputs := by decide
  obtain ⟨result, g, hresult, hok, hg, hcount⟩ := writeGraph_compiled _ hinput
  have hnd := (h _ _ _ result g (writeGraph_ids _ hinput) hresult hok hg (writeGraph_injective _ hinput)).1
  have hone := List.nodup_iff_count_le_one.1 hnd "sys-cea9fcdc55c110aa28da"
  rw [hcount] at hone
  revert hone
  decide

end AgentHub
