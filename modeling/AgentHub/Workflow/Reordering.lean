import AgentHub.Lib.Rearranged
import AgentHub.Workflow.GraphSearch
/-!
# Author graphs in another order

Nodes, edges and the lists that stand for sets may come in any order. Normalizing brings two orders of one graph to the
same graph (`AuthorGraph.Reordered.normalize_eq`), and the draft validator has the same complaints about both, in some
order (`AuthorGraph.Reordered.errors_perm`).
-/

namespace AgentHub

open Lib Workspace

/-! ## Orders -/

/-- A condition with the operands of `in` in another order. -/
inductive IfCondition.Reordered : IfCondition → IfCondition → Prop
  | same (c : IfCondition) : Reordered c c
  | operands (upstream field : String) {l l' : List String} (h : l.Perm l') :
      Reordered ⟨upstream, field, .isIn, .tokens l⟩ ⟨upstream, field, .isIn, .tokens l'⟩

/-- A node with its candidate paths, its recommended agents and the operands of its condition in another order. -/
inductive WorkflowNode.Reordered (n : WorkflowNode) : WorkflowNode → Prop
  | intro {condition : Option IfCondition} {recommended : List AgentRecommendation} {allowed new : List String}
      (hcondition : Option.Rel IfCondition.Reordered n.ifCondition condition)
      (hrecommended : n.recommendedAgents.Perm recommended) (hallowed : n.allowedFilesCandidate.Perm allowed)
      (hnew : n.newFilesCandidate.Perm new) :
      Reordered n { n with
        ifCondition := condition, recommendedAgents := recommended, allowedFilesCandidate := allowed,
        newFilesCandidate := new }

/-- A graph in another order. -/
structure AuthorGraph.Reordered (graph graph' : AuthorGraph) : Prop where
  version : graph.schemaVersion = graph'.schemaVersion
  nodes : Rearranged WorkflowNode.Reordered graph.nodes graph'.nodes
  edges : graph.edges.Perm graph'.edges

/-! ## Normal forms -/

theorem sorted_perm {l l' : List String} (h : l.Perm l') : sorted l = sorted l' := insertionSort_le_perm h

theorem sortedSet_perm {l l' : List String} (h : l.Perm l') : sortedSet l = sortedSet l' := sorted_perm h.dedup

theorem sortedIds_perm {l l' : List String} (h : l.Perm l') : sortedIds l = sortedIds l' := insertionSort_le_perm h.dedup

theorem recommendationBefore_total (a b : AgentRecommendation) : recommendationBefore a b ∨ recommendationBefore b a := by
  unfold recommendationBefore
  rcases lt_trichotomy a.agentId b.agentId with h | h | h
  · exact .inl (.inl h)
  · rcases lt_trichotomy a.score b.score with hs | hs | hs
    · exact .inr (.inr ⟨h.symm, .inl hs⟩)
    · rcases le_total a.reason b.reason with hr | hr
      · exact .inl (.inr ⟨h, .inr ⟨hs, hr⟩⟩)
      · exact .inr (.inr ⟨h.symm, .inr ⟨hs.symm, hr⟩⟩)
    · exact .inl (.inr ⟨h, .inl hs⟩)
  · exact .inr (.inl h)

theorem recommendationBefore_trans (a b c : AgentRecommendation) (hab : recommendationBefore a b)
    (hbc : recommendationBefore b c) : recommendationBefore a c := by
  unfold recommendationBefore at *
  rcases hab with hab | ⟨hid, hab⟩
  · rcases hbc with hbc | ⟨hid', -⟩
    · exact .inl (hab.trans hbc)
    · exact .inl (hid' ▸ hab)
  · rcases hbc with hbc | ⟨hid', hbc⟩
    · exact .inl (hid ▸ hbc)
    · refine .inr ⟨hid.trans hid', ?_⟩
      rcases hab with hab | ⟨hs, hab⟩
      · rcases hbc with hbc | ⟨hs', -⟩
        · exact .inl (hbc.trans hab)
        · exact .inl (hs' ▸ hab)
      · rcases hbc with hbc | ⟨hs', hbc⟩
        · exact .inl (hs ▸ hbc)
        · exact .inr ⟨hs.trans hs', hab.trans hbc⟩

theorem recommendationBefore_antisymm {a b : AgentRecommendation} (hab : recommendationBefore a b)
    (hba : recommendationBefore b a) : a = b := by
  obtain ⟨id, score, reason⟩ := a
  obtain ⟨id', score', reason'⟩ := b
  unfold recommendationBefore at *
  dsimp only at *
  rcases hab with hab | ⟨rfl, hab⟩
  · rcases hba with hba | ⟨rfl, -⟩
    · exact absurd hab hba.not_gt
    · exact absurd hab (lt_irrefl _)
  · have hba := (hba.resolve_left (lt_irrefl _)).2
    rcases hab with hab | ⟨rfl, hab⟩
    · rcases hba with hba | ⟨rfl, -⟩ <;> omega
    · rw [le_antisymm hab (hba.resolve_left (lt_irrefl _)).2]

/-- Nodes that differ in order have one normal form. -/
theorem WorkflowNode.Reordered.normalize_eq {n n' : WorkflowNode} (h : n.Reordered n') :
    normalizeNode n = normalizeNode n' := by
  obtain ⟨hcondition, hrecommended, hallowed, hnew⟩ := h
  rename_i condition recommended allowed new
  have hcond : n.ifCondition.map normalizeCondition = condition.map normalizeCondition := by
    generalize n.ifCondition = own at hcondition
    cases hcondition with
    | none => rfl
    | some h =>
      cases h with
      | same c => rfl
      | operands upstream field h => simp only [Option.map_some, normalizeCondition, sortedSet_perm h]
  have hrec : n.recommendedAgents.insertionSort recommendationBefore = recommended.insertionSort recommendationBefore :=
    insertionSort_perm recommendationBefore_total recommendationBefore_trans hrecommended
      fun _ _ _ _ => recommendationBefore_antisymm
  simp only [normalizeNode, hcond, hrec, sorted_perm hallowed, sorted_perm hnew]

theorem WorkflowNode.Reordered.id_eq {n n' : WorkflowNode} (h : n.Reordered n') : n.id = n'.id := by
  cases h
  rfl

/-- Graphs that differ in order have one normal form. -/
theorem AuthorGraph.Reordered.normalize_eq {graph graph' : AuthorGraph} (h : graph.Reordered graph')
    (hnodes : (nodeIds graph.nodes).Nodup) (hedges : (graph.edges.map WorkflowEdge.id).Nodup) :
    normalizeAuthorGraph graph = normalizeAuthorGraph graph' := by
  have hids : ((graph.nodes.map normalizeNode).map WorkflowNode.id).Nodup := by
    rw [List.map_map]
    exact hnodes
  have hsorted : byNodeId (graph.nodes.map normalizeNode) = byNodeId (graph'.nodes.map normalizeNode) :=
    insertionSort_key_perm (h.nodes.map_perm fun hn => hn.normalize_eq) hids
  have hedgesSorted : byEdgeId graph.edges = byEdgeId graph'.edges := insertionSort_key_perm h.edges hedges
  rw [normalizeAuthorGraph, normalizeAuthorGraph, h.version, hsorted, hedgesSorted]

theorem sorted_sorted (l : List String) : sorted (sorted l) = sorted l :=
  insertionSort_insertionSort le_total (fun _ _ _ => le_trans) l

theorem sortedSet_sortedSet (l : List String) : sortedSet (sortedSet l) = sortedSet l := by
  have hnd : (sorted l.dedup).Nodup := (List.perm_insertionSort _ _).nodup_iff.2 (List.nodup_dedup l)
  rw [sortedSet, sortedSet, hnd.dedup, sorted_sorted]

theorem normalizeNode_normalizeNode (n : WorkflowNode) : normalizeNode (normalizeNode n) = normalizeNode n := by
  have hcondition : ∀ c : IfCondition, normalizeCondition (normalizeCondition c) = normalizeCondition c := by
    rintro ⟨upstream, field, operator, value⟩
    cases operator <;> cases value <;> simp [normalizeCondition, sortedSet_sortedSet]
  simp only [normalizeNode, Option.map_map, sorted_sorted,
    insertionSort_insertionSort recommendationBefore_total recommendationBefore_trans]
  congr 2
  exact funext hcondition

/-- Normalizing changes nothing in a normal form. -/
theorem normalize_idempotent (graph : AuthorGraph) :
    normalizeAuthorGraph (normalizeAuthorGraph graph) = normalizeAuthorGraph graph := by
  have hnodes : (byNodeId (graph.nodes.map normalizeNode)).map normalizeNode = byNodeId (graph.nodes.map normalizeNode) := by
    refine List.map_congr_left (fun n hn => ?_) |>.trans (List.map_id _)
    rw [byNodeId, (List.perm_insertionSort _ _).mem_iff] at hn
    obtain ⟨m, -, rfl⟩ := List.mem_map.1 hn
    exact normalizeNode_normalizeNode m
  have hnodesSorted : ∀ l : List WorkflowNode, byNodeId (byNodeId l) = byNodeId l :=
    insertionSort_insertionSort (fun a b : WorkflowNode => le_total a.id b.id) fun _ _ _ => le_trans
  have hedgesSorted : ∀ l : List WorkflowEdge, byEdgeId (byEdgeId l) = byEdgeId l :=
    insertionSort_insertionSort (fun a b : WorkflowEdge => le_total a.id b.id) fun _ _ _ => le_trans
  simp only [normalizeAuthorGraph, hnodes, hnodesSorted, hedgesSorted]

/-! ## Sizes -/

theorem size_listOf_perm {α : Type} (dump : α → Plain) {l l' : List α} (h : l.Perm l') :
    Json.size noFloats (listOf dump l) = Json.size noFloats (listOf dump l') := by
  rw [listOf, listOf, Json.size_arr, Json.size_arr, List.length_map, List.length_map, h.length_eq]
  simp only [List.map_map, (h.map _).sum_eq]

theorem IfCondition.Reordered.size_eq {c c' : IfCondition} (h : c.Reordered c') :
    Json.size noFloats c.dump = Json.size noFloats c'.dump := by
  cases h with
  | same => rfl
  | operands upstream field h =>
    simp only [IfCondition.dump, IfValue.dump, size_record, Json.size_obj, List.map_cons, List.map_nil, Json.fieldSize,
      size_listOf_perm _ h, List.length_cons, List.length_nil]

theorem WorkflowNode.Reordered.size_eq {n n' : WorkflowNode} (h : n.Reordered n') :
    Json.size noFloats n.dump = Json.size noFloats n'.dump := by
  obtain ⟨hcondition, hrecommended, hallowed, hnew⟩ := h
  rename_i condition recommended allowed new
  have hcond : Json.size noFloats (optional IfCondition.dump n.ifCondition) =
      Json.size noFloats (optional IfCondition.dump condition) := by
    generalize n.ifCondition = own at hcondition
    cases hcondition with
    | none => rfl
    | some h => exact h.size_eq
  simp only [WorkflowNode.dump, size_record, Json.size_obj, List.map_cons, List.map_nil, Json.fieldSize, hcond,
    size_listOf_perm _ hrecommended, size_listOf_perm _ hallowed, size_listOf_perm _ hnew, List.length_cons,
    List.length_nil]

/-- The canonical text is as long. -/
theorem AuthorGraph.Reordered.length_eq {graph graph' : AuthorGraph} (h : graph.Reordered graph') :
    (canonicalJson graph.dump).length = (canonicalJson graph'.dump).length := by
  have hnodes : Json.size noFloats (listOf (·.dump) graph.nodes) = Json.size noFloats (listOf (·.dump) graph'.nodes) := by
    have hsizes : (graph.nodes.map fun n => Json.size noFloats n.dump).Perm
        (graph'.nodes.map fun n => Json.size noFloats n.dump) := h.nodes.map_perm fun hn => hn.size_eq
    rw [listOf, listOf, Json.size_arr, Json.size_arr, List.length_map, List.length_map, h.nodes.length_eq]
    simp only [List.map_map, Function.comp_def, hsizes.sum_eq]
  simp only [length_canonicalJson, AuthorGraph.dump, size_record, Json.size_obj, List.map_cons, List.map_nil,
    Json.fieldSize, h.version, hnodes, size_listOf_perm _ h.edges, List.length_cons, List.length_nil]

/-! ## What the draft validator says -/

namespace DraftValidator

variable {V : DraftValidator} {n n' : WorkflowNode}

theorem candidatePathErrors_perm (field : String) {l l' : List String} (h : l.Perm l') :
    (V.candidatePathErrors n field l).Perm (V.candidatePathErrors n field l') := by
  unfold candidatePathErrors
  refine .append (.of_eq ?_) (h.flatMap_right _)
  rw [decide_eq_decide.2 h.nodup_iff]

theorem candidateCommandErrors_id (hid : n.id = n'.id) (commands : List (List String)) : ∀ seen,
    candidateCommandErrors n seen commands = candidateCommandErrors n' seen commands := by
  induction commands with
  | nil => exact fun _ => rfl
  | cons argv rest ih =>
    intro seen
    rw [candidateCommandErrors, candidateCommandErrors, hid, ih]

theorem nodeErrors_perm (h : n.Reordered n') : (V.nodeErrors n).Perm (V.nodeErrors n') := by
  obtain ⟨hcondition, hrecommended, hallowed, hnew⟩ := h
  rename_i condition recommended allowed new
  have hsome : condition.isNone = n.ifCondition.isNone ∧ condition.isSome = n.ifCondition.isSome := by
    generalize n.ifCondition = own at hcondition
    cases hcondition <;> exact ⟨rfl, rfl⟩
  have hoverlap : sortedSet (n.allowedFilesCandidate.filter (· ∈ n.newFilesCandidate)) =
      sortedSet (allowed.filter (· ∈ new)) := by
    refine sortedSet_perm ((hallowed.filter _).trans (.of_eq (List.filter_congr fun path _ => ?_)))
    exact decide_eq_decide.2 hnew.mem_iff
  have hpaths : (V.candidatePathsErrors n).Perm (V.candidatePathsErrors { n with
      ifCondition := condition, recommendedAgents := recommended, allowedFilesCandidate := allowed,
      newFilesCandidate := new }) := by
    unfold candidatePathsErrors
    dsimp only
    rw [hoverlap]
    exact ((candidatePathErrors_perm _ hallowed).append (candidatePathErrors_perm _ hnew)).append_right _
  unfold nodeErrors
  refine .append (.append (.refl _) ?_) ?_
  · dsimp only
    split
    · unfold agentTaskErrors
      dsimp only
      rw [hnew.isEmpty_eq]
      refine ((hpaths.append_left _).append (.of_eq ?_)).append_right _
      apply candidateCommandErrors_id
      rfl
    · unfold otherNodeErrors
      dsimp only
      rw [hnew.isEmpty_eq, hallowed.isEmpty_eq, hrecommended.isEmpty_eq]
  · dsimp only
    rw [hsome.1, hsome.2]

/-! ### The graph as a whole -/

variable {nodes nodes' : List WorkflowNode} {edges : List WorkflowEdge}

theorem nodeIds_perm (h : Rearranged WorkflowNode.Reordered nodes nodes') : (nodeIds nodes).Perm (nodeIds nodes') :=
  h.map_perm fun hn => hn.id_eq

/-- A node is found by its id on both sides. -/
theorem nodeById_reordered (h : Rearranged WorkflowNode.Reordered nodes nodes') (hnd : (nodeIds nodes).Nodup) (id : String) :
    Option.Rel WorkflowNode.Reordered (nodeById nodes id) (nodeById nodes' id) := by
  have hnd' : (nodeIds nodes').Nodup := (nodeIds_perm h).nodup_iff.1 hnd
  cases hfound : nodeById nodes id with
  | some n =>
    obtain ⟨hn, hid⟩ := (nodeById_eq_some hnd).1 hfound
    obtain ⟨n', hn', hR⟩ := h.exists_right hn
    rw [(nodeById_eq_some hnd').2 ⟨hn', hR.id_eq.symm.trans hid⟩]
    exact .some hR
  | none =>
    cases hfound' : nodeById nodes' id with
    | none => exact .none
    | some n' =>
      obtain ⟨hn', hid⟩ := (nodeById_eq_some hnd').1 hfound'
      obtain ⟨n, hn, hnid⟩ := List.mem_map.1 ((nodeIds_perm h).mem_iff.2 (List.mem_map_of_mem hn'))
      rw [(nodeById_eq_some hnd).2 ⟨hn, hnid.trans hid⟩] at hfound
      cases hfound

theorem type_eq (h : n.Reordered n') : n.nodeType = n'.nodeType := by
  cases h
  rfl

theorem validEdges_eq (h : Rearranged WorkflowNode.Reordered nodes nodes') {edges edges' : List WorkflowEdge}
    (hperm : edges.Perm edges') (hedges : (edges.map WorkflowEdge.id).Nodup) :
    validEdges nodes edges = validEdges nodes' edges' := by
  have hsorted : byEdgeId edges = byEdgeId edges' := insertionSort_key_perm hperm hedges
  rw [validEdges, validEdges, hsorted]
  refine List.filter_congr fun e _ => decide_eq_decide.2 ?_
  rw [(nodeIds_perm h).mem_iff, (nodeIds_perm h).mem_iff]

theorem edgeErrors_eq (h : Rearranged WorkflowNode.Reordered nodes nodes') (hnd : (nodeIds nodes).Nodup) (e : WorkflowEdge) :
    edgeErrors nodes e = edgeErrors nodes' e := by
  have hsource := nodeById_reordered h hnd e.fromNode
  have htarget := nodeById_reordered h hnd e.toNode
  unfold edgeErrors
  cases hs : nodeById nodes e.fromNode <;> cases hs' : nodeById nodes' e.fromNode <;> rw [hs, hs'] at hsource <;>
    cases hsource <;>
    cases ht : nodeById nodes e.toNode <;> cases ht' : nodeById nodes' e.toNode <;> rw [ht, ht'] at htarget <;>
    cases htarget <;> try rfl
  next hR _ _ _ =>
    simp only [edgeConditionErrors, allowedConditions, type_eq hR, hR.id_eq]
    rfl

theorem dominators_reordered (h : Rearranged WorkflowNode.Reordered nodes nodes') :
    dominators nodes edges = dominators nodes' edges := by
  unfold dominators
  rw [sortedIds_perm (nodeIds_perm h)]

theorem operandErrors_eq (hid : n.id = n'.id) {c c' : IfCondition} (h : c.Reordered c') :
    operandErrors n c = operandErrors n' c' := by
  cases h with
  | same => simp only [operandErrors, hid]
  | operands upstream field h =>
    simp only [operandErrors, hid]
    split
    · rfl
    · congr 2
      cases expectedValues field with
      | none => rfl
      | some expected => exact h.any_eq

theorem conditionErrors_perm (h : Rearranged WorkflowNode.Reordered nodes nodes') (hnd : (nodeIds nodes).Nodup) :
    (conditionErrors nodes edges).Perm (conditionErrors nodes' edges) := by
  refine (h.filter fun hn => by rw [type_eq hn]).flatMap_perm fun {a b} hn => .of_eq ?_
  have hcondition : Option.Rel IfCondition.Reordered a.ifCondition b.ifCondition := by
    obtain ⟨hcondition, -, -, -⟩ := hn
    exact hcondition
  generalize a.ifCondition = x at hcondition
  generalize b.ifCondition = y at hcondition
  cases hcondition with
  | none => rfl
  | @some c c' hc =>
    have hupstream : c.upstreamNodeId = c'.upstreamNodeId := by cases hc <;> rfl
    have hknown : (nodeById nodes c'.upstreamNodeId).isNone = (nodeById nodes' c'.upstreamNodeId).isNone := by
      have hrel := nodeById_reordered h hnd c'.upstreamNodeId
      generalize nodeById nodes c'.upstreamNodeId = x at hrel
      generalize nodeById nodes' c'.upstreamNodeId = y at hrel
      cases hrel <;> rfl
    simp only [ifConditionErrors, hknown, hn.id_eq, dominators_reordered h, operandErrors_eq hn.id_eq hc, hupstream]

theorem ifBranchErrors_perm (h : Rearranged WorkflowNode.Reordered nodes nodes') :
    (ifBranchErrors nodes edges).Perm (ifBranchErrors nodes' edges) := by
  refine (h.filter fun hn => by rw [type_eq hn]).flatMap_perm fun hn => .of_eq ?_
  simp only [hn.id_eq]

theorem containsCycle_eq (h : Rearranged WorkflowNode.Reordered nodes nodes') (hclosed : Closed nodes edges) :
    containsCycle nodes edges = containsCycle nodes' edges := by
  have hclosed' : Closed nodes' edges := fun e he =>
    ⟨(nodeIds_perm h).mem_iff.1 (hclosed e he).1, (nodeIds_perm h).mem_iff.1 (hclosed e he).2⟩
  rw [Bool.eq_iff_iff, ← not_iff_not, Bool.not_eq_true, Bool.not_eq_true, containsCycle_eq_false hclosed,
    containsCycle_eq_false hclosed']

/-- What is said of the only node of a kind. -/
theorem only_perm {f : List WorkflowNode → List ValidationIssue} {g : WorkflowNode → List ValidationIssue}
    (hf : ∀ l, f l = match l with | [n] => g n | _ => []) {l l' : List WorkflowNode}
    (h : Rearranged WorkflowNode.Reordered l l') (hg : ∀ {n n' : WorkflowNode}, n.Reordered n' → g n = g n') :
    f l = f l' := by
  rw [hf, hf]
  match l, h with
  | [], h =>
    have hnil : l' = [] := List.length_eq_zero_iff.1 h.length_eq.symm
    rw [hnil]
  | [n], h =>
    obtain ⟨n', rfl, hn⟩ := h.singleton
    exact hg hn
  | n :: m :: l, h =>
    have hlength := h.length_eq
    match l', hlength with
    | _ :: _ :: _, _ => rfl

theorem completeGraphErrors_perm (h : Rearranged WorkflowNode.Reordered nodes nodes') (hnd : (nodeIds nodes).Nodup) :
    (completeGraphErrors nodes edges).Perm (completeGraphErrors nodes' edges) := by
  have hinputs := h.filter (p := fun n => n.nodeType = .input) (q := fun n => n.nodeType = .input)
    fun hn => by rw [type_eq hn]
  have houtputs := h.filter (p := fun n => n.nodeType = .output) (q := fun n => n.nodeType = .output)
    fun hn => by rw [type_eq hn]
  have hids := nodeIds_perm h
  unfold completeGraphErrors
  dsimp only
  refine .append (.append (.append (.append (.append (.of_eq ?_) (.of_eq ?_)) (.of_eq ?_)) (.of_eq ?_)) ?_) (.of_eq ?_)
  · rw [hinputs.length_eq]
  · rw [houtputs.length_eq]
  · refine only_perm (fun l => rfl) hinputs fun hn => ?_
    rw [hn.id_eq]
  · refine only_perm (fun l => rfl) houtputs fun hn => ?_
    rw [hn.id_eq]
  · refine h.flatMap_perm fun hn => .of_eq ?_
    rw [type_eq hn, hn.id_eq, h.length_eq]
  · simp only [sortedIds_perm hids, hnd, hids.nodup_iff.1 hnd, if_true]
    refine only_perm (fun l => rfl) hinputs fun hn => ?_
    rw [hn.id_eq]

/-- Of two orders of a graph the validator says the same, in some order. -/
theorem errors_perm {graph graph' : AuthorGraph} (h : graph.Reordered graph') (hnd : (nodeIds graph.nodes).Nodup)
    (hedges : (graph.edges.map WorkflowEdge.id).Nodup) (requireComplete : Bool) :
    (V.errors graph requireComplete).Perm (V.errors graph' requireComplete) := by
  have hids := nodeIds_perm h.nodes
  have hvalid := validEdges_eq h.nodes h.edges hedges
  have hclosed : Closed graph.nodes (validEdges graph.nodes graph.edges) := fun e he => (mem_validEdges.1 he).2
  have hsorted : byEdgeId graph.edges = byEdgeId graph'.edges := insertionSort_key_perm h.edges hedges
  unfold errors
  dsimp only
  rw [← hvalid, ← hsorted]
  refine .append (.append (.append (.append (.append (.append (.append (.of_eq ?_) (.of_eq ?_)) ?_) (.of_eq ?_)) ?_) ?_)
    (.of_eq ?_)) ?_
  · simp only [sizeErrors, h.nodes.length_eq, h.edges.length_eq, h.length_eq]
  · simp only [duplicateErrors, duplicates, sortedIds_perm hids, sortedIds_perm (h.edges.map WorkflowEdge.id),
      hids.count_eq, (h.edges.map WorkflowEdge.id).count_eq]
  · refine (((List.perm_insertionSort _ _).flatMap_right _).trans (h.nodes.flatMap_perm fun hn => nodeErrors_perm hn)).trans ?_
    exact ((List.perm_insertionSort _ _).flatMap_right _).symm
  · exact List.flatMap_congr fun e _ => edgeErrors_eq h.nodes hnd e
  · exact conditionErrors_perm h.nodes hnd
  · exact ifBranchErrors_perm h.nodes
  · rw [containsCycle_eq h.nodes hclosed, decide_eq_decide.2 hids.nodup_iff]
  · split
    · exact completeGraphErrors_perm h.nodes hnd
    · exact .refl _

end DraftValidator

end AgentHub
