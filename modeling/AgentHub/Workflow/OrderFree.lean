import AgentHub.Workflow.IfConditions
import AgentHub.Workflow.Reordering
/-!
# Compiling does not look at the order

Two orders of one author graph are compiled to the same graph with the same hash. What keeps its order are the commands of
a task: they are its effective commands, and the guards and tests of its chain, in the order the author gave
(`compile_order_free`).
-/

namespace AgentHub

open Lib Workspace

/-! ## Two compilations -/

/-- Two compilations that differ in the order of their issues at most. -/
inductive Agree : Except Failure CompilationResult → Except Failure CompilationResult → Prop
  | raised (e : Failure) : Agree (.error e) (.error e)
  | returned {r r' : CompilationResult} (ok : r.ok = r'.ok) (source : r.sourceAuthorHash = r'.sourceAuthorHash)
      (graph : r.graph = r'.graph) (hash : r.compiledHash = r'.compiledHash) (errors : r.errors.Perm r'.errors)
      (warnings : r.warnings = r'.warnings) : Agree (.ok r) (.ok r')

theorem Agree.refl (x : Except Failure CompilationResult) : Agree x x := by
  cases x with
  | error e => exact .raised e
  | ok r => exact .returned rfl rfl rfl rfl (.refl _) rfl

theorem checkIssues_perm {l l' : List ValidationIssue} (h : l.Perm l') : checkIssues l = checkIssues l' := by
  rw [checkIssues, checkIssues, h.any_eq]

/-- What follows the validation of two orders of a graph agrees when it does on their issues. -/
theorem validate_agree {V : DraftValidator} {graph graph' : AuthorGraph} (h : graph.Reordered graph')
    (hnodes : (nodeIds graph.nodes).Nodup) (hedges : (graph.edges.map WorkflowEdge.id).Nodup)
    {f : ValidationReport → Except Failure CompilationResult}
    (hf : ∀ r r' : ValidationReport, ¬ r.ok = true → ¬ r'.ok = true → r.errors.Perm r'.errors → r.warnings = r'.warnings →
      Agree (f r) (f r')) : Agree (V.validate graph true >>= f) (V.validate graph' true >>= f) := by
  have herrors := DraftValidator.errors_perm (V := V) h hnodes hedges true
  rw [DraftValidator.validate, DraftValidator.validate, ← checkIssues_perm herrors]
  cases checkIssues (V.errors graph true) with
  | error e => exact .raised e
  | ok =>
    change Agree (f ⟨V.errors graph true, []⟩) (f ⟨V.errors graph' true, []⟩)
    by_cases hnil : V.errors graph true = []
    · have hnil' : V.errors graph' true = [] := List.nil_perm.1 (hnil ▸ herrors)
      rw [hnil, hnil']
      exact .refl _
    · have hnil' : V.errors graph' true ≠ [] := fun hnil' => hnil (List.perm_nil.1 (hnil' ▸ herrors))
      exact hf _ _ (by simpa [ValidationReport.ok] using hnil) (by simpa [ValidationReport.ok] using hnil') herrors rfl

/-- Two orders of a graph are compiled alike. -/
theorem compile_agree {C : WorkflowCompiler} {graph graph' : AuthorGraph} (h : graph.Reordered graph')
    (hnodes : (nodeIds graph.nodes).Nodup) (hedges : (graph.edges.map WorkflowEdge.id).Nodup) (commit : String) :
    Agree (C.compile graph commit) (C.compile graph' commit) := by
  rw [WorkflowCompiler.compile, WorkflowCompiler.compile, ← h.normalize_eq hnodes hedges]
  refine validate_agree h hnodes hedges fun r r' hr hr' herrors hwarnings => ?_
  dsimp only
  rw [if_pos hr, if_pos hr']
  exact .returned rfl rfl rfl rfl herrors hwarnings

/-! ## The commands -/

namespace DraftValidator

theorem candidateCommandErrors_nil {n : WorkflowNode} {commands : List (List String)} : ∀ {seen : List (List String)},
    candidateCommandErrors n seen commands = [] → commands.Nodup ∧ ∀ argv ∈ commands, argv ∉ seen := by
  induction commands with
  | nil => simp
  | cons argv rest ih =>
    intro seen h
    simp only [candidateCommandErrors, List.append_eq_nil_iff, issueIf_nil, List.contains_eq_mem, decide_eq_false_iff_not] at h
    obtain ⟨⟨hfresh, -⟩, hrest⟩ := h
    obtain ⟨hnd, hseen⟩ := ih hrest
    have hargv : argv ∉ rest := fun hmem => hseen argv hmem (by simp)
    refine ⟨List.nodup_cons.2 ⟨hargv, hnd⟩, List.forall_mem_cons.2 ⟨hfresh, fun other hother hmem => ?_⟩⟩
    exact hseen other hother (List.mem_append_left _ hmem)

/-- A task of a valid graph has no command twice, and a node of a valid graph comes from no other. -/
theorem commands_valid {V : DraftValidator} {graph : AuthorGraph} (h : V.errors graph true = []) {n : WorkflowNode}
    (hn : n ∈ graph.nodes) : n.sourceNodeId = none ∧ (n.nodeType = .agentTask → n.allowedCommandsCandidate.Nodup) := by
  have hnode := (errors_nil h).1 n hn
  simp only [nodeErrors, List.append_eq_nil_iff] at hnode
  obtain ⟨⟨⟨-, hfields⟩, hkind⟩, -⟩ := hnode
  constructor
  · have hsource := List.flatMap_eq_nil_iff.1 hfields ("source_node_id", n.sourceNodeId.isSome) (by simp [compilerOnlyFields])
    simpa using hsource
  · intro htask
    simp only [htask, if_true, agentTaskErrors, List.append_eq_nil_iff] at hkind
    exact (candidateCommandErrors_nil hkind.1.2).1

end DraftValidator

theorem normalizeCommandTemplates_nodup {commands : List (List String)} (h : commands.Nodup) :
    normalizeCommandTemplates commands = commands := by
  unfold normalizeCommandTemplates
  induction commands with
  | nil => rfl
  | cons argv rest ih =>
    obtain ⟨hargv, hrest⟩ := List.nodup_cons.1 h
    have hothers : rest.filter (fun b => !b == argv) = rest :=
      List.filter_eq_self.2 fun b hb => by
        have hne : b ≠ argv := fun heq => hargv (heq ▸ hb)
        simpa using hne
    rw [List.eraseDups_cons, hothers, ih hrest]

/-- What compiling leaves of the commands of a node. -/
structure KeepsCommands (node compiled : WorkflowNode) : Prop where
  id : compiled.id = node.id
  nodeType : compiled.nodeType = node.nodeType
  requiresWrite : compiled.requiresWrite = node.requiresWrite
  source : compiled.sourceNodeId = node.sourceNodeId
  candidate : compiled.allowedCommandsCandidate = node.allowedCommandsCandidate
  effective : node.nodeType = .agentTask →
    compiled.effectiveAllowedCommands = some (normalizeCommandTemplates node.allowedCommandsCandidate)

theorem compileNode_keepsCommands {C : WorkflowCompiler} {node : WorkflowNode} {compiled : Option WorkflowNode}
    (h : C.compileNode node = .ok (compiled, [])) : ∃ n, compiled = some n ∧ KeepsCommands node n := by
  rcases compileNode_ok h with ⟨htype, rfl⟩ | ⟨htype, routed, existing, new, rfl⟩
  · exact ⟨node, rfl, rfl, rfl, rfl, rfl, rfl, fun htask => absurd htask htype⟩
  · exact ⟨_, rfl, rfl, rfl, rfl, rfl, rfl, fun _ => rfl⟩

/-! ### The chain of a task -/

/-- The type, rule and command of a node of a chain. -/
abbrev ChainLabel := NodeType × Option String × Option (List String)

def WorkflowNode.label (n : WorkflowNode) : ChainLabel := (n.nodeType, n.systemRuleId, n.testArgv)

/-- The labels of the guard and the test of each command, in the order of the commands. -/
def pairLabels (commands : List (List String)) : List ChainLabel :=
  (commands.mapIdx fun i argv =>
    [(.commandGuard, some ("write.command_guard." ++ toString (i + 1) ++ ".v1"), none),
      (.test, some ("write.command_test." ++ toString (i + 1) ++ ".v1"), some argv)]).flatten

/-- The labels of the chain of a task with these commands. -/
def commandLabels (commands : List (List String)) : List ChainLabel :=
  (.patchGuard, some "write.patch_guard.v1", none) :: pairLabels commands ++
    [(.riskClassifier, some "write.risk_classifier.v1", none), (.approval, some "write.changeset_approval.v1", none),
      (.mergePatch, some "write.merge_patch.v1", none)]

/-- An edge of the compiler goes from one node to the other when the first succeeds or is approved. -/
def LeadsTo (g : CompiledGraph) (a b : String) : Prop :=
  ∃ e ∈ g.edges, e.fromNode = a ∧ e.toNode = b ∧ e.systemManaged = true ∧
    (e.condition = .success ∨ e.condition = .approved)

/-- These are the nodes of the chain of a task, and they run its commands one after the other. -/
structure RunsInOrder (g : CompiledGraph) (task : String) (commands : List (List String)) (chain : List WorkflowNode) :
    Prop where
  members : ∀ c, c ∈ chain ↔ c ∈ g.nodes ∧ c.sourceNodeId = some task
  labels : chain.map WorkflowNode.label = commandLabels commands
  path : (nodeIds g.nodes).Nodup → (task :: nodeIds chain).IsChain (LeadsTo g)

theorem chainNodes_labels (H : Host) (source : WorkflowNode) (commands : List (List String)) :
    (chainNodes H source (commandSteps commands)).map WorkflowNode.label = commandLabels commands := by
  have hlabel : ∀ steps : List ChainStep, (steps.mapIdx fun i step => stepNode H source step (i + 1)).map WorkflowNode.label =
      steps.map fun step => (step.nodeType, some step.rule, step.testArgv) := by
    intro steps
    rw [map_mapIdx]
    apply List.ext_getElem <;> simp [WorkflowNode.label, stepNode]
  have hpairs : (commandSteps commands).map (fun step => ((step.nodeType, some step.rule, step.testArgv) : ChainLabel)) =
      pairLabels commands := by
    rw [commandSteps, pairLabels, List.map_flatten, map_mapIdx]
    rfl
  rw [chainNodes, hlabel, chainSteps, List.cons_append, List.map_cons, List.map_append, hpairs]
  rfl

/-- Elements that follow each other in a list are related when its pairs of neighbours are. -/
theorem isChain_of_zip {α : Type} {R : α → α → Prop} {l : List α} (h : ∀ p ∈ l.zip l.tail, R p.1 p.2) : l.IsChain R := by
  rw [List.isChain_iff_getElem]
  intro i hi
  refine h (l[i], l[i + 1]) (List.mem_iff_getElem.2 ⟨i, by simp; omega, ?_⟩)
  simp

/-- The edges of a chain lead along it from its task. -/
theorem chainEdges_path {H : Host} {g : CompiledGraph} {edges : List WorkflowEdge} {outputId : String} {source : WorkflowNode}
    (hedges : ∀ e ∈ chainEdges H edges outputId source, e ∈ g.edges) :
    (source.id :: nodeIds (chainNodes H source (testSteps source))).IsChain (LeadsTo g) := by
  have hspec : ∀ spec ∈ chainEdgeSpecs H source.id (testSteps source) (successEdges edges source.id) outputId,
      spec.condition = .success ∨ spec.condition = .approved → LeadsTo g spec.fromNode spec.toNode := by
    intro spec hspec hcondition
    exact ⟨systemEdge H source.id spec, hedges _ (List.mem_map_of_mem hspec), rfl, rfl, rfl, hcondition⟩
  have hids : nodeIds (chainNodes H source (testSteps source)) = (chainIds H source.id (testSteps source)).map Prod.fst := by
    rw [chainNodes_ids, chainIds_fst]
  have hfirst : ∃ rest, chainIds H source.id (testSteps source) =
      (systemId H source.id "write.patch_guard.v1" 1, NodeType.patchGuard) :: rest := ⟨_, List.mapIdx_cons⟩
  have halong : (chainIds H source.id (testSteps source)).IsChain fun p q => LeadsTo g p.1 q.1 := by
    refine isChain_of_zip fun p hp => ?_
    obtain ⟨i, hi, hpi⟩ := List.mem_iff_getElem.1 hp
    have hmem : (⟨p.1.1, p.2.1, "chain", i + 1, if p.1.2 = .approval then .approved else .success⟩ : EdgeSpec) ∈
        chainEdgeSpecs H source.id (testSteps source) (successEdges edges source.id) outputId := by
      simp only [chainEdgeSpecs, List.mem_append, List.mem_mapIdx]
      exact .inl (.inl (.inl (.inr ⟨i, hi, by rw [hpi]⟩)))
    refine hspec _ hmem ?_
    dsimp only
    split
    · exact .inr rfl
    · exact .inl rfl
  obtain ⟨rest, hrest⟩ := hfirst
  have henter : LeadsTo g source.id (systemId H source.id "write.patch_guard.v1" 1) := by
    refine hspec ⟨source.id, _, "enter", 0, .success⟩ ?_ (.inl rfl)
    simp only [chainEdgeSpecs, List.mem_append, List.mem_singleton]
    exact .inl (.inl (.inl (.inl rfl)))
  rw [hids, hrest, List.map_cons]
  refine List.isChain_cons_cons.2 ⟨henter, ?_⟩
  rw [← List.map_cons (f := Prod.fst), ← hrest, List.isChain_map]
  exact halong

/-! ## Order-free compilation -/

section
variable {C : WorkflowCompiler} {graph : AuthorGraph} {commit : String} {result : CompilationResult} {g : CompiledGraph}

/-- The chain of a compiled task with commands runs them in order. -/
theorem runsInOrder_of_compiled {compiled : List WorkflowNode} {edges : List WorkflowEdge} {output m : WorkflowNode}
    {commands : List (List String)} (hout : compiled.filter (·.nodeType = .output) = [output])
    (hnd : (nodeIds compiled).Nodup) (hsource : ∀ n ∈ compiled, n.sourceNodeId = none)
    (hgnodes : g.nodes.Perm (inject C.host compiled edges).1) (hgedges : g.edges.Perm (inject C.host compiled edges).2.1)
    (hm : m ∈ writeTasks compiled) (hcommands : m.effectiveAllowedCommands = some commands) (hne : commands ≠ []) :
    RunsInOrder g m.id commands (chainNodes C.host m (testSteps m)) := by
  have htests : testSteps m = commandSteps commands := by
    have hdocs : isDocsStatic m = false := by simp [isDocsStatic, hcommands, hne]
    simp [testSteps, hdocs, hcommands, hne]
  have hchainSource : ∀ (task c : WorkflowNode) (tests : List ChainStep), c ∈ chainNodes C.host task tests →
      c.sourceNodeId = some task.id := by
    intro task c tests hc
    obtain ⟨i, hi, rfl⟩ := List.mem_mapIdx.1 hc
    rfl
  refine ⟨fun c => ?_, ?_, fun hids => ?_⟩
  · rw [hgnodes.mem_iff, inject, hout]
    constructor
    · intro hc
      exact ⟨List.mem_append_right _ (List.mem_flatMap.2 ⟨m, hm, hc⟩), hchainSource m c _ hc⟩
    · rintro ⟨hc, hid⟩
      rcases List.mem_append.1 hc with hc | hc
      · rw [hsource c hc] at hid
        cases hid
      · obtain ⟨task, htask, hc⟩ := List.mem_flatMap.1 hc
        have hsame : task.id = m.id := Option.some.inj ((hchainSource task c _ hc).symm.trans hid)
        rwa [← List.inj_on_of_nodup_map (writeTasks_nodup hnd) htask hm hsame]
  · rw [htests]
    exact chainNodes_labels C.host m commands
  · have hapart : ∀ c ∈ compiledChains compiled, ∀ text ∈ c.idTexts, idOfText C.host text ∉ nodeIds compiled := by
      have hall : (nodeIds (inject C.host compiled edges).1).Nodup := (hgnodes.map WorkflowNode.id).nodup_iff.1 hids
      rw [inject_nodes hout] at hall
      intro c hc text htext hmem
      refine (List.nodup_append.1 hall).2.2 _ hmem _ (List.mem_map_of_mem ?_) rfl
      exact List.mem_flatMap.2 ⟨c, hc, htext⟩
    have hedges : ∀ e ∈ chainEdges C.host edges output.id m, e ∈ g.edges := by
      intro e he
      rw [hgedges.mem_iff, inject_edges_eq hout hnd hapart]
      exact List.mem_append_right _ (List.mem_flatMap.2 ⟨m, hm, he⟩)
    exact chainEdges_path hedges

/-- A task of a compiled graph has its commands, and its chain runs them, in the author's order. -/
theorem compile_commands (h : C.compile graph commit = .ok result) (hok : result.ok = true) (hg : result.graph = some g)
    {n : WorkflowNode} (hn : n ∈ graph.nodes) (htask : n.nodeType = .agentTask) :
    ∃ m ∈ g.nodes, m.id = n.id ∧ m.allowedCommandsCandidate = n.allowedCommandsCandidate ∧
      m.effectiveAllowedCommands = some n.allowedCommandsCandidate ∧
      (n.requiresWrite = true → n.allowedCommandsCandidate ≠ [] →
        ∃ chain, RunsInOrder g n.id n.allowedCommandsCandidate chain) := by
  obtain ⟨hvalid, compiled, hcompiled, -, hgnodes, hgedges⟩ := compile_graph h hok hg
  have hkeeps := compileNodes_forall₂ compileNode_keepsCommands hcompiled
  have hcompiles := compileNodes_compiles hcompiled
  obtain ⟨output, hout⟩ := compiled_output hvalid hcompiles
  have hcnd : (nodeIds compiled).Nodup := by
    rw [compiled_ids hcompiles]
    exact (normalized_ids graph).nodup_iff.2 (compiled_valid hvalid).1
  have hsource : ∀ c ∈ compiled, c.sourceNodeId = none := by
    intro c hc
    obtain ⟨n', hn', hkept⟩ := forall₂_exists hkeeps.flip c hc
    obtain ⟨author, hauthor, rfl⟩ := mem_normalized.1 hn'
    exact hkept.source.trans (DraftValidator.commands_valid hvalid hauthor).1
  have hgperm : g.nodes.Perm (inject C.host compiled (normalizeAuthorGraph graph).edges).1 :=
    hgnodes ▸ List.perm_insertionSort _ _
  obtain ⟨m, hm, hkept⟩ := forall₂_exists hkeeps _ (mem_normalized.2 ⟨n, hn, rfl⟩)
  have heffective : m.effectiveAllowedCommands = some n.allowedCommandsCandidate := by
    rw [hkept.effective htask]
    exact congrArg some (normalizeCommandTemplates_nodup ((DraftValidator.commands_valid hvalid hn).2 htask))
  have hmg : m ∈ g.nodes := by
    rw [hgperm.mem_iff, inject, hout]
    exact List.mem_append_left _ hm
  refine ⟨m, hmg, hkept.id, hkept.candidate, heffective, fun hwrite hne => ⟨chainNodes C.host m (testSteps m), ?_⟩⟩
  have hmtask : m ∈ writeTasks compiled :=
    mem_writeTasks.2 ⟨hm, hkept.nodeType.trans htask, hkept.requiresWrite.trans hwrite⟩
  have hid : m.id = n.id := hkept.id
  rw [← hid]
  exact runsInOrder_of_compiled hout hcnd hsource hgperm (hgedges ▸ List.perm_insertionSort _ _) hmtask heffective hne

end

/-- Two orders of a graph have one normal form, which normalizing keeps, and are compiled alike; and the commands of every
task keep the author's order, in its effective commands and along its chain. -/
theorem compile_order_free {C : WorkflowCompiler} {graph graph' : AuthorGraph} (h : graph.Reordered graph')
    (hnodes : (nodeIds graph.nodes).Nodup) (hedges : (graph.edges.map WorkflowEdge.id).Nodup) (commit : String) :
    normalizeAuthorGraph graph = normalizeAuthorGraph graph' ∧
    normalizeAuthorGraph (normalizeAuthorGraph graph) = normalizeAuthorGraph graph ∧
    Agree (C.compile graph commit) (C.compile graph' commit) ∧
    ∀ result g, C.compile graph commit = .ok result → result.ok = true → result.graph = some g →
      ∀ n ∈ graph.nodes, n.nodeType = .agentTask →
        ∃ m ∈ g.nodes, m.id = n.id ∧ m.allowedCommandsCandidate = n.allowedCommandsCandidate ∧
          m.effectiveAllowedCommands = some n.allowedCommandsCandidate ∧
          (n.requiresWrite = true → n.allowedCommandsCandidate ≠ [] →
            ∃ chain, RunsInOrder g n.id n.allowedCommandsCandidate chain) :=
  ⟨h.normalize_eq hnodes hedges, normalize_idempotent graph, compile_agree h hnodes hedges commit,
    fun _ _ hresult hok hg _ hn htask => compile_commands hresult hok hg hn htask⟩

/-! ## One graph in two orders -/

/-- A compiler whose digests differ. -/
def mixedCompiler : WorkflowCompiler :=
  { sampleCompiler with
    host := { digestHost with
      sha256 := fun content => hexText (content.foldl (fun h byte =>
        (h + byte.toNat + 1) * 0xcea9fcdc55c110aa28dad5f378ad5b31bc8cb3f8a2bc53550012386321c5ae13 % 2 ^ 256) 0) } }

def twoCommands : List (List String) := [["pytest", "-q"], ["mkdocs", "build"]]

def writeTask : WorkflowNode :=
  { id := "write", nodeType := .agentTask, title := "Write", taskKind := some .docs, instruction := some "Write a guide",
    recommendedAgents := [⟨"writer", 2, "docs"⟩, ⟨"editor", 2, "docs"⟩], allowedFilesCandidate := ["a.md", "b.md"],
    newFilesCandidate := ["c.md", "d.md"], allowedCommandsCandidate := twoCommands, requiresWrite := true }

def checkNode : WorkflowNode :=
  { id := "check", nodeType := .ifNode, title := "Check",
    ifCondition := some ⟨"start", "status", .isIn, .tokens ["completed", "failed"]⟩ }

def orderedGraph : AuthorGraph where
  nodes := [{ id := "start", nodeType := .input, title := "Input" }, writeTask, checkNode,
    { id := "end", nodeType := .output, title := "Output" }]
  edges := [⟨"e1", "start", "write", .success, false⟩, ⟨"e2", "write", "check", .success, false⟩,
    ⟨"e3", "check", "end", .matched, false⟩, ⟨"e4", "check", "end", .notMatched, false⟩]

/-- The same graph, written from its end. -/
def shuffledGraph : AuthorGraph where
  nodes := [{ id := "end", nodeType := .output, title := "Output" },
    { checkNode with ifCondition := some ⟨"start", "status", .isIn, .tokens ["failed", "completed"]⟩ },
    { writeTask with
      recommendedAgents := [⟨"editor", 2, "docs"⟩, ⟨"writer", 2, "docs"⟩], allowedFilesCandidate := ["b.md", "a.md"],
      newFilesCandidate := ["d.md", "c.md"] },
    { id := "start", nodeType := .input, title := "Input" }]
  edges := orderedGraph.edges.reverse

theorem orderedGraph_shuffled : orderedGraph.Reordered shuffledGraph where
  version := rfl
  nodes := by
    have hkept : ∀ n : WorkflowNode, n.Reordered n := fun n =>
      .intro (by cases n.ifCondition <;> constructor; exact .same _) (.refl _) (.refl _) (.refl _)
    refine ⟨orderedGraph.nodes.reverse, (List.reverse_perm _).symm, .cons (hkept _) (.cons ?_ (.cons ?_ (.cons (hkept _) .nil)))⟩
    · exact .intro (.some (.operands _ _ (.swap _ _ _))) (.refl _) (.refl _) (.refl _)
    · exact .intro .none (.swap _ _ _) (.swap _ _ _) (.swap _ _ _)
  edges := (List.reverse_perm _).symm

theorem orderedGraph_small : DraftValidator.sizeErrors orderedGraph = [] := by
  have hwidth : Json.width noFloats orderedGraph.dump ≤ 100000 := by
    simp only [AuthorGraph.dump, WorkflowNode.dump, WorkflowEdge.dump, IfCondition.dump, IfValue.dump, orderedGraph,
      AgentRecommendation.dump, writeTask, checkNode, twoCommands, width_record, Json.widthFields, Json.width, Json.widthItems, listOf,
      optional, dumpCommands, List.map_cons, List.map_nil]
    decide +kernel
  have hbytes := length_canonicalJson_le orderedGraph.dump
  have hsize : (canonicalJson orderedGraph.dump).length ≤ maxAuthorGraphBytes := by
    rw [maxAuthorGraphBytes]
    omega
  simp only [DraftValidator.sizeErrors, List.append_eq_nil_iff, issueIf_nil, decide_eq_false_iff_not, not_lt]
  exact ⟨⟨by simp [orderedGraph, maxAuthorNodes], by simp [orderedGraph, maxAuthorEdges]⟩, hsize⟩

theorem orderedGraph_compiled : ∃ result g, mixedCompiler.compile orderedGraph (filler 40 'c') = .ok result ∧
    result.ok = true ∧ result.graph = some g ∧ (nodeIds g.nodes).Nodup := by
  have hvalid : mixedCompiler.validator.errors orderedGraph true = [] := by
    simp only [DraftValidator.errors, orderedGraph_small, List.nil_append]
    decide +kernel
  have hparts : (mixedCompiler.compileNodes (normalizeAuthorGraph orderedGraph).nodes).toOption.any (fun p => p.2.isEmpty &&
      (inject mixedCompiler.host p.1 (normalizeAuthorGraph orderedGraph).edges).1.length ≤ 300 &&
      (inject mixedCompiler.host p.1 (normalizeAuthorGraph orderedGraph).edges).2.1.length ≤ 600 &&
      (inject mixedCompiler.host p.1 (normalizeAuthorGraph orderedGraph).edges).2.2.isEmpty &&
      (nodeIds (inject mixedCompiler.host p.1 (normalizeAuthorGraph orderedGraph).edges).1).Nodup) = true := by
    decide +kernel
  cases hcompiled : mixedCompiler.compileNodes (normalizeAuthorGraph orderedGraph).nodes with
  | error e => simp [hcompiled, Except.toOption] at hparts
  | ok p =>
    obtain ⟨compiled, errors⟩ := p
    simp only [hcompiled, Except.toOption, Option.any_some, Bool.and_eq_true, List.isEmpty_iff, decide_eq_true_eq] at hparts
    obtain ⟨⟨⟨⟨rfl, hnodes⟩, hedges⟩, hissues⟩, hnd⟩ := hparts
    obtain ⟨result, hresult, herrors, hg⟩ := compile_of_valid hvalid hcompiled (isSha256Hex_hexText _)
      (show isObjectId (filler 40 'c') = true by decide +kernel) (by decide) (by decide +kernel) hnodes hedges
    refine ⟨result, _, hresult, ?_, hg, ?_⟩
    · rw [CompilationResult.ok, hg, herrors]
      exact List.isEmpty_iff.2 hissues
    · exact ((List.perm_insertionSort _ _).map WorkflowNode.id).nodup_iff.2 hnd

theorem compile_order_free_shuffled :
    Agree (mixedCompiler.compile orderedGraph (filler 40 'c')) (mixedCompiler.compile shuffledGraph (filler 40 'c')) ∧
    ∃ result g, mixedCompiler.compile orderedGraph (filler 40 'c') = .ok result ∧ result.graph = some g ∧
      ∃ chain, chain.map WorkflowNode.label = commandLabels twoCommands ∧
        ("write" :: nodeIds chain).IsChain (LeadsTo g) := by
  obtain ⟨-, -, hagree, hcommands⟩ := compile_order_free (C := mixedCompiler) orderedGraph_shuffled (by decide) (by decide)
    (filler 40 'c')
  obtain ⟨result, g, hresult, hok, hg, hnd⟩ := orderedGraph_compiled
  obtain ⟨m, -, -, -, -, hchain⟩ := hcommands result g hresult hok hg writeTask (by simp [orderedGraph]) rfl
  obtain ⟨chain, hruns⟩ := hchain rfl (by simp [writeTask, twoCommands])
  exact ⟨hagree, result, g, hresult, hg, chain, hruns.labels, hruns.path hnd⟩

end AgentHub
