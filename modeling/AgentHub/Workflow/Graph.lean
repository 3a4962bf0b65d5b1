import AgentHub.Lib.Kahn
import AgentHub.Lib.Reach
import AgentHub.Protocol
import Mathlib.Data.List.Dedup
/-!
# Graph rules

What the draft validator, the compiler and the executable validator share: lookups by id, reports,
reachability and cycles, the edge conditions a node can emit, and the documentation-only file scope.
-/

namespace AgentHub

open Lib

/-! ## Reports -/

structure ValidationReport where
  errors : List ValidationIssue := []
  warnings : List ValidationIssue := []
  deriving DecidableEq, Repr

def ValidationReport.ok (r : ValidationReport) : Bool := r.errors.isEmpty

/-- `_issue`. -/
def issue (code message : String) (nodeId : Option String := none) (edgeId : Option String := none) :
    ValidationIssue := ⟨code, message, nodeId, edgeId⟩

/-- One issue when the check fails. -/
def issueIf (b : Bool) (i : ValidationIssue) : List ValidationIssue := if b then [i] else []

@[simp] theorem issueIf_nil {b : Bool} {i : ValidationIssue} : issueIf b i = [] ↔ b = false := by
  cases b <;> simp [issueIf]

/-! ## Lookups -/

/-- `{node.id: node for node in nodes}`: the last node of an id wins. -/
def nodeById (nodes : List WorkflowNode) (id : String) : Option WorkflowNode :=
  (nodes.filter (fun n => n.id = id)).getLast?

def nodeIds (nodes : List WorkflowNode) : List String := nodes.map WorkflowNode.id

/-- The ids in the order a report lists them. -/
def sortedIds (ids : List String) : List String := ids.dedup.insertionSort (· ≤ ·)

def duplicates (ids : List String) : List String := (sortedIds ids).filter (fun id => 1 < ids.count id)

def byNodeId (nodes : List WorkflowNode) : List WorkflowNode := nodes.insertionSort (fun a b => a.id ≤ b.id)

def byEdgeId (edges : List WorkflowEdge) : List WorkflowEdge := edges.insertionSort (fun a b => a.id ≤ b.id)

/-- The edges whose ends both exist. -/
def validEdges (nodes : List WorkflowNode) (edges : List WorkflowEdge) : List WorkflowEdge :=
  (byEdgeId edges).filter (fun e => e.fromNode ∈ nodeIds nodes ∧ e.toNode ∈ nodeIds nodes)

def incoming (edges : List WorkflowEdge) (id : String) : List WorkflowEdge := edges.filter (fun e => e.toNode = id)

def outgoing (edges : List WorkflowEdge) (id : String) : List WorkflowEdge := edges.filter (fun e => e.fromNode = id)

/-- The edges a node takes under a condition. -/
def outgoingOn (edges : List WorkflowEdge) (id : String) (condition : EdgeCondition) : List WorkflowEdge :=
  (outgoing edges id).filter (fun e => e.condition = condition)

theorem mem_outgoingOn {edges : List WorkflowEdge} {id : String} {condition : EdgeCondition} {e : WorkflowEdge} :
    e ∈ outgoingOn edges id condition ↔ e ∈ edges ∧ e.fromNode = id ∧ e.condition = condition := by
  simp only [outgoingOn, outgoing, List.mem_filter, decide_eq_true_eq, and_assoc]

theorem nodeById_eq_some {nodes : List WorkflowNode} (hnd : (nodeIds nodes).Nodup) {id : String} {n : WorkflowNode} :
    nodeById nodes id = some n ↔ n ∈ nodes ∧ n.id = id := by
  unfold nodeById
  constructor
  · intro h
    simpa using List.mem_filter.1 (List.mem_of_getLast? h)
  · rintro ⟨hn, rfl⟩
    cases h : (nodes.filter (fun n' => n'.id = n.id)).getLast? with
    | none =>
      have hmem : n ∈ nodes.filter (fun n' => n'.id = n.id) := by simp [hn]
      rw [List.getLast?_eq_none_iff.1 h] at hmem
      simp at hmem
    | some n' =>
      obtain ⟨hn', hid⟩ := List.mem_filter.1 (List.mem_of_getLast? h)
      rw [List.inj_on_of_nodup_map hnd hn' hn (by simpa using hid)]

theorem duplicates_eq_nil {ids : List String} : duplicates ids = [] ↔ ids.Nodup := by
  have hmem : ∀ id, id ∈ sortedIds ids ↔ id ∈ ids := by
    intro id
    rw [sortedIds, (List.perm_insertionSort _ _).mem_iff, List.mem_dedup]
  rw [duplicates, List.filter_eq_nil_iff, List.nodup_iff_count_le_one]
  constructor
  · intro h id
    by_cases hid : id ∈ ids
    · simpa using h id ((hmem id).2 hid)
    · rw [List.count_eq_zero_of_not_mem hid]; exact Nat.zero_le 1
  · intro h id _
    simpa using h id

theorem mem_validEdges {nodes : List WorkflowNode} {edges : List WorkflowEdge} {e : WorkflowEdge} :
    e ∈ validEdges nodes edges ↔ e ∈ edges ∧ e.fromNode ∈ nodeIds nodes ∧ e.toNode ∈ nodeIds nodes := by
  simp [validEdges, byEdgeId, (List.perm_insertionSort _ _).mem_iff]

/-! ## Reachability and cycles -/

/-- `_reachable`, `_reachable_from`. -/
def reachable (start : String) (edges : List WorkflowEdge) : List String :=
  Reach.search (fun id => (outgoing edges id).map WorkflowEdge.toNode) (edges.length + 1) start

/-- `_reverse_reachable`. -/
def reverseReachable (target : String) (edges : List WorkflowEdge) : List String :=
  Reach.search (fun id => (incoming edges id).map WorkflowEdge.fromNode) (edges.length + 1) target

/-- `_contains_cycle`. -/
def containsCycle (nodes : List WorkflowNode) (edges : List WorkflowEdge) : Bool :=
  (Kahn.order (nodeIds nodes).dedup (edges.map fun e => (e.fromNode, e.toNode))).length ≠ (nodeIds nodes).dedup.length

/-- There is an edge from `a` to `b`. -/
def Adjacent (edges : List WorkflowEdge) (a b : String) : Prop := ∃ e ∈ edges, e.fromNode = a ∧ e.toNode = b

theorem mem_reachable {start v : String} {edges : List WorkflowEdge} :
    v ∈ reachable start edges ↔ Relation.ReflTransGen (Adjacent edges) start v := by
  have hstep : (fun a b => b ∈ (outgoing edges a).map WorkflowEdge.toNode) = Adjacent edges := by
    funext a b
    simp [outgoing, Adjacent, and_assoc]
  have hall : ∀ u, ∀ w ∈ (outgoing edges u).map WorkflowEdge.toNode, w ∈ start :: edges.map WorkflowEdge.toNode := by
    intro u w hw
    obtain ⟨e, he, rfl⟩ := List.mem_map.1 hw
    exact List.mem_cons_of_mem _ (List.mem_map_of_mem (List.mem_of_mem_filter he))
  rw [reachable, Reach.mem_search hall (by simp) (by simp), hstep]

theorem mem_reverseReachable {target v : String} {edges : List WorkflowEdge} :
    v ∈ reverseReachable target edges ↔ Relation.ReflTransGen (Adjacent edges) v target := by
  have hstep : (fun a b => b ∈ (incoming edges a).map WorkflowEdge.fromNode) = Function.swap (Adjacent edges) := by
    funext a b
    simp [incoming, Adjacent, Function.swap, and_comm, and_assoc]
  have hall : ∀ u, ∀ w ∈ (incoming edges u).map WorkflowEdge.fromNode, w ∈ target :: edges.map WorkflowEdge.fromNode := by
    intro u w hw
    obtain ⟨e, he, rfl⟩ := List.mem_map.1 hw
    exact List.mem_cons_of_mem _ (List.mem_map_of_mem (List.mem_of_mem_filter he))
  rw [reverseReachable, Reach.mem_search hall (by simp) (by simp), hstep, Relation.reflTransGen_swap]

/-! ## Conditions -/

/-- The conditions a node can emit. -/
def NodeType.conditions : NodeType → List EdgeCondition
  | .ifNode => [.matched, .notMatched, .failure]
  | .approval => [.approved, .rejected]
  | _ => [.success, .failure]

/-! ## Risk -/

/-- `_max_risk`. -/
def maxRisk (left right : RiskLevel) : RiskLevel := if right.index ≤ left.index then left else right

/-! ## Documentation scope -/

/-- `str.casefold` as far as its result is ASCII text: letters, and the characters that fold to letters. -/
def casefoldChar (c : Char) : List Char :=
  if c.val = 0xDF ∨ c.val = 0x1E9E then ['s', 's']
  else if c.val = 0x17F then ['s']
  else if c.val = 0x212A then ['k']
  else if c.val = 0xFB00 then ['f', 'f']
  else if c.val = 0xFB01 then ['f', 'i']
  else if c.val = 0xFB02 then ['f', 'l']
  else if c.val = 0xFB03 then ['f', 'f', 'i']
  else if c.val = 0xFB04 then ['f', 'f', 'l']
  else if c.val = 0xFB05 ∨ c.val = 0xFB06 then ['s', 't']
  else [c.toLower]

def casefold (s : List Char) : List Char := s.flatMap casefoldChar

/-- `PurePosixPath(value).name`: the last part that is neither empty nor a dot. -/
def pathName (value : String) : List Char :=
  ((value.toList.splitOn '/').filter (fun part => part ≠ [] ∧ part ≠ ['.'])).getLastD []

/-- The name split at its last dot, when that dot neither starts nor ends it. -/
def splitName (name : List Char) : List Char × List Char :=
  let tail := name.reverse.takeWhile (· ≠ '.')
  let head := (name.reverse.drop (tail.length + 1)).reverse
  if tail.length < name.length ∧ head ≠ [] ∧ tail ≠ [] then (head, '.' :: tail.reverse) else (name, [])

def docExtensions : List (List Char) := [".md", ".mdx", ".rst", ".txt"].map String.toList

def sensitiveDocStems : List (List Char) :=
  ["requirements", "constraints", "manifest", "config", "policy"].map String.toList

def sensitiveDocNames : List (List Char) := ["package.json", "pyproject.toml"].map String.toList

/-- A path whose extension is documentation and whose name is not sensitive. -/
def isDocPath (value : String) : Bool :=
  let name := pathName value
  let stem := casefold (splitName name).1
  docExtensions.contains (casefold (splitName name).2) && !sensitiveDocNames.contains (casefold name) &&
    !sensitiveDocStems.any fun token => stem = token || (token ++ ['-']).isPrefixOf stem || (token ++ ['_']).isPrefixOf stem

/-- `_pure_docs_scope`: there are paths and all are documentation. -/
def pureDocsScope (node : WorkflowNode) : Bool :=
  let paths := node.effectiveAllowedFiles.getD [] ++ node.effectiveNewFiles.getD []
  !paths.isEmpty && paths.all isDocPath

end AgentHub
