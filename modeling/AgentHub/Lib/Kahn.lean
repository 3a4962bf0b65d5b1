import Mathlib.Data.List.Sort
import Mathlib.Data.List.Perm.Subperm
import Mathlib.Data.List.Count
import Mathlib.Logic.Relation
import Mathlib.Order.Basic
import Mathlib.Tactic.Common
/-!
# Kahn's topological sort

Nodes are taken from a queue of those with no unprocessed predecessor; taking a node lowers the
indegree of its targets, and a target whose indegree reaches zero joins the queue.
`order_complete`: on an acyclic graph every node is taken. `order_respects`: a node is taken after
all its predecessors. So the result has as many nodes as the graph exactly when it is acyclic.
-/

namespace AgentHub.Lib.Kahn

variable {α : Type} [LinearOrder α]

/-- Lower the indegree of each target; one that reaches zero joins the queue. -/
def relax : List α → (α → Int) → List α → (α → Int) × List α
  | [], d, q => (d, q)
  | t :: ts, d, q =>
    let d' := Function.update d t (d t - 1)
    relax ts d' (if d' t = 0 then q ++ [t] else q)

/-- Take nodes from the queue until it is empty. -/
def loop (targets : α → List α) : Nat → (α → Int) → List α → List α → List α
  | 0, _, _, done => done
  | _ + 1, _, [], done => done
  | n + 1, d, c :: q, done =>
    let s := relax ((targets c).insertionSort (· ≤ ·)) d q
    loop targets n s.1 s.2 (done ++ [c])

def indegree (edges : List (α × α)) (v : α) : Int := edges.countP (fun e => e.2 = v)

def targets (edges : List (α × α)) (u : α) : List α := (edges.filter (fun e => e.1 = u)).map Prod.snd

/-- The nodes in the order they are taken. -/
def order (nodes : List α) (edges : List (α × α)) : List α :=
  loop (targets edges) nodes.length (indegree edges)
    ((nodes.filter (fun v => indegree edges v = 0)).insertionSort (· ≤ ·)) []

/-! ## One node -/

theorem relax_spec (ts : List α) :
    ∀ (d : α → Int) (q : List α), (∀ v, (ts.count v : Int) ≤ d v) → q.Nodup → (∀ v ∈ q, d v = 0) →
      (∀ v, (relax ts d q).1 v = d v - ts.count v) ∧ (relax ts d q).2.Nodup ∧
      ∀ v, v ∈ (relax ts d q).2 ↔ v ∈ q ∨ (v ∈ ts ∧ d v = ts.count v) := by
  induction ts with
  | nil => intro d q _ hq _; simp [relax, hq]
  | cons t ts ih =>
    intro d q hle hq hzero
    have ht : (1 : Int) ≤ d t := by
      have := hle t
      rw [List.count_cons_self] at this
      push_cast at this
      omega
    have htq : t ∉ q := fun h => by have := hzero t h; omega
    have hcount : ∀ v, ((t :: ts).count v : Int) = ts.count v + if v = t then 1 else 0 := by
      intro v
      by_cases h : v = t
      · subst h; simp
      · simp [h, List.count_cons_of_ne (Ne.symm h)]
    simp only [relax]
    obtain ⟨d', hd'⟩ : ∃ d', d' = Function.update d t (d t - 1) := ⟨_, rfl⟩
    rw [← hd']
    have hdv : ∀ v, d' v = d v - if v = t then 1 else 0 := by
      intro v
      by_cases h : v = t
      · subst h; simp [hd']
      · simp [hd', h]
    obtain ⟨q', hq'⟩ : ∃ q', q' = if d' t = 0 then q ++ [t] else q := ⟨_, rfl⟩
    rw [← hq']
    have hmem : ∀ v, v ∈ q' ↔ v ∈ q ∨ (v = t ∧ d' t = 0) := by
      intro v
      rw [hq']
      split
      · next h0 => simp [h0]
      · next h0 => simp [h0]
    have hnodup : q'.Nodup := by
      rw [hq']
      split
      · exact List.Nodup.append hq (List.nodup_singleton t) (by simpa using htq)
      · exact hq
    have hzero' : ∀ v ∈ q', d' v = 0 := by
      intro v hv
      rcases (hmem v).1 hv with hv | ⟨rfl, h0⟩
      · have hne : v ≠ t := fun h => htq (h ▸ hv)
        simpa [hdv, hne] using hzero v hv
      · exact h0
    have hle' : ∀ v, (ts.count v : Int) ≤ d' v := by
      intro v
      have := hle v
      rw [hcount] at this
      rw [hdv]
      omega
    obtain ⟨h1, h2, h3⟩ := ih d' q' hle' hnodup hzero'
    refine ⟨fun v => by rw [h1, hdv, hcount]; omega, h2, fun v => ?_⟩
    have hv := hle' v
    rw [h3, hmem, hcount]
    have hts : v ∈ ts ↔ 0 < ts.count v := List.count_pos_iff.symm
    by_cases hvt : v = t
    · subst hvt
      have hvq := htq
      have hd0 := hdv v
      simp only [if_true, true_and, List.mem_cons, true_or, hvq, false_or, hts] at hd0 ⊢
      omega
    · have hd0 := hdv v
      simp only [hvt, if_false, false_and, or_false, List.mem_cons, false_or, hts] at hd0 ⊢
      rw [hd0]
      simp

/-! ## The invariant of the loop -/

/-- The edges into `v` from nodes not taken yet. -/
def remaining (edges : List (α × α)) (done : List α) (v : α) : Nat :=
  edges.countP (fun e => decide (e.2 = v) && decide (e.1 ∉ done))

/-- Every node of the list comes after the sources of its edges. -/
def Respects (edges : List (α × α)) (done : List α) : Prop :=
  ∀ l v r, done = l ++ v :: r → ∀ u, (u, v) ∈ edges → u ∈ l

structure Inv (nodes : List α) (edges : List (α × α)) (d : α → Int) (q done : List α) : Prop where
  nodup : (done ++ q).Nodup
  sub : ∀ v ∈ done ++ q, v ∈ nodes
  degree : ∀ v, d v = remaining edges done v
  ready : ∀ v ∈ nodes, v ∈ done ++ q ↔ d v = 0
  respects : Respects edges done

theorem count_targets (edges : List (α × α)) (u v : α) :
    (targets edges u).count v = edges.countP (fun e => decide (e.2 = v) && decide (e.1 = u)) := by
  simp only [targets, List.count, List.countP_map, List.countP_filter]
  refine List.countP_congr fun e _ => ?_
  simp [Function.comp]

/-- Taking `c` removes exactly its own edges from what remains. -/
theorem remaining_take {edges : List (α × α)} {done : List α} {c : α} (hc : c ∉ done) (v : α) :
    remaining edges done v = remaining edges (done ++ [c]) v + (targets edges c).count v := by
  rw [count_targets]
  unfold remaining
  induction edges with
  | nil => rfl
  | cons e es ih =>
    simp only [List.countP_cons, ih]
    by_cases h1 : e.2 = v <;> by_cases h2 : e.1 = c <;> by_cases h3 : e.1 ∈ done <;> simp_all <;> omega

theorem remaining_eq_zero {edges : List (α × α)} {done : List α} {v : α} (h : remaining edges done v = 0) :
    ∀ u, (u, v) ∈ edges → u ∈ done := by
  intro u hu
  by_contra hn
  have := List.countP_eq_zero.1 h (u, v) hu
  simp [hn] at this

omit [LinearOrder α] in
theorem Respects.snoc {edges : List (α × α)} {done : List α} {c : α} (h : Respects edges done)
    (hc : ∀ u, (u, c) ∈ edges → u ∈ done) : Respects edges (done ++ [c]) := by
  intro l v r heq u hu
  rcases List.eq_nil_or_concat r with rfl | ⟨r', z, rfl⟩
  · obtain ⟨h1, h2⟩ := List.append_inj' heq rfl
    subst h1
    have hv : c = v := by simpa using h2
    exact hc u (hv ▸ hu)
  · have heq' : done ++ [c] = (l ++ v :: r') ++ [z] := by simpa using heq
    obtain ⟨h1, -⟩ := List.append_inj' heq' rfl
    exact h l v r' h1 u hu

variable {nodes : List α} {edges : List (α × α)}

theorem Inv.step (htarget : ∀ e ∈ edges, e.2 ∈ nodes) {d : α → Int} {c : α} {q done : List α}
    (h : Inv nodes edges d (c :: q) done) :
    Inv nodes edges (relax ((targets edges c).insertionSort (· ≤ ·)) d q).1
      (relax ((targets edges c).insertionSort (· ≤ ·)) d q).2 (done ++ [c]) := by
  have hperm := List.perm_insertionSort (· ≤ ·) (targets edges c)
  have hnd := h.nodup
  rw [List.nodup_append] at hnd
  obtain ⟨hdone, hcq, hdisj⟩ := hnd
  have hc : c ∉ done := fun hc => hdisj c hc c (by simp) rfl
  have hrem := fun v => @remaining_take _ _ edges _ _ hc v
  have hle : ∀ v, (((targets edges c).insertionSort (· ≤ ·)).count v : Int) ≤ d v := by
    intro v
    rw [hperm.count_eq, h.degree, hrem v]
    push_cast
    omega
  have hzero : ∀ v ∈ done ++ c :: q, d v = 0 := fun v hv => (h.ready v (h.sub v hv)).1 hv
  obtain ⟨h1, h2, h3⟩ := relax_spec _ d q hle (List.nodup_cons.1 hcq).2 fun v hv => hzero v (by simp [hv])
  have hts : ∀ v, v ∈ (targets edges c).insertionSort (· ≤ ·) → v ∈ nodes := by
    intro v hv
    obtain ⟨e, he, rfl⟩ := List.mem_map.1 (hperm.mem_iff.1 hv)
    exact htarget e (List.mem_filter.1 he).1
  have hpos : ∀ v, v ∈ (targets edges c).insertionSort (· ≤ ·) →
      0 < ((targets edges c).insertionSort (· ≤ ·)).count v := fun v hv => List.count_pos_iff.2 hv
  refine ⟨?_, ?_, ?_, ?_, ?_⟩
  · rw [List.append_assoc, List.nodup_append]
    refine ⟨hdone, ?_, ?_⟩
    · rw [List.singleton_append, List.nodup_cons]
      refine ⟨fun hv => ?_, h2⟩
      rcases (h3 c).1 hv with hv | ⟨hv, heq⟩
      · exact (List.nodup_cons.1 hcq).1 hv
      · have := hpos c hv
        have := hzero c (by simp)
        omega
    · rintro a ha b hb rfl
      rcases List.mem_append.1 hb with hb | hb
      · exact hc (List.mem_singleton.1 hb ▸ ha)
      · rcases (h3 a).1 hb with hb | ⟨hb, heq⟩
        · exact hdisj a ha a (by simp [hb]) rfl
        · have := hpos a hb
          have := hzero a (by simp [ha])
          omega
  · intro v hv
    simp only [List.mem_append, List.mem_singleton] at hv
    rcases hv with (hv | rfl) | hv
    · exact h.sub v (by simp [hv])
    · exact h.sub v (by simp)
    · rcases (h3 v).1 hv with hv | ⟨hv, -⟩
      · exact h.sub v (by simp [hv])
      · exact hts v hv
  · intro v
    rw [h1, h.degree, hperm.count_eq, hrem v]
    push_cast
    omega
  · intro v hv
    rw [h1]
    have hr := h.ready v hv
    have hl := hle v
    simp only [List.mem_append, List.mem_cons, List.not_mem_nil, or_false, h3] at hr ⊢
    constructor
    · rintro ((hm | rfl) | hm | ⟨-, heq⟩)
      · have := hr.1 (.inl hm); omega
      · have := hr.1 (.inr (.inl rfl)); omega
      · have := hr.1 (.inr (.inr hm)); omega
      · omega
    · intro h0
      by_cases hm : v ∈ (targets edges c).insertionSort (· ≤ ·)
      · exact .inr (.inr ⟨hm, by omega⟩)
      · have hcount := List.count_eq_zero.2 hm
        rcases hr.2 (by omega) with hm | rfl | hm
        · exact .inl (.inl hm)
        · exact .inl (.inr rfl)
        · exact .inr (.inl hm)
  · refine h.respects.snoc (remaining_eq_zero ?_)
    have := hzero c (by simp)
    rw [h.degree] at this
    exact_mod_cast this

/-- With fuel for the nodes not yet taken, the loop ends with an empty queue. -/
theorem Inv.loop (htarget : ∀ e ∈ edges, e.2 ∈ nodes) :
    ∀ (n : Nat) {d : α → Int} {q done : List α}, Inv nodes edges d q done → nodes.length ≤ done.length + n →
      ∃ d', Inv nodes edges d' [] (Kahn.loop (targets edges) n d q done) := by
  intro n
  induction n with
  | zero =>
    intro d q done h hlen
    have hle := (h.nodup.subperm (fun v hv => h.sub v hv)).length_le
    have hq : q = [] := by
      rw [List.length_append] at hle
      exact List.length_eq_zero_iff.1 (by omega)
    subst hq
    exact ⟨d, h⟩
  | succ n ih =>
    intro d q done h hlen
    match q with
    | [] => exact ⟨d, h⟩
    | c :: q =>
      refine ih (h.step htarget) ?_
      simp only [List.length_append, List.length_cons, List.length_nil]
      omega

theorem order_inv (hnodes : nodes.Nodup) (htarget : ∀ e ∈ edges, e.2 ∈ nodes) :
    ∃ d, Inv nodes edges d [] (order nodes edges) := by
  have hperm := List.perm_insertionSort (· ≤ ·) (nodes.filter (fun v => indegree edges v = 0))
  refine Inv.loop htarget nodes.length (d := indegree edges) ⟨?_, ?_, ?_, ?_, ?_⟩ (by simp)
  · simpa using hperm.nodup_iff.2 (hnodes.filter _)
  · intro v hv
    exact (List.mem_filter.1 (hperm.mem_iff.1 (by simpa using hv))).1
  · intro v
    simp [indegree, remaining]
  · intro v hv
    rw [List.nil_append, hperm.mem_iff]
    simp [hv]
  · intro l v r h
    simp at h

/-! ## Results -/

theorem order_sub (hnodes : nodes.Nodup) (htarget : ∀ e ∈ edges, e.2 ∈ nodes) :
    ∀ v ∈ order nodes edges, v ∈ nodes := by
  obtain ⟨d, h⟩ := order_inv hnodes htarget
  exact fun v hv => h.sub v (by simp [hv])

theorem order_nodup (hnodes : nodes.Nodup) (htarget : ∀ e ∈ edges, e.2 ∈ nodes) : (order nodes edges).Nodup := by
  obtain ⟨d, h⟩ := order_inv hnodes htarget
  simpa using h.nodup

/-- A node is taken after all its predecessors. -/
theorem order_respects (hnodes : nodes.Nodup) (htarget : ∀ e ∈ edges, e.2 ∈ nodes) :
    Respects edges (order nodes edges) := by
  obtain ⟨d, h⟩ := order_inv hnodes htarget
  exact h.respects

/-- When as many nodes are taken as there are, all are. -/
theorem mem_order_of_length (hnodes : nodes.Nodup) (htarget : ∀ e ∈ edges, e.2 ∈ nodes)
    (hlen : (order nodes edges).length = nodes.length) {v : α} (hv : v ∈ nodes) : v ∈ order nodes edges := by
  have hsub := (order_nodup hnodes htarget).subperm (order_sub hnodes htarget)
  exact (hsub.perm_of_length_le (by omega)).mem_iff.2 hv

/-- On an acyclic graph every node is taken. -/
theorem order_complete (hnodes : nodes.Nodup) (htarget : ∀ e ∈ edges, e.2 ∈ nodes)
    (hsource : ∀ e ∈ edges, e.1 ∈ nodes) (rank : α → Nat) (hrank : ∀ e ∈ edges, rank e.1 < rank e.2) :
    (order nodes edges).length = nodes.length := by
  obtain ⟨d, h⟩ := order_inv hnodes htarget
  have hall : ∀ n v, rank v = n → v ∈ nodes → v ∈ order nodes edges := by
    intro n
    induction n using Nat.strong_induction_on with
    | _ n ih =>
      intro v hn hv
      have hzero : remaining edges (order nodes edges) v = 0 := by
        refine List.countP_eq_zero.2 fun e he => ?_
        simp only [Bool.and_eq_true, decide_eq_true_eq, not_and, not_not]
        rintro rfl
        exact ih _ (hn ▸ hrank e he) e.1 rfl (hsource e he)
      have := (h.ready v hv).2 (by rw [h.degree, hzero]; rfl)
      simpa using this
  have h1 := ((order_nodup hnodes htarget).subperm (order_sub hnodes htarget)).length_le
  have h2 := (hnodes.subperm fun v hv => hall _ v rfl hv).length_le
  omega

/-- When every node is taken, the position in the order grows along every edge. -/
theorem idxOf_lt (hnodes : nodes.Nodup) (htarget : ∀ e ∈ edges, e.2 ∈ nodes)
    (hlen : (order nodes edges).length = nodes.length) {u v : α} (he : (u, v) ∈ edges) :
    (order nodes edges).idxOf u < (order nodes edges).idxOf v := by
  have hv := mem_order_of_length hnodes htarget hlen (htarget _ he)
  obtain ⟨l, r, heq⟩ := List.append_of_mem hv
  have hu := order_respects hnodes htarget l v r heq u he
  have hnd := order_nodup hnodes htarget
  rw [heq] at hnd ⊢
  have hvl : v ∉ l := fun hvl => (List.nodup_append.1 hnd).2.2 v hvl v (by simp) rfl
  rw [List.idxOf_append_of_mem hu, List.idxOf_append_of_notMem hvl]
  have := List.idxOf_lt_length_iff.2 hu
  simp only [List.idxOf_cons_self]
  omega

/-- The nodes from which a node can be reached by at least one edge. -/
noncomputable def ancestors (nodes : List α) (edges : List (α × α)) (v : α) : List α :=
  open Classical in nodes.filter fun u => Relation.TransGen (fun a b => (a, b) ∈ edges) u v

omit [LinearOrder α] in
/-- Without a cycle an edge leads to a node with more ancestors. -/
theorem ancestors_lt (hsource : ∀ e ∈ edges, e.1 ∈ nodes) (hacyclic : ∀ v, ¬ Relation.TransGen (fun a b => (a, b) ∈ edges) v v)
    {u v : α} (he : (u, v) ∈ edges) : (ancestors nodes edges u).length < (ancestors nodes edges v).length := by
  classical
  have hsub : (ancestors nodes edges u).Sublist (ancestors nodes edges v) := by
    refine List.monotone_filter_right nodes fun a ha => ?_
    simp only [decide_eq_true_eq] at ha ⊢
    exact ha.tail he
  refine lt_of_le_of_ne hsub.length_le fun hlen => ?_
  have hu : u ∈ ancestors nodes edges v := by
    rw [ancestors, List.mem_filter]
    exact ⟨hsource _ he, by simpa using Relation.TransGen.single he⟩
  rw [← hsub.eq_of_length hlen, ancestors, List.mem_filter] at hu
  exact hacyclic u (by simpa using hu.2)

/-- Every node is taken exactly when no node can be reached from itself. -/
theorem order_complete_iff (hnodes : nodes.Nodup) (htarget : ∀ e ∈ edges, e.2 ∈ nodes) (hsource : ∀ e ∈ edges, e.1 ∈ nodes) :
    (order nodes edges).length = nodes.length ↔ ∀ v, ¬ Relation.TransGen (fun a b => (a, b) ∈ edges) v v := by
  constructor
  · intro hlen v hcycle
    have hlt : ∀ {a b}, Relation.TransGen (fun a b => (a, b) ∈ edges) a b →
        (order nodes edges).idxOf a < (order nodes edges).idxOf b := by
      intro a b h
      induction h with
      | single he => exact idxOf_lt hnodes htarget hlen he
      | tail _ he ih => exact ih.trans (idxOf_lt hnodes htarget hlen he)
    exact absurd (hlt hcycle) (lt_irrefl _)
  · intro hacyclic
    exact order_complete hnodes htarget hsource (fun v => (ancestors nodes edges v).length) fun e he =>
      ancestors_lt hsource hacyclic (u := e.1) (v := e.2) he

end AgentHub.Lib.Kahn
