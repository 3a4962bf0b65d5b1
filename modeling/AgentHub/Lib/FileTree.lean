import Mathlib.Data.List.Induction
import Mathlib.Data.List.Nodup
import Mathlib.Tactic.Common
/-!
# Trees of files with symbolic links

A tree holds files, directories and symbolic links by their paths from the root. `resolve` is how a path is looked up when
links are followed, up to a bound on their number; what a removal does to it is `resolve_remove`.
-/

namespace AgentHub.Lib

/-- Where a link leads: from the root, or from the directory it is in. -/
structure LinkTarget where
  absolute : Bool
  parts : List String
  deriving DecidableEq, Repr

/-- The directory a link is followed from that is in a directory. -/
def LinkTarget.base (target : LinkTarget) (dir : List String) : List String := if target.absolute then [] else dir

inductive FileEntry (β : Type) where
  | file (content : β)
  | dir
  | link (target : LinkTarget)
  deriving DecidableEq, Repr

/-- A tree by its paths: what is in a directory is in a directory that is there. The root is not listed. -/
structure FileTree (β : Type) where
  entries : List (List String × FileEntry β)
  nodup : (entries.map Prod.fst).Nodup
  named : ∀ e ∈ entries, ∃ parent name, e.1 = parent ++ [name] ∧ name ≠ "." ∧ name ≠ ".."
  closed : ∀ e ∈ entries, e.1.dropLast = [] ∨ (e.1.dropLast, .dir) ∈ entries

namespace FileTree

variable {β : Type} (t : FileTree β)

/-- What is at a path; the root is a directory. -/
def get? (path : List String) : Option (FileEntry β) := if path = [] then some .dir else t.entries.lookup path

/-- The names in a directory. -/
def names (path : List String) : List String :=
  ((t.entries.map Prod.fst).filter fun q => q.dropLast = path).map fun q => q.getLastD ""

/-- The tree without a leaf. -/
def remove (path : List String) (h : t.names path = []) : FileTree β where
  entries := t.entries.filter fun e => e.1 ≠ path
  nodup := t.nodup.sublist ((List.filter_sublist).map _)
  named e he := t.named e (List.mem_filter.1 he).1
  closed e he := by
    obtain ⟨hmem, -⟩ := List.mem_filter.1 he
    refine (t.closed e hmem).imp id fun hparent => List.mem_filter.2 ⟨hparent, ?_⟩
    obtain ⟨parent, name, heq, -⟩ := t.named e hmem
    simp only [ne_eq, decide_eq_true_eq]
    intro hpath
    have hname : name ∈ t.names path :=
      List.mem_map.2 ⟨e.1, List.mem_filter.2 ⟨List.mem_map_of_mem hmem, decide_eq_true hpath⟩, by rw [heq, List.getLastD_concat]⟩
    rw [h] at hname
    cases hname

/-! ## What is at a path -/

@[simp] theorem get?_nil : t.get? [] = some .dir := if_pos rfl

variable {t} {path path' d : List String} {e : FileEntry β} {name : String}

theorem get?_eq_some (hpath : path ≠ []) : t.get? path = some e ↔ (path, e) ∈ t.entries := by
  rw [get?, if_neg hpath]
  have hnd := t.nodup
  revert hnd
  generalize t.entries = entries
  intro hnd
  induction entries with
  | nil => simp
  | cons f entries ih =>
    obtain ⟨q, f⟩ := f
    obtain ⟨hq, hrest⟩ := List.nodup_cons.1 hnd
    rw [List.lookup_cons]
    by_cases heq : path = q
    · subst heq
      have habsent : (path, e) ∉ entries := fun hmem => hq (List.mem_map.2 ⟨_, hmem, rfl⟩)
      simp [habsent, eq_comm]
    · rw [beq_false_of_ne heq]
      simp [ih hrest, heq]

theorem get?_remove {h : t.names path = []} (hpath : path ≠ []) (path' : List String) :
    (t.remove path h).get? path' = if path' = path then none else t.get? path' := by
  by_cases hnil : path' = []
  · subst hnil
    simp [hpath.symm]
  · refine Option.ext fun e => ?_
    rw [get?_eq_some hnil]
    by_cases heq : path' = path
    · simp [remove, heq]
    · rw [if_neg heq, get?_eq_some hnil]
      simp [remove, heq]

theorem mem_paths {q : List String} (hq : q ∈ t.entries.map Prod.fst) : q = q.dropLast ++ [q.getLastD ""] := by
  obtain ⟨e, he, rfl⟩ := List.mem_map.1 hq
  obtain ⟨parent, name, heq, -⟩ := t.named e he
  rw [heq, List.dropLast_concat, List.getLastD_concat]

/-- What is in a directory is there under its name. -/
theorem mem_names : name ∈ t.names d ↔ t.get? (d ++ [name]) ≠ none := by
  rw [names, List.mem_map, Option.ne_none_iff_exists']
  constructor
  · rintro ⟨q, hq, rfl⟩
    obtain ⟨hmem, hparent⟩ := List.mem_filter.1 hq
    have hpath := mem_paths hmem
    rw [of_decide_eq_true hparent] at hpath
    obtain ⟨⟨q', e⟩, he, rfl⟩ := List.mem_map.1 hmem
    exact ⟨e, (get?_eq_some (by simp)).2 (hpath ▸ he)⟩
  · rintro ⟨e, he⟩
    refine ⟨d ++ [name], List.mem_filter.2 ⟨List.mem_map.2 ⟨_, (get?_eq_some (by simp)).1 he, rfl⟩, ?_⟩, ?_⟩
    · simp
    · rw [List.getLastD_concat]

theorem names_nodup (t : FileTree β) (d : List String) : (t.names d).Nodup := by
  refine (t.nodup.filter _).map_on fun q hq q' hq' heq => ?_
  obtain ⟨hmem, hparent⟩ := List.mem_filter.1 hq
  obtain ⟨hmem', hparent'⟩ := List.mem_filter.1 hq'
  rw [mem_paths hmem, mem_paths hmem', of_decide_eq_true hparent, of_decide_eq_true hparent', heq]

theorem there (h : t.get? path = some e) : t.get? path ≠ none := by
  rw [h]
  exact Option.some_ne_none e

/-- Above what is there are directories. -/
theorem get?_parent (h : t.get? (d ++ [name]) ≠ none) : t.get? d = some .dir := by
  obtain ⟨e, he⟩ := Option.ne_none_iff_exists'.1 h
  have hmem := (get?_eq_some (by simp)).1 he
  have hclosed := t.closed _ hmem
  rw [List.dropLast_concat] at hclosed
  rcases hclosed with rfl | hdir
  · exact get?_nil t
  · by_cases hnil : d = []
    · rw [hnil]
      exact get?_nil t
    · exact (get?_eq_some hnil).2 hdir

theorem get?_above {rest : List String} (h : t.get? (d ++ rest) ≠ none) (hrest : rest ≠ []) : t.get? d = some .dir := by
  induction rest using List.reverseRecOn with
  | nil => exact absurd rfl hrest
  | append_singleton rest name ih =>
    rw [← List.append_assoc] at h
    have hparent := get?_parent h
    by_cases hnil : rest = []
    · rwa [hnil, List.append_nil] at hparent
    · exact ih (there hparent) hnil

/-- Only a directory has something in it. -/
theorem names_eq_nil (h : t.get? path ≠ some .dir) : t.names path = [] :=
  List.eq_nil_iff_forall_not_mem.2 fun _ hname => h (get?_parent (mem_names.1 hname))

/-- How long the longest path is. -/
def height (t : FileTree β) : Nat := (t.entries.map fun e => e.1.length).foldr max 0

theorem length_le_height (h : t.get? path ≠ none) : path.length ≤ t.height := by
  have hmax : ∀ (l : List Nat), ∀ n ∈ l, n ≤ l.foldr max 0 := by
    intro l
    induction l with
    | nil => simp
    | cons m l ih =>
      intro n hn
      rcases List.mem_cons.1 hn with rfl | hn
      · exact Nat.le_max_left _ _
      · exact Nat.le_trans (ih n hn) (Nat.le_max_right _ _)
  by_cases hpath : path = []
  · rw [hpath]
    exact Nat.zero_le _
  · obtain ⟨e, he⟩ := Option.ne_none_iff_exists'.1 h
    exact hmax _ _ (List.mem_map.2 ⟨_, (get?_eq_some hpath).1 he, rfl⟩)

theorem name_ne (h : t.get? (d ++ [name]) ≠ none) : name ≠ "." ∧ name ≠ ".." := by
  obtain ⟨e, he⟩ := Option.ne_none_iff_exists'.1 h
  obtain ⟨parent, name', heq, hname⟩ := t.named _ ((get?_eq_some (by simp)).1 he)
  obtain rfl := List.singleton_inj.1 (List.append_inj_right' heq rfl)
  exact hname

/-! ## Resolution -/

/-- From a directory along some parts; `follow` goes on at a link. -/
def walk (t : FileTree β) (follow : List String → List String → Option (List String)) :
    List String → List String → Option (List String)
  | cur, [] => some cur
  | cur, part :: rest =>
    if part = "." then walk t follow cur rest
    else if part = ".." then walk t follow cur.dropLast rest
    else match t.get? (cur ++ [part]) with
      | none => none
      | some .dir => walk t follow (cur ++ [part]) rest
      | some (.file _) => if rest = [] then some (cur ++ [part]) else none
      | some (.link target) => follow (target.base cur) (target.parts ++ rest)

/-- A walk that follows so many links. -/
def resolveFrom (t : FileTree β) : Nat → List String → List String → Option (List String)
  | 0 => t.walk fun _ _ => none
  | links + 1 => t.walk (t.resolveFrom links)

/-- How many links a lookup follows before it gives up. -/
def maxLinks : Nat := 40

/-- Where a path leads when links are followed. -/
def resolve (t : FileTree β) (path : List String) : Option (List String) := t.resolveFrom maxLinks [] path

/-- A path leads to a directory. -/
def leadsToDir (t : FileTree β) (path : List String) : Bool := (t.resolve path).any fun q => t.get? q matches some .dir

variable {t' : FileTree β} {follow : List String → List String → Option (List String)} {cur rest parts q : List String}
  {links : Nat} {part : String} {target : LinkTarget}

theorem resolveFrom_nil (links : Nat) (cur : List String) : t.resolveFrom links cur [] = some cur := by
  cases links <;> rfl

/-- What the next part of a walk that arrives can be. -/
inductive WalkStep (t : FileTree β) (follow : List String → List String → Option (List String)) (cur : List String)
    (part : String) (rest q : List String) : Prop
  | stay (hpart : part = ".") (hrest : t.walk follow cur rest = some q)
  | up (hpart : part = "..") (hrest : t.walk follow cur.dropLast rest = some q)
  | dir (hentry : t.get? (cur ++ [part]) = some .dir) (hrest : t.walk follow (cur ++ [part]) rest = some q)
  | file {content : β} (hentry : t.get? (cur ++ [part]) = some (.file content)) (hrest : rest = []) (hq : q = cur ++ [part])
  | link {target : LinkTarget} (hentry : t.get? (cur ++ [part]) = some (.link target))
      (hrest : follow (target.base cur) (target.parts ++ rest) = some q)

theorem walk_cons : t.walk follow cur (part :: rest) = some q ↔ WalkStep t follow cur part rest q := by
  rw [walk]
  constructor
  · intro h
    split at h
    · next hpart => exact .stay hpart h
    · split at h
      · next hpart => exact .up hpart h
      · split at h
        · cases h
        · next hentry => exact .dir hentry h
        · next hentry =>
          split at h
          · next hrest => exact .file hentry hrest (Option.some.inj h).symm
          · cases h
        · next hentry => exact .link hentry h
  · intro h
    have hnamed : t.get? (cur ++ [part]) ≠ none → part ≠ "." ∧ part ≠ ".." := name_ne
    cases h with
    | stay hpart hrest => rwa [if_pos hpart]
    | up hpart hrest =>
      subst hpart
      exact hrest
    | dir hentry hrest =>
      obtain ⟨hdot, hdots⟩ := hnamed (there hentry)
      rwa [if_neg hdot, if_neg hdots, hentry]
    | file hentry hrest hq =>
      obtain ⟨hdot, hdots⟩ := hnamed (there hentry)
      rw [if_neg hdot, if_neg hdots, hentry, hq]
      exact if_pos hrest
    | link hentry hrest =>
      obtain ⟨hdot, hdots⟩ := hnamed (there hentry)
      rwa [if_neg hdot, if_neg hdots, hentry]

theorem get?_dropLast (h : t.get? d = some .dir) : t.get? d.dropLast = some .dir := by
  induction d using List.reverseRecOn with
  | nil => exact h
  | append_singleton d name =>
    rw [List.dropLast_concat]
    exact get?_parent (there h)

theorem get?_base (h : t.get? d = some .dir) (target : LinkTarget) : t.get? (target.base d) = some .dir := by
  unfold LinkTarget.base
  split
  · exact get?_nil t
  · exact h

/-- Induction along a lookup that arrives. -/
theorem resolveFrom_induct {P : Nat → List String → List String → List String → Prop}
    (nil : ∀ links cur, t.get? cur = some .dir → P links cur [] cur)
    (stay : ∀ links cur rest q, t.get? cur = some .dir → P links cur rest q → P links cur ("." :: rest) q)
    (up : ∀ links cur rest q, t.get? cur = some .dir → P links cur.dropLast rest q → P links cur (".." :: rest) q)
    (dir : ∀ links cur part rest q, t.get? (cur ++ [part]) = some .dir → P links (cur ++ [part]) rest q →
      P links cur (part :: rest) q)
    (file : ∀ links cur part content, t.get? (cur ++ [part]) = some (.file content) → P links cur [part] (cur ++ [part]))
    (link : ∀ links cur part rest q target, t.get? (cur ++ [part]) = some (.link target) →
      t.resolveFrom links (target.base cur) (target.parts ++ rest) = some q →
      P links (target.base cur) (target.parts ++ rest) q → P (links + 1) cur (part :: rest) q)
    {links : Nat} {cur parts q : List String} (hcur : t.get? cur = some .dir) (h : t.resolveFrom links cur parts = some q) :
    P links cur parts q := by
  have hwalk : ∀ {links : Nat} {follow : List String → List String → Option (List String)},
      (∀ cur part rest q target, t.get? (cur ++ [part]) = some (.link target) → t.get? (target.base cur) = some .dir →
        follow (target.base cur) (target.parts ++ rest) = some q → P links cur (part :: rest) q) →
      ∀ parts cur q, t.get? cur = some .dir → t.walk follow cur parts = some q → P links cur parts q := by
    intro links follow hlink parts
    induction parts with
    | nil =>
      rintro cur q hcur ⟨⟩
      exact nil links cur hcur
    | cons part rest ih =>
      intro cur q hcur h
      cases walk_cons.1 h with
      | stay hpart hrest => exact hpart ▸ stay links cur rest q hcur (ih _ _ hcur hrest)
      | up hpart hrest => exact hpart ▸ up links cur rest q hcur (ih _ _ (get?_dropLast hcur) hrest)
      | dir hentry hrest => exact dir links cur part rest q hentry (ih _ _ hentry hrest)
      | file hentry hrest hq =>
        subst hrest hq
        exact file links cur part _ hentry
      | link hentry hrest => exact hlink cur part rest q _ hentry (get?_base hcur _) hrest
  induction links generalizing cur parts q with
  | zero => exact hwalk (fun _ _ _ _ _ _ _ h => by cases h) parts cur q hcur h
  | succ links ih => exact hwalk (fun cur part rest q target hentry hbase hrest =>
      link links cur part rest q target hentry hrest (ih hbase hrest)) parts cur q hcur h

/-! ## Along a path -/

theorem resolveFrom_stay : t.resolveFrom links cur ("." :: rest) = t.resolveFrom links cur rest := by
  cases links <;> rfl

theorem resolveFrom_up : t.resolveFrom links cur (".." :: rest) = t.resolveFrom links cur.dropLast rest := by
  cases links <;> rfl

theorem resolveFrom_dir (h : t.get? (cur ++ [part]) = some .dir) :
    t.resolveFrom links cur (part :: rest) = t.resolveFrom links (cur ++ [part]) rest := by
  have hwalk : ∀ follow, t.walk follow cur (part :: rest) = t.walk follow (cur ++ [part]) rest := by
    intro follow
    have hnamed := name_ne (there h)
    rw [walk, if_neg hnamed.1, if_neg hnamed.2, h]
  cases links <;> exact hwalk _

/-- Through directories a lookup goes straight. -/
theorem resolveFrom_dirs (h : t.get? (cur ++ d) = some .dir) :
    t.resolveFrom links cur (d ++ rest) = t.resolveFrom links (cur ++ d) rest := by
  induction d generalizing cur with
  | nil => rw [List.append_nil, List.nil_append]
  | cons name d ih =>
    rw [List.append_cons] at h
    have hdir : t.get? (cur ++ [name]) = some .dir := by
      by_cases hnil : d = []
      · rwa [hnil, List.append_nil] at h
      · exact get?_above (there h) hnil
    rw [List.cons_append, resolveFrom_dir hdir, ih h, ← List.append_cons]

theorem resolve_dirs (h : t.get? d = some .dir) : t.resolve (d ++ rest) = t.resolveFrom maxLinks d rest := by
  have hdir : t.get? ([] ++ d) = some .dir := h
  exact resolveFrom_dirs hdir

theorem resolve_dir (h : t.get? d = some .dir) : t.resolve d = some d := by
  have hrun : t.resolve (d ++ []) = t.resolveFrom maxLinks d [] := resolve_dirs h
  rwa [List.append_nil, resolveFrom_nil] at hrun

theorem resolveFrom_file {content : β} (h : t.get? (cur ++ [part]) = some (.file content)) :
    t.resolveFrom links cur [part] = some (cur ++ [part]) := by
  cases links <;> exact walk_cons.2 (.file h rfl rfl)

theorem resolveFrom_link (h : t.get? (cur ++ [part]) = some (.link target)) :
    t.resolveFrom (links + 1) cur (part :: rest) = t.resolveFrom links (target.base cur) (target.parts ++ rest) := by
  refine Option.ext fun q => ⟨fun hrun => ?_, fun hrun => walk_cons.2 (.link h hrun)⟩
  have hnamed := name_ne (there h)
  cases walk_cons.1 hrun with
  | stay hpart => exact absurd hpart hnamed.1
  | up hpart => exact absurd hpart hnamed.2
  | dir hentry => cases h.symm.trans hentry
  | file hentry => cases h.symm.trans hentry
  | link hentry hrest =>
    cases h.symm.trans hentry
    exact hrest

/-- Where nothing is a path leads nowhere. -/
theorem resolve_absent (hdir : t.get? d = some .dir) (h : t.get? (d ++ [name]) = none) (hname : name ≠ "." ∧ name ≠ "..") :
    t.resolve (d ++ [name]) = none := by
  refine Option.eq_none_iff_forall_not_mem.2 fun q hq => ?_
  have hrun : t.walk (t.resolveFrom (maxLinks - 1)) d [name] = some q := (resolve_dirs hdir).symm.trans hq
  cases walk_cons.1 hrun with
  | stay hpart => exact hname.1 hpart
  | up hpart => exact hname.2 hpart
  | dir hentry => cases h.symm.trans hentry
  | file hentry => cases h.symm.trans hentry
  | link hentry => cases h.symm.trans hentry

/-- What is no link leads to itself. -/
theorem resolve_plain (h : t.get? (d ++ [name]) = some e) (hlink : ∀ target, e ≠ .link target) :
    t.resolve (d ++ [name]) = some (d ++ [name]) := by
  cases e with
  | file content =>
    have hdir := get?_parent (there h)
    exact (resolve_dirs hdir).trans (resolveFrom_file h)
  | dir => exact resolve_dir h
  | link target => exact absurd rfl (hlink target)

/-- A link leads where its target leads. -/
theorem resolve_link (h : t.get? (d ++ [name]) = some (.link target)) :
    t.resolve (d ++ [name]) = t.resolveFrom (maxLinks - 1) (target.base d) target.parts := by
  have hdir := get?_parent (there h)
  refine (resolve_dirs hdir).trans ((resolveFrom_link h).trans ?_)
  rw [List.append_nil]
  rfl

/-- What is in one tree is in the other. -/
def Sub (t t' : FileTree β) : Prop := ∀ path e, t.get? path = some e → t'.get? path = some e

/-- In a larger tree, following more links, a path leads where it led. -/
theorem resolveFrom_mono (ht : Sub t t') (hcur : t.get? cur = some .dir) (h : t.resolveFrom links cur parts = some q) :
    ∀ {links'}, links ≤ links' → t'.resolveFrom links' cur parts = some q := by
  refine resolveFrom_induct (P := fun links cur parts q => ∀ {links'}, links ≤ links' → t'.resolveFrom links' cur parts = some q)
    ?_ ?_ ?_ ?_ ?_ ?_ hcur h
  · exact fun _ _ _ _ _ => resolveFrom_nil _ _
  · exact fun _ _ _ _ _ ih _ hlinks => resolveFrom_stay.trans (ih hlinks)
  · exact fun _ _ _ _ _ ih _ hlinks => resolveFrom_up.trans (ih hlinks)
  · exact fun _ _ _ _ _ hentry ih _ hlinks => (resolveFrom_dir (ht _ _ hentry)).trans (ih hlinks)
  · exact fun _ _ _ _ hentry _ _ => resolveFrom_file (ht _ _ hentry)
  · intro links cur part rest q target hentry _ ih links' hlinks
    obtain ⟨links', rfl⟩ : ∃ n, links' = n + 1 := ⟨links' - 1, by omega⟩
    exact (resolveFrom_link (ht _ _ hentry)).trans (ih (by omega))

theorem resolve_mono (ht : Sub t t') {path : List String} (h : t.resolve path = some q) : t'.resolve path = some q :=
  resolveFrom_mono ht (get?_nil t) h (Nat.le_refl _)

/-- What a path leads to is there, and it is no link. -/
theorem resolveFrom_there (hcur : t.get? cur = some .dir) (h : t.resolveFrom links cur parts = some q) :
    ∃ e, t.get? q = some e ∧ ∀ target, e ≠ .link target := by
  refine resolveFrom_induct (P := fun _ _ _ q => ∃ e, t.get? q = some e ∧ ∀ target, e ≠ .link target) ?_ ?_ ?_ ?_ ?_ ?_ hcur h
  · exact fun _ _ hcur => ⟨.dir, hcur, fun _ h => by cases h⟩
  · exact fun _ _ _ _ _ ih => ih
  · exact fun _ _ _ _ _ ih => ih
  · exact fun _ _ _ _ _ _ ih => ih
  · exact fun _ _ _ content hentry => ⟨.file content, hentry, fun _ h => by cases h⟩
  · exact fun _ _ _ _ _ _ _ _ ih => ih

/-- Before more parts a path leads to a directory. -/
theorem resolveFrom_append (hcur : t.get? cur = some .dir) (h : t.resolveFrom links cur (parts ++ rest) = some q)
    (hrest : rest ≠ []) : ∃ r, t.resolveFrom links cur parts = some r ∧ t.get? r = some .dir := by
  suffices hall : ∀ front, parts ++ rest = front ++ rest → ∃ r, t.resolveFrom links cur front = some r ∧ t.get? r = some .dir from
    hall parts rfl
  refine resolveFrom_induct (P := fun links cur parts _ => ∀ front, parts = front ++ rest →
    ∃ r, t.resolveFrom links cur front = some r ∧ t.get? r = some .dir) ?_ ?_ ?_ ?_ ?_ ?_ hcur h
  · intro _ _ _ front hsplit
    exact absurd (List.nil_eq_append_iff.1 hsplit).2 hrest
  · intro _ cur _ _ hcur ih front hsplit
    rcases List.cons_eq_append_iff.1 hsplit with ⟨rfl, -⟩ | ⟨front', rfl, htail⟩
    · exact ⟨cur, resolveFrom_nil _ _, hcur⟩
    · rw [resolveFrom_stay]
      exact ih front' htail
  · intro _ cur _ _ hcur ih front hsplit
    rcases List.cons_eq_append_iff.1 hsplit with ⟨rfl, -⟩ | ⟨front', rfl, htail⟩
    · exact ⟨cur, resolveFrom_nil _ _, hcur⟩
    · rw [resolveFrom_up]
      exact ih front' htail
  · intro _ cur _ _ _ hentry ih front hsplit
    rcases List.cons_eq_append_iff.1 hsplit with ⟨rfl, -⟩ | ⟨front', rfl, htail⟩
    · exact ⟨cur, resolveFrom_nil _ _, get?_parent (there hentry)⟩
    · rw [resolveFrom_dir hentry]
      exact ih front' htail
  · intro _ cur _ _ hentry front hsplit
    rcases List.cons_eq_append_iff.1 hsplit with ⟨rfl, -⟩ | ⟨front', rfl, htail⟩
    · exact ⟨cur, resolveFrom_nil _ _, get?_parent (there hentry)⟩
    · exact absurd (List.nil_eq_append_iff.1 htail).2 hrest
  · intro _ cur _ _ _ target hentry _ ih front hsplit
    rcases List.cons_eq_append_iff.1 hsplit with ⟨rfl, -⟩ | ⟨front', rfl, htail⟩
    · exact ⟨cur, resolveFrom_nil _ _, get?_parent (there hentry)⟩
    · rw [resolveFrom_link hentry]
      exact ih (target.parts ++ front') (by rw [htail, List.append_assoc])

/-- A path without what its last name leads to: the directory it is in is looked up, and the name is left as it is. -/
def locate (t : FileTree β) (path : List String) : Option (List String) :=
  match path.getLast? with
  | none => some []
  | some name =>
    if name = "." ∨ name = ".." then t.resolve path
    else (t.resolve path.dropLast).map fun dir => dir ++ [name]

theorem locate_eq (hdir : t.get? d = some .dir) (hname : name ≠ "." ∧ name ≠ "..") : t.locate (d ++ [name]) = some (d ++ [name]) := by
  rw [locate, List.getLast?_concat]
  dsimp only
  rw [if_neg (not_or.2 hname), List.dropLast_concat, resolve_dir hdir]
  rfl

theorem leadsToDir_iff {path : List String} : t.leadsToDir path = true ↔ ∃ q, t.resolve path = some q ∧ t.get? q = some .dir := by
  rw [leadsToDir, Option.any_eq_true]
  refine exists_congr fun q => and_congr_right fun _ => ?_
  split
  · next h => simp [h]
  · next h => simpa using h

theorem get?_ne_dir {path : List String} (h : t.leadsToDir path = false) : t.get? path ≠ some .dir := by
  intro hdir
  rw [leadsToDir_iff.2 ⟨path, resolve_dir hdir, hdir⟩] at h
  cases h

/-! ## Without a leaf -/

/-- Where a path led it leads without a file or a link, unless it led to the file, or over the link: then the link leads there
itself, or to a directory. -/
theorem resolve_remove {path : List String} (hpath : t.names path = []) (hleaf : t.get? path ≠ some .dir) {p : List String}
    (h : t.resolve p = some q) : (t.remove path hpath).resolve p = some q ∨ q = path ∨ t.resolve path = some q ∨
      ∃ r, t.resolve path = some r ∧ t.get? r = some .dir := by
  have hroot : path ≠ [] := by
    rintro rfl
    exact hleaf (get?_nil t)
  have hkept : ∀ {p e}, p ≠ path → t.get? p = some e → (t.remove path hpath).get? p = some e := by
    intro p e hne he
    rw [get?_remove hroot, if_neg hne, he]
  refine resolveFrom_induct (P := fun links cur parts q => links ≤ maxLinks →
    (t.remove path hpath).resolveFrom links cur parts = some q ∨ q = path ∨ t.resolve path = some q ∨
      ∃ r, t.resolve path = some r ∧ t.get? r = some .dir) ?_ ?_ ?_ ?_ ?_ ?_ (get?_nil t) h (Nat.le_refl _)
  · exact fun _ _ _ _ => .inl (resolveFrom_nil _ _)
  · exact fun _ _ _ _ _ ih hlinks => (ih hlinks).imp (resolveFrom_stay.trans ·) id
  · exact fun _ _ _ _ _ ih hlinks => (ih hlinks).imp (resolveFrom_up.trans ·) id
  · intro _ cur part _ _ hentry ih hlinks
    have hne : cur ++ [part] ≠ path := by
      rintro rfl
      exact hleaf hentry
    exact (ih hlinks).imp ((resolveFrom_dir (hkept hne hentry)).trans ·) id
  · intro _ cur part _ hentry _
    by_cases heq : cur ++ [part] = path
    · exact .inr (.inl heq)
    · exact .inl (resolveFrom_file (hkept heq hentry))
  · intro links cur part rest q target hentry hrun ih hlinks
    by_cases heq : cur ++ [part] = path
    · subst heq
      have hdir := get?_parent (there hentry)
      have hmore : ∀ {r}, t.resolveFrom links (target.base cur) target.parts = some r → t.resolve (cur ++ [part]) = some r :=
        fun hr => (resolve_link hentry).trans
          (resolveFrom_mono (fun _ _ he => he) (get?_base hdir target) hr (Nat.le_sub_one_of_lt hlinks))
      by_cases hnil : rest = []
      · rw [hnil, List.append_nil] at hrun
        exact .inr (.inr (.inl (hmore hrun)))
      · obtain ⟨r, hr, hrdir⟩ := resolveFrom_append (get?_base hdir target) hrun hnil
        exact .inr (.inr (.inr ⟨r, hmore hr, hrdir⟩))
    · exact (ih (Nat.le_of_succ_le hlinks)).imp ((resolveFrom_link (hkept heq hentry)).trans ·) id

/-- The tree without what is at a path, unless something is in it. -/
def erase (t : FileTree β) (path : List String) : FileTree β := if h : t.names path = [] then t.remove path h else t

theorem get?_erase {path : List String} (hnames : t.names path = []) (hpath : path ≠ []) (path' : List String) :
    (t.erase path).get? path' = if path' = path then none else t.get? path' := by
  rw [erase, dif_pos hnames, get?_remove hpath]

end FileTree

end AgentHub.Lib
