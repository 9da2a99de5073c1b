import ExpectError.Placement
import Mathlib.Tactic

/-!
# The layout of a tree

In a tree that is laid out well every node below the root has at least one byte, sisters follow one
another without overlap, children lie inside their parents, and a closing tag or a tag of a fragment
stands directly inside an element. Nodes with the same span are then ancestors of one another.

* `Tree.Filled`, `Tree.Laid`: what is below a node is laid out well, and so are sisters in a stretch
  of text;
* `Tree.pathsBelow_induction`: what passes from parents to children is true of all nodes;
* `Tree.Filled.suffix_of_find?`: the first node with a given span is an ancestor of, or the same as,
  any other;
* `Tree.Filled.tagsEnclosed`: the parent of a tag is an element.
-/

namespace ExpectError.Tree

open Placement (isElement)

/-- The tags that stand directly inside an element or a fragment; an opening tag of an element is
a place of its own for annotations. -/
@[reducible] def isTag : NodeKind → Bool
  | .jsxClosingElement | .jsxOpeningFragment | .jsxClosingFragment => true
  | _ => false

mutual

/-- The children of a node are laid out well inside it, and so is everything below them. The offsets
at which nodes start and stop are places of the text. -/
def Filled (place : ℕ → Prop) : Tree → Prop
  | node kind start stop children =>
    Laid place start stop children ∧
      ∀ t ∈ children, isTag t.kind = true → isElement kind = true

/-- Sisters follow one another between two offsets, each with at least one byte and filled well. -/
def Laid (place : ℕ → Prop) (lo hi : ℕ) : List Tree → Prop
  | [] => True
  | t :: ts =>
    (lo ≤ t.start ∧ t.start < t.stop ∧ t.stop ≤ hi) ∧ (place t.start ∧ place t.stop) ∧
      Filled place t ∧ Laid place t.stop hi ts

end

variable {place : ℕ → Prop}

/-! ### Sisters -/

theorem Laid.mono {lo lo' hi hi' : ℕ} {ts : List Tree} (hlo : lo' ≤ lo) (hhi : hi ≤ hi')
    (h : Laid place lo hi ts) : Laid place lo' hi' ts := by
  induction ts generalizing lo lo' with
  | nil => trivial
  | cons t ts ih =>
    obtain ⟨⟨h₁, h₂, h₃⟩, hplaces, hfilled, hrest⟩ := h
    exact ⟨⟨by omega, h₂, by omega⟩, hplaces, hfilled, ih le_rfl hrest⟩

theorem Laid.append {lo mid hi : ℕ} {ts us : List Tree} (hts : Laid place lo mid ts)
    (hus : Laid place mid hi us) (hlo : lo ≤ mid) (hhi : mid ≤ hi) :
    Laid place lo hi (ts ++ us) := by
  induction ts generalizing lo with
  | nil => exact hus.mono hlo le_rfl
  | cons t ts ih =>
    obtain ⟨⟨h₁, h₂, h₃⟩, hplaces, hfilled, hrest⟩ := hts
    exact ⟨⟨h₁, h₂, by omega⟩, hplaces, hfilled, ih hrest h₃⟩

theorem laid_singleton {lo hi : ℕ} {t : Tree} :
    Laid place lo hi [t] ↔
      (lo ≤ t.start ∧ t.start < t.stop ∧ t.stop ≤ hi) ∧ (place t.start ∧ place t.stop) ∧
        Filled place t := by
  simp [Laid]

/-- What a list of sisters promises about each of them. -/
theorem Laid.of_mem {lo hi : ℕ} {ts : List Tree} (h : Laid place lo hi ts) {t : Tree}
    (ht : t ∈ ts) :
    (lo ≤ t.start ∧ t.start < t.stop ∧ t.stop ≤ hi) ∧ (place t.start ∧ place t.stop) ∧
      Filled place t := by
  induction ts generalizing lo with
  | nil => cases ht
  | cons u ts ih =>
    obtain ⟨⟨h₁, h₂, h₃⟩, hplaces, hfilled, hrest⟩ := h
    rcases List.mem_cons.1 ht with rfl | ht
    · exact ⟨⟨h₁, h₂, h₃⟩, hplaces, hfilled⟩
    · obtain ⟨⟨hlo, hin⟩, hmem⟩ := ih hrest ht
      exact ⟨⟨by omega, hin⟩, hmem⟩

theorem Laid.le_start_of_mem {lo hi : ℕ} {ts : List Tree} (h : Laid place lo hi ts) {t : Tree}
    (ht : t ∈ ts) : lo ≤ t.start :=
  (h.of_mem ht).1.1

theorem Filled.laid {t : Tree} (h : Filled place t) :
    Laid place t.start t.stop t.children := by
  obtain ⟨kind, start, stop, children⟩ := t
  rw [Filled] at h
  exact h.1

theorem Filled.of_mem_children {t child : Tree} (h : Filled place t) (hchild : child ∈ t.children) :
    Filled place child :=
  (h.laid.of_mem hchild).2.2

theorem Filled.isElement_of_isTag {t child : Tree} (h : Filled place t)
    (hchild : child ∈ t.children) (htag : isTag child.kind = true) : isElement t.kind = true := by
  obtain ⟨kind, start, stop, children⟩ := t
  rw [Filled] at h
  exact h.2 child hchild htag

theorem filled_leaf (kind : NodeKind) (start stop : ℕ) : Filled place (leaf kind start stop) := by
  simp [leaf, Filled, Laid]

/-! ### Nodes and their ancestors -/

/-- A node with its ancestors, the nearest first. -/
def Path.chain (p : Path) : List Tree :=
  p.node :: p.ancestors

mutual

theorem map_node_pathsBelow (ancestors : List Tree) (t : Tree) :
    (pathsBelow ancestors t).map Path.node = t.preorder := by
  obtain ⟨kind, start, stop, children⟩ := t
  rw [pathsBelow, preorder, List.map_cons, map_node_pathsBelowAll]

theorem map_node_pathsBelowAll (ancestors ts : List Tree) :
    (pathsBelowAll ancestors ts).map Path.node = preorderAll ts := by
  cases ts with
  | nil => rfl
  | cons t ts =>
    rw [pathsBelowAll, preorderAll, List.map_append, map_node_pathsBelow, map_node_pathsBelowAll]

end

/-- The paths are those to the nodes of the tree, in the same order. -/
theorem map_node_paths (t : Tree) : t.paths.map Path.node = t.preorder :=
  map_node_pathsBelow [] t

theorem mem_pathsBelow_self (ancestors : List Tree) (t : Tree) :
    { node := t, ancestors } ∈ pathsBelow ancestors t := by
  obtain ⟨kind, start, stop, children⟩ := t
  rw [pathsBelow]
  exact List.mem_cons_self

theorem mem_pathsBelowAll {ancestors ts : List Tree} {p : Path} :
    p ∈ pathsBelowAll ancestors ts ↔ ∃ t ∈ ts, p ∈ pathsBelow ancestors t := by
  induction ts with
  | nil => simp [pathsBelowAll]
  | cons t ts ih => rw [pathsBelowAll, List.mem_append, ih, List.exists_mem_cons_iff]

/-! ### From parents to children -/

mutual

/-- What is true of a node, and of the children of each node of which it is true, is true of all nodes
at and below it. -/
theorem pathsBelow_induction {motive : Path → Prop} {ancestors : List Tree} {p : Path} (t : Tree)
    (hroot : motive { node := t, ancestors })
    (hstep : ∀ parent ∈ pathsBelow ancestors t, motive parent →
      ∀ child ∈ parent.node.children, motive { node := child, ancestors := parent.chain })
    (h : p ∈ pathsBelow ancestors t) : motive p := by
  obtain ⟨kind, start, stop, children⟩ := t
  rw [pathsBelow] at h hstep
  rcases List.mem_cons.1 h with rfl | h
  · exact hroot
  · exact pathsBelowAll_induction children (hstep _ List.mem_cons_self hroot)
      (fun parent hparent => hstep parent (List.mem_cons_of_mem _ hparent)) h

/-- The same for the nodes at and below sisters. -/
theorem pathsBelowAll_induction {motive : Path → Prop} {ancestors : List Tree} {p : Path}
    (ts : List Tree) (hroots : ∀ t ∈ ts, motive { node := t, ancestors })
    (hstep : ∀ parent ∈ pathsBelowAll ancestors ts, motive parent →
      ∀ child ∈ parent.node.children, motive { node := child, ancestors := parent.chain })
    (h : p ∈ pathsBelowAll ancestors ts) : motive p := by
  cases ts with
  | nil => cases h
  | cons t ts =>
    rw [pathsBelowAll] at h hstep
    rcases List.mem_append.1 h with h | h
    · exact pathsBelow_induction t (hroots t List.mem_cons_self)
        (fun parent hparent => hstep parent (List.mem_append_left _ hparent)) h
    · exact pathsBelowAll_induction ts (fun u hu => hroots u (List.mem_cons_of_mem t hu))
        (fun parent hparent => hstep parent (List.mem_append_right _ hparent)) h

end

theorem suffix_chain_of_mem_pathsBelow {ancestors : List Tree} {p : Path} (t : Tree)
    (h : p ∈ pathsBelow ancestors t) : t :: ancestors <:+ p.chain :=
  pathsBelow_induction (motive := fun p => t :: ancestors <:+ p.chain) t List.suffix_rfl
    (fun _ _ ih child _ => ih.trans (List.suffix_cons child _)) h

/-- What is true of a well filled node, and passes from well filled nodes to their children, is true
of all nodes at and below it. -/
theorem Filled.pathsBelow_induction {motive : Path → Prop} {ancestors : List Tree} {p : Path}
    {t : Tree} (hfilled : Filled place t) (hroot : motive { node := t, ancestors })
    (hstep : ∀ parent : Path, Filled place parent.node → motive parent →
      ∀ child ∈ parent.node.children, motive { node := child, ancestors := parent.chain })
    (h : p ∈ pathsBelow ancestors t) : Filled place p.node ∧ motive p :=
  Tree.pathsBelow_induction (motive := fun p => Filled place p.node ∧ motive p) t ⟨hfilled, hroot⟩
    (fun parent _ ih child hchild =>
      ⟨ih.1.of_mem_children hchild, hstep parent ih.1 ih.2 child hchild⟩) h

theorem Filled.of_mem_pathsBelow {ancestors : List Tree} {p : Path} (t : Tree)
    (hfilled : Filled place t) (h : p ∈ pathsBelow ancestors t) : Filled place p.node :=
  (hfilled.pathsBelow_induction (motive := fun _ => True) trivial
    (fun _ _ _ _ _ => trivial) h).1

/-- The nodes at and below a node lie inside it. -/
theorem inside_of_mem_pathsBelow {ancestors : List Tree} {p : Path} (t : Tree)
    (hlt : t.start < t.stop) (hplaces : place t.start ∧ place t.stop) (hfilled : Filled place t)
    (h : p ∈ pathsBelow ancestors t) :
    (t.start ≤ p.node.start ∧ p.node.start < p.node.stop ∧ p.node.stop ≤ t.stop) ∧
      place p.node.start ∧ place p.node.stop := by
  refine (hfilled.pathsBelow_induction (motive := fun p =>
    (t.start ≤ p.node.start ∧ p.node.start < p.node.stop ∧ p.node.stop ≤ t.stop) ∧
      place p.node.start ∧ place p.node.stop) ⟨⟨le_rfl, hlt, le_rfl⟩, hplaces⟩ ?_ h).2
  intro parent hparent hin child hchild
  obtain ⟨hinside, hplaces, -⟩ := hparent.laid.of_mem hchild
  exact ⟨by simp only; omega, hplaces⟩

/-- The nodes at and below sisters lie in their stretch of text. -/
theorem inside_of_mem_pathsBelowAll {ancestors : List Tree} {p : Path} {lo hi : ℕ} (ts : List Tree)
    (hlaid : Laid place lo hi ts) (h : p ∈ pathsBelowAll ancestors ts) :
    (lo ≤ p.node.start ∧ p.node.start < p.node.stop ∧ p.node.stop ≤ hi) ∧
      place p.node.start ∧ place p.node.stop := by
  obtain ⟨t, ht, h⟩ := mem_pathsBelowAll.1 h
  obtain ⟨hinside, hplaces, hfilled⟩ := hlaid.of_mem ht
  obtain ⟨hin, hp⟩ := inside_of_mem_pathsBelow t hinside.2.1 hplaces hfilled h
  exact ⟨by omega, hp⟩

/-- A node and all its ancestors start at places of the text. -/
theorem Filled.place_of_mem_chain {t : Tree} {p : Path} (hfilled : Filled place t)
    (ht : place t.start) (h : p ∈ t.paths) : ∀ u ∈ p.chain, place u.start := by
  refine (hfilled.pathsBelow_induction (motive := fun p => ∀ u ∈ p.chain, place u.start)
    (by simpa [Path.chain] using ht) ?_ h).2
  intro parent hparent ih child hchild
  exact List.forall_mem_cons.2 ⟨(hparent.laid.of_mem hchild).2.1.1, ih⟩

/-- No ancestor of a node starts behind it. -/
theorem Filled.start_le_of_mem_chain {t : Tree} {p : Path} (hfilled : Filled place t)
    (h : p ∈ t.paths) : ∀ u ∈ p.chain, u.start ≤ p.node.start := by
  refine (hfilled.pathsBelow_induction (motive := fun p => ∀ u ∈ p.chain, u.start ≤ p.node.start)
    (by simp [Path.chain]) ?_ h).2
  intro parent hparent ih child hchild
  exact List.forall_mem_cons.2
    ⟨le_rfl, fun u hu => (ih u hu).trans (hparent.laid.le_start_of_mem hchild)⟩

/-- Every node starts and stops at places of the text if the root does. -/
theorem Filled.place_of_mem_paths {t : Tree} {p : Path} (hfilled : Filled place t)
    (ht : place t.start ∧ place t.stop) (h : p ∈ t.paths) :
    place p.node.start ∧ place p.node.stop :=
  (hfilled.pathsBelow_induction
    (motive := fun p => place p.node.start ∧ place p.node.stop) ht
    (fun _ hparent _ _ hchild => (hparent.laid.of_mem hchild).2.1) h).2

/-! ### Nodes with the same span -/

/-- Does a node start and stop at given offsets? -/
def Path.spans (start stop : ℕ) (p : Path) : Bool :=
  p.node.start = start && p.node.stop = stop

theorem Path.spans_iff {start stop : ℕ} {p : Path} :
    p.spans start stop = true ↔ p.node.start = start ∧ p.node.stop = stop := by
  simp [spans]

mutual

theorem Filled.suffix_of_find?_pathsBelow {ancestors : List Tree} {p q : Path} {start stop : ℕ}
    (t : Tree) (hfilled : Filled place t)
    (hq : (pathsBelow ancestors t).find? (Path.spans start stop) = some q)
    (hp : p ∈ pathsBelow ancestors t) (hspan : p.spans start stop = true) :
    q.chain <:+ p.chain := by
  obtain ⟨kind, first, last, children⟩ := t
  have hsuffix := suffix_chain_of_mem_pathsBelow _ hp
  rw [pathsBelow] at hq hp
  rw [List.find?_cons] at hq
  split at hq
  next => cases hq; exact hsuffix
  next hroot =>
    rcases List.mem_cons.1 hp with rfl | hp
    · simp [hspan] at hroot
    · rw [Filled] at hfilled
      exact hfilled.1.suffix_of_find?_pathsBelowAll children hq hp hspan

theorem Laid.suffix_of_find?_pathsBelowAll {ancestors : List Tree} {p q : Path}
    {lo hi start stop : ℕ} (ts : List Tree) (hlaid : Laid place lo hi ts)
    (hq : (pathsBelowAll ancestors ts).find? (Path.spans start stop) = some q)
    (hp : p ∈ pathsBelowAll ancestors ts) (hspan : p.spans start stop = true) :
    q.chain <:+ p.chain := by
  cases ts with
  | nil => simp [pathsBelowAll] at hp
  | cons t ts =>
    obtain ⟨⟨h₁, h₂, h₃⟩, hplaces, hfilled, hrest⟩ := hlaid
    rw [pathsBelowAll] at hq hp
    rw [List.find?_append] at hq
    cases hfirst : (pathsBelow ancestors t).find? (Path.spans start stop) with
    | none =>
      rw [hfirst, Option.none_or] at hq
      rcases List.mem_append.1 hp with hp | hp
      · exact absurd hspan (List.find?_eq_none.1 hfirst p hp)
      · exact hrest.suffix_of_find?_pathsBelowAll ts hq hp hspan
    | some r =>
      rw [hfirst, Option.some_or] at hq
      cases hq
      rcases List.mem_append.1 hp with hp | hp
      · exact hfilled.suffix_of_find?_pathsBelow t hfirst hp hspan
      · -- a node of a later sister starts where the first one has stopped
        have hr := Path.spans_iff.1 (List.find?_some hfirst)
        have hr' := (inside_of_mem_pathsBelow t h₂ hplaces hfilled
          (List.mem_of_find?_eq_some hfirst)).1
        have hp' := (inside_of_mem_pathsBelowAll ts hrest hp).1
        have := Path.spans_iff.1 hspan
        omega

end

/-- Of the nodes with a given span, the first is an ancestor of, or the same as, any other. -/
theorem Filled.suffix_of_find? {t : Tree} {p q : Path} {start stop : ℕ} (hfilled : Filled place t)
    (hq : t.paths.find? (Path.spans start stop) = some q) (hp : p ∈ t.paths)
    (hspan : p.spans start stop = true) : q.chain <:+ p.chain :=
  hfilled.suffix_of_find?_pathsBelow t hq hp hspan

/-! ### Tags -/

/-- A tag among a path's nodes has an element right above it. -/
def TagsEnclosed : List Tree → Prop
  | [] => True
  | [t] => isTag t.kind = false
  | t :: parent :: rest =>
    (isTag t.kind = true → isElement parent.kind = true) ∧ TagsEnclosed (parent :: rest)

/-- In a well filled tree whose root is no tag, the parent of each tag is an element. -/
theorem Filled.tagsEnclosed {t : Tree} {p : Path} (hfilled : Filled place t)
    (hroot : isTag t.kind = false) (h : p ∈ t.paths) : TagsEnclosed p.chain := by
  refine (hfilled.pathsBelow_induction (motive := fun p => TagsEnclosed p.chain)
    (show TagsEnclosed [t] from hroot) ?_ h).2
  intro parent hparent ih child hchild
  exact ⟨hparent.isElement_of_isTag hchild, ih⟩

end ExpectError.Tree
