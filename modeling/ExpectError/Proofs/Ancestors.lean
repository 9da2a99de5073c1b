import ExpectError.Proofs.Layout

/-!
# Parents, children and nodes that share characters

The paths of a tree are closed under going up and down: the parent of a node with the parent's
ancestors is a path, and so is a child with its parent on top of the ancestors. In a tree that is laid
out well, of two nodes that start at the same offset one is an ancestor of the other, and so it is if
one starts inside the other.

* `mem_paths_of_suffix`, `child_mem_paths`: going up and down;
* `exists_step_of_suffix`: the first step from a node down to one below it;
* `Filled.comparable`, `Filled.comparable_of_inside`: nodes with the same start, and a node that
  starts inside another.
-/

namespace ExpectError.Tree

variable {place : ℕ → Prop}

/-! ### Down -/

mutual

theorem child_mem_pathsBelow {ancestors : List Tree} {p : Path} {child : Tree} (t : Tree)
    (h : p ∈ pathsBelow ancestors t) (hchild : child ∈ p.node.children) :
    { node := child, ancestors := p.chain } ∈ pathsBelow ancestors t := by
  obtain ⟨kind, start, stop, children⟩ := t
  rw [pathsBelow, List.mem_cons] at h ⊢
  right
  rcases h with rfl | h
  · exact mem_pathsBelowAll.2 ⟨child, hchild, mem_pathsBelow_self _ _⟩
  · exact child_mem_pathsBelowAll children h hchild

theorem child_mem_pathsBelowAll {ancestors : List Tree} {p : Path} {child : Tree} (ts : List Tree)
    (h : p ∈ pathsBelowAll ancestors ts) (hchild : child ∈ p.node.children) :
    { node := child, ancestors := p.chain } ∈ pathsBelowAll ancestors ts := by
  cases ts with
  | nil => simp [pathsBelowAll] at h
  | cons t ts =>
    rw [pathsBelowAll, List.mem_append] at h ⊢
    rcases h with h | h
    · exact Or.inl (child_mem_pathsBelow t h hchild)
    · exact Or.inr (child_mem_pathsBelowAll ts h hchild)

end

/-- A child of a node is a node of the tree, with its parent on top of the ancestors. -/
theorem child_mem_paths {t : Tree} {p : Path} {child : Tree} (h : p ∈ t.paths)
    (hchild : child ∈ p.node.children) : { node := child, ancestors := p.chain } ∈ t.paths :=
  child_mem_pathsBelow t h hchild

/-! ### Up -/

/-- A node below another has a parent there. -/
theorem parent_of_mem_pathsBelow {ancestors : List Tree} {p : Path} (t : Tree)
    (h : p ∈ pathsBelow ancestors t) :
    p = { node := t, ancestors } ∨ ∃ parent ∈ pathsBelow ancestors t,
      p.ancestors = parent.chain ∧ p.node ∈ parent.node.children := by
  refine pathsBelow_induction (motive := fun p => p = { node := t, ancestors } ∨
    ∃ parent ∈ pathsBelow ancestors t, p.ancestors = parent.chain ∧
      p.node ∈ parent.node.children) t (Or.inl rfl) ?_ h
  exact fun parent hparent _ child hchild => Or.inr ⟨parent, hparent, rfl, hchild⟩

theorem Path.eq_of_chain_eq {p q : Path} (h : p.chain = q.chain) : p = q := by
  obtain ⟨node, ancestors⟩ := p
  obtain ⟨node', ancestors'⟩ := q
  obtain ⟨rfl, rfl⟩ := List.cons.inj h
  rfl

/-- On the chain of a child are the child and what is on the chain of its parent. -/
theorem Path.eq_or_suffix_of_suffix_child {q parent : Path} {child : Tree}
    (h : q.chain <:+ ({ node := child, ancestors := parent.chain } : Path).chain) :
    q = { node := child, ancestors := parent.chain } ∨ q.chain <:+ parent.chain :=
  (List.suffix_cons_iff.1 h).imp_left Path.eq_of_chain_eq

/-- On the chain of the root is the root only. -/
theorem Path.eq_root_of_suffix {t : Tree} {q : Path}
    (h : q.chain <:+ ({ node := t, ancestors := [] } : Path).chain) :
    q = { node := t, ancestors := [] } := by
  rcases List.suffix_cons_iff.1 h with heq | hnil
  · exact Path.eq_of_chain_eq heq
  · cases List.suffix_nil.1 hnil

/-- The ancestors of a node are nodes of the tree, each with its own ancestors. -/
theorem mem_paths_of_suffix {t : Tree} {p q : Path} (hp : p ∈ t.paths)
    (h : q.chain <:+ p.chain) : q ∈ t.paths := by
  revert h
  refine pathsBelow_induction (motive := fun p => q.chain <:+ p.chain → q ∈ t.paths) t
    (fun h => ?_) (fun parent hparent ih child hchild h => ?_) hp
  · rw [Path.eq_root_of_suffix h]
    exact mem_pathsBelow_self [] t
  · rcases Path.eq_or_suffix_of_suffix_child h with rfl | h
    · exact child_mem_paths hparent hchild
    · exact ih h

theorem mem_children_of_mem_paths {t : Tree} {p parent : Path} (hp : p ∈ t.paths)
    (h : p.ancestors = parent.chain) : p.node ∈ parent.node.children := by
  rcases parent_of_mem_pathsBelow t hp with rfl | ⟨parent', -, hancestors, hmem⟩
  · cases h
  · rwa [← Path.eq_of_chain_eq (hancestors.symm.trans h)]

/-- From a node, the first step down to one of the nodes below it. -/
theorem exists_step_of_suffix {t : Tree} {p q : Path} (hq : q ∈ t.paths)
    (h : p.chain <:+ q.chain) (hne : p ≠ q) :
    ∃ d ∈ t.paths, d.ancestors = p.chain ∧ d.node ∈ p.node.children ∧ d.chain <:+ q.chain := by
  obtain ⟨front, hfront⟩ := h
  rcases List.eq_nil_or_concat front with rfl | ⟨init, last, rfl⟩
  · exact absurd (Path.eq_of_chain_eq hfront) hne
  · have hsuffix : ({ node := last, ancestors := p.chain } : Path).chain <:+ q.chain :=
      ⟨init, by rw [← hfront, List.concat_eq_append, List.append_assoc]; rfl⟩
    have hmem := mem_paths_of_suffix hq hsuffix
    exact ⟨_, hmem, rfl, mem_children_of_mem_paths hmem rfl, hsuffix⟩

/-- A node is the root, or one of the root's children or below one. -/
theorem eq_root_or_below {t : Tree} {p : Path} (hp : p ∈ t.paths) :
    p = ⟨t, []⟩ ∨ ∃ top ∈ t.paths, top.ancestors = [t] ∧ top.node ∈ t.children ∧
      top.chain <:+ p.chain := by
  by_cases hroot : p = ⟨t, []⟩
  · exact Or.inl hroot
  · exact Or.inr (exists_step_of_suffix (p := ⟨t, []⟩) hp (suffix_chain_of_mem_pathsBelow t hp)
      (Ne.symm hroot))

/-- What is true of a node, and of each child of a node below it of which it is true, is true of all
nodes below. -/
theorem below_induction {t : Tree} {q : Path} {motive : Path → Prop} (hself : motive q)
    (hstep : ∀ parent ∈ t.paths, q.chain <:+ parent.chain → motive parent →
      ∀ child ∈ parent.node.children, motive { node := child, ancestors := parent.chain })
    {p : Path} (hp : p ∈ t.paths) (h : q.chain <:+ p.chain) : motive p := by
  revert h
  refine pathsBelow_induction (motive := fun p => q.chain <:+ p.chain → motive p) t
    (fun h => ?_) (fun parent hparent ih child hchild h => ?_) hp
  · rwa [← Path.eq_root_of_suffix h]
  · rcases Path.eq_or_suffix_of_suffix_child h with rfl | h
    · exact hself
    · exact hstep parent hparent h (ih h) child hchild

/-! ### Nodes that share characters -/

/-- A node starts where another one starts, or inside it. -/
def StartsIn (u t : Tree) : Prop :=
  t.start = u.start ∨ t.start < u.start ∧ u.start < t.stop

mutual

theorem Filled.comparable_of_mem_pathsBelow {ancestors : List Tree} {p q : Path} (t : Tree)
    (hfilled : Filled place t) (hp : p ∈ pathsBelow ancestors t) (hq : q ∈ pathsBelow ancestors t)
    (hin : q.node.StartsIn p.node) : p.chain <:+ q.chain ∨ q.chain <:+ p.chain := by
  obtain ⟨kind, start, stop, children⟩ := t
  have hp' := suffix_chain_of_mem_pathsBelow _ hp
  have hq' := suffix_chain_of_mem_pathsBelow _ hq
  rw [pathsBelow, List.mem_cons] at hp hq
  rcases hp with rfl | hp
  · exact Or.inl hq'
  · rcases hq with rfl | hq
    · exact Or.inr hp'
    · rw [Filled] at hfilled
      exact hfilled.1.comparable_of_mem_pathsBelowAll children hp hq hin

theorem Laid.comparable_of_mem_pathsBelowAll {ancestors : List Tree} {p q : Path} {lo hi : ℕ}
    (ts : List Tree) (hlaid : Laid place lo hi ts) (hp : p ∈ pathsBelowAll ancestors ts)
    (hq : q ∈ pathsBelowAll ancestors ts) (hin : q.node.StartsIn p.node) :
    p.chain <:+ q.chain ∨ q.chain <:+ p.chain := by
  cases ts with
  | nil => simp [pathsBelowAll] at hp
  | cons t ts =>
    obtain ⟨⟨h₁, h₂, h₃⟩, hplaces, hfilled, hrest⟩ := hlaid
    rw [pathsBelowAll, List.mem_append] at hp hq
    -- a node of a later sister starts where the first one has stopped
    have hlater : ∀ {p q : Path}, p ∈ pathsBelow ancestors t → q ∈ pathsBelowAll ancestors ts →
        p.node.start < q.node.start ∧ p.node.stop ≤ q.node.start := by
      intro p q hp hq
      have hp' := (inside_of_mem_pathsBelow t h₂ hplaces hfilled hp).1
      have hq' := (inside_of_mem_pathsBelowAll ts hrest hq).1
      omega
    rcases hp with hp | hp <;> rcases hq with hq | hq
    · exact hfilled.comparable_of_mem_pathsBelow t hp hq hin
    · have := hlater hp hq
      rcases hin with hin | hin <;> omega
    · have := hlater hq hp
      rcases hin with hin | hin <;> omega
    · exact hrest.comparable_of_mem_pathsBelowAll ts hp hq hin

end

/-- Of two nodes that start at the same offset, one is an ancestor of the other, or they are the
same. -/
theorem Filled.comparable {t : Tree} {p q : Path} (hfilled : Filled place t) (hp : p ∈ t.paths)
    (hq : q ∈ t.paths) (hstart : p.node.start = q.node.start) :
    p.chain <:+ q.chain ∨ q.chain <:+ p.chain :=
  hfilled.comparable_of_mem_pathsBelow t hp hq (Or.inl hstart)

/-- If a node starts inside another one, one of them is an ancestor of the other, or they are the
same. -/
theorem Filled.comparable_of_inside {t : Tree} {p q : Path} (hfilled : Filled place t)
    (hp : p ∈ t.paths) (hq : q ∈ t.paths) (hstart : p.node.start ≤ q.node.start)
    (hstop : q.node.start < p.node.stop) : p.chain <:+ q.chain ∨ q.chain <:+ p.chain :=
  hfilled.comparable_of_mem_pathsBelow t hp hq
    (hstart.eq_or_lt.imp_right fun hlt => ⟨hlt, hstop⟩)

/-- What starts in a node that starts behind its parent is that node or below it. -/
theorem Filled.suffix_of_inside {t : Tree} {p q parent : Path} (hfilled : Filled place t)
    (hp : p ∈ t.paths) (hq : q ∈ t.paths) (hparent : p.ancestors = parent.chain)
    (hlt : parent.node.start < p.node.start) (hstart : p.node.start ≤ q.node.start)
    (hstop : q.node.start < p.node.stop) : p.chain <:+ q.chain := by
  rcases hfilled.comparable_of_inside hp hq hstart hstop with hdown | hup
  · exact hdown
  · rcases List.suffix_cons_iff.1 hup with heq | hup
    · exact heq ▸ List.suffix_rfl
    · have hmem : parent ∈ t.paths := mem_paths_of_suffix hp (hparent ▸ List.suffix_cons _ _)
      have := hfilled.start_le_of_mem_chain hmem q.node
        ((hparent ▸ hup).subset List.mem_cons_self)
      omega

/-- What starts strictly inside a node is one of its children or below one. -/
theorem Filled.exists_child_of_inside {t : Tree} {p q : Path} (hfilled : Filled place t)
    (hp : p ∈ t.paths) (hq : q ∈ t.paths) (hstart : p.node.start < q.node.start)
    (hstop : q.node.start < p.node.stop) :
    ∃ d ∈ t.paths, d.ancestors = p.chain ∧ d.node ∈ p.node.children ∧ d.chain <:+ q.chain := by
  rcases hfilled.comparable_of_inside hp hq hstart.le hstop with hdown | hup
  · exact exists_step_of_suffix hq hdown (by rintro rfl; omega)
  · have := hfilled.start_le_of_mem_chain hp q.node (hup.subset List.mem_cons_self)
    omega

end ExpectError.Tree
