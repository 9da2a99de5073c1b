import ExpectError.Proofs.Ancestors
import ExpectError.Proofs.Annotation

/-!
# Line comments and the children of elements

Between the tags of an element a line comment would be text. The rules for markup keep it out of
there: a node that starts where a child of an element starts is that child, or the child's opening
tag, and both get a comment in braces. What can still bring a line comment there is the climb past a
keyword that has to share its line with what follows, since the names of tags and attributes can be
spelled like such keywords.

* `parents_of_start_eq`: the nodes that start where a child of an element starts;
* `hoisted_of_startsAmongChildren`: a line comment among the children of an element has been moved
  there past a keyword.
-/

open ExpectError.Tree (Path isClosing isOpening)

namespace ExpectError.Structural

open Placement

/-- Does a child of an element or a fragment, other than its opening tag, start at an offset? -/
def StartsAmongChildren (tree : Tree) (offset : ℕ) : Prop :=
  ∃ element ∈ tree.preorder, isElement element.kind = true ∧
    ∃ child ∈ element.children, isOpening child.kind = false ∧ child.start = offset

variable {place : ℕ → Prop} {tree : Tree}

/-- The children of an element behind its opening tag start behind the element's start. -/
theorem child_of_element {element child : Tree} (hfilled : element.Filled place)
    (hformed : element.Formed) (helement : isElement element.kind = true)
    (hchild : child ∈ element.children) (hopening : isOpening child.kind = false) :
    element.start < child.start ∧
      (isMarkupChild child.kind = true ∨ isClosing child.kind = true) := by
  obtain ⟨opening, rest, hchildren, hkind, hstart, hrest⟩ := hformed.element helement
  have hmem : child ∈ rest := by
    rw [hchildren] at hchild
    rcases List.mem_cons.1 hchild with rfl | hmem
    · rw [hkind] at hopening
      cases hopening
    · exact hmem
  refine ⟨?_, hrest child hmem⟩
  have hlaid := hfilled.laid
  rw [hchildren] at hlaid
  obtain ⟨⟨-, hlt, -⟩, -, -, hlaid⟩ := hlaid
  have hle := hlaid.le_start_of_mem hmem
  omega

/-- What is below a child of an element and starts with it: only the opening tag of the child. -/
theorem eq_opening_of_start_eq {child below : Tree} (hfilled : child.Filled place)
    (hformed : child.Formed) (hkind : isMarkupChild child.kind = true ∨ isClosing child.kind = true)
    (hbelow : below ∈ child.children) (hstart : below.start = child.start) :
    isElement child.kind = true ∧ isOpening below.kind = true := by
  have hbracketed : Tree.isBracketed child.kind = true → False := fun h => by
    have := hformed.bracketed h below hbelow
    omega
  rcases hkind with hkind | hkind
  · rcases (by simpa [isMarkupChild] using hkind :
      isElement child.kind = true ∨ child.kind = .jsxExpression ∨ child.kind = .token .jsxText) with
      helement | hexpression | htext
    · refine ⟨helement, ?_⟩
      by_contra hopening
      have := (child_of_element hfilled hformed helement hbelow (by simpa using hopening)).1
      omega
    · exact (hbracketed (by rw [hexpression])).elim
    · rw [hformed.text htext] at hbelow
      cases hbelow
  · exact (hbracketed (Tree.isBracketed_of_isClosing hkind)).elim

/-- A node that starts where a child of an element starts is itself among the children of an element,
or it is the opening tag of an element among the children of another. -/
theorem parents_of_start_eq (hfilled : tree.Filled place) (hformed : tree.AllFormed)
    {p : Path} (hp : p ∈ tree.paths) (h : StartsAmongChildren tree p.node.start) :
    ∃ parent, p.parent? = some parent ∧ isElement parent.node.kind = true ∧
      (isMarkupChild p.node.kind = true ∨ isClosing p.node.kind = true ∨
        (parentKind? parent).any isElement = true) := by
  obtain ⟨element, hmem, helement, child, hchild, hopening, hstart⟩ := h
  have hformedAt : ∀ {q : Path}, q ∈ tree.paths → q.node.Formed := fun hq =>
    hformed _ (Tree.map_node_paths tree ▸ List.mem_map_of_mem hq)
  rw [← Tree.map_node_paths] at hmem
  obtain ⟨e, he, rfl⟩ := List.mem_map.1 hmem
  obtain ⟨hlt, hkind⟩ := child_of_element (Tree.Filled.of_mem_pathsBelow tree hfilled he)
    (hformedAt he) helement hchild hopening
  have hc := Tree.child_mem_paths he hchild
  by_cases heq : ({ node := child, ancestors := e.chain } : Path) = p
  · subst heq
    exact ⟨e, rfl, helement, by tauto⟩
  rcases hfilled.comparable hc hp hstart with hdown | hup
  · -- below the child only its opening tag starts with it
    obtain ⟨d, hd, hancestors, hbelow, hdp⟩ := Tree.exists_step_of_suffix hp hdown heq
    have hle := hfilled.start_le_of_mem_chain hp d.node (hdp.subset List.mem_cons_self)
    have hge := hfilled.start_le_of_mem_chain hd child
      (List.mem_cons_of_mem _ (hancestors ▸ List.mem_cons_self))
    obtain ⟨helement', hopening'⟩ := eq_opening_of_start_eq
      (Tree.Filled.of_mem_pathsBelow tree hfilled hc) (hformedAt hc) hkind hbelow
      (show d.node.start = child.start by omega)
    by_cases heq' : d = p
    · subst heq'
      refine ⟨{ node := child, ancestors := e.chain }, ?_, helement', Or.inr (Or.inr ?_)⟩
      · rw [Path.parent?, hancestors]
        rfl
      · simpa [parentKind?, Path.chain] using helement
    · obtain ⟨f, hf, hancestors', hbelow', hfp⟩ := Tree.exists_step_of_suffix hp hdp heq'
      have hinside := (hformedAt hd).bracketed (Tree.isBracketed_of_isOpening hopening') _ hbelow'
      have := hfilled.start_le_of_mem_chain hp f.node (hfp.subset List.mem_cons_self)
      omega
  · -- what is above the child starts with its parent or in front of it
    rcases List.suffix_cons_iff.1 hup with heq' | hup
    · exact absurd (Tree.Path.eq_of_chain_eq heq').symm heq
    · have := hfilled.start_le_of_mem_chain he p.node (hup.subset List.mem_cons_self)
      omega

/-! ### Placements -/

variable {file : SourceFile} {path anchor : Path}

/-- Where the rules for markup lead from a node, before keywords are looked at. -/
def climbed? (path : Path) : Option Path :=
  wholeElement? (tagOrAttribute (wholeName path))

theorem of_climbTo?_eq_some {test : NodeKind → Bool} {node : Tree} {ancestors : List Tree}
    {top : Path} (h : climbTo? test node ancestors = some top) : test top.node.kind = true := by
  induction ancestors generalizing node with
  | nil =>
    rw [climbTo?] at h
    split_ifs at h with htest
    cases h
    exact htest
  | cons parent rest ih =>
    rw [climbTo?] at h
    split_ifs at h with htest
    · cases h
      exact htest
    · exact ih h

/-- No closing tag is left when the element has been found. -/
theorem isClosing_of_wholeElement? {top : Path} (h : wholeElement? path = some top) :
    isClosing top.node.kind = false := by
  rw [wholeElement?, contains_eq_isTag] at h
  split_ifs at h with hcond
  · obtain hkind | hkind := Tree.isElement_iff.1 (of_climbTo?_eq_some h) <;> rw [hkind]
  · cases h
    rw [Bool.or_eq_true, not_or, Bool.not_eq_true] at hcond
    revert hcond
    generalize path.node.kind = kind
    rintro ⟨hkind, -⟩
    cases kind <;> first | rfl | cases hkind

/-- A line comment goes to the node to which the rules for markup lead, or above it past a keyword.
That node is no child of an element, and no tag of a child. -/
theorem of_leadingComment (h : placementOf? file path = some (.leadingComment anchor)) :
    ∃ climbed, climbed? path = some climbed ∧ anchor = hoist file climbed ∧
      ∀ parent, climbed.parent? = some parent → isElement parent.node.kind = true →
        isMarkupChild climbed.node.kind = false ∧ (parentKind? parent).any isElement = false := by
  obtain ⟨climbed, hclimbed, h⟩ := Option.bind_eq_some_iff.1 h
  refine ⟨climbed, hclimbed, ?_⟩
  split at h
  next parent hparent =>
    split_ifs at h with helement hchild hgrand
    all_goals cases h
    · refine ⟨rfl, fun parent' hparent' _ => ?_⟩
      cases hparent.symm.trans hparent'
      exact ⟨by simpa using hchild, by simpa using hgrand⟩
    · refine ⟨rfl, fun parent' hparent' helement' => ?_⟩
      cases hparent.symm.trans hparent'
      exact absurd helement' helement
  next hparent =>
    cases h
    exact ⟨rfl, fun parent' hparent' => by simp [hparent] at hparent'⟩

theorem hoistPast_eq_or_suffix (file : SourceFile) (anchor : Path) (keyword : Grammar.Token)
    (ancestors : List Tree) :
    hoistPast file anchor keyword ancestors = anchor ∨
      (hoistPast file anchor keyword ancestors).chain <:+ ancestors := by
  induction ancestors generalizing anchor keyword with
  | nil => exact Or.inl rfl
  | cons parent rest ih =>
    rw [hoistPast]
    split_ifs
    · exact Or.inl rfl
    · right
      split
      · exact List.suffix_rfl
      next next _ =>
        rcases ih { node := parent, ancestors := rest } next with heq | hsuffix
        · rw [heq]
          exact List.suffix_rfl
        · exact hsuffix.trans (List.suffix_cons _ _)
    · exact (ih anchor keyword).imp_right fun hsuffix => hsuffix.trans (List.suffix_cons _ _)

/-- If a line comment for a node of a text without errors is put where a child of an element starts,
it stands in front of an ancestor of the node to which the rules for markup lead: it has been moved
there past a keyword that has to share its line with what follows. -/
theorem hoisted_of_startsAmongChildren {dialect : Dialect} {text : List Char} {file : SourceFile}
    (hread : SourceFile.read? dialect text = some file) (hclean : file.errors = [])
    {path anchor : Path} (hpath : path ∈ file.tree.paths)
    (hplacement : placementOf? file path = some (.leadingComment anchor))
    (hchildren : StartsAmongChildren file.tree anchor.node.start) :
    ∃ climbed keyword, climbed? path = some climbed ∧
      lineSensitiveBefore? file climbed.node.start = some keyword ∧
      anchor.node ∈ climbed.ancestors := by
  have hfile := cleanFile_of_read? hread hclean
  obtain ⟨climbed, hclimbed, rfl, hrules⟩ := of_leadingComment hplacement
  have hroot : Tree.isTag file.tree.kind = false := by rw [hfile.kind_eq]
  have hclimb := (suffix_tagOrAttribute (wholeName path)).trans (suffix_wholeName path)
  obtain ⟨top, htop, hsuffix⟩ := exists_wholeElement?
    (TagsEnclosed.of_suffix (hfile.filled.tagsEnclosed hroot hpath) hclimb)
  obtain rfl : top = climbed := Option.some.inj (htop.symm.trans hclimbed)
  have hmem := Tree.mem_paths_of_suffix hpath (hsuffix.trans hclimb)
  -- where the rules for markup lead, no child of an element starts
  have hnot : ¬ StartsAmongChildren file.tree top.node.start := by
    intro hamong
    obtain ⟨parent, hparent, helement, hcases⟩ := parents_of_start_eq hfile.filled
      (SourceFile.allFormed_of_read? hread hclean) hmem hamong
    obtain ⟨hchild, hgrand⟩ := hrules parent hparent helement
    have hclosing := isClosing_of_wholeElement? htop
    simp [hchild, hclosing, hgrand] at hcases
  unfold hoist at hchildren ⊢
  split at hchildren
  next => exact absurd hchildren hnot
  next keyword hkeyword =>
    rcases hoistPast_eq_or_suffix file top keyword top.ancestors with heq | hsuffix
    · rw [heq] at hchildren
      exact absurd hchildren hnot
    · exact ⟨top, keyword, hclimbed, hkeyword, hsuffix.subset List.mem_cons_self⟩

/-- An attribute can have the name `async`. A line comment for the attribute behind it is moved past
this name to the tag, and so it ends up between the tags of the element around it. -/
theorem hoisted_of_startsAmongChildren_attribute :
    ∃ (file : SourceFile) (path anchor climbed : Path) (keyword : Grammar.Token),
      SourceFile.read? (.ofFileName "a.tsx")
        "const e = <div><script async src=\"a\" /></div>;\n".toList = some file ∧
      file.errors = [] ∧
      nodeAt? (nodesByRange file) ⟨1, 30, 1, 33⟩ = some path ∧
      placementOf? file path = some (.leadingComment anchor) ∧
      StartsAmongChildren file.tree anchor.node.start ∧
      climbed? path = some climbed ∧
      lineSensitiveBefore? file climbed.node.start = some keyword ∧
      anchor.node ∈ climbed.ancestors := by
  -- what the reader and the match give is evaluated once; that the comment is moved follows from
  -- the theorem
  have heval : (SourceFile.read? (.ofFileName "a.tsx")
      "const e = <div><script async src=\"a\" /></div>;\n".toList).map (fun file =>
        (file.errors,
          (nodeAt? (nodesByRange file) ⟨1, 30, 1, 33⟩).map fun path =>
            (placementOf? file path).map fun placement =>
              (commentOf 0 placement, placement.anchor.start),
          file.tree.preorder.any fun element => isElement element.kind &&
            element.children.any fun child => !isOpening child.kind && child.start == 15)) =
        some ([], some (some (Directive.lineComment 0 .structural, 15)), true) := by
    decide +kernel
  obtain ⟨file, hread, hfile⟩ := Option.map_eq_some_iff.1 heval
  simp only [Prod.mk.injEq] at hfile
  obtain ⟨hclean, hmatch, hany⟩ := hfile
  obtain ⟨path, hnode, hplaced⟩ := Option.map_eq_some_iff.1 hmatch
  obtain ⟨placement, hplacement, hplaced⟩ := Option.map_eq_some_iff.1 hplaced
  obtain ⟨hcomment, hstart⟩ := Prod.mk.inj hplaced
  cases placement with
  | markupSibling anchor =>
    have hne : Directive.markupComment 0 ≠ Directive.lineComment 0 .structural := by
      decide +kernel
    exact absurd hcomment hne
  | leadingComment anchor =>
    have hamong : StartsAmongChildren file.tree anchor.node.start := by
      rw [show anchor.node.start = 15 from hstart]
      simpa [StartsAmongChildren] using hany
    have hpath : path ∈ file.tree.paths :=
      List.mem_of_find?_eq_some (nodeAt?_eq_find? file _ ▸ hnode)
    obtain ⟨climbed, keyword, hclimbed, hkeyword, hmem⟩ :=
      hoisted_of_startsAmongChildren hread hclean hpath hplacement hamong
    exact ⟨file, path, anchor, climbed, keyword, hread, hclean, hnode, hplacement, hamong, hclimbed,
      hkeyword, hmem⟩

end ExpectError.Structural
