import ExpectError.Proofs.MarkupPlaces

/-!
# No annotation inside tags and names

Inside a closing tag, inside the tags of a fragment, and in front of or inside the name of a tag, a
comment would break the markup; so it would between the first character of an attribute's name and
the attribute's value. The place of an annotation is never there. A node that is part of a name, or a
closing tag, is left behind when the rules for markup climb; what is above it starts in front of the
tag, and a keyword can only lead further up.

* `Guarded`: the places where no annotation may go;
* `climbWhile_eq_of_isName`: from a part of a name to the name;
* `suffix_of_climbed?_name`, `suffix_of_climbed?_closing`: out of names and closing tags;
* `name_or_closing_of_guarded`: what starts at these places;
* `not_guarded_of_placementOf?`: the place of an annotation.
-/

open ExpectError.Tree (Path isClosing isFragmentTag isNamed isOpening)

namespace ExpectError.Structural

open Placement

/-- The places at which a comment would break the markup. -/
inductive Guarded (tree : Tree) (offset : ℕ) : Prop
  /-- In front of the name of a tag, or inside it. -/
  | tagName {tag name : Tree} {rest : List Tree} (hmem : tag ∈ tree.preorder)
      (hkind : tag.kind = .jsxOpeningElement ∨ tag.kind = .jsxClosingElement)
      (hchildren : tag.children = name :: rest)
      (hstart : name.start ≤ offset) (hstop : offset < name.stop)
  /-- In front of a closing tag, or inside it. -/
  | closingTag {tag : Tree} (hmem : tag ∈ tree.preorder) (hkind : isClosing tag.kind = true)
      (hstart : tag.start ≤ offset) (hstop : offset < tag.stop)
  /-- Inside a tag of a fragment. -/
  | fragmentTag {tag : Tree} (hmem : tag ∈ tree.preorder) (hkind : isFragmentTag tag.kind = true)
      (hstart : tag.start < offset) (hstop : offset < tag.stop)
  /-- Behind the first character of an attribute's name, and in front of the attribute's value and of
  what stands before that: up to and including the equals sign. -/
  | attributeName {attr name : Tree} {rest : List Tree} (hmem : attr ∈ tree.preorder)
      (hkind : attr.kind = .jsxAttribute) (hchildren : attr.children = name :: rest)
      (hstart : name.start < offset) (hstop : offset < attr.stop)
      (hvalue : ∀ value ∈ rest, offset < value.start)

variable {place : ℕ → Prop} {tree : Tree} {file : SourceFile} {path p top : Path}

/-! ### Names -/

theorem contains_eq_isNamePart (kind : NodeKind) :
    [NodeKind.propertyAccessExpression, .jsxNamespacedName].contains kind =
      Tree.isNamePart kind := by
  cases kind <;> rfl

/-- From a part of a name, the climb ends at the whole name. -/
theorem climbWhile_eq_of_isName {name tag : Path} (hname : name.node.IsName)
    (htag : name.ancestors = tag.chain) (hkind : Tree.isNamePart tag.node.kind = false)
    (hp : p ∈ tree.paths) (hbelow : name.chain <:+ p.chain) :
    climbWhile [NodeKind.propertyAccessExpression, .jsxNamespacedName].contains p.node p.ancestors =
      name := by
  suffices h : climbWhile [NodeKind.propertyAccessExpression, .jsxNamespacedName].contains p.node
      p.ancestors = name ∧ p.node.IsName from h.1
  refine Tree.below_induction (motive := fun p => climbWhile _ p.node p.ancestors = name ∧
    p.node.IsName) ⟨?_, hname⟩ (fun parent _ _ ih child hchild => ?_) hp hbelow
  · obtain ⟨node, ancestors⟩ := name
    obtain rfl : ancestors = tag.node :: tag.ancestors := htag
    rw [climbWhile, contains_eq_isNamePart, if_neg (by simp [hkind])]
  · obtain ⟨hpart, hchild'⟩ := ih.2.of_mem_children hchild
    refine ⟨?_, hchild'⟩
    show climbWhile _ child (parent.node :: parent.ancestors) = name
    rw [climbWhile, contains_eq_isNamePart, if_pos hpart]
    exact ih.1

theorem parentIsAny_of_ancestors_eq {parent : Path} (h : p.ancestors = parent.chain)
    (kinds : List NodeKind) : parentIsAny kinds p = kinds.contains parent.node.kind := by
  rw [parentIsAny, parentKind?, h]
  rfl

theorem wholeName_eq_of_isName {name tag : Path} (hname : name.node.IsName)
    (htag : name.ancestors = tag.chain) (hkind : isNamed tag.node.kind = true)
    (hp : p ∈ tree.paths) (hbelow : name.chain <:+ p.chain) : wholeName p = name := by
  have hpart : Tree.isNamePart tag.node.kind = false := by
    generalize tag.node.kind = kind at hkind
    cases kind <;> first | rfl | cases hkind
  have hparent : parentIsAny [.jsxOpeningElement, .jsxClosingElement, .jsxAttribute] name = true := by
    rw [parentIsAny_of_ancestors_eq htag]
    generalize tag.node.kind = kind at hkind
    cases kind <;> first | rfl | cases hkind
  unfold wholeName
  rw [climbWhile_eq_of_isName hname htag hpart hp hbelow, if_pos hparent]

/-! ### Out of names and closing tags -/

theorem suffix_of_climbTo? {test : NodeKind → Bool} {node : Tree} {ancestors : List Tree}
    (h : climbTo? test node ancestors = some top) : top.chain <:+ node :: ancestors := by
  induction ancestors generalizing node with
  | nil =>
    rw [climbTo?] at h
    split_ifs at h
    cases h
    exact List.suffix_rfl
  | cons parent rest ih =>
    rw [climbTo?] at h
    split_ifs at h
    · cases h
      exact List.suffix_rfl
    · exact (ih h).trans (List.suffix_cons _ _)

/-- A climb to an element leaves every node behind that is no element. -/
theorem suffix_ancestors_of_climbTo? {q : Path} (hq : isElement q.node.kind = false)
    (h : climbTo? isElement p.node p.ancestors = some top) (hsuffix : top.chain <:+ q.chain) :
    top.chain <:+ q.ancestors := by
  refine (List.suffix_cons_iff.1 hsuffix).resolve_left fun heq => ?_
  have helement := of_climbTo?_eq_some h
  rw [Tree.Path.eq_of_chain_eq heq, hq] at helement
  cases helement

theorem suffix_of_wholeElement? (h : wholeElement? p = some top) : top.chain <:+ p.chain := by
  rw [wholeElement?] at h
  split_ifs at h
  · exact suffix_of_climbTo? h
  · cases h
    exact List.suffix_rfl

theorem isElement_eq_false_of_isName {t : Tree} (h : t.IsName) : isElement t.kind = false := by
  obtain ⟨kind, start, stop, children⟩ := t
  rcases h _ (by rw [Tree.preorder]; exact List.mem_cons_self) with hpart | ⟨⟨k, hk⟩, -⟩
  · replace hpart : Tree.isNamePart kind = true := hpart
    show isElement kind = false
    cases kind <;> first | rfl | cases hpart
  · rw [hk]
    rfl

/-- From a name or a part of it, the climb leads to the tag or attribute, or above it; and above it
from the name of a closing tag. -/
theorem suffix_of_climbed?_name {name tag : Path} (hname : name.node.IsName)
    (htag : name.ancestors = tag.chain) (hkind : isNamed tag.node.kind = true)
    (hp : p ∈ tree.paths) (hbelow : name.chain <:+ p.chain) (h : climbed? p = some top) :
    top.chain <:+ tag.chain ∧
      (tag.node.kind = .jsxClosingElement → top.chain <:+ tag.ancestors) := by
  rw [climbed?, wholeName_eq_of_isName hname htag hkind hp hbelow, tagOrAttribute,
    parentIsAny_of_ancestors_eq htag] at h
  have hparent : name.parent? = some tag := by
    rw [Path.parent?, htag]
    rfl
  by_cases hclosing : tag.node.kind = .jsxClosingElement
  · rw [hclosing, if_neg (by decide), wholeElement?, parentIsAny_of_ancestors_eq htag, hclosing,
      if_pos (by simp)] at h
    have hsuffix := suffix_ancestors_of_climbTo? (isElement_eq_false_of_isName hname) h
      (suffix_of_climbTo? h)
    rw [htag] at hsuffix
    exact ⟨hsuffix, fun _ => suffix_ancestors_of_climbTo? (by rw [hclosing]; rfl) h hsuffix⟩
  · have hopening : [NodeKind.jsxOpeningElement, .jsxAttribute].contains tag.node.kind = true := by
      generalize tag.node.kind = kind at hkind hclosing
      cases kind <;> first | rfl | exact absurd rfl hclosing | cases hkind
    rw [if_pos hopening, hparent] at h
    exact ⟨suffix_of_wholeElement? h, fun h => absurd h hclosing⟩

/-- From a closing tag, the climb leads above it. -/
theorem suffix_of_climbed?_closing {parent : Path} (hkind : isClosing p.node.kind = true)
    (hancestors : p.ancestors = parent.chain) (hparent : isElement parent.node.kind = true)
    (h : climbed? p = some top) : top.chain <:+ p.ancestors := by
  have hwhole : wholeName p = p := by
    have hclimb : climbWhile [NodeKind.propertyAccessExpression, .jsxNamespacedName].contains p.node
        p.ancestors = p := by
      obtain ⟨node, ancestors⟩ := p
      obtain rfl : ancestors = parent.node :: parent.ancestors := hancestors
      rw [climbWhile, if_neg]
      obtain hkind | hkind := Tree.isElement_iff.1 hparent <;> rw [hkind] <;> decide
    unfold wholeName
    rw [hclimb, ite_self]
  have htag : tagOrAttribute p = p := by
    rw [tagOrAttribute, parentIsAny_of_ancestors_eq hancestors, if_neg]
    obtain hkind | hkind := Tree.isElement_iff.1 hparent <;> rw [hkind] <;> decide
  have hcontains : [NodeKind.jsxClosingElement, .jsxOpeningFragment, .jsxClosingFragment].contains
      p.node.kind = true := by
    generalize p.node.kind = kind at hkind
    cases kind <;> first | rfl | cases hkind
  rw [climbed?, hwhole, htag, wholeElement?, hcontains, Bool.true_or, if_pos rfl] at h
  refine suffix_ancestors_of_climbTo? ?_ h (suffix_of_climbTo? h)
  generalize p.node.kind = kind at hkind
  cases kind <;> first | rfl | cases hkind

/-! ### The place of an annotation -/

/-- The anchor is the node to which the rules for markup lead, or one of its ancestors. -/
theorem exists_suffix_of_placementOf? {placement : Placement}
    (h : placementOf? file path = some placement) :
    ∃ climbed anchor : Path, climbed? path = some climbed ∧ anchor.chain <:+ climbed.chain ∧
      placement.anchor = anchor.node := by
  obtain ⟨climbed, hclimbed, h⟩ := Option.bind_eq_some_iff.1 h
  refine ⟨climbed, ?_⟩
  split at h
  next parent hparent =>
    split_ifs at h
    all_goals cases h
    · exact ⟨climbed, hclimbed, List.suffix_rfl, rfl⟩
    · exact ⟨parent, hclimbed, suffix_parent hparent, rfl⟩
    · exact ⟨_, hclimbed, suffix_hoist file climbed, rfl⟩
    · exact ⟨_, hclimbed, suffix_hoist file climbed, rfl⟩
  next =>
    cases h
    exact ⟨_, hclimbed, suffix_hoist file climbed, rfl⟩

theorem exists_path_of_mem_preorder {t : Tree} (h : t ∈ tree.preorder) :
    ∃ q ∈ tree.paths, q.node = t := by
  rwa [← Tree.map_node_paths, List.mem_map] at h

/-- No suffix of a list begins with an element in front of the list. -/
theorem not_cons_suffix {α : Type} (a : α) (l : List α) : ¬ a :: l <:+ l := fun h => by
  have := h.length_le
  simp at this

section

variable {climbed anchor : Path} (hpath : path ∈ tree.paths) (hclimbed : climbed? path = some climbed)
  (hanchor : anchor.chain <:+ climbed.chain) (hclimb : climbed.chain <:+ path.chain)

include hpath hclimbed hanchor hclimb

/-- The anchor is no part of a name. -/
theorem not_suffix_name {name tag : Path} (hname : name.node.IsName)
    (htag : name.ancestors = tag.chain) (hkind : isNamed tag.node.kind = true) :
    ¬ name.chain <:+ anchor.chain := by
  intro hbelow
  have htop := (suffix_of_climbed?_name hname htag hkind hpath
    ((hbelow.trans hanchor).trans hclimb) hclimbed).1
  have hup := (hbelow.trans hanchor).trans htop
  rw [Path.chain, htag] at hup
  exact not_cons_suffix _ _ hup

/-- The anchor is neither a closing tag nor inside one. -/
theorem not_suffix_closing {closing parent : Path}
    (hform : Tree.TagForm closing.node.kind closing.node.children)
    (hkind : isClosing closing.node.kind = true) (hancestors : closing.ancestors = parent.chain)
    (hparent : isElement parent.node.kind = true) : ¬ closing.chain <:+ anchor.chain := by
  intro hbelow
  have hdown := (hbelow.trans hanchor).trans hclimb
  have htop : climbed.chain <:+ closing.ancestors := by
    by_cases heq : closing = path
    · exact heq ▸ suffix_of_climbed?_closing (heq ▸ hkind) (heq ▸ hancestors) hparent hclimbed
    · -- below a closing tag there is only its name
      obtain ⟨d, -, hd, hchild, hdown'⟩ := Tree.exists_step_of_suffix hpath hdown heq
      have hfragment : closing.node.kind ≠ .jsxClosingFragment := fun h => by
        rw [hform.bare (by rw [h])] at hchild
        cases hchild
      have htag : closing.node.kind = .jsxClosingElement := by
        generalize closing.node.kind = kind at hkind hfragment
        cases kind <;> first | rfl | exact absurd rfl hfragment | cases hkind
      obtain ⟨name, rest, hchildren, hname, hrest⟩ := hform.named (by rw [htag])
      rw [hchildren, hrest htag, List.mem_singleton] at hchild
      exact (suffix_of_climbed?_name (hchild ▸ hname) hd (by rw [htag]) hpath hdown' hclimbed).2 htag
  exact not_cons_suffix _ _ ((hbelow.trans hanchor).trans htop)

end

theorem exists_element_of_closing {closing : Path} (hfile : CleanFile file)
    (hclosing : closing ∈ file.tree.paths) (hkind : isClosing closing.node.kind = true) :
    ∃ parent ∈ file.tree.paths, closing.ancestors = parent.chain ∧
      isElement parent.node.kind = true ∧ closing.node ∈ parent.node.children := by
  have hroot : Tree.isTag file.tree.kind = false := by rw [hfile.kind_eq]
  have htag : Tree.isTag closing.node.kind = true := by
    generalize closing.node.kind = kind at hkind
    cases kind <;> first | rfl | cases hkind
  have henclosed := hfile.filled.tagsEnclosed hroot hclosing
  rcases Tree.parent_of_mem_pathsBelow _ hclosing with rfl | ⟨parent, hparent, hancestors, hchild⟩
  · rw [hroot] at htag
    cases htag
  · rw [Path.chain, hancestors] at henclosed
    exact ⟨parent, hparent, hancestors, henclosed.1 htag, hchild⟩

/-- A node that starts at such a place is part of a name, or it is a closing tag or inside one. -/
theorem name_or_closing_of_guarded (hfile : CleanFile file)
    (hformed : ∀ {q : Path}, q ∈ file.tree.paths → q.node.Formed) (hp : p ∈ file.tree.paths)
    (h : Guarded file.tree p.node.start) :
    (∃ name tag : Path, name.node.IsName ∧ name.ancestors = tag.chain ∧
        isNamed tag.node.kind = true ∧ name.chain <:+ p.chain) ∨
      ∃ closing parent : Path, Tree.TagForm closing.node.kind closing.node.children ∧
        isClosing closing.node.kind = true ∧ closing.ancestors = parent.chain ∧
        isElement parent.node.kind = true ∧ closing.chain <:+ p.chain := by
  have hfilled := hfile.filled
  cases h with
  | @tagName _ name rest hpre hkind hchildren hstart hstop =>
    obtain ⟨tag, htag, rfl⟩ := exists_path_of_mem_preorder hpre
    have hchild : name ∈ tag.node.children := hchildren ▸ List.mem_cons_self
    have hnamed : isNamed tag.node.kind = true := by rcases hkind with h | h <;> rw [h]
    have hbracketed : Tree.isBracketed tag.node.kind = true := by rcases hkind with h | h <;> rw [h]
    -- the name starts behind the `<`, so what starts inside it lies below it
    have hbelow := hfilled.suffix_of_inside (Tree.child_mem_paths htag hchild) hp rfl
      ((hformed htag).bracketed hbracketed name hchild) hstart hstop
    have hname : name.IsName := (hchildren ▸ (hformed htag).tag).isName hnamed
    exact Or.inl ⟨_, tag, hname, rfl, hnamed, hbelow⟩
  | @closingTag _ hpre hkind hstart hstop =>
    obtain ⟨closing, hclosing, rfl⟩ := exists_path_of_mem_preorder hpre
    obtain ⟨parent, hparent, hancestors, helement, hchild⟩ :=
      exists_element_of_closing hfile hclosing hkind
    have hopening : isOpening closing.node.kind = false := by
      generalize closing.node.kind = kind at hkind
      cases kind <;> first | rfl | cases hkind
    have hlt := (child_of_element (Tree.Filled.of_mem_pathsBelow _ hfilled hparent)
      (hformed hparent) helement hchild hopening).1
    have hbelow := hfilled.suffix_of_inside hclosing hp hancestors hlt hstart hstop
    exact Or.inr ⟨closing, parent, (hformed hclosing).tag, hkind, hancestors, helement, hbelow⟩
  | @fragmentTag _ hpre hkind hstart hstop =>
    obtain ⟨tag, htag, rfl⟩ := exists_path_of_mem_preorder hpre
    -- the tag of a fragment has no children
    obtain ⟨d, -, -, hchild, -⟩ := hfilled.exists_child_of_inside htag hp hstart hstop
    rw [(hformed htag).tag.bare hkind] at hchild
    cases hchild
  | @attributeName _ name rest hpre hkind hchildren hstart hstop hvalue =>
    obtain ⟨attr, hattr, rfl⟩ := exists_path_of_mem_preorder hpre
    have hname : name.IsName := (hchildren ▸ (hformed hattr).tag).isName (by rw [hkind])
    have hle : attr.node.start ≤ name.start := hfilled.start_le_of_mem_chain
      (Tree.child_mem_paths hattr (hchildren ▸ List.mem_cons_self)) _
      (List.mem_cons_of_mem _ List.mem_cons_self)
    obtain ⟨d, -, hancestors, hchild, hbelow⟩ :=
      hfilled.exists_child_of_inside hattr hp (hle.trans_lt hstart) hstop
    rw [hchildren] at hchild
    rcases List.mem_cons.1 hchild with hd | hd
    · exact Or.inl ⟨d, attr, hd ▸ hname, hancestors, by rw [hkind], hbelow⟩
    · -- the value stands behind the place
      have := hfilled.start_le_of_mem_chain hp d.node (hbelow.subset List.mem_cons_self)
      have := hvalue _ hd
      omega

/-- In a text that is read without errors, every node has a place for its annotation, and that place
is not where a comment would break the markup: not at or inside the name of a tag, not at or inside a
closing tag, not inside a tag of a fragment, and not between the first character of an attribute's
name and the attribute's value. -/
theorem not_guarded_of_placementOf? {dialect : Dialect} {text : List Char} {file : SourceFile}
    (hread : SourceFile.read? dialect text = some file) (hclean : file.errors = []) {path : Path}
    (hpath : path ∈ file.tree.paths) :
    ∃ placement, placementOf? file path = some placement ∧
      ¬ Guarded file.tree placement.anchor.start := by
  have hfile := cleanFile_of_read? hread hclean
  have hroot : Tree.isTag file.tree.kind = false := by rw [hfile.kind_eq]
  obtain ⟨placement, hplacement, -⟩ :=
    exists_placementOf? file (hfile.filled.tagsEnclosed hroot hpath)
  obtain ⟨climbed, anchor, hclimbed, hsuffix, hanchor⟩ := exists_suffix_of_placementOf? hplacement
  have hclimb : climbed.chain <:+ path.chain := (suffix_of_wholeElement? hclimbed).trans
    ((suffix_tagOrAttribute _).trans (suffix_wholeName path))
  have hmem := Tree.mem_paths_of_suffix hpath (hsuffix.trans hclimb)
  have hformed : ∀ {q : Path}, q ∈ file.tree.paths → q.node.Formed := fun hq =>
    SourceFile.allFormed_of_read? hread hclean _
      (Tree.map_node_paths file.tree ▸ List.mem_map_of_mem hq)
  refine ⟨placement, hplacement, fun hguarded => ?_⟩
  rw [hanchor] at hguarded
  rcases name_or_closing_of_guarded hfile hformed hmem hguarded with
    ⟨name, tag, hname, htag, hkind, hbelow⟩ |
    ⟨closing, parent, hform, hkind, hancestors, helement, hbelow⟩
  · exact not_suffix_name hpath hclimbed hsuffix hclimb hname htag hkind hbelow
  · exact not_suffix_closing hpath hclimbed hsuffix hclimb hform hkind hancestors helement hbelow

/-- The last part of the name in a closing tag starts inside the tag; its annotation goes elsewhere. -/
theorem not_guarded_of_placementOf?_closing :
    ∃ (file : SourceFile) (path : Path) (placement : Placement),
      SourceFile.read? (.ofFileName "a.tsx")
        "const e = <a.b n:m=\"1\"><><this.x /></></a.b>;\n".toList = some file ∧
      file.errors = [] ∧
      nodeAt? (nodesByRange file) ⟨1, 43, 1, 44⟩ = some path ∧
      Guarded file.tree path.node.start ∧
      placementOf? file path = some placement ∧ ¬ Guarded file.tree placement.anchor.start := by
  have heval : (SourceFile.read? (.ofFileName "a.tsx")
      "const e = <a.b n:m=\"1\"><><this.x /></></a.b>;\n".toList).map (fun file =>
        (file.errors, (nodeAt? (nodesByRange file) ⟨1, 43, 1, 44⟩).map fun path => path.node.start,
          file.tree.preorder.any fun tag => isClosing tag.kind && decide (tag.start ≤ 42) &&
            decide (42 < tag.stop))) = some ([], some 42, true) := by
    decide +kernel
  obtain ⟨file, hread, hfile⟩ := Option.map_eq_some_iff.1 heval
  simp only [Prod.mk.injEq] at hfile
  obtain ⟨hclean, hmatch, hany⟩ := hfile
  obtain ⟨path, hnode, hstart⟩ := Option.map_eq_some_iff.1 hmatch
  have hpath : path ∈ file.tree.paths :=
    List.mem_of_find?_eq_some (nodeAt?_eq_find? file _ ▸ hnode)
  have hguarded : Guarded file.tree path.node.start := by
    obtain ⟨tag, htag, hcond⟩ := List.any_eq_true.1 hany
    simp only [Bool.and_eq_true, decide_eq_true_eq] at hcond
    obtain ⟨⟨hkind, hle⟩, hlt⟩ := hcond
    exact .closingTag htag hkind (hstart ▸ hle) (hstart ▸ hlt)
  obtain ⟨placement, hplacement, hnot⟩ := not_guarded_of_placementOf? hread hclean hpath
  exact ⟨file, path, placement, hread, hclean, hnode, hguarded, hplacement, hnot⟩

end ExpectError.Structural
