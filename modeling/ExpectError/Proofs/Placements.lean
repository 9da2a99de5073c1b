import ExpectError.Proofs.Layout

/-!
# Every node has a place for its annotation

The search for the place of an annotation only climbs: the anchor is the node itself or one of its
ancestors. It fails nowhere, since a tag that is no place for an annotation stands inside an element.

* `suffix_wholeName`, `suffix_tagOrAttribute`, `suffix_hoist`: each step climbs;
* `exists_wholeElement?`: from a tag there is always an element to climb to;
* `exists_placementOf?`: the search as a whole.
-/

open ExpectError.Tree (Path TagsEnclosed isTag)

namespace ExpectError.Placement

/-! ### Each step climbs -/

theorem suffix_climbWhile (test : NodeKind → Bool) (node : Tree) (ancestors : List Tree) :
    (climbWhile test node ancestors).chain <:+ node :: ancestors := by
  induction ancestors generalizing node with
  | nil => exact List.suffix_rfl
  | cons parent rest ih =>
    rw [climbWhile]
    split
    · exact (ih parent).trans (List.suffix_cons _ _)
    · exact List.suffix_rfl

theorem suffix_wholeName (path : Path) : (wholeName path).chain <:+ path.chain := by
  unfold wholeName
  dsimp only
  split
  · exact suffix_climbWhile _ _ _
  · exact List.suffix_rfl

theorem suffix_parent {path parent : Path} (h : path.parent? = some parent) :
    parent.chain <:+ path.chain := by
  obtain ⟨node, ancestors⟩ := path
  cases ancestors with
  | nil => cases h
  | cons first rest => cases h; exact List.suffix_cons _ _

theorem suffix_tagOrAttribute (path : Path) : (tagOrAttribute path).chain <:+ path.chain := by
  unfold tagOrAttribute
  split
  · cases h : path.parent? with
    | none => exact List.suffix_rfl
    | some parent => exact suffix_parent h
  · exact List.suffix_rfl

/-- The ancestors that are still to be looked at are ancestors of the anchor. -/
theorem suffix_hoistPast (file : SourceFile) {anchor : Path} (keyword : Grammar.Token)
    {ancestors : List Tree} (h : ancestors <:+ anchor.ancestors) :
    (hoistPast file anchor keyword ancestors).chain <:+ anchor.chain := by
  induction ancestors generalizing anchor keyword with
  | nil => exact List.suffix_rfl
  | cons parent rest ih =>
    have hparent : parent :: rest <:+ anchor.chain := h.trans (List.suffix_cons _ _)
    rw [hoistPast]
    split
    · exact List.suffix_rfl
    · split
      · split
        · exact hparent
        · exact (ih _ List.suffix_rfl).trans hparent
      · exact ih _ ((List.suffix_cons _ _).trans h)

theorem suffix_hoist (file : SourceFile) (path : Path) :
    (hoist file path).chain <:+ path.chain := by
  unfold hoist
  split
  · exact List.suffix_rfl
  · exact suffix_hoistPast file _ List.suffix_rfl

/-! ### Out of tags -/

theorem exists_climbTo? {test : NodeKind → Bool} {node : Tree} {ancestors : List Tree}
    (h : ∃ t ∈ node :: ancestors, test t.kind = true) :
    ∃ path, climbTo? test node ancestors = some path ∧ path.chain <:+ node :: ancestors := by
  induction ancestors generalizing node with
  | nil =>
    obtain ⟨t, ht, htest⟩ := h
    obtain rfl := List.mem_singleton.1 ht
    exact ⟨_, by rw [climbTo?, if_pos htest], List.suffix_rfl⟩
  | cons parent rest ih =>
    rw [climbTo?]
    split
    · exact ⟨_, rfl, List.suffix_rfl⟩
    next hnode =>
      obtain ⟨t, ht, htest⟩ := h
      have hparent : ∃ t ∈ parent :: rest, test t.kind = true := by
        rcases List.mem_cons.1 ht with rfl | ht
        · exact absurd htest hnode
        · exact ⟨t, ht, htest⟩
      obtain ⟨path, hpath, hsuffix⟩ := ih hparent
      exact ⟨path, hpath, hsuffix.trans (List.suffix_cons _ _)⟩

theorem contains_eq_isTag (kind : NodeKind) :
    [NodeKind.jsxClosingElement, .jsxOpeningFragment, .jsxClosingFragment].contains kind =
      isTag kind := by
  cases kind <;> rfl

theorem TagsEnclosed.of_suffix {ts us : List Tree} (h : TagsEnclosed us) (hsuffix : ts <:+ us) :
    TagsEnclosed ts := by
  induction us with
  | nil => rw [List.suffix_nil.1 hsuffix]; trivial
  | cons u us ih =>
    rcases List.suffix_cons_iff.1 hsuffix with rfl | hsuffix
    · exact h
    · cases us with
      | nil => rw [List.suffix_nil.1 hsuffix]; trivial
      | cons v us => exact ih h.2 hsuffix

/-- Among the ancestors of a tag there is an element. -/
theorem exists_element_of_tag {node : Tree} {ancestors : List Tree}
    (h : TagsEnclosed (node :: ancestors)) (htag : isTag node.kind = true) :
    ∃ t ∈ ancestors, isElement t.kind = true := by
  cases ancestors with
  | nil => exact absurd htag (by simpa [TagsEnclosed] using h)
  | cons parent rest => exact ⟨parent, List.mem_cons_self, h.1 htag⟩

theorem exists_wholeElement? {path : Path} (h : TagsEnclosed path.chain) :
    ∃ whole, wholeElement? path = some whole ∧ whole.chain <:+ path.chain := by
  unfold wholeElement?
  rw [contains_eq_isTag]
  split
  next hcond =>
    apply exists_climbTo?
    rcases Bool.or_eq_true _ _ ▸ hcond with htag | hparent
    · obtain ⟨t, ht, helement⟩ := exists_element_of_tag h htag
      exact ⟨t, List.mem_cons_of_mem _ ht, helement⟩
    · -- the parent is a closing tag, so the element is above it
      obtain ⟨node, ancestors⟩ := path
      cases ancestors with
      | nil => cases hparent
      | cons parent rest =>
        have htag : isTag parent.kind = true := by
          have : parent.kind = .jsxClosingElement := by
            simpa [parentIsAny, parentKind?] using hparent
          simp [this]
        obtain ⟨t, ht, helement⟩ := exists_element_of_tag h.2 htag
        exact ⟨t, List.mem_cons_of_mem _ (List.mem_cons_of_mem _ ht), helement⟩
  next => exact ⟨path, rfl, List.suffix_rfl⟩

/-! ### The search as a whole -/

theorem anchor_mem_of_suffix {path top : Path} (h : path.chain <:+ top.chain) :
    path.node ∈ top.chain :=
  h.subset List.mem_cons_self

/-- The place of an annotation: its anchor is the node or one of its ancestors. -/
theorem exists_placementOf? (file : SourceFile) {path : Path} (h : TagsEnclosed path.chain) :
    ∃ placement, placementOf? file path = some placement ∧ placement.anchor ∈ path.chain := by
  have hclimb := (suffix_tagOrAttribute (wholeName path)).trans (suffix_wholeName path)
  obtain ⟨whole, hwhole, hsuffix⟩ := exists_wholeElement? (TagsEnclosed.of_suffix h hclimb)
  have hsuffix := hsuffix.trans hclimb
  have hhoist := (suffix_hoist file whole).trans hsuffix
  simp only [placementOf?, hwhole, Option.bind_eq_bind, Option.bind_some]
  split
  next parent hparent =>
    have hparent := (suffix_parent hparent).trans hsuffix
    split_ifs
    · exact ⟨_, rfl, anchor_mem_of_suffix hsuffix⟩
    · exact ⟨_, rfl, anchor_mem_of_suffix hparent⟩
    · exact ⟨_, rfl, anchor_mem_of_suffix hhoist⟩
    · exact ⟨_, rfl, anchor_mem_of_suffix hhoist⟩
  next => exact ⟨_, rfl, anchor_mem_of_suffix hhoist⟩

end ExpectError.Placement
