import ExpectError.Proofs.Layout

/-!
# The form of markup

What the nodes of markup look like in a text that is read without errors. An element or a fragment
begins with its opening tag; behind it there are only nodes that can stand between tags, and the
closing tag. Inside a tag or an expression in braces nothing starts where the whole starts, and text
is a leaf. A tag of an element and an attribute begin with a name, which may have several parts; there
is nothing else in a closing tag, and nothing at all in the tags of a fragment.

* `Tree.IsName`: the names of tags and attributes;
* `Tree.Formed`: the form of one node;
* `Tree.AllFormed`: that of all nodes of a tree;
* `Tree.Inner`: the root is the only node that stands for the whole file.
-/

namespace ExpectError.Tree

open Placement (isElement isMarkupChild)

/-- The opening tags. -/
@[reducible] def isOpening : NodeKind → Bool
  | .jsxOpeningElement | .jsxOpeningFragment => true
  | _ => false

/-- The closing tags. -/
@[reducible] def isClosing : NodeKind → Bool
  | .jsxClosingElement | .jsxClosingFragment => true
  | _ => false

/-- The nodes of markup that begin with a mark of their own. -/
@[reducible] def isBracketed : NodeKind → Bool
  | .jsxExpression | .jsxOpeningElement | .jsxOpeningFragment | .jsxClosingElement
  | .jsxClosingFragment => true
  | _ => false

/-- The tags of a fragment. -/
@[reducible] def isFragmentTag : NodeKind → Bool
  | .jsxOpeningFragment | .jsxClosingFragment => true
  | _ => false

/-- The nodes of markup that begin with a name. -/
@[reducible] def isNamed : NodeKind → Bool
  | .jsxOpeningElement | .jsxClosingElement | .jsxAttribute => true
  | _ => false

/-- What a name of several parts is made of. -/
@[reducible] def isNamePart : NodeKind → Bool
  | .propertyAccessExpression | .jsxNamespacedName => true
  | _ => false

/-- The nodes about whose children something is said, text apart, and the root. -/
@[reducible] def isMarkupNode : NodeKind → Bool
  | .jsxElement | .jsxFragment | .jsxExpression | .jsxOpeningElement | .jsxOpeningFragment
  | .jsxClosingElement | .jsxClosingFragment | .jsxAttribute | .sourceFile => true
  | _ => false

/-- The nodes that are made of pieces in the productions of markup only, and those that are never
made of pieces. -/
@[reducible] def isMarkup : NodeKind → Bool
  | .token _ | .jsxElement | .jsxFragment | .jsxExpression | .jsxOpeningElement
  | .jsxOpeningFragment | .jsxClosingElement | .jsxClosingFragment | .jsxAttribute
  | .sourceFile => true
  | _ => false

theorem isElement_iff {kind : NodeKind} :
    isElement kind = true ↔ kind = .jsxElement ∨ kind = .jsxFragment := by
  simp [isElement]

theorem isMarkup_of_isBracketed {kind : NodeKind} (h : isBracketed kind = true) :
    isMarkup kind = true := by
  cases kind <;> first | rfl | exact h

theorem isBracketed_of_isOpening {kind : NodeKind} (h : isOpening kind = true) :
    isBracketed kind = true := by
  cases kind <;> first | rfl | cases h

theorem isBracketed_of_isClosing {kind : NodeKind} (h : isClosing kind = true) :
    isBracketed kind = true := by
  cases kind <;> first | rfl | cases h

theorem isNamed_eq_false {kind : NodeKind} (h : isFragmentTag kind = true) : isNamed kind = false := by
  cases kind <;> first | rfl | cases h

theorem isTag_eq_false {kind : NodeKind} (h : isMarkupNode kind = false) : isTag kind = false := by
  cases kind <;> first | rfl | cases h

theorem isTag_eq_false_of_isMarkup {kind : NodeKind} (h : isMarkup kind = false) :
    isTag kind = false := by
  cases kind <;> first | rfl | cases h

theorem ne_token_of_isMarkup {kind : NodeKind} (h : isMarkup kind = false) (k : TokenKind) :
    kind ≠ .token k := by
  rintro rfl
  cases h

theorem ne_sourceFile_of_isMarkupNode {kind : NodeKind} (h : isMarkupNode kind = false) :
    kind ≠ .sourceFile := by
  rintro rfl
  cases h

theorem ne_sourceFile_of_isMarkup {kind : NodeKind} (h : isMarkup kind = false) :
    kind ≠ .sourceFile := by
  rintro rfl
  cases h

theorem ne_sourceFile_of_isBracketed {kind : NodeKind} (h : isBracketed kind = true) :
    kind ≠ .sourceFile := by
  rintro rfl
  cases h

theorem ne_sourceFile_of_isElement {kind : NodeKind} (h : isElement kind = true) :
    kind ≠ .sourceFile := by
  rintro rfl
  cases h

theorem ne_token_of_isBracketed {kind : NodeKind} (h : isBracketed kind = true) (k : TokenKind) :
    kind ≠ .token k := by
  rintro rfl
  cases h

theorem ne_token_of_isElement {kind : NodeKind} (h : isElement kind = true) (k : TokenKind) :
    kind ≠ .token k := by
  rintro rfl
  cases h

/-- A name: a word, or names joined by dots or a colon. -/
def IsName (t : Tree) : Prop :=
  ∀ u ∈ t.preorder, isNamePart u.kind = true ∨ (∃ k, u.kind = .token k) ∧ u.children = []

/-- What tags and attributes hold: their name first, nothing else in a closing tag, and nothing at all
in the tags of a fragment. -/
structure TagForm (kind : NodeKind) (children : List Tree) : Prop where
  named : isNamed kind = true → ∃ name rest, children = name :: rest ∧ name.IsName ∧
    (kind = .jsxClosingElement → rest = [])
  bare : isFragmentTag kind = true → children = []

theorem TagForm.isName {kind : NodeKind} {name : Tree} {rest : List Tree}
    (h : TagForm kind (name :: rest)) (hkind : isNamed kind = true) : name.IsName := by
  obtain ⟨first, others, heq, hname, -⟩ := h.named hkind
  obtain ⟨rfl, -⟩ := List.cons.inj heq
  exact hname

/-- The form of a node of markup. -/
structure Formed (t : Tree) : Prop where
  element : isElement t.kind = true → ∃ opening rest, t.children = opening :: rest ∧
    isOpening opening.kind = true ∧ opening.start = t.start ∧
    ∀ child ∈ rest, isMarkupChild child.kind = true ∨ isClosing child.kind = true
  bracketed : isBracketed t.kind = true → ∀ child ∈ t.children, t.start < child.start
  text : t.kind = .token .jsxText → t.children = []
  tag : TagForm t.kind t.children

/-- All nodes of a tree have the form that goes with their kind. -/
def AllFormed (t : Tree) : Prop :=
  ∀ u ∈ t.preorder, u.Formed

theorem mem_preorderAll {u : Tree} {ts : List Tree} :
    u ∈ preorderAll ts ↔ ∃ t ∈ ts, u ∈ t.preorder := by
  induction ts with
  | nil => simp [preorderAll]
  | cons t ts ih => simp [preorderAll, ih]

theorem AllFormed.node {kind : NodeKind} {start stop : ℕ} {children : List Tree}
    (h : Formed (.node kind start stop children)) (hchildren : ∀ t ∈ children, t.AllFormed) :
    AllFormed (.node kind start stop children) := by
  intro u hu
  rw [preorder, List.mem_cons, mem_preorderAll] at hu
  rcases hu with rfl | ⟨t, ht, hu⟩
  · exact h
  · exact hchildren t ht u hu

theorem isName_leaf (k : TokenKind) (start stop : ℕ) : (leaf (.token k) start stop).IsName := by
  intro u hu
  obtain rfl : u = leaf (.token k) start stop := by simpa [leaf, preorder, preorderAll] using hu
  exact Or.inr ⟨⟨k, rfl⟩, rfl⟩

theorem IsName.node {kind : NodeKind} (hkind : isNamePart kind = true) {start stop : ℕ}
    {parts : List Tree} (h : ∀ part ∈ parts, part.IsName) :
    (Tree.node kind start stop parts).IsName := by
  intro u hu
  rw [preorder, List.mem_cons, mem_preorderAll] at hu
  rcases hu with rfl | ⟨part, hpart, hu⟩
  · exact Or.inl hkind
  · exact h part hpart u hu

theorem IsName.of_mem_children {t child : Tree} (h : t.IsName) (hchild : child ∈ t.children) :
    isNamePart t.kind = true ∧ child.IsName := by
  obtain ⟨kind, start, stop, children⟩ := t
  refine ⟨(h _ (by rw [preorder]; exact List.mem_cons_self)).resolve_right fun hleaf => ?_,
    fun u hu => h u ?_⟩
  · rw [hleaf.2] at hchild
    cases hchild
  · rw [preorder, List.mem_cons, mem_preorderAll]
    exact Or.inr ⟨child, hchild, hu⟩

/-- Nothing is said about other nodes than tags and attributes. -/
theorem tagForm_of_ne {kind : NodeKind} (hnamed : isNamed kind = false)
    (hbare : isFragmentTag kind = false) (children : List Tree) : TagForm kind children :=
  ⟨fun h => absurd h (by simp [hnamed]), fun h => absurd h (by simp [hbare])⟩

theorem tagForm_of_isMarkupNode_eq_false {kind : NodeKind} (h : isMarkupNode kind = false)
    (children : List Tree) : TagForm kind children := by
  refine tagForm_of_ne ?_ ?_ children <;> cases kind <;> first | rfl | cases h

theorem tagForm_of_isElement {kind : NodeKind} (h : isElement kind = true) (children : List Tree) :
    TagForm kind children := by
  obtain rfl | rfl := isElement_iff.1 h <;> exact tagForm_of_ne rfl rfl children

theorem allFormed_leaf {kind : NodeKind} (h : isMarkupNode kind = false) (start stop : ℕ) :
    AllFormed (leaf kind start stop) := by
  refine .node ⟨fun helement => ?_, fun _ child hchild => ?_, fun _ => rfl,
    tagForm_of_isMarkupNode_eq_false h _⟩ (by simp)
  · obtain rfl | rfl := isElement_iff.1 helement <;> cases h
  · cases hchild

/-- Nothing is said about nodes of other kinds. -/
theorem formed_of_isMarkup_eq_false {kind : NodeKind} (h : isMarkup kind = false) (start stop : ℕ)
    (children : List Tree) : Formed (.node kind start stop children) := by
  refine ⟨fun helement => ?_, fun hbracketed => ?_, fun htext => ?_,
    tagForm_of_isMarkupNode_eq_false ?_ _⟩
  · obtain rfl | rfl := isElement_iff.1 helement <;> cases h
  · rw [@isMarkup_of_isBracketed kind hbracketed] at h
    cases h
  · obtain rfl : kind = .token .jsxText := htext
    cases h
  · cases kind <;> first | rfl | cases h

theorem formed_sourceFile (start stop : ℕ) (children : List Tree) :
    Formed (.node .sourceFile start stop children) :=
  ⟨fun h => (Bool.false_ne_true h).elim, fun h => (Bool.false_ne_true h).elim, nofun,
    tagForm_of_ne rfl rfl _⟩

theorem formed_of_isBracketed {kind : NodeKind} (hkind : isBracketed kind = true) {start stop : ℕ}
    {children : List Tree} (h : ∀ child ∈ children, start < child.start)
    (htag : TagForm kind children) : Formed (.node kind start stop children) := by
  refine ⟨fun helement => ?_, fun _ => h, fun htext => ?_, htag⟩
  · obtain rfl | rfl := isElement_iff.1 helement <;> cases hkind
  · obtain rfl : kind = .token .jsxText := htext
    cases hkind

theorem formed_attribute {start stop : ℕ} {name : Tree} (hname : name.IsName) (rest : List Tree) :
    Formed (.node .jsxAttribute start stop (name :: rest)) :=
  ⟨fun h => (Bool.false_ne_true h).elim, fun h => (Bool.false_ne_true h).elim, nofun,
    ⟨fun _ => ⟨name, rest, rfl, hname, nofun⟩, fun h => (Bool.false_ne_true h).elim⟩⟩

/-! ### The root -/

/-- No node of the tree stands for a whole file. -/
def Inner (t : Tree) : Prop :=
  ∀ u ∈ t.preorder, u.kind ≠ .sourceFile

theorem Inner.node {kind : NodeKind} (hkind : kind ≠ .sourceFile) {start stop : ℕ}
    {children : List Tree} (h : ∀ t ∈ children, t.Inner) :
    (Tree.node kind start stop children).Inner := by
  intro u hu
  rw [preorder, List.mem_cons, mem_preorderAll] at hu
  rcases hu with rfl | ⟨t, ht, hu⟩
  · exact hkind
  · exact h t ht u hu

theorem Inner.kind_ne {t : Tree} (h : t.Inner) : t.kind ≠ .sourceFile := by
  obtain ⟨kind, start, stop, children⟩ := t
  exact h _ (by rw [preorder]; exact List.mem_cons_self)

theorem Inner.of_mem_children {t child : Tree} (h : t.Inner) (hchild : child ∈ t.children) :
    child.Inner := by
  obtain ⟨kind, start, stop, children⟩ := t
  intro u hu
  refine h u ?_
  rw [preorder, List.mem_cons, mem_preorderAll]
  exact Or.inr ⟨child, hchild, hu⟩

theorem inner_leaf {kind : NodeKind} (hkind : kind ≠ .sourceFile) (start stop : ℕ) :
    (leaf kind start stop).Inner :=
  .node hkind (by simp)

end ExpectError.Tree
