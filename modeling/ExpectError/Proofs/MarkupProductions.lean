import ExpectError.Proofs.Productions
import ExpectError.Proofs.TagNames
import ExpectError.SourceFile

/-!
# The productions of markup, and the grammar as a whole

Tags and expressions in braces begin with a mark, and nothing inside them starts there. An element or
a fragment begins with its opening tag, and what follows are its children and its closing tag. The
tags of an element and the attributes begin with a name. With these productions all rules of the
grammar are sound, so the tree of a text that is read without errors is laid out and formed well.

* `Encloses`: what is read behind a mark becomes one node;
* `State.AddsChildren`: the children of an element;
* `sound_rulesWithin`: the rules of the grammar;
* `SourceFile.filled_of_read?`, `SourceFile.allFormed_of_read?`, `SourceFile.inner_of_read?`: the tree
  of a text.
-/

open ExpectError.Tree (isBracketed isClosing isOpening isTag)
open ExpectError.Placement (isElement isMarkupChild)

-- the promises of a production are found in as many steps as it has words
set_option synthInstance.maxSize 100000
set_option synthInstance.maxHeartbeats 200000

namespace ExpectError.Grammar

/-! ### Names and ends of tags -/

instance : Eats markupIdentifier := by unfold markupIdentifier; infer_instance

instance : GoesOn accessedNames := by unfold accessedNames; infer_instance

instance : Eats tagName := by unfold tagName; infer_instance

instance (textFollows : Bool) : Eats (tagEnd textFollows) := by unfold tagEnd; infer_instance

instance : Eats spreadAttribute := by unfold spreadAttribute; infer_instance

instance : Eats attributeName := by unfold attributeName; infer_instance

instance : Eats closingBrace := by unfold closingBrace; infer_instance

section

variable {α β : Type} {text : List Char} {rules : Rules} {context : Context} {s t : State}

/-- From a state behind the mark with which the construct begins, with pieces that have some property,
a reader makes one node of a given class of all pieces. -/
def Encloses (q : List Tree → Prop) (p : NodeKind → Bool) (r : Reader α) : Prop :=
  ∀ ⦃text rules⦄, Rules.Sound text rules → ∀ ⦃context s a t⦄, s.Good text → s.Untagged →
    s.Begun → s.Behind (s.start + 1) → q s.pieces → r.run rules context s = some (a, t) →
    t.errors = [] →
      s.Reaches text t ∧ ∃ piece, t.pieces = [piece] ∧ p piece.kind = true ∧ piece.start = s.start

variable {q q' : List Tree → Prop} {p : NodeKind → Bool}

theorem encloses_bind {r : Reader α} {f : α → Reader β} [h : Goes r] (hturns : Turns q r q')
    (hadds : r.OnlyAdds) (hf : ∀ a, Encloses q' p (f a)) : Encloses q p (r >>= f) := by
  intro text rules hrules context s b u hs hn hbegun hbehind hq hrun hu
  obtain ⟨a, t, hr, hf'⟩ := run_bind_eq_some.1 hrun
  have ht := errors_eq_nil_of_suffix (grows_run hrules.grows (f a) hf') hu
  obtain ⟨hst, -⟩ := h.reads hrules hs trivial hr ht
  have hbehind' := (behind_run hrules.behind r hs.scanner hbehind (Or.inl hadds) hr).behind
  rw [← hst.start_eq] at hbehind'
  obtain ⟨htu, piece, hpiece, hkind, hstart⟩ :=
    hf a hrules hst.good (hst.untagged hn) (hbegun.of_reaches hst.toReaches) hbehind'
      (hturns hrules hr ht hq) hf' hu
  exact ⟨hst.toReaches.trans htu, piece, hpiece, hkind, hstart.trans hst.start_eq⟩

theorem encloses_branch {question : Reader Bool} {x y : Reader α} [Goes question]
    (hturns : Turns q question q') (hadds : question.OnlyAdds) (hx : Encloses q' p x)
    (hy : Encloses q' p y) : Encloses q p (question >>= fun b => if b = true then x else y) := by
  refine encloses_bind hturns hadds fun b => ?_
  split
  · exact hx
  · exact hy

theorem Encloses.bind_pure {r : Reader α} (h : Encloses q p r) (b : β) :
    Encloses q p (do let _ ← r; return b) := by
  intro text rules hrules context s c u hs hn hbegun hbehind hq hrun hu
  obtain ⟨a, t, hr, hpure⟩ := run_bind_eq_some.1 hrun
  obtain ⟨-, rfl⟩ := run_pure_eq_some.1 hpure
  exact h hrules hs hn hbegun hbehind hq hr hu

theorem encloses_wrap {k : NodeKind} (hk : isBracketed k = true) (hp : p k = true)
    (hq : ∀ pieces, q pieces → Tree.TagForm k pieces.reverse) : Encloses q p (wrap k) := by
  intro text rules hrules context s c u hs hn hbegun hbehind hpieces hrun hu
  cases hrun
  have hform : (Tree.node k s.start s.lastStop s.pieces.reverse).Formed :=
    Tree.formed_of_isBracketed hk
      (fun child hchild => hbehind.pieces child (List.mem_reverse.1 hchild)) (hq _ hpieces)
  have hgood := hs.wrap hbegun (Tree.ne_token_of_isBracketed hk)
    (Tree.ne_sourceFile_of_isBracketed hk) (Or.inr hn) hform
  exact ⟨⟨hgood, rfl, le_rfl, le_rfl, List.suffix_rfl⟩, _, rfl, hp, rfl⟩

/-- A construct of its own that begins with the token at hand as its mark. -/
theorem Encloses.scope {r : Reader α} (h : Encloses (· = []) p r)
    (hrules : rules.Sound text) {a : α} (hs : s.Good text) (htoken : s.AtToken)
    (hrun : (scope (do advance; r)).run rules context s = some (a, t)) (ht : t.errors = []) :
    s.Reaches text t ∧ s.Eaten t ∧
      ∃ piece, t.pieces = piece :: s.pieces ∧ p piece.kind = true ∧ piece.start = s.position := by
  obtain ⟨v, hbody, rfl⟩ := run_scope_eq_some.1 hrun
  obtain ⟨_, u, hadvance, hr⟩ := run_bind_eq_some.1 hbody
  cases hadvance
  have hsu := hs.openScope.leads_advance .code
  have hmark : s.openScope.Eaten (s.openScope.advance .code) :=
    hs.openScope.eaten_advance htoken .code
  -- behind the mark, everything is behind the start of the construct
  have hbehind : (s.openScope.advance .code).Behind ((s.openScope.advance .code).start + 1) := by
    refine ⟨?_, by simp [State.openScope]⟩
    rw [State.start_advance]
    exact lt_of_lt_of_le hmark hsu.good.lastStop_le
  obtain ⟨huv, piece, hpiece, hkind, hstart⟩ :=
    h hrules hsu.good (hsu.untagged s.untagged_openScope)
      (hmark.begun hs.openScope hsu.toReaches) hbehind (State.pieces_advance _ _) hr ht
  have hsv := hsu.toReaches.trans huv
  have heaten : s.openScope.Eaten v := hmark.of_reaches huv
  refine ⟨hs.reaches_closeScope hsv, heaten, piece, ?_, hkind, ?_⟩
  · show v.pieces ++ s.pieces = _
    rw [hpiece]
    rfl
  · rw [hstart, State.start_advance]
    rfl

/-- A node that begins with the token at hand as its mark. -/
theorem bracketed_node {r : Reader Unit} [Goes r] (hadds : r.OnlyAdds) {k : NodeKind}
    (hk : isBracketed k = true)
    (hturns : Turns (· = []) r fun pieces => Tree.TagForm k pieces.reverse)
    (hrules : rules.Sound text) (hs : s.Good text) (htoken : s.AtToken)
    (hrun : (node k (do advance; r)).run rules context s = some ((), t)) (ht : t.errors = []) :
    s.Reaches text t ∧ s.Eaten t ∧ ∃ piece, t.pieces = piece :: s.pieces ∧ piece.kind = k := by
  have hencloses : Encloses (· = []) (fun kind => decide (kind = k)) (do r; wrap k) :=
    encloses_bind hturns hadds fun _ => encloses_wrap hk (by simp) fun _ => id
  have hrun' : (scope (do advance; r; wrap k)).run rules context s = some ((), t) := by
    obtain ⟨u, hbody, rfl⟩ := run_scope_eq_some.1 hrun
    obtain ⟨_, v, hinner, hwrap⟩ := run_bind_eq_some.1 hbody
    obtain ⟨_, w, hadvance, hr⟩ := run_bind_eq_some.1 hinner
    exact run_scope_eq_some.2 ⟨u, run_bind_eq_some.2 ⟨_, w, hadvance,
      run_bind_eq_some.2 ⟨_, v, hr, hwrap⟩⟩, rfl⟩
  obtain ⟨hst, heaten, piece, hpiece, hkind, -⟩ := hencloses.scope hrules hs htoken hrun' ht
  exact ⟨hst, heaten, piece, hpiece, of_decide_eq_true hkind⟩

/-- An expression in braces. -/
theorem expression_node {r : Reader Unit} [Goes r] (hadds : r.OnlyAdds)
    (hrules : rules.Sound text) (hs : s.Good text) (htoken : s.AtToken)
    (hrun : (node .jsxExpression (do advance; r)).run rules context s = some ((), t))
    (ht : t.errors = []) :
    s.Reaches text t ∧ s.Eaten t ∧
      ∃ piece, t.pieces = piece :: s.pieces ∧ piece.kind = .jsxExpression :=
  bracketed_node hadds rfl (fun _ _ _ _ _ _ _ _ _ _ => Tree.tagForm_of_ne rfl rfl _) hrules hs htoken
    hrun ht

theorem eatsHere_expression_node {r : Reader Unit} [Goes r] (hadds : r.OnlyAdds) :
    EatsHere (node .jsxExpression (do advance; r)) where
  reads := by
    intro text rules hrules context s a t hs htoken hrun ht
    obtain ⟨hst, heaten, piece, hpiece, hkind⟩ := expression_node hadds hrules hs htoken hrun ht
    refine ⟨⟨hst, fun hun => ?_⟩, heaten⟩
    rw [State.Untagged, hpiece]
    exact List.forall_mem_cons.2 ⟨by rw [hkind], hun⟩

end

theorem onlyAdds_tagEnd (textFollows : Bool) : (tagEnd textFollows).OnlyAdds :=
  onlyAdds_branch (onlyAdds_isAt _) trivial trivial

theorem onlyAdds_expect (k : TokenKind) : (expect k).OnlyAdds :=
  onlyAdds_branch (onlyAdds_isAt _) trivial trivial

theorem onlyAdds_optionally {q : Reader Bool} {x : Reader Unit} (hq : q.OnlyAdds)
    (hx : x.OnlyAdds) : (optionally q x).OnlyAdds :=
  onlyAdds_branch hq hx trivial

theorem onlyAdds_accept? (k : TokenKind) : (accept? k).OnlyAdds :=
  onlyAdds_branch (onlyAdds_isAt _) ⟨trivial, fun _ => trivial⟩ trivial

theorem onlyAdds_repeatWhile {q : Reader Bool} (h : q.OnlyAdds) : (repeatWhile q).OnlyAdds :=
  onlyAdds_branch h trivial trivial

theorem onlyAdds_typeArgumentsHere : typeArgumentsHere.OnlyAdds := by
  have hitem : (do wholeType; accept? .comma).OnlyAdds := ⟨trivial, fun _ => onlyAdds_accept? _⟩
  exact onlyAdds_optionally (onlyAdds_isAt _) ⟨onlyAdds_expect _, fun _ =>
    ⟨onlyAdds_repeatWhile (onlyAdds_branch ⟨trivial, fun _ => trivial⟩ trivial hitem),
      fun _ => onlyAdds_expect _⟩⟩

/-! ### Attributes -/

theorem onlyAdds_attributeExpression : (do
    optionally (opposite (isAt .closeBrace)) wholeExpression
    expect .closeBrace).OnlyAdds :=
  ⟨onlyAdds_optionally ⟨onlyAdds_isAt _, fun _ => trivial⟩ trivial, fun _ => onlyAdds_expect _⟩

instance : EatsHere attributeExpression :=
  eatsHere_expression_node onlyAdds_attributeExpression

instance : Eats attributeValue := by
  unfold attributeValue
  refine .ofKind fun k => ?_
  split
  all_goals first
    | exact .inl inferInstance
    | exact .inr ⟨by decide, inferInstance⟩

theorem onlyAdds_attributeValue : attributeValue.OnlyAdds := by
  refine ⟨trivial, fun k => ?_⟩
  dsimp only
  split <;> first | trivial | exact ⟨trivial, fun _ => trivial⟩

theorem turns_plainAttribute : Turns (· = []) (do
    attributeName
    optionally (isAt .equals) do
      .advance .attributeValue
      attributeValue) BeginsWithName :=
  turns_bind (turns_attributeName.mono fun _ => Named.beginsWithName) fun _ =>
    turns_onlyAdds (onlyAdds_optionally (onlyAdds_isAt _) ⟨trivial, fun _ => onlyAdds_attributeValue⟩)
      fun newer _ => .append newer

/-- An attribute begins with its name. -/
instance : Eats plainAttribute where
  reads := by
    intro text rules hrules context s a u hs _ hrun hu
    obtain ⟨v, hbody, rfl⟩ := run_scope_eq_some.1 hrun
    obtain ⟨_, t, hparts, hwrap⟩ := run_bind_eq_some.1 hbody
    cases hwrap
    have hparts' : Eats (do
        attributeName
        optionally (isAt .equals) do
          .advance .attributeValue
          attributeValue) := inferInstance
    obtain ⟨hst, heaten⟩ := hparts'.reads hrules hs.openScope trivial hparts hu
    obtain ⟨newer, name, hpieces, hname⟩ := turns_plainAttribute hrules hparts hu rfl
    have hform : (Tree.node .jsxAttribute t.start t.lastStop t.pieces.reverse).Formed := by
      rw [hpieces, List.reverse_append]
      exact Tree.formed_attribute hname _
    have hwrap : t.Leads text (t.wrap .jsxAttribute) :=
      hst.good.leads_wrap (heaten.begun hs.openScope hst.toReaches) (by simp) (by simp)
        (Or.inr (hst.untagged s.untagged_openScope)) hform rfl
    exact ⟨hs.leads_closeScope (hst.trans hwrap).toReaches (State.untagged_wrap rfl t), heaten⟩

instance : Goes tagAttribute := by unfold tagAttribute; infer_instance

theorem onlyAdds_tagAttribute : tagAttribute.OnlyAdds :=
  onlyAdds_branch ⟨trivial, fun _ => trivial⟩ trivial <|
    onlyAdds_branch (onlyAdds_isAt _) ⟨trivial, fun _ => trivial⟩ <|
      onlyAdds_branch ⟨trivial, fun _ => trivial⟩ ⟨trivial, fun _ => trivial⟩
        ⟨trivial, fun _ => ⟨trivial, fun _ => trivial⟩⟩

/-! ### Children -/

theorem onlyAdds_childExpression : (do
    optionally (opposite (isAt .closeBrace)) do
      accept .dotDotDot
      wholeExpression
    closingBrace).OnlyAdds :=
  ⟨onlyAdds_optionally ⟨onlyAdds_isAt _, fun _ => trivial⟩
    ⟨onlyAdds_optionally (onlyAdds_isAt _) trivial, fun _ => trivial⟩,
    fun _ => onlyAdds_branch (onlyAdds_isAt _) trivial trivial⟩

instance : EatsHere childExpression :=
  eatsHere_expression_node onlyAdds_childExpression

/-- Only nodes that can stand between tags have been added. -/
def State.AddsChildren (s t : State) : Prop :=
  ∃ children, t.pieces = children ++ s.pieces ∧ ∀ child ∈ children, isMarkupChild child.kind = true

theorem State.AddsChildren.refl (s : State) : s.AddsChildren s :=
  ⟨[], rfl, by simp⟩

theorem State.AddsChildren.single {s t : State} {piece : Tree} (h : t.pieces = piece :: s.pieces)
    (hpiece : isMarkupChild piece.kind = true) : s.AddsChildren t :=
  ⟨[piece], h, List.forall_mem_singleton.2 hpiece⟩

theorem State.AddsChildren.trans {s t u : State} (hst : s.AddsChildren t)
    (htu : t.AddsChildren u) : s.AddsChildren u := by
  obtain ⟨first, hfirst, hkinds⟩ := hst
  obtain ⟨second, hsecond, hkinds'⟩ := htu
  exact ⟨second ++ first, by rw [hsecond, hfirst, List.append_assoc],
    List.forall_mem_append.2 ⟨hkinds', hkinds⟩⟩

instance : Goes markupChild := by
  unfold markupChild
  refine .ofKind fun k => ?_
  split
  all_goals first
    | exact .inl inferInstance
    | exact .inr ⟨by decide, inferInstance⟩

section

variable {text : List Char} {rules : Rules} {context : Context} {s t : State}

theorem addsChildren_markupChild (hrules : rules.Sound text) {yes : Bool} (hs : s.Good text)
    (hrun : markupChild.run rules context s = some (yes, t)) (ht : t.errors = []) :
    s.AddsChildren t := by
  obtain ⟨k, u, hkind, hrun⟩ := run_bind_eq_some.1 hrun
  cases hkind
  have htoken : ∀ {k}, s.scanner.kind = k → k ≠ .endOfFile → s.AtToken := by
    rintro k rfl hne
    exact hne
  split at hrun
  next hk =>
    obtain ⟨_, v, hleaf, hpure⟩ := run_bind_eq_some.1 hrun
    cases hleaf
    obtain ⟨-, rfl⟩ := run_pure_eq_some.1 hpure
    exact .single (State.pieces_advance _ _) rfl
  next hk =>
    obtain ⟨_, v, hnode, hpure⟩ := run_bind_eq_some.1 hrun
    obtain ⟨-, rfl⟩ := run_pure_eq_some.1 hpure
    obtain ⟨-, -, piece, hpiece, hkind⟩ :=
      expression_node onlyAdds_childExpression hrules hs (htoken hk (by decide)) hnode ht
    exact .single hpiece (hkind ▸ rfl)
  next hk =>
    obtain ⟨_, v, hcall, hpure⟩ := run_bind_eq_some.1 hrun
    obtain ⟨-, rfl⟩ := run_pure_eq_some.1 hpure
    obtain ⟨piece, hpiece, hkind⟩ := hrules.markup hs (htoken hk (by decide)) hcall ht
    exact .single hpiece (by simp [isMarkupChild, hkind])
  next hk =>
    obtain ⟨-, rfl⟩ := run_pure_eq_some.1 hrun
    exact .refl _
  next =>
    exact absurd ht (errors_ne_nil_of_run_report hrules.grows hrun)

theorem reads_markupChildren :
    Reads (fun _ => True) (repeatWhile markupChild) fun s _ t => s.AddsChildren t := by
  have hstep : Reads (fun _ => True) (do if ← markupChild then return none else return some ())
      fun s _ t => s.AddsChildren t := by
    intro text rules hrules context s a u hs _ hrun hu
    obtain ⟨b, t, hchild, hpure⟩ := run_bind_eq_some.1 hrun
    obtain rfl : u = t := by
      split at hpure <;> exact (run_pure_eq_some.1 hpure).2
    exact ⟨(Goes.reads hrules hs trivial hchild hu).1,
      addsChildren_markupChild hrules hs hchild hu⟩
  exact hstep.loop (fun _ _ _ _ => id) fun _ _ _ => .trans

/-! ### Elements -/

theorem tagForm_of_beginsWithName {k : NodeKind} (hbare : Tree.isFragmentTag k = false)
    (hclosing : k ≠ .jsxClosingElement) {pieces : List Tree} (h : BeginsWithName pieces) :
    Tree.TagForm k pieces.reverse := by
  obtain ⟨newer, name, rfl, hname⟩ := h
  exact ⟨fun _ => ⟨name, newer.reverse, by simp, hname, fun h => absurd h hclosing⟩,
    fun h => absurd h (by simp [hbare])⟩

theorem tagForm_closingElement {pieces : List Tree} (h : Named (· = []) pieces) :
    Tree.TagForm .jsxClosingElement pieces.reverse := by
  obtain ⟨name, rfl, hname⟩ := h.eq_singleton
  exact ⟨fun _ => ⟨name, [], rfl, hname, fun _ => rfl⟩, fun h => absurd h (by simp)⟩

theorem tagForm_fragmentTag {k : NodeKind} (hk : Tree.isFragmentTag k = true) {pieces : List Tree}
    (h : pieces = []) : Tree.TagForm k pieces.reverse :=
  ⟨fun hnamed => absurd hnamed (by simp [Tree.isNamed_eq_false hk]), fun _ => by simp [h]⟩

theorem encloses_openingElementRest (amongChildren : Bool) : Encloses (· = []) isOpening (do
    tagName
    typeArgumentsHere
    repeatWhile tagAttribute
    if ← accept? .slash then
      tagEnd amongChildren
      wrap .jsxOpeningElement
      return Opening.closedElement
    else
      tagEnd true
      wrap .jsxOpeningElement
      return Opening.element) := by
  have hend : ∀ textFollows (opening : Opening), Encloses BeginsWithName isOpening (do
      tagEnd textFollows
      wrap .jsxOpeningElement
      return opening) := fun textFollows opening =>
    encloses_bind (turns_tagEnd _ _) (onlyAdds_tagEnd textFollows) fun _ =>
      (encloses_wrap rfl rfl fun _ => tagForm_of_beginsWithName rfl (by simp)).bind_pure opening
  have hname : Turns (· = []) tagName BeginsWithName :=
    turns_tagName.mono fun _ => Named.beginsWithName
  -- whatever follows the name stands behind it
  have hkeep : ∀ {r : Reader Unit}, r.OnlyAdds → Turns BeginsWithName r BeginsWithName :=
    fun hr => turns_onlyAdds hr fun newer _ => .append newer
  have hattributes := onlyAdds_repeatWhile onlyAdds_tagAttribute
  exact encloses_bind hname trivial fun _ =>
    encloses_bind (hkeep onlyAdds_typeArgumentsHere) onlyAdds_typeArgumentsHere fun _ =>
      encloses_bind (hkeep hattributes) hattributes fun _ =>
        encloses_branch (turns_accept? _ _) (onlyAdds_accept? _) (hend _ _) (hend _ _)

theorem reaches_openingTag (hrules : rules.Sound text) {amongChildren : Bool} {opening : Opening}
    (hs : s.Good text) (htoken : s.AtToken)
    (hrun : (openingTag amongChildren).run rules context s = some (opening, t))
    (ht : t.errors = []) :
    s.Reaches text t ∧ s.Eaten t ∧ ∃ piece, t.pieces = piece :: s.pieces ∧
      isOpening piece.kind = true ∧ piece.start = s.position := by
  have hfragment : Encloses (· = []) isOpening openingFragmentRest :=
    encloses_bind (turns_tagEnd _ _) (onlyAdds_tagEnd _) fun _ =>
      encloses_wrap rfl rfl fun _ => tagForm_fragmentTag rfl
  exact Encloses.scope (encloses_branch (turns_of_asks _ _) (onlyAdds_isAt _) (hfragment.bind_pure _)
    (encloses_openingElementRest amongChildren)) hrules hs htoken hrun ht

theorem reaches_closingTag (hrules : rules.Sound text) {closing : NodeKind}
    (hclosing : isBracketed closing = true) {notClosed : SyntaxProblem} {name : Reader Unit}
    [Goes name] (hname : name.OnlyAdds)
    (hturns : Turns (· = []) name fun pieces => Tree.TagForm closing pieces.reverse)
    {textFollows : Bool} (hs : s.Good text)
    (hrun : (closingTag closing notClosed name textFollows).run rules context s = some ((), t))
    (ht : t.errors = []) :
    s.Reaches text t ∧ ∃ piece, t.pieces = piece :: s.pieces ∧ piece.kind = closing := by
  obtain ⟨b, u, hb, hrun⟩ := run_bind_eq_some.1 hrun
  cases hb
  split_ifs at hrun with h
  · have hkind : s.scanner.kind = .lessThanSlash := of_decide_eq_true h
    have htoken : s.AtToken := by
      rw [State.AtToken, hkind]
      decide
    have hadds : (do name; tagEnd textFollows).OnlyAdds := ⟨hname, fun _ => onlyAdds_tagEnd _⟩
    obtain ⟨hst, -, hpiece⟩ := bracketed_node hadds hclosing
      (turns_bind hturns fun _ => turns_tagEnd _ _) hrules hs htoken hrun ht
    exact ⟨hst, hpiece⟩
  · cases hrun
    exact absurd ht (State.errors_report_ne_nil _ _ _)

/-- An element: its opening tag, the children and the closing tag. -/
theorem formed_element {whole : NodeKind} (hwhole : isElement whole = true) {start stop : ℕ}
    {opening : Tree} {rest : List Tree} (hopening : isOpening opening.kind = true)
    (hstart : opening.start = start)
    (hrest : ∀ child ∈ rest, isMarkupChild child.kind = true ∨ isClosing child.kind = true) :
    (Tree.node whole start stop (opening :: rest)).Formed := by
  refine ⟨fun _ => ⟨opening, rest, rfl, hopening, hstart, hrest⟩, fun hbracketed => ?_,
    fun htext => ?_, Tree.tagForm_of_isElement hwhole _⟩
  · obtain rfl | rfl := Tree.isElement_iff.1 hwhole <;> cases hbracketed
  · obtain rfl : whole = .token .jsxText := htext
    cases hwhole

/-- The children of an element and its closing tag, behind the opening tag. -/
theorem leads_markupRest (hrules : rules.Sound text) {whole closing : NodeKind}
    {notClosed : SyntaxProblem} {name : Reader Unit} [Goes name] (hname : name.OnlyAdds)
    (hturns : Turns (· = []) name fun pieces => Tree.TagForm closing pieces.reverse)
    {amongChildren : Bool} (helement : isElement whole = true) (hclosing : isClosing closing = true)
    (hbracketed : isBracketed closing = true) (hs : s.Good text) (hbegun : s.Begun) {opening : Tree}
    (hpieces : s.pieces = [opening]) (hopening : isOpening opening.kind = true)
    (hstart : opening.start = s.start)
    (hrun : (do
      repeatWhile markupChild
      closingTag closing notClosed name amongChildren
      wrap whole).run rules context s = some ((), t))
    (ht : t.errors = []) :
    s.Reaches text t ∧ ∃ piece, t.pieces = [piece] ∧ piece.kind = whole := by
  obtain ⟨_, u, hchildren, hrun⟩ := run_bind_eq_some.1 hrun
  obtain ⟨_, v, hclosingTag, hwrap⟩ := run_bind_eq_some.1 hrun
  cases hwrap
  have hu := errors_eq_nil_of_suffix (grows_run hrules.grows _ hclosingTag) ht
  obtain ⟨hsu, children, hu', hkinds⟩ := reads_markupChildren hrules hs trivial hchildren hu
  obtain ⟨huv, tag, hv, htag⟩ :=
    reaches_closingTag hrules hbracketed hname hturns hsu.good hclosingTag ht
  have hsv := hsu.toReaches.trans huv
  -- the piece is formed: the opening tag, the children, and the closing tag last
  have hform : (Tree.node whole v.start v.lastStop v.pieces.reverse).Formed := by
    have hreverse : v.pieces.reverse = opening :: (children.reverse ++ [tag]) := by
      rw [hv, hu', hpieces]
      simp
    rw [hreverse]
    refine formed_element helement hopening (hstart.trans hsv.start_eq.symm) ?_
    intro child hchild
    rcases List.mem_append.1 hchild with hchild | hchild
    · exact Or.inl (hkinds child (List.mem_reverse.1 hchild))
    · rw [List.mem_singleton.1 hchild, htag]
      exact Or.inr hclosing
  have hgood : (v.wrap whole).Good text :=
    hsv.good.wrap (hbegun.of_reaches hsv) (Tree.ne_token_of_isElement helement)
      (Tree.ne_sourceFile_of_isElement helement) (Or.inl helement) hform
  exact ⟨⟨hgood, hsv.start_eq, hsv.lastStop_le, hsv.position_le, hsv.tokens⟩, _, rfl, rfl⟩

/-- An element or a fragment is one node with its opening tag in front. -/
theorem leads_elementOrFragment (hrules : rules.Sound text) {amongChildren : Bool}
    (hs : s.Good text) (htoken : s.AtToken)
    (hrun : (elementOrFragment amongChildren).run rules context s = some ((), t))
    (ht : t.errors = []) :
    (s.Leads text t ∧ s.Eaten t) ∧
      ∃ piece, t.pieces = piece :: s.pieces ∧ isElement piece.kind = true := by
  obtain ⟨u, hbody, rfl⟩ := run_scope_eq_some.1 hrun
  obtain ⟨opening, v, hopening, hrest⟩ := run_bind_eq_some.1 hbody
  have hv : v.errors = [] := errors_eq_nil_of_suffix (grows_run hrules.grows _ hrest) ht
  obtain ⟨hsv, heaten, tag, hpieces, htag, hstart⟩ :=
    reaches_openingTag hrules hs.openScope htoken hopening hv
  have hbegun := heaten.begun hs.openScope hsv
  have hstart' : tag.start = v.start := hstart.trans hsv.start_eq.symm
  obtain ⟨hvu, piece, hpiece, helement⟩ : v.Reaches text u ∧
      ∃ piece, u.pieces = [piece] ∧ isElement piece.kind = true := by
    cases opening with
    | fragment =>
      have hname : (pure () : Reader Unit).OnlyAdds := trivial
      have hturns := (turns_of_asks (· = []) (pure () : Reader Unit)).mono fun _ =>
        tagForm_fragmentTag (k := .jsxClosingFragment) rfl
      obtain ⟨hvu, piece, hpiece, hkind⟩ := leads_markupRest hrules hname hturns rfl rfl rfl
        hsv.good hbegun hpieces htag hstart' hrest ht
      exact ⟨hvu, piece, hpiece, hkind ▸ rfl⟩
    | element =>
      have hname : tagName.OnlyAdds := trivial
      have hturns := turns_tagName.mono fun _ => tagForm_closingElement
      obtain ⟨hvu, piece, hpiece, hkind⟩ := leads_markupRest hrules hname hturns rfl rfl rfl
        hsv.good hbegun hpieces htag hstart' hrest ht
      exact ⟨hvu, piece, hpiece, hkind ▸ rfl⟩
    | closedElement =>
      cases hrest
      have hform : (Tree.node .jsxElement v.start v.lastStop v.pieces.reverse).Formed := by
        rw [hpieces]
        exact formed_element rfl htag hstart' (by simp)
      have hgood := hsv.good.wrap hbegun (Tree.ne_token_of_isElement rfl)
        (Tree.ne_sourceFile_of_isElement rfl) (Or.inl rfl) hform
      exact ⟨⟨hgood, rfl, le_rfl, le_rfl, List.suffix_rfl⟩, _, rfl, rfl⟩
  -- an element is no tag, so the construct around it may take it as a piece
  have huntagged : u.Untagged := by
    rw [State.Untagged, hpiece, List.forall_mem_singleton]
    obtain h | h := Tree.isElement_iff.1 helement <;> rw [h]
  have heaten' : s.openScope.Eaten u := heaten.of_reaches hvu
  refine ⟨⟨hs.leads_closeScope (hsv.trans hvu) huntagged, heaten'⟩, piece, ?_, helement⟩
  show u.pieces ++ s.pieces = _
  rw [hpiece]
  rfl

theorem leads_produce_markup (hrules : rules.Sound text) {amongChildren : Bool} (hs : s.Good text)
    (htoken : s.AtToken)
    (hrun : (produce (.markup amongChildren)).run rules context s = some ((), t))
    (ht : t.errors = []) :
    (s.Leads text t ∧ s.Eaten t) ∧
      ∃ piece, t.pieces = piece :: s.pieces ∧ isElement piece.kind = true := by
  obtain ⟨_, hinner⟩ := exists_run_of_run_nested hrules.grows hrun ht
  exact leads_elementOrFragment hrules hs htoken hinner ht

end

/-! ### All together -/

theorem eats_produce {construct : Construct} (h : construct.needsToken = false) :
    Eats (produce construct) := by
  cases construct with
  | markup amongChildren => cases h
  | _ => unfold produce; infer_instance

/-- The rules of the grammar are sound for any text. -/
theorem sound_rulesWithin (text : List Char) (n : ℕ) : (rulesWithin n).Sound text := by
  induction n with
  | zero =>
    refine ⟨grows_rulesWithin 0, addsBehind_rulesWithin 0, adds_rulesWithin 0, ?_, ?_⟩
    · intro construct context s t _ _ hrun
      cases hrun
    · intro amongChildren context s t _ _ hrun
      cases hrun
  | succ n ih =>
    refine ⟨grows_rulesWithin (n + 1), addsBehind_rulesWithin (n + 1), adds_rulesWithin (n + 1),
      ?_, ?_⟩
    · intro construct context s t hs htoken hrun ht
      cases hneeds : construct.needsToken with
      | false => exact (eats_produce hneeds).reads ih hs trivial hrun ht
      | true =>
        obtain ⟨amongChildren, rfl⟩ : ∃ amongChildren, construct = .markup amongChildren := by
          cases construct with
          | markup amongChildren => exact ⟨amongChildren, rfl⟩
          | _ => cases hneeds
        exact (leads_produce_markup ih hs (htoken hneeds) hrun ht).1
    · intro amongChildren context s t hs htoken hrun ht
      exact (leads_produce_markup ih hs htoken hrun ht).2

/-- The first token of a text makes a good state. -/
theorem good_first (text : List Char) :
    State.Good text (State.advance .code { scanner := Scanner.ofText text }) where
  scanner := Scanner.sound_next (.refl _)
  lastStop_le := Nat.zero_le _
  start_le := Nat.zero_le _
  place_start := Text.isBoundary_zero text
  place_lastStop := Text.isBoundary_zero text
  laid := trivial
  formed := by simp
  leaves := by simp
  inner := by simp

end ExpectError.Grammar

namespace ExpectError.SourceFile

open Text

theorem read?_eq_some {dialect : Dialect} {text : List Char} {file : SourceFile}
    (h : read? dialect text = some file) :
    ∃ (context : Grammar.Context) (t : Grammar.State),
      Grammar.wholeText.run (Grammar.rulesWithin (Grammar.depthBound (byteLength text))) context
        { scanner := Scanner.ofText text } = some ((), t) ∧
      file.text = text ∧ file.errors = t.errors.reverse ∧ file.tokens = t.tokens.reverse ∧
      file.tree = .node .sourceFile 0 (byteLength text) t.pieces.reverse := by
  simp only [read?, Option.bind_eq_bind, Option.bind_eq_some_iff] at h
  obtain ⟨⟨⟨⟩, t⟩, hrun, heq⟩ := h
  cases heq
  exact ⟨_, t, hrun, rfl, rfl, rfl, rfl⟩

theorem tree_eq_of_read? {dialect : Dialect} {text : List Char} {file : SourceFile}
    (h : read? dialect text = some file) :
    file.text = text ∧ file.tree.kind = .sourceFile ∧ file.tree.start = 0 ∧
      file.tree.stop = byteLength text := by
  obtain ⟨_, _, -, htext, -, -, htree⟩ := read?_eq_some h
  rw [htree]
  exact ⟨htext, rfl, rfl, rfl⟩

/-- What is left behind when a text has been read without errors. -/
theorem leads_of_read? {dialect : Dialect} {text : List Char} {file : SourceFile}
    (h : read? dialect text = some file) (hclean : file.errors = []) :
    ∃ (context : Grammar.Context) (t : Grammar.State),
      Grammar.wholeText.run (Grammar.rulesWithin (Grammar.depthBound (byteLength text))) context
        { scanner := Scanner.ofText text } = some ((), t) ∧
      (Grammar.State.advance .code { scanner := Scanner.ofText text }).Leads text t ∧
      file.tokens = t.tokens.reverse ∧
      file.tree = .node .sourceFile 0 (byteLength text) t.pieces.reverse := by
  obtain ⟨context, t, hrun, -, herrors, htokens, htree⟩ := read?_eq_some h
  have ht : t.errors = [] := by simpa [herrors] using hclean
  obtain ⟨_, u, hadvance, hitems⟩ := Grammar.run_bind_eq_some.1 hrun
  cases hadvance
  obtain ⟨hlead, -⟩ := Grammar.goes_itemsUntil.reads (Grammar.sound_rulesWithin text _)
    (Grammar.good_first text) trivial hitems ht
  exact ⟨context, t, hrun, hlead, htokens, htree⟩

/-- The tree of a text that is read without errors is laid out well. -/
theorem filled_of_read? {dialect : Dialect} {text : List Char} {file : SourceFile}
    (h : read? dialect text = some file) (hclean : file.errors = []) :
    Tree.Filled (IsBoundary text) file.tree := by
  obtain ⟨_, t, -, hlead, -, htree⟩ := leads_of_read? h hclean
  have hstart : t.start = 0 := hlead.start_eq
  have huntagged : t.Untagged := hlead.untagged (by simp [Grammar.State.Untagged])
  have hlaid := hlead.good.laid
  rw [htree, Tree.Filled]
  refine ⟨?_, fun piece hpiece htag => ?_⟩
  · rw [hstart] at hlaid
    exact hlaid.mono le_rfl hlead.good.place_lastStop.le
  · rw [huntagged piece (List.mem_reverse.1 hpiece)] at htag
    cases htag

/-- The nodes of markup in a text that is read without errors are formed well. -/
theorem allFormed_of_read? {dialect : Dialect} {text : List Char} {file : SourceFile}
    (h : read? dialect text = some file) (hclean : file.errors = []) : file.tree.AllFormed := by
  obtain ⟨_, t, -, hlead, -, htree⟩ := leads_of_read? h hclean
  rw [htree]
  exact .node (Tree.formed_sourceFile _ _ _) fun piece hpiece =>
    hlead.good.formed piece (List.mem_reverse.1 hpiece)

/-- In a text that is read without errors, the root is the only node that stands for the whole
file. -/
theorem inner_of_read? {dialect : Dialect} {text : List Char} {file : SourceFile}
    (h : read? dialect text = some file) (hclean : file.errors = []) :
    ∀ child ∈ file.tree.children, child.Inner := by
  obtain ⟨_, t, -, hlead, -, htree⟩ := leads_of_read? h hclean
  rw [htree]
  exact fun child hchild => hlead.good.inner child (List.mem_reverse.1 hchild)

end ExpectError.SourceFile
