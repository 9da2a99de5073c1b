import ExpectError.Proofs.Behind
import ExpectError.Proofs.BlockReading
import ExpectError.Proofs.ChildProgress

/-!
# Elements with blocks among their children

The reader of children goes on in a text with blocks as it does without them, but in front of some
children it first reads the blocks. So an element is read to the end in both texts, and in the second
one it has the blocks among its children.

* `SideBySide`: two states at the same token, or both between the same tags;
* `Collects`: what is read of an element in both texts;
* `Tracks`: a reader is followed in the second text; the rules for the words of the language;
* `tracks_children`: the children, by induction on the steps of their reader;
* `tracks_elementOrFragment`: an element as a whole.
-/

namespace ExpectError.Grammar

open Text Insertion
open Placement (isElement)

variable {α β : Type} {text : List Char} {words : ℕ → List Char} {counts : ℕ → ℕ} {among : Bool}
  {n m : ℕ} {context : Context} {s t u v : State}

/-! ### Two states in reading an element -/

/-- Two scanners that moved on between tags from the same token. In the second text blocks may be at
hand. -/
def BetweenTags (text : List Char) (words : ℕ → List Char) (s t : Scanner) : Prop :=
  ∃ s₀ t₀ : Scanner, AtStop text words s₀.stop t₀.stop ∧
    unblockedTags words (.scan .markup) s₀ = true ∧ s = s₀.nextMarkup ∧ t = t₀.nextMarkup

/-- Two states at the same token with no blocks in front of it, or possibly between tags. -/
structure SideBySide (text : List Char) (words : ℕ → List Char) (among : Bool) (s t : State) : Prop where
  full : s.scanner.Full
  errors : List.Forall₂ (Corresponds text words) s.errors t.errors
  scanner : (s.scanner.Aligned text words (fun _ _ => byteLength text) t.scanner ∧
    words s.position = []) ∨ among = true ∧ BetweenTags text words s.scanner t.scanner

/-- The pieces of the second state are those of the first one with blocks among the children of
elements. -/
def Grown (counts : ℕ → ℕ) (s t : State) : Prop :=
  t.pieces.map Tree.shape = s.pieces.map (Tree.grown counts)

/-- From two states on, some pieces have been added in the first text, and some trees in the second
one. -/
structure Collects (text : List Char) (words : ℕ → List Char) (among : Bool) (s t : State)
    (pieces trees : List Tree) (u v : State) : Prop extends SideBySide text words among u v where
  pieces : u.pieces = pieces.reverse ++ s.pieces
  trees : v.pieces.map Tree.shape = trees.reverse ++ t.pieces.map Tree.shape

theorem Parallel.sideBySide (h : Parallel text words counts s t) : SideBySide text words among s t :=
  ⟨h.full, h.errors, .inl ⟨h.scanner, h.clear⟩⟩

namespace SideBySide

theorem aligned (h : SideBySide text words false s t) :
    s.scanner.Aligned text words (fun _ _ => byteLength text) t.scanner ∧ words s.position = [] :=
  h.scanner.resolve_right fun h => nomatch h.1

theorem abreast (h : SideBySide text words false s t) :
    Abreast text words (fun _ _ => byteLength text) s t :=
  ⟨h.aligned.1, h.errors⟩

theorem parallel (h : SideBySide text words false s t) (hgrown : Grown counts s t) :
    Parallel text words counts s t :=
  ⟨h.abreast, h.full, h.aligned.2, hgrown⟩

theorem mono (h : SideBySide text words false s t) : SideBySide text words among s t :=
  ⟨h.full, h.errors, .inl h.aligned⟩

theorem stands (h : SideBySide text words among s t) : s.Stands text := by
  refine ⟨?_, h.full⟩
  rcases h.scanner with ⟨haligned, -⟩ | ⟨-, s₀, t₀, hstop, -, hs, -⟩
  · exact haligned.sound
  · rw [hs]
    exact Scanner.sound_nextMarkup hstop.reached

theorem report (h : SideBySide text words false s t) (speculative : Bool)
    (problem : SyntaxProblem) : SideBySide text words false (s.report speculative problem)
      (t.report speculative problem) := by
  have hreport := h.abreast.report speculative problem
  have hscanner := (State.scanner_report speculative problem s).1
  refine ⟨hscanner ▸ h.full, hreport.errors, .inl ⟨hreport.scanner, ?_⟩⟩
  rw [State.position, hscanner]
  exact h.aligned.2

/-- Nothing has been added. -/
theorem collects (h : SideBySide text words among u v) (hu : u.pieces = s.pieces)
    (hv : v.pieces = t.pieces) : Collects text words among s t [] [] u v :=
  ⟨h, hu, congrArg (List.map Tree.shape) hv⟩

/-- What is added in a scope is added to the construct around it. -/
theorem closeScope (h : SideBySide text words among u v) {piece : Tree} (hpiece : u.pieces = [piece])
    (htree : v.pieces.map Tree.shape = [piece.grown counts]) :
    Collects text words among s t [piece] [piece.grown counts] (u.closeScope s) (v.closeScope t) := by
  refine ⟨⟨h.full, h.errors, h.scanner⟩, ?_, ?_⟩
  · rw [State.closeScope, hpiece, List.reverse_singleton]
  · rw [State.closeScope, List.map_append, htree, List.reverse_singleton]

/-- A node that is no element, made of everything in its scope. -/
theorem closeNode (h : SideBySide text words among u v) (hgrown : Grown counts u v)
    (kind : NodeKind) (hkind : isElement kind = false) (s t : State) :
    ∃ piece, piece.start = u.start ∧ piece.kind = kind ∧
      Collects text words among s t [piece] [piece.grown counts]
        ((u.wrap kind).closeScope s) ((v.wrap kind).closeScope t) := by
  have hwrap : SideBySide text words among (u.wrap kind) (v.wrap kind) :=
    ⟨h.full, h.errors, h.scanner⟩
  refine ⟨_, rfl, rfl, hwrap.closeScope rfl ?_⟩
  rw [State.wrap, List.map_singleton, shape_wrap hkind _ _ _ _ hgrown]

end SideBySide

/-- Between tags, whatever token is left behind. -/
theorem Abreast.sideBySide {front : ℕ → ℕ → ℕ} (h : Abreast text words front s t)
    (hguard : unblockedTags words (.scan .markup) s.scanner = true) :
    SideBySide text words true (s.advance .markup) (t.advance .markup) where
  full := Scan.full_apply .markup s.scanner
  errors := by simpa [State.advance] using h.errors
  scanner := .inr ⟨rfl, s.scanner, t.scanner, h.scanner.stop, hguard, rfl, rfl⟩

theorem Collects.trans {pieces pieces' trees trees' : List Tree} {s' t' : State} {among' : Bool}
    (h : Collects text words among s t pieces trees u v)
    (h' : Collects text words among' u v pieces' trees' s' t') :
    Collects text words among' s t (pieces ++ pieces') (trees ++ trees') s' t' := by
  refine ⟨h'.toSideBySide, ?_, ?_⟩
  · rw [h'.pieces, h.pieces, List.reverse_append, List.append_assoc]
  · rw [h'.trees, h.trees, List.reverse_append, List.append_assoc]

/-! ### Following a reader -/

/-- Reading an element in both texts: under the guard in the first one and as it is in the second one.
Where the first run ends, the second one ends too, and the last two states have a relation. -/
def Tracks (text : List Char) (words : ℕ → List Char) (n m : ℕ) (context : Context) (r : Reader α)
    (post : α → State → State → Prop) (s t : State) : Prop :=
  Follows post (r.guarded (unblockedTags words) (guardedBy (blockGuard words) n) context s)
    (r.guarded unguarded (rulesWithin m)
      { context with size := byteLength (interleave words 0 text) } t)

namespace Tracks

variable {r : Reader α} {post post' : α → State → State → Prop}

theorem mono (h : Tracks text words n m context r post s t)
    (hpost : ∀ a u v, post a u v → post' a u v) : Tracks text words n m context r post' s t :=
  Follows.mono h hpost

theorem pure {a : α} (h : post a s t) :
    Tracks text words n m context (Pure.pure a : Reader α) post s t :=
  Follows.of_post h

theorem bind {f : α → Reader β} {last : β → State → State → Prop}
    (h : Tracks text words n m context r post s t)
    (hnext : ∀ a u v, post a u v → Tracks text words n m context (f a) last u v) :
    Tracks text words n m context (r >>= f) last s t :=
  Follows.next h hnext

theorem scope (h : Tracks text words n m context r
    (fun a u v => post a (u.closeScope s) (v.closeScope t)) s.openScope t.openScope) :
    Tracks text words n m context (Reader.scope r) post s t :=
  Follows.next h fun _ _ _ hpost => Follows.of_post hpost

theorem advance {scan : Scan} {post : Unit → State → State → Prop}
    (h : unblockedTags words (.scan scan) s.scanner = true → post () (s.advance scan) (t.advance scan)) :
    Tracks text words n m context (Reader.advance scan) post s t := by
  intro a u hu
  obtain ⟨hguard, hu⟩ := Option.ite_none_right_eq_some.1 hu
  cases hu
  exact ⟨_, rfl, h hguard⟩

theorem leaf {kind : NodeKind} {scan : Scan} {post : Unit → State → State → Prop}
    (h : unblockedTags words (.scan scan) s.scanner = true →
      post () ((s.addPiece (s.leafHere kind)).advance scan)
        ((t.addPiece (t.leafHere kind)).advance scan)) :
    Tracks text words n m context (Reader.leaf kind scan) post s t := by
  intro a u hu
  obtain ⟨hguard, hu⟩ := Option.ite_none_right_eq_some.1 hu
  cases hu
  exact ⟨_, rfl, h hguard⟩

theorem report (problem : SyntaxProblem) : Tracks text words n m context (Grammar.report problem)
    (fun _ u v => u = s.report context.speculative problem ∧
      v = t.report context.speculative problem) s t :=
  Follows.of_post ⟨rfl, rfl⟩

theorem call {construct : Construct} {post : Unit → State → State → Prop}
    (h : Follows post (guardedBy (blockGuard words) n construct context s)
      (rulesWithin m construct { context with size := byteLength (interleave words 0 text) } t)) :
    Tracks text words n m context (Grammar.call construct) post s t := by
  simpa only [Tracks, Grammar.call, Reader.guarded, unblockedTags, unguarded, if_true] using h

theorem wrap (kind : NodeKind) : Tracks text words n m context (Grammar.wrap kind)
    (fun _ u v => u = s.wrap kind ∧ v = t.wrap kind) s t :=
  Follows.of_post ⟨rfl, rfl⟩

theorem kind (hkind : s.scanner.kind = t.scanner.kind) :
    Tracks text words n m context kind (fun k u v => k = s.scanner.kind ∧ u = s ∧ v = t) s t := by
  intro a u hu
  cases hu
  exact ⟨t, congrArg (fun k => some (k, t)) hkind.symm, rfl, rfl, rfl⟩

theorem isAt (k : TokenKind) (hkind : s.scanner.kind = t.scanner.kind) :
    Tracks text words n m context (isAt k)
      (fun yes u v => yes = decide (s.scanner.kind = k) ∧ u = s ∧ v = t) s t :=
  (kind hkind).bind fun _ _ _ ⟨ha, hu, hv⟩ => .pure ⟨by rw [ha], hu, hv⟩

/-- What is read under the guard is what is read. -/
theorem and_run (h : Tracks text words n m context r post s t) :
    Tracks text words n m context r
      (fun a u v => post a u v ∧ r.run (rulesWithin n) context s = some (a, u)) s t := by
  intro a u hu
  obtain ⟨v, hv, hpost⟩ := h hu
  exact ⟨v, hv, hpost, run_of_guardedBy hu⟩

theorem nested {beyond inner : Reader Unit} {post : Unit → State → State → Prop}
    (hbeyond : maxDepth ≤ context.depth → Tracks text words n m context beyond post
      (s.report context.speculative .nestingTooDeep) (t.report context.speculative .nestingTooDeep))
    (hinner : Tracks text words n m { context with depth := context.depth + 1 } inner post s t) :
    Tracks text words n m context (Grammar.nested beyond inner) post s t := by
  unfold Tracks Grammar.nested
  simp only [Reader.guarded]
  split
  next hdepth => exact hbeyond hdepth
  next => exact hinner

/-- The construct that is being read still starts where it started. -/
theorem and_start_eq (h : Tracks text words n m context r post s t) (hs : s.scanner.Sound text) :
    Tracks text words n m context r (fun a u v => post a u v ∧ u.start = s.start) s t := by
  refine h.and_run.mono fun a u v ⟨hpost, hrun⟩ => ⟨hpost, ?_⟩
  have hstays : s.StaysBehind text 0 u :=
    behind_run (addsBehind_rulesWithin n) r hs ⟨Nat.zero_le _, fun _ _ => Nat.zero_le _⟩
      (Or.inr (Nat.zero_le _)) hrun
  exact hstays.start_eq

end Tracks

/-- What is known of the recursive constructs: outside elements both texts are read in step, and an
element among the children of another one is read to its end in both. -/
structure InStep (text : List Char) (words : ℕ → List Char) (counts : ℕ → ℕ) (n m : ℕ) : Prop where
  construct {c : Construct} {context : Context} {s t : State} : c ≠ .markup true →
    context.size = byteLength text → Parallel text words counts s t →
    Follows (fun _ => Parallel text words counts) (guardedBy (blockGuard words) n c context s)
      (rulesWithin m c { context with size := byteLength (interleave words 0 text) } t)
  child {context : Context} {s t : State} : context.size = byteLength text →
    context.depth < maxDepth → s.Stands text → s.scanner.kind = .lessThan →
    Abreast text words (fun _ _ => byteLength text) s t →
    Follows (fun _ u v => ∃ piece, piece.start = s.position ∧ piece.kind ≠ .token .jsxText ∧
        Collects text words true s t [piece] [piece.grown counts] u v)
      (guardedBy (blockGuard words) n (.markup true) context s)
      (rulesWithin m (.markup true) { context with size := byteLength (interleave words 0 text) } t)

theorem InStep.follows_construct (h : InStep text words counts n m) (c : Construct)
    (context : Context) (hsize : context.size = byteLength text) (s t : State)
    (hst : Parallel text words counts s t) (hguard : unblocked words (.call c) s.scanner = true) :
    Follows (fun _ => Parallel text words counts) (guardedBy (blockGuard words) n c context s)
      (rulesWithin m c { context with size := byteLength (interleave words 0 text) } t) :=
  h.construct (by simpa only [unblocked, decide_eq_true_eq] using hguard) hsize hst

/-! ### Tags -/

/-- A token behind which a child or a closing tag follows. -/
theorem tracks_betweenTags (k : TokenKind) (problem : SyntaxProblem)
    (hst : Parallel text words counts s t) :
    Tracks text words n m context
      (do if ← isAt k then .advance .markup else report problem)
      (fun _ u v => SideBySide text words true u v ∧ Grown counts u v) s t := by
  refine (Tracks.isAt k hst.scanner.kind_eq).bind fun yes u v ⟨_, hu, hv⟩ => ?_
  subst hu hv
  split
  · exact .advance fun hguard =>
      ⟨hst.toAbreast.sideBySide hguard, by simpa [Grown] using hst.pieces⟩
  · refine (Tracks.report problem).mono fun _ u v ⟨hu, hv⟩ => ?_
    subst hu hv
    have hreport := hst.report context.speculative problem
    exact ⟨hreport.sideBySide, hreport.pieces⟩

/-- A node for everything in its scope. -/
theorem tracks_node (kind : NodeKind) (hkind : isElement kind = false) {r : Reader Unit}
    (hs : s.Stands text) (h : Tracks text words n m context r
      (fun _ u v => SideBySide text words among u v ∧ Grown counts u v) s.openScope t.openScope) :
    Tracks text words n m context (node kind r)
      (fun _ u v => ∃ piece, piece.start = s.position ∧ piece.kind = kind ∧
        Collects text words among s t [piece] [piece.grown counts] u v) s t := by
  refine Tracks.scope ((h.and_start_eq hs.sound).bind fun _ u v ⟨⟨hside, hgrown⟩, hstart⟩ => ?_)
  refine (Tracks.wrap kind).mono fun _ u' v' ⟨hu, hv⟩ => ?_
  subst hu hv
  obtain ⟨piece, hpiece, hpiecekind, hcollects⟩ := hside.closeNode hgrown kind hkind s t
  exact ⟨piece, hpiece.trans hstart, hpiecekind, hcollects⟩

/-- The `<` of a tag, or the `{` of an expression. -/
theorem tracks_opener (hw : IsBlocksFor text words counts)
    (hst : Abreast text words (fun _ _ => byteLength text) s t) :
    Tracks text words n m context advance (fun _ => Parallel text words counts)
      s.openScope t.openScope := by
  refine .advance fun hguard => ?_
  obtain ⟨hscan, hclear⟩ :=
    clear_of_unblocked ((unblockedTags_scan (by decide) s.openScope.scanner).symm.trans hguard)
  have hopen : Abreast text words (fun _ _ => byteLength text) s.openScope t.openScope :=
    ⟨hst.scanner, hst.errors⟩
  exact hopen.advance_of_clear hw hscan hclear rfl

theorem outsideTags_tagName : tagName.OutsideTags := by
  simp [tagName, scope, accessedNames, repeatedly, repeatWhile, markupIdentifier, identifierName,
    accept?, isAt, atWord, kind, tokenNode, tokenNodeAs, missing, report, advance, wrap]
  decide

theorem outsideTags_missing (problem : SyntaxProblem) : (missing problem).OutsideTags := by
  simp [missing, report]

theorem outsideTags_typeArguments : typeArgumentsHere.OutsideTags := by
  simp [typeArgumentsHere, optionally, typeArguments, expect, commaSeparated, repeatWhile, wholeType,
    allowConditional, call, accept?, isAt, isAtAny, kind, report, advance]

theorem outsideTags_wholeExpression : wholeExpression.OutsideTags := by
  simp [wholeExpression, allowIn, expression, scope, repeatedly, repeatWhile, accept?, isAt, kind,
    advance, wrap, call]
  decide

theorem outsideTags_accept? (k : TokenKind) : (accept? k).OutsideTags := by
  simp [accept?, isAt, kind, advance]

theorem outsideTags_attributeValue : attributeValue.OutsideTags := by
  refine ⟨trivial, fun k => ?_⟩
  have hexpression := outsideTags_wholeExpression
  dsimp only
  split <;>
    simp [attributeExpression, node, scope, optionally, opposite, isAt, kind, expect, tokenNode,
      tokenNodeAs, wrap, advance, report, call, hexpression]
  decide

theorem outsideTags_attributes : (repeatWhile tagAttribute).OutsideTags := by
  have hexpression := outsideTags_wholeExpression
  have hvalue := outsideTags_attributeValue
  simp [repeatWhile, tagAttribute, spreadAttribute, plainAttribute, attributeName, markupIdentifier,
    node, scope, optionally, accept?, isAt, isAtAny, atWord, kind, expect, tokenNodeAs, wrap,
    advance, report, outsideTags_missing, hexpression, hvalue]
  decide

section

variable (hw : IsBlocksFor text words counts) (hrules : InStep text words counts n m)
  (hsize : context.size = byteLength text)

include hw hrules hsize

theorem tracks_outsideTags {r : Reader α} (hr : r.OutsideTags) (hst : Parallel text words counts s t) :
    Tracks text words n m context r (fun _ => Parallel text words counts) s t := by
  rw [Tracks, hr.guarded_eq]
  exact (lockstep_parallel hw).follows_guarded hrules.follows_construct r context hsize
    (byteLength_le_interleave words 0 text) hst

theorem tracks_tagEnd (textFollows : Bool) (hst : Parallel text words counts s t) :
    Tracks text words n m context (tagEnd textFollows)
      (fun _ u v => SideBySide text words textFollows u v ∧ Grown counts u v) s t := by
  cases textFollows with
  | true => exact tracks_betweenTags .greaterThan _ hst
  | false =>
    have hcode : (tagEnd false).OutsideTags := by
      simp [tagEnd, isAt, kind, report]
    exact (tracks_outsideTags hw hrules hsize hcode hst).mono fun _ u v huv =>
      ⟨huv.sideBySide, huv.pieces⟩

theorem tracks_openingFragmentRest (huv : Parallel text words counts u v) (s t : State) :
    Tracks text words n m context openingFragmentRest
      (fun _ u v => ∃ piece, Collects text words true s t [piece] [piece.grown counts]
        (u.closeScope s) (v.closeScope t)) u v := by
  refine (tracks_tagEnd hw hrules hsize true huv).bind fun _ u v ⟨hside, hgrown⟩ => ?_
  refine (Tracks.wrap .jsxOpeningFragment).mono fun _ u' v' ⟨hu, hv⟩ => ?_
  subst hu hv
  obtain ⟨piece, -, -, hpiece⟩ := hside.closeNode hgrown .jsxOpeningFragment rfl s t
  exact ⟨piece, hpiece⟩

theorem tracks_openingTag (among : Bool) (hst : Abreast text words (fun _ _ => byteLength text) s t) :
    Tracks text words n m context (openingTag among)
      (fun opening u v => ∃ piece,
        Collects text words (if opening = .closedElement then among else true) s t [piece]
          [piece.grown counts] u v) s t := by
  refine Tracks.scope ((tracks_opener hw hst).bind fun _ u v huv => ?_)
  refine (Tracks.isAt .greaterThan huv.scanner.kind_eq).bind fun yes u' v' ⟨_, hu, hv⟩ => ?_
  subst hu hv
  split
  · exact (tracks_openingFragmentRest hw hrules hsize huv s t).bind fun _ _ _ h => .pure h
  · refine (tracks_outsideTags hw hrules hsize outsideTags_tagName huv).bind fun _ u v huv => ?_
    refine (tracks_outsideTags hw hrules hsize outsideTags_typeArguments huv).bind fun _ u v huv => ?_
    refine (tracks_outsideTags hw hrules hsize outsideTags_attributes huv).bind fun _ u v huv => ?_
    refine (tracks_outsideTags hw hrules hsize (outsideTags_accept? .slash) huv).bind
      fun closed u v huv => ?_
    split
    all_goals
      refine (tracks_tagEnd hw hrules hsize _ huv).bind fun _ u v ⟨hside, hgrown⟩ => ?_
      refine (Tracks.wrap .jsxOpeningElement).bind fun _ u' v' ⟨hu, hv⟩ => .pure ?_
      subst hu hv
      obtain ⟨piece, -, -, hpiece⟩ := hside.closeNode hgrown .jsxOpeningElement rfl s t
      exact ⟨piece, hpiece⟩

/-! ### One child -/

/-- An expression in braces among the children. -/
theorem tracks_childExpression (hs : s.Stands text)
    (hst : Abreast text words (fun _ _ => byteLength text) s t) :
    Tracks text words n m context childExpression
      (fun _ u v => ∃ piece, piece.start = s.position ∧ piece.kind = .jsxExpression ∧
        Collects text words true s t [piece] [piece.grown counts] u v) s t := by
  have hinside : (optionally (opposite (isAt .closeBrace)) do
      accept .dotDotDot
      wholeExpression).OutsideTags := by
    simp [optionally, opposite, accept, isAt, kind, advance,
      outsideTags_wholeExpression]
  refine tracks_node .jsxExpression rfl hs ?_
  refine (tracks_opener hw hst).bind fun _ u v huv => ?_
  refine (tracks_outsideTags hw hrules hsize hinside huv).bind fun _ u v huv => ?_
  exact tracks_betweenTags .closeBrace _ huv

end

/-- What is left of a child: a piece, if there is one. -/
def ChildRead (text : List Char) (words : ℕ → List Char) (counts : ℕ → ℕ) (s t : State) :
    Bool → State → State → Prop
  | true, u, v => ∃ piece, piece.start = s.position ∧
      (piece.kind = .token .jsxText ↔ s.scanner.kind = .jsxText) ∧
      Collects text words true s t [piece] [piece.grown counts] u v
  | false, u, v => s.scanner.kind ∉ [.jsxText, .lessThan, .openBrace] ∧
      (words s.position = [] → Collects text words false s t [] [] u v)

/-- Text among the children ends at the same place in both texts; in the second one it may begin with
the blanks of a block. -/
theorem tracks_markupChild_text (hkind : s.scanner.kind = .jsxText)
    (hkind' : t.scanner.kind = .jsxText) (hstop : AtStop text words s.scanner.stop t.scanner.stop)
    (herrors : List.Forall₂ (Corresponds text words) s.errors t.errors) :
    Tracks text words n m context markupChild
      (fun more u v => more = true ∧ SideBySide text words true u v ∧
        u.pieces = s.leafHere (.token .jsxText) :: s.pieces ∧
        v.pieces = t.leafHere (.token .jsxText) :: t.pieces) s t := by
  refine (Tracks.kind (hkind.trans hkind'.symm)).bind fun k u v ⟨hk, hu, hv⟩ => ?_
  subst hu hv
  rw [hk, hkind]
  refine Tracks.bind (Tracks.leaf fun hguard => ?_) fun _ u v h => .pure ⟨rfl, h⟩
  refine ⟨⟨Scan.full_apply .markup _, ?_, .inr ⟨rfl, _, _, hstop, hguard, rfl, rfl⟩⟩, ?_, ?_⟩
  · simpa [State.advance, State.addPiece] using herrors
  · simp [State.addPiece]
  · simp [State.addPiece]

section

variable (hw : IsBlocksFor text words counts) (hrules : InStep text words counts n m)
  (hsize : context.size = byteLength text)

include hw hrules hsize

/-- One child, or none, at the same token of both texts. -/
theorem tracks_markupChild (hdepth : context.depth < maxDepth ∨ s.scanner.kind ≠ .lessThan)
    (hs : s.Stands text) (hst : Abreast text words (fun _ _ => byteLength text) s t) :
    Tracks text words n m context markupChild (ChildRead text words counts s t) s t := by
  by_cases htext : s.scanner.kind = .jsxText
  · refine (tracks_markupChild_text htext (hst.scanner.kind_eq.symm.trans htext) hst.scanner.stop
      hst.errors).mono fun more u v h => ?_
    obtain ⟨rfl, hside, hu, hv⟩ := h
    refine ⟨_, rfl, iff_of_true rfl htext, hside, hu, ?_⟩
    rw [hv, List.map_cons, shape_leafHere s t]
    rfl
  refine (Tracks.kind hst.scanner.kind_eq).bind fun k u v h => ?_
  obtain ⟨rfl, rfl, rfl⟩ := h
  split
  next hkind => exact absurd hkind htext
  next hkind =>
    refine (tracks_childExpression hw hrules hsize hs hst).bind fun _ u v h => .pure ?_
    obtain ⟨piece, hstart, hpiece, hcollects⟩ := h
    exact ⟨piece, hstart, by simp [hpiece, hkind], hcollects⟩
  next hkind =>
    have hchild := hrules.child hsize (hdepth.resolve_right (· hkind)) hs hkind hst
    refine (Tracks.call hchild).bind fun _ u v h => .pure ?_
    obtain ⟨piece, hstart, hpiece, hcollects⟩ := h
    exact ⟨piece, hstart, iff_of_false hpiece (by simp [hkind]), hcollects⟩
  next hkind =>
    refine .pure ⟨by simp [hkind], fun hwords => ?_⟩
    exact SideBySide.collects ⟨hs.full, hst.errors, .inl ⟨hst.scanner, hwords⟩⟩ rfl rfl
  next _ hbrace hless _ =>
    refine (Tracks.report .closingTagExpected).bind fun _ u v h => .pure ?_
    obtain ⟨rfl, rfl⟩ := h
    refine ⟨by simpa [htext] using ⟨hless, hbrace⟩, fun hwords => ?_⟩
    have hside : SideBySide text words false u v := ⟨hs.full, hst.errors, .inl ⟨hst.scanner, hwords⟩⟩
    exact (hside.report _ _).collects (State.pieces_report _ _ _) (State.pieces_report _ _ _)

end

/-! ### The blocks in front of a child -/

/-- The state `v` of the second text behind the blocks in front of a child, which have been read from
the state `t` on: the last run of blank text is at hand. -/
structure BehindBlocks (words : ℕ → List Char) (counts : ℕ → ℕ) (s₀ t₀ : Scanner) (t v : State) :
    Prop where
  errors : v.errors = t.errors
  kind : v.scanner.kind = .jsxText
  pieces : .leaf (.token .jsxText) 0 0 :: v.pieces.map Tree.shape =
    (blockTrees (counts s₀.stop.pos)).reverse ++ t.pieces.map Tree.shape
  stop : v.scanner.stop = Cursor.skipWhile (fun c => c ≠ '{' && c ≠ '<')
    { pos := t₀.stop.pos + byteLength (words s₀.stop.pos)
      rest := bare words s₀.stop.pos s₀.stop.rest }

/-- In the second text the reader of children gets over the blocks in front of a child. -/
theorem exists_repeatRun_overBlocks (rules : Rules) (context : Context)
    (hw : IsBlocksFor text words counts) {s₀ t₀ : Scanner} (hstop : AtStop text words s₀.stop t₀.stop)
    (ht : t.scanner = t₀.nextMarkup) (hne : words s₀.stop.pos ≠ []) :
    ∃ v, (∀ k, repeatRun rules markupChild (k + (2 * counts s₀.stop.pos - 1)) context t =
        repeatRun rules markupChild k context v) ∧ BehindBlocks words counts s₀ t₀ t v := by
  obtain ⟨blocks, hlength, hblocks, hwords⟩ := hw.exists_blocks s₀.stop.pos
  cases blocks with
  | nil => exact absurd hwords hne
  | cons block blocks =>
    have hrest : t₀.stop.rest = (block :: blocks).flatten ++ bare words s₀.stop.pos s₀.stop.rest := by
      rw [hstop.rest_eq, interleave_eq_bare, hwords]
    obtain ⟨v, hruns, herrors, hpieces, hkind, hend⟩ :=
      @exists_repeatRun_blocks rules context _ _ _ _ _ hblocks ht hrest
    rw [List.length_cons] at hlength
    refine ⟨v, fun k => ?_, herrors, hkind, ?_, ?_⟩
    · rw [← hlength, ← hruns k]
      rfl
    · rw [← hlength, hpieces]
    · rw [hend, ← hwords]

theorem clear_of_unblockedTags {s : Scanner} (h : unblockedTags words (.scan .markup) s = true) :
    s.nextMarkup.Clear words (s.stop.pos + 1) [.jsxText] ∧
      (words s.stop.pos = [] ∨ s.nextMarkup.kind ∈ [.jsxText, .lessThan, .openBrace]) := by
  simpa only [unblockedTags, Bool.and_eq_true, decide_eq_true_eq, Bool.or_eq_true,
    List.isEmpty_iff, List.contains_iff_mem] using h

/-- Where there are no blocks, the same token is at hand. -/
theorem SideBySide.aligned_of_nil (hw : IsBlocksFor text words counts)
    (h : SideBySide text words among s t) (hnil : words s.position = []) :
    s.scanner.Aligned text words (fun _ _ => byteLength text) t.scanner := by
  rcases h.scanner with ⟨haligned, -⟩ | ⟨-, s₀, t₀, hstop, hguard, hs, ht⟩
  · exact haligned
  · have hposition : s.position = s₀.stop.pos := congrArg (·.start.pos) hs
    rw [hs, ht]
    exact Scanner.aligned_nextMarkup_of_clear hw (hstop.atStart (hposition ▸ hnil))
      (clear_of_unblockedTags hguard).1

/-- What is left of a child and the blocks in front of it. -/
def ChildWithBlocks (text : List Char) (words : ℕ → List Char) (counts : ℕ → ℕ) (s t : State) :
    Bool → State → State → Prop
  | true, u, v => ∃ piece, Collects text words true s t [piece] (piece.withBlocks counts) u v
  | false, u, v => Collects text words false s t [] [] u v

/-- If the child is text, it begins with the blanks of the last block. -/
theorem BehindBlocks.tracks_text (hw : IsBlocksFor text words counts)
    (htext : s.scanner.kind = .jsxText) (hst : SideBySide text words true s t) {s₀ t₀ : Scanner}
    (hstop : AtStop text words s₀.stop t₀.stop)
    (hguard : unblockedTags words (.scan .markup) s₀ = true) (hs : s.scanner = s₀.nextMarkup)
    (hne : words s₀.stop.pos ≠ []) {v : State} (hv : BehindBlocks words counts s₀ t₀ t v) :
    Tracks text words n m context markupChild (ChildWithBlocks text words counts s t) s v := by
  have hposition : s.position = s₀.stop.pos := congrArg (·.start.pos) hs
  -- the same token, without the blocks that have been read
  let behind : Scanner := { t₀ with
    stop := { pos := t₀.stop.pos + byteLength (words s₀.stop.pos)
              rest := bare words s₀.stop.pos s₀.stop.rest } }
  have haligned : s₀.nextMarkup.Aligned text words (fun _ _ => byteLength text) behind.nextMarkup :=
    Scanner.aligned_nextMarkup_of_clear hw hstop.overWords (clear_of_unblockedTags hguard).1
  have hbehind : behind.nextMarkup.kind = .jsxText := by rw [← haligned.kind_eq, ← hs, htext]
  have hstop' : AtStop text words s.scanner.stop v.scanner.stop := by
    rw [hs, hv.stop, ← Lexeme.next_readMarkup_of_text hbehind]
    exact haligned.stop
  refine (tracks_markupChild_text htext hv.kind hstop' (hv.errors ▸ hst.errors)).mono
    fun more u w hread => ?_
  obtain ⟨rfl, hside, hu, hpieces⟩ := hread
  refine ⟨_, hside, hu, ?_⟩
  have hleaf : (v.leafHere (.token .jsxText)).shape = .leaf (.token .jsxText) 0 0 :=
    Tree.shape_node _ _ _ _
  have hblocks : (s.leafHere (.token .jsxText)).withBlocks counts =
      blockTrees (counts s₀.stop.pos) := by
    have hcount : 0 < counts s.position := hposition ▸ hw.counts_pos hne
    rw [Tree.withBlocks, if_pos ⟨hcount, rfl⟩, List.append_nil]
    exact congrArg (fun b => blockTrees (counts b)) hposition
  rw [hpieces, List.map_cons, hleaf, hv.pieces, hblocks]

section

variable (hw : IsBlocksFor text words counts) (hrules : InStep text words counts n m)
  (hsize : context.size = byteLength text)

include hw hrules hsize

theorem tracks_childWithBlocks (hdepth : context.depth < maxDepth ∨ s.scanner.kind ≠ .lessThan)
    (hs : s.Stands text) (hst : Abreast text words (fun _ _ => byteLength text) s t)
    (hnil : words s.position = []) :
    Tracks text words n m context markupChild (ChildWithBlocks text words counts s t) s t := by
  refine (tracks_markupChild hw hrules hsize hdepth hs hst).mono fun more u v hread => ?_
  cases more with
  | false => exact hread.2 hnil
  | true =>
    obtain ⟨piece, hstart, -, hcollects⟩ := hread
    have hzero : counts piece.start = 0 := hstart ▸ hw.counts_eq_zero hnil
    exact ⟨piece, by rwa [Tree.withBlocks_of_eq_zero hzero]⟩

/-- If the child is no text, the blanks of the last block are a child of their own. -/
theorem BehindBlocks.tracks_other (hdepth : context.depth < maxDepth ∨ s.scanner.kind ≠ .lessThan)
    (htext : s.scanner.kind ≠ .jsxText) (hst : SideBySide text words true s t) {s₀ t₀ : Scanner}
    (hstop : AtStop text words s₀.stop t₀.stop)
    (hguard : unblockedTags words (.scan .markup) s₀ = true) (hs : s.scanner = s₀.nextMarkup)
    (hne : words s₀.stop.pos ≠ []) {v : State} (hv : BehindBlocks words counts s₀ t₀ t v) :
    Tracks text words n m context markupChild (ChildWithBlocks text words counts s t) s
      ((v.addPiece (v.leafHere (.token .jsxText))).advance .markup) := by
  obtain ⟨hclear, hkinds⟩ := clear_of_unblockedTags hguard
  have hposition : s.position = s₀.stop.pos := congrArg (·.start.pos) hs
  have hother : (Lexeme.readMarkup s₀.stop).kind ≠ .jsxText := fun h => htext (by rw [hs]; exact h)
  have hhead := Lexeme.head?_of_readMarkup hother
  rw [← head?_bare words s₀.stop.pos] at hhead
  have hstart : AtStart text words s₀.stop v.scanner.stop := by
    rw [hv.stop, Cursor.skipWhile_eq_self hhead]
    exact hstop.overWords
  have haligned : s.scanner.Aligned text words (fun _ _ => byteLength text)
      v.scanner.nextMarkup := by
    rw [hs]
    exact Scanner.aligned_nextMarkup_of_clear hw hstart hclear
  refine (tracks_markupChild hw hrules hsize hdepth hst.stands ⟨haligned, ?_⟩).mono
    fun more u w hread => ?_
  · simpa [State.advance, State.addPiece, hv.errors] using hst.errors
  · cases more with
    | false =>
      have hkinds := hkinds.resolve_left hne
      rw [← hs] at hkinds
      exact absurd hkinds hread.1
    | true =>
      obtain ⟨piece, hstart, hpiece, hcollects⟩ := hread
      have hother : ¬ (0 < counts piece.start ∧ piece.kind = .token .jsxText) :=
        fun h => htext (hpiece.1 h.2)
      refine ⟨piece, hcollects.toSideBySide, hcollects.pieces, ?_⟩
      have hpieces : ((v.addPiece (v.leafHere (.token .jsxText))).advance .markup).pieces.map
          Tree.shape = (blockTrees (counts s₀.stop.pos)).reverse ++ t.pieces.map Tree.shape := by
        rw [← hv.pieces]
        simp [State.addPiece, State.leafHere, Tree.leaf, Tree.shape_node]
      rw [hcollects.trees, hpieces, Tree.withBlocks, if_neg hother, hstart, hposition,
        List.reverse_append, List.append_assoc]

/-- Behind the blocks, the child is read as in the first text. -/
theorem exists_tracks_behindBlocks (rules : Rules) (context' : Context)
    (hdepth : context.depth < maxDepth ∨ s.scanner.kind ≠ .lessThan)
    (hst : SideBySide text words true s t) {s₀ t₀ : Scanner}
    (hstop : AtStop text words s₀.stop t₀.stop)
    (hguard : unblockedTags words (.scan .markup) s₀ = true) (hs : s.scanner = s₀.nextMarkup)
    (ht : t.scanner = t₀.nextMarkup) (hne : words s₀.stop.pos ≠ []) :
    ∃ v, ∃ steps ≤ 2 * counts s₀.stop.pos, (∀ k, repeatRun rules markupChild (k + steps) context' t =
        repeatRun rules markupChild k context' v) ∧
      Tracks text words n m context markupChild (ChildWithBlocks text words counts s t) s v := by
  have hpos := hw.counts_pos hne
  obtain ⟨v, hruns, hv⟩ := exists_repeatRun_overBlocks rules context' hw hstop ht hne
  by_cases htext : s.scanner.kind = .jsxText
  · exact ⟨v, _, Nat.sub_le _ 1, hruns,
      hv.tracks_text hw htext hst hstop hguard hs hne⟩
  · refine ⟨_, _, le_rfl, fun k => ?_,
      hv.tracks_other hw hrules hsize hdepth htext hst hstop hguard hs hne⟩
    rw [show k + 2 * counts s₀.stop.pos = k + 1 + (2 * counts s₀.stop.pos - 1) by omega, hruns,
      repeatRun_succ, run_markupChild_text hv.kind]
    rfl

/-- In the second text the reader of children comes to a state from which it reads a child as in the
first one. On the way to it, every step takes a byte of the blocks. -/
theorem exists_tracks_child (rules : Rules) (context' : Context)
    (hdepth : context.depth < maxDepth ∨ s.scanner.kind ≠ .lessThan)
    (hst : SideBySide text words true s t) :
    ∃ v steps, (∀ k, repeatRun rules markupChild (k + steps) context' t =
        repeatRun rules markupChild k context' v) ∧
      steps + byteLength (bare words s.position s.scanner.start.rest) ≤
        byteLength t.scanner.start.rest ∧
      Tracks text words n m context markupChild (ChildWithBlocks text words counts s t) s v := by
  by_cases hnil : words s.position = []
  · have haligned := hst.aligned_of_nil hw hnil
    refine ⟨t, 0, fun _ => rfl, ?_,
      tracks_childWithBlocks hw hrules hsize hdepth hst.stands ⟨haligned, hst.errors⟩ hnil⟩
    rw [haligned.start.rest_eq, Nat.zero_add]
    rfl
  · obtain ⟨-, s₀, t₀, hstop, hguard, hs, ht⟩ := hst.scanner.resolve_left fun h => hnil h.2
    have hstart : s.scanner.start = s₀.stop := congrArg Scanner.start hs
    have hstart' : t.scanner.start = t₀.stop := congrArg Scanner.start ht
    have hposition : s.position = s₀.stop.pos := congrArg Cursor.pos hstart
    obtain ⟨v, steps, hsteps, hruns, htracks⟩ := exists_tracks_behindBlocks hw hrules hsize rules
      context' hdepth hst hstop hguard hs ht (hposition ▸ hnil)
    refine ⟨v, steps, hruns, ?_, htracks⟩
    have hcounts := hw.two_mul_counts_le s₀.stop.pos
    rw [hstart', hstop.rest_eq, interleave_eq_bare, byteLength_append, hposition, hstart]
    omega

end

/-! ### All children -/

/-- What is in front of a token in the second text are its blocks at most. -/
theorem SideBySide.rest_le (h : SideBySide text words among s t) :
    byteLength t.scanner.start.rest ≤
      byteLength (interleave words s.position s.scanner.start.rest) := by
  rcases h.scanner with ⟨haligned, -⟩ | ⟨-, s₀, t₀, hstop, -, hs, ht⟩
  · rw [haligned.start.rest_eq, interleave_eq_bare, byteLength_append]
    exact Nat.le_add_left _ _
  · have hrest : t.scanner.start.rest = interleave words s₀.stop.pos s₀.stop.rest := by
      rw [ht]
      exact hstop.rest_eq
    have hcursor : s.scanner.start = s₀.stop := congrArg Scanner.start hs
    rw [hrest, State.position, hcursor]

/-- The second text has more left from the beginning than from a token on. -/
theorem SideBySide.left_le (h : SideBySide text words among s t) :
    byteLength text + byteLength t.scanner.start.rest ≤
      byteLength (interleave words 0 text) + byteLength s.scanner.start.rest := by
  obtain ⟨before, htext, hpos⟩ := h.stands.sound.reached
  have htext : text = before ++ s.scanner.start.rest := htext
  have hle := byteLength_interleave_append_le words 0 before s.scanner.start.rest
  have hpos : s.position = 0 + byteLength before := hpos
  have hrest := h.rest_le
  rw [← hpos, ← htext] at hle
  have hlength := congrArg byteLength htext
  rw [byteLength_append] at hlength
  omega

/-- And more from a token on than from a later one on. -/
theorem SideBySide.lag_le (h : SideBySide text words among u v) (hs : s.Stands text)
    (hlt : s.position < u.position) :
    byteLength s.scanner.start.rest + byteLength v.scanner.start.rest ≤
      byteLength (bare words s.position s.scanner.start.rest) +
        byteLength u.scanner.start.rest := by
  obtain ⟨word, hrest, hpos⟩ :=
    exists_append_of_pos_le hs.sound.reached h.stands.sound.reached hlt.le
  have hpos : u.position = s.position + byteLength word := hpos
  have hword : word ≠ [] := by
    rintro rfl
    rw [hpos] at hlt
    exact lt_irrefl _ hlt
  have hle := byteLength_interleave_le_bare words s.position hword u.scanner.start.rest
  have hrest' := h.rest_le
  rw [← hrest, ← hpos] at hle
  have hlength := congrArg byteLength hrest
  rw [byteLength_append] at hlength
  omega

/-- Repeats a step under a guard as long as it says yes, but no more than `k` times. -/
def repeatGuarded (guard : Guard) (rules : Rules) (step : Reader Bool) : ℕ → Action Unit
  | 0 => fun _ _ => none
  | k + 1 => fun context s => (step.guarded guard rules context s).bind fun x =>
    if x.1 then repeatGuarded guard rules step k context x.2 else some ((), x.2)

theorem guarded_repeatWhile (guard : Guard) (rules : Rules) (step : Reader Bool) (context : Context)
    (s : State) : (repeatWhile step).guarded guard rules context s =
      repeatGuarded guard rules step (context.size + 2) context s := by
  have hiterate (k : ℕ) (s : State) :
      iterate ((do if ← step then return none else return some () :
        Reader (Option Unit)).guarded guard rules) k context s =
          repeatGuarded guard rules step k context s := by
    induction k generalizing s with
    | zero => rfl
    | succ k ih =>
      have hstep : (do if ← step then return none else return some () :
          Reader (Option Unit)).guarded guard rules context s =
          (step.guarded guard rules context s).bind fun x =>
            (if x.1 then pure none else pure (some ()) : Reader (Option Unit)).guarded guard rules
              context x.2 := rfl
      simp only [iterate, repeatGuarded, hstep]
      cases step.guarded guard rules context s with
      | none => rfl
      | some x =>
        obtain ⟨_ | _, t⟩ := x
        · rfl
        · exact ih t
  exact hiterate (context.size + 2) s

theorem repeatGuarded_unguarded (rules : Rules) (step : Reader Bool) (k : ℕ) :
    repeatGuarded unguarded rules step k = repeatRun rules step k := by
  induction k with
  | zero => rfl
  | succ k ih => rw [repeatGuarded, repeatRun, ih, Reader.guarded_unguarded]

theorem repeatRun_of_repeatGuarded {guards : Construct → Guard} {guard : Guard} {step : Reader Bool}
    {k : ℕ} (h : repeatGuarded guard (guardedBy guards n) step k context s = some ((), t)) :
    repeatRun (rulesWithin n) step k context s = some ((), t) := by
  induction k generalizing s with
  | zero => cases h
  | succ k ih =>
    obtain ⟨⟨more, u⟩, hstep, hrest⟩ := Option.bind_eq_some_iff.1 h
    rw [repeatRun_succ, run_of_guardedBy hstep]
    cases more with
    | false => exact hrest
    | true => exact ih hrest

section

variable (hw : IsBlocksFor text words counts) (hrules : InStep text words counts n m)
  (hsize : context.size = byteLength text)

include hw hrules hsize

/-- The children are the same in both texts but for the blocks. The second text takes more steps, as
many more at most as it has bytes more left. -/
theorem follows_children {k l : ℕ} (hst : SideBySide text words true s t)
    (hfuel : k + byteLength t.scanner.start.rest ≤ l + byteLength s.scanner.start.rest) :
    Follows (fun _ u v => ∃ pieces, Collects text words false s t pieces
        (pieces.flatMap (Tree.withBlocks counts)) u v)
      (repeatGuarded (unblockedTags words) (guardedBy (blockGuard words) n) markupChild k context s)
      (repeatRun (rulesWithin m) markupChild l
        { context with size := byteLength (interleave words 0 text) } t) := by
  induction k generalizing l s t with
  | zero => exact .of_none _
  | succ k ih =>
    -- beyond the greatest depth the first run does not end in front of a `<`
    by_cases htooDeep : maxDepth ≤ context.depth ∧ s.scanner.kind = .lessThan
    · intro a u hu
      have hnone := repeatRun_markupChild_tooDeep (n := n) htooDeep.1 htooDeep.2 (k + 1)
      cases hnone.symm.trans (repeatRun_of_repeatGuarded hu)
    have hdepth : context.depth < maxDepth ∨ s.scanner.kind ≠ .lessThan := by
      rw [← Nat.not_le]
      exact not_and_or.1 htooDeep
    obtain ⟨w, steps, hruns, hsteps, htracks⟩ := exists_tracks_child hw hrules hsize (rulesWithin m)
      { context with size := byteLength (interleave words 0 text) } hdepth hst
    have hbare := byteLength_bare_append_le words s.position s.scanner.start.rest []
    rw [List.append_nil] at hbare
    obtain ⟨l, rfl⟩ : ∃ l', l = l' + 1 + steps := ⟨l - 1 - steps, by omega⟩
    rw [hruns, repeatRun_succ, ← Reader.guarded_unguarded]
    refine Follows.next htracks.and_run fun more u v ⟨hread, hrun⟩ => ?_
    cases more with
    | false => exact .of_post ⟨[], hread⟩
    | true =>
      obtain ⟨piece, hcollects⟩ := hread
      have hmoved : s.position < u.position :=
        (moved_markupChild_iff hst.stands hrun).2 hdepth
      have hlag := hcollects.lag_le hst.stands hmoved
      have hrest := ih hcollects.toSideBySide (l := l) (by omega)
      exact hrest.mono fun _ u' v' ⟨pieces, h⟩ => ⟨piece :: pieces, hcollects.trans h⟩

theorem tracks_children (hst : SideBySide text words true s t) :
    Tracks text words n m context (repeatWhile markupChild)
      (fun _ u v => ∃ pieces, Collects text words false s t pieces
        (pieces.flatMap (Tree.withBlocks counts)) u v) s t := by
  have hleft := hst.left_le
  have hchildren := follows_children hw hrules hsize (k := context.size + 2)
    (l := byteLength (interleave words 0 text) + 2) hst (by omega)
  rw [Tracks, guarded_repeatWhile, guarded_repeatWhile, repeatGuarded_unguarded]
  exact hchildren

/-! ### Elements -/

/-- Nothing is put in front of a closing tag. -/
theorem tracks_closingTag (closing : NodeKind) (hclosing : isElement closing = false)
    (notClosed : SyntaxProblem) {name : Reader Unit} (hname : name.OutsideTags) (among : Bool)
    (hst : SideBySide text words false s t) :
    Tracks text words n m context (closingTag closing notClosed name among)
      (fun _ u v => ∃ pieces, (∀ piece ∈ pieces, counts piece.start = 0) ∧
        Collects text words among s t pieces (pieces.map (Tree.grown counts)) u v) s t := by
  refine (Tracks.isAt .lessThanSlash hst.abreast.scanner.kind_eq).bind fun yes u v ⟨_, hu, hv⟩ => ?_
  subst hu hv
  split
  · have htag := (tracks_opener hw hst.abreast).bind fun _ u v huv =>
      (tracks_outsideTags hw hrules hsize hname huv).bind fun _ u v huv =>
        tracks_tagEnd hw hrules hsize among huv
    refine (tracks_node closing hclosing hst.stands htag).mono
      fun _ u' v' ⟨piece, hstart, _, hcollects⟩ => ⟨[piece], List.forall_mem_singleton.2 ?_, hcollects⟩
    rw [hstart]
    exact hw.counts_eq_zero hst.aligned.2
  · refine (Tracks.report notClosed).mono fun _ u' v' ⟨hu, hv⟩ => ⟨[], by simp, ?_⟩
    subst hu hv
    exact (hst.report _ _).mono.collects (State.pieces_report _ _ _) (State.pieces_report _ _ _)

/-- The children of an element behind its opening tag, and its closing tag. -/
theorem tracks_rest (whole closing : NodeKind) (hwhole : isElement whole = true)
    (hclosing : isElement closing = false) (notClosed : SyntaxProblem) {name : Reader Unit}
    (hname : name.OutsideTags) (among : Bool) {opening : Tree} (hst : SideBySide text words true s t)
    (hpieces : s.pieces = [opening]) (htrees : t.pieces.map Tree.shape = [opening.grown counts]) :
    Tracks text words n m context
      (do
        repeatWhile markupChild
        closingTag closing notClosed name among
        wrap whole)
      (fun _ u v => SideBySide text words among u v ∧ ∃ piece, piece.start = s.start ∧
        isElement piece.kind = true ∧ u.pieces = [piece] ∧
        v.pieces.map Tree.shape = [piece.grown counts])
      s t := by
  have hchildren := (tracks_children hw hrules hsize hst).and_start_eq hst.stands.sound
  refine hchildren.bind fun _ u v ⟨⟨children, hcollects⟩, hstart⟩ => ?_
  have hclosed := (tracks_closingTag hw hrules hsize closing hclosing notClosed hname among
    hcollects.toSideBySide).and_start_eq hcollects.stands.sound
  refine hclosed.bind fun _ u' v' ⟨⟨tags, hzero, htags⟩, hstart'⟩ => ?_
  refine (Tracks.wrap whole).mono fun _ u'' v'' ⟨hu, hv⟩ => ?_
  subst hu hv
  have hall := hcollects.trans htags
  refine ⟨⟨hall.full, hall.errors, hall.scanner⟩,
    .node whole u'.start (max u'.lastStop u'.start) u'.pieces.reverse, hstart'.trans hstart, hwhole,
    rfl, ?_⟩
  have hreverse : u'.pieces.reverse = opening :: (children ++ tags) := by
    rw [hall.pieces, hpieces]
    simp
  have htrees' : v'.pieces.reverse.map Tree.shape =
      opening.grown counts :: (children ++ tags).flatMap (Tree.withBlocks counts) := by
    rw [List.map_reverse, hall.trees, htrees, List.flatMap_append, Tree.flatMap_withBlocks hzero]
    simp
  rw [State.wrap, List.map_singleton, Tree.shape_node, htrees', hreverse, Tree.grown_element hwhole]

/-- An element or a fragment is read in both texts, in the second one with blocks among its
children. -/
theorem tracks_elementOrFragment (among : Bool) (hs : s.Stands text)
    (hst : Abreast text words (fun _ _ => byteLength text) s t) :
    Tracks text words n m context (elementOrFragment among)
      (fun _ u v => ∃ piece, piece.start = s.position ∧ piece.kind ≠ .token .jsxText ∧
        Collects text words among s t [piece] [piece.grown counts] u v) s t := by
  refine Tracks.scope ?_
  have hopening := (tracks_openingTag hw hrules hsize among (s := s.openScope) (t := t.openScope)
    ⟨hst.scanner, hst.errors⟩).and_start_eq hs.sound
  refine hopening.bind fun kind u v h => ?_
  obtain ⟨⟨opening, hcollects⟩, hstart⟩ := h
  have hpieces : u.pieces = [opening] := by simpa [State.openScope] using hcollects.pieces
  have htrees : v.pieces.map Tree.shape = [opening.grown counts] := by
    simpa [State.openScope] using hcollects.trees
  have hclose (u' v' : State) (h : SideBySide text words among u' v' ∧
      ∃ piece, piece.start = u.start ∧ isElement piece.kind = true ∧ u'.pieces = [piece] ∧
        v'.pieces.map Tree.shape = [piece.grown counts]) :
      ∃ piece, piece.start = s.position ∧ piece.kind ≠ .token .jsxText ∧
        Collects text words among s t [piece] [piece.grown counts] (u'.closeScope s)
          (v'.closeScope t) := by
    obtain ⟨hside, piece, hpiece, hkind, hu, hv⟩ := h
    refine ⟨piece, hpiece.trans hstart, fun htext => ?_, hside.closeScope hu hv⟩
    rw [htext] at hkind
    cases hkind
  cases kind with
  | fragment =>
    exact (tracks_rest hw hrules hsize .jsxFragment .jsxClosingFragment rfl rfl .fragmentNotClosed
      (outsideTags_pure ()) among hcollects.toSideBySide hpieces htrees).mono fun _ => hclose
  | element =>
    exact (tracks_rest hw hrules hsize .jsxElement .jsxClosingElement rfl rfl .elementNotClosed
      outsideTags_tagName among hcollects.toSideBySide hpieces htrees).mono fun _ => hclose
  | closedElement =>
    refine (Tracks.wrap .jsxElement).mono fun _ u' v' h => hclose u' v' ?_
    obtain ⟨rfl, rfl⟩ := h
    have hside : SideBySide text words among u v := hcollects.toSideBySide
    refine ⟨⟨hside.full, hside.errors, hside.scanner⟩,
      .node .jsxElement u.start (max u.lastStop u.start) u.pieces.reverse, rfl, rfl, rfl, ?_⟩
    rw [State.wrap, List.map_singleton, Tree.shape_node, List.map_reverse, htrees, hpieces,
      List.reverse_singleton, List.reverse_singleton, Tree.grown_element rfl]
    rfl

end

end ExpectError.Grammar
