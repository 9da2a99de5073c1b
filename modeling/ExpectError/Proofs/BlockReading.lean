import ExpectError.Placement
import ExpectError.Proofs.ChildBlocks

/-!
# Reading a text with and without blocks

Blocks may be put in front of the children of elements. Everything that is read inside a tag, inside
braces and outside elements is read in both texts in step: there every token is the same. Only
the children of an element are more in one text than in the other, and the trees differ accordingly.

* `Tree.grown`: the tree of a text with blocks;
* `unblocked`, `unblockedTags`: what a run must not do, outside elements and in reading one;
* `guardedBy`: runs in which each construct has a guard of its own;
* `Parallel`, `lockstep_parallel`: what is not part of an element is read in step;
* `Reader.OutsideTags`: the same for what is read inside a tag.
-/

namespace ExpectError

open Text Insertion
open Placement (isElement)

namespace Tree

mutual

/-- A tree without its offsets, with new children in front of the children of elements: in front of
each, as many blocks as are counted where it starts. The first child of an element is its opening
tag, which gets none. -/
def grown (counts : ℕ → ℕ) : Tree → Tree
  | node kind _ _ [] => node kind 0 0 []
  | node kind _ _ (first :: rest) =>
    node kind 0 0 (first.grown counts :: grownRest counts (isElement kind) rest)

/-- The children behind the first one. Text goes on from the blanks of the last block in front of
it. -/
def grownRest (counts : ℕ → ℕ) (inElement : Bool) : List Tree → List Tree
  | [] => []
  | child :: rest =>
    let blocks := if inElement then counts child.start else 0
    Grammar.blockTrees blocks ++
      (if 0 < blocks ∧ child.kind = .token .jsxText then [] else [child.grown counts]) ++
      grownRest counts inElement rest

end

/-- A child of an element with the blocks in front of it. -/
def withBlocks (counts : ℕ → ℕ) (child : Tree) : List Tree :=
  Grammar.blockTrees (counts child.start) ++
    if 0 < counts child.start ∧ child.kind = .token .jsxText then [] else [child.grown counts]

variable {counts : ℕ → ℕ}

theorem withBlocks_of_eq_zero {child : Tree} (h : counts child.start = 0) :
    child.withBlocks counts = [child.grown counts] := by
  simp [withBlocks, h, Grammar.blockTrees]

theorem flatMap_withBlocks {children : List Tree}
    (h : ∀ child ∈ children, counts child.start = 0) :
    children.flatMap (withBlocks counts) = children.map (grown counts) := by
  rw [List.map_eq_flatMap]
  exact List.flatMap_congr fun child hchild => withBlocks_of_eq_zero (h child hchild)

theorem grownRest_true (children : List Tree) :
    grownRest counts true children = children.flatMap (withBlocks counts) := by
  induction children with
  | nil => rw [grownRest, List.flatMap_nil]
  | cons child rest ih => rw [grownRest, List.flatMap_cons, ih]; rfl

theorem grownRest_false (children : List Tree) :
    grownRest counts false children = children.map (grown counts) := by
  induction children with
  | nil => rw [grownRest, List.map_nil]
  | cons child rest ih =>
    rw [grownRest, List.map_cons, ih]
    simp [Grammar.blockTrees]

theorem grown_element {kind : NodeKind} (hkind : isElement kind = true) (start stop : ℕ)
    (opening : Tree) (children : List Tree) :
    (node kind start stop (opening :: children)).grown counts =
      node kind 0 0 (opening.grown counts :: children.flatMap (withBlocks counts)) := by
  rw [grown, hkind, grownRest_true]

theorem grown_node {kind : NodeKind} (hkind : isElement kind = false) (start stop : ℕ)
    (children : List Tree) :
    (node kind start stop children).grown counts = node kind 0 0 (children.map (grown counts)) := by
  cases children with
  | nil => rw [grown, List.map_nil]
  | cons first rest => rw [grown, hkind, grownRest_false, List.map_cons]

theorem grown_leaf (kind : NodeKind) (start stop : ℕ) :
    (leaf kind start stop).grown counts = leaf kind 0 0 := by
  rw [leaf, grown, leaf]

end Tree

namespace Grammar

/-! ### Guards -/

/-- Refuses what comes out otherwise with blocks put into the text: a token that a block comes into,
and one with a block in front of it or behind it, unless it ends at the brace of a block. Whatever is
done in reading an element only is refused too. -/
def unblocked (words : ℕ → List Char) : Guard
  | .ask _, _ => true
  | .scan .markup, _ => false
  | .scan scan, s => decide ((scan.apply s).Clear words s.stop.pos [.greaterThan, .closeBrace])
  | .rescan scan, s =>
    decide ((scan.apply s).Clear words (s.start.pos + 1) [.greaterThan, .closeBrace, .jsxText])
  | .wrap kind, _ => !isElement kind
  | .call construct, _ => decide (construct ≠ .markup true)

/-- In reading an element, a token between tags may have blocks in front of it if it begins a
child. -/
def unblockedTags (words : ℕ → List Char) : Guard
  | .scan .markup, s => decide (s.nextMarkup.Clear words (s.stop.pos + 1) [.jsxText]) &&
      ((words s.stop.pos).isEmpty ||
        [TokenKind.jsxText, .lessThan, .openBrace].contains s.nextMarkup.kind)
  | .wrap _, _ | .call _, _ => true
  | move, s => unblocked words move s

/-- The guard of each construct. -/
def blockGuard (words : ℕ → List Char) : Construct → Guard
  | .markup _ => unblockedTags words
  | _ => unblocked words

/-- The rules for constructs at most `n` deep, each under a guard of its own. -/
def guardedBy (guards : Construct → Guard) : ℕ → Rules
  | 0, _ => fun _ _ => none
  | n + 1, construct => (produce construct).guarded (guards construct) (guardedBy guards n)

variable {α : Type} {rules rules' : Rules} {context : Context} {s t : State}

/-- What is read under a guard is what is read. -/
theorem run_of_guarded {guard : Guard} {r : Reader α} {a : α}
    (hrules : ∀ construct context s t, rules construct context s = some ((), t) →
      rules' construct context s = some ((), t))
    (hrun : r.guarded guard rules context s = some (a, t)) :
    r.run rules' context s = some (a, t) := by
  have hsame := lockstep_invariant (p := fun _ _ => True) (fun _ _ => id) (fun _ _ => id) guard
  have hcall : ∀ construct (context' : Context), context'.size = context.size →
      ∀ u v : State, u = v ∧ True → guard (.call construct) u.scanner = true →
        Follows (fun _ u v => u = v ∧ True) (rules construct context' u)
          (rules' construct { context' with size := context.size } v) := by
    rintro construct context' hown u _ ⟨rfl, -⟩ - ⟨⟩ v hv
    rw [← hown]
    exact ⟨v, hrules construct context' u v hv, rfl, trivial⟩
  obtain ⟨u, hu, rfl, -⟩ := hsame.follows_guarded hcall r context rfl le_rfl ⟨rfl, trivial⟩ hrun
  rwa [Reader.guarded_unguarded] at hu

theorem rulesWithin_of_guardedBy {guards : Construct → Guard} (n : ℕ) (construct : Construct)
    (context : Context) (s t : State) (h : guardedBy guards n construct context s = some ((), t)) :
    rulesWithin n construct context s = some ((), t) := by
  induction n generalizing construct context s t with
  | zero => cases h
  | succ n ih => exact run_of_guarded ih h

theorem run_of_guardedBy {guards : Construct → Guard} {guard : Guard} {n : ℕ} {r : Reader α} {a : α}
    (hrun : r.guarded guard (guardedBy guards n) context s = some (a, t)) :
    r.run (rulesWithin n) context s = some (a, t) :=
  run_of_guarded (rulesWithin_of_guardedBy n) hrun

/-! ### Outside elements -/

variable {text : List Char} {words : ℕ → List Char} {counts : ℕ → ℕ}

/-- Two states at the same token of a text and of the text with blocks in it, with no blocks in front
of it; the pieces of the second one have all their blocks. -/
structure Parallel (text : List Char) (words : ℕ → List Char) (counts : ℕ → ℕ) (s t : State) :
    Prop extends Abreast text words (fun _ _ => byteLength text) s t where
  full : s.scanner.Full
  clear : words s.position = []
  pieces : t.pieces.map Tree.shape = s.pieces.map (Tree.grown counts)

/-- Behind any token, if the next one is clear of blocks. -/
theorem Abreast.advance_of_clear (hw : IsBlocksFor text words counts) {scan : Scan}
    (hscan : scan ≠ .markup) (h : Abreast text words (fun _ _ => byteLength text) s t)
    (hclear : (scan.apply s.scanner).Clear words s.scanner.stop.pos [.greaterThan, .closeBrace])
    (hpieces : t.pieces.map Tree.shape = s.pieces.map (Tree.grown counts)) :
    Parallel text words counts (s.advance scan) (t.advance scan) where
  scanner := Scanner.aligned_scan_of_clear hw.isPartingFor hscan h.scanner.stop hclear
  errors := by simpa [State.advance] using h.errors
  full := scan.full_apply s.scanner
  clear := hclear.front _ (State.stop_le_start_scan scan s.scanner) le_rfl
  pieces := by simpa using hpieces

theorem clear_of_unblocked {scan : Scan} {s : Scanner}
    (h : unblocked words (.scan scan) s = true) :
    scan ≠ .markup ∧ (scan.apply s).Clear words s.stop.pos [.greaterThan, .closeBrace] := by
  cases scan with
  | code | attributeValue => exact ⟨by decide, of_decide_eq_true h⟩
  | markup => cases h

namespace Parallel

theorem lineBreakBefore_eq (hw : IsBlocksFor text words counts)
    (h : Parallel text words counts s t) :
    t.scanner.lineBreakBefore = s.scanner.lineBreakBefore := by
  rw [h.scanner.lineBreakBefore_eq, hw.end_eq, List.any_nil, Bool.or_false]

theorem answer_eq (hw : IsBlocksFor text words counts) (h : Parallel text words counts s t)
    {α : Type} (question : Question α) :
    question.answer s.scanner = question.answer t.scanner := by
  cases question with
  | kind => exact h.scanner.kind_eq
  | onNewLine => exact (h.lineBreakBefore_eq hw).symm
  | isAssert =>
    show decide (s.scanner.tokenText = _) = decide (t.scanner.tokenText = _)
    rw [h.scanner.text_eq]

theorem rescan (hw : IsBlocksFor text words counts) (h : Parallel text words counts s t)
    (scan : Rescan) (hclear : (scan.apply s.scanner).Clear words (s.scanner.start.pos + 1)
      [.greaterThan, .closeBrace, .jsxText]) :
    Parallel text words counts (s.rescan scan) (t.rescan scan) where
  scanner := Scanner.aligned_rescan_of_clear hw.isPartingFor scan h.scanner hclear
  errors := h.errors
  full := scan.full_apply h.scanner.sound h.full
  clear := by
    have hstart := (State.sameStart_rescan scan h.scanner.sound).start_eq
    rw [State.position, State.rescan, hstart]
    exact h.clear
  pieces := h.pieces

theorem report (h : Parallel text words counts s t) (speculative : Bool) (problem : SyntaxProblem) :
    Parallel text words counts (s.report speculative problem) (t.report speculative problem) where
  toAbreast := h.toAbreast.report speculative problem
  full := by rw [(State.scanner_report speculative problem s).1]; exact h.full
  clear := by rw [State.position, (State.scanner_report speculative problem s).1]; exact h.clear
  pieces := by rw [State.pieces_report, State.pieces_report, h.pieces]

theorem addPiece (h : Parallel text words counts s t) {piece piece' : Tree}
    (hpiece : piece'.shape = piece.grown counts) :
    Parallel text words counts (s.addPiece piece) (t.addPiece piece') := by
  refine ⟨⟨h.scanner, h.errors⟩, h.full, h.clear, ?_⟩
  simp [State.addPiece, hpiece, h.pieces]

end Parallel

theorem shape_leafHere (s t : State) (kind : NodeKind) :
    (t.leafHere kind).shape = (s.leafHere kind).grown counts := by
  rw [State.leafHere, State.leafHere, Tree.grown_leaf, Tree.leaf, Tree.shape_node]
  rfl

theorem shape_wrap {kind : NodeKind} (hkind : isElement kind = false) (start stop start' stop' : ℕ)
    (hpieces : t.pieces.map Tree.shape = s.pieces.map (Tree.grown counts)) :
    (Tree.node kind start' stop' t.pieces.reverse).shape =
      (Tree.node kind start stop s.pieces.reverse).grown counts := by
  rw [Tree.shape_node, Tree.grown_node hkind, List.map_reverse, List.map_reverse, hpieces]

/-- Outside elements, a text and the text with blocks in it are read in step. -/
theorem lockstep_parallel (hw : IsBlocksFor text words counts) :
    Lockstep (unblocked words) unguarded (Parallel text words counts) where
  allows _ _ _ := rfl
  answer h _ question _ := h.answer_eq hw question
  position h h' := h.position_iff h'.toAbreast
  errors h := h.errors.length_eq
  pieces h := by
    have hlength := congrArg List.length h.pieces
    rw [List.length_map, List.length_map] at hlength
    rw [Bool.eq_iff_iff, List.isEmpty_iff_length_eq_zero, List.isEmpty_iff_length_eq_zero, hlength]
  advance h scan hguard := by
    obtain ⟨hscan, hclear⟩ := clear_of_unblocked hguard
    exact h.advance_of_clear hw hscan hclear h.pieces
  rescan h scan hguard := h.rescan hw scan (of_decide_eq_true hguard)
  report h := h.report
  leaf h kind := h.addPiece (shape_leafHere _ _ kind)
  emptyName h := h.addPiece (by rw [Tree.grown_leaf, Tree.leaf, Tree.shape_node]; rfl)
  wrap h kind hguard := by
    have hkind : isElement kind = false := by simpa [unblocked] using hguard
    refine ⟨⟨h.scanner, h.errors⟩, h.full, h.clear, ?_⟩
    rw [State.wrap, State.wrap, List.map_singleton, List.map_singleton,
      shape_wrap hkind _ _ _ _ h.pieces]
  dropPieces h := ⟨⟨h.scanner, h.errors⟩, h.full, h.clear, rfl⟩
  openScope h := ⟨⟨h.scanner, h.errors⟩, h.full, h.clear, rfl⟩
  closeScope h h' := by
    refine ⟨⟨h.scanner, h.errors⟩, h.full, h.clear, ?_⟩
    simp [State.closeScope, h.pieces, h'.pieces]

/-! ### Inside a tag -/

/-- Nothing is done that is done between tags only. -/
def Reader.OutsideTags : {α : Type} → Reader α → Prop
  | _, advance scan => scan ≠ .markup
  | _, leaf _ scan => scan ≠ .markup
  | _, wrap kind => isElement kind = false
  | _, call construct => construct ≠ .markup true
  | _, bind r f => r.OutsideTags ∧ ∀ a, (f a).OutsideTags
  | _, scope r => r.OutsideTags
  | _, moves r => r.OutsideTags
  | _, withoutError r => r.OutsideTags
  | _, lookAhead r => r.OutsideTags
  | _, attempt r => r.OutsideTags
  | _, within _ r => r.OutsideTags
  | _, nested beyond inner => beyond.OutsideTags ∧ inner.OutsideTags
  | _, loop step => step.OutsideTags
  | _, _ => True

theorem unblockedTags_scan {scan : Scan} (hscan : scan ≠ .markup) (s : Scanner) :
    unblockedTags words (.scan scan) s = unblocked words (.scan scan) s := by
  cases scan with
  | code | attributeValue => rfl
  | markup => exact absurd rfl hscan

/-- Outside tags the two guards refuse the same. -/
theorem Reader.OutsideTags.guarded_eq {r : Reader α} (h : r.OutsideTags) :
    r.guarded (unblockedTags words) rules = r.guarded (unblocked words) rules := by
  induction r with
  | advance scan | leaf kind scan =>
    funext context s
    simp only [Reader.guarded, unblockedTags_scan h]
  | wrap kind =>
    funext context s
    have hkind : isElement kind = false := h
    simp [Reader.guarded, unblockedTags, unblocked, hkind]
  | call construct =>
    funext context s
    have hconstruct : construct ≠ .markup true := h
    simp [Reader.guarded, unblockedTags, unblocked, hconstruct]
  | bind r f ihr ihf =>
    funext context s
    simp only [Reader.guarded, ihr h.1, fun a => ihf a (h.2 a)]
  | nested beyond inner ihb ihi =>
    funext context s
    simp only [Reader.guarded, ihb h.1, ihi h.2]
  | scope r ih | moves r ih | withoutError r ih | lookAhead r ih | attempt r ih | within _ r ih
  | loop r ih =>
    funext context s
    simp only [Reader.guarded, ih h]
  | _ => rfl

@[simp] theorem outsideTags_bind {α β : Type} (r : Reader α) (f : α → Reader β) :
    (r >>= f).OutsideTags ↔ r.OutsideTags ∧ ∀ a, (f a).OutsideTags :=
  Iff.rfl

@[simp] theorem outsideTags_pure (a : α) : (pure a : Reader α).OutsideTags :=
  trivial

@[simp] theorem outsideTags_ask (question : Question α) : (Reader.ask question).OutsideTags :=
  trivial

@[simp] theorem outsideTags_rescan (scan : Rescan) : (Reader.rescan scan).OutsideTags :=
  trivial

@[simp] theorem outsideTags_report (problem : SyntaxProblem) :
    (Reader.report problem).OutsideTags :=
  trivial

@[simp] theorem outsideTags_emptyName : Reader.emptyName.OutsideTags :=
  trivial

@[simp] theorem outsideTags_advance (scan : Scan) :
    (Reader.advance scan).OutsideTags ↔ scan ≠ .markup :=
  Iff.rfl

@[simp] theorem outsideTags_leaf (kind : NodeKind) (scan : Scan) :
    (Reader.leaf kind scan).OutsideTags ↔ scan ≠ .markup :=
  Iff.rfl

@[simp] theorem outsideTags_wrap (kind : NodeKind) :
    (Reader.wrap kind).OutsideTags ↔ isElement kind = false :=
  Iff.rfl

@[simp] theorem outsideTags_call (construct : Construct) :
    (Reader.call construct).OutsideTags ↔ construct ≠ .markup true :=
  Iff.rfl

@[simp] theorem outsideTags_scope (r : Reader α) : (Reader.scope r).OutsideTags ↔ r.OutsideTags :=
  Iff.rfl

@[simp] theorem outsideTags_within (change : Mode → Mode) (r : Reader α) :
    (Reader.within change r).OutsideTags ↔ r.OutsideTags :=
  Iff.rfl

@[simp] theorem outsideTags_loop (step : Reader (Option α)) :
    (Reader.loop step).OutsideTags ↔ step.OutsideTags :=
  Iff.rfl

@[simp] theorem outsideTags_ite {c : Prop} [Decidable c] (x y : Reader α) :
    (if c then x else y).OutsideTags ↔ if c then x.OutsideTags else y.OutsideTags := by
  split <;> rfl

end Grammar

end ExpectError
