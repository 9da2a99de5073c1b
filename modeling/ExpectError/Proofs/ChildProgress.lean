import ExpectError.Proofs.ChildBlocks
import ExpectError.Proofs.Equations
import ExpectError.Proofs.HaltingProductions

/-!
# The children between two tags

Children are read one after another, until a closing tag or something that is no child is at hand. A
child that is text or an expression takes the token at hand. An element does so too, but not beyond
the greatest depth of nesting: there an empty name is put in its place and its `<` is left at hand. So
the repetition gets nearer to the end of the text with every child but these, and with one of these it
goes on for ever.

* `Reader.Takes`: a reader takes the token at hand, if it comes to an end;
* `markupChild_lessThan_tooDeep`: what is done with an element beyond the greatest depth;
* `moved_markupChild_iff`: the children that take the token at hand;
* `repeatWhile_markupChild`: the repetition of children.
-/

namespace ExpectError.Grammar

open Text (byteLength)
open State

variable {α β : Type} {text : List Char} {context : Context} {s t : State} {n : ℕ}

/-! ### Readers that take the token at hand -/

/-- Where the reader comes to an end and there was a token at hand, this has been consumed. -/
def Reader.Takes (r : Reader α) : Prop :=
  ∀ ⦃text n context s a t⦄, s.Stands text → s.Within text →
    r.run (rulesWithin n) context s = some (a, t) → s.Moved t

namespace Reader

theorem takes_advance (scan : Scan) : (Reader.advance scan).Takes := by
  intro text n context s a t hs hwithin hrun
  cases hrun
  exact hs.moved_advance hwithin scan

theorem takes_leaf (kind : NodeKind) (scan : Scan) : (Reader.leaf kind scan).Takes := by
  intro text n context s a t hs hwithin hrun
  cases hrun
  exact hs.moved_advance hwithin scan

theorem Takes.first {r : Reader α} (h : r.Takes) (f : α → Reader β) : (r >>= f).Takes := by
  intro text n context s b u hs hwithin hrun
  obtain ⟨a, t, hfirst, hsecond⟩ := run_bind_eq_some.1 hrun
  exact (h hs hwithin hfirst).of_onward ((hs.onward_run hfirst).stands.onward_run hsecond)

theorem Takes.scope {r : Reader α} (h : r.Takes) : (Reader.scope r).Takes := by
  intro text n context s a t hs hwithin hrun
  obtain ⟨u, hinner, rfl⟩ := run_scope_eq_some.1 hrun
  have hmoved : s.openScope.Moved u := h ⟨hs.sound, hs.full⟩ hwithin hinner
  exact hmoved

end Reader

open Reader (takes_advance takes_leaf)

/-! ### One child -/

theorem takes_childExpression : childExpression.Takes :=
  ((takes_advance .code).first _).first _ |>.scope

theorem takes_elementOrFragment (amongChildren : Bool) : (elementOrFragment amongChildren).Takes :=
  (((takes_advance .code).first _).scope.first _).scope

/-- Beyond the greatest depth an element is not read: there is a problem, and an empty name in its
place. -/
theorem markupChild_lessThan_tooDeep (hdepth : maxDepth ≤ context.depth)
    (hless : s.scanner.kind = .lessThan) :
    markupChild.run (rulesWithin (n + 1)) context s =
      some (true, ((s.report context.speculative .nestingTooDeep).report context.speculative
        .expressionExpected).addPiece (.leaf (.token .identifier) s.position s.position)) := by
  have hposition : (s.report context.speculative .nestingTooDeep).position = s.position :=
    congrArg (·.start.pos) (scanner_report context.speculative .nestingTooDeep s).1
  simp only [markupChild, Reader.run_then, run_kind, Option.bind_some, hless, run_call, produce,
    run_nested, if_pos hdepth, run_missing, Reader.run_pure, hposition]

theorem scanner_of_markupChild_tooDeep (hdepth : maxDepth ≤ context.depth)
    (hless : s.scanner.kind = .lessThan) {more : Bool}
    (hrun : markupChild.run (rulesWithin n) context s = some (more, t)) :
    more = true ∧ t.scanner = s.scanner := by
  cases n with
  | zero =>
    have hnone : markupChild.run (rulesWithin 0) context s = none := by
      simp only [markupChild, Reader.run_then, run_kind, Option.bind_some, hless]
      rfl
    cases hnone.symm.trans hrun
  | succ n =>
    rw [markupChild_lessThan_tooDeep hdepth hless] at hrun
    cases hrun
    exact ⟨rfl, (scanner_report _ _ _).1.trans (scanner_report _ _ _).1⟩

theorem moved_element (hdepth : context.depth < maxDepth) (hs : s.Stands text)
    (hless : s.scanner.kind = .lessThan) {amongChildren : Bool}
    (hrun : (call (.markup amongChildren)).run (rulesWithin n) context s = some ((), t)) :
    s.Moved t := by
  cases n with
  | zero => cases hrun
  | succ n =>
    rw [run_call, produce, run_nested, if_neg (by omega)] at hrun
    exact takes_elementOrFragment amongChildren hs (hs.within_of_kind hless (by simp)) hrun

/-- Behind a child, the token at hand has been consumed, unless it is the `<` of an element beyond the
greatest depth. -/
theorem moved_markupChild_iff (hs : s.Stands text)
    (hrun : markupChild.run (rulesWithin n) context s = some (true, t)) :
    s.Moved t ↔ context.depth < maxDepth ∨ s.scanner.kind ≠ .lessThan := by
  constructor
  · intro hmoved
    by_contra! htooDeep
    obtain ⟨-, hscanner⟩ := scanner_of_markupChild_tooDeep htooDeep.1 htooDeep.2 hrun
    have hposition : t.position = s.position := congrArg (·.start.pos) hscanner
    unfold Moved at hmoved
    omega
  · intro hchild
    unfold markupChild at hrun
    obtain ⟨k, u, hask, hrest⟩ := run_bind_eq_some.1 hrun
    obtain ⟨rfl, rfl⟩ : k = s.scanner.kind ∧ u = s := by cases hask; exact ⟨rfl, rfl⟩
    split at hrest
    next hkind => exact (takes_leaf _ _).first _ hs (hs.within_of_kind hkind (by simp)) hrest
    next hkind => exact takes_childExpression.first _ hs (hs.within_of_kind hkind (by simp)) hrest
    next hkind =>
      obtain ⟨_, v, helement, hlast⟩ := run_bind_eq_some.1 hrest
      cases hlast
      exact moved_element (hchild.resolve_right (· hkind)) hs hkind helement
    next => cases hrest
    next => cases hrest

/-! ### The repetition of children -/

/-- Up to the greatest depth, if the repetition of children has no end, then one of the children that
it gets to has none. -/
theorem repeatRun_markupChild (hs : s.Stands text) (hdepth : context.depth < maxDepth) {k : ℕ}
    (hk : s.left text < k) :
    (∃ t, repeatRun (rulesWithin n) markupChild k context s = some ((), t)) ∨
      ∃ t, ReadsChildren (rulesWithin n) context s t ∧
        markupChild.run (rulesWithin n) context t = none := by
  induction k generalizing s with
  | zero => omega
  | succ k ih =>
    rw [repeatRun_succ]
    cases hrun : markupChild.run (rulesWithin n) context s with
    | none => exact Or.inr ⟨s, .refl, hrun⟩
    | some x =>
      obtain ⟨more, t⟩ := x
      cases more with
      | false => exact Or.inl ⟨t, rfl⟩
      | true =>
        have hst := hs.onward_run hrun
        have hleft := hst.left_lt ((moved_markupChild_iff hs hrun).2 (Or.inl hdepth))
        exact (ih hst.stands (by omega)).imp_right fun ⟨u, htu, hu⟩ => ⟨u, .head hrun htu, hu⟩

/-- Beyond the greatest depth the repetition does not get past a `<`. -/
theorem repeatRun_markupChild_tooDeep (hdepth : maxDepth ≤ context.depth)
    (hless : s.scanner.kind = .lessThan) (k : ℕ) :
    repeatRun (rulesWithin n) markupChild k context s = none := by
  induction k generalizing s with
  | zero => rfl
  | succ k ih =>
    rw [repeatRun_succ]
    cases hrun : markupChild.run (rulesWithin n) context s with
    | none => rfl
    | some x =>
      obtain ⟨more, t⟩ := x
      obtain ⟨rfl, hscanner⟩ := scanner_of_markupChild_tooDeep hdepth hless hrun
      exact ih (hscanner ▸ hless)

/-- A child takes the token at hand, unless it is the `<` of an element beyond the greatest depth of
nesting. So up to that depth the repetition of children comes to an end, if each of the children does
to which it gets, in no more steps than there are bytes left. Beyond that depth it has no end in front
of a `<`, however many steps it may take. -/
theorem repeatWhile_markupChild (hs : s.Stands text) :
    (∀ t, markupChild.run (rulesWithin n) context s = some (true, t) →
      (s.position < t.position ↔ context.depth < maxDepth ∨ s.scanner.kind ≠ .lessThan)) ∧
    (context.depth < maxDepth → byteLength text ≤ context.size →
      (∀ t, ReadsChildren (rulesWithin n) context s t →
        markupChild.run (rulesWithin n) context t ≠ none) →
      ∃ t, (repeatWhile markupChild).run (rulesWithin n) context s = some ((), t)) ∧
    (maxDepth ≤ context.depth → s.scanner.kind = .lessThan → ∀ size,
      (repeatWhile markupChild).run (rulesWithin n) { context with size } s = none) := by
  refine ⟨fun t hrun => moved_markupChild_iff hs hrun, fun hdepth hsize hends => ?_,
    fun hdepth hless size => ?_⟩
  · have hleft := left_le text s
    rw [run_repeatWhile]
    rcases repeatRun_markupChild (n := n) hs hdepth (k := context.size + 2) (by omega) with
      hrun | ⟨t, hst, hnone⟩
    · exact hrun
    · exact absurd hnone (hends t hst)
  · rw [run_repeatWhile]
    exact repeatRun_markupChild_tooDeep (by exact hdepth) hless _

/-- An element and a closing tag: at the last depth the element is read and the repetition ends at the
closing tag; one level deeper it stays at the element. -/
theorem repeatWhile_markupChild_nested :
    let s := State.advance .code { scanner := Scanner.ofText "<b/></a>".toList }
    let context : Context := { size := 8, mode := { markup := true }, depth := 255 }
    (∃ t, markupChild.run (rulesWithin 4) context s = some (true, t) ∧ s.position < t.position) ∧
      (∃ t, (repeatWhile markupChild).run (rulesWithin 4) context s = some ((), t)) ∧
      ∀ size, (repeatWhile markupChild).run (rulesWithin 4) { context with depth := 256, size } s =
        none := by
  intro s context
  have hs : s.Stands "<b/></a>".toList := stands_first _
  have heval : (markupChild.run (rulesWithin 4) context s).map
      (fun x => (x.1, x.2.scanner.kind)) = some (true, .lessThanSlash) := by
    decide +kernel
  obtain ⟨⟨more, t⟩, hrun, hchild⟩ := Option.map_eq_some_iff.1 heval
  obtain ⟨rfl, hkind⟩ : more = true ∧ t.scanner.kind = .lessThanSlash := Prod.mk.inj hchild
  have hlast : markupChild.run (rulesWithin 4) context t = some (false, t) := by
    simp [markupChild, hkind]
  obtain ⟨hmoves, hends, -⟩ := @repeatWhile_markupChild _ context _ 4 hs
  obtain ⟨-, -, hstays⟩ := @repeatWhile_markupChild _ { context with depth := 256 } _ 4 hs
  refine ⟨⟨t, hrun, (hmoves t hrun).2 (Or.inl (by decide))⟩, hends (by decide) (by decide) ?_,
    hstays (by decide) (by decide +kernel)⟩
  -- the element is the only child
  intro u hreads
  rcases hreads.cases_head with rfl | ⟨v, hv, hreads⟩
  · simp [hrun]
  · obtain rfl : t = v := by simpa using hrun.symm.trans hv
    rcases hreads.cases_head with rfl | ⟨v, hv, -⟩
    · simp [hlast]
    · simp [hlast] at hv

end ExpectError.Grammar
