import ExpectError.Proofs.ChildProgress
import ExpectError.Proofs.ParserSteps
import ExpectError.Proofs.TokenPlaces
import ExpectError.Proofs.TypeArguments

/-!
# Too many fragments, one in the other

A text of nothing but opening tags, each of which is a child of the one before it. With every tag the
reading gets one level deeper. At the greatest depth of nesting, if there is another tag, the
repetition of children stays in front of it for ever, and so nothing around it comes to an end either.

* `openedFragments`: the text;
* `State.AtFragment.run_children`: the repetition of children has no end;
* `not_reads_openedFragments`: the text is never read.
-/

namespace ExpectError.Grammar

open Cursor Text

variable {context : Context} {s : State} {n k : ℕ}

/-- The opening tags of fragments, each of them in the one before it. -/
def openedFragments : ℕ → List Char
  | 0 => []
  | k + 1 => '<' :: '>' :: openedFragments k

/-- A fragment is opened here, and `k` more in it. -/
def State.AtFragment (k : ℕ) (s : State) : Prop :=
  s.scanner.kind = .lessThan ∧ ∃ pos, s.scanner.stop = { pos, rest := '>' :: openedFragments k }

/-! ### Tags and children -/

theorem State.AtFragment.advance (h : s.AtFragment k) :
    (s.advance .code).scanner.kind = .greaterThan ∧
      ∃ pos, (s.advance .code).scanner.stop = { pos, rest := openedFragments k } := by
  obtain ⟨-, pos, hstop⟩ := h
  have hfront : IsFront ('>' :: openedFragments k) :=
    ⟨'>', _, rfl, by decide, by decide, by decide, by simp⟩
  have hat := Scanner.at_behind hfront pos 0
  have hkind := Lexeme.kind_read_greaterThan (pos + 0) (openedFragments k)
  obtain ⟨rest, hrest, hnext⟩ := Lexeme.isSign_read _ hkind
  have hscanner : (s.advance .code).scanner = Scanner.behind s.scanner.stop := rfl
  rw [hscanner, hstop]
  exact ⟨hat.kind_eq.trans hkind, _, hat.stop_eq.trans (by rw [hnext, (List.cons.inj hrest).2])⟩

/-- Behind the tag of a fragment, the next one is at hand. -/
theorem State.AtFragment.run_openingTag (h : s.AtFragment (k + 1)) (rules : Rules)
    (context : Context) (amongChildren : Bool) :
    ∃ t, (openingTag amongChildren).run rules context s = some (.fragment, t) ∧
      t.AtFragment k := by
  let u : State := s.openScope.advance .code
  obtain ⟨hkind, pos, hstop⟩ : u.scanner.kind = .greaterThan ∧
      ∃ pos, u.scanner.stop = { pos, rest := openedFragments (k + 1) } :=
    State.AtFragment.advance h
  have hnext : u.scanner.nextMarkup.kind = .lessThan ∧ u.scanner.nextMarkup.stop =
      { pos := pos + '<'.utf8Size, rest := '>' :: openedFragments k } := by
    rw [Scanner.nextMarkup, hstop]
    exact ⟨rfl, rfl⟩
  refine ⟨((u.advance .markup).wrap .jsxOpeningFragment).closeScope s, ?_, hnext.1, _, hnext.2⟩
  simp [openingTag, openingFragmentRest, tagEnd, u, hkind]
  rfl

/-- A fragment has no end if its children have none. -/
theorem State.AtFragment.run_element (h : s.AtFragment (k + 1)) (hdepth : context.depth < maxDepth)
    (hchildren : ∀ n t, State.AtFragment k t → (repeatWhile markupChild).run (rulesWithin n)
      { context with depth := context.depth + 1 } t = none) (amongChildren : Bool) :
    (call (.markup amongChildren)).run (rulesWithin n) context s = none := by
  cases n with
  | zero => rfl
  | succ n =>
    obtain ⟨t, hopening, ht⟩ := State.AtFragment.run_openingTag (s := s.openScope) h (rulesWithin n)
      { context with depth := context.depth + 1 } amongChildren
    rw [run_call, produce, run_nested, if_neg (by omega), elementOrFragment, run_scope,
      Reader.run_then, hopening]
    simp [fragmentRest, hchildren n t ht]

/-- Where as many fragments are opened as are still allowed, and one more, the repetition of children
has no end. -/
theorem State.AtFragment.run_children (h : s.AtFragment k)
    (hdeep : maxDepth ≤ context.depth + k) :
    (repeatWhile markupChild).run (rulesWithin n) context s = none := by
  rw [run_repeatWhile]
  -- on the fragments in this one: each of them is one level deeper
  induction k generalizing context s n with
  | zero => exact repeatRun_markupChild_tooDeep hdeep h.1 _
  | succ k ih =>
    by_cases hdepth : context.depth < maxDepth
    · have hchildren (n : ℕ) (t : State) (ht : t.AtFragment k) :
          (repeatWhile markupChild).run (rulesWithin n)
            { context with depth := context.depth + 1 } t = none := by
        rw [run_repeatWhile]
        exact ih ht (by simpa [Nat.add_assoc, Nat.add_comm 1] using hdeep)
      have helement := h.run_element (n := n) hdepth hchildren true
      rw [repeatRun_succ]
      simp [markupChild, h.1, helement]
    · exact repeatRun_markupChild_tooDeep (Nat.not_lt.1 hdepth) h.1 _

/-! ### What is around the outermost fragment -/

theorem State.AtFragment.run_leftHandSide (h : s.AtFragment (k + 1))
    (hmarkup : context.mode.markup = true) (hdepth : context.depth < maxDepth)
    (hdeep : maxDepth ≤ context.depth + 1 + k) :
    (call .leftHandSide).run (rulesWithin n) context s = none := by
  cases n with
  | zero => rfl
  | succ n =>
    have hkind : s.scanner.kind = .lessThan := h.1
    have helement : (call (.markup false)).run (rulesWithin n) context s.openScope = none :=
      State.AtFragment.run_element (s := s.openScope) h hdepth
        (fun n t ht => ht.run_children hdeep) false
    rw [run_call]
    simp [produce, leftHandSide, accessedExpression, primaryExpression, literalTokens, hkind,
      hmarkup, helement]

theorem State.AtFragment.run_unary (h : s.AtFragment (k + 1))
    (hmarkup : context.mode.markup = true) (hdepth : context.depth + 1 < maxDepth)
    (hdeep : maxDepth ≤ context.depth + 2 + k) :
    (call .unary).run (rulesWithin n) context s = none := by
  cases n with
  | zero => rfl
  | succ n =>
    have hkind : s.scanner.kind = .lessThan := h.1
    have hleft : (call .leftHandSide).run (rulesWithin n)
        { context with depth := context.depth + 1 } s.openScope = none :=
      State.AtFragment.run_leftHandSide (s := s.openScope) h hmarkup hdepth (by omega)
    rw [run_call, produce, run_nested, if_neg (by omega)]
    simp only [unaryExpression, assertedOrPostfix, Reader.run_then, run_kind, Option.bind_some, hkind]
    simp [hkind, hmarkup, postfixExpression, hleft]

/-- The tag of a fragment does not open the type parameters of a function. -/
theorem State.AtFragment.run_arrowFront (h : s.AtFragment k) (rules : Rules) (context : Context)
    (hmarkup : context.mode.markup = true) :
    arrowFront.run rules context s = some (false, s) := by
  have hlike : TokenKind.greaterThan.isIdentifierLike = false := by decide
  simp only [arrowFront, Reader.run_then, run_kind, Option.bind_some, h.1]
  simp [hmarkup, opensGenericArrow, h.advance.1, hlike]

theorem State.AtFragment.run_assignment (h : s.AtFragment (k + 1))
    (hmarkup : context.mode.markup = true) (hdepth : context.depth + 2 < maxDepth)
    (hdeep : maxDepth ≤ context.depth + 3 + k) :
    (call .assignment).run (rulesWithin n) context s = none := by
  let inner : Context := { context with depth := context.depth + 1 }
  cases n with
  | zero => rfl
  | succ n =>
    have hbinary : (call (.binary 0)).run (rulesWithin n) inner s.openScope = none := by
      cases n with
      | zero => rfl
      | succ n =>
        have hunary : (call .unary).run (rulesWithin n) inner s.openScope.openScope = none :=
          State.AtFragment.run_unary (s := s.openScope.openScope) h hmarkup hdepth
            (show maxDepth ≤ context.depth + 1 + 2 + k by omega)
        rw [run_call]
        simp [produce, binaryExpression, hunary]
    have hfront : arrowFront.run (rulesWithin n) inner s.openScope = some (false, s.openScope) :=
      State.AtFragment.run_arrowFront (s := s.openScope) h (rulesWithin n) inner hmarkup
    rw [run_call, produce, run_nested, if_neg (by omega)]
    simp [assignmentExpression, h.1, inner, hfront, plainAssignment, hbinary]

theorem State.AtFragment.run_statement (h : s.AtFragment (k + 1))
    (hmarkup : context.mode.markup = true) (hdepth : context.depth + 3 < maxDepth)
    (hdeep : maxDepth ≤ context.depth + 4 + k) :
    (call .statement).run (rulesWithin n) context s = none := by
  cases n with
  | zero => rfl
  | succ n =>
    have hkind : s.scanner.kind = .lessThan := h.1
    have hlike : TokenKind.lessThan.isIdentifierLike = false := by decide
    have hassignment : (call .assignment).run (rulesWithin n)
        { context with
          depth := context.depth + 1, mode := { context.mode with withoutIn := false } }
        s.openScope.openScope = none :=
      State.AtFragment.run_assignment (s := s.openScope.openScope) h hmarkup hdepth (by omega)
    have hstep (context : Context) :
        declarationStep.run (rulesWithin n) context s = some (some false, s) := by
      simp only [declarationStep, Reader.run_then, run_kind, Option.bind_some, hkind,
        Reader.run_pure]
    rw [run_call, produce, run_nested, if_neg (by omega)]
    simp only [anyStatement, Reader.run_then, run_kind, Option.bind_some, hkind]
    simp [plainStatement, atDeclaration, run_loop_of_some _ _ _ (hstep _), hkind, hlike,
      expressionStatement, wholeExpression, expression, hassignment]

/-! ### The whole text -/

theorem atFragment_first (k : ℕ) : State.AtFragment k
    (State.advance .code { scanner := Scanner.ofText (openedFragments (k + 1)) }) := by
  have hfront : IsFront (openedFragments (k + 1)) :=
    ⟨'<', _, rfl, by decide, by decide, by decide, by simp⟩
  have hat := Scanner.at_behind hfront 0 0
  have hread : (Lexeme.read { pos := 0, rest := '<' :: '>' :: openedFragments k }).kind =
      .lessThan ∧ (Lexeme.read { pos := 0, rest := '<' :: '>' :: openedFragments k }).next =
        { pos := 1, rest := '>' :: openedFragments k } := by
    have halpha : isAlphabetic '<' = false := by decide
    have hsize : '<'.utf8Size = 1 := rfl
    simp [Lexeme.read, Lexeme.readMark, Lexeme.marks, Lexeme.beginsWithMark, isIdentifierStart,
      halpha, skip, hsize]
  exact ⟨hat.kind_eq.trans hread.1, _, hat.stop_eq.trans hread.2⟩

/-- In the markup dialect, a text in which too many fragments are opened one in the other is never
read, however many rounds and levels there are. -/
theorem not_reads_openedFragments (hk : maxDepth ≤ k + 2) (parsed : Parsed) :
    ¬ Parser.Reads .markup (openedFragments k) parsed := by
  obtain ⟨k, rfl⟩ := Nat.exists_eq_add_of_le' (show 2 ≤ k by simp only [maxDepth] at hk; omega)
  rintro ⟨rounds, levels, hparse⟩
  obtain ⟨frame, p, arena, hperform, -⟩ := parseWithin_eq_some.1 hparse
  have halike := alike_wholeText rounds levels .markup (openedFragments (k + 2))
  let first : State := { scanner := Scanner.ofText (openedFragments (k + 2)) }
  have hfirst : (first.advance .code).AtFragment (k + 1) := atFragment_first (k + 1)
  have hstatement : (call .statement).run (rulesWithin levels) (.whole rounds .markup)
      (first.advance .code).openScope = none :=
    State.AtFragment.run_statement (s := (first.advance .code).openScope) hfirst rfl
      (show 0 + 3 < maxDepth by decide) (show maxDepth ≤ 0 + 4 + k by omega)
  have hnone : wholeText.run (rulesWithin levels) (.whole rounds .markup) first = none := by
    simp [wholeText, itemsUntil, run_repeatWhile, repeatRun_succ, hfirst.1, keptItem, hstatement]
  rw [hperform, hnone] at halike
  cases halike

/-- The fewest fragments that are too many: a statement, an expression and an operand are around the
outermost one. -/
theorem not_reads_openedFragments_fewest :
    ¬ ∃ parsed, Parser.Reads .markup (openedFragments 254) parsed := by
  rintro ⟨parsed, hreads⟩
  exact not_reads_openedFragments (by decide) parsed hreads

end ExpectError.Grammar
