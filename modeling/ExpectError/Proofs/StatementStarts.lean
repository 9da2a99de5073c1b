import ExpectError.Proofs.Promises
import ExpectError.Grammar.Recursion

/-!
# Tokens that begin no statement

A statement that begins with no keyword of its own and with no declaration is an expression, and what
an expression begins with is decided by the token at hand, level by level. A closing brace and text
between tags are none of the tokens that are asked for on the way down, so in the end an expression is
missing, and this is noted.

* `beginsNothing`: the two kinds of tokens;
* `Answers`, `Refuses`: what questions answer there, and what readers note;
* `beginsNothing_of_statement`: no statement begins there.
-/

namespace ExpectError.Grammar

variable {α β : Type} {r : Reader α} {f : α → Reader β} {q q' : Reader Bool} {x y : Reader α}

/-- The tokens with which no statement begins: a closing brace, and text between tags. -/
@[reducible] def beginsNothing : TokenKind → Bool
  | .closeBrace | .jsxText => true
  | _ => false

/-- The constructs of which one is what the other begins with, down to the operand of an
expression. -/
@[reducible] def Construct.leadsExpression : Construct → Bool
  | .statement | .assignment | .binary _ | .unary | .leftHandSide => true
  | _ => false

/-- Rules for which an error is noted wherever an expression would begin with such a token. -/
structure Rules.Refusing (rules : Rules) : Prop where
  grows : ∀ construct, Grows (rules construct)
  refuses : ∀ ⦃construct context s t⦄, construct.leadsExpression = true →
    beginsNothing s.scanner.kind = true → rules construct context s = some ((), t) → t.errors ≠ []

/-- At such a token a reader gives a certain answer and changes nothing. -/
def Answers (a : α) (r : Reader α) : Prop :=
  ∀ ⦃rules context s⦄, beginsNothing s.scanner.kind = true → r.run rules context s = some (a, s)

/-- Every run that begins at such a token notes an error. -/
def Refuses (r : Reader α) : Prop :=
  ∀ ⦃rules⦄, Rules.Refusing rules → ∀ ⦃context s a t⦄, beginsNothing s.scanner.kind = true →
    r.run rules context s = some (a, t) → t.errors ≠ []

/-! ### Questions -/

theorem answers_pure (a : α) : Answers a (pure a) :=
  fun _ _ _ _ => rfl

theorem answers_branch {a : α} (hq : Answers false q) (hy : Answers a y) :
    Answers a (q >>= fun b => if b = true then x else y) :=
  fun _ _ s hs => run_bind_eq_some.2 ⟨false, s, hq hs, hy hs⟩

theorem answers_kind {f : TokenKind → Reader α} {a : α} (hbrace : Answers a (f .closeBrace))
    (htext : Answers a (f .jsxText)) : Answers a (kind >>= f) := by
  intro rules context s hs
  have hf : Answers a (f s.scanner.kind) := by
    generalize s.scanner.kind = k at hs
    cases k <;> first | assumption | cases hs
  exact run_bind_eq_some.2 ⟨_, s, rfl, hf hs⟩

theorem denies_of_kind {p : TokenKind → Bool} (hbrace : p .closeBrace = false)
    (htext : p .jsxText = false) : Answers false (do return p (← kind)) :=
  answers_kind (hbrace ▸ answers_pure _) (htext ▸ answers_pure _)

theorem denies_and (hq : Answers false q) : Answers false (q <&&> q') := by
  rw [and_eq]
  exact answers_branch hq (answers_pure false)

theorem denies_isAt {k : TokenKind} (h : beginsNothing k = false) : Answers false (isAt k) := by
  refine denies_of_kind (p := fun k' => decide (k' = k)) ?_ ?_ <;>
  · rw [decide_eq_false_iff_not]
    rintro rfl
    cases h

theorem denies_isAtAny {ks : List TokenKind} (hbrace : ks.contains .closeBrace = false)
    (htext : ks.contains .jsxText = false) : Answers false (isAtAny ks) :=
  denies_of_kind (p := ks.contains) hbrace htext

theorem denies_atIdentifier : Answers false atIdentifier :=
  denies_of_kind (p := TokenKind.isIdentifierLike) (by decide) (by decide)

/-! ### Readers -/

theorem refuses_bind (hr : Refuses r) : Refuses (r >>= f) := by
  intro rules hrules context s b u hs hrun hu
  obtain ⟨a, t, hfirst, hsecond⟩ := run_bind_eq_some.1 hrun
  exact hr hrules hs hfirst (errors_eq_nil_of_suffix (grows_run hrules.grows (f a) hsecond) hu)

theorem refuses_branch (hq : Answers false q) (hy : Refuses y) :
    Refuses (q >>= fun b => if b = true then x else y) := by
  intro rules hrules context s a u hs hrun
  obtain ⟨b, t, hb, hrest⟩ := run_bind_eq_some.1 hrun
  obtain ⟨rfl, rfl⟩ := Prod.mk.inj (Option.some.inj ((hq hs).symm.trans hb))
  exact hy hrules hs hrest

theorem refuses_kind {f : TokenKind → Reader α} (hbrace : Refuses (f .closeBrace))
    (htext : Refuses (f .jsxText)) : Refuses (kind >>= f) := by
  intro rules hrules context s a u hs hrun
  obtain ⟨k, t, hk, hrest⟩ := run_bind_eq_some.1 hrun
  cases hk
  have hf : Refuses (f s.scanner.kind) := by
    generalize s.scanner.kind = k at hs
    cases k <;> first | assumption | cases hs
  exact hf hrules hs hrest

theorem refuses_scope (h : Refuses r) : Refuses (scope r) := by
  intro rules hrules context s a u hs hrun
  obtain ⟨t, hinner, rfl⟩ := run_scope_eq_some.1 hrun
  have ht : t.errors ≠ [] := h hrules (s := s.openScope) hs hinner
  exact ht

theorem refuses_within {change : Mode → Mode} (h : Refuses r) : Refuses (.within change r) :=
  fun _ hrules _ _ _ _ hs hrun => h hrules hs hrun

theorem refuses_nested {beyond inner : Reader Unit} (h : Refuses inner) :
    Refuses (nested beyond inner) := by
  intro rules hrules context s a u hs hrun hu
  obtain ⟨_, hinner⟩ := exists_run_of_run_nested hrules.grows hrun hu
  exact h hrules hs hinner hu

theorem refuses_call {construct : Construct} (h : construct.leadsExpression = true) :
    Refuses (call construct) :=
  fun _ hrules _ _ _ _ hs hrun => hrules.refuses h hs hrun

theorem refuses_missing (problem : SyntaxProblem) : Refuses (missing problem) := by
  refine refuses_bind fun rules hrules context s a t _ hrun => ?_
  cases hrun
  exact State.errors_report_ne_nil _ _ _

/-! ### From a statement down to the operand of an expression -/

theorem refuses_primaryExpression : Refuses primaryExpression := by
  have hintroduced : Refuses introducedExpression := by
    have hlast : Refuses (do if ← atIdentifier then identifier else missing .expressionExpected) :=
      refuses_branch denies_atIdentifier (refuses_missing _)
    exact refuses_kind hlast hlast
  exact refuses_branch (denies_isAtAny (by decide) (by decide)) <|
    refuses_branch (denies_and (denies_isAt rfl)) <|
      refuses_branch (denies_and (denies_isAt rfl)) hintroduced

theorem refuses_leftHandSide : Refuses leftHandSide :=
  refuses_scope <| refuses_bind <|
    refuses_branch (denies_isAtAny (by decide) (by decide)) refuses_primaryExpression

theorem refuses_unaryExpression : Refuses unaryExpression := by
  have hpostfix : Refuses assertedOrPostfix :=
    refuses_branch (denies_and (denies_isAt rfl)) (refuses_scope (refuses_bind (refuses_call rfl)))
  exact refuses_kind hpostfix hpostfix

theorem refuses_binaryExpression (outer : ℕ) : Refuses (binaryExpression outer) :=
  refuses_scope (refuses_bind (refuses_call rfl))

theorem denies_arrowFront : Answers false arrowFront := by
  have hlast : Answers false (do
      if ← atIdentifier <&&> lookAhead (do advance; atArrow) then
        plainParameter
        advance
        return true
      else return false) := answers_branch (denies_and denies_atIdentifier) (answers_pure false)
  exact answers_kind hlast hlast

theorem refuses_assignmentExpression : Refuses assignmentExpression := by
  have hplain : Refuses plainAssignment := refuses_bind (refuses_call rfl)
  exact refuses_branch (denies_isAt rfl) (refuses_scope (refuses_branch denies_arrowFront hplain))

/-- No declaration begins there: the first step of the decision says so. -/
theorem denies_atDeclaration : Answers false atDeclaration := by
  intro rules context s hs
  have hstep : Answers (some false) declarationStep :=
    answers_kind (answers_pure _) (answers_pure _)
  refine run_lookAhead_eq_some.2 ⟨rfl, s, ?_⟩
  show iterate (declarationStep.run rules) (context.size + 2) _ s = some (false, s)
  simp only [iterate, hstep hs]

theorem refuses_anyStatement : Refuses anyStatement := by
  have hexpression : Refuses expressionStatement :=
    refuses_scope <| refuses_bind <| refuses_bind <| refuses_within <| refuses_scope <|
      refuses_bind <| refuses_call rfl
  have hplain : Refuses plainStatement :=
    refuses_branch denies_atDeclaration <|
      refuses_branch (denies_and denies_atIdentifier) hexpression
  exact refuses_kind hplain hplain

/-! ### All together -/

theorem refuses_produce {construct : Construct} (h : construct.leadsExpression = true) :
    Refuses (produce construct) := by
  cases construct with
  | statement => exact refuses_nested refuses_anyStatement
  | assignment => exact refuses_nested refuses_assignmentExpression
  | binary outer => exact refuses_binaryExpression outer
  | unary => exact refuses_nested refuses_unaryExpression
  | leftHandSide => exact refuses_leftHandSide
  | _ => cases h

theorem refusing_rulesWithin (n : ℕ) : (rulesWithin n).Refusing := by
  induction n with
  | zero => exact ⟨grows_rulesWithin 0, fun _ _ _ _ _ _ hrun => by cases hrun⟩
  | succ n ih =>
    exact ⟨grows_rulesWithin (n + 1), fun _ _ _ _ h hs hrun => refuses_produce h ih hs hrun⟩

/-- No statement that is read without errors begins with a closing brace, or with text between
tags. -/
theorem beginsNothing_of_statement {n : ℕ} {context : Context} {s t : State}
    (hrun : rulesWithin n .statement context s = some ((), t)) (ht : t.errors = []) :
    beginsNothing s.scanner.kind = false := by
  cases h : beginsNothing s.scanner.kind with
  | false => rfl
  | true => exact absurd ht ((refusing_rulesWithin n).refuses rfl h hrun)

end ExpectError.Grammar
