import ExpectError.Proofs.Reading

/-!
# What readers do, as equations

The words of the readers' language and the small readers that are made of them, each with the state
behind it. With these equations the run of a production on known tokens is computed by rewriting.
-/

namespace ExpectError.Grammar

namespace Reader

variable {α β : Type} (rules : Rules) (context : Context) (s : State)

/-! ### The words -/

@[simp] theorem run_pure (a : α) : (Pure.pure a : Reader α).run rules context s = some (a, s) :=
  rfl

@[simp] theorem run_then (r : Reader α) (f : α → Reader β) :
    (r >>= f).run rules context s =
      (r.run rules context s).bind fun x => (f x.1).run rules context x.2 := by
  refine (run_bind rules r f context s).trans ?_
  cases r.run rules context s <;> rfl

@[simp] theorem run_ite {c : Prop} [Decidable c] (x y : Reader α) :
    (if c then x else y).run rules context s =
      if c then x.run rules context s else y.run rules context s := by
  split <;> rfl

@[simp] theorem run_and (q q' : Reader Bool) :
    (q <&&> q').run rules context s = (q.run rules context s).bind fun x =>
      if x.1 then q'.run rules context x.2 else some (false, x.2) := by
  refine (run_bind rules q _ context s).trans ?_
  cases q.run rules context s with
  | none => rfl
  | some x => obtain ⟨_ | _, t⟩ := x <;> rfl

@[simp] theorem run_or (q q' : Reader Bool) :
    (q <||> q').run rules context s = (q.run rules context s).bind fun x =>
      if x.1 then some (true, x.2) else q'.run rules context x.2 := by
  refine (run_bind rules q _ context s).trans ?_
  cases q.run rules context s with
  | none => rfl
  | some x => obtain ⟨_ | _, t⟩ := x <;> rfl

@[simp] theorem run_rescan (scan : Rescan) :
    (rescan scan).run rules context s = some ((), s.rescan scan) :=
  rfl

@[simp] theorem run_emptyName : emptyName.run rules context s =
    some ((), s.addPiece (.leaf (.token .identifier) s.position s.position)) :=
  rfl

@[simp] theorem run_moves (r : Reader Unit) : (moves r).run rules context s =
    (r.run rules context s).map fun x => (decide (x.2.position ≠ s.position), x.2) := by
  simp only [run]
  cases r.run rules context s <;> rfl

@[simp] theorem run_withoutError (r : Reader Unit) : (withoutError r).run rules context s =
    (r.run rules context s).map fun x => (decide (x.2.errors.length = s.errors.length), x.2) := by
  simp only [run]
  cases r.run rules context s <;> rfl

end Reader

variable {α : Type} (rules : Rules) (context : Context) (s : State)

/-! ### The token at hand -/

@[simp] theorem run_kind : kind.run rules context s = some (s.scanner.kind, s) :=
  rfl

@[simp] theorem run_isAt (k : TokenKind) :
    (isAt k).run rules context s = some (decide (s.scanner.kind = k), s) :=
  rfl

@[simp] theorem run_isAtAny (ks : List TokenKind) :
    (isAtAny ks).run rules context s = some (ks.contains s.scanner.kind, s) :=
  rfl

@[simp] theorem run_onNewLine :
    onNewLine.run rules context s = some (s.scanner.lineBreakBefore, s) :=
  rfl

@[simp] theorem run_onSameLine :
    onSameLine.run rules context s = some (!s.scanner.lineBreakBefore, s) :=
  rfl

@[simp] theorem run_atIdentifier :
    atIdentifier.run rules context s = some (s.scanner.kind.isIdentifierLike, s) :=
  rfl

@[simp] theorem run_atWord : atWord.run rules context s =
    some (s.scanner.kind = .identifier || s.scanner.kind.isKeywordToken, s) :=
  rfl

@[simp] theorem run_opposite (q : Reader Bool) : (opposite q).run rules context s =
    (q.run rules context s).map fun x => (!x.1, x.2) := by
  refine (Reader.run_bind rules q _ context s).trans ?_
  cases q.run rules context s <;> rfl

@[simp] theorem run_markupAllowed :
    markupAllowed.run rules context s = some (context.mode.markup, s) :=
  rfl

@[simp] theorem run_inForbidden :
    inForbidden.run rules context s = some (context.mode.withoutIn, s) :=
  rfl

/-! ### Consuming tokens -/

@[simp] theorem run_advance : advance.run rules context s = some ((), s.advance .code) :=
  rfl

@[simp] theorem run_report (problem : SyntaxProblem) :
    (report problem).run rules context s = some ((), s.report context.speculative problem) :=
  rfl

@[simp] theorem run_optionally (q : Reader Bool) (r : Reader Unit) :
    (optionally q r).run rules context s = (q.run rules context s).bind fun x =>
      if x.1 then r.run rules context x.2 else some ((), x.2) := by
  simp [optionally]

@[simp] theorem run_accept? (k : TokenKind) : (accept? k).run rules context s =
    if s.scanner.kind = k then some (true, s.advance .code) else some (false, s) := by
  simp [accept?]

@[simp] theorem run_expect (k : TokenKind) : (expect k).run rules context s =
    if s.scanner.kind = k then some ((), s.advance .code)
    else some ((), s.report context.speculative (.expected k)) := by
  simp [expect]

@[simp] theorem run_lookAhead (r : Reader α) : (lookAhead r).run rules context s =
    (r.run rules { context with speculative := true } s).map fun x => (x.1, s) := by
  simp only [lookAhead, Reader.run]
  cases r.run rules { context with speculative := true } s <;> rfl

@[simp] theorem run_attempt (r : Reader Bool) : (attempt r).run rules context s =
    (r.run rules { context with speculative := true } s).map fun x =>
      if x.1 && decide (x.2.errors.length = s.errors.length) then (true, x.2) else (false, s) := by
  simp only [attempt, Reader.run]
  cases r.run rules { context with speculative := true } s with
  | none => rfl
  | some x =>
    dsimp only [Option.map_some]
    split <;> rfl

/-! ### Building nodes -/

@[simp] theorem State.scanner_openScope (s : State) : s.openScope.scanner = s.scanner :=
  rfl

@[simp] theorem run_scope (r : Reader α) : (scope r).run rules context s =
    (r.run rules context s.openScope).map fun x => (x.1, x.2.closeScope s) := by
  simp only [scope, Reader.run]
  cases r.run rules context s.openScope <;> rfl

@[simp] theorem run_wrap (k : NodeKind) : (wrap k).run rules context s = some ((), s.wrap k) :=
  rfl

@[simp] theorem run_node (k : NodeKind) (r : Reader Unit) : (node k r).run rules context s =
    (r.run rules context s.openScope).map fun x => ((), (x.2.wrap k).closeScope s) := by
  simp only [node, run_scope, Reader.run_then, run_wrap]
  cases r.run rules context s.openScope <;> rfl

@[simp] theorem run_tokenNodeAs (k : NodeKind) : (tokenNodeAs k).run rules context s =
    some ((), (s.addPiece (s.leafHere k)).advance .code) :=
  rfl

@[simp] theorem run_tokenNode : tokenNode.run rules context s =
    some ((), (s.addPiece (s.leafHere (.token s.scanner.kind))).advance .code) :=
  rfl

@[simp] theorem run_missing (problem : SyntaxProblem) : (missing problem).run rules context s =
    some ((), (s.report context.speculative problem).addPiece
      (.leaf (.token .identifier) s.position s.position)) := by
  have hposition : (s.report context.speculative problem).position = s.position := by
    unfold State.report
    split <;> rfl
  simp [missing, hposition]

@[simp] theorem run_identifier : identifier.run rules context s =
    if s.scanner.kind.isIdentifierLike then
      some ((), (s.addPiece (s.leafHere (.token .identifier))).advance .code)
    else some ((), (s.report context.speculative .identifierExpected).addPiece
      (.leaf (.token .identifier) s.position s.position)) := by
  simp [identifier]

/-! ### Nesting and repetition -/

theorem run_call (n : ℕ) (construct : Construct) :
    (call construct).run (rulesWithin (n + 1)) context s =
      (produce construct).run (rulesWithin n) context s :=
  rfl

theorem run_nested (beyond inner : Reader Unit) : (nested beyond inner).run rules context s =
    if maxDepth ≤ context.depth then
      beyond.run rules context (s.report context.speculative .nestingTooDeep)
    else inner.run rules { context with depth := context.depth + 1 } s :=
  rfl

@[simp] theorem run_allowIn (r : Reader Unit) : (allowIn r).run rules context s =
    r.run rules { context with mode := { context.mode with withoutIn := false } } s :=
  rfl

theorem run_loop_of_some {step : Reader (Option α)} {a : α} {t : State}
    (h : step.run rules context s = some (some a, t)) :
    (Reader.loop step).run rules context s = some (a, t) := by
  simp only [Reader.run, iterate, h]

/-- Repeats a step as long as it says yes, but no more than `k` times. -/
def repeatRun (rules : Rules) (step : Reader Bool) : ℕ → Action Unit
  | 0 => fun _ _ => none
  | k + 1 => fun context s => (step.run rules context s).bind fun x =>
    if x.1 then repeatRun rules step k context x.2 else some ((), x.2)

theorem repeatRun_succ (step : Reader Bool) (k : ℕ) : repeatRun rules step (k + 1) context s =
    (step.run rules context s).bind fun x =>
      if x.1 then repeatRun rules step k context x.2 else some ((), x.2) :=
  rfl

theorem run_repeatWhile (step : Reader Bool) : (repeatWhile step).run rules context s =
    repeatRun rules step (context.size + 2) context s := by
  have hiterate (k : ℕ) (s : State) :
      iterate ((do if ← step then return none else return some () :
        Reader (Option Unit)).run rules) k context s = repeatRun rules step k context s := by
    induction k generalizing s with
    | zero => rfl
    | succ k ih =>
      rw [iterate, repeatRun_succ]
      simp only [Reader.run_then, Reader.run_ite, Reader.run_pure]
      cases step.run rules context s with
      | none => rfl
      | some x =>
        obtain ⟨_ | _, t⟩ := x
        · rfl
        · exact ih t
  exact hiterate (context.size + 2) s

/-- An item that gets to another token is kept. -/
theorem run_keptItem_of_moved {item : Reader Unit} {t : State}
    (hrun : item.run rules context s.openScope = some ((), t)) (hmoved : t.position ≠ s.position) :
    (keptItem item).run rules context s = some (true, t.closeScope s) := by
  have hmoved' : t.position ≠ s.openScope.position := hmoved
  simp [keptItem, hrun, hmoved']

/-- One item up to the end of the text. -/
theorem run_itemsUntil_of_one {item : Reader Unit} {t : State} (problem : SyntaxProblem)
    (hkind : s.scanner.kind ≠ .endOfFile)
    (hrun : item.run rules context s.openScope = some ((), t)) (hmoved : t.position ≠ s.position)
    (hend : t.scanner.kind = .endOfFile) :
    (itemsUntil [.endOfFile] problem item).run rules context s = some ((), t.closeScope s) := by
  have hkept := run_keptItem_of_moved rules context s hrun hmoved
  have hend' : (t.closeScope s).scanner.kind = .endOfFile := hend
  simp [itemsUntil, run_repeatWhile, repeatRun_succ, hkind, hkept, hend']

end ExpectError.Grammar
