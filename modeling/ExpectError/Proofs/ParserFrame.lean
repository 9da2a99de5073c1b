import ExpectError.Grammar.Parser
import Mathlib.Tactic

/-!
# What readers leave of the parser

Whatever a reader does, nodes, tokens and errors are only added to those that were there, and the
mode and the depths are in the end what they were. So a snapshot, which remembers neither, is enough
to take back all that a reader has done.

* `Parser.Extends`: what one reader, or any number of them, can have done to a parser;
* `extends_perform`: every reader does no more;
* `perform_frame`: a parser is exactly restored by looking ahead and by trying in vain, trying with
  success notes no error, and every reader leaves the mode and the depths as they were.
-/

namespace ExpectError.Grammar

variable {α β : Type} {rules : Construct → Procedure Unit} {rounds : ℕ} {frame g h : Frame}
  {p q u : Parser}

/-! ### The parts of a run -/

theorem perform_bind_eq_some {r : Reader α} {f : α → Reader β} {b : β} :
    (r >>= f).perform rules rounds frame p = some (b, g, q) ↔
      ∃ a h u, r.perform rules rounds frame p = some (a, h, u) ∧
        (f a).perform rules rounds h u = some (b, g, q) := by
  change (Reader.bind r f).perform rules rounds frame p = _ ↔ _
  rw [Reader.perform_bind]
  cases r.perform rules rounds frame p with
  | none => simp
  | some result => obtain ⟨a, h, u⟩ := result; simp

theorem perform_scope_eq_some {r : Reader α} {a : α} :
    (Reader.scope r).perform rules rounds frame p = some (a, g, q) ↔
      ∃ h, r.perform rules rounds { start := p.position } p = some (a, h, q) ∧
        g = { frame with pieces := frame.pieces ++ h.pieces } := by
  simp only [Reader.perform]
  cases r.perform rules rounds { start := p.position } p with
  | none => simp
  | some result => obtain ⟨b, h, u⟩ := result; aesop

theorem perform_moves_eq_some {r : Reader Unit} {b : Bool} :
    (Reader.moves r).perform rules rounds frame p = some (b, g, q) ↔
      r.perform rules rounds frame p = some ((), g, q) ∧ b = decide (q.position ≠ p.position) := by
  simp only [Reader.perform]
  cases r.perform rules rounds frame p with
  | none => simp
  | some result => aesop

theorem perform_withoutError_eq_some {r : Reader Unit} {b : Bool} :
    (Reader.withoutError r).perform rules rounds frame p = some (b, g, q) ↔
      r.perform rules rounds frame p = some ((), g, q) ∧
        b = decide (q.errors.length = p.errors.length) := by
  simp only [Reader.perform]
  cases r.perform rules rounds frame p with
  | none => simp
  | some result => aesop

theorem perform_lookAhead_eq_some {r : Reader α} {a : α} :
    (Reader.lookAhead r).perform rules rounds frame p = some (a, g, q) ↔
      ∃ h u, r.perform rules rounds frame p.enterSpeculation = some (a, h, u) ∧ g = frame ∧
        q = u.exitSpeculation.restore p.save := by
  simp only [Reader.perform]
  cases r.perform rules rounds frame p.enterSpeculation with
  | none => simp
  | some result => obtain ⟨b, h, u⟩ := result; aesop

/-- What was tried is kept only if it says yes and noted no error. -/
theorem perform_attempt_eq_some {r : Reader Bool} {b : Bool}
    (hrun : (Reader.attempt r).perform rules rounds frame p = some (b, g, q)) :
    ∃ yes h u, r.perform rules rounds frame p.enterSpeculation = some (yes, h, u) ∧
      (b = true ∧ yes = true ∧ u.errors.length = p.errors.length ∧ g = h ∧ q = u.exitSpeculation ∨
        b = false ∧ ¬ (yes = true ∧ u.errors.length = p.errors.length) ∧ g = frame ∧
          q = u.exitSpeculation.restore p.save) := by
  simp only [Reader.perform] at hrun
  split at hrun
  next => cases hrun
  next yes h u hinner =>
    refine ⟨yes, h, u, hinner, ?_⟩
    split_ifs at hrun with hkeep
    · cases hrun
      have hkeep : yes = true ∧ u.errors.length = p.save.errors := by simpa using hkeep
      exact Or.inl ⟨rfl, hkeep.1, hkeep.2, rfl, rfl⟩
    · cases hrun
      have hdrop : ¬ (yes = true ∧ u.errors.length = p.save.errors) := by simpa using hkeep
      exact Or.inr ⟨rfl, hdrop, rfl, rfl⟩

theorem perform_within_eq_some {r : Reader α} {change : Mode → Mode} {a : α} :
    (Reader.within change r).perform rules rounds frame p = some (a, g, q) ↔
      ∃ u, r.perform rules rounds frame { p with mode := change p.mode } = some (a, g, u) ∧
        q = { u with mode := p.mode } := by
  simp only [Reader.perform]
  cases r.perform rules rounds frame { p with mode := change p.mode } with
  | none => simp
  | some result => obtain ⟨b, h, u⟩ := result; aesop

theorem perform_nested_eq_some {beyond inner : Reader Unit} {a : Unit}
    (hrun : (Reader.nested beyond inner).perform rules rounds frame p = some (a, g, q)) :
    maxDepth ≤ p.recursionDepth ∧
        beyond.perform rules rounds frame (p.report .nestingTooDeep) = some ((), g, q) ∨
      ¬ maxDepth ≤ p.recursionDepth ∧ ∃ u,
        inner.perform rules rounds frame p.enterRecursion = some ((), g, u) ∧
          q = u.exitRecursion := by
  simp only [Reader.perform] at hrun
  split_ifs at hrun with hdepth
  · exact Or.inl ⟨hdepth, hrun⟩
  · split at hrun
    next => cases hrun
    next h u hinner => cases hrun; exact Or.inr ⟨hdepth, u, hinner, rfl⟩

/-! ### Only more is added -/

/-- Nodes, tokens and errors have only been added to a parser, and the mode and the depths are the
same. -/
structure Parser.Extends (p q : Parser) : Prop where
  arena : p.arena <+: q.arena
  tokens : p.tokens <+: q.tokens
  errors : p.errors <+: q.errors
  mode : q.mode = p.mode
  recursionDepth : q.recursionDepth = p.recursionDepth
  speculationDepth : q.speculationDepth = p.speculationDepth

/-- The procedure only adds to the parser. -/
def OnlyExtends (f : Procedure α) : Prop :=
  ∀ ⦃frame p a g q⦄, f frame p = some (a, g, q) → p.Extends q

namespace Parser

@[refl] theorem Extends.refl (p : Parser) : p.Extends p :=
  ⟨List.prefix_rfl, List.prefix_rfl, List.prefix_rfl, rfl, rfl, rfl⟩

theorem Extends.trans (hpq : p.Extends q) (hqu : q.Extends u) : p.Extends u :=
  ⟨hpq.arena.trans hqu.arena, hpq.tokens.trans hqu.tokens, hpq.errors.trans hqu.errors,
    hqu.mode.trans hpq.mode, hqu.recursionDepth.trans hpq.recursionDepth,
    hqu.speculationDepth.trans hpq.speculationDepth⟩

theorem extends_advance (scan : Scan) (p : Parser) : p.Extends (p.advance scan) := by
  simp only [advance, scanBy, recordToken]
  split
  · exact ⟨List.prefix_rfl, List.prefix_append _ _, List.prefix_rfl, rfl, rfl, rfl⟩
  · exact ⟨List.prefix_rfl, List.prefix_rfl, List.prefix_rfl, rfl, rfl, rfl⟩

theorem extends_rescan (scan : Rescan) (p : Parser) : p.Extends (p.rescan scan) :=
  ⟨List.prefix_rfl, List.prefix_rfl, List.prefix_rfl, rfl, rfl, rfl⟩

theorem extends_report (problem : SyntaxProblem) (p : Parser) : p.Extends (p.report problem) := by
  simp only [report]
  split
  · exact .refl p
  · exact ⟨List.prefix_rfl, List.prefix_rfl, List.prefix_append _ _, rfl, rfl, rfl⟩

theorem extends_addNode (kind : NodeKind) (start stop : ℕ) (children : List ℕ) (p : Parser) :
    p.Extends (p.addNode kind start stop children).2 :=
  ⟨List.prefix_append _ _, List.prefix_rfl, List.prefix_rfl, rfl, rfl, rfl⟩

/-- Going back to a snapshot restores the parser itself, as long as only more has been added to it and
the mode and the depths are the same. -/
theorem Extends.restore_save (h : p.Extends q) : q.restore p.save = p := by
  obtain ⟨harena, htokens, herrors, hmode, hrecursion, hspeculation⟩ := h
  simp only [restore, save, List.prefix_iff_eq_take.1 harena |>.symm,
    List.prefix_iff_eq_take.1 htokens |>.symm, List.prefix_iff_eq_take.1 herrors |>.symm, hmode,
    hrecursion, hspeculation]

/-- Behind a reader that may take back what it does, as many such readers are at work as before. -/
theorem Extends.exitSpeculation (h : p.enterSpeculation.Extends q) :
    p.Extends q.exitSpeculation where
  arena := h.arena
  tokens := h.tokens
  errors := h.errors
  mode := h.mode
  recursionDepth := h.recursionDepth
  speculationDepth := by
    show q.speculationDepth - 1 = p.speculationDepth
    rw [h.speculationDepth]
    exact Nat.add_sub_cancel _ 1

theorem Extends.exitRecursion (h : p.enterRecursion.Extends q) : p.Extends q.exitRecursion where
  arena := h.arena
  tokens := h.tokens
  errors := h.errors
  mode := h.mode
  recursionDepth := by
    show q.recursionDepth - 1 = p.recursionDepth
    rw [h.recursionDepth]
    exact Nat.add_sub_cancel _ 1
  speculationDepth := h.speculationDepth

end Parser

theorem extends_repeatStep {step : Procedure (Option α)} (h : OnlyExtends step) (n : ℕ) :
    OnlyExtends (repeatStep step n) := by
  induction n with
  | zero => intro frame p a g q hrun; cases hrun
  | succ n ih =>
    intro frame p a g q hrun
    simp only [repeatStep] at hrun
    split at hrun
    next => cases hrun
    next hstep => cases hrun; exact h hstep
    next hstep => exact (h hstep).trans (ih hrun)

/-- Every reader only adds to the parser. -/
theorem extends_perform (hrules : ∀ construct, OnlyExtends (rules construct)) (r : Reader α) :
    OnlyExtends (r.perform rules rounds) := by
  induction r with
  | pure | ask | mode | hasPieces | dropPieces =>
    intro frame p a g q hrun
    cases hrun
    rfl
  | bind r f ihr ihf =>
    intro frame p b g q hrun
    obtain ⟨a, h, u, hr, hf⟩ := perform_bind_eq_some.1 hrun
    exact (ihr hr).trans (ihf a hf)
  | advance scan => intro frame p a g q hrun; cases hrun; exact Parser.extends_advance scan p
  | rescan scan => intro frame p a g q hrun; cases hrun; exact Parser.extends_rescan scan p
  | report problem => intro frame p a g q hrun; cases hrun; exact Parser.extends_report problem p
  | leaf kind scan =>
    intro frame p a g q hrun
    cases hrun
    exact (Parser.extends_addNode _ _ _ _ p).trans (Parser.extends_advance scan _)
  | emptyName | wrap => intro frame p a g q hrun; cases hrun; exact Parser.extends_addNode _ _ _ _ p
  | scope r ih =>
    intro frame p a g q hrun
    obtain ⟨h, hinner, rfl⟩ := perform_scope_eq_some.1 hrun
    exact ih hinner
  | moves r ih => exact fun frame p a g q hrun => ih (perform_moves_eq_some.1 hrun).1
  | withoutError r ih => exact fun frame p a g q hrun => ih (perform_withoutError_eq_some.1 hrun).1
  | lookAhead r ih =>
    intro frame p a g q hrun
    obtain ⟨h, u, hinner, -, rfl⟩ := perform_lookAhead_eq_some.1 hrun
    rw [(ih hinner).exitSpeculation.restore_save]
  | attempt r ih =>
    intro frame p b g q hrun
    obtain ⟨yes, h, u, hinner, ⟨-, -, -, -, rfl⟩ | ⟨-, -, -, rfl⟩⟩ := perform_attempt_eq_some hrun
    · exact (ih hinner).exitSpeculation
    · rw [(ih hinner).exitSpeculation.restore_save]
  | within change r ih =>
    intro frame p a g q hrun
    obtain ⟨u, hinner, rfl⟩ := perform_within_eq_some.1 hrun
    have hextends := ih hinner
    exact ⟨hextends.arena, hextends.tokens, hextends.errors, rfl, hextends.recursionDepth,
      hextends.speculationDepth⟩
  | nested beyond inner ihb ihi =>
    intro frame p a g q hrun
    rcases perform_nested_eq_some hrun with ⟨-, hbeyond⟩ | ⟨-, u, hinner, rfl⟩
    · exact (Parser.extends_report .nestingTooDeep p).trans (ihb hbeyond)
    · exact (ihi hinner).exitRecursion
  | loop step ih => exact extends_repeatStep ih _
  | call construct => exact hrules construct

theorem extends_performWithin (rounds levels : ℕ) (construct : Construct) :
    OnlyExtends (performWithin rounds levels construct) := by
  induction levels generalizing construct with
  | zero => intro frame p a g q hrun; cases hrun
  | succ levels ih => exact extends_perform ih (produce construct)

/-- From every state of the parser, looking ahead and trying in vain restore it in all its fields,
and trying with success notes no error. Whatever is read, the mode and the depths are in the end what
they were. -/
theorem perform_frame (rounds levels : ℕ) (frame : Frame) (p : Parser) :
    (∀ {α : Type} (r : Reader α) (a : α) (g : Frame) (q : Parser),
        (Grammar.lookAhead r).perform (performWithin rounds levels) rounds frame p =
          some (a, g, q) → q = p ∧ g = frame) ∧
      (∀ (r : Reader Bool) (g : Frame) (q : Parser),
        (Grammar.attempt r).perform (performWithin rounds levels) rounds frame p =
          some (false, g, q) → q = p ∧ g = frame) ∧
      (∀ (r : Reader Bool) (g : Frame) (q : Parser),
        (Grammar.attempt r).perform (performWithin rounds levels) rounds frame p =
          some (true, g, q) → q.errors = p.errors) ∧
      (∀ (construct : Construct) (g : Frame) (q : Parser),
        performWithin rounds levels construct frame p = some ((), g, q) →
          q.mode = p.mode ∧ q.recursionDepth = p.recursionDepth ∧
            q.speculationDepth = p.speculationDepth) ∧
      ∀ {α : Type} (r : Reader α) (a : α) (g : Frame) (q : Parser),
        r.perform (performWithin rounds levels) rounds frame p = some (a, g, q) →
          q.mode = p.mode ∧ q.recursionDepth = p.recursionDepth ∧
            q.speculationDepth = p.speculationDepth := by
  have hrules := extends_performWithin rounds levels
  refine ⟨fun r a g q hrun => ?_, fun r g q hrun => ?_, fun r g q hrun => ?_,
    fun construct g q hrun => ?_, fun r a g q hrun => ?_⟩
  · obtain ⟨h, u, hinner, rfl, rfl⟩ := perform_lookAhead_eq_some.1 hrun
    exact ⟨(extends_perform hrules r hinner).exitSpeculation.restore_save, rfl⟩
  · obtain ⟨yes, h, u, hinner, ⟨hno, -⟩ | ⟨-, -, rfl, rfl⟩⟩ := perform_attempt_eq_some hrun
    · cases hno
    · exact ⟨(extends_perform hrules r hinner).exitSpeculation.restore_save, rfl⟩
  · obtain ⟨yes, h, u, hinner, ⟨-, -, hlength, -, rfl⟩ | ⟨hno, -⟩⟩ := perform_attempt_eq_some hrun
    · exact ((extends_perform hrules r hinner).errors.eq_of_length hlength.symm).symm
    · cases hno
  · have hextends := hrules construct hrun
    exact ⟨hextends.mode, hextends.recursionDepth, hextends.speculationDepth⟩
  · have hextends := extends_perform hrules r hrun
    exact ⟨hextends.mode, hextends.recursionDepth, hextends.speculationDepth⟩

/-- An attempt that misses a semicolon behind a word. -/
theorem perform_frame_semicolon :
    (Grammar.attempt (do Grammar.advance; expect? .semicolon)).perform (performWithin 3 8) 3 {}
        ((Parser.ofText .standard "a b".toList).advance .code) =
      some (false, {}, (Parser.ofText .standard "a b".toList).advance .code) := by
  have hno : ((Grammar.attempt (do Grammar.advance; expect? .semicolon)).perform
      (performWithin 3 8) 3 {} ((Parser.ofText .standard "a b".toList).advance .code)).map
        (fun result => result.1) = some false := by
    decide +kernel
  obtain ⟨⟨_, g, q⟩, hrun, rfl⟩ := Option.map_eq_some_iff.1 hno
  obtain ⟨-, hattempt, -⟩ :=
    perform_frame 3 8 {} ((Parser.ofText .standard "a b".toList).advance .code)
  obtain ⟨rfl, rfl⟩ := hattempt _ g q hrun
  exact hrun

end ExpectError.Grammar
