import ExpectError.Proofs.HaltingProductions
import ExpectError.Proofs.ParsedArena

/-!
# Syntax errors in the order of the text

A problem is noted at the token at hand, and no reader moves back to an earlier token unless it takes
back everything that it did. Of several problems with one token the first is kept; only the last
error has to be looked at for that, since no error starts behind the token at hand. While something
is being tried, problems are not compared with each other, but what is tried is kept only if there
were none.

* `State.InOrder`: the errors noted so far are in the order of the text;
* `keepsOrder_run`: every reader keeps them in order;
* `Reader.Notes`: a run notes an error, and not in looking ahead or in trying;
* `Parser.Reads.errors_inOrder`: the errors of a text.
-/

namespace ExpectError.Grammar

open Text (byteLength)

variable {α : Type} {context : Context} {s t : State} {text : List Char} {n : ℕ} {e : SyntaxError}

/-! ### The order of the errors -/

/-- Of the errors noted so far, the last one first, each starts behind the ones noted before it. None
starts behind the token at hand, and each lies within the text. -/
structure State.InOrder (text : List Char) (s : State) : Prop where
  stands : s.Stands text
  ordered : s.errors.Pairwise fun later earlier => earlier.start < later.start
  start_le : ∀ e ∈ s.errors, e.start ≤ s.position
  stop_le : ∀ e ∈ s.errors, e.start + e.length ≤ byteLength text

namespace State

/-- Further on in the text, with the same errors. -/
theorem InOrder.of_onward (h : s.InOrder text) (hst : s.Onward text t)
    (herrors : t.errors = s.errors) : t.InOrder text where
  stands := hst.stands
  ordered := herrors ▸ h.ordered
  start_le e he := (h.start_le e (herrors ▸ he)).trans hst.position_le
  stop_le e he := h.stop_le e (herrors ▸ he)

theorem InOrder.advance (h : s.InOrder text) (scan : Scan) : (s.advance scan).InOrder text :=
  h.of_onward (h.stands.onward_advance scan) (by simp [State.advance])

theorem InOrder.withPieces (h : s.InOrder text) (start : ℕ) (pieces : List Tree) :
    InOrder text { s with start, pieces } :=
  h.of_onward ⟨⟨h.stands.sound, h.stands.full⟩, le_rfl⟩ rfl

/-- If the last error was noted at an earlier token, then all were. -/
theorem InOrder.start_lt (h : s.InOrder text) (hlast : s.errorNotedHere = false) :
    ∀ e ∈ s.errors, e.start < s.position := by
  cases herrors : s.errors with
  | nil => simp
  | cons last errors =>
    have hordered := h.ordered
    have hle := h.start_le last (herrors ▸ List.mem_cons_self)
    rw [herrors] at hordered
    simp only [errorNotedHere, herrors, decide_eq_false_iff_not] at hlast
    have hlt : last.start < s.position := lt_of_le_of_ne hle hlast
    exact List.forall_mem_cons.2
      ⟨hlt, fun e he => (List.rel_of_pairwise_cons hordered he).trans hlt⟩

theorem InOrder.report (h : s.InOrder text) (problem : SyntaxProblem) :
    (s.report false problem).InOrder text := by
  simp only [State.report, Bool.not_false, Bool.true_and]
  split
  case isTrue => exact h
  case isFalse hlast =>
    have hbefore := h.start_lt (by simpa using hlast)
    have hstop := h.stands.sound.ahead.pos_le
    have hend := h.stands.sound.reached_stop.isBoundary.le
    refine ⟨⟨h.stands.sound, h.stands.full⟩, List.pairwise_cons.2 ⟨hbefore, h.ordered⟩,
      List.forall_mem_cons.2 ⟨le_rfl, h.start_le⟩, List.forall_mem_cons.2 ⟨?_, h.stop_le⟩⟩
    show s.scanner.start.pos + (s.scanner.stop.pos - s.scanner.start.pos) ≤ byteLength text
    omega

end State

/-- What is kept of a trial has noted no error. -/
theorem errors_attempt {rules : Rules} {r : Reader Bool} (hr : Grows (r.run rules)) {b : Bool}
    (h : (Reader.attempt r).run rules context s = some (b, t)) : t.errors = s.errors := by
  rcases run_attempt_eq_some h with ⟨-, rfl⟩ | ⟨-, hrun, hlength⟩
  · rfl
  · exact ((hr hrun).eq_of_length hlength.symm).symm

/-- The errors stay in order where nothing that is read may be taken back. -/
def KeepsOrder (text : List Char) (f : Action α) : Prop :=
  ∀ ⦃context s a t⦄, context.speculative = false → s.InOrder text → f context s = some (a, t) →
    t.InOrder text

theorem keepsOrder_run (hrules : ∀ construct, KeepsOrder text (rulesWithin n construct))
    (r : Reader α) : KeepsOrder text (r.run (rulesWithin n)) := by
  induction r with
  | pure | ask | mode | hasPieces => intro context s a t _ hs hrun; cases hrun; exact hs
  | bind r f ihr ihf =>
    intro context s b u hplain hs hrun
    obtain ⟨a, t, hfirst, hsecond⟩ := run_bind_eq_some.1 hrun
    exact ihf a hplain (ihr hplain hs hfirst) hsecond
  | advance scan => intro context s a t _ hs hrun; cases hrun; exact hs.advance scan
  | rescan scan =>
    intro context s a t _ hs hrun
    cases hrun
    exact hs.of_onward (hs.stands.onward_rescan scan) rfl
  | report problem =>
    intro context s a t hplain hs hrun
    cases hrun
    rw [hplain]
    exact hs.report problem
  | leaf kind scan =>
    intro context s a t _ hs hrun
    cases hrun
    exact (hs.withPieces s.start _).advance scan
  | emptyName | wrap | dropPieces =>
    intro context s a t _ hs hrun
    cases hrun
    exact hs.withPieces s.start _
  | scope r ih =>
    intro context s a t hplain hs hrun
    obtain ⟨u, hinner, rfl⟩ := run_scope_eq_some.1 hrun
    exact (ih hplain (hs.withPieces _ _) hinner).withPieces _ _
  | moves r ih => exact fun context s b t hplain hs hrun => ih hplain hs (run_moves_eq_some.1 hrun).1
  | withoutError r ih =>
    exact fun context s b t hplain hs hrun => ih hplain hs (run_withoutError_eq_some.1 hrun).1
  | lookAhead r _ =>
    intro context s a t _ hs hrun
    obtain ⟨rfl, -⟩ := run_lookAhead_eq_some.1 hrun
    exact hs
  | attempt r _ =>
    intro context s b t _ hs hrun
    -- inside, several errors may be noted at one token, but then nothing is kept
    have herrors := errors_attempt (grows_run (grows_rulesWithin n) r) hrun
    exact hs.of_onward (hs.stands.onward_run hrun) herrors
  | within change r ih =>
    intro context s a t hplain hs hrun
    rw [Reader.run] at hrun
    exact ih (by exact hplain) hs hrun
  | nested beyond inner ihb ihi =>
    intro context s a t hplain hs hrun
    simp only [Reader.run] at hrun
    split at hrun
    · rw [hplain] at hrun
      exact ihb hplain (hs.report .nestingTooDeep) hrun
    · exact ihi (by exact hplain) hs hrun
  | loop step ih =>
    intro context s a t hplain hs hrun
    exact iterate_induction (p := State.InOrder text)
      (fun _ _ _ hs hstep => ih hplain hs hstep) _ hs hrun
  | call construct => exact hrules construct

theorem keepsOrder_rulesWithin (text : List Char) (n : ℕ) (construct : Construct) :
    KeepsOrder text (rulesWithin n construct) := by
  induction n generalizing construct with
  | zero => intro context s a t _ _ hrun; cases hrun
  | succ n ih => exact keepsOrder_run ih (produce construct)

/-! ### Where errors are noted -/

/-- In a run, a problem with the token then at hand is noted as an error, and not in looking ahead or
in trying. The constructs that are read hold one another at most `n` deep. -/
inductive Reader.Notes (e : SyntaxError) :
    {α : Type} → (n : ℕ) → Reader α → Context → State → Prop
  | report {n context s problem} (h : e = s.errorHere problem) :
      Notes e n (.report problem) context s
  | first {α β : Type} {n context s} {r : Reader α} {f : α → Reader β} (h : r.Notes e n context s) :
      Notes e n (.bind r f) context s
  | next {α β : Type} {n context s t} {r : Reader α} {f : α → Reader β} {a : α}
      (hrun : r.run (rulesWithin n) context s = some (a, t)) (h : (f a).Notes e n context t) :
      Notes e n (.bind r f) context s
  | scope {α : Type} {n context s} {r : Reader α} (h : r.Notes e n context s.openScope) :
      Notes e n (.scope r) context s
  | moves {n context s r} (h : r.Notes e n context s) : Notes e n (.moves r) context s
  | withoutError {n context s r} (h : r.Notes e n context s) :
      Notes e n (.withoutError r) context s
  | within {α : Type} {n context s change} {r : Reader α}
      (h : r.Notes e n { context with mode := change context.mode } s) :
      Notes e n (.within change r) context s
  | tooDeep {n context s beyond inner} (hdepth : maxDepth ≤ context.depth)
      (h : e = s.errorHere .nestingTooDeep) : Notes e n (.nested beyond inner) context s
  | beyond {n context s beyond inner} (hdepth : maxDepth ≤ context.depth)
      (h : beyond.Notes e n context (s.report context.speculative .nestingTooDeep)) :
      Notes e n (.nested beyond inner) context s
  | inner {n context s beyond inner} (hdepth : ¬ maxDepth ≤ context.depth)
      (h : inner.Notes e n { context with depth := context.depth + 1 } s) :
      Notes e n (.nested beyond inner) context s
  | step {α : Type} {n context s} {step : Reader (Option α)} (h : step.Notes e n context s) :
      Notes e n (.loop step) context s
  | again {α : Type} {n context s t} {step : Reader (Option α)}
      (hrun : step.run (rulesWithin n) context s = some (none, t))
      (h : (Reader.loop step).Notes e n context t) : Notes e n (.loop step) context s
  | call {n context s construct} (h : (produce construct).Notes e n context s) :
      Notes e (n + 1) (.call construct) context s

open Reader (Notes)

theorem State.mem_errors_report {speculative : Bool} {problem : SyntaxProblem}
    (he : e ∈ (s.report speculative problem).errors) : e ∈ s.errors ∨ e = s.errorHere problem := by
  unfold State.report at he
  split at he
  · exact Or.inl he
  · exact (List.mem_cons.1 he).symm

theorem notes_iterate {step : Reader (Option α)} {k : ℕ} {a : α}
    (hstep : ∀ ⦃s b t⦄, step.run (rulesWithin n) context s = some (b, t) → e ∈ t.errors →
      e ∈ s.errors ∨ step.Notes e n context s)
    (hrun : iterate (step.run (rulesWithin n)) k context s = some (a, t)) (he : e ∈ t.errors) :
    e ∈ s.errors ∨ (Reader.loop step).Notes e n context s := by
  induction k generalizing s with
  | zero => cases hrun
  | succ k ih =>
    simp only [iterate] at hrun
    split at hrun
    next => cases hrun
    next hlast =>
      cases hrun
      exact (hstep hlast he).imp_right .step
    next hfirst =>
      rcases ih hrun with hmem | hnotes
      · exact (hstep hfirst hmem).imp_right .step
      · exact Or.inr (.again hfirst hnotes)

/-- An error that there is behind a run was there before or has been noted in the run, and not in
looking ahead or in trying. -/
theorem notes_run (hcall : ∀ ⦃construct context s t⦄,
      rulesWithin n construct context s = some ((), t) → e ∈ t.errors →
      e ∈ s.errors ∨ (Reader.call construct).Notes e n context s)
    (r : Reader α) {a : α} (hrun : r.run (rulesWithin n) context s = some (a, t))
    (he : e ∈ t.errors) : e ∈ s.errors ∨ r.Notes e n context s := by
  induction r generalizing context s t with
  | pure | ask | mode | hasPieces | rescan | emptyName | wrap | dropPieces =>
    cases hrun
    exact Or.inl he
  | bind r f ihr ihf =>
    obtain ⟨b, u, hfirst, hsecond⟩ := run_bind_eq_some.1 hrun
    rcases ihf b hsecond he with hmem | hnotes
    · exact (ihr hfirst hmem).imp_right .first
    · exact Or.inr (.next hfirst hnotes)
  | advance | leaf =>
    cases hrun
    simp only [State.advance, State.errors_consume] at he
    exact Or.inl he
  | report problem =>
    cases hrun
    exact (State.mem_errors_report he).imp_right .report
  | scope r ih =>
    obtain ⟨u, hinner, rfl⟩ := run_scope_eq_some.1 hrun
    exact (ih hinner he).imp_right .scope
  | moves r ih => exact (ih (run_moves_eq_some.1 hrun).1 he).imp_right .moves
  | withoutError r ih => exact (ih (run_withoutError_eq_some.1 hrun).1 he).imp_right .withoutError
  | lookAhead r _ =>
    obtain ⟨rfl, -⟩ := run_lookAhead_eq_some.1 hrun
    exact Or.inl he
  | attempt r _ =>
    have herrors := errors_attempt (grows_run (grows_rulesWithin n) r) hrun
    exact Or.inl (herrors ▸ he)
  | within change r ih => exact (ih hrun he).imp_right .within
  | nested beyond inner ihb ihi =>
    simp only [Reader.run] at hrun
    split at hrun
    case isTrue hdepth =>
      rcases ihb hrun he with hmem | hnotes
      · exact (State.mem_errors_report hmem).imp_right (.tooDeep hdepth)
      · exact Or.inr (.beyond hdepth hnotes)
    case isFalse hdepth => exact (ihi hrun he).imp_right (.inner hdepth)
  | loop step ih => exact notes_iterate (fun _ _ _ hstep hmem => ih hstep hmem) hrun he
  | call construct => exact hcall hrun he

theorem notes_rulesWithin {construct : Construct} (hrun : rulesWithin n construct context s =
    some ((), t)) (he : e ∈ t.errors) : e ∈ s.errors ∨ (Reader.call construct).Notes e n context s := by
  induction n generalizing construct context s t with
  | zero => cases hrun
  | succ n ih =>
    exact (notes_run (fun _ _ _ _ hcall hmem => ih hcall hmem) (produce construct) hrun he).imp_right
      .call

/-! ### Whole texts -/

variable {dialect : Dialect} {parsed : Parsed}

/-- When a text has been read, its errors are in the order of the text, with no two at one place and
the leftmost one first. Each of them lies within the text, and each has been noted in the run itself:
nothing is left of what was noted in looking ahead or in trying. -/
theorem Parser.Reads.errors_inOrder (h : Parser.Reads dialect text parsed) :
    (parsed.errors.map (·.start)).Pairwise (· < ·) ∧ (parsed.errors.map (·.start)).Nodup ∧
      (∀ first ∈ parsed.errors.head?, ∀ e ∈ parsed.errors, first.start ≤ e.start) ∧
      (∀ e ∈ parsed.errors, e.start + e.length ≤ byteLength text) ∧
      ∃ rounds levels, ∀ e ∈ parsed.errors, wholeText.Notes e levels (.whole rounds dialect)
        { scanner := Scanner.ofText text } := by
  obtain ⟨rounds, levels, hparse⟩ := h
  obtain ⟨frame, p, arena, hperform, -, rfl⟩ := parseWithin_eq_some.1 hparse
  obtain ⟨s, hrun, hmatches⟩ := exists_state_of_perform hperform
  have herrors : p.errors = s.errors.reverse := hmatches.errors
  -- behind the first token there are no errors
  have hfirst : (State.advance .code { scanner := Scanner.ofText text }).InOrder text :=
    ⟨stands_first text, by simp [State.advance], by simp [State.advance], by simp [State.advance]⟩
  obtain ⟨_, u, hadvance, hitems⟩ := run_bind_eq_some.1 hrun
  cases hadvance
  have hs : s.InOrder text :=
    keepsOrder_run (keepsOrder_rulesWithin text levels) _ rfl hfirst hitems
  have hordered : (p.errors.map (·.start)).Pairwise (· < ·) := by
    rw [herrors, List.pairwise_map, List.pairwise_reverse]
    exact hs.ordered
  refine ⟨hordered, hordered.imp ne_of_lt, fun first hfirst e he => ?_, fun e he => ?_, rounds, levels,
    fun e he => ?_⟩
  · obtain ⟨rest, hrest⟩ := List.head?_eq_some_iff.1 hfirst
    have hrest : p.errors = first :: rest := hrest
    rw [hrest, List.map_cons, List.pairwise_cons] at hordered
    rcases List.mem_cons.1 (hrest ▸ he : e ∈ first :: rest) with rfl | hmem
    · exact le_rfl
    · exact (hordered.1 _ (List.mem_map_of_mem hmem)).le
  · exact hs.stop_le e (List.mem_reverse.1 (herrors ▸ he))
  · have hnotes := notes_run (fun _ _ _ _ => notes_rulesWithin) wholeText hrun
      (List.mem_reverse.1 (herrors ▸ he))
    exact hnotes.resolve_left (by simp)

/-- The parameter list of an arrow function is tried in vain here and misses its parenthesis at the
same token as the expression in parentheses that is read in its place. -/
theorem Parser.Reads.errors_inOrder_parentheses :
    ∃ parsed, Parser.Reads .standard "(a b) c".toList parsed ∧
      parsed.errors = [⟨3, 1, .expected .closeParen⟩, ⟨4, 1, .expected .semicolon⟩] ∧
      ∃ rounds levels, ∀ e ∈ parsed.errors, wholeText.Notes e levels (.whole rounds .standard)
        { scanner := Scanner.ofText "(a b) c".toList } := by
  have heval : (parseWithin 8 16 .standard "(a b) c".toList).map (·.errors) =
      some [⟨3, 1, .expected .closeParen⟩, ⟨4, 1, .expected .semicolon⟩] := by
    decide +kernel
  obtain ⟨parsed, hparse, herrors⟩ := Option.map_eq_some_iff.1 heval
  have hreads : Parser.Reads .standard "(a b) c".toList parsed := ⟨8, 16, hparse⟩
  exact ⟨parsed, hreads, herrors, hreads.errors_inOrder.2.2.2.2⟩

end ExpectError.Grammar
