import ExpectError.Annotate
import ExpectError.Proofs.ChildProgress
import ExpectError.Proofs.ParsedArena

/-!
# Bounds that suffice for markup

Markup need not come to an end, but its bounds decide whether it does: up to the greatest depth of
nesting each child takes the token at hand, so the children are read in no more steps than there are
bytes left, and beyond that depth the children in front of a `<` have no end within any number of
steps. So a text that the parser gets through is a text that `SourceFile.read?` reads.

* `runs_children`: the children between two tags within two bounds;
* `Bounds.suffice_markup`: bounds for a text with markup;
* `SourceFile.exists_read?_iff_reads`: what is read within the bounds is what is read at all.
-/

-- the promises of a production are found in as many steps as it has words
set_option synthInstance.maxSize 100000
set_option synthInstance.maxHeartbeats 200000

namespace ExpectError.Grammar

open Construct (Below)
open Text (byteLength)
open State

variable {markup : Bool} {text : List Char} {cost : ℕ} {bounds wide : Bounds} {context : Context}
  {s : State}

/-! ### Tags -/

instance : Halts markup cost markupIdentifier := by unfold markupIdentifier; infer_instance

instance : Halts markup cost accessedNames := by unfold accessedNames; infer_instance

instance : Halts markup cost tagName := by unfold tagName; infer_instance

instance (textFollows : Bool) : Halts markup cost (tagEnd textFollows) := by
  unfold tagEnd
  infer_instance

instance : Moves markup cost attributeExpression := by unfold attributeExpression; infer_instance

instance : Moves markup cost spreadAttribute := by unfold spreadAttribute; infer_instance

instance : Halts true 8 attributeValue := by
  unfold attributeValue
  refine .ofKind fun k => ?_
  split
  all_goals first
    | exact .inl inferInstance
    | exact .inr ⟨by decide, inferInstance⟩

/-- Can a token of this kind be a name in markup? -/
def isWord (k : TokenKind) : Bool :=
  k = .identifier || k.isKeywordToken

theorem isWord_of_atWord {rules : Rules} {t : State}
    (h : atWord.run rules context s = some (true, t)) : isWord s.scanner.kind = true := by
  rw [run_atWord] at h
  exact congrArg Prod.fst (Option.some.inj h)

/-- A word is consumed as a name. -/
theorem movesAt_markupIdentifier {k : TokenKind} (hk : isWord k = true) :
    MovesAt markup k cost markupIdentifier where
  ends := by
    intro text budget bounds wide hrules context s hc hs hn hle
    have hask (rules : Rules) (context : Context) :
        atWord.run rules context s = some (true, s) := by
      rw [run_atWord, hn]
      exact congrArg (fun b => some (b, s)) hk
    unfold markupIdentifier
    refine (Runs.ask hs hask).bind fun b t _ _ hb => ?_
    obtain ⟨rfl, rfl⟩ := hb
    have hname : Moves markup cost
        ((.rescan .markupName : Reader Unit) >>= fun _ => tokenNodeAs (.token .identifier)) :=
      inferInstance
    have hne : k ≠ .endOfFile := by rintro rfl; exact absurd hk (by decide)
    exact hname.ends hrules hc hs (hs.within_of_kind hn hne) hle

instance : Halts markup cost attributeName := by unfold attributeName; infer_instance

/-- An attribute begins with a word, which is consumed. -/
theorem movesAt_plainAttribute {k : TokenKind} (hk : isWord k = true) :
    MovesAt true k 8 plainAttribute := by
  have hname : MovesAt true k 8 markupIdentifier := movesAt_markupIdentifier hk
  unfold plainAttribute attributeName node
  infer_instance

instance : Steps true 8 tagAttribute := by
  have hword : StepsHere true 8 (do
      if ← atWord then
        plainAttribute
        return true
      else
        report .identifierExpected
        advance
        return true) := by
    refine ⟨.branch isWord_of_atWord (fun _ => trivial) ?_ ?_⟩
    · intro text budget bounds wide hrules context s hc hs hn hle
      have hplain : MovesAt true s.scanner.kind 8 plainAttribute := movesAt_plainAttribute hn.2
      have hattribute : MovesAt true s.scanner.kind 8 (plainAttribute >>= fun _ => pure true) :=
        inferInstance
      exact (hattribute.ends hrules hc hs rfl hle).mono fun _ _ _ hmoved _ => hmoved
    · have hrest : Moves true 8 (report .identifierExpected >>= fun _ => advance >>= fun _ =>
          pure true) := inferInstance
      exact hrest.ends.mono (fun _ _ _ => And.left) fun _ _ _ hmoved _ => hmoved
  unfold tagAttribute
  infer_instance

instance : Halts markup cost openingFragmentRest := by unfold openingFragmentRest; infer_instance

instance (amongChildren : Bool) : Moves true cost (openingTag amongChildren) := by
  unfold openingTag
  infer_instance

/-! ### Children -/

instance : Halts markup cost closingBrace := by unfold closingBrace; infer_instance

instance : Moves markup cost childExpression := by unfold childExpression; infer_instance

instance : Halts true 8 markupChild := by
  unfold markupChild
  refine .ofKind fun k => ?_
  split
  all_goals first
    | exact .inl inferInstance
    | exact .inr ⟨by decide, inferInstance⟩

/-- Where the children take the tokens at hand, there are no more steps than bytes left; where one of
them does not, there is no end within any number of steps. -/
theorem runs_children {budget : ℕ} (hrules : Bounds.Suffice true text budget bounds wide)
    (hc : context.mode.markup = true) (k l : ℕ) (hs : s.Stands text) (hk : s.left text < k)
    (hl : s.left text < l) (hle : 8 * s.left text + 8 ≤ budget) :
    Runs true text
      (repeatRun (rulesWithin bounds.depth) markupChild k { context with size := bounds.steps })
      (repeatRun (rulesWithin wide.depth) markupChild l { context with size := wide.steps }) s
      fun _ _ => True := by
  induction k generalizing s l with
  | zero => exact absurd hk (Nat.not_lt_zero _)
  | succ k ih =>
    obtain ⟨l, rfl⟩ := Nat.exists_eq_succ_of_ne_zero (Nat.ne_zero_of_lt hl)
    have hchild : Halts true 8 markupChild := inferInstance
    cases hchild.ends hrules hc hs trivial hle with
    | never hmarkup hrun hwide =>
      unfold Bounds.run at hrun hwide
      exact .never hmarkup (by rw [repeatRun_succ, hrun, Option.bind_none])
        (by rw [repeatRun_succ, hwide, Option.bind_none])
    | @ends more t hrun hwide hst =>
      unfold Bounds.run at hrun hwide
      cases more with
      | false =>
        refine .ends (a := ()) (t := t) ?_ ?_ hst trivial
        · rw [repeatRun_succ, hrun, Option.bind_some, if_neg Bool.false_ne_true]
        · rw [repeatRun_succ, hwide, Option.bind_some, if_neg Bool.false_ne_true]
      | true =>
        by_cases hdeep : context.depth < maxDepth ∨ s.scanner.kind ≠ .lessThan
        · have hlt := hst.left_lt ((moved_markupChild_iff hs hrun).2 hdeep)
          exact (ih l hst.stands (by omega) (by omega) (by omega)).of_front hst
            (by rw [repeatRun_succ, hrun]; rfl) (by rw [repeatRun_succ, hwide]; rfl)
        · obtain ⟨hdepth, hless⟩ := not_or.1 hdeep
          have htooDeep (b : Bounds) (j : ℕ) : repeatRun (rulesWithin b.depth) markupChild j
              { context with size := b.steps } s = none :=
            repeatRun_markupChild_tooDeep (by exact Nat.le_of_not_lt hdepth) (not_not.1 hless) j
          exact .never rfl (htooDeep bounds _) (htooDeep wide _)

instance : Halts true 8 (repeatWhile markupChild) where
  ends := by
    intro text budget bounds wide hrules context s hc hs _ hle
    have hleft := left_le text s
    have hsteps := hrules.steps_le
    have hsteps' := hrules.wide_steps_le
    exact (runs_children hrules hc (bounds.steps + 2) (wide.steps + 2) hs (by omega) (by omega)
      hle).of_eq (run_repeatWhile _ _ _ _) (run_repeatWhile _ _ _ _) rfl

instance (closing : NodeKind) (notClosed : SyntaxProblem) (name : Reader Unit)
    [Halts markup cost name] (textFollows : Bool) :
    Halts markup cost (closingTag closing notClosed name textFollows) := by
  unfold closingTag
  infer_instance

instance (amongChildren : Bool) : Halts true 8 (elementRest amongChildren) := by
  unfold elementRest
  infer_instance

instance (amongChildren : Bool) : Halts true 8 (fragmentRest amongChildren) := by
  unfold fragmentRest
  infer_instance

instance (amongChildren : Bool) : Moves true 0 (elementOrFragment amongChildren) := by
  unfold elementOrFragment
  have hrest (opening : Opening) : Halts true 8 (match opening with
      | .fragment => fragmentRest amongChildren
      | .element => elementRest amongChildren
      | .closedElement => wrap .jsxElement) := by
    cases opening <;> infer_instance
  infer_instance

/-! ### A whole text -/

/-- Where there may be markup, its bounds decide how everything is read. -/
theorem Bounds.suffice_markup {depth m k l : ℕ} (hdepth : depth ≤ m) (hk : byteLength text ≤ k)
    (hl : byteLength text ≤ l) : Bounds.Suffice true text depth ⟨depth, k⟩ ⟨m, l⟩ := by
  refine Bounds.suffice_of_produce (fun construct _ => ?_) hdepth hk hl
  cases construct with
  | markup amongChildren =>
    have hnested : HaltsHere true 0
        (nested (missing .expressionExpected) (elementOrFragment amongChildren)) := inferInstance
    exact hnested.ends.mono (fun _ _ _ hwithin => hwithin rfl) fun _ _ _ => id
  | _ => exact ends_produce (by simp)

/-- The bounds decide how a text is read, in whatever dialect. -/
theorem Bounds.suffice (markup : Bool) {depth m k l : ℕ} (hdepth : depth ≤ m)
    (hk : byteLength text ≤ k) (hl : byteLength text ≤ l) :
    Bounds.Suffice markup text depth ⟨depth, k⟩ ⟨m, l⟩ := by
  cases markup with
  | false => exact suffice_standard hdepth hk hl
  | true => exact suffice_markup hdepth hk hl

end ExpectError.Grammar

namespace ExpectError.SourceFile

open Grammar Text

variable {dialect : Dialect} {text : List Char}

/-- A text is read exactly if the parser gets through it, in whatever number of rounds and levels: the
bounds of the readers leave nothing out, and a text that they do not get through has no end. -/
theorem exists_read?_iff_reads (dialect : Dialect) (text : List Char) :
    (∃ file, read? dialect text = some file) ↔ ∃ parsed, Parser.Reads dialect text parsed := by
  constructor
  · rintro ⟨file, hread⟩
    exact Parser.reads_of_read? hread
  rintro ⟨parsed, rounds, levels, hparse⟩
  obtain ⟨frame, p, arena, hperform, -, rfl⟩ := parseWithin_eq_some.1 hparse
  obtain ⟨s, hrun, -⟩ := exists_state_of_perform hperform
  have hwide := run_whole_of_le hrun (Nat.le_add_right levels (depthBound (byteLength text)))
    (Nat.le_add_right rounds (byteLength text))
  have hsuffice := Bounds.suffice (decide (dialect = .markup))
    (Nat.le_add_left (depthBound (byteLength text)) levels) (le_refl (byteLength text))
    (Nat.le_add_left (byteLength text) rounds)
  have hitems : Halts (decide (dialect = .markup)) 8
      (itemsUntil [.endOfFile] .statementExpected (call .statement)) := inferInstance
  have hle : 8 * State.left text (State.advance .code { scanner := Scanner.ofText text }) + 8 ≤
      depthBound (byteLength text) := by
    have := left_le text (State.advance .code { scanner := Scanner.ofText text })
    unfold depthBound
    omega
  have hmode : (Context.whole rounds dialect).mode.markup = decide (dialect = .markup) := rfl
  obtain ⟨⟨⟩, t, hadvance, hwhole⟩ := run_bind_eq_some.1 hwide
  cases hadvance
  cases hitems.ends hsuffice hmode (stands_first text) trivial hle with
  | never _ _ hnone => cases hnone.symm.trans hwhole
  | ends hitem =>
    exact ⟨_, Option.bind_eq_some_iff.2 ⟨_, run_bind_eq_some.2 ⟨(), _, rfl, hitem⟩, rfl⟩⟩

theorem read?_eq_none_iff (dialect : Dialect) (text : List Char) :
    read? dialect text = none ↔ ∀ parsed, ¬ Parser.Reads dialect text parsed := by
  rw [← not_exists, ← exists_read?_iff_reads, Option.eq_none_iff_forall_ne_some, not_exists]

end ExpectError.SourceFile

/-! ### Texts without an answer -/

namespace ExpectError

variable (fileName source : String)

/-- `endless` stands exactly for the texts for which the parser never returns. -/
theorem Structural.annotate_eq_endless_iff (issues : List Issue) :
    annotate fileName source issues = .error .endless ↔
      ∀ parsed, ¬ Grammar.Parser.Reads (.ofFileName fileName) source.toList parsed := by
  rw [← SourceFile.read?_eq_none_iff]
  cases hread : SourceFile.read? (.ofFileName fileName) source.toList with
  | none => simp [annotate_of_endless issues hread]
  | some file =>
    cases herrors : file.errors with
    | nil => simp [annotate_of_clean issues hread herrors]
    | cons first others => simp [annotate_of_errors issues hread herrors]

/-- Diagnostics are missing an answer exactly for those texts. -/
theorem Offset.annotate?_eq_none_iff (marks : List Mark) :
    annotate? fileName source marks = none ↔
      ∀ parsed, ¬ Grammar.Parser.Reads (.ofFileName fileName) source.toList parsed := by
  rw [← SourceFile.read?_eq_none_iff, annotate?]
  cases SourceFile.read? (.ofFileName fileName) source.toList <;> simp

end ExpectError
