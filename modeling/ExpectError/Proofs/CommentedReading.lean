import ExpectError.Proofs.CommentedTokens
import ExpectError.Proofs.Lockstep
import ExpectError.Proofs.Reading
import ExpectError.SourceFile

/-!
# Reading a text with and without line comments

The grammar sees no more of a text than its tokens, so a text with line comments and the text with
blanks in their place are read in step: to the same tree with the same offsets, the same tokens and
the same errors. The only tokens that can be read otherwise are a regular expression that stretches
over a comment, and those where a mark takes the first slash of a comment directly behind it: a `<`
between markup tags, a division sign and a `*` in a block comment.

* `spelledAlike`: the guard that refuses such tokens;
* `Beside`: two states that differ in the text only;
* `lockstep_beside`: how texts with and without comments are read.
-/

namespace ExpectError

open Text

namespace Grammar

/-- Refuses to move to a token that is read otherwise in another text. -/
def spelledAlike (text : List Char) : Guard
  | .scan .markup, s => !decide (s.nextMarkup.IsOtherTag text)
  | .scan _, s => !decide (s.IsOtherTrivia text)
  | .rescan .slash, s => !decide (s.rescanSlash.IsOtherRegex text)
  | _, _ => true

variable {blank full : List Char} {s t u v : State}

/-- Two states of reading two texts that have everything in common but the texts. -/
structure Beside (blank full : List Char) (s t : State) : Prop where
  fits : s.scanner.Fits t.scanner
  sound : s.scanner.Sound blank
  sound' : t.scanner.Sound full
  eq : t = { s with scanner := t.scanner }

namespace Beside

theorem position_eq (h : Beside blank full s t) : s.position = t.position :=
  h.fits.start.1

/-- No question about the token at hand tells the texts apart. -/
theorem answer_eq (h : Beside blank full s t) {α : Type} (question : Question α) :
    question.answer s.scanner = question.answer t.scanner := by
  cases question with
  | kind => exact h.fits.kind_eq
  | onNewLine => exact h.fits.lineBreakBefore_eq
  | isAssert =>
    -- a token that differs has a blank in one text and a slash in the other
    refine decide_eq_decide.2 ?_
    rw [Scanner.tokenText, Scanner.tokenText, ← h.fits.stop.1]
    obtain heq | ⟨hblank, hslash⟩ := Cursor.upTo_cases h.fits.start s.scanner.stop.pos
    · rw [heq]
    · refine iff_of_false (fun heq => ?_) (fun heq => ?_)
      · rw [heq] at hblank
        revert hblank
        decide
      · rw [heq] at hslash
        revert hslash
        decide

theorem consume (h : Beside blank full s t) :
    t.consume = { s.consume with scanner := t.scanner } := by
  simp only [State.consume, ← h.fits.start.1, ← h.fits.stop.1, ← h.fits.kind_eq]
  rw [h.eq]
  split <;> rfl

theorem advance (h : Beside blank full s t) (scan : Scan)
    (hguard : spelledAlike full (.scan scan) s.scanner = true) :
    Beside blank full (s.advance scan) (t.advance scan) where
  fits := by
    cases scan with
    | code =>
      exact h.fits.advance (fun _ _ => Lexeme.fits_read) h.sound'.reached_stop
        (by simpa [spelledAlike] using hguard)
    | attributeValue =>
      exact h.fits.advance (fun _ _ => Lexeme.fits_readAttributeValue) h.sound'.reached_stop
        (by simpa [spelledAlike] using hguard)
    | markup => exact h.fits.nextMarkup h.sound'.reached_stop (by simpa [spelledAlike] using hguard)
  sound := State.sound_scan scan h.sound
  sound' := State.sound_scan scan h.sound'
  eq := by
    unfold State.advance
    rw [h.consume]

theorem rescan (h : Beside blank full s t) (scan : Rescan)
    (hguard : spelledAlike full (.rescan scan) s.scanner = true) :
    Beside blank full (s.rescan scan) (t.rescan scan) where
  fits := by
    cases scan with
    | greater => exact h.fits.rescanGreater
    | slash => exact h.fits.rescanSlash h.sound h.sound' (by simpa [spelledAlike] using hguard)
    | template => exact h.fits.rescanTemplate
    | markupName => exact h.fits.extendMarkupName
  sound := h.sound.of_sameStart (State.sameStart_rescan scan h.sound)
  sound' := h.sound'.of_sameStart (State.sameStart_rescan scan h.sound')
  eq := by
    unfold State.rescan
    rw [h.eq]

theorem report (h : Beside blank full s t) (speculative : Bool) (problem : SyntaxProblem) :
    Beside blank full (s.report speculative problem) (t.report speculative problem) := by
  have herror : t.errorHere problem = s.errorHere problem := by
    simp only [State.errorHere, h.fits.start.1, h.fits.stop.1]
  have hnoted : t.errorNotedHere = s.errorNotedHere := by
    simp only [State.errorNotedHere, h.fits.start.1]
    rw [h.eq]
  unfold State.report
  rw [herror, hnoted]
  split
  · exact h
  · refine ⟨h.fits, h.sound, h.sound', ?_⟩
    rw [h.eq]

theorem leaf (h : Beside blank full s t) (kind : NodeKind) :
    Beside blank full (s.addPiece (s.leafHere kind)) (t.addPiece (t.leafHere kind)) := by
  have hleaf : t.leafHere kind = s.leafHere kind := by
    simp only [State.leafHere, h.fits.start.1, h.fits.stop.1]
  refine ⟨h.fits, h.sound, h.sound', ?_⟩
  rw [hleaf, h.eq]
  rfl

theorem openScope (h : Beside blank full s t) : Beside blank full s.openScope t.openScope := by
  refine ⟨h.fits, h.sound, h.sound', ?_⟩
  unfold State.openScope
  rw [← h.position_eq, h.eq]

theorem closeScope (h : Beside blank full s t) (h' : Beside blank full u v) :
    Beside blank full (s.closeScope u) (t.closeScope v) := by
  refine ⟨h.fits, h.sound, h.sound', ?_⟩
  unfold State.closeScope
  rw [h.eq, h'.eq]

end Beside

/-- Texts with and without line comments are read in step. -/
theorem lockstep_beside (blank full : List Char) :
    Lockstep (spelledAlike full) unguarded (Beside blank full) where
  allows _ _ _ := rfl
  answer h _ question _ := h.answer_eq question
  position h h' := by rw [h.position_eq, h'.position_eq]
  errors h := by rw [h.eq]
  pieces h := by rw [h.eq]
  advance h scan hguard := h.advance scan hguard
  rescan h scan hguard := h.rescan scan hguard
  report h := h.report
  leaf h := h.leaf
  emptyName h := by
    refine ⟨h.fits, h.sound, h.sound', ?_⟩
    rw [← h.position_eq, h.eq]
    rfl
  wrap h kind _ := by
    refine ⟨h.fits, h.sound, h.sound', ?_⟩
    rw [h.eq]
    rfl
  dropPieces h := by
    refine ⟨h.fits, h.sound, h.sound', ?_⟩
    rw [h.eq]
  openScope h := h.openScope
  closeScope h h' := h.closeScope h'

/-! ### Whole texts -/

theorem fits_ofText (h : Commented false blank full) :
    (Scanner.ofText blank).Fits (Scanner.ofText full) :=
  ⟨rfl, rfl, .mk' h, .mk' h, rfl, rfl⟩

/-- On the first token, two texts are side by side. -/
theorem beside_first (h : Commented false blank full)
    (hguard : spelledAlike full (.scan .code) (Scanner.ofText blank) = true) :
    Beside blank full (State.advance .code { scanner := Scanner.ofText blank })
      (State.advance .code { scanner := Scanner.ofText full }) := by
  refine ⟨?_, Scanner.sound_next (.refl _), Scanner.sound_next (.refl _), rfl⟩
  exact (fits_ofText h).advance (fun _ _ => Lexeme.fits_read) (.refl _)
    (by simpa [spelledAlike] using hguard)

end Grammar

theorem byteLength_of_commented {inside : Bool} {xs ys : List Char} (h : Commented inside xs ys) :
    byteLength xs = byteLength ys := by
  induction h with
  | nil => rfl
  | char _ ih => rw [byteLength_cons, byteLength_cons, ih]
  | opening _ ih =>
    simp only [byteLength_cons, ih]
    rfl
  | plain hc _ ih =>
    rw [byteLength_cons, byteLength_cons, ih, utf8Size_of_isPlain hc]
    rfl
  | closing _ ih => exact ih

/-- Where a text is read and no token is spelled otherwise in the text with line comments, that one
is read too, to the same end. -/
theorem exists_readUnder?_of_commented {dialect : Dialect} {blank full : List Char}
    {s : Grammar.State} (h : Commented false blank full)
    (hread : Grammar.readUnder? (Grammar.spelledAlike full) dialect blank = some s) :
    ∃ t, Grammar.readUnder? Grammar.unguarded dialect full = some t ∧
      Grammar.Beside blank full s t :=
  (Grammar.lockstep_beside blank full).readUnder? (byteLength_of_commented h).le
    (fun hguard => ⟨rfl, Grammar.beside_first h hguard⟩) hread

end ExpectError
