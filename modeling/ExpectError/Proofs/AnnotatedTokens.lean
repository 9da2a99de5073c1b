import ExpectError.Proofs.AnnotatedReading
import ExpectError.Proofs.BlankLines
import ExpectError.Proofs.LineAnnotation

/-!
# The tokens of a text that is annotated by lines

Comment lines between the lines of a text are nothing to the grammar, as long as each of them stands
between tokens: then the annotated text is read to the same tokens, of the same kinds and with the
same characters. Where a line begins inside a token, as in a template or in the text between markup
tags, the comment becomes a part of that token.

* `SourceFile.token_of_readUnder?`: consumed tokens are stretches of the text;
* `blankLines`: the comment lines of an annotated text, as blanks;
* `spelledTokens_annotate?`: how the annotated text is read.
-/

namespace ExpectError

open Text Insertion

/-! ### Consumed tokens -/

/-- Behind a comment that is not the end of the text, a line starts. -/
theorem Cursor.exists_lineStart {broken : Bool} {pos : ℕ} {cs : List Char}
    (h : (skipTrivia .lineComment broken pos cs).1.rest ≠ []) :
    ∃ n ∈ lineStartsFrom pos cs, n ≤ (skipTrivia .lineComment broken pos cs).1.pos := by
  induction cs generalizing pos with
  | nil => exact absurd rfl h
  | cons c cs ih =>
    rw [skipTrivia] at h ⊢
    rw [lineStartsFrom]
    split at h
    next hbreak =>
      rw [if_pos hbreak]
      have hahead := (ahead_skipTrivia .blank true (pos + c.utf8Size) cs).pos_le
      split
      next => exact ⟨_, List.mem_cons_self, hahead⟩
      next hpair =>
        -- a carriage return in front of a line feed, which is passed over too
        obtain ⟨rfl, hfeed⟩ : c = '\r' ∧ cs.head? = some '\n' := by simpa [hbreak] using hpair
        obtain ⟨cs, rfl⟩ := List.head?_eq_some_iff.1 hfeed
        refine ⟨pos + '\r'.utf8Size + '\n'.utf8Size, List.mem_cons_self, ?_⟩
        exact (ahead_skipTrivia .blank true _ cs).pos_le
    next hbreak =>
      rw [if_neg hbreak]
      rw [if_neg (by simp [hbreak])]
      exact ih h

namespace SourceFile

open Grammar

/-- Consumed tokens are stretches of the text, and none of them is in front of the first token. -/
theorem token_of_readUnder? {guard : Guard} {dialect : Dialect} {text : List Char} {s : State}
    (h : readUnder? guard dialect text = some s) {token : Token} (htoken : token ∈ s.tokens) :
    (Cursor.ofText text).toToken.1.pos ≤ token.start ∧ token.start < byteLength text := by
  refine (invariant_of_readUnder? (p := fun scanner tokens => scanner.Sound text ∧
    (Cursor.ofText text).toToken.1.pos ≤ scanner.start.pos ∧
      ∀ token ∈ tokens, (Cursor.ofText text).toToken.1.pos ≤ token.start ∧
        token.start < byteLength text) ?_ ?_ ?_ h).2.2.2 token htoken
  · rintro s scan ⟨hsound, hfirst, htokens⟩
    have hstop := pos_add_byteLength hsound.reached_stop
    refine ⟨State.sound_scan scan hsound, ?_, ?_⟩
    · exact hfirst.trans (hsound.ahead.pos_le.trans (State.stop_le_start_scan scan s.scanner))
    · show ∀ token ∈ s.consume.tokens, _
      simp only [State.consume]
      split
      next hlt => exact List.forall_mem_cons.2 ⟨⟨hfirst, by simp only; omega⟩, htokens⟩
      next => exact htokens
  · rintro s scan ⟨hsound, hfirst, htokens⟩
    have hsame := State.sameStart_rescan scan hsound
    exact ⟨hsound.of_sameStart hsame, hsame.start_eq ▸ hfirst, htokens⟩
  · exact ⟨Scanner.sound_next (.refl _), le_rfl, by simp⟩

end SourceFile

/-! ### Comment lines as blanks -/

/-- A blank in the place of a character, unless it is one. -/
def blanked (c : Char) : Char :=
  if isSpacing c then c else ' '

theorem isSpacing_blanked (c : Char) : isSpacing (blanked c) = true := by
  unfold blanked
  split
  next h => exact h
  next => rfl

theorem map_blanked_of_isPlain {words : List Char} (h : ∀ c ∈ words, isPlain c = true) :
    words.map blanked = List.replicate words.length ' ' := by
  refine List.eq_replicate_iff.2 ⟨List.length_map .., fun c hc => ?_⟩
  obtain ⟨d, hd, rfl⟩ := List.mem_map.1 hc
  have hplain := h d hd
  unfold blanked
  split
  next hspacing =>
    rcases Lexeme.eq_of_isSpacing hspacing with rfl | rfl | rfl
    · rfl
    · cases hplain
    · cases hplain
  next => rfl

namespace Offset

variable {source : String} {file : SourceFile} {marks : List Mark} {insertion : Insertion}

/-- The comment lines in front of a line of a source, with blanks in the place of their words. -/
def blankLines (source : String) (file : SourceFile) (marks : List Mark) (start : ℕ) : List Char :=
  (comments source file marks start).flatMap fun comment => comment.text.toList.map blanked

/-- A comment line replaces a blank one. -/
theorem replaces_of_mem_plan (h : insertion ∈ plan file marks) :
    Replaces (insertion.text.toList.map blanked) insertion.text.toList := by
  obtain ⟨mark, -, hmark⟩ := List.mem_filterMap.1 h
  obtain ⟨token, -, -, htext⟩ := insertionFor?_eq_some hmark
  have hline : insertion.text.toList = (LineMap.ofText file.text).indentationOf token.start ++
      ('/' :: '/' :: ' ' :: (Directive.words mark.code .offset).toList ++ ['\n']) := by
    rw [htext, Directive.lineComment]
    simp
  have hindent : ∀ c ∈ (LineMap.ofText file.text).indentationOf token.start, isIndent c = true :=
    fun _ => LineMap.isIndent_of_mem_indentationOf
  generalize (LineMap.ofText file.text).indentationOf token.start = indent at hline hindent
  have hplain : ∀ c ∈ ' ' :: (Directive.words mark.code .offset).toList, isPlain c = true :=
    List.forall_mem_cons.2 ⟨rfl, fun _ => isPlain_of_mem_words⟩
  have hblank : indent.map blanked = indent := by
    refine (List.map_congr_left fun c hc => ?_).trans (List.map_id indent)
    exact if_pos (isSpacing_of_isIndent (hindent c hc))
  rw [hline, List.map_append, List.map_append, hblank, map_blanked_of_isPlain]
  · exact (Replaces.self indent).append (Replaces.lineComment hplain)
  · exact List.forall_mem_cons.2 ⟨rfl, List.forall_mem_cons.2 ⟨rfl, hplain⟩⟩

/-- Where there is a blank line, a consumed token begins on the line below it. -/
theorem exists_token_of_blankLines (hsource : file.text = source.toList) {start : ℕ}
    (h : blankLines source file marks start ≠ []) :
    ∃ token ∈ file.tokens, (LineMap.ofText source.toList).lineStartOf token.start = start := by
  obtain ⟨c, hc⟩ := List.exists_mem_of_ne_nil _ h
  obtain ⟨comment, hcomment, -⟩ := List.mem_flatMap.1 hc
  obtain ⟨hplan, hpos⟩ := mem_comments hsource hcomment
  obtain ⟨mark, -, hmark⟩ := List.mem_filterMap.1 hplan
  obtain ⟨token, htoken, hline, -⟩ := insertionFor?_eq_some hmark
  exact ⟨token, htoken, by rw [← hsource, ← hline, hpos]⟩

/-- Blank lines are blanks in front of lines, if the tokens are stretches of the source. -/
theorem isLineSpacingFor_blankLines (hsource : file.text = source.toList)
    (htokens : ∀ token ∈ file.tokens, (Cursor.ofText source.toList).toToken.1.pos ≤ token.start ∧
      token.start < byteLength source.toList) :
    IsLineSpacingFor source.toList (blankLines source file marks) where
  isSpacing b c hc := by
    obtain ⟨comment, -, hc⟩ := List.mem_flatMap.1 hc
    obtain ⟨d, -, rfl⟩ := List.mem_map.1 hc
    exact isSpacing_blanked d
  end_eq := by
    by_contra hne
    obtain ⟨token, htoken, hline⟩ := exists_token_of_blankLines hsource hne
    have hle := (LineMap.lineStartOf_spec source.toList token.start).2.1
    have hlt := (htokens token htoken).2
    omega
  behindBreaks := by
    intro before c after htext hne
    obtain ⟨token, -, hline⟩ := exists_token_of_blankLines hsource hne
    have hmem := (LineMap.lineStartOf_spec source.toList token.start).1
    rw [hline, lineStarts, List.mem_cons] at hmem
    rcases hmem with hzero | hmem
    · have hc := c.utf8Size_pos
      rw [byteLength_append, byteLength_cons] at hzero
      omega
    · rw [htext] at hmem
      exact isLineBreak_of_mem_lineStartsFrom hmem
  first hbang := by
    by_contra hne
    obtain ⟨token, htoken, hline⟩ := exists_token_of_blankLines hsource hne
    obtain ⟨hfirst, hlt⟩ := htokens token htoken
    obtain ⟨cs, htext⟩ := List.isPrefixOf_iff_prefix.1 hbang
    -- the first token begins behind the first line
    have hskip : (Cursor.ofText source.toList).toToken =
        Cursor.skipTrivia .lineComment false 2 cs := by
      rw [← htext]
      rfl
    have hreached := pos_add_byteLength (Cursor.ahead_toToken (Cursor.ofText source.toList))
    rw [hskip] at hfirst hreached
    obtain ⟨n, hn, hle⟩ := Cursor.exists_lineStart
      (fun hnil => by rw [hnil, byteLength_nil] at hreached; omega)
    have hpos := lt_of_mem_lineStartsFrom hn
    have hstart : n ∈ lineStarts source.toList := by
      rw [← htext]
      exact List.mem_cons_of_mem _ hn
    -- then the line of the token starts behind offset 0
    have := (LineMap.lineStartOf_spec source.toList token.start).2.2 n hstart (hle.trans hfirst)
    omega

/-- A text that is annotated by lines is read to the same nodes and tokens as the text itself, the
tokens spelled alike, and with the same problems, if nothing that is done in reading the text comes
out otherwise with blank lines in the place of the comments. -/
theorem spelledTokens_annotate? {fileName source : String} {file : SourceFile} {marks : List Mark}
    (hread : SourceFile.read? (.ofFileName fileName) source.toList = some file)
    (hintact : SourceFile.isIntact (.ofFileName fileName) source.toList
      (blankLines source file marks) = true) :
    ∃ output other, annotate? fileName source marks = some output ∧
      SourceFile.read? (.ofFileName fileName) output.toList = some other ∧
      other.spelledTokens = file.spelledTokens ∧ other.tree.shape = file.tree.shape ∧
      other.errors.map (·.problem) = file.errors.map (·.problem) := by
  have hsource := (SourceFile.tree_eq_of_read? hread).1
  have htokens : ∀ token ∈ file.tokens,
      (Cursor.ofText source.toList).toToken.1.pos ≤ token.start ∧
        token.start < byteLength source.toList := by
    obtain ⟨s, hs⟩ := Option.isSome_iff_exists.1 hintact
    obtain rfl := Option.some.inj (hread.symm.trans (SourceFile.read?_of_readUnder? hs))
    exact fun token htoken => SourceFile.token_of_readUnder? hs (List.mem_reverse.1 htoken)
  have hw : IsLineSpacingFor source.toList (blankLines source file marks) :=
    isLineSpacingFor_blankLines hsource htokens
  have hreplaces : ∀ b, Replaces (blankLines source file marks b)
      ((comments source file marks b).flatMap (·.text.toList)) := fun b =>
    .flatMap fun comment hcomment => replaces_of_mem_plan (mem_comments hsource hcomment).1
  obtain ⟨other, hother, hshape, hproblems, hspelled⟩ := SourceFile.exists_read?_of_heeds hread
    hw.toIsSpacingFor (Grammar.heeds_intact hw) (fun b => (hreplaces b).byteLength_eq)
    (commented_interleave hreplaces 0 source.toList) hintact
  refine ⟨applyAll source (plan file marks), other, ?_, ?_, hspelled, hshape, hproblems⟩
  · simp [annotate?, hread]
  · rw [toList_applyAll]
    exact hother

/-- A call over two lines gets a comment above each of them and is read to the same tokens. -/
theorem spelledTokens_annotate?_call :
    ∃ (file : SourceFile) (output : String) (other : SourceFile),
      SourceFile.read? (.ofFileName "a.ts") "f(\n  a);\n".toList = some file ∧
      annotate? "a.ts" "f(\n  a);\n" [⟨0, 1⟩, ⟨5, 2⟩] = some output ∧
      SourceFile.read? (.ofFileName "a.ts") output.toList = some other ∧
      other.spelledTokens = [(.identifier, some ['f']), (.openParen, some ['(']),
        (.identifier, some ['a']), (.closeParen, some [')']), (.semicolon, some [';'])] ∧
      other.tree.shape = file.tree.shape ∧ other.errors.map (·.problem) = [] := by
  have heval : (SourceFile.read? (.ofFileName "a.ts") "f(\n  a);\n".toList).map (fun file =>
      (file.spelledTokens, file.errors, SourceFile.isIntact (.ofFileName "a.ts")
        "f(\n  a);\n".toList (blankLines "f(\n  a);\n" file [⟨0, 1⟩, ⟨5, 2⟩]))) =
      some ([(.identifier, some ['f']), (.openParen, some ['(']), (.identifier, some ['a']),
        (.closeParen, some [')']), (.semicolon, some [';'])], [], true) := by
    decide +kernel
  obtain ⟨file, hread, hfile⟩ := Option.map_eq_some_iff.1 heval
  simp only [Prod.mk.injEq] at hfile
  obtain ⟨hspelled, hclean, hintact⟩ := hfile
  obtain ⟨output, other, hannotate, hother, htokens, hshape, hproblems⟩ :=
    spelledTokens_annotate? hread hintact
  refine ⟨file, output, other, hread, hannotate, hother, htokens.trans hspelled, hshape, ?_⟩
  rw [hproblems, hclean, List.map_nil]

end Offset

end ExpectError
