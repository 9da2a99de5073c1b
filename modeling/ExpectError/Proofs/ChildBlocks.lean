import ExpectError.Proofs.BlockTokens
import ExpectError.Proofs.Equations
import ExpectError.Proofs.SpacedReading

/-!
# Blocks between tags

Between the tags of an element a block is an expression in braces that holds nothing but a comment,
and a run of blank text. However many blocks stand in front of a child, the reader of children gets
over them without an error and comes to the child; text of the child goes on from the blanks of the
last block.

* `run_childExpression`, `run_markupChild_text`: empty braces and text among the children;
* `ReadsChildren`: the reader of children gets from one state to another;
* `exists_run_block`, `exists_repeatRun_blocks`: what becomes of blocks in front of a child.
-/

namespace ExpectError

open Text

/-! ### A comment in braces -/

/-- A block comment without asterisks and line breaks in it. -/
theorem Cursor.skipTrivia_blockComment {words : List Char}
    (hwords : ∀ c ∈ words, isPlain c = true) (broken : Bool) (pos : ℕ) (rest : List Char) :
    skipTrivia .blockComment broken pos (words ++ '*' :: '/' :: rest) =
      skipTrivia .blank broken (pos + byteLength words + 2) rest := by
  induction words generalizing pos with
  | nil => simp [skipTrivia_blockComment_cons]
  | cons c words ih =>
    obtain ⟨hc, hwords⟩ := List.forall_mem_cons.1 hwords
    have hstar : c ≠ '*' := ne_of_isPlain hc (by decide)
    rw [List.cons_append, skipTrivia_blockComment_cons, if_neg fun h => hstar h.1,
      isLineBreak_of_isPlain hc, Bool.or_false, ih hwords, byteLength_cons, Nat.add_assoc pos]

/-- Behind an opening brace and a comment, the closing brace is the next token. -/
theorem Scanner.next_of_comment {s : Scanner} {words rest : List Char}
    (hwords : ∀ c ∈ words, isPlain c = true) (hpos : s.stop.pos ≠ 0)
    (hrest : s.stop.rest = '/' :: '*' :: (words ++ '*' :: '/' :: '}' :: rest)) :
    s.next.kind = .closeBrace ∧
      s.next.start.pos = s.stop.pos + byteLength words + 4 ∧
      s.next.stop = { pos := s.stop.pos + byteLength words + 5, rest } := by
  have htoken : s.stop.toToken =
      ({ pos := s.stop.pos + byteLength words + 4, rest := '}' :: rest }, false) := by
    rw [Cursor.toToken_eq fun h => hpos h.1, hrest, Cursor.skipTrivia_blank_cons, if_neg (by simp),
      if_pos (by simp), List.tail_cons, Cursor.skipTrivia_blockComment hwords,
      Cursor.skipTrivia_blank_cons]
    rw [if_neg (by simp), if_neg (by simp), if_neg (by decide), if_neg (by decide),
      Prod.mk.injEq, Cursor.mk.injEq]
    exact ⟨⟨by omega, rfl⟩, rfl⟩
  have hread := Lexeme.read_closeBrace (s.stop.pos + byteLength words + 4) rest
  rw [Scanner.next, Scanner.advance, htoken]
  simp only [hread]
  exact ⟨trivial, trivial, trivial⟩

theorem Cursor.skipWhile_append {p : Char → Bool} {word : List Char} (hword : ∀ c ∈ word, p c = true)
    (pos : ℕ) (rest : List Char) : skipWhile p { pos, rest := word ++ rest } =
      skipWhile p { pos := pos + byteLength word, rest } := by
  induction word generalizing pos with
  | nil => rfl
  | cons c word ih =>
    obtain ⟨hc, hword⟩ := List.forall_mem_cons.1 hword
    have hstep : skipWhile p { pos, rest := c :: (word ++ rest) } =
        skipWhile p { pos := pos + c.utf8Size, rest := word ++ rest } := by
      simp [skipWhile, skipRun, hc]
    rw [List.cons_append, hstep, ih hword, byteLength_cons, Nat.add_assoc]

/-- Text between tags that begins with blanks. -/
theorem Scanner.nextMarkup_of_blanks {s : Scanner} {indent rest : List Char}
    (hindent : ∀ c ∈ indent, isIndent c = true) (hrest : s.stop.rest = '\n' :: (indent ++ rest)) :
    s.nextMarkup.kind = .jsxText ∧ s.nextMarkup.stop =
      Cursor.skipWhile (fun c => c ≠ '{' && c ≠ '<')
        { pos := s.stop.pos + byteLength ('\n' :: indent), rest } := by
  have hblanks : ∀ c ∈ '\n' :: indent, (decide (c ≠ '{') && decide (c ≠ '<')) = true := by
    refine List.forall_mem_cons.2 ⟨rfl, fun c hc => ?_⟩
    have hc := hindent c hc
    simp only [isIndent, Bool.or_eq_true, decide_eq_true_eq] at hc
    rcases hc with rfl | rfl <;> rfl
  have hread := Lexeme.readMarkup_cons s.stop.pos '\n' (indent ++ rest)
  rw [if_neg (by decide), if_neg (by decide), ← List.cons_append,
    Cursor.skipWhile_append hblanks] at hread
  have hcursor : s.stop = { pos := s.stop.pos, rest := '\n' :: indent ++ rest } :=
    congrArg (Cursor.mk s.stop.pos) hrest
  rw [← hcursor] at hread
  simp only [nextMarkup, hread]
  exact ⟨trivial, trivial⟩

namespace Grammar

variable {rules : Rules} {context : Context} {s t u : State}

/-! ### Children -/

theorem run_childExpression (h : (s.openScope.advance .code).scanner.kind = .closeBrace) :
    childExpression.run rules context s = some ((),
      (((s.openScope.advance .code).advance .markup).wrap .jsxExpression).closeScope s) := by
  simp [childExpression, node, scope, wrap, advance, optionally, opposite, isAt, kind,
    closingBrace, Reader.run, bind, pure, Question.answer, h]

theorem run_markupChild_openBrace (hkind : s.scanner.kind = .openBrace)
    (h : (s.openScope.advance .code).scanner.kind = .closeBrace) :
    markupChild.run rules context s = some (true,
      (((s.openScope.advance .code).advance .markup).wrap .jsxExpression).closeScope s) := by
  have hrun : childExpression.run rules context s = _ := run_childExpression h
  simp [markupChild, kind, Reader.run, bind, pure, Question.answer, hkind, hrun]

theorem run_markupChild_text (h : s.scanner.kind = .jsxText) :
    markupChild.run rules context s =
      some (true, (s.addPiece (s.leafHere (.token .jsxText))).advance .markup) := by
  simp [markupChild, kind, Reader.run, bind, pure, Question.answer, h]

/-- The reader of children gets from one state to another, child by child. -/
def ReadsChildren (rules : Rules) (context : Context) : State → State → Prop :=
  Relation.ReflTransGen fun s t => markupChild.run rules context s = some (true, t)

/-- One block is read as an expression without anything in it, and then blank text is at hand. -/
theorem exists_run_block {scanner : Scanner} {block rest : List Char} (hblock : IsBlock block)
    (hscanner : s.scanner = scanner.nextMarkup) (hrest : scanner.stop.rest = block ++ rest) :
    ∃ t, markupChild.run rules context s = some (true, t) ∧ t.errors = s.errors ∧
      t.pieces.map Tree.shape = .node .jsxExpression 0 0 [] :: s.pieces.map Tree.shape ∧
      t.scanner.kind = .jsxText ∧
      t.scanner.stop = Cursor.skipWhile (fun c => c ≠ '{' && c ≠ '<')
        { pos := scanner.stop.pos + byteLength block, rest } := by
  obtain ⟨inner, indent, hinner, hindent, rfl⟩ := hblock
  generalize hcursor : scanner.stop = cursor at hrest ⊢
  obtain ⟨pos, cs⟩ := cursor
  obtain rfl : cs = _ := hrest
  have hsize : '{'.utf8Size = 1 ∧ '/'.utf8Size = 1 ∧ '*'.utf8Size = 1 ∧ '}'.utf8Size = 1 :=
    ⟨rfl, rfl, rfl, rfl⟩
  -- the opening brace is the token at hand
  have hopen : s.scanner.kind = .openBrace ∧ s.scanner.stop =
      { pos := pos + 1
        rest := '/' :: '*' :: (inner ++ '*' :: '/' :: '}' :: '\n' :: (indent ++ rest)) } := by
    simp [hscanner, Scanner.nextMarkup, hcursor, Lexeme.readMarkup, Cursor.skip, hsize.1]
  obtain ⟨hkind, hstop⟩ := hopen
  -- behind the comment stands the closing brace, and behind that the blanks
  obtain ⟨hclose, -, hbehind⟩ := Scanner.next_of_comment (s := s.scanner) hinner
    (by rw [hstop]; simp) (by rw [hstop])
  obtain ⟨htext, hend⟩ := Scanner.nextMarkup_of_blanks (s := s.scanner.next) hindent (by rw [hbehind])
  refine ⟨_, run_markupChild_openBrace hkind hclose, ?_, ?_, htext, ?_⟩
  · simp [State.closeScope, State.wrap, State.advance, State.openScope]
  · simp [State.closeScope, State.wrap, State.openScope, Tree.shape_node]
  · have hpos : s.scanner.next.stop.pos + byteLength ('\n' :: indent) = pos +
        byteLength ('{' :: '/' :: '*' :: (inner ++ '*' :: '/' :: '}' :: '\n' :: indent)) := by
      rw [hbehind, hstop]
      simp only [byteLength_cons, byteLength_append, hsize]
      omega
    rw [← hpos]
    exact hend

/-- The trees of some blocks. -/
def blockTrees (n : ℕ) : List Tree :=
  (List.replicate n [.node .jsxExpression 0 0 [], .leaf (.token .jsxText) 0 0]).flatten

theorem blockTrees_succ (n : ℕ) : blockTrees (n + 1) =
    .node .jsxExpression 0 0 [] :: .leaf (.token .jsxText) 0 0 :: blockTrees n := rfl

/-- In front of a child, any number of blocks are read without an error as an expression without
anything in it and a run of blank text each. The last run of text is at hand then: it ends in front of
the child, unless the child is a text, and then it ends with it. -/
theorem exists_repeatRun_blocks {scanner : Scanner} {block rest : List Char}
    {blocks : List (List Char)} (hblocks : ∀ word ∈ block :: blocks, IsBlock word)
    (hscanner : s.scanner = scanner.nextMarkup)
    (hrest : scanner.stop.rest = (block :: blocks).flatten ++ rest) :
    ∃ t, (∀ k, repeatRun rules markupChild (k + (2 * blocks.length + 1)) context s =
        repeatRun rules markupChild k context t) ∧
      t.errors = s.errors ∧
      .leaf (.token .jsxText) 0 0 :: t.pieces.map Tree.shape =
        (blockTrees (blocks.length + 1)).reverse ++ s.pieces.map Tree.shape ∧
      t.scanner.kind = .jsxText ∧
      t.scanner.stop = Cursor.skipWhile (fun c => c ≠ '{' && c ≠ '<')
        { pos := scanner.stop.pos + byteLength (block :: blocks).flatten, rest } := by
  induction blocks generalizing block s scanner with
  | nil =>
    rw [List.flatten_singleton] at hrest ⊢
    obtain ⟨t, hrun, herrors, hpieces, hkind, hstop⟩ :=
      exists_run_block (hblocks block List.mem_cons_self) hscanner hrest
    refine ⟨t, fun k => ?_, herrors, ?_, hkind, hstop⟩
    · rw [List.length_nil, repeatRun_succ, hrun]
      rfl
    · rw [hpieces]
      rfl
  | cons next blocks ih =>
    obtain ⟨hblock, hnext⟩ := List.forall_mem_cons.1 hblocks
    rw [List.flatten_cons, List.append_assoc] at hrest
    obtain ⟨t, hrun, herrors, hpieces, hkind, hstop⟩ := exists_run_block hblock hscanner hrest
    -- the next block begins with a brace, so the text ends in front of it
    have hbrace : ((next :: blocks).flatten ++ rest).head?.any (fun c => c ≠ '{' && c ≠ '<') =
        false := by
      obtain ⟨inner, indent, -, -, rfl⟩ := hnext next List.mem_cons_self
      rfl
    rw [Cursor.skipWhile_eq_self hbrace] at hstop
    have hrest' : t.scanner.stop.rest = (next :: blocks).flatten ++ rest := by rw [hstop]
    obtain ⟨u, hruns, herrors', hpieces', hkind', hstop'⟩ :=
      ih (s := (t.addPiece (t.leafHere (.token .jsxText))).advance .markup) hnext rfl hrest'
    refine ⟨u, fun k => ?_, ?_, ?_, hkind', ?_⟩
    · rw [List.length_cons, show k + (2 * (blocks.length + 1) + 1) =
        k + (2 * blocks.length + 1) + 1 + 1 by omega, repeatRun_succ, hrun]
      show repeatRun rules markupChild (k + (2 * blocks.length + 1) + 1) context t = _
      rw [repeatRun_succ, run_markupChild_text hkind]
      exact hruns k
    · rw [herrors', ← herrors]
      simp [State.advance, State.addPiece]
    · rw [hpieces', List.length_cons, blockTrees_succ (blocks.length + 1)]
      simp [State.addPiece, State.leafHere, hpieces, Tree.leaf, Tree.shape_node]
    · have hpos : (t.addPiece (t.leafHere (.token .jsxText))).scanner.stop.pos =
          scanner.stop.pos + byteLength block := congrArg Cursor.pos hstop
      rw [hstop', hpos, List.flatten_cons (l := block), byteLength_append, Nat.add_assoc]

end Grammar

end ExpectError
