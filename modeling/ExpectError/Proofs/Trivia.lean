import ExpectError.Proofs.Spans

/-!
# What stands between two tokens

Between two tokens there are blanks, line breaks and comments. A comment to the end of a line stops in
front of the line break; any other comment stops behind its first closing mark. The end of the text
closes a comment too. At the start of a text a line that begins with `#!` counts as a comment.

* `IsTrivia`: blanks and comments, whatever reads them;
* `Separated`: between two offsets of a text there is nothing else;
* `separated_toToken`: this is what the scanner moves over;
* `Scanner.Closed`: the end of the file is found only at the end of the text.
-/

namespace ExpectError

open Text Cursor

/-! ### Blanks and comments -/

/-- The characters `body` are all that is left of a line, in front of the characters `cs`. -/
def IsRestOfLine (body cs : List Char) : Prop :=
  (∀ c ∈ body, isLineBreak c = false) ∧ ∀ c ∈ cs.head?, isLineBreak c = true

/-- Blanks, line breaks and comments, behind which a text goes on with `rest`. -/
inductive IsTrivia (rest : List Char) : List Char → Prop where
  | nil : IsTrivia rest []
  | blank {c : Char} {cs : List Char} (hc : isGap c = true ∨ isLineBreak c = true)
    (h : IsTrivia rest cs) : IsTrivia rest (c :: cs)
  | lineComment {body cs : List Char} (hbody : IsRestOfLine body (cs ++ rest))
    (h : IsTrivia rest cs) : IsTrivia rest ('/' :: '/' :: (body ++ cs))
  | blockComment {body cs : List Char} (hbody : ¬ ['*', '/'] <:+: body) (h : IsTrivia rest cs) :
    IsTrivia rest ('/' :: '*' :: (body ++ '*' :: '/' :: cs))
  | openComment {body : List Char} (hbody : ¬ ['*', '/'] <:+: body) (hrest : rest = []) :
    IsTrivia rest ('/' :: '*' :: body)

/-- Between the characters `before` and `rest` of a text, the characters `gap` are blanks, line breaks
and comments, behind a line that begins with `#!` if there is one at the start of the text. -/
def IsSeparator (before gap rest : List Char) : Prop :=
  IsTrivia rest gap ∨
    before = [] ∧ ∃ body cs, gap = '#' :: '!' :: (body ++ cs) ∧ IsRestOfLine body (cs ++ rest) ∧
      IsTrivia rest cs

/-- Between two offsets of a text there are only blanks, line breaks and comments. -/
def Separated (text : List Char) (start stop : ℕ) : Prop :=
  ∃ before gap rest, text = before ++ (gap ++ rest) ∧ byteLength before = start ∧
    byteLength (before ++ gap) = stop ∧ IsSeparator before gap rest

variable {text : List Char}

namespace Separated

variable {start stop : ℕ}

theorem le (h : Separated text start stop) : start ≤ stop := by
  obtain ⟨before, gap, rest, -, rfl, rfl, -⟩ := h
  rw [byteLength_append]
  exact Nat.le_add_right _ _

theorem isBoundary_start (h : Separated text start stop) : IsBoundary text start := by
  obtain ⟨before, gap, rest, rfl, hstart, -, -⟩ := h
  exact ⟨before, gap ++ rest, rfl, hstart⟩

theorem isBoundary_stop (h : Separated text start stop) : IsBoundary text stop := by
  obtain ⟨before, gap, rest, rfl, -, hstop, -⟩ := h
  exact ⟨before ++ gap, rest, (List.append_assoc before gap rest).symm, hstop⟩

/-- There need be nothing between two tokens. -/
theorem of_isBoundary (h : IsBoundary text start) : Separated text start start := by
  obtain ⟨before, rest, rfl, rfl⟩ := h
  exact ⟨before, [], rest, rfl, rfl, by rw [List.append_nil], Or.inl .nil⟩

end Separated

/-! ### The scanner -/

/-- What is moved over, be it from a place between two tokens or from within a comment. -/
def IsTriviaFrom (rest : List Char) : Trivia → List Char → Prop
  | .blank, gap => IsTrivia rest gap
  | .lineComment, gap =>
    ∃ body cs, gap = body ++ cs ∧ IsRestOfLine body (cs ++ rest) ∧ IsTrivia rest cs
  | .blockComment, gap =>
    (∃ body cs, gap = body ++ '*' :: '/' :: cs ∧ ¬ ['*', '/'] <:+: body ∧ IsTrivia rest cs) ∨
      ¬ ['*', '/'] <:+: gap ∧ rest = []

/-- There is no closing mark with one more character in front, unless it begins with this one. -/
theorem not_infix_cons {c : Char} {body : List Char} (hbody : ¬ ['*', '/'] <:+: body)
    (hc : ∀ ds, c = '*' → body = '/' :: ds → False) : ¬ ['*', '/'] <:+: c :: body := by
  rw [List.infix_cons_iff, not_or]
  refine ⟨?_, hbody⟩
  rintro ⟨ds, hds⟩
  obtain ⟨rfl, rfl⟩ : '*' = c ∧ '/' :: ds = body := by simpa using hds
  exact hc ds rfl rfl

theorem exists_skipTrivia (trivia : Trivia) (broken : Bool) (pos : ℕ) (cs : List Char) :
    ∃ gap, cs = gap ++ (skipTrivia trivia broken pos cs).1.rest ∧
      IsTriviaFrom (skipTrivia trivia broken pos cs).1.rest trivia gap := by
  fun_induction skipTrivia trivia broken pos cs with
  | case1 trivia =>
    refine ⟨[], rfl, ?_⟩
    cases trivia with
    | blank => exact .nil
    | lineComment => exact ⟨[], [], rfl, ⟨by simp, by simp⟩, .nil⟩
    | blockComment => exact Or.inr ⟨by simp, rfl⟩
  -- a line comment: its end, then any other character
  | case2 broken pos c cs hc ih =>
    obtain ⟨gap, hcs, hgap⟩ := ih
    exact ⟨c :: gap, by rw [List.cons_append, ← hcs], [], c :: gap, rfl, ⟨by simp, by simpa using hc⟩,
      .blank (Or.inr hc) hgap⟩
  | case3 broken pos c cs hc ih =>
    obtain ⟨gap, hcs, body, ds, rfl, ⟨hbody, hend⟩, hds⟩ := ih
    refine ⟨c :: (body ++ ds), by rw [List.cons_append, ← hcs], c :: body, ds, rfl,
      ⟨List.forall_mem_cons.2 ⟨by simpa using hc, hbody⟩, hend⟩, hds⟩
  -- a block comment: its closing mark, then any other character
  | case4 broken pos cs ih =>
    obtain ⟨gap, hcs, hgap⟩ := ih
    exact ⟨'*' :: '/' :: gap, by rw [List.cons_append, List.cons_append, ← hcs],
      Or.inl ⟨[], gap, rfl, by simp, hgap⟩⟩
  | case5 broken pos c cs hc ih =>
    obtain ⟨gap, hcs, hgap⟩ := ih
    refine ⟨c :: gap, by rw [List.cons_append, ← hcs], ?_⟩
    rcases hgap with ⟨body, ds, rfl, hbody, hds⟩ | ⟨hbody, hrest⟩
    · refine Or.inl ⟨c :: body, ds, rfl, not_infix_cons hbody fun es hstar heq => ?_, hds⟩
      exact hc _ hstar (by rw [hcs, heq]; rfl)
    · refine Or.inr ⟨not_infix_cons hbody fun es hstar heq => ?_, hrest⟩
      exact hc _ hstar (by rw [hcs, heq]; rfl)
  -- between comments: the two opening marks, a line break, a blank, anything else
  | case6 broken pos cs ih =>
    obtain ⟨gap, hcs, body, ds, rfl, hbody, hds⟩ := ih
    exact ⟨'/' :: '/' :: (body ++ ds), by rw [List.cons_append, List.cons_append, ← hcs],
      .lineComment hbody hds⟩
  | case7 broken pos cs ih =>
    obtain ⟨gap, hcs, hgap⟩ := ih
    refine ⟨'/' :: '*' :: gap, by rw [List.cons_append, List.cons_append, ← hcs], ?_⟩
    rcases hgap with ⟨body, ds, rfl, hbody, hds⟩ | ⟨hbody, hrest⟩
    · exact .blockComment hbody hds
    · exact .openComment hbody hrest
  | case8 broken pos c cs _ _ hc ih =>
    obtain ⟨gap, hcs, hgap⟩ := ih
    exact ⟨c :: gap, by rw [List.cons_append, ← hcs], .blank (Or.inr hc) hgap⟩
  | case9 broken pos c cs _ _ _ hc ih =>
    obtain ⟨gap, hcs, hgap⟩ := ih
    exact ⟨c :: gap, by rw [List.cons_append, ← hcs], .blank (Or.inl hc) hgap⟩
  | case10 => exact ⟨[], rfl, .nil⟩

theorem exists_toToken (c : Cursor) :
    ∃ gap, c.rest = gap ++ c.toToken.1.rest ∧ (IsTrivia c.toToken.1.rest gap ∨
      c.pos = 0 ∧ ∃ body cs, gap = '#' :: '!' :: (body ++ cs) ∧
        IsRestOfLine body (cs ++ c.toToken.1.rest) ∧ IsTrivia c.toToken.1.rest cs) := by
  unfold toToken
  split
  next cs hpos hrest =>
    obtain ⟨_, hcs, body, ds, rfl, hbody, hds⟩ := exists_skipTrivia .lineComment false 2 cs
    exact ⟨'#' :: '!' :: (body ++ ds),
      by rw [hrest, List.cons_append, List.cons_append, ← hcs],
      Or.inr ⟨hpos, body, ds, rfl, hbody, hds⟩⟩
  next =>
    obtain ⟨gap, hcs, hgap⟩ := exists_skipTrivia .blank false c.pos c.rest
    exact ⟨gap, hcs, Or.inl hgap⟩

/-- On the way to the next token the scanner moves over blanks, line breaks and comments only. -/
theorem separated_toToken {c : Cursor} (h : (Cursor.ofText text).Ahead c) :
    Separated text c.pos c.toToken.1.pos := by
  obtain ⟨before, htext, hpos⟩ := h
  obtain ⟨passed, hpassed, hstop⟩ := ahead_toToken c
  obtain ⟨gap, hrest, hgap⟩ := exists_toToken c
  obtain rfl : passed = gap := List.append_cancel_right (hpassed.symm.trans hrest)
  have hlength : byteLength before = c.pos := by simpa [Cursor.ofText] using hpos.symm
  refine ⟨before, passed, c.toToken.1.rest, hrest ▸ htext, hlength, ?_, ?_⟩
  · rw [byteLength_append, hlength, hstop]
  · exact hgap.imp_right (And.imp_left fun hzero => byteLength_eq_zero.1 (hlength.trans hzero))

theorem IsTrivia.rest_eq_nil {rest gap : List Char} (h : IsTrivia rest gap)
    (hrest : ∀ c ∈ rest.head?, isLineBreak c = false) (hlast : gap.getLast? = some '*') :
    rest = [] := by
  -- what stands in front of the last character does not matter
  have hbehind (front : List Char) {cs : List Char} (hne : cs ≠ [])
      (h : (front ++ cs).getLast? = some '*') : cs.getLast? = some '*' := by
    rwa [List.getLast?_append_of_ne_nil _ hne] at h
  induction h with
  | nil => cases hlast
  | @blank c cs hc h ih =>
    cases cs with
    | nil =>
      obtain rfl : c = '*' := by simpa using hlast
      rcases hc with hc | hc <;> cases hc
    | cons d cs => exact ih (hbehind [c] (by simp) hlast)
  | @lineComment body cs hbody h ih =>
    cases cs with
    | nil =>
      -- a line comment ends in front of a line break or with the text
      cases rest with
      | nil => rfl
      | cons d rest =>
        have hbreak := hbody.2 d rfl
        rw [hrest d rfl] at hbreak
        cases hbreak
    | cons d cs => exact ih (hbehind ('/' :: '/' :: body) (by simp) hlast)
  | @blockComment body cs hbody h ih =>
    cases cs with
    | nil => simp [List.getLast?_cons] at hlast
    | cons d cs =>
      refine ih (hbehind ('/' :: '*' :: (body ++ ['*', '/'])) (by simp) ?_)
      simpa using hlast
  | openComment hbody hnil => exact hnil

/-- Directly in front of a token there is no `*` that belongs to the trivia; only a comment that the
text breaks off can end like this. -/
theorem rest_toToken_eq_nil {c : Cursor} {front : List Char}
    (h : c.rest = front ++ '*' :: c.toToken.1.rest) : c.toToken.1.rest = [] := by
  obtain ⟨gap, hrest, hgap⟩ := exists_toToken c
  have hrest' : ∀ x ∈ c.toToken.1.rest.head?, isLineBreak x = false := fun x hx =>
    (c.head?_toToken x hx).2
  have hlast : gap = front ++ ['*'] :=
    List.append_cancel_right (hrest.symm.trans (h.trans (List.append_cons ..)))
  rcases hgap with htrivia | ⟨-, body, cs, hbang, hbody, htrivia⟩
  · exact htrivia.rest_eq_nil hrest' (by simp [hlast])
  -- a first line with `#!` ends like a line comment
  · have hgap : ('#' :: '!' :: (body ++ cs)).getLast? = some '*' := by
      rw [← hbang, hlast]
      simp
    refine (IsTrivia.lineComment hbody htrivia).rest_eq_nil hrest' ?_
    cases hline : body ++ cs with
    | nil => simp [hline] at hgap
    | cons => simpa [hline] using hgap

/-! ### The end of the file -/

namespace Lexeme

variable {c : Cursor}

theorem ne_endOfFile_of_mem_marks : ∀ mark ∈ marks, mark.2 ≠ .endOfFile := by
  decide

theorem ne_endOfFile_of_mem_keywords :
    ∀ keyword ∈ TokenKind.keywords, keyword.2 ≠ .endOfFile := by
  decide

theorem kind_readMark_ne {k : TokenKind} (hmarks : ∀ mark ∈ marks, mark.2 ≠ k) (hk : k ≠ .unknown)
    (hne : c.rest ≠ []) : (readMark c).kind ≠ k := by
  unfold readMark
  split
  next hempty => exact absurd (List.isEmpty_iff.1 hempty) hne
  next =>
    split
    next hmark => exact hmarks _ (List.mem_of_find?_eq_some hmark)
    next => exact hk.symm

theorem kind_readIdentifier_ne {k : TokenKind}
    (hkeywords : ∀ keyword ∈ TokenKind.keywords, keyword.2 ≠ k) (hk : k ≠ .unknown)
    (hidentifier : k ≠ .identifier) : (readIdentifier c).kind ≠ k := by
  have hword (word : String) : (TokenKind.ofKeyword? word).getD .identifier ≠ k := by
    cases hkeyword : TokenKind.ofKeyword? word with
    | none => exact hidentifier.symm
    | some kind =>
      obtain ⟨before, after, hsplit, -⟩ := List.lookup_eq_some_iff.1 hkeyword
      exact hkeywords (word, kind) (by rw [hsplit]; simp)
  unfold readIdentifier
  split
  · split
    · exact hword _
    · exact hk.symm
  · exact hk.symm
  · exact hword _

theorem kind_readHash_ne {k : TokenKind} (hmarks : ∀ mark ∈ marks, mark.2 ≠ k) (hk : k ≠ .unknown)
    (hprivate : k ≠ .privateIdentifier) (hne : c.rest ≠ []) : (readHash c).kind ≠ k := by
  unfold readHash
  split
  · split
    · exact hprivate.symm
    · exact kind_readMark_ne hmarks hk hne
  · exact kind_readMark_ne hmarks hk hne

theorem kind_read_ne (hne : c.rest ≠ []) : (read c).kind ≠ .endOfFile := by
  have hnumber : (readNumber c).kind ≠ .endOfFile := by
    unfold readNumber
    dsimp only
    split <;> simp
  unfold read
  split
  next hnil => exact absurd hnil hne
  next x cs hrest =>
    split_ifs
    · exact kind_readIdentifier_ne ne_endOfFile_of_mem_keywords (by decide) (by decide)
    · exact hnumber
    · simp [readString]
    · exact kind_readTemplateHead_ne (by decide) (by decide) _
    · exact hnumber
    · exact kind_readHash_ne ne_endOfFile_of_mem_marks (by decide) (by decide) hne
    · exact kind_readMark_ne ne_endOfFile_of_mem_marks (by decide) hne

theorem kind_readAttributeValue_ne (hne : c.rest ≠ []) :
    (readAttributeValue c).kind ≠ .endOfFile := by
  unfold readAttributeValue
  split
  · split_ifs
    · simp
    · exact kind_read_ne hne
  · exact kind_read_ne hne

theorem kind_readMarkup_ne (hne : c.rest ≠ []) : (readMarkup c).kind ≠ .endOfFile := by
  unfold readMarkup
  split <;> simp_all

end Lexeme

/-- The end of the file is found at the end of the text. -/
def Scanner.Closed (s : Scanner) : Prop :=
  s.kind = .endOfFile → s.start.rest = []

namespace Grammar

theorem Scan.closed_apply (scan : Scan) (scanner : Scanner) : (scan.apply scanner).Closed := by
  intro hkind
  by_contra hne
  cases scan with
  | code => exact Lexeme.kind_read_ne hne hkind
  | attributeValue => exact Lexeme.kind_readAttributeValue_ne hne hkind
  | markup => exact Lexeme.kind_readMarkup_ne hne hkind

theorem Rescan.closed_apply (scan : Rescan) {scanner : Scanner} (hsound : scanner.Sound text)
    (h : scanner.Closed) : (scan.apply scanner).Closed := by
  have hsame := State.sameStart_rescan scan hsound
  intro hkind
  by_cases hend : scanner.kind = .endOfFile
  · rw [hsame.eq_of_end hend]
    exact h hend
  · exact absurd hkind (hsame.lt hend).1

/-- Behind the token at hand there is only what separates it from the next one. -/
theorem Scan.separated_apply (scan : Scan) {scanner : Scanner} (hsound : scanner.Sound text) :
    Separated text scanner.stop.pos (scan.apply scanner).start.pos := by
  cases scan with
  | code | attributeValue => exact separated_toToken hsound.reached_stop
  | markup => exact .of_isBoundary hsound.reached_stop.isBoundary

end Grammar

end ExpectError
