import ExpectError.Proofs.Comments

/-!
# Tokens of texts with and without line comments

What the cursors of two texts have in common, the tokens read at them have too: a text with line
comments and the text with blanks in their place give the same tokens, at the same offsets. Only a
regular expression may stretch over a comment in one of them and end at the comment's first slash in
the other, and a mark directly in front of a comment may take that slash.

* `Lexeme.fits_read`, `Lexeme.fits_readMarkup`: one token;
* `Scanner.Fits`: two scanners on the same token, and how they move on together;
* `Scanner.IsOtherTrivia`, `Scanner.IsOtherTag`: marks that take the slash of a comment;
* `Scanner.Fits.rescanSlash`: regular expressions.
-/

namespace ExpectError

open Text Cursor

namespace Lexeme

/-- Two tokens of the same kind whose ends fit. -/
structure Fits (l l' : Lexeme) : Prop where
  kind_eq : l.kind = l'.kind
  next : l.next.Fits l'.next
  unterminated_eq : l.unterminated = l'.unterminated

/-! ### Marks -/

/-- Behind its first character, no mark has a blank or a slash. -/
theorem ne_of_mem_marks : ∀ mark ∈ marks, ∀ c ∈ mark.1.toList.tail, c ≠ ' ' ∧ c ≠ '/' := by
  have hall : marks.all (fun mark => mark.1.toList.tail.all fun c => c != ' ' && c != '/') = true := by
    decide
  simpa only [List.all_eq_true, Bool.and_eq_true, bne_iff_ne] using hall

theorem isPrefixOf_commented {word xs ys : List Char} (hword : ∀ c ∈ word, c ≠ ' ' ∧ c ≠ '/')
    (h : Commented false xs ys) : word.isPrefixOf xs = word.isPrefixOf ys := by
  induction word generalizing xs ys with
  | nil => rw [List.isPrefixOf_nil_left, List.isPrefixOf_nil_left]
  | cons c word ih =>
    obtain ⟨hc, hword⟩ := List.forall_mem_cons.1 hword
    cases h with
    | nil => rfl
    | char h => rw [List.isPrefixOf, List.isPrefixOf, ih hword h]
    | opening =>
      rw [List.isPrefixOf, List.isPrefixOf, beq_eq_false_iff_ne.2 hc.1, beq_eq_false_iff_ne.2 hc.2]
      rfl

/-- Over a word that both texts begin with. -/
theorem fits_skip_word {word : List Char} (hword : ∀ c ∈ word, c ≠ ' ' ∧ c ≠ '/') {c d : Cursor}
    (h : c.Fits d) (hbegin : word.isPrefixOf c.rest = true) :
    (c.skip word.length).Fits (d.skip word.length) ∧
      Commented false (c.rest.drop word.length) (d.rest.drop word.length) := by
  induction word generalizing c d with
  | nil => exact ⟨h, h.2⟩
  | cons x word ih =>
    obtain ⟨hx, hword⟩ := List.forall_mem_cons.1 hword
    obtain ⟨pos, xs⟩ := c
    obtain ⟨pos', ys⟩ := d
    obtain ⟨rfl, h⟩ : pos = pos' ∧ Commented false xs ys := h
    cases h with
    | nil => simp at hbegin
    | char h =>
      rw [List.isPrefixOf, Bool.and_eq_true] at hbegin
      exact ih hword (.mk' h) hbegin.2
    | opening =>
      rw [List.isPrefixOf, beq_eq_false_iff_ne.2 hx.1] at hbegin
      cases hbegin

theorem head?_any_commented {p : Char → Bool} (hblank : p ' ' = false) (hslash : p '/' = false)
    {xs ys : List Char} (h : Commented false xs ys) : xs.head?.any p = ys.head?.any p := by
  cases h with
  | nil => rfl
  | char => rfl
  | opening => simp [hblank, hslash]

theorem beginsWithMark_commented {mark : String × TokenKind} (hmark : mark ∈ marks) (c : Char)
    {xs ys : List Char} (h : Commented false xs ys) :
    beginsWithMark mark.1 (c :: xs) = beginsWithMark mark.1 (c :: ys) := by
  have hword := ne_of_mem_marks mark hmark
  obtain ⟨d, word, hspelling⟩ : ∃ d word, mark.1.toList = d :: word :=
    List.exists_cons_of_length_pos (length_pos_of_mem_marks mark hmark)
  rw [hspelling, List.tail_cons] at hword
  rw [beginsWithMark, beginsWithMark, hspelling, List.isPrefixOf, List.isPrefixOf,
    ← isPrefixOf_commented hword h]
  cases hbegin : word.isPrefixOf xs with
  | false => simp
  | true =>
    by_cases hquestion : mark.1 = "?."
    · have hlength : word.length = 1 := by
        rw [hquestion] at hspelling
        rw [← List.cons.inj hspelling |>.2]
        rfl
      have hfits : Cursor.Fits { pos := 0, rest := xs } { pos := 0, rest := ys } := ⟨rfl, h⟩
      have hrest := (fits_skip_word hword hfits hbegin).2
      rw [hlength] at hrest
      have hdigit := head?_any_commented (p := Char.isDigit) (by decide) (by decide) hrest
      simp only [List.drop_succ_cons] at hdigit ⊢
      rw [hdigit]
    · simp [hquestion]

theorem fits_readMark {pos : ℕ} (c : Char) {xs ys : List Char} (h : Commented false xs ys) :
    Fits (readMark { pos, rest := c :: xs }) (readMark { pos, rest := c :: ys }) := by
  have hfind : marks.find? (fun mark => beginsWithMark mark.1 (c :: xs)) =
      marks.find? fun mark => beginsWithMark mark.1 (c :: ys) :=
    List.find?_congr fun mark hmark => beginsWithMark_commented hmark c h
  simp only [readMark, List.isEmpty_cons, hfind]
  cases hmark : marks.find? fun mark => beginsWithMark mark.1 (c :: ys) with
  | none => exact ⟨rfl, fits_skip_one h, rfl⟩
  | some mark =>
    have hmem := List.mem_of_find?_eq_some hmark
    have hbegins := List.find?_some (hfind.trans hmark)
    have hword := ne_of_mem_marks mark hmem
    obtain ⟨d, word, hspelling⟩ : ∃ d word, mark.1.toList = d :: word :=
      List.exists_cons_of_length_pos (length_pos_of_mem_marks mark hmem)
    rw [hspelling, List.tail_cons] at hword
    rw [beginsWithMark, hspelling, List.isPrefixOf, Bool.and_eq_true, Bool.and_eq_true] at hbegins
    refine ⟨rfl, ?_, rfl⟩
    dsimp only
    rw [hspelling]
    exact (fits_skip_word hword (fits_skip_one h) hbegins.1.2).1

/-! ### Words -/

/-- Keywords are made of small letters. -/
theorem ofKeyword?_eq_none {word : List Char} {c : Char} (hmem : c ∈ word)
    (hc : c.isLower = false) : TokenKind.ofKeyword? (String.ofList word) = none := by
  have hkeywords : TokenKind.keywords.all (fun keyword => keyword.1.toList.all Char.isLower) =
      true := by
    decide
  rw [TokenKind.ofKeyword?, List.lookup_eq_none_iff]
  intro keyword hkeyword
  rw [bne_iff_ne]
  rintro heq
  have hlower := List.all_eq_true.1 (List.all_eq_true.1 hkeywords keyword hkeyword) c
    (by rwa [← heq, String.toList_ofList])
  rw [hc] at hlower
  cases hlower

theorem fits_readWord {c d : Cursor} (h : c.Fits d) :
    Fits (readIdentifier.read c) (readIdentifier.read d) := by
  have hend : Cursor.Fits (identifierEnd .outside c.pos c.rest)
      (identifierEnd .outside d.pos d.rest) := by
    rw [← h.1]
    exact fits_identifierEnd h.2 (by simp) _
  refine ⟨?_, hend, rfl⟩
  simp only [readIdentifier.read]
  rcases upTo_cases h (identifierEnd .outside c.pos c.rest).pos with heq | ⟨hblank, hslash⟩
  · rw [heq, hend.1]
  · rw [hend.1] at hslash
    rw [ofKeyword?_eq_none hblank (by decide), ofKeyword?_eq_none hslash (by decide)]

theorem readIdentifier_cons (pos : ℕ) (c : Char) (cs : List Char) :
    readIdentifier { pos, rest := c :: cs } =
      if c = '\\' ∧ cs.head? ≠ some 'u' then
        { kind := .unknown, next := skip 1 { pos, rest := c :: cs } }
      else readIdentifier.read { pos, rest := c :: cs } := by
  by_cases hc : c = '\\'
  · subst hc
    cases cs with
    | nil => rfl
    | cons d cs => by_cases hd : d = 'u' <;> simp [readIdentifier, hd]
  · rw [if_neg fun h => hc h.1, readIdentifier]
    split
    next h => exact absurd (List.cons.inj h).1 hc
    next h => exact absurd (List.cons.inj h).1 hc
    next => rfl

theorem fits_readIdentifier {pos : ℕ} (c : Char) {xs ys : List Char} (h : Commented false xs ys) :
    Fits (readIdentifier { pos, rest := c :: xs }) (readIdentifier { pos, rest := c :: ys }) := by
  rw [readIdentifier_cons, readIdentifier_cons]
  simp only [ne_eq, ← h.head?_iff (c := 'u')]
  split_ifs
  · exact ⟨rfl, fits_skip_one h, rfl⟩
  · exact fits_readWord (.mk' (.char h))

/-! ### Numbers -/

/-- A class of characters without blanks, slashes and line breaks. -/
abbrev IsNumeral (p : Char → Bool) : Prop :=
  [' ', '/', '\n', '\r'].all (fun c => !p c) = true

theorem IsNumeral.eq_false {p : Char → Bool} (h : IsNumeral p) (c : Char)
    (hc : c ∈ [' ', '/', '\n', '\r']) : p c = false := by
  simpa using List.all_eq_true.1 h c hc

/-- Places of two texts at which the characters of numbers are the same, and stay the same when one
moves over them. -/
structure AgreeOnNumerals (R : Cursor → Cursor → Prop) : Prop where
  head?_any_eq {p : Char → Bool} {c d : Cursor} :
    IsNumeral p → R c d → c.rest.head?.any p = d.rest.head?.any p
  skip_one {p : Char → Bool} {c d : Cursor} :
    IsNumeral p → R c d → c.rest.head?.any p = true → R (c.skip 1) (d.skip 1)
  skipWhile {p : Char → Bool} {c d : Cursor} :
    IsNumeral p → R c d → R (c.skipWhile p) (d.skipWhile p)

theorem skipExponent_eq (c : Cursor) :
    skipExponent c =
      if c.rest.head?.any (fun e => e = 'e' || e = 'E') then
        if (c.skip 1).rest.head?.any Char.isDigit then skipDigits Char.isDigit (c.skip 1)
        else if (c.skip 1).rest.head?.any (fun sign => sign = '+' || sign = '-') then
          if ((c.skip 1).skip 1).rest.head?.any Char.isDigit then
            skipDigits Char.isDigit ((c.skip 1).skip 1)
          else c
        else c
      else c := by
  obtain ⟨pos, rest⟩ := c
  match rest with
  | [] => rfl
  | [e] => simp [skipExponent, skip]
  | [e, d] =>
    by_cases he : e = 'e' <;> by_cases hE : e = 'E' <;> simp [skipExponent, skip, he, hE]
  | e :: sign :: d :: rest =>
    by_cases he : e = 'e' <;> by_cases hE : e = 'E' <;> by_cases hsign : sign = '+' || sign = '-' <;>
      simp_all [skipExponent, skip]

theorem skipDecimal_eq (c : Cursor) :
    skipDecimal c = skipExponent
      (if (skipDigits Char.isDigit c).rest.head?.any (· = '.') then
        skipDigits Char.isDigit ((skipDigits Char.isDigit c).skip 1)
      else skipDigits Char.isDigit c) := by
  rw [skipDecimal]
  congr 1
  cases h : (skipDigits Char.isDigit c).rest with
  | nil => rfl
  | cons d rest => by_cases hd : d = '.' <;> simp [hd]

theorem skipNumber_eq (c : Cursor) :
    skipNumber c =
      if c.rest.head?.any (· = '0') then
        if (c.skip 1).rest.head?.any (fun x => x = 'x' || x = 'X') then
          skipDigits isHexDigit ((c.skip 1).skip 1)
        else if (c.skip 1).rest.head?.any (fun x => x = 'o' || x = 'O') then
          skipDigits (fun d => '0' ≤ d && d ≤ '7') ((c.skip 1).skip 1)
        else if (c.skip 1).rest.head?.any (fun x => x = 'b' || x = 'B') then
          skipDigits (fun d => d = '0' || d = '1') ((c.skip 1).skip 1)
        else skipDecimal c
      else skipDecimal c := by
  obtain ⟨pos, rest⟩ := c
  match rest with
  | [] => rfl
  | [c] => by_cases hc : c = '0' <;> simp [skipNumber, skip, hc]
  | c :: x :: rest => by_cases hc : c = '0' <;> simp [skipNumber, skip, hc]

theorem readNumber_eq (c : Cursor) :
    readNumber c =
      if (skipNumber c).rest.head?.any (· = 'n') then
        { kind := .bigIntLiteral, next := (skipNumber c).skip 1 }
      else { kind := .numericLiteral, next := skipNumber c } := by
  rw [readNumber]
  cases h : (skipNumber c).rest with
  | nil => rfl
  | cons d rest => by_cases hd : d = 'n' <;> simp [hd]

namespace AgreeOnNumerals

variable {R : Cursor → Cursor → Prop} {c d : Cursor}

theorem skipDigits (hR : AgreeOnNumerals R) {isDigit : Char → Bool}
    (hdigit : IsNumeral fun c => isDigit c || c = '_') (h : R c d) :
    R (Lexeme.skipDigits isDigit c) (Lexeme.skipDigits isDigit d) :=
  hR.skipWhile hdigit h

theorem skipExponent (hR : AgreeOnNumerals R) (h : R c d) :
    R (Lexeme.skipExponent c) (Lexeme.skipExponent d) := by
  rw [skipExponent_eq, skipExponent_eq, ← hR.head?_any_eq (by decide) h]
  split
  next he =>
    have h₁ := hR.skip_one (by decide) h he
    rw [← hR.head?_any_eq (by decide) h₁]
    split
    next => exact hR.skipDigits (by decide) h₁
    next =>
      rw [← hR.head?_any_eq (by decide) h₁]
      split
      next hsign =>
        have h₂ := hR.skip_one (by decide) h₁ hsign
        rw [← hR.head?_any_eq (by decide) h₂]
        split
        next => exact hR.skipDigits (by decide) h₂
        next => exact h
      next => exact h
  next => exact h

theorem skipDecimal (hR : AgreeOnNumerals R) (h : R c d) :
    R (Lexeme.skipDecimal c) (Lexeme.skipDecimal d) := by
  have hwhole : R (Lexeme.skipDigits Char.isDigit c) (Lexeme.skipDigits Char.isDigit d) :=
    hR.skipDigits (by decide) h
  rw [skipDecimal_eq, skipDecimal_eq, ← hR.head?_any_eq (by decide) hwhole]
  refine hR.skipExponent ?_
  split
  next hpoint => exact hR.skipDigits (by decide) (hR.skip_one (by decide) hwhole hpoint)
  next => exact hwhole

theorem skipNumber (hR : AgreeOnNumerals R) (h : R c d) :
    R (Lexeme.skipNumber c) (Lexeme.skipNumber d) := by
  rw [skipNumber_eq, skipNumber_eq, ← hR.head?_any_eq (by decide) h]
  split
  next hzero =>
    have h₁ := hR.skip_one (by decide) h hzero
    rw [← hR.head?_any_eq (by decide) h₁, ← hR.head?_any_eq (by decide) h₁,
      ← hR.head?_any_eq (by decide) h₁]
    split
    next hx => exact hR.skipDigits (by decide) (hR.skip_one (by decide) h₁ hx)
    split
    next ho => exact hR.skipDigits (by decide) (hR.skip_one (by decide) h₁ ho)
    split
    next hb => exact hR.skipDigits (by decide) (hR.skip_one (by decide) h₁ hb)
    next => exact hR.skipDecimal h
  next => exact hR.skipDecimal h

theorem readNumber (hR : AgreeOnNumerals R) (h : R c d) :
    (Lexeme.readNumber c).kind = (Lexeme.readNumber d).kind ∧
      R (Lexeme.readNumber c).next (Lexeme.readNumber d).next ∧
      (Lexeme.readNumber c).unterminated = (Lexeme.readNumber d).unterminated := by
  have hnext := hR.skipNumber h
  rw [readNumber_eq, readNumber_eq, ← hR.head?_any_eq (by decide) hnext]
  split
  next hn => exact ⟨rfl, hR.skip_one (by decide) hnext hn, rfl⟩
  next => exact ⟨rfl, hnext, rfl⟩

end AgreeOnNumerals

theorem fits_skip_one_of_head {c d : Cursor} (h : c.Fits d) {p : Char → Bool}
    (hp : c.rest.head?.any p = true) (hblank : p ' ' = false) : (c.skip 1).Fits (d.skip 1) := by
  obtain ⟨pos, xs⟩ := c
  obtain ⟨pos', ys⟩ := d
  obtain ⟨rfl, h⟩ : pos = pos' ∧ Commented false xs ys := h
  cases h with
  | nil => cases hp
  | char h => exact fits_skip_one h
  | opening => simp [hblank] at hp

/-- A comment is no part of a number. -/
theorem agreeOnNumerals_fits : AgreeOnNumerals Cursor.Fits where
  head?_any_eq hp h :=
    head?_any_commented (hp.eq_false ' ' (by simp)) (hp.eq_false '/' (by simp)) h.2
  skip_one hp h hhead := fits_skip_one_of_head h hhead (hp.eq_false ' ' (by simp))
  skipWhile {p c d} hp h := by
    rw [Cursor.skipWhile, Cursor.skipWhile, ← h.1]
    have hstop := hp.eq_false '/' (by simp)
    exact fits_skipRun_of_stop (hp.eq_false ' ' (by simp)) hstop _ h.2

theorem fits_readNumber {c d : Cursor} (h : c.Fits d) : Fits (readNumber c) (readNumber d) :=
  have hnumber := agreeOnNumerals_fits.readNumber h
  ⟨hnumber.1, hnumber.2.1, hnumber.2.2⟩

/-! ### Literals -/

theorem isPlain_quote {c : Char} (h : (c = '"' || c = '\'') = true) : isPlain c = false := by
  rw [Bool.or_eq_true, decide_eq_true_iff, decide_eq_true_iff] at h
  rcases h with rfl | rfl <;> decide

theorem fits_readString {quote : Char} (hquote : isPlain quote = false) {pos : ℕ} {c : Char}
    {xs ys : List Char} (h : Commented false xs ys) :
    Fits (readString quote { pos, rest := c :: xs }) (readString quote { pos, rest := c :: ys }) :=
  have hend := fitsBroken_stringEnd hquote h (pos + c.utf8Size)
  ⟨rfl, hend.1, hend.2⟩

theorem fits_templateLexeme {inside : Bool} {xs ys : List Char} (h : Commented inside xs ys)
    (closed opened : TokenKind) (pos : ℕ) :
    Fits (templateLexeme closed opened (templateEnd pos xs))
      (templateLexeme closed opened (templateEnd pos ys)) := by
  obtain ⟨hnext, hstop⟩ := fitsStop_templateEnd h pos
  simp only [templateLexeme, hstop]
  exact ⟨rfl, hnext, rfl⟩

theorem fits_readTemplateHead {inside : Bool} {pos : ℕ} {xs ys : List Char}
    (h : Commented inside xs ys) :
    Fits (readTemplateHead { pos, rest := xs }) (readTemplateHead { pos, rest := ys }) := by
  rw [readTemplateHead_eq, readTemplateHead_eq]
  exact fits_templateLexeme h _ _ pos

/-- Behind a first character, which may be that of a comment. -/
theorem fits_readTemplateSpan {c d : Cursor} (h : c.Fits d) :
    Fits (readTemplateSpan (c.skip 1)) (readTemplateSpan (d.skip 1)) := by
  obtain ⟨inside, hpos, hbody⟩ : ∃ inside, (c.skip 1).pos = (d.skip 1).pos ∧
      Commented inside (c.skip 1).rest (d.skip 1).rest := by
    obtain ⟨pos, xs⟩ := c
    obtain ⟨pos', ys⟩ := d
    obtain ⟨rfl, h⟩ : pos = pos' ∧ Commented false xs ys := h
    obtain ⟨rfl, rfl⟩ | ⟨x, y, xs, ys, inside, rfl, rfl, hsize, h'⟩ := h.uncons
    · exact ⟨false, rfl, .nil⟩
    · exact ⟨inside, congrArg (pos + ·) hsize, h'⟩
  rw [readTemplateSpan_eq, readTemplateSpan_eq, ← hpos]
  exact fits_templateLexeme hbody _ _ _

theorem fits_readHash {pos : ℕ} {c : Char} {xs ys : List Char} (h : Commented false xs ys) :
    Fits (readHash { pos, rest := c :: xs }) (readHash { pos, rest := c :: ys }) := by
  have hmark : Fits (readMark { pos, rest := c :: xs }) (readMark { pos, rest := c :: ys }) :=
    fits_readMark c h
  have hname : Fits
      { kind := .privateIdentifier, next := identifierEnd .outside (pos + c.utf8Size) xs }
      { kind := .privateIdentifier, next := identifierEnd .outside (pos + c.utf8Size) ys } :=
    ⟨rfl, fits_identifierEnd h (by simp) _, rfl⟩
  cases h with
  | nil => exact hmark
  | @char d xs ys h =>
    simp only [readHash]
    split
    · exact hname
    · exact hmark
  | opening h => exact hmark

/-! ### Tokens -/

theorem fits_read {c d : Cursor} (h : c.Fits d) (hblank : c.rest.head? ≠ some ' ') :
    Fits (read c) (read d) := by
  obtain ⟨pos, xs⟩ := c
  obtain ⟨pos', ys⟩ := d
  obtain ⟨rfl, h⟩ : pos = pos' ∧ Commented false xs ys := h
  cases h with
  | nil => exact ⟨rfl, .mk' .nil, rfl⟩
  | opening => exact absurd rfl hblank
  | @char c xs ys h =>
    simp only [read]
    rw [← head?_any_commented (by decide) (by decide) h]
    split_ifs with hword hdigit hquote htemplate hpoint hhash
    · exact fits_readIdentifier c h
    · exact fits_readNumber (.mk' (.char h))
    · exact fits_readString (isPlain_quote hquote) h
    · exact fits_readTemplateHead h
    · exact fits_readNumber (.mk' (.char h))
    · exact fits_readHash h
    · exact fits_readMark c h

theorem fits_readAttributeValue {c d : Cursor} (h : c.Fits d) (hblank : c.rest.head? ≠ some ' ') :
    Fits (readAttributeValue c) (readAttributeValue d) := by
  have hread := fits_read h hblank
  obtain ⟨pos, xs⟩ := c
  obtain ⟨pos', ys⟩ := d
  obtain ⟨rfl, h⟩ : pos = pos' ∧ Commented false xs ys := h
  cases h with
  | nil => exact hread
  | opening => exact absurd rfl hblank
  | @char c xs ys h =>
    simp only [readAttributeValue]
    split_ifs with hquote
    · have hend := fitsBroken_attributeStringEnd (isPlain_quote hquote) h (pos + c.utf8Size)
      exact ⟨rfl, hend.1, hend.2⟩
    · exact hread

theorem readMarkup_cons (pos : ℕ) (c : Char) (cs : List Char) :
    readMarkup { pos, rest := c :: cs } =
      if c = '<' then
        if cs.head? = some '/' then
          { kind := .lessThanSlash, next := skip 2 { pos, rest := c :: cs } }
        else { kind := .lessThan, next := skip 1 { pos, rest := c :: cs } }
      else if c = '{' then { kind := .openBrace, next := skip 1 { pos, rest := c :: cs } }
      else
        { kind := .jsxText
          next := skipWhile (fun c => c ≠ '{' && c ≠ '<') { pos, rest := c :: cs } } := by
  by_cases hangle : c = '<'
  · subst hangle
    cases cs with
    | nil => rfl
    | cons d cs => by_cases hd : d = '/' <;> simp [readMarkup, hd]
  · by_cases hbrace : c = '{'
    · subst hbrace
      rfl
    · simp [readMarkup, hangle, hbrace]

/-- A comment directly behind `<` would make it the start of a closing tag. -/
theorem fits_readMarkup {c d : Cursor} (h : c.Fits d)
    (hno : c.rest.head? = some '<' → c.rest.tail.head? = d.rest.tail.head?) :
    Fits (readMarkup c) (readMarkup d) := by
  obtain ⟨pos, xs⟩ := c
  obtain ⟨pos', ys⟩ := d
  obtain ⟨rfl, h⟩ : pos = pos' ∧ Commented false xs ys := h
  have hpass : Cursor.Fits (skipWhile (fun c => c ≠ '{' && c ≠ '<') { pos, rest := xs })
      (skipWhile (fun c => c ≠ '{' && c ≠ '<') { pos, rest := ys }) := by
    refine fits_skipRun_of_pass (fun c hc => ?_) pos h
    simp [ne_of_isPlain (d := '{') hc (by decide), ne_of_isPlain (d := '<') hc (by decide)]
  cases h with
  | nil => exact ⟨rfl, .mk' .nil, rfl⟩
  | opening => exact ⟨rfl, hpass, rfl⟩
  | @char c xs ys h =>
    rw [readMarkup_cons, readMarkup_cons]
    by_cases hangle : c = '<'
    · have hhead : xs.head? = ys.head? := hno (congrArg some hangle)
      rw [← hhead]
      split_ifs with hslash
      · exact ⟨rfl, fits_skip_one_of_head (p := (· = '/')) (fits_skip_one h)
          (by simp [hslash]) (by decide), rfl⟩
      · exact ⟨rfl, fits_skip_one h, rfl⟩
    · simp only [hangle, if_false]
      split_ifs
      · exact ⟨rfl, fits_skip_one h, rfl⟩
      · exact ⟨rfl, hpass, rfl⟩

end Lexeme

namespace Scanner

/-- Two scanners on the same token of two texts. -/
structure Fits (s t : Scanner) : Prop where
  kind_eq : s.kind = t.kind
  fullStart_eq : s.fullStart = t.fullStart
  start : s.start.Fits t.start
  stop : s.stop.Fits t.stop
  lineBreakBefore_eq : s.lineBreakBefore = t.lineBreakBefore
  unterminated_eq : s.unterminated = t.unterminated

variable {s t : Scanner}

/-- At or in front of the start of the next token there is a character with a blank behind it that
makes another mark with the slash that another text has there. -/
def IsOtherTrivia (text : List Char) (s : Scanner) : Prop :=
  ∃ b < s.stop.toToken.1.pos + 1, s.stop.pos ≤ b ∧ ∃ c ∈ ['*', '/'],
    IsMarkAt s.stop.toToken.1.pos b c ∧ slice? b (b + 2) text = some [c, '/'] ∧
      slice? (b - s.stop.pos) (b - s.stop.pos + 2) s.stop.rest = some [c, ' ']

instance (text : List Char) (s : Scanner) : Decidable (IsOtherTrivia text s) :=
  inferInstanceAs (Decidable (∃ b < _, _ ∧ _))

theorem isOtherTrivia_of_joins {full : List Char} {d : Cursor} (h : s.stop.Fits d)
    (hd : (Cursor.ofText full).Ahead d)
    (hjoins : Joins s.stop.pos s.stop.toToken.1.pos s.stop.rest d.rest) : IsOtherTrivia full s := by
  obtain ⟨a, a', c, b, b', hxs, hys, hlength, hmark⟩ := hjoins
  have hc : c ∈ ['*', '/'] ∧ byteLength [c, '/'] = 2 ∧ byteLength [c, ' '] = 2 := by
    rcases hmark with ⟨rfl, -⟩ | ⟨rfl, -⟩
    · exact ⟨by simp, rfl, rfl⟩
    · exact ⟨by simp, rfl, rfl⟩
  have hle : s.stop.pos + byteLength a ≤ s.stop.toToken.1.pos :=
    hmark.elim (fun h => h.2.le) fun h => h.2.le
  refine ⟨s.stop.pos + byteLength a, by omega, by omega, c, hc.1, hmark, ?_, ?_⟩
  · have hplace : (Cursor.ofText full).Ahead
        { pos := d.pos + byteLength a', rest := [c, '/'] ++ b' } := hd.trans ⟨a', hys, rfl⟩
    have hslice := hplace.slice?_eq rfl
    rwa [hc.2.1, ← h.1, ← hlength] at hslice
  · have hslice := slice?_append a [c, ' '] b
    rw [hc.2.2] at hslice
    rw [hxs, Nat.add_sub_cancel_left]
    simpa using hslice

theorem Fits.advance {full : List Char} {read : Cursor → Lexeme}
    (hread : ∀ c d : Cursor, c.Fits d → c.rest.head? ≠ some ' ' → (read c).Fits (read d))
    (h : s.Fits t) (ht : (Cursor.ofText full).Ahead t.stop) (hno : ¬ IsOtherTrivia full s) :
    (s.advance read).Fits (t.advance read) := by
  obtain ⟨hstart, hbroken⟩ := (fitsOrJoins_toToken h.stop).resolve_right fun hjoins =>
    hno (isOtherTrivia_of_joins h.stop ht hjoins)
  have hlexeme := hread _ _ hstart fun hblank =>
    absurd (s.stop.head?_toToken ' ' hblank).1 (by decide)
  exact ⟨hlexeme.kind_eq, h.stop.1, hstart, hlexeme.next, hbroken, hlexeme.unterminated_eq⟩

/-- A `<` that another text continues to `</`. -/
def IsOtherTag (text : List Char) (s : Scanner) : Prop :=
  s.kind = .lessThan ∧ slice? s.start.pos (s.stop.pos + 1) text = some ['<', '/']

instance (text : List Char) (s : Scanner) : Decidable (IsOtherTag text s) :=
  inferInstanceAs (Decidable (_ ∧ _))

theorem isOtherTag_of_commented {full : List Char} {d : Cursor} (h : s.stop.Fits d)
    (hd : (Cursor.ofText full).Ahead d) (hangle : s.stop.rest.head? = some '<')
    (hne : s.stop.rest.tail.head? ≠ d.rest.tail.head?) : IsOtherTag full s.nextMarkup := by
  obtain ⟨hpos, hrest⟩ := h
  unfold IsOtherTag Scanner.nextMarkup
  generalize s.stop = c at *
  obtain ⟨pos, xs⟩ := c
  obtain ⟨pos', ys⟩ := d
  obtain rfl : pos = pos' := hpos
  cases hrest with
  | nil => cases hangle
  | opening => cases hangle
  | char hrest =>
    obtain rfl := Option.some.inj hangle
    cases hrest with
    | nil => exact absurd rfl hne
    | char => exact absurd rfl hne
    | opening =>
      have hslice := @Ahead.slice?_eq full ['<', '/'] _ _ hd rfl
      exact ⟨rfl, hslice⟩

theorem Fits.nextMarkup {full : List Char} (h : s.Fits t) (ht : (Cursor.ofText full).Ahead t.stop)
    (hno : ¬ IsOtherTag full s.nextMarkup) : s.nextMarkup.Fits t.nextMarkup := by
  have hlexeme : (Lexeme.readMarkup s.stop).Fits (Lexeme.readMarkup t.stop) := by
    refine Lexeme.fits_readMarkup h.stop fun hangle => ?_
    by_contra hne
    exact hno (isOtherTag_of_commented h.stop ht hangle hne)
  refine ⟨hlexeme.kind_eq, h.stop.1, h.stop, hlexeme.next, ?_, rfl⟩
  dsimp only [Scanner.nextMarkup]
  rw [hlexeme.next.1]
  exact any_isLineBreak_upTo h.stop _

theorem ne_of_mem_greaterEndings :
    ∀ ending ∈ greaterEndings, ∀ c ∈ ending.1.toList, c ≠ ' ' ∧ c ≠ '/' := by
  have hall : greaterEndings.all (fun ending => ending.1.toList.all fun c => c != ' ' && c != '/') =
      true := by
    decide
  simpa only [List.all_eq_true, Bool.and_eq_true, bne_iff_ne] using hall

theorem Fits.rescanGreater (h : s.Fits t) : s.rescanGreater.Fits t.rescanGreater := by
  have hfind : greaterEndings.find? (fun ending => ending.1.toList.isPrefixOf s.stop.rest) =
      greaterEndings.find? fun ending => ending.1.toList.isPrefixOf t.stop.rest :=
    List.find?_congr fun ending hending =>
      Lexeme.isPrefixOf_commented (ne_of_mem_greaterEndings ending hending) h.stop.2
  unfold Scanner.rescanGreater
  rw [← h.kind_eq]
  split_ifs with hk
  · simp only [hfind]
    cases hending : greaterEndings.find? fun ending => ending.1.toList.isPrefixOf t.stop.rest with
    | none => exact h
    | some ending =>
      have hbegin := List.find?_some (hfind.trans hending)
      have hword := ne_of_mem_greaterEndings ending (List.mem_of_find?_eq_some hending)
      have hskip := (Lexeme.fits_skip_word hword h.stop hbegin).1
      exact ⟨rfl, h.fullStart_eq, h.start, hskip, h.lineBreakBefore_eq, h.unterminated_eq⟩
  · exact h

theorem Fits.rescanTemplate (h : s.Fits t) : s.rescanTemplate.Fits t.rescanTemplate := by
  have hspan := Lexeme.fits_readTemplateSpan h.start
  unfold Scanner.rescanTemplate
  rw [← h.kind_eq]
  split_ifs
  · refine ⟨hspan.kind_eq, h.fullStart_eq, h.start, hspan.next, h.lineBreakBefore_eq, ?_⟩
    dsimp only
    rw [h.unterminated_eq, hspan.unterminated_eq]
  · exact h

/-! ### Regular expressions -/

/-- A regular expression that is not spelled like this in another text. -/
def IsOtherRegex (text : List Char) (s : Scanner) : Prop :=
  s.kind = .regularExpressionLiteral ∧ slice? s.start.pos s.stop.pos text ≠ some s.tokenText

instance (text : List Char) (s : Scanner) : Decidable (IsOtherRegex text s) :=
  inferInstanceAs (Decidable (_ ∧ _))

/-- A stretch that is spelled alike in both texts takes in no part of a comment. -/
theorem not_crosses {full : List Char} {c d stop : Cursor} (hstop : c.Ahead stop)
    (hd : (Cursor.ofText full).Ahead d) (heq : c.pos = d.pos)
    (hslice : slice? c.pos stop.pos full = some (c.upTo stop.pos)) :
    ¬ Crosses c.pos stop.pos c.rest d.rest := by
  rintro ⟨a, b, b', hc, hd', hlt⟩
  obtain ⟨passed, hrest, hpos⟩ := hstop
  have hpassed : c.upTo stop.pos = passed := by
    rw [upTo_eq, hrest, hpos, Nat.add_sub_cancel_left, splitAtByte?_append]
    rfl
  rw [hpassed, heq] at hslice
  obtain ⟨after, hafter⟩ := hd.exists_of_slice? hslice
  -- the stretch begins with what stands in front of the comment, and goes on
  obtain ⟨middle, rfl, hmiddle⟩ := exists_append_of_byteLength_le (hc.symm.trans hrest) (by omega)
  cases middle with
  | nil => simp at hpos; omega
  | cons x middle =>
    obtain ⟨rfl, -⟩ := List.cons.inj hmiddle
    rw [hd', List.append_assoc, List.append_cancel_left_eq] at hafter
    exact absurd (List.cons.inj hafter).1 (by decide)

/-- What a slash is read as anew ends alike in both texts unless it stretches over a comment. -/
theorem fitsBroken_regexEnd {c d : Cursor} (h : c.Fits d)
    (hno : ¬ Crosses c.pos (regexEnd false (c.skip 1).pos (c.skip 1).rest).1.pos c.rest d.rest) :
    FitsBroken (regexEnd false (c.skip 1).pos (c.skip 1).rest)
      (regexEnd false (d.skip 1).pos (d.skip 1).rest) := by
  obtain ⟨pos, xs⟩ := c
  obtain ⟨pos', ys⟩ := d
  obtain ⟨rfl, h⟩ : pos = pos' ∧ Commented false xs ys := h
  obtain ⟨rfl, rfl⟩ | ⟨x, xs, ys, rfl, rfl, h'⟩ | ⟨xs, ys, rfl, rfl⟩ := h.uncons_char
  · exact ⟨.mk' .nil, rfl⟩
  · rcases fitsBroken_regexEnd_or h' false (pos + x.utf8Size) with hfits | hcrosses
    · exact hfits
    · exact absurd (hcrosses.cons x) hno
  · refine absurd ⟨[], xs, ys, rfl, rfl, ?_⟩ hno
    exact (ahead_regexEnd false _ xs).over_pos_lt (c := ' ')

theorem Fits.rescanSlash {text full : List Char} (h : s.Fits t) (hs : s.Sound text)
    (ht : t.Sound full) (hno : ¬ IsOtherRegex full s.rescanSlash) :
    s.rescanSlash.Fits t.rescanSlash := by
  have hsame := sameStart_rescanSlash hs
  by_cases hk : s.kind = .slash || s.kind = .slashEquals
  · have hk' : t.kind = .slash || t.kind = .slashEquals := by rwa [← h.kind_eq]
    have hslice : slice? s.start.pos s.rescanSlash.stop.pos full =
        some (s.start.upTo s.rescanSlash.stop.pos) := by
      by_contra hne
      refine hno ⟨by rw [Scanner.rescanSlash, if_pos hk], ?_⟩
      rwa [tokenText, hsame.start_eq]
    have hcrosses := not_crosses hsame.ahead ht.reached h.start.1 hslice
    rw [Scanner.rescanSlash, if_pos hk] at hcrosses
    have hend := fitsBroken_regexEnd h.start fun hcross => hcrosses <| by
      obtain ⟨a, b, b', hxs, hys, hlt⟩ := hcross
      exact ⟨a, b, b', hxs, hys, hlt.trans_le (ahead_skipWhile isIdentifierPart _).pos_le⟩
    rw [Scanner.rescanSlash, Scanner.rescanSlash, if_pos hk, if_pos hk']
    refine ⟨rfl, h.fullStart_eq, h.start, ?_, h.lineBreakBefore_eq, ?_⟩
    · dsimp only
      rw [skipWhile, skipWhile, hend.1.1]
      exact fits_skipRun_of_stop (by decide) (by decide) _ hend.1.2
    · dsimp only
      rw [h.unterminated_eq, hend.2]
  · have hk' : ¬ (t.kind = .slash || t.kind = .slashEquals) := by rwa [← h.kind_eq]
    rw [Scanner.rescanSlash, Scanner.rescanSlash, if_neg hk, if_neg hk']
    exact h

theorem Fits.extendMarkupName (h : s.Fits t) : s.extendMarkupName.Fits t.extendMarkupName := by
  have hstop : Cursor.Fits (s.stop.skipWhile fun c => c = '-' || isIdentifierPart c)
      (t.stop.skipWhile fun c => c = '-' || isIdentifierPart c) := by
    rw [skipWhile, skipWhile, ← h.stop.1]
    exact fits_skipRun_of_stop (by decide) (by decide) _ h.stop.2
  unfold Scanner.extendMarkupName
  rw [← h.kind_eq]
  split_ifs with hk
  · dsimp only
    rw [← hstop.1, ← h.stop.1]
    split_ifs
    · exact h
    · exact ⟨rfl, h.fullStart_eq, h.start, hstop, h.lineBreakBefore_eq, h.unterminated_eq⟩
  · exact h

end Scanner

end ExpectError
