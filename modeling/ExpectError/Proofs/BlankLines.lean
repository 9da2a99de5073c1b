import ExpectError.Proofs.SpacedReading
import ExpectError.Proofs.SplitLines

/-!
# Reading a text with blank lines

A line is put between two tokens or into one. Between tokens it stands among trivia, directly behind
a line break, and there it is passed over: a line break ends every comment that ends with its line,
and a block comment goes on. So a text and the text with blank lines in it are read in step as long
as no token has the start of such a line inside, and no line is put where the blanks are text.

* `IsLineSpacingFor`: blanks that are put in front of lines;
* `Cursor.toToken_lines`: trivia with such blanks lead to the same token;
* `intact`: the guard that refuses tokens with a line put into them;
* `heeds_intact`: under this guard, lines that are put into a text make no difference.
-/

namespace ExpectError

open Text Insertion

/-! ### Words in front of lines -/

/-- Behind a character of a text there are words only if it is a line break. -/
def BehindBreaks (words : ℕ → List Char) (pos : ℕ) (cs : List Char) : Prop :=
  ∀ before c after, cs = before ++ c :: after →
    words (pos + byteLength (before ++ [c])) ≠ [] → isLineBreak c = true

variable {text : List Char} {words : ℕ → List Char} {pos : ℕ} {c : Char} {cs : List Char}

theorem BehindBreaks.head (h : BehindBreaks words pos (c :: cs)) (hc : isLineBreak c = false) :
    words (pos + c.utf8Size) = [] := by
  by_contra hne
  have hbreak := h [] c cs rfl (by simpa using hne)
  rw [hc] at hbreak
  cases hbreak

theorem BehindBreaks.tail (h : BehindBreaks words pos (c :: cs)) :
    BehindBreaks words (pos + c.utf8Size) cs := by
  intro before d after hcs hne
  refine h (c :: before) d after (by rw [hcs, List.cons_append]) ?_
  rwa [List.cons_append, byteLength_cons, ← Nat.add_assoc]

theorem BehindBreaks.over {before : List Char} (h : BehindBreaks words pos (before ++ cs)) :
    BehindBreaks words (pos + byteLength before) cs := by
  induction before generalizing pos with
  | nil => simpa using h
  | cons c before ih =>
    rw [byteLength_cons, ← Nat.add_assoc]
    exact ih h.tail

/-- Blanks in front of some lines of a text. There are none in front of a line that begins with
`#!`, which is passed over only at the very start of a text. -/
structure IsLineSpacingFor (text : List Char) (words : ℕ → List Char) : Prop
    extends IsSpacingFor text words where
  behindBreaks : BehindBreaks words 0 text
  first : ['#', '!'].isPrefixOf text = true → words 0 = []

/-- Behind a character that is no line break, nothing is put into the text. -/
theorem bare_cons (h : BehindBreaks words pos (c :: cs)) (hc : isLineBreak c = false) :
    bare words pos (c :: cs) = c :: bare words (pos + c.utf8Size) cs := by
  rw [bare, interleave_eq_bare, h.head hc, List.nil_append]

theorem bare_cons_words (words : ℕ → List Char) (pos : ℕ) (c : Char) (cs : List Char) :
    bare words pos (c :: cs) =
      c :: (words (pos + c.utf8Size) ++ bare words (pos + c.utf8Size) cs) := by
  rw [bare, interleave_eq_bare]

/-- Two characters that are no mark of a comment in a text are none in the text with words in it. -/
theorem not_mark_bare {d e : Char} (h : ∀ rest, c = d → cs = e :: rest → False) :
    ¬ (c = d ∧ (bare words pos cs).head? = some e) := by
  rintro ⟨hc, hhead⟩
  rw [head?_bare] at hhead
  obtain ⟨rest, hcs⟩ := List.head?_eq_some_iff.1 hhead
  exact h rest hc hcs

/-! ### Trivia -/

namespace Cursor

theorem skipTrivia_of_broken (trivia : Trivia) (pos : ℕ) (cs : List Char) :
    (skipTrivia trivia true pos cs).2 = true := by
  generalize hbroken : true = broken
  fun_induction skipTrivia trivia broken pos cs <;> simp_all

/-- In a block comment, blanks are passed over too. -/
theorem skipTrivia_blockComment_blanks (pos : ℕ) {blanks : List Char}
    (hblanks : ∀ c ∈ blanks, isSpacing c = true) (rest : List Char) :
    skipTrivia .blockComment true pos (blanks ++ rest) =
      skipTrivia .blockComment true (pos + byteLength blanks) rest := by
  induction blanks generalizing pos with
  | nil => simp
  | cons c blanks ih =>
    obtain ⟨hc, hblanks⟩ := List.forall_mem_cons.1 hblanks
    have hstar : c ≠ '*' := by
      rintro rfl
      cases hc
    rw [List.cons_append, skipTrivia_blockComment_cons, if_neg fun h => hstar h.1, Bool.true_or,
      ih _ hblanks, byteLength_cons, Nat.add_assoc]

/-- What is left behind the trivia of a text and of the text with words in it. The flag says whether
there was a line break in the second one already. -/
def LeftAlike (words : ℕ → List Char) (broken : Bool) (r r' : Cursor × Bool) : Prop :=
  r'.1.rest = bare words r.1.pos r.1.rest ∧ r'.2 = (broken || r.2)

/-- Behind a line break among the trivia, words change nothing: there is a line break already. -/
theorem LeftAlike.of_broken {trivia : Trivia} {broken : Bool} {pos : ℕ} {cs : List Char}
    {r' : Cursor × Bool} (h : LeftAlike words true (skipTrivia trivia true pos cs) r') :
    LeftAlike words broken (skipTrivia trivia true pos cs) r' := by
  obtain ⟨hrest, hbroken⟩ := h
  refine ⟨hrest, ?_⟩
  rw [hbroken, skipTrivia_of_broken, Bool.true_or, Bool.or_true]

/-- Trivia with words behind line breaks. The argument follows the reader: behind a line break it is
between comments or in a block comment, and passes the words over; behind any other character there
are no words, and the same mark comes next in both texts. -/
theorem skipTrivia_bare (hspacing : ∀ b, ∀ c ∈ words b, isSpacing c = true) (trivia : Trivia)
    (broken : Bool) (pos : ℕ) (cs : List Char) (h : BehindBreaks words pos cs) {broken' : Bool}
    (hbroken : broken = true → broken' = true) (pos' : ℕ) :
    LeftAlike words broken' (skipTrivia trivia broken pos cs)
      (skipTrivia trivia broken' pos' (bare words pos cs)) := by
  fun_induction skipTrivia trivia broken pos cs generalizing broken' pos' with
  | case1 trivia broken pos =>
    have hnil : skipTrivia trivia broken' pos' [] = ({ pos := pos', rest := [] }, broken') := by
      cases trivia <;> rfl
    rw [bare, hnil]
    refine ⟨rfl, ?_⟩
    cases broken <;> simp_all
  | case2 broken pos c cs hbreak ih =>
    rw [bare_cons_words, skipTrivia, if_pos hbreak, skipTrivia_blanks _ _ (hspacing _),
      Bool.true_or]
    exact (ih h.tail (fun _ => rfl) _).of_broken
  | case3 broken pos c cs hbreak ih =>
    rw [bare_cons h (by simpa using hbreak), skipTrivia, if_neg hbreak]
    exact ih h.tail hbroken _
  -- marks of comments hold no line break, so no words are inside them
  | case4 broken pos cs ih | case6 broken pos cs ih | case7 broken pos cs ih =>
    rw [bare_cons h rfl, bare_cons h.tail rfl, skipTrivia]
    exact ih h.tail.tail hbroken _
  -- words in a block comment are passed over like the rest of it
  | case5 broken pos c cs hend ih =>
    cases hbreak : isLineBreak c with
    | true =>
      have hstar : c ≠ '*' := by
        rintro rfl
        cases hbreak
      simp only [hbreak, Bool.or_true] at ih ⊢
      rw [bare_cons_words, skipTrivia_blockComment_cons, if_neg fun h => hstar h.1, hbreak,
        Bool.or_true, skipTrivia_blockComment_blanks _ (hspacing _)]
      exact (ih h.tail (fun _ => rfl) _).of_broken
    | false =>
      simp only [hbreak, Bool.or_false] at ih ⊢
      rw [bare_cons h hbreak, skipTrivia_blockComment_cons, if_neg (not_mark_bare hend), hbreak,
        Bool.or_false]
      exact ih h.tail hbroken _
  | case8 broken pos c cs hline hblock hbreak ih =>
    have hslash : c ≠ '/' := by
      rintro rfl
      cases hbreak
    rw [bare_cons_words, skipTrivia_blank_cons, if_neg fun h => hslash h.1,
      if_neg fun h => hslash h.1, if_pos hbreak, skipTrivia_blanks _ _ (hspacing _), Bool.true_or]
    exact (ih h.tail (fun _ => rfl) _).of_broken
  | case9 broken pos c cs hline hblock hbreak hgap ih =>
    rw [bare_cons h (by simpa using hbreak), skipTrivia_blank_cons, if_neg (not_mark_bare hline),
      if_neg (not_mark_bare hblock), if_neg hbreak, if_pos hgap]
    exact ih h.tail hbroken _
  | case10 broken pos c cs hline hblock hbreak hgap =>
    rw [bare_cons h (by simpa using hbreak), skipTrivia_blank_cons, if_neg (not_mark_bare hline),
      if_neg (not_mark_bare hblock), if_neg hbreak, if_neg hgap]
    refine ⟨(bare_cons h (by simpa using hbreak)).symm, ?_⟩
    cases broken <;> simp_all

/-- From the stop of a token to the start of the next one, if blanks are put in front of lines only.
A line break that is not in the text itself comes from the blanks where the trivia begin. -/
theorem toToken_lines (hw : IsLineSpacingFor text words) {c d : Cursor}
    (h : AtStop text words c d) : TriviaAligned text words (fun full _ => full) c d := by
  have hbehind : BehindBreaks words c.pos c.rest := by
    obtain ⟨before, htext, hpos⟩ := h.reached
    rw [hpos]
    exact BehindBreaks.over (htext ▸ hw.behindBreaks)
  have hleft : LeftAlike words ((words c.pos).any isLineBreak) c.toToken d.toToken := by
    by_cases hbang : c.pos = 0 ∧ ['#', '!'].isPrefixOf c.rest = true
    · obtain ⟨hpos, hbegin⟩ := hbang
      obtain ⟨cs, hrest⟩ := List.isPrefixOf_iff_prefix.1 hbegin
      have hzero := h.pos_eq_zero hpos
      have hnil : words 0 = [] := by
        refine hw.first ?_
        obtain rfl := eq_of_pos_eq h.reached (.refl _) hpos
        exact hbegin
      have hd := h.rest_eq
      obtain ⟨pos, rest⟩ := c
      obtain ⟨pos', rest'⟩ := d
      obtain rfl : pos = 0 := hpos
      obtain rfl : pos' = 0 := hzero
      obtain rfl : '#' :: '!' :: cs = rest := hrest
      have hd : rest' = '#' :: '!' :: bare words 2 cs := by
        rw [show rest' = _ from hd, interleave_eq_bare, hnil, List.nil_append,
          bare_cons hbehind rfl, bare_cons hbehind.tail rfl]
        rfl
      subst hd
      rw [hnil]
      exact skipTrivia_bare hw.isSpacing .lineComment false 2 cs hbehind.tail.tail id 2
    · rw [toToken_eq hbang, toToken_eq (mt (h.begins_of_begins hw.isPartingFor) hbang), h.rest_eq,
        interleave_eq_bare, skipTrivia_blanks _ _ (hw.isSpacing _), Bool.false_or]
      exact skipTrivia_bare hw.isSpacing .blank false c.pos c.rest hbehind (by simp) _
  refine ⟨⟨h.reached.trans (ahead_toToken c), h.reached'.trans (ahead_toToken d), hleft.1⟩, ?_⟩
  rw [hleft.2, Bool.or_comm]

end Cursor

/-! ### Reading in step -/

namespace Grammar

/-- Refuses what comes out otherwise with words in front of some lines of the text: moving to a
token that has words inside, and asking whether a token is the first on its line if words come in
front of it. Between markup tags, words next to a text are refused too. -/
def intact (words : ℕ → List Char) : Guard
  | .ask .onNewLine, s => s.lineBreakBefore || (words s.fullStart).isEmpty
  | .scan .code, s => decide (s.next.Whole words s.next.start.pos)
  | .scan .attributeValue, s =>
    decide (s.nextAttributeValue.Whole words s.nextAttributeValue.start.pos)
  | move, s => untorn words move s

theorem whole_of_intact {scan : Scan} {s : Scanner} (h : intact words (.scan scan) s = true) :
    ∃ since, (scan.apply s).Whole words since := by
  cases scan with
  | code => exact ⟨_, of_decide_eq_true h⟩
  | attributeValue => exact ⟨_, of_decide_eq_true h⟩
  | markup => exact ⟨_, whole_of_untorn h⟩

/-- With blanks in front of lines, the guard refuses all that comes out otherwise. -/
theorem heeds_intact (hw : IsLineSpacingFor text words) :
    (intact words).Heeds text words fun full _ => full where
  line h := by simpa [intact] using h
  scan scan h hguard := by
    obtain ⟨since, hwhole⟩ := whole_of_intact hguard
    refine Scanner.aligned_scan hw.isPartingFor scan h (fun _ => Cursor.toToken_lines hw h)
      (fun hmarkup => ?_) hwhole (hw.head?_spacing _)
    subst hmarkup
    have hwords := words_eq_nil_of_untorn hguard
    exact ⟨hwords, by rw [hwords]; rfl⟩
  markup := id
  mark {s scan c x} _ _ hreached hahead hhead hmark := by
    obtain ⟨before, htext, hpos⟩ := hreached.trans hahead
    have hpos : c.pos = 0 + byteLength before := hpos
    obtain ⟨cs, hcs⟩ := List.head?_eq_some_iff.1 hhead
    by_contra hne
    have hone : x.utf8Size = 1 := by
      rcases hmark with ⟨rfl, -⟩ | ⟨rfl, -⟩ <;> rfl
    have hbreak := hw.behindBreaks before x cs (hcs ▸ htext) (by
      rwa [byteLength_append, byteLength_cons, byteLength_nil, hone, Nat.add_zero, ← Nat.add_assoc,
        ← hpos])
    rcases hmark with ⟨rfl, -⟩ | ⟨rfl, -⟩ <;> cases hbreak
  rescan _ := id

end Grammar

namespace SourceFile

open Grammar

/-- Does reading a text come to an end without a move that comes out otherwise with words in front
of some lines of the text? -/
def isIntact (dialect : Dialect) (text : List Char) (words : ℕ → List Char) : Bool :=
  (readUnder? (intact words) dialect text).isSome

/-- An indented line may get a line above it. -/
example : isIntact .standard "f(\n  a)".toList (fun b => if b = 3 then ['\n'] else []) = true := by
  decide +kernel

/-- A line that begins inside a template may not. -/
example : isIntact .standard "\x60\n$\x7ba\x7d\x60".toList
    (fun b => if b = 2 then ['\n'] else []) = false := by
  decide +kernel

end SourceFile

end ExpectError
