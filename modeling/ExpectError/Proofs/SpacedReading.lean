import ExpectError.Proofs.Alignment
import ExpectError.Proofs.CommentedReading
import ExpectError.Proofs.Trivia

/-!
# Reading a text with and without blanks

The grammar sees the tokens of a text and whether a token is the first on its line. So a text and the
text with blanks in it are read in step, to trees that differ in their offsets only, unless the blanks
tear a token or give a line break to a token that is asked about one. The blanks can be those in the
place of line comments; then none may stand directly behind a slash that begins a token.

* `Apart`: two states that differ by the blanks only;
* `Guard.Heeds`: what a guard has to refuse for the blanks to make no difference;
* `untorn`: such a guard, for blanks directly in front of tokens;
* `SourceFile.exists_read?_of_heeds`: how a text with line comments is read under a guard.
-/

namespace ExpectError

open Text Insertion

namespace Tree

mutual

/-- A tree with the kinds of its nodes and without their offsets. -/
def shape : Tree → Tree
  | node kind _ _ children => node kind 0 0 (shapeAll children)

/-- Several trees without their offsets. -/
def shapeAll : List Tree → List Tree
  | [] => []
  | t :: ts => shape t :: shapeAll ts

end

theorem shapeAll_eq_map (ts : List Tree) : shapeAll ts = ts.map shape := by
  induction ts with
  | nil => rfl
  | cons t ts ih => rw [shapeAll, ih, List.map_cons]

theorem shape_node (kind : NodeKind) (start stop : ℕ) (children : List Tree) :
    (node kind start stop children).shape = node kind 0 0 (children.map shape) := by
  rw [shape, shapeAll_eq_map]

end Tree

/-- What is read as a `<` between tags. -/
theorem Lexeme.exists_of_readMarkup {c : Cursor} (h : (readMarkup c).kind = .lessThan) :
    ∃ rest, c.rest = '<' :: rest ∧ rest.head? ≠ some '/' ∧
      (readMarkup c).next.pos = c.pos + '<'.utf8Size := by
  obtain ⟨pos, cs⟩ := c
  cases cs with
  | nil => cases h
  | cons c cs =>
    rw [readMarkup_cons] at h ⊢
    -- every other token between tags is of another kind
    split_ifs at h with hangle hslash
    subst hangle
    exact ⟨cs, rfl, hslash, by simp [hslash, Cursor.skip]⟩

namespace Grammar

/-- Refuses what comes out otherwise with words in front of some boundaries of the text: moving to a
token that they tear or that begins with a slash they stand directly behind, and asking whether a
token is the first on its line if a line break comes in front of it. Between markup tags, words in
front of a token and directly behind a `<` are refused too. -/
def untorn (words : ℕ → List Char) : Guard
  | .ask .onNewLine, s => s.lineBreakBefore || (words s.start.pos).isEmpty
  | .ask _, _ | .wrap _, _ | .call _, _ => true
  | .scan .markup, s => decide (s.nextMarkup.Whole words s.stop.pos) &&
      (words s.stop.pos).isEmpty &&
      (decide (s.nextMarkup.kind ≠ .lessThan) || (words s.nextMarkup.stop.pos).isEmpty)
  | .scan scan, s => decide ((scan.apply s).Whole words s.stop.pos) &&
      ((scan.apply s).start.rest.head? != some '/' ||
        (words ((scan.apply s).start.pos + 1)).isEmpty)
  | .rescan scan, s => decide ((scan.apply s).Whole words s.start.pos)

/-- The same problem, at the same place of a text and of the text with blanks in it. -/
def Corresponds (text : List Char) (words : ℕ → List Char) (e e' : SyntaxError) : Prop :=
  e.problem = e'.problem ∧ ∃ c d, AtStart text words c d ∧ e.start = c.pos ∧ e'.start = d.pos

/-- The same token of a text and of the text with blanks in it, or with any other words of the same
size. -/
def Token.Matches (text : List Char) (words : ℕ → List Char) (a b : Token) : Prop :=
  a.kind = b.kind ∧
    ∀ words' : ℕ → List Char, (∀ b, byteLength (words' b) = byteLength (words b)) →
      slice? a.start a.stop text = slice? b.start b.stop (interleave words' 0 text)

/-- Two states of reading a text and the text with words in it, at the same token and with the same
problems. -/
structure Abreast (text : List Char) (words : ℕ → List Char) (front : ℕ → ℕ → ℕ) (s t : State) :
    Prop where
  scanner : s.scanner.Aligned text words front t.scanner
  errors : List.Forall₂ (Corresponds text words) s.errors t.errors

/-- Two states of reading a text and the text with blanks in it, at the same token. -/
structure Apart (text : List Char) (words : ℕ → List Char) (front : ℕ → ℕ → ℕ) (s t : State) :
    Prop extends Abreast text words front s t where
  pieces : s.pieces.map Tree.shape = t.pieces.map Tree.shape
  tokens : List.Forall₂ (Token.Matches text words) s.tokens t.tokens

/-- A guard refuses what comes out otherwise with words in a text: moving to a token that is not the
same in both texts or to one that would not be the same if the words began with a slash, and asking
whether a token is the first on its line if the words bring a line break in front of it. -/
structure Guard.Heeds (guard : Guard) (text : List Char) (words : ℕ → List Char)
    (front : ℕ → ℕ → ℕ) : Prop where
  line {s : Scanner} : guard (.ask .onNewLine) s = true →
    s.lineBreakBefore = true ∨ words (front s.fullStart s.start.pos) = []
  scan {s t : Scanner} (scan : Scan) : AtStop text words s.stop t.stop →
    guard (.scan scan) s = true → (scan.apply s).Aligned text words front (scan.apply t)
  markup {s : Scanner} : guard (.scan .markup) s = true → untorn words (.scan .markup) s = true
  mark {s : Scanner} {scan : Scan} {c : Cursor} {x : Char} : scan ≠ .markup →
    guard (.scan scan) s = true → (Cursor.ofText text).Ahead s.stop → s.stop.Ahead c →
    c.rest.head? = some x → Cursor.IsMarkAt s.stop.toToken.1.pos c.pos x → words (c.pos + 1) = []
  rescan {s : Scanner} (scan : Rescan) : guard (.rescan scan) s = true →
    untorn words (.rescan scan) s = true

variable {text : List Char} {words words' : ℕ → List Char} {front : ℕ → ℕ → ℕ} {guard : Guard}
  {s t u v : State}

theorem Scan.start_apply {scan : Scan} (hscan : scan ≠ .markup) (s : Scanner) :
    (scan.apply s).start = s.stop.toToken.1 := by
  cases scan with
  | code | attributeValue => rfl
  | markup => exact absurd rfl hscan

theorem whole_of_untorn {scan : Scan} {s : Scanner} (h : untorn words (.scan scan) s = true) :
    (scan.apply s).Whole words s.stop.pos := by
  cases scan with
  | code => exact of_decide_eq_true (Bool.and_eq_true_iff.1 h).1
  | attributeValue => exact of_decide_eq_true (Bool.and_eq_true_iff.1 h).1
  | markup =>
    simp only [untorn, Bool.and_eq_true, decide_eq_true_eq] at h
    exact h.1.1

theorem words_behind_of_untorn {scan : Scan} {s : Scanner} (hscan : scan ≠ .markup)
    (h : untorn words (.scan scan) s = true) (hslash : s.stop.toToken.1.rest.head? = some '/') :
    words (s.stop.toToken.1.pos + 1) = [] := by
  cases scan with
  | code | attributeValue =>
    have hor : (s.stop.toToken.1.rest.head? != some '/' ||
        (words (s.stop.toToken.1.pos + 1)).isEmpty) = true := (Bool.and_eq_true_iff.1 h).2
    simpa [hslash] using hor
  | markup => exact absurd rfl hscan

theorem words_eq_nil_of_untorn {s : Scanner} (h : untorn words (.scan .markup) s = true) :
    words s.stop.pos = [] := by
  simp only [untorn, Bool.and_eq_true, List.isEmpty_iff] at h
  exact h.1.2

theorem matches_of_aligned {s t : Scanner} (h : s.Aligned text words front t)
    (hlt : s.start.pos < s.stop.pos) :
    Token.Matches text words { kind := s.kind, start := s.start.pos, stop := s.stop.pos }
      { kind := t.kind, start := t.start.pos, stop := t.stop.pos } := by
  refine ⟨h.kind_eq, fun words' hsame => ?_⟩
  rw [h.slice?_eq hsame hlt, ← h.text_eq]
  exact h.sound.slice?_eq

namespace Abreast

theorem position_iff (h : Abreast text words front s t) (h' : Abreast text words front u v) :
    s.position = u.position ↔ t.position = v.position :=
  h.scanner.start.pos_eq_iff h'.scanner.start

theorem errorNotedHere_eq (h : Abreast text words front s t) :
    s.errorNotedHere = t.errorNotedHere := by
  have hscanner := h.scanner
  have herrors := h.errors
  unfold State.errorNotedHere
  generalize s.errors = errors, t.errors = errors' at herrors ⊢
  cases herrors with
  | nil => rfl
  | cons hlast _ =>
    obtain ⟨-, c, d, hcd, hstart, hstart'⟩ := hlast
    refine decide_eq_decide.2 ?_
    rw [hstart, hstart']
    exact hcd.pos_eq_iff hscanner.start

theorem report (h : Abreast text words front s t) (speculative : Bool) (problem : SyntaxProblem) :
    Abreast text words front (s.report speculative problem) (t.report speculative problem) := by
  unfold State.report
  rw [h.errorNotedHere_eq]
  split
  · exact h
  · exact ⟨h.scanner, .cons ⟨rfl, _, _, h.scanner.start, rfl, rfl⟩ h.errors⟩

end Abreast

namespace Apart

theorem answer_eq (hheeds : guard.Heeds text words front) (h : Apart text words front s t) {α : Type}
    (question : Question α) (hguard : guard (.ask question) s.scanner = true) :
    question.answer s.scanner = question.answer t.scanner := by
  cases question with
  | kind => exact h.scanner.kind_eq
  | onNewLine =>
    show s.scanner.lineBreakBefore = t.scanner.lineBreakBefore
    rw [h.scanner.lineBreakBefore_eq]
    rcases hheeds.line hguard with hbreak | hwords
    · rw [hbreak, Bool.true_or]
    · rw [hwords, List.any_nil, Bool.or_false]
  | isAssert =>
    show decide (s.scanner.tokenText = _) = decide (t.scanner.tokenText = _)
    rw [h.scanner.text_eq]

/-- A token that is consumed in one text is consumed in the other one. -/
theorem consume_tokens (h : Apart text words front s t) :
    List.Forall₂ (Token.Matches text words) s.consume.tokens t.consume.tokens := by
  unfold State.consume
  by_cases hlt : s.scanner.start.pos < s.scanner.stop.pos
  · rw [if_pos hlt, if_pos (h.scanner.lt_iff.1 hlt)]
    exact .cons (matches_of_aligned h.scanner hlt) h.tokens
  · rw [if_neg hlt, if_neg (mt h.scanner.lt_iff.2 hlt)]
    exact h.tokens

theorem advance (hheeds : guard.Heeds text words front) (h : Apart text words front s t)
    (scan : Scan) (hguard : guard (.scan scan) s.scanner = true) :
    Apart text words front (s.advance scan) (t.advance scan) where
  scanner := hheeds.scan scan h.scanner.stop hguard
  errors := by simpa [State.advance] using h.errors
  pieces := by simpa using h.pieces
  tokens := h.consume_tokens

theorem rescan (hw : IsSpacingFor text words) (h : Apart text words front s t) (scan : Rescan)
    (hguard : untorn words (.rescan scan) s.scanner = true) :
    Apart text words front (s.rescan scan) (t.rescan scan) :=
  ⟨⟨Scanner.aligned_rescan hw.isPartingFor scan h.scanner (of_decide_eq_true hguard)
    (hw.head?_spacing _), h.errors⟩, h.pieces, h.tokens⟩

theorem report (h : Apart text words front s t) (speculative : Bool) (problem : SyntaxProblem) :
    Apart text words front (s.report speculative problem) (t.report speculative problem) where
  toAbreast := h.toAbreast.report speculative problem
  pieces := by rw [State.pieces_report, State.pieces_report, h.pieces]
  tokens := by
    rw [(State.scanner_report speculative problem s).2, (State.scanner_report speculative problem t).2]
    exact h.tokens

theorem addPiece (h : Apart text words front s t) {piece piece' : Tree}
    (hshape : piece.shape = piece'.shape) :
    Apart text words front (s.addPiece piece) (t.addPiece piece') := by
  refine ⟨⟨h.scanner, h.errors⟩, ?_, h.tokens⟩
  simp [State.addPiece, hshape, h.pieces]

theorem wrap (h : Apart text words front s t) (kind : NodeKind) :
    Apart text words front (s.wrap kind) (t.wrap kind) := by
  refine ⟨⟨h.scanner, h.errors⟩, ?_, h.tokens⟩
  simp [State.wrap, Tree.shape_node, h.pieces]

theorem closeScope (h : Apart text words front s t) (h' : Apart text words front u v) :
    Apart text words front (s.closeScope u) (t.closeScope v) := by
  refine ⟨⟨h.scanner, h.errors⟩, ?_, h.tokens⟩
  simp [State.closeScope, h.pieces, h'.pieces]

end Apart

/-- A `<` that nothing is put behind is not continued to `</`. -/
theorem not_isOtherTag (hheeds : guard.Heeds text words front)
    (hsame : ∀ b, byteLength (words' b) = byteLength (words b)) {s t : Scanner}
    (hstop : AtStop text words s.stop t.stop) (hguard : guard (.scan .markup) s = true) :
    ¬ t.nextMarkup.IsOtherTag (interleave words' 0 text) := by
  have haligned : s.nextMarkup.Aligned text words front t.nextMarkup :=
    hheeds.scan .markup hstop hguard
  rintro ⟨hkind, hslice⟩
  rw [← haligned.kind_eq] at hkind
  have hbehind : words s.nextMarkup.stop.pos = [] := by
    simpa [untorn, hkind] using (Bool.and_eq_true_iff.1 (hheeds.markup hguard)).2
  have hangle : ∃ rest, s.stop.rest = '<' :: rest ∧ rest.head? ≠ some '/' ∧
      s.nextMarkup.stop.pos = s.stop.pos + '<'.utf8Size :=
    Lexeme.exists_of_readMarkup hkind
  obtain ⟨rest, hcursor, hhead, hpos⟩ := hangle
  rw [hpos] at hbehind
  exact hhead (haligned.start.head?_of_slice? hsame hcursor hbehind hslice)

/-- A `*` in front of a token and the slash that it begins with are not continued by words, if there
are none directly behind them. -/
theorem not_isOtherTrivia (hw : IsSpacingFor text words) (hheeds : guard.Heeds text words front)
    (hsame : ∀ b, byteLength (words' b) = byteLength (words b)) {s t : Scanner} {scan : Scan}
    (hscan : scan ≠ .markup) (hstop : AtStop text words s.stop t.stop)
    (hguard : guard (.scan scan) s = true) : ¬ t.IsOtherTrivia (interleave words' 0 text) := by
  have hstart : AtStart text words s.stop.toToken.1 t.stop.toToken.1 := by
    rw [← Scan.start_apply hscan s, ← Scan.start_apply hscan t]
    exact (hheeds.scan scan hstop hguard).start
  rintro ⟨b, -, hle, x, hx, hmark, hslice, hown⟩
  have hone : x.utf8Size = 1 ∧ isSpacing x = false := by
    simp only [List.mem_cons, List.not_mem_nil, or_false] at hx
    rcases hx with rfl | rfl <;> exact ⟨rfl, rfl⟩
  obtain ⟨passed, after, hrest, hpassed⟩ := slice?_eq_some hown
  obtain ⟨c, hahead, hc⟩ := hstop.exists_atStart hw hone.2 hrest
  have hb : t.stop.pos + byteLength passed = b := by omega
  simp only [hb] at hc
  -- the character stands in front of the token in the text itself, too, or begins it
  have hplace : Cursor.IsMarkAt s.stop.toToken.1.pos c.pos x :=
    hmark.imp (And.imp_right (hc.pos_lt_iff hstart).2) (And.imp_right (hc.pos_eq_iff hstart).2)
  have hhead : c.rest.head? = some x := by
    rw [← head?_bare words c.pos, ← hc.rest_eq]
    rfl
  obtain ⟨cs, hcs⟩ := List.head?_eq_some_iff.1 hhead
  have hnil : words (c.pos + x.utf8Size) = [] := by
    rw [hone.1]
    exact hheeds.mark hscan hguard hstop.reached hahead hhead hplace
  -- so the next character is the blank, and not the slash of the other text
  have hslash := hc.head?_of_slice? hsame hcs hnil hslice
  have hblank := congrArg List.head? (List.cons.inj (hc.rest_eq_cons hcs hnil)).2
  rw [head?_bare, hslash] at hblank
  exact absurd hblank (by simp)

theorem spelledAlike_scan (hw : IsSpacingFor text words) (hheeds : guard.Heeds text words front)
    (hsame : ∀ b, byteLength (words' b) = byteLength (words b)) {s t : Scanner} (scan : Scan)
    (hstop : AtStop text words s.stop t.stop) (hguard : guard (.scan scan) s = true) :
    spelledAlike (interleave words' 0 text) (.scan scan) t = true := by
  cases scan with
  | markup => simpa [spelledAlike] using not_isOtherTag hheeds hsame hstop hguard
  | code | attributeValue =>
    simpa [spelledAlike] using
      not_isOtherTrivia hw hheeds hsame (by decide) hstop hguard

theorem Apart.spelledAlike (hw : IsSpacingFor text words) (hheeds : guard.Heeds text words front)
    (hsame : ∀ b, byteLength (words' b) = byteLength (words b)) (h : Apart text words front s t)
    (move : Move) (hguard : guard move s.scanner = true) :
    Grammar.spelledAlike (interleave words' 0 text) move t.scanner = true := by
  match move with
  | .scan scan => exact spelledAlike_scan hw hheeds hsame scan h.scanner.stop hguard
  | .rescan .slash =>
    have haligned : s.scanner.rescanSlash.Aligned text words front t.scanner.rescanSlash :=
      (h.rescan hw .slash (hheeds.rescan .slash hguard)).scanner
    have hregex : ¬ t.scanner.rescanSlash.IsOtherRegex (interleave words' 0 text) := by
      rintro ⟨hkind, hne⟩
      refine hne (haligned.slice?_eq hsame (haligned.sound.lt ?_))
      rw [haligned.kind_eq, hkind]
      decide
    simpa [Grammar.spelledAlike] using hregex
  | .ask _ | .rescan .greater | .rescan .template | .rescan .markupName | .wrap _ | .call _ => rfl

/-- A text and the text with blanks in it are read in step, and then no token is spelled otherwise
with other words in the place of the blanks. -/
theorem lockstep_apart (hw : IsSpacingFor text words) (hheeds : guard.Heeds text words front)
    (hsame : ∀ b, byteLength (words' b) = byteLength (words b)) :
    Lockstep guard (spelledAlike (interleave words' 0 text)) (Apart text words front) where
  allows h move hguard := h.spelledAlike hw hheeds hsame move hguard
  answer h _ question hguard := h.answer_eq hheeds question hguard
  position h h' := h.position_iff h'.toAbreast
  errors h := h.errors.length_eq
  pieces h := by
    have hlength := congrArg List.length h.pieces
    rw [List.length_map, List.length_map] at hlength
    rw [Bool.eq_iff_iff, List.isEmpty_iff_length_eq_zero, List.isEmpty_iff_length_eq_zero, hlength]
  advance h scan hguard := h.advance hheeds scan hguard
  rescan h scan hguard := h.rescan hw scan (hheeds.rescan scan hguard)
  report h := h.report
  leaf h kind := h.addPiece rfl
  emptyName h := h.addPiece rfl
  wrap h kind _ := h.wrap kind
  dropPieces h := ⟨⟨h.scanner, h.errors⟩, rfl, h.tokens⟩
  openScope h := ⟨⟨h.scanner, h.errors⟩, rfl, h.tokens⟩
  closeScope h h' := h.closeScope h'

theorem atStop_ofText (text : List Char) (words : ℕ → List Char) :
    AtStop text words (Cursor.ofText text) (Cursor.ofText (interleave words 0 text)) :=
  ⟨.refl _, .refl _, rfl⟩

/-- The first token is the same in both texts. -/
theorem apart_first (hheeds : guard.Heeds text words front)
    (hguard : guard (.scan .code) (Scanner.ofText text) = true) :
    Apart text words front (State.advance .code { scanner := Scanner.ofText text })
      (State.advance .code { scanner := Scanner.ofText (interleave words 0 text) }) :=
  ⟨⟨hheeds.scan .code (atStop_ofText text words) hguard, .nil⟩, rfl, .nil⟩

theorem byteLength_le_interleave (words : ℕ → List Char) (pos : ℕ) (text : List Char) :
    byteLength text ≤ byteLength (interleave words pos text) := by
  have h := byteLength_interleave_append_le words pos text []
  rw [List.append_nil] at h
  omega

/-- Where a text is read under the guard, the text with blanks in it is read too, to the same pieces. -/
theorem exists_readUnder?_of_spaced {dialect : Dialect} (hw : IsSpacingFor text words)
    (hheeds : guard.Heeds text words front)
    (hsame : ∀ b, byteLength (words' b) = byteLength (words b))
    (hread : readUnder? guard dialect text = some s) :
    ∃ t, readUnder? (spelledAlike (interleave words' 0 text)) dialect (interleave words 0 text) =
      some t ∧ Apart text words front s t :=
  (lockstep_apart hw hheeds hsame).readUnder? (byteLength_le_interleave words 0 text)
    (fun hguard => ⟨spelledAlike_scan hw hheeds hsame .code (atStop_ofText text words) hguard,
      apart_first hheeds hguard⟩) hread

/-- Directly behind what a slash would make another mark of, the guard allows no words. -/
theorem words_eq_nil_of_isMarkAt (hw : IsSpacingFor text words) {s : Scanner} {scan : Scan}
    {c : Cursor} {x : Char} (hscan : scan ≠ .markup) (hguard : untorn words (.scan scan) s = true)
    (hreached : (Cursor.ofText text).Ahead s.stop) (hahead : s.stop.Ahead c)
    (hhead : c.rest.head? = some x) (hmark : Cursor.IsMarkAt s.stop.toToken.1.pos c.pos x) :
    words (c.pos + 1) = [] := by
  have hplace := hreached.trans hahead
  have htoken := hreached.trans (Cursor.ahead_toToken s.stop)
  rcases hmark with ⟨rfl, hlt⟩ | ⟨rfl, heq⟩
  · rcases (Nat.succ_le_of_lt hlt).lt_or_eq with hlt | heq
    · refine (whole_of_untorn hguard).trivia _ (hahead.pos_le.trans (Nat.le_succ _)) ?_
      rwa [Scan.start_apply hscan]
    -- directly in front of the token there is a `*` only at the end of the text
    · obtain ⟨cs, hcs⟩ := List.head?_eq_some_iff.1 hhead
      have hover : (Cursor.ofText text).Ahead { pos := c.pos + 1, rest := cs } :=
        hplace.trans ⟨['*'], hcs, rfl⟩
      have hrest : cs = s.stop.toToken.1.rest :=
        congrArg Cursor.rest (eq_of_pos_eq hover htoken heq)
      obtain ⟨front, hfront, -⟩ := hahead
      have hnil := rest_toToken_eq_nil (hfront.trans (by rw [hcs, hrest]))
      have hlength := pos_add_byteLength htoken
      rw [hnil, byteLength_nil, Nat.add_zero, ← heq] at hlength
      exact (congrArg words hlength).trans hw.end_eq
  · obtain rfl := eq_of_pos_eq hplace htoken heq
    exact words_behind_of_untorn hscan hguard hhead

/-- With blanks directly in front of tokens, the guard refuses all that comes out otherwise. -/
theorem heeds_untorn (hw : IsSpacingFor text words) :
    (untorn words).Heeds text words fun _ start => start where
  line h := by simpa [untorn] using h
  scan {s t} scan h hguard := by
    have hwhole := whole_of_untorn hguard
    refine Scanner.aligned_scan hw.isPartingFor scan h (fun hcode => ?_) (fun hmarkup => ?_) hwhole
      (hw.head?_spacing _)
    · refine Cursor.toToken_aligned hw.isPartingFor h (hw.isSpacing _) fun b hle hlt =>
        hwhole.trivia b hle ?_
      rwa [Scan.start_apply hcode]
    · subst hmarkup
      have hwords := words_eq_nil_of_untorn hguard
      exact ⟨hwords, by rw [hwords]; rfl⟩
  markup := id
  mark := words_eq_nil_of_isMarkAt hw
  rescan _ := id

end Grammar

namespace SourceFile

open Grammar

/-- The kinds of the consumed tokens and their characters. -/
def spelledTokens (file : SourceFile) : List (TokenKind × Option (List Char)) :=
  file.tokens.map fun token => (token.kind, slice? token.start token.stop file.text)

/-- A text with line comments, or with any words that can stand in the place of blanks, is read like
the text without them if it is read under a guard: to the same nodes and tokens, with other offsets,
and with the same problems. -/
theorem exists_read?_of_heeds {guard : Guard} {dialect : Dialect} {text : List Char}
    {words words' : ℕ → List Char} {front : ℕ → ℕ → ℕ} {file : SourceFile}
    (hread : read? dialect text = some file) (hw : IsSpacingFor text words)
    (hheeds : guard.Heeds text words front)
    (hsame : ∀ b, byteLength (words' b) = byteLength (words b))
    (hcommented : Commented false (interleave words 0 text) (interleave words' 0 text))
    (hguard : (readUnder? guard dialect text).isSome = true) :
    ∃ other, read? dialect (interleave words' 0 text) = some other ∧
      other.tree.shape = file.tree.shape ∧
      other.errors.map (·.problem) = file.errors.map (·.problem) ∧
      other.spelledTokens = file.spelledTokens := by
  obtain ⟨s, hs⟩ := Option.isSome_iff_exists.1 hguard
  -- from the text to the blanked text by spacing, and from there by comments in the place of blanks
  obtain ⟨t, ht, hst⟩ := exists_readUnder?_of_spaced hw hheeds hsame hs
  obtain ⟨u, hu, htu⟩ := exists_readUnder?_of_commented hcommented ht
  obtain rfl := Option.some.inj (hread.symm.trans (read?_of_readUnder? hs))
  refine ⟨_, read?_of_readUnder? hu, ?_, ?_, ?_⟩
  · have hpieces : u.pieces = t.pieces := by rw [htu.eq]
    simp [Tree.shape_node, hpieces, hst.pieces]
  · have herrors : u.errors = t.errors := by rw [htu.eq]
    have hproblems : List.Forall₂ (· = ·) (t.errors.map (·.problem)) (s.errors.map (·.problem)) :=
      List.forall₂_map_left_iff.2 (List.forall₂_map_right_iff.2
        (hst.errors.flip.imp fun _ _ h => h.1.symm))
    rw [List.forall₂_eq_eq_eq] at hproblems
    simp [herrors, hproblems]
  · have htokens : u.tokens = t.tokens := by rw [htu.eq]
    have hspelled : List.Forall₂ (· = ·)
        (t.tokens.map fun token =>
          (token.kind, slice? token.start token.stop (interleave words' 0 text)))
        (s.tokens.map fun token => (token.kind, slice? token.start token.stop text)) :=
      List.forall₂_map_left_iff.2 (List.forall₂_map_right_iff.2
        (hst.tokens.flip.imp fun _ _ h => Prod.ext h.1.symm (h.2 words' hsame).symm))
    rw [List.forall₂_eq_eq_eq] at hspelled
    simp only [spelledTokens, List.map_reverse, htokens, hspelled]

/-- Does reading a text come to an end without a move that comes out otherwise with words, be they
blanks or line comments, in front of some boundaries of the text? -/
def isUntorn (dialect : Dialect) (text : List Char) (words : ℕ → List Char) : Bool :=
  (readUnder? (untorn words) dialect text).isSome

/-- A text with line comments directly in front of tokens is read like the text without them. -/
theorem exists_read?_interleave {dialect : Dialect} {text : List Char} {words words' : ℕ → List Char}
    {file : SourceFile} (hread : read? dialect text = some file)
    (hw : IsSpacingFor text words) (hsame : ∀ b, byteLength (words' b) = byteLength (words b))
    (hcommented : Commented false (interleave words 0 text) (interleave words' 0 text))
    (huntorn : isUntorn dialect text words = true) :
    ∃ other, read? dialect (interleave words' 0 text) = some other ∧
      other.tree.shape = file.tree.shape ∧
      other.errors.map (·.problem) = file.errors.map (·.problem) := by
  obtain ⟨other, hother, hshape, hproblems, -⟩ :=
    exists_read?_of_heeds hread hw (heeds_untorn hw) hsame hcommented huntorn
  exact ⟨other, hother, hshape, hproblems⟩

/-- A line break in front of an argument changes nothing. -/
example : isUntorn .standard "f(a)".toList (fun b => if b = 2 then ['\n'] else []) = true := by
  decide +kernel

/-- A division sign would take the first slash of a comment directly behind it, a `*` would not. -/
example : isUntorn .standard "a /b".toList (fun b => if b = 3 then ['\n'] else []) = false ∧
    isUntorn .standard "a *b".toList (fun b => if b = 3 then ['\n'] else []) = true := by
  decide +kernel

/-- Behind `get`, the name of the property must stand on the same line. -/
example : isUntorn .standard "({ get x() {} })".toList (fun b => if b = 7 then ['\n'] else []) =
    false := by
  decide +kernel

end SourceFile

end ExpectError
