import ExpectError.Proofs.Alignment
import ExpectError.Proofs.Comments
import ExpectError.Proofs.SpelledMarks
import ExpectError.Proofs.SplitLines

/-!
# Blocks between tokens

A block is a comment in braces with a line break and an indentation behind it. Where blocks are put
into a text, a token in front of them is read as before if it ends at a brace: a `>`, a `}`, or text
between tags. No other token may have a block directly behind it, and none may have one inside.

* `IsBlock`, `IsBlocksFor`: blocks, and how many of them are put in front of each boundary;
* `Scanner.Clear`: a token that no block comes into;
* `Scanner.aligned_scan_of_clear`, `Scanner.aligned_nextMarkup_of_clear`,
  `Scanner.aligned_rescan_of_clear`: what the moves of two scanners keep.
-/

namespace ExpectError

open Text Insertion

/-- A comment in braces, a line break and an indentation. -/
def IsBlock (block : List Char) : Prop :=
  ∃ inner indent, (∀ c ∈ inner, isPlain c = true) ∧ (∀ c ∈ indent, isIndent c = true) ∧
    block = '{' :: '/' :: '*' :: (inner ++ '*' :: '/' :: '}' :: '\n' :: indent)

/-- Words for the boundaries of a text that are a number of blocks each, with none at its end. -/
structure IsBlocksFor (text : List Char) (words : ℕ → List Char) (counts : ℕ → ℕ) : Prop where
  exists_blocks : ∀ b, ∃ blocks : List (List Char), blocks.length = counts b ∧
    (∀ block ∈ blocks, IsBlock block) ∧ words b = blocks.flatten
  end_eq : words (byteLength text) = []

variable {text : List Char} {words : ℕ → List Char} {counts : ℕ → ℕ}

theorem IsBlock.two_le {block : List Char} (h : IsBlock block) : 2 ≤ byteLength block := by
  obtain ⟨inner, indent, -, -, rfl⟩ := h
  have hbrace : '{'.utf8Size = 1 := rfl
  have hslash : '/'.utf8Size = 1 := rfl
  rw [byteLength_cons, byteLength_cons]
  omega

/-- Every block takes at least two bytes. -/
theorem two_mul_length_le {blocks : List (List Char)} (h : ∀ block ∈ blocks, IsBlock block) :
    2 * blocks.length ≤ byteLength blocks.flatten := by
  induction blocks with
  | nil => simp
  | cons block blocks ih =>
    obtain ⟨hblock, hblocks⟩ := List.forall_mem_cons.1 h
    have htwo := hblock.two_le
    have hrest := ih hblocks
    rw [List.flatten_cons, byteLength_append, List.length_cons]
    omega

namespace IsBlocksFor

theorem two_mul_counts_le (hw : IsBlocksFor text words counts) (b : ℕ) :
    2 * counts b ≤ byteLength (words b) := by
  obtain ⟨blocks, hlength, hblocks, hwords⟩ := hw.exists_blocks b
  rw [hwords, ← hlength]
  exact two_mul_length_le hblocks

theorem counts_eq_zero (hw : IsBlocksFor text words counts) {b : ℕ} (h : words b = []) :
    counts b = 0 := by
  have hle := hw.two_mul_counts_le b
  rw [h, byteLength_nil] at hle
  omega

theorem counts_pos (hw : IsBlocksFor text words counts) {b : ℕ} (h : words b ≠ []) :
    0 < counts b := by
  obtain ⟨blocks, hlength, -, hwords⟩ := hw.exists_blocks b
  rw [← hlength, List.length_pos_iff]
  rintro rfl
  exact h hwords

theorem head?_words (hw : IsBlocksFor text words counts) (b : ℕ) :
    ∀ c ∈ (words b).head?, c = '{' := by
  obtain ⟨blocks, -, hblocks, hwords⟩ := hw.exists_blocks b
  rw [hwords]
  cases blocks with
  | nil => simp
  | cons block blocks =>
    obtain ⟨inner, indent, -, -, rfl⟩ := hblocks block List.mem_cons_self
    simp

/-- What ends in front of a brace ends in front of blocks, too. -/
theorem head?_interleave (hw : IsBlocksFor text words counts) {p : Char → Bool}
    (hp : p '{' = false) {cs : List Char} (hcs : cs.head?.any p = false) (pos : ℕ) :
    (interleave words pos cs).head?.any p = false := by
  rw [interleave_eq_bare]
  cases hwords : words pos with
  | nil => rw [List.nil_append, head?_bare, hcs]
  | cons c word =>
    obtain rfl := hw.head?_words pos c (by rw [hwords]; rfl)
    exact hp

theorem isPartingFor (hw : IsBlocksFor text words counts) : IsPartingFor text words where
  isParting b c hc := by
    rw [hw.head?_words b c hc]
    rfl
  end_eq := hw.end_eq

end IsBlocksFor

/-- Over the words at a boundary. -/
theorem AtStop.overWords {c d : Cursor} (h : AtStop text words c d) :
    AtStart text words c
      { pos := d.pos + byteLength (words c.pos), rest := bare words c.pos c.rest } :=
  ⟨h.reached, h.reached'.trans ⟨words c.pos, h.rest_eq.trans (interleave_eq_bare _ _ _), rfl⟩, rfl⟩

/-! ### Tokens that end at a brace -/

namespace Lexeme

open Cursor

theorem read_closeBrace (pos : ℕ) (rest : List Char) :
    read { pos, rest := '}' :: rest } =
      { kind := .closeBrace, next := { pos := pos + 1, rest } } := by
  have halpha : isAlphabetic '}' = false := by decide
  have hsize : '}'.utf8Size = 1 := rfl
  simp [read, readMark, marks, beginsWithMark, Cursor.isIdentifierStart, halpha, Cursor.skip, hsize]

theorem read_greaterThan (pos : ℕ) (rest : List Char) :
    read { pos, rest := '>' :: rest } =
      { kind := .greaterThan, next := { pos := pos + 1, rest } } := by
  have halpha : isAlphabetic '>' = false := by decide
  have hsize : '>'.utf8Size = 1 := rfl
  simp [read, readMark, marks, beginsWithMark, Cursor.isIdentifierStart, halpha, Cursor.skip, hsize]

theorem mem_marks_greaterThan : (">", .greaterThan) ∈ marks := by decide

theorem mem_marks_closeBrace : ("\x7d", .closeBrace) ∈ marks := by decide

/-- Text between tags goes on up to a brace or a tag. -/
theorem next_readMarkup_of_text {c : Cursor} (h : (readMarkup c).kind = .jsxText) :
    (readMarkup c).next = skipWhile (fun c => c ≠ '{' && c ≠ '<') c := by
  obtain ⟨pos, _ | ⟨x, cs⟩⟩ := c
  · cases h
  · rw [readMarkup_cons] at h ⊢
    split_ifs at h ⊢
    rfl

/-- Every other token between tags begins with a brace or is a tag. -/
theorem head?_of_readMarkup {c : Cursor} (h : (readMarkup c).kind ≠ .jsxText) :
    c.rest.head?.any (fun c => c ≠ '{' && c ≠ '<') = false := by
  obtain ⟨pos, _ | ⟨x, cs⟩⟩ := c
  · rfl
  · rw [readMarkup_cons] at h
    split_ifs at h with hangle _ hbrace
    · simp [hangle]
    · simp [hangle]
    · simp [hbrace]
    · exact absurd rfl h

/-- A token of one character that stands for itself. -/
theorem isClosed_of_eq_read {read' : Cursor → Lexeme} {x : Char} {kind : TokenKind} {c : Cursor}
    (hrest : [x] <+: c.rest) (hread : ∀ pos rest, read' { pos, rest := x :: rest } =
      { kind, next := { pos := pos + x.utf8Size, rest } }) : IsClosed read' c := by
  obtain ⟨pos, cs⟩ := c
  obtain ⟨cs, rfl⟩ := hrest
  rw [IsClosed, List.singleton_append, hread]
  exact ⟨[x], rfl, rfl, fun pos rest => hread pos rest⟩

theorem isClosed_of_kind_read {c : Cursor} (h : (read c).kind ∈ [.greaterThan, .closeBrace]) :
    IsClosed read c := by
  simp only [List.mem_cons, List.not_mem_nil, or_false] at h
  rcases h with h | h
  · exact isClosed_of_eq_read (isPrefix_of_kind_read mem_marks_greaterThan h) read_greaterThan
  · exact isClosed_of_eq_read (isPrefix_of_kind_read mem_marks_closeBrace h) read_closeBrace

theorem isClosed_of_kind_readAttributeValue {c : Cursor}
    (h : (readAttributeValue c).kind ∈ [.greaterThan, .closeBrace]) :
    IsClosed readAttributeValue c := by
  simp only [List.mem_cons, List.not_mem_nil, or_false] at h
  rcases h with h | h
  · exact isClosed_of_eq_read (isPrefix_of_kind_readAttributeValue mem_marks_greaterThan h)
      read_greaterThan
  · exact isClosed_of_eq_read (isPrefix_of_kind_readAttributeValue mem_marks_closeBrace h)
      read_closeBrace

end Lexeme

/-! ### Scanners -/

namespace Scanner

/-- No block comes into the token, nor in front of it from a given offset on, nor behind it unless the
token is of one of some kinds. -/
structure Clear (words : ℕ → List Char) (since : ℕ) (ends : List TokenKind) (s : Scanner) :
    Prop where
  terminated : s.unterminated = false
  front : ∀ b, since ≤ b → b ≤ s.start.pos → words b = []
  token : ∀ b, s.start.pos < b → b < s.stop.pos → words b = []
  dot : "?.".toList.isPrefixOf s.start.rest = true → words (s.start.pos + 2) = []
  behind : words s.stop.pos = [] ∨ s.kind ∈ ends

instance (words : ℕ → List Char) (since : ℕ) (ends : List TokenKind) (s : Scanner) :
    Decidable (Clear words since ends s) :=
  decidable_of_iff
    (s.unterminated = false ∧ (∀ b < s.start.pos + 1, since ≤ b → words b = []) ∧
      (∀ b < s.stop.pos, s.start.pos < b → words b = []) ∧
      ("?.".toList.isPrefixOf s.start.rest = true → words (s.start.pos + 2) = []) ∧
      (words s.stop.pos = [] ∨ s.kind ∈ ends))
    ⟨fun ⟨hend, hfront, htoken, hdot, hbehind⟩ =>
      ⟨hend, fun b hle hlt => hfront b (Nat.lt_succ_of_le hlt) hle, fun b hgt hlt => htoken b hlt hgt,
        hdot, hbehind⟩,
      fun ⟨hend, hfront, htoken, hdot, hbehind⟩ =>
      ⟨hend, fun b hlt hle => hfront b hle (Nat.le_of_lt_succ hlt), fun b hlt hgt => htoken b hgt hlt,
        hdot, hbehind⟩⟩

variable {s t : Scanner} {since : ℕ} {ends : List TokenKind}

/-- A token with nothing behind it either. -/
theorem Clear.whole (h : s.Clear words since ends) (hstop : words s.stop.pos = []) :
    s.Whole words s.start.pos where
  terminated := h.terminated
  trivia _ hle hlt := absurd hlt (Nat.not_lt.2 hle)
  token := h.token
  text _ := hstop
  dot := h.dot

/-- The token behind the one at hand, outside markup. -/
theorem aligned_scan_of_clear (hw : IsPartingFor text words) {scan : Grammar.Scan}
    (hscan : scan ≠ .markup) (h : AtStop text words s.stop t.stop)
    (hclear : (scan.apply s).Clear words s.stop.pos [.greaterThan, .closeBrace]) :
    Aligned text words (fun _ _ => byteLength text) (scan.apply s) (scan.apply t) := by
  have hstart : (scan.apply s).start = s.stop.toToken.1 := by
    cases scan with
    | code | attributeValue => rfl
    | markup => exact absurd rfl hscan
  have hnone : words s.stop.toToken.1.pos = [] := by
    rw [← hstart]
    exact hclear.front _ (Grammar.State.stop_le_start_scan scan s) le_rfl
  have htrivia : Cursor.TriviaAligned text words (fun _ _ => byteLength text) s.stop t.stop := by
    obtain ⟨htoken, hbreak⟩ := Cursor.toToken_aligned hw h (by simp [hnone]) fun b hle hlt =>
      hclear.front b hle (by rw [hstart]; exact hlt.le)
    refine ⟨htoken, hbreak.trans ?_⟩
    rw [hnone, hw.end_eq]
  have hsound := Grammar.State.sound_scan_of_ahead scan h.reached
  have hsound' := Grammar.State.sound_scan_of_ahead scan h.reached'
  by_cases hstop : words (scan.apply s).stop.pos = []
  · exact aligned_scan hw scan h (fun _ => htrivia) (fun hmarkup => absurd hmarkup hscan)
      (hclear.whole hstop) (by simp [hstop])
  -- a token that ends at a brace is read whatever is behind it
  have hkind := hclear.behind.resolve_left hstop
  have hlt : (scan.apply s).start.pos < (scan.apply s).stop.pos := by
    refine hsound.lt fun hend => ?_
    rw [hend] at hkind
    revert hkind
    decide
  cases scan with
  | code =>
    exact .of_lexeme htrivia ((Lexeme.isClosed_of_kind_read hkind).aligned htrivia.1 hlt
      hclear.token) hsound hsound' hclear.token
  | attributeValue =>
    exact .of_lexeme htrivia ((Lexeme.isClosed_of_kind_readAttributeValue hkind).aligned htrivia.1
      hlt hclear.token) hsound hsound' hclear.token
  | markup => exact absurd rfl hscan

/-- The token between tags behind some blocks, or where there are none. -/
theorem aligned_nextMarkup_of_clear (hw : IsBlocksFor text words counts)
    (hstart : AtStart text words s.stop t.stop)
    (hclear : s.nextMarkup.Clear words since [.jsxText]) :
    Aligned text words (fun _ _ => byteLength text) s.nextMarkup t.nextMarkup := by
  have hsound : s.nextMarkup.Sound text := sound_nextMarkup hstart.reached
  have hsound' : t.nextMarkup.Sound (interleave words 0 text) := sound_nextMarkup hstart.reached'
  have hfront : (words (byteLength text)).any isLineBreak = false := by
    rw [hw.end_eq]
    rfl
  by_cases hstop : words s.nextMarkup.stop.pos = []
  · exact aligned_nextMarkup hw.isPartingFor hfront hstart hsound hsound' (hclear.whole hstop)
      (by simp [hstop])
  -- text ends at the brace of a block as well
  have hkind : (Lexeme.readMarkup s.stop).kind = .jsxText :=
    List.mem_singleton.1 (hclear.behind.resolve_left hstop)
  obtain ⟨passed, hpassed, hpos, hend, hmove⟩ := Lexeme.exists_readMarkup_text hkind
  have hlt : s.stop.pos < (Lexeme.readMarkup s.stop).next.pos :=
    Lexeme.lt_readMarkup (by rw [hkind]; decide)
  exact .of_markup hfront hstart (Lexeme.aligned_of_passed hstart hlt hclear.token hpassed hpos
    fun _ => hmove _ _ (hw.head?_interleave rfl hend _)) hsound hsound' hclear.token

/-- The token at hand, read anew. -/
theorem aligned_rescan_of_clear (hw : IsPartingFor text words) {front : ℕ → ℕ → ℕ}
    (scan : Grammar.Rescan) (h : Aligned text words front s t)
    (hclear : (scan.apply s).Clear words since [.greaterThan, .closeBrace, .jsxText]) :
    Aligned text words front (scan.apply s) (scan.apply t) := by
  have hsound := h.sound.of_sameStart (Grammar.State.sameStart_rescan scan h.sound)
  have hsound' := h.sound'.of_sameStart (Grammar.State.sameStart_rescan scan h.sound')
  cases scan with
  | greater => exact aligned_rescanGreater hw h hsound hsound' hclear.token
  | template => exact aligned_rescanTemplate h hsound hsound' hclear.terminated hclear.token
  -- a regular expression and a longer name have nothing directly behind them
  | slash =>
    have hregex : s.rescanSlash.kind = .regularExpressionLiteral →
        s.rescanSlash.Whole words s.rescanSlash.start.pos ∧
          ∀ c ∈ (words s.rescanSlash.stop.pos).head?, isSpacing c = true := by
      intro hkind
      have hstop : words s.rescanSlash.stop.pos = [] := hclear.behind.resolve_right fun hmem => by
        have hmem : s.rescanSlash.kind ∈ _ := hmem
        rw [hkind] at hmem
        revert hmem
        decide
      exact ⟨hclear.whole hstop, by simp [hstop]⟩
    exact aligned_rescanSlash hw h hsound hsound' hregex
  | markupName =>
    refine aligned_extendMarkupName hw h hsound hsound' hclear.token fun hkind => ?_
    have hstop : words s.extendMarkupName.stop.pos = [] :=
      hclear.behind.resolve_right fun hmem => by
        have hmem : s.extendMarkupName.kind ∈ _ := hmem
        simp only [List.mem_cons, List.not_mem_nil, or_false] at hmem
        rcases hmem with hmem | hmem | hmem <;> rw [hmem] at hkind <;> revert hkind <;> decide
    simp [hstop]

end Scanner

end ExpectError
