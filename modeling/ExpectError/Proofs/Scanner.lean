import ExpectError.Proofs.Bytes
import ExpectError.Token.Scanner

/-!
# The scanner only moves forward

Every reader of the scanner moves over characters of the text: the place where it stops lies ahead of
the place where it started. A token that is not the end of the file has at least one character.

* `Cursor.Ahead`: one cursor is reached from another by moving over characters;
* `Lexeme.ahead_read`, `Lexeme.lt_read`: what a token takes up;
* `Scanner.Sound`: a scanner stands on a token of its text, and no way of moving on or of reading the
  token anew changes that.
-/

namespace ExpectError

open Text

namespace Cursor

/-- The cursor `d` is reached from `c` by moving over characters. -/
def Ahead (c d : Cursor) : Prop :=
  ∃ passed, c.rest = passed ++ d.rest ∧ d.pos = c.pos + byteLength passed

theorem Ahead.refl (c : Cursor) : c.Ahead c :=
  ⟨[], rfl, rfl⟩

theorem Ahead.trans {a b c : Cursor} (hab : a.Ahead b) (hbc : b.Ahead c) : a.Ahead c := by
  obtain ⟨x, hx, px⟩ := hab
  obtain ⟨y, hy, py⟩ := hbc
  exact ⟨x ++ y, by rw [hx, hy, List.append_assoc], by rw [py, px, byteLength_append, Nat.add_assoc]⟩

theorem Ahead.pos_le {c d : Cursor} (h : c.Ahead d) : c.pos ≤ d.pos := by
  obtain ⟨x, -, p⟩ := h
  omega

/-- Over one character, and on from there. -/
theorem Ahead.over {pos : ℕ} {c : Char} {cs : List Char} {d : Cursor}
    (h : Ahead { pos := pos + c.utf8Size, rest := cs } d) : Ahead { pos, rest := c :: cs } d := by
  obtain ⟨x, hx, px⟩ := h
  refine ⟨c :: x, ?_, ?_⟩
  · simpa using hx
  · simp only [byteLength_cons] at *
    omega

theorem Ahead.over_pos_lt {pos : ℕ} {c : Char} {cs : List Char} {d : Cursor}
    (h : Ahead { pos := pos + c.utf8Size, rest := cs } d) : pos < d.pos := by
  have := h.pos_le
  have := c.utf8Size_pos
  simp only at *
  omega

theorem Ahead.isBoundary {text : List Char} {c : Cursor} (h : (ofText text).Ahead c) :
    IsBoundary text c.pos := by
  obtain ⟨x, hx, px⟩ := h
  exact ⟨x, c.rest, hx, by simpa [ofText] using px.symm⟩

/-- What stands at a cursor, by its offsets. -/
theorem Ahead.slice?_eq {text word rest : List Char} {c : Cursor} (h : (ofText text).Ahead c)
    (hrest : c.rest = word ++ rest) : slice? c.pos (c.pos + byteLength word) text = some word := by
  obtain ⟨before, htext, hpos⟩ := h
  have htext : text = before ++ c.rest := htext
  have hpos : c.pos = byteLength before := hpos.trans (Nat.zero_add _)
  rw [hpos, htext, hrest]
  exact slice?_append before word rest

theorem Ahead.exists_of_slice? {text word : List Char} {c : Cursor} {stop : ℕ}
    (h : (ofText text).Ahead c) (hslice : slice? c.pos stop text = some word) :
    ∃ rest, c.rest = word ++ rest := by
  obtain ⟨before, rest, htext, hlength⟩ := slice?_eq_some hslice
  obtain ⟨before', htext', hpos⟩ := h
  have hpos : c.pos = byteLength before' := hpos.trans (Nat.zero_add _)
  exact ⟨rest, (append_inj_of_byteLength (htext'.symm.trans htext) (by omega)).2⟩

/-- Between a cursor and a later offset there is a character. -/
theorem Ahead.rest_ne_nil {c d : Cursor} (h : c.Ahead d) (hlt : c.pos < d.pos) : c.rest ≠ [] := by
  obtain ⟨x, hx, px⟩ := h
  rintro hnil
  rw [hnil] at hx
  rw [(List.append_eq_nil_iff.1 hx.symm).1] at px
  simp at px
  omega

/-! ### The readers -/

theorem ahead_skip (n : ℕ) (c : Cursor) : c.Ahead (c.skip n) := by
  induction n generalizing c with
  | zero => exact .refl c
  | succ n ih =>
    obtain ⟨pos, rest⟩ := c
    cases rest with
    | nil => exact .refl _
    | cons x xs => exact (ih _).over

theorem lt_skip {n : ℕ} {c : Cursor} (hn : 0 < n) (hc : c.rest ≠ []) : c.pos < (c.skip n).pos := by
  obtain ⟨pos, rest⟩ := c
  obtain ⟨m, rfl⟩ : ∃ m, n = m + 1 := ⟨n - 1, by omega⟩
  cases rest with
  | nil => exact absurd rfl hc
  | cons x xs => exact (ahead_skip m _).over_pos_lt

theorem ahead_skipRun (p : Char → Bool) (pos : ℕ) (cs : List Char) :
    Ahead { pos, rest := cs } (skipRun p pos cs) := by
  fun_induction skipRun p pos cs with
  | case1 => exact .refl _
  | case2 _ _ _ _ ih => exact ih.over
  | case3 => exact .refl _

theorem ahead_skipWhile (p : Char → Bool) (c : Cursor) : c.Ahead (c.skipWhile p) :=
  ahead_skipRun p c.pos c.rest

theorem lt_skipWhile {p : Char → Bool} {pos : ℕ} {c : Char} {cs : List Char} (hc : p c = true) :
    pos < (skipWhile p { pos, rest := c :: cs }).pos := by
  rw [skipWhile, skipRun, if_pos hc]
  exact (ahead_skipRun p _ cs).over_pos_lt

theorem ahead_skipTrivia (trivia : Trivia) (broken : Bool) (pos : ℕ) (cs : List Char) :
    Ahead { pos, rest := cs } (skipTrivia trivia broken pos cs).1 := by
  fun_induction skipTrivia trivia broken pos cs with
  | case1 => exact .refl _
  | case2 _ _ _ _ _ ih => exact ih.over
  | case3 _ _ _ _ _ ih => exact ih.over
  | case4 _ _ _ ih => exact ih.over.over
  | case5 _ _ _ _ _ ih => exact ih.over
  | case6 _ _ _ ih => exact ih.over.over
  | case7 _ _ _ ih => exact ih.over.over
  | case8 _ _ _ _ _ _ _ ih => exact ih.over
  | case9 _ _ _ _ _ _ _ _ ih => exact ih.over
  | case10 => exact .refl _

theorem ahead_toToken (c : Cursor) : c.Ahead c.toToken.1 := by
  unfold toToken
  split
  next cs hpos hrest =>
    obtain ⟨pos, rest⟩ := c
    cases hpos
    cases hrest
    exact Ahead.over (c := '#') (Ahead.over (c := '!') (ahead_skipTrivia _ _ 2 cs))
  next => exact ahead_skipTrivia _ _ _ _

/-- No token begins with a blank or a line break. -/
theorem head?_toToken (c : Cursor) :
    ∀ x ∈ c.toToken.1.rest.head?, isGap x = false ∧ isLineBreak x = false := by
  have hskip : ∀ trivia broken pos cs, ∀ x ∈ (skipTrivia trivia broken pos cs).1.rest.head?,
      isGap x = false ∧ isLineBreak x = false := by
    intro trivia broken pos cs
    fun_induction skipTrivia trivia broken pos cs with
    | case1 => simp
    | case10 broken pos c cs _ _ hbreak hgap =>
      rintro x ⟨⟩
      exact ⟨by simpa using hgap, by simpa using hbreak⟩
    | _ => assumption
  unfold toToken
  split <;> exact hskip _ _ _ _

theorem ahead_identifierEnd (escape : Escape) (pos : ℕ) (cs : List Char) :
    Ahead { pos, rest := cs } (identifierEnd escape pos cs) := by
  fun_induction identifierEnd escape pos cs with
  | case1 => exact .refl _
  | case2 _ _ _ ih => exact ih.over
  | case3 _ _ ih => exact ih.over.over.over
  | case4 _ _ _ ih => exact ih.over.over
  | case5 _ _ _ _ _ _ ih => exact ih.over
  | case6 => exact .refl _

theorem ahead_stringEnd (quote : Char) (pos : ℕ) (cs : List Char) :
    Ahead { pos, rest := cs } (stringEnd quote pos cs).1 := by
  fun_induction stringEnd quote pos cs with
  | case1 => exact .refl _
  | case2 => exact (Ahead.refl _).over
  | case3 => exact (Ahead.refl _).over
  | case4 _ _ _ _ ih => exact ih.over.over
  | case5 => exact .refl _
  | case6 _ _ _ _ _ _ ih => exact ih.over

theorem ahead_attributeStringEnd (quote : Char) (pos : ℕ) (cs : List Char) :
    Ahead { pos, rest := cs } (attributeStringEnd quote pos cs).1 := by
  fun_induction attributeStringEnd quote pos cs with
  | case1 => exact .refl _
  | case2 => exact (Ahead.refl _).over
  | case3 _ _ _ _ ih => exact ih.over

theorem ahead_templateEnd (pos : ℕ) (cs : List Char) :
    Ahead { pos, rest := cs } (templateEnd pos cs).1 := by
  fun_induction templateEnd pos cs with
  | case1 => exact .refl _
  | case2 => exact (Ahead.refl _).over
  | case3 => exact (Ahead.refl _).over.over
  | case4 _ _ _ ih => exact ih.over.over
  | case5 _ _ _ _ _ _ ih => exact ih.over

theorem ahead_regexEnd (inClass : Bool) (pos : ℕ) (cs : List Char) :
    Ahead { pos, rest := cs } (regexEnd inClass pos cs).1 := by
  fun_induction regexEnd inClass pos cs with
  | case1 => exact .refl _
  | case2 => exact .refl _
  | case3 => exact (Ahead.refl _).over
  | case4 _ _ _ _ _ ih => exact ih.over.over
  | case5 _ pos c cs hb hs hc =>
    obtain ⟨rfl, -⟩ : c = '/' ∧ _ := by simpa using hc
    exact (Ahead.refl _).over
  | case6 _ _ _ _ _ _ _ ih => exact ih.over

end Cursor

/-! ### Tokens -/

namespace Lexeme

open Cursor

theorem length_pos_of_mem_marks : ∀ mark ∈ marks, 0 < mark.1.toList.length := by
  decide

theorem ahead_readMark (c : Cursor) : c.Ahead (readMark c).next := by
  unfold readMark
  split
  · exact .refl c
  · split <;> exact ahead_skip _ c

theorem lt_readMark {c : Cursor} (h : c.rest ≠ []) : c.pos < (readMark c).next.pos := by
  unfold readMark
  split
  next hempty => exact absurd (List.isEmpty_iff.1 hempty) h
  next =>
    split
    next hmark => exact lt_skip (length_pos_of_mem_marks _ (List.mem_of_find?_eq_some hmark)) h
    next => exact lt_skip Nat.one_pos h

theorem ahead_readIdentifier (c : Cursor) : c.Ahead (readIdentifier c).next := by
  unfold readIdentifier
  split
  · split
    · exact ahead_identifierEnd _ _ _
    · exact ahead_skip 1 c
  · exact ahead_skip 1 c
  · exact ahead_identifierEnd _ _ _

theorem isIdentifierPart_of_start {c : Char} (h : isIdentifierStart c = true) :
    isIdentifierPart c = true := by
  simp only [isIdentifierStart, isIdentifierPart, Bool.or_eq_true] at *
  tauto

theorem lt_identifierEnd {pos : ℕ} {c : Char} {cs : List Char}
    (h : isIdentifierPart c = true ∨ c = '\\' ∧ cs.head? = some 'u') :
    pos < (identifierEnd .outside pos (c :: cs)).pos := by
  have hc := c.utf8Size_pos
  have hle : ∀ escape m ds, m ≤ (identifierEnd escape m ds).pos := fun escape m ds =>
    (ahead_identifierEnd escape m ds).pos_le
  rw [identifierEnd.eq_def]
  split
  · simp_all
  · simp_all
  · exact lt_of_lt_of_le (by omega) (hle _ _ _)
  · exact lt_of_lt_of_le (by omega) (hle _ _ _)
  next hne _ heq =>
    cases heq
    have hpart : isIdentifierPart c = true := by
      rcases h with h | ⟨rfl, hu⟩
      · exact h
      · obtain ⟨ds, rfl⟩ := List.head?_eq_some_iff.1 hu
        exact absurd rfl (hne ds rfl)
    rw [if_pos hpart]
    exact lt_of_lt_of_le (by omega) (hle _ _ _)

theorem lt_readIdentifier {c : Cursor} {x : Char} {cs : List Char} (hrest : c.rest = x :: cs)
    (h : isIdentifierStart x = true ∨ x = '\\') : c.pos < (readIdentifier c).next.pos := by
  have hne : c.rest ≠ [] := by simp [hrest]
  unfold readIdentifier
  split
  next d ds heq =>
    split_ifs with hd
    · show c.pos < (identifierEnd .outside c.pos c.rest).pos
      rw [heq]
      exact lt_identifierEnd (Or.inr ⟨rfl, by simp [hd]⟩)
    · exact lt_skip Nat.one_pos hne
  next => exact lt_skip Nat.one_pos hne
  next hbackslash hlone =>
    show c.pos < (identifierEnd .outside c.pos c.rest).pos
    rw [hrest]
    rcases h with h | rfl
    · exact lt_identifierEnd (Or.inl (isIdentifierPart_of_start h))
    · cases cs with
      | nil => exact absurd hrest hlone
      | cons d ds => exact absurd hrest (hbackslash d ds)

/-! #### Numbers -/

theorem ahead_skipDigits (isDigit : Char → Bool) (c : Cursor) : c.Ahead (skipDigits isDigit c) :=
  ahead_skipWhile _ c

theorem ahead_skipExponent (c : Cursor) : c.Ahead (skipExponent c) := by
  unfold skipExponent
  split
  · split_ifs
    · exact .refl c
    · exact (ahead_skip 1 c).trans (ahead_skipDigits _ _)
    · exact (ahead_skip 2 c).trans (ahead_skipDigits _ _)
    · exact .refl c
  · split_ifs
    · exact (ahead_skip 1 c).trans (ahead_skipDigits _ _)
    · exact .refl c
  · exact .refl c

/-- A decimal number is moved over from its digits or from its point on. -/
theorem skipDecimal_cases (c : Cursor) :
    (skipDigits Char.isDigit c).Ahead (skipDecimal c) ∧
      ∀ cs, (skipDigits Char.isDigit c).rest = '.' :: cs →
        ((skipDigits Char.isDigit c).skip 1).Ahead (skipDecimal c) := by
  refine ⟨?_, fun cs hcs => ?_⟩
  · refine Ahead.trans ?_ (ahead_skipExponent _)
    split
    · exact (ahead_skip 1 _).trans (ahead_skipDigits _ _)
    · exact .refl _
  · refine Ahead.trans ?_ (ahead_skipExponent _)
    simp only [hcs]
    exact ahead_skipDigits _ _

theorem ahead_skipDecimal (c : Cursor) : c.Ahead (skipDecimal c) :=
  (ahead_skipDigits Char.isDigit c).trans (skipDecimal_cases c).1

theorem lt_skipDecimal {c : Cursor} {x : Char} {cs : List Char} (hrest : c.rest = x :: cs)
    (h : x.isDigit = true ∨ x = '.') : c.pos < (skipDecimal c).pos := by
  obtain ⟨pos, rest⟩ := c
  cases hrest
  rcases h with h | rfl
  · refine lt_of_lt_of_le (lt_skipWhile ?_) (skipDecimal_cases _).1.pos_le
    simp [h]
  · -- no digit stands in front of the point
    have hstay : skipDigits Char.isDigit { pos, rest := '.' :: cs } = { pos, rest := '.' :: cs } := by
      simp [skipDigits, skipWhile, skipRun]
    have hpoint := (skipDecimal_cases { pos, rest := '.' :: cs }).2 cs (by rw [hstay])
    rw [hstay] at hpoint
    exact lt_of_lt_of_le (lt_skip Nat.one_pos (by simp)) hpoint.pos_le

theorem ahead_skipNumber (c : Cursor) : c.Ahead (skipNumber c) := by
  unfold skipNumber
  split
  · split_ifs
    · exact (ahead_skip 2 c).trans (ahead_skipDigits _ _)
    · exact (ahead_skip 2 c).trans (ahead_skipDigits _ _)
    · exact (ahead_skip 2 c).trans (ahead_skipDigits _ _)
    · exact ahead_skipDecimal c
  · exact ahead_skipDecimal c

theorem lt_skipNumber {c : Cursor} {x : Char} {cs : List Char} (hrest : c.rest = x :: cs)
    (h : x.isDigit = true ∨ x = '.') : c.pos < (skipNumber c).pos := by
  have hskip : ∀ p, c.pos < (skipDigits p (c.skip 2)).pos := fun p =>
    lt_of_lt_of_le (lt_skip two_pos (by simp [hrest])) (ahead_skipDigits p _).pos_le
  unfold skipNumber
  split
  · split_ifs
    · exact hskip _
    · exact hskip _
    · exact hskip _
    · exact lt_skipDecimal hrest h
  · exact lt_skipDecimal hrest h

theorem ahead_readNumber (c : Cursor) : (skipNumber c).Ahead (readNumber c).next := by
  unfold readNumber
  dsimp only
  split
  · exact ahead_skip 1 _
  · exact .refl _

/-! #### All tokens -/

/-- The template token that stops where its characters do: of one kind if it has been closed there or
the text is over, and of another if a substitution is opened. -/
def templateLexeme (closed opened : TokenKind) (e : Cursor × TemplateStop) : Lexeme where
  kind := if e.2 = .substitution then opened else closed
  next := e.1
  unterminated := e.2 = .endOfText

theorem readTemplateHead_eq (c : Cursor) :
    readTemplateHead c =
      templateLexeme .noSubstitutionTemplateLiteral .templateHead (templateEnd c.pos c.rest) := by
  rw [readTemplateHead]
  obtain ⟨next, stop⟩ := templateEnd c.pos c.rest
  cases stop <;> rfl

theorem readTemplateSpan_eq (c : Cursor) :
    readTemplateSpan c =
      templateLexeme .templateTail .templateMiddle (templateEnd c.pos c.rest) := by
  rw [readTemplateSpan]
  obtain ⟨next, stop⟩ := templateEnd c.pos c.rest
  cases stop <;> rfl

theorem kind_templateLexeme_ne {closed opened kind : TokenKind} (hclosed : closed ≠ kind)
    (hopened : opened ≠ kind) (e : Cursor × TemplateStop) :
    (templateLexeme closed opened e).kind ≠ kind := by
  rw [templateLexeme]
  split
  · exact hopened
  · exact hclosed

theorem kind_readTemplateHead_ne {kind : TokenKind} (hclosed : .noSubstitutionTemplateLiteral ≠ kind)
    (hopened : .templateHead ≠ kind) (c : Cursor) : (readTemplateHead c).kind ≠ kind := by
  rw [readTemplateHead_eq]
  exact kind_templateLexeme_ne hclosed hopened _

theorem kind_readTemplateSpan_ne {kind : TokenKind} (hclosed : .templateTail ≠ kind)
    (hopened : .templateMiddle ≠ kind) (c : Cursor) : (readTemplateSpan c).kind ≠ kind := by
  rw [readTemplateSpan_eq]
  exact kind_templateLexeme_ne hclosed hopened _

theorem ahead_readTemplateHead (c : Cursor) : c.Ahead (readTemplateHead c).next := by
  rw [readTemplateHead_eq]
  exact ahead_templateEnd c.pos c.rest

theorem ahead_readTemplateSpan (c : Cursor) : c.Ahead (readTemplateSpan c).next := by
  rw [readTemplateSpan_eq]
  exact ahead_templateEnd c.pos c.rest

theorem ahead_readHash (c : Cursor) : c.Ahead (readHash c).next := by
  unfold readHash
  split
  · split
    · exact (ahead_skip 1 c).trans (ahead_identifierEnd _ _ _)
    · exact ahead_readMark c
  · exact ahead_readMark c

theorem lt_readHash {c : Cursor} (h : c.rest ≠ []) : c.pos < (readHash c).next.pos := by
  unfold readHash
  split
  · split
    · exact lt_of_lt_of_le (lt_skip Nat.one_pos h) (ahead_identifierEnd _ _ _).pos_le
    · exact lt_readMark h
  · exact lt_readMark h

theorem ahead_read (c : Cursor) : c.Ahead (read c).next := by
  unfold read
  split
  · exact .refl c
  · split_ifs
    · exact ahead_readIdentifier c
    · exact (ahead_skipNumber c).trans (ahead_readNumber c)
    · exact (ahead_skip 1 c).trans (ahead_stringEnd _ _ _)
    · exact (ahead_skip 1 c).trans (ahead_readTemplateHead _)
    · exact (ahead_skipNumber c).trans (ahead_readNumber c)
    · exact ahead_readHash c
    · exact ahead_readMark c

/-- In front of the end of a text, a token has at least one character. -/
theorem lt_read_of_ne_nil {c : Cursor} (hne : c.rest ≠ []) : c.pos < (read c).next.pos := by
  have hone := lt_skip Nat.one_pos hne
  unfold read
  split
  next hnil => exact absurd hnil hne
  next x cs hrest =>
    split_ifs with h₁ h₂ h₃ h₄ h₅ h₆
    · exact lt_readIdentifier hrest (by simpa using h₁)
    · exact lt_of_lt_of_le (lt_skipNumber hrest (Or.inl h₂)) (ahead_readNumber c).pos_le
    · exact lt_of_lt_of_le hone (ahead_stringEnd _ _ _).pos_le
    · exact lt_of_lt_of_le hone (ahead_readTemplateHead _).pos_le
    · refine lt_of_lt_of_le (lt_skipNumber hrest (Or.inr ?_)) (ahead_readNumber c).pos_le
      simp at h₅
      exact h₅.1
    · exact lt_readHash hne
    · exact lt_readMark hne

/-- A token that is not the end of the file has at least one character. -/
theorem lt_read {c : Cursor} (h : (read c).kind ≠ .endOfFile) : c.pos < (read c).next.pos := by
  refine lt_read_of_ne_nil fun hnil => ?_
  simp [read, hnil] at h

theorem ahead_readAttributeValue (c : Cursor) : c.Ahead (readAttributeValue c).next := by
  unfold readAttributeValue
  split
  · split_ifs
    · exact (ahead_skip 1 c).trans (ahead_attributeStringEnd _ _ _)
    · exact ahead_read c
  · exact ahead_read c

theorem lt_readAttributeValue_of_ne_nil {c : Cursor} (hne : c.rest ≠ []) :
    c.pos < (readAttributeValue c).next.pos := by
  obtain ⟨pos, rest⟩ := c
  obtain ⟨x, cs, rfl⟩ := List.exists_cons_of_ne_nil hne
  by_cases hquote : (x = '"' || x = '\'') = true
  · simp only [readAttributeValue, hquote, if_true]
    exact (ahead_attributeStringEnd x _ cs).over_pos_lt
  · simp only [readAttributeValue]
    rw [if_neg hquote]
    exact lt_read_of_ne_nil (c := { pos, rest := x :: cs }) hne

theorem lt_readAttributeValue {c : Cursor} (h : (readAttributeValue c).kind ≠ .endOfFile) :
    c.pos < (readAttributeValue c).next.pos := by
  refine lt_readAttributeValue_of_ne_nil fun hnil => ?_
  simp [readAttributeValue, read, hnil] at h

theorem ahead_readMarkup (c : Cursor) : c.Ahead (readMarkup c).next := by
  unfold readMarkup
  split
  · exact .refl c
  · exact ahead_skip 2 c
  · exact ahead_skip 1 c
  · exact ahead_skip 1 c
  · exact ahead_skipWhile _ c

theorem lt_readMarkup_of_ne_nil {c : Cursor} (hne : c.rest ≠ []) :
    c.pos < (readMarkup c).next.pos := by
  obtain ⟨pos, rest⟩ := c
  unfold readMarkup
  split
  next hnil => exact absurd hnil hne
  next => exact lt_skip two_pos hne
  next => exact lt_skip Nat.one_pos hne
  next => exact lt_skip Nat.one_pos hne
  next hnil _ hless hbrace =>
    cases rest with
    | nil => exact absurd rfl hnil
    | cons x cs =>
      refine lt_skipWhile ?_
      have hx : x ≠ '{' := by rintro rfl; exact hbrace _ rfl
      have hx' : x ≠ '<' := by rintro rfl; exact hless _ rfl
      simp [hx, hx']

theorem lt_readMarkup {c : Cursor} (h : (readMarkup c).kind ≠ .endOfFile) :
    c.pos < (readMarkup c).next.pos := by
  refine lt_readMarkup_of_ne_nil fun hnil => ?_
  simp [readMarkup, hnil] at h

end Lexeme

/-! ### The scanner -/

namespace Scanner

open Cursor

/-- A scanner stands on a token of the text: the token starts at a place of the text and stops ahead
of it, and it has a character unless it is the end of the file. -/
structure Sound (text : List Char) (s : Scanner) : Prop where
  reached : (Cursor.ofText text).Ahead s.start
  ahead : s.start.Ahead s.stop
  lt : s.kind ≠ .endOfFile → s.start.pos < s.stop.pos

variable {text : List Char} {s : Scanner}

theorem Sound.reached_stop (h : s.Sound text) : (Cursor.ofText text).Ahead s.stop :=
  h.reached.trans h.ahead

theorem sound_advance {read : Cursor → Lexeme} (hahead : ∀ c : Cursor, c.Ahead (read c).next)
    (hlt : ∀ c, (read c).kind ≠ .endOfFile → c.pos < (read c).next.pos)
    (h : (Cursor.ofText text).Ahead s.stop) : (s.advance read).Sound text where
  reached := h.trans (ahead_toToken _)
  ahead := hahead _
  lt := hlt _

theorem sound_next (h : (Cursor.ofText text).Ahead s.stop) : s.next.Sound text :=
  sound_advance Lexeme.ahead_read (fun _ => Lexeme.lt_read) h

theorem sound_nextAttributeValue (h : (Cursor.ofText text).Ahead s.stop) :
    s.nextAttributeValue.Sound text :=
  sound_advance Lexeme.ahead_readAttributeValue (fun _ => Lexeme.lt_readAttributeValue) h

theorem sound_nextMarkup (h : (Cursor.ofText text).Ahead s.stop) : s.nextMarkup.Sound text where
  reached := h
  ahead := Lexeme.ahead_readMarkup _
  lt := Lexeme.lt_readMarkup

theorem ahead_start_next (s : Scanner) : s.stop.Ahead s.next.start :=
  ahead_toToken _

theorem ahead_start_nextAttributeValue (s : Scanner) : s.stop.Ahead s.nextAttributeValue.start :=
  ahead_toToken _

/-- The token read anew: it starts where it started, and it is still a token. -/
structure SameStart (s t : Scanner) : Prop where
  start_eq : t.start = s.start
  ahead : s.start.Ahead t.stop
  lt : s.kind ≠ .endOfFile → t.kind ≠ .endOfFile ∧ s.start.pos < t.stop.pos
  eq_of_end : s.kind = .endOfFile → t = s

theorem Sound.of_sameStart {t : Scanner} (h : s.Sound text) (hst : SameStart s t) :
    t.Sound text where
  reached := hst.start_eq ▸ h.reached
  ahead := hst.start_eq ▸ hst.ahead
  lt := by
    intro hk
    rw [hst.start_eq]
    by_cases hs : s.kind = .endOfFile
    · rw [hst.eq_of_end hs] at hk
      exact absurd hs hk
    · exact (hst.lt hs).2

theorem Sound.sameStart_self (h : s.Sound text) : SameStart s s :=
  ⟨rfl, h.ahead, fun hk => ⟨hk, h.lt hk⟩, fun _ => rfl⟩

theorem ne_endOfFile_of_mem_greaterEndings :
    ∀ ending ∈ greaterEndings, ending.2 ≠ .endOfFile := by
  decide

theorem sameStart_rescanGreater (h : s.Sound text) : SameStart s s.rescanGreater := by
  unfold rescanGreater
  split_ifs with hk
  · split
    next ending kind hending =>
      have hne := ne_endOfFile_of_mem_greaterEndings _ (List.mem_of_find?_eq_some hending)
      have hahead := ahead_skip ending.toList.length s.stop
      exact ⟨rfl, h.ahead.trans hahead, fun hs => ⟨hne, (h.lt hs).trans_le hahead.pos_le⟩,
        by simp [hk]⟩
    next => exact h.sameStart_self
  · exact h.sameStart_self

theorem sameStart_rescanSlash (h : s.Sound text) : SameStart s s.rescanSlash := by
  unfold rescanSlash
  split_ifs with hk
  · have hne : s.kind ≠ .endOfFile := by
      rintro he
      simp [he] at hk
    have hahead := (ahead_regexEnd false (s.start.skip 1).pos (s.start.skip 1).rest).trans
      (ahead_skipWhile isIdentifierPart _)
    have hlt := lt_skip Nat.one_pos (h.ahead.rest_ne_nil (h.lt hne))
    exact ⟨rfl, (ahead_skip 1 _).trans hahead, fun _ => ⟨by simp, hlt.trans_le hahead.pos_le⟩,
      fun he => absurd he hne⟩
  · exact h.sameStart_self

theorem sameStart_rescanTemplate (h : s.Sound text) : SameStart s s.rescanTemplate := by
  unfold rescanTemplate
  split_ifs with hk
  · have hne : s.kind ≠ .endOfFile := by simp [hk]
    have hahead := Lexeme.ahead_readTemplateSpan (s.start.skip 1)
    have hlt := lt_skip Nat.one_pos (h.ahead.rest_ne_nil (h.lt hne))
    refine ⟨rfl, (ahead_skip 1 _).trans hahead, fun _ => ⟨?_, hlt.trans_le hahead.pos_le⟩,
      fun he => absurd he hne⟩
    exact Lexeme.kind_readTemplateSpan_ne (by decide) (by decide) _
  · exact h.sameStart_self

theorem sameStart_extendMarkupName (h : s.Sound text) : SameStart s s.extendMarkupName := by
  unfold extendMarkupName
  split_ifs with hk
  · have hne : s.kind ≠ .endOfFile := by
      rintro he
      rw [he] at hk
      exact absurd hk (by decide)
    dsimp only
    split_ifs
    · exact h.sameStart_self
    · have hahead := ahead_skipWhile (fun c => c = '-' || isIdentifierPart c) s.stop
      exact ⟨rfl, h.ahead.trans hahead, fun _ => ⟨by simp, (h.lt hne).trans_le hahead.pos_le⟩,
        fun he => absurd he hne⟩
  · exact h.sameStart_self

end Scanner

end ExpectError
