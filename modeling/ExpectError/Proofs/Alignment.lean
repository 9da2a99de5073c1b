import ExpectError.Proofs.Insertions
import ExpectError.Proofs.Lockstep
import ExpectError.Proofs.SpacedTokens

/-!
# Scanners of texts with and without words between tokens

Two scanners, one of a text and one of the text with words in front of some of its boundaries, move
over the same tokens: each token is of the same kind and spelled alike, and only its offsets and the
line breaks in front of it differ. For this the words must not stand inside a token, inside the
trivia between two tokens, or where a reader looks beyond the end of a token, and words directly
behind a token must begin with a blank.

* `IsPartingFor`, `IsSpacingFor`: words that begin with a blank or a brace, and blanks;
* `AtStop`, `AtStart`: the same place in both texts, in front of the words and behind them;
* `Scanner.Aligned`: two scanners on the same token;
* `Scanner.Whole`: a token that no words come into;
* `Scanner.aligned_scan`, `Scanner.aligned_rescan`: what the moves of the scanners keep.
-/

namespace ExpectError

open Text Insertion

/-! ### Words between characters -/

/-- Words for the boundaries of a text that begin with a blank or a brace, with none at its end. -/
structure IsPartingFor (text : List Char) (words : ℕ → List Char) : Prop where
  isParting : ∀ b, ∀ c ∈ (words b).head?, isParting c = true
  end_eq : words (byteLength text) = []

/-- Words for the boundaries of a text that are blanks, with none at its end. -/
structure IsSpacingFor (text : List Char) (words : ℕ → List Char) : Prop where
  isSpacing : ∀ b, ∀ c ∈ words b, isSpacing c = true
  end_eq : words (byteLength text) = []

/-- What stands behind the words in front of a place. -/
def bare (words : ℕ → List Char) (pos : ℕ) : List Char → List Char
  | [] => []
  | c :: cs => c :: interleave words (pos + c.utf8Size) cs

variable {text : List Char} {words : ℕ → List Char}

theorem IsSpacingFor.head?_spacing (hw : IsSpacingFor text words) (b : ℕ) :
    ∀ c ∈ (words b).head?, ExpectError.isSpacing c = true :=
  fun c hc => hw.isSpacing b c (List.mem_of_mem_head? hc)

theorem IsSpacingFor.isPartingFor (hw : IsSpacingFor text words) : IsPartingFor text words where
  isParting b c hc := isParting_of_isSpacing (hw.head?_spacing b c hc)
  end_eq := hw.end_eq

theorem interleave_eq_bare (words : ℕ → List Char) (pos : ℕ) (cs : List Char) :
    interleave words pos cs = words pos ++ bare words pos cs := by
  cases cs with
  | nil => rw [interleave, bare, List.append_nil]
  | cons c cs => rfl

theorem head?_bare (words : ℕ → List Char) (pos : ℕ) (cs : List Char) :
    (bare words pos cs).head? = cs.head? := by
  cases cs <;> rfl

theorem bare_append {pos : ℕ} {word : List Char} (hword : word ≠ []) (rest : List Char)
    (h : ∀ b, pos < b → b < pos + byteLength word → words b = []) :
    bare words pos (word ++ rest) = word ++ interleave words (pos + byteLength word) rest := by
  obtain ⟨c, word, rfl⟩ := List.exists_cons_of_ne_nil hword
  have hc := c.utf8Size_pos
  rw [byteLength_cons] at h ⊢
  rw [List.cons_append, bare, interleave_append word rest fun n hn hlt => h n (by omega) (by omega),
    Nat.add_assoc]
  rfl

theorem IsPartingFor.parted (hw : IsPartingFor text words) {pos : ℕ} {cs : List Char}
    (hend : pos + byteLength cs = byteLength text) : Parted cs (interleave words pos cs) := by
  induction cs generalizing pos with
  | nil =>
    rw [byteLength_nil, Nat.add_zero] at hend
    rw [interleave, hend, hw.end_eq]
    exact .nil
  | cons c cs ih =>
    have hrest : Parted (c :: cs) (c :: interleave words (pos + c.utf8Size) cs) := by
      refine .char (ih ?_)
      rw [byteLength_cons] at hend
      omega
    have hparting := hw.isParting pos
    rw [interleave]
    cases hwords : words pos with
    | nil => exact hrest
    | cons d word =>
      rw [hwords] at hparting
      exact .word word (hparting d rfl) (by simp) hrest

theorem IsPartingFor.spaced_bare (hw : IsPartingFor text words) {pos : ℕ} {cs : List Char}
    (hend : pos + byteLength cs = byteLength text) : Spaced cs (bare words pos cs) := by
  cases cs with
  | nil => exact .nil
  | cons c cs =>
    refine .char (hw.parted ?_)
    rw [byteLength_cons] at hend
    omega

theorem IsPartingFor.spaced (hw : IsPartingFor text words) {pos : ℕ} {cs : List Char}
    (hend : pos + byteLength cs = byteLength text)
    (hblank : ∀ c ∈ (words pos).head?, isSpacing c = true) :
    Spaced cs (interleave words pos cs) := by
  have hbare := hw.spaced_bare hend
  rw [interleave_eq_bare]
  cases hwords : words pos with
  | nil => exact hbare
  | cons d word =>
    rw [hwords] at hblank
    refine .blank word (hblank d rfl) ?_ hbare.parted
    -- at the end of the text there are no words
    rintro rfl
    rw [byteLength_nil, Nat.add_zero] at hend
    rw [hend, hw.end_eq] at hwords
    cases hwords

theorem byteLength_interleave_append_le (words : ℕ → List Char) (pos : ℕ)
    (word rest : List Char) :
    byteLength word + byteLength (interleave words (pos + byteLength word) rest) ≤
      byteLength (interleave words pos (word ++ rest)) := by
  induction word generalizing pos with
  | nil => simp
  | cons c word ih =>
    have := ih (pos + c.utf8Size)
    rw [List.cons_append, interleave, byteLength_append, byteLength_cons, byteLength_cons,
      ← Nat.add_assoc pos]
    omega

theorem byteLength_interleave_le_bare (words : ℕ → List Char) (pos : ℕ) {word : List Char}
    (hword : word ≠ []) (rest : List Char) :
    byteLength word + byteLength (interleave words (pos + byteLength word) rest) ≤
      byteLength (bare words pos (word ++ rest)) := by
  cases word with
  | nil => exact absurd rfl hword
  | cons c word =>
    have := byteLength_interleave_append_le words (pos + c.utf8Size) word rest
    rw [List.cons_append, bare, byteLength_cons, byteLength_cons, ← Nat.add_assoc pos]
    omega

theorem byteLength_bare_append_le (words : ℕ → List Char) (pos : ℕ) (word rest : List Char) :
    byteLength word + byteLength (bare words (pos + byteLength word) rest) ≤
      byteLength (bare words pos (word ++ rest)) := by
  by_cases hword : word = []
  · simp [hword]
  · have := byteLength_interleave_le_bare words pos hword rest
    rw [interleave_eq_bare, byteLength_append] at this
    omega

/-! ### Places in both texts -/

/-- The same place in a text and in the text with blanks in it, in front of the blanks. -/
structure AtStop (text : List Char) (words : ℕ → List Char) (c d : Cursor) : Prop where
  reached : (Cursor.ofText text).Ahead c
  reached' : (Cursor.ofText (interleave words 0 text)).Ahead d
  rest_eq : d.rest = interleave words c.pos c.rest

/-- The same place in a text and in the text with blanks in it, behind the blanks. -/
structure AtStart (text : List Char) (words : ℕ → List Char) (c d : Cursor) : Prop where
  reached : (Cursor.ofText text).Ahead c
  reached' : (Cursor.ofText (interleave words 0 text)).Ahead d
  rest_eq : d.rest = bare words c.pos c.rest

theorem pos_add_byteLength {c : Cursor} (h : (Cursor.ofText text).Ahead c) :
    c.pos + byteLength c.rest = byteLength text := by
  obtain ⟨before, htext, hpos⟩ := h
  have htext : text = before ++ c.rest := htext
  rw [hpos, htext, byteLength_append]
  simp [Cursor.ofText]

/-- Cursors at the same offset of a text. -/
theorem eq_of_pos_eq {c c' : Cursor} (h : (Cursor.ofText text).Ahead c)
    (h' : (Cursor.ofText text).Ahead c') (hpos : c.pos = c'.pos) : c = c' := by
  obtain ⟨before, htext, hbefore⟩ := h
  obtain ⟨before', htext', hbefore'⟩ := h'
  have hrest := (append_inj_of_byteLength (htext.symm.trans htext') (by omega)).2
  cases c
  cases c'
  simp_all

/-- From a place to a later one. -/
theorem exists_append_of_pos_le {c c' : Cursor} (h : (Cursor.ofText text).Ahead c)
    (h' : (Cursor.ofText text).Ahead c') (hle : c.pos ≤ c'.pos) :
    ∃ word, c.rest = word ++ c'.rest ∧ c'.pos = c.pos + byteLength word := by
  obtain ⟨before, htext, hbefore⟩ := h
  obtain ⟨before', htext', hbefore'⟩ := h'
  obtain ⟨word, hword, hrest⟩ :=
    exists_append_of_byteLength_le (htext.symm.trans htext') (by omega)
  refine ⟨word, hrest, ?_⟩
  rw [hbefore', hword, byteLength_append, ← Nat.add_assoc, ← hbefore]

theorem AtStart.pos_lt {c d c' d' : Cursor} (h : AtStart text words c d)
    (h' : AtStart text words c' d') (hlt : c.pos < c'.pos) : d.pos < d'.pos := by
  obtain ⟨word, hrest, hpos⟩ := exists_append_of_pos_le h.reached h'.reached hlt.le
  have hle := byteLength_bare_append_le words c.pos word c'.rest
  rw [← hrest, ← hpos, ← h.rest_eq, ← h'.rest_eq] at hle
  have hd := pos_add_byteLength h.reached'
  have hd' := pos_add_byteLength h'.reached'
  omega

/-- The order of places is the same in both texts. -/
theorem AtStart.pos_eq_iff {c d c' d' : Cursor} (h : AtStart text words c d)
    (h' : AtStart text words c' d') : c.pos = c'.pos ↔ d.pos = d'.pos := by
  constructor
  · intro hpos
    obtain rfl := eq_of_pos_eq h.reached h'.reached hpos
    have hrest := h.rest_eq.trans h'.rest_eq.symm
    have hd := pos_add_byteLength h.reached'
    have hd' := pos_add_byteLength h'.reached'
    rw [hrest] at hd
    omega
  · intro hpos
    rcases Nat.lt_trichotomy c.pos c'.pos with hlt | heq | hgt
    · exact absurd hpos (h.pos_lt h' hlt).ne
    · exact heq
    · exact absurd hpos (h'.pos_lt h hgt).ne'

theorem AtStart.pos_lt_iff {c d c' d' : Cursor} (h : AtStart text words c d)
    (h' : AtStart text words c' d') : c.pos < c'.pos ↔ d.pos < d'.pos := by
  refine ⟨h.pos_lt h', fun hlt => ?_⟩
  by_contra hle
  rcases (Nat.le_of_not_lt hle).lt_or_eq with hgt | heq
  · exact absurd (h'.pos_lt h hgt) hlt.asymm
  · exact absurd ((h.pos_eq_iff h').1 heq.symm) hlt.ne

theorem AtStop.pos_le {c d : Cursor} (h : AtStop text words c d) : c.pos ≤ d.pos := by
  obtain ⟨before, htext, hpos⟩ := h.reached
  have htext : text = before ++ c.rest := htext
  have hpos : c.pos = 0 + byteLength before := hpos
  have hle := byteLength_interleave_append_le words 0 before c.rest
  have hd := pos_add_byteLength h.reached'
  rw [← hpos, ← htext, ← h.rest_eq] at hle
  omega

/-- In front of the first character, nothing of the other text has been passed either. -/
theorem AtStop.pos_eq_zero {c d : Cursor} (h : AtStop text words c d) (hpos : c.pos = 0) :
    d.pos = 0 := by
  obtain ⟨before, htext, hbefore⟩ := h.reached
  have hbefore : c.pos = 0 + byteLength before := hbefore
  have hnil : before = [] := byteLength_eq_zero.1 (by omega)
  have htext : text = c.rest := by simpa [hnil, Cursor.ofText] using htext
  have hd := pos_add_byteLength h.reached'
  rw [h.rest_eq, hpos, ← htext] at hd
  omega

/-- Words between tokens do not make a text begin with `#!`. -/
theorem AtStop.begins_of_begins (hw : IsPartingFor text words) {c d : Cursor}
    (h : AtStop text words c d) (hd : d.pos = 0 ∧ ['#', '!'].isPrefixOf d.rest = true) :
    c.pos = 0 ∧ ['#', '!'].isPrefixOf c.rest = true := by
  have hle := h.pos_le
  have hparted : Parted c.rest d.rest := h.rest_eq ▸ hw.parted (pos_add_byteLength h.reached)
  exact ⟨by omega, hparted.isPrefixOf (by simp [isParting, isSpacing]) hd.2⟩

theorem AtStart.atStop_of_nil (hw : IsPartingFor text words) {c d : Cursor}
    (h : AtStart text words c d) (hrest : c.rest = []) : AtStop text words c d := by
  have hend := pos_add_byteLength h.reached
  rw [hrest, byteLength_nil, Nat.add_zero] at hend
  refine ⟨h.reached, h.reached', ?_⟩
  rw [h.rest_eq, interleave_eq_bare, hend, hw.end_eq, List.nil_append]

theorem AtStop.atStart {c d : Cursor} (h : AtStop text words c d) (hnil : words c.pos = []) :
    AtStart text words c d := by
  refine ⟨h.reached, h.reached', ?_⟩
  rw [h.rest_eq, interleave_eq_bare, hnil, List.nil_append]

theorem byteLength_interleave_congr {words' : ℕ → List Char}
    (hsame : ∀ b, byteLength (words' b) = byteLength (words b)) (pos : ℕ) (cs : List Char) :
    byteLength (interleave words' pos cs) = byteLength (interleave words pos cs) := by
  induction cs generalizing pos with
  | nil => exact hsame pos
  | cons c cs ih =>
    simp only [interleave, byteLength_append, byteLength_cons, hsame, ih]

theorem exists_interleave_append (words : ℕ → List Char) (pos : ℕ) (before after : List Char) :
    ∃ front, interleave words pos (before ++ after) =
      front ++ interleave words (pos + byteLength before) after := by
  induction before generalizing pos with
  | nil => exact ⟨[], rfl⟩
  | cons c before ih =>
    obtain ⟨front, hfront⟩ := ih (pos + c.utf8Size)
    refine ⟨words pos ++ c :: front, ?_⟩
    rw [List.cons_append, interleave, hfront, byteLength_cons, Nat.add_assoc]
    simp

/-- The same place, at the same offset, if other words of the same size are put into the text. -/
theorem AtStart.exists_of_same {words' : ℕ → List Char} {c d : Cursor}
    (h : AtStart text words c d) (hsame : ∀ b, byteLength (words' b) = byteLength (words b)) :
    ∃ e, AtStart text words' c e ∧ e.pos = d.pos := by
  obtain ⟨before, htext, hpos⟩ := h.reached
  obtain rfl : text = before ++ c.rest := htext
  obtain ⟨front, hfront⟩ := exists_interleave_append words' 0 before c.rest
  have hpos : 0 + byteLength before = c.pos := hpos.symm
  rw [hpos, interleave_eq_bare words' c.pos, ← List.append_assoc] at hfront
  have hreached : (Cursor.ofText (interleave words' 0 (before ++ c.rest))).Ahead
      { pos := byteLength (front ++ words' c.pos), rest := bare words' c.pos c.rest } :=
    ⟨front ++ words' c.pos, hfront, (Nat.zero_add _).symm⟩
  refine ⟨_, ⟨h.reached, hreached, rfl⟩, ?_⟩
  have he := pos_add_byteLength hreached
  have hd := pos_add_byteLength h.reached'
  have htotal := byteLength_interleave_congr hsame 0 (before ++ c.rest)
  have hrest := byteLength_interleave_congr hsame c.pos c.rest
  have hhere := hsame c.pos
  rw [interleave_eq_bare, interleave_eq_bare, byteLength_append, byteLength_append] at hrest
  rw [h.rest_eq] at hd
  simp only at he ⊢
  omega

/-- A character of the text with blanks in it that is no blank is one of the text itself. -/
theorem exists_of_interleave_eq (hspacing : ∀ b, ∀ c ∈ words b, isSpacing c = true) {x : Char}
    (hx : isSpacing x = false) {pos : ℕ} {cs front rest : List Char}
    (h : interleave words pos cs = front ++ x :: rest) :
    ∃ passed after, cs = passed ++ x :: after ∧
      rest = interleave words (pos + byteLength passed + x.utf8Size) after := by
  have hno : ∀ b, x ∉ words b := fun b hmem => by
    rw [hspacing b x hmem] at hx
    cases hx
  induction cs generalizing pos front with
  | nil =>
    have hwords : words pos = front ++ x :: rest := h
    exact absurd (hwords ▸ List.mem_append_right _ List.mem_cons_self) (hno pos)
  | cons c cs ih =>
    rw [interleave] at h
    rcases List.append_eq_append_iff.1 h with ⟨front', -, hrest⟩ | ⟨word, hword, hrest⟩
    · cases front' with
      | nil =>
        obtain ⟨rfl, rfl⟩ := List.cons.inj hrest
        exact ⟨[], cs, rfl, by simp⟩
      | cons d front' =>
        rw [List.cons_append, List.cons.injEq] at hrest
        obtain ⟨passed, after, rfl, hafter⟩ := ih hrest.2
        refine ⟨c :: passed, after, rfl, ?_⟩
        rw [hafter, byteLength_cons, ← Nat.add_assoc]
    · cases word with
      | nil =>
        obtain ⟨rfl, rfl⟩ := List.cons.inj hrest
        exact ⟨[], cs, rfl, by simp⟩
      | cons d word =>
        obtain ⟨rfl, -⟩ := List.cons.inj hrest
        exact absurd (hword ▸ List.mem_append_right _ List.mem_cons_self) (hno pos)

/-- The place of such a character. -/
theorem AtStop.exists_atStart (hw : IsSpacingFor text words) {c d : Cursor}
    (h : AtStop text words c d) {x : Char} (hx : isSpacing x = false) {front rest : List Char}
    (hd : d.rest = front ++ x :: rest) :
    ∃ c', c.Ahead c' ∧
      AtStart text words c' { pos := d.pos + byteLength front, rest := x :: rest } := by
  obtain ⟨passed, after, hc, hrest⟩ :=
    exists_of_interleave_eq hw.isSpacing hx (h.rest_eq.symm.trans hd)
  have hahead : c.Ahead { pos := c.pos + byteLength passed, rest := x :: after } :=
    ⟨passed, hc, rfl⟩
  refine ⟨_, hahead, h.reached.trans hahead, h.reached'.trans ⟨front, hd, rfl⟩, ?_⟩
  rw [bare, hrest]

/-- Where nothing is put in behind a character, the same one comes next in both texts. -/
theorem AtStart.rest_eq_cons {c d : Cursor} (h : AtStart text words c d) {x : Char}
    {cs : List Char} (hc : c.rest = x :: cs) (hnil : words (c.pos + x.utf8Size) = []) :
    d.rest = x :: bare words (c.pos + x.utf8Size) cs := by
  rw [h.rest_eq, hc, bare, interleave_eq_bare, hnil, List.nil_append]

/-- Where nothing is put in behind a character, the next one can be read off the text with any other
words of the same size. -/
theorem AtStart.head?_of_slice? {words' : ℕ → List Char} {c d : Cursor}
    (h : AtStart text words c d) (hsame : ∀ b, byteLength (words' b) = byteLength (words b))
    {x y : Char} {cs : List Char} (hc : c.rest = x :: cs) (hnil : words (c.pos + x.utf8Size) = [])
    {stop : ℕ} (hslice : slice? d.pos stop (interleave words' 0 text) = some [x, y]) :
    cs.head? = some y := by
  obtain ⟨e, he, hpos⟩ := h.exists_of_same hsame
  obtain ⟨rest, hrest⟩ := he.reached'.exists_of_slice? (hpos ▸ hslice)
  have hnil' : words' (c.pos + x.utf8Size) = [] :=
    byteLength_eq_zero.1 (by rw [hsame, hnil, byteLength_nil])
  rw [he.rest_eq_cons hc hnil'] at hrest
  rw [← head?_bare words' (c.pos + x.utf8Size), (List.cons.inj hrest).2]
  rfl

/-- Over the characters of a token. -/
theorem AtStart.over {c d : Cursor} (h : AtStart text words c d) {word rest : List Char}
    (hword : word ≠ []) (hrest : c.rest = word ++ rest)
    (hno : ∀ b, c.pos < b → b < c.pos + byteLength word → words b = []) :
    d.rest = word ++ interleave words (c.pos + byteLength word) rest ∧
      AtStop text words { pos := c.pos + byteLength word, rest }
        { pos := d.pos + byteLength word
          rest := interleave words (c.pos + byteLength word) rest } := by
  have hd : d.rest = word ++ interleave words (c.pos + byteLength word) rest := by
    rw [h.rest_eq, hrest, bare_append hword rest hno]
  exact ⟨hd, h.reached.trans ⟨word, hrest, rfl⟩, h.reached'.trans ⟨word, hd, rfl⟩, rfl⟩

/-- Over the characters behind a token. -/
theorem AtStop.over {c d : Cursor} (h : AtStop text words c d) {word rest : List Char}
    (hrest : c.rest = word ++ rest)
    (hno : ∀ b, c.pos ≤ b → b < c.pos + byteLength word → words b = []) :
    d.rest = word ++ interleave words (c.pos + byteLength word) rest ∧
      AtStop text words { pos := c.pos + byteLength word, rest }
        { pos := d.pos + byteLength word
          rest := interleave words (c.pos + byteLength word) rest } := by
  have hd : d.rest = word ++ interleave words (c.pos + byteLength word) rest := by
    rw [h.rest_eq, hrest, interleave_append word rest hno]
  exact ⟨hd, h.reached.trans ⟨word, hrest, rfl⟩, h.reached'.trans ⟨word, hd, rfl⟩, rfl⟩

/-! ### Trivia -/

namespace Cursor

theorem skipTrivia_aligned (hw : IsPartingFor text words) {c d : Cursor}
    (h : AtStop text words c d) (trivia : Trivia) (broken : Bool)
    (hblanks : ∀ x ∈ words (skipTrivia trivia broken c.pos c.rest).1.pos, isSpacing x = true)
    (hno : ∀ b, c.pos ≤ b → b < (skipTrivia trivia broken c.pos c.rest).1.pos → words b = []) :
    AtStart text words (skipTrivia trivia broken c.pos c.rest).1
        (skipTrivia trivia broken d.pos d.rest).1 ∧
      (skipTrivia trivia broken d.pos d.rest).2 =
        ((skipTrivia trivia broken c.pos c.rest).2 ||
          (words (skipTrivia trivia broken c.pos c.rest).1.pos).any isLineBreak) := by
  obtain ⟨passed, hpassed, hpos, hskip⟩ := skipsAlike trivia broken c.pos c.rest
  generalize skipTrivia trivia broken c.pos c.rest = r at *
  obtain ⟨hd, hstop⟩ := h.over hpassed fun b hle hlt => hno b hle (by omega)
  rw [← hpos] at hd hstop
  have hend : r.1.pos + byteLength r.1.rest = byteLength text := pos_add_byteLength hstop.reached
  rw [interleave_eq_bare] at hd
  have hskipped := hskip d.pos (words r.1.pos) (bare words r.1.pos r.1.rest) hblanks
    (fun hnil => by
      rw [hnil, byteLength_nil, Nat.add_zero] at hend
      rw [hend, hw.end_eq])
    (hw.spaced_bare hend) (head?_bare _ _ _)
  rw [← hd] at hskipped
  rw [hskipped]
  refine ⟨⟨hstop.reached, ?_, rfl⟩, rfl⟩
  refine hstop.reached'.trans ⟨words r.1.pos, ?_, rfl⟩
  rw [interleave_eq_bare]

theorem toToken_eq {c : Cursor} (h : ¬ (c.pos = 0 ∧ ['#', '!'].isPrefixOf c.rest = true)) :
    c.toToken = skipTrivia .blank false c.pos c.rest := by
  obtain ⟨pos, rest⟩ := c
  unfold toToken
  split
  next hpos hrest =>
    obtain rfl : rest = _ := hrest
    obtain rfl : pos = 0 := hpos
    exact absurd ⟨rfl, rfl⟩ h
  next => rfl

/-- From the stop of a token, the trivia lead to the same place in both texts, and to a line break that
is not there in both only if it is among the words at a boundary. -/
def TriviaAligned (text : List Char) (words : ℕ → List Char) (front : ℕ → ℕ → ℕ) (c d : Cursor) :
    Prop :=
  AtStart text words c.toToken.1 d.toToken.1 ∧
    d.toToken.2 = (c.toToken.2 || (words (front c.pos c.toToken.1.pos)).any isLineBreak)

/-- No words are put among the trivia, and blanks only behind them. -/
theorem toToken_aligned (hw : IsPartingFor text words) {c d : Cursor}
    (h : AtStop text words c d) (hblanks : ∀ x ∈ words c.toToken.1.pos, isSpacing x = true)
    (hno : ∀ b, c.pos ≤ b → b < c.toToken.1.pos → words b = []) :
    TriviaAligned text words (fun _ start => start) c d := by
  unfold TriviaAligned
  by_cases hbang : c.pos = 0 ∧ ['#', '!'].isPrefixOf c.rest = true
  · obtain ⟨hpos, hbegin⟩ := hbang
    obtain ⟨cs, hrest⟩ := List.isPrefixOf_iff_prefix.1 hbegin
    obtain ⟨pos, rest⟩ := c
    obtain rfl : pos = 0 := hpos
    obtain rfl : ['#', '!'] ++ cs = rest := hrest
    have hstep : toToken { pos := 0, rest := ['#', '!'] ++ cs } =
        skipTrivia .lineComment false 2 cs := rfl
    have htwo : 2 ≤ (skipTrivia .lineComment false 2 cs).1.pos :=
      (ahead_skipTrivia .lineComment false 2 cs).pos_le
    rw [hstep] at hblanks hno ⊢
    obtain ⟨hd, hstop⟩ := h.over rfl fun b _ hlt => hno b (Nat.zero_le b)
      (lt_of_lt_of_le hlt htwo)
    have hzero := h.pos_eq_zero rfl
    obtain ⟨pos', rest'⟩ := d
    obtain rfl : pos' = 0 := hzero
    obtain rfl : rest' = _ := hd
    exact skipTrivia_aligned hw hstop .lineComment false hblanks
      fun b _ hlt => hno b (Nat.zero_le b) hlt
  · rw [toToken_eq hbang] at hblanks hno ⊢
    rw [toToken_eq (mt (h.begins_of_begins hw) hbang)]
    exact skipTrivia_aligned hw h .blank false hblanks hno

end Cursor

/-! ### Tokens -/

namespace Lexeme

/-- Two tokens of the same kind and the same characters, at the same place of both texts. -/
structure Aligned (text : List Char) (words : ℕ → List Char) (c d : Cursor) (l l' : Lexeme) :
    Prop where
  kind_eq : l.kind = l'.kind
  stop : AtStop text words l.next l'.next
  text_eq : c.upTo l.next.pos = d.upTo l'.next.pos
  unterminated_eq : l.unterminated = l'.unterminated

/-- No `?.` comes to be where words part the point from a digit. -/
theorem beginsWithMark_of_aligned (hw : IsPartingFor text words) {c d : Cursor}
    (h : AtStart text words c d)
    (hdot : "?.".toList.isPrefixOf c.rest = true → words (c.pos + 2) = [])
    (hbegins : beginsWithMark "?." d.rest = true) : beginsWithMark "?." c.rest = true := by
  have hspaced : Spaced c.rest d.rest := h.rest_eq ▸ hw.spaced_bare (pos_add_byteLength h.reached)
  rw [beginsWithMark, Bool.and_eq_true] at hbegins ⊢
  have hpoint : ∀ d ∈ ['.'], isParting d = false := by simp [isParting, isSpacing]
  have hbegin : "?.".toList.isPrefixOf c.rest = true :=
    hspaced.isPrefixOf (by decide) hpoint hbegins.1
  refine ⟨hbegin, ?_⟩
  obtain ⟨rest, hrest⟩ := List.isPrefixOf_iff_prefix.1 hbegin
  obtain ⟨rest', hrest'⟩ := List.isPrefixOf_iff_prefix.1 hbegins.1
  have hrest : c.rest = '?' :: '.' :: rest := hrest.symm
  have hrest' : d.rest = '?' :: '.' :: rest' := hrest'.symm
  -- words in front of the point would have parted it from the question mark
  have hbare := h.rest_eq
  rw [hrest, hrest', bare, List.cons.injEq, interleave_eq_bare] at hbare
  have hpoint : words (c.pos + '?'.utf8Size) = [] := by
    cases hwords : words (c.pos + '?'.utf8Size) with
    | nil => rfl
    | cons x xs =>
      rw [hwords, List.cons_append, List.cons.injEq] at hbare
      have hx := hw.isParting (c.pos + '?'.utf8Size) x (by rw [hwords]; rfl)
      rw [← hbare.2.1] at hx
      cases hx
  rw [hpoint, List.nil_append, bare, List.cons.injEq, interleave_eq_bare] at hbare
  have htwo : words (c.pos + '?'.utf8Size + '.'.utf8Size) = [] := hdot hbegin
  have hhead : rest'.head? = rest.head? := by
    rw [hbare.2.2, htwo, List.nil_append, head?_bare]
  have hdigit := hbegins.2
  rw [hrest'] at hdigit
  rw [hrest]
  simpa [hhead] using hdigit

/-- A token of which the characters make the same token in the other text. -/
theorem aligned_of_passed {read : Cursor → Lexeme} {c d : Cursor} (h : AtStart text words c d)
    (hlt : c.pos < (read c).next.pos)
    (hno : ∀ b, c.pos < b → b < (read c).next.pos → words b = []) {passed : List Char}
    (hpassed : c.rest = passed ++ (read c).next.rest)
    (hpos : (read c).next.pos = c.pos + byteLength passed)
    (hread : d.rest = passed ++ interleave words (read c).next.pos (read c).next.rest →
      read { pos := d.pos
             rest := passed ++ interleave words (read c).next.pos (read c).next.rest } =
        { kind := (read c).kind
          next := { pos := d.pos + byteLength passed
                    rest := interleave words (read c).next.pos (read c).next.rest }
          unterminated := (read c).unterminated }) :
    Aligned text words c d (read c) (read d) := by
  obtain ⟨hd, hstop⟩ := h.over (passed_ne_nil hlt hpos) hpassed fun b hb hb' =>
    hno b hb (by omega)
  rw [← hpos] at hd hstop
  have hmoved := hread hd
  rw [← hd] at hmoved
  have hmoved : read d = _ := hmoved
  rw [hmoved]
  refine ⟨rfl, hstop, ?_, rfl⟩
  rw [hpos]
  exact (upTo_of_append hpassed).trans (upTo_of_append hd).symm

theorem IsLocal.aligned {read : Cursor → Lexeme} (hw : IsPartingFor text words) {c d : Cursor}
    (h : AtStart text words c d) (hlocal : IsLocal read c) (hlt : c.pos < (read c).next.pos)
    (hno : ∀ b, c.pos < b → b < (read c).next.pos → words b = [])
    (hbehind : ∀ x ∈ (words (read c).next.pos).head?, isSpacing x = true)
    (hdot : "?.".toList.isPrefixOf c.rest = true → words (c.pos + 2) = [])
    (htext : (read c).kind = .jsxText → words (read c).next.pos = []) :
    Aligned text words c d (read c) (read d) := by
  obtain ⟨passed, hpassed, hpos, hmove⟩ := hlocal
  refine aligned_of_passed h hlt hno hpassed hpos fun hd => hmove _ _ (hw.spaced ?_ hbehind)
    (fun hbegins => beginsWithMark_of_aligned hw h hdot (hd ▸ hbegins))
    (fun hkind => by rw [interleave_eq_bare, htext hkind, List.nil_append, head?_bare])
  have hend := pos_add_byteLength h.reached
  rw [hpassed, byteLength_append] at hend
  omega

theorem IsClosed.aligned {read : Cursor → Lexeme} {c d : Cursor} (h : AtStart text words c d)
    (hclosed : IsClosed read c) (hlt : c.pos < (read c).next.pos)
    (hno : ∀ b, c.pos < b → b < (read c).next.pos → words b = []) :
    Aligned text words c d (read c) (read d) := by
  obtain ⟨passed, hpassed, hpos, hmove⟩ := hclosed
  exact aligned_of_passed h hlt hno hpassed hpos fun _ => hmove _ _

end Lexeme

/-! ### Scanners -/

namespace Scanner

/-- Two scanners on the same token of both texts. The words that can bring a line break in front of it
stand at a boundary `front`, which depends on where the trivia and the token start. -/
structure Aligned (text : List Char) (words : ℕ → List Char) (front : ℕ → ℕ → ℕ) (s t : Scanner) :
    Prop where
  kind_eq : s.kind = t.kind
  start : AtStart text words s.start t.start
  stop : AtStop text words s.stop t.stop
  sound : s.Sound text
  sound' : t.Sound (interleave words 0 text)
  whole : ∀ b, s.start.pos < b → b < s.stop.pos → words b = []
  text_eq : s.tokenText = t.tokenText
  unterminated_eq : s.unterminated = t.unterminated
  lineBreakBefore_eq : t.lineBreakBefore =
    (s.lineBreakBefore || (words (front s.fullStart s.start.pos)).any isLineBreak)

/-- A token that is read to its end and has no words put into it or into what is looked at in reading
it: the trivia from a given offset on, what follows a text between tags, and a digit behind what looks
like `?.`. -/
structure Whole (words : ℕ → List Char) (since : ℕ) (s : Scanner) : Prop where
  terminated : s.unterminated = false
  trivia : ∀ b, since ≤ b → b < s.start.pos → words b = []
  token : ∀ b, s.start.pos < b → b < s.stop.pos → words b = []
  text : s.kind = .jsxText → words s.stop.pos = []
  dot : "?.".toList.isPrefixOf s.start.rest = true → words (s.start.pos + 2) = []

instance (words : ℕ → List Char) (since : ℕ) (s : Scanner) : Decidable (Whole words since s) :=
  decidable_of_iff
    (s.unterminated = false ∧ (∀ b < s.start.pos, since ≤ b → words b = []) ∧
      (∀ b < s.stop.pos, s.start.pos < b → words b = []) ∧
      (s.kind = .jsxText → words s.stop.pos = []) ∧
      ("?.".toList.isPrefixOf s.start.rest = true → words (s.start.pos + 2) = []))
    ⟨fun ⟨hend, htrivia, htoken, htext, hdot⟩ =>
      ⟨hend, fun b hle hlt => htrivia b hlt hle, fun b hgt hlt => htoken b hlt hgt, htext, hdot⟩,
      fun ⟨hend, htrivia, htoken, htext, hdot⟩ =>
      ⟨hend, fun b hlt hle => htrivia b hle hlt, fun b hlt hgt => htoken b hgt hlt, htext, hdot⟩⟩

variable {front : ℕ → ℕ → ℕ} {s t : Scanner} {since : ℕ}

theorem Sound.exists_tokenText (h : s.Sound text) :
    s.start.rest = s.tokenText ++ s.stop.rest ∧
      s.stop.pos = s.start.pos + byteLength s.tokenText := by
  obtain ⟨token, htoken, hpos⟩ := h.ahead
  have hspelled : s.tokenText = token := by rw [tokenText, hpos, Lexeme.upTo_of_append htoken]
  rw [hspelled]
  exact ⟨htoken, hpos⟩

/-- The characters of the token, by its offsets. -/
theorem Sound.slice?_eq (h : s.Sound text) :
    slice? s.start.pos s.stop.pos text = some s.tokenText := by
  obtain ⟨hrest, hpos⟩ := h.exists_tokenText
  rw [hpos]
  exact h.reached.slice?_eq hrest

/-- The token is the same stretch of characters in both texts. -/
theorem Aligned.exists_token (h : Aligned text words front s t) :
    (s.start.rest = s.tokenText ++ s.stop.rest ∧
        s.stop.pos = s.start.pos + byteLength s.tokenText) ∧
      t.start.rest = s.tokenText ++ t.stop.rest ∧
        t.stop.pos = t.start.pos + byteLength s.tokenText := by
  refine ⟨h.sound.exists_tokenText, ?_⟩
  rw [h.text_eq]
  exact h.sound'.exists_tokenText

theorem Aligned.lt_iff (h : Aligned text words front s t) :
    s.start.pos < s.stop.pos ↔ t.start.pos < t.stop.pos := by
  obtain ⟨⟨-, hpos⟩, -, hpos'⟩ := h.exists_token
  omega

/-- The token is spelled alike if other words of the same size are put into the text. -/
theorem Aligned.slice?_eq {words' : ℕ → List Char} (h : Aligned text words front s t)
    (hsame : ∀ b, byteLength (words' b) = byteLength (words b)) (hlt : s.start.pos < s.stop.pos) :
    slice? t.start.pos t.stop.pos (interleave words' 0 text) = some t.tokenText := by
  obtain ⟨e, he, hpos⟩ := h.start.exists_of_same hsame
  obtain ⟨⟨htoken, hstop⟩, -, hstop'⟩ := h.exists_token
  obtain ⟨hrest, -⟩ := he.over (Lexeme.passed_ne_nil hlt hstop) htoken fun b hgt hb =>
    byteLength_eq_zero.1 (by rw [hsame, h.whole b hgt (by omega), byteLength_nil])
  rw [← h.text_eq, hstop', ← hpos]
  exact he.reached'.slice?_eq hrest

/-- The end of a text, where no token begins. -/
theorem aligned_endOfFile (hw : IsPartingFor text words) {read : Cursor → Lexeme}
    (hnil : ∀ pos, read { pos, rest := [] } = { kind := .endOfFile, next := { pos, rest := [] } })
    {c d : Cursor} (h : AtStart text words c d) (hrest : c.rest = []) :
    Lexeme.Aligned text words c d (read c) (read d) := by
  have hstop := h.atStop_of_nil hw hrest
  have hrest' : d.rest = [] := by rw [h.rest_eq, hrest]; rfl
  obtain ⟨pos, rest⟩ := c
  obtain ⟨pos', rest'⟩ := d
  obtain rfl : rest = [] := hrest
  obtain rfl : rest' = [] := hrest'
  rw [hnil, hnil]
  refine ⟨rfl, hstop, ?_, rfl⟩
  simp [Cursor.upTo_eq]

theorem Aligned.of_lexeme {read : Cursor → Lexeme}
    (htrivia : Cursor.TriviaAligned text words front s.stop t.stop)
    (hlexeme : Lexeme.Aligned text words s.stop.toToken.1 t.stop.toToken.1
      (read s.stop.toToken.1) (read t.stop.toToken.1))
    (hsound : (s.advance read).Sound text)
    (hsound' : (t.advance read).Sound (interleave words 0 text))
    (hno : ∀ b, (s.advance read).start.pos < b → b < (s.advance read).stop.pos → words b = []) :
    Aligned text words front (s.advance read) (t.advance read) :=
  ⟨hlexeme.kind_eq, htrivia.1, hlexeme.stop, hsound, hsound', hno, hlexeme.text_eq,
    hlexeme.unterminated_eq, htrivia.2⟩

theorem Aligned.of_markup (hfront : (words (front s.stop.pos s.stop.pos)).any isLineBreak = false)
    (hstart : AtStart text words s.stop t.stop)
    (hlexeme : Lexeme.Aligned text words s.stop t.stop
      (Lexeme.readMarkup s.stop) (Lexeme.readMarkup t.stop))
    (hsound : s.nextMarkup.Sound text) (hsound' : t.nextMarkup.Sound (interleave words 0 text))
    (hno : ∀ b, s.nextMarkup.start.pos < b → b < s.nextMarkup.stop.pos → words b = []) :
    Aligned text words front s.nextMarkup t.nextMarkup := by
  refine ⟨hlexeme.kind_eq, hstart, hlexeme.stop, hsound, hsound', hno, hlexeme.text_eq, rfl, ?_⟩
  show (t.stop.upTo _).any isLineBreak = ((s.stop.upTo _).any isLineBreak || _)
  rw [← hlexeme.text_eq]
  simp [nextMarkup, hfront]

/-- From one token to the next, over trivia that are passed alike. -/
theorem aligned_advance (hw : IsPartingFor text words) {read : Cursor → Lexeme}
    (hnil : ∀ pos, read { pos, rest := [] } = { kind := .endOfFile, next := { pos, rest := [] } })
    (hlt : ∀ c, c.rest ≠ [] → c.pos < (read c).next.pos)
    (hlocal : ∀ c, c.rest ≠ [] → (read c).unterminated = false → Lexeme.IsLocal read c)
    (htrivia : Cursor.TriviaAligned text words front s.stop t.stop)
    (hsound : (s.advance read).Sound text)
    (hsound' : (t.advance read).Sound (interleave words 0 text))
    (hwhole : Whole words since (s.advance read))
    (hbehind : ∀ c ∈ (words (s.advance read).stop.pos).head?, isSpacing c = true) :
    Aligned text words front (s.advance read) (t.advance read) := by
  refine .of_lexeme htrivia ?_ hsound hsound' hwhole.token
  by_cases hrest : s.stop.toToken.1.rest = []
  · exact aligned_endOfFile hw hnil htrivia.1 hrest
  · exact Lexeme.IsLocal.aligned hw htrivia.1 (hlocal _ hrest hwhole.terminated) (hlt _ hrest)
      hwhole.token hbehind hwhole.dot hwhole.text

theorem aligned_nextMarkup (hw : IsPartingFor text words)
    (hfront : (words (front s.stop.pos s.stop.pos)).any isLineBreak = false)
    (hstart : AtStart text words s.stop t.stop) (hsound : s.nextMarkup.Sound text)
    (hsound' : t.nextMarkup.Sound (interleave words 0 text))
    (hwhole : Whole words since s.nextMarkup)
    (hbehind : ∀ c ∈ (words s.nextMarkup.stop.pos).head?, isSpacing c = true) :
    Aligned text words front s.nextMarkup t.nextMarkup := by
  refine .of_markup hfront hstart ?_ hsound hsound' hwhole.token
  by_cases hrest : s.stop.rest = []
  · exact aligned_endOfFile hw (fun _ => rfl) hstart hrest
  · exact Lexeme.IsLocal.aligned hw hstart (Lexeme.isLocal_readMarkup hrest)
      (Lexeme.lt_readMarkup_of_ne_nil hrest) hwhole.token hbehind hwhole.dot hwhole.text

/-- Moves to the next token stay aligned, unless the token is torn. -/
theorem aligned_scan (hw : IsPartingFor text words) (scan : Grammar.Scan)
    (h : AtStop text words s.stop t.stop)
    (htrivia : scan ≠ .markup → Cursor.TriviaAligned text words front s.stop t.stop)
    (hmarkup : scan = .markup → words s.stop.pos = [] ∧
      (words (front s.stop.pos s.stop.pos)).any isLineBreak = false)
    (hwhole : Whole words since (scan.apply s))
    (hbehind : ∀ c ∈ (words (scan.apply s).stop.pos).head?, isSpacing c = true) :
    Aligned text words front (scan.apply s) (scan.apply t) := by
  have hsound := Grammar.State.sound_scan_of_ahead scan h.reached
  have hsound' := Grammar.State.sound_scan_of_ahead scan h.reached'
  cases scan with
  | code =>
    exact aligned_advance hw (fun _ => rfl) (fun _ => Lexeme.lt_read_of_ne_nil)
      (fun _ => Lexeme.isLocal_read) (htrivia (by simp)) hsound hsound' hwhole hbehind
  | attributeValue =>
    exact aligned_advance hw (fun _ => rfl) (fun _ => Lexeme.lt_readAttributeValue_of_ne_nil)
      (fun _ => Lexeme.isLocal_readAttributeValue) (htrivia (by simp)) hsound hsound' hwhole hbehind
  | markup =>
    obtain ⟨hwords, hfront⟩ := hmarkup rfl
    exact aligned_nextMarkup hw hfront (h.atStart hwords) hsound hsound' hwhole hbehind

/-! ### Tokens read anew -/

/-- A token that is made longer. -/
theorem Aligned.extend (h : Aligned text words front s t) {word rest : List Char}
    (hrest : s.stop.rest = word ++ rest)
    (hno : ∀ b, s.stop.pos ≤ b → b < s.stop.pos + byteLength word → words b = []) :
    t.stop.rest = word ++ interleave words (s.stop.pos + byteLength word) rest ∧
      AtStop text words { pos := s.stop.pos + byteLength word, rest }
        { pos := t.stop.pos + byteLength word
          rest := interleave words (s.stop.pos + byteLength word) rest } ∧
      s.start.upTo (s.stop.pos + byteLength word) =
        t.start.upTo (t.stop.pos + byteLength word) := by
  obtain ⟨hrest', hstop⟩ := h.stop.over hrest hno
  refine ⟨hrest', hstop, ?_⟩
  obtain ⟨⟨htoken, hpos⟩, htoken', hpos'⟩ := h.exists_token
  rw [hpos, hpos', Nat.add_assoc, Nat.add_assoc, ← byteLength_append]
  rw [hrest, ← List.append_assoc] at htoken
  rw [hrest', ← List.append_assoc] at htoken'
  rw [Lexeme.upTo_of_append htoken, Lexeme.upTo_of_append htoken']

theorem isParting_of_mem_greaterEndings :
    ∀ ending ∈ greaterEndings, ∀ c ∈ ending.1.toList, isParting c = false := by
  have hall : greaterEndings.all (fun ending => ending.1.toList.all fun c => !isParting c) =
      true := by
    decide
  simpa only [List.all_eq_true, Bool.not_eq_true'] using hall

theorem aligned_rescanGreater (hw : IsPartingFor text words) (h : Aligned text words front s t)
    (hsound : s.rescanGreater.Sound text)
    (hsound' : t.rescanGreater.Sound (interleave words 0 text))
    (hno : ∀ b, s.rescanGreater.start.pos < b → b < s.rescanGreater.stop.pos → words b = []) :
    Aligned text words front s.rescanGreater t.rescanGreater := by
  by_cases hk : s.kind = .greaterThan
  swap
  · rw [rescanGreater, if_neg hk, rescanGreater, if_neg (h.kind_eq ▸ hk)]
    exact h
  have hk' : t.kind = .greaterThan := h.kind_eq ▸ hk
  have hparted : Parted s.stop.rest t.stop.rest :=
    h.stop.rest_eq ▸ hw.parted (pos_add_byteLength h.stop.reached)
  -- an ending that stands in the text with the words stands in the other one, as none come into it
  have hmono : ∀ ending ∈ greaterEndings, ending.1.toList.isPrefixOf t.stop.rest = true →
      ending.1.toList.isPrefixOf s.stop.rest = true := fun ending hmem =>
    hparted.isPrefixOf (isParting_of_mem_greaterEndings ending hmem)
  have hnone : ∀ {s : Scanner}, s.kind = .greaterThan →
      greaterEndings.find? (fun ending => ending.1.toList.isPrefixOf s.stop.rest) = none →
      s.rescanGreater = s := fun hk hfind => by
    simp only [rescanGreater, hk, hfind, if_true]
  have hsome : ∀ {s : Scanner} {ending}, s.kind = .greaterThan →
      greaterEndings.find? (fun ending => ending.1.toList.isPrefixOf s.stop.rest) = some ending →
      s.rescanGreater =
        { s with kind := ending.2, stop := s.stop.skip ending.1.toList.length } :=
    fun hk hfind => by
      simp only [rescanGreater, hk, hfind, if_true]
  cases hfind : greaterEndings.find? fun ending => ending.1.toList.isPrefixOf s.stop.rest with
  | none =>
    have hfind' : greaterEndings.find? (fun ending => ending.1.toList.isPrefixOf t.stop.rest) =
        none := by
      rw [List.find?_eq_none] at hfind ⊢
      exact fun ending hmem hbegin => hfind ending hmem (hmono ending hmem hbegin)
    rw [hnone hk hfind, hnone hk' hfind']
    exact h
  | some ending =>
    obtain ⟨hbegin, before, after, hlist, hbefore⟩ := List.find?_eq_some_iff_append.1 hfind
    obtain ⟨rest, hrest⟩ := List.isPrefixOf_iff_prefix.1 hbegin
    have hskip : s.stop.skip ending.1.toList.length =
        { pos := s.stop.pos + byteLength ending.1.toList, rest } := by
      have := Lexeme.skip_append ending.1.toList s.stop.pos rest
      rwa [hrest] at this
    have hlt := h.sound.lt (by rw [hk]; decide)
    rw [hsome hk hfind, hskip] at hno hsound ⊢
    obtain ⟨hrest', hstop, htext⟩ := h.extend hrest.symm fun b hle hb =>
      hno b (by simp only; omega) hb
    -- the endings in front of it in the list begin in neither text
    have hfind' : greaterEndings.find? (fun ending => ending.1.toList.isPrefixOf t.stop.rest) =
        some ending := by
      refine List.find?_eq_some_iff_append.2 ⟨?_, before, after, hlist, fun other hmem => ?_⟩
      · exact List.isPrefixOf_iff_prefix.2 ⟨_, hrest'.symm⟩
      · have hnot := hbefore other hmem
        rw [Bool.not_eq_true'] at hnot ⊢
        refine Bool.eq_false_iff.2 fun hother => ?_
        rw [hmono other (by rw [hlist]; exact List.mem_append_left _ hmem) hother] at hnot
        cases hnot
    have hskip' : t.stop.skip ending.1.toList.length =
        { pos := t.stop.pos + byteLength ending.1.toList
          rest := interleave words (s.stop.pos + byteLength ending.1.toList) rest } := by
      have := Lexeme.skip_append ending.1.toList t.stop.pos
        (interleave words (s.stop.pos + byteLength ending.1.toList) rest)
      rwa [← hrest'] at this
    rw [hsome hk' hfind', hskip'] at hsound' ⊢
    exact ⟨rfl, h.start, hstop, hsound, hsound', hno, htext, h.unterminated_eq,
      h.lineBreakBefore_eq⟩

theorem aligned_rescanSlash (hw : IsPartingFor text words) (h : Aligned text words front s t)
    (hsound : s.rescanSlash.Sound text) (hsound' : t.rescanSlash.Sound (interleave words 0 text))
    (hregex : s.rescanSlash.kind = .regularExpressionLiteral →
      Whole words since s.rescanSlash ∧
        ∀ c ∈ (words s.rescanSlash.stop.pos).head?, isSpacing c = true) :
    Aligned text words front s.rescanSlash t.rescanSlash := by
  -- both scanners read the same regular expression from the start of their token
  have hscan : ∀ {s : Scanner}, (s.kind = .slash || s.kind = .slashEquals) = true →
      s.rescanSlash = { s with
        kind := (Lexeme.readRegex s.start).kind
        stop := (Lexeme.readRegex s.start).next
        unterminated := s.unterminated || (Lexeme.readRegex s.start).unterminated } := fun hk => by
    rw [rescanSlash, if_pos hk]
    rfl
  by_cases hk : (s.kind = .slash || s.kind = .slashEquals) = true
  swap
  · rw [rescanSlash, if_neg hk, rescanSlash, if_neg (h.kind_eq ▸ hk)]
    exact h
  have hk' : (t.kind = .slash || t.kind = .slashEquals) = true := h.kind_eq ▸ hk
  rw [hscan hk] at hsound hregex ⊢
  rw [hscan hk'] at hsound' ⊢
  have hlt : s.start.pos < (Lexeme.readRegex s.start).next.pos := by
    refine hsound.lt ?_
    show TokenKind.regularExpressionLiteral ≠ .endOfFile
    decide
  have hne := hsound.ahead.rest_ne_nil hlt
  obtain ⟨hwhole, hbehind⟩ := hregex rfl
  have hterminated := hwhole.terminated
  rw [Bool.or_eq_false_iff] at hterminated
  have hlocal : Lexeme.IsLocal Lexeme.readRegex s.start := by
    obtain ⟨x, cs, hrest⟩ := List.exists_cons_of_ne_nil hne
    have hcursor : s.start = { pos := s.start.pos, rest := x :: cs } := by rw [← hrest]
    rw [hcursor] at hterminated ⊢
    exact Lexeme.isLocal_readRegex hterminated.2
  have hlexeme := hlocal.aligned hw h.start hlt hwhole.token hbehind hwhole.dot hwhole.text
  exact ⟨hlexeme.kind_eq, h.start, hlexeme.stop, hsound, hsound', hwhole.token, hlexeme.text_eq,
    by rw [h.unterminated_eq, hlexeme.unterminated_eq], h.lineBreakBefore_eq⟩

theorem aligned_rescanTemplate (h : Aligned text words front s t)
    (hsound : s.rescanTemplate.Sound text)
    (hsound' : t.rescanTemplate.Sound (interleave words 0 text))
    (hterminated : s.rescanTemplate.unterminated = false)
    (hno : ∀ b, s.rescanTemplate.start.pos < b → b < s.rescanTemplate.stop.pos → words b = []) :
    Aligned text words front s.rescanTemplate t.rescanTemplate := by
  by_cases hk : s.kind = .closeBrace
  swap
  · rw [rescanTemplate, if_neg hk, rescanTemplate, if_neg (h.kind_eq ▸ hk)]
    exact h
  have hk' : t.kind = .closeBrace := h.kind_eq ▸ hk
  have hlt := ((sameStart_rescanTemplate h.sound).lt (by rw [hk]; decide)).2
  rw [rescanTemplate, if_pos hk] at hsound hterminated hno hlt ⊢
  rw [rescanTemplate, if_pos hk'] at hsound' ⊢
  have hne := hsound.ahead.rest_ne_nil hlt
  simp only [Bool.or_eq_false_iff] at hterminated
  have hclosed : Lexeme.IsClosed (fun c => Lexeme.readTemplateSpan (c.skip 1)) s.start := by
    obtain ⟨x, cs, hrest⟩ := List.exists_cons_of_ne_nil hne
    have hcursor : s.start = { pos := s.start.pos, rest := x :: cs } := by rw [← hrest]
    rw [hcursor] at hterminated ⊢
    exact (Lexeme.isClosed_readTemplateSpan hterminated.2).behind fun _ _ => rfl
  have hlexeme := hclosed.aligned h.start hlt hno
  exact ⟨hlexeme.kind_eq, h.start, hlexeme.stop, hsound, hsound', hno, hlexeme.text_eq,
    by simp only [h.unterminated_eq, hlexeme.unterminated_eq], h.lineBreakBefore_eq⟩

theorem aligned_extendMarkupName (hw : IsPartingFor text words) (h : Aligned text words front s t)
    (hsound : s.extendMarkupName.Sound text)
    (hsound' : t.extendMarkupName.Sound (interleave words 0 text))
    (hno : ∀ b, s.extendMarkupName.start.pos < b → b < s.extendMarkupName.stop.pos → words b = [])
    (hbehind : (s.extendMarkupName.kind = .identifier || s.extendMarkupName.kind.isKeywordToken) →
      ∀ c ∈ (words s.extendMarkupName.stop.pos).head?, isSpacing c = true) :
    Aligned text words front s.extendMarkupName t.extendMarkupName := by
  by_cases hk : (s.kind = .identifier || s.kind.isKeywordToken) = true
  swap
  · rw [extendMarkupName, if_neg hk, extendMarkupName, if_neg (h.kind_eq ▸ hk)]
    exact h
  have hk' : (t.kind = .identifier || t.kind.isKeywordToken) = true := h.kind_eq ▸ hk
  have hlt : s.start.pos < s.stop.pos := h.sound.lt fun he => by
    rw [he] at hk
    cases hk
  obtain ⟨passed, hpassed, hpos, hmove⟩ := Cursor.isLocal_skipRun
    (p := fun c => c = '-' || Cursor.isIdentifierPart c) (fun c hc => by
      rw [Cursor.isIdentifierPart_of_isSpacing hc]
      rcases Lexeme.eq_of_isSpacing hc with rfl | rfl | rfl <;> rfl) s.stop.pos s.stop.rest
  by_cases hstay : (s.stop.skipWhile fun c => c = '-' || Cursor.isIdentifierPart c).pos = s.stop.pos
  · -- nothing is added, and blanks add nothing either
    have hscan : s.extendMarkupName = s := by
      rw [extendMarkupName, if_pos hk]
      exact if_pos hstay
    rw [hscan] at hbehind
    have hbehind := hbehind hk
    obtain rfl : passed = [] := by
      have hpos : (s.stop.skipWhile fun c => c = '-' || Cursor.isIdentifierPart c).pos =
        s.stop.pos + byteLength passed := hpos
      exact byteLength_eq_zero.1 (by omega)
    have hrest : s.stop.rest =
        (s.stop.skipWhile fun c => c = '-' || Cursor.isIdentifierPart c).rest := hpassed
    have hspaced : Spaced (s.stop.skipWhile fun c => c = '-' || Cursor.isIdentifierPart c).rest
        t.stop.rest := by
      rw [← hrest, h.stop.rest_eq]
      exact hw.spaced (pos_add_byteLength h.stop.reached) hbehind
    have hstay' : t.stop.skipWhile (fun c => c = '-' || Cursor.isIdentifierPart c) = t.stop :=
      hmove t.stop.pos t.stop.rest hspaced
    simp only [extendMarkupName, hk, hk', if_true, hstay, hstay']
    exact h
  -- no words stand inside the longer name, so the same characters are added
  · have hscan : s.extendMarkupName = { s with
        kind := .identifier
        stop := s.stop.skipWhile fun c => c = '-' || Cursor.isIdentifierPart c } := by
      simp only [extendMarkupName, hk, if_true, hstay, if_false]
    have hstop : s.stop.skipWhile (fun c => c = '-' || Cursor.isIdentifierPart c) =
        { pos := s.stop.pos + byteLength passed
          rest := (s.stop.skipWhile fun c => c = '-' || Cursor.isIdentifierPart c).rest } :=
      congrArg (Cursor.mk · _) hpos
    rw [hscan] at hno hsound hbehind ⊢
    have hbehind := hbehind rfl
    obtain ⟨hrest', hstop', htext⟩ := h.extend hpassed fun b hle hb =>
      hno b (by simp only; omega) (by rw [hstop]; exact hb)
    have hmoved : t.stop.skipWhile (fun c => c = '-' || Cursor.isIdentifierPart c) =
        { pos := t.stop.pos + byteLength passed
          rest := interleave words (s.stop.pos + byteLength passed)
            (s.stop.skipWhile fun c => c = '-' || Cursor.isIdentifierPart c).rest } := by
      rw [hstop] at hbehind
      have hspaced := hw.spaced (pos_add_byteLength hstop'.reached) hbehind
      have hcursor : t.stop = { pos := t.stop.pos, rest := passed ++ _ } :=
        congrArg (Cursor.mk t.stop.pos) hrest'
      exact (congrArg _ hcursor).trans (hmove t.stop.pos _ hspaced)
    have hmove' : ¬ (t.stop.skipWhile fun c => c = '-' || Cursor.isIdentifierPart c).pos =
        t.stop.pos := by
      rw [hmoved]
      rw [hstop] at hstay
      simp only at hstay ⊢
      omega
    have hscan' : t.extendMarkupName = { t with
        kind := .identifier
        stop := t.stop.skipWhile fun c => c = '-' || Cursor.isIdentifierPart c } := by
      simp only [extendMarkupName, hk', if_true, hmove', if_false]
    rw [hscan', hmoved] at hsound' ⊢
    rw [hstop] at hsound hno ⊢
    exact ⟨rfl, h.start, hstop', hsound, hsound', hno, htext, h.unterminated_eq,
      h.lineBreakBefore_eq⟩

/-- Tokens read anew stay aligned, unless they are torn. -/
theorem aligned_rescan (hw : IsPartingFor text words) (scan : Grammar.Rescan)
    (h : Aligned text words front s t) (hwhole : Whole words since (scan.apply s))
    (hbehind : ∀ c ∈ (words (scan.apply s).stop.pos).head?, isSpacing c = true) :
    Aligned text words front (scan.apply s) (scan.apply t) := by
  have hsound := h.sound.of_sameStart (Grammar.State.sameStart_rescan scan h.sound)
  have hsound' := h.sound'.of_sameStart (Grammar.State.sameStart_rescan scan h.sound')
  cases scan with
  | greater => exact aligned_rescanGreater hw h hsound hsound' hwhole.token
  | slash => exact aligned_rescanSlash hw h hsound hsound' fun _ => ⟨hwhole, hbehind⟩
  | template => exact aligned_rescanTemplate h hsound hsound' hwhole.terminated hwhole.token
  | markupName =>
    exact aligned_extendMarkupName hw h hsound hsound' hwhole.token fun _ => hbehind

end Scanner

end ExpectError
