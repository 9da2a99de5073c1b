import ExpectError.Proofs.Scanner

/-!
# Line comments and the scanner

A line comment in front of a line feed says nothing to the scanner: blanks in its place give the same
tokens at the same offsets, as long as no regular expression is read across them and no mark in front
of the comment takes its first slash. This holds wherever the scanner comes from, so also where it
takes the comment for a part of a string, a template or the text between markup tags.

* `Commented`: a text with line comments in the place of some of its blanks;
* `Cursor.Fits`: two cursors at the same offset of such texts.
-/

namespace ExpectError

open Text

/-- Characters of line comments that begin or end nothing in strings, templates and markup. -/
def isPlain (c : Char) : Bool :=
  c.isAlphanum || [' ', '/', '@', '-', '(', ')'].contains c

/-- The second text is the first one with line comments in the place of some blanks, each in front of
a line feed. The flag says whether the texts begin inside such a comment. -/
inductive Commented : Bool → List Char → List Char → Prop
  | nil : Commented false [] []
  | char {c : Char} {xs ys : List Char} :
    Commented false xs ys → Commented false (c :: xs) (c :: ys)
  | opening {xs ys : List Char} :
    Commented true xs ys → Commented false (' ' :: ' ' :: xs) ('/' :: '/' :: ys)
  | plain {c : Char} {xs ys : List Char} :
    isPlain c = true → Commented true xs ys → Commented true (' ' :: xs) (c :: ys)
  | closing {xs ys : List Char} :
    Commented false ('\n' :: xs) ('\n' :: ys) → Commented true ('\n' :: xs) ('\n' :: ys)

/-- Behind a character that is no blank, the texts are the same outside their comments. -/
theorem Commented.tail {c : Char} {xs ys : List Char} (h : Commented false xs ys)
    (hhead : xs.head? = some c) (hc : c ≠ ' ' := by decide) : Commented false xs.tail ys.tail := by
  cases h with
  | nil => cases hhead
  | char h => exact h
  | opening => exact absurd (Option.some.inj hhead).symm hc

theorem Commented.head?_iff {c : Char} {xs ys : List Char} (h : Commented false xs ys)
    (hblank : c ≠ ' ' := by decide) (hslash : c ≠ '/' := by decide) :
    xs.head? = some c ↔ ys.head? = some c := by
  cases h with
  | nil => rfl
  | char => rfl
  | opening => simp [hblank.symm, hslash.symm]

/-- The first characters of the two texts take up the same number of bytes. -/
theorem Commented.uncons {xs ys : List Char} (h : Commented false xs ys) :
    (xs = [] ∧ ys = []) ∨ ∃ c d xs' ys' inside, xs = c :: xs' ∧ ys = d :: ys' ∧
      c.utf8Size = d.utf8Size ∧ Commented inside xs' ys' := by
  cases h with
  | nil => exact Or.inl ⟨rfl, rfl⟩
  | char h => exact Or.inr ⟨_, _, _, _, _, rfl, rfl, rfl, h⟩
  | opening h => exact Or.inr ⟨_, _, _, _, _, rfl, rfl, rfl, .plain (by decide) h⟩

theorem Commented.uncons_char {xs ys : List Char} (h : Commented false xs ys) :
    (xs = [] ∧ ys = []) ∨ (∃ c xs' ys', xs = c :: xs' ∧ ys = c :: ys' ∧ Commented false xs' ys') ∨
      ∃ xs' ys', xs = ' ' :: xs' ∧ ys = '/' :: ys' := by
  cases h with
  | nil => exact Or.inl ⟨rfl, rfl⟩
  | char h => exact Or.inr (Or.inl ⟨_, _, _, rfl, rfl, h⟩)
  | opening h => exact Or.inr (Or.inr ⟨_, _, rfl, rfl⟩)

/-- Where the texts do not go on with the same character, a comment begins. -/
theorem Commented.opens_of_head?_ne {xs ys : List Char} (h : Commented false xs ys)
    (hne : xs.head? ≠ ys.head?) : ∃ xs' ys', xs = ' ' :: xs' ∧ ys = '/' :: ys' := by
  cases h with
  | nil => exact absurd rfl hne
  | char => exact absurd rfl hne
  | opening => exact ⟨_, _, rfl, rfl⟩

theorem ne_of_isPlain {c d : Char} (hc : isPlain c = true) (hd : isPlain d = false) : c ≠ d := by
  rintro rfl
  simp [hc] at hd

theorem isLineBreak_of_isPlain {c : Char} (h : isPlain c = true) : isLineBreak c = false := by
  have h₁ := ne_of_isPlain (d := '\n') h (by decide)
  have h₂ := ne_of_isPlain (d := '\r') h (by decide)
  have h₃ := ne_of_isPlain (d := '\u2028') h (by decide)
  have h₄ := ne_of_isPlain (d := '\u2029') h (by decide)
  simp [isLineBreak, h₁, h₂, h₃, h₄]

theorem utf8Size_of_isPlain {c : Char} (h : isPlain c = true) : c.utf8Size = 1 := by
  have hascii : c.val ≤ 127 := by
    have h : (((decide ('A'.val ≤ c.val ∧ c.val ≤ 'Z'.val) ||
        (decide ('a'.val ≤ c.val) && decide (c.val ≤ 'z'.val))) ||
          (decide ('0'.val ≤ c.val) && decide (c.val ≤ '9'.val))) ||
            [' ', '/', '@', '-', '(', ')'].contains c) = true := h
    simp only [List.contains_cons, Bool.or_eq_true, Bool.and_eq_true, decide_eq_true_eq,
      beq_iff_eq] at h
    rcases h with ((⟨-, h⟩ | ⟨-, h⟩) | ⟨-, h⟩) | rfl | rfl | rfl | rfl | rfl | rfl | h
    · exact UInt32.le_trans h (by decide)
    · exact UInt32.le_trans h (by decide)
    · exact UInt32.le_trans h (by decide)
    all_goals first | decide | simp at h
  exact Char.utf8Size_eq_one_iff.2 hascii

namespace Cursor

/-- Two cursors at the same offset, outside comments. -/
def Fits (c d : Cursor) : Prop :=
  c.pos = d.pos ∧ Commented false c.rest d.rest

theorem Fits.mk' {pos : ℕ} {xs ys : List Char} (h : Commented false xs ys) :
    Fits { pos, rest := xs } { pos, rest := ys } :=
  ⟨rfl, h⟩

/-- Over a character that is the same in both texts. -/
theorem fits_skip_one {pos : ℕ} {c : Char} {xs ys : List Char} (h : Commented false xs ys) :
    Fits (skip 1 { pos, rest := c :: xs }) (skip 1 { pos, rest := c :: ys }) :=
  ⟨rfl, h⟩

/-! ### Runs of characters -/

/-- A class without blanks and slashes ends in front of a comment. -/
theorem fits_skipRun_of_stop {p : Char → Bool} (hblank : p ' ' = false) (hslash : p '/' = false)
    (pos : ℕ) {xs ys : List Char} (h : Commented false xs ys) :
    Fits (skipRun p pos xs) (skipRun p pos ys) := by
  induction xs generalizing pos ys with
  | nil => cases h; exact .mk' .nil
  | cons x xs ih =>
    cases h with
    | char h =>
      rw [skipRun, skipRun]
      split
      · exact ih _ h
      · exact .mk' (.char h)
    | opening h =>
      simp only [skipRun, hblank, hslash]
      exact .mk' (.opening h)

/-- A class with all characters of comments goes over them. -/
theorem fits_skipRun_of_pass {p : Char → Bool} (hp : ∀ c, isPlain c = true → p c = true)
    (pos : ℕ) {inside : Bool} {xs ys : List Char} (h : Commented inside xs ys) :
    Fits (skipRun p pos xs) (skipRun p pos ys) := by
  have hblank : p ' ' = true := hp _ (by decide)
  have hslash : p '/' = true := hp _ (by decide)
  induction h generalizing pos with
  | nil => exact .mk' .nil
  | char h ih =>
    rw [skipRun, skipRun]
    split
    · exact ih _
    · exact .mk' (.char h)
  | opening h ih =>
    simp only [skipRun, hblank, hslash]
    exact ih _
  | plain hc h ih =>
    simp only [skipRun, hblank, hp _ hc, utf8Size_of_isPlain hc]
    exact ih _
  | closing h ih => exact ih _

/-! ### Trivia -/

theorem skipTrivia_blockComment_cons (broken : Bool) (pos : ℕ) (c : Char) (cs : List Char) :
    skipTrivia .blockComment broken pos (c :: cs) =
      if c = '*' ∧ cs.head? = some '/' then skipTrivia .blank broken (pos + 2) cs.tail
      else skipTrivia .blockComment (broken || isLineBreak c) (pos + c.utf8Size) cs := by
  split_ifs with h
  · obtain ⟨rfl, h⟩ := h
    obtain ⟨cs, rfl⟩ := List.head?_eq_some_iff.1 h
    rw [skipTrivia, List.tail_cons]
  · rw [skipTrivia]
    rintro cs' rfl rfl
    simp at h

theorem skipTrivia_blank_cons (broken : Bool) (pos : ℕ) (c : Char) (cs : List Char) :
    skipTrivia .blank broken pos (c :: cs) =
      if c = '/' ∧ cs.head? = some '/' then skipTrivia .lineComment broken (pos + 2) cs.tail
      else if c = '/' ∧ cs.head? = some '*' then skipTrivia .blockComment broken (pos + 2) cs.tail
      else if isLineBreak c then skipTrivia .blank true (pos + c.utf8Size) cs
      else if isGap c then skipTrivia .blank broken (pos + c.utf8Size) cs
      else ({ pos, rest := c :: cs }, broken) := by
  split_ifs with h₁ h₂ h₃ h₄
  · obtain ⟨rfl, h⟩ := h₁
    obtain ⟨cs, rfl⟩ := List.head?_eq_some_iff.1 h
    rw [skipTrivia, List.tail_cons]
  · obtain ⟨rfl, h⟩ := h₂
    obtain ⟨cs, rfl⟩ := List.head?_eq_some_iff.1 h
    rw [skipTrivia, List.tail_cons]
  all_goals
    rw [skipTrivia]
    · simp [*]
    · rintro cs' rfl rfl
      simp at h₁
    · rintro cs' rfl rfl
      simp at h₂

/-- Two ends of trivia that fit. -/
def FitsBroken (r r' : Cursor × Bool) : Prop :=
  Fits r.1 r'.1 ∧ r.2 = r'.2

/-- How the trivia of two texts correspond: inside a comment, blanks correspond to it. -/
def SameTrivia : Bool → Trivia → Trivia → Prop
  | false, m, m' => m = m'
  | true, m, m' => m = m' ∧ m ≠ .blank ∨ m = .blank ∧ m' = .lineComment

/-- At a line feed, a line comment is over. -/
theorem skipTrivia_lineFeed (broken : Bool) (pos : ℕ) (cs : List Char) :
    skipTrivia .lineComment broken pos ('\n' :: cs) = skipTrivia .blank broken pos ('\n' :: cs) := by
  rw [skipTrivia_blank_cons, skipTrivia]
  rfl

/-- At an offset in front of a token or at its start there is a character that makes another mark
with a slash behind it: a `*` among the trivia, which ends a block comment, or the token's own slash,
which begins a comment. -/
def IsMarkAt (start pos : ℕ) (c : Char) : Prop :=
  c = '*' ∧ pos < start ∨ c = '/' ∧ pos = start

instance (start pos : ℕ) (c : Char) : Decidable (IsMarkAt start pos c) :=
  inferInstanceAs (Decidable (_ ∨ _))

/-- From `pos` on, up to the start of the next token, a comment of the second text begins directly
behind such a character. -/
def Joins (pos start : ℕ) (xs ys : List Char) : Prop :=
  ∃ a a' c b b', xs = a ++ c :: ' ' :: b ∧ ys = a' ++ c :: '/' :: b' ∧
    byteLength a = byteLength a' ∧ IsMarkAt start (pos + byteLength a) c

/-- Two ends of trivia that fit unless a comment begins directly behind such a character. -/
def FitsOrJoins (pos : ℕ) (r r' : Cursor × Bool) (xs ys : List Char) : Prop :=
  FitsBroken r r' ∨ Joins pos r.1.pos xs ys

theorem FitsOrJoins.cons {pos : ℕ} {r r' : Cursor × Bool} {c d : Char} {xs ys : List Char}
    (hsize : c.utf8Size = d.utf8Size) (h : FitsOrJoins (pos + c.utf8Size) r r' xs ys) :
    FitsOrJoins pos r r' (c :: xs) (d :: ys) := by
  refine h.imp_right ?_
  rintro ⟨a, a', e, b, b', rfl, rfl, hlength, hmark⟩
  refine ⟨c :: a, d :: a', e, b, b', rfl, rfl, ?_, ?_⟩
  · rw [byteLength_cons, byteLength_cons, hsize, hlength]
  · rwa [byteLength_cons, ← Nat.add_assoc]

/-- Over a character that comes next in both texts. -/
theorem FitsOrJoins.of_tail {pos : ℕ} {r r' : Cursor × Bool} {c : Char} {xs ys : List Char}
    (hcommented : Commented false xs ys) (hhead : xs.head? = some c)
    (h : FitsOrJoins (pos + c.utf8Size) r r' xs.tail ys.tail) (hc : c ≠ ' ' := by decide) :
    FitsOrJoins pos r r' xs ys := by
  cases hcommented with
  | nil => cases hhead
  | char =>
    obtain rfl := Option.some.inj hhead
    exact .cons rfl h
  | opening => exact absurd (Option.some.inj hhead).symm hc

/-- The trivia of both texts end alike. The induction is on what is left of the texts; where a `*` in
a block comment or a slash between comments does not have the same character behind it in both texts,
the comment begins there. -/
theorem fitsOrJoins_skipTrivia : ∀ {inside : Bool} {xs ys : List Char}, Commented inside xs ys →
    ∀ {m m' : Trivia}, SameTrivia inside m m' → ∀ (broken : Bool) (pos : ℕ),
      FitsOrJoins pos (skipTrivia m broken pos xs) (skipTrivia m' broken pos ys) xs ys
  | _, _, _, .nil, m, _, hm, _, _ => by
    obtain rfl := hm
    cases m <;> exact Or.inl ⟨.mk' .nil, rfl⟩
  | _, c :: xs, _ :: ys, .char h, m, _, hm, broken, pos => by
    obtain rfl := hm
    cases m with
    | lineComment =>
      rw [skipTrivia, skipTrivia]
      split
      · exact .cons rfl (fitsOrJoins_skipTrivia h rfl _ _)
      · exact .cons rfl (fitsOrJoins_skipTrivia h rfl _ _)
    | blockComment =>
      rw [skipTrivia_blockComment_cons, skipTrivia_blockComment_cons]
      by_cases hstar : c = '*'
      · subst hstar
        by_cases hhead : xs.head? = ys.head?
        · rw [← hhead]
          split_ifs with hend
          · exact .cons rfl (.of_tail h hend.2 (fitsOrJoins_skipTrivia (h.tail hend.2) rfl _ _))
          · exact .cons rfl (fitsOrJoins_skipTrivia h rfl _ _)
        · obtain ⟨xs, ys, rfl, rfl⟩ := h.opens_of_head?_ne hhead
          refine Or.inr ⟨[], [], '*', xs, ys, rfl, rfl, rfl, Or.inl ⟨rfl, ?_⟩⟩
          rw [if_neg (by simp)]
          exact (ahead_skipTrivia .blockComment _ _ _).pos_le
      · simp only [hstar, false_and, if_false]
        exact .cons rfl (fitsOrJoins_skipTrivia h rfl _ _)
    | blank =>
      rw [skipTrivia_blank_cons, skipTrivia_blank_cons]
      by_cases hslash : c = '/'
      · subst hslash
        by_cases hhead : xs.head? = ys.head?
        · rw [← hhead]
          split_ifs with h₁ h₂
          · exact .cons rfl (.of_tail h h₁.2 (fitsOrJoins_skipTrivia (h.tail h₁.2) rfl _ _))
          · exact .cons rfl (.of_tail h h₂.2 (fitsOrJoins_skipTrivia (h.tail h₂.2) rfl _ _))
          · exact .cons rfl (fitsOrJoins_skipTrivia h rfl _ _)
          · exact .cons rfl (fitsOrJoins_skipTrivia h rfl _ _)
          · exact Or.inl ⟨.mk' (.char h), rfl⟩
        · obtain ⟨xs, ys, rfl, rfl⟩ := h.opens_of_head?_ne hhead
          exact Or.inr ⟨[], [], '/', xs, ys, rfl, rfl, rfl, Or.inr ⟨rfl, rfl⟩⟩
      · simp only [hslash, false_and, if_false]
        split_ifs
        · exact .cons rfl (fitsOrJoins_skipTrivia h rfl _ _)
        · exact .cons rfl (fitsOrJoins_skipTrivia h rfl _ _)
        · exact Or.inl ⟨.mk' (.char h), rfl⟩
  | _, _, _, .opening h, m, _, hm, _, _ => by
    obtain rfl := hm
    refine .cons rfl (.cons rfl ?_)
    cases m with
    | lineComment => exact fitsOrJoins_skipTrivia h (Or.inl ⟨rfl, by simp⟩) _ _
    | blockComment => exact fitsOrJoins_skipTrivia h (Or.inl ⟨rfl, by simp⟩) _ _
    | blank => exact fitsOrJoins_skipTrivia h (Or.inr ⟨rfl, rfl⟩) _ _
  | _, _, _, .plain hc h, m, _, hm, _, _ => by
    have hbreak := isLineBreak_of_isPlain hc
    have hstar := ne_of_isPlain (d := '*') hc (by decide)
    have hsize := utf8Size_of_isPlain hc
    refine .cons hsize.symm ?_
    rcases hm with ⟨rfl, hm⟩ | ⟨rfl, rfl⟩
    · cases m with
      | blank => exact absurd rfl hm
      | lineComment =>
        rw [skipTrivia, skipTrivia, hbreak, hsize]
        exact fitsOrJoins_skipTrivia h (Or.inl ⟨rfl, hm⟩) _ _
      | blockComment =>
        rw [skipTrivia_blockComment_cons, skipTrivia_blockComment_cons, hbreak, hsize]
        simp only [hstar, false_and, if_false]
        exact fitsOrJoins_skipTrivia h (Or.inl ⟨rfl, hm⟩) _ _
    · rw [skipTrivia_blank_cons, skipTrivia, hbreak, hsize]
      exact fitsOrJoins_skipTrivia h (Or.inr ⟨rfl, rfl⟩) _ _
  | _, _, _, .closing h, _, _, hm, _, _ => by
    rcases hm with ⟨rfl, -⟩ | ⟨rfl, rfl⟩
    · exact fitsOrJoins_skipTrivia h rfl _ _
    · rw [skipTrivia_lineFeed]
      exact fitsOrJoins_skipTrivia h rfl _ _
termination_by inside xs => 2 * xs.length + inside.toNat
decreasing_by
  all_goals
    simp only [List.length_cons, List.length_tail, Bool.toNat_true, Bool.toNat_false]
    omega

theorem fitsOrJoins_toToken {c d : Cursor} (h : c.Fits d) :
    FitsOrJoins c.pos c.toToken d.toToken c.rest d.rest := by
  obtain ⟨pos, xs⟩ := c
  obtain ⟨pos', ys⟩ := d
  obtain ⟨rfl, h⟩ : pos = pos' ∧ Commented false xs ys := h
  -- a first line with `#!` is the same in both texts
  by_cases hmark : pos = 0 ∧ ∃ zs, xs = '#' :: '!' :: zs
  · obtain ⟨rfl, zs, rfl⟩ := hmark
    cases h with
    | char h =>
      cases h with
      | char h => exact .cons rfl (.cons rfl (fitsOrJoins_skipTrivia h rfl _ _))
  · have hmark' : ¬ (pos = 0 ∧ ∃ zs, ys = '#' :: '!' :: zs) := by
      rintro ⟨rfl, zs, rfl⟩
      cases h with
      | char h =>
        cases h with
        | char h => exact hmark ⟨rfl, _, rfl⟩
    have hplain : ∀ zs, ¬ (pos = 0 ∧ ∃ rest, zs = '#' :: '!' :: rest) →
        toToken { pos, rest := zs } = skipTrivia .blank false pos zs := by
      intro zs hzs
      unfold toToken
      split
      next rest hpos hrest => exact absurd ⟨hpos, rest, hrest⟩ hzs
      next => rfl
    rw [hplain xs hmark, hplain ys hmark']
    exact fitsOrJoins_skipTrivia h rfl _ _

/-! ### Identifiers -/

theorem identifierEnd_outside_cons (pos : ℕ) (c : Char) (cs : List Char) :
    identifierEnd .outside pos (c :: cs) =
      if c = '\\' ∧ cs.head? = some 'u' then
        if cs.tail.head? = some '{' then identifierEnd .braced (pos + 3) cs.tail.tail
        else identifierEnd .outside (pos + 2) cs.tail
      else if isIdentifierPart c then identifierEnd .outside (pos + c.utf8Size) cs
      else { pos, rest := c :: cs } := by
  split_ifs with h₁ h₂ h₃
  · obtain ⟨rfl, h⟩ := h₁
    obtain ⟨cs, rfl⟩ := List.head?_eq_some_iff.1 h
    obtain ⟨cs, rfl⟩ := List.head?_eq_some_iff.1 h₂
    rw [identifierEnd, List.tail_cons, List.tail_cons]
  · obtain ⟨rfl, h⟩ := h₁
    obtain ⟨cs, rfl⟩ := List.head?_eq_some_iff.1 h
    rw [identifierEnd, List.tail_cons]
    rintro cs' rfl
    simp at h₂
  all_goals
    rw [identifierEnd]
    · simp [h₃]
    · rintro cs' rfl rfl
      simp at h₁
    · rintro cs' rfl rfl
      simp at h₁

theorem fits_identifierEnd : ∀ {inside : Bool} {xs ys : List Char}, Commented inside xs ys →
    ∀ {escape : Escape}, (inside = true → escape = .braced) → ∀ pos : ℕ,
      Fits (identifierEnd escape pos xs) (identifierEnd escape pos ys)
  | _, _, _, .nil, escape, _, _ => by
    cases escape <;> exact .mk' .nil
  | _, c :: _, _, .char h, escape, _, _ => by
    cases escape with
    | braced =>
      rw [identifierEnd, identifierEnd]
      exact fits_identifierEnd h (by simp) _
    | outside =>
      rw [identifierEnd_outside_cons, identifierEnd_outside_cons]
      simp only [← h.head?_iff (c := 'u')]
      split_ifs with hu hbrace hbrace' hbrace' hpart
      · exact fits_identifierEnd ((h.tail hu.2).tail hbrace) (by simp) _
      · exact absurd ((h.tail hu.2).head?_iff.1 hbrace) hbrace'
      · exact absurd ((h.tail hu.2).head?_iff.2 hbrace') hbrace
      · exact fits_identifierEnd (h.tail hu.2) (by simp) _
      · exact fits_identifierEnd h (by simp) _
      · exact .mk' (.char h)
  | _, _, _, .opening h, escape, _, _ => by
    cases escape with
    | braced => exact fits_identifierEnd h (fun _ => rfl) _
    | outside =>
      rw [identifierEnd_outside_cons, identifierEnd_outside_cons]
      exact .mk' (.opening h)
  | _, _, _, .plain hc h, escape, hescape, _ => by
    obtain rfl := hescape rfl
    have hbrace := ne_of_isPlain (d := '}') hc (by decide)
    rw [identifierEnd, identifierEnd, if_neg hbrace, utf8Size_of_isPlain hc]
    exact fits_identifierEnd h (fun _ => rfl) _
  | _, _, _, .closing h, _, _, _ => fits_identifierEnd h (by simp) _
termination_by inside xs => 2 * xs.length + inside.toNat
decreasing_by
  all_goals
    simp only [List.length_cons, List.length_tail, Bool.toNat_true, Bool.toNat_false]
    omega

/-! ### Literals -/

theorem stringEnd_of_ne (quote : Char) (pos : ℕ) {c : Char} (cs : List Char) (hc : c ≠ '\\') :
    stringEnd quote pos (c :: cs) =
      if c = quote then ({ pos := pos + c.utf8Size, rest := cs }, false)
      else if c = '\n' || c = '\r' then ({ pos, rest := c :: cs }, true)
      else stringEnd quote (pos + c.utf8Size) cs := by
  rw [stringEnd.eq_def]
  simp [hc]

theorem stringEnd_of_isPlain {quote : Char} (hquote : isPlain quote = false) (pos : ℕ) {c : Char}
    (cs : List Char) (hc : isPlain c = true) :
    stringEnd quote pos (c :: cs) = stringEnd quote (pos + 1) cs := by
  rw [stringEnd_of_ne _ _ _ (ne_of_isPlain hc (by decide)), if_neg (ne_of_isPlain hc hquote),
    utf8Size_of_isPlain hc]
  simp [ne_of_isPlain (d := '\n') hc (by decide), ne_of_isPlain (d := '\r') hc (by decide)]

theorem fitsBroken_stringEnd {quote : Char} (hquote : isPlain quote = false) :
    ∀ {inside : Bool} {xs ys : List Char}, Commented inside xs ys → ∀ pos : ℕ,
      FitsBroken (stringEnd quote pos xs) (stringEnd quote pos ys)
  | _, _, _, .nil, _ => ⟨.mk' .nil, rfl⟩
  | _, c :: xs, _, .char h, pos => by
    by_cases hslash : c = '\\'
    · -- the character behind a backslash goes with it, even if it begins a comment
      subst hslash
      obtain ⟨rfl, rfl⟩ | ⟨d, d', xs', ys', inside, hxs, hys, hsize, h'⟩ := h.uncons
      · simp only [stringEnd]
        split_ifs <;> exact ⟨.mk' .nil, rfl⟩
      · have hlt : xs'.length < xs.length := by simp [hxs]
        have hle := inside.toNat_le
        rw [stringEnd.eq_def, stringEnd.eq_def]
        simp only [hxs, hys, hsize]
        split_ifs
        · exact ⟨.mk' (hxs ▸ hys ▸ h), rfl⟩
        · exact fitsBroken_stringEnd hquote h' _
    · rw [stringEnd_of_ne _ _ _ hslash, stringEnd_of_ne _ _ _ hslash]
      split_ifs
      · exact ⟨.mk' h, rfl⟩
      · exact ⟨.mk' (.char h), rfl⟩
      · exact fitsBroken_stringEnd hquote h _
  | _, _, _, .opening h, pos => by
    rw [stringEnd_of_isPlain hquote _ _ (by decide), stringEnd_of_isPlain hquote _ _ (by decide),
      stringEnd_of_isPlain hquote _ _ (by decide), stringEnd_of_isPlain hquote _ _ (by decide)]
    exact fitsBroken_stringEnd hquote h _
  | _, _, _, .plain hc h, pos => by
    rw [stringEnd_of_isPlain hquote _ _ (by decide), stringEnd_of_isPlain hquote _ _ hc]
    exact fitsBroken_stringEnd hquote h _
  | _, _, _, .closing h, pos => fitsBroken_stringEnd hquote h pos
termination_by inside xs => 2 * xs.length + inside.toNat
decreasing_by
  all_goals
    simp only [List.length_cons, Bool.toNat_true, Bool.toNat_false]
    omega

theorem fitsBroken_attributeStringEnd {quote : Char} (hquote : isPlain quote = false)
    {inside : Bool} {xs ys : List Char} (h : Commented inside xs ys) (pos : ℕ) :
    FitsBroken (attributeStringEnd quote pos xs) (attributeStringEnd quote pos ys) := by
  have hplain : ∀ c, isPlain c = true → c ≠ quote := fun c hc => ne_of_isPlain hc hquote
  induction h generalizing pos with
  | nil => exact ⟨.mk' .nil, rfl⟩
  | char h ih =>
    rw [attributeStringEnd, attributeStringEnd]
    split
    · exact ⟨.mk' h, rfl⟩
    · exact ih _
  | opening h ih =>
    simp only [attributeStringEnd, hplain ' ' (by decide), hplain '/' (by decide), if_false]
    exact ih _
  | plain hc h ih =>
    simp only [attributeStringEnd, hplain ' ' (by decide), hplain _ hc, if_false,
      utf8Size_of_isPlain hc]
    exact ih _
  | closing h ih => exact ih _

/-! ### Templates -/

theorem templateEnd_of_ne (pos : ℕ) {c : Char} (cs : List Char) (hc : c ≠ '\\') :
    templateEnd pos (c :: cs) =
      if c = '\x60' then ({ pos := pos + 1, rest := cs }, .closed)
      else if c = '$' ∧ cs.head? = some '{' then
        ({ pos := pos + 2, rest := cs.tail }, .substitution)
      else templateEnd (pos + c.utf8Size) cs := by
  split_ifs with h₁ h₂
  · subst h₁
    rw [templateEnd]
  · obtain ⟨rfl, h⟩ := h₂
    obtain ⟨cs, rfl⟩ := List.head?_eq_some_iff.1 h
    rw [templateEnd, List.tail_cons]
  · rw [templateEnd]
    · exact fun h => h₁ h
    · rintro cs' rfl rfl
      simp at h₂
    · rintro d cs' rfl rfl
      exact hc rfl

theorem templateEnd_of_isPlain (pos : ℕ) {c : Char} (cs : List Char) (hc : isPlain c = true) :
    templateEnd pos (c :: cs) = templateEnd (pos + 1) cs := by
  rw [templateEnd_of_ne _ _ (ne_of_isPlain hc (by decide)), utf8Size_of_isPlain hc]
  simp [ne_of_isPlain (d := '\x60') hc (by decide), ne_of_isPlain (d := '$') hc (by decide)]

/-- Two ends of template characters that fit, of the same kind. -/
def FitsStop (r r' : Cursor × TemplateStop) : Prop :=
  Fits r.1 r'.1 ∧ r.2 = r'.2

theorem fitsStop_templateEnd : ∀ {inside : Bool} {xs ys : List Char}, Commented inside xs ys →
    ∀ pos : ℕ, FitsStop (templateEnd pos xs) (templateEnd pos ys)
  | _, _, _, .nil, _ => ⟨.mk' .nil, rfl⟩
  | _, c :: xs, _, .char h, pos => by
    by_cases hslash : c = '\\'
    · subst hslash
      obtain ⟨rfl, rfl⟩ | ⟨d, d', xs', ys', inside, hxs, hys, hsize, h'⟩ := h.uncons
      · exact ⟨.mk' .nil, rfl⟩
      · have hlt : xs'.length < xs.length := by simp [hxs]
        have hle := inside.toNat_le
        rw [hxs, hys, templateEnd, templateEnd, hsize]
        exact fitsStop_templateEnd h' _
    · rw [templateEnd_of_ne _ _ hslash, templateEnd_of_ne _ _ hslash]
      simp only [← h.head?_iff (c := '{')]
      split_ifs with h₁ h₂
      · exact ⟨.mk' h, rfl⟩
      · exact ⟨.mk' (h.tail h₂.2), rfl⟩
      · exact fitsStop_templateEnd h _
  | _, _, _, .opening h, pos => by
    rw [templateEnd_of_isPlain _ _ (by decide), templateEnd_of_isPlain _ _ (by decide),
      templateEnd_of_isPlain _ _ (by decide), templateEnd_of_isPlain _ _ (by decide)]
    exact fitsStop_templateEnd h _
  | _, _, _, .plain hc h, pos => by
    rw [templateEnd_of_isPlain _ _ (by decide), templateEnd_of_isPlain _ _ hc]
    exact fitsStop_templateEnd h _
  | _, _, _, .closing h, pos => fitsStop_templateEnd h pos
termination_by inside xs => 2 * xs.length + inside.toNat
decreasing_by
  all_goals
    simp only [List.length_cons, Bool.toNat_true, Bool.toNat_false]
    omega

/-! ### Regular expressions -/

theorem regexEnd_of_ne (inClass : Bool) (pos : ℕ) {c : Char} (cs : List Char) (hc : c ≠ '\\') :
    regexEnd inClass pos (c :: cs) =
      if isLineBreak c then ({ pos, rest := c :: cs }, true)
      else if c = '/' && !inClass then ({ pos := pos + 1, rest := cs }, false)
      else regexEnd (c = '[' || (inClass && c ≠ ']')) (pos + c.utf8Size) cs := by
  rw [regexEnd.eq_def]
  simp [hc]

theorem lt_regexEnd {inClass : Bool} {pos : ℕ} {cs : List Char} :
    pos < (regexEnd inClass pos (' ' :: cs)).1.pos := by
  rw [regexEnd_of_ne _ _ _ (by decide)]
  exact (ahead_regexEnd _ _ cs).over_pos_lt (c := ' ')

/-- The stretch from `pos` to `stop` of the texts that follow takes in a part of a comment. -/
def Crosses (pos stop : ℕ) (xs ys : List Char) : Prop :=
  ∃ a b b', xs = a ++ ' ' :: b ∧ ys = a ++ '/' :: b' ∧ pos + byteLength a < stop

theorem Crosses.cons {pos stop : ℕ} {xs ys : List Char} (c : Char)
    (h : Crosses (pos + c.utf8Size) stop xs ys) : Crosses pos stop (c :: xs) (c :: ys) := by
  obtain ⟨a, b, b', rfl, rfl, hlt⟩ := h
  exact ⟨c :: a, b, b', rfl, rfl, by rw [byteLength_cons]; omega⟩

/-- A regular expression ends alike in both texts unless it stretches over a comment. -/
theorem fitsBroken_regexEnd_or : ∀ {xs ys : List Char}, Commented false xs ys →
    ∀ (inClass : Bool) (pos : ℕ),
      FitsBroken (regexEnd inClass pos xs) (regexEnd inClass pos ys) ∨
        Crosses pos (regexEnd inClass pos xs).1.pos xs ys
  | _, _, .nil, _, _ => Or.inl ⟨.mk' .nil, rfl⟩
  | _, _, .opening h, _, _ => Or.inr ⟨[], _, _, rfl, rfl, lt_regexEnd⟩
  | c :: xs, _, .char h, inClass, pos => by
    by_cases hslash : c = '\\'
    · subst hslash
      obtain ⟨rfl, rfl⟩ | ⟨d, xs', ys', hxs, hys, h'⟩ | ⟨xs', ys', rfl, rfl⟩ := h.uncons_char
      · exact Or.inl ⟨.mk' .nil, rfl⟩
      · have hlt : xs'.length < xs.length := by simp [hxs]
        rw [hxs, hys, regexEnd.eq_def, regexEnd.eq_def inClass pos ('\\' :: d :: ys')]
        rcases fitsBroken_regexEnd_or h' inClass (pos + 1 + d.utf8Size) with hfits | hcrosses
        · exact Or.inl hfits
        · exact Or.inr ((hcrosses.cons d).cons '\\')
      · refine Or.inr ⟨['\\'], _, _, rfl, rfl, ?_⟩
        rw [regexEnd.eq_def]
        exact (ahead_regexEnd inClass _ xs').over_pos_lt (c := ' ')
    · rw [regexEnd_of_ne _ _ _ hslash, regexEnd_of_ne _ _ _ hslash]
      split_ifs
      · exact Or.inl ⟨.mk' (.char h), rfl⟩
      · exact Or.inl ⟨.mk' h, rfl⟩
      · rcases fitsBroken_regexEnd_or h (c = '[' || (inClass && c ≠ ']')) (pos + c.utf8Size) with
          hfits | hcrosses
        · exact Or.inl hfits
        · exact Or.inr (hcrosses.cons c)
termination_by xs => xs.length
decreasing_by
  all_goals
    simp only [List.length_cons]
    omega

/-! ### Stretches of text -/

/-- The first `n` bytes of two texts: there are line breaks in both or in neither, and outside comments
the characters are the same unless a comment begins among them. -/
def SameStretch (inside : Bool) (xs ys : List Char) (n : ℕ) : Prop :=
  (splitAtByte? n xs = none ∧ splitAtByte? n ys = none) ∨
    ∃ a b a' b', splitAtByte? n xs = some (a, b) ∧ splitAtByte? n ys = some (a', b') ∧
      a.any isLineBreak = a'.any isLineBreak ∧
      (inside = false → a = a' ∨ ' ' ∈ a ∧ '/' ∈ a')

theorem SameStretch.cons {inside inside' : Bool} {c d : Char} {xs ys : List Char}
    (hsize : c.utf8Size = d.utf8Size) (hbreak : isLineBreak c = isLineBreak d)
    (hchar : inside' = false → c = d ∧ inside = false ∨ c = ' ' ∧ d = '/')
    (h : ∀ n, SameStretch inside xs ys n) (n : ℕ) : SameStretch inside' (c :: xs) (d :: ys) n := by
  cases n with
  | zero => exact Or.inr ⟨_, _, _, _, rfl, rfl, rfl, fun _ => Or.inl rfl⟩
  | succ n =>
    unfold SameStretch
    simp only [splitAtByte?, hsize]
    split_ifs
    · exact Or.inl ⟨rfl, rfl⟩
    · obtain ⟨hxs, hys⟩ | ⟨a, b, a', b', hxs, hys, hbreaks, hsame⟩ := h (n + 1 - d.utf8Size)
      · exact Or.inl ⟨by rw [hxs]; rfl, by rw [hys]; rfl⟩
      · refine Or.inr ⟨c :: a, b, d :: a', b', by rw [hxs]; rfl, by rw [hys]; rfl, ?_, fun h => ?_⟩
        · simp only [List.any_cons, hbreak, hbreaks]
        · rcases hchar h with ⟨rfl, hinside⟩ | ⟨rfl, rfl⟩
          · rcases hsame hinside with rfl | ⟨hblank, hslash⟩
            · exact Or.inl rfl
            · exact Or.inr ⟨List.mem_cons_of_mem _ hblank, List.mem_cons_of_mem _ hslash⟩
          · exact Or.inr ⟨List.mem_cons_self, List.mem_cons_self⟩

theorem sameStretch_of_commented {inside : Bool} {xs ys : List Char} (h : Commented inside xs ys)
    (n : ℕ) : SameStretch inside xs ys n := by
  induction h generalizing n with
  | nil =>
    cases n with
    | zero => exact Or.inr ⟨_, _, _, _, rfl, rfl, rfl, fun _ => Or.inl rfl⟩
    | succ n => exact Or.inl ⟨rfl, rfl⟩
  | char h ih => exact .cons rfl rfl (fun _ => Or.inl ⟨rfl, rfl⟩) ih n
  | @opening xs ys h ih =>
    have hplain : ∀ n, SameStretch true (' ' :: xs) ('/' :: ys) n :=
      .cons (by decide) (by decide) (by simp) ih
    exact .cons (by decide) (by decide) (fun _ => Or.inr ⟨rfl, rfl⟩) hplain n
  | plain hc h ih =>
    refine .cons ?_ ?_ (by simp) ih n
    · rw [utf8Size_of_isPlain hc]
      rfl
    · rw [isLineBreak_of_isPlain hc]
      rfl
  | closing h ih =>
    obtain hnone | ⟨a, b, a', b', hxs, hys, hbreaks, -⟩ := ih n
    · exact Or.inl hnone
    · exact Or.inr ⟨a, b, a', b', hxs, hys, hbreaks, by simp⟩

theorem upTo_eq (c : Cursor) (stop : ℕ) :
    c.upTo stop = ((splitAtByte? (stop - c.pos) c.rest).map (·.1)).getD [] := by
  rw [upTo, slice?, if_neg (Nat.not_lt_zero _), splitAtByte?]
  cases h : splitAtByte? (stop - c.pos) c.rest with
  | none => simp [h]
  | some parts => simp [h]

theorem upTo_cases {c d : Cursor} (h : c.Fits d) (stop : ℕ) :
    c.upTo stop = d.upTo stop ∨ ' ' ∈ c.upTo stop ∧ '/' ∈ d.upTo stop := by
  rw [upTo_eq, upTo_eq, h.1]
  obtain ⟨hc, hd⟩ | ⟨a, b, a', b', hc, hd, -, hsame⟩ :=
    sameStretch_of_commented h.2 (stop - d.pos)
  · rw [hc, hd]
    exact Or.inl rfl
  · rw [hc, hd]
    exact hsame rfl

theorem any_isLineBreak_upTo {c d : Cursor} (h : c.Fits d) (stop : ℕ) :
    (c.upTo stop).any isLineBreak = (d.upTo stop).any isLineBreak := by
  rw [upTo_eq, upTo_eq, h.1]
  obtain ⟨hc, hd⟩ | ⟨a, b, a', b', hc, hd, hbreaks, -⟩ :=
    sameStretch_of_commented h.2 (stop - d.pos)
  · rw [hc, hd]
  · rw [hc, hd]
    exact hbreaks

end Cursor

end ExpectError
