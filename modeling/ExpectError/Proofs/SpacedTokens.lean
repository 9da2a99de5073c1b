import ExpectError.Proofs.Spacing

/-!
# Tokens and the blanks behind them

Every reader of tokens is local: with blanks put behind a token, the token is read as before. Strings,
templates and regular expressions must be closed for this, since otherwise they take in what comes
behind them.

* `Lexeme.IsLocal`: a reader that reads the same token if blanks are put behind it;
* `Lexeme.IsClosed`: a literal that stops at its own end, whatever stands behind it;
* `Lexeme.isLocal_read`, `Lexeme.isLocal_readAttributeValue`, `Lexeme.isLocal_readMarkup`,
  `Lexeme.isLocal_readRegex`: the readers of tokens.
-/

namespace ExpectError

open Text Cursor

namespace Lexeme

/-- The token at a cursor is the same at any cursor in front of the same characters, whatever blanks
are put behind them. What is no longer `?.` in front of a digit and text between tags, which blanks
would make longer, are excepted. -/
def IsLocal (read : Cursor → Lexeme) (c : Cursor) : Prop :=
  ∃ passed, c.rest = passed ++ (read c).next.rest ∧
    (read c).next.pos = c.pos + byteLength passed ∧
    ∀ pos rest, Spaced (read c).next.rest rest →
      (beginsWithMark "?." (passed ++ rest) = true → beginsWithMark "?." c.rest = true) →
      ((read c).kind = .jsxText → rest.head? = (read c).next.rest.head?) →
      read { pos, rest := passed ++ rest } =
        { kind := (read c).kind
          next := { pos := pos + byteLength passed, rest }
          unterminated := (read c).unterminated }

theorem skip_append (word : List Char) (pos : ℕ) (rest : List Char) :
    skip word.length { pos, rest := word ++ rest } =
      { pos := pos + byteLength word, rest } := by
  induction word generalizing pos with
  | nil => rfl
  | cons c word ih =>
    rw [byteLength_cons, ← Nat.add_assoc]
    exact ih (pos + c.utf8Size)

/-! ### Marks -/

/-- No words between tokens come into a mark or begin it with a blank. -/
theorem exists_cons_of_mem_marks : ∀ mark ∈ marks, ∃ c word, mark.1.toList = c :: word ∧
    isSpacing c = false ∧ ∀ d ∈ word, isParting d = false := by
  have hall : marks.all (fun mark => !mark.1.toList.isEmpty &&
      !mark.1.toList.head?.any isSpacing && !mark.1.toList.tail.any isParting) = true := by
    decide
  intro mark hmark
  have h := List.all_eq_true.1 hall mark hmark
  generalize mark.1.toList = cs at h ⊢
  cases cs with
  | nil => cases h
  | cons c word => exact ⟨c, word, rfl, by simpa using h⟩

/-- A mark at the beginning of a spaced text is at the beginning of the other text. -/
theorem beginsWithMark_of_spaced {xs ys : List Char} (h : Spaced xs ys)
    (hdot : beginsWithMark "?." ys = true → beginsWithMark "?." xs = true)
    {mark : String × TokenKind} (hmark : mark ∈ marks) (hys : beginsWithMark mark.1 ys = true) :
    beginsWithMark mark.1 xs = true := by
  by_cases hquestion : mark.1 = "?."
  · rw [hquestion] at hys ⊢
    exact hdot hys
  · simp only [beginsWithMark, hquestion, decide_false, Bool.false_and, Bool.not_false,
      Bool.and_true] at hys ⊢
    obtain ⟨c, word, hspelled, hc, hword⟩ := exists_cons_of_mem_marks mark hmark
    rw [hspelled] at hys ⊢
    exact h.isPrefixOf hc hword hys

theorem isLocal_readMark {c : Cursor} (hne : c.rest ≠ []) : IsLocal readMark c := by
  obtain ⟨pos, cs⟩ := c
  have hempty : ∀ {cs : List Char}, cs ≠ [] → cs.isEmpty = false := fun h => by simpa using h
  cases hfind : marks.find? fun mark => beginsWithMark mark.1 cs with
  | none =>
    have hread : ∀ {pos cs}, cs ≠ [] → marks.find? (fun mark => beginsWithMark mark.1 cs) = none →
        readMark { pos, rest := cs } = { kind := .unknown, next := skip 1 { pos, rest := cs } } := by
      intro pos cs hne hfind
      simp only [readMark, hempty hne, hfind]
      rfl
    obtain ⟨x, cs, rfl⟩ := List.exists_cons_of_ne_nil hne
    rw [IsLocal, hread hne hfind]
    refine ⟨[x], rfl, rfl, fun pos' rest hrest hdot _ => ?_⟩
    rw [hread (by simp)]
    · rfl
    · rw [List.find?_eq_none] at hfind ⊢
      exact fun mark hmark hbegins => hfind mark hmark
        (beginsWithMark_of_spaced (Spaced.append_left hrest [x]) hdot hmark hbegins)
  | some mark =>
    have hread : ∀ {pos cs}, cs ≠ [] →
        marks.find? (fun mark => beginsWithMark mark.1 cs) = some mark →
        readMark { pos, rest := cs } =
          { kind := mark.2, next := skip mark.1.toList.length { pos, rest := cs } } := by
      intro pos cs hne hfind
      simp only [readMark, hempty hne, hfind]
      rfl
    obtain ⟨hbegins, before, after, hmarks, hbefore⟩ := List.find?_eq_some_iff_append.1 hfind
    have hmem := List.mem_of_find?_eq_some hfind
    have hprefix := hbegins
    rw [beginsWithMark, Bool.and_eq_true, List.isPrefixOf_iff_prefix] at hprefix
    obtain ⟨tail, htail⟩ := hprefix.1
    subst htail
    have hword : mark.1.toList ≠ [] := List.length_pos_iff.1 (length_pos_of_mem_marks mark hmem)
    rw [IsLocal, hread hne hfind, skip_append]
    refine ⟨mark.1.toList, rfl, rfl, fun pos' rest hrest hdot _ => ?_⟩
    -- every longer mark would have been found in the text without the blanks too
    have hspaced := Spaced.append_left hrest mark.1.toList
    rw [hread (by simp [hword]), skip_append]
    refine List.find?_eq_some_iff_append.2 ⟨?_, before, after, hmarks, fun other hother => ?_⟩
    · -- the mark itself: behind `?.` there is no digit, and blanks are none
      rw [beginsWithMark, Bool.and_eq_true]
      refine ⟨List.isPrefixOf_iff_prefix.2 ⟨rest, rfl⟩, ?_⟩
      by_cases hquestion : mark.1 = "?."
      · have hdigit : tail.head?.any Char.isDigit = false := by
          simpa [hquestion] using hprefix.2
        have := hrest.head?_any (p := Char.isDigit) (fun c hc => by
          simp only [isSpacing, Bool.or_eq_true, decide_eq_true_eq] at hc
          rcases hc with (rfl | rfl) | rfl <;> rfl) hdigit
        simpa [hquestion] using this
      · simp [hquestion]
    · have hother' : other ∈ marks := by rw [hmarks]; exact List.mem_append_left _ hother
      have hnot := hbefore other hother
      rw [Bool.not_eq_true'] at hnot ⊢
      by_contra hne
      have := beginsWithMark_of_spaced hspaced hdot hother' (by simpa using hne)
      simp [hnot] at this

/-! ### Words -/

/-- The same first character, and what follows it. -/
theorem exists_cons_of_append {x : Char} {cs passed tail rest : List Char}
    (h : x :: cs = passed ++ tail) (hne : passed ≠ []) (hrest : Spaced tail rest) :
    ∃ ds, passed ++ rest = x :: ds ∧ Spaced cs ds := by
  obtain ⟨y, passed, rfl⟩ := List.exists_cons_of_ne_nil hne
  obtain ⟨rfl, rfl⟩ := List.cons.inj h
  exact ⟨passed ++ rest, rfl, hrest.append_left passed⟩

theorem passed_ne_nil {c d : Cursor} {passed : List Char} (hlt : c.pos < d.pos)
    (hpos : d.pos = c.pos + byteLength passed) : passed ≠ [] := by
  rintro rfl
  simp at hpos
  omega

theorem upTo_of_append {c : Cursor} {word rest : List Char} (h : c.rest = word ++ rest) :
    c.upTo (c.pos + byteLength word) = word := by
  rw [upTo_eq, Nat.add_sub_cancel_left, h, splitAtByte?_append]
  rfl

theorem isLocal_readWord (c : Cursor) : IsLocal readIdentifier.read c := by
  obtain ⟨pos, cs⟩ := c
  obtain ⟨passed, hpassed, hpos, hmove⟩ := isLocal_identifierEnd .outside pos cs
  refine ⟨passed, hpassed, hpos, fun pos' rest hrest _ _ => ?_⟩
  have hword : upTo { pos, rest := cs } (identifierEnd .outside pos cs).pos = passed := by
    rw [hpos]
    exact upTo_of_append hpassed
  have hword' : upTo { pos := pos', rest := passed ++ rest } (pos' + byteLength passed) = passed :=
    upTo_of_append (c := { pos := pos', rest := passed ++ rest }) rfl
  have hend := hmove pos' rest hrest
  simp only at hend
  simp only [readIdentifier.read, hend, hword, hword']

theorem isLocal_readIdentifier {c : Cursor} {x : Char} {cs : List Char} (hrest : c.rest = x :: cs)
    (h : isIdentifierStart x = true ∨ x = '\\') : IsLocal readIdentifier c := by
  have hlt := lt_readIdentifier hrest h
  obtain ⟨pos, rest⟩ := c
  obtain rfl : rest = x :: cs := hrest
  by_cases hu : x = '\\' ∧ cs.head? ≠ some 'u'
  · have hread := readIdentifier_cons pos x cs
    rw [if_pos hu] at hread
    rw [IsLocal, hread]
    refine ⟨[x], rfl, rfl, fun pos' rest hspaced _ _ => ?_⟩
    rw [List.singleton_append, readIdentifier_cons,
      if_pos ⟨hu.1, Spaced.head?_ne hspaced (by decide) hu.2⟩]
    rfl
  · have hread := readIdentifier_cons pos x cs
    rw [if_neg hu] at hread
    obtain ⟨passed, hpassed, hpos, hmove⟩ := isLocal_readWord { pos, rest := x :: cs }
    rw [hread] at hlt
    rw [IsLocal, hread]
    refine ⟨passed, hpassed, hpos, fun pos' rest hspaced hdot htext => ?_⟩
    obtain ⟨ds, hds, hcs⟩ := exists_cons_of_append hpassed (passed_ne_nil hlt hpos) hspaced
    have hmoved := hmove pos' rest hspaced hdot htext
    rw [hds] at hmoved ⊢
    rw [readIdentifier_cons, if_neg, hmoved]
    -- without its `u`, a backslash would be all that is read
    rintro ⟨rfl, hhead⟩
    have hstop := congrArg (·.next.pos) hmoved
    simp only [readIdentifier.read] at hstop
    rw [identifierEnd_outside_cons, if_neg (fun h => hhead h.2), if_neg (by decide)] at hstop
    rw [hpos] at hlt
    simp only at hstop hlt
    omega

/-! ### Numbers -/

theorem eq_of_isSpacing {c : Char} (h : isSpacing c = true) : c = ' ' ∨ c = '\t' ∨ c = '\n' := by
  simp only [isSpacing, Bool.or_eq_true, decide_eq_true_eq] at h
  tauto

/-- No test in this list is passed by what words between tokens begin with. -/
def rejectParting (tests : List (Char → Bool)) : Bool :=
  tests.all fun p => !p ' ' && !p '\t' && !p '\n' && !p '{'

theorem eq_false_of_rejectParting {tests : List (Char → Bool)} (h : rejectParting tests = true) :
    ∀ p ∈ tests, ∀ c, isParting c = true → p c = false := by
  intro p hp c hc
  have hall := List.all_eq_true.1 h p hp
  simp only [Bool.and_eq_true, Bool.not_eq_true'] at hall
  obtain ⟨⟨⟨hspace, htab⟩, hfeed⟩, hbrace⟩ := hall
  rw [isParting, Bool.or_eq_true, decide_eq_true_eq] at hc
  rcases hc with hc | rfl
  · rcases eq_of_isSpacing hc with rfl | rfl | rfl <;> assumption
  · exact hbrace

theorem isLocal_skipDigits {isDigit : Char → Bool} (h : rejectParting [isDigit] = true)
    (c : Cursor) : Cursor.IsLocal (skipDigits isDigit) c := by
  have hdigit := eq_false_of_rejectParting h isDigit List.mem_cons_self
  refine isLocal_skipRun (fun x hx => ?_) c.pos c.rest
  rw [hdigit x (isParting_of_isSpacing hx)]
  rcases eq_of_isSpacing hx with rfl | rfl | rfl <;> rfl

theorem skipExponent_eq_branch (c : Cursor) :
    skipExponent c =
      if headsPass [fun e => e = 'e' || e = 'E', Char.isDigit] c.rest then
        skipDigits Char.isDigit (c.skip 2)
      else if headsPass [fun e => e = 'e' || e = 'E', fun s => s = '+' || s = '-', Char.isDigit]
          c.rest then
        skipDigits Char.isDigit (c.skip 3)
      else c := by
  obtain ⟨pos, rest⟩ := c
  match rest with
  | [] => rfl
  | [e] => simp [skipExponent, headsPass]
  | [e, d] =>
    by_cases he : e = 'e' ∨ e = 'E' <;> by_cases hd : d.isDigit = true <;>
      simp_all [skipExponent, headsPass, skip, skipDigits, skipWhile, skipRun]
  | e :: s :: d :: rest =>
    by_cases he : e = 'e' ∨ e = 'E'
    · have hne : ¬ (e ≠ 'e' ∧ e ≠ 'E') := by tauto
      by_cases hs : s.isDigit = true
      · simp [skipExponent, headsPass, skip, skipDigits, skipWhile, skipRun, he, hne, hs]
      · by_cases hsign : (s = '+' ∨ s = '-') ∧ d.isDigit = true
        · simp [skipExponent, headsPass, skip, skipDigits, skipWhile, skipRun, he, hne, hs, hsign]
        · simp [skipExponent, headsPass, he, hne, hs, hsign]
    · have hne : e ≠ 'e' ∧ e ≠ 'E' := by tauto
      simp [skipExponent, headsPass, hne]

theorem isLocal_skipExponent (c : Cursor) : Cursor.IsLocal skipExponent c := by
  rw [show skipExponent = _ from funext skipExponent_eq_branch]
  refine isLocal_branch (eq_false_of_rejectParting (by decide)) (fun _ => isLocal_skipDigits rfl _)
    fun _ => ?_
  exact isLocal_branch (eq_false_of_rejectParting (by decide)) (fun _ => isLocal_skipDigits rfl _)
    fun _ => isLocal_id c

theorem isLocal_skipDecimal (c : Cursor) : Cursor.IsLocal skipDecimal c := by
  have heq : skipDecimal = fun c => skipExponent
      ((fun c : Cursor => if headsPass [(· = '.')] c.rest then skipDigits Char.isDigit (c.skip 1)
        else id c) (skipDigits Char.isDigit c)) := by
    funext c
    rw [skipDecimal]
    congr 1
    cases h : (skipDigits Char.isDigit c).rest with
    | nil => simp [headsPass, h]
    | cons d rest => by_cases hd : d = '.' <;> simp [headsPass, h, hd]
  have hfraction : Cursor.IsLocal (fun c : Cursor => if headsPass [(· = '.')] c.rest then
      skipDigits Char.isDigit (c.skip 1) else id c) (skipDigits Char.isDigit c) :=
    isLocal_branch (eq_false_of_rejectParting (by decide)) (fun _ => isLocal_skipDigits rfl _)
      fun _ => isLocal_id _
  rw [heq]
  exact isLocal_comp (isLocal_comp (isLocal_skipDigits rfl c) hfraction) (isLocal_skipExponent _)

theorem isLocal_skipNumber (c : Cursor) : Cursor.IsLocal skipNumber c := by
  have heq : skipNumber = fun c =>
      if headsPass [(· = '0'), fun x => x = 'x' || x = 'X'] c.rest then
        skipDigits isHexDigit (c.skip 2)
      else if headsPass [(· = '0'), fun x => x = 'o' || x = 'O'] c.rest then
        skipDigits (fun d => '0' ≤ d && d ≤ '7') (c.skip 2)
      else if headsPass [(· = '0'), fun x => x = 'b' || x = 'B'] c.rest then
        skipDigits (fun d => d = '0' || d = '1') (c.skip 2)
      else skipDecimal c := by
    funext c
    obtain ⟨pos, rest⟩ := c
    match rest with
    | [] => rfl
    | [x] => by_cases hx : x = '0' <;> simp [skipNumber, headsPass, hx]
    | x :: y :: rest => by_cases hx : x = '0' <;> simp [skipNumber, headsPass, hx]
  rw [heq]
  refine isLocal_branch (eq_false_of_rejectParting (by decide)) (fun _ => isLocal_skipDigits rfl _)
    fun _ => ?_
  refine isLocal_branch (eq_false_of_rejectParting (by decide)) (fun _ => isLocal_skipDigits rfl _)
    fun _ => ?_
  exact isLocal_branch (eq_false_of_rejectParting (by decide)) (fun _ => isLocal_skipDigits rfl _)
    fun _ => isLocal_skipDecimal c

theorem isLocal_readNumber (c : Cursor) : IsLocal readNumber c := by
  have hread : ∀ c, readNumber c = if headsPass [(· = 'n')] (skipNumber c).rest then
      { kind := .bigIntLiteral, next := (skipNumber c).skip 1 }
      else { kind := .numericLiteral, next := skipNumber c } := by
    intro c
    rw [readNumber_eq]
    cases (skipNumber c).rest with
    | nil => rfl
    | cons d rest => by_cases hd : d = 'n' <;> simp [headsPass, hd]
  obtain ⟨passed, hpassed, hpos, hmove⟩ := isLocal_skipNumber c
  rw [IsLocal, hread]
  cases hn : headsPass [(· = 'n')] (skipNumber c).rest with
  | true =>
    obtain ⟨word, hword, hpos', hskip⟩ := exists_of_headsPass hn
    refine ⟨passed ++ word, ?_, ?_, fun pos rest hrest _ _ => ?_⟩
    · rw [hpassed, List.append_assoc]
      exact congrArg (passed ++ ·) hword
    · simp only [if_true]
      rw [byteLength_append, ← Nat.add_assoc, ← hpos]
      exact hpos'
    · have hspaced : Spaced (skipNumber c).rest (word ++ rest) := by
        rw [show (skipNumber c).rest = word ++ _ from hword]
        exact Spaced.append_left hrest word
      rw [hread, List.append_assoc, hmove _ _ hspaced, (hskip 0 rest).1, byteLength_append,
        ← Nat.add_assoc]
      exact congrArg (Lexeme.mk .bigIntLiteral · false) (hskip (pos + byteLength passed) rest).2
  | false =>
    refine ⟨passed, hpassed, hpos, fun pos rest hrest _ _ => ?_⟩
    have hspaced : Spaced (skipNumber c).rest rest := hrest
    have hnot : headsPass [(· = 'n')] rest = false := Bool.eq_false_iff.2 fun h => by
      have := headsPass_of_parted hspaced.parted (eq_false_of_rejectParting (by decide)) h
      simp [hn] at this
    rw [hread, hmove _ _ hspaced, hnot]
    rfl

/-! ### Strings and templates -/

/-- The token at a cursor is the same at any cursor in front of the same characters. -/
def IsClosed (read : Cursor → Lexeme) (c : Cursor) : Prop :=
  ∃ passed, c.rest = passed ++ (read c).next.rest ∧
    (read c).next.pos = c.pos + byteLength passed ∧
    ∀ pos rest, read { pos, rest := passed ++ rest } =
      { kind := (read c).kind
        next := { pos := pos + byteLength passed, rest }
        unterminated := (read c).unterminated }

theorem IsClosed.isLocal {read : Cursor → Lexeme} {c : Cursor} (h : IsClosed read c) :
    IsLocal read c := by
  obtain ⟨passed, hpassed, hpos, hmove⟩ := h
  exact ⟨passed, hpassed, hpos, fun pos rest _ _ _ => hmove pos rest⟩

/-- Behind a first character. -/
theorem IsClosed.behind {read read' : Cursor → Lexeme} {pos : ℕ} {x : Char} {cs : List Char}
    (h : IsClosed read' { pos := pos + x.utf8Size, rest := cs })
    (hread : ∀ pos cs, read { pos, rest := x :: cs } =
      read' { pos := pos + x.utf8Size, rest := cs }) :
    IsClosed read { pos, rest := x :: cs } := by
  obtain ⟨passed, hpassed, hpos, hmove⟩ := h
  rw [IsClosed, hread]
  refine ⟨x :: passed, congrArg (x :: ·) hpassed, ?_, fun pos' rest => ?_⟩
  · rw [byteLength_cons, ← Nat.add_assoc]
    exact hpos
  · rw [List.cons_append, hread, hmove, byteLength_cons, Nat.add_assoc]

theorem isClosed_stringEnd {ends : ℕ → List Char → Cursor × Bool} {pos : ℕ} {cs : List Char}
    (h : Closes ends pos cs) :
    IsClosed (fun c => { kind := .stringLiteral
                         next := (ends c.pos c.rest).1
                         unterminated := (ends c.pos c.rest).2 }) { pos, rest := cs } := by
  obtain ⟨passed, -, hpassed, hpos, hends⟩ := h
  exact ⟨passed, hpassed, hpos, fun pos' rest => by simp only [hends]⟩

theorem isClosed_readString {quote : Char} (hquote : quote ≠ '\\') {pos : ℕ} {cs : List Char}
    (h : (readString quote { pos, rest := quote :: cs }).unterminated = false) :
    IsClosed (readString quote) { pos, rest := quote :: cs } :=
  (isClosed_stringEnd (closes_stringEnd hquote h)).behind fun _ _ => rfl

theorem isClosed_of_eq_templateLexeme {read : Cursor → Lexeme} {closed opened : TokenKind}
    (hread : ∀ c, read c = templateLexeme closed opened (templateEnd c.pos c.rest)) {c : Cursor}
    (h : (read c).unterminated = false) : IsClosed read c := by
  obtain ⟨pos, cs⟩ := c
  rw [hread] at h
  obtain ⟨passed, -, hpassed, hpos, hends⟩ := closes_templateEnd (of_decide_eq_false h)
  refine ⟨passed, by rw [hread]; exact hpassed, by rw [hread]; exact hpos, fun pos' rest => ?_⟩
  rw [hread, hread]
  simp only [hends]
  rfl

theorem isClosed_readTemplateHead {c : Cursor} (h : (readTemplateHead c).unterminated = false) :
    IsClosed readTemplateHead c :=
  isClosed_of_eq_templateLexeme readTemplateHead_eq h

theorem isClosed_readTemplateSpan {c : Cursor} (h : (readTemplateSpan c).unterminated = false) :
    IsClosed readTemplateSpan c :=
  isClosed_of_eq_templateLexeme readTemplateSpan_eq h

/-! ### All tokens -/

theorem isIdentifierStart_of_isSpacing {c : Char} (h : isSpacing c = true) :
    isIdentifierStart c = false := by
  rcases eq_of_isSpacing h with rfl | rfl | rfl <;> decide

theorem isDigit_of_isSpacing {c : Char} (h : isSpacing c = true) : c.isDigit = false := by
  rcases eq_of_isSpacing h with rfl | rfl | rfl <;> rfl

theorem readHash_cons (pos : ℕ) (cs : List Char) :
    readHash { pos, rest := '#' :: cs } =
      if cs.head?.any isIdentifierStart then
        { kind := .privateIdentifier
          next := identifierEnd .outside (pos + '#'.utf8Size) cs }
      else readMark { pos, rest := '#' :: cs } := by
  cases cs with
  | nil => rfl
  | cons c cs => by_cases hc : isIdentifierStart c = true <;> simp [readHash, skip, hc]

theorem isLocal_readHash (pos : ℕ) (cs : List Char) : IsLocal readHash { pos, rest := '#' :: cs } := by
  have hread := readHash_cons pos cs
  cases hstart : cs.head?.any isIdentifierStart with
  | true =>
    rw [hstart, if_pos rfl] at hread
    obtain ⟨passed, hpassed, hpos, hmove⟩ := isLocal_identifierEnd .outside (pos + '#'.utf8Size) cs
    obtain ⟨x, ds, rfl⟩ : ∃ x ds, cs = x :: ds := by
      cases cs with
      | nil => cases hstart
      | cons x ds => exact ⟨x, ds, rfl⟩
    have hx : isIdentifierStart x = true := by simpa using hstart
    have hlt : pos + '#'.utf8Size < (identifierEnd .outside (pos + '#'.utf8Size) (x :: ds)).pos :=
      lt_identifierEnd (Or.inl (isIdentifierPart_of_start hx))
    rw [IsLocal, hread]
    refine ⟨'#' :: passed, congrArg ('#' :: ·) hpassed, ?_, fun pos' rest hrest _ _ => ?_⟩
    · rw [byteLength_cons, ← Nat.add_assoc]
      exact hpos
    · obtain ⟨es, hes, -⟩ := exists_cons_of_append hpassed (passed_ne_nil hlt hpos) hrest
      have hmoved := hmove (pos' + '#'.utf8Size) rest hrest
      simp only at hmoved
      rw [List.cons_append, readHash_cons, hmoved, hes, List.head?_cons, Option.any_some, hx,
        if_pos rfl, byteLength_cons, Nat.add_assoc]
  | false =>
    rw [hstart, if_neg (by simp)] at hread
    have hlt := lt_readMark (c := { pos, rest := '#' :: cs }) (by simp)
    obtain ⟨passed, hpassed, hpos, hmove⟩ :=
      isLocal_readMark (c := { pos, rest := '#' :: cs }) (by simp)
    rw [IsLocal, hread]
    refine ⟨passed, hpassed, hpos, fun pos' rest hrest hdot htext => ?_⟩
    obtain ⟨ds, hds, hspaced⟩ := exists_cons_of_append hpassed (passed_ne_nil hlt hpos) hrest
    have hmoved := hmove pos' rest hrest hdot htext
    rw [hds] at hmoved ⊢
    rw [readHash_cons, hspaced.head?_any (fun _ => isIdentifierStart_of_isSpacing) hstart,
      if_neg (by simp), hmoved]

/-- Readers that agree on all texts in question. -/
theorem IsLocal.of_agree {read read' : Cursor → Lexeme} {pos : ℕ} {x : Char} {cs : List Char}
    (h : IsLocal read' { pos, rest := x :: cs })
    (hlt : pos < (read' { pos, rest := x :: cs }).next.pos)
    (hagree : ∀ pos' ds, Spaced cs ds →
      read { pos := pos', rest := x :: ds } = read' { pos := pos', rest := x :: ds }) :
    IsLocal read { pos, rest := x :: cs } := by
  obtain ⟨passed, hpassed, hpos, hmove⟩ := h
  rw [IsLocal, hagree pos cs (.refl cs)]
  refine ⟨passed, hpassed, hpos, fun pos' rest hrest hdot htext => ?_⟩
  obtain ⟨ds, hds, hspaced⟩ := exists_cons_of_append hpassed (passed_ne_nil hlt hpos) hrest
  have hmoved := hmove pos' rest hrest hdot htext
  rw [hds] at hmoved ⊢
  rw [hagree _ _ hspaced, hmoved]

theorem read_cons (pos : ℕ) (x : Char) (cs : List Char) :
    read { pos, rest := x :: cs } =
      if isIdentifierStart x || x = '\\' then readIdentifier { pos, rest := x :: cs }
      else if x.isDigit then readNumber { pos, rest := x :: cs }
      else if x = '"' || x = '\'' then readString x { pos, rest := x :: cs }
      else if x = '\x60' then readTemplateHead { pos := pos + x.utf8Size, rest := cs }
      else if x = '.' && cs.head?.any Char.isDigit then readNumber { pos, rest := x :: cs }
      else if x = '#' then readHash { pos, rest := x :: cs }
      else readMark { pos, rest := x :: cs } := rfl

/-- A number that begins with its point has a digit behind it. -/
theorem lt_readNumber_point {pos : ℕ} {d : Char} {cs : List Char} (hd : d.isDigit = true) :
    pos + 1 < (readNumber { pos, rest := '.' :: d :: cs }).next.pos := by
  refine lt_of_lt_of_le ?_ (ahead_readNumber _).pos_le
  have hwhole : skipDigits Char.isDigit { pos, rest := '.' :: d :: cs } =
      { pos, rest := '.' :: d :: cs } := by
    simp [skipDigits, skipWhile, skipRun]
  have hpoint : skipDecimal { pos, rest := '.' :: d :: cs } =
      skipExponent (skipDigits Char.isDigit { pos := pos + 1, rest := d :: cs }) := by
    rw [skipDecimal_eq, hwhole]
    rfl
  show pos + 1 < (skipDecimal { pos, rest := '.' :: d :: cs }).pos
  rw [hpoint]
  exact lt_of_lt_of_le (lt_skipWhile (by simp [hd])) (ahead_skipExponent _).pos_le

/-- A number can begin with its point. -/
theorem isLocal_read_point {pos : ℕ} {cs : List Char} (hhead : cs.head?.any Char.isDigit = true) :
    IsLocal read { pos, rest := '.' :: cs } := by
  have hread : ∀ pos ds, ds.head?.any Char.isDigit = true →
      read { pos, rest := '.' :: ds } = readNumber { pos, rest := '.' :: ds } := fun pos ds hds => by
    rw [read_cons, if_neg (by decide), if_neg (by decide), if_neg (by decide), if_neg (by decide),
      if_pos (by rw [hds]; rfl)]
  obtain ⟨d, cs, rfl⟩ : ∃ d ds, cs = d :: ds := by
    cases cs with
    | nil => cases hhead
    | cons d ds => exact ⟨d, ds, rfl⟩
  have hlt : pos + 1 < (readNumber { pos, rest := '.' :: d :: cs }).next.pos :=
    lt_readNumber_point (by simpa using hhead)
  obtain ⟨passed, hpassed, hpos, hmove⟩ := isLocal_readNumber { pos, rest := '.' :: d :: cs }
  rw [IsLocal, hread _ _ hhead]
  refine ⟨passed, hpassed, hpos, fun pos' rest hrest hdot htext => ?_⟩
  -- the point and the digit are both parts of the number
  obtain ⟨y, passed, rfl⟩ := List.exists_cons_of_ne_nil
    (passed_ne_nil (c := { pos, rest := '.' :: d :: cs }) (by simp only; omega) hpos)
  obtain ⟨rfl, htail⟩ := List.cons.inj hpassed
  rw [byteLength_cons] at hpos
  obtain ⟨z, passed, rfl⟩ : ∃ z zs, passed = z :: zs := by
    refine List.exists_cons_of_ne_nil ?_
    rintro rfl
    have hsize : '.'.utf8Size = 1 := rfl
    simp only [byteLength_nil] at hpos
    omega
  obtain ⟨rfl, -⟩ := List.cons.inj htail
  have hmoved := hmove pos' rest hrest hdot htext
  rw [List.cons_append, hread _ _ (by simpa using hhead)]
  exact hmoved

theorem isLocal_read {c : Cursor} (hne : c.rest ≠ []) (h : (read c).unterminated = false) :
    IsLocal read c := by
  obtain ⟨pos, rest⟩ := c
  obtain ⟨x, cs, rfl⟩ := List.exists_cons_of_ne_nil hne
  rw [read_cons] at h
  -- the cases are those of `read`, in its order
  by_cases hword : (isIdentifierStart x || x = '\\') = true
  · have hx : isIdentifierStart x = true ∨ x = '\\' := by simpa using hword
    refine (isLocal_readIdentifier rfl hx).of_agree
      (lt_readIdentifier (c := { pos, rest := x :: cs }) rfl hx) fun pos' ds _ => ?_
    rw [read_cons, if_pos hword]
  rw [if_neg hword] at h
  by_cases hdigit : x.isDigit = true
  · refine (isLocal_readNumber _).of_agree ?_ fun pos' ds _ => ?_
    · exact lt_of_lt_of_le (lt_skipNumber (c := { pos, rest := x :: cs }) rfl (Or.inl hdigit))
        (ahead_readNumber _).pos_le
    · rw [read_cons, if_neg hword, if_pos hdigit]
  rw [if_neg hdigit] at h
  by_cases hquote : (x = '"' || x = '\'') = true
  · rw [if_pos hquote] at h
    have hx : x ≠ '\\' := by
      rintro rfl
      simp at hquote
    refine (isClosed_readString hx h).isLocal.of_agree ?_ fun pos' ds _ => ?_
    · exact (ahead_stringEnd x _ cs).over_pos_lt
    · rw [read_cons, if_neg hword, if_neg hdigit, if_pos hquote]
  rw [if_neg hquote] at h
  by_cases htemplate : x = '\x60'
  · rw [if_pos htemplate] at h
    refine ((isClosed_readTemplateHead h).behind fun pos ds => ?_).isLocal
    rw [read_cons, if_neg hword, if_neg hdigit, if_neg hquote, if_pos htemplate]
  rw [if_neg htemplate] at h
  by_cases hpoint : (x = '.' && cs.head?.any Char.isDigit) = true
  · rw [Bool.and_eq_true, decide_eq_true_eq] at hpoint
    obtain ⟨rfl, hhead⟩ := hpoint
    exact isLocal_read_point hhead
  rw [if_neg hpoint] at h
  -- blanks do not bring a digit behind the point
  have hpoint' : ∀ ds, Spaced cs ds → ¬ (x = '.' && ds.head?.any Char.isDigit) = true := by
    intro ds hds hds'
    rw [Bool.and_eq_true] at hpoint hds'
    refine hpoint ⟨hds'.1, ?_⟩
    by_contra hne
    have := hds.head?_any (p := Char.isDigit) (fun _ => isDigit_of_isSpacing) (by simpa using hne)
    simp [this] at hds'
  by_cases hhash : x = '#'
  · subst hhash
    refine (isLocal_readHash pos cs).of_agree (lt_readHash (c := { pos, rest := '#' :: cs })
      (by simp)) fun pos' ds hds => ?_
    rw [read_cons, if_neg hword, if_neg hdigit, if_neg hquote, if_neg htemplate,
      if_neg (hpoint' ds hds), if_pos rfl]
  · refine (isLocal_readMark (by simp)).of_agree (lt_readMark (c := { pos, rest := x :: cs })
      (by simp)) fun pos' ds hds => ?_
    rw [read_cons, if_neg hword, if_neg hdigit, if_neg hquote, if_neg htemplate,
      if_neg (hpoint' ds hds), if_neg hhash]

theorem isLocal_readAttributeValue {c : Cursor} (hne : c.rest ≠ [])
    (h : (readAttributeValue c).unterminated = false) : IsLocal readAttributeValue c := by
  obtain ⟨pos, rest⟩ := c
  obtain ⟨x, cs, rfl⟩ := List.exists_cons_of_ne_nil hne
  by_cases hquote : (x = '"' || x = '\'') = true
  · have hread : ∀ pos cs, readAttributeValue { pos, rest := x :: cs } =
        { kind := .stringLiteral
          next := (attributeStringEnd x (pos + x.utf8Size) cs).1
          unterminated := (attributeStringEnd x (pos + x.utf8Size) cs).2 } := fun pos cs => by
      simp only [readAttributeValue, hquote, if_true]
      rfl
    rw [hread] at h
    exact ((isClosed_stringEnd (closes_attributeStringEnd h)).behind hread).isLocal
  · have hread : ∀ pos cs, readAttributeValue { pos, rest := x :: cs } =
        read { pos, rest := x :: cs } := fun pos cs => by
      simp only [readAttributeValue]
      rw [if_neg hquote]
    rw [hread] at h
    exact (isLocal_read (by simp) h).of_agree
      (lt_read_of_ne_nil (c := { pos, rest := x :: cs }) (by simp)) fun pos' ds _ => hread _ _

/-- A run of characters with a character behind it that ends it. -/
theorem exists_skipWhile (p : Char → Bool) (pos : ℕ) (cs : List Char) :
    ∃ passed, cs = passed ++ (skipWhile p { pos, rest := cs }).rest ∧
      (skipWhile p { pos, rest := cs }).pos = pos + byteLength passed ∧
      ∀ pos' rest, rest.head?.any p = false →
        skipWhile p { pos := pos', rest := passed ++ rest } =
          { pos := pos' + byteLength passed, rest } := by
  induction cs generalizing pos with
  | nil => exact ⟨[], rfl, rfl, fun pos' rest hhead => skipWhile_eq_self hhead⟩
  | cons c cs ih =>
    by_cases hc : p c = true
    · obtain ⟨passed, hpassed, hpos, hmove⟩ := ih (pos + c.utf8Size)
      have hstep : ∀ pos cs, skipWhile p { pos, rest := c :: cs } =
          skipWhile p { pos := pos + c.utf8Size, rest := cs } := fun pos cs => by
        simp [skipWhile, skipRun, hc]
      rw [hstep]
      refine ⟨c :: passed, congrArg (c :: ·) hpassed, ?_, fun pos' rest hhead => ?_⟩
      · rw [hpos, byteLength_cons, Nat.add_assoc]
      · rw [List.cons_append, hstep, hmove _ _ hhead, byteLength_cons, Nat.add_assoc]
    · rw [skipWhile_eq_self (by simpa using hc)]
      exact ⟨[], rfl, rfl, fun pos' rest hhead => skipWhile_eq_self hhead⟩

theorem head?_skipWhile (p : Char → Bool) (pos : ℕ) (cs : List Char) :
    (skipWhile p { pos, rest := cs }).rest.head?.any p = false := by
  induction cs generalizing pos with
  | nil => rfl
  | cons c cs ih =>
    by_cases hc : p c = true
    · have hstep : skipWhile p { pos, rest := c :: cs } =
          skipWhile p { pos := pos + c.utf8Size, rest := cs } := by
        simp [skipWhile, skipRun, hc]
      rw [hstep]
      exact ih _
    · have hhead : (c :: cs).head?.any p = false := by simpa using hc
      rw [skipWhile_eq_self hhead]
      exact hhead

/-- Text between tags stops at any brace or tag behind it. -/
theorem exists_readMarkup_text {c : Cursor} (h : (readMarkup c).kind = .jsxText) :
    ∃ passed, c.rest = passed ++ (readMarkup c).next.rest ∧
      (readMarkup c).next.pos = c.pos + byteLength passed ∧
      (readMarkup c).next.rest.head?.any (fun c => c ≠ '{' && c ≠ '<') = false ∧
      ∀ pos rest, rest.head?.any (fun c => c ≠ '{' && c ≠ '<') = false →
        readMarkup { pos, rest := passed ++ rest } =
          { kind := (readMarkup c).kind
            next := { pos := pos + byteLength passed, rest }
            unterminated := (readMarkup c).unterminated } := by
  obtain ⟨pos, _ | ⟨x, cs⟩⟩ := c
  · cases h
  have hread : ∀ pos ds, readMarkup { pos, rest := x :: ds } =
      { kind := .jsxText
        next := skipWhile (fun c => c ≠ '{' && c ≠ '<') { pos, rest := x :: ds } } := by
    intro pos' ds
    rw [readMarkup_cons] at h ⊢
    -- the other tokens between tags are of other kinds
    split_ifs at h ⊢
    rfl
  obtain ⟨passed, hpassed, hpos, hmove⟩ :=
    exists_skipWhile (fun c => c ≠ '{' && c ≠ '<') pos (x :: cs)
  have hlt := lt_readMarkup (c := { pos, rest := x :: cs }) (by rw [h]; decide)
  rw [hread] at hlt ⊢
  refine ⟨passed, hpassed, hpos, head?_skipWhile _ _ _, fun pos' rest hhead => ?_⟩
  obtain ⟨y, passed, rfl⟩ := List.exists_cons_of_ne_nil
    (passed_ne_nil (c := { pos, rest := x :: cs }) hlt hpos)
  obtain ⟨rfl, -⟩ := List.cons.inj hpassed
  rw [List.cons_append, hread, ← List.cons_append, hmove _ _ hhead]

theorem isLocal_readMarkup {c : Cursor} (hne : c.rest ≠ []) : IsLocal readMarkup c := by
  by_cases htext : (readMarkup c).kind = .jsxText
  · obtain ⟨passed, hpassed, hpos, hstops, hmove⟩ := exists_readMarkup_text htext
    exact ⟨passed, hpassed, hpos, fun pos rest _ _ hhead =>
      hmove pos rest (hhead htext ▸ hstops)⟩
  obtain ⟨pos, rest⟩ := c
  obtain ⟨x, cs, rfl⟩ := List.exists_cons_of_ne_nil hne
  by_cases hangle : x = '<'
  · subst hangle
    by_cases hslash : cs.head? = some '/'
    · obtain ⟨cs, rfl⟩ := List.head?_eq_some_iff.1 hslash
      exact ⟨['<', '/'], rfl, rfl, fun _ _ _ _ _ => rfl⟩
    · have hread : ∀ pos ds, ds.head? ≠ some '/' → readMarkup { pos, rest := '<' :: ds } =
          { kind := .lessThan, next := { pos := pos + '<'.utf8Size, rest := ds } } :=
        fun pos ds hds => by
          rw [readMarkup_cons, if_pos rfl, if_neg hds]
          rfl
      rw [IsLocal, hread _ _ hslash]
      refine ⟨['<'], rfl, rfl, fun pos' rest hrest _ _ => ?_⟩
      rw [List.singleton_append, hread _ _ (Spaced.head?_ne hrest (by decide) hslash)]
      rfl
  by_cases hbrace : x = '{'
  · subst hbrace
    exact ⟨['{'], rfl, rfl, fun _ _ _ _ _ => rfl⟩
  · rw [readMarkup_cons, if_neg hangle, if_neg hbrace] at htext
    exact absurd rfl htext

/-! ### Regular expressions -/

/-- What a slash becomes when it is read as the start of a regular expression. -/
def readRegex (c : Cursor) : Lexeme :=
  { kind := .regularExpressionLiteral
    next := (regexEnd false (c.skip 1).pos (c.skip 1).rest).1.skipWhile isIdentifierPart
    unterminated := (regexEnd false (c.skip 1).pos (c.skip 1).rest).2 }

theorem isLocal_readRegex {pos : ℕ} {x : Char} {cs : List Char}
    (h : (readRegex { pos, rest := x :: cs }).unterminated = false) :
    IsLocal readRegex { pos, rest := x :: cs } := by
  obtain ⟨passed, -, hpassed, hpos, hends⟩ : Closes (regexEnd false) (pos + x.utf8Size) cs :=
    closes_regexEnd h
  obtain ⟨flags, hflags, hpos', hmove⟩ := isLocal_skipRun
    (fun c hc => isIdentifierPart_of_isSpacing hc) (regexEnd false (pos + x.utf8Size) cs).1.pos
    (regexEnd false (pos + x.utf8Size) cs).1.rest
  have hread : ∀ pos cs, readRegex { pos, rest := x :: cs } =
      { kind := .regularExpressionLiteral
        next := (regexEnd false (pos + x.utf8Size) cs).1.skipWhile isIdentifierPart
        unterminated := (regexEnd false (pos + x.utf8Size) cs).2 } := fun _ _ => rfl
  rw [IsLocal, hread]
  refine ⟨x :: (passed ++ flags), ?_, ?_, fun pos' rest hrest _ _ => ?_⟩
  · rw [List.cons_append, List.append_assoc]
    exact congrArg (x :: ·) (hpassed.trans (congrArg (passed ++ ·) hflags))
  · simp only at hpos hpos' ⊢
    rw [hpos', hpos, byteLength_cons, byteLength_append]
    omega
  · rw [List.cons_append, hread, List.append_assoc, hends, hmove _ _ hrest, byteLength_cons,
      byteLength_append]
    simp only [Nat.add_assoc]

end Lexeme

end ExpectError
