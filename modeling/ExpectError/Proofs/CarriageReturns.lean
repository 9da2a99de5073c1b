import ExpectError.Proofs.CommentedTokens
import ExpectError.Proofs.ScannedTexts

/-!
# Lines that end in a carriage return and a line feed

A text in which every line feed has a carriage return in front of it gives the same tokens, with the
same line breaks between them, as the text without the carriage returns, up to the first string that
is continued over the end of a line. A backslash takes only the carriage return with it, so that the
line feed ends the string there.

* `Text.withReturns`: the text with the carriage returns;
* `Cursor.Corresponds`: two cursors at the same place of both texts;
* `Lexeme.correspondsOrCut_read`: one token;
* `Scanner.scanAll_withReturns`: all tokens.
-/

namespace ExpectError

open Text

/-! ### The text with carriage returns -/

namespace Text

/-- The text with a carriage return in front of every line feed. -/
def withReturns (cs : List Char) : List Char :=
  cs.flatMap fun c => if c = '\n' then ['\r', '\n'] else [c]

theorem withReturns_lineFeed (cs : List Char) :
    withReturns ('\n' :: cs) = '\r' :: '\n' :: withReturns cs :=
  rfl

theorem withReturns_cons {c : Char} (hc : c ≠ '\n') (cs : List Char) :
    withReturns (c :: cs) = c :: withReturns cs := by
  rw [withReturns, List.flatMap_cons, if_neg hc]
  rfl

theorem withReturns_append (xs ys : List Char) :
    withReturns (xs ++ ys) = withReturns xs ++ withReturns ys :=
  List.flatMap_append

theorem withReturns_eq_self {cs : List Char} (h : '\n' ∉ cs) : withReturns cs = cs := by
  induction cs with
  | nil => rfl
  | cons c cs ih =>
    rw [List.mem_cons, not_or] at h
    rw [withReturns_cons (Ne.symm h.1), ih h.2]

theorem mem_withReturns {cs : List Char} (h : '\n' ∈ cs) : '\n' ∈ withReturns cs :=
  List.mem_flatMap.2 ⟨'\n', h, by simp⟩

theorem isEmpty_withReturns (cs : List Char) : (withReturns cs).isEmpty = cs.isEmpty := by
  cases cs with
  | nil => rfl
  | cons c cs =>
    by_cases hc : c = '\n'
    · subst hc
      rfl
    · rw [withReturns_cons hc]
      rfl

theorem length_le_withReturns (cs : List Char) : cs.length ≤ (withReturns cs).length := by
  induction cs with
  | nil => exact le_rfl
  | cons c cs ih =>
    by_cases hc : c = '\n'
    · subst hc
      rw [withReturns_lineFeed, List.length_cons, List.length_cons, List.length_cons]
      omega
    · rw [withReturns_cons hc, List.length_cons, List.length_cons]
      omega

/-- The first characters are in the same classes if the two ends of a line are. -/
theorem head?_any_withReturns {p : Char → Bool} (hp : p '\n' = p '\r') (cs : List Char) :
    (withReturns cs).head?.any p = cs.head?.any p := by
  cases cs with
  | nil => rfl
  | cons c cs =>
    by_cases hc : c = '\n'
    · subst hc
      exact hp.symm
    · rw [withReturns_cons hc]
      rfl

theorem head?_withReturns_iff {c : Char} (hfeed : c ≠ '\n') (hreturn : c ≠ '\r') (cs : List Char) :
    (withReturns cs).head? = some c ↔ cs.head? = some c := by
  cases cs with
  | nil => rfl
  | cons x cs =>
    by_cases hx : x = '\n'
    · subst hx
      rw [withReturns_lineFeed]
      simp [hfeed.symm, hreturn.symm]
    · rw [withReturns_cons hx]
      rfl

theorem tail_withReturns {cs : List Char} (h : cs.head? ≠ some '\n') :
    (withReturns cs).tail = withReturns cs.tail := by
  cases cs with
  | nil => rfl
  | cons c cs =>
    rw [withReturns_cons fun hc => h (congrArg some hc)]
    rfl

/-- A word that has no line break in it begins both texts or neither. -/
theorem isPrefixOf_withReturns {word : List Char} (hword : ∀ c ∈ word, c ≠ '\n' ∧ c ≠ '\r')
    (cs : List Char) : word.isPrefixOf (withReturns cs) = word.isPrefixOf cs := by
  induction word generalizing cs with
  | nil => rw [List.isPrefixOf_nil_left, List.isPrefixOf_nil_left]
  | cons x word ih =>
    obtain ⟨⟨hfeed, hreturn⟩, hword⟩ := List.forall_mem_cons.1 hword
    cases cs with
    | nil => rfl
    | cons c cs =>
      by_cases hc : c = '\n'
      · subst hc
        rw [withReturns_lineFeed, List.isPrefixOf, List.isPrefixOf, beq_eq_false_iff_ne.2 hfeed,
          beq_eq_false_iff_ne.2 hreturn]
        rfl
      · rw [withReturns_cons hc, List.isPrefixOf, List.isPrefixOf, ih hword]

theorem drop_withReturns {n : ℕ} {cs : List Char} (h : '\n' ∉ cs.take n) :
    (withReturns cs).drop n = withReturns (cs.drop n) := by
  induction n generalizing cs with
  | zero => rfl
  | succ n ih =>
    cases cs with
    | nil => rfl
    | cons c cs =>
      rw [List.take_succ_cons, List.mem_cons, not_or] at h
      rw [withReturns_cons (Ne.symm h.1), List.drop_succ_cons, List.drop_succ_cons, ih h.2]

end Text

/-! ### Places -/

namespace Cursor

/-- The second cursor is at the place of the first one, in the text with carriage returns. -/
def Corresponds (c d : Cursor) : Prop :=
  d.rest = withReturns c.rest

theorem rest_skip (n : ℕ) (c : Cursor) : (c.skip n).rest = c.rest.drop n := by
  induction n generalizing c with
  | zero => rfl
  | succ n ih =>
    obtain ⟨pos, rest⟩ := c
    cases rest with
    | nil => rfl
    | cons x xs => exact ih _

/-- Over characters without a line feed. -/
theorem Corresponds.skip {c d : Cursor} (h : c.Corresponds d) {n : ℕ}
    (hfeed : '\n' ∉ c.rest.take n) : (c.skip n).Corresponds (d.skip n) := by
  rw [Corresponds, rest_skip, rest_skip, h, drop_withReturns hfeed]

theorem Corresponds.skip_one {c d : Cursor} (h : c.Corresponds d)
    (hfeed : c.rest.head? ≠ some '\n') : (c.skip 1).Corresponds (d.skip 1) := by
  refine h.skip ?_
  cases hrest : c.rest with
  | nil => simp
  | cons x xs =>
    rw [hrest] at hfeed
    simpa [eq_comm] using hfeed

/-- Over a character of a class that no line feed is in. -/
theorem Corresponds.skip_one_of_head {c d : Cursor} (h : c.Corresponds d) {p : Char → Bool}
    (hp : c.rest.head?.any p = true) (hfeed : p '\n' = false) :
    (c.skip 1).Corresponds (d.skip 1) := by
  refine h.skip_one fun hhead => ?_
  rw [hhead] at hp
  exact absurd hp (by simp [hfeed])

/-- What is passed over on the way to corresponding places corresponds, too. -/
theorem Corresponds.passed {c d stop stop' : Cursor} (h : c.Corresponds d)
    (hstop : stop.Corresponds stop') {passed passed' : List Char}
    (hpassed : c.rest = passed ++ stop.rest) (hpassed' : d.rest = passed' ++ stop'.rest) :
    passed' = withReturns passed := by
  rw [h, hpassed, withReturns_append, hstop] at hpassed'
  exact (List.append_cancel_right hpassed').symm

theorem Corresponds.upTo {c d stop stop' : Cursor} (h : c.Corresponds d)
    (hrest : stop.Corresponds stop') (hstop : c.Ahead stop) (hstop' : d.Ahead stop') :
    d.upTo stop'.pos = withReturns (c.upTo stop.pos) := by
  obtain ⟨passed, hpassed, hpos⟩ := hstop
  obtain ⟨passed', hpassed', hpos'⟩ := hstop'
  rw [hpos, hpos', Lexeme.upTo_of_append hpassed, Lexeme.upTo_of_append hpassed',
    h.passed hrest hpassed hpassed']

/-- Only the starts of the texts correspond to each other's start. -/
theorem Corresponds.pos_eq_zero_iff {text : List Char} {c d : Cursor} (h : c.Corresponds d)
    (hc : (ofText text).Ahead c) (hd : (ofText (withReturns text)).Ahead d) :
    c.pos = 0 ↔ d.pos = 0 := by
  have hnil : ∀ passed : List Char, withReturns passed = [] ↔ passed = [] := fun passed => by
    rw [← List.length_eq_zero_iff, ← List.length_eq_zero_iff]
    exact ⟨fun hzero => by have := length_le_withReturns passed; omega,
      fun hzero => by rw [List.length_eq_zero_iff.1 hzero]; rfl⟩
  obtain ⟨passed, hpassed, hpos⟩ := hc
  obtain ⟨passed', hpassed', hpos'⟩ := hd
  have hstart : (ofText text).Corresponds (ofText (withReturns text)) := rfl
  rw [hpos, hpos', hstart.passed h hpassed hpassed']
  simp only [ofText, Nat.zero_add, byteLength_eq_zero, hnil]

/-! ### Runs of characters and trivia -/

theorem corresponds_skipRun {p : Char → Bool} (hfeed : p '\n' = false) (hreturn : p '\r' = false)
    (pos pos' : ℕ) (cs : List Char) :
    (skipRun p pos cs).Corresponds (skipRun p pos' (withReturns cs)) := by
  induction cs generalizing pos pos' with
  | nil => rfl
  | cons c cs ih =>
    by_cases hc : c = '\n'
    · subst hc
      simp only [withReturns_lineFeed, skipRun, hfeed, hreturn]
      rfl
    · rw [withReturns_cons hc, skipRun, skipRun]
      split
      · exact ih _ _
      · exact (withReturns_cons hc cs).symm

theorem Corresponds.skipWhile {c d : Cursor} (h : c.Corresponds d) {p : Char → Bool}
    (hfeed : p '\n' = false) (hreturn : p '\r' = false) :
    (c.skipWhile p).Corresponds (d.skipWhile p) := by
  rw [Cursor.skipWhile, Cursor.skipWhile, h]
  exact corresponds_skipRun hfeed hreturn _ _ _

/-- The places where two stretches of trivia end, with the same line breaks on the way. -/
def CorrespondsBroken (r r' : Cursor × Bool) : Prop :=
  r.1.Corresponds r'.1 ∧ r'.2 = r.2

/-- The end of a line is a line break in front of or inside the trivia that follow. -/
theorem skipTrivia_feed (trivia : Trivia) (broken : Bool) (pos : ℕ) (cs : List Char) :
    skipTrivia trivia broken pos ('\n' :: cs) =
      skipTrivia (if trivia = .lineComment then .blank else trivia) true (pos + 1) cs := by
  cases trivia with
  | blank => simp [skipTrivia_blank_cons, isLineBreak]; rfl
  | lineComment => simp [skipTrivia, isLineBreak]; rfl
  | blockComment => simp [skipTrivia_blockComment_cons, isLineBreak]; rfl

theorem skipTrivia_return (trivia : Trivia) (broken : Bool) (pos : ℕ) (cs : List Char) :
    skipTrivia trivia broken pos ('\r' :: '\n' :: cs) =
      skipTrivia (if trivia = .lineComment then .blank else trivia) true (pos + 2) cs := by
  cases trivia with
  | blank => simp [skipTrivia_blank_cons, isLineBreak]; rfl
  | lineComment => simp [skipTrivia, skipTrivia_feed, isLineBreak]; rfl
  | blockComment => simp [skipTrivia_blockComment_cons, isLineBreak]; rfl

theorem correspondsBroken_skipTrivia : ∀ (cs : List Char) (trivia : Trivia) (broken : Bool)
    (pos pos' : ℕ), CorrespondsBroken (skipTrivia trivia broken pos cs)
      (skipTrivia trivia broken pos' (withReturns cs))
  | [], trivia, _, _, _ => by cases trivia <;> exact ⟨rfl, rfl⟩
  | c :: cs, trivia, broken, pos, pos' => by
    by_cases hc : c = '\n'
    · subst hc
      rw [withReturns_lineFeed, skipTrivia_return, skipTrivia_feed]
      exact correspondsBroken_skipTrivia cs _ _ _ _
    · rw [withReturns_cons hc]
      have htail : ∀ {x : Char}, x ≠ '\n' → cs.head? = some x →
          (withReturns cs).tail = withReturns cs.tail := by
        intro x hx hhead
        exact tail_withReturns fun hfeed => hx (Option.some.inj (hhead.symm.trans hfeed))
      have hhead : ∀ x, x ≠ '\n' ∧ x ≠ '\r' → ((withReturns cs).head? = some x ↔ cs.head? = some x) :=
        fun x hx => head?_withReturns_iff hx.1 hx.2 cs
      cases trivia with
      | lineComment =>
        rw [skipTrivia, skipTrivia]
        split
        · exact correspondsBroken_skipTrivia cs _ _ _ _
        · exact correspondsBroken_skipTrivia cs _ _ _ _
      | blockComment =>
        rw [skipTrivia_blockComment_cons, skipTrivia_blockComment_cons]
        simp only [hhead '/' (by decide)]
        split
        next hend =>
          rw [htail (by decide) hend.2]
          exact correspondsBroken_skipTrivia cs.tail _ _ _ _
        next => exact correspondsBroken_skipTrivia cs _ _ _ _
      | blank =>
        rw [skipTrivia_blank_cons, skipTrivia_blank_cons]
        simp only [hhead '/' (by decide), hhead '*' (by decide)]
        split_ifs with hline hblock
        · rw [htail (by decide) hline.2]
          exact correspondsBroken_skipTrivia cs.tail _ _ _ _
        · rw [htail (by decide) hblock.2]
          exact correspondsBroken_skipTrivia cs.tail _ _ _ _
        · exact correspondsBroken_skipTrivia cs _ _ _ _
        · exact correspondsBroken_skipTrivia cs _ _ _ _
        · exact ⟨(withReturns_cons hc cs).symm, rfl⟩
termination_by cs => cs.length
decreasing_by
  all_goals
    simp only [List.length_cons, List.length_tail]
    omega

theorem correspondsBroken_toToken {c d : Cursor} (h : c.Corresponds d)
    (hzero : c.pos = 0 ↔ d.pos = 0) : CorrespondsBroken c.toToken d.toToken := by
  have hprefix : ['#', '!'].isPrefixOf d.rest = ['#', '!'].isPrefixOf c.rest := by
    rw [h, isPrefixOf_withReturns (by simp)]
  by_cases hmark : c.pos = 0 ∧ ['#', '!'].isPrefixOf c.rest = true
  · obtain ⟨pos, rest⟩ := c
    obtain ⟨pos', rest'⟩ := d
    obtain ⟨rfl, hrest⟩ : pos = 0 ∧ _ := hmark
    obtain rfl : pos' = 0 := hzero.1 rfl
    obtain rfl : rest' = withReturns rest := h
    obtain ⟨cs, rfl⟩ := List.isPrefixOf_iff_prefix.1 hrest
    exact correspondsBroken_skipTrivia cs .lineComment false 2 2
  · have hmark' : ¬ (d.pos = 0 ∧ ['#', '!'].isPrefixOf d.rest = true) := by
      rwa [← hzero, hprefix]
    rw [toToken_eq hmark, toToken_eq hmark', h]
    exact correspondsBroken_skipTrivia _ _ _ _ _

/-! ### Words and literals -/

theorem corresponds_identifierEnd : ∀ (cs : List Char) (escape : Escape) (pos pos' : ℕ),
    (identifierEnd escape pos cs).Corresponds (identifierEnd escape pos' (withReturns cs))
  | [], escape, _, _ => by cases escape <;> rfl
  | c :: cs, escape, pos, pos' => by
    by_cases hc : c = '\n'
    · subst hc
      rw [withReturns_lineFeed]
      cases escape with
      | outside =>
        rw [identifierEnd_outside_cons, identifierEnd_outside_cons]
        rfl
      | braced =>
        rw [identifierEnd, identifierEnd, if_neg (by decide), if_neg (by decide), identifierEnd,
          if_neg (by decide)]
        exact corresponds_identifierEnd cs _ _ _
    · rw [withReturns_cons hc]
      cases escape with
      | outside =>
        rw [identifierEnd_outside_cons, identifierEnd_outside_cons]
        simp only [head?_withReturns_iff (c := 'u') (by decide) (by decide) cs]
        by_cases hu : c = '\\' ∧ cs.head? = some 'u'
        · rw [if_pos hu, if_pos hu, tail_withReturns (by simp [hu.2])]
          simp only [head?_withReturns_iff (c := '\x7b') (by decide) (by decide) cs.tail]
          by_cases hbrace : cs.tail.head? = some '\x7b'
          · rw [if_pos hbrace, if_pos hbrace, tail_withReturns (by simp [hbrace])]
            exact corresponds_identifierEnd cs.tail.tail _ _ _
          · rw [if_neg hbrace, if_neg hbrace]
            exact corresponds_identifierEnd cs.tail _ _ _
        · rw [if_neg hu, if_neg hu]
          split
          · exact corresponds_identifierEnd cs _ _ _
          · exact (withReturns_cons hc cs).symm
      | braced =>
        rw [identifierEnd, identifierEnd]
        exact corresponds_identifierEnd cs _ _ _
termination_by cs => cs.length
decreasing_by
  all_goals
    simp only [List.length_cons, List.length_tail]
    omega

theorem stringEnd_backslash {quote : Char} (hquote : '\\' ≠ quote) (pos : ℕ) (d : Char)
    (ds : List Char) :
    stringEnd quote pos ('\\' :: d :: ds) = stringEnd quote (pos + 1 + d.utf8Size) ds := by
  rw [stringEnd.eq_def]
  simp [hquote]

/-- A string that is not continued over the end of a line ends alike in both texts; a string that is
continued is cut off behind the carriage return. -/
theorem stringEnd_withReturns {quote : Char} (hfeed : quote ≠ '\n') (hreturn : quote ≠ '\r')
    (pos pos' : ℕ) (cs : List Char) :
    ∃ passed, cs = passed ++ (stringEnd quote pos cs).1.rest ∧
      if '\n' ∈ passed then (stringEnd quote pos' (withReturns cs)).2 = true
      else CorrespondsBroken (stringEnd quote pos cs) (stringEnd quote pos' (withReturns cs)) := by
  fun_induction stringEnd quote pos cs generalizing pos' with
  | case1 => exact ⟨[], rfl, rfl, rfl⟩
  | case2 pos cs =>
    refine ⟨[quote], rfl, ?_⟩
    rw [if_neg (by simpa [eq_comm] using hfeed), withReturns_cons hfeed, stringEnd.eq_def]
    simp only [if_true]
    exact ⟨rfl, rfl⟩
  | case3 pos hquote =>
    refine ⟨['\\'], rfl, ?_⟩
    rw [if_neg (by decide), withReturns_cons (by decide), stringEnd.eq_def]
    simp only [if_neg hquote]
    exact ⟨rfl, rfl⟩
  | case4 pos d ds hquote ih =>
    obtain ⟨passed, hpassed, hends⟩ := ih (pos' + 1 + d.utf8Size)
    refine ⟨'\\' :: d :: passed, by rw [List.cons_append, List.cons_append, ← hpassed], ?_⟩
    rw [withReturns_cons (by decide)]
    -- the backslash takes the carriage return with it, and the line feed ends the string
    by_cases hd : d = '\n'
    · subst hd
      rw [if_pos (by simp), withReturns_lineFeed, stringEnd_backslash hquote,
        stringEnd_of_ne _ _ _ (by decide), if_neg (Ne.symm hfeed)]
      rfl
    · rw [withReturns_cons hd, stringEnd_backslash hquote]
      simpa [Ne.symm hd] using hends
  | case5 pos c cs hquote hslash hbreak =>
    refine ⟨[], rfl, ?_⟩
    rw [if_neg (by simp)]
    by_cases hc : c = '\n'
    · subst hc
      rw [withReturns_lineFeed, stringEnd_of_ne _ _ _ (by decide), if_neg (Ne.symm hreturn)]
      exact ⟨rfl, rfl⟩
    · rw [withReturns_cons hc, stringEnd_of_ne _ _ _ hslash, if_neg hquote, if_pos hbreak]
      exact ⟨(withReturns_cons hc cs).symm, rfl⟩
  | case6 pos c cs hquote hslash hbreak ih =>
    obtain ⟨passed, hpassed, hends⟩ := ih (pos' + c.utf8Size)
    have hc : c ≠ '\n' := fun hc => hbreak (by simp [hc])
    refine ⟨c :: passed, by rw [List.cons_append, ← hpassed], ?_⟩
    rw [withReturns_cons hc, stringEnd_of_ne _ _ _ hslash, if_neg hquote, if_neg hbreak]
    simpa [Ne.symm hc] using hends

/-- Behind a backslash or not, both ends of a line are characters of a template. -/
theorem templateEnd_withReturns : ∀ (cs : List Char) (pos pos' : ℕ),
    (templateEnd pos cs).1.Corresponds (templateEnd pos' (withReturns cs)).1 ∧
      (templateEnd pos' (withReturns cs)).2 = (templateEnd pos cs).2
  | [], _, _ => ⟨rfl, rfl⟩
  | c :: cs, pos, pos' => by
    have hfeed : ∀ pos (ds : List Char), templateEnd pos ('\n' :: ds) = templateEnd (pos + 1) ds := by
      intro pos ds
      rw [templateEnd_of_ne _ _ (by decide), if_neg (by decide), if_neg fun h => absurd h.1 (by decide)]
      rfl
    by_cases hslash : c = '\\'
    · subst hslash
      rw [withReturns_cons (by decide)]
      match cs with
      | [] => exact ⟨rfl, rfl⟩
      | d :: ds =>
        rw [templateEnd]
        by_cases hd : d = '\n'
        · subst hd
          rw [withReturns_lineFeed, templateEnd, hfeed]
          exact templateEnd_withReturns ds _ _
        · rw [withReturns_cons hd, templateEnd]
          exact templateEnd_withReturns ds _ _
    · by_cases hc : c = '\n'
      · subst hc
        rw [withReturns_lineFeed, hfeed, templateEnd_of_ne _ _ (by decide), if_neg (by decide),
          if_neg fun h => absurd h.1 (by decide), hfeed]
        exact templateEnd_withReturns cs _ _
      · rw [withReturns_cons hc, templateEnd_of_ne _ _ hslash, templateEnd_of_ne _ _ hslash]
        simp only [head?_withReturns_iff (c := '\x7b') (by decide) (by decide) cs]
        split_ifs with hquote hopen
        · exact ⟨rfl, rfl⟩
        · exact ⟨tail_withReturns (by simp [hopen.2]), rfl⟩
        · exact templateEnd_withReturns cs _ _

/-- An end of a line is no part of a number. -/
theorem agreeOnNumerals_corresponds : Lexeme.AgreeOnNumerals Corresponds where
  head?_any_eq hp h := by
    have hfeed := hp.eq_false '\n' (by simp)
    rw [h, head?_any_withReturns (hfeed.trans (hp.eq_false '\r' (by simp)).symm)]
  skip_one hp h hhead := h.skip_one_of_head hhead (hp.eq_false '\n' (by simp))
  skipWhile hp h := h.skipWhile (hp.eq_false '\n' (by simp)) (hp.eq_false '\r' (by simp))

end Cursor

/-! ### Tokens -/

namespace Lexeme

open Cursor

/-- The same token in both texts. -/
structure Corresponds (l l' : Lexeme) : Prop where
  kind_eq : l'.kind = l.kind
  next : l.next.Corresponds l'.next
  unterminated_eq : l'.unterminated = l.unterminated

/-- No mark has a line break in it. -/
theorem ne_lineBreak_of_mem_marks :
    ∀ mark ∈ marks, ∀ c ∈ mark.1.toList, c ≠ '\n' ∧ c ≠ '\r' := by
  have hall : marks.all (fun mark => mark.1.toList.all fun c => c != '\n' && c != '\r') = true := by
    decide
  simpa only [List.all_eq_true, Bool.and_eq_true, bne_iff_ne] using hall

theorem notMem_take_of_isPrefixOf {word cs : List Char} (hword : ∀ c ∈ word, c ≠ '\n' ∧ c ≠ '\r')
    (h : word.isPrefixOf cs = true) : '\n' ∉ cs.take word.length := by
  obtain ⟨rest, rfl⟩ := List.isPrefixOf_iff_prefix.1 h
  rw [List.take_left]
  exact fun hmem => (hword _ hmem).1 rfl

theorem beginsWithMark_withReturns {mark : String × TokenKind} (hmark : mark ∈ marks)
    (cs : List Char) : beginsWithMark mark.1 (withReturns cs) = beginsWithMark mark.1 cs := by
  have hword := ne_lineBreak_of_mem_marks mark hmark
  rw [beginsWithMark, beginsWithMark, isPrefixOf_withReturns hword]
  cases hbegin : mark.1.toList.isPrefixOf cs with
  | false => rfl
  | true =>
    by_cases hquestion : mark.1 = "?."
    · have hdrop := drop_withReturns (notMem_take_of_isPrefixOf hword hbegin)
      rw [hquestion] at hdrop
      change (withReturns cs).drop 2 = withReturns (cs.drop 2) at hdrop
      rw [hdrop, head?_any_withReturns (by decide)]
    · simp [hquestion]

theorem corresponds_readMark {c d : Cursor} (h : c.Corresponds d)
    (hfeed : c.rest.head? ≠ some '\n') : (readMark c).Corresponds (readMark d) := by
  have hempty : d.rest.isEmpty = c.rest.isEmpty := by rw [h, isEmpty_withReturns]
  have hfind : marks.find? (fun mark => beginsWithMark mark.1 d.rest) =
      marks.find? fun mark => beginsWithMark mark.1 c.rest :=
    List.find?_congr fun mark hmark => by rw [h, beginsWithMark_withReturns hmark]
  simp only [readMark, hempty, hfind]
  split
  · exact ⟨rfl, h, rfl⟩
  · split
    next word kind hmark =>
      have hmem := List.mem_of_find?_eq_some hmark
      have hbegins := List.find?_some hmark
      rw [beginsWithMark, Bool.and_eq_true] at hbegins
      exact ⟨rfl, h.skip (notMem_take_of_isPrefixOf (ne_lineBreak_of_mem_marks _ hmem) hbegins.1), rfl⟩
    next => exact ⟨rfl, h.skip_one hfeed, rfl⟩

theorem corresponds_readWord {c d : Cursor} (h : c.Corresponds d) :
    (readIdentifier.read c).Corresponds (readIdentifier.read d) := by
  have hend : (identifierEnd .outside c.pos c.rest).Corresponds
      (identifierEnd .outside d.pos d.rest) := by
    rw [h]
    exact corresponds_identifierEnd _ _ _ _
  have hword := h.upTo hend (ahead_identifierEnd .outside _ _) (ahead_identifierEnd .outside _ _)
  refine ⟨?_, hend, rfl⟩
  simp only [readIdentifier.read, hword]
  by_cases hfeed : '\n' ∈ c.upTo (identifierEnd .outside c.pos c.rest).pos
  · rw [ofKeyword?_eq_none hfeed (by decide), ofKeyword?_eq_none (mem_withReturns hfeed) (by decide)]
  · rw [withReturns_eq_self hfeed]

theorem corresponds_readIdentifier {pos pos' : ℕ} {c : Char} {cs : List Char} (hc : c ≠ '\n') :
    (readIdentifier { pos, rest := c :: cs }).Corresponds
      (readIdentifier { pos := pos', rest := c :: withReturns cs }) := by
  have h : Cursor.Corresponds { pos, rest := c :: cs } { pos := pos', rest := c :: withReturns cs } :=
    (withReturns_cons hc cs).symm
  rw [readIdentifier_cons, readIdentifier_cons]
  simp only [ne_eq, head?_withReturns_iff (c := 'u') (by decide) (by decide) cs]
  split_ifs
  · exact ⟨rfl, rfl, rfl⟩
  · exact corresponds_readWord h

theorem corresponds_readTemplateHead {c d : Cursor} (h : c.Corresponds d) :
    (readTemplateHead c).Corresponds (readTemplateHead d) := by
  obtain ⟨hnext, hstop⟩ := templateEnd_withReturns c.rest c.pos d.pos
  rw [readTemplateHead_eq, readTemplateHead_eq, h]
  simp only [templateLexeme, hstop]
  exact ⟨rfl, hnext, rfl⟩

theorem corresponds_readHash {pos pos' : ℕ} {c : Char} {cs : List Char} (hc : c ≠ '\n') :
    (readHash { pos, rest := c :: cs }).Corresponds
      (readHash { pos := pos', rest := c :: withReturns cs }) := by
  have hmark : (readMark { pos, rest := c :: cs }).Corresponds
      (readMark { pos := pos', rest := c :: withReturns cs }) :=
    corresponds_readMark (withReturns_cons hc cs).symm (by simpa using hc)
  cases cs with
  | nil => exact hmark
  | cons x xs =>
    by_cases hx : x = '\n'
    · subst hx
      exact hmark
    · rw [withReturns_cons hx] at hmark ⊢
      simp only [readHash]
      split
      · refine ⟨rfl, ?_, rfl⟩
        have hend := corresponds_identifierEnd (x :: xs) .outside (pos + c.utf8Size)
          (pos' + c.utf8Size)
        rwa [withReturns_cons hx] at hend
      · exact hmark

/-- Is a token that is read at a cursor a string that is continued over the end of a line? -/
def IsContinued (c : Cursor) (l : Lexeme) : Prop :=
  l.kind = .stringLiteral ∧ '\n' ∈ c.upTo l.next.pos

/-- The same token in both texts, or a string that is continued over the end of a line in the first
text and cut off there in the second one. -/
def CorrespondsOrCut (c : Cursor) (l l' : Lexeme) : Prop :=
  ¬ l.IsContinued c ∧ l.Corresponds l' ∨
    l.IsContinued c ∧ l'.kind = .stringLiteral ∧ l'.unterminated = true

theorem correspondsOrCut_readString {quote : Char} (hfeed : quote ≠ '\n') (hreturn : quote ≠ '\r')
    {c d : Cursor} (h : c.Corresponds d) {cs : List Char} (hrest : c.rest = quote :: cs) :
    CorrespondsOrCut c (readString quote c) (readString quote d) := by
  have hbody : (c.skip 1).Corresponds (d.skip 1) := h.skip_one (by simpa [hrest] using hfeed)
  obtain ⟨passed, hpassed, hends⟩ := stringEnd_withReturns hfeed hreturn (c.skip 1).pos (d.skip 1).pos
    (c.skip 1).rest
  rw [← hbody] at hends
  -- the token is the quote and what is passed behind it
  have htoken : c.upTo (readString quote c).next.pos = quote :: passed := by
    obtain ⟨whole, hwhole, hpos⟩ : c.Ahead (readString quote c).next :=
      (ahead_skip 1 c).trans (ahead_stringEnd _ _ _)
    have hskip : (c.skip 1).rest = cs := by
      rw [rest_skip, hrest]
      rfl
    rw [hpos, upTo_of_append hwhole]
    refine List.append_cancel_right (hwhole.symm.trans (hrest.trans ?_))
    rw [← hskip, List.cons_append]
    exact congrArg (List.cons quote) hpassed
  by_cases hmem : '\n' ∈ passed
  · rw [if_pos hmem] at hends
    exact Or.inr ⟨⟨rfl, htoken ▸ List.mem_cons_of_mem _ hmem⟩, rfl, hends⟩
  · rw [if_neg hmem] at hends
    refine Or.inl ⟨fun hcontinued => ?_, rfl, hends.1, hends.2⟩
    have hmem' := hcontinued.2
    rw [htoken, List.mem_cons] at hmem'
    exact hmem'.elim hfeed.symm hmem

theorem correspondsOrCut_read {c d : Cursor} (h : c.Corresponds d)
    (hfeed : c.rest.head? ≠ some '\n') : CorrespondsOrCut c (read c) (read d) := by
  -- only a string can be cut, and no other reader gives the kind of a string
  have hsame : ∀ {l l' : Lexeme}, l.kind ≠ .stringLiteral → l.Corresponds l' →
      CorrespondsOrCut c l l' := fun hkind hl => Or.inl ⟨fun hcontinued => hkind hcontinued.1, hl⟩
  have hmarks : ∀ mark ∈ marks, mark.2 ≠ .stringLiteral := by decide
  have hnumber : CorrespondsOrCut c (readNumber c) (readNumber d) := by
    obtain ⟨hkind, hnext, hunterminated⟩ := agreeOnNumerals_corresponds.readNumber h
    refine hsame ?_ ⟨hkind.symm, hnext, hunterminated.symm⟩
    rw [readNumber_eq]
    split <;> simp
  obtain ⟨pos, rest⟩ := c
  obtain ⟨pos', rest'⟩ := d
  have hrest : rest' = withReturns rest := h
  subst hrest
  cases rest with
  | nil => exact hsame (by simp [read]) ⟨rfl, rfl, rfl⟩
  | cons c cs =>
    have hc : c ≠ '\n' := fun hc => hfeed (congrArg some hc)
    rw [withReturns_cons hc] at h hnumber ⊢
    simp only [read, head?_any_withReturns (p := Char.isDigit) (by decide)]
    split_ifs with hword hdigit hquote htemplate hpoint hhash
    · exact hsame (kind_readIdentifier_ne (by decide) (by decide) (by decide))
        (corresponds_readIdentifier hc)
    · exact hnumber
    · have hreturn : c ≠ '\r' := by
        rintro rfl
        exact absurd hquote (by decide)
      exact correspondsOrCut_readString hc hreturn h rfl
    · exact hsame (kind_readTemplateHead_ne (by decide) (by decide) _)
        (corresponds_readTemplateHead (h.skip_one hfeed))
    · exact hnumber
    · exact hsame (kind_readHash_ne hmarks (by decide) (by decide) (List.cons_ne_nil _ _))
        (corresponds_readHash hc)
    · exact hsame (kind_readMark_ne hmarks (by decide) (List.cons_ne_nil _ _))
        (corresponds_readMark h hfeed)

end Lexeme

namespace Scanner

/-- Is the token at hand a string that is continued over the end of a line? -/
def IsContinued (s : Scanner) : Prop :=
  s.kind = .stringLiteral ∧ '\n' ∈ s.tokenText

/-- What is known of a token apart from its place: its kind, whether there is a line break in front of
it, and whether its closing mark is missing. -/
def outline (s : Scanner) : TokenKind × Bool × Bool :=
  (s.kind, s.lineBreakBefore, s.unterminated)

variable {text : List Char} {s t : Scanner} {scanners scanners' : List Scanner}

/-- The next token is the same in both texts, or it is a continued string, which is cut off in the
second text. -/
theorem outline_next (h : s.stop.Corresponds t.stop) (hs : (Cursor.ofText text).Ahead s.stop)
    (ht : (Cursor.ofText (withReturns text)).Ahead t.stop) :
    ¬ s.next.IsContinued ∧ t.next.outline = s.next.outline ∧ s.next.stop.Corresponds t.next.stop ∨
      s.next.IsContinued ∧ t.next.outline = (.stringLiteral, s.next.lineBreakBefore, true) := by
  obtain ⟨hstart, hbroken⟩ := Cursor.correspondsBroken_toToken h (h.pos_eq_zero_iff hs ht)
  have hbefore : t.next.lineBreakBefore = s.next.lineBreakBefore := hbroken
  have hfeed : s.stop.toToken.1.rest.head? ≠ some '\n' := fun hfeed =>
    absurd (s.stop.head?_toToken _ hfeed).2 (by decide)
  rcases Lexeme.correspondsOrCut_read hstart hfeed with
    ⟨hno, hkind, hnext, hunterminated⟩ | ⟨hcontinued, hkind, hunterminated⟩
  · exact Or.inl ⟨hno, Prod.ext hkind (Prod.ext hbefore hunterminated), hnext⟩
  · exact Or.inr ⟨hcontinued, Prod.ext hkind (Prod.ext hbefore hunterminated)⟩

theorem RunsFrom.exists_cons (h : RunsFrom s scanners) : ∃ later, scanners = s.next :: later := by
  cases h with
  | last => exact ⟨_, rfl⟩
  | token => exact ⟨_, rfl⟩

/-- From corresponding places on, the tokens are the same up to the first continued string. -/
theorem RunsFrom.outline_eq (hrun : RunsFrom s scanners) (hrun' : RunsFrom t scanners')
    (h : s.stop.Corresponds t.stop) (hs : (Cursor.ofText text).Ahead s.stop)
    (ht : (Cursor.ofText (withReturns text)).Ahead t.stop) :
    (∀ token ∈ scanners, ¬ token.IsContinued) ∧ scanners'.map outline = scanners.map outline ∨
      ∃ (before : List Scanner) (token : Scanner) (later before' : List Scanner) (cut : Scanner)
        (later' : List Scanner), scanners = before ++ token :: later ∧
        scanners' = before' ++ cut :: later' ∧ (∀ earlier ∈ before, ¬ earlier.IsContinued) ∧
        before'.map outline = before.map outline ∧ token.IsContinued ∧
        cut.outline = (.stringLiteral, token.lineBreakBefore, true) := by
  induction hrun generalizing t scanners' with
  | @last s hkind =>
    rcases outline_next h hs ht with ⟨hno, houtline, -⟩ | ⟨hcontinued, -⟩
    · have hkind' : t.next.kind = .endOfFile := (congrArg Prod.fst houtline).trans hkind
      cases hrun' with
      | last => exact Or.inl ⟨by simpa using hno, by rw [List.map_singleton, houtline]; rfl⟩
      | token hne => exact absurd hkind' hne
    · exact absurd (hcontinued.1.symm.trans hkind) (by decide)
  | @token s scanners hkind hrest ih =>
    rcases outline_next h hs ht with ⟨hno, houtline, hstop⟩ | ⟨hcontinued, hcut⟩
    · have hkind' : t.next.kind = s.next.kind := congrArg Prod.fst houtline
      cases hrun' with
      | last hend => exact absurd (hkind'.symm.trans hend) hkind
      | token _ hrest' =>
        rcases ih hrest' hstop (sound_next hs).reached_stop (sound_next ht).reached_stop with
          ⟨hall, hmap⟩ | ⟨before, token, later, before', cut, later', rfl, rfl, hall, hmap, hfound⟩
        · exact Or.inl ⟨List.forall_mem_cons.2 ⟨hno, hall⟩,
            by rw [List.map_cons, List.map_cons, houtline, hmap]⟩
        · exact Or.inr ⟨s.next :: before, token, later, t.next :: before', cut, later', rfl, rfl,
            List.forall_mem_cons.2 ⟨hno, hall⟩,
            by rw [List.map_cons, List.map_cons, houtline, hmap], hfound⟩
    · obtain ⟨later', rfl⟩ := hrun'.exists_cons
      exact Or.inr ⟨[], s.next, scanners, [], t.next, later', rfl, rfl, by simp, rfl, hcontinued, hcut⟩

/-- A carriage return in front of every line feed changes neither the kinds of the tokens nor the
line breaks between them nor which of them lack their closing mark, unless a string is continued over
the end of a line. The tokens in front of the first such string are the same even then. The string
itself is cut off at the end of the line: the backslash has taken the carriage return with it, and
the line feed behind it ends the string. -/
theorem scanAll_withReturns (text : List Char) :
    (∀ token ∈ scanAll text, ¬ token.IsContinued) ∧
        (scanAll (withReturns text)).map outline = (scanAll text).map outline ∨
      ∃ before token later before' cut later', scanAll text = before ++ token :: later ∧
        scanAll (withReturns text) = before' ++ cut :: later' ∧
        (∀ earlier ∈ before, ¬ earlier.IsContinued) ∧
        before'.map outline = before.map outline ∧ token.IsContinued ∧
        cut.outline = (.stringLiteral, token.lineBreakBefore, true) :=
  (runsFrom_scanAll text).outline_eq (runsFrom_scanAll _) rfl (.refl _) (.refl _)

/-- A template goes on over both ends of a line, a string over a line feed only. -/
example :
    (scanAll (withReturns "\x60\\\n\x60".toList)).map outline =
        [(.noSubstitutionTemplateLiteral, false, false), (.endOfFile, false, false)] ∧
      (scanAll "'\\\n'".toList).map outline =
        [(.stringLiteral, false, false), (.endOfFile, false, false)] ∧
      (scanAll (withReturns "'\\\n'".toList)).map outline =
        [(.stringLiteral, false, true), (.stringLiteral, true, true), (.endOfFile, false, false)] := by
  decide +kernel

end Scanner

end ExpectError
