import ExpectError.Proofs.Alignment
import ExpectError.Proofs.Trivia

/-!
# Texts that are scanned to their end

Moving on from token to token comes to the end of every text, since every token but the last one
takes up a character. Nothing is lost on the way: what is in front of a token starts where the token
before it stops, so the text is what stands in front of the tokens together with the tokens. And a
scanner knows of a line break in front of a token if and only if there is one.

* `Scanner.triviaIn`: the characters in front of a token;
* `Cursor.notesBreaks_toToken`: line breaks on the way to a token;
* `Scanner.RunsFrom`: the scanners that are met on the way to the end, from one of them on;
* `Scanner.scanAll_lossless`: what is found in a text.
-/

namespace ExpectError

open Text

/-! ### Line breaks on the way to a token -/

namespace Cursor

/-- From the characters `cs` on, a place is reached, and it is known whether there is a line break
among the characters up to there, or was one before. -/
def NotesBreaks (broken : Bool) (cs : List Char) (found : Cursor × Bool) : Prop :=
  ∃ gap, cs = gap ++ found.1.rest ∧ found.2 = (broken || gap.any isLineBreak)

theorem NotesBreaks.here (broken : Bool) (pos : ℕ) (cs : List Char) :
    NotesBreaks broken cs ({ pos, rest := cs }, broken) :=
  ⟨[], rfl, by simp⟩

theorem NotesBreaks.over {broken : Bool} {c : Char} {cs : List Char} {found : Cursor × Bool}
    (h : NotesBreaks (broken || isLineBreak c) cs found) : NotesBreaks broken (c :: cs) found := by
  obtain ⟨gap, hcs, hbroken⟩ := h
  exact ⟨c :: gap, by rw [List.cons_append, ← hcs], by rw [hbroken, List.any_cons, Bool.or_assoc]⟩

theorem notesBreaks_skipTrivia (trivia : Trivia) (broken : Bool) (pos : ℕ) (cs : List Char) :
    NotesBreaks broken cs (skipTrivia trivia broken pos cs) := by
  have hstar : isLineBreak '*' = false := by decide
  have hslash : isLineBreak '/' = false := by decide
  fun_induction skipTrivia trivia broken pos cs with
  | case1 => exact .here _ _ _
  | case2 _ _ _ _ hc ih => exact .over (by simpa [hc] using ih)
  | case3 _ _ _ _ hc ih => exact .over (by simpa [hc] using ih)
  | case4 _ _ _ ih => exact .over (.over (by simpa [hstar, hslash] using ih))
  | case5 _ _ _ _ _ ih => exact .over ih
  | case6 _ _ _ ih => exact .over (.over (by simpa [hslash] using ih))
  | case7 _ _ _ ih => exact .over (.over (by simpa [hstar, hslash] using ih))
  | case8 _ _ _ _ _ _ hc ih => exact .over (by simpa [hc] using ih)
  | case9 _ _ _ _ _ _ hc _ ih => exact .over (by simpa [hc] using ih)
  | case10 => exact .here _ _ _

/-- The scanner knows of a line break if and only if it has moved over one. -/
theorem notesBreaks_toToken (c : Cursor) : NotesBreaks false c.rest c.toToken := by
  unfold toToken
  split
  next cs hpos hrest =>
    rw [hrest]
    exact .over (.over (notesBreaks_skipTrivia .lineComment _ 2 cs))
  next => exact notesBreaks_skipTrivia .blank false c.pos c.rest

end Cursor

/-! ### One token -/

namespace Scanner

/-- The characters of a text in front of the token at hand, from the token before it on. -/
def triviaIn (text : List Char) (s : Scanner) : List Char :=
  (slice? s.fullStart s.start.pos text).getD []

variable {text : List Char} {s : Scanner} {scanners : List Scanner}

theorem triviaIn_eq {gap : List Char} (h : (Cursor.ofText text).Ahead s.stop)
    (hgap : s.stop.rest = gap ++ s.next.start.rest) : s.next.triviaIn text = gap := by
  obtain ⟨before, htext, hbefore⟩ := h
  have htext : text = before ++ s.stop.rest := htext
  have hbefore : s.stop.pos = byteLength before := hbefore.trans (Nat.zero_add _)
  obtain ⟨passed, hpassed, hpos⟩ := s.ahead_start_next
  obtain rfl : passed = gap := List.append_cancel_right (hpassed.symm.trans hgap)
  have hslice : slice? s.stop.pos s.next.start.pos text = some passed := by
    rw [hpos, hbefore, htext, hpassed]
    exact slice?_append _ _ _
  change (slice? s.stop.pos s.next.start.pos text).getD [] = passed
  rw [hslice]
  rfl

/-- The next token, with what is in front of it, is taken off the front of what is left. -/
theorem rest_eq_append_next (h : (Cursor.ofText text).Ahead s.stop) :
    s.stop.rest = s.next.triviaIn text ++ (s.next.tokenText ++ s.next.stop.rest) := by
  obtain ⟨gap, hgap, -⟩ := s.ahead_start_next
  rw [triviaIn_eq h hgap, ← (sound_next h).exists_tokenText.1]
  exact hgap

theorem lineBreakBefore_next (h : (Cursor.ofText text).Ahead s.stop) :
    s.next.lineBreakBefore = true ↔
      ∃ c ∈ s.next.triviaIn text, c = '\n' ∨ c = '\r' ∨ c = '\u2028' ∨ c = '\u2029' := by
  obtain ⟨gap, hgap, hbroken⟩ := s.stop.notesBreaks_toToken
  change s.stop.toToken.2 = true ↔ _
  rw [triviaIn_eq h hgap, hbroken, Bool.false_or, List.any_eq_true]
  simp only [isLineBreak, Bool.or_eq_true, decide_eq_true_eq, or_assoc]

theorem tokenText_ne_nil (h : s.Sound text) (hkind : s.kind ≠ .endOfFile) : s.tokenText ≠ [] := by
  intro hnil
  have hlt := h.lt hkind
  rw [h.exists_tokenText.2, hnil] at hlt
  exact absurd hlt (Nat.lt_irrefl _)

theorem length_rest_next_lt (h : (Cursor.ofText text).Ahead s.stop)
    (hkind : s.next.kind ≠ .endOfFile) : s.next.stop.rest.length < s.stop.rest.length := by
  have hne := List.length_pos_iff.2 (tokenText_ne_nil (sound_next h) hkind)
  rw [rest_eq_append_next h, List.length_append, List.length_append]
  omega

/-! ### All tokens -/

/-- From one scanner on, these are met on the way to the end of the file: each is the one before it
moved on, and only the last one stands at the end of the file. -/
inductive RunsFrom : Scanner → List Scanner → Prop where
  | last {s : Scanner} (h : s.next.kind = .endOfFile) : RunsFrom s [s.next]
  | token {s : Scanner} {scanners : List Scanner} (h : s.next.kind ≠ .endOfFile)
    (hrest : RunsFrom s.next scanners) : RunsFrom s (s.next :: scanners)

/-- Every token takes up a character, so one more step than there are characters is enough. -/
theorem runsFrom_go {fuel : ℕ} (h : (Cursor.ofText text).Ahead s.stop)
    (hfuel : s.stop.rest.length < fuel) : RunsFrom s (scanAll.go fuel s) := by
  induction fuel generalizing s with
  | zero => omega
  | succ fuel ih =>
    rw [scanAll.go]
    split
    next hkind => exact .last hkind
    next hkind =>
      have hlt := length_rest_next_lt h hkind
      exact .token hkind (ih (sound_next h).reached_stop (by omega))

theorem runsFrom_scanAll (text : List Char) : RunsFrom (ofText text) (scanAll text) :=
  runsFrom_go (.refl _) (Nat.lt_succ_self text.length)

namespace RunsFrom

theorem exists_append (h : RunsFrom s scanners) : ∃ tokens last, scanners = tokens ++ [last] ∧
    last.kind = .endOfFile ∧ ∀ token ∈ tokens, token.kind ≠ .endOfFile := by
  induction h with
  | last hkind => exact ⟨[], _, rfl, hkind, by simp⟩
  | token hkind _ ih =>
    obtain ⟨tokens, last, rfl, hlast, htokens⟩ := ih
    exact ⟨_ :: tokens, last, rfl, hlast, List.forall_mem_cons.2 ⟨hkind, htokens⟩⟩

theorem eq_map_iterate (h : RunsFrom s scanners) :
    scanners = (List.range scanners.length).map fun calls => next^[calls + 1] s := by
  induction h with
  | last => rfl
  | token _ _ ih =>
    rw [List.length_cons, List.range_succ_eq_map, List.map_cons, List.map_map]
    conv_lhs => rw [ih]
    rfl

theorem length_le (h : RunsFrom s scanners) (hreached : (Cursor.ofText text).Ahead s.stop) :
    scanners.length ≤ s.stop.rest.length + 1 := by
  induction h with
  | last => simp
  | token hkind _ ih =>
    have hlt := length_rest_next_lt hreached hkind
    have hle := ih (sound_next hreached).reached_stop
    rw [List.length_cons]
    omega

theorem isChain (h : RunsFrom s scanners) :
    (s :: scanners).IsChain fun token later => later.fullStart = token.stop.pos := by
  induction h with
  | last => exact .cons_cons rfl (.singleton _)
  | token _ _ ih => exact .cons_cons rfl ih

theorem flatMap_eq (h : RunsFrom s scanners) (hreached : (Cursor.ofText text).Ahead s.stop) :
    (scanners.flatMap fun token => token.triviaIn text ++ token.tokenText) = s.stop.rest := by
  induction h with
  | @last s hkind =>
    have hend : s.next.start.rest = [] := Grammar.Scan.closed_apply .code s hkind
    have hnil := (sound_next hreached).exists_tokenText.1
    rw [hend] at hnil
    rw [rest_eq_append_next hreached, (List.append_eq_nil_iff.1 hnil.symm).2]
    simp
  | token _ _ ih =>
    rw [List.flatMap_cons, ih (sound_next hreached).reached_stop, rest_eq_append_next hreached,
      List.append_assoc]

/-- What holds of every token behind a place of the text holds of all of them. -/
theorem forall_mem (h : RunsFrom s scanners) (hreached : (Cursor.ofText text).Ahead s.stop)
    {P : Scanner → Prop} (hP : ∀ s : Scanner, (Cursor.ofText text).Ahead s.stop → P s.next) :
    ∀ token ∈ scanners, P token := by
  induction h with
  | last => simpa using hP _ hreached
  | token _ _ ih =>
    exact List.forall_mem_cons.2 ⟨hP _ hreached, ih (sound_next hreached).reached_stop⟩

end RunsFrom

/-- Moving on from token to token comes to the end of the file with at most one step more than there
are characters. Every token in front of it has characters, and starts with its trivia where the one
before it stops; the trivia and the tokens together are the text. The trivia are blanks, line breaks
and comments, and a line that begins with `#!` at the start of the text, and there is a line break
in front of a token if and only if there is one among its trivia. -/
theorem scanAll_lossless (text : List Char) : ∃ tokens last, scanAll text = tokens ++ [last] ∧
    (scanAll text =
      (List.range (tokens.length + 1)).map fun calls => next^[calls + 1] (ofText text)) ∧
    tokens.length + 1 ≤ text.length + 1 ∧ last.kind = .endOfFile ∧
    (∀ token ∈ tokens, token.kind ≠ .endOfFile ∧ token.tokenText ≠ []) ∧
    ((ofText text :: scanAll text).IsChain fun token later => later.fullStart = token.stop.pos) ∧
    ((scanAll text).flatMap fun token => token.triviaIn text ++ token.tokenText) = text ∧
    ∀ token ∈ scanAll text, Separated text token.fullStart token.start.pos ∧
      (token.lineBreakBefore = true ↔
        ∃ c ∈ token.triviaIn text, c = '\n' ∨ c = '\r' ∨ c = '\u2028' ∨ c = '\u2029') := by
  have hruns := runsFrom_scanAll text
  have hreached : (Cursor.ofText text).Ahead (ofText text).stop := .refl _
  obtain ⟨tokens, last, heq, hlast, htokens⟩ := hruns.exists_append
  have hlength : (scanAll text).length = tokens.length + 1 := by rw [heq, List.length_append]; rfl
  have hsound := hruns.forall_mem hreached fun s hs => sound_next hs
  refine ⟨tokens, last, heq, hlength ▸ hruns.eq_map_iterate, hlength ▸ hruns.length_le hreached,
    hlast, fun token htoken => ⟨htokens token htoken, ?_⟩, hruns.isChain, hruns.flatMap_eq hreached,
    hruns.forall_mem hreached fun s hs => ⟨separated_toToken hs, lineBreakBefore_next hs⟩⟩
  exact tokenText_ne_nil (hsound token (heq ▸ List.mem_append_left _ htoken)) (htokens token htoken)

end Scanner

end ExpectError
