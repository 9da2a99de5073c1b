import ExpectError.Proofs.ScannedTexts
import ExpectError.Proofs.TokenCover

/-!
# Line breaks in front of tokens

While a text is read, the scanner notes whether there is a line break in front of the token at hand.
Where it says so there is one, behind all consumed tokens; only text between tags is its own line
break. And whatever is consumed from some token on starts at that token or behind it.

* `Text.BreaksBetween`: there is a line break between two offsets;
* `BreaksNoted`: what the scanner notes, a property that every move keeps;
* `ConsumesFrom`: what has been consumed since some token, a property that every move keeps;
* `breaksNoted_run`, `consumesFrom_run`: along a run.
-/

namespace ExpectError

namespace Text

/-- Between two offsets of a text there is a line break. -/
def BreaksBetween (text : List Char) (start stop : ℕ) : Prop :=
  ∃ before c after, text = before ++ c :: after ∧ isLineBreak c = true ∧
    start ≤ byteLength before ∧ byteLength before + c.utf8Size ≤ stop

theorem BreaksBetween.mono {text : List Char} {start stop start' stop' : ℕ}
    (h : BreaksBetween text start stop) (hstart : start' ≤ start) (hstop : stop ≤ stop') :
    BreaksBetween text start' stop' := by
  obtain ⟨before, c, after, htext, hc, hle, hle'⟩ := h
  exact ⟨before, c, after, htext, hc, hstart.trans hle, hle'.trans hstop⟩

end Text

open Text

/-! ### What a scanner notes -/

namespace Scanner

variable {text : List Char} {s : Scanner}

/-- A line break on the way to a token lies in front of the token. -/
theorem breaksBetween_toToken {c : Cursor} (h : (Cursor.ofText text).Ahead c)
    (hbroken : c.toToken.2 = true) : BreaksBetween text c.pos c.toToken.1.pos := by
  obtain ⟨before, htext, hpos⟩ := h
  obtain ⟨passed, hpassed, hstart⟩ := c.ahead_toToken
  obtain ⟨gap, hgap, hnoted⟩ := c.notesBreaks_toToken
  obtain rfl : passed = gap := List.append_cancel_right (hpassed.symm.trans hgap)
  rw [hbroken, Bool.false_or] at hnoted
  obtain ⟨d, hd, hbreak⟩ := List.any_eq_true.1 hnoted.symm
  obtain ⟨front, back, rfl⟩ := List.append_of_mem hd
  refine ⟨before ++ front, d, back ++ c.toToken.1.rest, ?_, hbreak, ?_, ?_⟩
  · show text = _
    rw [show text = before ++ c.rest from htext, hpassed]
    simp
  · rw [byteLength_append]
    have : c.pos = 0 + byteLength before := hpos
    omega
  · have : c.pos = 0 + byteLength before := hpos
    simp only [byteLength_append, byteLength_cons] at *
    omega

/-- A mark whose characters are no line breaks. -/
theorem any_isLineBreak_skip (word : List Char) (hword : word.any isLineBreak = false) (pos : ℕ)
    (rest : List Char) : (Cursor.upTo ⟨pos, word ++ rest⟩
      (Cursor.skip word.length ⟨pos, word ++ rest⟩).pos).any isLineBreak = false := by
  rw [Lexeme.skip_append, Lexeme.upTo_of_append (c := ⟨pos, word ++ rest⟩) rfl, hword]

/-- Between tags, only text has line breaks among its characters. -/
theorem any_isLineBreak_readMarkup {c : Cursor} (h : (Lexeme.readMarkup c).kind ≠ .jsxText) :
    (c.upTo (Lexeme.readMarkup c).next.pos).any isLineBreak = false := by
  obtain ⟨pos, rest⟩ := c
  unfold Lexeme.readMarkup at h ⊢
  dsimp only at h ⊢
  split at h
  next => simp [Cursor.upTo, slice?, splitAtByte?]
  next tail => exact any_isLineBreak_skip ['<', '/'] (by decide) pos tail
  next tail _ => exact any_isLineBreak_skip ['<'] (by decide) pos tail
  next tail => exact any_isLineBreak_skip ['{'] (by decide) pos tail
  next => exact absurd rfl h

end Scanner

/-! ### Along a run -/

namespace Grammar

variable {α : Type} {context : Context} {s t : State} {text : List Char} {scanner : Scanner}
  {tokens : List Token}

/-- All consumed tokens are in front of what separates them from the token at hand. If the scanner
says that there is a line break, it is there, unless text between tags is at hand. -/
structure BreaksNoted (text : List Char) (scanner : Scanner) (tokens : List Token) : Prop where
  sound : scanner.Sound text
  behind : ∀ token ∈ tokens, token.stop ≤ scanner.fullStart
  fullStart_le : scanner.fullStart ≤ scanner.start.pos
  noted : scanner.lineBreakBefore = true →
    scanner.kind = .jsxText ∨ BreaksBetween text scanner.fullStart scanner.start.pos

theorem Scan.noted_apply (scan : Scan) (h : (Cursor.ofText text).Ahead scanner.stop)
    (hbroken : (scan.apply scanner).lineBreakBefore = true) :
    (scan.apply scanner).kind = .jsxText ∨
      BreaksBetween text (scan.apply scanner).fullStart (scan.apply scanner).start.pos := by
  cases scan with
  | code | attributeValue => exact Or.inr (Scanner.breaksBetween_toToken h hbroken)
  | markup =>
    by_contra hnot
    have hnone := Scanner.any_isLineBreak_readMarkup fun hkind => hnot (Or.inl hkind)
    exact absurd (hnone.symm.trans hbroken) (by simp)

theorem Scan.fullStart_apply (scan : Scan) (scanner : Scanner) :
    (scan.apply scanner).fullStart = scanner.stop.pos := by
  cases scan <;> rfl

theorem BreaksNoted.advance (h : BreaksNoted text s.scanner s.tokens) (scan : Scan) :
    BreaksNoted text (s.advance scan).scanner (s.advance scan).tokens where
  sound := State.sound_scan scan h.sound
  behind := by
    intro token htoken
    have hstop := h.sound.ahead.pos_le
    have hstart := h.fullStart_le
    rw [State.advance, scan.fullStart_apply]
    -- the token at hand has joined the others
    simp only [State.advance, State.consume] at htoken
    split at htoken
    · rcases List.mem_cons.1 htoken with rfl | htoken
      · exact le_rfl
      · have := h.behind token htoken
        omega
    · have := h.behind token htoken
      omega
  fullStart_le := scan.fullStart_apply s.scanner ▸ State.stop_le_start_scan scan s.scanner
  noted := scan.noted_apply h.sound.reached_stop

/-- Text between tags is not read anew. -/
theorem Rescan.apply_eq_of_text (scan : Rescan) (h : scanner.kind = .jsxText) :
    scan.apply scanner = scanner := by
  have hkeyword : TokenKind.isKeywordToken .jsxText = false := by decide
  cases scan <;> simp [Rescan.apply, Scanner.rescanGreater, Scanner.rescanSlash,
    Scanner.rescanTemplate, Scanner.extendMarkupName, h, hkeyword]

/-- Reading a token anew changes nothing in front of it. -/
theorem Rescan.front_apply (scan : Rescan) (scanner : Scanner) :
    (scan.apply scanner).fullStart = scanner.fullStart ∧
      (scan.apply scanner).lineBreakBefore = scanner.lineBreakBefore := by
  cases scan <;> simp only [Rescan.apply, Scanner.rescanGreater, Scanner.rescanSlash,
    Scanner.rescanTemplate, Scanner.extendMarkupName] <;> repeat' split
  all_goals exact ⟨rfl, rfl⟩

theorem BreaksNoted.rescan (h : BreaksNoted text s.scanner s.tokens) (scan : Rescan) :
    BreaksNoted text (s.rescan scan).scanner (s.rescan scan).tokens := by
  have hsame := State.sameStart_rescan scan h.sound
  obtain ⟨hfull, hbroken⟩ := scan.front_apply s.scanner
  refine ⟨h.sound.of_sameStart hsame, ?_, ?_, ?_⟩
  · exact fun token htoken => hfull ▸ h.behind token htoken
  · show (scan.apply s.scanner).fullStart ≤ (scan.apply s.scanner).start.pos
    rw [hfull, hsame.start_eq]
    exact h.fullStart_le
  · show (scan.apply s.scanner).lineBreakBefore = true → (scan.apply s.scanner).kind = .jsxText ∨
      BreaksBetween text (scan.apply s.scanner).fullStart (scan.apply s.scanner).start.pos
    intro hnoted
    rw [hbroken] at hnoted
    rcases h.noted hnoted with hkind | hbreaks
    · exact Or.inl (by rw [scan.apply_eq_of_text hkind, hkind])
    · rw [hfull, hsame.start_eq]
      exact Or.inr hbreaks

/-- Since an offset was reached with some tokens, no token has been consumed that starts in front of
it, and the earlier ones are still there. -/
structure ConsumesFrom (text : List Char) (offset : ℕ) (older : List Token) (scanner : Scanner)
    (tokens : List Token) : Prop where
  sound : scanner.Sound text
  le : offset ≤ scanner.start.pos
  tokens : ∃ newer, tokens = newer ++ older ∧ ∀ token ∈ newer, offset ≤ token.start

theorem ConsumesFrom.advance {offset : ℕ} {older : List Token}
    (h : ConsumesFrom text offset older s.scanner s.tokens) (scan : Scan) :
    ConsumesFrom text offset older (s.advance scan).scanner (s.advance scan).tokens := by
  refine ⟨State.sound_scan scan h.sound, h.le.trans (State.position_le_advance h.sound scan), ?_⟩
  obtain ⟨newer, htokens, hnewer⟩ := h.tokens
  simp only [State.advance, State.consume]
  split
  · exact ⟨_ :: newer, by rw [htokens, List.cons_append],
      List.forall_mem_cons.2 ⟨h.le, hnewer⟩⟩
  · exact ⟨newer, htokens, hnewer⟩

theorem ConsumesFrom.rescan {offset : ℕ} {older : List Token}
    (h : ConsumesFrom text offset older s.scanner s.tokens) (scan : Rescan) :
    ConsumesFrom text offset older (s.rescan scan).scanner (s.rescan scan).tokens := by
  have hsame := State.sameStart_rescan scan h.sound
  have hstart : (scan.apply s.scanner).start = s.scanner.start := hsame.start_eq
  exact ⟨h.sound.of_sameStart hsame, hstart ▸ h.le, h.tokens⟩

theorem breaksNoted_run {r : Reader α} {n : ℕ} {a : α} (h : BreaksNoted text s.scanner s.tokens)
    (hrun : r.run (rulesWithin n) context s = some (a, t)) :
    BreaksNoted text t.scanner t.tokens :=
  invariant_run (fun _ scan h => h.advance scan) (fun _ scan h => h.rescan scan) h hrun

theorem consumesFrom_run {r : Reader α} {n : ℕ} {a : α} {offset : ℕ} {older : List Token}
    (h : ConsumesFrom text offset older s.scanner s.tokens)
    (hrun : r.run (rulesWithin n) context s = some (a, t)) :
    ConsumesFrom text offset older t.scanner t.tokens :=
  invariant_run (fun _ scan h => h.advance scan) (fun _ scan h => h.rescan scan) h hrun

end Grammar

end ExpectError
