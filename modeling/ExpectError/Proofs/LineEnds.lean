import ExpectError.Proofs.SplitLines
import Mathlib.Data.Set.Card

/-!
# The terminators in front of an offset

A line map is made by a search through bytes and is asked by a search through line starts. What it
answers can be said on the characters alone: the line of an offset is the number of terminators that
end at or in front of it, that line starts where the last of these terminators ends, and its
indentation is the longest run of spaces and tabs from there on.

* `TerminatorEnds`: a terminator ends at an offset;
* `mem_lineStarts_iff`: lines start at the beginning and at the ends of terminators;
* `LineMap.line_at_offset`: the line, its start and its indentation for any offset.
-/

namespace ExpectError.Text

/-- A line terminator of the text ends at offset `n`. A carriage return in front of a line feed is
no terminator by itself: the two are one terminator, which ends where the line feed does. -/
def TerminatorEnds (text : List Char) (n : ℕ) : Prop :=
  ∃ before c after, text = before ++ c :: after ∧ n = byteLength before + c.utf8Size ∧
    (c = '\n' ∨ c = '\u2028' ∨ c = '\u2029' ∨ c = '\r' ∧ after.head? ≠ some '\n')

theorem endsLine_iff {c : Char} {after : List Char} :
    endsLine c after = true ↔
      c = '\n' ∨ c = '\u2028' ∨ c = '\u2029' ∨ c = '\r' ∧ after.head? ≠ some '\n' := by
  unfold endsLine isLineBreak
  by_cases hreturn : c = '\r'
  · subst hreturn
    simp
  · simp [hreturn, or_assoc]

theorem terminatorEnds_cons {c : Char} {cs : List Char} {n : ℕ} :
    TerminatorEnds (c :: cs) n ↔
      endsLine c cs = true ∧ n = c.utf8Size ∨ ∃ m, TerminatorEnds cs m ∧ n = c.utf8Size + m := by
  constructor
  · rintro ⟨before, d, after, htext, rfl, hd⟩
    cases before with
    | nil =>
      obtain ⟨rfl, rfl⟩ := List.cons.inj htext
      exact Or.inl ⟨endsLine_iff.2 hd, by simp⟩
    | cons first before =>
      obtain ⟨rfl, rfl⟩ := List.cons.inj htext
      refine Or.inr ⟨_, ⟨before, d, after, rfl, rfl, hd⟩, ?_⟩
      rw [byteLength_cons, Nat.add_assoc]
  · rintro (⟨hend, rfl⟩ | ⟨m, ⟨before, d, after, rfl, rfl, hd⟩, rfl⟩)
    · exact ⟨[], c, cs, rfl, by simp, endsLine_iff.1 hend⟩
    · refine ⟨c :: before, d, after, rfl, ?_, hd⟩
      rw [byteLength_cons, Nat.add_assoc]

theorem mem_lineStartsFrom_iff {pos n : ℕ} {cs : List Char} :
    n ∈ lineStartsFrom pos cs ↔ ∃ m, TerminatorEnds cs m ∧ n = pos + m := by
  induction cs generalizing pos with
  | nil =>
    simp only [lineStartsFrom, List.not_mem_nil, false_iff]
    rintro ⟨m, ⟨before, c, after, htext, -⟩, -⟩
    simp at htext
  | cons c cs ih =>
    have hrest : n ∈ lineStartsFrom (pos + c.utf8Size) cs ↔
        ∃ m, (∃ k, TerminatorEnds cs k ∧ m = c.utf8Size + k) ∧ n = pos + m := by
      rw [ih]
      constructor
      · rintro ⟨m, hm, rfl⟩
        exact ⟨_, ⟨m, hm, rfl⟩, by omega⟩
      · rintro ⟨_, ⟨m, hm, rfl⟩, rfl⟩
        exact ⟨m, hm, by omega⟩
    rw [lineStartsFrom_cons]
    simp only [terminatorEnds_cons, or_and_right, exists_or]
    rw [← hrest]
    by_cases hend : endsLine c cs = true
    · simp [hend]
    · simp [hend]

/-- Lines start at the beginning of a text and at the ends of its terminators. -/
theorem mem_lineStarts_iff {text : List Char} {n : ℕ} :
    n ∈ lineStarts text ↔ n = 0 ∨ TerminatorEnds text n := by
  rw [lineStarts, List.mem_cons, mem_lineStartsFrom_iff]
  simp

namespace LineMap

/-- Counting line starts is counting terminators. -/
theorem lineOf_eq_ncard (text : List Char) (n : ℕ) :
    (ofText text).lineOf n = {stop | TerminatorEnds text stop ∧ stop ≤ n}.ncard := by
  have hnodup : ((lineStartsFrom 0 text).filter fun stop => decide (stop ≤ n)).Nodup :=
    ((pairwise_lineStartsFrom 0 text).imp Nat.ne_of_lt).filter _
  have hset : {stop | TerminatorEnds text stop ∧ stop ≤ n} =
      ↑((lineStartsFrom 0 text).filter fun stop => decide (stop ≤ n)).toFinset := by
    ext stop
    simp [mem_lineStartsFrom_iff]
  rw [hset, Set.ncard_coe_finset, List.toFinset_card_of_nodup hnodup,
    ← List.countP_eq_length_filter, lineOf_eq_countP, starts_ofText, lineStarts,
    List.countP_cons_of_pos (by simp), Nat.add_sub_cancel]

/-- A line starts at the last terminator's end, or at the beginning if there is none. -/
theorem isGreatest_lineStartOf (text : List Char) (n : ℕ) :
    IsGreatest (insert 0 {stop | TerminatorEnds text stop ∧ stop ≤ n})
      ((ofText text).lineStartOf n) := by
  obtain ⟨hmem, hle, hgreatest⟩ := lineStartOf_spec text n
  constructor
  · rcases mem_lineStarts_iff.1 hmem with hzero | hend
    · exact Set.mem_insert_iff.2 (Or.inl hzero)
    · exact Set.mem_insert_iff.2 (Or.inr ⟨hend, hle⟩)
  · rintro stop (rfl | ⟨hend, hstop⟩)
    · exact Nat.zero_le _
    · exact hgreatest stop (mem_lineStarts_iff.2 (Or.inr hend)) hstop

/-- The indentation stands at the start of the line, and something else stands behind it. -/
theorem exists_indentationOf (text : List Char) (n : ℕ) :
    ∃ before rest, text = before ++ ((ofText text).indentationOf n ++ rest) ∧
      byteLength before = (ofText text).lineStartOf n ∧
      (∀ c ∈ (ofText text).indentationOf n, c = ' ' ∨ c = '\t') ∧
      ∀ c, rest.head? = some c → c ≠ ' ' ∧ c ≠ '\t' := by
  obtain ⟨before, line, htext, hbefore⟩ :=
    isBoundary_of_mem_lineStarts (lineStartOf_spec text n).1
  have hindent : (ofText text).indentationOf n = line.takeWhile isIndent := by
    have hparts : splitAtByte? ((ofText text).lineStartOf n) text = some (before, line) :=
      splitAtByte?_eq_some_iff.2 ⟨htext, hbefore⟩
    rw [indentationOf, text_ofText, hparts]
    rfl
  refine ⟨before, line.dropWhile isIndent, ?_, hbefore, ?_, ?_⟩
  · rw [hindent, List.takeWhile_append_dropWhile, htext]
  · intro c hc
    have := isIndent_of_mem_indentationOf hc
    simpa [isIndent] using this
  · intro c hc
    have := List.head?_dropWhile_not isIndent line
    rw [hc] at this
    simpa [isIndent] using this

/-- For any offset, in the text or beyond it: its line is the number of terminators that end at or
in front of it; the line starts where the last of them ends, or at the beginning if there is none;
and the line's indentation is the longest run of spaces and tabs from there on, no character being
cut. -/
theorem line_at_offset (text : List Char) (n : ℕ) :
    (ofText text).lineOf n = {stop | TerminatorEnds text stop ∧ stop ≤ n}.ncard ∧
      IsGreatest (insert 0 {stop | TerminatorEnds text stop ∧ stop ≤ n})
        ((ofText text).lineStartOf n) ∧
      ∃ before rest, text = before ++ ((ofText text).indentationOf n ++ rest) ∧
        byteLength before = (ofText text).lineStartOf n ∧
        (∀ c ∈ (ofText text).indentationOf n, c = ' ' ∨ c = '\t') ∧
        ∀ c, rest.head? = some c → c ≠ ' ' ∧ c ≠ '\t' :=
  ⟨lineOf_eq_ncard text n, isGreatest_lineStartOf text n, exists_indentationOf text n⟩

end LineMap

end ExpectError.Text
