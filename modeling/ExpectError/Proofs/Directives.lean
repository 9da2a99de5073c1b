import ExpectError.Directive
import ExpectError.Text.Lines
import Mathlib.Tactic

/-!
# The characters of a directive

A directive consists of fixed words and the digits of its code, so it stays on one line.
-/

namespace ExpectError.Directive

open Text

/-- The characters of the fixed words of all directives. -/
def frame : List Char :=
  "\x7b/* @ts-expect-error ratchet TS (jscodeshift ts-morph) */\x7d".toList

variable {code : ℕ} {pass : Pass}

theorem toList_words : (words code pass).toList =
    mark.toList ++ " ratchet TS".toList ++ (Nat.toDigits 10 code) ++ " (".toList ++
      pass.tag.toList ++ ")".toList := by
  rw [← Nat.toList_repr, ← Nat.toString_eq_repr]
  simp only [words, String.toList_append]
  rfl

theorem mem_frame {word : List Char} (hword : word.all frame.contains = true) {c : Char}
    (h : c ∈ word) : c ∈ frame := by
  simpa using List.all_eq_true.1 hword c h

theorem mem_words {c : Char} (h : c ∈ (words code pass).toList) :
    c ∈ frame ∨ c.isDigit = true := by
  have htag : pass.tag.toList.all frame.contains = true := by
    cases pass <;> decide
  rw [toList_words] at h
  simp only [List.mem_append] at h
  rcases h with ((((h | h) | h) | h) | h) | h
  · exact Or.inl (mem_frame (by decide) h)
  · exact Or.inl (mem_frame (by decide) h)
  · exact Or.inr (Nat.isDigit_of_mem_toDigits (by decide) (by decide) h)
  · exact Or.inl (mem_frame (by decide) h)
  · exact Or.inl (mem_frame htag h)
  · exact Or.inl (mem_frame (by decide) h)

theorem mem_lineComment {c : Char} (h : c ∈ (lineComment code pass).toList) :
    c ∈ frame ∨ c.isDigit = true := by
  rw [lineComment, String.toList_append, List.mem_append] at h
  rcases h with h | h
  · exact Or.inl (mem_frame (by decide) h)
  · exact mem_words h

theorem mem_markupComment {c : Char} (h : c ∈ (markupComment code).toList) :
    c ∈ frame ∨ c.isDigit = true := by
  rw [markupComment, String.toList_append, String.toList_append, List.mem_append,
    List.mem_append] at h
  rcases h with (h | h) | h
  · exact Or.inl (mem_frame (by decide) h)
  · exact mem_words h
  · exact Or.inl (mem_frame (by decide) h)

/-- Neither the fixed words nor the digits end a line. -/
theorem isLineBreak_eq_false {c : Char} (h : c ∈ frame ∨ c.isDigit = true) :
    isLineBreak c = false := by
  have hframe : frame.all (fun d => !isLineBreak d) = true := by decide
  rcases h with h | h
  · simpa using List.all_eq_true.1 hframe c h
  · have hne : ∀ d : Char, d.isDigit = false → c ≠ d := by
      rintro d hd rfl
      simp [h] at hd
    simp [isLineBreak, hne '\n' rfl, hne '\r' rfl, hne '\u2028' rfl, hne '\u2029' rfl]

end ExpectError.Directive
