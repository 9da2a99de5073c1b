import ExpectError.Checker.Report
import Mathlib.Tactic

/-!
# Escape sequences

A coloured text is made of stretches of plain text and of escape sequences between them. The reader of
reports goes by the characters and knows of two modes, inside of a sequence and outside. It takes away
the sequences and nothing else; and of a text in which sequences are not complete it makes one without
escape characters too.

* `Coloured`: a stretch of plain text, or an escape sequence;
* `stripEscapes_written`: the plain text is what is left of a coloured one;
* `stripEscapes_leaves_shown`: this, and what is left of any text at all.
-/

namespace ExpectError

/-- The character that escape sequences begin with. -/
def escapeChar : Char := '\x1b'

/-- A part of a coloured text. -/
inductive Coloured where
  /-- Plain text, which has no escape character in it. -/
  | plain (text : List Char) (notMem : escapeChar ∉ text)
  /-- An escape sequence. Its last character is the first one of U+0040 to U+007E in it. -/
  | sequence (inner : List Char) (last : Char)
      (inner_outside : ∀ c ∈ inner, ¬ (0x40 ≤ c.toNat ∧ c.toNat ≤ 0x7e))
      (last_inside : 0x40 ≤ last.toNat ∧ last.toNat ≤ 0x7e)

namespace Coloured

/-- The part as it stands in a report. -/
def written : Coloured → List Char
  | plain text _ => text
  | sequence inner last _ _ => escapeChar :: '[' :: inner ++ [last]

/-- What a terminal shows of the part. -/
def shown : Coloured → List Char
  | plain text _ => text
  | sequence _ _ _ _ => []

end Coloured

variable {cs inner rest : List Char} {c last : Char}

theorem endsSequence_iff : endsSequence c = true ↔ 0x40 ≤ c.toNat ∧ c.toNat ≤ 0x7e := by
  simp only [endsSequence, Bool.and_eq_true, decide_eq_true_eq, Char.le_def, UInt32.le_iff_toNat_le]
  rfl

/-! ### One part -/

/-- Text without escape characters stays. -/
theorem stripEscapesFrom_append (h : escapeChar ∉ cs) (rest : List Char) :
    stripEscapesFrom false (cs ++ rest) = cs ++ stripEscapesFrom false rest := by
  induction cs with
  | nil => rfl
  | cons c cs ih =>
    obtain ⟨hc, hcs⟩ := not_or.1 (List.mem_cons.not.1 h)
    have hstep : stripEscapesFrom false (c :: (cs ++ rest)) =
        c :: stripEscapesFrom false (cs ++ rest) := by
      rw [stripEscapesFrom]
      · exact fun more hescape _ => hc hescape.symm
      · exact fun hescape => hc hescape.symm
    rw [List.cons_append, hstep, ih hcs, List.cons_append]

/-- What is inside of a sequence goes away, with the character that ends it. -/
theorem stripEscapesFrom_inner (hinner : ∀ c ∈ inner, endsSequence c = false)
    (hlast : endsSequence last = true) (rest : List Char) :
    stripEscapesFrom true (inner ++ last :: rest) = stripEscapesFrom false rest := by
  induction inner with
  | nil => rw [List.nil_append, stripEscapesFrom, hlast, Bool.not_true]
  | cons c inner ih =>
    obtain ⟨hc, hinner⟩ := List.forall_mem_cons.1 hinner
    rw [List.cons_append, stripEscapesFrom, hc, Bool.not_false, ih hinner]

theorem Coloured.stripEscapesFrom_written (part : Coloured) (rest : List Char) :
    stripEscapesFrom false (part.written ++ rest) = part.shown ++ stripEscapesFrom false rest := by
  cases part with
  | plain text notMem => exact stripEscapesFrom_append notMem rest
  | sequence inner last inner_outside last_inside =>
    have hinner : ∀ c ∈ inner, endsSequence c = false := fun c hc =>
      Bool.eq_false_iff.2 fun hends => inner_outside c hc (endsSequence_iff.1 hends)
    have hstep := stripEscapesFrom_inner hinner (endsSequence_iff.2 last_inside) rest
    simpa [written, shown, stripEscapesFrom, escapeChar] using hstep

/-! ### Whole texts -/

/-- Plain text is what is left of a coloured one. -/
theorem stripEscapes_written (parts : List Coloured) :
    stripEscapes (parts.flatMap Coloured.written) = parts.flatMap Coloured.shown := by
  induction parts with
  | nil => rfl
  | cons part parts ih =>
    rw [List.flatMap_cons, List.flatMap_cons, stripEscapes, part.stripEscapesFrom_written]
    exact congrArg (part.shown ++ ·) ih

theorem stripEscapes_eq_self (h : escapeChar ∉ cs) : stripEscapes cs = cs := by
  simpa [Coloured.written, Coloured.shown] using stripEscapes_written [.plain cs h]

theorem escapeChar_notMem_stripEscapesFrom (inside : Bool) (cs : List Char) :
    escapeChar ∉ stripEscapesFrom inside cs := by
  fun_induction stripEscapesFrom inside cs with
  | case1 => exact List.not_mem_nil
  | case2 c cs ih => exact ih
  | case3 cs ih => exact ih
  | case4 cs _ ih => exact ih
  | case5 c cs _ hescape ih =>
    rw [List.mem_cons, not_or]
    exact ⟨fun heq => hescape heq.symm, ih⟩

theorem sublist_stripEscapesFrom (inside : Bool) (cs : List Char) :
    (stripEscapesFrom inside cs).Sublist cs := by
  fun_induction stripEscapesFrom inside cs with
  | case1 => exact .slnil
  | case2 c cs ih => exact ih.cons c
  | case3 cs ih => exact (ih.cons _).cons _
  | case4 cs _ ih => exact ih.cons _
  | case5 c cs _ _ ih => exact ih.cons_cons c

/-- Of a coloured text the plain text is left, whatever sequences stand where. Of any text there is
left a part of its characters in their order, without escape characters, so that there is nothing to
be taken away from it again. -/
theorem stripEscapes_leaves_shown :
    (∀ parts : List Coloured,
      stripEscapes (parts.flatMap Coloured.written) = parts.flatMap Coloured.shown) ∧
    ∀ cs, escapeChar ∉ stripEscapes cs ∧ (stripEscapes cs).Sublist cs ∧
      stripEscapes (stripEscapes cs) = stripEscapes cs := by
  refine ⟨stripEscapes_written, fun cs => ?_⟩
  have hnone : escapeChar ∉ stripEscapes cs := escapeChar_notMem_stripEscapesFrom false cs
  exact ⟨hnone, sublist_stripEscapesFrom false cs, stripEscapes_eq_self hnone⟩

end ExpectError
