import ExpectError.Proofs.Alignment

/-!
# The token behind a place

What the scanner finds behind a place of a text depends on that place alone. Behind spaces it finds
what is read where they end.

* `Scanner.At`: a token of a kind, and its place;
* `Scanner.behind`: the token behind a place;
* `Scanner.at_behind`: the token behind spaces.
-/

namespace ExpectError

open Cursor Text

/-- A stretch of spaces. -/
def spaces (n : ℕ) : List Char :=
  List.replicate n ' '

/-- A token of a kind that starts and stops somewhere, on the line of the one before it. -/
structure Scanner.At (kind : TokenKind) (start : ℕ) (stop : Cursor) (s : Scanner) : Prop where
  kind_eq : s.kind = kind
  start_eq : s.start.pos = start
  stop_eq : s.stop = stop
  sameLine : s.lineBreakBefore = false

/-- The token behind a place. -/
def Scanner.behind (c : Cursor) : Scanner :=
  Scanner.next { start := c, stop := c }

theorem Scanner.next_eq_behind (s : Scanner) : s.next = behind s.stop :=
  rfl

namespace Cursor

theorem skipTrivia_spaces (broken : Bool) (n pos : ℕ) (cs : List Char) :
    skipTrivia .blank broken pos (spaces n ++ cs) = skipTrivia .blank broken (pos + n) cs := by
  induction n generalizing pos with
  | zero => rfl
  | succ n ih =>
    have hsize : ' '.utf8Size = 1 := rfl
    rw [spaces, List.replicate_succ, List.cons_append, skipTrivia_blank_cons, if_neg (by simp),
      if_neg (by simp), if_neg (by decide), if_pos (by decide), hsize]
    exact (ih (pos + 1)).trans (by rw [Nat.add_assoc, Nat.add_comm 1])

/-- A character that is neither blank nor the first of a comment begins a token. -/
def IsFront (cs : List Char) : Prop :=
  ∃ x xs, cs = x :: xs ∧ isLineBreak x = false ∧ isGap x = false ∧ x ≠ '#' ∧
    (x = '/' → xs.head? ≠ some '/' ∧ xs.head? ≠ some '*')

theorem toToken_spaces {cs : List Char} (hfront : IsFront cs) (pos n : ℕ) :
    toToken { pos, rest := spaces n ++ cs } = ({ pos := pos + n, rest := cs }, false) := by
  obtain ⟨x, xs, rfl, hline, hgap, hhash, hslash⟩ := hfront
  rw [toToken_eq, skipTrivia_spaces, skipTrivia_blank_cons, if_neg fun h => (hslash h.1).1 h.2,
    if_neg fun h => (hslash h.1).2 h.2, if_neg (by simp [hline]), if_neg (by simp [hgap])]
  rintro ⟨-, hbang⟩
  cases n with
  | zero => simp [spaces, Ne.symm hhash] at hbang
  | succ n => simp [spaces, List.replicate_succ] at hbang

end Cursor

/-- Behind spaces, the token is the one that is read there. -/
theorem Scanner.at_behind {cs : List Char} (hfront : IsFront cs) (pos n : ℕ) :
    (behind { pos, rest := spaces n ++ cs }).At (Lexeme.read { pos := pos + n, rest := cs }).kind
      (pos + n) (Lexeme.read { pos := pos + n, rest := cs }).next := by
  have htoken := toToken_spaces hfront pos n
  refine ⟨?_, ?_, ?_, ?_⟩ <;> simp only [behind, next, advance, htoken]

end ExpectError
