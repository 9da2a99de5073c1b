import ExpectError.Shell.Quote
import ExpectError.Shell.Script
import Mathlib.Tactic

/-!
# Words as they are written

In a script a text can be written in several ways. A backslash takes the meaning from the character
behind it, single quotes from all that is between them, and double quotes from all but a few
characters. So a part of a script stands for a text, and the reader of scripts makes one word of it in
which every character stands for itself.

* `StandsFor`: the rules, without a reader;
* `IsRead`: a part of a script is read as a word, wherever a word can begin;
* `StandsFor.exists_word`: what stands for a text is read as one word with that text;
* `standsFor_quote`: a quotation stands for the text that is quoted.
-/

namespace ExpectError.Shell

/-- Has a character no meaning of its own, wherever in a word it stands? -/
def IsPlain (c : Char) : Prop :=
  c ∉ [' ', '\t', '\n', ';', '&', '|', '<', '>', '(', ')', '\'', '"', '\\', '$', '\x60', '*', '?',
    '[', '#', '~']

instance (c : Char) : Decidable (IsPlain c) :=
  inferInstanceAs (Decidable (_ ∉ _))

/-- A part of a script stands for a text. -/
inductive StandsFor : List Char → List Char → Prop
  | nil : StandsFor [] []
  | plain {c : Char} {script text : List Char} (plain : IsPlain c) (behind : StandsFor script text) :
      StandsFor (c :: script) (c :: text)
  /-- A line feed behind a backslash is no character but joins two lines. -/
  | escaped {c : Char} {script text : List Char} (ne : c ≠ '\n') (behind : StandsFor script text) :
      StandsFor ('\\' :: c :: script) (c :: text)
  | quoted {inner script text : List Char} (notMem : '\'' ∉ inner)
      (behind : StandsFor script text) :
      StandsFor ('\'' :: (inner ++ '\'' :: script)) (inner ++ text)
  | doubled {inner script text : List Char}
      (notMem : ∀ c ∈ inner, c ∉ ['"', '\\', '$', '\x60']) (behind : StandsFor script text) :
      StandsFor ('"' :: (inner ++ '"' :: script)) (inner ++ text)

/-- Does a piece stand for itself? -/
def Piece.IsFixed : Piece → Prop
  | .mark => True
  | .char c quoted => quoted = true ∨ IsPlain c
  | _ => False

/-- Every piece of the word stands for itself, and together they are the text. -/
structure Word.Denotes (word : Word) (text : List Char) : Prop where
  isFixed : ∀ piece ∈ word, piece.IsFixed
  literal?_eq : word.literal? = some text

/-- The source behind a part of the script, with what is left of it. -/
def Source.past (s : Source) (front rest : List Char) : Source :=
  { s with rest, line := s.line + front.count '\n' }

variable {α β : Type} {n : ℕ} {s : Source} {t : Source} {c : Char}
  {script text front rest inner : List Char} {word other : Word} {zone : Reads.Zone}

/-! ### Words of characters -/

namespace Word

theorem literal?_ofText_append (inner : List Char) (quoted : Bool) (word : Word) :
    literal? (ofText inner quoted ++ word) = (literal? word).map (inner ++ ·) := by
  induction inner with
  | nil => simp [ofText]
  | cons c inner ih =>
    change (literal? (ofText inner quoted ++ word)).map (c :: ·) = _
    rw [ih, Option.map_map]
    rfl

theorem Denotes.nil : Denotes [] [] := ⟨by simp, rfl⟩

theorem Denotes.char {quoted : Bool} (hc : quoted = true ∨ IsPlain c) (h : Denotes word text) :
    Denotes (.char c quoted :: word) (c :: text) where
  isFixed := List.forall_mem_cons.2 ⟨hc, h.isFixed⟩
  literal?_eq := by rw [literal?, h.literal?_eq, Option.map_some]

theorem Denotes.quotation (inner : List Char) (h : Denotes word text) :
    Denotes (.mark :: ofText inner true ++ word) (inner ++ text) where
  isFixed := by
    have hinner : ∀ piece ∈ ofText inner true, piece.IsFixed := by
      intro piece hpiece
      obtain ⟨c, -, rfl⟩ := List.mem_map.1 hpiece
      exact Or.inl rfl
    exact List.forall_mem_cons.2 ⟨trivial, List.forall_mem_append.2 ⟨hinner, h.isFixed⟩⟩
  literal?_eq := by
    change literal? (ofText inner true ++ word) = _
    rw [literal?_ofText_append, h.literal?_eq, Option.map_some]

end Word

namespace Reads

/-! ### Steps of the reader -/

theorem run_rest_bind (f : List Char → Reads α) (s : Source) (front rest : List Char) :
    (Reads.rest >>= f).run (s.past front rest) = (f rest).run (s.past front rest) := rfl

theorem run_skip_bind (f : Unit → Reads α) (s : Source) (front passed rest : List Char) :
    (skip passed.length >>= f).run (s.past front (passed ++ rest)) =
      (f ()).run (s.past (front ++ passed) rest) := by
  have hskip : (skip passed.length >>= f).run (s.past front (passed ++ rest)) = (f ()).run
      { s.past front (passed ++ rest) with
        rest := (passed ++ rest).drop passed.length
        line := (s.past front (passed ++ rest)).line +
          ((passed ++ rest).take passed.length).count '\n' } := rfl
  rw [hskip, List.drop_left, List.take_left]
  simp only [Source.past, List.count_append, Nat.add_assoc]

theorem run_bind_of_ok {r : Reads α} {a : α} (h : r.run s = .ok (a, t)) (f : α → Reads β) :
    (r >>= f).run s = (f a).run t := by
  rw [StateT.run_bind, h]
  rfl

/-- A word ends at the end of the script and in front of some characters. -/
theorem readPieces_end (h : ∀ c ∈ rest.head?, endsWord c = true) :
    (readPieces (n + 1) .plain).run (s.past front rest) = .ok ([], s.past front rest) := by
  have hstop : Zone.plain.stop? rest = some 0 := by
    cases rest with
    | nil => rfl
    | cons c rest => simp [Zone.stop?, h c rfl]
  simp only [readPieces, run_rest_bind, hstop]
  exact (run_skip_bind _ s front [] rest).trans (by rw [List.append_nil]; rfl)

/-- A character without a meaning in a zone. -/
theorem readPieces_char (hzone : zone = .plain ∨ zone = .double)
    (hstop : zone.stop? (c :: rest) = none) (hc : c ∉ ['\\', '$', '\x60', '"'])
    (hquote : c = '\'' → zone = .double)
    (h : (readPieces n zone).run (s.past (front ++ [c]) rest) = .ok (word, t)) :
    (readPieces (n + 1) zone).run (s.past front (c :: rest)) =
      .ok (.char c zone.isQuoted :: word, t) := by
  simp only [List.mem_cons, List.not_mem_nil, or_false, not_or] at hc
  obtain ⟨hbackslash, hdollar, hback, hdouble⟩ := hc
  have hafter : zone.after c = zone := by
    rcases hzone with rfl | rfl <;> rfl
  rw [readPieces, run_rest_bind, hstop]
  · dsimp only
    split
    next heq => cases heq
    next heq => exact absurd (List.cons.inj heq).1 hbackslash
    next heq => exact absurd (List.cons.inj heq).1 hbackslash
    next heq => exact absurd (List.cons.inj heq).1 hdollar
    next heq => exact absurd (List.cons.inj heq).1 hback
    next heq => exact absurd (List.cons.inj heq).1 hdouble
    next heq =>
      obtain ⟨rfl, rfl⟩ := List.cons.inj heq
      obtain rfl := hquote rfl
      exact (run_skip_bind _ s front ['\''] rest).trans (run_bind_of_ok h _)
    next heq =>
      obtain ⟨rfl, rfl⟩ := List.cons.inj heq
      rw [hafter]
      exact (run_skip_bind _ s front [c] rest).trans (run_bind_of_ok h _)
  · rintro depth rfl
    simp at hzone
  · rintro inDouble rfl
    simp at hzone

/-- Between double quotes most characters stand for themselves. -/
theorem readPieces_double (hinner : ∀ c ∈ inner, c ∉ ['"', '\\', '$', '\x60'])
    (hn : inner.length < n) :
    (readPieces n .double).run (s.past front (inner ++ '"' :: rest)) =
      .ok (Word.ofText inner true, s.past (front ++ inner ++ ['"']) rest) := by
  induction inner generalizing n front with
  | nil =>
    obtain ⟨n, rfl⟩ := Nat.exists_eq_add_one.2 hn
    simp only [readPieces, run_rest_bind, List.append_nil]
    exact run_skip_bind _ s front ['"'] rest
  | cons c inner ih =>
    obtain ⟨hc, hinner⟩ := List.forall_mem_cons.1 hinner
    obtain ⟨n, rfl⟩ := Nat.exists_eq_add_one.2 (Nat.zero_lt_of_lt hn)
    simp only [List.mem_cons, List.not_mem_nil, or_false, not_or] at hc
    have hstop : Zone.double.stop? (c :: (inner ++ '"' :: rest)) = none := by
      simp [Zone.stop?, hc]
    have hbehind := @ih n (front ++ [c]) hinner (by simpa using hn)
    rw [List.append_assoc front, List.singleton_append] at hbehind
    exact readPieces_char (Or.inr rfl) hstop (by simp [hc]) (fun _ => rfl) hbehind

/-- A character without a meaning of its own. -/
theorem readPieces_plain (hc : IsPlain c)
    (h : (readPieces n .plain).run (s.past (front ++ [c]) rest) = .ok (word, t)) :
    (readPieces (n + 1) .plain).run (s.past front (c :: rest)) = .ok (.char c false :: word, t) := by
  simp only [IsPlain, List.mem_cons, List.not_mem_nil, or_false, not_or] at hc
  have hstop : Zone.plain.stop? (c :: rest) = none := by
    simp [Zone.stop?, endsWord, hc]
  exact readPieces_char (Or.inl rfl) hstop (by simp [hc])
    (fun hquote => absurd hquote (by simp [hc])) h

/-- A backslash takes the meaning from the next character. -/
theorem readPieces_escaped (hc : c ≠ '\n')
    (h : (readPieces n .plain).run (s.past (front ++ ['\\', c]) rest) = .ok (word, t)) :
    (readPieces (n + 1) .plain).run (s.past front ('\\' :: c :: rest)) =
      .ok (.char c true :: word, t) := by
  simp only [readPieces, run_rest_bind]
  exact (run_skip_bind _ s front ['\\', c] rest).trans (run_bind_of_ok h _)

theorem splitQuote_append {quote : Char} (h : quote ∉ inner) (rest : List Char) :
    splitQuote quote (inner ++ quote :: rest) = some (inner, rest) := by
  induction inner with
  | nil => exact if_pos rfl
  | cons c inner ih =>
    obtain ⟨hc, hinner⟩ := not_or.1 (List.mem_cons.not.1 h)
    rw [List.cons_append, splitQuote, if_neg (Ne.symm hc), ih hinner]
    rfl

/-- Single quotes take the meaning from everything between them. -/
theorem readPieces_quoted (hinner : '\'' ∉ inner)
    (h : (readPieces n .plain).run (s.past (front ++ '\'' :: (inner ++ ['\''])) rest) =
      .ok (word, t)) :
    (readPieces (n + 1) .plain).run (s.past front ('\'' :: (inner ++ '\'' :: rest))) =
      .ok (.mark :: Word.ofText inner true ++ word, t) := by
  have hskip := run_skip_bind (fun _ => do
      return .mark :: Word.ofText inner true ++ (← readPieces n .plain))
    s front ('\'' :: (inner ++ ['\''])) rest
  rw [List.cons_append, List.append_assoc, List.singleton_append, List.length_cons,
    List.length_append, List.length_singleton] at hskip
  simp only [readPieces, run_rest_bind, splitQuote_append hinner]
  exact hskip.trans (run_bind_of_ok h _)

/-- Double quotes take the meaning from most of the characters between them. -/
theorem readPieces_doubled (hinner : ∀ c ∈ inner, c ∉ ['"', '\\', '$', '\x60'])
    (hn : inner.length < n)
    (h : (readPieces n .plain).run (s.past (front ++ '"' :: (inner ++ ['"'])) rest) =
      .ok (word, t)) :
    (readPieces (n + 1) .plain).run (s.past front ('"' :: (inner ++ '"' :: rest))) =
      .ok (.mark :: Word.ofText inner true ++ word, t) := by
  have hpieces := @readPieces_double n s (front ++ ['"']) rest inner hinner hn
  rw [List.append_assoc front, List.singleton_append, List.append_assoc front,
    List.cons_append] at hpieces
  simp only [readPieces, run_rest_bind]
  refine (run_skip_bind _ s front ['"'] (inner ++ '"' :: rest)).trans ?_
  exact (run_bind_of_ok hpieces _).trans (run_bind_of_ok h _)

end Reads

/-! ### Reading what stands for a text -/

/-- Wherever a word can begin, the script is read as the word, if the word ends there. -/
def IsRead (script : List Char) (word : Word) : Prop :=
  ∀ ⦃n : ℕ⦄ ⦃s : Source⦄ ⦃front rest : List Char⦄, script.length < n →
    (∀ c ∈ rest.head?, Reads.endsWord c = true) →
    (Reads.readPieces n .plain).run (s.past front (script ++ rest)) =
      .ok (word, s.past (front ++ script) rest)

namespace IsRead

/-- A part of a script cannot be read as two words. -/
theorem unique (h : IsRead script word) (hother : IsRead script other) : word = other := by
  have hrun := @h (script.length + 1) { rest := [] } [] [] (Nat.lt_succ_self _) (by simp)
  rw [hother (Nat.lt_succ_self _) (by simp)] at hrun
  cases hrun
  rfl

theorem nil : IsRead [] [] := by
  intro n s front rest hn hrest
  obtain ⟨n, rfl⟩ := Nat.exists_eq_add_one.2 hn
  rw [List.append_nil]
  exact Reads.readPieces_end hrest

theorem plain (h : IsRead script word) (hc : IsPlain c) :
    IsRead (c :: script) (.char c false :: word) := by
  intro n s front rest hn hrest
  obtain ⟨n, rfl⟩ := Nat.exists_eq_add_one.2 (Nat.zero_lt_of_lt hn)
  have hbehind := @h n s (front ++ [c]) rest (by simpa using hn) hrest
  rw [List.append_assoc front, List.singleton_append] at hbehind
  exact Reads.readPieces_plain hc hbehind

theorem escaped (h : IsRead script word) (hc : c ≠ '\n') :
    IsRead ('\\' :: c :: script) (.char c true :: word) := by
  intro n s front rest hn hrest
  obtain ⟨n, rfl⟩ := Nat.exists_eq_add_one.2 (Nat.zero_lt_of_lt hn)
  simp only [List.length_cons] at hn
  have hbehind := @h n s (front ++ ['\\', c]) rest (by omega) hrest
  rw [List.append_assoc front] at hbehind
  exact Reads.readPieces_escaped hc hbehind

theorem quoted (h : IsRead script word) (hinner : '\'' ∉ inner) :
    IsRead ('\'' :: (inner ++ '\'' :: script)) (.mark :: Word.ofText inner true ++ word) := by
  intro n s front rest hn hrest
  obtain ⟨n, rfl⟩ := Nat.exists_eq_add_one.2 (Nat.zero_lt_of_lt hn)
  simp only [List.length_cons, List.length_append] at hn
  have hbehind := @h n s (front ++ '\'' :: (inner ++ ['\''])) rest (by omega) hrest
  rw [List.append_assoc front, List.cons_append, List.append_assoc inner] at hbehind
  rw [List.cons_append, List.append_assoc]
  exact Reads.readPieces_quoted hinner hbehind

theorem doubled (h : IsRead script word) (hinner : ∀ c ∈ inner, c ∉ ['"', '\\', '$', '\x60']) :
    IsRead ('"' :: (inner ++ '"' :: script)) (.mark :: Word.ofText inner true ++ word) := by
  intro n s front rest hn hrest
  obtain ⟨n, rfl⟩ := Nat.exists_eq_add_one.2 (Nat.zero_lt_of_lt hn)
  simp only [List.length_cons, List.length_append] at hn
  have hbehind := @h n s (front ++ '"' :: (inner ++ ['"'])) rest (by omega) hrest
  rw [List.append_assoc front, List.cons_append, List.append_assoc inner] at hbehind
  rw [List.cons_append, List.append_assoc]
  exact Reads.readPieces_doubled hinner (by omega) hbehind

end IsRead

/-- What stands for a text is read as one word, in which every character stands for itself. -/
theorem StandsFor.exists_word (h : StandsFor script text) :
    ∃ word : Word, IsRead script word ∧ word.Denotes text ∧ (word = [] → script = []) := by
  induction h with
  | nil => exact ⟨[], .nil, .nil, fun _ => rfl⟩
  | plain hc _ ih =>
    obtain ⟨word, hread, hword, -⟩ := ih
    exact ⟨_, hread.plain hc, hword.char (Or.inr hc), by simp⟩
  | escaped hc _ ih =>
    obtain ⟨word, hread, hword, -⟩ := ih
    exact ⟨_, hread.escaped hc, hword.char (Or.inl rfl), by simp⟩
  | quoted hinner _ ih =>
    obtain ⟨word, hread, hword, -⟩ := ih
    exact ⟨_, hread.quoted hinner, hword.quotation _, by simp⟩
  | doubled hinner _ ih =>
    obtain ⟨word, hread, hword, -⟩ := ih
    exact ⟨_, hread.doubled hinner, hword.quotation _, by simp⟩

/-- A part of a script stands for one text at most. -/
theorem StandsFor.unique {behind : List Char} (h : StandsFor script text)
    (hother : StandsFor script behind) : text = behind := by
  obtain ⟨word, hread, hword, -⟩ := h.exists_word
  obtain ⟨other, hread', hword', -⟩ := hother.exists_word
  obtain rfl := hread.unique hread'
  exact Option.some.inj (hword.literal?_eq.symm.trans hword'.literal?_eq)

/-! ### Quotations -/

/-- The rest of a quotation, behind quotes that are open already. -/
theorem standsFor_quoteInner (h : '\'' ∉ inner) (text : List Char) :
    StandsFor ('\'' :: (inner ++ (quoteInner text ++ ['\'']))) (inner ++ text) := by
  induction text generalizing inner with
  | nil => exact .quoted h .nil
  | cons c text ih =>
    by_cases hc : c = '\''
    · subst hc
      -- the quotes are closed and opened again, with nothing between them
      have hopened : StandsFor ('\'' :: (quoteInner text ++ ['\''])) text :=
        @ih [] List.not_mem_nil
      exact .quoted h (.escaped (by decide) hopened)
    · have hinner : '\'' ∉ inner ++ [c] := by
        simpa [h] using Ne.symm hc
      have hquote : quoteInner (c :: text) = c :: quoteInner text := by
        rw [quoteInner]
        exact hc
      rw [hquote, List.cons_append, List.append_cons inner c (quoteInner text ++ ['\'']),
        List.append_cons inner c text]
      exact ih hinner

/-- A quotation stands for the text that is quoted, whatever that is. -/
theorem standsFor_quote (text : List Char) : StandsFor (quote text) text :=
  @standsFor_quoteInner [] List.not_mem_nil text

end ExpectError.Shell
