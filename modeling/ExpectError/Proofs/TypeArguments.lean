import ExpectError.Proofs.Alignment
import ExpectError.Proofs.Equations
import ExpectError.Proofs.HaltingProductions
import ExpectError.Proofs.Trivia

/-!
# The end of type arguments in an expression

The scanner finds a `>` as a token of its own, whatever stands behind it, and type arguments end at
such a token without its being joined with what follows. What keeps the first character of a longer
operator from ending them is the token behind it alone: another `>` is refused. Tokens that begin with
`=` are not, and so `>=` ends type arguments.

* `Scanner.IsSign`: a `>` is one character;
* `run_typeArgumentsInExpression`: type arguments as a list and what follows it;
* `typeArgumentsInExpression_closing`: what can stand behind the `>` that closes type arguments.
-/

namespace ExpectError

open Cursor Text

/-! ### A sign that is one character -/

namespace Lexeme

theorem eq_of_mem_marks_of_greaterThan :
    ∀ mark ∈ marks, mark.2 = .greaterThan → mark.1 = ">" := by
  decide

theorem ne_greaterThan_of_mem_keywords :
    ∀ keyword ∈ TokenKind.keywords, keyword.2 ≠ .greaterThan := by
  decide

/-- A lexeme at a cursor is a `>` only if it is this one character. -/
def IsSign (c : Cursor) (lexeme : Lexeme) : Prop :=
  lexeme.kind = .greaterThan →
    ∃ rest, c.rest = '>' :: rest ∧ lexeme.next = { pos := c.pos + 1, rest }

variable {c : Cursor}

theorem isSign_of_ne {lexeme : Lexeme} (h : lexeme.kind ≠ .greaterThan) : lexeme.IsSign c :=
  fun hkind => absurd hkind h

theorem isSign_readMark (c : Cursor) : (readMark c).IsSign c := by
  unfold readMark
  split
  · exact isSign_of_ne (by simp)
  · split
    next mark kind hfind =>
      intro hkind
      have hmark : mark = ">" :=
        eq_of_mem_marks_of_greaterThan _ (List.mem_of_find?_eq_some hfind) hkind
      have hbegins := List.find?_some hfind
      obtain ⟨pos, cs⟩ := c
      cases cs with
      | nil => simp [beginsWithMark, hmark] at hbegins
      | cons x cs =>
        obtain rfl : '>' = x := by simpa [beginsWithMark, hmark] using hbegins
        have hsize : '>'.utf8Size = 1 := rfl
        exact ⟨cs, rfl, by simp [hmark, skip, hsize]⟩
    · exact isSign_of_ne (by simp)

theorem isSign_readNumber (c : Cursor) : (readNumber c).IsSign c := by
  refine isSign_of_ne ?_
  unfold readNumber
  dsimp only
  split <;> simp

theorem isSign_read (c : Cursor) : (read c).IsSign c := by
  unfold read
  split
  · exact isSign_of_ne (by simp)
  · split_ifs
    · exact isSign_of_ne (kind_readIdentifier_ne ne_greaterThan_of_mem_keywords (by simp) (by simp))
    · exact isSign_readNumber c
    · exact isSign_of_ne (by simp [readString])
    · exact isSign_of_ne (kind_readTemplateHead_ne (by decide) (by decide) _)
    · exact isSign_readNumber c
    · unfold readHash
      split
      · split
        · exact isSign_of_ne (by simp)
        · exact isSign_readMark c
      · exact isSign_readMark c
    · exact isSign_readMark c

theorem isSign_readAttributeValue (c : Cursor) : (readAttributeValue c).IsSign c := by
  unfold readAttributeValue
  split
  · split_ifs
    · exact isSign_of_ne (by simp)
    · exact isSign_read c
  · exact isSign_read c

theorem isSign_readMarkup (c : Cursor) : (readMarkup c).IsSign c := by
  refine isSign_of_ne ?_
  unfold readMarkup
  split <;> simp

/-- Whatever follows, a `>` is a token. -/
theorem kind_read_greaterThan (pos : ℕ) (rest : List Char) :
    (read { pos, rest := '>' :: rest }).kind = .greaterThan := by
  have halpha : isAlphabetic '>' = false := by decide
  simp [read, readMark, marks, beginsWithMark, isIdentifierStart, halpha]

/-- The tokens that begin with `=`. -/
def equalsMarks : List TokenKind :=
  [.equals, .equalsEquals, .equalsEqualsEquals, .equalsGreaterThan]

theorem mem_equalsMarks_of_mem_marks :
    ∀ mark ∈ marks, mark.1.toList.head? = some '=' → mark.2 ∈ equalsMarks := by
  decide

theorem kind_read_equals (pos : ℕ) (rest : List Char) :
    (read { pos, rest := '=' :: rest }).kind ∈ equalsMarks := by
  have halpha : isAlphabetic '=' = false := by decide
  have hread : read { pos, rest := '=' :: rest } = readMark { pos, rest := '=' :: rest } := by
    simp [read, isIdentifierStart, halpha]
  rw [hread, readMark, if_neg (by simp)]
  split
  next mark kind hfind =>
    have hmem := List.mem_of_find?_eq_some hfind
    have hbegins := List.find?_some hfind
    refine mem_equalsMarks_of_mem_marks _ hmem ?_
    have hne := length_pos_of_mem_marks _ hmem
    cases hmark : mark.toList with
    | nil => simp [hmark] at hne
    | cons x xs => simp_all [beginsWithMark]
  next hnone =>
    have hequals := List.find?_eq_none.1 hnone ("=", .equals) (by decide)
    simp [beginsWithMark] at hequals

end Lexeme

namespace Scanner

/-- If the token is a `>`, then it is this one character. -/
def IsSign (s : Scanner) : Prop :=
  s.kind = .greaterThan →
    ∃ rest, s.start.rest = '>' :: rest ∧ s.stop = { pos := s.start.pos + 1, rest }

end Scanner

namespace Grammar

variable {α : Type} {context : Context} {s t u : State} {text : List Char} {n : ℕ}

theorem Scan.isSign_apply (scan : Scan) (scanner : Scanner) : (scan.apply scanner).IsSign := by
  cases scan with
  | code => exact Lexeme.isSign_read _
  | attributeValue => exact Lexeme.isSign_readAttributeValue _
  | markup => exact Lexeme.isSign_readMarkup _

/-- Joined with what follows, a `>` is of another kind. -/
theorem Rescan.isSign_apply (scan : Rescan) {scanner : Scanner} (h : scanner.IsSign) :
    (scan.apply scanner).IsSign := by
  intro hkind
  cases scan with
  | greater =>
    simp only [apply, Scanner.rescanGreater] at hkind ⊢
    split at hkind
    next hgreater =>
      rw [if_pos hgreater]
      split at hkind
      next ending kind hfind =>
        have hne : ∀ ending ∈ Scanner.greaterEndings, ending.2 ≠ .greaterThan := by decide
        exact absurd hkind (hne _ (List.mem_of_find?_eq_some hfind))
      next hnone => exact h hgreater
    next hgreater => exact absurd hkind hgreater
  | slash =>
    simp only [apply, Scanner.rescanSlash] at hkind ⊢
    split_ifs at hkind ⊢
    exact h hkind
  | template =>
    simp only [apply, Scanner.rescanTemplate] at hkind ⊢
    split_ifs at hkind ⊢
    · exact absurd hkind (Lexeme.kind_readTemplateSpan_ne (by decide) (by decide) _)
    · exact h hkind
  | markupName =>
    simp only [apply, Scanner.extendMarkupName] at hkind ⊢
    split_ifs at hkind ⊢
    · exact h hkind
    · exact h hkind

theorem isSign_run {r : Reader α} {a : α} (hs : s.scanner.IsSign)
    (hrun : r.run (rulesWithin n) context s = some (a, t)) : t.scanner.IsSign :=
  invariant_run (p := fun scanner _ => scanner.IsSign) (fun u scan _ => scan.isSign_apply u.scanner)
    (fun _ scan hu => scan.isSign_apply hu) hs hrun

/-- The characters in front of a `>` at hand and behind it. -/
theorem exists_around_sign (hs : s.Stands text) (hsign : s.scanner.IsSign)
    (hkind : s.scanner.kind = .greaterThan) :
    ∃ before after, text = before ++ '>' :: after ∧ s.position = byteLength before ∧
      s.scanner.stop = { pos := byteLength before + 1, rest := after } := by
  obtain ⟨rest, hrest, hstop⟩ := hsign hkind
  obtain ⟨before, htext, hpos⟩ := hs.sound.reached
  have hposition : s.scanner.start.pos = byteLength before := by simpa [Cursor.ofText] using hpos
  exact ⟨before, rest, hrest ▸ htext, hposition, by rw [hstop, hposition]⟩

/-! ### The token behind the closing sign -/

/-- Behind a `>` there is no blank in front of another sign. -/
theorem next_behind_sign {scanner : Scanner} {pos : ℕ} {c : Char} {cs : List Char}
    (hstop : scanner.stop = { pos := pos + 1, rest := c :: cs }) (hc : c = '>' ∨ c = '=') :
    scanner.next.start = scanner.stop ∧
      scanner.next.kind = (Lexeme.read { pos := pos + 1, rest := c :: cs }).kind := by
  have htoken : scanner.stop.toToken = (scanner.stop, false) := by
    have hblank : isLineBreak c = false ∧ isGap c = false := by
      rcases hc with rfl | rfl <;> decide
    have hslash : c ≠ '/' := by rcases hc with rfl | rfl <;> decide
    rw [toToken_eq (by simp [hstop]), hstop, skipTrivia_blank_cons]
    simp [hblank, hslash]
  rw [Scanner.next, Scanner.advance, htoken, ← hstop]
  exact ⟨rfl, rfl⟩

/-- Does a token of a kind, on a new line or not, confirm type arguments in front of it? -/
def confirms (next : TokenKind) (onNewLine : Bool) : Bool :=
  match next with
  | .openParen | .noSubstitutionTemplateLiteral | .templateHead => true
  | .lessThan | .greaterThan | .plus | .minus => false
  | next => onNewLine || decide (0 < precedence next) ||
    !(expressionStarts.contains next || next.isIdentifierLike)

theorem run_confirmsTypeArguments (rules : Rules) (context : Context) (s : State) :
    confirmsTypeArguments.run rules context s =
      some (confirms s.scanner.kind s.scanner.lineBreakBefore, s) := by
  have hquestion (next : TokenKind) (hnext : s.scanner.kind = next) :
      (onNewLine <||> pure (0 < precedence next) <||> opposite atExpression).run rules context s =
        some (s.scanner.lineBreakBefore || decide (0 < precedence next) ||
          !(expressionStarts.contains next || next.isIdentifierLike), s) := by
    subst hnext
    cases hline : s.scanner.lineBreakBefore
    · by_cases hbinds : 0 < precedence s.scanner.kind
      · simp [hline, hbinds]
      · by_cases hstart : s.scanner.kind ∈ expressionStarts <;>
          simp [hline, hbinds, hstart, atExpression]
    · simp [hline]
  simp only [confirmsTypeArguments, Reader.run_then, run_kind, Option.bind_some]
  generalize hnext : s.scanner.kind = next at hquestion ⊢
  cases next <;> first | rfl | exact hquestion _ rfl

/-- Behind a `<`, the types are read as a trial. They are type arguments if there was no error, a `>`
closes them, and the token behind it confirms that. -/
theorem run_typeArgumentsInExpression (rules : Rules) (hless : s.scanner.kind = .lessThan) :
    typeArgumentsInExpression.run rules context s =
      ((commaSeparatedMany (call .type)).run rules { context with speculative := true }
        (s.advance .code)).map fun x =>
          if x.2.scanner.kind = .greaterThan ∧ x.2.errors.length = s.errors.length ∧
            confirms (x.2.advance .code).scanner.kind (x.2.advance .code).scanner.lineBreakBefore = true
          then (true, x.2.advance .code) else (false, s) := by
  simp only [typeArgumentsInExpression, run_attempt, Reader.run_then, run_accept?, if_pos hless,
    Option.bind_some, Reader.run_ite, if_true, Reader.run_and, run_confirmsTypeArguments]
  cases (commaSeparatedMany (call .type)).run rules { context with speculative := true }
    (s.advance .code) with
  | none => rfl
  | some x =>
    obtain ⟨_, u⟩ := x
    have herrors : (u.advance .code).errors = u.errors := by simp [State.advance]
    by_cases hgreater : u.scanner.kind = .greaterThan <;> simp [hgreater, herrors, and_comm]

theorem confirms_of_mem_equalsMarks :
    ∀ k ∈ Lexeme.equalsMarks, ∀ onNewLine, confirms k onNewLine = true := by
  decide

/-- Where type arguments are read in an expression, the `>` that closes them is the last token that
has been consumed. Behind it there is no other `>`. But there may be a `=`, and then the token at hand
begins with it: as soon as types are read without an error up to a `>`, a `=` directly behind it
confirms them. -/
theorem typeArgumentsInExpression_closing (hs : s.Stands text)
    (hless : s.scanner.kind = .lessThan) :
    (∀ t, typeArgumentsInExpression.run (rulesWithin n) context s = some (true, t) →
      ∃ before after, text = before ++ '>' :: after ∧
        t.tokens.head? = some ⟨.greaterThan, byteLength before, byteLength before + 1⟩ ∧
        after.head? ≠ some '>' ∧
        (after.head? = some '=' →
          t.position = byteLength before + 1 ∧ t.scanner.kind ∈ Lexeme.equalsMarks)) ∧
    ∀ u, (commaSeparatedMany (call .type)).run (rulesWithin n) { context with speculative := true }
        (s.advance .code) = some ((), u) →
      u.errors.length = s.errors.length → u.scanner.kind = .greaterThan →
      ∃ before after, text = before ++ '>' :: after ∧ u.position = byteLength before ∧
        (after.head? = some '=' →
          typeArgumentsInExpression.run (rulesWithin n) context s = some (true, u.advance .code)) := by
  -- both halves look at the sign at which the list of types has stopped
  have hclosing {u : State}
      (hlist : (commaSeparatedMany (call .type)).run (rulesWithin n)
        { context with speculative := true } (s.advance .code) = some ((), u))
      (hgreater : u.scanner.kind = .greaterThan) :=
    exists_around_sign ((hs.onward_advance .code).stands.onward_run hlist).stands
      (isSign_run (Scan.isSign_apply .code s.scanner) hlist) hgreater
  rw [run_typeArgumentsInExpression _ hless]
  constructor
  · intro t hrun
    obtain ⟨⟨_, u⟩, hlist, hkept⟩ := Option.map_eq_some_iff.1 hrun
    dsimp only at hkept
    split_ifs at hkept with hconfirmed
    · obtain ⟨hgreater, -, hconfirms⟩ := hconfirmed
      cases hkept
      obtain ⟨before, after, htext, hposition, hstop⟩ := hclosing hlist hgreater
      refine ⟨before, after, htext, ?_, fun hsign => ?_, fun hequals => ?_⟩
      · have hpos : u.scanner.start.pos = byteLength before := hposition
        simp [State.advance, State.consume, hpos, hstop, hgreater]
      -- a second `>` would be the token at hand, and that one confirms nothing
      · obtain ⟨rest, rfl⟩ := List.head?_eq_some_iff.1 hsign
        have hkind := (next_behind_sign hstop (Or.inl rfl)).2
        rw [Lexeme.kind_read_greaterThan] at hkind
        rw [show (u.advance .code).scanner.kind = .greaterThan from hkind] at hconfirms
        simp [confirms] at hconfirms
      · obtain ⟨rest, rfl⟩ := List.head?_eq_some_iff.1 hequals
        obtain ⟨hstart, hkind⟩ := next_behind_sign hstop (Or.inr rfl)
        refine ⟨?_, ?_⟩
        · show u.scanner.next.start.pos = _
          rw [hstart, hstop]
        · show u.scanner.next.kind ∈ _
          rw [hkind]
          exact Lexeme.kind_read_equals _ _
    · simp at hkept
  · intro u hlist hclean hgreater
    obtain ⟨before, after, htext, hposition, hstop⟩ := hclosing hlist hgreater
    refine ⟨before, after, htext, hposition, fun hequals => ?_⟩
    obtain ⟨rest, rfl⟩ := List.head?_eq_some_iff.1 hequals
    have hkind := (next_behind_sign hstop (Or.inr rfl)).2
    have hconfirms : confirms (u.advance .code).scanner.kind
        (u.advance .code).scanner.lineBreakBefore = true := by
      refine confirms_of_mem_equalsMarks _ ?_ _
      show u.scanner.next.kind ∈ _
      rw [hkind]
      exact Lexeme.kind_read_equals _ _
    simp [hlist, hgreater, hclean, hconfirms]

/-- The state of reading a text in which its second token is at hand. -/
def secondToken (text : List Char) : State :=
  (State.advance .code { scanner := Scanner.ofText text }).advance .code

theorem stands_secondToken (text : List Char) : (secondToken text).Stands text :=
  ((stands_first text).onward_advance .code).stands

/-- A list in a list; the inner one ends in front of another `>`, but it is no list of an
expression. -/
theorem typeArgumentsInExpression_closing_call :
    ∃ t before after,
      typeArgumentsInExpression.run (rulesWithin 8) { size := 11, mode := { markup := false } }
        (secondToken "f<a<b>>(c);".toList) = some (true, t) ∧
      "f<a<b>>(c);".toList = before ++ '>' :: after ∧
      t.tokens.head? = some ⟨.greaterThan, byteLength before, byteLength before + 1⟩ ∧
      after.head? ≠ some '>' := by
  have heval : (typeArgumentsInExpression.run (rulesWithin 8) { size := 11, mode := { markup := false } }
      (secondToken "f<a<b>>(c);".toList)).map (·.1) = some true := by
    decide +kernel
  obtain ⟨⟨_, t⟩, hrun, rfl⟩ := Option.map_eq_some_iff.1 heval
  obtain ⟨before, after, htext, htoken, hsign, -⟩ :=
    (typeArgumentsInExpression_closing (stands_secondToken "f<a<b>>(c);".toList)
      (by decide +kernel)).1 t hrun
  exact ⟨t, before, after, hrun, htext, htoken, hsign⟩

/-- A comparison with `>=`: its first character is taken as the end of type arguments. -/
theorem typeArgumentsInExpression_greaterThanEquals :
    (secondToken "a < b >= c;".toList).scanner.kind = .lessThan ∧
      (typeArgumentsInExpression.run (rulesWithin 8) { size := 11, mode := { markup := false } }
        (secondToken "a < b >= c;".toList)).map (fun x => (x.1, x.2.tokens.head?, x.2.scanner.kind)) =
        some (true, some ⟨.greaterThan, 6, 7⟩, .equals) ∧
      ("a < b >= c;".toList.drop 7).head? = some '=' := by
  decide +kernel

end Grammar

end ExpectError
