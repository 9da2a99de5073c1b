import ExpectError.Proofs.TokenPlaces
import ExpectError.Proofs.TypeArguments

/-!
# Names joined by operators

Texts that are plain names with binary operators between them and spaces around these, and what the
scanner finds in them. An operator that begins with `>` is found in two steps: the sign by itself, and
what makes a longer mark of it when the sign is read anew.

* `Name`, `Operator`, `Joint`, `Link`: the parts of such a text;
* `Link.textOf`: the text behind the first name;
* `at_name`, `at_operator`, `at_ending`: the tokens of such a text.
-/

namespace ExpectError

open Cursor Text

/-! ### The parts of a chain -/

/-- A name that is no keyword. -/
structure Name where
  chars : List Char
  isWord : ∃ c cs, chars = c :: cs ∧ isIdentifierStart c = true
  isPart : ∀ c ∈ chars, isIdentifierPart c = true
  notKeyword : TokenKind.ofKeyword? (String.ofList chars) = none

/-- Binary operators with their spellings: all but those that need a type behind them, and but `<`,
behind which a type is tried. -/
def operators : List (String × TokenKind) :=
  [("??", .questionQuestion), ("||", .barBar), ("&&", .ampersandAmpersand), ("|", .bar),
   ("^", .caret), ("&", .ampersand), ("==", .equalsEquals), ("!=", .exclamationEquals),
   ("===", .equalsEqualsEquals), ("!==", .exclamationEqualsEquals), (">", .greaterThan),
   ("<=", .lessThanEquals), (">=", .greaterThanEquals), ("instanceof", .instanceOfKeyword),
   ("in", .inKeyword), ("<<", .lessThanLessThan), (">>", .greaterThanGreaterThan),
   (">>>", .greaterThanGreaterThanGreaterThan), ("+", .plus), ("-", .minus), ("*", .asterisk),
   ("/", .slash), ("%", .percent), ("**", .asteriskAsterisk)]

/-- A binary operator. -/
structure Operator where
  spelling : String
  kind : TokenKind
  mem : (spelling, kind) ∈ operators

/-- An operator with spaces around it, in front of it and behind it one more than said. -/
structure Joint where
  spacesBefore : ℕ
  operator : Operator
  spacesBehind : ℕ

/-- An operator with spaces around it and the name behind it. -/
structure Link extends Joint where
  name : Name

/-- The text of some links, in front of some more text. -/
def Link.textOf (rest : List Char) : List Link → List Char
  | [] => rest
  | link :: links =>
    spaces (link.spacesBefore + 1) ++ (link.operator.spelling.toList ++
      (spaces (link.spacesBehind + 1) ++ (link.name.chars ++ textOf rest links)))

/-! ### Words -/

namespace Lexeme

/-- The characters of a name go on to its end. -/
theorem identifierEnd_append {word rest : List Char}
    (hword : ∀ c ∈ word, isIdentifierPart c = true)
    (hrest : ∀ c ∈ rest.head?, isIdentifierPart c = false ∧ c ≠ '\\') (pos : ℕ) :
    identifierEnd .outside pos (word ++ rest) = { pos := pos + byteLength word, rest } := by
  induction word generalizing pos with
  | nil =>
    cases rest with
    | nil => rfl
    | cons c cs =>
      obtain ⟨hpart, hne⟩ := hrest c rfl
      rw [List.nil_append, identifierEnd_outside_cons, if_neg fun h => hne h.1,
        if_neg (by simp [hpart])]
      rfl
  | cons c word ih =>
    obtain ⟨hc, hword⟩ := List.forall_mem_cons.1 hword
    have hne : c ≠ '\\' := by
      rintro rfl
      exact absurd hc (by decide)
    rw [List.cons_append, identifierEnd_outside_cons, if_neg fun h => hne h.1, if_pos hc, ih hword,
      byteLength_cons, Nat.add_assoc]

/-- A word in front of something that does not continue it. -/
theorem read_word {word rest : List Char}
    (hstart : ∃ c cs, word = c :: cs ∧ isIdentifierStart c = true)
    (hword : ∀ c ∈ word, isIdentifierPart c = true)
    (hrest : ∀ c ∈ rest.head?, isIdentifierPart c = false ∧ c ≠ '\\') (pos : ℕ) :
    read { pos, rest := word ++ rest } =
      { kind := (TokenKind.ofKeyword? (String.ofList word)).getD .identifier
        next := { pos := pos + byteLength word, rest } } := by
  have hend := identifierEnd_append hword hrest pos
  have hupTo : upTo { pos, rest := word ++ rest } (pos + byteLength word) = word :=
    upTo_of_append (c := { pos, rest := word ++ rest }) rfl
  obtain ⟨c, cs, rfl, hc⟩ := hstart
  have hne : c ≠ '\\' := by
    rintro rfl
    exact absurd (hword _ List.mem_cons_self) (by decide)
  rw [List.cons_append] at hend hupTo ⊢
  rw [read_cons, if_pos (by simp [hc]), readIdentifier_cons, if_neg fun h => hne h.1]
  simp only [readIdentifier.read, hend, hupTo]

/-! ### Marks -/

theorem isPrefixOf_append_space {mark : List Char} (hmark : ' ' ∉ mark) (word rest : List Char) :
    mark.isPrefixOf (word ++ ' ' :: rest) = mark.isPrefixOf word := by
  induction mark generalizing word with
  | nil => rfl
  | cons c mark ih =>
    rw [List.mem_cons, not_or] at hmark
    cases word with
    | nil => simp [List.isPrefixOf, Ne.symm hmark.1]
    | cons d word => simp [List.isPrefixOf, ih hmark.2]

theorem not_mem_space_of_mem_marks : ∀ mark ∈ marks, ' ' ∉ mark.1.toList := by
  decide

/-- The mark that a word in front of a space begins with. -/
theorem find?_marks_append_space {word : List Char} (hword : ['?', '.'].isPrefixOf word = false)
    (rest : List Char) :
    (marks.find? fun mark => beginsWithMark mark.1 (word ++ ' ' :: rest)) =
      marks.find? fun mark => mark.1.toList.isPrefixOf word := by
  have hbegins : ∀ mark ∈ marks, beginsWithMark mark.1 (word ++ ' ' :: rest) =
      mark.1.toList.isPrefixOf word := by
    intro mark hmark
    rw [beginsWithMark, isPrefixOf_append_space (not_mem_space_of_mem_marks mark hmark)]
    by_cases hpoint : mark.1 = "?."
    · simp [hpoint, hword]
    · simp [hpoint]
  exact List.find?_congr hbegins

end Lexeme

namespace Operator

/-- The characters of the operator. -/
def chars (operator : Operator) : List Char :=
  operator.spelling.toList

/-- The kind of token that the scanner finds at an operator: it does not join a `>` with the signs
behind it. -/
def front (operator : Operator) : TokenKind :=
  if operator.chars.head? = some '>' then .greaterThan else operator.kind

variable (operator : Operator)

theorem isFront (rest : List Char) : IsFront (operator.chars ++ ' ' :: rest) := by
  have hfronts : ∀ operator ∈ operators, operator.1.toList.head?.any fun c =>
      !isLineBreak c && !isGap c && c ≠ '#' && (c ≠ '/' || operator.1.toList = ['/']) := by
    decide +kernel
  obtain ⟨c, hc, hfront⟩ := (Option.any_eq_true _ _).1 (hfronts _ operator.mem)
  obtain ⟨cs, hcs⟩ := List.head?_eq_some_iff.1 hc
  have hchars : operator.chars = c :: cs := hcs
  simp only [hcs, Bool.and_eq_true, Bool.not_eq_true', Bool.or_eq_true, decide_eq_true_eq,
    List.cons.injEq] at hfront
  obtain ⟨⟨⟨hline, hgap⟩, hhash⟩, hslash⟩ := hfront
  refine ⟨c, cs ++ ' ' :: rest, by rw [hchars, List.cons_append], hline, hgap, hhash, fun h => ?_⟩
  obtain ⟨-, rfl⟩ := hslash.resolve_left (not_not.2 h)
  simp

/-- An operator that is a word. -/
theorem read_of_word (hword : operator.chars.head?.any isIdentifierStart = true) (pos : ℕ)
    (rest : List Char) :
    Lexeme.read { pos, rest := operator.chars ++ ' ' :: rest } =
      { kind := operator.kind
        next := { pos := pos + byteLength operator.chars, rest := ' ' :: rest } } := by
  have hwords : ∀ operator ∈ operators, operator.1.toList.head?.any isIdentifierStart = true →
      operator.1.toList.all isIdentifierPart = true ∧
        TokenKind.ofKeyword? (String.ofList operator.1.toList) = some operator.2 := by
    decide +kernel
  obtain ⟨hpart, hkeyword⟩ := hwords _ operator.mem hword
  rw [List.all_eq_true] at hpart
  have hstart : ∃ c cs, operator.chars = c :: cs ∧ isIdentifierStart c = true := by
    cases hchars : operator.chars with
    | nil => simp [hchars] at hword
    | cons c cs => exact ⟨c, cs, rfl, by simpa [hchars] using hword⟩
  have hspace : ∀ c ∈ (' ' :: rest).head?, isIdentifierPart c = false ∧ c ≠ '\\' := by
    rintro c ⟨⟩
    decide
  rw [Lexeme.read_word hstart hpart hspace, chars, hkeyword]
  rfl

/-- An operator that is a mark. -/
theorem read_of_mark (hword : operator.chars.head?.any isIdentifierStart = false)
    (hsign : operator.chars.head? ≠ some '>') (pos : ℕ) (rest : List Char) :
    Lexeme.read { pos, rest := operator.chars ++ ' ' :: rest } =
      { kind := operator.kind
        next := { pos := pos + byteLength operator.chars, rest := ' ' :: rest } } := by
  have hmarks : ∀ operator ∈ operators, operator.1.toList.head?.any isIdentifierStart = false →
      operator.1.toList.head? ≠ some '>' →
      (Lexeme.marks.find? fun mark => mark.1.toList.isPrefixOf operator.1.toList) = some operator ∧
        ['?', '.'].isPrefixOf operator.1.toList = false ∧
        operator.1.toList.head?.any fun c =>
          !c.isDigit && c ∉ ['\\', '"', '\'', '\x60', '.', '#'] := by
    decide +kernel
  obtain ⟨hfind, hpoint, hfirst⟩ := hmarks _ operator.mem hword hsign
  obtain ⟨c, hc, hother⟩ := (Option.any_eq_true _ _).1 hfirst
  obtain ⟨cs, hcs⟩ := List.head?_eq_some_iff.1 hc
  have hchars : operator.chars = c :: cs := hcs
  have hmark := Lexeme.find?_marks_append_space hpoint rest
  rw [hfind] at hmark
  have hstart : isIdentifierStart c = false := by simpa [hchars] using hword
  have hread : Lexeme.read { pos, rest := operator.chars ++ ' ' :: rest } =
      Lexeme.readMark { pos, rest := operator.chars ++ ' ' :: rest } := by
    rw [hchars, List.cons_append, Lexeme.read_cons]
    simp only [Bool.and_eq_true, Bool.not_eq_true', decide_eq_true_eq, List.mem_cons,
      List.not_mem_nil, not_or, or_false] at hother
    simp [hstart, hother]
  rw [hread, Lexeme.readMark, if_neg (by simp)]
  split
  next mark kind hsome =>
    cases Option.some.inj (hmark.symm.trans hsome)
    simp only [Lexeme.mk.injEq, true_and, and_true]
    exact Lexeme.skip_append operator.chars pos (' ' :: rest)
  next hnone => cases hmark.symm.trans hnone

/-- An operator that begins with `>` is the sign, and behind it what makes a longer mark of it. -/
theorem exists_signs (hsign : operator.chars.head? = some '>') :
    ∃ signs, operator.chars = '>' :: signs ∧
      ((signs = [] ∧ operator.kind = .greaterThan) ∨
        (Scanner.greaterEndings.find? fun ending => ending.1.toList.isPrefixOf signs) =
          some (String.ofList signs, operator.kind)) := by
  have hsigns : ∀ operator ∈ operators, operator.1.toList.head? = some '>' →
      (operator.1.toList.tail = [] ∧ operator.2 = .greaterThan) ∨
        (Scanner.greaterEndings.find? fun ending =>
          ending.1.toList.isPrefixOf operator.1.toList.tail) =
            some (String.ofList operator.1.toList.tail, operator.2) := by
    decide +kernel
  obtain ⟨signs, hchars⟩ := List.head?_eq_some_iff.1 hsign
  have hoperator := hsigns _ operator.mem hsign
  have htail : operator.spelling.toList.tail = signs := congrArg List.tail hchars
  rw [htail] at hoperator
  exact ⟨signs, hchars, hoperator⟩

theorem read_of_sign {signs : List Char} (hchars : operator.chars = '>' :: signs) (pos : ℕ)
    (rest : List Char) :
    (Lexeme.read { pos, rest := operator.chars ++ ' ' :: rest }).kind = .greaterThan ∧
      (Lexeme.read { pos, rest := operator.chars ++ ' ' :: rest }).next =
        { pos := pos + 1, rest := signs ++ ' ' :: rest } := by
  rw [hchars, List.cons_append]
  have hkind := Lexeme.kind_read_greaterThan pos (signs ++ ' ' :: rest)
  obtain ⟨rest', hrest, hnext⟩ := Lexeme.isSign_read _ hkind
  exact ⟨hkind, by rw [hnext, (List.cons.inj hrest).2]⟩

/-! ### The tokens of a chain -/

variable (pos n : ℕ) (rest : List Char)

theorem at_sign {signs : List Char} (hchars : operator.chars = '>' :: signs) :
    (Scanner.behind { pos, rest := spaces n ++ (operator.chars ++ ' ' :: rest) }).At .greaterThan
      (pos + n) { pos := pos + n + 1, rest := signs ++ ' ' :: rest } := by
  have hat := Scanner.at_behind (operator.isFront rest) pos n
  obtain ⟨hkind, hnext⟩ := operator.read_of_sign hchars (pos + n) rest
  rwa [hkind, hnext] at hat

theorem at_front (hsign : operator.chars.head? ≠ some '>') :
    (Scanner.behind { pos, rest := spaces n ++ (operator.chars ++ ' ' :: rest) }).At operator.kind
      (pos + n) { pos := pos + n + byteLength operator.chars, rest := ' ' :: rest } := by
  have hat := Scanner.at_behind (operator.isFront rest) pos n
  cases hword : operator.chars.head?.any isIdentifierStart with
  | true => rwa [operator.read_of_word hword] at hat
  | false => rwa [operator.read_of_mark hword hsign] at hat

theorem kind_front :
    (Scanner.behind { pos, rest := spaces n ++ (operator.chars ++ ' ' :: rest) }).kind =
      operator.front := by
  rw [front]
  split_ifs with hsign
  · obtain ⟨signs, hchars⟩ := List.head?_eq_some_iff.1 hsign
    exact (operator.at_sign pos n rest hchars).kind_eq
  · exact (operator.at_front pos n rest hsign).kind_eq

end Operator

/-- A `>` that has been joined with the signs behind it is not joined again. -/
theorem Scanner.rescanGreater_rescanGreater (s : Scanner) :
    s.rescanGreater.rescanGreater = s.rescanGreater := by
  unfold rescanGreater
  split
  next hgreater =>
    split
    next ending kind hfind =>
      have hne : ∀ ending ∈ greaterEndings, ending.2 ≠ .greaterThan := by decide
      simp [hne _ (List.mem_of_find?_eq_some hfind)]
    next hnone => simp [hgreater, hnone]
  next => rfl

/-- A `>` in front of the rest of an operator and a space is joined with that rest. -/
theorem Scanner.At.rescanGreater {s : Scanner} {start pos : ℕ} {signs rest : List Char}
    (h : s.At .greaterThan start { pos, rest := signs ++ ' ' :: rest }) :
    s.rescanGreater =
      ((greaterEndings.find? fun ending => ending.1.toList.isPrefixOf signs).elim s fun ending =>
        { s with kind := ending.2, stop := s.stop.skip ending.1.toList.length }) := by
  have hspace : ∀ ending ∈ greaterEndings, ' ' ∉ ending.1.toList := by decide
  have hfind : (greaterEndings.find? fun ending => ending.1.toList.isPrefixOf s.stop.rest) =
      greaterEndings.find? fun ending => ending.1.toList.isPrefixOf signs := by
    rw [h.stop_eq]
    exact List.find?_congr fun ending hending =>
      Lexeme.isPrefixOf_append_space (hspace ending hending) signs rest
  rw [Scanner.rescanGreater, if_pos h.kind_eq]
  split
  next ending kind hsome => rw [hfind.symm.trans hsome, Option.elim_some]
  next hnone => rw [hfind.symm.trans hnone, Option.elim_none]

namespace Operator

variable (operator : Operator) (pos n : ℕ) (rest : List Char)

/-- Where an operator is expected, it is read in one piece. -/
theorem at_operator :
    (Scanner.behind { pos, rest := spaces n ++ (operator.chars ++ ' ' :: rest) }).rescanGreater.At
      operator.kind (pos + n)
      { pos := pos + n + byteLength operator.chars, rest := ' ' :: rest } := by
  by_cases hsign : operator.chars.head? = some '>'
  · obtain ⟨signs, hchars, hcases⟩ := operator.exists_signs hsign
    have hat := operator.at_sign pos n rest hchars
    have hlength : byteLength operator.chars = 1 + byteLength signs := by
      rw [hchars, byteLength_cons]
      rfl
    rw [hat.rescanGreater, hlength]
    rcases hcases with ⟨rfl, hkind⟩ | hfind
    · rw [hkind]
      exact hat
    · have hskip := Lexeme.skip_append signs (pos + n + 1) (' ' :: rest)
      rw [hfind, Option.elim_some, hat.stop_eq, String.toList_ofList, hskip, Nat.add_assoc (pos + n)]
      exact ⟨rfl, hat.start_eq, rfl, hat.sameLine⟩
  · have hkinds : ∀ operator ∈ operators, operator.1.toList.head? ≠ some '>' →
        operator.2 ≠ .greaterThan := by
      decide
    have hat := operator.at_front pos n rest hsign
    have hne := hkinds _ operator.mem hsign
    rwa [Scanner.rescanGreater, if_neg (by rw [hat.kind_eq]; exact hne)]

end Operator

/-- The next operator of a chain, with a name behind it. -/
theorem Link.at_operator (ending : List Char) (link : Link) (rest : List Link) (pos : ℕ) :
    (Scanner.behind { pos, rest := textOf ending (link :: rest) }).rescanGreater.At
      link.operator.kind (pos + (link.spacesBefore + 1))
      { pos := pos + (link.spacesBefore + 1) + byteLength link.operator.chars
        rest := spaces (link.spacesBehind + 1) ++ (link.name.chars ++ textOf ending rest) } :=
  link.operator.at_operator pos (link.spacesBefore + 1) _

/-- What stands behind the last name of a chain: nothing or a semicolon. -/
def IsEnding (rest : List Char) : Prop :=
  rest = [] ∨ rest = [';']

/-- A chain goes on with a space or ends. -/
theorem Link.head?_textOf {rest : List Char} (hrest : IsEnding rest) (links : List Link) :
    ∀ c ∈ (textOf rest links).head?, isIdentifierPart c = false ∧ c ≠ '\\' := by
  have hspace : isIdentifierPart ' ' = false := by decide
  have hsemicolon : isIdentifierPart ';' = false := by decide
  cases links with
  | nil => rcases hrest with rfl | rfl <;> simp [textOf, hsemicolon]
  | cons link links => simp [textOf, spaces, List.replicate_succ, hspace]

theorem not_isIdentifierStart_of_isGap {c : Char} (h : isLineBreak c = true ∨ isGap c = true) :
    isIdentifierStart c = false := by
  have hapart : ∀ blank ∈ blankRanges, ∀ letter ∈ alphabeticRanges,
      blank.2 < letter.1 ∨ letter.2 < blank.1 := by
    decide +kernel
  rcases h with h | h
  · simp only [isLineBreak, Bool.or_eq_true, decide_eq_true_eq] at h
    rcases h with ((rfl | rfl) | rfl) | rfl <;> decide +kernel
  · simp only [isGap, Bool.or_eq_true, decide_eq_true_eq] at h
    rcases h with hblank | rfl
    · obtain ⟨blank, hmem, hlow, hhigh⟩ := (Ranges.contains_iff _ _).1 hblank
      have hletter : isAlphabetic c = false := by
        unfold isAlphabetic
        split_ifs with hascii
        · have hends : ∀ blank ∈ blankRanges, blank.2 ≤ 32 ∨ 128 ≤ blank.1 := by decide
          have hsmall : ∀ n < 33, (Char.ofNat n).isAlpha = false := by decide
          have hle : c.toNat < 33 := by
            have := hends blank hmem
            unfold Char.toNat at *
            omega
          simpa using hsmall c.toNat hle
        · rw [← Bool.not_eq_true, Ranges.contains_iff]
          rintro ⟨letter, hmem', hlow', hhigh'⟩
          have := hapart blank hmem letter hmem'
          omega
      have hsign : c ≠ '$' ∧ c ≠ '_' := by
        constructor <;> rintro rfl <;> exact absurd hblank (by decide)
      simp [isIdentifierStart, hletter, hsign]
    · decide +kernel

theorem Name.byteLength_pos (name : Name) : 0 < byteLength name.chars := by
  obtain ⟨c, cs, hchars, -⟩ := name.isWord
  have hsize := c.utf8Size_pos
  rw [hchars, byteLength_cons]
  omega

theorem Name.isFront (name : Name) (rest : List Char) : IsFront (name.chars ++ rest) := by
  obtain ⟨c, cs, hchars, hc⟩ := name.isWord
  have hgap (h : isLineBreak c = true ∨ isGap c = true) : False := by
    simp [not_isIdentifierStart_of_isGap h] at hc
  refine ⟨c, cs ++ rest, by rw [hchars, List.cons_append], by simpa using fun h => hgap (Or.inl h),
    by simpa using fun h => hgap (Or.inr h), ?_, ?_⟩
  · rintro rfl
    exact absurd hc (by decide +kernel)
  · rintro rfl
    exact absurd hc (by decide +kernel)

/-- A name at its place. -/
theorem Name.at_name (name : Name) {rest : List Char}
    (hrest : ∀ c ∈ rest.head?, isIdentifierPart c = false ∧ c ≠ '\\') (pos n : ℕ) :
    (Scanner.behind { pos, rest := spaces n ++ (name.chars ++ rest) }).At .identifier (pos + n)
      { pos := pos + n + byteLength name.chars, rest } := by
  have hat := Scanner.at_behind (name.isFront rest) pos n
  have hread := Lexeme.read_word name.isWord name.isPart hrest (pos + n)
  rw [name.notKeyword] at hread
  rwa [hread] at hat

/-- The end of a chain. -/
theorem at_ending {rest : List Char} (hrest : IsEnding rest) (pos : ℕ) :
    rest = [] ∧ (Scanner.behind { pos, rest }).At .endOfFile pos { pos, rest := [] } ∨
      rest = [';'] ∧
        (Scanner.behind { pos, rest }).At .semicolon pos { pos := pos + 1, rest := [] } := by
  rcases hrest with rfl | rfl
  · have htoken : toToken { pos, rest := [] } = ({ pos, rest := [] }, false) := by
      rw [toToken_eq (by simp), skipTrivia]
    refine Or.inl ⟨rfl, ?_, ?_, ?_, ?_⟩ <;>
      simp only [Scanner.behind, Scanner.next, Scanner.advance, htoken] <;> rfl
  · have hfront : IsFront [';'] := ⟨';', [], rfl, by decide, by decide, by decide, by decide⟩
    exact Or.inr ⟨rfl, Scanner.at_behind hfront pos 0⟩

theorem kind_behind_ending {rest : List Char} (hrest : IsEnding rest) (pos : ℕ) :
    (Scanner.behind { pos, rest }).kind = .endOfFile ∨
      (Scanner.behind { pos, rest }).kind = .semicolon :=
  (at_ending hrest pos).imp (fun h => h.2.kind_eq) fun h => h.2.kind_eq

end ExpectError
