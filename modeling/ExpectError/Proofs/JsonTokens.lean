import ExpectError.Json.Reader
import ExpectError.Proofs.RelaxedText

/-!
# JSON texts as tokens

A JSON text is laid out from tokens with a gap in front of each of them and one at the end. In a
plain text the gaps are spaces; in a relaxed text there are comments in them too.

* `Token`: brackets, separators, string literals, words and numbers;
* `Laid`: the texts of a list of tokens;
* `ValueText`: values as they are written, with the commas that a relaxed text has behind last
  elements and members;
* `plain_stripComments`, `plain_dropTrailingCommas`: what becomes of the tokens of a text.
-/

namespace ExpectError.Json

/-! ### Tokens -/

/-- Brackets and separators. -/
inductive Mark where
  | openBracket
  | closeBracket
  | openBrace
  | closeBrace
  | comma
  | colon

/-- How a mark is written. -/
def Mark.char : Mark → Char
  | .openBracket => '['
  | .closeBracket => ']'
  | .openBrace => '\x7b'
  | .closeBrace => '\x7d'
  | .comma => ','
  | .colon => ':'

/-- The words that are values. -/
inductive Word where
  | null
  | true
  | false

/-- How a word is written. -/
def Word.text : Word → List Char
  | .null => ['n', 'u', 'l', 'l']
  | .true => ['t', 'r', 'u', 'e']
  | .false => ['f', 'a', 'l', 's', 'e']

/-- At least one digit, and nothing else. -/
def IsDigits (digits : List Char) : Prop :=
  digits ≠ [] ∧ ∀ c ∈ digits, isDigit c = true

/-- The exponent of a number as it is written. -/
structure ExponentText where
  letter : Char
  sign : Option Char
  digits : List Char
  letter_mem : letter ∈ ['e', 'E']
  sign_mem : ∀ c ∈ sign, c ∈ ['+', '-']
  isDigits : IsDigits digits

/-- How an exponent is written. -/
def ExponentText.text (e : ExponentText) : List Char :=
  e.letter :: (e.sign.toList ++ e.digits)

/-- A number as it is written: no zero stands in front of other digits. -/
structure NumberText where
  isNegative : Bool
  whole : List Char
  fraction : Option (List Char)
  exponent : Option ExponentText
  isDigits_whole : IsDigits whole
  whole_eq : whole.head? = some '0' → whole = ['0']
  isDigits_fraction : ∀ digits ∈ fraction, IsDigits digits

namespace NumberText

/-- The sign of a number. -/
def sign (n : NumberText) : List Char :=
  if n.isNegative then ['-'] else []

/-- The point of a number with the digits behind it. -/
def point (n : NumberText) : List Char :=
  n.fraction.elim [] fun digits => '.' :: digits

/-- How a number is written. -/
def text (n : NumberText) : List Char :=
  n.sign ++ (n.whole ++ (n.point ++ n.exponent.elim [] ExponentText.text))

end NumberText

/-- A token of a JSON text. -/
inductive Token where
  | mark (m : Mark)
  | string (items : List StringItem)
  | word (w : Word)
  | number (n : NumberText)

namespace Token

/-- How a token is written. -/
def text : Token → List Char
  | .mark m => [m.char]
  | .string items => literal items
  | .word w => w.text
  | .number n => n.text

/-- Is a token a closing bracket? -/
def closes : Token → Bool
  | .mark .closeBracket | .mark .closeBrace => true
  | _ => false

/-- Is a token made of letters and digits, so that it needs something else behind it? -/
def isBare : Token → Bool
  | .word _ | .number _ => true
  | _ => false

end Token

/-! ### Layouts -/

/-- The texts of some tokens, with a gap in front of each of them and one at the end. -/
inductive Laid (Gap Last : List Char → Prop) : List Token → List Char → Prop where
  | nil {gap : List Char} : Last gap → Laid Gap Last [] gap
  | cons {gap cs : List Char} {token : Token} {tokens : List Token} :
    Gap gap → Laid Gap Last tokens cs → Laid Gap Last (token :: tokens) (gap ++ (token.text ++ cs))

/-- Spaces, tabs and line ends, or nothing. -/
def IsSpaces (gap : List Char) : Prop :=
  ∀ c ∈ gap, isSpace c = true

/-- Is a piece a space or a comment? -/
def Piece.IsGap : Piece → Prop
  | .char c _ => isSpace c = true
  | .literal _ => False
  | .lineComment _ _ | .blockComment _ _ => True

/-- Spaces and comments. -/
def IsRelaxedGap (gap : List Char) : Prop :=
  ∃ pieces : List Piece, (∀ piece ∈ pieces, piece.IsGap) ∧ gap = textOf pieces

/-- Spaces and comments up to the end of a text, where the last comment need not end. -/
def IsRelaxedEnd (gap : List Char) : Prop :=
  ∃ (pieces : List Piece) (last : LastComment),
    (∀ piece ∈ pieces, piece.IsGap) ∧ gap = textOf pieces ++ last.text

/-- The texts of some tokens with spaces between them. -/
abbrev Plain : List Token → List Char → Prop :=
  Laid IsSpaces IsSpaces

/-- The texts of some tokens with spaces and comments between them. -/
abbrev Relaxed : List Token → List Char → Prop :=
  Laid IsRelaxedGap IsRelaxedEnd

/-! ### Values -/

/-- A value as it is written. The flag of an array or an object tells whether a relaxed text has a
comma behind its last element or member. -/
inductive ValueText where
  | string (items : List StringItem)
  | word (w : Word)
  | number (n : NumberText)
  | array (elements : List ValueText) (trailing : Bool)
  | object (members : List (List StringItem × ValueText)) (trailing : Bool)

/-- A comma unless nothing follows. -/
def separator (isLast : Bool) : List Token :=
  if isLast then [] else [.mark .comma]

/-- A closing bracket, with a comma in front of it or without. -/
def closing (mark : Mark) (hasComma : Bool) : List Token :=
  separator (!hasComma) ++ [.mark mark]

mutual

/-- The tokens of a value. -/
def ValueText.tokens (isRelaxed : Bool) : ValueText → List Token
  | .string items => [.string items]
  | .word w => [.word w]
  | .number n => [.number n]
  | .array elements trailing =>
    .mark .openBracket :: (elementTokens isRelaxed elements ++
      closing .closeBracket (isRelaxed && trailing && !elements.isEmpty))
  | .object members trailing =>
    .mark .openBrace :: (memberTokens isRelaxed members ++
      closing .closeBrace (isRelaxed && trailing && !members.isEmpty))

/-- The tokens of the elements of an array. -/
def elementTokens (isRelaxed : Bool) : List ValueText → List Token
  | [] => []
  | value :: rest =>
    value.tokens isRelaxed ++ (separator rest.isEmpty ++ elementTokens isRelaxed rest)

/-- The tokens of the members of an object. -/
def memberTokens (isRelaxed : Bool) : List (List StringItem × ValueText) → List Token
  | [] => []
  | (name, value) :: rest =>
    .string name :: .mark .colon :: (value.tokens isRelaxed ++
      (separator rest.isEmpty ++ memberTokens isRelaxed rest))

end

/-- Tokens without the commas in front of closing brackets. -/
def dropTrailing : List Token → List Token
  | [] => []
  | .mark .comma :: rest =>
    if rest.head?.any Token.closes then dropTrailing rest else .mark .comma :: dropTrailing rest
  | token :: rest => token :: dropTrailing rest

/-- No token made of letters and digits stands behind another one. -/
def Separable (tokens : List Token) : Prop :=
  tokens.IsChain fun token next => ¬ (token.isBare = true ∧ next.isBare = true)

theorem dropTrailing_cons_of_ne {token : Token} (h : token ≠ .mark .comma) (rest : List Token) :
    dropTrailing (token :: rest) = token :: dropTrailing rest := by
  rw [dropTrailing]
  exact h

theorem dropTrailing_closing {m : Mark} (h : (Token.mark m).closes = true) (hasComma : Bool)
    (rest : List Token) :
    dropTrailing (closing m hasComma ++ rest) = .mark m :: dropTrailing rest := by
  have hne : Token.mark m ≠ .mark .comma := by
    rintro ⟨⟩
    cases h
  cases hasComma with
  | false => exact dropTrailing_cons_of_ne hne rest
  | true =>
    have hnext : dropTrailing (closing m true ++ rest) = dropTrailing (.mark m :: rest) := by
      simp [closing, separator, dropTrailing, h]
    rw [hnext, dropTrailing_cons_of_ne hne]

/-- A separator stays if what follows does not begin with a closing bracket. -/
theorem dropTrailing_separator {isLast : Bool} {rest : List Token}
    (h : isLast = false → rest.head?.any Token.closes = false) :
    dropTrailing (separator isLast ++ rest) = separator isLast ++ dropTrailing rest := by
  cases isLast with
  | true => rfl
  | false =>
    rw [separator, if_neg Bool.false_ne_true, List.singleton_append, dropTrailing, h rfl,
      if_neg Bool.false_ne_true, List.singleton_append]

theorem head?_tokens (isRelaxed : Bool) (value : ValueText) (rest : List Token) :
    (value.tokens isRelaxed ++ rest).head?.any Token.closes = false := by
  cases value <;> simp [ValueText.tokens, Token.closes]

theorem head?_elementTokens (isRelaxed : Bool) {elements : List ValueText}
    (h : elements.isEmpty = false) (rest : List Token) :
    (elementTokens isRelaxed elements ++ rest).head?.any Token.closes = false := by
  cases elements with
  | nil => cases h
  | cons value others =>
    rw [elementTokens, List.append_assoc]
    exact head?_tokens isRelaxed value _

theorem head?_memberTokens (isRelaxed : Bool) {members : List (List StringItem × ValueText)}
    (h : members.isEmpty = false) (rest : List Token) :
    (memberTokens isRelaxed members ++ rest).head?.any Token.closes = false := by
  cases members with
  | nil => cases h
  | cons member others => rfl

mutual

/-- A relaxed text has the tokens of a plain one and commas that are dropped again. -/
theorem dropTrailing_tokens (isRelaxed : Bool) : ∀ (value : ValueText) (rest : List Token),
    dropTrailing (value.tokens isRelaxed ++ rest) = value.tokens false ++ dropTrailing rest
  | .string items, rest => by
    rw [ValueText.tokens, ValueText.tokens]
    exact dropTrailing_cons_of_ne (by simp) rest
  | .word w, rest => by
    rw [ValueText.tokens, ValueText.tokens]
    exact dropTrailing_cons_of_ne (by simp) rest
  | .number n, rest => by
    rw [ValueText.tokens, ValueText.tokens]
    exact dropTrailing_cons_of_ne (by simp) rest
  | .array elements trailing, rest => by
    rw [ValueText.tokens, ValueText.tokens, List.cons_append, List.append_assoc,
      dropTrailing_cons_of_ne (by simp), dropTrailing_elementTokens isRelaxed elements,
      dropTrailing_closing rfl]
    simp [closing, separator]
  | .object members trailing, rest => by
    rw [ValueText.tokens, ValueText.tokens, List.cons_append, List.append_assoc,
      dropTrailing_cons_of_ne (by simp), dropTrailing_memberTokens isRelaxed members,
      dropTrailing_closing rfl]
    simp [closing, separator]

theorem dropTrailing_elementTokens (isRelaxed : Bool) :
    ∀ (elements : List ValueText) (rest : List Token),
      dropTrailing (elementTokens isRelaxed elements ++ rest) =
        elementTokens false elements ++ dropTrailing rest
  | [], rest => rfl
  | value :: elements, rest => by
    have hseparator := dropTrailing_separator fun h : elements.isEmpty = false =>
      head?_elementTokens isRelaxed h rest
    rw [elementTokens, elementTokens, List.append_assoc, List.append_assoc,
      dropTrailing_tokens isRelaxed value, hseparator,
      dropTrailing_elementTokens isRelaxed elements, List.append_assoc, List.append_assoc]

theorem dropTrailing_memberTokens (isRelaxed : Bool) :
    ∀ (members : List (List StringItem × ValueText)) (rest : List Token),
      dropTrailing (memberTokens isRelaxed members ++ rest) =
        memberTokens false members ++ dropTrailing rest
  | [], rest => rfl
  | (name, value) :: members, rest => by
    have hseparator := dropTrailing_separator fun h : members.isEmpty = false =>
      head?_memberTokens isRelaxed h rest
    rw [memberTokens, memberTokens, List.cons_append, List.cons_append, List.append_assoc,
      List.append_assoc, dropTrailing_cons_of_ne (by simp), dropTrailing_cons_of_ne (by simp),
      dropTrailing_tokens isRelaxed value, hseparator, dropTrailing_memberTokens isRelaxed members]
    simp

end

/-- Do some tokens begin with one that is not made of letters and digits, if they are not empty? -/
def BeginsApart (tokens : List Token) : Prop :=
  ∀ token ∈ tokens.head?, token.isBare = false

theorem separable_cons {token : Token} {rest : List Token} (hrest : Separable rest)
    (h : token.isBare = false ∨ BeginsApart rest) : Separable (token :: rest) := by
  refine List.IsChain.cons hrest fun next hnext hbare => ?_
  rcases h with h | h
  · exact absurd hbare.1 (by simp [h])
  · exact absurd hbare.2 (by simp [h next hnext])

/-- A separator makes what follows begin apart, and so does what follows where there is none. -/
theorem separable_separator {isLast : Bool} {rest : List Token} (hrest : Separable rest)
    (h : isLast = true → BeginsApart rest) :
    Separable (separator isLast ++ rest) ∧ BeginsApart (separator isLast ++ rest) := by
  cases isLast with
  | true => exact ⟨hrest, h rfl⟩
  | false =>
    refine ⟨separable_cons hrest (.inl rfl), ?_⟩
    rintro _ ⟨⟩
    rfl

mutual

theorem separable_tokens : ∀ (value : ValueText) {rest : List Token},
    Separable rest → BeginsApart rest → Separable (value.tokens false ++ rest)
  | .string items, rest, hrest, _ => separable_cons hrest (.inl rfl)
  | .word w, rest, hrest, h => separable_cons hrest (.inr h)
  | .number n, rest, hrest, h => separable_cons hrest (.inr h)
  | .array elements trailing, rest, hrest, _ => by
    rw [ValueText.tokens, List.cons_append, List.append_assoc]
    refine separable_cons (separable_elementTokens elements ?_ ?_) (.inl rfl)
    · exact separable_cons hrest (.inl rfl)
    · rintro _ ⟨⟩
      rfl
  | .object members trailing, rest, hrest, _ => by
    rw [ValueText.tokens, List.cons_append, List.append_assoc]
    refine separable_cons (separable_memberTokens members ?_ ?_) (.inl rfl)
    · exact separable_cons hrest (.inl rfl)
    · rintro _ ⟨⟩
      rfl

theorem separable_elementTokens : ∀ (elements : List ValueText) {rest : List Token},
    Separable rest → BeginsApart rest → Separable (elementTokens false elements ++ rest)
  | [], rest, hrest, _ => hrest
  | value :: elements, rest, hrest, h => by
    have hapart : elements.isEmpty = true → BeginsApart (elementTokens false elements ++ rest) := by
      intro hempty
      rw [List.isEmpty_iff.1 hempty]
      exact h
    obtain ⟨hrest, hapart⟩ :=
      separable_separator (separable_elementTokens elements hrest h) hapart
    rw [elementTokens, List.append_assoc, List.append_assoc]
    exact separable_tokens value hrest hapart

theorem separable_memberTokens : ∀ (members : List (List StringItem × ValueText))
    {rest : List Token},
    Separable rest → BeginsApart rest → Separable (memberTokens false members ++ rest)
  | [], rest, hrest, _ => hrest
  | (name, value) :: members, rest, hrest, h => by
    have hapart : members.isEmpty = true → BeginsApart (memberTokens false members ++ rest) := by
      intro hempty
      rw [List.isEmpty_iff.1 hempty]
      exact h
    obtain ⟨hrest, hapart⟩ :=
      separable_separator (separable_memberTokens members hrest h) hapart
    rw [memberTokens, List.cons_append, List.cons_append, List.append_assoc, List.append_assoc]
    have hvalue := separable_tokens value hrest hapart
    exact separable_cons (separable_cons hvalue (.inl rfl)) (.inl rfl)

end

/-! ### The characters of tokens -/

/-- Can a character be part of a number? -/
def isNumeric (c : Char) : Bool :=
  isDigit c || c = '-' || c = '+' || c = '.' || c = 'e' || c = 'E'

theorem isNumeric_of_isDigit {c : Char} (h : isDigit c = true) : isNumeric c = true := by
  simp [isNumeric, h]

theorem IsDigits.isNumeric {digits : List Char} (h : IsDigits digits) :
    ∀ c ∈ digits, isNumeric c = true :=
  fun c hc => isNumeric_of_isDigit (h.2 c hc)

theorem ExponentText.isNumeric_of_mem_text (e : ExponentText) :
    ∀ c ∈ e.text, isNumeric c = true := by
  intro c hc
  rw [text, List.mem_cons, List.mem_append] at hc
  rcases hc with rfl | hc | hc
  · have hletter := e.letter_mem
    simp only [List.mem_cons, List.not_mem_nil, or_false] at hletter
    rcases hletter with h | h <;> rw [h] <;> rfl
  · have hsign := e.sign_mem c (Option.mem_toList.1 hc)
    simp only [List.mem_cons, List.not_mem_nil, or_false] at hsign
    rcases hsign with rfl | rfl <;> rfl
  · exact e.isDigits.isNumeric c hc

theorem NumberText.isNumeric_of_mem_text (n : NumberText) : ∀ c ∈ n.text, isNumeric c = true := by
  intro c hc
  rw [text, List.mem_append, List.mem_append, List.mem_append] at hc
  rcases hc with hc | hc | hc | hc
  · rw [sign] at hc
    split at hc
    · rw [List.mem_singleton.1 hc]
      rfl
    · cases hc
  · exact n.isDigits_whole.isNumeric c hc
  · rw [point] at hc
    cases hfraction : n.fraction with
    | none => simp [hfraction] at hc
    | some digits =>
      rw [hfraction, Option.elim_some, List.mem_cons] at hc
      rcases hc with rfl | hc
      · rfl
      · exact (n.isDigits_fraction digits hfraction).isNumeric c hc
  · cases hexponent : n.exponent with
    | none => simp [hexponent] at hc
    | some e =>
      rw [hexponent, Option.elim_some] at hc
      exact e.isNumeric_of_mem_text c hc

theorem NumberText.exists_text_eq (n : NumberText) :
    ∃ c rest, n.text = c :: rest ∧ isNumeric c = true := by
  have hne : n.text ≠ [] := by simp [text, n.isDigits_whole.1]
  obtain ⟨c, rest, htext⟩ := List.exists_cons_of_ne_nil hne
  exact ⟨c, rest, htext, n.isNumeric_of_mem_text c (by simp [htext])⟩

/-- The characters of numbers are visible, and none is a quote, a mark or a slash. -/
theorem plain_of_isNumeric {c : Char} (h : isNumeric c = true) :
    (33 ≤ c.toNat ∧ c.toNat ≤ 126) ∧ c ∉ ['"', '/', ',', ']', '\x7d'] := by
  simp only [isNumeric, Bool.or_eq_true, decide_eq_true_eq] at h
  rcases h with ((((h | rfl) | rfl) | rfl) | rfl) | rfl
  · obtain ⟨hzero, hnine⟩ : 48 ≤ c.toNat ∧ c.toNat ≤ 57 := Char.isDigit_iff_toNat.1 h
    refine ⟨by omega, fun hmem => ?_⟩
    simp only [List.mem_cons, List.not_mem_nil, or_false] at hmem
    rcases hmem with rfl | rfl | rfl | rfl | rfl <;> revert hzero hnine <;> decide
  all_goals decide

theorem isSpace_of_visible {c : Char} (h : 33 ≤ c.toNat) : isSpace c = false := by
  rw [← Bool.not_eq_true, isSpace]
  intro hspace
  simp only [Bool.or_eq_true, decide_eq_true_eq] at hspace
  rcases hspace with ((rfl | rfl) | rfl) | rfl <;> revert h <;> decide

/-- A token begins with a visible character, and with a closing bracket only if it is one. -/
theorem Token.exists_text_eq (token : Token) :
    ∃ c rest, token.text = c :: rest ∧ (33 ≤ c.toNat ∧ c.toNat ≤ 126) ∧
      decide (c = ']' ∨ c = '\x7d') = token.closes := by
  cases token with
  | mark m => cases m <;> exact ⟨_, _, rfl, by decide, by decide⟩
  | string items => exact ⟨_, _, rfl, by decide, rfl⟩
  | word w => cases w <;> exact ⟨_, _, rfl, by decide, by decide⟩
  | number n =>
    obtain ⟨c, rest, htext, hnumeric⟩ := n.exists_text_eq
    obtain ⟨hvisible, hne⟩ := plain_of_isNumeric hnumeric
    exact ⟨c, rest, htext, hvisible, by simp_all [closes]⟩

/-! ### What becomes of the tokens of a text -/

theorem stripFrom_code_append {front : List Char} (h : ∀ c ∈ front, c ≠ '"' ∧ c ≠ '/')
    (cs : List Char) : stripFrom .code (front ++ cs) = front ++ stripFrom .code cs := by
  induction front with
  | nil => rfl
  | cons c front ih =>
    rw [List.forall_mem_cons] at h
    rw [List.cons_append, stripFrom_code_of_ne h.1, ih h.2, List.cons_append]

theorem dropCommasFrom_code_append {front : List Char} (h : ∀ c ∈ front, c ≠ '"' ∧ c ≠ ',')
    (cs : List Char) : dropCommasFrom .code (front ++ cs) = front ++ dropCommasFrom .code cs := by
  induction front with
  | nil => rfl
  | cons c front ih =>
    rw [List.forall_mem_cons] at h
    rw [List.cons_append, dropCommasFrom_code_of_ne h.1.1 h.1.2, ih h.2, List.cons_append]

theorem stripFrom_token (token : Token) (cs : List Char) :
    stripFrom .code (token.text ++ cs) = token.text ++ stripFrom .code cs := by
  cases token with
  | mark m => exact stripFrom_code_append (by cases m <;> simp [Token.text, Mark.char]) cs
  | string items => exact keepsStrings_stripFrom.literal items cs
  | word w => exact stripFrom_code_append (by cases w <;> simp [Token.text, Word.text]) cs
  | number n =>
    refine stripFrom_code_append (fun c hc => ?_) cs
    have hne := (plain_of_isNumeric (n.isNumeric_of_mem_text c hc)).2
    simp_all

theorem dropCommasFrom_token {token : Token} (h : token ≠ .mark .comma) (cs : List Char) :
    dropCommasFrom .code (token.text ++ cs) = token.text ++ dropCommasFrom .code cs := by
  cases token with
  | mark m =>
    refine dropCommasFrom_code_append ?_ cs
    cases m <;> first | exact absurd rfl h | simp [Token.text, Mark.char]
  | string items => exact keepsStrings_dropCommasFrom.literal items cs
  | word w => exact dropCommasFrom_code_append (by cases w <;> simp [Token.text, Word.text]) cs
  | number n =>
    refine dropCommasFrom_code_append (fun c hc => ?_) cs
    have hne := (plain_of_isNumeric (n.isNumeric_of_mem_text c hc)).2
    simp_all

theorem IsSpaces.cases_mem {gap : List Char} (h : IsSpaces gap) {c : Char} (hc : c ∈ gap) :
    c = ' ' ∨ c = '\t' ∨ c = '\n' ∨ c = '\r' := by
  simpa [isSpace, or_assoc] using h c hc

theorem IsSpaces.append {gap other : List Char} (h : IsSpaces gap) (hother : IsSpaces other) :
    IsSpaces (gap ++ other) := by
  intro c hc
  rcases List.mem_append.1 hc with hc | hc
  · exact h c hc
  · exact hother c hc

theorem IsSpaces.stripFrom {gap : List Char} (h : IsSpaces gap) (cs : List Char) :
    stripFrom .code (gap ++ cs) = gap ++ Json.stripFrom .code cs := by
  refine stripFrom_code_append (fun c hc => ?_) cs
  rcases h.cases_mem hc with rfl | rfl | rfl | rfl <;> decide

theorem IsSpaces.dropCommasFrom {gap : List Char} (h : IsSpaces gap) (cs : List Char) :
    dropCommasFrom .code (gap ++ cs) = gap ++ Json.dropCommasFrom .code cs := by
  refine dropCommasFrom_code_append (fun c hc => ?_) cs
  rcases h.cases_mem hc with rfl | rfl | rfl | rfl <;> decide

theorem Piece.IsGap.isSpaces_kept {piece : Piece} (h : piece.IsGap) :
    IsSpaces (textOf piece.kept) := by
  cases piece with
  | char c hc =>
    intro other hother
    rw [List.mem_singleton.1 hother]
    exact h
  | literal => cases h
  | lineComment =>
    intro other hother
    rw [List.mem_singleton.1 hother]
    rfl
  | blockComment body hbody =>
    rw [kept, textOf_map_lineFeed fun c hc => of_decide_eq_true (List.mem_filter.1 hc).2]
    intro c hc
    rw [of_decide_eq_true (List.mem_filter.1 hc).2]
    rfl

theorem isSpaces_textOf_kept {pieces : List Piece} (h : ∀ piece ∈ pieces, piece.IsGap) :
    IsSpaces (textOf (pieces.flatMap Piece.kept)) := by
  induction pieces with
  | nil => exact fun c hc => absurd hc List.not_mem_nil
  | cons piece pieces ih =>
    rw [List.forall_mem_cons] at h
    rw [List.flatMap_cons, textOf_append]
    exact h.1.isSpaces_kept.append (ih h.2)

/-- Without its comments a relaxed text is a plain one with the same tokens. -/
theorem plain_stripComments {tokens : List Token} {cs : List Char} (h : Relaxed tokens cs) :
    Plain tokens (stripComments cs) := by
  rw [stripComments]
  induction h with
  | nil hgap =>
    obtain ⟨pieces, last, hpieces, rfl⟩ := hgap
    rw [stripFrom_textOf, stripFrom_last, List.append_nil]
    exact .nil (isSpaces_textOf_kept hpieces)
  | cons hgap _ ih =>
    obtain ⟨pieces, hpieces, rfl⟩ := hgap
    rw [stripFrom_textOf, stripFrom_token]
    exact .cons (isSpaces_textOf_kept hpieces) ih

/-- A plain text has no comments. -/
theorem stripComments_of_plain {tokens : List Token} {cs : List Char} (h : Plain tokens cs) :
    stripComments cs = cs := by
  rw [stripComments]
  induction h with
  | nil hgap =>
    have hstrip := hgap.stripFrom []
    rwa [List.append_nil, Json.stripFrom, List.append_nil] at hstrip
  | cons hgap _ ih => rw [hgap.stripFrom, stripFrom_token, ih]

theorem Laid.spaces_append {tokens : List Token} {gap cs : List Char} (hgap : IsSpaces gap)
    (h : Plain tokens cs) : Plain tokens (gap ++ cs) := by
  cases h with
  | nil hlast => exact .nil (hgap.append hlast)
  | cons hfirst hrest =>
    rw [← List.append_assoc]
    exact .cons (hgap.append hfirst) hrest

/-- A closing bracket comes next in a text if it is the first of the tokens. -/
theorem closesNext_of_plain {tokens : List Token} {cs : List Char} (h : Plain tokens cs) :
    closesNext cs = tokens.head?.any Token.closes := by
  have hblank {gap : List Char} (hgap : IsSpaces gap) : ∀ c ∈ gap, Text.isBlank c = true := by
    intro c hc
    rcases hgap.cases_mem hc with rfl | rfl | rfl | rfl <;> decide
  cases h with
  | nil hgap =>
    rw [closesNext, Text.trimLeft, List.dropWhile_eq_nil_iff.2 (hblank hgap)]
    rfl
  | @cons gap cs token tokens hgap _ =>
    obtain ⟨c, rest, htext, hvisible, hcloses⟩ := token.exists_text_eq
    rw [closesNext, Text.trimLeft, List.dropWhile_append_of_pos (hblank hgap), htext,
      List.cons_append, List.dropWhile_cons_of_neg
        (by simp [Text.isBlank_of_visible hvisible.1 hvisible.2])]
    simpa using hcloses

/-- Without its trailing commas a plain text is one of the tokens without them. -/
theorem plain_dropTrailingCommas {tokens : List Token} {cs : List Char} (h : Plain tokens cs) :
    Plain (dropTrailing tokens) (dropTrailingCommas cs) := by
  rw [dropTrailingCommas]
  induction h with
  | nil hgap =>
    have hdrop := hgap.dropCommasFrom []
    rw [List.append_nil, Json.dropCommasFrom, List.append_nil] at hdrop
    rw [hdrop]
    exact .nil hgap
  | @cons gap cs token tokens hgap hrest ih =>
    rw [hgap.dropCommasFrom]
    by_cases hcomma : token = .mark .comma
    · subst hcomma
      have hnext := closesNext_of_plain hrest
      rw [Token.text, Mark.char, List.singleton_append, dropCommasFrom_comma, hnext, dropTrailing]
      split
      · exact ih.spaces_append hgap
      · exact .cons hgap ih
    · rw [dropCommasFrom_token hcomma, dropTrailing_cons_of_ne hcomma]
      exact .cons hgap ih

theorem length_dropTrailing_le (tokens : List Token) :
    (dropTrailing tokens).length ≤ tokens.length := by
  fun_induction dropTrailing tokens with
  | case1 => exact le_rfl
  | case2 rest _ ih => exact ih.trans (Nat.le_succ _)
  | case3 rest _ ih => exact Nat.succ_le_succ ih
  | case4 token rest _ ih => exact Nat.succ_le_succ ih

/-- A plain text stays as it is if no comma stands in front of a closing bracket. -/
theorem dropTrailingCommas_of_plain {tokens : List Token} {cs : List Char} (h : Plain tokens cs)
    (htokens : dropTrailing tokens = tokens) : dropTrailingCommas cs = cs := by
  rw [dropTrailingCommas]
  induction h with
  | nil hgap =>
    have hdrop := hgap.dropCommasFrom []
    rwa [List.append_nil, Json.dropCommasFrom, List.append_nil] at hdrop
  | @cons gap cs token tokens hgap hrest ih =>
    rw [hgap.dropCommasFrom]
    by_cases hcomma : token = .mark .comma
    · subst hcomma
      have hnext := closesNext_of_plain hrest
      rw [dropTrailing] at htokens
      by_cases hcloses : tokens.head?.any Token.closes = true
      · have hle := length_dropTrailing_le tokens
        rw [if_pos hcloses] at htokens
        rw [htokens, List.length_cons] at hle
        omega
      · rw [if_neg hcloses] at htokens
        rw [Token.text, Mark.char, List.singleton_append, dropCommasFrom_comma, hnext,
          if_neg hcloses, ih (List.cons.inj htokens).2]
    · rw [dropTrailing_cons_of_ne hcomma] at htokens
      rw [dropCommasFrom_token hcomma, ih (List.cons.inj htokens).2]

theorem Laid.length_le {Gap Last : List Char → Prop} {tokens : List Token} {cs : List Char}
    (h : Laid Gap Last tokens cs) : tokens.length ≤ cs.length := by
  induction h with
  | nil => exact Nat.zero_le _
  | @cons gap cs token tokens _ _ ih =>
    obtain ⟨c, rest, htext, -⟩ := token.exists_text_eq
    simp only [List.length_cons, List.length_append, htext]
    omega

end ExpectError.Json
