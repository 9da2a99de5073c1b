import ExpectError.Proofs.JsonTokens

/-!
# Spaces between the tokens of a JSON text

Plain texts with the same tokens are read alike: either both are refused, or they give the same
value and leave texts with the same tokens. This goes from reader to reader, because what a reader
does next depends on the first token of what is left (`SameTokens.front`).

* `readNumeral_append`, `exists_readUnits`: numbers and strings, whatever stands behind them;
* `SameTokens`, `Alike`: texts with the same tokens, and what reading them gives;
* `alike_values`: values, elements and members.
-/

namespace ExpectError.Json

/-! ### Tokens at the front of a text -/

/-- The next character cannot be part of a number. -/
def Stops (cs : List Char) : Prop :=
  ∀ c ∈ cs.head?, isNumeric c = false

theorem Stops.isDigit {cs : List Char} (h : Stops cs) : ∀ c ∈ cs.head?, isDigit c = false := by
  intro c hc
  have hnumeric := h c hc
  rw [← Bool.not_eq_true] at hnumeric ⊢
  exact mt isNumeric_of_isDigit hnumeric

/-! ### Numbers -/

theorem readDigits_append {digits rest : List Char} (h : IsDigits digits)
    (hrest : ∀ c ∈ rest.head?, isDigit c = false) :
    readDigits (digits ++ rest) = some (digits, rest) := by
  have hstop : rest.takeWhile isDigit = [] ∧ rest.dropWhile isDigit = rest := by
    cases rest with
    | nil => exact ⟨rfl, rfl⟩
    | cons c rest => simp [hrest c rfl]
  obtain ⟨c, others, rfl⟩ := List.exists_cons_of_ne_nil h.1
  rw [readDigits, List.takeWhile_append_of_pos h.2, hstop.1, List.append_nil,
    List.dropWhile_append_of_pos h.2, hstop.2]

theorem readWhole_append {digits rest : List Char} (h : IsDigits digits)
    (hzero : digits.head? = some '0' → digits = ['0'])
    (hrest : ∀ c ∈ rest.head?, isDigit c = false) :
    readWhole (digits ++ rest) = some (digits, rest) := by
  have hlength : ¬ (digits.head? = some '0' ∧ 1 < digits.length) := by
    rintro ⟨hhead, hlength⟩
    rw [hzero hhead] at hlength
    exact absurd hlength (by decide)
  rw [readWhole, readDigits_append h hrest]
  simpa using hlength

theorem readSigned_append (e : ExponentText) {rest : List Char} (hrest : Stops rest) :
    readSigned (e.sign.toList ++ (e.digits ++ rest)) =
      some ((decide (e.sign = some '-'), e.digits), rest) := by
  have hdigits := readDigits_append e.isDigits hrest.isDigit
  cases hsign : e.sign with
  | none =>
    obtain ⟨c, others, heq⟩ := List.exists_cons_of_ne_nil e.isDigits.1
    have hc : isDigit c = true := e.isDigits.2 c (by simp [heq])
    rw [Option.toList_none, List.nil_append, readSigned, hdigits]
    · rfl
    · rintro _ hminus
      rw [heq, List.cons_append, List.cons.injEq] at hminus
      exact absurd hc (by rw [hminus.1]; decide)
    · rintro _ hplus
      rw [heq, List.cons_append, List.cons.injEq] at hplus
      exact absurd hc (by rw [hplus.1]; decide)
  | some c =>
    have hmem := e.sign_mem c hsign
    simp only [List.mem_cons, List.not_mem_nil, or_false] at hmem
    rcases hmem with rfl | rfl
    · simp [readSigned, hdigits]
    · simp [readSigned, hdigits]

theorem readExponent_append (exponent : Option ExponentText) {rest : List Char}
    (hrest : Stops rest) :
    readExponent (exponent.elim [] ExponentText.text ++ rest) =
      some (exponent.map fun e => (decide (e.sign = some '-'), e.digits), rest) := by
  cases exponent with
  | none =>
    rw [Option.elim_none, List.nil_append, readExponent]
    · rfl
    · rintro cs rfl
      exact absurd (hrest 'e' rfl) (by decide)
    · rintro cs rfl
      exact absurd (hrest 'E' rfl) (by decide)
  | some e =>
    have hsigned := readSigned_append e hrest
    have hletter := e.letter_mem
    simp only [List.mem_cons, List.not_mem_nil, or_false] at hletter
    rw [Option.elim_some, ExponentText.text, List.cons_append, List.append_assoc]
    rcases hletter with h | h
    · rw [h, readExponent, hsigned]
      rfl
    · rw [h, readExponent, hsigned]
      rfl

theorem readFraction_append (n : NumberText) {rest : List Char} (hpoint : rest.head? ≠ some '.')
    (hrest : ∀ c ∈ rest.head?, isDigit c = false) :
    readFraction (n.point ++ rest) = some (n.fraction, rest) := by
  cases hfraction : n.fraction with
  | none =>
    rw [NumberText.point, hfraction, Option.elim_none, List.nil_append, readFraction]
    rintro cs rfl
    exact hpoint rfl
  | some digits =>
    have hdigits := readDigits_append (n.isDigits_fraction digits hfraction) hrest
    rw [NumberText.point, hfraction, Option.elim_some, List.cons_append, readFraction, hdigits]
    rfl

/-- What stands behind the digits of a number is not a digit. -/
theorem ExponentText.head?_text_append (exponent : Option ExponentText) {rest : List Char}
    (hrest : Stops rest) :
    (exponent.elim [] ExponentText.text ++ rest).head? ≠ some '.' ∧
      ∀ c ∈ (exponent.elim [] ExponentText.text ++ rest).head?, isDigit c = false := by
  cases exponent with
  | none => exact ⟨fun h => absurd (hrest '.' h) (by decide), hrest.isDigit⟩
  | some e =>
    have hletter := e.letter_mem
    simp only [List.mem_cons, List.not_mem_nil, or_false] at hletter
    rcases hletter with h | h
    · simp [text, h, isDigit]
    · simp [text, h, isDigit]

/-- What stands behind the whole part of a number is not a digit. -/
theorem NumberText.head?_point_append (n : NumberText) {rest : List Char}
    (hrest : ∀ c ∈ rest.head?, isDigit c = false) :
    ∀ c ∈ (n.point ++ rest).head?, isDigit c = false := by
  cases hfraction : n.fraction with
  | none => simpa [point, hfraction] using hrest
  | some digits => simp [point, hfraction, isDigit]

/-- The parts of a number that matter for its value. -/
def NumberText.numeral (n : NumberText) : Numeral where
  negative := n.isNegative
  whole := n.whole
  fraction := n.fraction
  exponent := n.exponent.map fun e => (decide (e.sign = some '-'), e.digits)

/-- A number is read as a whole if what stands behind it cannot be part of it. -/
theorem readNumeral_append (n : NumberText) {rest : List Char} (hrest : Stops rest) :
    readNumeral (n.text ++ rest) = some (n.numeral, rest) := by
  obtain ⟨hpoint, hdigit⟩ := ExponentText.head?_text_append n.exponent hrest
  have hwhole := readWhole_append n.isDigits_whole n.whole_eq (n.head?_point_append hdigit)
  have hfraction := readFraction_append n hpoint hdigit
  have hexponent := readExponent_append n.exponent hrest
  rw [NumberText.text, NumberText.sign, List.append_assoc, List.append_assoc, List.append_assoc]
  cases hnegative : n.isNegative with
  | true => simp [readNumeral, NumberText.numeral, hnegative, hwhole, hfraction, hexponent]
  | false =>
    obtain ⟨c, others, heq⟩ := List.exists_cons_of_ne_nil n.isDigits_whole.1
    have hc : isDigit c = true := n.isDigits_whole.2 c (by simp [heq])
    have hminus : c ≠ '-' := by
      rintro rfl
      exact absurd hc (by decide)
    rw [heq, List.cons_append] at hwhole
    simp [readNumeral, NumberText.numeral, hnegative, heq, hminus, hwhole, hfraction, hexponent]

/-! ### Strings -/

theorem IsHexDigit.isSome_hexValue? {c : Char} (h : IsHexDigit c) :
    ∃ value, hexValue? c = some value := by
  rw [hexValue?]
  split
  · exact ⟨_, rfl⟩
  · split
    · exact ⟨_, rfl⟩
    · split
      · exact ⟨_, rfl⟩
      · rcases h with h | h | h
        · have hdigit : c.isDigit = true := by
            simp only [Char.isDigit, ge_iff_le, Bool.and_eq_true, decide_eq_true_eq]
            exact h
          contradiction
        · simp_all
        · simp_all

/-- What a literal says does not depend on what stands behind it. -/
theorem exists_readUnits (items : List StringItem) :
    ∃ units, ∀ rest, readUnits (closedItems items ++ rest) = some (units, rest) := by
  induction items with
  | nil => exact ⟨[], fun rest => by simp [closedItems, readUnits]⟩
  | cons item items ih =>
    obtain ⟨units, hunits⟩ := ih
    have hsplit (rest : List Char) :
        closedItems (item :: items) ++ rest = item.text ++ (closedItems items ++ rest) := by
      simp [closedItems]
    cases item with
    | raw c hc =>
      -- the reader tries its arms for escapes first, and `c` is no backslash
      refine ⟨.char c :: units, fun rest => ?_⟩
      obtain ⟨hlow, hquote, hback⟩ := hc
      rw [hsplit, StringItem.text, List.singleton_append, readUnits, hunits]
      · simp [hback, hlow]
      · exact hquote
      · rintro _ _ _ _ _ rfl
        exact absurd rfl hback
      · rintro _ _ rfl
        exact absurd rfl hback
    | escape c hc =>
      have hunescape : ∃ value, unescape? c = some value := by
        simp only [List.mem_cons, List.not_mem_nil, or_false] at hc
        rcases hc with rfl | rfl | rfl | rfl | rfl | rfl | rfl | rfl <;> exact ⟨_, rfl⟩
      obtain ⟨value, hvalue⟩ := hunescape
      refine ⟨.char value :: units, fun rest => ?_⟩
      rw [hsplit, StringItem.text, List.cons_append, List.singleton_append, readUnits, hunits,
        hvalue]
      · rfl
      · rintro _ _ _ _ _ rfl
        exact absurd hc (by decide)
    | unicode a b c d hdigits =>
      obtain ⟨va, ha⟩ := (hdigits a (by simp)).isSome_hexValue?
      obtain ⟨vb, hb⟩ := (hdigits b (by simp)).isSome_hexValue?
      obtain ⟨vc, hc⟩ := (hdigits c (by simp)).isSome_hexValue?
      obtain ⟨vd, hd⟩ := (hdigits d (by simp)).isSome_hexValue?
      refine ⟨.code ((va * 16 + vb) * 256 + vc * 16 + vd) :: units, fun rest => ?_⟩
      rw [hsplit]
      simp [StringItem.text, readUnits, hexValue4?, ha, hb, hc, hd, hunits]

/-! ### Texts with the same tokens -/

/-- Two plain texts have the same tokens, fewer than a given number of them. -/
def SameTokens (bound : ℕ) (cs other : List Char) : Prop :=
  ∃ tokens, tokens.length < bound ∧ Separable tokens ∧ Plain tokens cs ∧ Plain tokens other

/-- Two texts have been read alike: both are refused, or they give the same value and leave texts
with the same tokens. -/
inductive Alike {α : Type} (bound : ℕ) :
    Option (α × List Char) → Option (α × List Char) → Prop where
  | refused : Alike bound none none
  | read (value : α) {cs other : List Char} :
    SameTokens bound cs other → Alike bound (some (value, cs)) (some (value, other))

/-- What two texts with the same tokens begin with, when they begin with no space. -/
inductive SameFront : ℕ → List Char → List Char → Prop where
  | blank {bound : ℕ} : SameFront (bound + 1) [] []
  | token {bound : ℕ} (token : Token) {cs other : List Char} : SameTokens bound cs other →
    (token.isBare = true → Stops cs ∧ Stops other) →
    SameFront (bound + 1) (token.text ++ cs) (token.text ++ other)

variable {α β : Type} {bound : ℕ} {cs other : List Char}

theorem SameTokens.mono {higher : ℕ} (h : SameTokens bound cs other) (hle : bound ≤ higher) :
    SameTokens higher cs other := by
  obtain ⟨tokens, hlength, hrest⟩ := h
  exact ⟨tokens, hlength.trans_le hle, hrest⟩

namespace Alike

variable {r r' : Option (α × List Char)}

theorem mono {higher : ℕ} (h : Alike bound r r') (hle : bound ≤ higher) : Alike higher r r' := by
  cases h with
  | refused => exact .refused
  | read value hsame => exact .read value (hsame.mono hle)

/-- Texts that have been read alike are read alike further on if their rests are. -/
theorem bind {higher : ℕ} {f g : α × List Char → Option (β × List Char)} (h : Alike bound r r')
    (hrest : ∀ value cs other, SameTokens bound cs other →
      Alike higher (f (value, cs)) (g (value, other))) : Alike higher (r.bind f) (r'.bind g) := by
  cases h with
  | refused => exact .refused
  | read value hsame => exact hrest value _ _ hsame

theorem map (h : Alike bound r r') (f : α → β) :
    Alike bound (r.map fun found => (f found.1, found.2))
      (r'.map fun found => (f found.1, found.2)) := by
  cases h with
  | refused => exact .refused
  | read value hsame => exact .read (f value) hsame

end Alike

theorem dropSpaces_append {gap : List Char} (h : IsSpaces gap) (cs : List Char) :
    dropSpaces (gap ++ cs) = dropSpaces cs :=
  List.dropWhile_append_of_pos h

theorem dropSpaces_token (token : Token) (cs : List Char) :
    dropSpaces (token.text ++ cs) = token.text ++ cs := by
  obtain ⟨c, rest, htext, hvisible, -⟩ := token.exists_text_eq
  rw [htext, List.cons_append, dropSpaces,
    List.dropWhile_cons_of_neg (by simp [isSpace_of_visible hvisible.1])]

theorem isSpaces_nil : IsSpaces [] :=
  fun _ h => absurd h List.not_mem_nil

theorem IsSpaces.stops {gap : List Char} (h : IsSpaces gap) (hrest : Stops cs) :
    Stops (gap ++ cs) := by
  cases gap with
  | nil => exact hrest
  | cons space gap =>
    rintro c ⟨⟩
    rcases h.cases_mem List.mem_cons_self with rfl | rfl | rfl | rfl <;> rfl

theorem Token.stops {token : Token} (h : token.isBare = false) (cs : List Char) :
    Stops (token.text ++ cs) := by
  rintro c hc
  cases token with
  | mark m =>
    cases m <;> cases hc <;> rfl
  | string items =>
    cases hc
    rfl
  | word => cases h
  | number => cases h

theorem stops_of_plain {tokens : List Token} (h : Plain tokens cs) (hapart : BeginsApart tokens) :
    Stops cs := by
  cases h with
  | nil hgap =>
    rw [← List.append_nil cs]
    exact hgap.stops fun c hc => by cases hc
  | cons hgap _ => exact hgap.stops (Token.stops (hapart _ rfl) _)

/-- Spaces are dropped, and then there is the same token in front of both texts. -/
theorem SameTokens.front (h : SameTokens bound cs other) :
    SameFront bound (dropSpaces cs) (dropSpaces other) := by
  obtain ⟨tokens, hlength, hseparable, hcs, hother⟩ := h
  cases tokens with
  | nil =>
    obtain ⟨lower, rfl⟩ := Nat.exists_eq_succ_of_ne_zero (Nat.ne_zero_of_lt hlength)
    cases hcs with
    | nil hgap =>
      cases hother with
      | nil hgap' =>
        rw [dropSpaces, dropSpaces, List.dropWhile_eq_nil_iff.2 hgap,
          List.dropWhile_eq_nil_iff.2 hgap']
        exact .blank
  | cons token tokens =>
    obtain ⟨lower, rfl⟩ := Nat.exists_eq_succ_of_ne_zero (Nat.ne_zero_of_lt hlength)
    -- a word must not run into a word behind it
    have hapart (hbare : token.isBare = true) : BeginsApart tokens := fun next hnext =>
      Bool.eq_false_iff.2 fun hnextBare => (List.isChain_cons.1 hseparable).1 next hnext
        ⟨hbare, hnextBare⟩
    cases hcs with
    | cons hgap hrest =>
      cases hother with
      | cons hgap' hrest' =>
        rw [dropSpaces_append hgap, dropSpaces_append hgap', dropSpaces_token, dropSpaces_token]
        refine .token token ⟨tokens, Nat.lt_of_succ_lt_succ hlength,
          (List.isChain_cons.1 hseparable).2, hrest, hrest'⟩ fun hbare => ?_
        exact ⟨stops_of_plain hrest (hapart hbare), stops_of_plain hrest' (hapart hbare)⟩

theorem SameTokens.dropSpaces (h : SameTokens bound cs other) :
    SameTokens bound (dropSpaces cs) (Json.dropSpaces other) := by
  obtain ⟨tokens, hlength, hseparable, hcs, hother⟩ := h
  have hplain {text : List Char} (htext : Plain tokens text) :
      Plain tokens (Json.dropSpaces text) := by
    cases htext with
    | nil hgap =>
      rw [Json.dropSpaces, List.dropWhile_eq_nil_iff.2 hgap]
      exact .nil isSpaces_nil
    | cons hgap hrest =>
      rw [dropSpaces_append hgap, dropSpaces_token]
      exact .cons isSpaces_nil hrest
  exact ⟨tokens, hlength, hseparable, hplain hcs, hplain hother⟩

/-! ### What readers take off the front -/

theorem Token.eq_mark_of_text_eq {token : Token} {m : Mark} {rest : List Char}
    (h : token.text ++ cs = m.char :: rest) : token = .mark m := by
  cases token with
  | mark other =>
    have hchar := (List.cons.inj h).1
    cases other <;> cases m <;> first | rfl | exact absurd hchar (by decide)
  | string items =>
    have hchar := (List.cons.inj h).1
    cases m <;> exact absurd hchar (by decide)
  | word w =>
    have hchar := congrArg List.head? h
    cases w <;> cases m <;> exact absurd hchar (by simp [text, Word.text, Mark.char])
  | number n =>
    obtain ⟨c, others, htext, hnumeric⟩ := n.exists_text_eq
    rw [text, htext, List.cons_append, List.cons.injEq] at h
    rw [h.1] at hnumeric
    cases m <;> exact absurd hnumeric (by decide)

theorem Token.eq_string_of_text_eq {token : Token} {rest : List Char}
    (h : token.text ++ cs = '"' :: rest) :
    ∃ items, token = .string items ∧ rest = closedItems items ++ cs := by
  cases token with
  | mark m =>
    have hchar := (List.cons.inj h).1
    cases m <;> exact absurd hchar (by decide)
  | string items => exact ⟨items, rfl, (List.cons.inj h).2.symm⟩
  | word w =>
    have hchar := congrArg List.head? h
    cases w <;> exact absurd hchar (by simp [text, Word.text])
  | number n =>
    obtain ⟨c, others, htext, hnumeric⟩ := n.exists_text_eq
    rw [text, htext, List.cons_append, List.cons.injEq] at h
    rw [h.1] at hnumeric
    exact absurd hnumeric (by decide)

/-- A mark stands in front of both texts or of neither. -/
theorem SameFront.mark (m : Mark) (h : SameFront (bound + 1) cs other) :
    (∃ rest rest', cs = m.char :: rest ∧ other = m.char :: rest' ∧ SameTokens bound rest rest') ∨
      (∀ rest, cs ≠ m.char :: rest) ∧ ∀ rest, other ≠ m.char :: rest := by
  cases h with
  | blank => exact .inr ⟨fun _ h => (by cases h), fun _ h => (by cases h)⟩
  | token token hrest _ =>
    by_cases htoken : token = .mark m
    · subst htoken
      exact .inl ⟨_, _, rfl, rfl, hrest⟩
    · exact .inr ⟨fun _ h => htoken (Token.eq_mark_of_text_eq h),
        fun _ h => htoken (Token.eq_mark_of_text_eq h)⟩

/-- The same literal stands in front of both texts, or none in front of either. -/
theorem SameFront.string (h : SameFront (bound + 1) cs other) :
    (∃ items rest rest', cs = '"' :: (closedItems items ++ rest) ∧
      other = '"' :: (closedItems items ++ rest') ∧ SameTokens bound rest rest') ∨
      (∀ rest, cs ≠ '"' :: rest) ∧ ∀ rest, other ≠ '"' :: rest := by
  cases h with
  | blank => exact .inr ⟨fun _ h => (by cases h), fun _ h => (by cases h)⟩
  | token token hrest _ =>
    by_cases htoken : ∃ items, token = .string items
    · obtain ⟨items, rfl⟩ := htoken
      exact .inl ⟨items, _, _, rfl, rfl, hrest⟩
    · rw [not_exists] at htoken
      refine .inr ⟨fun _ h => ?_, fun _ h => ?_⟩
      · obtain ⟨items, hitems, -⟩ := Token.eq_string_of_text_eq h
        exact htoken items hitems
      · obtain ⟨items, hitems, -⟩ := Token.eq_string_of_text_eq h
        exact htoken items hitems

theorem dropWord?_cons (c : Char) (rest : List Char) : dropWord? [c] (c :: rest) = some rest := by
  simp [dropWord?]

theorem dropWord?_of_ne {c : Char} (h : ∀ rest, cs ≠ c :: rest) : dropWord? [c] cs = none := by
  cases cs with
  | nil => rfl
  | cons first rest =>
    have hne : c ≠ first := fun heq => h rest (by rw [heq])
    simp [dropWord?, hne]

theorem exists_readString (kept : Bool) (items : List StringItem) :
    ∃ text : Option String, ∀ rest,
      readString kept (closedItems items ++ rest) = text.map fun text => (text, rest) := by
  obtain ⟨units, hunits⟩ := exists_readUnits items
  cases kept with
  | false => exact ⟨some "", fun rest => by simp [readString, hunits]⟩
  | true =>
    refine ⟨(joinUnits? units).map String.ofList, fun rest => ?_⟩
    cases hjoin : joinUnits? units <;> simp [readString, hunits, hjoin]

theorem exists_readNumber (kept : Bool) (n : NumberText) :
    ∃ number : Option Number, ∀ rest, Stops rest →
      readNumber kept (n.text ++ rest) = number.map fun number => (number, rest) := by
  cases kept with
  | false =>
    refine ⟨some (.whole 0), fun rest hrest => ?_⟩
    simp [readNumber, readNumeral_append n hrest]
  | true =>
    refine ⟨n.numeral.value?, fun rest hrest => ?_⟩
    rw [readNumber, readNumeral_append n hrest]
    cases hvalue : n.numeral.value? <;> simp [hvalue]

theorem readNumber_of_head? {kept : Bool} (h : ∀ c ∈ cs.head?, c ≠ '-' ∧ isDigit c = false) :
    readNumber kept cs = none := by
  cases cs with
  | nil => rfl
  | cons c cs =>
    obtain ⟨hminus, hdigit⟩ := h c rfl
    simp [readNumber, readNumeral, hminus, readWhole, readDigits, hdigit]

theorem alike_map {value : Option α} (h : SameTokens bound cs other) :
    Alike bound (value.map fun value => (value, cs)) (value.map fun value => (value, other)) := by
  cases value with
  | none => exact .refused
  | some value => exact .read value h

namespace SameTokens

variable {higher : ℕ}

theorem bind_mark (m : Mark) (h : SameTokens (bound + 1) cs other)
    {f g : List Char → Option (β × List Char)}
    (hrest : ∀ cs other, SameTokens bound cs other → Alike higher (f cs) (g other)) :
    Alike higher ((dropWord? [m.char] (Json.dropSpaces cs)).bind f)
      ((dropWord? [m.char] (Json.dropSpaces other)).bind g) := by
  rcases h.front.mark m with ⟨rest, rest', hcs, hother, hsame⟩ | ⟨hcs, hother⟩
  · rw [hcs, hother, dropWord?_cons, dropWord?_cons]
    exact hrest _ _ hsame
  · rw [dropWord?_of_ne hcs, dropWord?_of_ne hother]
    exact .refused

theorem bind_separator (isFirst : Bool) (h : SameTokens (bound + 1) cs other)
    {f g : List Char → Option (β × List Char)}
    (hrest : ∀ cs other, SameTokens (bound + 1) cs other → Alike higher (f cs) (g other)) :
    Alike higher
      ((if isFirst then some (Json.dropSpaces cs) else dropWord? [','] (Json.dropSpaces cs)).bind f)
      ((if isFirst then some (Json.dropSpaces other)
        else dropWord? [','] (Json.dropSpaces other)).bind g) := by
  cases isFirst with
  | true => exact hrest _ _ h.dropSpaces
  | false =>
    exact h.bind_mark .comma fun cs other hsame => hrest cs other (hsame.mono (Nat.le_succ _))

theorem bind_string (kept : Bool) (h : SameTokens (bound + 1) cs other)
    {f g : String × List Char → Option (β × List Char)}
    (hrest : ∀ text cs other, SameTokens bound cs other →
      Alike higher (f (text, cs)) (g (text, other))) :
    Alike higher
      ((dropWord? ['"'] (Json.dropSpaces cs)).bind fun cs => (readString kept cs).bind f)
      ((dropWord? ['"'] (Json.dropSpaces other)).bind fun cs => (readString kept cs).bind g) := by
  rcases h.front.string with ⟨items, rest, rest', hcs, hother, hsame⟩ | ⟨hcs, hother⟩
  · obtain ⟨text, htext⟩ := exists_readString kept items
    rw [hcs, hother, dropWord?_cons, dropWord?_cons, Option.bind_some, Option.bind_some, htext,
      htext]
    exact (alike_map hsame).bind hrest
  · rw [dropWord?_of_ne hcs, dropWord?_of_ne hother]
    exact .refused

end SameTokens

/-! ### Values -/

section

variable {kept isFirst : Bool} {steps depth : ℕ}

/-- What is neither a literal nor a bracket nor a word is read as a number. -/
theorem readValue_of_head?
    (h : ∀ c ∈ (dropSpaces cs).head?, c ∉ ['"', '[', '\x7b', 'n', 't', 'f']) :
    readValue kept (steps + 1) depth cs =
      (readNumber kept (dropSpaces cs)).map fun number => (.number number.1, number.2) := by
  rw [readValue]
  split
  case h_7 => rfl
  all_goals
    rename_i heq
    rw [heq] at h
    exact absurd (h _ rfl) (by decide)

theorem readValue_of_number {n : NumberText} {rest : List Char}
    (h : dropSpaces cs = n.text ++ rest) :
    readValue kept (steps + 1) depth cs =
      (readNumber kept (n.text ++ rest)).map fun number => (.number number.1, number.2) := by
  obtain ⟨c, others, htext, hnumeric⟩ := n.exists_text_eq
  have hhead : ∀ c ∈ (dropSpaces cs).head?, c ∉ ['"', '[', '\x7b', 'n', 't', 'f'] := by
    rw [h, htext]
    rintro _ ⟨⟩ hmem
    simp only [List.mem_cons, List.not_mem_nil, or_false] at hmem
    rcases hmem with rfl | rfl | rfl | rfl | rfl | rfl <;> exact absurd hnumeric (by decide)
  rw [readValue_of_head? hhead, h]

theorem readElements_closed {rest : List Char} (h : dropSpaces cs = ']' :: rest) :
    readElements kept (steps + 1) depth isFirst cs = some ([], rest) := by
  simp only [readElements, h]

theorem readElements_of_ne (h : ∀ rest, dropSpaces cs ≠ ']' :: rest) :
    readElements kept (steps + 1) depth isFirst cs =
      (if isFirst then some (dropSpaces cs) else dropWord? [','] (dropSpaces cs)).bind fun cs =>
        (readValue kept steps depth cs).bind fun value =>
          (readElements kept steps depth false value.2).map fun others =>
            (value.1 :: others.1, others.2) := by
  rw [readElements]
  split
  next rest heq => exact absurd heq (h rest)
  next =>
    simp only [Option.map_eq_bind]
    cases isFirst <;> rfl

theorem readMembers_closed {rest : List Char} (h : dropSpaces cs = '\x7d' :: rest) :
    readMembers kept (steps + 1) depth isFirst cs = some ([], rest) := by
  simp only [readMembers, h]

theorem readMembers_of_ne (h : ∀ rest, dropSpaces cs ≠ '\x7d' :: rest) :
    readMembers kept (steps + 1) depth isFirst cs =
      (if isFirst then some (dropSpaces cs) else dropWord? [','] (dropSpaces cs)).bind fun cs =>
        (dropWord? ['"'] (dropSpaces cs)).bind fun cs => (readString kept cs).bind fun name =>
          (dropWord? [':'] (dropSpaces name.2)).bind fun cs =>
            (readValue kept steps depth cs).bind fun value =>
              (readMembers kept steps depth false value.2).map fun others =>
                ((name.1, value.1) :: others.1, others.2) := by
  rw [readMembers]
  split
  next rest heq => exact absurd heq (h rest)
  next =>
    simp only [Option.map_eq_bind]
    cases isFirst <;> rfl

end

/-- Values are read alike whatever their spaces are, given steps enough: an array or an object with
what is in it takes two for each of its tokens at most. -/
def ValuesAlike (kept : Bool) (bound : ℕ) : Prop :=
  ∀ depth steps steps' cs other, 2 * bound + 2 ≤ steps → 2 * bound + 2 ≤ steps' →
    SameTokens (bound + 1) cs other →
    Alike bound (readValue kept steps depth cs) (readValue kept steps' depth other)

/-- Elements are read alike whatever their spaces are, given steps enough. -/
def ElementsAlike (kept : Bool) (bound : ℕ) : Prop :=
  ∀ depth isFirst steps steps' cs other, 2 * bound + 1 ≤ steps → 2 * bound + 1 ≤ steps' →
    SameTokens bound cs other →
    Alike bound (readElements kept steps depth isFirst cs)
      (readElements kept steps' depth isFirst other)

/-- Members are read alike whatever their spaces are, given steps enough. -/
def MembersAlike (kept : Bool) (bound : ℕ) : Prop :=
  ∀ depth isFirst steps steps' cs other, 2 * bound + 1 ≤ steps → 2 * bound + 1 ≤ steps' →
    SameTokens bound cs other →
    Alike bound (readMembers kept steps depth isFirst cs)
      (readMembers kept steps' depth isFirst other)

theorem valuesAlike {kept : Bool} (helements : ElementsAlike kept bound)
    (hmembers : MembersAlike kept bound) : ValuesAlike kept bound := by
  intro depth steps steps' cs other hsteps hsteps' hsame
  obtain ⟨steps, rfl⟩ := Nat.exists_eq_succ_of_ne_zero (Nat.ne_zero_of_lt hsteps)
  obtain ⟨steps', rfl⟩ := Nat.exists_eq_succ_of_ne_zero (Nat.ne_zero_of_lt hsteps')
  have hfront := hsame.front
  generalize hcs : dropSpaces cs = front at hfront
  generalize hother : dropSpaces other = front' at hfront
  cases hfront with
  | blank =>
    rw [readValue_of_head? (by simp [hcs]), readValue_of_head? (by simp [hother]), hcs, hother]
    exact .refused
  | token token hrest hstops =>
    cases token with
    | mark m =>
      cases m with
      | openBracket =>
        simp only [readValue, hcs, hother, Token.text, Mark.char, List.singleton_append]
        split
        · exact .refused
        · exact (helements _ _ steps steps' _ _ (by omega) (by omega) hrest).map _
      | openBrace =>
        simp only [readValue, hcs, hother, Token.text, Mark.char, List.singleton_append]
        split
        · exact .refused
        · exact (hmembers _ _ steps steps' _ _ (by omega) (by omega) hrest).map fun members =>
            Value.object (members.foldl (fun done member => insertMember member.1 member.2 done) [])
      | closeBracket | closeBrace | comma | colon =>
        -- what is no value at all is taken for a number, and is none
        rw [readValue_of_head? (by simp [hcs, Token.text, Mark.char]),
          readValue_of_head? (by simp [hother, Token.text, Mark.char]), hcs, hother,
          readNumber_of_head? (by simp [Token.text, Mark.char, isDigit]),
          readNumber_of_head? (by simp [Token.text, Mark.char, isDigit])]
        exact .refused
    | string items =>
      obtain ⟨text, htext⟩ := exists_readString kept items
      simp only [readValue, hcs, hother, Token.text, literal, List.cons_append, htext]
      exact (alike_map hrest).map _
    | word w =>
      cases w
      all_goals
        simp only [readValue, hcs, hother, Token.text, Word.text, List.cons_append, List.nil_append,
          dropWord?]
        exact .read _ hrest
    | number n =>
      obtain ⟨number, hnumber⟩ := exists_readNumber kept n
      obtain ⟨hstop, hstop'⟩ := hstops rfl
      rw [readValue_of_number hcs, readValue_of_number hother, hnumber _ hstop, hnumber _ hstop']
      exact (alike_map hrest).map _

theorem elementsAlike {kept : Bool} (hvalues : ValuesAlike kept bound)
    (helements : ElementsAlike kept bound) : ElementsAlike kept (bound + 1) := by
  intro depth isFirst steps steps' cs other hsteps hsteps' hsame
  obtain ⟨steps, rfl⟩ := Nat.exists_eq_succ_of_ne_zero (Nat.ne_zero_of_lt hsteps)
  obtain ⟨steps', rfl⟩ := Nat.exists_eq_succ_of_ne_zero (Nat.ne_zero_of_lt hsteps')
  rcases hsame.front.mark .closeBracket with ⟨rest, rest', hcs, hother, hrest⟩ | ⟨hcs, hother⟩
  · rw [readElements_closed hcs, readElements_closed hother]
    exact .read [] (hrest.mono (Nat.le_succ _))
  · rw [readElements_of_ne hcs, readElements_of_ne hother]
    refine hsame.bind_separator isFirst fun cs other hsame => ?_
    refine (hvalues _ steps steps' _ _ (by omega) (by omega) hsame).bind ?_
    intro value cs other hsame
    exact ((helements _ _ steps steps' _ _ (by omega) (by omega) hsame).map _).mono (Nat.le_succ _)

theorem membersAlike {kept : Bool} (hvalues : ValuesAlike kept bound)
    (hmembers : MembersAlike kept bound) : MembersAlike kept (bound + 1) := by
  intro depth isFirst steps steps' cs other hsteps hsteps' hsame
  obtain ⟨steps, rfl⟩ := Nat.exists_eq_succ_of_ne_zero (Nat.ne_zero_of_lt hsteps)
  obtain ⟨steps', rfl⟩ := Nat.exists_eq_succ_of_ne_zero (Nat.ne_zero_of_lt hsteps')
  rcases hsame.front.mark .closeBrace with ⟨rest, rest', hcs, hother, hrest⟩ | ⟨hcs, hother⟩
  · rw [readMembers_closed hcs, readMembers_closed hother]
    exact .read [] (hrest.mono (Nat.le_succ _))
  · rw [readMembers_of_ne hcs, readMembers_of_ne hother]
    refine hsame.bind_separator isFirst fun cs other hsame => ?_
    refine hsame.bind_string kept fun name cs other hsame => ?_
    refine (hsame.mono (Nat.le_succ _)).bind_mark .colon fun cs other hsame => ?_
    refine (hvalues _ steps steps' _ _ (by omega) (by omega)
      (hsame.mono (Nat.le_succ _))).bind fun value cs other hsame => ?_
    exact ((hmembers _ _ steps steps' _ _ (by omega) (by omega) hsame).map _).mono (Nat.le_succ _)

theorem not_sameTokens_zero : ¬ SameTokens 0 cs other :=
  fun ⟨_, hlength, _⟩ => Nat.not_lt_zero _ hlength

/-- Spaces between tokens make no difference to values, elements and members. -/
theorem alike_values (kept : Bool) (bound : ℕ) :
    ValuesAlike kept bound ∧ ElementsAlike kept bound ∧ MembersAlike kept bound := by
  induction bound with
  | zero =>
    have helements : ElementsAlike kept 0 := fun _ _ _ _ _ _ _ _ h => absurd h not_sameTokens_zero
    have hmembers : MembersAlike kept 0 := fun _ _ _ _ _ _ _ _ h => absurd h not_sameTokens_zero
    exact ⟨valuesAlike helements hmembers, helements, hmembers⟩
  | succ bound ih =>
    obtain ⟨hvalues, helements, hmembers⟩ := ih
    have helements' := elementsAlike hvalues helements
    have hmembers' := membersAlike hvalues hmembers
    exact ⟨valuesAlike helements' hmembers', helements', hmembers'⟩

namespace SameTokens

variable {higher : ℕ}

theorem readValue (h : SameTokens (bound + 1) cs other) (kept : Bool) (depth : ℕ) :
    Alike bound (readValue kept (stepBound cs) depth cs)
      (Json.readValue kept (stepBound other) depth other) := by
  obtain ⟨tokens, hlength, hseparable, hcs, hother⟩ := h
  have hle := hcs.length_le
  have hle' := hother.length_le
  refine ((alike_values kept tokens.length).1 depth _ _ cs other ?_ ?_
    ⟨tokens, Nat.lt_succ_self _, hseparable, hcs, hother⟩).mono (Nat.le_of_lt_succ hlength)
  · rw [stepBound]
    omega
  · rw [stepBound]
    omega

theorem bind_keepValue (h : SameTokens (bound + 1) cs other) (depth : ℕ)
    {f g : Value × List Char → Option (β × List Char)}
    (hrest : ∀ value cs other, SameTokens bound cs other →
      Alike higher (f (value, cs)) (g (value, other))) :
    Alike higher ((keepValue depth cs).bind f) ((keepValue depth other).bind g) :=
  (h.readValue true depth).bind hrest

theorem bind_skipValue (h : SameTokens (bound + 1) cs other)
    {f g : List Char → Option (β × List Char)}
    (hrest : ∀ cs other, SameTokens bound cs other → Alike higher (f cs) (g other)) :
    Alike higher ((skipValue cs).bind f) ((skipValue other).bind g) := by
  rw [skipValue, skipValue, Option.bind_map, Option.bind_map]
  exact (h.readValue false 0).bind fun _ => hrest

end SameTokens

theorem SameFront.isEmpty_eq (h : SameFront bound cs other) : cs.isEmpty = other.isEmpty := by
  cases h with
  | blank => rfl
  | token token _ _ =>
    obtain ⟨c, rest, htext, -⟩ := token.exists_text_eq
    rw [htext]
    rfl

end ExpectError.Json
