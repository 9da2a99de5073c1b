import ExpectError.Text.Bytes

/-!
# Where lines start

A line ends with a line feed, a carriage return, the two of them in this order, U+2028 or U+2029. The
bytes of a text are searched for the terminators; in a well formed encoding, what is found there are
the terminators among the characters and nothing else.

* `lineStarts`: the byte offset of every line's first character;
* `startsInBytes`: the offsets that are found in the bytes;
* `endsInBytes_utf8Bytes`: the search finds the ends of the lines.
-/

namespace ExpectError.Text

/-! ### Among the characters -/

/-- Line feed, carriage return and the two Unicode separators. -/
def isLineBreak (c : Char) : Bool :=
  c = '\n' || c = '\r' || c = '\u2028' || c = '\u2029'

/-- The offsets just after each line terminator of a text that begins at offset `pos`. A carriage
return in front of a line feed ends no line of its own. -/
def lineStartsFrom (pos : Nat) : List Char → List Nat
  | [] => []
  | c :: cs =>
    if isLineBreak c && !(c = '\r' && cs.head? = some '\n') then
      (pos + c.utf8Size) :: lineStartsFrom (pos + c.utf8Size) cs
    else lineStartsFrom (pos + c.utf8Size) cs

/-- The byte offset of the first character of every line. -/
def lineStarts (cs : List Char) : List Nat :=
  0 :: lineStartsFrom 0 cs

/-! ### Searching the bytes -/

/-- The bytes of the UTF-8 encoding of a text. -/
def utf8Bytes (cs : List Char) : List UInt8 :=
  cs.flatMap String.utf8EncodeChar

/-- The offsets just after each line terminator in bytes that begin at offset `pos`. The separators
are `E2 80 A8` and `E2 80 A9`. -/
def endsInBytes (pos : Nat) : List UInt8 → List Nat
  | [] => []
  | byte :: bytes =>
    if byte = 10 then (pos + 1) :: endsInBytes (pos + 1) bytes
    else if byte = 13 then
      if bytes.head? = some 10 then endsInBytes (pos + 1) bytes
      else (pos + 1) :: endsInBytes (pos + 1) bytes
    else if byte = 0xE2 ∧ (bytes.take 2 = [0x80, 0xA8] ∨ bytes.take 2 = [0x80, 0xA9]) then
      (pos + 3) :: endsInBytes (pos + 1) bytes
    else endsInBytes (pos + 1) bytes

/-- The offset of the first byte of every line. -/
def startsInBytes (bytes : List UInt8) : List Nat :=
  0 :: endsInBytes 0 bytes

/-- A byte with which no terminator begins is passed over. -/
theorem endsInBytes_cons {b : Nat} (hb : b < 256) (hfeed : b ≠ 10) (hreturn : b ≠ 13)
    (hlead : b ≠ 0xE2) (pos : Nat) (bytes : List UInt8) :
    endsInBytes pos (UInt8.ofNat b :: bytes) = endsInBytes (pos + 1) bytes := by
  simp only [endsInBytes, ← UInt8.toNat_inj, UInt8.toNat_ofNat', UInt8.toNat_ofNat,
    Nat.mod_eq_of_lt hb]
  simp [hfeed, hreturn, hlead]

/-- The three bytes of one character are passed over together, and they may be a separator. -/
theorem endsInBytes_three {a b c : Nat} (ha : 0xE0 ≤ a) (ha' : a < 0xF0) (hb : 0x80 ≤ b)
    (hb' : b < 0xC0) (hc : 0x80 ≤ c) (hc' : c < 0xC0) (pos : Nat) (bytes : List UInt8) :
    endsInBytes pos (UInt8.ofNat a :: UInt8.ofNat b :: UInt8.ofNat c :: bytes) =
      if a = 0xE2 ∧ b = 0x80 ∧ (c = 0xA8 ∨ c = 0xA9) then
        (pos + 3) :: endsInBytes (pos + 3) bytes
      else endsInBytes (pos + 3) bytes := by
  -- neither of the last two bytes begins a terminator
  rw [endsInBytes, endsInBytes_cons (by omega) (by omega) (by omega) (by omega),
    endsInBytes_cons (by omega) (by omega) (by omega) (by omega)]
  have ha : a % 2 ^ 8 = a := Nat.mod_eq_of_lt (by omega)
  have hb : b % 2 ^ 8 = b := Nat.mod_eq_of_lt (by omega)
  have hc : c % 2 ^ 8 = c := Nat.mod_eq_of_lt (by omega)
  simp only [← UInt8.toNat_inj, UInt8.toNat_ofNat', UInt8.toNat_ofNat, List.take_succ_cons,
    List.take_zero, List.cons.injEq, and_true, ha, hb, hc]
  rw [if_neg (by omega), if_neg (by omega)]
  simp only [← and_or_left]

theorem toNat_val_inj {c d : Char} : c.val.toNat = d.val.toNat ↔ c = d := by
  rw [Char.ext_iff, ← UInt32.toNat_inj]

/-- The bytes of a character hold a terminator just if the character is one. -/
theorem endsInBytes_utf8EncodeChar (pos : Nat) (c : Char) (bytes : List UInt8) :
    endsInBytes pos (String.utf8EncodeChar c ++ bytes) =
      if isLineBreak c && !(c = '\r' && bytes.head? = some 10) then
        (pos + c.utf8Size) :: endsInBytes (pos + c.utf8Size) bytes
      else endsInBytes (pos + c.utf8Size) bytes := by
  have hvalid : c.val.toNat < 0x110000 := by
    have := c.valid
    simp only [UInt32.isValidChar, Nat.isValidChar] at this
    omega
  have hfeed : '\n'.val.toNat = 10 := rfl
  have hreturn : '\r'.val.toNat = 13 := rfl
  have hline : '\u2028'.val.toNat = 0x2028 := rfl
  have hparagraph : '\u2029'.val.toNat = 0x2029 := rfl
  rw [← String.length_utf8EncodeChar c]
  simp only [isLineBreak, ← toNat_val_inj, hfeed, hreturn, hline, hparagraph]
  unfold String.utf8EncodeChar
  generalize c.val.toNat = n at hvalid ⊢
  simp only
  split
  next =>
    -- one byte, which is the character
    rw [List.cons_append, List.nil_append, List.length_singleton]
    by_cases h : n = 10 ∨ n = 13
    · rcases h with rfl | rfl <;> simp [endsInBytes]
    · rw [endsInBytes_cons (by omega) (by omega) (by omega) (by omega), if_neg]
      simp
      omega
  next =>
    split
    next =>
      rw [List.cons_append, List.cons_append, List.nil_append,
        endsInBytes_cons (by omega) (by omega) (by omega) (by omega),
        endsInBytes_cons (by omega) (by omega) (by omega) (by omega), if_neg]
      · rfl
      · simp
        omega
    next =>
      split
      next =>
        -- three bytes, of which those of the separators are two choices
        rw [List.cons_append, List.cons_append, List.cons_append, List.nil_append,
          endsInBytes_three (by omega) (by omega) (by omega) (by omega) (by omega) (by omega)]
        have hseparator : (n / 4096 % 16 + 224 = 0xE2 ∧ n / 64 % 64 + 128 = 0x80 ∧
            (n % 64 + 128 = 0xA8 ∨ n % 64 + 128 = 0xA9)) ↔ n = 0x2028 ∨ n = 0x2029 := by omega
        simp only [hseparator]
        by_cases h : n = 0x2028 ∨ n = 0x2029
        · rw [if_pos h, if_pos]
          · rfl
          · simp
            omega
        · rw [if_neg h, if_neg]
          · rfl
          · simp
            omega
      next =>
        rw [List.cons_append, List.cons_append, List.cons_append, List.cons_append,
          List.nil_append, endsInBytes_cons (by omega) (by omega) (by omega) (by omega),
          endsInBytes_cons (by omega) (by omega) (by omega) (by omega),
          endsInBytes_cons (by omega) (by omega) (by omega) (by omega),
          endsInBytes_cons (by omega) (by omega) (by omega) (by omega), if_neg]
        · rfl
        · simp
          omega

/-- The encoding of a text begins with a line feed just if the text does. -/
theorem head?_utf8Bytes_eq_lineFeed (cs : List Char) :
    (utf8Bytes cs).head? = some 10 ↔ cs.head? = some '\n' := by
  cases cs with
  | nil => simp [utf8Bytes]
  | cons c cs =>
    have hfeed : '\n'.val.toNat = 10 := rfl
    have hten : (10 : UInt8).toNat = 10 := rfl
    rw [utf8Bytes, List.flatMap_cons, List.head?_cons, Option.some_inj, ← toNat_val_inj, hfeed]
    unfold String.utf8EncodeChar
    generalize c.val.toNat = n
    simp only
    -- only a character of one byte begins with a byte below `0x80`
    split
    · simp only [List.cons_append, List.head?_cons, Option.some_inj, ← UInt8.toNat_inj,
        UInt8.toNat_ofNat', hten]
      omega
    · split
      · simp only [List.cons_append, List.head?_cons, Option.some_inj, ← UInt8.toNat_inj,
          UInt8.toNat_ofNat', hten]
        omega
      · split <;>
          simp only [List.cons_append, List.head?_cons, Option.some_inj, ← UInt8.toNat_inj,
            UInt8.toNat_ofNat', hten] <;>
          omega

/-- Searching the bytes and going over the characters find the same offsets. -/
theorem endsInBytes_utf8Bytes (pos : Nat) (cs : List Char) :
    endsInBytes pos (utf8Bytes cs) = lineStartsFrom pos cs := by
  induction cs generalizing pos with
  | nil => rfl
  | cons c cs ih =>
    rw [utf8Bytes, List.flatMap_cons, endsInBytes_utf8EncodeChar, lineStartsFrom]
    rw [← utf8Bytes, ih]
    simp only [head?_utf8Bytes_eq_lineFeed]

example : startsInBytes [0x61, 0xE2, 0x80, 0xA6, 0xE2, 0x80, 0xA8, 0xE2, 0x80] = [0, 7] := by
  decide

end ExpectError.Text
