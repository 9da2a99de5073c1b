import ExpectError.Json.Value

/-!
# Reading JSON

A value is either kept or skipped. What is kept has a bounded depth, no halves of surrogate pairs
and no numbers that are too large; of what is skipped only the form matters.

Readers take the front off a list of characters and give back the rest.
-/

namespace ExpectError.Json

/-- Takes something off the front of a text. -/
abbrev Reads (α : Type) := List Char → Option (α × List Char)

/-- How many brackets can be open around a value that is kept. -/
def maxDepth : Nat := 127

/-- Spaces, tabs and line ends. -/
def isSpace (c : Char) : Bool :=
  c = ' ' || c = '\t' || c = '\n' || c = '\r'

/-- Drops spaces in front. -/
def dropSpaces (cs : List Char) : List Char :=
  cs.dropWhile isSpace

/-- Is this an ASCII digit? -/
def isDigit (c : Char) : Bool :=
  c.isDigit

/-- The value of an ASCII digit. -/
def digitValue (c : Char) : Nat :=
  c.toNat - '0'.toNat

/-- Takes a word off the front. -/
def dropWord? (word : List Char) (cs : List Char) : Option (List Char) :=
  if word.isPrefixOf cs then some (cs.drop word.length) else none

/-! ### Strings -/

/-- The value of a hexadecimal digit. -/
def hexValue? (c : Char) : Option Nat :=
  if c.isDigit then some (c.toNat - '0'.toNat)
  else if 'a' ≤ c && c ≤ 'f' then some (c.toNat - 'a'.toNat + 10)
  else if 'A' ≤ c && c ≤ 'F' then some (c.toNat - 'A'.toNat + 10)
  else none

/-- The value of four hexadecimal digits. -/
def hexValue4? (a b c d : Char) : Option Nat := do
  return ((← hexValue? a) * 16 + (← hexValue? b)) * 256 + (← hexValue? c) * 16 + (← hexValue? d)

/-- The character that a letter behind a backslash means. -/
def unescape? : Char → Option Char
  | '"' => some '"'
  | '\\' => some '\\'
  | '/' => some '/'
  | 'b' => some '\x08'
  | 'f' => some '\x0c'
  | 'n' => some '\n'
  | 'r' => some '\r'
  | 't' => some '\t'
  | _ => none

/-- One unit of a string: a character, or the number of a sixteen-bit unit. -/
inductive StringUnit where
  | char (c : Char)
  | code (unit : Nat)
  deriving DecidableEq, Repr

/-- The units of a string up to its closing quote. -/
def readUnits : Reads (List StringUnit)
  | [] => none
  | '"' :: cs => some ([], cs)
  | '\\' :: 'u' :: a :: b :: c :: d :: cs => do
    let unit ← hexValue4? a b c d
    let (units, rest) ← readUnits cs
    return (.code unit :: units, rest)
  | '\\' :: c :: cs => do
    let c ← unescape? c
    let (units, rest) ← readUnits cs
    return (.char c :: units, rest)
  | c :: cs =>
    if c = '\\' || c.toNat < 0x20 then none
    else do
      let (units, rest) ← readUnits cs
      return (.char c :: units, rest)

/-- Is this the first half of a surrogate pair? -/
def isHighHalf (unit : Nat) : Bool :=
  0xD800 ≤ unit && unit < 0xDC00

/-- Is this the second half of a surrogate pair? -/
def isLowHalf (unit : Nat) : Bool :=
  0xDC00 ≤ unit && unit < 0xE000

/-- The characters of a string, if every half of a surrogate pair has its other half. -/
def joinUnits? : List StringUnit → Option (List Char)
  | [] => some []
  | .char c :: rest => (joinUnits? rest).map (c :: ·)
  | .code high :: .code low :: rest =>
    if isHighHalf high then
      if isLowHalf low then
        (joinUnits? rest).map
          (Char.ofNat (0x10000 + (high - 0xD800) * 0x400 + (low - 0xDC00)) :: ·)
      else none
    else if isLowHalf high then none
    else (joinUnits? (.code low :: rest)).map (Char.ofNat high :: ·)
  | .code unit :: rest =>
    if isHighHalf unit || isLowHalf unit then none
    else (joinUnits? rest).map (Char.ofNat unit :: ·)

/-- A string behind its opening quote. -/
def readString (kept : Bool) : Reads String := fun cs => do
  let (units, rest) ← readUnits cs
  if kept then return (String.ofList (← joinUnits? units), rest)
  return ("", rest)

/-! ### Numbers -/

/-- The parts of a number's text. -/
structure Numeral where
  negative : Bool
  whole : List Char
  fraction : Option (List Char)
  /-- The sign and the digits of the exponent. -/
  exponent : Option (Bool × List Char)

/-- At least one digit. -/
def readDigits : Reads (List Char) := fun cs =>
  match cs.takeWhile isDigit with
  | [] => none
  | digits => some (digits, cs.dropWhile isDigit)

/-- The digits in front of the point: no zero in front of other digits. -/
def readWhole : Reads (List Char) := fun cs => do
  let (digits, rest) ← readDigits cs
  if digits.head? = some '0' && 1 < digits.length then none else return (digits, rest)

/-- A point and the digits behind it, if there are any. -/
def readFraction : Reads (Option (List Char))
  | '.' :: cs => do
    let (digits, rest) ← readDigits cs
    return (some digits, rest)
  | cs => some (none, cs)

/-- The sign and the digits behind an `e`. -/
def readSigned : Reads (Bool × List Char)
  | '-' :: cs => (readDigits cs).map fun (digits, rest) => ((true, digits), rest)
  | '+' :: cs => (readDigits cs).map fun (digits, rest) => ((false, digits), rest)
  | cs => (readDigits cs).map fun (digits, rest) => ((false, digits), rest)

/-- An exponent, if there is one. -/
def readExponent : Reads (Option (Bool × List Char))
  | 'e' :: cs | 'E' :: cs => (readSigned cs).map fun (exponent, rest) => (some exponent, rest)
  | cs => some (none, cs)

/-- The text of a number. -/
def readNumeral : Reads Numeral := fun cs => do
  let (negative, cs) := match cs with
    | '-' :: rest => (true, rest)
    | _ => (false, cs)
  let (whole, cs) ← readWhole cs
  let (fraction, cs) ← readFraction cs
  let (exponent, cs) ← readExponent cs
  return ({ negative, whole, fraction, exponent }, cs)

/-- The greatest whole number of 64 bits. -/
def maxWhole : Nat := 18446744073709551615

/-- Adds digits behind a number as long as it stays a whole number of 64 bits, and gives the digits
that are left over. -/
def takeDigits (value : Nat) : List Char → Nat × List Char
  | [] => (value, [])
  | c :: cs =>
    let next := value * 10 + digitValue c
    if next ≤ maxWhole then takeDigits next cs else (value, c :: cs)

/-- The value of some digits. -/
def digitsValue (digits : List Char) : Nat :=
  digits.foldl (fun value c => value * 10 + digitValue c) 0

/-- The greatest exponent that is taken into account. -/
def maxExponent : Nat := 2147483647

/-- A number with a fraction or an exponent, or one that is too long to be a whole number. -/
def Numeral.double? (n : Numeral) : Option Magnitude :=
  let (digits, dropped) := takeDigits 0 n.whole
  let fraction := n.fraction.getD []
  let (digits, ignored) := takeDigits digits fraction
  let shift : Int := dropped.length - (fraction.length - ignored.length : Nat)
  match n.exponent with
  | none => Magnitude.ofDecimal? digits shift
  | some (negative, exponent) =>
    let value := digitsValue exponent
    if maxExponent < value then
      if digits = 0 || negative then some .zero else none
    else Magnitude.ofDecimal? digits (if negative then shift - value else shift + value)

/-- The value of a number's text; none if it is too large. Whole numbers are exact as far as 64 bits
reach, and the negative of zero is a fraction. -/
def Numeral.value? (n : Numeral) : Option Number :=
  let (digits, dropped) := takeDigits 0 n.whole
  if n.fraction.isNone && n.exponent.isNone && dropped.isEmpty then
    if !n.negative then some (.whole digits)
    else if 0 < digits && digits ≤ 9223372036854775808 then some (.whole (-digits))
    else n.double?.map (.double true)
  else n.double?.map (.double n.negative)

/-- A number. -/
def readNumber (kept : Bool) : Reads Number := fun cs => do
  let (numeral, rest) ← readNumeral cs
  if kept then return (← numeral.value?, rest)
  return (.whole 0, rest)

/-! ### Values -/

mutual

/-- A value, inside a given number of brackets. The first number bounds the steps. -/
def readValue (kept : Bool) : Nat → Nat → Reads Value
  | 0, _, _ => none
  | steps + 1, depth, cs =>
    match dropSpaces cs with
    | '"' :: cs => (readString kept cs).map fun (s, rest) => (.string s, rest)
    | '[' :: cs =>
      if kept && maxDepth ≤ depth then none
      else (readElements kept steps (depth + 1) true cs).map fun (vs, rest) => (.array vs, rest)
    | '\x7b' :: cs =>
      if kept && maxDepth ≤ depth then none
      else
        (readMembers kept steps (depth + 1) true cs).map fun (ms, rest) =>
          (.object (ms.foldl (fun done (name, value) => insertMember name value done) []), rest)
    | 'n' :: cs => (dropWord? ['u', 'l', 'l'] cs).map fun rest => (.null, rest)
    | 't' :: cs => (dropWord? ['r', 'u', 'e'] cs).map fun rest => (.bool true, rest)
    | 'f' :: cs => (dropWord? ['a', 'l', 's', 'e'] cs).map fun rest => (.bool false, rest)
    | cs => (readNumber kept cs).map fun (n, rest) => (.number n, rest)

/-- The elements of an array up to its closing bracket. -/
def readElements (kept : Bool) : Nat → Nat → Bool → Reads (List Value)
  | 0, _, _, _ => none
  | steps + 1, depth, isFirst, cs =>
    match dropSpaces cs with
    | ']' :: rest => some ([], rest)
    | cs => do
      let cs ← if isFirst then some cs else dropWord? [','] cs
      let (value, cs) ← readValue kept steps depth cs
      let (values, rest) ← readElements kept steps depth false cs
      return (value :: values, rest)

/-- The members of an object up to its closing brace. -/
def readMembers (kept : Bool) : Nat → Nat → Bool → Reads (List (String × Value))
  | 0, _, _, _ => none
  | steps + 1, depth, isFirst, cs =>
    match dropSpaces cs with
    | '\x7d' :: rest => some ([], rest)
    | cs => do
      let cs ← if isFirst then some cs else dropWord? [','] cs
      let cs ← dropWord? ['"'] (dropSpaces cs)
      let (name, cs) ← readString kept cs
      let cs ← dropWord? [':'] (dropSpaces cs)
      let (value, cs) ← readValue kept steps depth cs
      let (members, rest) ← readMembers kept steps depth false cs
      return ((name, value) :: members, rest)

end

/-- More steps than a text can take. -/
def stepBound (cs : List Char) : Nat :=
  2 * cs.length + 2

/-- A value that is kept, inside a given number of brackets. -/
def keepValue (depth : Nat) : Reads Value := fun cs =>
  readValue true (stepBound cs) depth cs

/-- A value that is skipped. -/
def skipValue (cs : List Char) : Option (List Char) :=
  (readValue false (stepBound cs) 0 cs).map (·.2)

end ExpectError.Json
