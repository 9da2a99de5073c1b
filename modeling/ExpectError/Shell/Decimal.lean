import ExpectError.Shell.Octets

/-!
# Numbers in formats

Floating-point numbers are written with a given number of digits, exactly rounded, a tie to the even
digit.

* `Exact.fixed`: digits behind the point;
* `Exact.scientific`: one digit in front of the point and an exponent;
* `Exact.general`: the shorter of both.
-/

namespace ExpectError.Shell

/-- The value of a finite number: a quotient with its sign. -/
structure Exact where
  negative : Bool
  num : Nat
  den : Nat
  deriving DecidableEq, Repr

/-- What a number is. -/
inductive FloatValue where
  | finite (value : Exact)
  | infinite (negative : Bool)
  | undefined (negative : Bool)
  deriving DecidableEq, Repr

/-- The exact value of a floating-point number. -/
def FloatValue.ofFloat (x : Float) : FloatValue :=
  let bits := x.toBits.toNat
  let negative := 0x8000000000000000 ≤ bits
  let exponent := (bits / 0x10000000000000) % 0x800
  let fraction := bits % 0x10000000000000
  if exponent = 0x7ff then if fraction = 0 then .infinite negative else .undefined negative
  else
    let mantissa := if exponent = 0 then fraction else fraction + 0x10000000000000
    let power := if exponent = 0 then 1 else exponent
    if 1075 ≤ power then .finite ⟨negative, mantissa * Nat.pow 2 (power - 1075), 1⟩
    else .finite ⟨negative, mantissa, Nat.pow 2 (1075 - power)⟩

/-- The floating-point number nearest to a decimal one. -/
def floatOf (negative : Bool) (digits : Nat) (exponent : Int) : Float :=
  let x := match exponent with
    | .ofNat n => Float.ofScientific digits false (min n 400)
    | .negSucc n => Float.ofScientific digits true (n + 1)
  if negative then -x else x

namespace Exact

/-- The nearest whole number to a quotient, a tie to the even one. -/
def round (num den : Nat) : Nat :=
  let whole := num / den
  let twice := 2 * (num % den)
  if den < twice || (twice == den && whole % 2 == 1) then whole + 1 else whole

/-- Digits with zeros in front, at least so many. -/
def padded (digits : Nat) (n : Nat) : Octets :=
  let text := Octets.ofNat n
  List.replicate (digits - text.length) '0' ++ text

/-- The number with a given number of digits behind the point, without its sign. -/
def fixed (x : Exact) (digits : Nat) (point : Bool) : Octets :=
  let scaled := padded (digits + 1) (round (x.num * Nat.pow 10 digits) x.den)
  let whole := scaled.take (scaled.length - digits)
  let fraction := scaled.drop (scaled.length - digits)
  whole ++ (if digits = 0 && !point then [] else '.' :: fraction)

/-- The power of ten of the first digit, for a number between two powers of ten. -/
def exponentFrom (x : Exact) : Nat → Int → Int
  | 0, e => e
  | n + 1, e =>
    let holds : Bool := match e with
      | .ofNat k => decide (x.den * Nat.pow 10 k ≤ x.num)
      | .negSucc k => decide (x.den ≤ x.num * Nat.pow 10 (k + 1))
    if holds then e else exponentFrom x n (e - 1)

/-- The digits of a number, the first of which is not zero, and the power of ten of the first. -/
def digitsOf (x : Exact) (count : Nat) : Octets × Int :=
  if x.num = 0 then (List.replicate count '0', 0)
  else
    let e := exponentFrom x 700 330
    let shift := (count : Int) - 1 - e
    let n := match shift with
      | .ofNat k => round (x.num * Nat.pow 10 k) x.den
      | .negSucc k => round x.num (x.den * Nat.pow 10 (k + 1))
    let text := Octets.ofNat n
    if count < text.length then (text.take count, e + 1) else (text, e)

/-- The exponent, with a sign and at least two digits. -/
def exponentText (e : Int) : Octets :=
  (if e < 0 then '-' else '+') :: padded 2 e.natAbs

/-- The number with one digit in front of the point and an exponent, without its sign. -/
def scientific (x : Exact) (digits : Nat) (mark : Char) (point : Bool) : Octets :=
  let (text, e) := x.digitsOf (digits + 1)
  text.take 1 ++ (if digits = 0 && !point then [] else '.' :: text.drop 1)
    ++ mark :: exponentText e

/-- Drops zeros at the end of a fraction. -/
def dropZeros (text : Octets) : Octets :=
  if text.contains '.' then
    let rest := text.reverse.dropWhile (· = '0')
    (if rest.head? = some '.' then rest.drop 1 else rest).reverse
  else text

/-- The number with so many digits in all, with an exponent if it is large or small, without its
sign. -/
def general (x : Exact) (digits : Nat) (mark : Char) (point : Bool) : Octets :=
  let digits := max digits 1
  let (text, e) := x.digitsOf digits
  if e < -4 || (digits : Int) ≤ e then
    let front := text.take 1 ++ (if digits = 1 && !point then [] else '.' :: text.drop 1)
    (if point then front else dropZeros front) ++ mark :: exponentText e
  else
    let behind := ((digits : Int) - 1 - e).toNat
    let front := x.fixed behind point
    if point then front else dropZeros front

end Exact

/-- How a value is written into a format. -/
structure Layout where
  left : Bool := false
  plus : Bool := false
  blank : Bool := false
  alternate : Bool := false
  zeros : Bool := false
  width : Nat := 0
  precision : Option Nat := none
  deriving DecidableEq, Repr

namespace Layout

/-- A text in its width. -/
def pad (layout : Layout) (text : Octets) : Octets :=
  let blanks := List.replicate (layout.width - text.length) ' '
  if layout.left then text ++ blanks else blanks ++ text

/-- A text, cut to the precision. -/
def string (layout : Layout) (text : Octets) : Octets :=
  layout.pad (match layout.precision with
    | some n => text.take n
    | none => text)

/-- The sign in front of a number. -/
def sign (layout : Layout) (negative : Bool) : Octets :=
  if negative then ['-'] else if layout.plus then ['+'] else if layout.blank then [' '] else []

/-- A number with its sign, or another front, in its width; zeros go behind the front. -/
def number (layout : Layout) (zeros : Bool) (front digits : Octets) : Octets :=
  if zeros && !layout.left then
    front ++ List.replicate (layout.width - front.length - digits.length) '0' ++ digits
  else layout.pad (front ++ digits)

/-- Digits, at least as many as the precision says. -/
def digits (layout : Layout) (text : Octets) : Octets :=
  match layout.precision with
  | none => text
  | some 0 => if text = ['0'] then [] else text
  | some n => List.replicate (n - text.length) '0' ++ text

/-- A whole number. -/
def integer (layout : Layout) (n : Int) : Octets :=
  layout.number (layout.zeros && layout.precision.isNone) (layout.sign (n < 0))
    (layout.digits (.ofNat n.natAbs))

/-- A whole number without a sign, by the letter of its base. -/
def natural (layout : Layout) (letter : Char) (n : Nat) : Octets :=
  let base := if letter = 'o' then 8 else if letter = 'u' then 10 else 16
  let text := Nat.toDigits base n
  let text := if letter = 'X' then text.map Char.toUpper else text
  let front :=
    if layout.alternate && n ≠ 0 then
      if letter = 'x' || letter = 'X' then ['0', letter]
      else []
    else []
  let text := layout.digits text
  let text :=
    if layout.alternate && letter = 'o' && text.head? ≠ some '0' then '0' :: text else text
  layout.number (layout.zeros && layout.precision.isNone) front text

/-- A floating-point number, by the letter of its form. -/
def real (layout : Layout) (letter : Char) (x : Float) : Octets :=
  let upper := letter.isUpper
  let cased (text : String) : Octets := if upper then text.toUpper.toList else text.toList
  match FloatValue.ofFloat x with
  | .infinite negative => layout.pad (layout.sign negative ++ cased "inf")
  | .undefined negative => layout.pad (layout.sign negative ++ cased "nan")
  | .finite value =>
    let digits := layout.precision.getD 6
    let mark := if upper then 'E' else 'e'
    let text := match letter.toLower with
      | 'f' => value.fixed digits layout.alternate
      | 'e' => value.scientific digits mark layout.alternate
      | _ => value.general digits mark layout.alternate
    layout.number layout.zeros (layout.sign value.negative) text

end Layout

/-- The layout at the front of what follows a percent sign; stars take numbers from a list. -/
def readLayout (take : Nat → Int) (text : Octets) : Layout × Nat × Octets :=
  let flags := text.takeWhile fun c => ['#', '-', '+', ' ', '0'].contains c
  let text := text.drop flags.length
  let layout : Layout :=
    { left := flags.contains '-'
      plus := flags.contains '+'
      blank := flags.contains ' '
      alternate := flags.contains '#'
      zeros := flags.contains '0' }
  let digitsOf (text : Octets) : Nat × Octets :=
    let digits := text.takeWhile Char.isDigit
    ((Octets.nat? digits).getD 0, text.drop digits.length)
  let (layout, taken, text) := match text with
    | '*' :: rest =>
      let n := take 0
      ({ layout with left := layout.left || n < 0, width := n.natAbs }, 1, rest)
    | _ =>
      let (width, rest) := digitsOf text
      ({ layout with width }, 0, rest)
  match text with
  | '.' :: '*' :: rest =>
    let n := take taken
    ({ layout with precision := if n < 0 then none else some n.toNat }, taken + 1, rest)
  | '.' :: rest =>
    let (precision, rest) := digitsOf rest
    ({ layout with precision := some precision }, taken, rest)
  | _ => (layout, taken, text)

/-- The decimal number at the front of a text, with blanks in front of it, and what is behind it. -/
def readReal (text : Octets) : Option (Float × Octets) :=
  let text := text.dropWhile fun c => c = ' ' || ('\t' ≤ c && c ≤ '\x0d')
  let (negative, text) := match text with
    | '-' :: rest => (true, rest)
    | '+' :: rest => (false, rest)
    | rest => (false, rest)
  let whole := text.takeWhile Char.isDigit
  let rest := text.drop whole.length
  let (fraction, rest) := match rest with
    | '.' :: more =>
      let digits := more.takeWhile Char.isDigit
      if whole.isEmpty && digits.isEmpty then ([], rest) else (digits, more.drop digits.length)
    | _ => ([], rest)
  if whole.isEmpty && fraction.isEmpty then none
  else
    let (exponent, rest) : Int × Octets := match rest with
      | 'e' :: more | 'E' :: more =>
        let (minus, digitsText) := match more with
          | '-' :: d => (true, d)
          | '+' :: d => (false, d)
          | d => (false, d)
        let digits := digitsText.takeWhile Char.isDigit
        match Octets.nat? digits with
        | some n => (if minus then -(n : Int) else n, digitsText.drop digits.length)
        | none => (0, rest)
      | _ => (0, rest)
    let digits := (Octets.nat? (whole ++ fraction)).getD 0
    some (floatOf negative digits (exponent - fraction.length), rest)

end ExpectError.Shell
