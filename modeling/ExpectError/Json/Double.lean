/-!
# Binary floating-point numbers

Finite numbers of 64 bits: a mantissa below `2 ^ 53` times a power of two, in exact arithmetic.

* `ofRatio?`: the nearest number to a quotient, a tie to the even mantissa;
* `mul?`, `div`: products and quotients, rounded once;
* `shortest`: the fewest decimal digits that are read back as the same number.
-/

namespace ExpectError.Json

/-- A number that is not negative: `mantissa * 2 ^ (power - 1074)`. -/
structure Magnitude where
  mantissa : Nat
  power : Nat
  deriving DecidableEq, Repr

namespace Magnitude

/-- The mantissa has this many bits. -/
def precision : Nat := 53

/-- The least exponent is the negative of this number. -/
def bias : Nat := 1074

/-- The greatest power of a finite number. -/
def maxPower : Nat := 2045

/-- Two to the power of a number. -/
def twoTo (n : Nat) : Nat := Nat.pow 2 n

/-- Ten to the power of a number. -/
def tenTo (n : Nat) : Nat := Nat.pow 10 n

/-- The number zero. -/
def zero : Magnitude := ⟨0, 0⟩

/-- The number of binary digits. -/
def bitLength (n : Nat) : Nat :=
  if n = 0 then 0 else n.log2 + 1

/-- The nearest whole number to a quotient, a tie to the even one. -/
def roundQuotient (num den : Nat) : Nat :=
  let whole := num / den
  let twice := 2 * (num % den)
  if den < twice || (twice == den && whole % 2 == 1) then whole + 1 else whole

/-- The quotient `num / den` times `2 ^ bias`, divided by `2 ^ power` and rounded. -/
def scaled (num den power : Nat) : Nat :=
  roundQuotient (num * twoTo bias) (den * twoTo power)

/-- The nearest number to a quotient; none if it is too large. -/
def ofRatio? (num den : Nat) : Option Magnitude :=
  let estimate := bitLength num + bias - bitLength den - precision
  let power := if scaled num den estimate < twoTo precision then estimate else estimate + 1
  let mantissa := scaled num den power
  let (mantissa, power) :=
    if mantissa < twoTo precision then (mantissa, power) else (mantissa / 2, power + 1)
  if mantissa = 0 then some zero
  else if maxPower < power then none
  else some ⟨mantissa, power⟩

/-- The product of two numbers; none if it is too large. -/
def mul? (a b : Magnitude) : Option Magnitude :=
  ofRatio? (a.mantissa * b.mantissa * twoTo (a.power + b.power)) (twoTo (2 * bias))

/-- The quotient of two numbers. -/
def div (a b : Magnitude) : Magnitude :=
  (ofRatio? (a.mantissa * twoTo a.power) (b.mantissa * twoTo b.power)).getD zero

/-- The nearest number to a power of ten. -/
def pow10 (n : Nat) : Magnitude :=
  (ofRatio? (tenTo n) 1).getD zero

/-- The greatest power of ten that is finite. -/
def maxPow10 : Nat := 308

/-- A whole number times a negative power of ten, divided step by step. -/
def scaleDown (value : Magnitude) : Nat → Nat → Magnitude
  | 0, _ => zero
  | steps + 1, exponent =>
    if exponent ≤ maxPow10 then div value (pow10 exponent)
    else scaleDown (div value (pow10 maxPow10)) steps (exponent - maxPow10)

/-- A whole number times a power of ten, first rounded by itself and then scaled; none if it is too
large. Three steps of division bring every whole number of 64 bits to zero. -/
def ofDecimal? (digits : Nat) (exponent : Int) : Option Magnitude := do
  let value ← ofRatio? digits 1
  if value.mantissa = 0 then return zero
  match exponent with
  | .ofNat n => if n ≤ maxPow10 then mul? value (pow10 n) else none
  | .negSucc n => return scaleDown value 4 (n + 1)

/-! ### Shortest digits -/

/-- A number between two bounds, as numerators over one denominator. -/
structure Interval where
  value : Nat
  lower : Nat
  upper : Nat
  den : Nat
  /-- Do the bounds belong to the interval? -/
  closed : Bool

/-- The quotients that are rounded to a number. -/
def interval (a : Magnitude) : Interval :=
  let low := if a.mantissa = twoTo (precision - 1) && 0 < a.power then 1 else 2
  { value := 4 * a.mantissa * twoTo a.power
    lower := (4 * a.mantissa - low) * twoTo a.power
    upper := (4 * a.mantissa + 2) * twoTo a.power
    den := 4 * twoTo bias
    closed := a.mantissa % 2 == 0 }

/-- Decimal digits with a power of ten. -/
structure Decimal where
  digits : Nat
  exponent : Int
  deriving DecidableEq, Repr

/-- The numerator and the denominator of a power of ten. -/
def scale : Int → Nat × Nat
  | .ofNat n => (tenTo n, 1)
  | .negSucc n => (1, tenTo (n + 1))

/-- Is a decimal number in an interval? -/
def Interval.holds (i : Interval) (d : Decimal) : Bool :=
  let (num, den) := scale d.exponent
  let point := d.digits * num * i.den
  if i.closed then decide (i.lower * den ≤ point ∧ point ≤ i.upper * den)
  else decide (i.lower * den < point ∧ point < i.upper * den)

/-- The better of the two neighbours of the value among the multiples of a power of ten, if one is
in the interval. -/
def Interval.neighbour? (i : Interval) (exponent : Int) : Option Decimal :=
  let (num, den) := scale exponent
  let below := i.value * den / (num * i.den)
  let remainder := i.value * den % (num * i.den)
  let low : Decimal := ⟨below, exponent⟩
  let high : Decimal := ⟨below + 1, exponent⟩
  match i.holds low && 0 < below, i.holds high with
  | true, true =>
    let twice := 2 * remainder
    if twice < num * i.den || (twice == num * i.den && below % 2 == 0) then some low else some high
  | true, false => some low
  | false, true => some high
  | false, false => none

/-- The first power of ten, going down, whose multiples come close enough. -/
def Interval.search (i : Interval) : Nat → Int → Decimal
  | 0, exponent => ⟨0, exponent⟩
  | steps + 1, exponent =>
    match i.neighbour? exponent with
    | some d => d
    | none => i.search steps (exponent - 1)

/-- The fewest digits that are read back as the same number. No number needs a power of ten below
`10 ^ (-324)` with one digit, or more than seventeen digits. -/
def shortest (a : Magnitude) : Decimal :=
  if a.mantissa = 0 then ⟨0, 0⟩ else a.interval.search 660 309

end Magnitude

end ExpectError.Json
