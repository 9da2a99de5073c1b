import ExpectError.Shell.Programs.Awk.Script

/-!
# Values of scripts for records

A value is a number or a text. What was read is a number if it looks like one. Numbers and texts
stand for each other: the front of a text is its number, and a whole number is written without a
point.
-/

namespace ExpectError.Shell.Awk

/-- A value. -/
inductive Value where
  | unset
  | number (x : Float)
  | text (text : Octets)
  /-- A text that was read, which can be a number. -/
  | input (text : Octets)

namespace Value

/-- The number at the front of a text. -/
def numberOf (text : Octets) : Float :=
  match readReal text with
  | some (x, _) => x
  | none => 0

/-- Is a whole text a number, with blanks around it? -/
def looksNumeric (text : Octets) : Bool :=
  match readReal text with
  | some (_, rest) => rest.all fun c => c = ' ' || ('\t' ≤ c && c ≤ '\x0d')
  | none => false

/-- The number that a value stands for. -/
def toNumber : Value → Float
  | .unset => 0
  | .number x => x
  | .text t | .input t => numberOf t

/-- The greatest whole number that is written without a point. -/
def greatestWhole : Nat := 9223372036854775807

/-- The whole part of a number. -/
def wholeOf (x : Float) : Int :=
  match FloatValue.ofFloat x with
  | .finite value =>
    let n : Int := value.num / value.den
    if value.negative then -n else n
  | _ => 0

/-- A number as a text: whole numbers without a point, others in a format. -/
def numberText (format : Layout × Char) (x : Float) : Octets :=
  match FloatValue.ofFloat x with
  | .finite value =>
    if value.num % value.den = 0 && value.num / value.den ≤ greatestWhole then
      .ofInt (wholeOf x)
    else format.1.real format.2 x
  | .infinite negative => if negative then "-inf".toList else "inf".toList
  | .undefined _ => "-nan".toList

/-- The text that a value stands for. -/
def toText (format : Layout × Char) : Value → Octets
  | .unset => []
  | .number x => numberText format x
  | .text t | .input t => t

/-- Does a value count as true? -/
def isTrue : Value → Bool
  | .unset => false
  | .number x => x != 0
  | .text t => !t.isEmpty
  | .input t => if looksNumeric t then numberOf t != 0 else !t.isEmpty

/-- Is a value compared as a number? -/
def isNumeric : Value → Bool
  | .unset | .number _ => true
  | .text _ => false
  | .input t => looksNumeric t

/-- A truth value. -/
def ofBool (b : Bool) : Value :=
  .number (if b then 1 else 0)

/-- A whole number. -/
def ofNat (n : Nat) : Value :=
  .number n.toFloat

/-- A number from a whole one. -/
def floatOfInt : Int → Float
  | .ofNat n => n.toFloat
  | .negSucc n => -(n + 1).toFloat

/-- The remainder of a division toward zero. -/
def remainder (a b : Float) : Float :=
  match FloatValue.ofFloat a, FloatValue.ofFloat b with
  | .finite x, .finite y =>
    if y.num = 0 then 0.0 / 0.0
    else if x.num % x.den = 0 && y.num % y.den = 0 then
      floatOfInt ((wholeOf a).tmod (wholeOf b))
    else a - b * floatOfInt (wholeOf (a / b))
  | .finite _, .infinite _ => a
  | _, _ => 0.0 / 0.0

/-- Calculates with two numbers. -/
def calculate (operation : Operation) (a b : Float) : Float :=
  match operation with
  | .plus => a + b
  | .minus => a - b
  | .times => a * b
  | .quotient => a / b
  | .remainder => remainder a b
  | .power => a.pow b
  | _ => 0

/-- Compares two values. -/
def compare (format : Layout × Char) (operation : Operation) (a b : Value) : Bool :=
  let (less, equal) :=
    if a.isNumeric && b.isNumeric then
      (decide (a.toNumber < b.toNumber), a.toNumber == b.toNumber)
    else
      let x := a.toText format
      let y := b.toText format
      (decide (x < y), decide (x = y))
  match operation with
  | .less => less
  | .atMost => less || equal
  | .equal => equal
  | .unequal => !equal
  | .atLeast => !less
  | _ => !less && !equal

end Value

/-! ### Texts -/

/-- Backslashes in front of some bytes in sets are dropped, as they are no part of the set. -/
def convertSets : Bool → List Char → List Char
  | _, [] => []
  | false, '\\' :: c :: rest => '\\' :: c :: convertSets false rest
  | true, '\\' :: c :: rest =>
    if c = 't' then '\t' :: convertSets true rest
    else if c = 'n' then '\n' :: convertSets true rest
    else if c = ']' || c = '\\' || c = '/' || c = '"' then c :: convertSets true rest
    else '\\' :: c :: convertSets true rest
  | false, '[' :: '^' :: ']' :: rest => '[' :: '^' :: ']' :: convertSets true rest
  | false, '[' :: ']' :: rest => '[' :: ']' :: convertSets true rest
  | false, '[' :: rest => '[' :: convertSets true rest
  | true, ']' :: rest => ']' :: convertSets false rest
  | inSet, c :: rest => c :: convertSets inSet rest

/-- The expression of a pattern. -/
def regexOf (pattern : Octets) : Regex :=
  match Regex.read { extended := true } (convertSets false pattern) with
  | .ok regex => regex
  | .error _ => Regex.ofLiteral pattern

/-- Splits a text at blanks. -/
def splitBlanks (text : Octets) : List Octets :=
  (text.foldr (fun c (current, done) =>
    if c = ' ' || c = '\t' || c = '\n' then ([], if current.isEmpty then done else current :: done)
    else (c :: current, done)) (([] : Octets), ([] : List Octets)))
    |> fun (current, done) => if current.isEmpty then done else current :: done

/-- Splits a text at matches of an expression. -/
def splitMatches (regex : Regex) : Nat → Octets → List Octets
  | 0, text => [text]
  | n + 1, text =>
    match regex.find? false text with
    | none => [text]
    | some found =>
      if found.text.isEmpty then [text]
      else found.passed.reverse :: splitMatches regex n found.rest

/-- The fields of a text between separators. -/
def splitFields (separator text : Octets) : List Octets :=
  if text.isEmpty then []
  else
    match separator with
    | [' '] => splitBlanks text
    | [] => text.map fun c => [c]
    | [c] => if c = '\\' || c.isAlphanum then Text.fields c text else go separator
    | separator => go separator
where
  /-- The fields between matches. -/
  go (separator : Octets) : List Octets :=
    let regex := match separator with
      | [_] => Regex.ofLiteral separator
      | _ => regexOf separator
    splitMatches regex (text.length + 1) text

/-- What is put in place of a match. -/
def renderMatch (found : Octets) : List Char → Octets
  | [] => []
  | '\\' :: '&' :: rest => '&' :: renderMatch found rest
  | '\\' :: '\\' :: rest => '\\' :: renderMatch found rest
  | '&' :: rest => found ++ renderMatch found rest
  | c :: rest => c :: renderMatch found rest

/-- Replaces matches, the first one or all, and counts them. -/
def replaceMatches (regex : Regex) (all : Bool) (replacement : Octets) :
    Nat → Bool → List Char → List Char → Octets × Nat
  | 0, _, _, rest => (rest, 0)
  | n + 1, behind, passed, rest =>
    match regex.findFrom? false passed rest with
    | none => (rest, 0)
    | some found =>
      let front := rest.take (found.passed.length - passed.length)
      let put := renderMatch found.text replacement
      if !all then (front ++ put ++ found.rest, 1)
      else if found.text.isEmpty then
        let here := if behind && front.isEmpty then [] else put
        let count := if behind && front.isEmpty then 0 else 1
        match found.rest with
        | [] => (front ++ here, count)
        | c :: more =>
          let (after, others) :=
            replaceMatches regex all replacement n false (c :: found.passed) more
          (front ++ here ++ c :: after, count + others)
      else
        let (after, others) := replaceMatches regex all replacement n true
          (found.text.reverse ++ found.passed) found.rest
        (front ++ put ++ after, others + 1)

/-- The part of a text from a place on, so long at most. -/
def part (text : Octets) (start : Float) (size : Option Float) : Octets :=
  let half (x : Float) : Int := Value.wholeOf (x + 0.5).floor
  let first := half start
  let stop : Int := match size with
    | some size => half (start + size)
    | none => text.length + 1
  let begin := max first 1
  let upTo := min stop (text.length + 1)
  if upTo ≤ begin then [] else (text.drop (begin.toNat - 1)).take (upTo - begin).toNat

/-- Values in a format. -/
def format (conversion : Layout × Char) : Nat → Octets → List Value → Octets
  | 0, _, _ => []
  | _, [], _ => []
  | n + 1, '%' :: '%' :: rest, values => '%' :: format conversion n rest values
  | n + 1, '%' :: rest, values =>
    let star (k : Nat) : Int := ((values[k]?).map fun v => Value.wholeOf v.toNumber).getD 0
    let (layout, taken, behind) := readLayout star rest
    let values := values.drop taken
    let behind := behind.dropWhile fun c => c = 'l' || c = 'h' || c = 'L'
    match behind with
    | [] => '%' :: rest
    | letter :: behind =>
      let value := values.headD .unset
      let text : Option Octets :=
        if letter = 's' then some (layout.string (value.toText conversion))
        else if letter = 'c' then
          match value with
          | .number x => some (layout.pad [Program.byteOf (Value.wholeOf x).toNat])
          | value => some (layout.pad ((value.toText conversion).take 1))
        else if letter = 'd' || letter = 'i' then
          some (layout.integer (Value.wholeOf value.toNumber))
        else if ['o', 'x', 'X', 'u'].contains letter then
          some (layout.natural letter
            (Value.wholeOf value.toNumber % 18446744073709551616).toNat)
        else if ['e', 'E', 'f', 'F', 'g', 'G'].contains letter then
          some (layout.real letter value.toNumber)
        else none
      match text with
      | some text => text ++ format conversion n behind values.tail
      | none => '%' :: rest.take (rest.length - behind.length) ++ format conversion n behind values
  | n + 1, c :: rest, values => c :: format conversion n rest values

end ExpectError.Shell.Awk
