import ExpectError.Shell.Octets
import ExpectError.Shell.Word

/-!
# Arithmetic

Expressions over numbers of 64 bits, which wrap around. Variables stand for their values, and can be
assigned.

* `Expression.ofText`: the expression that a text stands for;
* `Expression.value`: its value, and the variables after it.
-/

namespace ExpectError.Shell

/-- Operators with two operands. -/
inductive Operator where
  | times | quotient | remainder | plus | minus | shiftLeft | shiftRight
  | less | atMost | more | atLeast | equal | unequal | bitAnd | bitXor | bitOr
  deriving DecidableEq, Repr

/-- An expression. -/
inductive Expression where
  | number (n : Int)
  | named (name : Octets)
  | negative (e : Expression)
  | complement (e : Expression)
  | isZero (e : Expression)
  | binary (operator : Operator) (a b : Expression)
  | both (a b : Expression)
  | either (a b : Expression)
  | choice (condition a b : Expression)
  /-- Assigns a variable; with an operator, what it makes of the old value. -/
  | assign (name : Octets) (operator : Option Operator) (value : Expression)
  deriving DecidableEq, Repr

/-- What an expression lacks. -/
inductive Expected where
  | primary
  | closing
  | colon
  | ending
  deriving DecidableEq, Repr

/-- The words for what is lacking. -/
def Expected.text : Expected → String
  | .primary => "primary"
  | .closing => "')'"
  | .colon => "':'"
  | .ending => "EOF"

/-- Why an expression has no value. -/
inductive ArithmeticError where
  | notRead (expected : Expected)
  | divisionByZero
  | badNumber (text : Octets)
  deriving DecidableEq, Repr

/-- A number as it fits in 64 bits. -/
def wrap (n : Int) : Int :=
  Int.bmod n 18446744073709551616

namespace Expression

/-- Operators by their texts, longer ones first, with how tight they bind. -/
def operators : List (String × Nat × Operator) :=
  [("<<", 8, .shiftLeft), (">>", 8, .shiftRight), ("<=", 7, .atMost), (">=", 7, .atLeast),
    ("==", 6, .equal), ("!=", 6, .unequal), ("*", 10, .times), ("/", 10, .quotient),
    ("%", 10, .remainder), ("+", 9, .plus), ("-", 9, .minus), ("<", 7, .less), (">", 7, .more),
    ("&", 5, .bitAnd), ("^", 4, .bitXor), ("|", 3, .bitOr)]

/-- Drops blanks. -/
def dropBlanks (text : Octets) : Octets :=
  text.dropWhile fun c => c = ' ' || c = '\t' || c = '\n'

/-- The operator at the front, if the text is not that of a longer one. -/
def operator? (text : Octets) : Option (Nat × Operator × Octets) :=
  let text := dropBlanks text
  (operators.find? fun (sign, _, _) => sign.toList.isPrefixOf text).bind
    fun (sign, level, operator) =>
      let rest := text.drop sign.length
      let doubled := (sign = "&" || sign = "|") && rest.head? = sign.toList.head?
      let assigns := rest.head? = some '=' && level ≠ 6 && level ≠ 7
      if doubled || assigns then none else some (level, operator, rest)

/-- The operators that can be part of an assignment. -/
def assigner? (text : Octets) : Option (Option Operator × Octets) :=
  let text := dropBlanks text
  match text with
  | '=' :: '=' :: _ => none
  | '=' :: rest => some (none, rest)
  | _ =>
    (operators.find? fun (sign, level, _) =>
      level ≠ 6 && level ≠ 7 && (sign.toList ++ ['=']).isPrefixOf text).map
        fun (sign, _, operator) => (some operator, text.drop (sign.length + 1))

/-- The value of a digit in any base. -/
def digitValue? (c : Char) : Option Nat :=
  if c.isDigit then some (c.toNat - '0'.toNat)
  else if 'a' ≤ c && c ≤ 'f' then some (c.toNat - 'a'.toNat + 10)
  else if 'A' ≤ c && c ≤ 'F' then some (c.toNat - 'A'.toNat + 10)
  else none

/-- The value of digits in a base, and what is behind them. -/
def readDigits (base : Nat) (value : Nat) : Octets → Nat × Octets
  | [] => (value, [])
  | c :: rest =>
    match digitValue? c with
    | some digit => if digit < base then readDigits base (base * value + digit) rest
      else (value, c :: rest)
    | none => (value, c :: rest)

/-- A number: hexadecimal, octal or decimal, and what is behind it. -/
def readNumber : Octets → Nat × Octets
  | '0' :: 'x' :: rest | '0' :: 'X' :: rest => readDigits 16 0 rest
  | '0' :: rest => readDigits 8 0 rest
  | text => readDigits 10 0 text

/-- The greatest number of 64 bits. -/
def greatest : Int := 9223372036854775807

mutual

/-- An operand. -/
def readOperand : Nat → Octets → Except Expected (Expression × Octets)
  | 0, _ => .error .primary
  | n + 1, text =>
    match dropBlanks text with
    | '-' :: rest => (readOperand n rest).map fun (e, rest) => (.negative e, rest)
    | '+' :: rest => readOperand n rest
    | '~' :: rest => (readOperand n rest).map fun (e, rest) => (.complement e, rest)
    | '!' :: rest => (readOperand n rest).map fun (e, rest) => (.isZero e, rest)
    | '(' :: rest => do
      let (e, rest) ← readAssignment n rest
      match dropBlanks rest with
      | ')' :: rest => return (e, rest)
      | _ => throw .closing
    | c :: rest =>
      if c.isDigit then
        let (value, rest) := readNumber (c :: rest)
        .ok (.number (min greatest value), rest)
      else if isNameStart c then
        let name := (c :: rest).takeWhile isNamePart
        .ok (.named name, (c :: rest).drop name.length)
      else .error .primary
    | [] => .error .primary

/-- Operands joined by operators that bind tighter than a level. -/
def readBinary : Nat → Nat → Expression → Octets → Except Expected (Expression × Octets)
  | 0, _, _, _ => .error .primary
  | n + 1, outer, left, text =>
    match operator? text with
    | none => .ok (left, text)
    | some (level, operator, rest) =>
      if level ≤ outer then .ok (left, text)
      else do
        let (right, rest) ← readOperand n rest
        let (right, rest) ← readBinary n level right rest
        readBinary n outer (.binary operator left right) rest

/-- Joined by both. -/
def readBoth : Nat → Octets → Except Expected (Expression × Octets)
  | 0, _ => .error .primary
  | n + 1, text => do
    let (left, rest) ← readOperand n text
    let (left, rest) ← readBinary n 0 left rest
    match dropBlanks rest with
    | '&' :: '&' :: rest =>
      let (right, rest) ← readBoth n rest
      return (.both left right, rest)
    | _ => return (left, rest)

/-- Joined by either. -/
def readEither : Nat → Octets → Except Expected (Expression × Octets)
  | 0, _ => .error .primary
  | n + 1, text => do
    let (left, rest) ← readBoth n text
    match dropBlanks rest with
    | '|' :: '|' :: rest =>
      let (right, rest) ← readEither n rest
      return (.either left right, rest)
    | _ => return (left, rest)

/-- A choice, or what can be part of one. -/
def readChoice : Nat → Octets → Except Expected (Expression × Octets)
  | 0, _ => .error .primary
  | n + 1, text => do
    let (condition, rest) ← readEither n text
    match dropBlanks rest with
    | '?' :: rest =>
      let (a, rest) ← readAssignment n rest
      match dropBlanks rest with
      | ':' :: rest =>
        let (b, rest) ← readChoice n rest
        return (.choice condition a b, rest)
      | _ => throw .colon
    | _ => return (condition, rest)

/-- An assignment, or what can be part of one. -/
def readAssignment : Nat → Octets → Except Expected (Expression × Octets)
  | 0, _ => .error .primary
  | n + 1, text =>
    let text := dropBlanks text
    let name := text.takeWhile isNamePart
    match isName name, assigner? (text.drop name.length) with
    | true, some (operator, rest) => do
      let (value, rest) ← readAssignment n rest
      return (.assign name operator value, rest)
    | _, _ => readChoice n text

end

/-- The expression that a text stands for. -/
def ofText (text : Octets) : Except Expected Expression := do
  let (e, rest) ← readAssignment (8 * text.length + 16) text
  if (dropBlanks rest).isEmpty then return e else throw .ending

/-- A truth value as a number. -/
def ofBool (b : Bool) : Int :=
  if b then 1 else 0

/-- A number as bits. -/
def bits (n : Int) : BitVec 64 :=
  BitVec.ofInt 64 n

/-- The value of an operator. -/
def Operator.apply (operator : Operator) (a b : Int) : Except ArithmeticError Int :=
  match operator with
  | .times => .ok (wrap (a * b))
  | .quotient => if b = 0 then .error .divisionByZero else .ok (wrap (a.tdiv b))
  | .remainder => if b = 0 then .error .divisionByZero else .ok (wrap (a.tmod b))
  | .plus => .ok (wrap (a + b))
  | .minus => .ok (wrap (a - b))
  | .shiftLeft => .ok (bits a <<< (b % 64).toNat).toInt
  | .shiftRight => .ok ((bits a).sshiftRight (b % 64).toNat).toInt
  | .less => .ok (ofBool (a < b))
  | .atMost => .ok (ofBool (a ≤ b))
  | .more => .ok (ofBool (b < a))
  | .atLeast => .ok (ofBool (b ≤ a))
  | .equal => .ok (ofBool (a = b))
  | .unequal => .ok (ofBool (a ≠ b))
  | .bitAnd => .ok (bits a &&& bits b).toInt
  | .bitXor => .ok (bits a ^^^ bits b).toInt
  | .bitOr => .ok (bits a ||| bits b).toInt

/-- The number that the value of a variable stands for. -/
def numberOf (text : Octets) : Except ArithmeticError Int :=
  let trimmed := dropBlanks text
  if trimmed.isEmpty then .ok 0
  else
    let (negated, digits) := match trimmed with
      | '-' :: rest => (true, rest)
      | '+' :: rest => (false, rest)
      | rest => (false, rest)
    if !digits.head?.any Char.isDigit then .error (.badNumber text)
    else
      let (value, rest) := readNumber digits
      if !(dropBlanks rest).isEmpty then .error (.badNumber text)
      else .ok (if negated then -(min (greatest + 1) (value : Int)) else min greatest value)

/-- Values of variables that have been assigned, the last ones first. -/
abbrev Assigned := List (Octets × Int)

/-- The value of an expression, and the variables that it has assigned. -/
def value (lookUp : Octets → Option Octets) :
    Expression → Assigned → Except ArithmeticError (Int × Assigned)
  | .number n, assigned => .ok (n, assigned)
  | .named name, assigned =>
    match assigned.lookup name with
    | some n => .ok (n, assigned)
    | none => do return (← numberOf ((lookUp name).getD []), assigned)
  | .negative e, assigned => do
    let (n, assigned) ← value lookUp e assigned
    return (wrap (-n), assigned)
  | .complement e, assigned => do
    let (n, assigned) ← value lookUp e assigned
    return (-n - 1, assigned)
  | .isZero e, assigned => do
    let (n, assigned) ← value lookUp e assigned
    return (ofBool (n = 0), assigned)
  | .binary operator a b, assigned => do
    let (m, assigned) ← value lookUp a assigned
    let (n, assigned) ← value lookUp b assigned
    return (← Operator.apply operator m n, assigned)
  | .both a b, assigned => do
    let (m, assigned) ← value lookUp a assigned
    if m = 0 then return (0, assigned)
    let (n, assigned) ← value lookUp b assigned
    return (ofBool (n ≠ 0), assigned)
  | .either a b, assigned => do
    let (m, assigned) ← value lookUp a assigned
    if m ≠ 0 then return (1, assigned)
    let (n, assigned) ← value lookUp b assigned
    return (ofBool (n ≠ 0), assigned)
  | .choice condition a b, assigned => do
    let (m, assigned) ← value lookUp condition assigned
    if m ≠ 0 then value lookUp a assigned else value lookUp b assigned
  | .assign name operator e, assigned => do
    let (n, assigned) ← value lookUp e assigned
    match operator with
    | none => return (n, (name, n) :: assigned)
    | some operator =>
      let old ← match assigned.lookup name with
        | some old => pure old
        | none => numberOf ((lookUp name).getD [])
      let n ← Operator.apply operator old n
      return (n, (name, n) :: assigned)

end Expression

end ExpectError.Shell
