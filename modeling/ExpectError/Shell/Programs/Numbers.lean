import ExpectError.Shell.Programs.Paths
import ExpectError.Shell.Regex

/-!
# Programs for numbers

* `expr`: the value of an expression that is given by its words;
* `seq`: the numbers from one to another.
-/

namespace ExpectError.Shell

namespace Calculation

/-- What is wrong with an expression. -/
inductive Problem where
  | incomplete (word : Octets)
  | unexpected (word : Octets)
  | notNumber
  | divisionByZero
  | badPattern (problem : Regex.Problem)
  | tooDeep
  deriving DecidableEq, Repr

/-- The words about an expression. -/
def Problem.message : Problem → Octets
  | .incomplete word => "syntax error: missing argument after '".toList ++ word ++ ['\'']
  | .unexpected word => "syntax error: unexpected argument '".toList ++ word ++ ['\'']
  | .notNumber => "non-integer argument".toList
  | .divisionByZero => "division by zero".toList
  | .badPattern problem => problem.message.toList
  | .tooDeep => "syntax error".toList

/-- The value of the words at the front, and the other words. -/
abbrev Reads := Except Problem (Octets × List Octets)

/-- Is a value nothing? -/
def isNull (value : Octets) : Bool :=
  value.isEmpty || (Octets.int? value = some 0 && value.head? ≠ some '+')

/-- The number that a value is. -/
def number? : Octets → Option Int
  | '-' :: digits => (Octets.nat? digits).map fun n => -(n : Int)
  | digits => (Octets.nat? digits).map fun n => (n : Int)

/-- The number that a value has to be. -/
def number (value : Octets) : Except Problem Int :=
  match number? value with
  | some n => .ok n
  | none => .error .notNumber

/-- A truth value. -/
def ofBool (b : Bool) : Octets :=
  if b then ['1'] else ['0']

/-- Compares two values, as numbers if both are. -/
def compare (operator : String) (a b : Octets) : Octets :=
  let (less, equal) := match number? a, number? b with
    | some m, some n => (decide (m < n), decide (m = n))
    | _, _ => (decide (a < b), decide (a = b))
  ofBool (match operator with
    | "<" => less
    | "<=" => less || equal
    | "=" | "==" => equal
    | "!=" => !equal
    | ">=" => !less
    | _ => !less && !equal)

/-- What an expression takes from the front of a text: its group, or how much it takes. -/
def matched (text pattern : Octets) : Except Problem Octets :=
  match Regex.read { extended := false } pattern with
  | .error problem => .error (.badPattern problem)
  | .ok regex =>
    let found := regex.matchAt? false { passed := [], rest := text }
    if 0 < regex.groups then
      .ok ((found.bind fun m => m.captures.lookup 1).getD [])
    else .ok (.ofNat ((found.map fun m => m.text.length).getD 0))

/-- Calculates with two numbers. -/
def calculate (operator : String) (a b : Octets) : Except Problem Octets := do
  let m ← number a
  let n ← number b
  match operator with
  | "+" => return .ofInt (m + n)
  | "-" => return .ofInt (m - n)
  | "*" => return .ofInt (m * n)
  | "/" => if n = 0 then throw .divisionByZero else return .ofInt (m.tdiv n)
  | _ => if n = 0 then throw .divisionByZero else return .ofInt (m.tmod n)

/-- The operators by how tight they bind, the loosest first. -/
def levels : List (List String) :=
  [["|"], ["&"], ["<", "<=", "=", "==", "!=", ">=", ">"], ["+", "-"], ["*", "/", "%"], [":"]]

/-- The value of two operands. -/
def combine (operator : String) (a b : Octets) : Except Problem Octets :=
  match operator with
  | "|" => .ok (if !isNull a then a else if isNull b then ['0'] else b)
  | "&" => .ok (if isNull a || isNull b then ['0'] else a)
  | ":" => matched a b
  | _ =>
    if ["<", "<=", "=", "==", "!=", ">=", ">"].contains operator then .ok (compare operator a b)
    else calculate operator a b

mutual

/-- An expression whose operators bind as tight as those of a level. -/
def readLevel : Nat → Nat → List Octets → Reads
  | 0, _, _ => .error .tooDeep
  | n + 1, level, words =>
    match levels[level]? with
    | none => readOperand n words
    | some operators => do
      let (a, rest) ← readLevel n (level + 1) words
      readMore n level operators a rest

/-- The operators of a level behind an operand, from left to right. -/
def readMore : Nat → Nat → List String → Octets → List Octets → Reads
  | 0, _, _, _, _ => .error .tooDeep
  | n + 1, level, operators, a, words => do
    match words with
    | [] => return (a, [])
    | operator :: rest =>
      let word := String.ofList operator
      if !operators.contains word then return (a, words)
      if rest.isEmpty then throw (.incomplete operator)
      let (b, rest) ← readLevel n (level + 1) rest
      readMore n level operators (← combine word a b) rest

/-- An operand. -/
def readOperand : Nat → List Octets → Reads
  | 0, _ => .error .tooDeep
  | n + 1, words => do
    match words with
    | [] => throw .tooDeep
    | word :: rest =>
      match String.ofList word, rest with
      | "(", _ =>
        let (a, rest) ← readLevel n 0 rest
        match rest with
        | [')'] :: rest => return (a, rest)
        | _ => throw .tooDeep
      | "+", operand :: rest => return (operand, rest)
      | "length", _ :: _ =>
        let (a, rest) ← readOperand n rest
        return (.ofNat a.length, rest)
      | "match", _ :: _ :: _ =>
        let (a, rest) ← readOperand n rest
        let (b, rest) ← readOperand n rest
        return (← matched a b, rest)
      | "index", _ :: _ :: _ =>
        let (a, rest) ← readOperand n rest
        let (b, rest) ← readOperand n rest
        return (.ofNat ((a.findIdx? b.contains).map (· + 1) |>.getD 0), rest)
      | "substr", _ :: _ :: _ :: _ =>
        let (a, rest) ← readOperand n rest
        let (b, rest) ← readOperand n rest
        let (c, rest) ← readOperand n rest
        match number? b, number? c with
        | some start, some size =>
          if start ≤ 0 || size ≤ 0 then return ([], rest)
          else return ((a.drop (start.toNat - 1)).take size.toNat, rest)
        | _, _ => return ([], rest)
      | _, _ => return (word, rest)

end

/-- The value of an expression. -/
def value (words : List Octets) : Except Problem Octets := do
  match ← readLevel (16 * words.length + 16) 0 words with
  | (a, []) => return a
  | (_, word :: _) => throw (.unexpected word)

end Calculation

namespace Program

/-- Writes the value of an expression. -/
def expr : Program := fun arguments s =>
  if arguments.isEmpty then s.complain ("expr: missing operand".toList ++ hint "expr") 2
  else
    match Calculation.value arguments with
    | .error problem => s.complain ("expr: ".toList ++ problem.message) 2
    | .ok value => (s.print (value ++ ['\n'])).done (if Calculation.isNull value then 1 else 0)

/-- The numbers from one to another, so many at most. -/
def numbersFrom (last increment : Int) : Nat → Int → List Int
  | 0, _ => []
  | n + 1, first =>
    if (0 < increment && last < first) || (increment < 0 && first < last) then []
    else first :: numbersFrom last increment n (first + increment)

/-- Writes the numbers from one to another. -/
def seq : Program := fun arguments s =>
  let (separator, equal, operands) := go ['\n'] false (arguments.length + 1) arguments
  let numbers := operands.map Octets.int?
  let write (first increment last : Int) : State :=
    if increment = 0 then
      s.complain ("seq: invalid Zero increment value: '0'".toList ++ hint "seq") 1
    else
      let count := ((last - first).natAbs / increment.natAbs) + 1
      let texts := (numbersFrom last increment count first).map Octets.ofInt
      let width := texts.foldl (fun n text => max n text.length) 0
      let texts := if equal then
          texts.map fun text => List.replicate (width - text.length) '0' ++ text
        else texts
      if texts.isEmpty then s.done 0
      else (s.print (separator.intercalate texts ++ ['\n'])).done 0
  match numbers with
  | [some last] => write 1 1 last
  | [some first, some last] => write first 1 last
  | [some first, some increment, some last] => write first increment last
  | [] => s.complain ("seq: missing operand".toList ++ hint "seq") 1
  | _ =>
    match operands.find? fun text => (Octets.int? text).isNone with
    | some text =>
      s.complain ("seq: invalid floating point argument: ".toList ++ quoted text ++ hint "seq") 1
    | none =>
      s.complain ("seq: extra operand ".toList ++ quoted (operands.getD 3 []) ++ hint "seq") 1
where
  /-- What stands between numbers, whether they get the same width, and the operands. -/
  go (separator : Octets) (equal : Bool) : Nat → List Octets → Octets × Bool × List Octets
    | 0, operands => (separator, equal, operands)
    | n + 1, arguments =>
      match arguments with
      | ['-', 's'] :: value :: rest => go value equal n rest
      | ('-' :: 's' :: value) :: rest => go value equal n rest
      | ['-', 'w'] :: rest => go separator true n rest
      | operands => (separator, equal, operands)

end Program

end ExpectError.Shell
