import ExpectError.Shell.Arithmetic
import ExpectError.Shell.Printing

/-!
# Conditions

Conditions on texts, numbers and files, joined by words for not, and and or.
-/

namespace ExpectError.Shell

namespace Condition

/-- The tests of one operand. -/
def unary : List Octets :=
  ["-r", "-w", "-x", "-e", "-f", "-d", "-c", "-b", "-p", "-u", "-g", "-k", "-s", "-t", "-z", "-n",
    "-h", "-O", "-G", "-L", "-S"].map String.toList

/-- The tests of two operands. -/
def binary : List Octets :=
  ["=", "!=", "<", ">", "-eq", "-ne", "-ge", "-gt", "-le", "-lt", "-nt", "-ot", "-ef"].map
    String.toList

/-- Is an operator followed by something that makes an operand of it? -/
def isOperand : List Octets → Bool
  | [] => true
  | [_] => false
  | a :: _ => binary.contains a

/-- A path that leads to no file of the tree but can be used. -/
def isDevice (file : Octets) : Bool :=
  file = "/dev/null".toList

/-- The test of a file or of a text. -/
def testUnary (s : State) (operator operand : Octets) : Bool :=
  let path := s.path operand
  let entry : Option Entry := (s.tree.resolve path).toOption.map (·.2)
  match String.ofList operator with
  | "-z" => operand.isEmpty
  | "-n" => !operand.isEmpty
  | "-f" => s.tree.isFile path
  | "-d" => s.tree.isFolder path
  | "-c" => isDevice operand
  | "-e" | "-r" => entry.isSome || isDevice operand
  | "-w" => match s.tree.resolve path with
    | .ok (names, _) => s.tree.isWritable names
    | .error _ => isDevice operand
  | "-x" => match entry with
    | some (.file _ executable) => executable
    | some .folder => true
    | none => false
  | "-s" => match entry with
    | some (.file content _) => !content.isEmpty
    | some .folder => true
    | none => false
  | "-O" | "-G" => entry.isSome
  | _ => false

/-- The number of an operand. -/
def number (text : Octets) : Except Octets Int :=
  let trimmed := text.dropWhile fun c => c = ' ' || ('\t' ≤ c && c ≤ '\x0d')
  let trimmed := (trimmed.reverse.dropWhile fun c => c = ' ' || ('\t' ≤ c && c ≤ '\x0d')).reverse
  match Octets.int? trimmed with
  | some n => .ok n
  | none => .error ("Illegal number: ".toList ++ text)

/-- The test of two operands. -/
def testBinary (s : State) (a operator b : Octets) : Except Octets Bool := do
  match String.ofList operator with
  | "=" => return a = b
  | "!=" => return a ≠ b
  | "<" => return decide (a < b)
  | ">" => return decide (b < a)
  | "-eq" => return (← number a) = (← number b)
  | "-ne" => return (← number a) ≠ (← number b)
  | "-lt" => return decide ((← number a) < (← number b))
  | "-le" => return decide ((← number a) ≤ (← number b))
  | "-gt" => return decide ((← number b) < (← number a))
  | "-ge" => return decide ((← number b) ≤ (← number a))
  | "-ef" =>
    match s.tree.resolve (s.path a), s.tree.resolve (s.path b) with
    | .ok (m, _), .ok (n, _) => return m = n
    | _, _ => return false
  | "-nt" => return s.tree.has (s.path a) && !s.tree.has (s.path b)
  | "-ot" => return s.tree.has (s.path b) && !s.tree.has (s.path a)
  | _ => return false

/-- The words of a condition, and the value of its front. -/
abbrev Reads := Except Octets (Bool × List Octets)

mutual

/-- Conditions joined by or. -/
def readOr (s : State) : Nat → List Octets → Reads
  | 0, _ => .error "too deep".toList
  | n + 1, words => do
    let (a, rest) ← readAnd s n words
    match rest with
    | ['-', 'o'] :: rest =>
      let (b, rest) ← readOr s n rest
      return (a || b, rest)
    | _ => return (a, rest)

/-- Conditions joined by and. -/
def readAnd (s : State) : Nat → List Octets → Reads
  | 0, _ => .error "too deep".toList
  | n + 1, words => do
    let (a, rest) ← readNot s n words
    match rest with
    | ['-', 'a'] :: rest =>
      let (b, rest) ← readAnd s n rest
      return (a && b, rest)
    | _ => return (a, rest)

/-- A condition or its opposite. -/
def readNot (s : State) : Nat → List Octets → Reads
  | 0, _ => .error "too deep".toList
  | n + 1, words => do
    match words with
    | ['!'] :: rest =>
      if rest.isEmpty then return (true, [])
      else
        let (a, rest) ← readNot s n rest
        return (!a, rest)
    | _ => readPrimary s n words

/-- A condition without words that join. -/
def readPrimary (s : State) : Nat → List Octets → Reads
  | 0, _ => .error "too deep".toList
  | n + 1, words => do
    match words with
    | [] => return (false, [])
    | ['('] :: second :: rest =>
      let (a, rest) ← readOr s n (second :: rest)
      match rest with
      | [')'] :: rest => return (a, rest)
      | _ => throw "closing paren expected".toList
    | operator :: rest =>
      if unary.contains operator && !isOperand rest then
        match rest with
        | operand :: rest => return (testUnary s operator operand, rest)
        | [] => return (!operator.isEmpty, [])
      else
        match rest with
        | sign :: b :: more =>
          if binary.contains sign then return (← testBinary s operator sign b, more)
          else return (!operator.isEmpty, rest)
        | [sign] =>
          if binary.contains sign then throw (sign ++ ": argument expected".toList)
          else return (!operator.isEmpty, rest)
        | [] => return (!operator.isEmpty, [])

end

/-- Does a condition hold? -/
def holds (s : State) (words : List Octets) : Except Octets Bool := do
  let bound := 4 * words.length + 8
  match words with
  | [] => return false
  | [a, sign, b] =>
    if binary.contains sign then return ← testBinary s a sign b
  | _ => pure ()
  let (value, rest) ← match words with
    | ['!'] :: rest =>
      if words.length = 3 || words.length = 4 then do
        let (value, rest) ← readOr s bound rest
        pure (!value, rest)
      else readOr s bound words
    | _ => readOr s bound words
  if rest.isEmpty then return value
  let last := words.getD (words.length - rest.length - 1) []
  throw (last ++ ": unexpected operator".toList)

end Condition

namespace Program

/-- Tests a condition. -/
def test : Program := fun arguments s =>
  match Condition.holds s arguments with
  | .ok true => s.done 0
  | .ok false => s.done 1
  | .error problem => s.refuse problem 2

/-- Tests a condition up to a closing bracket. -/
def bracket : Program := fun arguments s =>
  if arguments.getLast? = some [']'] then test arguments.dropLast s
  else s.refuse "missing ]".toList 2

end Program

end ExpectError.Shell
