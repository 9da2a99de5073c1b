import ExpectError.Shell.Decimal
import ExpectError.Shell.Printing
import ExpectError.Shell.Regex

/-!
# Scripts for records

A script is a list of rules, each with a pattern and with statements that are run for the records
that the pattern chooses.

* `Expr`, `Stmt`, `Rule`: what a script is made of;
* `Token.ofText`: the tokens of a script;
* `readScript`: the rules and functions of a script.
-/

namespace ExpectError.Shell.Awk

/-- An operation on two values. -/
inductive Operation where
  | plus
  | minus
  | times
  | quotient
  | remainder
  | power
  | less
  | atMost
  | equal
  | unequal
  | atLeast
  | more
  | join
  deriving DecidableEq, Repr

/-- An expression. -/
inductive Expr where
  | number (x : Float)
  | text (text : Octets)
  /-- Does an expression match in the record? -/
  | regex (pattern : Octets)
  | named (name : Octets)
  | element (array : Octets) (index : List Expr)
  | field (index : Expr)
  | assign (target : Expr) (operation : Option Operation) (value : Expr)
  /-- Adds one or takes it away; the value is the one in front, or the one behind. -/
  | step (target : Expr) (up first : Bool)
  | binary (operation : Operation) (a b : Expr)
  | matching (negated : Bool) (a pattern : Expr)
  | isIn (index : List Expr) (array : Octets)
  | both (a b : Expr)
  | either (a b : Expr)
  | opposite (a : Expr)
  | negative (a : Expr)
  | positive (a : Expr)
  | choice (condition a b : Expr)
  | call (name : Octets) (arguments : List Expr)
  /-- The next record, of the input, of a file or of the output of a command. -/
  | getline (target : Option Expr) (file command : Option Expr)
  | tuple (items : List Expr)

/-- Where a statement writes to. -/
inductive Outlet where
  | output
  | file (appends : Bool) (file : Expr)
  | command (command : Expr)

/-- A statement. -/
inductive Stmt where
  | block (body : List Stmt)
  | conditional (condition : Expr) (body otherwise : Stmt)
  | loop (condition : Expr) (body : Stmt)
  | loopAfter (body : Stmt) (condition : Expr)
  | count (first : Stmt) (condition : Option Expr) (step body : Stmt)
  | each (name array : Octets) (body : Stmt)
  | print (arguments : List Expr) (outlet : Outlet)
  | printf (arguments : List Expr) (outlet : Outlet)
  | evaluate (e : Expr)
  | next
  | exit (status : Option Expr)
  | leave
  | goOn
  | delete (array : Octets) (index : Option (List Expr))
  | ret (value : Option Expr)

/-- The records that a rule is for. -/
inductive Choice where
  | start
  | finish
  | all
  | one (condition : Expr)
  | range (first last : Expr)

/-- A rule. -/
structure Rule where
  choice : Choice
  body : Stmt

/-- A function. -/
structure Function where
  name : Octets
  parameters : List Octets
  body : Stmt

/-- A script. -/
structure Script where
  rules : List Rule := []
  functions : List Function := []

/-! ### Tokens -/

/-- A token. -/
inductive Token where
  | number (x : Float)
  | text (text : Octets)
  | regex (pattern : Octets)
  | word (name : Octets)
  /-- A name with a parenthesis right behind it. -/
  | call (name : Octets)
  | sign (sign : String)
  | line

/-- What is wrong with a script. -/
inductive Problem where
  /-- The token or end that cannot stand in its place. -/
  | misplaced (text : Octets)
  /-- A closing sign that is not there. -/
  | missing (sign : Char) (text : Octets)
  | openText (text : Octets)
  | openRegex (text : Octets)
  | character (c : Char)
  | undefined (name : Octets)
  deriving DecidableEq, Repr

/-- A problem, and how many lines of the script are behind it. -/
structure Misread where
  problem : Problem
  linesLeft : Nat
  deriving DecidableEq, Repr

namespace Problem

/-- What is said about a problem in a line. -/
def message (problem : Problem) (line : Nat) : Octets :=
  let place := "line ".toList ++ Octets.ofNat line ++ ": ".toList
  match problem with
  | .misplaced text => place ++ "syntax error at or near ".toList ++ text
  | .missing sign text => place ++ "missing ".toList ++ sign :: " near ".toList ++ text
  | .openText text => place ++ "runaway string constant ".toList ++ text.take 10 ++ " ...".toList
  | .openRegex text =>
    place ++ "runaway regular expression ".toList ++ text.take 10 ++ " ...".toList
  | .character c => Octets.ofNat line ++ ": unexpected character '".toList ++ [c, '\'']
  | .undefined name => place ++ "function ".toList ++ name ++ " never defined".toList

end Problem

/-- The words that are no names. -/
def keywords : List String :=
  ["BEGIN", "END", "function", "func", "if", "else", "while", "for", "do", "break", "continue",
    "next", "nextfile", "exit", "return", "delete", "in", "getline", "print", "printf"]

/-- The functions that are always there. -/
def functionNames : List String :=
  ["length", "substr", "index", "split", "sub", "gsub", "match", "sprintf", "sin", "cos", "atan2",
    "exp", "log", "sqrt", "int", "rand", "srand", "tolower", "toupper", "system", "close", "fflush"]

/-- The signs, longer ones first. -/
def signs : List String :=
  ["&&", "||", "++", "--", "+=", "-=", "*=", "/=", "%=", "^=", "==", "<=", ">=", "!=", "!~",
    ">>", "\x7b", "\x7d", "(", ")", "[", "]", ";", ",", "+", "-", "*", "/", "%", "^", "!", ">",
    "<", "|", "?", ":", "~", "$", "="]

namespace Token

/-- Is a slash behind a token a division? -/
def isOperand : Option Token → Bool
  | some (.number _) | some (.text _) | some (.regex _) => true
  | some (.word name) =>
    !keywords.contains (String.ofList name) || String.ofList name = "getline"
  | some (.sign mark) => [")", "]", "$", "++", "--"].contains mark
  | _ => false

/-- The text up to a quote, with its escapes replaced, and what is behind it. -/
def splitText : Nat → List Char → Option (Octets × List Char)
  | 0, _ => none
  | _, [] | _, '\n' :: _ => none
  | _, '"' :: rest => some ([], rest)
  | n + 1, '\\' :: '\n' :: rest => splitText n rest
  | n + 1, '\\' :: c :: rest =>
    if '0' ≤ c && c ≤ '7' then
      let (value, rest) := Program.octal 3 0 (c :: rest)
      (splitText n rest).map fun (front, rest) => (Program.byteOf value :: front, rest)
    else
      (splitText n rest).map fun (front, rest) =>
        match Program.escape? c with
        | some e => (if c = 'e' then '\\' :: c :: front else e :: front, rest)
        | none => (if c = '"' then c :: front else '\\' :: c :: front, rest)
  | n + 1, c :: rest => (splitText n rest).map fun (front, rest) => (c :: front, rest)

/-- The pattern up to a slash, and what is behind it. -/
def splitRegex : Nat → List Char → Option (Octets × List Char)
  | 0, _ => none
  | _, [] | _, '\n' :: _ => none
  | _, '/' :: rest => some ([], rest)
  | n + 1, '\\' :: '/' :: rest => (splitRegex n rest).map fun (front, rest) => ('/' :: front, rest)
  | n + 1, '\\' :: c :: rest =>
    (splitRegex n rest).map fun (front, rest) => ('\\' :: c :: front, rest)
  | n + 1, '[' :: rest =>
    match readSet? ['^'] rest with
    | some (_, behind) =>
      let set := rest.take (rest.length - behind.length)
      (splitRegex n behind).map fun (front, rest) => ('[' :: set ++ front, rest)
    | none => (splitRegex n rest).map fun (front, rest) => ('[' :: front, rest)
  | n + 1, c :: rest => (splitRegex n rest).map fun (front, rest) => (c :: front, rest)

/-- Can a name begin with a byte? -/
def isNameStart (c : Char) : Bool :=
  c.isAlpha || c = '_'

/-- The tokens of a text, by the token in front. -/
def read : Nat → Option Token → List Char → Except Misread (List Token)
  | 0, _, _ => .ok []
  | _, _, [] => .ok []
  | n + 1, before, c :: rest => do
    let text := c :: rest
    let go (token : Token) (rest : List Char) : Except Misread (List Token) := do
      return token :: (← read n (some token) rest)
    let refuse (problem : Problem) : Except Misread (List Token) :=
      throw { problem, linesLeft := text.count '\n' }
    if c = '\n' then go .line rest
    else if c = ' ' || c = '\t' || c = '\x0d' then read n before rest
    else if c = '\\' then
      match rest with
      | '\n' :: rest => read n before rest
      | _ => refuse (.character c)
    else if c = '#' then read n before (rest.dropWhile (· ≠ '\n'))
    else if c = '"' then
      match splitText text.length rest with
      | some (value, rest) => go (.text value) rest
      | none => refuse (.openText (text.takeWhile (· ≠ '\n')))
    else if c = '/' && !isOperand before then
      match splitRegex text.length rest with
      | some (pattern, rest) => go (.regex pattern) rest
      | none => refuse (.openRegex (text.takeWhile (· ≠ '\n')))
    else if c.isDigit || (c = '.' && rest.head?.any Char.isDigit) then
      match readReal text with
      | some (x, rest) => go (.number x) rest
      | none => refuse (.character c)
    else if isNameStart c then
      let name := text.takeWhile isNamePart
      let rest := text.drop name.length
      let isPlain := keywords.contains (String.ofList name)
        || functionNames.contains (String.ofList name)
      if rest.head? = some '(' && !isPlain then go (.call name) rest else go (.word name) rest
    else
      match signs.find? fun mark => mark.toList.isPrefixOf text with
      | some mark => go (.sign mark) (text.drop mark.length)
      | none => refuse (.character c)

/-- A token as it is shown. -/
def shown : Token → Octets
  | .number x => ({ precision := some 6 } : Layout).real 'g' x
  | .text t => t
  | .regex pattern => '/' :: pattern ++ ['/']
  | .word name | .call name => name
  | .sign mark => mark.toList
  | .line => "end of line".toList

/-- Is a token the end of a line? -/
def isLine : Token → Bool
  | .line => true
  | _ => false

/-- The name of the function that some tokens call and none defines. -/
def undefined? (tokens : List Token) : Option Octets :=
  (called none tokens).find? fun name => !(defined tokens).contains name
where
  /-- The names that are called, by the token in front. -/
  called : Option Token → List Token → List Octets
    | some (.word w), .call name :: rest =>
      if w = "function".toList || w = "func".toList then called none rest
      else name :: called none rest
    | _, .call name :: rest => name :: called none rest
    | _, token :: rest => called (some token) rest
    | _, [] => []
  /-- The names that are defined. -/
  defined : List Token → List Octets
    | .word w :: .call name :: rest | .word w :: .word name :: rest =>
      if w = "function".toList || w = "func".toList then name :: defined rest
      else defined rest
    | _ :: rest => defined rest
    | [] => []

/-- The tokens of a script. -/
def ofText (text : Octets) : Except Misread (List Token) :=
  read (text.length + 1) none text

end Token

/-! ### Reading -/

/-- A reader of tokens. -/
abbrev Reads (α : Type) := StateT (List Token) (Except Misread) α

/-- What is not let through in an expression. -/
structure Scope where
  /-- Is the sign for more a comparison? -/
  more : Bool := true
  /-- Is the word for membership an operation? -/
  isIn : Bool := true
  deriving DecidableEq, Repr

namespace Reads

/-- Stops with a problem. -/
def stop {α : Type} (problem : Problem) : Reads α := do
  throw { problem, linesLeft := (← get).countP Token.isLine }

/-- Refuses what comes next. -/
def refuse {α : Type} : Reads α := do
  match ← get with
  | token :: _ => stop (.misplaced token.shown)
  | [] => stop (.missing '\x7d' "end of file".toList)

/-- Is a sign next? -/
def isSign (sign : String) : Reads Bool := do
  match ← get with
  | .sign s :: _ => return s = sign
  | _ => return false

/-- Is a word next? -/
def isWord (word : String) : Reads Bool := do
  match ← get with
  | .word w :: _ => return w = word.toList
  | _ => return false

/-- Leaves a token behind. -/
def skip : Reads Unit :=
  modify List.tail

/-- Takes a sign, if it is next. -/
def takeSign (sign : String) : Reads Bool := do
  if ← isSign sign then
    skip
    return true
  else return false

/-- Takes a sign that has to be next. -/
def expect (sign : String) : Reads Unit := do
  unless ← takeSign sign do
    match sign, ← get with
    | ")", .sign mark :: _ =>
      if mark = ";" || mark = "\x7d" then stop (.missing ')' mark.toList) else refuse
    | ")", .line :: _ => stop (.missing ')' Token.line.shown)
    | _, _ => refuse

/-- Drops ends of lines. -/
def skipLines : Reads Unit :=
  modify fun tokens => tokens.dropWhile fun
    | .line => true
    | _ => false

/-- Drops ends of lines and of statements. -/
def skipEnds : Reads Unit :=
  modify fun tokens => tokens.dropWhile fun
    | .line => true
    | .sign ";" => true
    | _ => false

/-- A name that has to be next. -/
def takeName : Reads Octets := do
  match ← get with
  | .word name :: rest | .call name :: rest =>
    set rest
    return name
  | _ => refuse

/-- Can a value be stored in an expression? -/
def isPlace : Expr → Bool
  | .named _ | .element _ _ | .field _ => true
  | _ => false

/-- Can an operand begin with what comes next? -/
def atOperand : Reads Bool := do
  match ← get with
  | .number _ :: _ | .text _ :: _ | .regex _ :: _ | .call _ :: _ => return true
  | .word word :: _ => return !keywords.contains (String.ofList word)
  | .sign sign :: _ => return ["$", "!", "(", "-", "+", "++", "--"].contains sign
  | _ => return false

/-- The operation of an assignment. -/
def assigner? (sign : String) : Option (Option Operation) :=
  match sign with
  | "=" => some none
  | "+=" => some (some .plus)
  | "-=" => some (some .minus)
  | "*=" => some (some .times)
  | "/=" => some (some .quotient)
  | "%=" => some (some .remainder)
  | "^=" => some (some .power)
  | _ => none

/-- The comparison of a sign. -/
def comparison? (scope : Scope) (sign : String) : Option Operation :=
  match sign with
  | "<" => some .less
  | "<=" => some .atMost
  | "==" => some .equal
  | "!=" => some .unequal
  | ">=" => some .atLeast
  | ">" => if scope.more then some .more else none
  | _ => none

/-- The operation of the sign that is next, out of some. -/
def nextOperation (table : List (String × Operation)) : Reads (Option Operation) := do
  match ← get with
  | .sign sign :: _ =>
    match table.lookup sign with
    | some operation =>
      skip
      return some operation
    | none => return none
  | _ => return none

mutual

/-- An expression. -/
def readExpr : Nat → Scope → Reads Expr
  | 0, _ => refuse
  | n + 1, scope => do
    let e ← readChoice n scope
    match ← get with
    | .sign sign :: rest =>
      match assigner? sign with
      | some operation =>
        unless isPlace e do refuse
        set rest
        skipLines
        return .assign e operation (← readExpr n scope)
      | none => return e
    | _ => return e

/-- A choice between two expressions. -/
def readChoice : Nat → Scope → Reads Expr
  | 0, _ => refuse
  | n + 1, scope => do
    let condition ← readEither n scope
    if ← takeSign "?" then
      skipLines
      let a ← readExpr n scope
      skipLines
      expect ":"
      skipLines
      return .choice condition a (← readExpr n scope)
    else return condition

/-- Expressions of which one has to hold. -/
def readEither : Nat → Scope → Reads Expr
  | 0, _ => refuse
  | n + 1, scope => do
    let a ← readBoth n scope
    if ← takeSign "||" then
      skipLines
      return .either a (← readEither n scope)
    else return a

/-- Expressions that all have to hold. -/
def readBoth : Nat → Scope → Reads Expr
  | 0, _ => refuse
  | n + 1, scope => do
    let a ← readMember n scope (← readMatching n scope)
    if ← takeSign "&&" then
      skipLines
      return .both a (← readBoth n scope)
    else return a

/-- Membership behind an expression. -/
def readMember : Nat → Scope → Expr → Reads Expr
  | 0, _, _ => refuse
  | n + 1, scope, e => do
    if scope.isIn && (← isWord "in") then
      skip
      let array ← takeName
      let index := match e with
        | .tuple items => items
        | e => [e]
      readMember n scope (.isIn index array)
    else return e

/-- Matching. -/
def readMatching : Nat → Scope → Reads Expr
  | 0, _ => refuse
  | n + 1, scope => do readMoreMatching n scope (← readComparison n scope)

/-- Matching behind an expression. -/
def readMoreMatching : Nat → Scope → Expr → Reads Expr
  | 0, _, _ => refuse
  | n + 1, scope, e => do
    if ← takeSign "~" then readMoreMatching n scope (.matching false e (← readComparison n scope))
    else if ← takeSign "!~" then
      readMoreMatching n scope (.matching true e (← readComparison n scope))
    else return e

/-- A comparison. -/
def readComparison : Nat → Scope → Reads Expr
  | 0, _ => refuse
  | n + 1, scope => do
    let a ← readPiped n scope (← readJoined n scope)
    match ← get with
    | .sign sign :: rest =>
      match comparison? scope sign with
      | some operation =>
        set rest
        return .binary operation a (← readJoined n scope)
      | none => return a
    | _ => return a

/-- Records of a command behind its expression. -/
def readPiped : Nat → Scope → Expr → Reads Expr
  | 0, _, _ => refuse
  | n + 1, scope, e => do
    match ← get with
    | .sign "|" :: .word word :: rest =>
      if word = "getline".toList then
        set rest
        readPiped n scope (.getline (← readTarget n) none (some e))
      else return e
    | _ => return e

/-- The place that a record is read into. -/
def readTarget : Nat → Reads (Option Expr)
  | 0 => refuse
  | n + 1 => do
    match ← get with
    | .sign "$" :: _ => return some (← readPrimary n)
    | .word word :: _ =>
      if keywords.contains (String.ofList word) || functionNames.contains (String.ofList word) then
        return none
      else return some (← readPrimary n)
    | _ => return none

/-- Expressions whose texts are joined. -/
def readJoined : Nat → Scope → Reads Expr
  | 0, _ => refuse
  | n + 1, scope => do readMoreJoined n scope (← readSum n scope)

/-- What is joined to an expression. -/
def readMoreJoined : Nat → Scope → Expr → Reads Expr
  | 0, _, _ => refuse
  | n + 1, scope, e => do
    if ← atOperand then readMoreJoined n scope (.binary .join e (← readSum n scope)) else return e

/-- Sums. -/
def readSum : Nat → Scope → Reads Expr
  | 0, _ => refuse
  | n + 1, scope => do readMoreSum n scope (← readProduct n scope)

/-- What is added to an expression. -/
def readMoreSum : Nat → Scope → Expr → Reads Expr
  | 0, _, _ => refuse
  | n + 1, scope, e => do
    match ← nextOperation [("+", .plus), ("-", .minus)] with
    | some operation => readMoreSum n scope (.binary operation e (← readProduct n scope))
    | none => return e

/-- Products. -/
def readProduct : Nat → Scope → Reads Expr
  | 0, _ => refuse
  | n + 1, scope => do readMoreProduct n scope (← readUnary n scope)

/-- What an expression is multiplied with. -/
def readMoreProduct : Nat → Scope → Expr → Reads Expr
  | 0, _, _ => refuse
  | n + 1, scope, e => do
    match ← nextOperation [("*", .times), ("/", .quotient), ("%", .remainder)] with
    | some operation => readMoreProduct n scope (.binary operation e (← readUnary n scope))
    | none => return e

/-- An expression with a sign in front. -/
def readUnary : Nat → Scope → Reads Expr
  | 0, _ => refuse
  | n + 1, scope => do
    if ← takeSign "!" then return .opposite (← readUnary n scope)
    else if ← takeSign "-" then return .negative (← readUnary n scope)
    else if ← takeSign "+" then return .positive (← readUnary n scope)
    else readPower n scope

/-- A power. -/
def readPower : Nat → Scope → Reads Expr
  | 0, _ => refuse
  | n + 1, scope => do
    let base ← readStep n
    if ← takeSign "^" then
      if ← takeSign "-" then return .binary .power base (.negative (← readPower n scope))
      else return .binary .power base (← readPower n scope)
    else return base

/-- An operand that is counted up or down behind it. -/
def readStep : Nat → Reads Expr
  | 0 => refuse
  | n + 1 => do
    let e ← readPrimary n
    if isPlace e then
      if ← takeSign "++" then return .step e true false
      else if ← takeSign "--" then return .step e false false
      else return e
    else return e

/-- Expressions between commas. -/
def readItems : Nat → Scope → Reads (List Expr)
  | 0, _ => refuse
  | n + 1, scope => do
    let e ← readExpr n scope
    if ← takeSign "," then
      skipLines
      return e :: (← readItems n scope)
    else return [e]

/-- Arguments between parentheses. -/
def readArguments : Nat → Reads (List Expr)
  | 0 => refuse
  | n + 1 => do
    expect "("
    skipLines
    if ← takeSign ")" then return []
    let items ← readItems n {}
    skipLines
    expect ")"
    return items

/-- An operand. -/
def readPrimary : Nat → Reads Expr
  | 0 => refuse
  | n + 1 => do
    match ← get with
    | .number x :: rest => set rest; return .number x
    | .text text :: rest => set rest; return .text text
    | .regex pattern :: rest => set rest; return .regex pattern
    | .call name :: rest =>
      set rest
      return .call name (← readArguments n)
    | .sign "$" :: rest =>
      set rest
      if ← takeSign "++" then return .field (.step (← readPrimary n) true true)
      else if ← takeSign "--" then return .field (.step (← readPrimary n) false true)
      else if ← takeSign "-" then return .field (.negative (← readPrimary n))
      else return .field (← readPrimary n)
    | .sign "++" :: rest => set rest; return .step (← readPrimary n) true true
    | .sign "--" :: rest => set rest; return .step (← readPrimary n) false true
    | .sign "(" :: rest =>
      set rest
      skipLines
      let items ← readItems n {}
      skipLines
      expect ")"
      match items with
      | [e] => return e
      | items => return .tuple items
    | .word word :: rest =>
      let name := String.ofList word
      if name = "getline" then
        set rest
        let target ← readTarget n
        if ← takeSign "<" then return .getline target (some (← readPrimary n)) none
        else return .getline target none none
      else if keywords.contains name then refuse
      else if functionNames.contains name then
        set rest
        if ← isSign "(" then return .call word (← readArguments n)
        else return .call word []
      else
        set rest
        if ← takeSign "[" then
          let index ← readItems n {}
          expect "]"
          return .element word index
        else return .named word
    | _ => refuse

end

/-- The end of a statement. -/
def takeEnd : Reads Unit := do
  match ← get with
  | .sign ";" :: rest | .line :: rest => set rest
  | .sign "\x7d" :: _ | [] => pure ()
  | _ => refuse

/-- Where a statement writes to. -/
def readOutlet (bound : Nat) : Reads Outlet := do
  let scope : Scope := { more := false }
  if ← takeSign ">" then return .file false (← readJoined bound scope)
  else if ← takeSign ">>" then return .file true (← readJoined bound scope)
  else if ← takeSign "|" then return .command (← readJoined bound scope)
  else return .output

/-- The expressions that a statement writes. -/
def readWritten (bound : Nat) : Reads (List Expr) := do
  match ← get with
  | [] | .line :: _ | .sign ";" :: _ | .sign "\x7d" :: _ | .sign ">" :: _ | .sign ">>" :: _
  | .sign "|" :: _ => return []
  | _ =>
    match ← readItems bound { more := false } with
    | [.tuple items] => return items
    | items => return items

/-- A statement without others in it. -/
def readSimple (bound : Nat) : Reads Stmt := do
  match ← get with
  | .word word :: rest =>
    match String.ofList word with
    | "print" =>
      set rest
      let arguments ← readWritten bound
      return .print arguments (← readOutlet bound)
    | "printf" =>
      set rest
      let arguments ← readWritten bound
      return .printf arguments (← readOutlet bound)
    | "next" | "nextfile" => set rest; return .next
    | "break" => set rest; return .leave
    | "continue" => set rest; return .goOn
    | "exit" =>
      set rest
      if ← atOperand then return .exit (some (← readExpr bound {})) else return .exit none
    | "return" =>
      set rest
      if ← atOperand then return .ret (some (← readExpr bound {})) else return .ret none
    | "delete" =>
      set rest
      let array ← takeName
      if ← takeSign "[" then
        let index ← readItems bound {}
        expect "]"
        return .delete array (some index)
      else return .delete array none
    | _ => return .evaluate (← readExpr bound {})
  | _ => return .evaluate (← readExpr bound {})

mutual

/-- A statement. -/
def readStatement : Nat → Reads Stmt
  | 0 => refuse
  | n + 1 => do
    if ← takeSign "\x7b" then return .block (← readStatements n)
    else if ← takeSign ";" then return .block []
    else if ← isWord "if" then
      skip
      let condition ← readCondition n
      let body ← readBody n
      let before ← get
      skipEnds
      if ← isWord "else" then
        skip
        return .conditional condition body (← readBody n)
      else
        set before
        return .conditional condition body (.block [])
    else if ← isWord "while" then
      skip
      let condition ← readCondition n
      if ← takeSign ";" then return .loop condition (.block [])
      else return .loop condition (← readBody n)
    else if ← isWord "do" then
      skip
      let body ← readBody n
      skipEnds
      unless ← isWord "while" do refuse
      skip
      let condition ← readCondition n
      takeEnd
      return .loopAfter body condition
    else if ← isWord "for" then
      skip
      readFor n
    else
      let simple ← readSimple n
      takeEnd
      return simple

/-- A condition between parentheses. -/
def readCondition : Nat → Reads Expr
  | 0 => refuse
  | n + 1 => do
    expect "("
    let condition ← readExpr n {}
    expect ")"
    return condition

/-- A statement that can begin on the next line. -/
def readBody : Nat → Reads Stmt
  | 0 => refuse
  | n + 1 => do
    skipLines
    readStatement n

/-- A loop behind its first word. -/
def readFor : Nat → Reads Stmt
  | 0 => refuse
  | n + 1 => do
    expect "("
    match ← get with
    | .word name :: .word isIn :: .word array :: .sign ")" :: rest =>
      if isIn = "in".toList then
        set rest
        return .each name array (← readBody n)
      else refuse
    | _ =>
      let first ← if ← isSign ";" then pure (Stmt.block []) else readSimple n
      expect ";"
      skipLines
      let condition ← if ← isSign ";" then pure none else some <$> readExpr n {}
      expect ";"
      skipLines
      let step ← if ← isSign ")" then pure (Stmt.block []) else readSimple n
      expect ")"
      if ← takeSign ";" then return .count first condition step (.block [])
      else return .count first condition step (← readBody n)

/-- Statements up to a closing brace. -/
def readStatements : Nat → Reads (List Stmt)
  | 0 => refuse
  | n + 1 => do
    skipEnds
    if ← takeSign "\x7d" then return []
    let statement ← readStatement n
    return statement :: (← readStatements n)

end

/-- Statements between braces. -/
def readBlock (bound : Nat) : Reads Stmt := do
  expect "\x7b"
  return .block (← readStatements bound)

/-- The statements of a rule; without any, the record is written. -/
def readAction (bound : Nat) : Reads Stmt := do
  if ← isSign "\x7b" then readBlock bound else return .print [] .output

/-- Rules and functions. -/
def readAll (bound : Nat) : Nat → Script → Reads Script
  | 0, script => return script
  | n + 1, script => do
    skipEnds
    let ruled (choice : Choice) (body : Stmt) : Script :=
      { script with rules := script.rules ++ [{ choice, body }] }
    match ← get with
    | [] => return script
    | .word word :: rest =>
      match String.ofList word with
      | "BEGIN" =>
        set rest
        readAll bound n (ruled .start (← readBlock bound))
      | "END" =>
        set rest
        readAll bound n (ruled .finish (← readBlock bound))
      | "function" | "func" =>
        set rest
        let name ← takeName
        let arguments ← readArguments bound
        let parameters := arguments.filterMap fun
          | .named name => some name
          | _ => none
        skipLines
        let body ← readBlock bound
        readAll bound n
          { script with functions := script.functions ++ [{ name, parameters, body }] }
      | _ => readRule bound n script
    | .sign "\x7b" :: _ => readAll bound n (ruled .all (← readAction bound))
    | _ => readRule bound n script
where
  /-- A rule with a condition, and what follows. -/
  readRule (bound n : Nat) (script : Script) : Reads Script := do
    let first ← readExpr bound {}
    let choice ← if ← takeSign "," then do
        skipLines
        pure (Choice.range first (← readExpr bound {}))
      else pure (Choice.one first)
    let body ← readAction bound
    readAll bound n { script with rules := script.rules ++ [{ choice, body }] }

end Reads

/-- The rules and functions of a script, or what is said about it. -/
def readScript (text : Octets) : Except Octets Script :=
  let text := if text.getLast? = some '\n' then text else text ++ ['\n']
  let lines := text.count '\n'
  let outcome : Except Misread Script := do
    let tokens ← Token.ofText text
    let bound := 40 * tokens.length + 100
    let (script, _) ← (Reads.readAll bound (tokens.length + 1) {}).run tokens
    match Token.undefined? tokens with
    | some name => throw { problem := .undefined name, linesLeft := 0 }
    | none => return script
  outcome.mapError fun misread => misread.problem.message (lines + 1 - misread.linesLeft)

end ExpectError.Shell.Awk
