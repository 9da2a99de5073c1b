import ExpectError.Token.Scanner
import ExpectError.Tree.Basic

/-!
# Reading by the grammar

The grammar is written in a small language of its own. A reader consumes tokens of a text and builds
pieces of the syntax tree; the pieces of a construct are kept, in the order of the text, until they
are wrapped up as a node. A reader never fails: where a token is missing it notes a syntax error and
goes on. All that a reader can do is

* look at the token at hand (`ask`) and at the surrounding constructs (`mode`);
* consume the token (`advance`, `leaf`) or have it read anew (`rescan`);
* note an error (`report`);
* look ahead (`lookAhead`) and try (`attempt`), which take back what they did;
* open a construct (`scope`) and wrap up its pieces (`wrap`);
* enter a nested construct (`nested`), repeat a step (`loop`) and read one of the constructs through
  which the grammar is recursive (`call`).

What these words do is said once, in `Reader.run`. A reader that goes on for ever has the answer
`none`.
-/

namespace ExpectError.Grammar

/-- Why a text is not well formed. -/
inductive SyntaxProblem where
  | expected (kind : TokenKind)
  | identifierExpected
  | expressionExpected
  | typeExpected
  | stringExpected
  | declarationExpected
  | statementExpected
  | memberExpected
  | clauseExpected
  | handlerExpected
  | lineBreakNotAllowed
  | nestingTooDeep
  | elementNotClosed
  | fragmentNotClosed
  | closingTagExpected
  deriving DecidableEq, Repr

/-- The spelling of a token that is missing, as far as a message shows it. -/
def spelling : TokenKind → String
  | .openBrace => "\x7b"
  | .closeBrace => "\x7d"
  | .openParen => "("
  | .closeParen => ")"
  | .openBracket => "["
  | .closeBracket => "]"
  | .dot => "."
  | .semicolon => ";"
  | .comma => ","
  | .lessThan => "<"
  | .lessThanSlash => "</"
  | .greaterThan => ">"
  | .equals => "="
  | .equalsGreaterThan => "=>"
  | .colon => ":"
  | .question => "?"
  | .slash => "/"
  | .whileKeyword => "while"
  | .fromKeyword => "from"
  | .asKeyword => "as"
  | .inKeyword => "in"
  | .identifier => "identifier"
  | _ => "token"

/-- The words of a problem. -/
def SyntaxProblem.message : SyntaxProblem → String
  | .expected kind => s!"'{spelling kind}' expected."
  | .identifierExpected => "Identifier expected."
  | .expressionExpected => "Expression expected."
  | .typeExpected => "Type expected."
  | .stringExpected => "String literal expected."
  | .declarationExpected => "Declaration expected."
  | .statementExpected => "Declaration or statement expected."
  | .memberExpected => "Property or signature expected."
  | .clauseExpected => "'case' or 'default' expected."
  | .handlerExpected => "'catch' or 'finally' expected."
  | .lineBreakNotAllowed => "Line break not permitted here."
  | .nestingTooDeep => "Maximum nesting depth exceeded."
  | .elementNotClosed => "JSX element has no corresponding closing tag."
  | .fragmentNotClosed => "JSX fragment has no corresponding closing tag."
  | .closingTagExpected => "Expected corresponding closing tag."

/-- A problem and the bytes of the token at which it was noticed. -/
structure SyntaxError where
  start : Nat
  length : Nat
  problem : SyntaxProblem
  deriving DecidableEq, Repr

/-- A consumed token. -/
structure Token where
  kind : TokenKind
  start : Nat
  stop : Nat
  deriving DecidableEq, Repr

/-! ### What a reader sees -/

/-- What the surrounding constructs leave to, or take from, the one that is being read. -/
structure Mode where
  /-- Does `<` begin markup where an expression is expected? -/
  markup : Bool
  /-- Is the operator `in` left to the surrounding construct? -/
  withoutIn : Bool := false
  /-- Is `extends` behind a type left to the surrounding construct? -/
  withoutConditional : Bool := false
  deriving DecidableEq, Repr

/-- What can be asked about the token at hand. -/
inductive Question : Type → Type where
  /-- Of what kind is it? -/
  | kind : Question TokenKind
  /-- Is it the first on its line? -/
  | onNewLine : Question Bool
  /-- Is it spelled `assert`? This is no keyword, but has a meaning in one place. -/
  | isAssert : Question Bool

/-- The answer to a question. -/
def Question.answer {α : Type} : Question α → Scanner → α
  | kind, s => s.kind
  | onNewLine, s => s.lineBreakBefore
  | isAssert, s => decide (s.tokenText = "assert".toList)

/-- How to move to the next token. -/
inductive Scan where
  | code
  /-- In a place for an attribute's value. -/
  | attributeValue
  /-- Between markup tags. -/
  | markup
  deriving DecidableEq, Repr

/-- The scanner behind the token at hand. -/
def Scan.apply : Scan → Scanner → Scanner
  | code => Scanner.next
  | attributeValue => Scanner.nextAttributeValue
  | markup => Scanner.nextMarkup

/-- How to read the token at hand anew. -/
inductive Rescan where
  | greater
  | slash
  | template
  | markupName
  deriving DecidableEq, Repr

/-- The scanner on the same token, read anew. -/
def Rescan.apply : Rescan → Scanner → Scanner
  | greater => Scanner.rescanGreater
  | slash => Scanner.rescanSlash
  | template => Scanner.rescanTemplate
  | markupName => Scanner.extendMarkupName

/-! ### The language of readers -/

/-- The constructs through which the grammar is recursive. -/
inductive Construct where
  | statement
  /-- An expression without the comma operator. -/
  | assignment
  /-- Operands joined by operators that bind tighter than a given one. -/
  | binary (precedence : Nat)
  | unary
  /-- Names, literals and brackets with what is accessed and called behind them. -/
  | leftHandSide
  | newExpression
  | type
  | typeOperator
  | bindingName
  /-- The part of a namespace's name behind a dot, with everything that follows. -/
  | innerNamespace
  /-- An element or fragment, possibly among the children of another one. -/
  | markup (amongChildren : Bool)
  deriving DecidableEq, Repr

/-- A reader of a part of the grammar. -/
inductive Reader : Type → Type 1 where
  | pure {α : Type} (a : α) : Reader α
  | bind {α β : Type} (r : Reader α) (f : α → Reader β) : Reader β
  /-- Looks at the token at hand. -/
  | ask {α : Type} (question : Question α) : Reader α
  /-- Looks at what surrounds the construct. -/
  | mode : Reader Mode
  /-- Consumes the token at hand. -/
  | advance (scan : Scan) : Reader Unit
  /-- Reads the token at hand anew. -/
  | rescan (scan : Rescan) : Reader Unit
  /-- Notes a problem with the token at hand. -/
  | report (problem : SyntaxProblem) : Reader Unit
  /-- Consumes the token at hand and makes it a leaf. -/
  | leaf (kind : NodeKind) (scan : Scan) : Reader Unit
  /-- Puts an empty name in the place of what is missing. -/
  | emptyName : Reader Unit
  /-- Makes a node of all pieces of the construct. -/
  | wrap (kind : NodeKind) : Reader Unit
  /-- Has the construct any pieces yet? -/
  | hasPieces : Reader Bool
  /-- Drops the pieces of the construct. -/
  | dropPieces : Reader Unit
  /-- Reads a construct of its own; what it leaves are pieces of the surrounding one. -/
  | scope {α : Type} (r : Reader α) : Reader α
  /-- Does a reader get to another token? -/
  | moves (r : Reader Unit) : Reader Bool
  /-- Does a reader get by without noting an error? -/
  | withoutError (r : Reader Unit) : Reader Bool
  /-- The answer of a reader, everything it did taken back. -/
  | lookAhead {α : Type} (r : Reader α) : Reader α
  /-- Keeps what a reader did if it says yes and noted no error, and takes it back if not. -/
  | attempt (r : Reader Bool) : Reader Bool
  /-- Reads under another mode. -/
  | within {α : Type} (change : Mode → Mode) (r : Reader α) : Reader α
  /-- Reads a nested construct; beyond the greatest depth, notes that and reads something else. -/
  | nested (beyond inner : Reader Unit) : Reader Unit
  /-- Repeats a step until it has a result. -/
  | loop {α : Type} (step : Reader (Option α)) : Reader α
  /-- Reads a construct of a given kind. -/
  | call (construct : Construct) : Reader Unit

instance : Monad Reader where
  pure := Reader.pure
  bind := Reader.bind

/-! ### What readers do -/

/-- What a run of a reader depends on besides the state. -/
structure Context where
  /-- The number of bytes of the text. -/
  size : Nat
  mode : Mode
  /-- How many nested constructs have been entered. -/
  depth : Nat := 0
  /-- May everything that is read now be taken back? -/
  speculative : Bool := false

/-- How far the text has been read. -/
structure State where
  scanner : Scanner
  /-- Where the last consumed token stops. -/
  lastStop : Nat := 0
  /-- The consumed tokens, the last one first. -/
  tokens : List Token := []
  /-- The errors noted, the last one first. -/
  errors : List SyntaxError := []
  /-- Where the construct that is being read starts. -/
  start : Nat := 0
  /-- The pieces of that construct, the last one first. -/
  pieces : List Tree := []

namespace State

/-- Where the token at hand starts. -/
def position (s : State) : Nat :=
  s.scanner.start.pos

/-- The state behind the token at hand, before the next one is scanned. A token without characters
is not recorded. -/
def consume (s : State) : State :=
  let start := s.scanner.start.pos
  let stop := s.scanner.stop.pos
  if start < stop then
    { s with
      tokens := { kind := s.scanner.kind, start, stop } :: s.tokens
      lastStop := stop }
  else s

/-- The state behind the token at hand. -/
def advance (scan : Scan) (s : State) : State :=
  { s.consume with scanner := scan.apply s.scanner }

/-- The state with the token at hand read anew. -/
def rescan (scan : Rescan) (s : State) : State :=
  { s with scanner := scan.apply s.scanner }

/-- The error that a problem with the token at hand makes. -/
def errorHere (s : State) (problem : SyntaxProblem) : SyntaxError :=
  { start := s.scanner.start.pos
    length := s.scanner.stop.pos - s.scanner.start.pos
    problem }

/-- Is the last error noted at the token at hand? -/
def errorNotedHere (s : State) : Bool :=
  match s.errors with
  | [] => false
  | last :: _ => decide (last.start = s.scanner.start.pos)

/-- Notes a problem with the token at hand. Of several problems with one token only the first is
noted, unless the reading may be taken back. -/
def report (speculative : Bool) (problem : SyntaxProblem) (s : State) : State :=
  if !speculative && s.errorNotedHere then s
  else { s with errors := s.errorHere problem :: s.errors }

/-- One more piece of the construct. -/
def addPiece (s : State) (piece : Tree) : State :=
  { s with pieces := piece :: s.pieces }

/-- The leaf that the token at hand makes. -/
def leafHere (s : State) (kind : NodeKind) : Tree :=
  .leaf kind s.scanner.start.pos s.scanner.stop.pos

/-- All pieces of the construct made one node, from the start of the construct to the last consumed
token. -/
def wrap (kind : NodeKind) (s : State) : State :=
  { s with pieces := [.node kind s.start (max s.lastStop s.start) s.pieces.reverse] }

/-- The state in which a construct of its own is read. -/
def openScope (s : State) : State :=
  { s with start := s.position, pieces := [] }

/-- Back in the surrounding construct, of which `outer` is the state when the inner one was
opened. -/
def closeScope (s outer : State) : State :=
  { s with start := outer.start, pieces := s.pieces ++ outer.pieces }

end State

/-- What a reader does in a context. -/
abbrev Action (α : Type) := Context → State → Option (α × State)

/-- A reader for each recursive construct. -/
abbrev Rules := Construct → Action Unit

/-- Nesting is refused beyond this depth. -/
def maxDepth : Nat := 256

/-- Repeats a step at most `n` times. -/
def iterate {α : Type} (step : Action (Option α)) : Nat → Action α
  | 0 => fun _ _ => none
  | n + 1 => fun context s =>
    match step context s with
    | none => none
    | some (some a, t) => some (a, t)
    | some (none, t) => iterate step n context t

/-- What a reader does, given what to do for each recursive construct. Every step of a repetition but
the last consumes a token, so no repetition has more steps than the text has bytes. -/
def Reader.run (rules : Rules) : {α : Type} → Reader α → Action α
  | _, pure a => fun _ s => some (a, s)
  | _, bind r f => fun context s =>
    match r.run rules context s with
    | none => none
    | some (a, t) => (f a).run rules context t
  | _, ask question => fun _ s => some (question.answer s.scanner, s)
  | _, mode => fun context s => some (context.mode, s)
  | _, advance scan => fun _ s => some ((), s.advance scan)
  | _, rescan scan => fun _ s => some ((), s.rescan scan)
  | _, report problem => fun context s => some ((), s.report context.speculative problem)
  | _, leaf kind scan => fun _ s => some ((), (s.addPiece (s.leafHere kind)).advance scan)
  | _, emptyName => fun _ s =>
    some ((), s.addPiece (.leaf (.token .identifier) s.position s.position))
  | _, wrap kind => fun _ s => some ((), s.wrap kind)
  | _, hasPieces => fun _ s => some (!s.pieces.isEmpty, s)
  | _, dropPieces => fun _ s => some ((), { s with pieces := [] })
  | _, scope r => fun context s =>
    match r.run rules context s.openScope with
    | none => none
    | some (a, t) => some (a, t.closeScope s)
  | _, moves r => fun context s =>
    match r.run rules context s with
    | none => none
    | some (_, t) => some (decide (t.position ≠ s.position), t)
  | _, withoutError r => fun context s =>
    match r.run rules context s with
    | none => none
    | some (_, t) => some (decide (t.errors.length = s.errors.length), t)
  | _, lookAhead r => fun context s =>
    match r.run rules { context with speculative := true } s with
    | none => none
    | some (a, _) => some (a, s)
  | _, attempt r => fun context s =>
    match r.run rules { context with speculative := true } s with
    | none => none
    | some (yes, t) =>
      if yes && t.errors.length = s.errors.length then some (true, t) else some (false, s)
  | _, within change r => fun context s =>
    r.run rules { context with mode := change context.mode } s
  | _, nested beyond inner => fun context s =>
    if maxDepth ≤ context.depth then
      beyond.run rules context (s.report context.speculative .nestingTooDeep)
    else inner.run rules { context with depth := context.depth + 1 } s
  | _, loop step => fun context s => iterate (step.run rules) (context.size + 2) context s
  | _, call construct => rules construct

/-- The second of two readers goes on where the first one ends. -/
theorem Reader.run_bind {α β : Type} (rules : Rules) (r : Reader α) (f : α → Reader β)
    (context : Context) (s : State) :
    (Reader.bind r f).run rules context s =
      match r.run rules context s with
      | none => none
      | some (a, t) => (f a).run rules context t := by
  rw [Reader.run]

/-! ### The token at hand -/

/-- The kind of the token at hand. -/
def kind : Reader TokenKind :=
  .ask .kind

/-- Is the token at hand of a given kind? -/
def isAt (k : TokenKind) : Reader Bool :=
  return decide ((← kind) = k)

/-- Is the kind of the token at hand in a list? -/
def isAtAny (ks : List TokenKind) : Reader Bool :=
  return ks.contains (← kind)

/-- Is the token at hand the first on its line? -/
def onNewLine : Reader Bool :=
  .ask .onNewLine

/-- Is the token at hand on the line of the one before it? -/
def onSameLine : Reader Bool :=
  return !(← onNewLine)

/-- Is the token at hand spelled `assert`? -/
def isAssert : Reader Bool :=
  .ask .isAssert

/-- Can the token at hand be an identifier? -/
def atIdentifier : Reader Bool :=
  return (← kind).isIdentifierLike

/-- Is the token at hand an identifier or any keyword? -/
def atWord : Reader Bool := do
  let k ← kind
  return k = .identifier || k.isKeywordToken

/-- Can a statement end in front of the token at hand? -/
def atStatementEnd : Reader Bool :=
  isAtAny [.semicolon, .closeBrace, .endOfFile] <||> onNewLine

/-- The opposite answer. -/
def opposite (question : Reader Bool) : Reader Bool :=
  return !(← question)

/-! ### Consuming tokens -/

/-- Consumes the token at hand. -/
def advance : Reader Unit :=
  .advance .code

/-- Notes a problem with the token at hand. -/
def report (problem : SyntaxProblem) : Reader Unit :=
  .report problem

/-- Reads something if a question is answered with yes. -/
def optionally (question : Reader Bool) (r : Reader Unit) : Reader Unit := do
  if ← question then r

/-- Consumes a token of a given kind, if it is at hand, and says whether it was. -/
def accept? (k : TokenKind) : Reader Bool := do
  if ← isAt k then
    advance
    return true
  else return false

/-- Consumes a token of a given kind, if it is at hand. -/
def accept (k : TokenKind) : Reader Unit :=
  optionally (isAt k) advance

/-- Consumes a token of a given kind, or notes that it is missing, and says whether it was there. -/
def expect? (k : TokenKind) : Reader Bool := do
  if ← accept? k then return true
  else
    report (.expected k)
    return false

/-- Consumes a token of a given kind, or notes that it is missing. -/
def expect (k : TokenKind) : Reader Unit := do
  if ← isAt k then advance
  else report (.expected k)

/-- Consumes a token of one of several kinds, if it is at hand. -/
def acceptAny (ks : List TokenKind) : Reader Unit :=
  optionally (isAtAny ks) advance

/-- The end of a statement: a semicolon, or a place where none is needed. -/
def semicolon : Reader Unit := do
  if ← isAt .semicolon then advance
  else if ← atStatementEnd then return
  else report (.expected .semicolon)

/-- Consumes the token at hand and says whether the next one is on the same line. -/
def advanceOnLine : Reader Bool := do
  advance
  onSameLine

/-- The answer of a reader, everything it did taken back. -/
def lookAhead {α : Type} (r : Reader α) : Reader α :=
  .lookAhead r

/-- Keeps what a reader did if it says yes and noted no error, and takes it back if not. -/
def attempt (r : Reader Bool) : Reader Bool :=
  .attempt r

/-- Is the token behind the one at hand of one of several kinds? -/
def nextIsAny (ks : List TokenKind) : Reader Bool :=
  lookAhead do
    advance
    isAtAny ks

/-! ### Building nodes -/

/-- Reads a construct of its own. -/
def scope {α : Type} (r : Reader α) : Reader α :=
  .scope r

/-- Makes a node of all pieces of the construct. -/
def wrap (k : NodeKind) : Reader Unit :=
  .wrap k

/-- A construct that is one node. -/
def node (k : NodeKind) (r : Reader Unit) : Reader Unit :=
  scope do
    r
    wrap k

/-- Consumes the token at hand and makes it a leaf of a given kind. -/
def tokenNodeAs (k : NodeKind) : Reader Unit :=
  .leaf k .code

/-- Consumes the token at hand and makes it a leaf. -/
def tokenNode : Reader Unit := do
  tokenNodeAs (.token (← kind))

/-- Consumes the token at hand and makes it a leaf if a question is answered with yes, and says
whether it was. -/
def tokenNodeIf? (question : Reader Bool) : Reader Bool := do
  if ← question then
    tokenNode
    return true
  else return false

/-- Notes a problem and puts an empty name in the place of what is missing. -/
def missing (problem : SyntaxProblem) : Reader Unit := do
  report problem
  .emptyName

/-- A name that is bound or used here; keywords with a meaning in some places only are names. -/
def identifier : Reader Unit := do
  if ← atIdentifier then tokenNodeAs (.token .identifier)
  else missing .identifierExpected

/-- The name of a property; every keyword is one. -/
def identifierName : Reader Unit := do
  if ← atWord then tokenNodeAs (.token .identifier)
  else if ← isAt .privateIdentifier then tokenNode
  else missing .identifierExpected

/-- The string that names a module. -/
def moduleString : Reader Unit := do
  if ← isAt .stringLiteral then tokenNode
  else report .stringExpected

/-! ### Nesting and repetition -/

/-- Reads a construct of a given kind. -/
def call (construct : Construct) : Reader Unit :=
  .call construct

/-- Reads a nested construct; beyond the greatest depth, notes that and reads something else. -/
def nested (beyond inner : Reader Unit) : Reader Unit :=
  .nested beyond inner

/-- What surrounds the construct. -/
def mode : Reader Mode :=
  .mode

/-- Does `<` begin markup where an expression is expected? -/
def markupAllowed : Reader Bool :=
  return (← mode).markup

/-- Is the operator `in` left to the surrounding construct? -/
def inForbidden : Reader Bool :=
  return (← mode).withoutIn

/-- Is `extends` behind a type left to the surrounding construct? -/
def conditionalForbidden : Reader Bool :=
  return (← mode).withoutConditional

/-- Leaves the operator `in` to the surrounding construct. -/
def forbidIn (r : Reader Unit) : Reader Unit :=
  .within (fun mode => { mode with withoutIn := true }) r

/-- Reads `in` as an operator. -/
def allowIn (r : Reader Unit) : Reader Unit :=
  .within (fun mode => { mode with withoutIn := false }) r

/-- Leaves `extends` behind a type to the surrounding construct. -/
def forbidConditional (r : Reader Unit) : Reader Unit :=
  .within (fun mode => { mode with withoutConditional := true }) r

/-- Reads `extends` behind a type as part of a conditional type. -/
def allowConditional (r : Reader Unit) : Reader Unit :=
  .within (fun mode => { mode with withoutConditional := false }) r

/-- Reads the inside of a function, a class or a parameter list, where nothing is left to the
surrounding construct. -/
def allowAll (r : Reader Unit) : Reader Unit :=
  allowIn (allowConditional r)

/-- Repeats a step as long as it says yes. -/
def repeatWhile (step : Reader Bool) : Reader Unit :=
  .loop do
    if ← step then return none
    else return some ()

/-- Reads an item each time a question is answered with yes. -/
def repeatedly (question : Reader Bool) (item : Reader Unit) : Reader Unit :=
  repeatWhile do
    if ← question then
      item
      return true
    else return false

/-- Reads items up to a closing token, with commas between them. -/
def commaSeparated (close : TokenKind) (item : Reader Unit) : Reader Unit :=
  repeatWhile do
    if ← isAtAny [close, .endOfFile] then return false
    else
      item
      accept? .comma

/-- Reads items up to a closing token, with commas between them, in front of them and behind
them. -/
def commaSeparatedWithHoles (close : TokenKind) (item : Reader Unit) : Reader Unit :=
  repeatWhile do
    if ← isAtAny [close, .endOfFile] then return false
    else if ← accept? .comma then return true
    else
      item
      accept? .comma

/-- Reads at least one item, with commas between them. -/
def commaSeparatedMany (item : Reader Unit) : Reader Unit :=
  repeatWhile do
    item
    accept? .comma

/-- Reads an item; one that gets to no other token is dropped. Says whether the item was kept. -/
def keptItem (item : Reader Unit) : Reader Bool :=
  scope do
    if ← .moves item then return true
    else
      .dropPieces
      return false

/-- Reads items up to a closing token. Where an item takes no characters, a problem is noted and the
token at hand is skipped. -/
def itemsUntil (stops : List TokenKind) (problem : SyntaxProblem) (item : Reader Unit) :
    Reader Unit :=
  repeatWhile do
    if ← isAtAny stops then return false
    else if ← keptItem item then return true
    else
      report problem
      advance
      return true

end ExpectError.Grammar
