import ExpectError.SourceFile
import ExpectError.Tree.Arena

/-!
# The parser as a machine

`Reader.run` says what readers do with states that hold whole trees, and what has been read in vain
is forgotten with the state. Here the same readers drive one parser that is changed step by step: its
nodes lie in an arena, tokens and errors are lists to which more are added, and what was read in vain
is dropped from the ends of these lists again. A snapshot remembers how long they were; it remembers
neither the mode nor the depths, so readers have to leave these as they found them.

The pieces of a construct are places in the arena, kept by the reader of the construct and not by the
parser.

* `Parser`, `Snapshot`: the state of the parser and what can be restored of it;
* `Reader.perform`: what a reader does with the parser;
* `Parsed`: what has been read in the end;
* `Parser.Reads`: reading a text comes to an end.

Repetitions and recursion are bounded by numbers of rounds and of levels. A text has been read if some
numbers are enough.
-/

namespace ExpectError.Grammar

/-- The state of the parser. -/
structure Parser where
  scanner : Scanner
  /-- The kind of the token at hand. -/
  token : TokenKind := .unknown
  /-- Where the last consumed token stops. -/
  lastStop : Nat := 0
  arena : Arena := []
  /-- The consumed tokens. -/
  tokens : List Token := []
  /-- The errors noted. -/
  errors : List SyntaxError := []
  mode : Mode
  /-- How many nested constructs have been entered. -/
  recursionDepth : Nat := 0
  /-- How many of the readers that are at work take back what they do, or may do so. -/
  speculationDepth : Nat := 0
  deriving Repr

/-- What is remembered of a parser to take back what will be read. -/
structure Snapshot where
  scanner : Scanner
  token : TokenKind
  lastStop : Nat
  /-- The number of nodes. -/
  nodes : Nat
  /-- The number of consumed tokens. -/
  tokens : Nat
  /-- The number of errors. -/
  errors : Nat
  deriving Repr

/-- What the reader of a construct keeps itself. -/
structure Frame where
  /-- Where the construct starts. -/
  start : Nat := 0
  /-- The places of its pieces. -/
  pieces : List Nat := []
  deriving DecidableEq, Repr

/-- The answer to a question, as the parser gives it. -/
def Question.answerOf {α : Type} : Question α → Parser → α
  | kind, p => p.token
  | onNewLine, p => p.scanner.lineBreakBefore
  | isAssert, p => decide (p.scanner.tokenText = "assert".toList)

namespace Parser

/-- The parser in front of the first token of a text. -/
def ofText (dialect : Dialect) (text : List Char) : Parser :=
  { scanner := Scanner.ofText text, mode := { markup := dialect = .markup } }

/-- Where the token at hand starts. -/
def position (p : Parser) : Nat :=
  p.scanner.start.pos

/-- Records the token at hand as consumed, unless it has no characters. -/
def recordToken (p : Parser) : Parser :=
  let start := p.scanner.start.pos
  let stop := p.scanner.stop.pos
  if start < stop then
    { p with tokens := p.tokens ++ [{ kind := p.token, start, stop }], lastStop := stop }
  else p

/-- Scans a token. -/
def scanBy (scan : Scanner → Scanner) (p : Parser) : Parser :=
  let scanner := scan p.scanner
  { p with scanner, token := scanner.kind }

/-- Consumes the token at hand and moves to the next one. -/
def advance (scan : Scan) (p : Parser) : Parser :=
  p.recordToken.scanBy scan.apply

/-- Reads the token at hand anew. -/
def rescan (scan : Rescan) (p : Parser) : Parser :=
  p.scanBy scan.apply

/-- Is the last error noted at the token at hand? -/
def errorNotedHere (p : Parser) : Bool :=
  p.errors.getLast?.any fun last => last.start = p.position

/-- Notes a problem with the token at hand, unless there is one already; where what is read may be
taken back, every problem is noted. -/
def report (problem : SyntaxProblem) (p : Parser) : Parser :=
  if p.speculationDepth = 0 && p.errorNotedHere then p
  else
    let start := p.position
    let length := p.scanner.stop.pos - start
    { p with errors := p.errors ++ [{ start := start, length, problem }] }

/-- Adds a node and says at which place it is. -/
def addNode (kind : NodeKind) (start stop : Nat) (children : List Nat) (p : Parser) : Nat × Parser :=
  let (place, arena) := p.arena.addNode kind start stop children
  (place, { p with arena })

/-- Makes a node of the pieces of a construct, up to the last consumed token. -/
def finishNode (kind : NodeKind) (frame : Frame) (p : Parser) : Nat × Parser :=
  p.addNode kind frame.start (max p.lastStop frame.start) frame.pieces

/-! ### Taking back -/

/-- Remembers the state of the parser, as far as it can be restored. -/
def save (p : Parser) : Snapshot where
  scanner := p.scanner
  token := p.token
  lastStop := p.lastStop
  nodes := p.arena.length
  tokens := p.tokens.length
  errors := p.errors.length

/-- Goes back to a snapshot. -/
def restore (snapshot : Snapshot) (p : Parser) : Parser :=
  { p with
    scanner := snapshot.scanner
    token := snapshot.token
    lastStop := snapshot.lastStop
    arena := p.arena.take snapshot.nodes
    tokens := p.tokens.take snapshot.tokens
    errors := p.errors.take snapshot.errors }

/-- One more reader that may take back what it does. -/
def enterSpeculation (p : Parser) : Parser :=
  { p with speculationDepth := p.speculationDepth + 1 }

/-- Such a reader has come to its end. -/
def exitSpeculation (p : Parser) : Parser :=
  { p with speculationDepth := p.speculationDepth - 1 }

/-- One more nested construct. -/
def enterRecursion (p : Parser) : Parser :=
  { p with recursionDepth := p.recursionDepth + 1 }

/-- A nested construct has come to its end. -/
def exitRecursion (p : Parser) : Parser :=
  { p with recursionDepth := p.recursionDepth - 1 }

end Parser

/-! ### Performing -/

/-- What is done by a reader: its answer, what it keeps itself, and the parser behind it. -/
abbrev Procedure (α : Type) := Frame → Parser → Option (α × Frame × Parser)

/-- Repeats a step at most `rounds` times. -/
def repeatStep {α : Type} (step : Procedure (Option α)) : Nat → Procedure α
  | 0 => fun _ _ => none
  | rounds + 1 => fun frame p =>
    match step frame p with
    | none => none
    | some (some a, frame, p) => some (a, frame, p)
    | some (none, frame, p) => repeatStep step rounds frame p

/-- What a reader does with the parser, given what to do for each recursive construct. A repetition
has two rounds more than the given number. -/
def Reader.perform (rules : Construct → Procedure Unit) (rounds : Nat) :
    {α : Type} → Reader α → Procedure α
  | _, pure a => fun frame p => some (a, frame, p)
  | _, bind r f => fun frame p =>
    match r.perform rules rounds frame p with
    | none => none
    | some (a, frame, p) => (f a).perform rules rounds frame p
  | _, ask question => fun frame p => some (question.answerOf p, frame, p)
  | _, mode => fun frame p => some (p.mode, frame, p)
  | _, advance scan => fun frame p => some ((), frame, p.advance scan)
  | _, rescan scan => fun frame p => some ((), frame, p.rescan scan)
  | _, report problem => fun frame p => some ((), frame, p.report problem)
  | _, leaf kind scan => fun frame p =>
    let (place, p) := p.addNode kind p.position p.scanner.stop.pos []
    some ((), { frame with pieces := frame.pieces ++ [place] }, p.advance scan)
  | _, emptyName => fun frame p =>
    let (place, p) := p.addNode (.token .identifier) p.position p.position []
    some ((), { frame with pieces := frame.pieces ++ [place] }, p)
  | _, wrap kind => fun frame p =>
    let (place, p) := p.finishNode kind frame
    some ((), { frame with pieces := [place] }, p)
  | _, hasPieces => fun frame p => some (!frame.pieces.isEmpty, frame, p)
  | _, dropPieces => fun frame p => some ((), { frame with pieces := [] }, p)
  | _, scope r => fun frame p =>
    match r.perform rules rounds { start := p.position } p with
    | none => none
    | some (a, inner, p) => some (a, { frame with pieces := frame.pieces ++ inner.pieces }, p)
  | _, moves r => fun frame p =>
    match r.perform rules rounds frame p with
    | none => none
    | some (_, frame, q) => some (decide (q.position ≠ p.position), frame, q)
  | _, withoutError r => fun frame p =>
    match r.perform rules rounds frame p with
    | none => none
    | some (_, frame, q) => some (decide (q.errors.length = p.errors.length), frame, q)
  | _, lookAhead r => fun frame p =>
    match r.perform rules rounds frame p.enterSpeculation with
    | none => none
    | some (a, _, q) => some (a, frame, q.exitSpeculation.restore p.save)
  | _, attempt r => fun frame p =>
    match r.perform rules rounds frame p.enterSpeculation with
    | none => none
    | some (yes, inner, q) =>
      if yes && q.errors.length = p.save.errors then some (true, inner, q.exitSpeculation)
      else some (false, frame, q.exitSpeculation.restore p.save)
  | _, within change r => fun frame p =>
    match r.perform rules rounds frame { p with mode := change p.mode } with
    | none => none
    | some (a, frame, q) => some (a, frame, { q with mode := p.mode })
  | _, nested beyond inner => fun frame p =>
    if maxDepth ≤ p.recursionDepth then beyond.perform rules rounds frame (p.report .nestingTooDeep)
    else
      match inner.perform rules rounds frame p.enterRecursion with
      | none => none
      | some (_, frame, q) => some ((), frame, q.exitRecursion)
  | _, loop step => repeatStep (step.perform rules rounds) (rounds + 2)
  | _, call construct => rules construct

/-- The second of two readers goes on where the first one ends. -/
theorem Reader.perform_bind {α β : Type} (rules : Construct → Procedure Unit) (rounds : Nat)
    (r : Reader α) (f : α → Reader β) (frame : Frame) (p : Parser) :
    (Reader.bind r f).perform rules rounds frame p =
      match r.perform rules rounds frame p with
      | none => none
      | some (a, frame, p) => (f a).perform rules rounds frame p := by
  rw [Reader.perform]

/-- What is done for constructs that hold one another at most `levels` deep. -/
def performWithin (rounds : Nat) : Nat → Construct → Procedure Unit
  | 0, _ => fun _ _ => none
  | levels + 1, construct => (produce construct).perform (performWithin rounds levels) rounds

/-! ### Whole texts -/

/-- A text that has been read: its nodes, the place of the outermost one, the consumed tokens and the
errors. -/
structure Parsed where
  text : List Char
  arena : Arena
  root : Nat
  tokens : List Token
  errors : List SyntaxError
  deriving Repr

/-- Reads a text, in no more than the given numbers of rounds and levels. -/
def parseWithin (rounds levels : Nat) (dialect : Dialect) (text : List Char) : Option Parsed := do
  let (_, frame, p) ←
    wholeText.perform (performWithin rounds levels) rounds {} (Parser.ofText dialect text)
  let (root, p) := p.addNode .sourceFile 0 (Text.byteLength text) frame.pieces
  let arena ← p.arena.linkParents? root
  return { text, arena, root, tokens := p.tokens, errors := p.errors }

/-- Reading the text comes to an end with what has been read. -/
def Parser.Reads (dialect : Dialect) (text : List Char) (parsed : Parsed) : Prop :=
  ∃ rounds levels, parseWithin rounds levels dialect text = some parsed

/-! ### Looking up tokens -/

/-- Halves the `size` places from `base` on until one is left: the last one whose value has some
property, or the first of them all. The values with that property are those in front. -/
def searchFrom (p : Nat → Bool) (base size : Nat) : Nat :=
  if size ≤ 1 then base
  else
    let half := size / 2
    searchFrom p (if p (base + half) then base + half else base) (size - half)
termination_by size

/-- The number of values in front that have some property, by halving. -/
def partitionPoint {α : Type} (p : α → Bool) (values : List α) : Nat :=
  let holds place := values[place]?.any p
  if values.isEmpty then 0
  else
    let base := searchFrom holds 0 values.length
    if holds base then base + 1 else base

namespace Parsed

/-- The first token that stops behind an offset. -/
def tokenAt? (parsed : Parsed) (offset : Nat) : Option Token :=
  parsed.tokens[partitionPoint (fun token => token.stop ≤ offset) parsed.tokens]?

/-- The last token that stops at an offset or in front of it. -/
def tokenBefore? (parsed : Parsed) (offset : Nat) : Option Token :=
  match partitionPoint (fun token => token.stop ≤ offset) parsed.tokens with
  | 0 => none
  | index + 1 => parsed.tokens[index]?

end Parsed

end ExpectError.Grammar
