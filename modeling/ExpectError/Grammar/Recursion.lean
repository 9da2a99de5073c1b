import ExpectError.Grammar.Markup
import ExpectError.Grammar.Statements

/-!
# The grammar as a whole

`produce` gives each recursive construct its production, `rulesWithin` ties the knot for texts that
need no more than a given number of recursive steps, and `wholeText` reads a text from its first
token to its last.
-/

namespace ExpectError.Grammar

/-- The production of each recursive construct, in terms of the others. -/
def produce : Construct → Reader Unit
  | .statement => nested (node .emptyStatement (pure ())) anyStatement
  | .assignment => nested (missing .expressionExpected) assignmentExpression
  | .binary outer => binaryExpression outer
  | .unary => nested (missing .expressionExpected) unaryExpression
  | .leftHandSide => leftHandSide
  | .newExpression => newExpression
  | .type => nested (missing .typeExpected) anyType
  | .typeOperator => typeOperator
  | .bindingName => bindingName
  | .innerNamespace => innerNamespace
  | .markup amongChildren =>
    nested (missing .expressionExpected) (elementOrFragment amongChildren)

/-- The rules for texts in which constructs hold one another at most `n` deep. -/
def rulesWithin : Nat → Rules
  | 0, _ => fun _ _ => none
  | n + 1, construct => (produce construct).run (rulesWithin n)

/-- A depth that no text of a given size exceeds: between two tokens that are consumed one inside
the other there are fewer than eight recursive steps. -/
def depthBound (size : Nat) : Nat :=
  8 * size + 64

/-- The statements of a whole text. -/
def wholeText : Reader Unit := do
  advance
  itemsUntil [.endOfFile] .statementExpected (call .statement)

end ExpectError.Grammar
