import ExpectError.Grammar.Basic

/-!
# Pieces of the grammar that many constructs share

Expressions and types in brackets, blocks, templates, property names and decorators.
-/

namespace ExpectError.Grammar

/-- An expression, with the comma operator. -/
def expression : Reader Unit :=
  scope do
    call .assignment
    repeatedly (accept? .comma) do
      call .assignment
      wrap .binaryExpression

/-- An expression in which `in` is an operator. -/
def wholeExpression : Reader Unit :=
  allowIn expression

/-- An expression without the comma operator, in which `in` is an operator. -/
def wholeAssignment : Reader Unit :=
  allowIn (call .assignment)

/-- A type that may be conditional. -/
def wholeType : Reader Unit :=
  allowConditional (call .type)

/-- Statements up to a closing brace. -/
def statements : Reader Unit :=
  itemsUntil [.closeBrace, .endOfFile] .statementExpected (call .statement)

/-- Statements between braces. -/
def block : Reader Unit :=
  node .block do
    optionally (expect? .openBrace) do
      statements
      expect .closeBrace

/-- The body of a function. -/
def functionBlock : Reader Unit :=
  allowAll block

/-- The body of a function, or the semicolon in its place. -/
def functionBlockOrSemicolon : Reader Unit := do
  if ← isAt .openBrace then functionBlock
  else semicolon

/-- A substitution in a template literal and the stretch of characters behind it. Says whether there
is another substitution. -/
def templateSpan (part : Reader Unit) (span : NodeKind) : Reader Bool :=
  scope do
    part
    if ← isAt .closeBrace then
      .rescan .template
      let literal ← kind
      tokenNode
      wrap span
      return decide (literal = .templateMiddle)
    else
      report (.expected .closeBrace)
      wrap span
      return false

/-- The parts of a template literal: its head, and behind each substitution the next stretch of
characters. -/
def template (part : Reader Unit) (span whole : NodeKind) : Reader Unit :=
  node whole do
    tokenNode
    repeatWhile (templateSpan part span)

/-- A template literal in an expression. -/
def templateLiteral : Reader Unit := do
  if ← isAt .noSubstitutionTemplateLiteral then tokenNode
  else template wholeExpression .templateSpan .templateExpression

/-- Can the token at hand begin the name of a property? -/
def atPropertyName : Reader Bool :=
  isAtAny [.stringLiteral, .numericLiteral, .bigIntLiteral, .privateIdentifier, .openBracket]
    <||> atWord

/-- The name of a property that is computed, in brackets. -/
def computedPropertyName : Reader Unit :=
  node .computedPropertyName do
    advance
    wholeAssignment
    expect .closeBracket

/-- The name of a property: a word, a literal, or an expression in brackets. -/
def propertyName : Reader Unit := do
  match ← kind with
  | .stringLiteral | .numericLiteral | .bigIntLiteral | .privateIdentifier
  | .noSubstitutionTemplateLiteral => tokenNode
  | .openBracket => computedPropertyName
  | _ => identifierName

/-- Is the next token, on the same line, one that can follow `get`, `set` or `async`? -/
def nextIsPropertyNameOnLine : Reader Bool :=
  lookAhead (advanceOnLine <&&> (atPropertyName <||> isAt .asterisk))

/-- The decorators in front of a class, a member or a parameter. -/
def decorators : Reader Unit :=
  repeatedly (isAt .at) do
    node .decorator do
      advance
      call .leftHandSide

/-- Dotted names; every part may be a keyword. -/
def entityName : Reader Unit :=
  scope do
    identifierName
    repeatedly (accept? .dot) do
      identifierName
      wrap .qualifiedName

end ExpectError.Grammar
