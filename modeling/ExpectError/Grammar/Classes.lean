import ExpectError.Grammar.Patterns
import ExpectError.Grammar.Types

/-!
# Classes

Modifiers, the clauses behind the name of a class or an interface, and the members of a class.
-/

namespace ExpectError.Grammar

/-! ### Modifiers -/

/-- The words that can modify a declaration or a member. -/
def modifierWords : List TokenKind :=
  [.publicKeyword, .privateKeyword, .protectedKeyword, .staticKeyword, .readonlyKeyword,
   .abstractKeyword, .asyncKeyword, .declareKeyword, .overrideKeyword, .accessorKeyword,
   .exportKeyword, .defaultKeyword, .constKeyword]

/-- Is the word at hand followed on its line by `function`? -/
def nextIsFunctionOnLine : Reader Bool :=
  lookAhead (advanceOnLine <&&> isAt .functionKeyword)

/-- Moves over a modifier and says whether something follows that it can modify; if not, the word is
a name. -/
def skipModifier : Reader Bool := do
  match ← kind with
  | .constKeyword =>
    advance
    isAt .enumKeyword
  | .exportKeyword =>
    advance
    opposite (isAtAny [.equals, .asterisk, .openBrace, .asKeyword])
  | .defaultKeyword =>
    advance
    isAtAny [.classKeyword, .functionKeyword, .interfaceKeyword, .abstractKeyword, .at]
      <||> (isAt .asyncKeyword <&&> nextIsFunctionOnLine)
  | .staticKeyword | .asyncKeyword | .accessorKeyword =>
    advanceOnLine <&&> (atPropertyName <||> isAtAny [.asterisk, .at])
  | _ => advanceOnLine <&&> (atPropertyName <||> isAtAny [.asterisk, .dotDotDot])

/-- The modifiers in front of a declaration or a member. -/
def modifiers : Reader Unit :=
  repeatedly (isAtAny modifierWords <&&> lookAhead skipModifier) tokenNode

/-! ### Members -/

/-- Members that have been introduced by a name: a method, or a property with its type and value. -/
def namedMember : Reader Unit := do
  let isGenerator ← tokenNodeIf? (isAt .asterisk)
  propertyName
  accept .question
  if ← pure isGenerator <||> isAtAny [.openParen, .lessThan] then
    signature
    functionBlockOrSemicolon
    wrap .methodDeclaration
  else
    optionally onSameLine (accept .exclamation)
    optionally (accept? .colon) (call .type)
    defaultValue
    semicolon
    wrap .propertyDeclaration

/-- An accessor in a class, behind the modifiers that have been read. -/
def accessorDeclaration (whole : NodeKind) : Reader Unit := do
  tokenNode
  propertyName
  signature
  functionBlockOrSemicolon
  wrap whole

/-- A member of a class behind its decorators and modifiers. -/
def memberRest : Reader Unit := do
  if ← isAt .constructorKeyword <&&> nextIsAny [.openParen, .lessThan] then
    advance
    signature
    functionBlockOrSemicolon
    wrap .constructorDeclaration
  else if ← atIndexSignature then
    indexSignature
    semicolon
  else if ← isAt .getKeyword <&&> nextIsPropertyNameOnLine then accessorDeclaration .getAccessor
  else if ← isAt .setKeyword <&&> nextIsPropertyNameOnLine then accessorDeclaration .setAccessor
  else namedMember

/-- One member of a class. -/
def classMember : Reader Unit :=
  scope do
    if ← accept? .semicolon then wrap .semicolonClassElement
    else if ← isAt .staticKeyword <&&> nextIsAny [.openBrace] then
      advance
      functionBlock
      wrap .classStaticBlockDeclaration
    else
      decorators
      modifiers
      memberRest

/-! ### The whole class -/

/-- One of the types that a class or an interface extends or implements. -/
def heritageType : Reader Unit :=
  node .expressionWithTypeArguments do
    call .leftHandSide
    typeArgumentsHere

/-- What a class or an interface extends or implements. -/
def heritageClauses : Reader Unit :=
  repeatedly (isAtAny [.extendsKeyword, .implementsKeyword]) do
    node .heritageClause do
      advance
      commaSeparatedMany heritageType

/-- A class from the word `class` on, behind the modifiers that have been read. -/
def classRest (whole : NodeKind) : Reader Unit := do
  expect .classKeyword
  optionally (atIdentifier <&&> opposite (isAtAny [.implementsKeyword, .extendsKeyword])) identifier
  typeParametersHere
  heritageClauses
  optionally (expect? .openBrace) do
    allowAll (itemsUntil [.closeBrace, .endOfFile] .statementExpected classMember)
    expect .closeBrace
  wrap whole

end ExpectError.Grammar
