import ExpectError.Grammar.Classes

/-!
# Expressions

From the loosest form to the tightest: assignments, arrow functions and conditionals, operators by
precedence, operators in front of and behind an operand, accesses and calls, and the expressions
that stand by themselves.
-/

namespace ExpectError.Grammar

/-! ### Classes of tokens -/

/-- How tightly a binary operator binds; other tokens have precedence `0`. -/
def precedence : TokenKind → Nat
  | .questionQuestion => 4
  | .barBar => 5
  | .ampersandAmpersand => 6
  | .bar => 7
  | .caret => 8
  | .ampersand => 9
  | .equalsEquals | .exclamationEquals | .equalsEqualsEquals | .exclamationEqualsEquals => 10
  | .lessThan | .greaterThan | .lessThanEquals | .greaterThanEquals | .instanceOfKeyword
  | .inKeyword | .asKeyword | .satisfiesKeyword => 11
  | .lessThanLessThan | .greaterThanGreaterThan | .greaterThanGreaterThanGreaterThan => 12
  | .plus | .minus => 13
  | .asterisk | .slash | .percent => 14
  | .asteriskAsterisk => 15
  | _ => 0

/-- The tokens, other than names, that can begin an expression. -/
def expressionStarts : List TokenKind :=
  [.thisKeyword, .superKeyword, .nullKeyword, .trueKeyword, .falseKeyword, .numericLiteral,
   .bigIntLiteral, .stringLiteral, .noSubstitutionTemplateLiteral, .templateHead, .openParen,
   .openBracket, .openBrace, .functionKeyword, .classKeyword, .newKeyword, .slash, .slashEquals,
   .plus, .minus, .tilde, .exclamation, .deleteKeyword, .typeOfKeyword, .voidKeyword, .plusPlus,
   .minusMinus, .lessThan, .importKeyword, .privateIdentifier, .at]

/-- Can the token at hand begin an expression? -/
def atExpression : Reader Bool :=
  isAtAny expressionStarts <||> atIdentifier

/-! ### Arguments -/

/-- An expression, or several taken from a sequence. -/
def spreadOrAssignment : Reader Unit := do
  if ← isAt .dotDotDot then
    node .spreadElement do
      advance
      wholeAssignment
  else wholeAssignment

/-- Arguments between parentheses. -/
def argumentList : Reader Unit := do
  expect .openParen
  commaSeparated .closeParen spreadOrAssignment
  expect .closeParen

/-- Does what follows confirm that `<`...`>` are type arguments? -/
def confirmsTypeArguments : Reader Bool := do
  match ← kind with
  | .openParen | .noSubstitutionTemplateLiteral | .templateHead => return true
  | .lessThan | .greaterThan | .plus | .minus => return false
  | next => onNewLine <||> pure (0 < precedence next) <||> opposite atExpression

/-- Type arguments behind an expression, if there are any. They are comparisons unless what follows
`>` confirms them. -/
def typeArgumentsInExpression : Reader Bool :=
  attempt do
    if ← accept? .lessThan then
      commaSeparatedMany (call .type)
      accept? .greaterThan <&&> confirmsTypeArguments
    else return false

/-! ### Accesses and calls -/

/-- An index in brackets behind an expression. -/
def elementAccess : Reader Unit := do
  advance
  wholeExpression
  expect .closeBracket
  wrap .elementAccessExpression

/-- The arguments of a call, behind the expression and its type arguments. -/
def callRest : Reader Unit := do
  argumentList
  wrap .callExpression

/-- A name behind an expression. -/
def propertyAccess : Reader Unit := do
  identifierName
  wrap .propertyAccessExpression

/-- A template literal behind an expression. -/
def taggedTemplate : Reader Unit := do
  templateLiteral
  wrap .taggedTemplateExpression

/-- What stands behind `?.`. -/
def optionalAccess : Reader Unit := do
  match ← kind with
  | .openBracket => elementAccess
  | .openParen => callRest
  | .lessThan =>
    discard typeArgumentsInExpression
    callRest
  | _ => propertyAccess

/-- What stands behind the type arguments of an expression. -/
def instantiated : Reader Unit := do
  match ← kind with
  | .openParen => callRest
  | .noSubstitutionTemplateLiteral | .templateHead => taggedTemplate
  | _ => wrap .expressionWithTypeArguments

/-- One access behind an expression, or a call if calls are allowed. Says whether there was one. -/
def access (withCalls : Bool) : Reader Bool := do
  match ← kind with
  | .dot =>
    advance
    propertyAccess
    return true
  | .questionDot =>
    advance
    optionalAccess
    return true
  | .exclamation =>
    if ← onNewLine then return false
    else
      advance
      wrap .nonNullExpression
      return true
  | .openBracket =>
    elementAccess
    return true
  | .noSubstitutionTemplateLiteral | .templateHead =>
    taggedTemplate
    return true
  | .openParen =>
    if withCalls then
      callRest
      return true
    else return false
  | .lessThan =>
    if ← pure withCalls <&&> typeArgumentsInExpression then
      instantiated
      return true
    else return false
  | _ => return false

/-- All accesses behind an expression, and the calls too if they are allowed. -/
def accesses (withCalls : Bool) : Reader Unit :=
  repeatWhile (access withCalls)

/-! ### Expressions that stand by themselves -/

/-- An expression in parentheses. -/
def parenthesizedExpression : Reader Unit :=
  node .parenthesizedExpression do
    advance
    wholeExpression
    expect .closeParen

/-- An array; commas that follow one another leave elements out. -/
def arrayLiteral : Reader Unit :=
  node .arrayLiteralExpression do
    advance
    commaSeparatedWithHoles .closeBracket spreadOrAssignment
    expect .closeBracket

/-- A member of an object with the body of a function, behind its name. -/
def objectFunction (whole : NodeKind) : Reader Unit := do
  signature
  functionBlock
  wrap whole

/-- A property of an object, behind its name. -/
def objectProperty : Reader Unit := do
  acceptAny [.question, .exclamation]
  if ← accept? .colon then
    wholeAssignment
    wrap .propertyAssignment
  else
    optionally (accept? .equals) wholeAssignment
    wrap .shorthandPropertyAssignment

/-- One member of an object. -/
def objectMember : Reader Unit :=
  scope do
    if ← accept? .dotDotDot then
      wholeAssignment
      wrap .spreadAssignment
    else
      let word ← kind
      let hasWord ← tokenNodeIf?
        (isAtAny [.asyncKeyword, .getKeyword, .setKeyword] <&&> nextIsPropertyNameOnLine)
      let isGenerator ← tokenNodeIf? (isAt .asterisk)
      propertyName
      if hasWord && word == .getKeyword then objectFunction .getAccessor
      else if hasWord && word == .setKeyword then objectFunction .setAccessor
      else if ← pure (hasWord || isGenerator) <||> isAtAny [.openParen, .lessThan] then
        objectFunction .methodDeclaration
      else objectProperty

/-- An object. -/
def objectLiteral : Reader Unit :=
  node .objectLiteralExpression do
    advance
    commaSeparated .closeBrace objectMember
    expect .closeBrace

/-- A function as an expression. -/
def functionExpression : Reader Unit :=
  node .functionExpression do
    optionally (isAt .asyncKeyword) tokenNode
    expect .functionKeyword
    optionally (isAt .asterisk) tokenNode
    optionally atIdentifier identifier
    signature
    functionBlock

/-- A class as an expression. -/
def classExpression : Reader Unit :=
  scope do
    decorators
    classRest .classExpression

/-- The tokens that are expressions by themselves. -/
def literalTokens : List TokenKind :=
  [.numericLiteral, .bigIntLiteral, .stringLiteral, .noSubstitutionTemplateLiteral, .thisKeyword,
   .superKeyword, .nullKeyword, .trueKeyword, .falseKeyword, .privateIdentifier]

/-- A name, or an expression that a mark or a keyword introduces. -/
def introducedExpression : Reader Unit := do
  match ← kind with
  | .templateHead => templateLiteral
  | .openParen => parenthesizedExpression
  | .openBracket => arrayLiteral
  | .openBrace => objectLiteral
  | .functionKeyword => functionExpression
  | .classKeyword | .at => classExpression
  | .newKeyword => call .newExpression
  | .slash | .slashEquals =>
    .rescan .slash
    tokenNode
  | _ =>
    if ← atIdentifier then identifier
    else missing .expressionExpected

/-- An expression that stands by itself. -/
def primaryExpression : Reader Unit := do
  if ← isAtAny literalTokens then tokenNode
  else if ← isAt .asyncKeyword <&&> nextIsFunctionOnLine then functionExpression
  else if ← isAt .lessThan <&&> markupAllowed then call (.markup false)
  else introducedExpression

/-- The expression behind `new`, without what is accessed in it. -/
def newOperand : Reader Unit := do
  if ← isAt .newKeyword then call .newExpression else primaryExpression

/-- What is created by `new`. -/
def newCallee : Reader Unit :=
  scope do
    newOperand
    accesses false

/-- The creation of an object, or `new.target`. -/
def newExpression : Reader Unit :=
  scope do
    advance
    if ← accept? .dot then
      identifierName
      wrap .metaProperty
    else
      newCallee
      optionally (isAt .lessThan) (discard typeArgumentsInExpression)
      optionally (isAt .openParen) argumentList
      wrap .newExpression

/-- The expression that accesses and calls start from. -/
def accessedExpression : Reader Unit := do
  if ← isAtAny [.importKeyword, .superKeyword] then tokenNode else primaryExpression

/-- An expression with everything that is accessed and called behind it. -/
def leftHandSide : Reader Unit :=
  scope do
    accessedExpression
    accesses true

/-! ### Operators -/

/-- An operator and the operand behind it. -/
def operatorAndOperand (whole : NodeKind) : Reader Unit :=
  node whole do
    advance
    call .unary

/-- An operand with a type asserted in front of it. -/
def typeAssertion : Reader Unit :=
  node .typeAssertion do
    advance
    call .type
    expect .greaterThan
    call .unary

/-- An operand with the operators behind it. -/
def postfixExpression : Reader Unit :=
  scope do
    call .leftHandSide
    optionally (isAtAny [.plusPlus, .minusMinus] <&&> onSameLine) do
      advance
      wrap .postfixUnaryExpression

/-- An operand without an operator in front of it. -/
def assertedOrPostfix : Reader Unit := do
  if ← isAt .lessThan <&&> opposite markupAllowed then typeAssertion
  else postfixExpression

/-- An operand with the operators in front of it and behind it. The word `await` is an operator only
if an expression follows on the same line. -/
def unaryExpression : Reader Unit := do
  match ← kind with
  | .plus | .minus | .tilde | .exclamation | .plusPlus | .minusMinus =>
    operatorAndOperand .prefixUnaryExpression
  | .deleteKeyword => operatorAndOperand .deleteExpression
  | .typeOfKeyword => operatorAndOperand .typeOfExpression
  | .voidKeyword => operatorAndOperand .voidExpression
  | .awaitKeyword =>
    if ← lookAhead (advanceOnLine <&&> atExpression) then operatorAndOperand .awaitExpression
    else assertedOrPostfix
  | _ => assertedOrPostfix

/-- Does an operator bind tighter than what surrounds it? Powers associate to the right. -/
def bindsTighter (operator : TokenKind) (outer : Nat) : Bool :=
  if operator == .asteriskAsterisk then outer ≤ precedence operator
  else outer < precedence operator

/-- The type behind `as` or `satisfies`. -/
def assertedType (operator : TokenKind) : Reader Unit := do
  if ← pure (operator == .asKeyword) <&&> isAt .constKeyword then tokenNode else call .type

/-- Makes a node of an operand and the type behind `as` or `satisfies`. -/
def wrapTypeCheck (operator : TokenKind) : Reader Unit :=
  if operator == .asKeyword then wrap .asExpression else wrap .satisfiesExpression

/-- The type behind `as` or `satisfies`, if the word is on the line of its operand. Says whether it
was. -/
def typeCheckRest (operator : TokenKind) : Reader Bool := do
  if ← onNewLine then return false
  else
    advance
    assertedType operator
    wrapTypeCheck operator
    return true

/-- An operator that binds tighter than a given precedence, and its second operand. Says whether
there was one. -/
def operatorRest (outer : Nat) : Reader Bool := do
  .rescan .greater
  let operator ← kind
  if precedence operator = 0 || !bindsTighter operator outer then return false
  else if ← pure (operator == .inKeyword) <&&> inForbidden then return false
  else if operator == .asKeyword || operator == .satisfiesKeyword then typeCheckRest operator
  else
    advance
    call (.binary (precedence operator))
    wrap .binaryExpression
    return true

/-- Operands joined by operators that bind tighter than a given precedence. -/
def binaryExpression (outer : Nat) : Reader Unit :=
  scope do
    call .unary
    repeatWhile (operatorRest outer)

/-! ### Arrow functions -/

/-- A parameter that is just a name. -/
def plainParameter : Reader Unit :=
  node .parameter identifier

/-- Where markup is allowed: do a name and a comma or a constraint follow `<`? Otherwise `<` begins
markup. -/
def opensGenericArrow : Reader Bool := do
  advance
  if ← atIdentifier then
    advance
    if ← isAt .comma then return true
    else accept? .extendsKeyword <&&> opposite (isAtAny [.equals, .greaterThan, .slash])
  else return false

/-- Is `=>` at hand on the same line? -/
def atArrow : Reader Bool :=
  isAt .equalsGreaterThan <&&> onSameLine

/-- The parameters of an arrow function, if there are any. -/
def arrowParameters (isAsync : Bool) : Reader Bool := do
  if ← pure isAsync <&&> atIdentifier then
    plainParameter
    return true
  else
    typeParametersHere
    if ← isAt .openParen then
      parameterList
      optionally (accept? .colon) resultType
      return true
    else return false

/-- An arrow function up to its arrow, if there is one. -/
def arrowHead : Reader Bool := do
  let isAsync ← tokenNodeIf? (isAt .asyncKeyword)
  if ← arrowParameters isAsync <&&> atArrow then
    advance
    return true
  else return false

/-- What stands in front of the body of an arrow function, if the tokens at hand form one. -/
def arrowFront : Reader Bool := do
  match ← kind with
  | .asyncKeyword =>
    lookAhead (advanceOnLine <&&> (atIdentifier <||> isAtAny [.openParen, .lessThan]))
      <&&> attempt arrowHead
  | .openParen => attempt arrowHead
  | .lessThan =>
    (opposite markupAllowed <||> lookAhead opensGenericArrow) <&&> attempt arrowHead
  | _ =>
    if ← atIdentifier <&&> lookAhead (do advance; atArrow) then
      plainParameter
      advance
      return true
    else return false

/-- The body of an arrow function. -/
def arrowBody : Reader Unit := do
  if ← isAt .openBrace then functionBlock else call .assignment

/-! ### Assignments -/

/-- An expression that begins with `yield`. -/
def yieldExpression : Reader Unit :=
  node .yieldExpression do
    advance
    if ← onNewLine then return
    else if ← isAt .asterisk then
      tokenNode
      call .assignment
    else optionally atExpression (call .assignment)

/-- What stands behind a condition, if anything does. -/
def conditionalRest : Reader Unit :=
  optionally (accept? .question) do
    wholeAssignment
    expect .colon
    call .assignment
    wrap .conditionalExpression

/-- An operand, and what is assigned to it or depends on it. -/
def plainAssignment : Reader Unit := do
  call (.binary 0)
  .rescan .greater
  if (← kind).isAssignmentOperator then
    advance
    call .assignment
    wrap .binaryExpression
  else conditionalRest

/-- An expression without the comma operator. -/
def assignmentExpression : Reader Unit := do
  if ← isAt .yieldKeyword then yieldExpression
  else
    scope do
      if ← arrowFront then
        arrowBody
        wrap .arrowFunction
      else plainAssignment

end ExpectError.Grammar
