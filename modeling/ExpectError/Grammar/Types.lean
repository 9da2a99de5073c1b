import ExpectError.Grammar.Signatures

/-!
# Types

From the loosest form to the tightest: conditional types, unions, intersections, operators such as
`keyof`, brackets behind a type, and the types that stand by themselves.
-/

namespace ExpectError.Grammar

/-! ### Function types -/

/-- Behind an opening parenthesis: moves over the start of a parameter, if there is one. -/
def skipParameterStart : Reader Bool := do
  repeatedly atParameterModifier advance
  if ← atIdentifier <||> isAt .thisKeyword then
    advance
    return true
  else if ← isAtAny [.openBracket, .openBrace] then .withoutError (call .bindingName)
  else return false

/-- Does a parenthesis open the parameters of a function type? -/
def opensFunctionType : Reader Bool := do
  advance
  if ← isAtAny [.closeParen, .dotDotDot] then return true
  else if ← skipParameterStart then
    isAtAny [.colon, .comma, .question, .equals]
      <||> (accept? .closeParen <&&> isAt .equalsGreaterThan)
  else return false

/-- Does a function type or a constructor type start here? -/
def atFunctionType : Reader Bool := do
  match ← kind with
  | .lessThan | .newKeyword => return true
  | .openParen => lookAhead opensFunctionType
  | .abstractKeyword => nextIsAny [.newKeyword]
  | _ => return false

/-- A function type or a constructor type. -/
def functionType : Reader Unit :=
  scope do
    optionally (isAt .abstractKeyword) tokenNode
    let isConstructor ← accept? .newKeyword
    typeParametersHere
    parameterList
    expect .equalsGreaterThan
    allowConditional resultType
    if isConstructor then wrap .constructorType else wrap .functionType

/-! ### Conditional types, unions and operators -/

/-- Types joined by a mark, which may also stand in front of the first. -/
def joinedTypes (mark : TokenKind) (whole : NodeKind) (part : Reader Unit) : Reader Unit :=
  scope do
    let leading ← accept? mark
    part
    optionally (pure leading <||> isAt mark) do
      repeatedly (accept? mark) part
      wrap whole

/-- Types joined by `&`. -/
def intersectionType : Reader Unit :=
  joinedTypes .ampersand .intersectionType (call .typeOperator)

/-- Types joined by `|`. -/
def unionType : Reader Unit :=
  joinedTypes .bar .unionType intersectionType

/-- Does a conditional type continue behind the type that is checked? -/
def atConditionalRest : Reader Bool :=
  isAt .extendsKeyword <&&> onSameLine <&&> opposite conditionalForbidden

/-- A type of any form. -/
def anyType : Reader Unit := do
  if ← atFunctionType then functionType
  else
    scope do
      unionType
      optionally atConditionalRest do
        advance
        forbidConditional (call .type)
        expect .question
        wholeType
        expect .colon
        wholeType
        wrap .conditionalType

/-- The constraint of a type variable behind `infer`, unless a conditional type continues behind
it. -/
def inferConstraint : Reader Bool :=
  attempt do
    advance
    forbidConditional (call .type)
    conditionalForbidden <||> opposite (isAt .question)

/-- The type variable behind `infer`. A constraint is part of it only if no conditional type can
continue behind it. -/
def inferType : Reader Unit :=
  node .inferType do
    advance
    node .typeParameter do
      identifier
      optionally (isAt .extendsKeyword) (discard inferConstraint)

/-! ### Types that stand by themselves -/

/-- A named type with its arguments. -/
def typeReference : Reader Unit :=
  node .typeReference do
    entityName
    typeArgumentsOnLine

/-- The type of a module or of something in it. -/
def importType : Reader Unit :=
  node .importType do
    advance
    expect .openParen
    call .type
    optionally (accept? .comma <&&> opposite (isAt .closeParen)) do
      wholeAssignment
      accept .comma
    expect .closeParen
    optionally (accept? .dot) entityName
    typeArgumentsOnLine

/-- The type of a value, behind `typeof`. -/
def typeQuery : Reader Unit :=
  node .typeQuery do
    advance
    if ← isAt .importKeyword then importType
    else
      entityName
      typeArgumentsOnLine

/-- Does a tuple element begin with a name of its own? -/
def atNamedTupleMember : Reader Bool :=
  lookAhead do
    if ← atWord then
      advance
      accept .question
      isAt .colon
    else return false

/-- One element of a tuple. -/
def tupleElement : Reader Unit :=
  scope do
    let isRest ← accept? .dotDotDot
    if ← atNamedTupleMember then
      identifierName
      accept .question
      expect .colon
      wholeType
      wrap .namedTupleMember
    else
      wholeType
      if isRest then wrap .restType
      else optionally (accept? .question) (wrap .optionalType)

/-- A tuple. -/
def tupleType : Reader Unit :=
  node .tupleType do
    advance
    commaSeparated .closeBracket tupleElement
    expect .closeBracket

/-! ### Types in braces -/

/-- Does a brace open a mapped type? -/
def opensMappedType : Reader Bool := do
  advance
  if ← isAtAny [.plus, .minus] then
    advance
    isAt .readonlyKeyword
  else
    accept .readonlyKeyword
    accept? .openBracket <&&> atIdentifier <&&> do advance; isAt .inKeyword

/-- The mark behind a member of a type. -/
def memberEnd : Reader Unit := do
  if ← isAt .semicolon then advance
  else accept .comma

/-- A mapped type. -/
def mappedType : Reader Unit :=
  node .mappedType do
    advance
    acceptAny [.plus, .minus]
    optionally (isAt .readonlyKeyword) tokenNode
    expect .openBracket
    node .typeParameter do
      identifier
      expect .inKeyword
      wholeType
    optionally (accept? .asKeyword) wholeType
    expect .closeBracket
    acceptAny [.plus, .minus]
    accept .question
    optionally (accept? .colon) wholeType
    memberEnd
    expect .closeBrace

/-- Does a bracket open an index signature? -/
def atIndexSignature : Reader Bool :=
  isAt .openBracket <&&> lookAhead do
    advance
    isAtAny [.dotDotDot, .closeBracket]
      <||> (atIdentifier <&&> do advance; isAtAny [.colon, .comma])

/-- An index signature behind the modifiers that have been read. -/
def indexSignature : Reader Unit := do
  advance
  commaSeparated .closeBracket parameter
  expect .closeBracket
  optionally (accept? .colon) wholeType
  wrap .indexSignature

/-- A property or a method in a type, behind the modifiers that have been read. -/
def propertyOrMethodSignature : Reader Unit := do
  propertyName
  accept .question
  if ← isAtAny [.openParen, .lessThan] then
    signature
    wrap .methodSignature
  else
    optionally (accept? .colon) wholeType
    wrap .propertySignature

/-- Does the name of a property follow the word at hand on its line? -/
def nextIsNameOnLine : Reader Bool :=
  lookAhead (advanceOnLine <&&> atPropertyName)

/-- An accessor in a type, behind the modifiers that have been read. -/
def accessorSignature (whole : NodeKind) : Reader Unit := do
  tokenNode
  propertyName
  signature
  wrap whole

/-- One member of a type in braces. -/
def typeMember : Reader Unit :=
  scope do
    if ← isAtAny [.openParen, .lessThan] then
      signature
      wrap .callSignature
    else if ← isAt .newKeyword <&&> nextIsAny [.openParen, .lessThan] then
      advance
      signature
      wrap .constructSignature
    else
      optionally (isAt .readonlyKeyword <&&> nextIsNameOnLine) tokenNode
      if ← atIndexSignature then indexSignature
      else if ← isAt .getKeyword <&&> nextIsNameOnLine then accessorSignature .getAccessor
      else if ← isAt .setKeyword <&&> nextIsNameOnLine then accessorSignature .setAccessor
      else propertyOrMethodSignature

/-- A member of a type with the mark behind it; where there is none, a problem is noted and the token
at hand is skipped. -/
def typeMemberOrSkip : Reader Unit := do
  if ← .moves (do typeMember; memberEnd) then return
  else
    report .memberExpected
    advance

/-- The members of a type in braces. -/
def typeMembers : Reader Unit := do
  expect .openBrace
  repeatedly (opposite (isAtAny [.closeBrace, .endOfFile])) typeMemberOrSkip
  expect .closeBrace

/-! ### All together -/

/-- The keywords that name a type. -/
def typeKeywords : List TokenKind :=
  [.anyKeyword, .unknownKeyword, .stringKeyword, .numberKeyword, .bigIntKeyword, .symbolKeyword,
   .booleanKeyword, .neverKeyword, .objectKeyword, .undefinedKeyword, .voidKeyword, .nullKeyword]

/-- The tokens that are types as literals. -/
def literalTypeTokens : List TokenKind :=
  [.stringLiteral, .numericLiteral, .bigIntLiteral, .trueKeyword, .falseKeyword,
   .noSubstitutionTemplateLiteral]

/-- A number with a sign, as a type. -/
def negativeLiteralType : Reader Unit :=
  node .literalType do
    node .prefixUnaryExpression do
      advance
      optionally (isAtAny [.numericLiteral, .bigIntLiteral]) tokenNode

/-- A type in parentheses. -/
def parenthesizedType : Reader Unit :=
  node .parenthesizedType do
    advance
    wholeType
    expect .closeParen

/-- A named type, or a type that a mark or a keyword introduces. -/
def introducedType : Reader Unit := do
  match ← kind with
  | .thisKeyword => tokenNodeAs .thisType
  | .templateHead => template wholeType .templateLiteralTypeSpan .templateLiteralType
  | .typeOfKeyword => typeQuery
  | .importKeyword => importType
  | .openBrace =>
    if ← lookAhead opensMappedType then mappedType
    else node .typeLiteral typeMembers
  | .openBracket => tupleType
  | .openParen => parenthesizedType
  | _ =>
    if ← atWord then typeReference
    else missing .typeExpected

/-- A type that stands by itself. -/
def primaryType : Reader Unit := do
  if ← isAtAny typeKeywords <&&> opposite (nextIsAny [.dot]) then tokenNode
  else if ← isAtAny literalTypeTokens then node .literalType tokenNode
  else if ← isAt .minus <&&> nextIsAny [.numericLiteral, .bigIntLiteral] then negativeLiteralType
  else introducedType

/-- Brackets behind a type. -/
def bracketsBehindType : Reader Unit := do
  advance
  if ← accept? .closeBracket then wrap .arrayType
  else
    wholeType
    expect .closeBracket
    wrap .indexedAccessType

/-- A type with brackets behind it. -/
def bracketedType : Reader Unit :=
  scope do
    primaryType
    repeatedly (onSameLine <&&> isAt .openBracket) bracketsBehindType

/-- A type with operators in front of it. -/
def typeOperator : Reader Unit := do
  match ← kind with
  | .keyOfKeyword | .uniqueKeyword | .readonlyKeyword =>
    node .typeOperator do
      advance
      call .typeOperator
  | .inferKeyword => inferType
  | _ =>
    if ← atFunctionType then functionType
    else bracketedType

end ExpectError.Grammar
