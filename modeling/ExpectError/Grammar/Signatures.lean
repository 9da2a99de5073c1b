import ExpectError.Grammar.Pieces

/-!
# Type parameters, parameters and signatures

What functions, methods and their types have in front of the body.
-/

namespace ExpectError.Grammar

/-- Type arguments between `<` and `>`. -/
def typeArguments : Reader Unit := do
  expect .lessThan
  commaSeparated .greaterThan wholeType
  expect .greaterThan

/-- Type arguments, if the token at hand is `<`. -/
def typeArgumentsHere : Reader Unit :=
  optionally (isAt .lessThan) typeArguments

/-- Type arguments on the same line, if there are any. -/
def typeArgumentsOnLine : Reader Unit :=
  optionally (onSameLine <&&> isAt .lessThan) typeArguments

/-- One type parameter, with its modifiers, its constraint and its default. -/
def typeParameter : Reader Unit :=
  node .typeParameter do
    repeatedly
      (isAtAny [.constKeyword, .inKeyword, .outKeyword]
        <&&> lookAhead (do advance; atIdentifier))
      tokenNode
    identifier
    optionally (accept? .extendsKeyword) wholeType
    optionally (accept? .equals) wholeType

/-- Type parameters between `<` and `>`. -/
def typeParameters : Reader Unit :=
  optionally (expect? .lessThan) do
    commaSeparated .greaterThan typeParameter
    expect .greaterThan

/-- Type parameters, if the token at hand is `<`. -/
def typeParametersHere : Reader Unit :=
  optionally (isAt .lessThan) typeParameters

/-- Is the token at hand a modifier that a parameter can have? -/
def atParameterModifier : Reader Bool :=
  isAtAny [.publicKeyword, .privateKeyword, .protectedKeyword, .readonlyKeyword, .overrideKeyword]

/-- The name of a parameter, or a pattern in its place. -/
def parameterName : Reader Unit := do
  if ← isAt .thisKeyword then tokenNodeAs (.token .identifier) else call .bindingName

/-- A parameter, with its decorators, modifiers, type and default. -/
def parameter : Reader Unit :=
  node .parameter do
    decorators
    repeatedly
      (atParameterModifier
        <&&> lookAhead (do
          advance
          atIdentifier <||> isAtAny [.openBrace, .openBracket] <||> atParameterModifier))
      tokenNode
    accept .dotDotDot
    parameterName
    accept .question
    optionally (accept? .colon) (call .type)
    optionally (accept? .equals) wholeAssignment

/-- Parameters between parentheses. -/
def parameterList : Reader Unit :=
  optionally (expect? .openParen) do
    allowAll (commaSeparated .closeParen parameter)
    expect .closeParen

/-- The name in a type predicate. -/
def predicateSubject : Reader Unit := do
  if ← isAt .thisKeyword then tokenNodeAs .thisType else identifier

/-- Does `is` follow on the same line? -/
def atIs : Reader Bool :=
  isAt .isKeyword <&&> onSameLine

/-- A type in the place of a result: also a statement about a parameter, `x is T` or
`asserts x`. -/
def resultType : Reader Unit := do
  if ← isAt .assertsKeyword
      <&&> lookAhead (advanceOnLine <&&> (atIdentifier <||> isAt .thisKeyword)) then
    node .typePredicate do
      tokenNode
      predicateSubject
      optionally atIs do
        advance
        call .type
  else if ← (atIdentifier <||> isAt .thisKeyword) <&&> lookAhead (do advance; atIs) then
    node .typePredicate do
      predicateSubject
      advance
      call .type
  else call .type

/-- Type parameters, parameters and the type of the result. -/
def signature : Reader Unit := do
  typeParametersHere
  parameterList
  optionally (accept? .colon) resultType

end ExpectError.Grammar
