import ExpectError.Grammar.Modules

/-!
# Statements and declarations
-/

namespace ExpectError.Grammar

/-! ### Variables -/

/-- Do variables get declared here? -/
def atVariables : Reader Bool := do
  match ← kind with
  | .varKeyword | .constKeyword => return true
  | .letKeyword =>
    lookAhead do
      advance
      atIdentifier <||> isAtAny [.openBracket, .openBrace]
  | .usingKeyword => lookAhead (advanceOnLine <&&> atIdentifier)
  | .awaitKeyword =>
    lookAhead (advanceOnLine <&&> isAt .usingKeyword <&&> advanceOnLine <&&> atIdentifier)
  | _ => return false

/-- One variable with its type and its value. -/
def variableDeclaration : Reader Unit :=
  node .variableDeclaration do
    call .bindingName
    optionally onSameLine (accept .exclamation)
    optionally (accept? .colon) (call .type)
    optionally (accept? .equals) (call .assignment)

/-- The word or words in front of variables: `var`, `let`, `const`, `using` or `await using`. -/
def variableWords : Reader Unit := do
  if ← accept? .awaitKeyword then expect .usingKeyword else advance

/-- The variables behind `var`, `let`, `const`, `using` or `await using`. -/
def variableDeclarations : Reader Unit :=
  node .variableDeclarationList do
    variableWords
    commaSeparatedMany variableDeclaration

/-- Variables as a statement, behind the modifiers that have been read. -/
def variableStatement : Reader Unit := do
  variableDeclarations
  semicolon
  wrap .variableStatement

/-! ### Declarations -/

/-- An expression as a statement. -/
def expressionStatement : Reader Unit :=
  node .expressionStatement do
    wholeExpression
    semicolon

/-- A function, behind the modifiers that have been read. -/
def functionDeclaration : Reader Unit := do
  advance
  optionally (isAt .asterisk) tokenNode
  optionally atIdentifier identifier
  signature
  functionBlockOrSemicolon
  wrap .functionDeclaration

/-- An interface, behind the modifiers that have been read. -/
def interfaceDeclaration : Reader Unit := do
  advance
  identifier
  typeParametersHere
  heritageClauses
  typeMembers
  wrap .interfaceDeclaration

/-- A name for a type, behind the modifiers that have been read. -/
def typeAliasDeclaration : Reader Unit := do
  advance
  identifier
  typeParametersHere
  expect .equals
  call .type
  semicolon
  wrap .typeAliasDeclaration

/-- One member of an enumeration. -/
def enumMember : Reader Unit :=
  node .enumMember do
    propertyName
    defaultValue

/-- An enumeration, behind the modifiers that have been read. -/
def enumDeclaration : Reader Unit := do
  advance
  identifier
  optionally (expect? .openBrace) do
    commaSeparated .closeBrace enumMember
    expect .closeBrace
  wrap .enumDeclaration

/-- One step of the decision whether a declaration starts here: a modifier is moved over, any other
word decides. -/
def declarationStep : Reader (Option Bool) := do
  match ← kind with
  | .varKeyword | .functionKeyword | .classKeyword | .enumKeyword => return some true
  | .constKeyword =>
    some <$> lookAhead do
      advance
      atIdentifier <||> isAtAny [.enumKeyword, .openBrace, .openBracket]
  | .letKeyword | .usingKeyword | .awaitKeyword => some <$> atVariables
  | .interfaceKeyword | .typeKeyword => some <$> (advanceOnLine <&&> atIdentifier)
  | .moduleKeyword | .namespaceKeyword =>
    some <$> (advanceOnLine <&&> (atIdentifier <||> isAt .stringLiteral))
  | .globalKeyword =>
    advance
    some <$> isAtAny [.openBrace, .identifier, .exportKeyword]
  | .importKeyword =>
    advance
    some <$> opposite (isAtAny [.openParen, .dot, .lessThan])
  | .exportKeyword =>
    advance
    if ← isAtAny [.equals, .asterisk, .openBrace, .defaultKeyword, .asKeyword, .at,
        .typeKeyword] then
      return some true
    else return none
  | .abstractKeyword | .accessorKeyword | .asyncKeyword | .declareKeyword | .privateKeyword
  | .protectedKeyword | .publicKeyword | .readonlyKeyword | .staticKeyword | .overrideKeyword =>
    if ← advanceOnLine then return none
    else return some false
  | _ => return some false

/-- Does a declaration start here? -/
def atDeclaration : Reader Bool :=
  lookAhead (.loop declarationStep)

/-- Is `export` at hand and no modifier? -/
def atPlainExport : Reader Bool :=
  isAt .exportKeyword <&&> opposite (lookAhead skipModifier)

/-- Is an expression exported as the default? -/
def atExportDefault : Reader Bool :=
  isAt .exportKeyword <&&> lookAhead do
    advance
    isAt .defaultKeyword <&&> opposite skipModifier

/-- Are the names of types exported? -/
def atTypeExport : Reader Bool :=
  isAt .exportKeyword <&&> lookAhead do
    advance
    isAt .typeKeyword <&&> nextIsAny [.openBrace, .asterisk]

/-- What is read where no declaration follows decorators and modifiers. -/
def missingDeclaration : Reader Unit := do
  report .declarationExpected
  if ← .hasPieces then wrap .expressionStatement
  else expressionStatement

/-- The declaration behind decorators and modifiers. -/
def declarationRest : Reader Unit := do
  match ← kind with
  | .varKeyword | .letKeyword | .constKeyword | .usingKeyword | .awaitKeyword => variableStatement
  | .functionKeyword => functionDeclaration
  | .classKeyword => classRest .classDeclaration
  | .interfaceKeyword => interfaceDeclaration
  | .typeKeyword => typeAliasDeclaration
  | .enumKeyword => enumDeclaration
  | .moduleKeyword | .namespaceKeyword | .globalKeyword => namespaceDeclaration
  | .importKeyword => importDeclaration
  | _ => missingDeclaration

/-- A declaration. -/
def declaration : Reader Unit :=
  scope do
    if ← atPlainExport then exportDeclaration
    else if ← atExportDefault then exportDefault
    else if ← atTypeExport then exportDeclaration
    else
      decorators
      modifiers
      declarationRest

/-! ### Statements -/

/-- An expression in parentheses that are part of the statement. -/
def conditionInParens : Reader Unit := do
  expect .openParen
  wholeExpression
  expect .closeParen

/-- A statement with a label. -/
def labeledStatement : Reader Unit :=
  node .labeledStatement do
    identifier
    advance
    call .statement

/-- A choice. -/
def ifStatement : Reader Unit :=
  node .ifStatement do
    advance
    conditionInParens
    call .statement
    optionally (accept? .elseKeyword) (call .statement)

/-- A loop with its condition at the end. No semicolon is needed behind it. -/
def doStatement : Reader Unit :=
  node .doStatement do
    advance
    call .statement
    expect .whileKeyword
    conditionInParens
    accept .semicolon

/-- A statement that consists of a word, an expression in parentheses and a body. -/
def conditionAndBody (whole : NodeKind) : Reader Unit :=
  node whole do
    advance
    conditionInParens
    call .statement

/-- What stands in front of the first semicolon of a loop, or in front of `in` or `of`. Says whether
there is anything. -/
def loopStart : Reader Bool := do
  if ← isAt .semicolon then return false
  else if ← atVariables then
    forbidIn variableDeclarations
    return true
  else
    forbidIn expression
    return true

/-- The closing parenthesis and the body of a loop. -/
def loopBody (whole : NodeKind) : Reader Unit := do
  expect .closeParen
  call .statement
  wrap whole

/-- What stands behind the start of a loop. -/
def loopRest (hasStart : Bool) : Reader Unit := do
  if ← pure hasStart <&&> accept? .ofKeyword then
    wholeAssignment
    loopBody .forOfStatement
  else if ← pure hasStart <&&> accept? .inKeyword then
    wholeExpression
    loopBody .forInStatement
  else
    expect .semicolon
    optionally (opposite (isAtAny [.semicolon, .closeParen])) wholeExpression
    expect .semicolon
    optionally (opposite (isAt .closeParen)) wholeExpression
    loopBody .forStatement

/-- A loop that begins with `for`. -/
def forStatement : Reader Unit :=
  scope do
    advance
    optionally (isAt .awaitKeyword) tokenNode
    expect .openParen
    let hasStart ← loopStart
    loopRest hasStart

/-- A jump, possibly to a label. -/
def jumpStatement (whole : NodeKind) : Reader Unit :=
  node whole do
    advance
    optionally (opposite atStatementEnd <&&> atIdentifier) identifier
    semicolon

/-- The end of a function, possibly with its result. -/
def returnStatement : Reader Unit :=
  node .returnStatement do
    advance
    optionally (opposite atStatementEnd) wholeExpression
    semicolon

/-- An exception; its value stands on the same line. -/
def throwStatement : Reader Unit :=
  node .throwStatement do
    advance
    optionally onNewLine (report .lineBreakNotAllowed)
    optionally (opposite atStatementEnd <||> onNewLine) wholeExpression
    semicolon

/-- The statements of one case. -/
def caseStatements : Reader Unit :=
  itemsUntil [.caseKeyword, .defaultKeyword, .closeBrace, .endOfFile] .statementExpected
    (call .statement)

/-- One case, from its colon on. -/
def caseRest : Reader Unit := do
  expect .colon
  caseStatements

/-- One case of a `switch`, if there is one. -/
def switchClause : Reader Bool := do
  if ← isAtAny [.closeBrace, .endOfFile] then return false
  else if ← isAt .caseKeyword then
    node .caseClause do
      advance
      wholeExpression
      caseRest
    return true
  else if ← isAt .defaultKeyword then
    node .defaultClause do
      advance
      caseRest
    return true
  else
    report .clauseExpected
    advance
    return true

/-- A choice among cases. -/
def switchStatement : Reader Unit :=
  node .switchStatement do
    advance
    conditionInParens
    node .caseBlock do
      expect .openBrace
      repeatWhile switchClause
      expect .closeBrace

/-- The variable of a `catch`, if there is one. -/
def caughtVariable : Reader Unit :=
  optionally (accept? .openParen) do
    node .variableDeclaration do
      call .bindingName
      optionally (accept? .colon) (call .type)
    expect .closeParen

/-- The handler of exceptions, if there is one. Says whether there is. -/
def catchClause : Reader Bool := do
  if ← isAt .catchKeyword then
    node .catchClause do
      advance
      caughtVariable
      block
    return true
  else return false

/-- What stands behind the statements that are tried and their handler. -/
def tryRest (handled : Bool) : Reader Unit := do
  if ← accept? .finallyKeyword then block
  else if handled then return
  else report .handlerExpected

/-- Statements with a handler or with statements that are run in any case. -/
def tryStatement : Reader Unit :=
  node .tryStatement do
    advance
    block
    let handled ← catchClause
    tryRest handled

/-- A statement that is one word. -/
def debuggerStatement : Reader Unit :=
  node .debuggerStatement do
    advance
    semicolon

/-- A statement that no keyword of its own introduces. -/
def plainStatement : Reader Unit := do
  if ← atDeclaration then declaration
  else if ← atIdentifier <&&> nextIsAny [.colon] then labeledStatement
  else expressionStatement

/-- A statement of any kind. -/
def anyStatement : Reader Unit := do
  match ← kind with
  | .openBrace => block
  | .semicolon => node .emptyStatement advance
  | .ifKeyword => ifStatement
  | .doKeyword => doStatement
  | .whileKeyword => conditionAndBody .whileStatement
  | .forKeyword => forStatement
  | .continueKeyword => jumpStatement .continueStatement
  | .breakKeyword => jumpStatement .breakStatement
  | .returnKeyword => returnStatement
  | .withKeyword => conditionAndBody .withStatement
  | .switchKeyword => switchStatement
  | .throwKeyword => throwStatement
  | .tryKeyword => tryStatement
  | .debuggerKeyword => debuggerStatement
  | .at => declaration
  | _ => plainStatement

end ExpectError.Grammar
