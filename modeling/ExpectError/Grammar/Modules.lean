import ExpectError.Grammar.Expressions

/-!
# Imports, exports and namespaces

How the parts of a program are named from one another.
-/

namespace ExpectError.Grammar

/-! ### Names and sources -/

/-- A name under which a module gives something away: a word or a string. -/
def exportedName : Reader Unit := do
  if ← isAt .stringLiteral then tokenNode else identifierName

/-- Is the word at hand the older word for the attributes of an import? -/
def atAssert : Reader Bool :=
  isAt .identifier <&&> isAssert

/-- The attributes of an import, if there are any on the line. -/
def importAttributes : Reader Unit :=
  optionally ((isAt .withKeyword <||> atAssert) <&&> onSameLine) do
    advance
    if ← isAt .openBrace then objectLiteral
    else report (.expected .openBrace)

/-- Does `type` mark the name that follows, instead of being the name? -/
def marksType : Reader Bool := do
  advance
  if ← accept? .asKeyword then isAt .asKeyword
  else atWord <||> isAt .stringLiteral

/-- One name in braces, possibly with another name behind `as`. -/
def specifier (whole : NodeKind) : Reader Unit :=
  node whole do
    optionally (isAt .typeKeyword <&&> lookAhead marksType) tokenNode
    exportedName
    optionally (accept? .asKeyword) exportedName

/-- Names in braces. -/
def namedSpecifiers (list item : NodeKind) : Reader Unit :=
  node list do
    advance
    commaSeparated .closeBrace (specifier item)
    expect .closeBrace

/-! ### Imports -/

/-- A module named by `require`. -/
def requiredModule : Reader Unit :=
  node .externalModuleReference do
    advance
    advance
    moduleString
    expect .closeParen

/-- What an import of the form `import x = ...` makes a name for. -/
def importEqualsSource : Reader Unit := do
  if ← isAt .requireKeyword <&&> nextIsAny [.openParen] then requiredModule
  else entityName

/-- An import of the form `import x = ...`, from the equals sign on. -/
def importEqualsRest : Reader Unit := do
  advance
  importEqualsSource
  semicolon
  wrap .importEqualsDeclaration

/-- The end of an import, behind the names that are imported. -/
def importRest : Reader Unit := do
  expect .fromKeyword
  moduleString
  importAttributes
  semicolon
  wrap .importDeclaration

/-- Everything of a module under one name. -/
def namespaceImport : Reader Unit :=
  node .namespaceImport do
    advance
    expect .asKeyword
    identifier

/-- What an import names besides the default: everything, or names in braces. -/
def importedNames : Reader Unit := do
  match ← kind with
  | .asterisk => namespaceImport
  | .openBrace => namedSpecifiers .namedImports .importSpecifier
  | _ => report .identifierExpected

/-- Does `type` mark the whole import? -/
def marksTypeImport : Reader Bool := do
  advance
  (atIdentifier <&&> opposite (isAt .fromKeyword)) <||> isAtAny [.openBrace, .asterisk]

/-- The names that are imported. Says whether they are, and not a name that something is assigned
to. -/
def importClause : Reader Bool :=
  scope do
    optionally (isAt .typeKeyword <&&> lookAhead marksTypeImport) tokenNode
    if ← atIdentifier then
      identifier
      if ← isAt .equals then return false
      else
        optionally (accept? .comma) importedNames
        wrap .importClause
        return true
    else
      importedNames
      wrap .importClause
      return true

/-- An import, behind the modifiers that have been read. -/
def importDeclaration : Reader Unit := do
  advance
  if ← isAt .stringLiteral then
    tokenNode
    importAttributes
    semicolon
    wrap .importDeclaration
  else if ← importClause then importRest
  else importEqualsRest

/-! ### Exports -/

/-- An expression as the export of a module. -/
def exportedExpression : Reader Unit := do
  wholeAssignment
  semicolon
  wrap .exportAssignment

/-- Everything of another module, possibly under one name. -/
def exportedModule : Reader Unit :=
  scope do
    advance
    optionally (accept? .asKeyword) do
      exportedName
      wrap .namespaceExport

/-- What an export of names gives away: everything of another module, or names in braces. -/
def exportedNames : Reader Unit := do
  if ← isAt .asterisk then
    exportedModule
    expect .fromKeyword
    moduleString
  else
    namedSpecifiers .namedExports .exportSpecifier
    optionally (accept? .fromKeyword) moduleString

/-- An export that is no declaration by itself. -/
def exportDeclaration : Reader Unit := do
  advance
  if ← accept? .equals then exportedExpression
  else if ← accept? .asKeyword then
    expect .namespaceKeyword
    identifier
    semicolon
    wrap .namespaceExportDeclaration
  else
    optionally (isAt .typeKeyword) tokenNode
    exportedNames
    importAttributes
    semicolon
    wrap .exportDeclaration

/-- The default export of an expression. -/
def exportDefault : Reader Unit := do
  advance
  advance
  exportedExpression

/-! ### Namespaces -/

/-- The body of a namespace, or the semicolon in its place. -/
def namespaceBody : Reader Unit := do
  if ← isAt .openBrace then
    node .moduleBlock do
      advance
      statements
      expect .closeBrace
  else semicolon

/-- What stands behind the name of a namespace: a namespace inside it, or its body. -/
def namespaceRest : Reader Unit := do
  if ← accept? .dot then call .innerNamespace
  else namespaceBody

/-- A namespace that is named behind a dot. -/
def innerNamespace : Reader Unit :=
  node .moduleDeclaration do
    identifier
    namespaceRest

/-- The word that introduces a namespace, and its name. -/
def namespaceName : Reader Unit := do
  if ← isAt .globalKeyword then tokenNodeAs (.token .identifier)
  else
    advance
    if ← isAt .stringLiteral then tokenNode else identifier

/-- A namespace or a module, behind the modifiers that have been read. -/
def namespaceDeclaration : Reader Unit := do
  namespaceName
  namespaceRest
  wrap .moduleDeclaration

end ExpectError.Grammar
