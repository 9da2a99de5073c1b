import ExpectError.Token.Kind

/-!
# Kinds of syntax nodes

A leaf is a token; all other nodes have a kind of their own. Kinds are numbered: tokens come first,
in the order of their own numbers, and the other kinds follow.
-/

namespace ExpectError

/-- What kind of syntax node a piece of source text is. -/
inductive NodeKind where
  /-- A leaf made of one token. -/
  | token (kind : TokenKind)
  | qualifiedName
  | computedPropertyName
  | typeParameter
  | parameter
  | decorator
  | propertySignature
  | propertyDeclaration
  | methodSignature
  | methodDeclaration
  | classStaticBlockDeclaration
  | constructorDeclaration
  | getAccessor
  | setAccessor
  | callSignature
  | constructSignature
  | indexSignature
  | typePredicate
  | typeReference
  | functionType
  | constructorType
  | typeQuery
  | typeLiteral
  | arrayType
  | tupleType
  | optionalType
  | restType
  | unionType
  | intersectionType
  | conditionalType
  | inferType
  | parenthesizedType
  | thisType
  | typeOperator
  | indexedAccessType
  | mappedType
  | literalType
  | namedTupleMember
  | templateLiteralType
  | templateLiteralTypeSpan
  | importType
  | objectBindingPattern
  | arrayBindingPattern
  | bindingElement
  | arrayLiteralExpression
  | objectLiteralExpression
  | propertyAccessExpression
  | elementAccessExpression
  | callExpression
  | newExpression
  | taggedTemplateExpression
  | typeAssertion
  | parenthesizedExpression
  | functionExpression
  | arrowFunction
  | deleteExpression
  | typeOfExpression
  | voidExpression
  | awaitExpression
  | prefixUnaryExpression
  | postfixUnaryExpression
  | binaryExpression
  | conditionalExpression
  | templateExpression
  | yieldExpression
  | spreadElement
  | classExpression
  | omittedExpression
  | expressionWithTypeArguments
  | asExpression
  | nonNullExpression
  | metaProperty
  | satisfiesExpression
  | templateSpan
  | block
  | emptyStatement
  | variableStatement
  | expressionStatement
  | ifStatement
  | doStatement
  | whileStatement
  | forStatement
  | forInStatement
  | forOfStatement
  | continueStatement
  | breakStatement
  | returnStatement
  | withStatement
  | switchStatement
  | labeledStatement
  | throwStatement
  | tryStatement
  | debuggerStatement
  | variableDeclaration
  | variableDeclarationList
  | functionDeclaration
  | classDeclaration
  | interfaceDeclaration
  | typeAliasDeclaration
  | enumDeclaration
  | moduleDeclaration
  | moduleBlock
  | caseBlock
  | importEqualsDeclaration
  | importDeclaration
  | importClause
  | namespaceImport
  | namedImports
  | importSpecifier
  | exportAssignment
  | exportDeclaration
  | namedExports
  | namespaceExport
  | exportSpecifier
  | externalModuleReference
  | namespaceExportDeclaration
  | jsxElement
  | jsxOpeningElement
  | jsxClosingElement
  | jsxFragment
  | jsxOpeningFragment
  | jsxClosingFragment
  | jsxAttribute
  | jsxSpreadAttribute
  | jsxExpression
  | jsxNamespacedName
  | caseClause
  | defaultClause
  | heritageClause
  | catchClause
  | propertyAssignment
  | shorthandPropertyAssignment
  | spreadAssignment
  | enumMember
  | sourceFile
  | semicolonClassElement
  deriving DecidableEq, Repr, Inhabited

namespace NodeKind

/-- The kinds other than tokens, with their names, in the order of their numbers. -/
def composites : List (NodeKind × String) :=
  [(.qualifiedName, "QualifiedName"), (.computedPropertyName, "ComputedPropertyName"),
   (.typeParameter, "TypeParameter"), (.parameter, "Parameter"), (.decorator, "Decorator"),
   (.propertySignature, "PropertySignature"), (.propertyDeclaration, "PropertyDeclaration"),
   (.methodSignature, "MethodSignature"), (.methodDeclaration, "MethodDeclaration"),
   (.classStaticBlockDeclaration, "ClassStaticBlockDeclaration"),
   (.constructorDeclaration, "Constructor"), (.getAccessor, "GetAccessor"),
   (.setAccessor, "SetAccessor"), (.callSignature, "CallSignature"),
   (.constructSignature, "ConstructSignature"), (.indexSignature, "IndexSignature"),
   (.typePredicate, "TypePredicate"), (.typeReference, "TypeReference"),
   (.functionType, "FunctionType"), (.constructorType, "ConstructorType"),
   (.typeQuery, "TypeQuery"), (.typeLiteral, "TypeLiteral"), (.arrayType, "ArrayType"),
   (.tupleType, "TupleType"), (.optionalType, "OptionalType"), (.restType, "RestType"),
   (.unionType, "UnionType"), (.intersectionType, "IntersectionType"),
   (.conditionalType, "ConditionalType"), (.inferType, "InferType"),
   (.parenthesizedType, "ParenthesizedType"), (.thisType, "ThisType"),
   (.typeOperator, "TypeOperator"), (.indexedAccessType, "IndexedAccessType"),
   (.mappedType, "MappedType"), (.literalType, "LiteralType"),
   (.namedTupleMember, "NamedTupleMember"), (.templateLiteralType, "TemplateLiteralType"),
   (.templateLiteralTypeSpan, "TemplateLiteralTypeSpan"), (.importType, "ImportType"),
   (.objectBindingPattern, "ObjectBindingPattern"), (.arrayBindingPattern, "ArrayBindingPattern"),
   (.bindingElement, "BindingElement"), (.arrayLiteralExpression, "ArrayLiteralExpression"),
   (.objectLiteralExpression, "ObjectLiteralExpression"),
   (.propertyAccessExpression, "PropertyAccessExpression"),
   (.elementAccessExpression, "ElementAccessExpression"), (.callExpression, "CallExpression"),
   (.newExpression, "NewExpression"), (.taggedTemplateExpression, "TaggedTemplateExpression"),
   (.typeAssertion, "TypeAssertion"), (.parenthesizedExpression, "ParenthesizedExpression"),
   (.functionExpression, "FunctionExpression"), (.arrowFunction, "ArrowFunction"),
   (.deleteExpression, "DeleteExpression"), (.typeOfExpression, "TypeOfExpression"),
   (.voidExpression, "VoidExpression"), (.awaitExpression, "AwaitExpression"),
   (.prefixUnaryExpression, "PrefixUnaryExpression"),
   (.postfixUnaryExpression, "PostfixUnaryExpression"), (.binaryExpression, "BinaryExpression"),
   (.conditionalExpression, "ConditionalExpression"), (.templateExpression, "TemplateExpression"),
   (.yieldExpression, "YieldExpression"), (.spreadElement, "SpreadElement"),
   (.classExpression, "ClassExpression"), (.omittedExpression, "OmittedExpression"),
   (.expressionWithTypeArguments, "ExpressionWithTypeArguments"), (.asExpression, "AsExpression"),
   (.nonNullExpression, "NonNullExpression"), (.metaProperty, "MetaProperty"),
   (.satisfiesExpression, "SatisfiesExpression"), (.templateSpan, "TemplateSpan"),
   (.block, "Block"), (.emptyStatement, "EmptyStatement"),
   (.variableStatement, "VariableStatement"), (.expressionStatement, "ExpressionStatement"),
   (.ifStatement, "IfStatement"), (.doStatement, "DoStatement"),
   (.whileStatement, "WhileStatement"), (.forStatement, "ForStatement"),
   (.forInStatement, "ForInStatement"), (.forOfStatement, "ForOfStatement"),
   (.continueStatement, "ContinueStatement"), (.breakStatement, "BreakStatement"),
   (.returnStatement, "ReturnStatement"), (.withStatement, "WithStatement"),
   (.switchStatement, "SwitchStatement"), (.labeledStatement, "LabeledStatement"),
   (.throwStatement, "ThrowStatement"), (.tryStatement, "TryStatement"),
   (.debuggerStatement, "DebuggerStatement"), (.variableDeclaration, "VariableDeclaration"),
   (.variableDeclarationList, "VariableDeclarationList"),
   (.functionDeclaration, "FunctionDeclaration"), (.classDeclaration, "ClassDeclaration"),
   (.interfaceDeclaration, "InterfaceDeclaration"),
   (.typeAliasDeclaration, "TypeAliasDeclaration"), (.enumDeclaration, "EnumDeclaration"),
   (.moduleDeclaration, "ModuleDeclaration"), (.moduleBlock, "ModuleBlock"),
   (.caseBlock, "CaseBlock"), (.importEqualsDeclaration, "ImportEqualsDeclaration"),
   (.importDeclaration, "ImportDeclaration"), (.importClause, "ImportClause"),
   (.namespaceImport, "NamespaceImport"), (.namedImports, "NamedImports"),
   (.importSpecifier, "ImportSpecifier"), (.exportAssignment, "ExportAssignment"),
   (.exportDeclaration, "ExportDeclaration"), (.namedExports, "NamedExports"),
   (.namespaceExport, "NamespaceExport"), (.exportSpecifier, "ExportSpecifier"),
   (.externalModuleReference, "ExternalModuleReference"),
   (.namespaceExportDeclaration, "NamespaceExportDeclaration"), (.jsxElement, "JsxElement"),
   (.jsxOpeningElement, "JsxOpeningElement"), (.jsxClosingElement, "JsxClosingElement"),
   (.jsxFragment, "JsxFragment"), (.jsxOpeningFragment, "JsxOpeningFragment"),
   (.jsxClosingFragment, "JsxClosingFragment"), (.jsxAttribute, "JsxAttribute"),
   (.jsxSpreadAttribute, "JsxSpreadAttribute"), (.jsxExpression, "JsxExpression"),
   (.jsxNamespacedName, "JsxNamespacedName"), (.caseClause, "CaseClause"),
   (.defaultClause, "DefaultClause"), (.heritageClause, "HeritageClause"),
   (.catchClause, "CatchClause"), (.propertyAssignment, "PropertyAssignment"),
   (.shorthandPropertyAssignment, "ShorthandPropertyAssignment"),
   (.spreadAssignment, "SpreadAssignment"), (.enumMember, "EnumMember"),
   (.sourceFile, "SourceFile"), (.semicolonClassElement, "SemicolonClassElement")]

/-- The token kinds whose own name is shown on a leaf. -/
def namedLeaves : List TokenKind :=
  [.identifier, .privateIdentifier, .numericLiteral, .bigIntLiteral, .stringLiteral, .jsxText,
   .regularExpressionLiteral, .noSubstitutionTemplateLiteral, .templateHead, .templateMiddle,
   .templateTail, .dotDotDot, .question, .exclamation, .asterisk, .endOfFile]

/-- The name shown for a leaf: keywords and marks are shown by number. -/
def leafName (kind : TokenKind) : String :=
  if namedLeaves.contains kind then kind.name
  else if kind.isKeywordToken then s!"Keyword({kind.number})"
  else s!"Token({kind.number})"

/-- The name shown for a kind. -/
def name : NodeKind → String
  | .token kind => leafName kind
  | kind => (composites.lookup kind).getD ""

/-- The number of the first kind that is no token. -/
def firstComposite : Nat := TokenKind.all.length

/-- The name shown for the kind with a given number. -/
def nameOfNumber (n : Nat) : String :=
  match TokenKind.ofNumber? n with
  | some kind => leafName kind
  | none =>
    match composites[n - firstComposite]? with
    | some (_, name) => name
    | none => s!"Unknown({n})"

end NodeKind

end ExpectError
