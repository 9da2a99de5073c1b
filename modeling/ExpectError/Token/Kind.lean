/-!
# Kinds of tokens

The kinds are numbered in the order in which they stand: first the literals, then punctuation,
assignments and identifiers, and last the keywords with the reserved words in front. Whether a kind
is a keyword, a reserved word or an assignment is read off that order.
-/

namespace ExpectError

/-- What kind of token a piece of source text is. -/
inductive TokenKind where
  | unknown
  | endOfFile
  -- Literals
  | numericLiteral
  | bigIntLiteral
  | stringLiteral
  | jsxText
  | regularExpressionLiteral
  | noSubstitutionTemplateLiteral
  | templateHead
  | templateMiddle
  | templateTail
  -- Punctuation
  | openBrace
  | closeBrace
  | openParen
  | closeParen
  | openBracket
  | closeBracket
  | dot
  | dotDotDot
  | semicolon
  | comma
  | questionDot
  | lessThan
  | lessThanSlash
  | greaterThan
  | lessThanEquals
  | greaterThanEquals
  | equalsEquals
  | exclamationEquals
  | equalsEqualsEquals
  | exclamationEqualsEquals
  | equalsGreaterThan
  | plus
  | minus
  | asterisk
  | asteriskAsterisk
  | slash
  | percent
  | plusPlus
  | minusMinus
  | lessThanLessThan
  | greaterThanGreaterThan
  | greaterThanGreaterThanGreaterThan
  | ampersand
  | bar
  | caret
  | exclamation
  | tilde
  | ampersandAmpersand
  | barBar
  | question
  | colon
  | at
  | questionQuestion
  | hash
  -- Assignments
  | equals
  | plusEquals
  | minusEquals
  | asteriskEquals
  | asteriskAsteriskEquals
  | slashEquals
  | percentEquals
  | lessThanLessThanEquals
  | greaterThanGreaterThanEquals
  | greaterThanGreaterThanGreaterThanEquals
  | ampersandEquals
  | barEquals
  | barBarEquals
  | ampersandAmpersandEquals
  | questionQuestionEquals
  | caretEquals
  -- Identifiers
  | identifier
  | privateIdentifier
  -- Words that are never identifiers
  | breakKeyword
  | caseKeyword
  | catchKeyword
  | classKeyword
  | constKeyword
  | continueKeyword
  | debuggerKeyword
  | defaultKeyword
  | deleteKeyword
  | doKeyword
  | elseKeyword
  | enumKeyword
  | exportKeyword
  | extendsKeyword
  | falseKeyword
  | finallyKeyword
  | forKeyword
  | functionKeyword
  | ifKeyword
  | importKeyword
  | inKeyword
  | instanceOfKeyword
  | newKeyword
  | nullKeyword
  | returnKeyword
  | superKeyword
  | switchKeyword
  | thisKeyword
  | throwKeyword
  | trueKeyword
  | tryKeyword
  | typeOfKeyword
  | varKeyword
  | voidKeyword
  | whileKeyword
  | withKeyword
  -- Words reserved in strict mode only
  | implementsKeyword
  | interfaceKeyword
  | letKeyword
  | packageKeyword
  | privateKeyword
  | protectedKeyword
  | publicKeyword
  | staticKeyword
  | yieldKeyword
  -- Words with a meaning in some places only
  | abstractKeyword
  | accessorKeyword
  | asKeyword
  | assertsKeyword
  | anyKeyword
  | asyncKeyword
  | awaitKeyword
  | booleanKeyword
  | constructorKeyword
  | declareKeyword
  | getKeyword
  | inferKeyword
  | isKeyword
  | keyOfKeyword
  | moduleKeyword
  | namespaceKeyword
  | neverKeyword
  | outKeyword
  | readonlyKeyword
  | requireKeyword
  | numberKeyword
  | objectKeyword
  | satisfiesKeyword
  | setKeyword
  | stringKeyword
  | symbolKeyword
  | typeKeyword
  | undefinedKeyword
  | uniqueKeyword
  | unknownKeyword
  | usingKeyword
  | fromKeyword
  | globalKeyword
  | bigIntKeyword
  | overrideKeyword
  | ofKeyword
  deriving DecidableEq, Repr, Inhabited

namespace TokenKind

/-- The place of a kind in the list of all kinds. -/
def number (k : TokenKind) : Nat := k.ctorIdx

/-- The name of a kind as it is shown. -/
def name : TokenKind → String
  | .unknown => "Unknown"
  | .endOfFile => "EndOfFileToken"
  | .numericLiteral => "NumericLiteral"
  | .bigIntLiteral => "BigIntLiteral"
  | .stringLiteral => "StringLiteral"
  | .jsxText => "JsxText"
  | .regularExpressionLiteral => "RegularExpressionLiteral"
  | .noSubstitutionTemplateLiteral => "NoSubstitutionTemplateLiteral"
  | .templateHead => "TemplateHead"
  | .templateMiddle => "TemplateMiddle"
  | .templateTail => "TemplateTail"
  | .openBrace => "OpenBraceToken"
  | .closeBrace => "CloseBraceToken"
  | .openParen => "OpenParenToken"
  | .closeParen => "CloseParenToken"
  | .openBracket => "OpenBracketToken"
  | .closeBracket => "CloseBracketToken"
  | .dot => "DotToken"
  | .dotDotDot => "DotDotDotToken"
  | .semicolon => "SemicolonToken"
  | .comma => "CommaToken"
  | .questionDot => "QuestionDotToken"
  | .lessThan => "LessThanToken"
  | .lessThanSlash => "LessThanSlashToken"
  | .greaterThan => "GreaterThanToken"
  | .lessThanEquals => "LessThanEqualsToken"
  | .greaterThanEquals => "GreaterThanEqualsToken"
  | .equalsEquals => "EqualsEqualsToken"
  | .exclamationEquals => "ExclamationEqualsToken"
  | .equalsEqualsEquals => "EqualsEqualsEqualsToken"
  | .exclamationEqualsEquals => "ExclamationEqualsEqualsToken"
  | .equalsGreaterThan => "EqualsGreaterThanToken"
  | .plus => "PlusToken"
  | .minus => "MinusToken"
  | .asterisk => "AsteriskToken"
  | .asteriskAsterisk => "AsteriskAsteriskToken"
  | .slash => "SlashToken"
  | .percent => "PercentToken"
  | .plusPlus => "PlusPlusToken"
  | .minusMinus => "MinusMinusToken"
  | .lessThanLessThan => "LessThanLessThanToken"
  | .greaterThanGreaterThan => "GreaterThanGreaterThanToken"
  | .greaterThanGreaterThanGreaterThan => "GreaterThanGreaterThanGreaterThanToken"
  | .ampersand => "AmpersandToken"
  | .bar => "BarToken"
  | .caret => "CaretToken"
  | .exclamation => "ExclamationToken"
  | .tilde => "TildeToken"
  | .ampersandAmpersand => "AmpersandAmpersandToken"
  | .barBar => "BarBarToken"
  | .question => "QuestionToken"
  | .colon => "ColonToken"
  | .at => "AtToken"
  | .questionQuestion => "QuestionQuestionToken"
  | .hash => "HashToken"
  | .equals => "EqualsToken"
  | .plusEquals => "PlusEqualsToken"
  | .minusEquals => "MinusEqualsToken"
  | .asteriskEquals => "AsteriskEqualsToken"
  | .asteriskAsteriskEquals => "AsteriskAsteriskEqualsToken"
  | .slashEquals => "SlashEqualsToken"
  | .percentEquals => "PercentEqualsToken"
  | .lessThanLessThanEquals => "LessThanLessThanEqualsToken"
  | .greaterThanGreaterThanEquals => "GreaterThanGreaterThanEqualsToken"
  | .greaterThanGreaterThanGreaterThanEquals => "GreaterThanGreaterThanGreaterThanEqualsToken"
  | .ampersandEquals => "AmpersandEqualsToken"
  | .barEquals => "BarEqualsToken"
  | .barBarEquals => "BarBarEqualsToken"
  | .ampersandAmpersandEquals => "AmpersandAmpersandEqualsToken"
  | .questionQuestionEquals => "QuestionQuestionEqualsToken"
  | .caretEquals => "CaretEqualsToken"
  | .identifier => "Identifier"
  | .privateIdentifier => "PrivateIdentifier"
  | .breakKeyword => "BreakKeyword"
  | .caseKeyword => "CaseKeyword"
  | .catchKeyword => "CatchKeyword"
  | .classKeyword => "ClassKeyword"
  | .constKeyword => "ConstKeyword"
  | .continueKeyword => "ContinueKeyword"
  | .debuggerKeyword => "DebuggerKeyword"
  | .defaultKeyword => "DefaultKeyword"
  | .deleteKeyword => "DeleteKeyword"
  | .doKeyword => "DoKeyword"
  | .elseKeyword => "ElseKeyword"
  | .enumKeyword => "EnumKeyword"
  | .exportKeyword => "ExportKeyword"
  | .extendsKeyword => "ExtendsKeyword"
  | .falseKeyword => "FalseKeyword"
  | .finallyKeyword => "FinallyKeyword"
  | .forKeyword => "ForKeyword"
  | .functionKeyword => "FunctionKeyword"
  | .ifKeyword => "IfKeyword"
  | .importKeyword => "ImportKeyword"
  | .inKeyword => "InKeyword"
  | .instanceOfKeyword => "InstanceOfKeyword"
  | .newKeyword => "NewKeyword"
  | .nullKeyword => "NullKeyword"
  | .returnKeyword => "ReturnKeyword"
  | .superKeyword => "SuperKeyword"
  | .switchKeyword => "SwitchKeyword"
  | .thisKeyword => "ThisKeyword"
  | .throwKeyword => "ThrowKeyword"
  | .trueKeyword => "TrueKeyword"
  | .tryKeyword => "TryKeyword"
  | .typeOfKeyword => "TypeOfKeyword"
  | .varKeyword => "VarKeyword"
  | .voidKeyword => "VoidKeyword"
  | .whileKeyword => "WhileKeyword"
  | .withKeyword => "WithKeyword"
  | .implementsKeyword => "ImplementsKeyword"
  | .interfaceKeyword => "InterfaceKeyword"
  | .letKeyword => "LetKeyword"
  | .packageKeyword => "PackageKeyword"
  | .privateKeyword => "PrivateKeyword"
  | .protectedKeyword => "ProtectedKeyword"
  | .publicKeyword => "PublicKeyword"
  | .staticKeyword => "StaticKeyword"
  | .yieldKeyword => "YieldKeyword"
  | .abstractKeyword => "AbstractKeyword"
  | .accessorKeyword => "AccessorKeyword"
  | .asKeyword => "AsKeyword"
  | .assertsKeyword => "AssertsKeyword"
  | .anyKeyword => "AnyKeyword"
  | .asyncKeyword => "AsyncKeyword"
  | .awaitKeyword => "AwaitKeyword"
  | .booleanKeyword => "BooleanKeyword"
  | .constructorKeyword => "ConstructorKeyword"
  | .declareKeyword => "DeclareKeyword"
  | .getKeyword => "GetKeyword"
  | .inferKeyword => "InferKeyword"
  | .isKeyword => "IsKeyword"
  | .keyOfKeyword => "KeyOfKeyword"
  | .moduleKeyword => "ModuleKeyword"
  | .namespaceKeyword => "NamespaceKeyword"
  | .neverKeyword => "NeverKeyword"
  | .outKeyword => "OutKeyword"
  | .readonlyKeyword => "ReadonlyKeyword"
  | .requireKeyword => "RequireKeyword"
  | .numberKeyword => "NumberKeyword"
  | .objectKeyword => "ObjectKeyword"
  | .satisfiesKeyword => "SatisfiesKeyword"
  | .setKeyword => "SetKeyword"
  | .stringKeyword => "StringKeyword"
  | .symbolKeyword => "SymbolKeyword"
  | .typeKeyword => "TypeKeyword"
  | .undefinedKeyword => "UndefinedKeyword"
  | .uniqueKeyword => "UniqueKeyword"
  | .unknownKeyword => "UnknownKeyword"
  | .usingKeyword => "UsingKeyword"
  | .fromKeyword => "FromKeyword"
  | .globalKeyword => "GlobalKeyword"
  | .bigIntKeyword => "BigIntKeyword"
  | .overrideKeyword => "OverrideKeyword"
  | .ofKeyword => "OfKeyword"

/-- Every kind, in order. -/
def all : List TokenKind :=
  [.unknown, .endOfFile, .numericLiteral, .bigIntLiteral, .stringLiteral, .jsxText,
   .regularExpressionLiteral, .noSubstitutionTemplateLiteral, .templateHead, .templateMiddle,
   .templateTail, .openBrace, .closeBrace, .openParen, .closeParen, .openBracket, .closeBracket,
   .dot, .dotDotDot, .semicolon, .comma, .questionDot, .lessThan, .lessThanSlash, .greaterThan,
   .lessThanEquals, .greaterThanEquals, .equalsEquals, .exclamationEquals, .equalsEqualsEquals,
   .exclamationEqualsEquals, .equalsGreaterThan, .plus, .minus, .asterisk, .asteriskAsterisk,
   .slash, .percent, .plusPlus, .minusMinus, .lessThanLessThan, .greaterThanGreaterThan,
   .greaterThanGreaterThanGreaterThan, .ampersand, .bar, .caret, .exclamation, .tilde,
   .ampersandAmpersand, .barBar, .question, .colon, .at, .questionQuestion, .hash, .equals,
   .plusEquals, .minusEquals, .asteriskEquals, .asteriskAsteriskEquals, .slashEquals,
   .percentEquals, .lessThanLessThanEquals, .greaterThanGreaterThanEquals,
   .greaterThanGreaterThanGreaterThanEquals, .ampersandEquals, .barEquals, .barBarEquals,
   .ampersandAmpersandEquals, .questionQuestionEquals, .caretEquals, .identifier,
   .privateIdentifier, .breakKeyword, .caseKeyword, .catchKeyword, .classKeyword, .constKeyword,
   .continueKeyword, .debuggerKeyword, .defaultKeyword, .deleteKeyword, .doKeyword, .elseKeyword,
   .enumKeyword, .exportKeyword, .extendsKeyword, .falseKeyword, .finallyKeyword, .forKeyword,
   .functionKeyword, .ifKeyword, .importKeyword, .inKeyword, .instanceOfKeyword, .newKeyword,
   .nullKeyword, .returnKeyword, .superKeyword, .switchKeyword, .thisKeyword, .throwKeyword,
   .trueKeyword, .tryKeyword, .typeOfKeyword, .varKeyword, .voidKeyword, .whileKeyword,
   .withKeyword, .implementsKeyword, .interfaceKeyword, .letKeyword, .packageKeyword,
   .privateKeyword, .protectedKeyword, .publicKeyword, .staticKeyword, .yieldKeyword,
   .abstractKeyword, .accessorKeyword, .asKeyword, .assertsKeyword, .anyKeyword, .asyncKeyword,
   .awaitKeyword, .booleanKeyword, .constructorKeyword, .declareKeyword, .getKeyword,
   .inferKeyword, .isKeyword, .keyOfKeyword, .moduleKeyword, .namespaceKeyword, .neverKeyword,
   .outKeyword, .readonlyKeyword, .requireKeyword, .numberKeyword, .objectKeyword,
   .satisfiesKeyword, .setKeyword, .stringKeyword, .symbolKeyword, .typeKeyword,
   .undefinedKeyword, .uniqueKeyword, .unknownKeyword, .usingKeyword, .fromKeyword,
   .globalKeyword, .bigIntKeyword, .overrideKeyword, .ofKeyword]

/-- The kind with a given number. -/
def ofNumber? (n : Nat) : Option TokenKind := all[n]?

/-- Reserved words and the words that are keywords in some places only. -/
def isKeywordToken (k : TokenKind) : Bool :=
  decide (breakKeyword.number ≤ k.number)

/-- Words that can never be identifiers. -/
def isReservedWord (k : TokenKind) : Bool :=
  decide (breakKeyword.number ≤ k.number) && decide (k.number ≤ withKeyword.number)

/-- Identifiers, and the keywords that can be identifiers too. -/
def isIdentifierLike (k : TokenKind) : Bool :=
  k = identifier || (k.isKeywordToken && !k.isReservedWord)

/-- The first token of a template literal. -/
def isTemplateStart (k : TokenKind) : Bool :=
  k = noSubstitutionTemplateLiteral || k = templateHead

/-- The sign `=` and all its compounds with an operator in front. -/
def isAssignmentOperator (k : TokenKind) : Bool :=
  decide (equals.number ≤ k.number) && decide (k.number ≤ caretEquals.number)

/-- The keywords with their spellings. -/
def keywords : List (String × TokenKind) :=
  [("break", .breakKeyword), ("case", .caseKeyword), ("catch", .catchKeyword),
   ("class", .classKeyword), ("const", .constKeyword), ("continue", .continueKeyword),
   ("debugger", .debuggerKeyword), ("default", .defaultKeyword), ("delete", .deleteKeyword),
   ("do", .doKeyword), ("else", .elseKeyword), ("enum", .enumKeyword), ("export", .exportKeyword),
   ("extends", .extendsKeyword), ("false", .falseKeyword), ("finally", .finallyKeyword),
   ("for", .forKeyword), ("function", .functionKeyword), ("if", .ifKeyword),
   ("import", .importKeyword), ("in", .inKeyword), ("instanceof", .instanceOfKeyword),
   ("new", .newKeyword), ("null", .nullKeyword), ("return", .returnKeyword),
   ("super", .superKeyword), ("switch", .switchKeyword), ("this", .thisKeyword),
   ("throw", .throwKeyword), ("true", .trueKeyword), ("try", .tryKeyword),
   ("typeof", .typeOfKeyword), ("var", .varKeyword), ("void", .voidKeyword),
   ("while", .whileKeyword), ("with", .withKeyword), ("implements", .implementsKeyword),
   ("interface", .interfaceKeyword), ("let", .letKeyword), ("package", .packageKeyword),
   ("private", .privateKeyword), ("protected", .protectedKeyword), ("public", .publicKeyword),
   ("static", .staticKeyword), ("yield", .yieldKeyword), ("abstract", .abstractKeyword),
   ("accessor", .accessorKeyword), ("as", .asKeyword), ("asserts", .assertsKeyword),
   ("any", .anyKeyword), ("async", .asyncKeyword), ("await", .awaitKeyword),
   ("boolean", .booleanKeyword), ("constructor", .constructorKeyword),
   ("declare", .declareKeyword), ("get", .getKeyword), ("infer", .inferKeyword),
   ("is", .isKeyword), ("keyof", .keyOfKeyword), ("module", .moduleKeyword),
   ("namespace", .namespaceKeyword), ("never", .neverKeyword), ("out", .outKeyword),
   ("readonly", .readonlyKeyword), ("require", .requireKeyword), ("number", .numberKeyword),
   ("object", .objectKeyword), ("satisfies", .satisfiesKeyword), ("set", .setKeyword),
   ("string", .stringKeyword), ("symbol", .symbolKeyword), ("type", .typeKeyword),
   ("undefined", .undefinedKeyword), ("unique", .uniqueKeyword), ("unknown", .unknownKeyword),
   ("using", .usingKeyword), ("from", .fromKeyword), ("global", .globalKeyword),
   ("bigint", .bigIntKeyword), ("override", .overrideKeyword), ("of", .ofKeyword)]

/-- The keyword with a given spelling. -/
def ofKeyword? (word : String) : Option TokenKind := keywords.lookup word

end TokenKind

end ExpectError
