import ExpectError.Grammar.Signatures

/-!
# Markup

Elements and fragments among expressions. An element always holds its opening tag; the attributes
are parts of the tag. Text between tags is kept, even if it is blank.
-/

namespace ExpectError.Grammar

/-- A name in markup; it may contain hyphens. -/
def markupIdentifier : Reader Unit := do
  if ← atWord then
    .rescan .markupName
    tokenNodeAs (.token .identifier)
  else missing .identifierExpected

/-- Names accessed behind a name. -/
def accessedNames : Reader Unit :=
  repeatedly (accept? .dot) do
    identifierName
    wrap .propertyAccessExpression

/-- The name of a tag. -/
def tagName : Reader Unit :=
  scope do
    if ← isAt .thisKeyword then
      tokenNode
      accessedNames
    else
      markupIdentifier
      if ← accept? .colon then
        markupIdentifier
        wrap .jsxNamespacedName
      else accessedNames

/-- The end of a tag; markup text follows, or code. -/
def tagEnd (textFollows : Bool) : Reader Unit := do
  if ← isAt .greaterThan then .advance (if textFollows then .markup else .code)
  else report (.expected .greaterThan)

/-! ### Attributes -/

/-- An expression in braces in the place of an attribute's value. -/
def attributeExpression : Reader Unit :=
  node .jsxExpression do
    advance
    optionally (opposite (isAt .closeBrace)) wholeExpression
    expect .closeBrace

/-- Attributes taken from an object. -/
def spreadAttribute : Reader Unit :=
  node .jsxSpreadAttribute do
    advance
    expect .dotDotDot
    wholeExpression
    expect .closeBrace

/-- The value of an attribute. -/
def attributeValue : Reader Unit := do
  match ← kind with
  | .stringLiteral => tokenNode
  | .openBrace => attributeExpression
  | .lessThan => call (.markup false)
  | _ => report (.expected .openBrace)

/-- The name of an attribute. -/
def attributeName : Reader Unit :=
  scope do
    markupIdentifier
    optionally (accept? .colon) do
      markupIdentifier
      wrap .jsxNamespacedName

/-- An attribute with its value, if it has one. -/
def plainAttribute : Reader Unit :=
  node .jsxAttribute do
    attributeName
    optionally (isAt .equals) do
      .advance .attributeValue
      attributeValue

/-- One attribute of a tag, if there is one. -/
def tagAttribute : Reader Bool := do
  if ← isAtAny [.greaterThan, .slash, .endOfFile] then return false
  else if ← isAt .openBrace then
    spreadAttribute
    return true
  else if ← atWord then
    plainAttribute
    return true
  else
    report .identifierExpected
    advance
    return true

/-! ### Children -/

/-- Consumes a closing brace behind which markup text follows. -/
def closingBrace : Reader Unit := do
  if ← isAt .closeBrace then .advance .markup
  else report (.expected .closeBrace)

/-- An expression in braces between tags; it may be empty. -/
def childExpression : Reader Unit :=
  node .jsxExpression do
    advance
    optionally (opposite (isAt .closeBrace)) do
      accept .dotDotDot
      wholeExpression
    closingBrace

/-- One child of an element or a fragment, if there is one. -/
def markupChild : Reader Bool := do
  match ← kind with
  | .jsxText =>
    .leaf (.token .jsxText) .markup
    return true
  | .openBrace =>
    childExpression
    return true
  | .lessThan =>
    call (.markup true)
    return true
  | .lessThanSlash => return false
  | _ =>
    report .closingTagExpected
    return false

/-- A closing tag, behind which markup text follows or code. -/
def closingTag (closing : NodeKind) (notClosed : SyntaxProblem) (name : Reader Unit)
    (textFollows : Bool) : Reader Unit := do
  if ← isAt .lessThanSlash then
    node closing do
      advance
      name
      tagEnd textFollows
  else report notClosed

/-- The children of an element behind its opening tag, and its closing tag. -/
def elementRest (amongChildren : Bool) : Reader Unit := do
  repeatWhile markupChild
  closingTag .jsxClosingElement .elementNotClosed tagName amongChildren
  wrap .jsxElement

/-- The children of a fragment behind its opening tag, and its closing tag. -/
def fragmentRest (amongChildren : Bool) : Reader Unit := do
  repeatWhile markupChild
  closingTag .jsxClosingFragment .fragmentNotClosed (pure ()) amongChildren
  wrap .jsxFragment

/-- What an opening tag begins. -/
inductive Opening where
  | fragment
  | element
  /-- An element without children and closing tag. -/
  | closedElement
  deriving DecidableEq, Repr

/-- The rest of the opening tag of a fragment. -/
def openingFragmentRest : Reader Unit := do
  tagEnd true
  wrap .jsxOpeningFragment

/-- An opening tag. -/
def openingTag (amongChildren : Bool) : Reader Opening :=
  scope do
    advance
    if ← isAt .greaterThan then
      openingFragmentRest
      return .fragment
    else
      tagName
      typeArgumentsHere
      repeatWhile tagAttribute
      if ← accept? .slash then
        tagEnd amongChildren
        wrap .jsxOpeningElement
        return .closedElement
      else
        tagEnd true
        wrap .jsxOpeningElement
        return .element

/-- An element or a fragment. -/
def elementOrFragment (amongChildren : Bool) : Reader Unit :=
  scope do
    match ← openingTag amongChildren with
    | .fragment => fragmentRest amongChildren
    | .element => elementRest amongChildren
    | .closedElement => wrap .jsxElement

end ExpectError.Grammar
