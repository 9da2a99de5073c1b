import ExpectError.Grammar.Pieces

/-!
# Binding patterns

What can stand in the place of a bound name: a name, or a pattern in braces or brackets whose parts
are bound in turn.
-/

namespace ExpectError.Grammar

/-- A default value, if there is one. -/
def defaultValue : Reader Unit :=
  optionally (accept? .equals) wholeAssignment

/-- One part of a pattern in braces. -/
def objectBindingElement : Reader Unit :=
  node .bindingElement do
    if ← accept? .dotDotDot then identifier
    else
      propertyName
      optionally (accept? .colon) (call .bindingName)
      defaultValue

/-- A pattern in braces. -/
def objectBindingPattern : Reader Unit :=
  node .objectBindingPattern do
    advance
    commaSeparated .closeBrace objectBindingElement
    expect .closeBrace

/-- One part of a pattern in brackets. -/
def arrayBindingElement : Reader Unit :=
  node .bindingElement do
    accept .dotDotDot
    call .bindingName
    defaultValue

/-- A pattern in brackets; commas that follow one another leave parts out. -/
def arrayBindingPattern : Reader Unit :=
  node .arrayBindingPattern do
    advance
    commaSeparatedWithHoles .closeBracket arrayBindingElement
    expect .closeBracket

/-- A bound name or a pattern. -/
def bindingName : Reader Unit := do
  match ← kind with
  | .openBrace => objectBindingPattern
  | .openBracket => arrayBindingPattern
  | _ => identifier

end ExpectError.Grammar
