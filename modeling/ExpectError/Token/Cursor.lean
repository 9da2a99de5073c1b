import ExpectError.Text.Alphabetic
import ExpectError.Text.Blank
import ExpectError.Text.Bytes
import ExpectError.Text.Lines
import ExpectError.Text.Numeric

/-!
# Reading along a text

A cursor is a byte offset together with the characters that follow it. The readers below move a
cursor over one stretch of text and say where that stretch ends: a run of characters, the blanks and
comments in front of a token, an identifier, and the literals that have a closing mark.
-/

namespace ExpectError

open Text

/-- A byte offset of a text and what stands behind it. -/
structure Cursor where
  pos : Nat
  rest : List Char
  deriving DecidableEq, Repr, Inhabited

namespace Cursor

/-- The start of a text. -/
def ofText (text : List Char) : Cursor :=
  { pos := 0, rest := text }

/-- Moves over the next `n` characters. -/
def skip : Nat → Cursor → Cursor
  | 0, cursor => cursor
  | n + 1, cursor =>
    match cursor.rest with
    | [] => cursor
    | c :: cs => skip n { pos := cursor.pos + c.utf8Size, rest := cs }

/-- Moves from offset `pos` over the characters of a class. -/
def skipRun (p : Char → Bool) (pos : Nat) : List Char → Cursor
  | [] => { pos, rest := [] }
  | c :: cs => if p c then skipRun p (pos + c.utf8Size) cs else { pos, rest := c :: cs }

/-- Moves over the characters of a class. -/
def skipWhile (p : Char → Bool) (cursor : Cursor) : Cursor :=
  skipRun p cursor.pos cursor.rest

/-- The characters from one cursor to a later offset of the same text. -/
def upTo (cursor : Cursor) (stop : Nat) : List Char :=
  (slice? 0 (stop - cursor.pos) cursor.rest).getD []

/-! ### Character classes -/

/-- Characters that can begin an identifier. -/
def isIdentifierStart (c : Char) : Bool :=
  isAlphabetic c || c = '$' || c = '_'

/-- Characters that can continue an identifier. -/
def isIdentifierPart (c : Char) : Bool :=
  isAlphabetic c || isNumeric c || c = '$' || c = '_' || c = '\u200c' || c = '\u200d'

/-- Hexadecimal digits. -/
def isHexDigit (c : Char) : Bool :=
  c.isDigit || ('a' ≤ c && c ≤ 'f') || ('A' ≤ c && c ≤ 'F')

/-- Blanks between tokens, line breaks apart; the byte order mark is one. -/
def isGap (c : Char) : Bool :=
  isBlank c || c = '\ufeff'

/-! ### Trivia -/

/-- What the characters between two tokens belong to. -/
inductive Trivia where
  | blank
  | lineComment
  | blockComment
  deriving DecidableEq, Repr

/-- Moves from offset `pos` over blanks and comments to the next token, and says whether there is a
line break among them or before. -/
def skipTrivia : Trivia → Bool → Nat → List Char → Cursor × Bool
  | _, broken, pos, [] => ({ pos, rest := [] }, broken)
  | .lineComment, broken, pos, c :: cs =>
    if isLineBreak c then skipTrivia .blank true (pos + c.utf8Size) cs
    else skipTrivia .lineComment broken (pos + c.utf8Size) cs
  | .blockComment, broken, pos, '*' :: '/' :: cs => skipTrivia .blank broken (pos + 2) cs
  | .blockComment, broken, pos, c :: cs =>
    skipTrivia .blockComment (broken || isLineBreak c) (pos + c.utf8Size) cs
  | .blank, broken, pos, '/' :: '/' :: cs => skipTrivia .lineComment broken (pos + 2) cs
  | .blank, broken, pos, '/' :: '*' :: cs => skipTrivia .blockComment broken (pos + 2) cs
  | .blank, broken, pos, c :: cs =>
    if isLineBreak c then skipTrivia .blank true (pos + c.utf8Size) cs
    else if isGap c then skipTrivia .blank broken (pos + c.utf8Size) cs
    else ({ pos, rest := c :: cs }, broken)

/-- Moves to the next token. At the very start of a text, a line that begins with `#!` is skipped
like a comment. -/
def toToken (cursor : Cursor) : Cursor × Bool :=
  match cursor.pos, cursor.rest with
  | 0, '#' :: '!' :: cs => skipTrivia .lineComment false 2 cs
  | pos, cs => skipTrivia .blank false pos cs

/-! ### Identifiers -/

/-- Is a reader of an identifier between the braces of a code point escape? -/
inductive Escape where
  | outside
  | braced
  deriving DecidableEq, Repr

/-- Moves from offset `pos` over identifier characters and `\u` escapes. The digits of an escape
without braces are identifier characters anyway. -/
def identifierEnd : Escape → Nat → List Char → Cursor
  | _, pos, [] => { pos, rest := [] }
  | .braced, pos, c :: cs =>
    identifierEnd (if c = '}' then .outside else .braced) (pos + c.utf8Size) cs
  | .outside, pos, '\\' :: 'u' :: '{' :: cs => identifierEnd .braced (pos + 3) cs
  | .outside, pos, '\\' :: 'u' :: cs => identifierEnd .outside (pos + 2) cs
  | .outside, pos, c :: cs =>
    if isIdentifierPart c then identifierEnd .outside (pos + c.utf8Size) cs
    else { pos, rest := c :: cs }

/-! ### Literals with a closing mark

Each reader starts behind the opening mark and returns the place behind the closing one, together
with a flag that is set if the text or the line ended first. -/

/-- Moves to the end of a string literal. A backslash takes the next character with it, even a line
break. -/
def stringEnd (quote : Char) : Nat → List Char → Cursor × Bool
  | pos, [] => ({ pos, rest := [] }, true)
  | pos, c :: cs =>
    if c = quote then ({ pos := pos + c.utf8Size, rest := cs }, false)
    else if c = '\\' then
      match cs with
      | [] => ({ pos := pos + 1, rest := [] }, true)
      | d :: ds => stringEnd quote (pos + 1 + d.utf8Size) ds
    else if c = '\n' || c = '\r' then ({ pos, rest := c :: cs }, true)
    else stringEnd quote (pos + c.utf8Size) cs

/-- Moves to the end of an attribute's string, which knows no escapes and may hold line breaks. -/
def attributeStringEnd (quote : Char) : Nat → List Char → Cursor × Bool
  | pos, [] => ({ pos, rest := [] }, true)
  | pos, c :: cs =>
    if c = quote then ({ pos := pos + c.utf8Size, rest := cs }, false)
    else attributeStringEnd quote (pos + c.utf8Size) cs

/-- How a stretch of template characters ends. -/
inductive TemplateStop where
  /-- At the closing backquote. -/
  | closed
  /-- At the opening of a substitution. -/
  | substitution
  /-- At the end of the text. -/
  | endOfText
  deriving DecidableEq, Repr

/-- Moves over template characters to the closing backquote or the next substitution. -/
def templateEnd : Nat → List Char → Cursor × TemplateStop
  | pos, [] => ({ pos, rest := [] }, .endOfText)
  | pos, '\x60' :: cs => ({ pos := pos + 1, rest := cs }, .closed)
  | pos, '$' :: '{' :: cs => ({ pos := pos + 2, rest := cs }, .substitution)
  | pos, '\\' :: c :: cs => templateEnd (pos + 1 + c.utf8Size) cs
  | pos, c :: cs => templateEnd (pos + c.utf8Size) cs

/-- Moves to the end of a regular expression's body. A slash between brackets does not end it. -/
def regexEnd : Bool → Nat → List Char → Cursor × Bool
  | _, pos, [] => ({ pos, rest := [] }, true)
  | inClass, pos, c :: cs =>
    if isLineBreak c then ({ pos, rest := c :: cs }, true)
    else if c = '\\' then
      match cs with
      | [] => ({ pos := pos + 1, rest := [] }, true)
      | d :: ds => regexEnd inClass (pos + 1 + d.utf8Size) ds
    else if c = '/' && !inClass then ({ pos := pos + 1, rest := cs }, false)
    else regexEnd (c = '[' || (inClass && c ≠ ']')) (pos + c.utf8Size) cs

end Cursor

end ExpectError
