import ExpectError.Token.Cursor
import ExpectError.Token.Kind

/-!
# The scanner

A scanner stands on one token of a text: it knows the token's kind, where it starts and where it
ends. `next` moves to the following token. What a character means depends on the grammar in a few
places, and there the reader of the grammar asks for another reading of the token at hand:

* a `>` may be joined with what follows (`rescanGreater`);
* a `/` may begin a regular expression (`rescanSlash`);
* a `}` may continue a template (`rescanTemplate`);
* between markup tags everything up to `{` or `<` is text (`nextMarkup`), names may hold hyphens
  (`extendMarkupName`) and strings know no escapes (`nextAttributeValue`).
-/

namespace ExpectError

open Text

/-- A token read at a cursor: its kind, and the place behind it. -/
structure Lexeme where
  kind : TokenKind
  next : Cursor
  /-- Is the closing mark of a literal missing? -/
  unterminated : Bool := false

namespace Lexeme

open Cursor

/-- The marks, longer ones in front of those that they begin with. A `>` is always a mark of its
own. -/
def marks : List (String × TokenKind) :=
  [("...", .dotDotDot), ("??=", .questionQuestionEquals), ("<<=", .lessThanLessThanEquals),
   ("===", .equalsEqualsEquals), ("!==", .exclamationEqualsEquals),
   ("**=", .asteriskAsteriskEquals), ("&&=", .ampersandAmpersandEquals), ("||=", .barBarEquals),
   ("??", .questionQuestion), ("<<", .lessThanLessThan), ("<=", .lessThanEquals),
   ("==", .equalsEquals), ("=>", .equalsGreaterThan), ("!=", .exclamationEquals),
   ("++", .plusPlus), ("+=", .plusEquals), ("--", .minusMinus), ("-=", .minusEquals),
   ("**", .asteriskAsterisk), ("*=", .asteriskEquals), ("/=", .slashEquals),
   ("%=", .percentEquals), ("&&", .ampersandAmpersand), ("&=", .ampersandEquals),
   ("||", .barBar), ("|=", .barEquals), ("^=", .caretEquals), ("?.", .questionDot),
   ("\x7b", .openBrace), ("\x7d", .closeBrace), ("(", .openParen), (")", .closeParen),
   ("[", .openBracket), ("]", .closeBracket), (";", .semicolon), (",", .comma), (":", .colon),
   ("~", .tilde), ("@", .at), ("#", .hash), (">", .greaterThan), (".", .dot), ("?", .question),
   ("<", .lessThan), ("=", .equals), ("!", .exclamation), ("+", .plus), ("-", .minus),
   ("*", .asterisk), ("/", .slash), ("%", .percent), ("&", .ampersand), ("|", .bar),
   ("^", .caret)]

/-- Does a text begin with a mark? What looks like `?.` in front of a digit is a `?`. -/
def beginsWithMark (mark : String) (cs : List Char) : Bool :=
  mark.toList.isPrefixOf cs && !(mark = "?." && (cs.drop 2).head?.any Char.isDigit)

/-- A mark, or a single character that no token begins with. -/
def readMark (cursor : Cursor) : Lexeme :=
  if cursor.rest.isEmpty then { kind := .endOfFile, next := cursor }
  else
    match marks.find? fun (mark, _) => beginsWithMark mark cursor.rest with
    | some (mark, kind) => { kind, next := cursor.skip mark.toList.length }
    | none => { kind := .unknown, next := cursor.skip 1 }

/-- An identifier or a keyword; a backslash that begins no escape is a token of its own. -/
def readIdentifier (cursor : Cursor) : Lexeme :=
  match cursor.rest with
  | '\\' :: c :: _ => if c = 'u' then read else { kind := .unknown, next := cursor.skip 1 }
  | ['\\'] => { kind := .unknown, next := cursor.skip 1 }
  | _ => read
where
  read : Lexeme :=
    let next := identifierEnd .outside cursor.pos cursor.rest
    let word := String.ofList (cursor.upTo next.pos)
    { kind := (TokenKind.ofKeyword? word).getD .identifier, next }

/-- Moves over the digits of a class and the underscores between them. -/
def skipDigits (isDigit : Char → Bool) (cursor : Cursor) : Cursor :=
  cursor.skipWhile fun c => isDigit c || c = '_'

/-- Moves over an exponent, if there is one with at least one digit. -/
def skipExponent (cursor : Cursor) : Cursor :=
  match cursor.rest with
  | e :: sign :: d :: _ =>
    if e ≠ 'e' && e ≠ 'E' then cursor
    else if sign.isDigit then skipDigits Char.isDigit (cursor.skip 1)
    else if (sign = '+' || sign = '-') && d.isDigit then skipDigits Char.isDigit (cursor.skip 2)
    else cursor
  | [e, d] =>
    if (e = 'e' || e = 'E') && d.isDigit then skipDigits Char.isDigit (cursor.skip 1) else cursor
  | _ => cursor

/-- Moves over a decimal number: digits, a point with more digits, an exponent. -/
def skipDecimal (cursor : Cursor) : Cursor :=
  let whole := skipDigits Char.isDigit cursor
  let fraction :=
    match whole.rest with
    | '.' :: _ => skipDigits Char.isDigit (whole.skip 1)
    | _ => whole
  skipExponent fraction

/-- Moves over a number in any base. -/
def skipNumber (cursor : Cursor) : Cursor :=
  match cursor.rest with
  | '0' :: c :: _ =>
    if c = 'x' || c = 'X' then skipDigits isHexDigit (cursor.skip 2)
    else if c = 'o' || c = 'O' then skipDigits (fun d => '0' ≤ d && d ≤ '7') (cursor.skip 2)
    else if c = 'b' || c = 'B' then skipDigits (fun d => d = '0' || d = '1') (cursor.skip 2)
    else skipDecimal cursor
  | _ => skipDecimal cursor

/-- A number; the letter `n` behind it makes it a big integer. -/
def readNumber (cursor : Cursor) : Lexeme :=
  let next := skipNumber cursor
  match next.rest with
  | 'n' :: _ => { kind := .bigIntLiteral, next := next.skip 1 }
  | _ => { kind := .numericLiteral, next }

/-- A string, from its opening quote on. -/
def readString (quote : Char) (cursor : Cursor) : Lexeme :=
  let body := cursor.skip 1
  let (next, unterminated) := stringEnd quote body.pos body.rest
  { kind := .stringLiteral, next, unterminated }

/-- Template characters behind an opening backquote. -/
def readTemplateHead (body : Cursor) : Lexeme :=
  match templateEnd body.pos body.rest with
  | (next, .closed) => { kind := .noSubstitutionTemplateLiteral, next }
  | (next, .substitution) => { kind := .templateHead, next }
  | (next, .endOfText) => { kind := .noSubstitutionTemplateLiteral, next, unterminated := true }

/-- Template characters behind the closing brace of a substitution. -/
def readTemplateSpan (body : Cursor) : Lexeme :=
  match templateEnd body.pos body.rest with
  | (next, .closed) => { kind := .templateTail, next }
  | (next, .substitution) => { kind := .templateMiddle, next }
  | (next, .endOfText) => { kind := .templateTail, next, unterminated := true }

/-- A `#`, together with the name that follows it. -/
def readHash (cursor : Cursor) : Lexeme :=
  match cursor.rest with
  | _ :: c :: _ =>
    if isIdentifierStart c then
      let name := cursor.skip 1
      { kind := .privateIdentifier, next := identifierEnd .outside name.pos name.rest }
    else readMark cursor
  | _ => readMark cursor

/-- The token at a cursor that stands behind all trivia. -/
def read (cursor : Cursor) : Lexeme :=
  match cursor.rest with
  | [] => { kind := .endOfFile, next := cursor }
  | c :: cs =>
    if isIdentifierStart c || c = '\\' then readIdentifier cursor
    else if c.isDigit then readNumber cursor
    else if c = '"' || c = '\'' then readString c cursor
    else if c = '\x60' then readTemplateHead (cursor.skip 1)
    else if c = '.' && cs.head?.any Char.isDigit then readNumber cursor
    else if c = '#' then readHash cursor
    else readMark cursor

/-- The token at a cursor in a place for an attribute's value. -/
def readAttributeValue (cursor : Cursor) : Lexeme :=
  match cursor.rest with
  | c :: _ =>
    if c = '"' || c = '\'' then
      let body := cursor.skip 1
      let (next, unterminated) := attributeStringEnd c body.pos body.rest
      { kind := .stringLiteral, next, unterminated }
    else read cursor
  | [] => read cursor

/-- The token at a cursor between markup tags. -/
def readMarkup (cursor : Cursor) : Lexeme :=
  match cursor.rest with
  | [] => { kind := .endOfFile, next := cursor }
  | '<' :: '/' :: _ => { kind := .lessThanSlash, next := cursor.skip 2 }
  | '<' :: _ => { kind := .lessThan, next := cursor.skip 1 }
  | '{' :: _ => { kind := .openBrace, next := cursor.skip 1 }
  | _ => { kind := .jsxText, next := cursor.skipWhile fun c => c ≠ '{' && c ≠ '<' }

end Lexeme

/-- A scanner standing on a token. -/
structure Scanner where
  /-- The kind of the token. -/
  kind : TokenKind := .unknown
  /-- Where the trivia in front of the token starts. -/
  fullStart : Nat := 0
  /-- Where the token starts. -/
  start : Cursor
  /-- The place behind the token. -/
  stop : Cursor
  /-- Is there a line break between the token and the one before it? -/
  lineBreakBefore : Bool := false
  /-- Is the token a literal without its closing mark? -/
  unterminated : Bool := false
  deriving Repr, Inhabited

namespace Scanner

/-- A scanner in front of the first token. -/
def ofText (text : List Char) : Scanner :=
  { start := .ofText text, stop := .ofText text }

/-- The characters of the token. -/
def tokenText (s : Scanner) : List Char :=
  s.start.upTo s.stop.pos

/-- Moves to the token that a reader finds behind the trivia. -/
def advance (read : Cursor → Lexeme) (s : Scanner) : Scanner :=
  let (start, lineBreakBefore) := s.stop.toToken
  let lexeme := read start
  { kind := lexeme.kind
    fullStart := s.stop.pos
    start
    stop := lexeme.next
    lineBreakBefore
    unterminated := lexeme.unterminated }

/-- Moves to the next token. -/
def next (s : Scanner) : Scanner :=
  s.advance Lexeme.read

/-- Moves to the next token, in a place for an attribute's value. -/
def nextAttributeValue (s : Scanner) : Scanner :=
  s.advance Lexeme.readAttributeValue

/-- Moves to the next token between markup tags, where blanks are text. -/
def nextMarkup (s : Scanner) : Scanner :=
  let lexeme := Lexeme.readMarkup s.stop
  let text := s.stop.upTo lexeme.next.pos
  { kind := lexeme.kind
    fullStart := s.stop.pos
    start := s.stop
    stop := lexeme.next
    lineBreakBefore := text.any isLineBreak
    unterminated := false }

/-- What makes a longer mark of a `>` in front of it, and which one, longer ones first. -/
def greaterEndings : List (String × TokenKind) :=
  [(">>=", .greaterThanGreaterThanGreaterThanEquals), (">>", .greaterThanGreaterThanGreaterThan),
   (">=", .greaterThanGreaterThanEquals), (">", .greaterThanGreaterThan),
   ("=", .greaterThanEquals)]

/-- Joins a `>` with the `>` and `=` signs directly behind it. -/
def rescanGreater (s : Scanner) : Scanner :=
  if s.kind = .greaterThan then
    match greaterEndings.find? fun (ending, _) => ending.toList.isPrefixOf s.stop.rest with
    | some (ending, kind) => { s with kind, stop := s.stop.skip ending.toList.length }
    | none => s
  else s

/-- Reads a `/` or `/=` as the start of a regular expression. -/
def rescanSlash (s : Scanner) : Scanner :=
  if s.kind = .slash || s.kind = .slashEquals then
    let body := s.start.skip 1
    let (next, unterminated) := Cursor.regexEnd false body.pos body.rest
    { s with
      kind := .regularExpressionLiteral
      stop := next.skipWhile Cursor.isIdentifierPart
      unterminated := s.unterminated || unterminated }
  else s

/-- Reads a `}` as the end of a template's substitution. -/
def rescanTemplate (s : Scanner) : Scanner :=
  if s.kind = .closeBrace then
    let lexeme := Lexeme.readTemplateSpan (s.start.skip 1)
    { s with
      kind := lexeme.kind
      stop := lexeme.next
      unterminated := s.unterminated || lexeme.unterminated }
  else s

/-- Takes the hyphens and identifier characters directly behind a name into it. A keyword that is
made longer is a name. -/
def extendMarkupName (s : Scanner) : Scanner :=
  if s.kind = .identifier || s.kind.isKeywordToken then
    let stop := s.stop.skipWhile fun c => c = '-' || Cursor.isIdentifierPart c
    if stop.pos = s.stop.pos then s else { s with kind := .identifier, stop }
  else s

/-- All tokens of a text up to and including the end of the file, as `next` finds them. -/
def scanAll (text : List Char) : List Scanner :=
  go (text.length + 1) (ofText text)
where
  go : Nat → Scanner → List Scanner
    | 0, _ => []
    | fuel + 1, s =>
      let s := s.next
      if s.kind = .endOfFile then [s] else s :: go fuel s

end Scanner

end ExpectError
