import ExpectError.Text.Blank

/-!
# JSON with comments and trailing commas

Comments are removed, except for the line feeds that end them or lie in them; a comma in front of a
closing bracket is removed too. Strings stay as they are.
-/

namespace ExpectError.Json

/-- What a character of a text is part of. -/
inductive Zone where
  | code
  /-- A string; the flag tells whether a backslash stands in front. -/
  | string (isEscaped : Bool)
  | lineComment
  | blockComment
  deriving DecidableEq, Repr

/-- The zone behind a character of a string. -/
def Zone.inString (isEscaped : Bool) (c : Char) : Zone :=
  if isEscaped then .string false
  else if c = '\\' then .string true
  else if c = '"' then .code
  else .string false

/-- The zone behind a character outside strings and comments. -/
def Zone.inCode (c : Char) : Zone :=
  if c = '"' then .string false else .code

/-- Removes the comments of a text that begins in a given zone. -/
def stripFrom : Zone → List Char → List Char
  | _, [] => []
  | .lineComment, c :: cs =>
    if c = '\n' then c :: stripFrom .code cs else stripFrom .lineComment cs
  | .blockComment, '*' :: '/' :: cs => stripFrom .code cs
  | .blockComment, c :: cs =>
    if c = '\n' then c :: stripFrom .blockComment cs else stripFrom .blockComment cs
  | .string isEscaped, c :: cs => c :: stripFrom (.inString isEscaped c) cs
  | .code, '/' :: '/' :: cs => stripFrom .lineComment cs
  | .code, '/' :: '*' :: cs => stripFrom .blockComment cs
  | .code, c :: cs => c :: stripFrom (.inCode c) cs

/-- A text without its comments. -/
def stripComments (cs : List Char) : List Char :=
  stripFrom .code cs

/-- Does a closing bracket follow, behind blanks? -/
def closesNext (cs : List Char) : Bool :=
  match Text.trimLeft cs with
  | c :: _ => c = ']' || c = '\x7d'
  | [] => false

/-- Removes the commas in front of closing brackets, in a text that begins inside a string or
outside. -/
def dropCommasFrom : Zone → List Char → List Char
  | _, [] => []
  | .string isEscaped, c :: cs => c :: dropCommasFrom (.inString isEscaped c) cs
  | _, c :: cs =>
    if c = ',' && closesNext cs then dropCommasFrom .code cs
    else c :: dropCommasFrom (.inCode c) cs

/-- A text without the commas in front of closing brackets. -/
def dropTrailingCommas (cs : List Char) : List Char :=
  dropCommasFrom .code cs

end ExpectError.Json
