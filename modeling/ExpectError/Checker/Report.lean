import ExpectError.Diagnostic
import ExpectError.Text.Blank
import ExpectError.Text.Fields
import ExpectError.Text.Lines
import ExpectError.Text.Numeric

/-!
# Reports of the type checker

A report shows, for each diagnostic, a header with its position, the lines of its message, and the
lines of code that it is about with a row of tildes below them:

    src/a.ts:3:7 - error TS2322: Type 'string' is not assignable to type 'number'.

    3 const x: number = "a";
            ~

The header gives the start, and the tildes below the last line of code give the end. Related places
and the summary behind the diagnostics are passed over.

* `stripEscapes`: a text without the escape sequences that colour it;
* `Reported.ofReport`: the diagnostics of a report.
-/

namespace ExpectError

open Text (Position)

/-- Does a character end an escape sequence? -/
def endsSequence (c : Char) : Bool :=
  '\x40' ≤ c && c ≤ '\x7e'

/-- Removes the escape sequences of a text that begins inside one or outside. -/
def stripEscapesFrom : Bool → List Char → List Char
  | _, [] => []
  | true, c :: cs => stripEscapesFrom (!endsSequence c) cs
  | false, '\x1b' :: '[' :: cs => stripEscapesFrom true cs
  | false, '\x1b' :: cs => stripEscapesFrom false cs
  | false, c :: cs => c :: stripEscapesFrom false cs

/-- A text without escape sequences. The escape character goes away by itself too. -/
def stripEscapes (cs : List Char) : List Char :=
  stripEscapesFrom false cs

/-- A diagnostic as a report shows it. -/
structure Reported where
  file : Option String := none
  start : Option Position := none
  stop : Option Position := none
  category : Category
  code : Nat
  message : String
  deriving DecidableEq, Repr

namespace Reported

/-! ### Headers -/

/-- The words for the categories. -/
def categories : List (String × Category) :=
  [("error", .error), ("warning", .warning), ("suggestion", .suggestion), ("message", .message)]

/-- Takes a text off the front. -/
def dropFront? (front : String) (cs : List Char) : Option (List Char) :=
  if front.toList.isPrefixOf cs then some (cs.drop front.toList.length) else none

/-- At least one decimal digit of any script. -/
def takeDigits? (cs : List Char) : Option (List Char × List Char) :=
  match cs.takeWhile Text.isDecimalDigit with
  | [] => none
  | digits => some (digits, cs.dropWhile Text.isDecimalDigit)

/-- The category in front of a text. -/
def takeCategory? (cs : List Char) : Option (Category × List Char) :=
  categories.findSome? fun (word, category) =>
    (dropFront? word cs).map fun rest => (category, rest)

/-- The value of digits that are all ASCII digits, if 32 bits hold it. -/
def value? (digits : List Char) : Option Nat :=
  let value := digits.foldl (fun value c => value * 10 + (c.toNat - '0'.toNat)) 0
  if digits.all Char.isDigit && value ≤ Diagnostic.maxOffset then some value else none

/-- What stands in a header behind the position. -/
structure Title where
  category : Category
  code : List Char
  message : List Char

/-- The category, the code and the first line of the message. -/
def title? (cs : List Char) : Option Title := do
  let (category, cs) ← takeCategory? cs
  let cs ← dropFront? " TS" cs
  let (code, cs) ← takeDigits? cs
  let message ← dropFront? ": " cs
  return { category, code, message }

/-- What stands in a header behind the file. -/
structure Place where
  line : List Char
  column : List Char
  title : Title

/-- The line, the column and the title. -/
def place? (cs : List Char) : Option Place := do
  let cs ← dropFront? ":" cs
  let (line, cs) ← takeDigits? cs
  let cs ← dropFront? ":" cs
  let (column, cs) ← takeDigits? cs
  let cs ← dropFront? " - " cs
  return { line, column, title := ← title? cs }

/-- The longest file name in front of a place, and the place. -/
def fileAndPlace? (file : List Char) : List Char → Option (List Char × Place)
  | [] => none
  | c :: cs =>
    match fileAndPlace? (c :: file) cs with
    | some found => some found
    | none =>
      if file.isEmpty then none else (place? (c :: cs)).map fun place => (file.reverse, place)

/-- The header of a diagnostic about no file. -/
def ofTitle? (title : Title) : Option Reported := do
  return { category := title.category
           code := ← value? title.code
           message := String.ofList title.message }

/-- The header of a diagnostic about a place in a file. Lines and columns are counted from one. -/
def ofPlace? (file : List Char) (place : Place) : Option Reported := do
  let line ← value? place.line
  let column ← value? place.column
  if line = 0 || column = 0 then none
  else
    return { ← ofTitle? place.title with
      file := some (String.ofList file)
      start := some { line := line - 1, character := column - 1 } }

/-- The diagnostic that a line is the header of. -/
def ofHeader? (line : List Char) : Option Reported :=
  match title? line with
  | some title => ofTitle? title
  | none => do
    let (file, place) ← fileAndPlace? [] line
    ofPlace? file place

/-! ### Below the header -/

/-- Where in the report of a diagnostic a line stands. -/
inductive Section where
  /-- In the message. -/
  | message
  /-- In the lines of code. -/
  | snippet
  /-- Behind them. -/
  | trailer
  deriving DecidableEq, Repr

/-- A diagnostic whose report is being read. -/
structure Pending where
  reported : Reported
  part : Section := .message
  /-- How many bytes the line numbers take up. -/
  gutter : Option Nat := none
  /-- The number of the last line of code, counted from one, as far as 32 bits hold it. -/
  lineNumber : Option Nat := none
  /-- Does the row below the last line of code follow? -/
  awaitsRow : Bool := false
  deriving DecidableEq, Repr

/-- The diagnostic when its report ends: without tildes it ends where it starts. -/
def Pending.finish (p : Pending) : Reported :=
  { p.reported with stop := p.reported.stop <|> p.reported.start }

/-- The row of tildes of a line: what stands behind the gutter and one more byte. -/
def rowOf (gutter : Nat) (line : List Char) : List Char :=
  ((Text.splitAtByte? (gutter + 1) line).map (·.2)).getD []

/-- The place behind the last tilde of a row. -/
def lastTilde? (row : List Char) : Option Nat :=
  let behind := row.reverse.takeWhile (· ≠ '~')
  if behind.length = row.length then none else some (row.length - behind.length)

/-- The end that a row gives. A row without tildes belongs to an empty line. -/
def endOf (start : Option Position) (lineNumber : Nat) (row : List Char) : Option Position :=
  let line := lineNumber - 1
  match lastTilde? row with
  | some column => some { line, character := column }
  | none => if start.any (·.line = line) then start else some { line, character := 0 }

/-- Takes a line of code into account, or the row below it; nothing if the line is neither. -/
def Pending.snippetLine? (p : Pending) (line : List Char) : Option Pending :=
  let trimmed := Text.trimLeft line
  let digits := trimmed.takeWhile Char.isDigit
  let behind := trimmed.dropWhile Char.isDigit
  if !digits.isEmpty && (behind.isEmpty || behind.head? = some ' ') then
    some { p with
      gutter := some (Text.byteLength line - Text.byteLength trimmed + digits.length)
      lineNumber := value? digits
      awaitsRow := true }
  else
    match p.gutter with
    | none => none
    | some gutter =>
      if trimmed.take 3 = ['.', '.', '.'] then some { p with awaitsRow := false }
      else
        let row := rowOf gutter line
        if row.all fun c => c = ' ' || c = '~' then
          match p.lineNumber with
          | none => some { p with awaitsRow := false }
          | some number =>
            some { p with
              awaitsRow := false
              reported := { p.reported with stop := endOf p.reported.start number row } }
        else none

/-- A line of the message, or the blank line that ends it. -/
def Pending.messageLine (p : Pending) (line : List Char) : Pending :=
  if Text.allBlank line then
    { p with part := if p.reported.file.isSome then .snippet else .trailer }
  else
    { p with reported :=
        { p.reported with message := p.reported.message ++ "\n" ++ String.ofList line } }

/-- Takes a line into account; nothing if the line may be the header of the next diagnostic. -/
def Pending.step? (p : Pending) (line : List Char) : Option Pending :=
  match p.part with
  | .message => some (p.messageLine line)
  | .snippet =>
    if Text.allBlank line && !p.awaitsRow then
      some (if p.gutter.isSome then { p with part := .trailer } else p)
    else p.snippetLine? line
  | .trailer => none

/-- The diagnostics of some lines, behind those of a diagnostic that is being read. -/
def ofLines : Option Pending → List (List Char) → List Reported
  | pending, [] => (pending.map Pending.finish).toList
  | none, line :: lines => ofLines ((ofHeader? line).map fun reported => { reported }) lines
  | some p, line :: lines =>
    match p.step? line with
    | some p => ofLines (some p) lines
    | none =>
      match ofHeader? line with
      | some reported => p.finish :: ofLines (some { reported }) lines
      | none => ofLines (some { p with part := .trailer }) lines

/-- The diagnostics of a report without escape sequences. -/
def ofReport (report : List Char) : List Reported :=
  ofLines none (Text.lines report)

end Reported

end ExpectError
