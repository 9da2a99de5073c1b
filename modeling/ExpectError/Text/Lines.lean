import ExpectError.Text.LineStarts

/-!
# Lines, positions and ranges

Positions count lines from zero and columns in UTF-16 code units from zero; ranges, the unit in
which issues and syntax nodes are compared, count both from one.

* `LineMap`: a text together with its line starts, and the conversions between byte offsets and
  positions.
-/

namespace ExpectError.Text

/-- A place in a text: line and column, both from zero, the column in UTF-16 code units. -/
structure Position where
  line : Nat
  character : Nat
  deriving DecidableEq, Repr

/-- The lines and columns, both from one, at which a stretch of text starts and ends. -/
structure Range where
  startLine : Nat
  startCol : Nat
  endLine : Nat
  endCol : Nat
  deriving DecidableEq, Repr

/-- Looks for a value in an ascending list: the index at which it stands, or else (as an error) the
one at which it would have to be put. -/
def findAscending (value : Nat) (values : List Nat) : Except Nat Nat :=
  let place := values.countP (fun other => decide (other < value))
  if values[place]? = some value then .ok place else .error place

/-- A text with the offsets at which its lines start. -/
structure LineMap where
  text : List Char
  starts : List Nat
  starts_eq : starts = lineStarts text

namespace LineMap

/-- The line map of a text. -/
def ofText (text : List Char) : LineMap :=
  { text
    starts := startsInBytes (utf8Bytes text)
    starts_eq := by rw [startsInBytes, endsInBytes_utf8Bytes, lineStarts] }

theorem text_ofText (text : List Char) : (ofText text).text = text := rfl

theorem starts_ofText (text : List Char) : (ofText text).starts = lineStarts text :=
  (ofText text).starts_eq

/-- The line, from zero, of the character at a byte offset; the last line beyond the text. -/
def lineOf (map : LineMap) (offset : Nat) : Nat :=
  match findAscending offset map.starts with
  | .ok exact => exact
  | .error place => place - 1

/-- The offset at which the line of a byte offset starts. -/
def lineStartOf (map : LineMap) (offset : Nat) : Nat :=
  map.starts.getD (map.lineOf offset) 0

/-- The spaces and tabs in front of the line of a byte offset. -/
def indentationOf (map : LineMap) (offset : Nat) : List Char :=
  match splitAtByte? (map.lineStartOf offset) map.text with
  | some (_, rest) => rest.takeWhile fun c => c = ' ' || c = '\t'
  | none => []

/-- The position of a byte offset. An offset beyond the text counts the columns up to the end; one
inside a character is at column zero. -/
def positionOf (map : LineMap) (offset : Nat) : Position :=
  let stop := min offset (byteLength map.text)
  let start := min (map.lineStartOf offset) stop
  { line := map.lineOf offset
    character := unitLength ((slice? start stop map.text).getD []) }

/-- How many bytes the first `units` code units of a line take up. A character whose first unit is
inside counts whole, and the line's terminator never counts. -/
def columnBytes (units : Nat) : List Char → Nat
  | [] => 0
  | c :: cs =>
    if units = 0 || isLineBreak c then 0 else c.utf8Size + columnBytes (units - unitSize c) cs

/-- The byte offset of a position, if the text has that line. A column beyond the line's content
means its end. -/
def offsetOf? (map : LineMap) (position : Position) : Option Nat := do
  let start ← map.starts[position.line]?
  let stop := map.starts.getD (position.line + 1) (byteLength map.text)
  return start + columnBytes position.character ((slice? start stop map.text).getD [])

/-- The range from one byte offset to another. -/
def rangeOf (map : LineMap) (start stop : Nat) : Range :=
  let first := map.positionOf start
  let last := map.positionOf stop
  { startLine := first.line + 1
    startCol := first.character + 1
    endLine := last.line + 1
    endCol := last.character + 1 }

end LineMap

end ExpectError.Text
