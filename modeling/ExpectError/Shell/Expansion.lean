import ExpectError.Shell.Arithmetic
import ExpectError.Shell.Pattern
import ExpectError.Shell.State

/-!
# Expansion

What a word stands for. The values of parameters, the output of scripts and the values of arithmetic
are put in place of pieces; what is not quoted of them is split into fields; and fields that are
patterns are replaced by the files that they fit.

* `expandFields`: the fields of a word;
* `expandText`: a word as one text, without splitting;
* `expandPattern`: a word as a pattern.
-/

namespace ExpectError.Shell

/-- What the text of a script, from a given line on, does to a state. -/
abbrev Interpreter := Octets → Nat → State → State

/-! ### Parameters -/

namespace State

/-- The value of a parameter; nothing if it is not set. -/
def parameter? (s : State) (name : Octets) : Option Octets :=
  match name with
  | ['?'] => some (.ofNat s.status)
  | ['#'] => some (.ofNat s.parameters.length)
  | ['$'] => some (.ofNat s.process)
  | ['!'] => s.jobs.head?.map fun (process, _) => .ofNat process
  | ['-'] => some s.options
  | ['0'] => some s.name
  | _ =>
    match Octets.nat? name with
    | some 0 => some s.name
    | some (n + 1) => s.parameters[n]?
    | none => s.value? name

/-- A shell of its own for a part of a script. -/
def child (s : State) : State :=
  { s with
    traps := s.traps.filter (·.action.isEmpty)
    loops := 0
    isPart := true
    leaving := none }

end State

/-! ### Items -/

/-- An item of what a word stands for, before it is split. -/
inductive Item where
  /-- A byte, and whether fields are split at it. -/
  | byte (c : Char) (quoted splits : Bool)
  /-- Quotes; they make a field even if nothing is in them. -/
  | mark
  /-- The end of a field. -/
  | gap
  /-- No field at all, in spite of quotes. -/
  | void
  deriving DecidableEq, Repr

namespace Item

/-- The items of a value. -/
def ofValue (quoted : Bool) (value : Octets) : List Item :=
  value.map fun c => .byte c quoted !quoted

/-- The items of values that are fields of their own. -/
def ofValues (quoted : Bool) (values : List Octets) : List Item :=
  match values with
  | [] => if quoted then [.void] else []
  | _ =>
    let items := values.map fun value =>
      if quoted then .mark :: ofValue true value else ofValue false value
    [Item.gap].intercalate items

/-- The bytes of items, with marks. Fields are joined by a blank. -/
def marked (items : List Item) : List Marked :=
  items.filterMap fun
    | .byte c quoted _ => some (c, quoted)
    | .gap => some (' ', true)
    | _ => none

/-- The bytes of items. -/
def text (items : List Item) : Octets :=
  (marked items).map (·.1)

end Item

/-- The fields of a word so far, the last one first, and the one that is not complete. -/
structure Fields where
  done : List (List Marked) := []
  /-- The field that is not complete, its last byte first. -/
  current : Option (List Marked) := none
  /-- Has the last field been ended by a blank only? -/
  blank : Bool := false
  deriving DecidableEq, Repr

namespace Fields

/-- Completes the field, if there is one. -/
def close (fields : Fields) : Fields :=
  match fields.current with
  | none => fields
  | some field => { fields with done := field.reverse :: fields.done, current := none }

/-- Adds an item. -/
def add (separators : Octets) (fields : Fields) : Item → Fields
  | .byte c quoted splits =>
    if splits && separators.contains c then
      if c = ' ' || c = '\t' || c = '\n' then
        { fields.close with blank := fields.blank || fields.current.isSome }
      else if fields.current.isSome then { fields.close with blank := false }
      else if fields.blank then { fields with blank := false }
      else { fields with done := [] :: fields.done }
    else
      { fields with current := some ((c, quoted) :: fields.current.getD []), blank := false }
  | .mark => { fields with current := some (fields.current.getD []), blank := false }
  | .gap => { fields.close with blank := false }
  | .void => if fields.current = some [] then { fields with current := none } else fields

/-- The fields of items. -/
def ofItems (separators : Octets) (items : List Item) : List (List Marked) :=
  (items.foldl (add separators) {}).close.done.reverse

end Fields

/-! ### Files -/

/-- The parts of a field between slashes. -/
def components (field : List Marked) : List (List Marked) :=
  match field with
  | [] => [[]]
  | (c, quoted) :: rest =>
    if c = '/' then [] :: components rest
    else
      match components rest with
      | [] => [[(c, quoted)]]
      | part :: parts => ((c, quoted) :: part) :: parts

/-- The path names that parts fit, behind a given front. -/
def filesFrom (s : State) (front : Octets) : List (List Marked) → List Octets
  | [] => []
  | part :: parts =>
    let pattern := Pattern.ofText part
    let names :=
      if pattern.isOpen then
        let folder := if front.isEmpty then s.folder else s.path front
        (s.namesIn folder).filter fun name =>
          (name.head? ≠ some '.' || part.head?.map (·.1) = some '.') && pattern.accepts name
      else [part.map (·.1)]
    names.flatMap fun name =>
      let path := front ++ name
      if parts.isEmpty then if s.tree.has (s.path path) then [path] else []
      else if pattern.isOpen && !s.tree.isFolder (s.path path) then []
      else filesFrom s (path ++ ['/']) parts

/-- A field without the backslashes that stand in front of other bytes. -/
def plainText (field : List Marked) : Octets :=
  field.map (·.1)

/-- The files that a field fits; the field itself if it fits none. -/
def expandFiles (s : State) (field : List Marked) : List Octets :=
  if s.has 'f' || !(Pattern.ofText field).isOpen then [plainText field]
  else
    match filesFrom s [] (components field) with
    | [] => [plainText field]
    | files => files

/-! ### Words -/

/-- The word with the home folder in place of a tilde at its front. -/
def expandTilde (s : State) (word : Word) : Word :=
  match word with
  | .char '~' false :: rest =>
    match rest, s.value? "HOME".toList with
    | [], some home => Word.ofText home true
    | .char '/' _ :: _, some home => Word.ofText home true ++ rest
    | _, _ => word
  | _ => word

/-- What a script writes, without the line ends behind it, and the state after it. -/
def substitute (interpret : Interpreter) (script : Octets) (line : Nat) (s : State) :
    Octets × State :=
  let (number, world) := s.world.openFile { medium := .buffer [] }
  let after := interpret script line ({ s.child with world }.lead 1 number)
  let text := (after.world.left number).filter (· ≠ '\x00')
  let s' := s.afterChild after
  ((text.reverse.dropWhile (· = '\n')).reverse,
    { s' with status := s.status, substituted := some s'.status })

/-- The words about an error in arithmetic. -/
def arithmeticMessage (text : Octets) : ArithmeticError → Octets
  | .notRead expected =>
    "arithmetic expression: expecting ".toList ++ expected.text.toList ++ ": \"".toList ++ text
      ++ ['"']
  | .divisionByZero => "arithmetic expression: division by zero: \"".toList ++ text ++ ['"']
  | .badNumber number => "Illegal number: ".toList ++ number

/-- The value of arithmetic, and the state with what it has assigned. -/
def calculate (text : Octets) (s : State) : Octets × State :=
  let result := do
    match Expression.ofText text with
    | .error expected => throw (ArithmeticError.notRead expected)
    | .ok e => e.value s.value? []
  match result with
  | .error e => ([], s.abort (arithmeticMessage text e))
  | .ok (n, assigned) =>
    let s := assigned.reverse.foldl (fun s (name, n) => s.set name (.ofInt n)) s
    (.ofInt n, s)

/-- Is a value one that another word is put in place of? -/
def isMissing (colon : Bool) : Option Octets → Bool
  | none => true
  | some value => colon && value.isEmpty

/-- The values of all parameters of a script, as one text. -/
def joinedParameters (s : State) : Octets :=
  let separator := match s.value? "IFS".toList with
    | none => [' ']
    | some separators => separators.take 1
  separator.intercalate s.parameters

/-- Refuses a parameter that is not set. -/
def refuseUnset (s : State) (name : Octets) : State :=
  s.abort (name ++ ": parameter not set".toList)

mutual

/-- The items that pieces stand for. -/
def expandPieces (interpret : Interpreter) : Nat → Word → State → List Item × State
  | 0, _, s => ([], s)
  | _, [], s => ([], s)
  | n + 1, piece :: rest, s =>
    let (items, s) := expandPiece interpret n piece s
    if s.leaving.isSome then (items, s)
    else
      let (more, s) := expandPieces interpret n rest s
      (items ++ more, s)

/-- The items that a piece stands for. -/
def expandPiece (interpret : Interpreter) : Nat → Piece → State → List Item × State
  | 0, _, s => ([], s)
  | _, .char c quoted, s => ([.byte c quoted false], s)
  | _, .mark, s => ([.mark], s)
  | _, .command script line quoted, s =>
    let (text, s) := substitute interpret script line s
    (Item.ofValue quoted text, s)
  | n + 1, .arithmetic expression quoted, s =>
    let (items, s) := expandPieces interpret n expression s
    if s.leaving.isSome then ([], s)
    else
      let (value, s) := calculate (Item.text items) s
      (Item.ofValue quoted value, s)
  | n + 1, .parameter name use word quoted, s =>
    let isAll := name = ['@'] || name = ['*']
    let value := if isAll then (if s.parameters.isEmpty then none else some (joinedParameters s))
      else s.parameter? name
    let ofValue : List Item :=
      if name = ['@'] || (name = ['*'] && !quoted) then Item.ofValues quoted s.parameters
      else Item.ofValue quoted (value.getD [])
    let strict := s.has 'u' && !isAll && value.isNone && name ≠ ['!']
    let given (text : Octets) := Item.ofValue quoted text
    match use with
    | .plain => if strict then ([], refuseUnset s name) else (ofValue, s)
    | .length =>
      if strict then ([], refuseUnset s name)
      else (given (.ofNat (value.getD []).length), s)
    | .orElse colon =>
      if isMissing colon value then expandOther interpret n word quoted s else (ofValue, s)
    | .andThen colon =>
      if isMissing colon value then ([], s) else expandOther interpret n word quoted s
    | .orAssign colon =>
      if !isMissing colon value then (ofValue, s)
      else
        let (items, s) := expandPieces interpret n (expandTilde s word) s
        if s.leaving.isSome then ([], s)
        else if !isName name then ([], s.abort (name ++ ": bad variable name".toList))
        else
          let text := Item.text items
          (given text, s.set name text)
    | .orFail colon =>
      if !isMissing colon value then (ofValue, s)
      else
        let (items, s) := expandPieces interpret n word s
        if s.leaving.isSome then ([], s)
        else
          let text := Item.text items
          let reason :=
            if !word.isEmpty then text
            else if colon then "parameter not set or null".toList
            else "parameter not set".toList
          ([], s.abort (name ++ ": ".toList ++ reason))
    | .dropEnd longest =>
      if strict then ([], refuseUnset s name)
      else
        let (items, s) := expandPieces interpret n word s
        let pattern := Pattern.ofText (Item.marked items)
        (given (pattern.dropEnd longest (value.getD [])), s)
    | .dropFront longest =>
      if strict then ([], refuseUnset s name)
      else
        let (items, s) := expandPieces interpret n word s
        let pattern := Pattern.ofText (Item.marked items)
        (given (pattern.dropFront longest (value.getD [])), s)
    | .bad => ([], s.abort "Bad substitution".toList)

/-- The items of the word in place of a value: what is not quoted of it is split. -/
def expandOther (interpret : Interpreter) : Nat → Word → Bool → State → List Item × State
  | 0, _, _, s => ([], s)
  | n + 1, word, quoted, s =>
    let word := if quoted then word else expandTilde s word
    let (items, s) := expandPieces interpret n word s
    let items := items.map fun
      | .byte c false false => .byte c false true
      | item => item
    (items, s)

end

/-- How deep words can be inside one another. -/
def maxNesting : Nat := 100000

/-- The items that a word stands for. -/
def expandItems (interpret : Interpreter) (word : Word) (s : State) : List Item × State :=
  let word := expandTilde s word
  expandPieces interpret (maxNesting + word.length) word s

/-- The fields that a word stands for. -/
def expandFields (interpret : Interpreter) (word : Word) (s : State) : List Octets × State :=
  let (items, s) := expandItems interpret word s
  if s.leaving.isSome then ([], s)
  else ((Fields.ofItems s.separators items).flatMap (expandFiles s), s)

/-- The fields that words stand for. -/
def expandAll (interpret : Interpreter) : List Word → State → List Octets × State
  | [], s => ([], s)
  | word :: rest, s =>
    let (fields, s) := expandFields interpret word s
    if s.leaving.isSome then ([], s)
    else
      let (more, s) := expandAll interpret rest s
      (fields ++ more, s)

/-- A word as one text. -/
def expandText (interpret : Interpreter) (word : Word) (s : State) : Octets × State :=
  let (items, s) := expandItems interpret word s
  (Item.text items, s)

/-- A word as a pattern. -/
def expandPattern (interpret : Interpreter) (word : Word) (s : State) : Pattern × State :=
  let (items, s) := expandItems interpret word s
  (Pattern.ofText (Item.marked items), s)

end ExpectError.Shell
