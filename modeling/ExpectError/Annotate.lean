import ExpectError.Directive
import ExpectError.Insertion
import ExpectError.Issue
import ExpectError.Placement

/-!
# Annotating a source text

The two ways to put expect-error directives into a text. Both only insert, so every character of the
source is kept.

* `Structural.annotate`: an issue is matched with the outermost syntax node that has exactly its
  range, and the directive goes in front of that node;
* `Offset.annotate?`: the directive goes above the line of the first token that stops behind the
  start of a diagnostic.
-/

namespace ExpectError

open Text (LineMap Range)

namespace Structural

/-- Why a text is not annotated. -/
inductive Failure where
  /-- It has syntax errors: the first one, and how many there are. -/
  | syntaxErrors (count : Nat) (first : Grammar.SyntaxError)
  /-- The grammar never gets through it. This is no answer of the program, which does not return
  then, but the mark of a missing one. -/
  | endless
  deriving DecidableEq, Repr

/-- The words of a failure. -/
def Failure.message : Failure → String
  | .syntaxErrors count first =>
    s!"{count} syntax error(s), first at offset {first.start}: {first.problem.message}"
  | .endless => "the syntax of the text cannot be determined"

/-- The nodes of a file with their ancestors and their ranges, parents in front of their
children. -/
def nodesByRange (file : SourceFile) : List (Range × Tree.Path) :=
  let map := LineMap.ofText file.text
  file.tree.paths.map fun path => (map.rangeOf path.node.start path.node.stop, path)

/-- The outermost node with a given range. -/
def nodeAt? (nodes : List (Range × Tree.Path)) (range : Range) : Option Tree.Path :=
  nodes.lookup range

/-- The comment of a placement. -/
def commentOf (code : Nat) : Placement → String
  | .leadingComment _ => Directive.lineComment code .structural
  | .markupSibling _ => Directive.markupComment code

/-- The insertion of one directive: the comment, a line feed and the indentation of the line. -/
def insertionOf (map : LineMap) (code : Nat) (placement : Placement) : Insertion :=
  let pos := placement.anchor.start
  { pos, text := commentOf code placement ++ "\n" ++ String.ofList (map.indentationOf pos) }

/-- The insertion that an issue asks for, if a node has its range. -/
def insertionFor? (file : SourceFile) (map : LineMap) (nodes : List (Range × Tree.Path))
    (issue : Issue) : Option Insertion := do
  let node ← nodeAt? nodes issue.range
  let placement ← placementOf? file node
  return insertionOf map issue.code placement

/-- Adds words behind those that already stand at the same offset. -/
def attach (insertion : Insertion) : List Insertion → List Insertion
  | [] => [insertion]
  | first :: rest =>
    if first.pos = insertion.pos then { first with text := first.text ++ insertion.text } :: rest
    else first :: attach insertion rest

/-- The insertions for a list of issues, one for each offset; words for the same offset keep the
order of their issues. -/
def plan (file : SourceFile) (issues : List Issue) : List Insertion :=
  let map := LineMap.ofText file.text
  let nodes := nodesByRange file
  (issues.filterMap (insertionFor? file map nodes)).foldl (fun done next => attach next done) []

/-- A text with the directives for a list of issues. Issues that no node matches are left out. -/
def annotate (fileName source : String) (issues : List Issue) : Except Failure String :=
  match SourceFile.read? (.ofFileName fileName) source.toList with
  | none => .error .endless
  | some file =>
    match file.errors with
    | first :: others => .error (.syntaxErrors (others.length + 1) first)
    | [] => .ok (Insertion.applyAll source (plan file issues))

section

variable {fileName source : String} {file : SourceFile} (issues : List Issue)

-- The definition is opened by `delta`: to generate its equation, the reading would be evaluated.
theorem annotate_of_clean
    (hread : SourceFile.read? (.ofFileName fileName) source.toList = some file)
    (hclean : file.errors = []) :
    annotate fileName source issues = .ok (Insertion.applyAll source (plan file issues)) := by
  delta annotate
  simp only [hread, hclean]

theorem annotate_of_errors {first : Grammar.SyntaxError} {others : List Grammar.SyntaxError}
    (hread : SourceFile.read? (.ofFileName fileName) source.toList = some file)
    (herrors : file.errors = first :: others) :
    annotate fileName source issues = .error (.syntaxErrors (others.length + 1) first) := by
  delta annotate
  simp only [hread, herrors]

theorem annotate_of_endless
    (hread : SourceFile.read? (.ofFileName fileName) source.toList = none) :
    annotate fileName source issues = .error .endless := by
  delta annotate
  simp only [hread]

end

end Structural

namespace Offset

/-- The start of a diagnostic and its code. -/
structure Mark where
  start : Nat
  code : Nat
  deriving DecidableEq, Repr

/-- The insertion for one diagnostic: a line of its own, indented like the line below it. -/
def insertionFor? (file : SourceFile) (map : LineMap) (mark : Mark) : Option Insertion := do
  let token ← file.tokenAt? mark.start
  return { pos := map.lineStartOf token.start
           text := String.ofList (map.indentationOf token.start)
             ++ Directive.lineComment mark.code .offset ++ "\n" }

/-- The insertions for a list of diagnostics, in their order. A diagnostic behind the last token is
left out. -/
def plan (file : SourceFile) (marks : List Mark) : List Insertion :=
  marks.filterMap (insertionFor? file (LineMap.ofText file.text))

/-- A text with the directives for a list of diagnostics; nothing if the grammar never gets through
the text. -/
def annotate? (fileName source : String) (marks : List Mark) : Option String := do
  let file ← SourceFile.read? (.ofFileName fileName) source.toList
  return Insertion.applyAll source (plan file marks)

end Offset

end ExpectError
