import ExpectError.Diagnostic
import ExpectError.Text.Lines

/-!
# Issues

A diagnostic put into lines and columns. Issues are grouped by file: files stand in the order in
which they were first reported, and a file's issues in the order in which they were reported. Two
issues are never merged.
-/

namespace ExpectError

open Text (LineMap Range)

/-- An error code with its message and the range that it is about. -/
structure Issue where
  range : Range
  code : Nat
  message : String
  deriving DecidableEq, Repr

/-- Issues by file, in the order in which the files were first seen. -/
structure IssuesByFile where
  files : List (String × List Issue) := []
  deriving DecidableEq, Repr

namespace IssuesByFile

/-- Adds an issue at the end of its file's group, or opens a group at the end. -/
def pushTo (path : String) (issue : Issue) :
    List (String × List Issue) → List (String × List Issue)
  | [] => [(path, [issue])]
  | (p, issues) :: rest =>
    if p = path then (p, issues ++ [issue]) :: rest else (p, issues) :: pushTo path issue rest

/-- Adds an issue to its file. -/
def push (groups : IssuesByFile) (path : String) (issue : Issue) : IssuesByFile :=
  { files := pushTo path issue groups.files }

/-- The issues of a file, if there are any. -/
def get? (groups : IssuesByFile) (path : String) : Option (List Issue) :=
  groups.files.lookup path

/-- The files in first-seen order. -/
def paths (groups : IssuesByFile) : List String :=
  groups.files.map (·.1)

/-- The number of files. -/
def size (groups : IssuesByFile) : Nat :=
  groups.files.length

/-- Is there no file? -/
def isEmpty (groups : IssuesByFile) : Bool :=
  groups.files.isEmpty

/-- The number of issues in all files. -/
def issueCount (groups : IssuesByFile) : Nat :=
  (groups.files.map (·.2.length)).foldr (· + ·) 0

end IssuesByFile

/-- The issues of a check, grouped by file, with their number. -/
structure Reduced where
  totalIssues : Nat := 0
  issues : IssuesByFile := {}
  deriving DecidableEq, Repr

namespace Reduced

/-- The files with issues, in first-seen order. -/
def paths (reduced : Reduced) : List String :=
  reduced.issues.paths

/-- The issue of a located diagnostic in a text. -/
def issueOf (map : LineMap) (start : Nat) (d : Diagnostic) : Issue :=
  { range := map.rangeOf start (d.stop?.getD start)
    code := d.code
    message := d.message }

/-- What has been read and grouped so far. -/
structure Progress where
  /-- The texts asked for, each once, in the order asked; `none` if it could not be read. -/
  sources : List (String × Option LineMap) := []
  reduced : Reduced := {}

section

variable {m : Type → Type} [Monad m]

/-- Asks for a file's text unless it has been asked for already. Asking can have effects. -/
def Progress.source (ask : String → m (Option String)) (progress : Progress) (file : String) :
    m (Option LineMap × Progress) :=
  match progress.sources.lookup file with
  | some source => pure (source, progress)
  | none => do
    let text ← ask file
    let source := text.map fun text => LineMap.ofText text.toList
    return (source, { progress with sources := progress.sources ++ [(file, source)] })

/-- Takes one diagnostic into account. One without a file or a start, or in a file that cannot be
read, adds no issue. -/
def Progress.step (ask : String → m (Option String)) (progress : Progress) (d : Diagnostic) :
    m Progress :=
  match d.location? with
  | none => pure progress
  | some (file, start) => do
    match ← progress.source ask file with
    | (none, progress) => return progress
    | (some map, progress) =>
      return { progress with
        reduced :=
          { totalIssues := progress.reduced.totalIssues + 1
            issues := progress.reduced.issues.push file (issueOf map start d) } }

/-- Groups diagnostics by file, and lists the files that were asked for. -/
def gather (ask : String → m (Option String)) (diagnostics : List Diagnostic) : m Progress :=
  diagnostics.foldlM (Progress.step ask) {}

end

/-- Groups diagnostics by file, where asking for a text has no effects. -/
def collect (read : String → Option String) (diagnostics : List Diagnostic) : Progress :=
  Id.run (gather (fun file => pure (read file)) diagnostics)

/-- The issues of a list of diagnostics, each file read once. -/
def ofDiagnostics (read : String → Option String) (diagnostics : List Diagnostic) : Reduced :=
  (collect read diagnostics).reduced

/-- The files that grouping a list of diagnostics asks for, in order. -/
def reads (read : String → Option String) (diagnostics : List Diagnostic) : List String :=
  (collect read diagnostics).sources.map (·.1)

end Reduced

end ExpectError
