import ExpectError.Annotate
import ExpectError.Files.FileTree
import ExpectError.Outcome

/-!
# The passes over files

Both passes read files, annotate them and write those that changed.

* `Structural.run`: every listed file with issues; a file that fails only counts as an error;
* `Offset.run`: every file with diagnostics, in the order of their names; the first failure ends the
  pass, and what was written before stays.
-/

namespace ExpectError

/-- The endings of the files that are annotated. -/
def supportedExtensions : List String := ["mjs", "cjs", "js", "ts", "jsx", "tsx", "mts", "cts"]

/-- Does a file have the ending of a source file? -/
def isSupported (file : String) : Bool :=
  (Pathname.ofString file).extension?.any supportedExtensions.contains

namespace Structural

/-- What became of a file. -/
inductive FileOutcome where
  | ok
  | nochange
  | skip
  | error
  deriving DecidableEq, Repr

/-- Counts an outcome. -/
def Summary.record (summary : Summary) : FileOutcome → Summary
  | .ok => { summary with ok := summary.ok + 1 }
  | .nochange => { summary with nochange := summary.nochange + 1 }
  | .skip => { summary with skip := summary.skip + 1 }
  | .error => { summary with error := summary.error + 1 }

/-- Annotates a file for its issues. -/
def annotateFile (tree : FileTree) (file : String) (issues : List Issue) :
    FileTree × FileOutcome :=
  match tree.readText (.ofString file) with
  | .error _ => (tree, .error)
  | .ok source =>
    match annotate file source issues with
    | .error _ => (tree, .error)
    | .ok output =>
      if output = source then (tree, .nochange)
      else
        match tree.writeText (.ofString file) output with
        | .error _ => (tree, .error)
        | .ok tree => (tree, .ok)

/-- Handles one file of the list. -/
def runFile (groups : IssuesByFile) (tree : FileTree) (file : String) : FileTree × FileOutcome :=
  if isSupported file then
    match groups.get? file with
    | some issues => annotateFile tree file issues
    | none => (tree, .skip)
  else (tree, .skip)

/-- Handles the files of a list. -/
def run (groups : IssuesByFile) : FileTree → List String → FileTree × Summary
  | tree, files =>
    files.foldl (fun (tree, summary) file =>
      let (tree, outcome) := runFile groups tree file
      (tree, summary.record outcome)) (tree, {})

end Structural

namespace Offset

/-- Why the pass ended early. -/
inductive Failure where
  | unreadable (file : String) (cause : FileError)
  | unwritable (file : String) (cause : FileError)
  /-- The grammar never gets through the text. This is no answer of the program, which does not
  return then, but the mark of a missing one. -/
  | endless (file : String)
  deriving DecidableEq, Repr

/-- The words of a failure, followed by those of its cause. -/
def Failure.chain : Failure → List String
  | .unreadable file cause => [s!"failed to read {file}", cause.message]
  | .unwritable file cause => [s!"failed to write {file}", cause.message]
  | .endless file => [s!"failed to read {file}", "the syntax of the text cannot be determined"]

/-- The diagnostics with a file and a start, in order. -/
def located (diagnostics : List Diagnostic) : List (String × Mark) :=
  diagnostics.filterMap fun d =>
    d.location?.map fun (file, start) => (file, { start, code := d.code })

/-- The files of some diagnostics, each once, in the order of their names. -/
def filesOf (marks : List (String × Mark)) : List String :=
  ((marks.map (·.1)).eraseDups).mergeSort fun a b => decide (a ≤ b)

/-- The diagnostics of a file, in order. -/
def marksOf (marks : List (String × Mark)) (file : String) : List Mark :=
  (marks.filter fun (f, _) => f = file).map (·.2)

/-- Annotates a file, and says whether it changed. -/
def annotateFile (tree : FileTree) (file : String) (marks : List Mark) :
    Except Failure (FileTree × Bool) :=
  match tree.readText (.ofString file) with
  | .error cause => .error (.unreadable file cause)
  | .ok source =>
    match annotate? file source marks with
    | none => .error (.endless file)
    | some output =>
      if output = source then .ok (tree, false)
      else
        match tree.writeText (.ofString file) output with
        | .error cause => .error (.unwritable file cause)
        | .ok tree => .ok (tree, true)

/-- Handles files one after another, and counts those that changed. Files that are no source files
stay as they are. -/
def runFiles (marks : List (String × Mark)) : FileTree → Nat → List String →
    FileTree × Except Failure Nat
  | tree, modified, [] => (tree, .ok modified)
  | tree, modified, file :: rest =>
    if isSupported file then
      match annotateFile tree file (marksOf marks file) with
      | .error failure => (tree, .error failure)
      | .ok (tree, changed) => runFiles marks tree (if changed then modified + 1 else modified) rest
    else runFiles marks tree modified rest

/-- Annotates the files of a list of diagnostics. -/
def run (tree : FileTree) (diagnostics : List Diagnostic) : FileTree × Except Failure Summary :=
  let marks := located diagnostics
  let (tree, modified) := runFiles marks tree 0 (filesOf marks)
  (tree, modified.map fun filesModified => { filesModified, issues := marks.length })

end Offset

end ExpectError
