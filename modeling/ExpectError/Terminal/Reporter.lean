import ExpectError.Issue
import ExpectError.Outcome
import ExpectError.Terminal.Style

/-!
# Status lines and listings

What the terminal shows of each step, and the sentences that sum up its result.
-/

namespace ExpectError.Terminal

/-- Renders texts with colours or without. -/
structure Reporter where
  color : Bool
  deriving DecidableEq, Repr

namespace Reporter

/-- A text in a style, if there are colours. -/
def styled (reporter : Reporter) (style : Style) (text : String) : String :=
  if reporter.color then style.paint text else text

/-- A mark with the name of a step, and the detail indented below it. -/
def step (reporter : Reporter) (mark name detail : String) : String :=
  let arrow := reporter.styled .dimmed "↳"
  s!"{mark} {name}\n  {arrow} {detail}\n"

/-- A step that succeeded. -/
def stepOk (reporter : Reporter) (name detail : String) : String :=
  reporter.step (reporter.styled .boldGreen "✔") name detail

/-- A step that failed. -/
def stepFailed (reporter : Reporter) (name detail : String) : String :=
  reporter.step (reporter.styled .boldRed "✕") name detail

/-- A warning on a line of its own. -/
def warning (reporter : Reporter) (message : String) : String :=
  reporter.styled .yellow message ++ "\n"

/-- A closing remark on a line of its own. -/
def success (reporter : Reporter) (message : String) : String :=
  reporter.styled .boldGreen message ++ "\n"

/-- The row of one issue. -/
def issueRow (reporter : Reporter) (path : String) (issue : Issue) : String :=
  let location :=
    reporter.styled .cyan s!"{path}:{issue.range.startLine}:{issue.range.startCol}"
  let code := reporter.styled .brightBlack s!"TS{issue.code}"
  s!"{location} - {code}: {issue.message}\n"

/-- One row for each issue, file by file. -/
def issueRows (reporter : Reporter) (reduced : Reduced) : String :=
  String.join (reduced.issues.files.flatMap fun (path, issues) =>
    issues.map (reporter.issueRow path))

end Reporter

/-! ### Sentences -/

/-- A count with its noun. -/
def counted (count : Nat) (noun : String) : String :=
  if count = 1 then s!"{count} {noun}" else s!"{count} {noun}s"

/-- The verb that goes with a count. -/
def were (count : Nat) : String :=
  if count = 1 then "was" else "were"

/-- A number of issues. -/
def issues (count : Nat) : String := counted count "issue"

/-- A number of files. -/
def files (count : Nat) : String := counted count "file"

/-- A number of modifications. -/
def modifications (count : Nat) : String := counted count "modification"

/-- How many issues there are in how many files. -/
def foundMessage (reduced : Reduced) : String :=
  s!"Found {issues reduced.totalIssues} in {files reduced.issues.size}"

/-- A sentence, unless its count is zero. -/
def unlessZero (count : Nat) (sentence : String) : List String :=
  if count = 0 then [] else [sentence]

/-- The result of the structural pass; counts of zero are left out. -/
def structuralMessage (summary : Structural.Summary) : String :=
  let ok := summary.ok
  let skipped := summary.nochange + summary.skip
  let sentences :=
    unlessZero ok s!"{files ok} {were ok} successfully modified."
      ++ unlessZero skipped s!"{files skipped} {were skipped} skipped."
      ++ unlessZero summary.error s!"{modifications summary.error} failed."
  if sentences.isEmpty then "No files were modified." else " ".intercalate sentences

/-- The result of the offset pass. -/
def offsetMessage (summary : Offset.Summary) : String :=
  s!"Modified {files summary.filesModified} for {issues summary.issues} left."

end ExpectError.Terminal
