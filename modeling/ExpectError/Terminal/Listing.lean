import ExpectError.Issue
import ExpectError.Json.Value

/-!
# Issues as JSON
-/

namespace ExpectError

open Json (Value)

/-- An issue as a JSON object. -/
def Issue.json (issue : Issue) : Value :=
  .object
    [("startLine", .nat issue.range.startLine), ("startCol", .nat issue.range.startCol),
      ("endLine", .nat issue.range.endLine), ("endCol", .nat issue.range.endCol),
      ("code", .nat issue.code), ("message", .string issue.message)]

/-- Issues by file as a JSON array, in the order of the files. -/
def IssuesByFile.json (groups : IssuesByFile) : Value :=
  .array (groups.files.map fun (path, issues) =>
    .object [("filePath", .string path), ("issues", .array (issues.map Issue.json))])

/-- All issues with their number as a JSON object. -/
def Reduced.json (reduced : Reduced) : Value :=
  .object [("totalIssues", .nat reduced.totalIssues), ("issuesPerFile", reduced.issues.json)]

end ExpectError
