/-!
# What the passes did

The counts that each pass reports when it is done.
-/

namespace ExpectError

/-- How many files each outcome of the structural pass had. -/
structure Structural.Summary where
  /-- Files that were annotated. -/
  ok : Nat := 0
  /-- Files that stayed as they were. -/
  nochange : Nat := 0
  /-- Files without issues, and files that are no source files. -/
  skip : Nat := 0
  /-- Files that could not be read, annotated or written. -/
  error : Nat := 0
  deriving DecidableEq, Repr

/-- What the offset pass did. -/
structure Offset.Summary where
  filesModified : Nat := 0
  /-- The diagnostics with a file and a start. -/
  issues : Nat := 0
  deriving DecidableEq, Repr

end ExpectError
