/-!
# Diagnostics

What the type checker reports: a message with its code and, if it is about a file, the bytes of that
file which it is about.
-/

namespace ExpectError

/-- How serious a diagnostic is. -/
inductive Category where
  | warning
  | error
  | suggestion
  | message
  deriving DecidableEq, Repr

/-- A report of the type checker. File and start are missing if it is about no source file, for
instance about the configuration. -/
structure Diagnostic where
  file : Option String := none
  /-- Byte offset of the first character. -/
  start : Option Nat := none
  /-- Number of bytes. -/
  length : Option Nat := none
  message : String
  category : Category := .error
  code : Nat
  deriving DecidableEq, Repr

namespace Diagnostic

/-- The largest offset; offsets are 32 bits wide. -/
def maxOffset : Nat := 4294967295

/-- The file and the start, if the diagnostic has both. -/
def location? (d : Diagnostic) : Option (String × Nat) := do
  let file ← d.file
  let start ← d.start
  return (file, start)

/-- The offset just after the last character: the start if no length is given, and never more than
the largest offset. -/
def stop? (d : Diagnostic) : Option Nat :=
  d.start.map fun start => min (start + d.length.getD 0) maxOffset

end Diagnostic

end ExpectError
