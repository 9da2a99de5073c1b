import ExpectError.Diagnostic
import ExpectError.Project.Discovery
import ExpectError.Shell.Invocation
import ExpectError.Worker

/-!
# Type checkers

A type checker looks at a project in a tree of files and reports diagnostics. It may have a state of
its own from one check to the next, and it may change files.
-/

namespace ExpectError

/-- Why a check has no diagnostics to report. -/
inductive CheckError where
  /-- A reason in the checker's own words. -/
  | other (message : String)
  | noConfig (cause : FileError)
  | notRun (command : String) (cause : LaunchError)
  | exited (command : String) (status : Nat) (errors : String)
  | signalled (command : String)
  deriving DecidableEq, Repr

/-- The words of an error, followed by those of its cause. -/
def CheckError.chain : CheckError → List String
  | .other message => [message]
  | .noConfig cause => ["failed to create generated tsconfig", cause.message]
  | .notRun command cause => [s!"failed to run type checker '{command}'", cause.message]
  | .exited command status errors =>
    [s!"type checker '{command}' exited with status {status}: {errors}"]
  | .signalled command => [s!"type checker '{command}' was terminated by a signal"]

/-- What a check leaves behind. -/
structure Checked (σ : Type) where
  ending : Worker.Ending CheckError (List Diagnostic)
  state : σ
  tree : FileTree

/-- A type checker with a state. -/
abbrev Checker (σ : Type) := Project → σ → FileTree → Checked σ

end ExpectError
