import ExpectError.Files.FileTree

/-!
# What can be wrong with a project
-/

namespace ExpectError

/-- Why there is no project. -/
inductive ProjectError where
  | noConfig
  | configNotFound (path : Pathname)
  | configNotFile (path : Pathname)
  | unreadable (path : Pathname) (cause : FileError)
  | malformed (path : Pathname)
  | noFolder
  | cycle (path : Pathname)
  | unresolvedBase (specifier : String) (path : Pathname)
  | fileNotFound (file : String)
  | badInclude (pattern : String)
  | badExclude (pattern : String)
  deriving DecidableEq, Repr

/-- The words of an error, followed by those of its causes. -/
def ProjectError.chain : ProjectError → List String
  | .noConfig => ["Could not find a valid 'tsconfig.json'."]
  | .configNotFound path => [s!"tsconfig not found at {path.display}"]
  | .configNotFile path => [s!"project path is not a file: {path.display}"]
  | .unreadable path cause => [s!"failed to read tsconfig: {path.display}", cause.message]
  | .malformed path =>
    [s!"failed to parse tsconfig: {path.display}", "failed to parse tsconfig JSON"]
  | .noFolder => ["tsconfig has no parent directory"]
  | .cycle path => [s!"tsconfig extends cycle detected at {path.display}"]
  | .unresolvedBase specifier path =>
    [s!"cannot resolve extended tsconfig '{specifier}' from {path.display}"]
  | .fileNotFound file => [s!"file '{file}' listed in tsconfig 'files' not found"]
  | .badInclude pattern => [s!"invalid include pattern '{pattern}'"]
  | .badExclude pattern => [s!"invalid exclude pattern '{pattern}'"]

end ExpectError
