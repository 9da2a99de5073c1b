import ExpectError.Shell.Interpreter

/-!
# Programs that are run from outside

A program is named by a path name or by a name alone. It runs in a folder of a tree of files and
leaves the tree as it has changed it, with what it wrote and how it ended.
-/

namespace ExpectError

/-- A program with its arguments and the folder to run it in. -/
structure Invocation where
  program : List Char
  arguments : List (List Char)
  folder : Pathname
  deriving DecidableEq, Repr

/-- Why a program does not run at all. -/
inductive LaunchError where
  | file (cause : FileError)
  /-- An argument cannot be passed on. -/
  | badArgument
  deriving DecidableEq, Repr

/-- The words of an error. -/
def LaunchError.message : LaunchError → String
  | .file cause => cause.message
  | .badArgument => "nul byte found in provided data"

/-- What a program leaves behind. -/
structure Finished where
  ending : Shell.Ending
  output : List UInt8 := []
  errors : List UInt8 := []
  deriving DecidableEq, Repr

/-- A way to run programs. -/
abbrev Launcher := Invocation → FileTree → Except LaunchError Finished × FileTree

namespace Shell

/-- How many steps into one another, or one after another in a loop, scripts can take. -/
def maxSteps : Nat := 1000000

/-- The variables that programs get from outside. -/
def inherited : List Binding :=
  [{ name := "PATH".toList, value := some defaultFolders, exported := true },
    { name := "HOME".toList, value := some "/root".toList, exported := true }]

/-- The state that a program starts in: nothing to read, and one open file for each of the output
and the errors. -/
def startState (i : Invocation) (tree : FileTree) : State :=
  { world :=
      { tree
        opened := [{ medium := .nowhere }, { medium := .buffer [] }, { medium := .buffer [] }] }
    folder := i.folder
    channels := [(0, 0), (1, 1), (2, 2)]
    name := .ofText i.program
    bindings := inherited }

/-- The state after a program. -/
def stateAfter (i : Invocation) (s : State) : Except FileError State :=
  let words := (i.program :: i.arguments).map Octets.ofText
  match s.search isInstalled (.ofText i.program) with
  | .missing => .error .notFound
  | .denied => .error .denied
  | .found path => runFile maxSteps path words s

/-- What was written to an open file. -/
def State.written (s : State) (number : Nat) : List UInt8 :=
  match s.world.opened[number]? with
  | some file => (s.world.content file).toBytes
  | none => []

/-- Runs a program whose scripts are interpreted in the tree of files. -/
def launch : Launcher := fun i tree =>
  if (i.program :: i.arguments).any (·.contains '\x00') then (.error .badArgument, tree)
  else
    match stateAfter i (startState i tree) with
    | .error e => (.error (.file e), tree)
    | .ok after =>
      (.ok { ending := after.ending, output := after.written 1, errors := after.written 2 },
        after.tree)

end Shell

end ExpectError
