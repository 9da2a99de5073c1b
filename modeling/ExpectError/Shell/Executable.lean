import ExpectError.Shell.Builtins
import ExpectError.Shell.Expansion

/-!
# Commands by their names

A name stands for a command of the shell itself, for a function or for a program. Programs are
looked up in folders. A file with a script says in its first line what runs it.

* `RunLine`: the first line of a script;
* `State.search`: the path name of a program;
* `State.spawn`: the state that a new process starts in.
-/

namespace ExpectError.Shell

/-- The first line of a file that says what runs it. -/
structure RunLine where
  program : Octets
  argument : Option Octets
  deriving DecidableEq, Repr

/-- How much of a file is looked at for its first line. -/
def RunLine.limit : Nat := 254

/-- The first line of a file. All that follows the program is one argument. -/
def RunLine.ofContent? (content : Octets) : Option RunLine :=
  match content with
  | '#' :: '!' :: rest =>
    let isBlank (c : Char) := c = ' ' || c = '\t'
    let line := (rest.take RunLine.limit).takeWhile (· ≠ '\n')
    let line := ((line.dropWhile isBlank).reverse.dropWhile isBlank).reverse
    let program := line.takeWhile fun c => !isBlank c
    let argument := (line.drop program.length).dropWhile isBlank
    if program.isEmpty then none
    else some { program, argument := if argument.isEmpty then none else some argument }
  | _ => none

/-- The folders with the programs that are always there. -/
def programFolders : List Octets :=
  ["/usr/bin/".toList, "/bin/".toList]

/-- The name of a program that is always there, by its path name. -/
def installedName? (path : Octets) : Option Octets :=
  (programFolders.find? (·.isPrefixOf path)).map fun folder => path.drop folder.length

/-- The folders in which programs are looked up if nothing else is said. -/
def defaultFolders : Octets :=
  "/usr/local/sbin:/usr/local/bin:/usr/sbin:/usr/bin:/sbin:/bin".toList

/-- The result of looking for a program. -/
inductive Search where
  | found (path : Octets)
  /-- Something is there that cannot be run. -/
  | denied
  | missing
  deriving DecidableEq, Repr

namespace State

/-- The path names that a name alone can stand for. -/
def candidates (s : State) (name : Octets) : List Octets :=
  let folders := (s.value? "PATH".toList).getD defaultFolders
  (Text.fields ':' folders).map fun folder =>
    if folder.isEmpty then name else folder ++ '/' :: name

/-- Looks for a program by its name, given the names of those that are always there. -/
def search (s : State) (isInstalled : Octets → Bool) (name : Octets) : Search :=
  if name.contains '/' then .found name
  else go (s.candidates name) .missing
where
  /-- The first path name with a program. -/
  go : List Octets → Search → Search
    | [], otherwise => otherwise
    | path :: rest, otherwise =>
      if ((installedName? path).map isInstalled).getD false then .found path
      else
        match s.tree.resolve (s.path path) with
        | .ok (_, .file _ true) => .found path
        | .ok _ => go rest .denied
        | .error _ => go rest otherwise

/-- The state that a new process starts in. -/
def spawn (s : State) : State :=
  { world := { s.world with nextProcess := s.world.nextProcess + 1 }
    folder := s.folder
    channels := s.channels
    name := s.name
    bindings := s.bindings.filter fun binding => binding.exported && binding.value.isSome
    traps := s.traps.filter (·.action.isEmpty)
    process := s.world.nextProcess
    parent := s.process }

/-- The variables that every shell starts with. -/
def withDefaults (s : State) : State :=
  let s := s.assign "IFS".toList [' ', '\t', '\n']
  let s := s.assign "OPTIND".toList ['1']
  let s := s.assign "PPID".toList (.ofNat s.parent)
  let s := s.assign "PS1".toList ['#', ' ']
  let s := s.assign "PS2".toList ['>', ' ']
  let s := s.assign "PS4".toList ['+', ' ']
  let s := s.assign "PWD".toList (.ofText s.folder.text)
  if (s.value? "PATH".toList).isSome then s else s.assign "PATH".toList defaultFolders

end State

/-- The words that begin or end parts of commands. -/
def keywords : List String :=
  ["if", "then", "elif", "else", "fi", "!", "\x7b", "\x7d", "for", "while", "until", "do", "done",
    "case", "esac", "in"]

/-- What a name stands for. -/
inductive Meaning where
  | keyword
  /-- A command of the shell whose failure ends the script. -/
  | special
  | function (body : Command)
  | builtin
  | program (path : Octets)
  | denied
  | missing

/-- The commands of the shell that run other commands and end the script if they fail. -/
def specialRunners : List String := ["eval", ".", "exec"]

/-- The other commands of the shell that run or look up other commands. -/
def plainRunners : List String := ["command", "type"]

/-- What a name stands for, with or without functions. -/
def State.meaning (s : State) (isInstalled : Octets → Bool) (functions : Bool) (name : Octets) :
    Meaning :=
  let word := String.ofList name
  if specialRunners.contains word || (specialBuiltins.lookup word).isSome then .special
  else
    match if functions then s.functions.lookup name else none with
    | some body => .function body
    | none =>
      if plainRunners.contains word || (plainBuiltins.lookup word).isSome then .builtin
      else
        match s.search isInstalled name with
        | .found path => .program path
        | .denied => .denied
        | .missing => .missing

/-- What is said about a name. -/
def Meaning.text (name : Octets) : Meaning → Octets
  | .keyword => name ++ " is a shell keyword".toList
  | .special => name ++ " is a special shell builtin".toList
  | .function _ => name ++ " is a shell function".toList
  | .builtin => name ++ " is a shell builtin".toList
  | .program path => name ++ " is ".toList ++ path
  | .denied | .missing => name ++ ": not found".toList

end ExpectError.Shell
