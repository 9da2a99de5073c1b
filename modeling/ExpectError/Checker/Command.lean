import ExpectError.Checker.Basic
import ExpectError.Checker.Offsets
import ExpectError.Json.Value
import ExpectError.Shell.Quote

/-!
# Type checkers that are commands

The command runs in the project's folder with a configuration that lists exactly the files of the
project, and its report is read. The configuration is a file that exists only while the command
runs.

* `invocation`: how the command is called;
* `generatedConfig`: the configuration that it gets;
* `Checker.ofCommand`: the whole check.
-/

namespace ExpectError

namespace Checker

/-- The options of the command in front of the path of the configuration. -/
def options : List (List Char) :=
  ["--noEmit".toList, "--pretty".toList, "true".toList, "-p".toList]

/-- The line that a shell runs for a command with arguments. -/
def shellLine (command : List Char) (config : Pathname) : List Char :=
  [' '].intercalate (command :: options ++ [Shell.quote config.text])

/-- How a command is called. One with arguments of its own goes through a shell. -/
def invocation (command : String) (folder config : Pathname) : Invocation :=
  let program := Text.trim command.toList
  if program.contains ' ' then
    { program := "sh".toList
      arguments := ["-c".toList, shellLine command.toList config]
      folder }
  else { program, arguments := options ++ [config.text], folder }

/-- A configuration that takes everything from that of the project and lists its files. -/
def generatedConfig (project : Project) : Json.Value :=
  .object
    [("extends", .string project.configPath.display),
      ("compilerOptions", .object [("noEmit", .bool true)]),
      ("files", .array (project.files.map fun file => .string file.display)),
      ("include", .array [])]

/-- The path of a generated configuration, by its number. -/
def configPath (folder : Pathname) (number : Nat) : Pathname :=
  folder.join (.ofString s!"tsconfig.ratchet.{number}.json")

/-- The first number from a given one on whose path is free, among so many. -/
def freeNumber (tree : FileTree) (folder : Pathname) : Nat → Nat → Nat
  | 0, number => number
  | tries + 1, number =>
    if tree.has (configPath folder number) then freeNumber tree folder tries (number + 1)
    else number

/-- A path for the generated configuration at which there is nothing yet. -/
def freePath (tree : FileTree) (folder : Pathname) : Pathname :=
  configPath folder (freeNumber tree folder (tree.entries.length + 1) 0)

/-- Removes a file, if it is there. -/
def remove (tree : FileTree) (path : Pathname) : FileTree :=
  match tree.resolve path with
  | .ok (names, .file _ _) => tree.erase names
  | _ => tree

/-- The diagnostics of a report that was made in a folder. -/
def diagnosticsOf (tree : FileTree) (folder : Pathname) (report : List UInt8) : List Diagnostic :=
  let reported := Reported.ofReport (stripEscapes (Text.lenient report))
  Reported.resolve (fun path => (tree.readText path).toOption) folder reported

/-- What a command has reported, by how it ended. Statuses up to two mean that there is a report. -/
def reportOf (command : String) (tree : FileTree) (folder : Pathname) (finished : Finished) :
    Worker.Ending CheckError (List Diagnostic) :=
  match finished.ending with
  | .signalled _ => .failed (.signalled command)
  | .exited status =>
    if status ≤ 2 then .returned (diagnosticsOf tree folder finished.output)
    else
      let errors := Text.trim (Text.lenient finished.errors)
      .failed (.exited command status (String.ofList errors))

/-- The checker that runs a command. A project without files needs no check. -/
def ofCommand (launch : Launcher) (command : String) : Checker Unit := fun project _ tree =>
  if project.files.isEmpty then { ending := .returned [], state := (), tree }
  else
    let config := freePath tree project.root
    match tree.writeText config (generatedConfig project).pretty with
    | .error cause => { ending := .failed (.noConfig cause), state := (), tree }
    | .ok prepared =>
      let (result, after) := launch (invocation command project.root config) prepared
      let ending :=
        match result with
        | .error cause => .failed (.notRun command cause)
        | .ok finished => reportOf command after project.root finished
      { ending, state := (), tree := remove after config }

end Checker

end ExpectError
