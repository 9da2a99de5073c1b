import ExpectError.Checker.Command
import ExpectError.Run

/-!
# The command line

Reads the files around the current folder into a tree, makes a run in it, and writes back the files
that the run has changed. The command of the checker is run by interpreting its script in the tree.
-/

namespace ExpectError.Main

/-- The names in a path name. -/
def namesOf (path : String) : Names :=
  (Text.fields '/' path.toList).filter fun name => !name.isEmpty

/-- Adds the folders on the way to a list of names. -/
def withFolders (tree : FileTree) (names : Names) : FileTree :=
  (FileTree.fronts names).foldl (fun tree front => tree.put front .folder) tree

/-- Does the content of a file begin like a script? -/
def looksExecutable (content : List UInt8) : Bool :=
  content.take 2 = [35, 33]

/-- The tree with everything in a folder added. Of packages only the configurations are read. -/
partial def addFolder (folder : String) (isPackage : Bool) (tree : FileTree) : IO FileTree := do
  let mut tree := withFolders tree (namesOf folder)
  for entry in ← ((← IO.currentDir) / folder).readDir do
    let path := s!"{folder}/{entry.fileName}"
    match (← entry.path.metadata).type with
    | .dir => tree ← addFolder path (isPackage || entry.fileName = "node_modules") tree
    | .file =>
      if !isPackage || entry.fileName.endsWith ".json" then
        let content := (← IO.FS.readBinFile path).toList
        tree := tree.put (namesOf path) (.file content (looksExecutable content))
    | _ => pure ()
  return tree

/-- The folder to read: the nearest one around a folder that holds a configuration. -/
def folderToRead (folder : Pathname) : IO Pathname := do
  for candidate in folder.ancestors do
    let path := (candidate.join Config.fileName).display
    if ← ((← IO.currentDir) / path).pathExists then return candidate
  return folder

/-- The files that a run may need, seen from a folder. -/
def readFiles (args : Arguments) (folder : Pathname) : IO FileTree := do
  let asked := folder.join (.ofString (args.project.getD ""))
  let tree ← addFolder (← folderToRead folder).display false {}
  match args.project, asked.parent? with
  | some _, some around =>
    let start := if ← ((← IO.currentDir) / asked.display).isDir then asked else around
    if ← ((← IO.currentDir) / start.display).isDir then addFolder start.display false tree
    else return tree
  | _, _ => return tree

/-- Writes back the files that differ from one tree to another, and removes those that are gone. -/
def writeFiles (before after : FileTree) : IO Unit := do
  for (names, entry) in before.entries do
    if entry ≠ .folder && (after.find? names).isNone then
      IO.FS.removeFile (FileTree.pathOf names).display
  for (names, entry) in after.entries do
    match entry with
    | .folder => pure ()
    | .file content _ =>
      let path := (FileTree.pathOf names).display
      match before.find? names with
      | some (.file old _) =>
        if old ≠ content then IO.FS.writeBinFile path ⟨content.toArray⟩
      | _ => IO.FS.writeBinFile path ⟨content.toArray⟩

/-- Has a run come to its end because there was nothing more to read? -/
def wantsAnswer (ended : RunEnd Unit) : Bool :=
  match ended.outcome with
  | .ok .declined => ended.output.endsWith "\n"
  | _ => false

/-- Makes a run with one more line of answers as long as it wants one, and shows its output as it
grows. -/
partial def converse (start : List UInt8 → RunEnd Unit) (shown : Nat) (input : List UInt8) :
    IO (RunEnd Unit) := do
  let ended := start input
  let stdout ← IO.getStdout
  let fresh := ended.output.toList.drop shown
  if wantsAnswer ended then
    stdout.putStr (String.ofList fresh.dropLast)
    stdout.flush
    let line ← (← IO.getStdin).getLine
    if line.isEmpty then
      stdout.putStr "\n"
      return ended
    converse start (shown + fresh.length - 1) (input ++ line.toUTF8.toList)
  else
    stdout.putStr (String.ofList fresh)
    return ended

/-- A run for some arguments, and its status. -/
def runFor (args : Arguments) : IO UInt32 := do
  let folder := Pathname.ofString (← IO.currentDir).toString
  let tree ← readFiles args folder
  let checker := Checker.ofCommand Shell.launch args.checker
  let color := !args.noColor && (← (← IO.getStdout).isTty)
  let ended ← converse (fun input => run args folder checker color input () tree) 0 []
  writeFiles tree ended.tree
  match ended.outcome with
  | .ok _ => return 0
  | .error e =>
    IO.eprintln ("Error: " ++ "\n\nCaused by:\n    ".intercalate e.chain)
    return 1

/-- The words about arguments that cannot be used. -/
def refusalText : Arguments.Refusal → String
  | .unknownArgument => "error: unexpected argument found"
  | .missingRequiredArgument => "error: a required argument was not provided"
  | .argumentConflict => "error: an argument cannot be used with another one"
  | .invalidValue => "error: a value is required for an argument"
  | .tooManyValues => "error: an unexpected value was found for an argument"
  | .displayHelp =>
    "Usage: [-p PATH] [-y] [--tsc COMMAND] [--no-structural] [--no-offset] [--dry-run [--json]] "
      ++ "[--no-color]"
  | .displayVersion => "0.1.0"

end ExpectError.Main

open ExpectError in
/-- Annotates the project of the current folder. -/
def main (arguments : List String) : IO UInt32 := do
  match Arguments.read arguments with
  | .ok args => Main.runFor args
  | .error refusal =>
    let text := Main.refusalText refusal
    if refusal = .displayHelp || refusal = .displayVersion then
      IO.println text
      return 0
    else
      IO.eprintln text
      return 2
