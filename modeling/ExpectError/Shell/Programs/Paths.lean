import ExpectError.Shell.Programs.Files

/-!
# Programs for path names

The parts of path names, and the files in folders.
-/

namespace ExpectError.Shell

namespace Program

/-- The line that refers to more words about a program. -/
def hint (program : String) : Octets :=
  "\nTry '".toList ++ program.toList ++ " --help' for more information.".toList

/-- Drops slashes from the end of a path name. -/
def trimSlashes (file : Octets) : Octets :=
  (file.reverse.dropWhile (· = '/')).reverse

/-- The path name of the folder that a path name is in. -/
def folderOf (file : Octets) : Octets :=
  let trimmed := trimSlashes file
  if trimmed.isEmpty then if file.isEmpty then ['.'] else ['/']
  else
    let name := trimmed.reverse.takeWhile (· ≠ '/')
    if name.length = trimmed.length then ['.']
    else
      let front := trimSlashes (trimmed.take (trimmed.length - name.length))
      if front.isEmpty then ['/'] else front

/-- The last name of a path name, without a given end. -/
def nameOf (file ending : Octets) : Octets :=
  let trimmed := trimSlashes file
  if trimmed.isEmpty then if file.isEmpty then [] else ['/']
  else
    let name := lastName trimmed
    if !ending.isEmpty && ending ≠ name && ending.isSuffixOf name then
      name.take (name.length - ending.length)
    else name

/-- Writes the folders of path names. -/
def dirname : Program := fun arguments s =>
  let (_, files) := splitOptions arguments
  if files.isEmpty then s.complain ("dirname: missing operand".toList ++ hint "dirname") 1
  else (s.print (Octets.ofLines (files.map folderOf))).done 0

/-- Writes the last names of path names. -/
def basename : Program := fun arguments s =>
  let written (lines : List Octets) := (s.print (Octets.ofLines lines)).done 0
  match arguments.filter (· ≠ ['-', '-']) with
  | ['-', 'a'] :: files => written (files.map (nameOf · []))
  | ['-', 's'] :: ending :: files => written (files.map (nameOf · ending))
  | [file] => written [nameOf file []]
  | [file, ending] => written [nameOf file ending]
  | [] => s.complain ("basename: missing operand".toList ++ hint "basename") 1
  | _ :: _ :: extra :: _ =>
    s.complain ("basename: extra operand ".toList ++ quoted extra ++ hint "basename") 1

/-- Writes the folder. -/
def pwd : Program := fun _ s =>
  (s.print (Octets.ofText s.folder.text ++ ['\n'])).done 0

/-- Writes the one path name of each file. -/
def realpath : Program := fun arguments s =>
  let (letters, files) := splitOptions arguments
  if files.isEmpty then s.complain ("realpath: missing operand".toList ++ hint "realpath") 1
  else
    files.foldl (fun s file =>
      match if file.isEmpty then .error .notFound else s.tree.locate (s.path file) with
      | .error e => s.complain (about "realpath" file e) 1
      | .ok names =>
        if letters.contains 'e' && (s.tree.find? names).isNone then
          s.complain (about "realpath" file .notFound) 1
        else s.print (Octets.ofText (FileTree.pathOf names).text ++ ['\n'])) (s.done 0)

/-- Writes where links lead. As there are none, nothing is written unless whole path names are asked
for. -/
def readlink : Program := fun arguments s =>
  let (letters, files) := splitOptions arguments
  if files.isEmpty then s.complain ("readlink: missing operand".toList ++ hint "readlink") 1
  else if ['f', 'e', 'm'].any letters.contains then
    files.foldl (fun s file =>
      match if file.isEmpty then .error .notFound else s.tree.locate (s.path file) with
      | .error _ => s.done 1
      | .ok names =>
        if letters.contains 'e' && (s.tree.find? names).isNone then s.done 1
        else s.print (Octets.ofText (FileTree.pathOf names).text ++ ['\n'])) (s.done 0)
  else s.done 1

/-- The names in a folder that are listed. -/
def listedNames (letters : List Char) (file : Octets) (s : State) : List Octets :=
  let names := s.namesIn (s.path file)
  let shown := names.filter fun name =>
    letters.contains 'a' || letters.contains 'A' || name.head? ≠ some '.'
  let shown := if letters.contains 'a' then ['.'] :: ['.', '.'] :: shown else shown
  if letters.contains 'r' then shown.reverse else shown

/-- Lists files and what is in folders. -/
def ls : Program := fun arguments s =>
  let (letters, operands) := splitOptions arguments
  let operands := if operands.isEmpty then [['.']] else operands
  let missing := operands.filter fun file => !s.tree.has (s.path file)
  let isFolder (file : Octets) : Bool := !letters.contains 'd' && s.tree.isFolder (s.path file)
  let present := (operands.filter fun file => s.tree.has (s.path file)).mergeSort
    fun a b => !decide (b < a)
  let files := present.filter (!isFolder ·)
  let folders := present.filter isFolder
  let s := missing.foldl (fun s file =>
    s.complain ("ls: cannot access ".toList ++ quoted file ++ ": No such file or directory".toList)
      2) (s.done 0)
  let blocks := folders.map fun folder =>
    let names := Octets.ofLines (listedNames letters folder s)
    if operands.length = 1 then names else folder ++ ":\n".toList ++ names
  let blocks := if files.isEmpty then blocks else Octets.ofLines files :: blocks
  s.print (['\n'].intercalate blocks)

end Program

end ExpectError.Shell
