import ExpectError.Shell.Printing

/-!
# Programs for files

Programs that write, copy, move, make and remove files.
-/

namespace ExpectError.Shell

namespace Program

/-- A line about a file. -/
def about (program : String) (file : Octets) (e : FileError) : Octets :=
  program.toList ++ ": ".toList ++ file ++ ": ".toList ++ e.reason.toList

/-- A file name in quotes. -/
def quoted (file : Octets) : Octets :=
  '\'' :: file ++ ['\'']

/-- A line about a file that cannot be opened. -/
def cannotOpen (program verb : String) (file : Octets) (e : FileError) : Octets :=
  program.toList ++ ": ".toList ++ verb.toList ++ " '".toList ++ file ++ "' for reading: ".toList
    ++ e.reason.toList

/-- Is an argument an option? -/
def isOption (argument : Octets) : Bool :=
  argument.head? = some '-' && argument ≠ ['-']

/-- The letters of the options, and the other arguments. What is behind two dashes is no option. -/
def splitOptions : List Octets → List Char × List Octets
  | [] => ([], [])
  | ['-', '-'] :: rest => ([], rest)
  | argument :: rest =>
    let (letters, operands) := splitOptions rest
    if isOption argument then (argument.drop 1 ++ letters, operands)
    else (letters, argument :: operands)

/-- The contents of a file, or what is to be read. -/
def contents (file : Octets) (s : State) : Except FileError Octets × State :=
  if file = ['-'] || file = "/dev/stdin".toList then
    let (text, s) := s.readAll 0
    (.ok text, s)
  else if file = "/dev/null".toList then (.ok [], s)
  else
    match s.tree.readBytes (s.path file) with
    | .ok bytes => (.ok (.ofBytes bytes), s)
    | .error e => (.error e, s)

/-- The contents of files, or of what is to be read if there are none. Of the ones that cannot be
read, something is said. -/
def allContents (message : Octets → FileError → Octets) (files : List Octets) (s : State) :
    List (Octets × Octets) × State :=
  let files := if files.isEmpty then [['-']] else files
  let (found, s) := files.foldl (fun (found, s) file =>
    match contents file s with
    | (.ok text, s) => ((file, text) :: found, s)
    | (.error e, s) => (found, s.complain (message file e) 1))
    (([] : List (Octets × Octets)), s.done 0)
  (found.reverse, s)

/-- Numbers the lines of a text, from a given number on. -/
def numberLines (skipsBlank : Bool) : Nat → List Octets → List Octets
  | _, [] => []
  | n, line :: rest =>
    if skipsBlank && line.isEmpty then line :: numberLines skipsBlank n rest
    else
      let number := Octets.ofNat n
      (List.replicate (6 - number.length) ' ' ++ number ++ '\t' :: line)
        :: numberLines skipsBlank (n + 1) rest

/-- Shows ends of lines, tabs and other bytes that are not seen. -/
def visible (letters : List Char) (c : Char) : Octets :=
  if c = '\n' then if letters.contains 'E' then ['$', '\n'] else ['\n']
  else if c = '\t' then if letters.contains 'T' then ['^', 'I'] else [c]
  else if letters.contains 'v' then
    let plain (c : Char) : Octets :=
      if c < ' ' then ['^', Char.ofNat (c.toNat + 64)]
      else if c = '\x7f' then ['^', '?']
      else [c]
    if 128 ≤ c.toNat then 'M' :: '-' :: plain (Char.ofNat (c.toNat - 128)) else plain c
  else [c]

/-- Writes one file after another, or what is to be read. -/
def cat : Program := fun arguments s =>
  let (letters, files) := splitOptions arguments
  let letters := letters.flatMap fun
    | 'A' => ['v', 'E', 'T']
    | 'e' => ['v', 'E']
    | 't' => ['v', 'T']
    | c => [c]
  let shown (text : Octets) : Octets :=
    let text := if letters.contains 'v' || letters.contains 'E' || letters.contains 'T' then
        text.flatMap (visible letters)
      else text
    if letters.contains 'n' || letters.contains 'b' then
      let lines := numberLines (letters.contains 'b') 1 (Octets.lines text)
      let text' := Octets.ofLines lines
      if text.getLast? = some '\n' then text' else text'.dropLast
    else text
  let files := if files.isEmpty then [['-']] else files
  files.foldl (fun s file =>
    match contents file s with
    | (.ok text, s) => s.print (shown text)
    | (.error e, s) => s.complain (about "cat" file e) 1) (s.done 0)

/-! ### Copying and moving -/

/-- The last name of a path name. -/
def lastName (file : Octets) : Octets :=
  let trimmed := (file.reverse.dropWhile (· = '/')).reverse
  (trimmed.reverse.takeWhile (· ≠ '/')).reverse

/-- Where a file goes to: into a folder under its own name, or to the name itself. -/
def destination (s : State) (source target : Octets) : Octets :=
  if s.tree.isFolder (s.path target) then
    let front := if target.getLast? = some '/' then target else target ++ ['/']
    front ++ lastName source
  else target

/-- Everything at and below some names, moved to other names. -/
def copyBelow (tree : FileTree) (source target : Names) : FileTree :=
  let inside := tree.entries.filter fun (names, _) => source.isPrefixOf names
  inside.foldl (fun tree (names, entry) => tree.put (target ++ names.drop source.length) entry) tree

/-- Removes everything at and below some names. -/
def eraseBelow (tree : FileTree) (names : Names) : FileTree :=
  { entries := tree.entries.filter fun (n, _) => !names.isPrefixOf n
    readOnly := tree.readOnly.filter fun n => !names.isPrefixOf n }

/-- Copies a file, or a folder with everything in it. -/
def copyOne (program : String) (folders : Bool) (s : State) (source target : Octets) : State :=
  let name := program.toList
  match s.tree.resolve (s.path source) with
  | .error e =>
    s.complain
      (name ++ ": cannot stat ".toList ++ quoted source ++ ": ".toList ++ e.reason.toList) 1
  | .ok (old, entry) =>
    if entry = .folder && !folders then
      s.complain (name ++ ": -r not specified; omitting directory ".toList ++ quoted source) 1
    else
      let goal := destination s source target
      let refused (e : FileError) :=
        s.complain (name ++ ": cannot create regular file ".toList ++ quoted goal ++ ": ".toList
          ++ e.reason.toList) 1
      match s.tree.locate (s.path goal) with
      | .error e => refused e
      | .ok new =>
        if old = new then
          s.complain (name ++ ": ".toList ++ quoted source ++ " and ".toList ++ quoted goal
            ++ " are the same file".toList) 1
        else
          match entry, s.tree.find? new with
          | .folder, _ => s.withTree (copyBelow s.tree old new)
          | .file content _, some (.file _ executable) =>
            if s.tree.isWritable new then s.withTree (s.tree.put new (.file content executable))
            else refused .denied
          | entry, _ => s.withTree (s.tree.put new entry)

/-- Moves a file or a folder. -/
def moveOne (s : State) (source target : Octets) : State :=
  match s.tree.resolve (s.path source) with
  | .error e =>
    s.complain ("mv: cannot stat ".toList ++ quoted source ++ ": ".toList ++ e.reason.toList) 1
  | .ok (old, _) =>
    let goal := destination s source target
    match s.tree.locate (s.path goal) with
    | .error e =>
      s.complain ("mv: cannot move ".toList ++ quoted source ++ " to ".toList ++ quoted goal
        ++ ": ".toList ++ e.reason.toList) 1
    | .ok new =>
      if old = new then
        s.complain ("mv: ".toList ++ quoted source ++ " and ".toList ++ quoted goal
          ++ " are the same file".toList) 1
      else
        let copied := copyBelow (s.tree.erase new) old new
        s.withTree (eraseBelow copied old)

/-- Does something with sources and the target behind them. -/
def toTarget (program : String) (one : State → Octets → Octets → State) (operands : List Octets)
    (s : State) : State :=
  let name := program.toList
  let hint := "\nTry '".toList ++ name ++ " --help' for more information.".toList
  match operands with
  | [] => s.complain (name ++ ": missing file operand".toList ++ hint) 1
  | [only] =>
    s.complain (name ++ ": missing destination file operand after ".toList ++ quoted only ++ hint) 1
  | _ =>
    let target := operands.getLastD []
    let sources := operands.dropLast
    if 1 < sources.length && !s.tree.isFolder (s.path target) then
      s.complain
        (name ++ ": target ".toList ++ quoted target ++ ": No such file or directory".toList) 1
    else sources.foldl (fun s source => one s source target) (s.done 0)

/-- Copies files. -/
def cp : Program := fun arguments s =>
  let (letters, operands) := splitOptions arguments
  let folders := ['r', 'R', 'a'].any letters.contains
  toTarget "cp" (copyOne "cp" folders) operands s

/-- Moves files. -/
def mv : Program := fun arguments s =>
  let (_, operands) := splitOptions arguments
  toTarget "mv" moveOne operands s

/-! ### Making and removing -/

/-- Removes files, or folders with everything in them. -/
def rm : Program := fun arguments s =>
  let (letters, operands) := splitOptions arguments
  let force := letters.contains 'f'
  let folders := letters.contains 'r' || letters.contains 'R'
  if operands.isEmpty && !force then
    s.complain "rm: missing operand\nTry 'rm --help' for more information.".toList 1
  else
    operands.foldl (fun s file =>
      match s.tree.resolve (s.path file) with
      | .ok (names, .file _ _) => s.withTree (s.tree.erase names)
      | .ok (names, .folder) =>
        if folders then s.withTree (eraseBelow s.tree names)
        else s.complain ("rm: cannot remove ".toList ++ quoted file ++ ": Is a directory".toList) 1
      | .error e =>
        if force then s
        else
          s.complain ("rm: cannot remove ".toList ++ quoted file ++ ": ".toList ++ e.reason.toList)
            1)
      (s.done 0)

/-- The path names on the way to a path name. -/
def wayTo (file : Octets) : List Octets :=
  let parts := Text.fields '/' file
  (List.range parts.length).map fun n => ['/'].intercalate (parts.take (n + 1))

/-- Makes one folder. -/
def makeFolder (s : State) (file : Octets) : State :=
  let trimmed := (file.reverse.dropWhile (· = '/')).reverse
  let failed (why : Octets) :=
    s.complain ("mkdir: cannot create directory ".toList ++ quoted file ++ ": ".toList ++ why) 1
  match s.tree.locate (s.path trimmed) with
  | .error e => failed (e.reason.toList)
  | .ok names =>
    if (s.tree.find? names).isSome then failed "File exists".toList
    else s.withTree (s.tree.put names .folder)

/-- Makes folders. -/
def mkdir : Program := fun arguments s =>
  let (letters, operands) := splitOptions arguments
  if operands.isEmpty then
    s.complain "mkdir: missing operand\nTry 'mkdir --help' for more information.".toList 1
  else if letters.contains 'p' then
    (operands.flatMap wayTo).foldl (fun s file =>
      if file.isEmpty || s.tree.isFolder (s.path file) then s else makeFolder s file) (s.done 0)
  else operands.foldl makeFolder (s.done 0)

/-- Removes empty folders. -/
def rmdir : Program := fun arguments s =>
  let (_, operands) := splitOptions arguments
  operands.foldl (fun s file =>
    let failed (why : Octets) :=
      s.complain ("rmdir: failed to remove ".toList ++ quoted file ++ ": ".toList ++ why) 1
    match s.tree.resolve (s.path file) with
    | .error e => failed (e.reason.toList)
    | .ok (_, .file _ _) => failed "Not a directory".toList
    | .ok (names, .folder) =>
      if s.tree.entries.any fun (n, _) => names.isPrefixOf n && names.length < n.length then
        failed "Directory not empty".toList
      else s.withTree (s.tree.erase names)) (s.done 0)

/-- Makes empty files where there are none. -/
def touch : Program := fun arguments s =>
  let (letters, operands) := splitOptions arguments
  operands.foldl (fun s file =>
    if s.tree.has (s.path file) || letters.contains 'c' then s
    else
      match s.tree.write (s.path file) [] with
      | .ok tree => s.withTree tree
      | .error e =>
        s.complain ("touch: cannot touch ".toList ++ quoted file ++ ": ".toList ++ e.reason.toList)
          1)
    (s.done 0)

/-- Does a mode let a file be executed? Without a letter for it, nothing changes. -/
def executableBy (mode : Octets) : Option Bool :=
  match Octets.nat? mode with
  | some n => some (n / 100 % 2 = 1)
  | none =>
    if mode.contains 'x' then
      if mode.contains '-' then some false else some true
    else none

/-- Changes whether files can be executed. -/
def chmod : Program := fun arguments s =>
  match arguments.filter fun a => !([['-', 'R'], ['-', 'f'], ['-', 'v']].contains a) with
  | mode :: files =>
    files.foldl (fun s file =>
      match s.tree.resolve (s.path file), executableBy mode with
      | .error e, _ =>
        s.complain
          ("chmod: cannot access ".toList ++ quoted file ++ ": ".toList ++ e.reason.toList) 1
      | .ok (names, .file content _), some executable =>
        s.withTree (s.tree.put names (.file content executable))
      | _, _ => s) (s.done 0)
  | [] => s.complain "chmod: missing operand\nTry 'chmod --help' for more information.".toList 1

/-- Makes a file, or a folder, with a name that is not used yet, and writes its name. -/
def mktemp : Program := fun arguments s =>
  let (letters, operands) := splitOptions arguments
  let template := operands.headD "/tmp/tmp.XXXXXXXXXX".toList
  let stem := (template.reverse.dropWhile (· = 'X')).reverse
  let size := template.length - stem.length
  let path (n : Nat) : Octets :=
    let digits := Octets.ofNat n
    stem ++ List.replicate (size - digits.length) 'x' ++ digits
  match ((List.range 1000).map path).find? fun file => !s.tree.has (s.path file) with
  | none => s.done 1
  | some file =>
    match s.tree.locate (s.path file) with
    | .error _ => s.done 1
    | .ok names =>
      let entry := if letters.contains 'd' then Entry.folder else .file [] false
      ((s.withTree (s.tree.put names entry)).print (file ++ ['\n'])).done 0

end Program

end ExpectError.Shell
