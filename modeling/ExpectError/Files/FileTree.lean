import ExpectError.Files.Pathname
import ExpectError.Text.Bytes
import ExpectError.Text.Utf8

/-!
# Trees of files

Files and folders below the root, each at a list of names. There are no links, so every file has one
such list. Looking up a path name takes its steps one by one, and every step has to start in a
folder.

* `resolve`: the list of names that a path name stands for;
* `readText`, `write`: the contents of files, some of which can only be read;
* `walk`: everything below a folder, folders in front of what is in them, in the order of names.
-/

namespace ExpectError

/-- The names on the way from the root. -/
abbrev Names := List (List Char)

/-- A file or a folder. -/
inductive Entry where
  | folder
  | file (content : List UInt8) (executable : Bool)
  deriving DecidableEq, Repr

/-- Why something cannot be done with a file. -/
inductive FileError where
  | notFound
  | isFolder
  | notFolder
  | denied
  | nameTooLong
  | badName
  /-- Nothing is known that runs the file. -/
  | badFormat
  /-- The contents are no text. -/
  | notText
  deriving DecidableEq, Repr

/-- The reason in the words that programs share. -/
def FileError.reason : FileError → String
  | .notFound => "No such file or directory"
  | .isFolder => "Is a directory"
  | .notFolder => "Not a directory"
  | .denied => "Permission denied"
  | .nameTooLong => "File name too long"
  | .badFormat => "Exec format error"
  | .badName => "file name contained an unexpected NUL byte"
  | .notText => "stream did not contain valid UTF-8"

/-- The number of an error that the system has one for. -/
def FileError.number? : FileError → Option Nat
  | .notFound => some 2
  | .badFormat => some 8
  | .denied => some 13
  | .notFolder => some 20
  | .isFolder => some 21
  | .nameTooLong => some 36
  | .badName | .notText => none

/-- The words of an error, with its number. -/
def FileError.message (e : FileError) : String :=
  match e.number? with
  | some number => s!"{e.reason} (os error {number})"
  | none => e.reason

/-- Files and folders by their names from the root, which is a folder itself. -/
structure FileTree where
  entries : List (Names × Entry) := []
  /-- The files that can be read and not be written. -/
  readOnly : List Names := []
  deriving DecidableEq, Repr

namespace FileTree

/-- What is at a list of names. -/
def find? (tree : FileTree) : Names → Option Entry
  | [] => some .folder
  | names => tree.entries.lookup names

/-- The greatest number of bytes of a name. -/
def maxName : Nat := 255

/-- Takes one step, from a place that is reached. -/
def step (tree : FileTree) (names : Names) (field : List Char) : Except FileError Names :=
  match tree.find? names with
  | none => .error .notFound
  | some (.file _ _) => .error .notFolder
  | some .folder =>
    if field = [] || field = ['.'] then .ok names
    else if field = ['.', '.'] then .ok names.dropLast
    else if maxName < (String.ofList field).utf8ByteSize then .error .nameTooLong
    else .ok (names ++ [field])

/-- The greatest number of bytes of a path name that a file is asked for by. -/
def maxPath : Nat := 4095

/-- The names that a path name of any length stands for. Everything in front of the last step has to
exist. -/
def follow (tree : FileTree) (path : Pathname) : Except FileError Names :=
  if path.text.contains '\x00' then .error .badName
  else if path.isAbsolute then (Text.fields '/' path.text).foldlM tree.step []
  else .error .notFound

/-- The names that a path name stands for. -/
def locate (tree : FileTree) (path : Pathname) : Except FileError Names :=
  if path.text.contains '\x00' then .error .badName
  else if maxPath < Text.byteLength path.text then .error .nameTooLong
  else tree.follow path

/-- What is at a list of names that was found. -/
def entryAt (tree : FileTree) (names : Names) : Except FileError (Names × Entry) :=
  match tree.find? names with
  | some entry => .ok (names, entry)
  | none => .error .notFound

/-- The names that a path name stands for, and what is there. -/
def resolve (tree : FileTree) (path : Pathname) : Except FileError (Names × Entry) := do
  tree.entryAt (← tree.locate path)

/-- Is there a file? -/
def isFile (tree : FileTree) (path : Pathname) : Bool :=
  match tree.resolve path with
  | .ok (_, .file _ _) => true
  | _ => false

/-- Is there a folder? -/
def isFolder (tree : FileTree) (path : Pathname) : Bool :=
  match tree.resolve path with
  | .ok (_, .folder) => true
  | _ => false

/-- Is there anything? -/
def has (tree : FileTree) (path : Pathname) : Bool :=
  (tree.resolve path).toOption.isSome

/-- The path name of a list of names. -/
def pathOf (names : Names) : Pathname :=
  ⟨'/' :: ['/'].intercalate names⟩

/-- The one path name of what a path name stands for; the path name itself if there is nothing. The
steps are taken one by one, so a path name can be of any length here. -/
def canonical (tree : FileTree) (path : Pathname) : Pathname :=
  match tree.follow path >>= tree.entryAt with
  | .ok (names, _) => pathOf names
  | .error _ => path

/-! ### Contents -/

/-- The bytes of a file. -/
def readBytes (tree : FileTree) (path : Pathname) : Except FileError (List UInt8) := do
  match ← tree.resolve path with
  | (_, .file content _) => return content
  | (_, .folder) => throw .isFolder

/-- The text of a file. -/
def readText (tree : FileTree) (path : Pathname) : Except FileError String := do
  match Text.ofBytes? (← tree.readBytes path) with
  | some text => return text
  | none => throw .notText

/-- Puts an entry at a list of names. -/
def put (tree : FileTree) (names : Names) (entry : Entry) : FileTree :=
  { tree with entries := go tree.entries }
where
  /-- Replaces the entry, or adds it at the end. -/
  go : List (Names × Entry) → List (Names × Entry)
    | [] => [(names, entry)]
    | (n, e) :: rest => if n = names then (names, entry) :: rest else (n, e) :: go rest

/-- May the file at a list of names be written? -/
def isWritable (tree : FileTree) (names : Names) : Bool :=
  !tree.readOnly.contains names

/-- Writes a file anew. A file that exists keeps its permissions, and a new one has none to be
executed. -/
def write (tree : FileTree) (path : Pathname) (content : List UInt8) :
    Except FileError FileTree := do
  let names ← tree.locate path
  match tree.find? names with
  | some .folder => throw .isFolder
  | some (.file _ executable) =>
    if tree.isWritable names then return tree.put names (.file content executable)
    else throw .denied
  | none => return tree.put names (.file content false)

/-- Writes a text into a file. -/
def writeText (tree : FileTree) (path : Pathname) (text : String) : Except FileError FileTree :=
  tree.write path text.toUTF8.toList

/-- Removes what is at a list of names. -/
def erase (tree : FileTree) (names : Names) : FileTree :=
  { entries := tree.entries.filter fun (n, _) => n ≠ names
    readOnly := tree.readOnly.filter fun n => n ≠ names }

/-! ### Below a folder -/

/-- The order of a walk: names are compared as texts, and a folder comes in front of what is in
it. -/
def namesBefore : Names → Names → Bool
  | [], _ => true
  | _ :: _, [] => false
  | a :: as, b :: bs => a < b || (a = b && namesBefore as bs)

/-- What is below a folder, by the names from there, in the order of a walk. -/
def below (tree : FileTree) (folder : Names) : List (Names × Entry) :=
  let found := tree.entries.filterMap fun (names, entry) =>
    if folder.isPrefixOf names && folder.length < names.length then
      some (names.drop folder.length, entry)
    else none
  found.mergeSort fun a b => namesBefore a.1 b.1

/-- The path name of what is below a folder with a given path name. -/
def descend (folder : Pathname) (names : Names) : Pathname :=
  names.foldl (fun path name => path.join ⟨name⟩) folder

/-- The beginnings of a list that are not empty, the shortest first. -/
def fronts {α : Type} : List α → List (List α)
  | [] => []
  | a :: rest => [a] :: (fronts rest).map (a :: ·)

/-- Is a walk let through to an entry? Every folder on the way, the entry itself included, has to be
one that is entered. -/
def isReached (start : Pathname) (enters : List Char → Pathname → Bool) (names : Names)
    (entry : Entry) : Bool :=
  (fronts names).all fun front =>
    (front = names && entry ≠ .folder) || enters (front.getLastD []) (descend start front)

/-- A walk from a path name: the path name itself and what is below it, without the folders that are
not to be entered. Those are judged by their name and their path name. -/
def walk (tree : FileTree) (start : Pathname) (enters : List Char → Pathname → Bool) :
    List (Pathname × Entry) :=
  match tree.resolve start with
  | .error _ => []
  | .ok (folder, entry) =>
    let reached := (tree.below folder).filter fun (names, entry) =>
      isReached start enters names entry
    (start, entry) :: reached.map fun (names, entry) => (descend start names, entry)

end FileTree

end ExpectError
