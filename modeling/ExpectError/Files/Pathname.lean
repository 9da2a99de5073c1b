import ExpectError.Text.Fields

/-!
# Path names

A path name is shown as it was given, so it is kept as a text. Its components are the names between
slashes; empty names and dots count only where they say something.

* `components`: the names, the root and the steps upwards of a path name;
* `join`, `parent?`, `ancestors`: moving between folders and what is in them;
* `fileName?`, `extension?`, `withExtension`: the last name and its ending;
* `normalize`: steps upwards resolved by the text alone.
-/

namespace ExpectError

/-- The name of a file or a folder, as a text. -/
structure Pathname where
  text : List Char
  deriving DecidableEq, Repr, Inhabited

namespace Pathname

/-- The path name with a given text. -/
def ofString (text : String) : Pathname :=
  ⟨text.toList⟩

/-- The text of a path name. -/
def display (path : Pathname) : String :=
  String.ofList path.text

/-- A step from a folder. -/
inductive Component where
  | root
  /-- A dot at the front of a relative path name. -/
  | current
  | up
  | name (name : List Char)
  deriving DecidableEq, Repr

/-- Does the path name begin at the root? -/
def isAbsolute (path : Pathname) : Bool :=
  path.text.head? = some '/'

/-- The component of a name between slashes; nothing for an empty name or a dot. -/
def componentOf? (field : List Char) : Option Component :=
  if field = [] || field = ['.'] then none
  else if field = ['.', '.'] then some .up
  else some (.name field)

/-- The steps of a path name. -/
def components (path : Pathname) : List Component :=
  let fields := Text.fields '/' path.text
  let front :=
    if path.isAbsolute then [Component.root]
    else if fields.head? = some ['.'] then [.current]
    else []
  front ++ fields.filterMap componentOf?

/-- A path name inside a folder; an absolute one stays as it is. -/
def join (folder path : Pathname) : Pathname :=
  if path.isAbsolute then path
  else if folder.text.isEmpty || folder.text.getLast? = some '/' then ⟨folder.text ++ path.text⟩
  else ⟨folder.text ++ '/' :: path.text⟩

/-! ### Upwards -/

/-- Drops names that say nothing from the end of a list, the last name first. A leading dot
stays. -/
def dropIdle : List (List Char) → List (List Char)
  | [] => []
  | [field] => [field]
  | field :: rest => if (componentOf? field).isNone then dropIdle rest else field :: rest

/-- Puts names, the last one first, together again. -/
def ofReversed (fields : List (List Char)) : Pathname :=
  match fields with
  | [[]] => ⟨['/']⟩
  | _ => ⟨['/'].intercalate fields.reverse⟩

/-- The folder that a path name is in: the path name without its last step. The root and the empty
path name are in no folder. -/
def parent? (path : Pathname) : Option Pathname :=
  match dropIdle (Text.fields '/' path.text).reverse with
  | [] => none
  | [field] => if field.isEmpty then none else some ⟨[]⟩
  | _ :: rest => some (ofReversed (dropIdle rest))

/-- A path name and the folders around it, at most a given number. -/
def ancestorsWithin : Nat → Pathname → List Pathname
  | 0, path => [path]
  | n + 1, path =>
    match path.parent? with
    | none => [path]
    | some folder => path :: ancestorsWithin n folder

/-- A path name and the folders around it, from the inside out. -/
def ancestors (path : Pathname) : List Pathname :=
  ancestorsWithin path.text.length path

/-! ### The last name -/

/-- The last step, if it is a name. -/
def fileName? (path : Pathname) : Option (List Char) :=
  match path.components.getLast? with
  | some (.name name) => some name
  | _ => none

/-- A name in front of its last point and behind it; a point at the front does not count. -/
def splitExtension (name : List Char) : List Char × Option (List Char) :=
  let ending := name.reverse.takeWhile (· ≠ '.')
  match name.reverse.dropWhile (· ≠ '.') with
  | [] => (name, none)
  | [_] => (name, none)
  | _ :: stem => (stem.reverse, some ending.reverse)

/-- The ending of the last name. -/
def extension? (path : Pathname) : Option String :=
  path.fileName?.bind fun name => (splitExtension name).2.map String.ofList

/-- The path name with another ending. What follows the last name is dropped, and without a last
name nothing changes. -/
def withExtension (path : Pathname) (ending : String) : Pathname :=
  match path.fileName? with
  | none => path
  | some name =>
    let idle := (Text.fields '/' path.text).reverse.takeWhile fun field =>
      (componentOf? field).isNone
    let behind := (idle.map fun field => field.length + 1).foldr (· + ·) 0
    let kept := path.text.length - behind - name.length + (splitExtension name).1.length
    ⟨path.text.take kept ++ '.' :: ending.toList⟩

/-! ### Normal form -/

/-- Takes a step from a stack of names, the last one first. A step up from nowhere stays there. -/
def takeStep (stack : List (List Char)) : Component → List (List Char)
  | .root => []
  | .current => stack
  | .up => stack.tail
  | .name name => name :: stack

/-- The path name with its steps upwards resolved. -/
def normalize (path : Pathname) : Pathname :=
  let names := (path.components.foldl takeStep []).reverse
  let text := ['/'].intercalate names
  ⟨if path.isAbsolute then '/' :: text else text⟩

/-- The path name with slashes for backslashes. -/
def withSlashes (path : Pathname) : Pathname :=
  ⟨path.text.map fun c => if c = '\\' then '/' else c⟩

end Pathname

end ExpectError
