import ExpectError.Project.Config
import ExpectError.Project.Error

/-!
# Locating and loading configurations

The configuration of a project is the nearest one above a folder, or the one that is asked for. It
is loaded together with everything that it is based on; a configuration that is based on itself,
directly or through others, is an error.
-/

namespace ExpectError

namespace Config

/-- The name of a configuration file. -/
def fileName : Pathname := .ofString "tsconfig.json"

/-! ### Locating -/

/-- The nearest configuration in a folder or above it. -/
def nearest? (tree : FileTree) (start : Pathname) : Option Pathname :=
  ((start.ancestors.map fun folder => folder.join fileName).find? tree.isFile).map tree.canonical

/-- The configuration to use: a file or a folder that is asked for, or else the nearest one. -/
def locate (tree : FileTree) (start : Pathname) : Option Pathname → Except ProjectError Pathname
  | none =>
    match nearest? tree start with
    | some path => .ok path
    | none => .error .noConfig
  | some asked =>
    let path := start.join asked
    let path := if tree.isFolder path then path.join fileName else path
    if !tree.has path then .error (.configNotFound path)
    else if !tree.isFile path then .error (.configNotFile path)
    else .ok (tree.canonical path)

/-! ### Bases -/

/-- Does a specifier name a file by itself, and not a package? -/
def isFileSpecifier (specifier : String) : Bool :=
  (Pathname.ofString specifier).isAbsolute || specifier.toList.take 2 = ['.', '/']
    || specifier.toList.take 3 = ['.', '.', '/']

/-- The path name with an ending of its own, or else with the ending of a configuration. -/
def withDefaultExtension (path : Pathname) : Pathname :=
  if path.extension?.isNone then path.withExtension "json" else path

/-- The candidates for a package inside one folder, in order. -/
def packageCandidates (folder : Pathname) (specifier : String) : List Pathname :=
  let package := (folder.join (.ofString "node_modules")).join (.ofString specifier)
  package :: (if package.extension?.isNone then [package.withExtension "json"] else [])
    ++ [package.join fileName]

/-- The file that a specifier in a configuration means. -/
def resolveBase (tree : FileTree) (path : Pathname) (specifier : String) :
    Except ProjectError Pathname :=
  match path.parent? with
  | none => .error .noFolder
  | some folder =>
    if isFileSpecifier specifier then
      .ok (withDefaultExtension (folder.join (.ofString specifier)))
    else
      let candidates := folder.ancestors.flatMap fun folder => packageCandidates folder specifier
      match candidates.find? tree.isFile with
      | some found => .ok found
      | none => .error (.unresolvedBase specifier path)

/-! ### Loading -/

/-- One configuration by itself, with its paths made absolute. -/
def loadOne (tree : FileTree) (path : Pathname) : Except ProjectError Config :=
  match tree.readText path with
  | .error cause => .error (.unreadable path cause)
  | .ok source =>
    match ofText? source, path.parent? with
    | none, _ => .error (.malformed path)
    | _, none => .error .noFolder
    | some config, some folder => .ok (config.rebase folder)

/-- Loads the bases of a configuration in order, each on top of the ones before. -/
def loadBases (tree : FileTree) (load : Pathname → Except ProjectError Config) (path : Pathname) :
    List String → Option Config → Except ProjectError (Option Config)
  | [], base => .ok base
  | specifier :: rest, base => do
    let loaded ← load (← resolveBase tree path specifier)
    let base :=
      match base with
      | some earlier => loaded.onTopOf earlier
      | none => loaded
    loadBases tree load path rest (some base)

/-- Loads a configuration and what it is based on. The path names on the way there are given, and a
number that bounds how many there can be. -/
def loadBelow (tree : FileTree) : Nat → List Pathname → Pathname → Except ProjectError Config
  | 0, _, path => .error (.cycle (tree.canonical path))
  | n + 1, way, path => do
    let canonical := tree.canonical path
    if way.contains canonical then throw (.cycle canonical)
    let config ← loadOne tree path
    let specifiers := (config.bases.map Bases.toList).getD []
    match ← loadBases tree (loadBelow tree n (canonical :: way)) path specifiers none with
    | some base => return config.onTopOf base
    | none => return { config with bases := none }

/-- Loads a configuration. A way without repetition has at most one step for each file, and one more
to a file that is missing. -/
def load (tree : FileTree) (path : Pathname) : Except ProjectError Config :=
  loadBelow tree (tree.entries.length + 2) [] path

end Config

end ExpectError
