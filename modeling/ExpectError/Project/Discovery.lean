import ExpectError.Project.Glob
import ExpectError.Project.Loading

/-!
# The files of a project

The files that a configuration lists, followed by those that its patterns include and do not
exclude. Folders of packages are never searched.
-/

namespace ExpectError

/-- A project: its configuration, the folder of that, and the files to check. -/
structure Project where
  configPath : Pathname
  root : Pathname
  files : List Pathname
  deriving DecidableEq, Repr

namespace Project

/-- The endings of source files. -/
def sourceExtensions : List String := ["ts", "tsx", "mts", "cts"]

/-- The endings of source files without types. -/
def plainExtensions : List String := ["js", "jsx", "mjs", "cjs"]

/-- The folders that packages are in. -/
def packageFolders : List String := ["node_modules", "bower_components", "jspm_packages"]

/-- Does a path name have the ending of a source file? -/
def isSource (config : Config) (path : Pathname) : Bool :=
  path.extension?.any fun ending =>
    sourceExtensions.contains ending || (config.flag "allowJs" && plainExtensions.contains ending)

/-- Does a part of a pattern hold a wildcard? -/
def hasWildcard (part : List Char) : Bool :=
  part.any fun c => c = '*' || c = '?' || c = '[' || c = '\x7b'

/-- Drops slashes at the end. -/
def dropEndSlashes (text : List Char) : List Char :=
  (text.reverse.dropWhile (· = '/')).reverse

/-- The pattern of an entry. An entry whose last part has no wildcard and no ending names a folder,
and means everything in it. -/
def includePattern (entry : String) : List Char :=
  let trimmed := dropEndSlashes entry.toList
  let last := (Text.fields '/' trimmed).getLastD []
  if !hasWildcard last && (Pathname.mk last).extension?.isNone then trimmed ++ "/**/*".toList
  else trimmed

/-- The folder of a pattern, up to its first part with a wildcard. Where the whole pattern is a path
name, it is the folder of that. -/
def searchRoot (pattern : List Char) : Pathname :=
  let parts := (Text.fields '/' pattern).filter fun part => !part.isEmpty
  let start : Pathname := if pattern.head? = some '/' then ⟨['/']⟩ else ⟨[]⟩
  let folder := (parts.takeWhile fun part => !hasWildcard part).foldl
    (fun path part => path.join ⟨part⟩) start
  if (Pathname.mk pattern).components = folder.components then folder.parent?.getD folder
  else folder

/-- The patterns of an entry to exclude: the entry itself and everything below it. -/
def excludeGlobs (entry : String) : Except ProjectError (List Glob) :=
  let trimmed := dropEndSlashes entry.toList
  match Glob.ofText? trimmed, Glob.ofText? (trimmed ++ "/**".toList) with
  | .ok itself, .ok below => .ok [itself, below]
  | _, _ => .error (.badExclude entry)

/-- The entries to include: everything, unless files are listed. -/
def includeEntries (root : Pathname) (config : Config) : List String :=
  match config.includes, config.files with
  | some entries, _ => entries
  | none, some _ => []
  | none, none => [Config.rebasePath root "**/*"]

/-- The entries to exclude: the folders of packages unless others are given, and the folder for
output. -/
def excludeEntries (root : Pathname) (config : Config) : List String :=
  config.excludes.getD (packageFolders.map (Config.rebasePath root))
    ++ (config.outputFolder?.map (Config.rebasePath root)).toList

/-- Adds path names that are not in a list yet, as far as their components go. -/
def addNew (found : List Pathname) : List Pathname → List Pathname
  | [] => found
  | path :: rest =>
    if found.any fun other => other.components = path.components then addNew found rest
    else addNew (found ++ [path]) rest

/-- Is a path name excluded? -/
def isExcluded (excluded : List Glob) (path : Pathname) : Bool :=
  excluded.any fun glob => glob.isMatch path.withSlashes.text

/-- Is a folder entered in the search? -/
def entersFolder (excluded : List Glob) (name : List Char) (path : Pathname) : Bool :=
  !packageFolders.contains (String.ofList name) && !isExcluded excluded path

/-- The files that a pattern includes, in the order of the search. -/
def search (tree : FileTree) (config : Config) (excluded : List Glob) (pattern : List Char)
    (glob : Glob) : List Pathname :=
  ((tree.walk (searchRoot pattern) (entersFolder excluded)).filter fun (path, entry) =>
    entry ≠ .folder && isSource config path && glob.isMatch path.withSlashes.text
      && !isExcluded excluded path).map (·.1)

/-- Adds the files that each entry includes. -/
def searchAll (tree : FileTree) (config : Config) (excluded : List Glob) :
    List String → List Pathname → Except ProjectError (List Pathname)
  | [], found => .ok found
  | entry :: rest, found =>
    let pattern := includePattern entry
    match Glob.ofText? pattern with
    | .error _ => .error (.badInclude (String.ofList pattern))
    | .ok glob =>
      searchAll tree config excluded rest
        (addNew found (search tree config excluded pattern glob))

/-- The listed files, which have to exist. -/
def listedFiles (tree : FileTree) (config : Config) : Except ProjectError (List Pathname) :=
  (config.files.getD []).mapM fun file =>
    let path := Pathname.ofString file
    if tree.isFile path then .ok path else .error (.fileNotFound file)

/-- The files that a configuration covers. -/
def discover (tree : FileTree) (root : Pathname) (config : Config) :
    Except ProjectError (List Pathname) := do
  let listed ← listedFiles tree config
  let excluded ← (excludeEntries root config).mapM excludeGlobs
  searchAll tree config excluded.flatten (includeEntries root config) (addNew [] listed)

/-- The project of a configuration. -/
def load (tree : FileTree) (path : Pathname) : Except ProjectError Project := do
  let configPath := tree.canonical path
  match configPath.parent? with
  | none => throw .noFolder
  | some root =>
    let config ← Config.load tree configPath
    return { configPath, root, files := ← discover tree root config }

end Project

end ExpectError
