import ExpectError.Files.Pathname
import ExpectError.Json.Reader
import ExpectError.Json.Relaxed

/-!
# Configurations

A configuration is a JSON object with comments and trailing commas allowed. Five of its members
matter; the others are skipped. Configurations can be based on others, and then a later one wins,
member by member.

* `Config.ofText?`: the configuration of a text;
* `Config.rebase`: paths made absolute;
* `Config.onTopOf`: a configuration on top of another one.
-/

namespace ExpectError

/-- The configurations that a configuration is based on. -/
inductive Bases where
  | one (specifier : String)
  | many (specifiers : List String)
  deriving DecidableEq, Repr

/-- The specifiers of the bases, in order. -/
def Bases.toList : Bases → List String
  | .one specifier => [specifier]
  | .many specifiers => specifiers

/-- The members of a configuration that matter. -/
structure Config where
  bases : Option Bases := none
  options : Option (List (String × Json.Value)) := none
  includes : Option (List String) := none
  excludes : Option (List String) := none
  files : Option (List String) := none
  deriving Repr, Inhabited

namespace Config

/-! ### Reading -/

open Json

/-- The members that matter, in the order in which a list of values gives them. -/
inductive Field where
  | bases
  | options
  | includes
  | excludes
  | files
  deriving DecidableEq, Repr

/-- The member with a given name. -/
def Field.ofName? : String → Option Field
  | "extends" => some .bases
  | "compilerOptions" => some .options
  | "include" => some .includes
  | "exclude" => some .excludes
  | "files" => some .files
  | _ => none

/-- All members in order. -/
def Field.all : List Field :=
  [.bases, .options, .includes, .excludes, .files]

/-- A string. -/
def string? : Value → Option String
  | .string s => some s
  | _ => none

/-- A list of strings. -/
def strings? : Value → Option (List String)
  | .array values => values.mapM string?
  | _ => none

/-- Sets a member to a value of the right form; null stands for no value. -/
def set? (config : Config) (field : Field) (value : Value) : Option Config :=
  match field, value with
  | _, .null => some config
  | .bases, .string s => some { config with bases := some (.one s) }
  | .bases, value => do return { config with bases := some (.many (← strings? value)) }
  | .options, .object members => some { config with options := some members }
  | .options, _ => none
  | .includes, value => do return { config with includes := some (← strings? value) }
  | .excludes, value => do return { config with excludes := some (← strings? value) }
  | .files, value => do return { config with files := some (← strings? value) }

/-- The members of an object up to its closing brace. A member that matters is not repeated. -/
def readObject : Nat → Bool → List Field → Config → Reads Config
  | 0, _, _, _, _ => none
  | steps + 1, isFirst, seen, config, cs =>
    match dropSpaces cs with
    | '\x7d' :: rest => some (config, rest)
    | cs => do
      let cs ← if isFirst then some cs else dropWord? [','] cs
      let cs ← dropWord? ['"'] (dropSpaces cs)
      let (name, cs) ← readString true cs
      let cs ← dropWord? [':'] (dropSpaces cs)
      match Field.ofName? name with
      | none => readObject steps false seen config (← skipValue cs)
      | some field =>
        if seen.contains field then none
        else
          let (value, cs) ← keepValue 1 cs
          readObject steps false (field :: seen) (← config.set? field value) cs

/-- The values of a list up to its closing bracket, one for each member at most. -/
def readList (isFirst : Bool) (config : Config) : List Field → Reads Config
  | [], cs => (dropWord? [']'] (dropSpaces cs)).map fun rest => (config, rest)
  | field :: fields, cs =>
    match dropSpaces cs with
    | ']' :: rest => some (config, rest)
    | cs => do
      let cs ← if isFirst then some cs else dropWord? [','] cs
      let (value, cs) ← keepValue 1 cs
      readList false (← config.set? field value) fields cs

/-- A whole configuration. -/
def readConfig : Reads Config := fun cs =>
  match dropSpaces cs with
  | '\x7b' :: cs => readObject (stepBound cs) true [] {} cs
  | '[' :: cs => readList true {} Field.all cs
  | _ => none

/-- The configuration of a text. -/
def ofText? (source : String) : Option Config := do
  let (config, rest) ← readConfig (dropTrailingCommas (stripComments source.toList))
  if (dropSpaces rest).isEmpty then return config else none

/-! ### Paths -/

/-- A path made absolute by a folder, in normal form and with slashes. -/
def rebasePath (folder : Pathname) (path : String) : String :=
  (folder.join (.ofString path)).normalize.withSlashes.display

/-- The option with a given name. -/
def option? (config : Config) (name : String) : Option Value :=
  config.options.bind (·.lookup name)

/-- Is an option set to true? -/
def flag (config : Config) (name : String) : Bool :=
  match config.option? name with
  | some (.bool b) => b
  | _ => false

/-- The option that names the folder for output. -/
def outputOption : String := "outDir"

/-- The folder for output, if it is given. -/
def outputFolder? (config : Config) : Option String :=
  (config.option? outputOption).bind string?

/-- The configuration with all its paths made absolute by a folder. -/
def rebase (config : Config) (folder : Pathname) : Config :=
  let rebaseAll := Option.map (List.map (rebasePath folder))
  { config with
    includes := rebaseAll config.includes
    excludes := rebaseAll config.excludes
    files := rebaseAll config.files
    options := config.options.map fun options => options.map fun (name, value) =>
      match value with
      | .string path => if name = outputOption then (name, .string (rebasePath folder path))
        else (name, value)
      | _ => (name, value) }

/-- A configuration on top of another one: its own members win, and its options are put into those
of the other. -/
def onTopOf (config base : Config) : Config :=
  { bases := none
    options :=
      match base.options, config.options with
      | some options, some own =>
        some (own.foldl (fun done (name, value) => insertMember name value done) options)
      | options, own => own <|> options
    includes := config.includes <|> base.includes
    excludes := config.excludes <|> base.excludes
    files := config.files <|> base.files }

end Config

end ExpectError
