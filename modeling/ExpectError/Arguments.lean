/-!
# Command line arguments

Options have a long name, some a short one; some take a value, which may stand in the same argument
or in the next one. Short options can share an argument. An option that waits for its value is
settled before the next option takes effect, so an error in it is reported first.
-/

namespace ExpectError

/-- What the command line asks for. -/
structure Arguments where
  /-- The configuration file, or the folder that holds it. -/
  project : Option String := none
  /-- Modify files without asking? -/
  yes : Bool := false
  /-- The command of the type checker. -/
  checker : String := "tsc"
  noStructural : Bool := false
  noOffset : Bool := false
  dryRun : Bool := false
  json : Bool := false
  noColor : Bool := false
  deriving DecidableEq, Repr

namespace Arguments

/-- Why there are no arguments to go by. -/
inductive Refusal where
  | unknownArgument
  | missingRequiredArgument
  | argumentConflict
  | invalidValue
  | tooManyValues
  | displayHelp
  | displayVersion
  deriving DecidableEq, Repr

/-- The options. -/
inductive Opt where
  | project
  | yes
  | checker
  | noStructural
  | noOffset
  | dryRun
  | json
  | noColor
  | help
  | version
  deriving DecidableEq, Repr

/-- Does an option take a value? -/
def Opt.takesValue : Opt → Bool
  | .project | .checker => true
  | _ => false

/-- The option with a long name. -/
def Opt.ofLong? : String → Option Opt
  | "project" => some .project
  | "yes" => some .yes
  | "tsc" => some .checker
  | "no-structural" => some .noStructural
  | "no-offset" => some .noOffset
  | "dry-run" => some .dryRun
  | "json" => some .json
  | "no-color" => some .noColor
  | "help" => some .help
  | "version" => some .version
  | _ => none

/-- The option with a short name. -/
def Opt.ofShort? : Char → Option Opt
  | 'p' => some .project
  | 'y' => some .yes
  | 'h' => some .help
  | 'V' => some .version
  | _ => none

/-- What has been read so far. -/
structure Progress where
  arguments : Arguments := {}
  /-- The options that have taken effect. -/
  given : List Opt := []
  /-- The option that was named last and has not taken effect yet, with its value. -/
  pending : Option (Opt × Option String) := none
  /-- Does the next argument belong to the pending option? -/
  awaitingValue : Bool := false
  /-- Has the end of the options been marked? -/
  optionsEnded : Bool := false

/-- The arguments with an option in effect. A path is never empty. -/
def set (arguments : Arguments) : Opt → Option String → Except Refusal Arguments
  | .project, some "" => .error .invalidValue
  | .project, some value => .ok { arguments with project := some value }
  | .checker, some value => .ok { arguments with checker := value }
  | .project, none | .checker, none => .error .invalidValue
  | .yes, _ => .ok { arguments with yes := true }
  | .noStructural, _ => .ok { arguments with noStructural := true }
  | .noOffset, _ => .ok { arguments with noOffset := true }
  | .dryRun, _ => .ok { arguments with dryRun := true }
  | .json, _ => .ok { arguments with json := true }
  | .noColor, _ => .ok { arguments with noColor := true }
  | .help, _ => .error .displayHelp
  | .version, _ => .error .displayVersion

/-- Lets an option take effect. No option is given twice. -/
def Progress.apply (progress : Progress) (option : Opt) (value : Option String) :
    Except Refusal Progress := do
  if option.takesValue && value.isNone then throw .invalidValue
  if progress.given.contains option then throw .argumentConflict
  let arguments ← progress.arguments.set option value
  return { progress with arguments, given := option :: progress.given }

/-- Lets the pending option take effect. -/
def Progress.settle (progress : Progress) : Except Refusal Progress :=
  match progress.pending with
  | none => .ok progress
  | some (option, value) =>
    ({ progress with pending := none, awaitingValue := false }).apply option value

/-- Names an option, with the value that stands in the same argument. -/
def Progress.name (progress : Progress) (option : Opt) (value : Option String) :
    Except Refusal Progress := do
  let progress ← progress.settle
  if option.takesValue && value.isNone then
    return { progress with pending := some (option, none), awaitingValue := true }
  progress.apply option value

/-- A long option. -/
def Progress.long (progress : Progress) (text : List Char) : Except Refusal Progress :=
  let name := text.takeWhile (· ≠ '=')
  let value :=
    match text.dropWhile (· ≠ '=') with
    | [] => none
    | _ :: value => some (String.ofList value)
  match Opt.ofLong? (String.ofList name) with
  | none => .error .unknownArgument
  | some option =>
    if value.isSome && !option.takesValue then .error .tooManyValues
    else progress.name option value

/-- Short options that share an argument; the first that takes a value takes the rest, without an
equals sign in front. -/
def Progress.short (progress : Progress) : List Char → Except Refusal Progress
  | [] => .ok progress
  | c :: rest =>
    match Opt.ofShort? c with
    | none => .error .unknownArgument
    | some option =>
      if option.takesValue then
        match rest with
        | [] => progress.name option none
        | '=' :: value => progress.name option (some (String.ofList value))
        | value => progress.name option (some (String.ofList value))
      else do
        let progress ← progress.name option none
        progress.short rest

/-- Takes one argument into account. -/
def Progress.step (progress : Progress) (argument : String) : Except Refusal Progress :=
  if progress.optionsEnded then .error .unknownArgument
  else
    match argument.toList with
    | ['-', '-'] => .ok { progress with optionsEnded := true }
    | '-' :: '-' :: text => progress.long text
    | '-' :: c :: rest => progress.short (c :: rest)
    | _ =>
      match progress.awaitingValue, progress.pending with
      | true, some (option, _) =>
        .ok { progress with pending := some (option, some argument), awaitingValue := false }
      | _, _ => .error .unknownArgument

/-- Reads the arguments behind the name of the program. Issues are printed as JSON only in a dry
run. -/
def read (arguments : List String) : Except Refusal Arguments := do
  let progress ← arguments.foldlM Progress.step {}
  let progress ← progress.settle
  if progress.arguments.json && !progress.arguments.dryRun then throw .missingRequiredArgument
  return progress.arguments

end Arguments

end ExpectError
