import ExpectError.Text.Blank

/-!
# Log settings

Logs are off unless the environment holds directives. The variable of the tool itself wins over the
general one.
-/

namespace ExpectError.Logging

/-- How log lines are written. -/
inductive Format where
  | text
  | tree
  | json
  deriving DecidableEq, Repr

/-- The format with a given name; an unknown name means plain text. -/
def Format.ofName (name : String) : Format :=
  match String.ofList ((Text.trim name.toList).map Char.toLower) with
  | "tree" => .tree
  | "json" => .json
  | _ => .text

/-- What is logged and how. -/
structure Settings where
  directives : String
  format : Format
  deriving DecidableEq, Repr

/-- The settings that the environment asks for, if it asks for any. -/
def Settings.ofVariables (own general format : Option String) : Option Settings := do
  let directives ← own <|> general
  return { directives, format := (format.map Format.ofName).getD .text }

end ExpectError.Logging
