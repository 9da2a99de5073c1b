import ExpectError.Text.Blank
import ExpectError.Text.Utf8

/-!
# Questions that are answered by yes or no

An empty answer, or no answer at all, means the default; other words are asked again.
-/

namespace ExpectError.Terminal

/-- What a line of input says. -/
inductive Answer where
  | default
  | yes
  | no
  | unclear
  deriving DecidableEq, Repr

/-- Reads an answer; blanks around it and its case do not matter. -/
def Answer.ofLine (line : List Char) : Answer :=
  match String.ofList ((Text.trim line).map Char.toLower) with
  | "" => .default
  | "y" | "yes" => .yes
  | "n" | "no" => .no
  | _ => .unclear

/-- The lines of some bytes, each with the line feed that ends it. -/
def byteLines : List UInt8 → List (List UInt8)
  | [] => []
  | byte :: bytes =>
    if byte = 10 then [byte] :: byteLines bytes
    else
      match byteLines bytes with
      | [] => [[byte]]
      | line :: lines => (byte :: line) :: lines

/-- The end of a dialogue. -/
structure Dialogue where
  /-- The decision, or nothing if a line of the answer was no text. -/
  decision : Option Bool
  /-- What was written. -/
  output : String
  /-- How many bytes of the input were read. -/
  consumed : Nat
  deriving DecidableEq, Repr

/-- Puts something in front of a dialogue. -/
def Dialogue.after (output : String) (consumed : Nat) (rest : Dialogue) : Dialogue :=
  { rest with output := output ++ rest.output, consumed := consumed + rest.consumed }

/-- The words of a question, with a hint at the default. -/
def prompt (message : String) (default : Bool) : String :=
  let hint := if default then "Y/n" else "y/N"
  s!"{message} ({hint}) "

/-- Asks until a line is an answer. -/
def askLines (message : String) (default : Bool) : List (List UInt8) → Dialogue
  | [] => { decision := some default, output := prompt message default ++ "\n", consumed := 0 }
  | line :: lines =>
    let asked := prompt message default
    match Text.ofBytes? line with
    | none => { decision := none, output := asked, consumed := line.length }
    | some text =>
      let decided (decision : Bool) : Dialogue :=
        { decision := some decision, output := asked, consumed := line.length }
      match Answer.ofLine text.toList with
      | .default => decided default
      | .yes => decided true
      | .no => decided false
      | .unclear =>
        (askLines message default lines).after (asked ++ "Please answer 'y' or 'n'.\n") line.length

/-- Asks a question that is answered by some bytes of input. -/
def ask (message : String) (default : Bool) (input : List UInt8) : Dialogue :=
  askLines message default (byteLines input)

end ExpectError.Terminal
