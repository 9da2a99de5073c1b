/-!
# Styled text

Styles are written as escape sequences around a text. A text that resets the style by itself gets it
back behind the reset.
-/

namespace ExpectError.Terminal

/-- How a text looks. -/
inductive Style where
  | boldGreen
  | boldRed
  | yellow
  | dimmed
  | cyan
  | brightBlack
  deriving DecidableEq, Repr

/-- The parameters of a style's escape sequence. -/
def Style.codes : Style → String
  | .boldGreen => "1;32"
  | .boldRed => "1;31"
  | .yellow => "33"
  | .dimmed => "2"
  | .cyan => "36"
  | .brightBlack => "90"

/-- The escape sequence with given parameters. -/
def escapeSequence (codes : String) : List Char :=
  '\x1b' :: '[' :: codes.toList ++ ['m']

/-- The sequence that ends every style. -/
def reset : List Char :=
  escapeSequence "0"

/-- Puts a sequence behind every reset in a text. -/
def restoring (sequence : List Char) : List Char → List Char
  | '\x1b' :: '[' :: '0' :: 'm' :: rest => reset ++ sequence ++ restoring sequence rest
  | c :: rest => c :: restoring sequence rest
  | [] => []

/-- A text in a style. -/
def Style.paint (style : Style) (text : String) : String :=
  let sequence := escapeSequence style.codes
  String.ofList (sequence ++ restoring sequence text.toList ++ reset)

end ExpectError.Terminal
