import ExpectError.Grammar.Recursion

/-!
# Source files

A source file is a text together with its syntax tree, the tokens that were consumed and the syntax
errors that were noted. Whether `<` can begin markup depends on the name of the file.
-/

namespace ExpectError

/-- Does `<` begin markup where an expression is expected? -/
inductive Dialect where
  | standard
  | markup
  deriving DecidableEq, Repr

/-- The dialect that goes with the name of a file. -/
def Dialect.ofFileName (name : String) : Dialect :=
  let lower := name.toList.map Char.toLower
  if [".ts", ".mts", ".cts"].any fun ending => ending.toList.isSuffixOf lower then .standard
  else .markup

/-- A text that has been read. -/
structure SourceFile where
  text : List Char
  tree : Tree
  /-- The consumed tokens, in the order of the text. -/
  tokens : List Grammar.Token
  /-- The syntax errors, in the order in which they were noted. -/
  errors : List Grammar.SyntaxError

namespace SourceFile

/-- Reads a text. There is no answer for a text that the grammar never gets through. -/
def read? (dialect : Dialect) (text : List Char) : Option SourceFile := do
  let size := Text.byteLength text
  let rules := Grammar.rulesWithin (Grammar.depthBound size)
  let context : Grammar.Context := { size, mode := { markup := dialect = .markup } }
  let state : Grammar.State := { scanner := Scanner.ofText text }
  let (_, state) ← Grammar.wholeText.run rules context state
  return { text
           tree := .node .sourceFile 0 size state.pieces.reverse
           tokens := state.tokens.reverse
           errors := state.errors.reverse }

/-- Is there a syntax error? -/
def hasErrors (file : SourceFile) : Bool :=
  !file.errors.isEmpty

/-- The first token that stops behind an offset. -/
def tokenAt? (file : SourceFile) (offset : Nat) : Option Grammar.Token :=
  file.tokens.find? fun token => offset < token.stop

/-- The last token that stops at an offset or in front of it. -/
def tokenBefore? (file : SourceFile) (offset : Nat) : Option Grammar.Token :=
  (file.tokens.takeWhile fun token => token.stop ≤ offset).getLast?

end SourceFile

end ExpectError
