/-!
# Quoting for the shell

A text in single quotes is one word, whatever it holds. A single quote of its own closes the quotes,
stands behind a backslash, and opens them again.
-/

namespace ExpectError.Shell

/-- The inside of a quotation. -/
def quoteInner : List Char → List Char
  | [] => []
  | '\'' :: rest => '\'' :: '\\' :: '\'' :: '\'' :: quoteInner rest
  | c :: rest => c :: quoteInner rest

/-- A text as one word of the shell's language. -/
def quote (text : List Char) : List Char :=
  '\'' :: quoteInner text ++ ['\'']

end ExpectError.Shell
