import ExpectError.Shell.Word

/-!
# Commands

What a script is made of: words with redirections, and the ways to put commands together.
-/

namespace ExpectError.Shell

/-- Where a redirection leads. -/
inductive Direction where
  | input
  | output
  /-- To a file that must not be there yet, if the shell is told to care. -/
  | clobber
  | append
  | both
  /-- To where another channel leads. -/
  | copy
  deriving DecidableEq, Repr

/-- What a channel is led to. -/
inductive Target where
  | word (direction : Direction) (word : Word)
  /-- The text that follows the line in the script, by its number. -/
  | document (number : Nat)
  deriving Repr

/-- A redirection of a channel. -/
structure Redirection where
  channel : Nat
  target : Target
  deriving Repr

/-- A command. -/
inductive Command where
  | nothing
  /-- Words with redirections, and the number of the line. -/
  | simple (line : Nat) (words : List Word) (redirections : List Redirection)
  /-- Commands whose outputs are the inputs of the next ones. -/
  | pipeline (commands : List Command)
  | negated (command : Command)
  /-- The second one runs if the first one succeeds. -/
  | both (first second : Command)
  /-- The second one runs if the first one fails. -/
  | either (first second : Command)
  | sequence (first second : Command)
  | background (command : Command)
  | conditional (condition body otherwise : Command)
  /-- The body runs as long as the condition succeeds, or fails. -/
  | loop (untilSuccess : Bool) (condition body : Command)
  /-- The body runs once for each field; without words, for each parameter of the script. -/
  | each (line : Nat) (name : List Char) (words : Option (List Word)) (body : Command)
  /-- The body of the first clause with a pattern that fits. -/
  | choice (line : Nat) (word : Word) (clauses : List (List Word × Command))
  | function (name : List Char) (body : Command)
  /-- A group whose changes to the shell itself are undone. -/
  | subshell (body : Command)
  | redirected (line : Nat) (body : Command) (redirections : List Redirection)
  deriving Repr

end ExpectError.Shell
