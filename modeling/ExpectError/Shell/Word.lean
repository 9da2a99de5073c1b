/-!
# Words

A word is made of pieces: characters that stand for themselves, and parameters, commands and
arithmetic whose values are put in their place. What is quoted is neither split nor taken as a
pattern.

* `Piece`, `Word`: what a word is made of;
* `Word.literal?`: the text of a word in which every piece stands for itself.
-/

namespace ExpectError.Shell

/-- What is done with the value of a parameter between braces. -/
inductive Use where
  | plain
  /-- The number of its characters. -/
  | length
  /-- Another word in place of a value that is missing; with a colon, also of an empty one. -/
  | orElse (colon : Bool)
  /-- The same, and the other word becomes the value. -/
  | orAssign (colon : Bool)
  /-- A missing value is an error. -/
  | orFail (colon : Bool)
  /-- Another word in place of a value that is there. -/
  | andThen (colon : Bool)
  /-- The value without what a pattern takes from its end. -/
  | dropEnd (longest : Bool)
  /-- The value without what a pattern takes from its front. -/
  | dropFront (longest : Bool)
  /-- No use that is known. -/
  | bad
  deriving DecidableEq, Repr

/-- A piece of a word. -/
inductive Piece where
  /-- A character that stands for itself. -/
  | char (c : Char) (quoted : Bool)
  /-- Quotes begin here; a word with quotes is a word even if nothing is in them. -/
  | mark
  | parameter (name : List Char) (use : Use) (word : List Piece) (quoted : Bool)
  /-- A script whose output is put in place, with the number of its first line. -/
  | command (script : List Char) (line : Nat) (quoted : Bool)
  | arithmetic (expression : List Piece) (quoted : Bool)
  deriving Repr

/-- A word, before anything is put in place of its pieces. -/
abbrev Word := List Piece

namespace Word

/-- The text of a word in which every piece stands for itself. -/
def literal? : Word → Option (List Char)
  | [] => some []
  | .char c _ :: rest => (literal? rest).map (c :: ·)
  | .mark :: rest => literal? rest
  | _ :: _ => none

/-- The text of a word without any quotes. -/
def bare? : Word → Option (List Char)
  | [] => some []
  | .char c false :: rest => (bare? rest).map (c :: ·)
  | _ => none

/-- Is anything in a word quoted? -/
def isQuoted (word : Word) : Bool :=
  word.any fun
    | .char _ quoted => quoted
    | .mark => true
    | _ => false

/-- A word of characters that stand for themselves. -/
def ofText (text : List Char) (quoted : Bool) : Word :=
  text.map (.char · quoted)

end Word

/-- Can a name begin with a character? -/
def isNameStart (c : Char) : Bool :=
  c.isAlpha || c = '_'

/-- Can a character be inside a name? -/
def isNamePart (c : Char) : Bool :=
  c.isAlphanum || c = '_'

/-- Is a text the name of a variable? -/
def isName : List Char → Bool
  | [] => false
  | c :: rest => isNameStart c && rest.all isNamePart

/-- Is a character the whole name of a parameter? -/
def isSpecial (c : Char) : Bool :=
  c.isDigit || ['?', '#', '@', '*', '$', '!', '-'].contains c

/-- The name and the value of a word that assigns a variable. -/
def Word.assignment? (word : Word) : Option (List Char × Word) :=
  let isNamed : Piece → Bool
    | .char c false => isNamePart c
    | _ => false
  let name := word.takeWhile isNamed
  match Word.bare? name, word.dropWhile isNamed with
  | some name, .char '=' false :: value => if isName name then some (name, value) else none
  | _, _ => none

end ExpectError.Shell
