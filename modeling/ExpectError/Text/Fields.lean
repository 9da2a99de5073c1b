/-!
# Fields of a text

The parts of a text between separators. There is always one more part than there are separators.
-/

namespace ExpectError.Text

/-- The parts of a text between the characters that are equal to a separator. -/
def fields (separator : Char) : List Char → List (List Char)
  | [] => [[]]
  | c :: cs =>
    if c = separator then [] :: fields separator cs
    else
      match fields separator cs with
      | [] => [[c]]
      | field :: rest => (c :: field) :: rest

theorem fields_nil (separator : Char) : fields separator [] = [[]] := rfl

theorem fields_cons (separator c : Char) (cs : List Char) :
    fields separator (c :: cs) =
      if c = separator then [] :: fields separator cs
      else
        match fields separator cs with
        | [] => [[c]]
        | field :: rest => (c :: field) :: rest := rfl

/-- Drops a character from the end, if it is there. -/
def dropEnd (c : Char) (cs : List Char) : List Char :=
  if cs.getLast? = some c then cs.dropLast else cs

/-- The lines of a text: the parts in front of line feeds, without the carriage return that may
stand there, and what is left behind the last line feed, if anything is. -/
def lines (cs : List Char) : List (List Char) :=
  let parts := fields '\n' cs
  let last := parts.getLastD []
  parts.dropLast.map (dropEnd '\r') ++ if last.isEmpty then [] else [last]

end ExpectError.Text
