import ExpectError.Shell.CharClass
import ExpectError.Shell.Octets

/-!
# Patterns

A star stands for any text, a question mark for one byte, and brackets for one of some bytes. What
is quoted stands for itself.

* `Pattern.accepts`: does a pattern fit a whole text?
* `Pattern.dropFront`, `Pattern.dropEnd`: a text without what a pattern takes from it.
-/

namespace ExpectError.Shell

/-- A byte of a text, and whether it is quoted. -/
abbrev Marked := Char × Bool

/-- An item of a pattern. -/
inductive PatternItem where
  | exactly (c : Char)
  | one
  | many
  | among (set : ByteSet)
  deriving DecidableEq, Repr

/-- A pattern. -/
abbrev Pattern := List PatternItem

namespace Pattern

/-- The bytes up to the first one that is quoted. Sets are read from these. -/
def bracket? (text : List Marked) : Option (ByteSet × Nat) :=
  let bare := text.map fun (c, quoted) => if quoted && c = ']' then '\x00' else c
  (readSet? ['!'] bare).map fun (set, rest) =>
    let members := set.members.map fun
      | .range first last =>
        .range (if first = '\x00' then ']' else first) (if last = '\x00' then ']' else last)
      | named => named
    ({ set with members }, bare.length - rest.length)

/-- The pattern of a text. -/
def ofMarked : Nat → List Marked → Pattern
  | 0, _ => []
  | _, [] => []
  | n + 1, (c, true) :: rest => .exactly c :: ofMarked n rest
  | n + 1, ('*', false) :: rest => .many :: ofMarked n rest
  | n + 1, ('?', false) :: rest => .one :: ofMarked n rest
  | n + 1, ('\\', false) :: (c, _) :: rest => .exactly c :: ofMarked n rest
  | n + 1, ('[', false) :: rest =>
    match bracket? rest with
    | some (set, size) => .among set :: ofMarked n (rest.drop size)
    | none => .exactly '[' :: ofMarked n rest
  | n + 1, (c, false) :: rest => .exactly c :: ofMarked n rest

/-- The pattern of a text. -/
def ofText (text : List Marked) : Pattern :=
  ofMarked (text.length + 1) text

/-- Does a text have a part at its end that passes a test? -/
def anyEnd (test : Octets → Bool) : Octets → Bool
  | [] => test []
  | c :: rest => test (c :: rest) || anyEnd test rest

/-- Does a pattern fit a whole text? -/
def accepts : Pattern → Octets → Bool
  | [], text => text.isEmpty
  | .many :: rest, text => anyEnd (accepts rest) text
  | .exactly c :: rest, text => text.head? = some c && accepts rest text.tail
  | .one :: rest, text => !text.isEmpty && accepts rest text.tail
  | .among set :: rest, text => text.head?.any set.holds && accepts rest text.tail

/-- Does a pattern stand for more than one text? -/
def isOpen (pattern : Pattern) : Bool :=
  pattern.any fun
    | .exactly _ => false
    | _ => true

/-- The lengths from one number to another, up or down. -/
def lengths (limit : Nat) (longest : Bool) : List Nat :=
  if longest then (List.range (limit + 1)).reverse else List.range (limit + 1)

/-- A text without the front that a pattern fits. -/
def dropFront (pattern : Pattern) (longest : Bool) (text : Octets) : Octets :=
  match (lengths text.length longest).find? fun n => pattern.accepts (text.take n) with
  | some n => text.drop n
  | none => text

/-- A text without the end that a pattern fits. -/
def dropEnd (pattern : Pattern) (longest : Bool) (text : Octets) : Octets :=
  let fits (n : Nat) : Bool := pattern.accepts (text.drop (text.length - n))
  match (lengths text.length longest).find? fits with
  | some n => text.take (text.length - n)
  | none => text

end Pattern

end ExpectError.Shell
