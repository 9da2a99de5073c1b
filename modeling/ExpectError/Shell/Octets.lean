import ExpectError.Text.Fields
import ExpectError.Text.Utf8

/-!
# Strings of bytes

Programs exchange bytes, whatever they mean. A string of bytes is given by a list of characters,
each of which stands for the byte with its number, so that scripts and patterns can be written with
character literals.

* `ofBytes`, `toBytes`: to and from bytes;
* `ofText`, `toText`: the encoding of a text, and the text of an encoding.
-/

namespace ExpectError.Shell

/-- A string of bytes: the characters with their numbers. -/
abbrev Octets := List Char

namespace Octets

/-- The string of some bytes. -/
def ofBytes (bytes : List UInt8) : Octets :=
  bytes.map fun byte => Char.ofNat byte.toNat

/-- The bytes of a string. -/
def toBytes (octets : Octets) : List UInt8 :=
  octets.map fun c => UInt8.ofNat c.toNat

/-- The encoding of a text. -/
def ofText (text : List Char) : Octets :=
  ofBytes (String.ofList text).toUTF8.toList

/-- The text of an encoding, with a mark for what is none. -/
def toText (octets : Octets) : List Char :=
  Text.lenient octets.toBytes

/-- The encoding of a string. -/
def ofString (text : String) : Octets :=
  ofText text.toList

/-- The digits of a number. -/
def ofNat (n : Nat) : Octets :=
  (toString n).toList

/-- The digits of a number, with its sign. -/
def ofInt (n : Int) : Octets :=
  (toString n).toList

/-- The lines of a string, without their ends. What follows the last line end is a line of its own
unless it is empty. -/
def lines (octets : Octets) : List Octets :=
  let lines := Text.fields '\n' octets
  if lines.getLast? = some [] then lines.dropLast else lines

/-- Lines with their ends. -/
def ofLines (lines : List Octets) : Octets :=
  lines.flatMap (· ++ ['\n'])

/-- The number that decimal digits stand for. -/
def nat? (octets : Octets) : Option Nat :=
  if octets.isEmpty || !octets.all Char.isDigit then none
  else some (octets.foldl (fun n c => 10 * n + (c.toNat - '0'.toNat)) 0)

/-- The number that decimal digits stand for, which can have a sign. -/
def int? : Octets → Option Int
  | '-' :: digits => (nat? digits).map fun n => -(n : Int)
  | '+' :: digits => (nat? digits).map fun n => (n : Int)
  | digits => (nat? digits).map fun n => (n : Int)

end Octets

end ExpectError.Shell
