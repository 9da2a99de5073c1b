import ExpectError.Text.Bytes

/-!
# Insertions into a text

An insertion names a byte offset of the text as it was and the words to put there. Insertions are
made from the end of the text to its start, so that none moves the place of one that is still to
come. An offset inside a character belongs in front of that character, one beyond the text to its
end.
-/

namespace ExpectError

open Text (splitAtByte? floorBoundary)

/-- Words to put into a text at a byte offset. -/
structure Insertion where
  pos : Nat
  text : String
  deriving DecidableEq, Repr

namespace Insertion

/-- The order in which insertions are applied, from the end of the text to its start: descending
offsets, and descending words at one offset. -/
def appliesBefore (a b : Insertion) : Bool :=
  decide (b.pos < a.pos) || (decide (a.pos = b.pos) && decide (b.text ≤ a.text))

/-- The insertions from the end of the text to its start. -/
def sortForApplication (insertions : List Insertion) : List Insertion :=
  insertions.mergeSort appliesBefore

/-- Puts words into a text at a boundary; at any other offset there is no place for them. -/
def insertAt (pos : Nat) (words text : List Char) : List Char :=
  match splitAtByte? pos text with
  | some (before, after) => before ++ words ++ after
  | none => text

/-- Makes one insertion in a text that has been edited behind it. Its place is found in the text as
it was. -/
def applyTo (source edited : List Char) (insertion : Insertion) : List Char :=
  insertAt (floorBoundary insertion.pos source) insertion.text.toList edited

/-- Makes insertions one after the other. -/
def applyInOrder (source : List Char) (insertions : List Insertion) : List Char :=
  insertions.foldl (applyTo source) source

/-- The text with all insertions made. -/
def applyAll (source : String) (insertions : List Insertion) : String :=
  String.ofList (applyInOrder source.toList (sortForApplication insertions))

end Insertion

end ExpectError
