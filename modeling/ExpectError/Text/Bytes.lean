/-!
# Byte offsets in a text

Offsets count the bytes of the UTF-8 encoding. A text is a list of characters, so an offset names a
place between two characters only if it is the byte length of one of the text's beginnings: a
*boundary*.

* `byteLength`: the number of bytes of a text;
* `splitAtByte?`: the two parts at a boundary, nothing at any other offset;
* `slice?`: the part between two boundaries;
* `floorBoundary`: the nearest boundary at or below an offset.
-/

namespace ExpectError.Text

/-- The number of bytes of the UTF-8 encoding. -/
def byteLength : List Char → Nat
  | [] => 0
  | c :: cs => c.utf8Size + byteLength cs

/-- The number of UTF-16 code units of one character. -/
def unitSize (c : Char) : Nat :=
  if c.toNat < 0x10000 then 1 else 2

/-- The number of UTF-16 code units of a text. -/
def unitLength : List Char → Nat
  | [] => 0
  | c :: cs => unitSize c + unitLength cs

/-- The two parts of a text at byte offset `n`, if `n` is a boundary of it. -/
def splitAtByte? : Nat → List Char → Option (List Char × List Char)
  | 0, cs => some ([], cs)
  | _ + 1, [] => none
  | n + 1, c :: cs =>
    if n + 1 < c.utf8Size then none
    else (splitAtByte? (n + 1 - c.utf8Size) cs).map fun (a, b) => (c :: a, b)

/-- The part of a text from byte offset `start` to byte offset `stop`, if both are boundaries and
in this order. -/
def slice? (start stop : Nat) (cs : List Char) : Option (List Char) :=
  if stop < start then none
  else do
    let (_, rest) ← splitAtByte? start cs
    let (middle, _) ← splitAtByte? (stop - start) rest
    return middle

/-- The nearest boundary at or below offset `n`; the end of the text for any offset beyond it. -/
def floorBoundary : Nat → List Char → Nat
  | _, [] => 0
  | n, c :: cs => if n < c.utf8Size then 0 else c.utf8Size + floorBoundary (n - c.utf8Size) cs

@[simp] theorem byteLength_nil : byteLength [] = 0 := rfl

@[simp] theorem byteLength_cons (c : Char) (cs : List Char) :
    byteLength (c :: cs) = c.utf8Size + byteLength cs := rfl

@[simp] theorem byteLength_append (a b : List Char) :
    byteLength (a ++ b) = byteLength a + byteLength b := by
  induction a with
  | nil => simp
  | cons c a ih => simp [ih, Nat.add_assoc]

end ExpectError.Text
