import ExpectError.Text.Ranges

/-!
# Blank characters

The code points with the Unicode property `White_Space`, and trimming by them.
-/

namespace ExpectError.Text

/-- The ranges of the property `White_Space`, in ascending order. -/
def blankRanges : Ranges :=
  [(0x9, 0xD), (0x20, 0x20), (0x85, 0x85), (0xA0, 0xA0), (0x1680, 0x1680), (0x2000, 0x200A),
   (0x2028, 0x2029), (0x202F, 0x202F), (0x205F, 0x205F), (0x3000, 0x3000)]

/-- Spaces, tabs, line ends and all other characters with the property `White_Space`. -/
def isBlank (c : Char) : Bool :=
  blankRanges.contains c.toNat

/-- The visible characters of ASCII are not blank. -/
theorem isBlank_of_visible {c : Char} (hlow : 33 ≤ c.toNat) (hhigh : c.toNat ≤ 126) :
    isBlank c = false := by
  rw [← Bool.not_eq_true, isBlank, Ranges.contains_iff]
  rintro ⟨range, hrange, hle, hge⟩
  have hapart : ∀ range ∈ blankRanges, range.2 < 33 ∨ 126 < range.1 := by decide
  have := hapart range hrange
  omega

/-- Drops the blank characters at the front. -/
def trimLeft (cs : List Char) : List Char :=
  cs.dropWhile isBlank

/-- Drops the blank characters at both ends. -/
def trim (cs : List Char) : List Char :=
  (trimLeft (trimLeft cs).reverse).reverse

/-- Is there nothing but blank characters? -/
def allBlank (cs : List Char) : Bool :=
  cs.all isBlank

end ExpectError.Text
