/-!
# Patterns of path names

A pattern is matched with the bytes of a whole path name. `?` and `*` do not match a slash; two
stars between slashes match any folders in between. Classes are in brackets, alternatives in braces.

* `Glob.ofText?`: the pattern of a text, or the error in it;
* `Glob.isMatch`: does a pattern match a path name?
-/

namespace ExpectError

namespace Glob

/-- A range of characters in a class. -/
structure CharRange where
  first : Char
  last : Char
  deriving DecidableEq, Repr

/-- A piece of a pattern. -/
inductive Piece where
  | literal (c : Char)
  /-- One byte that is no slash. -/
  | any
  /-- Any number of bytes that are no slashes. -/
  | star
  /-- Any folders, or none, at the front. -/
  | anyFront
  /-- A slash and anything behind it. -/
  | anyRest
  /-- A slash, or any folders between two slashes. -/
  | anyFolders
  /-- One byte of some ranges, or of none of them. -/
  | oneOf (negated : Bool) (ranges : List CharRange)
  /-- One of several lists of pieces; without any list, nothing at all. -/
  | alternatives (branches : List (List Piece))
  deriving Repr, Inhabited

/-- Why a text is no pattern. -/
inductive Error where
  | unclosedClass
  | invalidRange
  | unopenedAlternatives
  | unclosedAlternatives
  | danglingEscape
  deriving DecidableEq, Repr

/-! ### Reading patterns -/

/-- What has been read of a class. -/
structure ClassProgress where
  /-- The ranges, the last one first. -/
  ranges : List CharRange := []
  isFirst : Bool := true
  /-- Was the last character the dash of a range? -/
  inRange : Bool := false

/-- Ends the last range at a character. -/
def closeRange (ranges : List CharRange) (c : Char) : Except Error (List CharRange) :=
  match ranges with
  | [] => .ok []
  | range :: rest => if c < range.first then .error .invalidRange
    else .ok ({ range with last := c } :: rest)

/-- Takes one character of a class into account. -/
def ClassProgress.step (p : ClassProgress) (c : Char) : Except Error ClassProgress :=
  if p.inRange then do
    return { ranges := ← closeRange p.ranges c, isFirst := false, inRange := false }
  else if c = '-' && !p.isFirst then .ok { p with isFirst := false, inRange := true }
  else .ok { ranges := ⟨c, c⟩ :: p.ranges, isFirst := false, inRange := false }

/-- The ranges of a class up to its closing bracket; a bracket at the front belongs to the class. -/
def readClass (p : ClassProgress) : List Char → Except Error (List CharRange × List Char)
  | [] => .error .unclosedClass
  | c :: cs =>
    if c = ']' && !p.isFirst then
      .ok ((if p.inRange then ⟨'-', '-'⟩ :: p.ranges else p.ranges).reverse, cs)
    else do readClass (← p.step c) cs

/-- A list of pieces that is being read, and the lists around it. -/
structure Progress where
  /-- The pieces of the innermost list, the last one first. -/
  pieces : List Piece := []
  /-- For each open brace, from the inside out: the finished branches, the last one first, and the
  pieces in front of the brace, the last one first. -/
  outer : List (List (List Piece) × List Piece) := []

/-- Adds a piece. -/
def Progress.push (p : Progress) (piece : Piece) : Progress :=
  { p with pieces := piece :: p.pieces }

/-- Puts two stars that stand for folders in the place of the slash in front of them. -/
def Progress.pushFolders (p : Progress) (piece : Piece) : Progress :=
  match p.pieces with
  | .anyFront :: _ | .anyRest :: _ => p
  | _ :: rest => { p with pieces := piece :: rest }
  | [] => { p with pieces := [piece] }

/-- What two stars mean: the new progress, and whether the next character is used up. -/
def Progress.twoStars (p : Progress) (before next : Option Char) : Progress × Bool :=
  let plain := ((p.push .star).push .star, false)
  let atBranch := !p.outer.isEmpty && (before = some ',' || before = some '\x7b')
  if p.pieces.isEmpty then
    match next with
    | none => (p.push .anyFront, false)
    | some c => if c = '/' then (p.push .anyFront, true) else plain
  else if before ≠ some '/' && !atBranch then plain
  else
    match next with
    | none => (p.pushFolders .anyRest, false)
    | some c =>
      if (c = ',' || c = '\x7d') && !p.outer.isEmpty then (p.pushFolders .anyRest, false)
      else if c = '/' then (p.pushFolders .anyFolders, true)
      else plain

/-- Is a piece without any meaning? -/
def Piece.isVoid : Piece → Bool
  | .alternatives [] => true
  | _ => false

/-- Closes a brace. Branches without any meaning are left out. -/
def Progress.close (p : Progress) : Except Error Progress :=
  match p.outer with
  | [] => .error .unopenedAlternatives
  | (branches, pieces) :: outer =>
    let branches := (p.pieces.reverse :: branches).reverse.filter fun branch =>
      !branch.all Piece.isVoid
    .ok { pieces := .alternatives branches :: pieces, outer }

/-- A comma: the next branch inside braces, a comma elsewhere. -/
def Progress.comma (p : Progress) : Progress :=
  match p.outer with
  | [] => p.push (.literal ',')
  | (branches, pieces) :: outer =>
    { pieces := [], outer := (p.pieces.reverse :: branches, pieces) :: outer }

/-- Reads a pattern behind a character. The number bounds the steps. -/
def readPieces : Nat → Option Char → Progress → List Char → Except Error Progress
  | 0, _, p, _ => .ok p
  | _ + 1, _, p, [] => .ok p
  | n + 1, before, p, c :: cs =>
    match c with
    | '?' => readPieces n (some c) (p.push .any) cs
    | '*' =>
      match cs with
      | '*' :: rest =>
        let (p, usesNext) := p.twoStars before rest.head?
        if usesNext then readPieces n (some '/') p rest.tail else readPieces n (some c) p rest
      | _ => readPieces n (some c) (p.push .star) cs
    | '[' => do
      let (negated, cs) := match cs with
        | '!' :: rest | '^' :: rest => (true, rest)
        | _ => (false, cs)
      let (ranges, rest) ← readClass {} cs
      readPieces n (some ']') (p.push (.oneOf negated ranges)) rest
    | '\x7b' => readPieces n (some c) { pieces := [], outer := ([], p.pieces) :: p.outer } cs
    | '\x7d' => do readPieces n (some c) (← p.close) cs
    | ',' => readPieces n (some c) p.comma cs
    | '\\' =>
      match cs with
      | [] => .error .danglingEscape
      | next :: rest => readPieces n (some next) (p.push (.literal next)) rest
    | c => readPieces n (some c) (p.push (.literal c)) cs

end Glob

/-- A pattern of path names. -/
structure Glob where
  pieces : List Glob.Piece
  deriving Repr, Inhabited

namespace Glob

/-- The pattern of a text. -/
def ofText? (text : List Char) : Except Error Glob := do
  let p ← readPieces (text.length + 1) none {} text
  if p.outer.isEmpty then return ⟨p.pieces.reverse⟩ else throw .unclosedAlternatives

/-! ### Matching -/

/-- The byte of a slash. -/
def slash : UInt8 := 47

/-- The bytes of a character. -/
def bytesOf (c : Char) : List UInt8 :=
  (String.singleton c).toUTF8.toList

/-- Is a byte in a range of characters? The bytes of each end count by themselves, and so does what
lies between the last byte of the first character and the first byte of the last one. -/
def CharRange.holds (range : CharRange) (byte : UInt8) : Bool :=
  let low := bytesOf range.first
  let high := bytesOf range.last
  if range.first = range.last then low.contains byte
  else
    low.dropLast.contains byte || high.tail.contains byte
      || (low.getLastD 0 ≤ byte && byte ≤ high.headD 0)

/-- Does something hold behind some of the bytes that are no slashes? -/
def behindStar (next : List UInt8 → Bool) : List UInt8 → Bool
  | [] => next []
  | byte :: bytes => next (byte :: bytes) || (byte ≠ slash && behindStar next bytes)

/-- Does something hold behind some slash? -/
def behindSlash (next : List UInt8 → Bool) : List UInt8 → Bool
  | [] => false
  | byte :: bytes => (byte = slash && next bytes) || behindSlash next bytes

/-- Does something hold behind any of the bytes? -/
def behindAny (next : List UInt8 → Bool) : List UInt8 → Bool
  | [] => next []
  | byte :: bytes => next (byte :: bytes) || behindAny next bytes

mutual

/-- Does a piece match the front of some bytes, and something hold of the rest? -/
def Piece.accepts (next : List UInt8 → Bool) : Piece → List UInt8 → Bool
  | .literal c, bytes =>
    (bytesOf c).isPrefixOf bytes && next (bytes.drop (bytesOf c).length)
  | .any, byte :: bytes => byte ≠ slash && next bytes
  | .any, [] => false
  | .star, bytes => behindStar next bytes
  | .anyFront, bytes => next bytes || behindSlash next bytes
  | .anyRest, byte :: bytes => byte = slash && behindAny next bytes
  | .anyRest, [] => false
  | .anyFolders, byte :: bytes => byte = slash && (next bytes || behindSlash next bytes)
  | .anyFolders, [] => false
  | .oneOf negated ranges, byte :: bytes =>
    ranges.any (·.holds byte) != negated && next bytes
  | .oneOf _ _, [] => false
  | .alternatives [], bytes => next bytes
  | .alternatives (branch :: rest), bytes =>
    acceptsAll next branch bytes || acceptsAny next rest bytes

/-- Does a list of pieces match the front of some bytes, and something hold of the rest? -/
def acceptsAll (next : List UInt8 → Bool) : List Piece → List UInt8 → Bool
  | [], bytes => next bytes
  | piece :: rest, bytes => piece.accepts (acceptsAll next rest) bytes

/-- Does one of several lists of pieces match? -/
def acceptsAny (next : List UInt8 → Bool) : List (List Piece) → List UInt8 → Bool
  | [], _ => false
  | branch :: rest, bytes => acceptsAll next branch bytes || acceptsAny next rest bytes

end

/-- Does a pattern match all bytes? Two stars by themselves match everything. -/
def matchesBytes (glob : Glob) (bytes : List UInt8) : Bool :=
  match glob.pieces with
  | [.anyFront] => true
  | pieces => acceptsAll List.isEmpty pieces bytes

/-- Does a pattern match a path name? -/
def isMatch (glob : Glob) (path : List Char) : Bool :=
  glob.matchesBytes (String.ofList path).toUTF8.toList

end Glob

end ExpectError
