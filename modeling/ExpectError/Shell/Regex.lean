import ExpectError.Shell.CharClass
import ExpectError.Shell.Octets

/-!
# Regular expressions

Expressions over bytes, with groups and references to what groups have taken. Of all the places at
which an expression can match, the leftmost one counts, and there the longest match.

* `Regex.find?`: the first match in a text;
* `Regex.read`: the expression that a text stands for, in one of two ways to write it.
-/

namespace ExpectError.Shell

/-- A regular expression. -/
inductive Regex where
  | empty
  | char (c : Char)
  | any
  | among (set : ByteSet)
  | both (first second : Regex)
  | either (first second : Regex)
  /-- So many times, up to a limit if there is one. -/
  | times (least : Nat) (limit : Option Nat) (body : Regex)
  | group (number : Nat) (body : Regex)
  /-- What a group has taken. -/
  | again (number : Nat)
  | lineStart
  | lineEnd
  | wordStart
  | wordEnd
  /-- The edge of a word, or any other place. -/
  | wordEdge (isEdge : Bool)
  deriving DecidableEq, Repr

namespace Regex

/-! ### Matching -/

/-- A place in a text. -/
structure Place where
  /-- The bytes in front, the last one first. -/
  passed : List Char
  rest : List Char
  deriving DecidableEq, Repr

/-- What groups have taken, by their numbers. -/
abbrev Captures := List (Nat × Octets)

/-- A place that a match has come to. -/
structure Reached where
  place : Place
  captures : Captures
  deriving DecidableEq, Repr

/-- The byte with the case of letters taken away. -/
def folded (c : Char) : Char :=
  c.toLower

/-- Are two bytes the same, with or without the case of letters? -/
def same (fold : Bool) (a b : Char) : Bool :=
  a = b || (fold && folded a = folded b)

/-- Is a byte in a set, with or without the case of letters? -/
def inSet (fold : Bool) (set : ByteSet) (c : Char) : Bool :=
  if fold then
    (set.members.any fun members => members.holds c || members.holds c.toLower
      || members.holds c.toUpper) != set.negated
  else set.holds c

/-- Is a byte part of a word? -/
def isWordPart (c : Char) : Bool :=
  c.isAlphanum || c = '_'

namespace Place

/-- One byte further. -/
def next? (place : Place) : Option (Char × Place) :=
  match place.rest with
  | [] => none
  | c :: rest => some (c, { passed := c :: place.passed, rest })

/-- The places behind a byte that passes a test. -/
def step (test : Char → Bool) (place : Place) : List Place :=
  match place.next? with
  | some (c, after) => if test c then [after] else []
  | none => []

/-- The places behind a text. -/
def follow (fold : Bool) (place : Place) : Octets → List Place
  | [] => [place]
  | c :: text => (place.step (same fold c)).flatMap fun place => place.follow fold text

/-- Is there a part of a word in front? -/
def behindWord (place : Place) : Bool :=
  place.passed.head?.any isWordPart

/-- Is there a part of a word behind? -/
def beforeWord (place : Place) : Bool :=
  place.rest.head?.any isWordPart

/-- The bytes between an earlier place and this one. -/
def since (place start : Place) : Octets :=
  start.rest.take (start.rest.length - place.rest.length)

end Place

/-- Leaves only the first way to come to each place. -/
def distinct : List Reached → List Reached
  | [] => []
  | r :: rest => r :: (distinct rest).filter fun q => q.place.rest.length ≠ r.place.rest.length

/-- Repeats a step, the longest ways first. Steps that lead nowhere are not repeated. -/
def repeatStep (step : Reached → List Reached) (limit : Option Nat) : Nat → Nat → Reached →
    List Reached
  | 0, _, r => [r]
  | bound + 1, done, r =>
    if limit = some done then [r]
    else
      match (step r).filter fun q => q.place.rest.length < r.place.rest.length with
      | [q] => repeatStep step limit bound (done + 1) q ++ [r]
      | further => distinct (further.flatMap (repeatStep step limit bound (done + 1)) ++ [r])

/-- Takes a step so many times. -/
def takeSteps (step : Reached → List Reached) : Nat → Reached → List Reached
  | 0, r => [r]
  | n + 1, r => distinct ((step r).flatMap (takeSteps step n))

/-- The places that an expression can come to, the preferred ones first. -/
def reach (fold : Bool) : Regex → Reached → List Reached
  | .empty, r => [r]
  | .char c, r => (r.place.step (same fold c)).map fun place => { r with place }
  | .any, r => (r.place.step fun _ => true).map fun place => { r with place }
  | .among set, r => (r.place.step (inSet fold set)).map fun place => { r with place }
  | .both first second, r => distinct ((reach fold first r).flatMap (reach fold second))
  | .either first second, r => distinct (reach fold first r ++ reach fold second r)
  | .times least limit body, r =>
    let step := reach fold body
    let bound := r.place.rest.length + 1
    let started := takeSteps step least r
    distinct (started.flatMap (repeatStep step (limit.map (· - least)) bound 0))
  | .group number body, r =>
    (reach fold body r).map fun q =>
      let captured := q.place.since r.place
      { q with captures := (number, captured) :: q.captures.filter (·.1 ≠ number) }
  | .again number, r =>
    match r.captures.lookup number with
    | none => []
    | some text => (r.place.follow fold text).map fun place => { r with place }
  | .lineStart, r => if r.place.passed.isEmpty then [r] else []
  | .lineEnd, r => if r.place.rest.isEmpty then [r] else []
  | .wordStart, r => if !r.place.behindWord && r.place.beforeWord then [r] else []
  | .wordEnd, r => if r.place.behindWord && !r.place.beforeWord then [r] else []
  | .wordEdge isEdge, r =>
    if (r.place.behindWord != r.place.beforeWord) = isEdge then [r] else []

/-- A match in a text. -/
structure Match where
  /-- The bytes in front of the match, the last one first. -/
  passed : List Char
  text : Octets
  rest : Octets
  captures : Captures
  deriving DecidableEq, Repr

/-- The longest of some places. -/
def longest : List Reached → Option Reached
  | [] => none
  | r :: rest =>
    match longest rest with
    | none => some r
    | some q => if q.place.rest.length < r.place.rest.length then some q else some r

/-- The match at a place. -/
def matchAt? (fold : Bool) (regex : Regex) (place : Place) : Option Match :=
  (longest (reach fold regex { place, captures := [] })).map fun r =>
    { passed := place.passed
      text := r.place.since place
      rest := r.place.rest
      captures := r.captures }

/-- The first match from a place on. -/
def findFrom? (fold : Bool) (regex : Regex) (passed : List Char) : List Char → Option Match
  | [] => regex.matchAt? fold { passed, rest := [] }
  | c :: rest =>
    match regex.matchAt? fold { passed, rest := c :: rest } with
    | some found => some found
    | none => findFrom? fold regex (c :: passed) rest

/-- The first match in a text. -/
def find? (fold : Bool) (regex : Regex) (text : Octets) : Option Match :=
  regex.findFrom? fold [] text

/-! ### Reading -/

/-- How an expression is written. -/
structure Style where
  /-- Do parentheses, braces and bars have their meaning without a backslash? -/
  extended : Bool
  deriving DecidableEq, Repr

/-- What is wrong with an expression. -/
inductive Problem where
  | unmatchedBracket
  | unmatchedParenthesis
  | unmatchedClosing
  | unmatchedBrace
  | badReference
  | trailingBackslash
  | badInterval
  | nothingBefore
  deriving DecidableEq, Repr

/-- The words about an expression. -/
def Problem.message : Problem → String
  | .unmatchedBracket => "Unmatched [, [^, [:, [., or [="
  | .unmatchedParenthesis => "Unmatched ( or \\("
  | .unmatchedClosing => "Unmatched ) or \\)"
  | .unmatchedBrace => "Unmatched \\\x7b"
  | .badReference => "Invalid back reference"
  | .trailingBackslash => "Trailing backslash"
  | .badInterval => "Invalid content of \\\x7b\\\x7d"
  | .nothingBefore => "Invalid preceding regular expression"

/-- The set of a backslash with a letter. -/
def escapedSet? (c : Char) : Option ByteSet :=
  let word : List Members := [.named "alnum", .range '_' '_']
  match c with
  | 'w' => some { negated := false, members := word }
  | 'W' => some { negated := true, members := word }
  | 's' => some { negated := false, members := [.named "space"] }
  | 'S' => some { negated := true, members := [.named "space"] }
  | _ => none

/-- The place that a backslash with a letter stands for. -/
def escapedPlace? : Char → Option Regex
  | 'b' => some (.wordEdge true)
  | 'B' => some (.wordEdge false)
  | '<' => some .wordStart
  | '>' => some .wordEnd
  | '\x60' => some .lineStart
  | '\'' => some .lineEnd
  | _ => none

/-- What comes next in an expression. -/
inductive Sign where
  | opens
  | closes
  | bar
  | star
  | plus
  | question
  | brace
  | other
  deriving DecidableEq, Repr

/-- What comes next in an expression, and how many bytes it is written with. -/
def signAt (style : Style) (text : List Char) : Sign × Nat :=
  let ofChar : Char → Sign
    | '(' => .opens
    | ')' => .closes
    | '|' => .bar
    | '+' => .plus
    | '?' => .question
    | '\x7b' => .brace
    | _ => .other
  match text with
  | '*' :: _ => (.star, 1)
  | '\\' :: c :: _ => if style.extended then (.other, 0) else (ofChar c, 2)
  | c :: _ => if style.extended then (ofChar c, 1) else (.other, 0)
  | [] => (.other, 0)

/-- The limits of a repetition behind its opening brace, and what is behind its closing one. -/
def interval? (style : Style) (text : List Char) : Option (Nat × Option Nat × List Char) :=
  let first := text.takeWhile Char.isDigit
  let rest := text.drop first.length
  let close (least : Nat) (limit : Option Nat) : List Char → Option (Nat × Option Nat × List Char)
    | '\x7d' :: rest => if style.extended then some (least, limit, rest) else none
    | '\\' :: '\x7d' :: rest => if style.extended then none else some (least, limit, rest)
    | _ => none
  match rest with
  | ',' :: rest =>
    let second := rest.takeWhile Char.isDigit
    let least := (Octets.nat? first).getD 0
    close least (Octets.nat? second) (rest.drop second.length)
  | rest => (Octets.nat? first).bind fun n => close n (some n) rest

/-- What has been read: the expression, the groups so far, and what is left. -/
abbrev Parsed := Except Problem (Regex × Nat × List Char)

/-- The expression with what is repeated behind it. -/
def readRepeats (style : Style) : Nat → Regex → List Char → Except Problem (Regex × List Char)
  | 0, regex, text => .ok (regex, text)
  | n + 1, regex, text =>
    match signAt style text with
    | (.star, size) => readRepeats style n (.times 0 none regex) (text.drop size)
    | (.plus, size) => readRepeats style n (.times 1 none regex) (text.drop size)
    | (.question, size) => readRepeats style n (.times 0 (some 1) regex) (text.drop size)
    | (.brace, size) =>
      match interval? style (text.drop size) with
      | some (least, limit, rest) =>
        if limit.any (· < least) then .error .badInterval
        else readRepeats style n (.times least limit regex) rest
      | none => if style.extended then .ok (regex, text) else .error .unmatchedBrace
    | _ => .ok (regex, text)

/-- A backslash with the byte behind it. -/
def readEscape (groups : Nat) (c : Char) : Except Problem Regex :=
  match escapedSet? c, escapedPlace? c with
  | some set, _ => .ok (.among set)
  | none, some place => .ok place
  | none, none =>
    if '1' ≤ c && c ≤ '9' then
      let number := c.toNat - '0'.toNat
      if number ≤ groups then .ok (.again number) else .error .badReference
    else if c = 'n' then .ok (.char '\n')
    else if c = 't' then .ok (.char '\t')
    else .ok (.char c)

mutual

/-- Alternatives, inside so many groups. -/
def readEither (style : Style) : Nat → Nat → Nat → List Char → Parsed
  | 0, _, _, _ => .error .unmatchedParenthesis
  | n + 1, depth, groups, text => do
    let (first, groups, rest) ← readBoth style n depth true groups text
    match signAt style rest with
    | (.bar, size) =>
      let (second, groups, rest) ← readEither style n depth groups (rest.drop size)
      return (.either first second, groups, rest)
    | _ => return (first, groups, rest)

/-- Pieces one after another. -/
def readBoth (style : Style) : Nat → Nat → Bool → Nat → List Char → Parsed
  | 0, _, _, _, _ => .error .unmatchedParenthesis
  | n + 1, depth, atStart, groups, text => do
    match text, signAt style text with
    | [], _ | _, (.bar, _) => return (.empty, groups, text)
    | _, (.closes, _) =>
      if 0 < depth then return (.empty, groups, text)
      else if style.extended then
        let (regex, rest) ← readRepeats style n (.char ')') (text.drop 1)
        let (more, groups, rest) ← readBoth style n depth false groups rest
        return (.both regex more, groups, rest)
      else throw .unmatchedClosing
    | _, _ =>
      let (atom, isAnchor, groups, rest) ← readAtom style n depth atStart groups text
      let (atom, rest) ←
        if isAnchor && !style.extended then pure (atom, rest) else readRepeats style n atom rest
      let (more, groups, rest) ← readBoth style n depth (isAnchor && atStart) groups rest
      return (.both atom more, groups, rest)

/-- One piece without repetitions, and whether it stands for the start of a line. -/
def readAtom (style : Style) : Nat → Nat → Bool → Nat → List Char →
    Except Problem (Regex × Bool × Nat × List Char)
  | 0, _, _, _, _ => .error .unmatchedParenthesis
  | n + 1, depth, atStart, groups, text => do
    match signAt style text with
    | (.opens, size) =>
      let number := groups + 1
      let (body, groups, rest) ← readEither style n (depth + 1) number (text.drop size)
      match signAt style rest with
      | (.closes, size) => return (.group number body, false, groups, rest.drop size)
      | _ => throw .unmatchedParenthesis
    | _ =>
      match text with
      | '.' :: rest => return (.any, false, groups, rest)
      | '[' :: rest =>
        match readSet? ['^'] rest with
        | some (set, rest) => return (.among set, false, groups, rest)
        | none => throw .unmatchedBracket
      | '^' :: rest =>
        if style.extended || atStart then return (.lineStart, true, groups, rest)
        else return (.char '^', false, groups, rest)
      | '$' :: rest =>
        let atEnd := match rest, signAt style rest with
          | [], _ | _, (.bar, _) | _, (.closes, _) => true
          | _, _ => style.extended
        if atEnd then return (.lineEnd, false, groups, rest)
        else return (.char '$', false, groups, rest)
      | ['\\'] => throw .trailingBackslash
      | '\\' :: c :: rest => return (← readEscape groups c, false, groups, rest)
      | c :: rest => return (.char c, false, groups, rest)
      | [] => return (.empty, false, groups, [])

end

/-- The expression of a text. -/
def read (style : Style) (text : Octets) : Except Problem Regex := do
  let (regex, _, _) ← readEither style (4 * text.length + 8) 0 0 text
  return regex

/-- The number of the last group of an expression. -/
def groups : Regex → Nat
  | .both first second | .either first second => max first.groups second.groups
  | .times _ _ body => body.groups
  | .group number body => max number body.groups
  | _ => 0

/-- The expression that takes a text as it is. -/
def ofLiteral : Octets → Regex
  | [] => .empty
  | c :: rest => .both (.char c) (ofLiteral rest)

end Regex

end ExpectError.Shell
