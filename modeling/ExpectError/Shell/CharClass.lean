/-!
# Classes of bytes

The classes that patterns and expressions can name between brackets, and sets of bytes in brackets.
-/

namespace ExpectError.Shell

/-- A class with a name. -/
def namedClass? : String → Option (Char → Bool)
  | "alpha" => some Char.isAlpha
  | "digit" => some Char.isDigit
  | "alnum" => some Char.isAlphanum
  | "upper" => some Char.isUpper
  | "lower" => some Char.isLower
  | "blank" => some fun c => c = ' ' || c = '\t'
  | "space" => some fun c => c = ' ' || ('\t' ≤ c && c ≤ '\x0d')
  | "punct" => some fun c => '!' ≤ c && c ≤ '~' && !c.isAlphanum
  | "print" => some fun c => ' ' ≤ c && c ≤ '~'
  | "graph" => some fun c => '!' ≤ c && c ≤ '~'
  | "cntrl" => some fun c => c < ' ' || c = '\x7f'
  | "xdigit" => some fun c => c.isDigit || ('a' ≤ c && c ≤ 'f') || ('A' ≤ c && c ≤ 'F')
  | _ => none

/-- Some of the bytes in brackets. -/
inductive Members where
  | range (first last : Char)
  | named (name : String)
  deriving DecidableEq, Repr

/-- Is a byte among some? -/
def Members.holds (c : Char) : Members → Bool
  | .range first last => first ≤ c && c ≤ last
  | .named name => ((namedClass? name).map (· c)).getD false

/-- A set of bytes in brackets. -/
structure ByteSet where
  negated : Bool
  members : List Members
  deriving DecidableEq, Repr

/-- Is a byte in a set? -/
def ByteSet.holds (set : ByteSet) (c : Char) : Bool :=
  set.members.any (·.holds c) != set.negated

/-- The name of a class and what is behind it, behind a bracket and a colon. -/
def className? : List Char → Option (String × List Char)
  | ':' :: ']' :: rest => some ("", rest)
  | c :: rest =>
    if c.isLower then (className? rest).map fun (name, rest) => (String.singleton c ++ name, rest)
    else none
  | [] => none

/-- The members up to a closing bracket, and what is behind it. A closing bracket in front stands
for itself. -/
def readMembers : Nat → Bool → List Char → Option (List Members × List Char)
  | 0, _, _ => none
  | _, _, [] => none
  | _ + 1, false, ']' :: rest => some ([], rest)
  | n + 1, _, '[' :: ':' :: rest =>
    match className? rest with
    | some (name, rest) =>
      (readMembers n false rest).map fun (members, rest) => (.named name :: members, rest)
    | none =>
      (readMembers n false (':' :: rest)).map fun (members, rest) =>
        (.range '[' '[' :: members, rest)
  | n + 1, _, first :: '-' :: last :: rest =>
    if last = ']' then
      (readMembers n false ('-' :: last :: rest)).map fun (members, rest) =>
        (.range first first :: members, rest)
    else
      (readMembers n false rest).map fun (members, rest) => (.range first last :: members, rest)
  | n + 1, _, c :: rest =>
    (readMembers n false rest).map fun (members, rest) => (.range c c :: members, rest)

/-- A set behind an opening bracket, and what is behind it. One of some characters in front takes
the other bytes. -/
def readSet? (negations : List Char) (text : List Char) : Option (ByteSet × List Char) :=
  let negated := text.head?.any negations.contains
  let text := if negated then text.drop 1 else text
  (readMembers (text.length + 1) true text).map fun (members, rest) => ({ negated, members }, rest)

end ExpectError.Shell
