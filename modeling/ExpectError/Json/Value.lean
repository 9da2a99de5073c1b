import ExpectError.Json.Double

/-!
# JSON values and how they are written

Objects keep the order of their members. A value is written on one line (`compact`) or with one
member or element on each line (`pretty`).
-/

namespace ExpectError.Json

/-- A number: whole, or with a binary fraction. -/
inductive Number where
  | whole (value : Int)
  | double (negative : Bool) (magnitude : Magnitude)
  deriving DecidableEq, Repr

/-- A JSON value. -/
inductive Value where
  | null
  | bool (value : Bool)
  | number (value : Number)
  | string (value : String)
  | array (elements : List Value)
  | object (members : List (String × Value))
  deriving Repr, Inhabited

namespace Value

/-- A natural number as a value. -/
def nat (n : Nat) : Value :=
  .number (.whole n)

end Value

/-- Puts a member into an object. A repeated name keeps its first place and takes the last value. -/
def insertMember (name : String) (value : Value) :
    List (String × Value) → List (String × Value)
  | [] => [(name, value)]
  | (n, v) :: rest =>
    if n = name then (name, value) :: rest else (n, v) :: insertMember name value rest

/-! ### Numbers -/

/-- Decimal digits, written with a point or with an exponent. Positional digits are used between
`10 ^ (-5)` and `10 ^ 16`, and a whole number gets a zero behind the point. -/
def positional (d : Magnitude.Decimal) : List Char :=
  let digits := Nat.toDigits 10 d.digits
  let point : Int := digits.length + d.exponent
  if 0 ≤ d.exponent && point ≤ 16 then
    digits ++ List.replicate d.exponent.toNat '0' ++ ['.', '0']
  else if 0 < point && point ≤ 16 then
    digits.take point.toNat ++ '.' :: digits.drop point.toNat
  else if -5 < point && point ≤ 0 then
    '0' :: '.' :: List.replicate (-point).toNat '0' ++ digits
  else
    let exponent := 'e' :: (toString (point - 1)).toList
    match digits with
    | [digit] => digit :: exponent
    | digit :: rest => digit :: '.' :: rest ++ exponent
    | [] => exponent

/-- The text of a number. -/
def Number.text : Number → List Char
  | .whole value => (toString value).toList
  | .double negative magnitude =>
    let digits := positional magnitude.shortest
    if negative then '-' :: digits else digits

/-! ### Strings -/

/-- A hexadecimal digit. -/
def hexDigit (n : Nat) : Char :=
  Nat.digitChar n

/-- A character between quotes. -/
def escaped (c : Char) : List Char :=
  match c with
  | '"' => ['\\', '"']
  | '\\' => ['\\', '\\']
  | '\n' => ['\\', 'n']
  | '\r' => ['\\', 'r']
  | '\t' => ['\\', 't']
  | '\x08' => ['\\', 'b']
  | '\x0c' => ['\\', 'f']
  | c =>
    if c.toNat < 0x20 then ['\\', 'u', '0', '0', hexDigit (c.toNat / 16), hexDigit (c.toNat % 16)]
    else [c]

/-- A string between quotes. -/
def quoted (text : String) : List Char :=
  '"' :: text.toList.flatMap escaped ++ ['"']

/-! ### Values -/

/-- Items between brackets with a separator between them. -/
def bracketed (opening closing separator : List Char) (items : List (List Char)) : List Char :=
  opening ++ separator.intercalate items ++ closing

mutual

/-- A value on one line. -/
def compactChars : Value → List Char
  | .null => "null".toList
  | .bool value => (toString value).toList
  | .number value => value.text
  | .string value => quoted value
  | .array elements => bracketed ['['] [']'] [','] (compactElements elements)
  | .object members => bracketed ['\x7b'] ['\x7d'] [','] (compactMembers members)

/-- Each element of an array on one line. -/
def compactElements : List Value → List (List Char)
  | [] => []
  | value :: rest => compactChars value :: compactElements rest

/-- Each member of an object on one line. -/
def compactMembers : List (String × Value) → List (List Char)
  | [] => []
  | (name, value) :: rest => (quoted name ++ ':' :: compactChars value) :: compactMembers rest

end

/-- A value on one line. -/
def Value.compact (value : Value) : String :=
  String.ofList (compactChars value)

/-- A line end and the indentation of the next line. -/
def newLine (depth : Nat) : List Char :=
  '\n' :: List.replicate (2 * depth) ' '

/-- Items between brackets, one on each line; nothing between the brackets if there are none. -/
def indented (opening closing : Char) (depth : Nat) (items : List (List Char)) : List Char :=
  if items.isEmpty then [opening, closing]
  else
    bracketed (opening :: newLine (depth + 1)) (newLine depth ++ [closing])
      (',' :: newLine (depth + 1)) items

mutual

/-- A value with one element on each line, inside a given number of brackets. -/
def prettyChars (depth : Nat) : Value → List Char
  | .null => "null".toList
  | .bool value => (toString value).toList
  | .number value => value.text
  | .string value => quoted value
  | .array elements => indented '[' ']' depth (prettyElements (depth + 1) elements)
  | .object members => indented '\x7b' '\x7d' depth (prettyMembers (depth + 1) members)

/-- Each element of an array. -/
def prettyElements (depth : Nat) : List Value → List (List Char)
  | [] => []
  | value :: rest => prettyChars depth value :: prettyElements depth rest

/-- Each member of an object. -/
def prettyMembers (depth : Nat) : List (String × Value) → List (List Char)
  | [] => []
  | (name, value) :: rest =>
    (quoted name ++ ':' :: ' ' :: prettyChars depth value) :: prettyMembers depth rest

end

/-- A value with one element on each line. -/
def Value.pretty (value : Value) : String :=
  String.ofList (prettyChars 0 value)

end ExpectError.Json
