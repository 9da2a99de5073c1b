import ExpectError.Shell.Arithmetic
import ExpectError.Shell.Decimal
import ExpectError.Shell.State

/-!
# Writing texts and formats

* `echo`, `echoPlain`: texts with and without escapes;
* `printf`: values in a format.
-/

namespace ExpectError.Shell

/-- A program, by its arguments. -/
abbrev Program := List Octets → State → State

namespace Program

/-- The value of so many octal digits at most, and the rest. -/
def octal : Nat → Nat → Octets → Nat × Octets
  | digits + 1, value, c :: cs =>
    if '0' ≤ c && c ≤ '7' then octal digits (8 * value + (c.toNat - '0'.toNat)) cs
    else (value, c :: cs)
  | _, value, cs => (value, cs)

/-- The byte with a number. -/
def byteOf (n : Nat) : Char :=
  Char.ofNat (n % 256)

/-- The byte of a backslash with a letter. -/
def escape? : Char → Option Char
  | 'a' => some '\x07'
  | 'b' => some '\x08'
  | 'e' => some '\x1b'
  | 'f' => some '\x0c'
  | 'n' => some '\n'
  | 'r' => some '\x0d'
  | 't' => some '\t'
  | 'v' => some '\x0b'
  | '\\' => some '\\'
  | _ => none

/-- A text with its escapes replaced, and whether nothing more is to be written behind it. -/
def unescape : Nat → Octets → Octets × Bool
  | 0, _ => ([], false)
  | _, [] => ([], false)
  | _, '\\' :: 'c' :: _ => ([], true)
  | steps + 1, '\\' :: '0' :: rest =>
    let (value, rest) := octal 3 0 rest
    let (text, stops) := unescape steps rest
    (byteOf value :: text, stops)
  | steps + 1, '\\' :: c :: rest =>
    match escape? c with
    | some e =>
      let (text, stops) := unescape steps rest
      (e :: text, stops)
    | none =>
      if '1' ≤ c && c ≤ '7' then
        let (value, rest) := octal 3 0 (c :: rest)
        let (text, stops) := unescape steps rest
        (byteOf value :: text, stops)
      else
        let (text, stops) := unescape steps (c :: rest)
        ('\\' :: text, stops)
  | steps + 1, c :: rest =>
    let (text, stops) := unescape steps rest
    (c :: text, stops)

/-- Writes its arguments with blanks between them, and ends the line. -/
def echo : Program := fun arguments s =>
  let (ends, arguments) :=
    match arguments with
    | ['-', 'n'] :: rest => (false, rest)
    | arguments => (true, arguments)
  let text := [' '].intercalate arguments
  let (text, stops) := unescape (text.length + 1) text
  (s.print (text ++ if ends && !stops then ['\n'] else [])).done 0

/-- Is an argument one that says how a line is written? -/
def isLineOption (argument : Octets) : Bool :=
  argument.head? = some '-' && 1 < argument.length
    && argument.tail.all fun c => c = 'n' || c = 'e' || c = 'E'

/-- Writes its arguments as the program of that name does: escapes have their meaning only if it is
asked for. -/
def echoPlain : Program := fun arguments s =>
  let options := arguments.takeWhile isLineOption
  let letters := options.flatMap (·.tail)
  let text := [' '].intercalate (arguments.drop options.length)
  let escapes := (letters.filter fun c => c = 'e' || c = 'E').getLast? = some 'e'
  let (text, stops) := if escapes then unescape (text.length + 1) text else (text, false)
  (s.print (text ++ if letters.contains 'n' || stops then [] else ['\n'])).done 0

/-! ### Formats -/

/-- What a format has become so far. -/
structure Filling where
  arguments : List Octets
  /-- What has been written, the last piece first. -/
  written : List Octets := []
  /-- What is wrong, the last thing first. -/
  problems : List Octets := []
  /-- Is nothing more to be written? -/
  stopped : Bool := false
  /-- Has an argument been used? -/
  used : Bool := false

namespace Filling

/-- Adds a text. -/
def add (f : Filling) (text : Octets) : Filling :=
  { f with written := text :: f.written }

/-- The next argument. -/
def take (f : Filling) : Octets × Filling :=
  match f.arguments with
  | [] => ([], f)
  | a :: rest => (a, { f with arguments := rest, used := true })

/-- Notes what is wrong with a number of which only the front could be used. -/
def check (f : Filling) (argument rest : Octets) : Filling :=
  if rest.isEmpty then f
  else
    let reason := if rest = argument then ": expected numeric value".toList
      else ": not completely converted".toList
    { f with problems := (argument ++ reason) :: f.problems }

/-- The whole number of an argument. -/
def takeInteger (f : Filling) : Int × Filling :=
  match f.arguments with
  | [] => (0, f)
  | _ =>
    let (argument, f) := f.take
    match argument with
    | '"' :: c :: _ | '\'' :: c :: _ => (c.toNat, f)
    | _ =>
      let text := Expression.dropBlanks argument
      let (negative, digits) := match text with
        | '-' :: rest => (true, rest)
        | '+' :: rest => (false, rest)
        | rest => (false, rest)
      if digits.head?.any Char.isDigit then
        let (value, rest) := Expression.readNumber digits
        let n := min Expression.greatest value
        (if negative then -n else n, f.check argument rest)
      else (0, f.check argument argument)

/-- The floating-point number of an argument. -/
def takeReal (f : Filling) : Float × Filling :=
  match f.arguments with
  | [] => (0, f)
  | _ =>
    let (argument, f) := f.take
    match argument with
    | '"' :: c :: _ | '\'' :: c :: _ => (c.toNat.toFloat, f)
    | _ =>
      match readReal argument with
      | some (x, rest) => (x, f.check argument rest)
      | none => (0, f.check argument argument)

/-- A value in its layout, by the letter of its form. -/
def directive (f : Filling) (layout : Layout) (letter : Char) : Filling :=
  if letter = 's' then
    let (argument, f) := f.take
    f.add (layout.string argument)
  else if letter = 'c' then
    let (argument, f) := f.take
    f.add (layout.pad (argument.take 1))
  else if letter = 'b' then
    let (argument, f) := f.take
    let (text, stops) := unescape (argument.length + 1) argument
    { f.add (layout.string text) with stopped := stops }
  else if letter = 'd' || letter = 'i' then
    let (n, f) := f.takeInteger
    f.add (layout.integer n)
  else if ['o', 'u', 'x', 'X'].contains letter then
    let (n, f) := f.takeInteger
    f.add (layout.natural letter (n % 18446744073709551616).toNat)
  else
    let (x, f) := f.takeReal
    f.add (layout.real letter x)

/-- The letters of forms. -/
def letters : List Char :=
  ['s', 'c', 'b', 'd', 'i', 'o', 'u', 'x', 'X', 'e', 'E', 'f', 'F', 'g', 'G']

/-- Goes through a format, once. -/
def run : Nat → Octets → Filling → Filling
  | 0, _, f => f
  | _, [], f => f
  | n + 1, '%' :: '%' :: rest, f => run n rest (f.add ['%'])
  | n + 1, '%' :: text, f =>
    let number (k : Nat) : Int := ((f.arguments[k]?).bind Octets.int?).getD 0
    let (layout, taken, rest) := readLayout number text
    let f := { f with arguments := f.arguments.drop taken, used := f.used || 0 < taken }
    match rest with
    | [] => { f with problems := "missing format character".toList :: f.problems, stopped := true }
    | c :: rest =>
      if letters.contains c then
        let f := f.directive layout c
        if f.stopped then f else run n rest f
      else
        let directive := '%' :: text.take (text.length - rest.length)
        { f with
          problems := (directive ++ ": invalid directive".toList) :: f.problems
          stopped := true }
  | n + 1, '\\' :: c :: rest, f =>
    match escape? c with
    | some e => run n rest (f.add [e])
    | none =>
      if '0' ≤ c && c ≤ '7' then
        let (value, rest) := octal 3 0 (c :: rest)
        run n rest (f.add [byteOf value])
      else run n (c :: rest) (f.add ['\\'])
  | n + 1, c :: rest, f => run n rest (f.add [c])

/-- Goes through a format again and again until no argument is left. -/
def runAll (format : Octets) : Nat → Filling → Filling
  | 0, f => f
  | rounds + 1, f =>
    let f := run (format.length + 1) format { f with used := false }
    if f.stopped || f.arguments.isEmpty || !f.used then f else runAll format rounds f

/-- The text that has been written. -/
def text (f : Filling) : Octets :=
  f.written.reverse.flatten

end Filling

/-- Writes its arguments in a format. -/
def printf : Program := fun arguments s =>
  let arguments := if arguments.head? = some ['-', '-'] then arguments.tail else arguments
  match arguments with
  | [] => s.refuse "usage: printf format [arg ...]".toList 2
  | format :: arguments =>
    let f := Filling.runAll format (arguments.length + 1) { arguments }
    let s := f.problems.reverse.foldl
      (fun s problem => s.refuse problem 1) s
    let fatal := f.problems.head?.any fun problem =>
      problem = "missing format character".toList
        || ": invalid directive".toList.isSuffixOf problem
    (s.print f.text).done (if fatal then 2 else if f.problems.isEmpty then 0 else 1)

end Program

end ExpectError.Shell
