import ExpectError.Shell.CharClass
import ExpectError.Shell.Programs.Paths

/-!
# Programs for lines

Programs that take lines apart, put them together, choose them by their numbers, and order or count
them.
-/

namespace ExpectError.Shell

namespace Program

/-- Writes the contents of files, each changed in the same way. -/
def eachFile (message : Octets → FileError → Octets) (files : List Octets)
    (change : Octets → Octets) (s : State) : State :=
  let (found, s) := allContents message files s
  s.print (found.flatMap fun (_, text) => change text)

/-! ### The front and the end -/

/-- How much of a text is taken. -/
structure Portion where
  count : Nat := 10
  /-- Are bytes counted, and not lines? -/
  bytes : Bool := false
  /-- Is the count one of what is left out, or where to begin? -/
  other : Bool := false
  quiet : Bool := false
  verbose : Bool := false
  files : List Octets := []
  deriving DecidableEq, Repr

namespace Portion

/-- Sets the count from a value. A given sign turns the meaning around. -/
def withCount (portion : Portion) (sign : Char) (value : Octets) : Option Portion :=
  let other := value.head? = some sign
  let digits := if value.head? = some '+' || value.head? = some '-' then value.drop 1 else value
  (Octets.nat? digits).map fun count => { portion with count, other }

/-- Takes options from arguments. -/
def take (sign : Char) (portion : Portion) : Nat → List Octets → Except Octets Portion
  | 0, _ => .ok portion
  | _, [] => .ok portion
  | n + 1, argument :: rest =>
    let counted (bytes : Bool) (value : Octets) (rest : List Octets) : Except Octets Portion :=
      match { portion with bytes }.withCount sign value with
      | some portion => take sign portion n rest
      | none => .error value
    match argument with
    | ['-', 'n'] => counted false (rest.headD []) rest.tail
    | ['-', 'c'] => counted true (rest.headD []) rest.tail
    | '-' :: 'n' :: value => counted false value rest
    | '-' :: 'c' :: value => counted true value rest
    | ['-', 'q'] => take sign { portion with quiet := true } n rest
    | ['-', 'v'] => take sign { portion with verbose := true } n rest
    | ['-', '-'] => .ok { portion with files := portion.files ++ rest }
    | '-' :: '-' :: name =>
      if "lines=".toList.isPrefixOf name then counted false (name.drop 6) rest
      else if "bytes=".toList.isPrefixOf name then counted true (name.drop 6) rest
      else .error argument
    | '-' :: c :: digits =>
      if c.isDigit then counted false (c :: digits) rest else .error argument
    | file => take sign { portion with files := portion.files ++ [file] } n rest

/-- The lines of a text with their ends. -/
def linesOf (text : Octets) : List Octets :=
  let lines := Text.fields '\n' text
  let whole := lines.dropLast.map (· ++ ['\n'])
  match lines.getLast? with
  | none | some [] => whole
  | some rest => whole ++ [rest]

/-- The front of a text. -/
def front (portion : Portion) (text : Octets) : Octets :=
  let size (length : Nat) : Nat := if portion.other then length - portion.count else portion.count
  if portion.bytes then text.take (size text.length)
  else
    let lines := linesOf text
    (lines.take (size lines.length)).flatten

/-- The end of a text. -/
def back (portion : Portion) (text : Octets) : Octets :=
  let start (length : Nat) : Nat :=
    if portion.other then portion.count - 1 else length - portion.count
  if portion.bytes then text.drop (start text.length)
  else
    let lines := linesOf text
    (lines.drop (start lines.length)).flatten

/-- The files with a line in front of each if there are several. -/
def render (portion : Portion) (part : Octets → Octets) (found : List (Octets × Octets)) : Octets :=
  let named := portion.verbose || (1 < portion.files.length && !portion.quiet)
  let blocks := found.map fun (file, text) =>
    if named then
      let name := if file = ['-'] then "standard input".toList else file
      "==> ".toList ++ name ++ " <==\n".toList ++ part text
    else part text
  if named then ['\n'].intercalate blocks else blocks.flatten

end Portion

/-- Writes a part of each file. -/
def portionOf (program : String) (sign : Char) (part : Portion → Octets → Octets) : Program :=
  fun arguments s =>
    match Portion.take sign {} (arguments.length + 1) arguments with
    | .error value =>
      s.complain (program.toList ++ ": invalid number of lines: ".toList ++ quoted value) 1
    | .ok portion =>
      let (found, s) := allContents (cannotOpen program "cannot open") portion.files s
      s.print (portion.render (part portion) found)

/-- Writes the front of files. What is not written of a file with a position can still be read. -/
def head : Program := fun arguments s =>
  match Portion.take '-' {} (arguments.length + 1) arguments with
  | .ok portion =>
    if portion.files.isEmpty then
      let (text, s) := s.readAll 0
      let part := portion.front text
      ((s.unread 0 (text.length - part.length)).print part).done 0
    else portionOf "head" '-' Portion.front arguments s
  | .error _ => portionOf "head" '-' Portion.front arguments s

/-- Writes the end of files. -/
def tail : Program := portionOf "tail" '+' Portion.back

/-! ### Counting -/

/-- The numbers of lines, words and bytes of a text. -/
def countsOf (text : Octets) : Nat × Nat × Nat :=
  let isBlank (c : Char) := c = ' ' || ('\t' ≤ c && c ≤ '\x0d')
  let (words, _) := text.foldl (fun (words, inWord) c =>
    if isBlank c then (words, false) else (if inWord then words else words + 1, true)) (0, false)
  (text.count '\n', words, text.length)

/-- A number with blanks in front. -/
def padded (width n : Nat) : Octets :=
  let digits := Octets.ofNat n
  List.replicate (width - digits.length) ' ' ++ digits

/-- Counts lines, words and bytes. -/
def wc : Program := fun arguments s =>
  let (letters, files) := splitOptions arguments
  let letters := if letters.isEmpty then ['l', 'w', 'c'] else letters
  let (found, s) := allContents (about "wc") files s
  let chosen (counts : Nat × Nat × Nat) : List Nat :=
    (if letters.contains 'l' then [counts.1] else [])
      ++ (if letters.contains 'w' then [counts.2.1] else [])
      ++ if letters.contains 'c' || letters.contains 'm' then [counts.2.2] else []
  let rows := found.map fun (file, text) => (file, countsOf text)
  let total := rows.foldl (fun (l, w, c) (_, l', w', c') => (l + l', w + w', c + c')) (0, 0, 0)
  let width :=
    if files.isEmpty then if (chosen total).length = 1 then 1 else 7
    else if files.length = 1 && (chosen total).length = 1 then 1
    else (Octets.ofNat total.2.2).length
  let line (counts : Nat × Nat × Nat) (name : Octets) : Octets :=
    [' '].intercalate ((chosen counts).map (padded width)) ++ name ++ ['\n']
  let name (file : Octets) : Octets := if files.isEmpty then [] else ' ' :: file
  let text := rows.flatMap fun (file, counts) => line counts (name file)
  let text := text ++ if 1 < files.length then line total " total".toList else []
  s.print text

/-! ### Ordering -/

/-- A part of lines that they are ordered by. -/
structure Key where
  /-- The field that the part begins with. -/
  first : Nat := 1
  /-- The field that the part ends with. -/
  last : Option Nat := none
  numeric : Bool := false
  reversed : Bool := false
  fold : Bool := false
  deriving DecidableEq, Repr

/-- Sets the options of letters. -/
def Key.withLetters (key : Key) (letters : List Char) : Key :=
  { key with
    numeric := key.numeric || letters.contains 'n'
    reversed := key.reversed || letters.contains 'r'
    fold := key.fold || letters.contains 'f' }

/-- How lines are ordered. -/
structure Order where
  /-- The letters that hold for all keys without letters of their own. -/
  letters : List Char := []
  keys : List (Key × List Char) := []
  separator : Option Char := none
  target : Option Octets := none
  files : List Octets := []
  deriving DecidableEq, Repr

namespace Order

/-- Is one of lines that are the same left? -/
def unique (order : Order) : Bool :=
  order.letters.contains 'u'

/-- Adds a key from a value. -/
def withKey (order : Order) (value : Octets) : Order :=
  let first := value.takeWhile Char.isDigit
  let rest := (value.drop first.length).dropWhile (· ≠ ',')
  let last := (rest.drop 1).takeWhile Char.isDigit
  let key : Key := { first := (Octets.nat? first).getD 1, last := Octets.nat? last }
  { order with keys := order.keys ++ [(key, value.filter Char.isAlpha)] }

/-- Takes options from arguments. -/
def take (order : Order) : Nat → List Octets → Order
  | 0, _ => order
  | _, [] => order
  | n + 1, argument :: rest =>
    match argument with
    | ['-', 'k'] => take (order.withKey (rest.headD [])) n rest.tail
    | '-' :: 'k' :: value => take (order.withKey value) n rest
    | ['-', 't'] => take { order with separator := (rest.headD []).head? } n rest.tail
    | '-' :: 't' :: value => take { order with separator := value.head? } n rest
    | ['-', 'o'] => take { order with target := rest.head? } n rest.tail
    | ['-', '-'] => { order with files := order.files ++ rest }
    | '-' :: c :: letters => take { order with letters := order.letters ++ c :: letters } n rest
    | file => take { order with files := order.files ++ [file] } n rest

/-- The keys with the options that hold for them; without any, the whole line. -/
def wholeKeys (order : Order) : List Key :=
  if order.keys.isEmpty then [({} : Key).withLetters order.letters]
  else
    order.keys.map fun (key, letters) =>
      key.withLetters (if letters.isEmpty then order.letters else letters)

/-- The fields of a line. Without a separator, blanks belong to the field behind them. -/
def fieldsOf (order : Order) (line : Octets) : List Octets :=
  match order.separator with
  | some c => Text.fields c line
  | none => go (line.length + 1) line
where
  /-- The fields with the blanks in front of them. -/
  go : Nat → Octets → List Octets
    | 0, _ => []
    | _, [] => []
    | n + 1, line =>
      let isBlank (c : Char) := c = ' ' || c = '\t'
      let blanks := line.takeWhile isBlank
      let word := (line.drop blanks.length).takeWhile fun c => !isBlank c
      (blanks ++ word) :: go n (line.drop (blanks.length + word.length))

/-- The part of a line that a key looks at. -/
def partOf (order : Order) (key : Key) (line : Octets) : Octets :=
  if order.keys.isEmpty then line
  else
    let fields := (order.fieldsOf line).drop (key.first - 1)
    let fields := match key.last with
      | some last => fields.take (last + 1 - key.first)
      | none => fields
    (order.separator.toList).intercalate fields

/-- The value of the number at the front of a text, in tenths of tenths as far as they go. -/
def numberOf (text : Octets) : Int :=
  let text := text.dropWhile fun c => c = ' ' || c = '\t'
  let (negative, text) := match text with
    | '-' :: rest => (true, rest)
    | rest => (false, rest)
  let whole := text.takeWhile Char.isDigit
  let fraction := match text.drop whole.length with
    | '.' :: rest => (rest.takeWhile Char.isDigit).take 9
    | _ => []
  let digits := whole ++ fraction ++ List.replicate (9 - fraction.length) '0'
  let n : Int := (Octets.nat? digits).getD 0
  if negative then -n else n

/-- Does a line come before another one, as far as one key goes? -/
def keyBefore (order : Order) (key : Key) (a b : Octets) : Bool :=
  let (a, b) := if key.reversed then (b, a) else (a, b)
  let a := order.partOf key a
  let b := order.partOf key b
  if key.numeric then decide (numberOf a < numberOf b)
  else if key.fold then decide (a.map Char.toUpper < b.map Char.toUpper)
  else decide (a < b)

/-- Does a line come before another one, or behind it, as far as keys go? -/
def compare (order : Order) (a b : Octets) : List Key → Ordering
  | [] => .eq
  | key :: keys =>
    if order.keyBefore key a b then .lt
    else if order.keyBefore key b a then .gt
    else compare order a b keys

/-- Does a line not come behind another one? -/
def before (order : Order) (a b : Octets) : Bool :=
  match order.compare a b order.wholeKeys with
  | .lt => true
  | .gt => false
  | .eq =>
    if order.unique then true
    else if order.letters.contains 'r' then !decide (a < b)
    else !decide (b < a)

/-- Drops lines that are the same as the one in front, as far as the keys go. -/
def dropSame (order : Order) : List Octets → List Octets
  | [] => []
  | line :: rest =>
    match dropSame order rest with
    | [] => [line]
    | next :: more =>
      if order.compare line next order.wholeKeys = .eq then line :: more else line :: next :: more

end Order

/-- Puts lines in order. -/
def sort : Program := fun arguments s =>
  let order := Order.take {} (arguments.length + 1) arguments
  let (found, s) := allContents
    (fun file e => "sort: cannot read: ".toList ++ file ++ ": ".toList ++ e.reason.toList)
    order.files s
  if s.status ≠ 0 then s.done 2
  else
    let lines := (found.flatMap fun (_, text) => Octets.lines text).mergeSort order.before
    let lines := if order.unique then order.dropSame lines else lines
    let text := Octets.ofLines lines
    match order.target with
    | none => s.print text
    | some file =>
      match s.tree.write (s.path file) text.toBytes with
      | .ok tree => s.withTree tree
      | .error e =>
        s.complain ("sort: open failed: ".toList ++ file ++ ": ".toList ++ e.reason.toList) 2

/-- Lines that follow one another and are the same, with their number. -/
def runsOf (same : Octets → Octets → Bool) : List Octets → List (Nat × Octets)
  | [] => []
  | line :: rest =>
    match runsOf same rest with
    | (n, other) :: runs =>
      if same line other then (n + 1, line) :: runs else (1, line) :: (n, other) :: runs
    | [] => [(1, line)]

/-- Leaves one of lines that follow one another and are the same. -/
def uniq : Program := fun arguments s =>
  let (letters, files) := splitOptions arguments
  let (found, s) := allContents (about "uniq") (files.take 1) s
  let same (a b : Octets) : Bool :=
    if letters.contains 'i' then a.map Char.toLower = b.map Char.toLower else a = b
  let runs := runsOf same (found.flatMap fun (_, text) => Octets.lines text)
  let runs := runs.filter fun (n, _) =>
    (!letters.contains 'd' || 1 < n) && (!letters.contains 'u' || n = 1)
  s.print (Octets.ofLines (runs.map fun (n, line) =>
    if letters.contains 'c' then padded 7 n ++ ' ' :: line else line))

/-! ### Parts of lines -/

/-- Numbers from one to another, or without an end. -/
abbrev Span := Nat × Option Nat

/-- The spans of a list. -/
def spansOf? (text : Octets) : Option (List Span) :=
  (Text.fields ',' text).mapM fun item =>
    let first := item.takeWhile Char.isDigit
    match item.drop first.length with
    | [] => (Octets.nat? first).map fun n => (n, some n)
    | '-' :: last =>
      if last.isEmpty then (Octets.nat? first).map fun n => (n, none)
      else (Octets.nat? last).map fun m => ((Octets.nat? first).getD 1, some m)
    | _ => none

/-- Is a number in one of some spans? -/
def inSpans (spans : List Span) (n : Nat) : Bool :=
  spans.any fun (first, last) => first ≤ n && last.all (n ≤ ·)

/-- The items with numbers in some spans. -/
def chooseItems {α : Type} (spans : List Span) (items : List α) : List α :=
  (items.zipIdx.filter fun (_, i) => inSpans spans (i + 1)).map (·.1)

/-- How lines are cut. -/
structure Cutting where
  fields : Bool := false
  list : Option Octets := none
  separator : Char := '\t'
  onlyDelimited : Bool := false
  outputSeparator : Option Octets := none
  files : List Octets := []
  deriving DecidableEq, Repr

/-- Takes the options for cutting from arguments. -/
def Cutting.take (cutting : Cutting) : Nat → List Octets → Cutting
  | 0, _ => cutting
  | _, [] => cutting
  | n + 1, argument :: rest =>
    let listed (fields : Bool) (value : Octets) : Cutting :=
      { cutting with fields, list := some value }
    match argument with
    | ['-', 'f'] => take (listed true (rest.headD [])) n rest.tail
    | '-' :: 'f' :: value => take (listed true value) n rest
    | ['-', 'c'] | ['-', 'b'] => take (listed false (rest.headD [])) n rest.tail
    | '-' :: 'c' :: value | '-' :: 'b' :: value => take (listed false value) n rest
    | ['-', 'd'] => take { cutting with separator := (rest.headD []).headD '\x00' } n rest.tail
    | '-' :: 'd' :: value => take { cutting with separator := value.headD '\x00' } n rest
    | ['-', 's'] => take { cutting with onlyDelimited := true } n rest
    | '-' :: '-' :: name =>
      let front := "output-delimiter=".toList
      if front.isPrefixOf name then
        take { cutting with outputSeparator := some (name.drop front.length) } n rest
      else take cutting n rest
    | file => take { cutting with files := cutting.files ++ [file] } n rest

/-- Writes parts of lines. -/
def cut : Program := fun arguments s =>
  let cutting := Cutting.take {} (arguments.length + 1) arguments
  match cutting.list.bind spansOf? with
  | none =>
    s.complain
      ("cut: you must specify a list of bytes, characters, or fields".toList ++ hint "cut") 1
  | some spans =>
    let cutLine (line : Octets) : List Octets :=
      if cutting.fields then
        if !line.contains cutting.separator then if cutting.onlyDelimited then [] else [line]
        else
          let separator := cutting.outputSeparator.getD [cutting.separator]
          [separator.intercalate (chooseItems spans (Text.fields cutting.separator line))]
      else [chooseItems spans line]
    eachFile (about "cut") cutting.files
      (fun text => Octets.ofLines ((Octets.lines text).flatMap cutLine)) s

/-- Puts the lines of files side by side, or the lines of one file into one. -/
def paste : Program := fun arguments s =>
  let (serial, separators, files) := go false ['\t'] (arguments.length + 1) arguments
  let (found, s) := allContents (about "paste") files s
  let rows := found.map fun (_, text) => Octets.lines text
  let separatorAt (i : Nat) : Octets :=
    if separators.isEmpty then [] else [separators.getD (i % separators.length) '\t']
  let join (items : List Octets) : Octets :=
    (items.zipIdx.map fun (item, i) => if i = 0 then item else separatorAt (i - 1) ++ item).flatten
  if serial then s.print (Octets.ofLines (rows.map join))
  else
    let height := rows.foldl (fun n row => max n row.length) 0
    let lines := (List.range height).map fun i => join (rows.map fun row => row.getD i [])
    s.print (Octets.ofLines lines)
where
  /-- Whether each file is one line, the bytes between, and the files. -/
  go (serial : Bool) (separators : Octets) : Nat → List Octets → Bool × Octets × List Octets
    | 0, files => (serial, separators, files)
    | n + 1, arguments =>
      match arguments with
      | ['-', 's'] :: rest => go true separators n rest
      | ['-', 'd'] :: value :: rest => go serial (unescape (value.length + 1) value).1 n rest
      | ('-' :: 'd' :: value) :: rest => go serial (unescape (value.length + 1) value).1 n rest
      | ('-' :: 's' :: 'd' :: value) :: rest =>
        if value.isEmpty then
          go true (unescape ((rest.headD []).length + 1) (rest.headD [])).1 n rest.tail
        else go true (unescape (value.length + 1) value).1 n rest
      | files => (serial, separators, files)

/-- Writes each line backwards. -/
def rev : Program := fun arguments s =>
  let (_, files) := splitOptions arguments
  eachFile (about "rev") files (fun text => (Portion.linesOf text).flatMap fun line =>
    if line.getLast? = some '\n' then line.dropLast.reverse ++ ['\n'] else line.reverse) s

/-- Writes the last line first. -/
def tac : Program := fun arguments s =>
  let (_, files) := splitOptions arguments
  eachFile (cannotOpen "tac" "failed to open") files
    (fun text => (Portion.linesOf text).reverse.flatten) s

/-- Writes lines with their numbers. -/
def nl : Program := fun arguments s =>
  let (letters, files) := splitOptions (arguments.filter (· ≠ "-ba".toList))
  let all := arguments.contains "-ba".toList || letters.contains 'a'
  let (found, s) := allContents (about "nl") files s
  let lines := found.flatMap fun (_, text) => Octets.lines text
  s.print (Octets.ofLines (go all 1 lines))
where
  /-- Numbers lines from a given number on. -/
  go (all : Bool) : Nat → List Octets → List Octets
    | _, [] => []
    | n, line :: rest =>
      if line.isEmpty && !all then List.replicate 7 ' ' :: go all n rest
      else (padded 6 n ++ '\t' :: line) :: go all (n + 1) rest

/-! ### Bytes -/

/-- The bytes of a set that is written out, with ranges, classes and escapes. -/
def bytesOf : Nat → Octets → Octets
  | 0, _ => []
  | _, [] => []
  | n + 1, '[' :: ':' :: rest =>
    match className? rest with
    | some (name, rest) =>
      let bytes := (List.range 256).map Char.ofNat
      bytes.filter ((namedClass? name).getD fun _ => false) ++ bytesOf n rest
    | none => '[' :: bytesOf n (':' :: rest)
  | n + 1, text =>
    let (c, rest) := unit text
    match rest with
    | '-' :: rest' =>
      if rest'.isEmpty then c :: '-' :: []
      else
        let (last, rest) := unit rest'
        (List.range (last.toNat + 1 - c.toNat)).map (fun i => Char.ofNat (c.toNat + i))
          ++ bytesOf n rest
    | rest => c :: bytesOf n rest
where
  /-- The byte at the front, which can be written with a backslash. -/
  unit : Octets → Char × Octets
    | '\\' :: c :: rest =>
      match escape? c with
      | some e => (e, rest)
      | none =>
        if '0' ≤ c && c ≤ '7' then
          let (value, rest) := octal 3 0 (c :: rest)
          (byteOf value, rest)
        else (c, rest)
    | c :: rest => (c, rest)
    | [] => ('\x00', [])

/-- Leaves one of bytes that follow one another, are the same and are in a set. -/
def squeeze (test : Char → Bool) : Octets → Octets
  | [] => []
  | [c] => [c]
  | a :: b :: rest =>
    if a = b && test a then squeeze test (b :: rest) else a :: squeeze test (b :: rest)

/-- Replaces, removes or squeezes bytes. -/
def tr : Program := fun arguments s =>
  let (letters, sets) := splitOptions arguments
  let complement := letters.contains 'c' || letters.contains 'C'
  let removes := letters.contains 'd'
  let squeezes := letters.contains 's'
  match sets with
  | [] => s.complain ("tr: missing operand".toList ++ hint "tr") 1
  | first :: rest =>
    let old := bytesOf (first.length + 1) first
    let isOld (c : Char) : Bool := old.contains c != complement
    let second := rest.head?.map fun text => bytesOf (text.length + 1) text
    if second.isNone && !removes && !squeezes then
      s.complain ("tr: missing operand after ".toList ++ quoted first
        ++ "\nTwo strings must be given when translating.".toList ++ hint "tr") 1
    else
      let (text, s) := s.readAll 0
      let text := if removes then text.filter (!isOld ·) else text
      let text := match second, removes with
        | some new, false =>
          let last := new.getLastD '\x00'
          text.map fun c =>
            if complement then if isOld c then last else c
            else
              match old.idxOf? c with
              | some i => new.getD i last
              | none => c
        | _, _ => text
      let text := if squeezes then
          match second with
          | some new => squeeze new.contains text
          | none => squeeze isOld text
        else text
      (s.print text).done 0

/-- Writes what is read to files and to the output. -/
def tee : Program := fun arguments s =>
  let (letters, files) := splitOptions arguments
  let (text, s) := s.readAll 0
  let s := s.print text
  files.foldl (fun s file =>
    if file = "/dev/null".toList then s
    else if file = "/dev/stderr".toList then s.write 2 text
    else
      let before := if letters.contains 'a' then (s.tree.readBytes (s.path file)).toOption.getD []
        else []
      match s.tree.write (s.path file) (before ++ text.toBytes) with
      | .ok tree => s.withTree tree
      | .error e => s.complain (about "tee" file e) 1) (s.done 0)

/-- Compares two files byte by byte. -/
def cmp : Program := fun arguments s =>
  let (letters, files) := splitOptions arguments
  match files with
  | first :: second :: _ =>
    match contents first s with
    | (.error e, s) => s.complain (about "cmp" first e) 2
    | (.ok a, s) =>
      match contents second s with
      | (.error e, s) => s.complain (about "cmp" second e) 2
      | (.ok b, s) =>
        if a = b then s.done 0
        else if letters.contains 's' then s.done 1
        else
          let common := ((a.zip b).takeWhile fun (x, y) => x = y).length
          if common = a.length || common = b.length then
            let shorter := if a.length < b.length then first else second
            let same := a.take common
            let line := same.count '\n' + if same.getLast? = some '\n' then 0 else 1
            let place := if common = 0 then " which is empty".toList
              else " after byte ".toList ++ Octets.ofNat common ++
                (if (a.take common).getLast? = some '\n' then ", line " else ", in line ").toList
                ++ Octets.ofNat line
            s.complain ("cmp: EOF on ".toList ++ shorter ++ place) 1
          else
            let line := (a.take common).count '\n' + 1
            (s.print (first ++ ' ' :: second ++ " differ: char ".toList ++ Octets.ofNat (common + 1)
              ++ ", line ".toList ++ Octets.ofNat line ++ ['\n'])).done 1
  | _ => s.complain ("cmp: missing operand".toList ++ hint "cmp") 2

end Program

end ExpectError.Shell
