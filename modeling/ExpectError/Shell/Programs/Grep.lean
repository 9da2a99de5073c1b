import ExpectError.Shell.Programs.Files
import ExpectError.Shell.Regex

/-!
# Choosing lines

Writes the lines of files in which one of some expressions matches, or says something about them.
-/

namespace ExpectError.Shell

/-- What is chosen and what is written. -/
structure Choice where
  patterns : List Octets := []
  /-- Is a pattern a text that stands for itself? -/
  literal : Bool := false
  extended : Bool := false
  fold : Bool := false
  /-- Are the other lines chosen? -/
  inverted : Bool := false
  wholeLine : Bool := false
  wholeWord : Bool := false
  quiet : Bool := false
  /-- Is only the number of lines written? -/
  counts : Bool := false
  numbers : Bool := false
  /-- Are only the matches written? -/
  onlyMatches : Bool := false
  /-- Are only the names of files with chosen lines written? -/
  names : Bool := false
  /-- Are only the names of files without chosen lines written? -/
  otherNames : Bool := false
  /-- Is every line written with the name of its file? -/
  withName : Option Bool := none
  /-- Are files that cannot be read passed over without a word? -/
  silent : Bool := false
  /-- Is everything below a folder searched? -/
  recursive : Bool := false
  limit : Option Nat := none
  /-- How many lines are written in front of a chosen one, and behind it. -/
  context : Option (Nat × Nat) := none
  operands : List Octets := []
  deriving DecidableEq, Repr

namespace Choice

/-- Sets the option of a letter. -/
def withLetter (choice : Choice) : Char → Option Choice
  | 'E' | 'P' => some { choice with extended := true, literal := false }
  | 'F' => some { choice with literal := true }
  | 'G' => some { choice with extended := false, literal := false }
  | 'i' | 'y' => some { choice with fold := true }
  | 'v' => some { choice with inverted := true }
  | 'x' => some { choice with wholeLine := true }
  | 'w' => some { choice with wholeWord := true }
  | 'q' => some { choice with quiet := true }
  | 'c' => some { choice with counts := true }
  | 'n' => some { choice with numbers := true }
  | 'o' => some { choice with onlyMatches := true }
  | 'l' => some { choice with names := true }
  | 'L' => some { choice with otherNames := true }
  | 'h' => some { choice with withName := some false }
  | 'H' => some { choice with withName := some true }
  | 's' => some { choice with silent := true }
  | 'r' | 'R' => some { choice with recursive := true }
  | 'a' | 'I' | 'U' | 'z' => some choice
  | _ => none

/-- The letter of an option that is written out. -/
def letterOf? (option : Octets) : Option Char :=
  [("--quiet", 'q'), ("--silent", 'q'), ("--extended-regexp", 'E'), ("--fixed-strings", 'F'),
    ("--basic-regexp", 'G'), ("--ignore-case", 'i'), ("--invert-match", 'v'),
    ("--line-regexp", 'x'), ("--word-regexp", 'w'), ("--count", 'c'), ("--line-number", 'n'),
    ("--only-matching", 'o'), ("--files-with-matches", 'l'), ("--files-without-match", 'L'),
    ("--no-filename", 'h'), ("--with-filename", 'H'), ("--no-messages", 's'),
    ("--recursive", 'r'), ("--text", 'a')].lookup (String.ofList option)

/-- Takes the letters of one argument. One that needs a value takes what is behind it. -/
def takeLetters (choice : Choice) : List Char → List Octets → Option (Choice × List Octets)
  | [], rest => some (choice, rest)
  | c :: letters, rest =>
    if ['e', 'm', 'A', 'B', 'C'].contains c then
      let value := if letters.isEmpty then rest.head? else some letters
      let rest := if letters.isEmpty then rest.tail else rest
      value.bind fun value =>
        if c = 'e' then some ({ choice with patterns := choice.patterns ++ [value] }, rest)
        else
          (Octets.nat? value).map fun n =>
            if c = 'm' then ({ choice with limit := some n }, rest)
            else
              let (before, after) := choice.context.getD (0, 0)
              let before := if c = 'A' then before else n
              let after := if c = 'B' then after else n
              ({ choice with context := some (before, after) }, rest)
    else (choice.withLetter c).bind fun choice => takeLetters choice letters rest

/-- Takes options and operands from arguments. -/
def take (choice : Choice) : Nat → List Octets → Option Choice
  | 0, _ => none
  | _, [] => some choice
  | n + 1, argument :: rest =>
    match argument with
    | ['-', '-'] => some { choice with operands := choice.operands ++ rest }
    | '-' :: '-' :: name =>
      match letterOf? argument with
      | some c => (choice.withLetter c).bind fun choice => take choice n rest
      | none =>
        if "regexp=".toList.isPrefixOf name then
          take { choice with patterns := choice.patterns ++ [name.drop 7] } n rest
        else if "color".toList.isPrefixOf name then take choice n rest
        else none
    | '-' :: c :: letters =>
      (choice.takeLetters (c :: letters) rest).bind fun (choice, rest) => take choice n rest
    | operand => take { choice with operands := choice.operands ++ [operand] } n rest

/-- The expression of a pattern. -/
def regexOf (choice : Choice) (pattern : Octets) : Except Regex.Problem Regex :=
  if choice.literal then .ok (Regex.ofLiteral pattern)
  else Regex.read { extended := choice.extended } pattern

/-- Is a match one that counts? -/
def counts? (choice : Choice) (found : Regex.Match) : Bool :=
  if choice.wholeLine then found.passed.isEmpty && found.rest.isEmpty
  else if choice.wholeWord then
    !found.passed.head?.any Regex.isWordPart && !found.rest.head?.any Regex.isWordPart
  else true

/-- The first match from a place on that counts. -/
def findFrom? (choice : Choice) (regex : Regex) (passed : List Char) : List Char →
    Option Regex.Match
  | [] => (regex.matchAt? choice.fold { passed, rest := [] }).filter choice.counts?
  | c :: rest =>
    let found :=
      Regex.reach choice.fold regex { place := { passed, rest := c :: rest }, captures := [] }
    let counted := found.filter fun r =>
      choice.counts? { passed, text := [], rest := r.place.rest, captures := [] }
    match Regex.longest counted with
    | some r =>
      some
        { passed
          text := r.place.since { passed, rest := c :: rest }
          rest := r.place.rest
          captures := r.captures }
    | none => findFrom? choice regex (c :: passed) rest

/-- The match of several expressions that begins first, and of these the longest. -/
def firstOf (choice : Choice) (regexes : List Regex) (passed rest : List Char) :
    Option Regex.Match :=
  (regexes.filterMap fun regex => choice.findFrom? regex passed rest).foldl (fun best found =>
    match best with
    | none => some found
    | some b =>
      if found.passed.length < b.passed.length
          || (found.passed.length = b.passed.length && b.text.length < found.text.length) then
        some found
      else best) none

/-- Is a line chosen? -/
def chooses (choice : Choice) (regexes : List Regex) (line : Octets) : Bool :=
  (regexes.any fun regex => (choice.findFrom? regex [] line).isSome) != choice.inverted

/-- The texts of all matches in a line that are not empty. -/
def matchesIn (choice : Choice) (regexes : List Regex) : Nat → List Char → List Char → List Octets
  | 0, _, _ => []
  | n + 1, passed, rest =>
    match choice.firstOf regexes passed rest with
    | none => []
    | some found =>
      if found.text.isEmpty then
        match found.rest with
        | [] => []
        | c :: rest => matchesIn choice regexes n (c :: found.passed) rest
      else found.text :: matchesIn choice regexes n (found.text.reverse ++ found.passed) found.rest

/-- The chosen lines with their numbers. -/
def chosen (choice : Choice) (regexes : List Regex) (text : Octets) : List (Nat × Octets) :=
  let lines := (Octets.lines text).zipIdx.map fun (line, i) => (i + 1, line)
  let lines := lines.filter fun (_, line) => choice.chooses regexes line
  match choice.limit with
  | some n => lines.take n
  | none => lines

/-- A line with what stands in front of it; the mark tells a chosen line from one around it. -/
def row (choice : Choice) (name : Octets) (showsName : Bool) (mark : Char) (number : Nat)
    (line : Octets) : Octets :=
  (if showsName then name ++ [mark] else [])
    ++ (if choice.numbers then Octets.ofNat number ++ [mark] else []) ++ line ++ ['\n']

/-- The chosen lines with the lines around them, and a line of dashes between parts that do not
touch. -/
def withContext (choice : Choice) (before after : Nat) (name : Octets) (showsName : Bool)
    (lines : List Octets) (found : List (Nat × Octets)) : Octets :=
  let numbers := found.map (·.1)
  let isShown (number : Nat) : Bool :=
    numbers.any fun n => n ≤ number + before && number ≤ n + after
  let shown := (lines.zipIdx.map fun (line, i) => (i + 1, line)).filter fun (n, _) => isShown n
  let rows := shown.zipIdx.map fun ((number, line), i) =>
    let previous := (shown[i - 1]?).map (·.1)
    let gap := if i ≠ 0 && previous ≠ some (number - 1) then "--\n".toList else []
    let mark := if numbers.contains number then ':' else '-'
    gap ++ choice.row name showsName mark number line
  rows.flatten

/-- What is written about a file. -/
def report (choice : Choice) (regexes : List Regex) (name : Octets) (showsName : Bool)
    (text : Octets) (found : List (Nat × Octets)) : Octets :=
  let front := if showsName then name ++ [':'] else []
  if choice.quiet then []
  else if choice.names then if found.isEmpty then [] else name ++ ['\n']
  else if choice.otherNames then if found.isEmpty then name ++ ['\n'] else []
  else if choice.counts then front ++ Octets.ofNat found.length ++ ['\n']
  else if choice.onlyMatches then
    if choice.inverted then []
    else
      found.flatMap fun (number, line) =>
        let texts := choice.matchesIn regexes (line.length + 1) [] line
        texts.flatMap fun text => choice.row name showsName ':' number text
  else
    match choice.context with
    | some (before, after) =>
      choice.withContext before after name showsName (Octets.lines text) found
    | none => found.flatMap fun (number, line) => choice.row name showsName ':' number line

end Choice

namespace Program

/-- The files below a path name, or the path name itself. -/
def filesBelow (s : State) (file : Octets) : List Octets :=
  if s.tree.isFolder (s.path file) then
    match s.tree.resolve (s.path file) with
    | .ok (folder, _) =>
      (s.tree.below folder).filterMap fun (names, entry) =>
        if entry = .folder then none
        else
          let front := if file.isEmpty || file.getLast? = some '/' then file else file ++ ['/']
          some (front ++ ['/'].intercalate (names.map Octets.ofText))
    | .error _ => []
  else [file]

/-- The name under which a file is written. -/
def displayName (file : Octets) : Octets :=
  if file = ['-'] then "(standard input)".toList else file

/-- Goes through files, and says what could not be read. -/
def grepFiles (choice : Choice) (regexes : List Regex) (showsName : Bool) (files : List Octets)
    (s : State) : State :=
  let (output, found, failed, s) := files.foldl (fun (output, found, failed, s) file =>
    if found && choice.quiet then (output, found, failed, s)
    else
      match contents file s with
      | (.error e, s) =>
        let s := if choice.silent then s else s.complain (about "grep" file e) 2
        (output, found, true, s)
      | (.ok text, s) =>
        let lines := choice.chosen regexes text
        let written := choice.report regexes (displayName file) showsName text lines
        let hit := if choice.otherNames then lines.isEmpty else !lines.isEmpty
        let gap := if choice.context.isSome && !output.isEmpty && !written.isEmpty
          then "--\n".toList else []
        (output ++ gap ++ written, found || hit, failed, s)) (([] : Octets), false, false, s)
  let s := s.print output
  if found && (choice.quiet || !failed) then s.done 0
  else s.done (if failed then 2 else 1)

/-- Chooses lines, with some options set from the start. -/
def grepWith (start : Choice) : Program := fun arguments s =>
  let usage := "Usage: grep [OPTION]... PATTERNS [FILE]...\n"
    ++ "Try 'grep --help' for more information."
  match start.take (arguments.length + 1) arguments with
  | none => s.complain usage.toList 2
  | some choice =>
    let (patterns, files) : Option (List Octets) × List Octets :=
      if choice.patterns.isEmpty then (choice.operands.head?.map fun p => [p], choice.operands.tail)
      else (some choice.patterns, choice.operands)
    match patterns with
    | none => s.complain usage.toList 2
    | some patterns =>
      match (patterns.flatMap (Text.fields '\n')).mapM choice.regexOf with
      | .error problem => s.complain ("grep: ".toList ++ problem.message.toList) 2
      | .ok regexes =>
        let files := if files.isEmpty then [if choice.recursive then [] else ['-']] else files
        let showsName := choice.withName.getD (1 < files.length || choice.recursive)
        let files := if choice.recursive then files.flatMap (filesBelow s) else files
        grepFiles choice regexes showsName files s

/-- Chooses lines by basic expressions. -/
def grep : Program := grepWith {}

/-- Chooses lines by extended expressions. -/
def egrep : Program := grepWith { extended := true }

/-- Chooses lines by texts that stand for themselves. -/
def fgrep : Program := grepWith { literal := true }

end Program

end ExpectError.Shell
