import ExpectError.Shell.Regex

/-!
# Scripts of the stream editor

A script is a list of instructions, each with the lines that it is for. Instructions between braces
stand one after another, with instructions that open and close the block.

* `Instruction`: what is done, and for which lines;
* `readScript`: the instructions of a script.
-/

namespace ExpectError.Shell.Sed

/-- An expression with its options; nothing stands for the one that was used last. -/
abbrev Search := Option (Regex × Bool)

/-- A line, by its number or by what is in it. -/
inductive Address where
  | line (number : Nat)
  /-- Every so many lines, from a given one on. -/
  | every (first step : Nat)
  | last
  | holding (search : Search)
  deriving DecidableEq, Repr

/-- The last line of a range. -/
inductive RangeEnd where
  | address (address : Address)
  /-- So many lines further on. -/
  | further (count : Nat)
  /-- The next line whose number is a multiple. -/
  | multiple (factor : Nat)
  deriving DecidableEq, Repr

/-- The lines that an instruction is for. -/
inductive Selector where
  | all
  | one (address : Address)
  | range (first : Address) (last : RangeEnd)
  deriving DecidableEq, Repr

/-- A piece of what is put in place of a match. -/
inductive Part where
  | char (c : Char)
  /-- What a group has taken; the whole match for zero. -/
  | group (number : Nat)
  /-- The case of the letters that follow, until it is changed again. -/
  | letters (upper : Option Bool)
  /-- The case of the next letter alone. -/
  | letter (upper : Bool)
  deriving DecidableEq, Repr

/-- A replacement of matches. -/
structure Substitution where
  search : Search
  parts : List Part
  /-- The first match that is replaced. -/
  first : Nat := 1
  /-- Are all matches behind it replaced too? -/
  all : Bool := false
  /-- Is the line written if something was replaced? -/
  prints : Bool := false
  target : Option Octets := none
  deriving DecidableEq, Repr

/-- What is done with a line. -/
inductive Action where
  | opens
  | closes
  | label (name : Octets)
  | branch (name : Octets)
  /-- The same, if something has been replaced, or if nothing has. -/
  | branchIf (replaced : Bool) (name : Octets)
  | substitute (substitution : Substitution)
  | translate (source target : Octets)
  | print
  | printFirst
  | delete
  | deleteFirst
  | next
  | appendNext
  | quit (prints : Bool) (status : Nat)
  | number
  | append (text : Octets)
  | insert (text : Octets)
  | change (text : Octets)
  | hold (appends : Bool)
  | get (appends : Bool)
  | exchange
  | read (file : Octets)
  | write (file : Octets)
  deriving DecidableEq, Repr

/-- An instruction. -/
structure Instruction where
  selector : Selector
  /-- Is the instruction for all other lines? -/
  negated : Bool
  action : Action
  deriving DecidableEq, Repr

/-! ### Reading -/

/-- What is wrong with a script, and what was left to read. -/
structure Problem where
  message : Octets
  left : Nat
  deriving DecidableEq, Repr

/-- A reader of a part of a script. -/
abbrev Reads (α : Type) := StateT (List Char) (Except Problem) α

/-- Refuses what is read. -/
def fail {α : Type} (message : String) : Reads α := fun text =>
  .error { message := message.toList, left := text.length }

/-- Drops bytes that pass a test. -/
def dropAll (test : Char → Bool) : Reads Unit :=
  modify fun text => text.dropWhile test

/-- Takes bytes that pass a test. -/
def takeAll (test : Char → Bool) : Reads Octets := do
  let text ← get
  let taken := text.takeWhile test
  set (text.drop taken.length)
  return taken

/-- Takes a byte, if there is one. -/
def takeOne : Reads (Option Char) := do
  match ← get with
  | [] => return none
  | c :: rest =>
    set rest
    return some c

/-- Is a byte a blank within a line? -/
def isBlank (c : Char) : Bool :=
  c = ' ' || c = '\t'

/-- The text of a set up to its closing bracket, and what is behind it. -/
def splitSet (text : List Char) : Option (Octets × List Char) :=
  (readSet? ['^'] text).map fun (_, rest) => (text.take (text.length - rest.length), rest)

/-- The text up to a byte that is not behind a backslash, and in an expression not in a set, and
what is behind that byte. A backslash in front of the byte is dropped. -/
def splitAt (stop : Char) (isRegex : Bool) : Nat → List Char → Option (Octets × List Char)
  | 0, _ => none
  | _, [] => none
  | n + 1, '\\' :: c :: rest =>
    (splitAt stop isRegex n rest).map fun (front, behind) =>
      if c = stop then (c :: front, behind) else ('\\' :: c :: front, behind)
  | n + 1, c :: rest =>
    if c = stop then some ([], rest)
    else if isRegex && c = '[' then
      (splitSet rest).bind fun (set, rest) =>
        (splitAt stop isRegex n rest).map fun (front, behind) => (c :: set ++ front, behind)
    else (splitAt stop isRegex n rest).map fun (front, behind) => (c :: front, behind)

/-- Takes the text up to a byte, if the byte is there. -/
def takeUntil (stop : Char) (isRegex : Bool) : Reads (Option Octets) := do
  let text ← get
  match splitAt stop isRegex (text.length + 1) text with
  | none =>
    set ([] : List Char)
    return none
  | some (front, rest) =>
    set rest
    return some front

/-- Escapes that stand for other bytes also between brackets. -/
def convertEscapes : List Char → List Char
  | '\\' :: 'n' :: rest => '\n' :: convertEscapes rest
  | '\\' :: 't' :: rest => '\t' :: convertEscapes rest
  | '\\' :: c :: rest => '\\' :: c :: convertEscapes rest
  | c :: rest => c :: convertEscapes rest
  | [] => []

/-- The expression of a text; an empty one stands for the last. -/
def searchOf (extended : Bool) (text : Octets) (fold : Bool) : Reads Search := do
  if text.isEmpty then return none
  match Regex.read { extended } (convertEscapes text) with
  | .ok regex => return some (regex, fold)
  | .error problem => fail problem.message

/-- A number. -/
def takeNumber : Reads (Option Nat) := do
  return Octets.nat? (← takeAll Char.isDigit)

/-- An expression behind its first delimiter. -/
def takeSearch (extended : Bool) (stop : Char) : Reads Search := do
  match ← takeUntil stop true with
  | none => fail "unterminated address regex"
  | some text =>
    let flags ← takeAll fun c => c = 'I' || c = 'M'
    searchOf extended text (flags.contains 'I')

/-- An address, if there is one. -/
def takeAddress (extended : Bool) : Reads (Option Address) := do
  match ← get with
  | '$' :: rest => set rest; return some .last
  | '/' :: rest => set rest; return some (.holding (← takeSearch extended '/'))
  | '\\' :: c :: rest => set rest; return some (.holding (← takeSearch extended c))
  | c :: _ =>
    if !c.isDigit then return none
    let first := (← takeNumber).getD 0
    match ← get with
    | '~' :: rest =>
      set rest
      return some (.every first ((← takeNumber).getD 0))
    | _ => return some (.line first)
  | [] => return none

/-- The lines that an instruction is for. -/
def takeSelector (extended : Bool) : Reads Selector := do
  match ← takeAddress extended with
  | none => return .all
  | some first =>
    dropAll isBlank
    match ← get with
    | ',' :: rest =>
      set rest
      dropAll isBlank
      match ← get with
      | '+' :: rest => set rest; return .range first (.further ((← takeNumber).getD 0))
      | '~' :: rest => set rest; return .range first (.multiple ((← takeNumber).getD 0))
      | _ =>
        match ← takeAddress extended with
        | some second => return .range first (.address second)
        | none => fail "unexpected \x60,'"
    | _ =>
      if first = .line 0 then fail "invalid usage of line address 0"
      return .one first

/-- The parts of a replacement. -/
def partsOf : List Char → List Part
  | [] => []
  | '&' :: rest => .group 0 :: partsOf rest
  | '\\' :: c :: rest =>
    let part : Part :=
      if c.isDigit then .group (c.toNat - '0'.toNat)
      else
        match c with
        | 'n' => .char '\n'
        | 't' => .char '\t'
        | 'U' => .letters (some true)
        | 'L' => .letters (some false)
        | 'E' => .letters none
        | 'u' => .letter true
        | 'l' => .letter false
        | c => .char c
    part :: partsOf rest
  | c :: rest => .char c :: partsOf rest

/-- The options behind a replacement. -/
def takeFlags : Nat → Substitution → Bool → Reads (Substitution × Bool)
  | 0, s, fold => return (s, fold)
  | n + 1, s, fold => do
    match ← get with
    | 'g' :: rest => set rest; takeFlags n { s with all := true } fold
    | 'p' :: rest => set rest; takeFlags n { s with prints := true } fold
    | 'i' :: rest | 'I' :: rest => set rest; takeFlags n s true
    | 'm' :: rest | 'M' :: rest => set rest; takeFlags n s fold
    | 'w' :: rest =>
      set rest
      dropAll isBlank
      let file ← takeAll (· ≠ '\n')
      return ({ s with target := some file }, fold)
    | c :: _ =>
      if c.isDigit then
        let first := (← takeNumber).getD 1
        takeFlags n { s with first } fold
      else if [';', '\n', '\x7d', '#', ' ', '\t'].contains c then return (s, fold)
      else
        let _ ← takeOne
        fail "unknown option to \x60s'"
    | [] => return (s, fold)

/-- A replacement behind its letter. -/
def takeSubstitution (extended : Bool) : Reads Action := do
  match ← takeOne with
  | none => fail "unterminated \x60s' command"
  | some stop =>
    match ← takeUntil stop true, ← takeUntil stop false with
    | some pattern, some replacement =>
      let start : Substitution := { search := none, parts := partsOf replacement }
      let (s, fold) ← takeFlags ((← get).length + 1) start false
      return .substitute { s with search := ← searchOf extended pattern fold }
    | _, _ => fail "unterminated \x60s' command"

/-- A table of bytes for other bytes, behind its letter. -/
def takeTranslation : Reads Action := do
  match ← takeOne with
  | none => fail "unterminated \x60y' command"
  | some stop =>
    match ← takeUntil stop false, ← takeUntil stop false with
    | some source, some target =>
      if (go source).length ≠ (go target).length then
        fail "strings for \x60y' command are different lengths"
      return .translate (go source) (go target)
    | _, _ => fail "unterminated \x60y' command"
where
  /-- The bytes with their escapes replaced. -/
  go : List Char → Octets
    | '\\' :: 'n' :: rest => '\n' :: go rest
    | '\\' :: c :: rest => c :: go rest
    | c :: rest => c :: go rest
    | [] => []

/-- Lines of text up to an end of line that is not behind a backslash, and what is behind it. -/
def splitText : List Char → Octets × List Char
  | [] => ([], [])
  | '\n' :: rest => ([], rest)
  | ['\\'] => ([], [])
  | '\\' :: c :: rest =>
    let (text, rest) := splitText rest
    (c :: text, rest)
  | c :: rest =>
    let (text, rest) := splitText rest
    (c :: text, rest)

/-- The text behind the letter of an instruction that writes it. -/
def takeText : Reads Octets := do
  dropAll isBlank
  match ← get with
  | '\\' :: rest =>
    let behind := rest.dropWhile isBlank
    match behind with
    | '\n' :: rest => set rest
    | _ => set rest
  | _ => pure ()
  let (text, rest) := splitText (← get)
  set rest
  return text ++ ['\n']

/-- A name up to the end of an instruction. -/
def takeName : Reads Octets := do
  dropAll isBlank
  takeAll fun c => !(c = ';' || c = '\n' || isBlank c || c = '\x7d')

/-- The end of an instruction. -/
def takeEnd : Reads Unit := do
  dropAll isBlank
  match ← get with
  | ';' :: rest | '\n' :: rest => set rest
  | '#' :: _ | '\x7d' :: _ | [] => pure ()
  | _ :: rest =>
    set rest
    fail "extra characters after command"

/-- What is done, behind the lines that it is for. -/
def takeAction (extended : Bool) : Reads Action := do
  let simple (action : Action) : Reads Action := do
    takeEnd
    return action
  match ← takeOne with
  | none => fail "missing command"
  | some c =>
    match c with
    | '\x7b' => return .opens
    | '\x7d' => simple .closes
    | ':' =>
      dropAll isBlank
      let name ← takeAll fun c => !(c = ';' || c = '\n' || isBlank c)
      simple (.label name)
    | 'b' => simple (.branch (← takeName))
    | 't' => simple (.branchIf true (← takeName))
    | 'T' => simple (.branchIf false (← takeName))
    | 's' => simple (← takeSubstitution extended)
    | 'y' => simple (← takeTranslation)
    | 'p' => simple .print
    | 'P' => simple .printFirst
    | 'd' => simple .delete
    | 'D' => simple .deleteFirst
    | 'n' => simple .next
    | 'N' => simple .appendNext
    | 'q' => dropAll isBlank; simple (.quit true ((← takeNumber).getD 0))
    | 'Q' => dropAll isBlank; simple (.quit false ((← takeNumber).getD 0))
    | '=' => simple .number
    | 'a' => return .append (← takeText)
    | 'i' => return .insert (← takeText)
    | 'c' => return .change (← takeText)
    | 'h' => simple (.hold false)
    | 'H' => simple (.hold true)
    | 'g' => simple (.get false)
    | 'G' => simple (.get true)
    | 'x' => simple .exchange
    | 'r' => dropAll isBlank; return .read (← takeAll (· ≠ '\n'))
    | 'w' => dropAll isBlank; return .write (← takeAll (· ≠ '\n'))
    | c => fail s!"unknown command: \x60{c}'"

/-- The instructions of a script, inside so many blocks. -/
def takeAllInstructions (extended : Bool) : Nat → Nat → Reads (List Instruction)
  | 0, _ => return []
  | n + 1, depth => do
    dropAll fun c => isBlank c || c = ';' || c = '\n'
    match ← get with
    | [] => if depth = 0 then return [] else fail "unmatched \x60\x7b'"
    | '#' :: _ =>
      dropAll (· ≠ '\n')
      takeAllInstructions extended n depth
    | _ =>
      let selector ← takeSelector extended
      dropAll isBlank
      let negated := (← get).head? = some '!'
      if negated then dropAll fun c => c = '!' || isBlank c
      let action ← takeAction extended
      if action = .closes && depth = 0 then fail "unexpected \x60\x7d'"
      let depth := match action with
        | .opens => depth + 1
        | .closes => depth - 1
        | _ => depth
      return { selector, negated, action } :: (← takeAllInstructions extended n depth)

/-- The instructions of a script, or the words about what is wrong with it. -/
def readScript (extended : Bool) (script : Octets) : Except Octets (List Instruction) :=
  match (takeAllInstructions extended (script.length + 1) 0).run script with
  | .ok (instructions, _) => .ok instructions
  | .error problem =>
    .error ("-e expression #1, char ".toList ++ Octets.ofNat (script.length - problem.left)
      ++ ": ".toList ++ problem.message)

end ExpectError.Shell.Sed
