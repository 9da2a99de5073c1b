import ExpectError.Shell.Command

/-!
# Reading scripts

Scripts are read line by line: a line is run before the next one is read. Quotes and backslashes
take away the meaning of the characters behind them. The text of a document follows the line that
asks for it.

* `readPieces`: the pieces of a word, or of what stands between quotes or braces;
* `readList`: commands up to something that does not begin one;
* `readLine`: the commands of one line.
-/

namespace ExpectError.Shell

/-- What is wrong with a script. -/
inductive ScriptError where
  | unterminatedQuote
  | unterminatedSubstitution
  | missingParens
  | missingBrace
  | badLoopVariable
  | badFunctionName
  | badDocumentEnd
  | unexpected (found : String) (expected : Option String)
  deriving DecidableEq, Repr

/-- The words of an error. -/
def ScriptError.message : ScriptError → String
  | .unterminatedQuote => "Unterminated quoted string"
  | .unterminatedSubstitution => "EOF in backquote substitution"
  | .missingParens => "Missing '))'"
  | .missingBrace => "Missing '\x7d'"
  | .badLoopVariable => "Bad for loop variable"
  | .badFunctionName => "Bad function name"
  | .badDocumentEnd => "Illegal eof marker for << redirection"
  | .unexpected found none => s!"{found} unexpected"
  | .unexpected found (some expected) => s!"{found} unexpected (expecting {expected})"

/-- A document whose text has not been read yet. -/
structure Awaited where
  number : Nat
  /-- The line behind the text. -/
  stop : List Char
  /-- Are tabs at the front of lines dropped? -/
  dropsTabs : Bool
  /-- Does every character stand for itself? -/
  literal : Bool
  deriving DecidableEq, Repr

/-- What is left of a script. -/
structure Source where
  rest : List Char
  line : Nat := 1
  /-- The documents that the line has asked for. -/
  awaited : List Awaited := []
  /-- The documents that have been read. -/
  documents : List (Nat × Word) := []
  /-- The number of the next document. -/
  next : Nat := 0
  deriving Repr

/-- What is wrong with a script, and the line at which it was found. -/
structure Misread where
  error : ScriptError
  line : Nat
  deriving DecidableEq, Repr

/-- A reader of a part of a script. -/
abbrev Reads (α : Type) := StateT Source (Except Misread) α

namespace Reads

/-- Fails at the line that is read. A line end that is not expected belongs to the next line. -/
def fail {α : Type} (error : ScriptError) : Reads α := fun s =>
  .error { error, line := if s.rest.head? = some '\n' then s.line + 1 else s.line }

/-- Leaves characters behind. -/
def skip (n : Nat) : Reads Unit :=
  modify fun s => { s with rest := s.rest.drop n, line := s.line + (s.rest.take n).count '\n' }

/-- What is left to read. -/
def rest : Reads (List Char) := return (← get).rest

/-- The characters in front of a quote, and what is behind it. -/
def splitQuote (quote : Char) : List Char → Option (List Char × List Char)
  | [] => none
  | c :: rest =>
    if c = quote then some ([], rest)
    else (splitQuote quote rest).map fun (front, behind) => (c :: front, behind)

/-- The text of a command between backquotes, and what is behind it. A backslash takes the meaning
from some characters. -/
def splitBackquoted (inDouble : Bool) : List Char → Option (List Char × List Char)
  | [] => none
  | '\x60' :: rest => some ([], rest)
  | '\\' :: c :: rest =>
    (splitBackquoted inDouble rest).map fun (front, behind) =>
      if c = '$' || c = '\x60' || c = '\\' || (inDouble && c = '"') then (c :: front, behind)
      else if c = '\n' then (front, behind)
      else ('\\' :: c :: front, behind)
  | c :: rest => (splitBackquoted inDouble rest).map fun (front, behind) => (c :: front, behind)

/-- Where pieces are read. -/
inductive Zone where
  /-- Outside of quotes, up to the end of a word. -/
  | plain
  | double
  | document
  /-- Behind the name of a parameter between braces. -/
  | braces (inDouble : Bool)
  /-- In arithmetic, with so many parentheses open. -/
  | arithmetic (depth : Nat)
  deriving DecidableEq, Repr

/-- Is what is read in a zone quoted? -/
def Zone.isQuoted : Zone → Bool
  | .plain => false
  | .double | .document => true
  | .braces inDouble => inDouble
  | .arithmetic _ => true

/-- Do quotes have their meaning in a zone? -/
def Zone.takesQuotes : Zone → Bool
  | .plain => true
  | .braces inDouble => !inDouble
  | _ => false

/-- The characters that a backslash takes the meaning from; in other zones from all. -/
def Zone.escapes : Zone → Option (List Char)
  | .plain | .braces false => none
  | .double => some ['$', '\x60', '"', '\\']
  | .braces true => some ['$', '\x60', '"', '\\', '\x7d']
  | .document => some ['$', '\x60', '\\']
  | .arithmetic _ => some ['$', '\x60', '"', '\\']

/-- Does a character end a word? -/
def endsWord (c : Char) : Bool :=
  [' ', '\t', '\n', ';', '&', '|', '<', '>', '(', ')'].contains c

/-- How many characters end a zone here; nothing if it goes on. -/
def Zone.stop? (zone : Zone) (rest : List Char) : Option Nat :=
  match zone, rest with
  | .plain, [] | .document, [] => some 0
  | .plain, c :: _ => if endsWord c then some 0 else none
  | .double, '"' :: _ => some 1
  | .braces _, '\x7d' :: _ => some 1
  | .arithmetic 0, ')' :: ')' :: _ => some 2
  | _, _ => none

/-- The zone behind a character that stands for itself. -/
def Zone.after : Zone → Char → Zone
  | .arithmetic depth, '(' => .arithmetic (depth + 1)
  | .arithmetic depth, ')' => .arithmetic (depth - 1)
  | zone, _ => zone

/-- The use of a parameter that some characters ask for, and how many they are. -/
def useOf : List Char → Use × Nat
  | '\x7d' :: _ => (.plain, 0)
  | ':' :: '-' :: _ => (.orElse true, 2)
  | ':' :: '=' :: _ => (.orAssign true, 2)
  | ':' :: '?' :: _ => (.orFail true, 2)
  | ':' :: '+' :: _ => (.andThen true, 2)
  | '-' :: _ => (.orElse false, 1)
  | '=' :: _ => (.orAssign false, 1)
  | '?' :: _ => (.orFail false, 1)
  | '+' :: _ => (.andThen false, 1)
  | '%' :: '%' :: _ => (.dropEnd true, 2)
  | '%' :: _ => (.dropEnd false, 1)
  | '#' :: '#' :: _ => (.dropFront true, 2)
  | '#' :: _ => (.dropFront false, 1)
  | _ => (.bad, 0)

/-- Is the word of a use a pattern? -/
def takesPattern : Use → Bool
  | .dropEnd _ | .dropFront _ => true
  | _ => false

/-- The name of the parameter at the front. -/
def parameterName (rest : List Char) : List Char :=
  match rest with
  | [] => []
  | c :: _ =>
    if isNameStart c then rest.takeWhile isNamePart
    else if c.isDigit then rest.takeWhile Char.isDigit
    else if isSpecial c then [c]
    else []

/-- Does the length of a parameter stand behind a brace and a number sign? -/
def asksLength (rest : List Char) : Bool :=
  let name := parameterName rest
  !name.isEmpty && (rest.drop name.length).head? = some '\x7d'

/-- Drops blanks, joined lines and a comment. -/
def skipBlanks : Nat → Reads Unit
  | 0 => pure ()
  | n + 1 => do
    match ← rest with
    | ' ' :: _ | '\t' :: _ => skip 1; skipBlanks n
    | '\\' :: '\n' :: _ => skip 2; skipBlanks n
    | '#' :: more => skip (1 + (more.takeWhile (· ≠ '\n')).length)
    | _ => pure ()

/-- Drops blanks. -/
def blanks : Reads Unit := do
  skipBlanks ((← rest).length + 1)

/-- Is a piece of text at the front? -/
def isAt (text : String) : Reads Bool :=
  return text.toList.isPrefixOf (← rest)

/-- What is at the front, for an error. -/
def found : Reads String := do
  match ← rest with
  | [] => return "end of file"
  | '\n' :: _ => return "newline"
  | ';' :: ';' :: _ => return "\";;\""
  | '&' :: '&' :: _ => return "\"&&\""
  | '|' :: '|' :: _ => return "\"||\""
  | '<' :: _ | '>' :: _ => return "redirection"
  | c :: _ => if endsWord c then return s!"\"{c}\"" else return "word"

/-- The reserved words. -/
def reserved : List String :=
  ["if", "then", "elif", "else", "fi", "!", "\x7b", "\x7d", "for", "while", "until", "do", "done",
    "case", "esac"]

/-- The reserved words that end a list of commands. -/
def closers : List String :=
  ["then", "elif", "else", "fi", "\x7d", "do", "done", "esac"]

/-- The text of a word without quotes at the front. -/
def bareWord : Reads (List Char) := do
  return (← rest).takeWhile fun c => !endsWord c && !(['\'', '"', '\\', '$', '\x60'].contains c)

/-- The reserved word at the front. -/
def reserved? : Reads (Option String) := do
  let word ← bareWord
  match (← rest).drop word.length with
  | [] => return reserved.find? (· = String.ofList word)
  | c :: _ =>
    if endsWord c then return reserved.find? (· = String.ofList word) else return none

/-- Is something at the front that does not begin a command? -/
def atListEnd : Reads Bool := do
  if (← rest).isEmpty || (← isAt ")") || (← isAt ";;") then return true
  match ← reserved? with
  | some word => return closers.contains word
  | none => return false

/-- Refuses what is at the front. -/
def refuse {α : Type} (expected : Option String) : Reads α := do
  match ← reserved? with
  | some word => fail (.unexpected s!"\"{word}\"" expected)
  | none => fail (.unexpected (← found) expected)

/-- Refuses what is at the front, where no word is reserved. -/
def refuseToken {α : Type} (expected : String) : Reads α := do
  fail (.unexpected (← found) (some expected))

/-- Fails at the end of the script. -/
def failAtEnd {α : Type} (error : ScriptError) : Reads α := do
  skip (← rest).length
  fail error

/-- Takes a reserved word. -/
def take (word : String) : Reads Unit := do
  blanks
  if (← reserved?) = some word then skip word.length
  else refuse (some s!"\"{word}\"")

/-- The lines of a document and what is behind it. -/
def documentLines (document : Awaited) : Nat → List Char → List (List Char) × List Char
  | 0, text => ([], text)
  | _ + 1, [] => ([], [])
  | n + 1, text =>
    let line := text.takeWhile (· ≠ '\n')
    let behind := (text.drop line.length).drop 1
    let line := if document.dropsTabs then line.dropWhile (· = '\t') else line
    if line = document.stop then ([], behind)
    else
      let escapes := (line.reverse.takeWhile (· = '\\')).length
      if !document.literal && escapes % 2 = 1 && !behind.isEmpty then
        let next := behind.takeWhile (· ≠ '\n')
        let (lines, rest) := documentLines document n ((behind.drop next.length).drop 1)
        ((line.dropLast ++ next) :: lines, rest)
      else
        let (lines, rest) := documentLines document n behind
        (line :: lines, rest)

mutual

/-- The pieces of a zone up to its end. -/
def readPieces : Nat → Zone → Reads Word
  | 0, _ => fail .unterminatedQuote
  | n + 1, zone => do
    let text ← rest
    match zone.stop? text with
    | some size => skip size; return []
    | none =>
      match text with
      | [] =>
        match zone with
        | .arithmetic _ => fail .missingParens
        | .braces _ => fail .missingBrace
        | _ => fail .unterminatedQuote
      | '\\' :: '\n' :: _ => skip 2; readPieces n zone
      | '\\' :: c :: _ =>
        let taken := match zone.escapes with
          | none => true
          | some characters => characters.contains c
        if taken then
          skip 2
          return .char c true :: (← readPieces n zone)
        else
          skip 1
          return .char '\\' true :: (← readPieces n zone)
      | '$' :: _ =>
        skip 1
        let piece ← readDollar n zone.isQuoted
        return piece :: (← readPieces n zone)
      | '\x60' :: more =>
        match splitBackquoted zone.isQuoted more with
        | none => failAtEnd .unterminatedSubstitution
        | some (script, behind) =>
          let line := (← get).line
          skip (text.length - behind.length)
          return .command script line zone.isQuoted :: (← readPieces n zone)
      | '"' :: _ =>
        if zone.takesQuotes || zone = .braces true then
          skip 1
          let inner ← readPieces n .double
          return .mark :: inner ++ (← readPieces n zone)
        else
          skip 1
          return .char '"' true :: (← readPieces n zone)
      | '\'' :: more =>
        if zone.takesQuotes then
          match splitQuote '\'' more with
          | none => failAtEnd .unterminatedQuote
          | some (inner, _) =>
            skip (inner.length + 2)
            return .mark :: Word.ofText inner true ++ (← readPieces n zone)
        else
          skip 1
          return .char '\'' true :: (← readPieces n zone)
      | c :: _ =>
        skip 1
        return .char c zone.isQuoted :: (← readPieces n (zone.after c))

/-- What a dollar sign begins. -/
def readDollar : Nat → Bool → Reads Piece
  | 0, _ => fail .unterminatedQuote
  | n + 1, quoted => do
    match ← rest with
    | '\\' :: '\n' :: _ => skip 2; readDollar n quoted
    | '(' :: '(' :: _ =>
      skip 2
      return .arithmetic (← readPieces n (.arithmetic 0)) quoted
    | '(' :: _ =>
      skip 1
      let before ← get
      set { before with awaited := [] }
      let _ ← readList n
      blanks
      unless ← isAt ")" do refuse (some "\")\"")
      let after ← get
      let script := before.rest.take (before.rest.length - after.rest.length)
      set { before with rest := after.rest.drop 1, line := after.line }
      return .command script before.line quoted
    | '\x7b' :: '#' :: more =>
      if asksLength more then
        let name := parameterName more
        skip (name.length + 3)
        return .parameter name .length [] quoted
      else
        skip 1
        readBraced n quoted
    | '\x7b' :: _ => skip 1; readBraced n quoted
    | text =>
      let name := match text with
        | c :: _ => if c.isDigit then [c] else parameterName text
        | [] => []
      if name.isEmpty then return .char '$' quoted
      else
        skip name.length
        return .parameter name .plain [] quoted

/-- A parameter between braces. -/
def readBraced : Nat → Bool → Reads Piece
  | 0, _ => fail .unterminatedQuote
  | n + 1, quoted => do
    let name := parameterName (← rest)
    skip name.length
    let (use, size) := useOf (← rest)
    let use := if name.isEmpty then .bad else use
    skip size
    let zone := if takesPattern use then .braces false else .braces quoted
    let word ← readPieces n zone
    return .parameter name use word quoted

/-- The texts of the documents that the line has asked for. -/
def readDocuments : Nat → List Awaited → Reads Unit
  | _, [] => modify fun s => { s with awaited := [] }
  | 0, _ :: _ => fail .unterminatedQuote
  | n + 1, document :: more => do
    let before ← get
    let (lines, behind) := documentLines document (before.rest.length + 1) before.rest
    let text := lines.flatMap (· ++ ['\n'])
    let word ←
      if document.literal then pure (Word.ofText text true)
      else do
        set { before with rest := text, awaited := [] }
        readPieces n .document
    let size := before.rest.length - behind.length
    set { before with
      rest := behind
      line := before.line + (before.rest.take size).count '\n'
      documents := (document.number, word) :: before.documents }
    readDocuments n more

/-- The end of a line, with the documents behind it. -/
def readLineEnd : Nat → Reads Unit
  | 0 => fail .unterminatedQuote
  | n + 1 => do
    skip 1
    readDocuments n (← get).awaited

/-- Any number of line ends. -/
def readLineEnds : Nat → Reads Unit
  | 0 => fail .unterminatedQuote
  | n + 1 => do
    blanks
    if ← isAt "\n" then
      readLineEnd n
      readLineEnds n

/-- The word behind a redirection. -/
def readTarget : Nat → Reads Word
  | 0 => fail .unterminatedQuote
  | n + 1 => do
    blanks
    let word ← readPieces n .plain
    if word.isEmpty then refuse none
    return word

/-- A redirection behind the number of its channel. -/
def readRedirection : Nat → Option Nat → Reads Redirection
  | 0, _ => fail .unterminatedQuote
  | n + 1, channel => do
    let toWord (size default : Nat) (direction : Direction) : Reads Redirection := do
      skip size
      return { channel := channel.getD default, target := .word direction (← readTarget n) }
    match ← rest with
    | '<' :: '<' :: more =>
      let dropsTabs := more.head? = some '-'
      skip (if dropsTabs then 3 else 2)
      let word ← readTarget n
      match Word.literal? word with
      | none => fail .badDocumentEnd
      | some stop =>
        let number := (← get).next
        modify fun s => { s with
          next := number + 1
          awaited := s.awaited ++ [{ number, stop, dropsTabs, literal := word.isQuoted }] }
        return { channel := channel.getD 0, target := .document number }
    | '<' :: '&' :: _ => toWord 2 0 .copy
    | '<' :: '>' :: _ => toWord 2 0 .both
    | '<' :: _ => toWord 1 0 .input
    | '>' :: '&' :: _ => toWord 2 1 .copy
    | '>' :: '|' :: _ => toWord 2 1 .clobber
    | '>' :: '>' :: _ => toWord 2 1 .append
    | _ => toWord 1 1 .output

/-- A redirection, if one is at the front. -/
def readRedirection? : Nat → Reads (Option Redirection)
  | 0 => fail .unterminatedQuote
  | n + 1 => do
    blanks
    match ← rest with
    | '<' :: _ | '>' :: _ => return some (← readRedirection n none)
    | c :: '<' :: _ | c :: '>' :: _ =>
      if c.isDigit then
        skip 1
        return some (← readRedirection n (some (c.toNat - '0'.toNat)))
      else return none
    | _ => return none

/-- The redirections behind a command. -/
def readRedirections : Nat → Reads (List Redirection)
  | 0 => fail .unterminatedQuote
  | n + 1 => do
    match ← readRedirection? n with
    | none => return []
    | some redirection => return redirection :: (← readRedirections n)

/-- The words and redirections of a simple command. -/
def readSimple : Nat → Nat → List Word → List Redirection → Reads Command
  | 0, _, _, _ => fail .unterminatedQuote
  | n + 1, line, words, redirections => do
    match ← readRedirection? n with
    | some redirection => readSimple n line words (redirections ++ [redirection])
    | none =>
      let word ← readPieces n .plain
      if !word.isEmpty then readSimple n line (words ++ [word]) redirections
      else if words.isEmpty && redirections.isEmpty then refuse none
      else
        let isPlain := redirections.isEmpty && (words.filterMap Word.assignment?).isEmpty
        match words, isPlain && (← isAt "(") with
        | [name], true =>
          skip 1
          blanks
          unless ← isAt ")" do refuseToken "\")\""
          skip 1
          match Word.bare? name with
          | none => fail .badFunctionName
          | some name =>
            unless isName name do fail .badFunctionName
            readLineEnds n
            return .function name (← readCommand n)
        | _, _ => return .simple line words redirections

/-- One command. -/
def readCommand : Nat → Reads Command
  | 0 => fail .unterminatedQuote
  | n + 1 => do
    blanks
    let line := (← get).line
    if ← isAt "(" then
      skip 1
      let body ← readList n
      blanks
      unless ← isAt ")" do refuse (some "\")\"")
      skip 1
      withRedirections n line (.subshell body)
    else
      match ← reserved? with
      | some "\x7b" =>
        skip 1
        let body ← readFilledList n
        take "\x7d"
        withRedirections n line body
      | some "if" =>
        skip 2
        withRedirections n line (← readBranches n)
      | some "while" => skip 5; withRedirections n line (← readLoop n false)
      | some "until" => skip 5; withRedirections n line (← readLoop n true)
      | some "for" => skip 3; withRedirections n line (← readEach n line)
      | some "case" => skip 4; withRedirections n line (← readChoice n line)
      | some _ => refuse none
      | none => readSimple n line [] []

/-- A command with the redirections behind it. -/
def withRedirections : Nat → Nat → Command → Reads Command
  | 0, _, _ => fail .unterminatedQuote
  | n + 1, line, body => do
    match ← readRedirections n with
    | [] => return body
    | redirections => return .redirected line body redirections

/-- A condition and its branches, up to the end of the whole condition. -/
def readBranches : Nat → Reads Command
  | 0 => fail .unterminatedQuote
  | n + 1 => do
    let condition ← readFilledList n
    take "then"
    let body ← readFilledList n
    blanks
    match ← reserved? with
    | some "elif" => skip 4; return .conditional condition body (← readBranches n)
    | some "else" =>
      skip 4
      let otherwise ← readFilledList n
      take "fi"
      return .conditional condition body otherwise
    | _ =>
      take "fi"
      return .conditional condition body .nothing

/-- A loop behind its first word. -/
def readLoop : Nat → Bool → Reads Command
  | 0, _ => fail .unterminatedQuote
  | n + 1, untilSuccess => do
    let condition ← readFilledList n
    take "do"
    let body ← readFilledList n
    take "done"
    return .loop untilSuccess condition body

/-- The words up to the end of a line. -/
def readWords : Nat → Reads (List Word)
  | 0 => fail .unterminatedQuote
  | n + 1 => do
    blanks
    let word ← readPieces n .plain
    if word.isEmpty then return [] else return word :: (← readWords n)

/-- A loop over words behind its first word. -/
def readEach : Nat → Nat → Reads Command
  | 0, _ => fail .unterminatedQuote
  | n + 1, line => do
    blanks
    let name ← bareWord
    unless isName name do fail .badLoopVariable
    skip name.length
    readLineEnds n
    let words ← (do
      if (← bareWord) = "in".toList then
        skip 2
        let words ← readWords n
        unless (← isAt ";") || (← isAt "\n") do refuse none
        if ← isAt ";" then skip 1
        return some words
      else
        if ← isAt ";" then skip 1
        return none)
    readLineEnds n
    take "do"
    let body ← readFilledList n
    take "done"
    return .each line name words body

/-- The patterns of a clause. -/
def readPatterns : Nat → Reads (List Word)
  | 0 => fail .unterminatedQuote
  | n + 1 => do
    blanks
    let word ← readPieces n .plain
    if word.isEmpty then refuseToken "\")\""
    blanks
    if ← isAt "|" then
      skip 1
      return word :: (← readPatterns n)
    else
      unless ← isAt ")" do refuse (some "\")\"")
      skip 1
      return [word]

/-- The clauses of a choice. -/
def readClauses : Nat → Reads (List (List Word × Command))
  | 0 => fail .unterminatedQuote
  | n + 1 => do
    readLineEnds n
    if (← reserved?) = some "esac" then
      skip 4
      return []
    else
      if ← isAt "(" then skip 1
      let patterns ← readPatterns n
      let body ← readList n
      blanks
      if ← isAt ";;" then
        skip 2
        return (patterns, body) :: (← readClauses n)
      else if (← reserved?) = some "esac" then
        skip 4
        return [(patterns, body)]
      else refuse (some "\";;\"")

/-- A choice behind its first word. -/
def readChoice : Nat → Nat → Reads Command
  | 0, _ => fail .unterminatedQuote
  | n + 1, line => do
    blanks
    let word ← readPieces n .plain
    if word.isEmpty then refuse none
    readLineEnds n
    unless (← bareWord) = "in".toList do refuse (some "\"in\"")
    skip 2
    return .choice line word (← readClauses n)

/-- Commands whose outputs are the inputs of the next ones. -/
def readStages : Nat → Reads (List Command)
  | 0 => fail .unterminatedQuote
  | n + 1 => do
    let command ← readCommand n
    blanks
    if (← isAt "|") && !(← isAt "||") then
      skip 1
      readLineEnds n
      return command :: (← readStages n)
    else return [command]

/-- A pipeline. -/
def readPipeline : Nat → Reads Command
  | 0 => fail .unterminatedQuote
  | n + 1 => do
    blanks
    if (← reserved?) = some "!" then
      skip 1
      return .negated (← readPipeline n)
    else
      match ← readStages n with
      | [command] => return command
      | commands => return .pipeline commands

/-- What is joined to a pipeline. -/
def readJoined : Nat → Command → Reads Command
  | 0, _ => fail .unterminatedQuote
  | n + 1, first => do
    blanks
    if ← isAt "&&" then
      skip 2
      readLineEnds n
      readJoined n (.both first (← readPipeline n))
    else if ← isAt "||" then
      skip 2
      readLineEnds n
      readJoined n (.either first (← readPipeline n))
    else return first

/-- A pipeline with what is joined to it, and whether something stands between it and the next. -/
def readEntry : Nat → Reads (Command × Bool)
  | 0 => fail .unterminatedQuote
  | n + 1 => do
    let command ← readJoined n (← readPipeline n)
    blanks
    if ← isAt "&" then
      skip 1
      return (.background command, true)
    else if (← isAt ";") && !(← isAt ";;") then
      skip 1
      return (command, true)
    else return (command, ← isAt "\n")

/-- Commands up to something that does not begin one. -/
def readList : Nat → Reads Command
  | 0 => fail .unterminatedQuote
  | n + 1 => do
    readLineEnds n
    if ← atListEnd then return .nothing
    let (command, separated) ← readEntry n
    if separated then
      match ← readList n with
      | .nothing => return command
      | more => return .sequence command more
    else
      unless ← atListEnd do refuse none
      return command

/-- Commands, at least one unless the script ends here. -/
def readFilledList : Nat → Reads Command
  | 0 => fail .unterminatedQuote
  | n + 1 => do
    match ← readList n with
    | .nothing => if (← rest).isEmpty then return .nothing else refuse none
    | command => return command

end

/-- The commands up to the end of a line. -/
def readRow : Nat → Reads Command
  | 0 => fail .unterminatedQuote
  | n + 1 => do
    let (command, separated) ← readEntry n
    blanks
    if (← rest).isEmpty then
      readDocuments n (← get).awaited
      return command
    else if ← isAt "\n" then
      readLineEnd n
      return command
    else if separated then return .sequence command (← readRow n)
    else refuse none

/-- The next commands that are run together; nothing at the end of the script. -/
def readLine : Reads (Option Command) := do
  let bound := 12 * (← rest).length + 100
  readLineEnds bound
  if (← rest).isEmpty then return none
  return some (← readRow bound)

end Reads

end ExpectError.Shell
