import ExpectError.Shell.Programs.Files
import ExpectError.Shell.Programs.Sed.Script

/-!
# The stream editor

Every line goes through the instructions of a script and is written behind the last of them. A
second text is kept from line to line.

* `Editor`: the editor between two instructions;
* `Sed.edit`: the effect of a script on lines.
-/

namespace ExpectError.Shell

namespace Sed

/-- Something that is written. -/
inductive Written where
  | text (text : Octets)
  /-- A line, and whether it has an end of its own. -/
  | line (text : Octets) (ended : Bool)
  /-- The contents of a file. -/
  | file (file : Octets)
  deriving DecidableEq, Repr

/-- The editor between two instructions. -/
structure Editor where
  line : Octets := []
  /-- The text that is kept from line to line. -/
  held : Octets := []
  /-- The lines that have not been read. -/
  rest : List Octets
  /-- Does the last line have an end? -/
  ended : Bool := true
  number : Nat := 0
  /-- What has been written, the last piece first. -/
  written : List Written := []
  /-- What is written behind the line, the last piece first. -/
  queued : List Written := []
  /-- What was written to files. -/
  files : List (Octets × Octets) := []
  /-- Has something been replaced in this line? -/
  replaced : Bool := false
  /-- The ranges that have begun, by their instructions, with the numbers of their last lines if
  they are known. -/
  ranges : List (Nat × Option Nat) := []
  lastSearch : Search := none
  /-- Is the line written without being asked for? -/
  autoprint : Bool := true
  status : Nat := 0
  finished : Bool := false

namespace Editor

/-- Writes a text. -/
def write (e : Editor) (text : Octets) : Editor :=
  { e with written := .text text :: e.written }

/-- Is this the last line? -/
def isLast (e : Editor) : Bool :=
  e.rest.isEmpty

/-- Writes a line. The last one has an end only if it had one when it was read. -/
def writeLine (e : Editor) (line : Octets) : Editor :=
  { e with written := .line line (!e.isLast || e.ended) :: e.written }

/-- The expression that is searched for. -/
def searched (e : Editor) (search : Search) : Option (Regex × Bool) :=
  match search with
  | some regex => some regex
  | none => e.lastSearch

/-- Does an expression match in the line? -/
def finds (e : Editor) (search : Search) : Bool :=
  match e.searched search with
  | some (regex, fold) => (regex.find? fold e.line).isSome
  | none => false

/-- Is this the line of an address? -/
def isAt (e : Editor) : Address → Bool
  | .line number => e.number = number
  | .every first step =>
    if step = 0 then e.number = first else first ≤ e.number && (e.number - first) % step = 0
  | .last => e.isLast
  | .holding search => e.finds search

/-- The state behind a look at an address. -/
def afterLook (e : Editor) : Address → Editor
  | .holding (some search) => { e with lastSearch := some search }
  | _ => e

/-- Ends a range. -/
def closeRange (e : Editor) (index : Nat) : Editor :=
  { e with ranges := e.ranges.filter (·.1 ≠ index) }

/-- Is this a line of a range that has begun? -/
def inRange (e : Editor) (index : Nat) (bound : Option Nat) (last : RangeEnd) : Bool × Editor :=
  match bound, last with
  | some number, _ =>
    (e.number ≤ number, if number ≤ e.number then e.closeRange index else e)
  | none, .address address =>
    let ends := e.isAt address
    let e := e.afterLook address
    (true, if ends then e.closeRange index else e)
  | none, _ => (true, e.closeRange index)

/-- Begins a range at this line, unless it ends here. -/
def beginRange (e : Editor) (index : Nat) (last : RangeEnd) : Editor :=
  let withBound (number : Nat) : Editor :=
    if number ≤ e.number then e else { e with ranges := (index, some number) :: e.ranges }
  match last with
  | .address (.line number) => withBound number
  | .address .last => if e.isLast then e else { e with ranges := (index, none) :: e.ranges }
  | .address _ => { e with ranges := (index, none) :: e.ranges }
  | .further count => withBound (e.number + count)
  | .multiple factor =>
    if factor = 0 then e else withBound ((e.number + factor - 1) / factor * factor)

/-- Is an instruction for this line? -/
def selects (e : Editor) (index : Nat) : Selector → Bool × Editor
  | .all => (true, e)
  | .one address => (e.isAt address, e.afterLook address)
  | .range first last =>
    match e.ranges.lookup index with
    | some bound => e.inRange index bound last
    | none =>
      if first = .line 0 && e.number = 1 then
        { e with ranges := (index, none) :: e.ranges }.inRange index none last
      else if e.isAt first then (true, (e.afterLook first).beginRange index last)
      else (false, e.afterLook first)

/-! ### Replacing -/

/-- What is put in place of a match. -/
def render (found : Regex.Match) : List Part → Option Bool → Option Bool → Octets
  | [], _, _ => []
  | .letters upper :: rest, _, once => render found rest upper once
  | .letter upper :: rest, upper', _ => render found rest upper' (some upper)
  | part :: rest, upper, once =>
    let text := match part with
      | .char c => [c]
      | .group 0 => found.text
      | .group number => (found.captures.lookup number).getD []
      | _ => []
    let cased (choice : Option Bool) (c : Char) : Char :=
      match choice with
      | some true => c.toUpper
      | some false => c.toLower
      | none => c
    match text with
    | [] => render found rest upper once
    | c :: more =>
      cased (once.or upper) c :: more.map (cased upper) ++ render found rest upper none

/-- Replaces matches from a place on. The number of the next match is given, and whether a match
that ends here has just been left behind. -/
def replaceFrom (regex : Regex) (fold : Bool) (s : Substitution) :
    Nat → Nat → Bool → List Char → List Char → Octets × Bool
  | 0, _, _, _, rest => (rest, false)
  | n + 1, number, behind, passed, rest =>
    match regex.findFrom? fold passed rest with
    | none => (rest, false)
    | some found =>
      let front := rest.take (found.passed.length - passed.length)
      let goOn (number : Nat) (behind : Bool) (text : Octets) (replaced : Bool) : Octets × Bool :=
        if found.text.isEmpty then
          match found.rest with
          | [] => (front ++ text, replaced)
          | c :: more =>
            let (after, again) := replaceFrom regex fold s n number false (c :: found.passed) more
            (front ++ text ++ c :: after, replaced || again)
        else
          let (after, again) :=
            replaceFrom regex fold s n number behind (found.text.reverse ++ found.passed) found.rest
          (front ++ text ++ after, replaced || again)
      if found.text.isEmpty && behind && front.isEmpty then goOn number false [] false
      else if number < s.first then goOn (number + 1) true found.text false
      else if s.all then goOn (number + 1) true (render found s.parts none none) true
      else (front ++ render found s.parts none none ++ found.rest, true)

/-- Adds a text to what was written to a file. -/
def writeTo (e : Editor) (file text : Octets) : Editor :=
  if file = "/dev/stdout".toList then e.write text
  else
    let before := (e.files.lookup file).getD []
    { e with files := (file, before ++ text) :: e.files.filter (·.1 ≠ file) }

/-- Carries out a replacement. -/
def substitute (e : Editor) (s : Substitution) : Editor :=
  match e.searched s.search with
  | none => e
  | some (regex, fold) =>
    let e := { e with lastSearch := some (regex, fold) }
    let bound := 2 * e.line.length + 2
    let (line, replaced) := replaceFrom regex fold s bound 1 false [] e.line
    if !replaced then e
    else
      let e := { e with line, replaced := true }
      let e := if s.prints then e.writeLine e.line else e
      match s.target with
      | some file => e.writeTo file (e.line ++ ['\n'])
      | none => e

/-- The front of the line up to its first line end. -/
def firstLine (e : Editor) : Octets :=
  e.line.takeWhile (· ≠ '\n')

end Editor

/-! ### Running -/

/-- Where a cycle goes on. -/
inductive Turn where
  | onTo (index : Nat)
  /-- The line is written, and the next one is read. -/
  | finish
  /-- The next line is read. -/
  | drop
  /-- The first instruction comes next, without reading. -/
  | again
  deriving DecidableEq, Repr

/-- The place behind the end of the block that is opened at the front, counted from there. -/
def blockSize : Nat → List Instruction → Nat
  | _, [] => 0
  | depth, instruction :: rest =>
    match instruction.action with
    | .opens => 1 + blockSize (depth + 1) rest
    | .closes => if depth ≤ 1 then 1 else 1 + blockSize (depth - 1) rest
    | _ => 1 + blockSize depth rest

/-- Where a label stands; without a name, behind the last instruction. -/
def labelIndex (script : List Instruction) (name : Octets) : Nat :=
  if name.isEmpty then script.length
  else (script.findIdx? fun i => i.action = .label name).getD script.length

/-- Replaces bytes by the ones at the same places of another text. -/
def translate (source target line : Octets) : Octets :=
  line.map fun c =>
    match source.idxOf? c with
    | some i => target.getD i c
    | none => c

/-- Carries out an action. -/
def act (script : List Instruction) (index : Nat) (inRange : Bool) (action : Action) (e : Editor) :
    Turn × Editor :=
  let go (e : Editor) : Turn × Editor := (.onTo (index + 1), e)
  match action with
  | .opens | .closes | .label _ => go e
  | .branch name => (.onTo (labelIndex script name), e)
  | .branchIf replaced name =>
    if e.replaced = replaced then (.onTo (labelIndex script name), { e with replaced := false })
    else (.onTo (index + 1), { e with replaced := false })
  | .substitute s => go (e.substitute s)
  | .translate source target => go { e with line := translate source target e.line }
  | .print => go (e.writeLine e.line)
  | .printFirst => go (e.writeLine e.firstLine)
  | .delete => (.drop, e)
  | .deleteFirst =>
    if e.line.contains '\n' then
      (.again, { e with line := e.line.drop (e.firstLine.length + 1) })
    else (.drop, e)
  | .next =>
    match e.rest with
    | [] => (.finish, { e with finished := true })
    | line :: rest =>
      let e := if e.autoprint then e.writeLine e.line else e
      let e := { e with written := e.queued ++ e.written, queued := [] }
      go { e with line, rest, number := e.number + 1 }
  | .appendNext =>
    match e.rest with
    | [] => (.finish, { e with finished := true })
    | line :: rest =>
      let e := { e with written := e.queued ++ e.written, queued := [] }
      go { e with line := e.line ++ '\n' :: line, rest, number := e.number + 1 }
  | .quit prints status =>
    (if prints then .finish else .drop, { e with finished := true, status })
  | .number => go (e.write (Octets.ofNat e.number ++ ['\n']))
  | .append text => go { e with queued := .text text :: e.queued }
  | .insert text => go (e.write text)
  | .change text => (.drop, if inRange then e else e.write text)
  | .hold appends => go { e with held := if appends then e.held ++ '\n' :: e.line else e.line }
  | .get appends => go { e with line := if appends then e.line ++ '\n' :: e.held else e.held }
  | .exchange => go { e with line := e.held, held := e.line }
  | .read file => go { e with queued := .file file :: e.queued }
  | .write file => go (e.writeTo file (e.line ++ ['\n']))

/-- Runs instructions from one on. -/
def runFrom (script : List Instruction) : Nat → Nat → Editor → Turn × Editor
  | 0, _, e => (.drop, { e with finished := true })
  | n + 1, index, e =>
    match script[index]? with
    | none => (.finish, e)
    | some instruction =>
      let (selected, e) := e.selects index instruction.selector
      if selected = instruction.negated then
        let size := if instruction.action = .opens then blockSize 0 (script.drop index) else 1
        runFrom script n (index + size) e
      else
        let inRange := (e.ranges.lookup index).isSome && !instruction.negated
        match act script index inRange instruction.action e with
        | (.onTo index, e) => runFrom script n index e
        | result => result

/-- The limit of the instructions that are run for one line. -/
def maxInstructions : Nat := 100000

/-- Goes through lines until they are used up. -/
def cycles (script : List Instruction) : Nat → Bool → Editor → Editor
  | 0, _, e => e
  | n + 1, reads, e =>
    let next : Option Editor :=
      if reads then
        match e.rest with
        | [] => none
        | line :: rest => some { e with line, rest, number := e.number + 1, replaced := false }
      else some e
    match next with
    | none => e
    | some e =>
      let (turn, e) := runFrom script maxInstructions 0 e
      let e := if turn = .finish && e.autoprint then e.writeLine e.line else e
      let e := { e with written := e.queued ++ e.written, queued := [] }
      if e.finished then e else cycles script n (turn ≠ .again) e

/-- The effect of a script on lines. -/
def edit (script : List Instruction) (e : Editor) : Editor :=
  let bound := 2 * (e.rest.foldl (fun n line => n + line.length + 1) 0) + 2
  cycles script bound true e

/-! ### Calling -/

/-- How the editor is called. -/
structure Call where
  scripts : List Octets := []
  extended : Bool := false
  quiet : Bool := false
  /-- Are files changed, with copies of the old ones under names with a given end? -/
  inPlace : Option Octets := none
  separate : Bool := false
  /-- Files with scripts. -/
  scriptFiles : List Octets := []
  operands : List Octets := []
  deriving DecidableEq, Repr

/-- Takes the letters of one argument. -/
def takeLetters (call : Call) : List Char → List Octets → Option (Call × List Octets)
  | [], rest => some (call, rest)
  | c :: letters, rest =>
    match c with
    | 'n' => takeLetters { call with quiet := true } letters rest
    | 'E' | 'r' => takeLetters { call with extended := true } letters rest
    | 's' => takeLetters { call with separate := true } letters rest
    | 'u' => takeLetters call letters rest
    | 'i' => some ({ call with inPlace := some letters }, rest)
    | 'e' =>
      if letters.isEmpty then
        rest.head?.map fun script => ({ call with scripts := call.scripts ++ [script] }, rest.tail)
      else some ({ call with scripts := call.scripts ++ [letters] }, rest)
    | 'f' =>
      if letters.isEmpty then
        rest.head?.map fun file =>
          ({ call with scriptFiles := call.scriptFiles ++ [file] }, rest.tail)
      else some ({ call with scriptFiles := call.scriptFiles ++ [letters] }, rest)
    | _ => none

/-- Takes options and operands. -/
def takeCall (call : Call) : Nat → List Octets → Option Call
  | 0, _ => none
  | _, [] => some call
  | n + 1, argument :: rest =>
    match String.ofList argument with
    | "--" => some { call with operands := call.operands ++ rest }
    | "--quiet" | "--silent" => takeCall { call with quiet := true } n rest
    | "--regexp-extended" => takeCall { call with extended := true } n rest
    | "--in-place" => takeCall { call with inPlace := some [] } n rest
    | _ =>
      match argument with
      | '-' :: c :: letters =>
        (takeLetters call (c :: letters) rest).bind fun (call, rest) => takeCall call n rest
      | operand => takeCall { call with operands := call.operands ++ [operand] } n rest

/-- What has been written, with files put in where they were asked for. A line without an end gets
one if something follows. -/
def output (s : State) : List Written → Octets
  | [] => []
  | .text text :: rest => text ++ output s rest
  | .line text ended :: rest =>
    text ++ (if ended || !rest.isEmpty then ['\n'] else []) ++ output s rest
  | .file file :: rest =>
    let content := match s.tree.readBytes (s.path file) with
      | .ok bytes => Octets.ofBytes bytes
      | .error _ => []
    content ++ output s rest

/-- Writes the files that a script has asked for. -/
def writeFiles (e : Editor) (s : State) : State :=
  e.files.foldl (fun s (file, text) =>
    match s.tree.write (s.path file) text.toBytes with
    | .ok tree => s.withTree tree
    | .error error =>
      s.complain ("sed: couldn't open file ".toList ++ file ++ ": ".toList ++ error.reason.toList)
        4) s

/-- The words about a file that cannot be read. -/
def cannotRead (file : Octets) (e : FileError) : Octets :=
  match e with
  | .isFolder => "sed: couldn't edit ".toList ++ file ++ ": not a regular file".toList
  | e => "sed: can't read ".toList ++ file ++ ": ".toList ++ e.reason.toList

/-- The editor in front of a text. -/
def start (quiet : Bool) (text : Octets) : Editor :=
  { rest := Octets.lines text
    ended := text.isEmpty || text.getLast? = some '\n'
    autoprint := !quiet }

/-- Changes files in place. A changed file takes the place of the old one, so it does not matter
whether that may be written. -/
def editFiles (script : List Instruction) (quiet : Bool) (suffix : Octets) (files : List Octets)
    (s : State) : State :=
  files.foldl (fun s file =>
    match s.tree.resolve (s.path file) with
    | .error e => s.complain (cannotRead file e) 4
    | .ok (_, .folder) => s.complain (cannotRead file .isFolder) 4
    | .ok (names, .file bytes executable) =>
      let text := Octets.ofBytes bytes
      let e := edit script (start quiet text)
      let changed := output s e.written.reverse
      let left := Octets.ofLines e.rest
      let s := if suffix.isEmpty then s
        else
          match s.tree.write (s.path (file ++ suffix)) bytes with
          | .ok tree => s.withTree tree
          | .error _ => s
      let edited := s.tree.put names (.file (changed ++ left).toBytes executable)
      (writeFiles e (s.withTree edited)).done (max s.status e.status)) (s.done 0)

/-- Goes through texts one after another, each as if it were the only one but for the text that is
kept. -/
def editEach (script : List Instruction) (quiet : Bool) : Editor → List Octets → Editor
  | e, [] => e
  | e, text :: rest =>
    let begun := start quiet text
    let after := edit script { begun with held := e.held, files := e.files, written := e.written }
    if after.finished then after else editEach script quiet after rest

/-- Writes files one after another, changed. -/
def editStream (script : List Instruction) (call : Call) (quiet : Bool) (files : List Octets)
    (s : State) : State :=
  let files := if files.isEmpty then [['-']] else files
  let (texts, s) := files.foldl (fun (texts, s) file =>
    match Program.contents file s with
    | (.ok text, s) => (texts ++ [text], s)
    | (.error .isFolder, s) =>
      (texts, s.complain ("sed: couldn't read ".toList ++ file ++ ": Is a directory".toList) 2)
    | (.error e, s) => (texts, s.complain (cannotRead file e) 2)) (([] : List Octets), s.done 0)
  let e :=
    if call.separate then editEach script quiet { rest := [] } texts
    else
      let last := texts.getLastD []
      let lines := texts.flatMap Octets.lines
      edit script { start quiet last with rest := lines }
  let s := s.print (output s e.written.reverse)
  (writeFiles e s).done (if e.status ≠ 0 then e.status else s.status)

end Sed

/-- Changes lines by a script. -/
def Program.sed : Program := fun arguments s =>
  let usage :=
    "Usage: sed [OPTION]... \x7bscript-only-if-no-other-script\x7d [input-file]...".toList
  match Sed.takeCall {} (arguments.length + 1) arguments with
  | none => s.complain usage 1
  | some call =>
    let fromFiles := call.scriptFiles.map fun file => (file, s.tree.readBytes (s.path file))
    let missing := fromFiles.find? fun (_, content) => content.toOption.isNone
    let (scripts, files) :=
      if call.scripts.isEmpty && call.scriptFiles.isEmpty then
        (call.operands.take 1, call.operands.tail)
      else
        let texts := fromFiles.filterMap fun (_, content) => content.toOption.map Octets.ofBytes
        (call.scripts ++ texts, call.operands)
    match missing, scripts with
    | some (file, _), _ =>
      s.complain ("sed: couldn't open file ".toList ++ file
        ++ ": No such file or directory".toList) 4
    | none, [] => s.complain usage 1
    | none, scripts =>
      let text := ['\n'].intercalate scripts
      let quiet := call.quiet || "#n\n".toList.isPrefixOf text
      match Sed.readScript call.extended text with
      | .error problem => s.complain ("sed: ".toList ++ problem) 1
      | .ok script =>
        match call.inPlace with
        | some suffix => Sed.editFiles script quiet suffix files s
        | none => Sed.editStream script call quiet files s

end ExpectError.Shell
