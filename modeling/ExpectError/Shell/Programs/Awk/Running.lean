import ExpectError.Shell.Programs.Awk.Value
import ExpectError.Shell.Programs.Launching

/-!
# Running scripts for records

Records are read one after another, split into fields and handed to the rules of a script.

* `Machine`: a script between two statements;
* `evaluate`, `run`: the value of an expression, and the effect of a statement;
* `Program.awk`: the program.
-/

namespace ExpectError.Shell

namespace Awk

/-- What a name stands for in a function. -/
inductive Local where
  | value (value : Value)
  /-- An array with another name. -/
  | array (name : Octets)

/-- Why the statements that follow are not run. -/
inductive Leave where
  | next
  | exit
  /-- An error, behind which nothing is run at all. -/
  | failure
  | loop
  | round
  | function
  deriving DecidableEq, Repr

/-- A script between two statements. -/
structure Machine where
  /-- The name under which the program runs. -/
  called : Octets
  shell : State
  functions : List Function
  record : Octets := []
  fields : List Octets := []
  /-- The values of variables, and which of them can be numbers. -/
  values : List (Octets × Value) := []
  arrays : List (Octets × List (Octets × Value)) := []
  /-- The names of the function that is called. -/
  locals : List (Octets × Local) := []
  /-- How many functions are called in one another. -/
  depth : Nat := 0
  /-- What is left of the file that is read. -/
  rest : Octets := []
  /-- The operands that have not been used. -/
  operands : List Octets := []
  /-- Has a file been read? -/
  hasRead : Bool := false
  /-- Files and commands that are read. -/
  sources : List (Octets × Octets) := []
  /-- Files that have been written to. -/
  written : List Octets := []
  /-- Texts for commands, in the order in which the commands were begun. -/
  pipes : List (Octets × Octets) := []
  /-- The ranges that have begun, by their rules. -/
  ranges : List Nat := []
  returned : Value := .unset
  status : Nat := 0
  leaving : Option Leave := none

/-- The format in which numbers are written if nothing else is said. -/
def defaultFormat : Layout × Char :=
  ({ precision := some 6 }, 'g')

/-- The layout and letter of a format. -/
def formatOf (text : Octets) : Layout × Char :=
  match text with
  | '%' :: rest =>
    let (layout, _, behind) := readLayout (fun _ => 0) rest
    (layout, behind.headD 'g')
  | _ => defaultFormat

namespace Machine

/-- Stops with a message. -/
def fail (m : Machine) (message : Octets) : Machine :=
  let shell := m.shell.complain (m.called ++ ": ".toList ++ message) 2
  { m with shell, status := 2, leaving := some .failure }

/-! ### Variables -/

/-- The value of a variable that is shared. -/
def shared (m : Machine) (name : String) : Value :=
  (m.values.lookup name.toList).getD .unset

/-- The format of numbers. -/
def conversion (m : Machine) : Layout × Char :=
  match m.values.lookup "CONVFMT".toList with
  | some v => formatOf (v.toText defaultFormat)
  | none => defaultFormat

/-- The text of a value. -/
def textOf (m : Machine) (v : Value) : Octets :=
  v.toText m.conversion

/-- Sets a shared variable. -/
def setShared (m : Machine) (name : Octets) (v : Value) : Machine :=
  { m with values := (name, v) :: m.values.filter (·.1 ≠ name) }

/-- The text of a shared variable. -/
def sharedText (m : Machine) (name : String) : Octets :=
  m.textOf (m.shared name)

/-- Stops with a message and the place in the input. -/
def failAt (m : Machine) (message : Octets) : Machine :=
  m.fail ("run time error: ".toList ++ message ++ "\n\tFILENAME=\"".toList
    ++ m.sharedText "FILENAME" ++ "\" FNR=".toList ++ m.sharedText "FNR" ++ " NR=".toList
    ++ m.sharedText "NR")

/-- The fields of the record anew. -/
def resplit (m : Machine) : Machine :=
  let fields := splitFields (m.sharedText "FS") m.record
  { m with fields }.setShared "NF".toList (.ofNat fields.length)

/-- Sets the record. -/
def setRecord (m : Machine) (record : Octets) : Machine :=
  { m with record }.resplit

/-- The record anew from its fields. -/
def rejoin (m : Machine) : Machine :=
  { m with record := (m.sharedText "OFS").intercalate m.fields }

/-- Sets how many fields there are. -/
def setCount (m : Machine) (count : Nat) : Machine :=
  let fields := m.fields.take count ++ List.replicate (count - m.fields.length) []
  ({ m with fields }.setShared "NF".toList (.ofNat count)).rejoin

/-- Sets a field; the first one has number one. -/
def setField (m : Machine) (index : Nat) (text : Octets) : Machine :=
  if index = 0 then m.setRecord text
  else
    let m := if m.fields.length < index then m.setCount index else m
    { m with fields := m.fields.set (index - 1) text }.rejoin

/-- The value of a field. -/
def fieldOf (m : Machine) (index : Nat) : Value :=
  if index = 0 then .input m.record
  else
    match m.fields[index - 1]? with
    | some text => .input text
    | none => .unset

/-- The value of a name. -/
def valueOf (m : Machine) (name : Octets) : Value :=
  match m.locals.lookup name with
  | some (.value v) => v
  | some (.array _) => .unset
  | none => (m.values.lookup name).getD .unset

/-- Sets a name. -/
def setValue (m : Machine) (name : Octets) (v : Value) : Machine :=
  match m.locals.lookup name with
  | some _ => { m with locals := (name, .value v) :: m.locals.filter (·.1 ≠ name) }
  | none =>
    if name = "NF".toList then m.setCount (Value.wholeOf v.toNumber).toNat
    else m.setShared name v

/-- The array that a name stands for. A name of a function that is not set becomes an array of its
own. -/
def arrayName (m : Machine) (name : Octets) : Octets × Machine :=
  match m.locals.lookup name with
  | some (.array other) => (other, m)
  | some (.value _) =>
    let own := Octets.ofNat m.depth ++ ' ' :: name
    (own, { m with locals := (name, .array own) :: m.locals.filter (·.1 ≠ name) })
  | none => (name, m)

/-- The elements of an array. -/
def elements (m : Machine) (array : Octets) : List (Octets × Value) :=
  (m.arrays.lookup array).getD []

/-- Replaces the elements of an array. -/
def setElements (m : Machine) (array : Octets) (items : List (Octets × Value)) : Machine :=
  { m with arrays := (array, items) :: m.arrays.filter (·.1 ≠ array) }

/-- Sets an element. -/
def setElement (m : Machine) (array key : Octets) (v : Value) : Machine :=
  m.setElements array ((key, v) :: (m.elements array).filter (·.1 ≠ key))

/-! ### Reading -/

/-- The record at the front of a text, and what is behind it. -/
def splitRecord (separator text : Octets) : Option (Octets × Octets) :=
  if text.isEmpty then none
  else
    match separator with
    | [] =>
      let text := text.dropWhile (· = '\n')
      if text.isEmpty then none else some (paragraph (text.length + 1) text)
    | [c] =>
      let record := text.takeWhile (· ≠ c)
      some (record, text.drop (record.length + 1))
    | separator =>
      match (regexOf separator).find? false text with
      | some found => some (found.passed.reverse, found.rest)
      | none => some (text, [])
where
  /-- The lines up to an empty one. -/
  paragraph : Nat → Octets → Octets × Octets
    | 0, text => (text, [])
    | _, [] => ([], [])
    | _, ['\n'] => ([], [])
    | _ + 1, '\n' :: '\n' :: rest => ([], rest.dropWhile (· = '\n'))
    | n + 1, c :: rest =>
      let (record, behind) := paragraph n rest
      (c :: record, behind)

/-- Goes on to the next file that can be read. -/
def nextFile : Nat → Machine → Option Machine
  | 0, _ => none
  | n + 1, m =>
    match m.operands with
    | [] =>
      if m.hasRead then none
      else
        let (rest, shell) := m.shell.readAll 0
        some { m with rest, shell, hasRead := true }
    | operand :: operands =>
      let m := { m with operands }
      let name := operand.takeWhile (· ≠ '=')
      if operand.contains '=' && isName name then
        let value := operand.drop (name.length + 1)
        let value := (Program.unescape (value.length + 1) value).1
        nextFile n (m.setValue name (.input value))
      else
        match Program.contents operand m.shell with
        | (.ok rest, shell) =>
          let m := { m with rest, shell, hasRead := true }
          let m := m.setShared "FILENAME".toList (.text operand)
          some (m.setShared "FNR".toList (.number 0))
        | (.error e, shell) =>
          let message := "cannot open \"".toList ++ operand ++ "\" (".toList
            ++ e.reason.toList ++ [')']
          some ({ m with shell, hasRead := true }.fail message)

/-- The next record of the input. -/
def nextRecord : Nat → Machine → Option (Octets × Machine)
  | 0, _ => none
  | n + 1, m =>
    if m.leaving = some .failure then none
    else
      match splitRecord (m.sharedText "RS") m.rest with
      | some (record, rest) =>
        let count (m : Machine) (name : String) : Machine :=
          m.setShared name.toList (.number ((m.shared name).toNumber + 1))
        some (record, count (count { m with rest } "NR") "FNR")
      | none =>
        match m.nextFile (m.operands.length + 2) with
        | none => none
        | some m => if m.leaving.isSome then some ([], m) else nextRecord n m

/-- The bound on files. -/
def fileBound (m : Machine) : Nat :=
  m.operands.length + 2

/-! ### Writing -/

/-- Writes to a file. -/
def writeFile (m : Machine) (appends : Bool) (file text : Octets) : Machine :=
  if file = "/dev/stdout".toList || file = ['-'] then { m with shell := m.shell.print text }
  else if file = "/dev/stderr".toList then { m with shell := m.shell.write 2 text }
  else if file = "/dev/null".toList then m
  else
    let path := m.shell.path file
    let keeps := appends || m.written.contains file
    let before := if keeps then (m.shell.tree.readBytes path).toOption.getD [] else []
    match m.shell.tree.write path (before ++ text.toBytes) with
    | .ok tree => { m with shell := m.shell.withTree tree, written := file :: m.written }
    | .error e =>
      m.fail ("cannot open \"".toList ++ file ++ "\" for output (".toList ++ e.reason.toList
        ++ [')'])

/-- Keeps a text for a command. -/
def writePipe (m : Machine) (command text : Octets) : Machine :=
  if (m.pipes.map (·.1)).contains command then
    { m with pipes := m.pipes.map fun (c, t) => if c = command then (c, t ++ text) else (c, t) }
  else { m with pipes := m.pipes ++ [(command, text)] }

/-- Runs a command, with a text to read if there is one. Its output can be kept. -/
def runCommand (run : Runner) (command : Octets) (input : Option Octets) (keeps : Bool)
    (m : Machine) : Nat × Octets × Machine :=
  let before := m.shell
  let s := match input with
    | some text => before.leadTo 0 { medium := .buffer [text] }
    | none => before
  let (number, world) := s.world.openFile { medium := .buffer [] }
  let s := if keeps then { s with world }.lead 1 number else s
  match run ["sh".toList, "-c".toList, command] s with
  | .error _ => (127, [], m)
  | .ok after =>
    let output := if keeps then after.world.left number else []
    let status := match after.ending with
      | .exited status => status
      | .signalled signal => 256 + signal.number
    (status, output, { m with shell := { before with world := after.world } })

/-- Runs the commands that texts have been kept for. -/
def closePipes (run : Runner) (m : Machine) : Machine :=
  m.pipes.foldl (fun m (command, text) => (m.runCommand run command (some text) false).2.2)
    { m with pipes := [] }

end Machine

/-! ### Running -/

/-- The key of an element. -/
def keyOf (m : Machine) (values : List Value) : Octets :=
  (m.sharedText "SUBSEP").intercalate (values.map m.textOf)

/-- The slot of a key. A loop over the elements of an array goes by slots. -/
def slot (key : Octets) : Nat :=
  (key.foldl (fun hash c => (hash * 16777619 % 4294967296) ^^^ c.toNat) 2166136261) % 64

/-- The pattern of an expression that is one; of others, their text. -/
def literalPattern? : Expr → Option Octets
  | .regex pattern => some pattern
  | _ => none

/-- Does a statement leave a loop? The state goes on behind the loop or with the next round. -/
def Machine.afterRound (m : Machine) : Bool × Machine :=
  match m.leaving with
  | none => (false, m)
  | some .round => (false, { m with leaving := none })
  | some .loop => (true, { m with leaving := none })
  | some _ => (true, m)

/-- Functions of numbers. -/
def numeric? (name : String) (x : Float) : Option Float :=
  match name with
  | "sin" => some x.sin
  | "cos" => some x.cos
  | "exp" => some x.exp
  | "log" => some x.log
  | "sqrt" => some x.sqrt
  | "int" => some (Value.floatOfInt (Value.wholeOf x))
  | _ => none

/-- The value of a function that needs only the values of its arguments. -/
def builtin (run : Runner) (name : String) (values : List Value) (m : Machine) : Value × Machine :=
  let text (i : Nat) : Octets := m.textOf (values.getD i .unset)
  let number (i : Nat) : Float := (values.getD i .unset).toNumber
  match name with
  | "length" => (.ofNat (text 0).length, m)
  | "substr" => (.text (part (text 0) (number 1) ((values[2]?).map Value.toNumber)), m)
  | "index" =>
    let sought := text 1
    let places := (List.range (text 0).length).find? fun i => sought.isPrefixOf ((text 0).drop i)
    (.ofNat ((places.map (· + 1)).getD 0), m)
  | "sprintf" => (.text (format m.conversion ((text 0).length + 1) (text 0) values.tail), m)
  | "tolower" => (.text ((text 0).map Char.toLower), m)
  | "toupper" => (.text ((text 0).map Char.toUpper), m)
  | "atan2" => (.number ((number 0).atan2 (number 1)), m)
  | "system" =>
    let (status, _, m) := (m.closePipes run).runCommand run (text 0) none false
    (.ofNat status, m)
  | "close" =>
    let command := text 0
    match m.pipes.lookup command with
    | some input =>
      let m := { m with pipes := m.pipes.filter (·.1 ≠ command) }
      let (status, _, m) := m.runCommand run command (some input) false
      (.ofNat status, m)
    | none => (.number 0, { m with sources := m.sources.filter (·.1 ≠ command) })
  | _ =>
    match numeric? name (number 0) with
    | some x => (.number x, m)
    | none => (.number 0, m)

mutual

/-- The value of an expression. -/
def evaluate (run : Runner) : Nat → Expr → Machine → Value × Machine
  | 0, _, m => (.unset, { m with leaving := some .failure })
  | n + 1, e, m =>
    match e with
    | .number x => (.number x, m)
    | .text text => (.text text, m)
    | .regex pattern => (.ofBool ((regexOf pattern).find? false m.record).isSome, m)
    | .named name => (m.valueOf name, m)
    | .element array index =>
      let (values, m) := evaluateAll run n index m
      let key := keyOf m values
      let (array, m) := m.arrayName array
      match (m.elements array).lookup key with
      | some v => (v, m)
      | none => (.unset, m.setElement array key .unset)
    | .field index =>
      let (v, m) := evaluate run n index m
      match Value.wholeOf v.toNumber with
      | .ofNat i => (m.fieldOf i, m)
      | i => (.unset, m.failAt ("negative field index $".toList ++ Octets.ofInt i))
    | .assign target operation value =>
      let (v, m) := evaluate run n value m
      match operation with
      | none =>
        let v := match v with
          | .unset => Value.unset
          | v => v
        (v, store run n target v m)
      | some operation =>
        let (old, m) := evaluate run n target m
        let v := Value.number (Value.calculate operation old.toNumber v.toNumber)
        (v, store run n target v m)
    | .step target up first =>
      let (old, m) := evaluate run n target m
      let x := old.toNumber
      let y := if up then x + 1 else x - 1
      (.number (if first then y else x), store run n target (.number y) m)
    | .binary operation a b =>
      let (x, m) := evaluate run n a m
      let (y, m) := evaluate run n b m
      match operation with
      | .join => (.text (m.textOf x ++ m.textOf y), m)
      | .plus | .minus | .times | .quotient | .remainder | .power =>
        (.number (Value.calculate operation x.toNumber y.toNumber), m)
      | operation => (.ofBool (Value.compare m.conversion operation x y), m)
    | .matching negated a pattern =>
      let (x, m) := evaluate run n a m
      let (pattern, m) := patternOf run n pattern m
      (.ofBool (((regexOf pattern).find? false (m.textOf x)).isSome != negated), m)
    | .isIn index array =>
      let (values, m) := evaluateAll run n index m
      let (array, m) := m.arrayName array
      (.ofBool ((m.elements array).lookup (keyOf m values)).isSome, m)
    | .both a b =>
      let (x, m) := evaluate run n a m
      if !x.isTrue then (.ofBool false, m)
      else
        let (y, m) := evaluate run n b m
        (.ofBool y.isTrue, m)
    | .either a b =>
      let (x, m) := evaluate run n a m
      if x.isTrue then (.ofBool true, m)
      else
        let (y, m) := evaluate run n b m
        (.ofBool y.isTrue, m)
    | .opposite a =>
      let (x, m) := evaluate run n a m
      (.ofBool (!x.isTrue), m)
    | .negative a =>
      let (x, m) := evaluate run n a m
      (.number (-x.toNumber), m)
    | .positive a =>
      let (x, m) := evaluate run n a m
      (.number x.toNumber, m)
    | .choice condition a b =>
      let (x, m) := evaluate run n condition m
      if x.isTrue then evaluate run n a m else evaluate run n b m
    | .call name arguments => call run n name arguments m
    | .getline target file command => getline run n target file command m
    | .tuple items =>
      let (values, m) := evaluateAll run n items m
      (.text (keyOf m values), m)

/-- The values of expressions. -/
def evaluateAll (run : Runner) : Nat → List Expr → Machine → List Value × Machine
  | 0, _, m => ([], m)
  | _, [], m => ([], m)
  | n + 1, e :: rest, m =>
    let (v, m) := evaluate run n e m
    let (values, m) := evaluateAll run n rest m
    (v :: values, m)

/-- The pattern that an expression gives. -/
def patternOf (run : Runner) : Nat → Expr → Machine → Octets × Machine
  | 0, _, m => ([], m)
  | n + 1, e, m =>
    match literalPattern? e with
    | some pattern => (pattern, m)
    | none =>
      let (v, m) := evaluate run n e m
      (m.textOf v, m)

/-- Stores a value in a place. -/
def store (run : Runner) : Nat → Expr → Value → Machine → Machine
  | 0, _, _, m => m
  | n + 1, target, v, m =>
    match target with
    | .named name => m.setValue name v
    | .element array index =>
      let (values, m) := evaluateAll run n index m
      let (array, m) := m.arrayName array
      m.setElement array (keyOf m values) v
    | .field index =>
      let (i, m) := evaluate run n index m
      match Value.wholeOf i.toNumber with
      | .ofNat i => m.setField i (m.textOf v)
      | i => m.failAt ("negative field index $".toList ++ Octets.ofInt i)
    | _ => m

/-- Reads a record. The value is one, zero at the end, and less if nothing can be read. -/
def getline (run : Runner) : Nat → Option Expr → Option Expr → Option Expr → Machine →
    Value × Machine
  | 0, _, _, _, m => (.number (-1), m)
  | n + 1, target, file, command, m =>
    let keep (record : Octets) (m : Machine) : Machine :=
      match target with
      | some place => store run n place (.input record) m
      | none => m.setRecord record
    match file, command with
    | none, none =>
      match m.nextRecord m.fileBound with
      | some (record, m) => (.number 1, keep record m)
      | none => (.number 0, m)
    | _, _ =>
      let (key, m) := evaluate run n ((file.or command).getD (.text [])) m
      let key := m.textOf key
      let (rest, m) : Option Octets × Machine := match m.sources.lookup key, file with
        | some rest, _ => (some rest, m)
        | none, some _ =>
          let (content, shell) := Program.contents key m.shell
          (content.toOption, { m with shell })
        | none, none =>
          let (_, output, m) := (m.closePipes run).runCommand run key none true
          (some output, m)
      match rest with
      | none => (.number (-1), m)
      | some rest =>
        let kept (rest : Octets) (m : Machine) : Machine :=
          { m with sources := (key, rest) :: m.sources.filter (·.1 ≠ key) }
        match Machine.splitRecord (m.sharedText "RS") rest with
        | none => (.number 0, kept [] m)
        | some (record, rest) =>
          let m := kept rest m
          let m := if command.isSome then
              m.setShared "NR".toList (.number ((m.shared "NR").toNumber + 1))
            else m
          (.number 1, keep record m)

/-- The value of a function. -/
def call (run : Runner) : Nat → Octets → List Expr → Machine → Value × Machine
  | 0, _, _, m => (.unset, m)
  | n + 1, name, arguments, m =>
    match m.functions.find? (·.name = name) with
    | some function => callOwn run n function arguments m
    | none =>
      match String.ofList name, arguments with
      | "length", [] => (.ofNat m.record.length, m)
      | "length", [.named array] =>
        let (other, _) := m.arrayName array
        if (m.arrays.lookup other).isSome then (.ofNat (m.elements other).length, m)
        else (.ofNat (m.textOf (m.valueOf array)).length, m)
      | "split", text :: .named array :: separator =>
        let (text, m) := evaluate run n text m
        let (separator, m) := match separator with
          | [] => (m.sharedText "FS", m)
          | e :: _ => patternOf run n e m
        let (array, m) := m.arrayName array
        let fields := splitFields separator (m.textOf text)
        let items := fields.zipIdx.map fun (text, i) => (Octets.ofNat (i + 1), Value.input text)
        (.ofNat fields.length, m.setElements array items)
      | "sub", pattern :: replacement :: target =>
        substitute run n false pattern replacement (target.headD (.field (.number 0))) m
      | "gsub", pattern :: replacement :: target =>
        substitute run n true pattern replacement (target.headD (.field (.number 0))) m
      | "match", [text, pattern] =>
        let (text, m) := evaluate run n text m
        let (pattern, m) := patternOf run n pattern m
        let (start, size) : Nat × Float :=
          match (regexOf pattern).find? false (m.textOf text) with
          | some found => (found.passed.length + 1, found.text.length.toFloat)
          | none => (0, -1)
        let m := m.setShared "RSTART".toList (.ofNat start)
        (.ofNat start, m.setShared "RLENGTH".toList (.number size))
      | word, arguments =>
        let (values, m) := evaluateAll run n arguments m
        builtin run word values m

/-- Replaces matches in a place. -/
def substitute (run : Runner) : Nat → Bool → Expr → Expr → Expr → Machine → Value × Machine
  | 0, _, _, _, _, m => (.unset, m)
  | n + 1, all, pattern, replacement, target, m =>
    let (pattern, m) := patternOf run n pattern m
    let (replacement, m) := evaluate run n replacement m
    let (old, m) := evaluate run n target m
    let text := m.textOf old
    let (text, count) :=
      replaceMatches (regexOf pattern) all (m.textOf replacement) (2 * text.length + 2) false []
        text
    (.ofNat count, if count = 0 then m else store run n target (.text text) m)

/-- Calls a function of the script. -/
def callOwn (run : Runner) : Nat → Function → List Expr → Machine → Value × Machine
  | 0, _, _, m => (.unset, m)
  | n + 1, function, arguments, m =>
    let (bound, m) := bindAll run n function.parameters arguments m
    let inner := { m with locals := bound, depth := m.depth + 1, returned := .unset }
    let after := runStatement run n function.body inner
    let leaving := if after.leaving = some .function then none else after.leaving
    (after.returned,
      { after with locals := m.locals, depth := m.depth, returned := m.returned, leaving })

/-- What the parameters of a function stand for. A name that is an array stands for the array. -/
def bindAll (run : Runner) : Nat → List Octets → List Expr → Machine →
    List (Octets × Local) × Machine
  | 0, _, _, m => ([], m)
  | _, [], _, m => ([], m)
  | n + 1, name :: names, arguments, m =>
    let (bound, m) : Local × Machine := match arguments with
      | [] => (.value .unset, m)
      | .named other :: _ =>
        match m.locals.lookup other with
        | some known => (known, m)
        | none =>
          match m.values.lookup other with
          | some v => (.value v, m)
          | none => (.array other, m)
      | e :: _ =>
        let (v, m) := evaluate run n e m
        (.value v, m)
    let (rest, m) := bindAll run n names arguments.tail m
    ((name, bound) :: rest, m)

/-- Writes a text where a statement writes to. -/
def write (run : Runner) : Nat → Outlet → Octets → Machine → Machine
  | 0, _, _, m => m
  | n + 1, outlet, text, m =>
    if m.leaving = some .failure then m
    else match outlet with
    | .output => { m with shell := m.shell.print text }
    | .file appends file =>
      let (file, m) := evaluate run n file m
      m.writeFile appends (m.textOf file) text
    | .command command =>
      let (command, m) := evaluate run n command m
      m.writePipe (m.textOf command) text

/-- The effect of a statement. -/
def runStatement (run : Runner) : Nat → Stmt → Machine → Machine
  | 0, _, m => { m with leaving := some .failure }
  | n + 1, statement, m =>
    match statement with
    | .block body => runAll run n body m
    | .conditional condition body otherwise =>
      let (v, m) := evaluate run n condition m
      if v.isTrue then runStatement run n body m else runStatement run n otherwise m
    | .loop condition body => runLoop run n condition body (.block []) m
    | .loopAfter body condition =>
      let (ends, m) := (runStatement run n body m).afterRound
      if ends then m else runLoop run n condition body (.block []) m
    | .count first condition step body =>
      let m := runStatement run n first m
      runLoop run n (condition.getD (.number 1)) body step m
    | .each name array body =>
      let (array, m) := m.arrayName array
      let keys := ((m.elements array).map (·.1)).mergeSort fun a b => decide (slot a ≤ slot b)
      runEach run n name keys body m
    | .print arguments outlet =>
      let (values, m) := evaluateAll run n arguments m
      let shown := match m.values.lookup "OFMT".toList with
        | some v => formatOf (v.toText defaultFormat)
        | none => defaultFormat
      let texts := values.map (·.toText shown)
      let text := if arguments.isEmpty then m.record else (m.sharedText "OFS").intercalate texts
      write run n outlet (text ++ m.sharedText "ORS") m
    | .printf arguments outlet =>
      let (values, m) := evaluateAll run n arguments m
      let pattern := m.textOf (values.headD .unset)
      write run n outlet (format m.conversion (pattern.length + 1) pattern values.tail) m
    | .evaluate e => (evaluate run n e m).2
    | .next => { m with leaving := some .next }
    | .exit status =>
      let m := match status with
        | some e =>
          let (v, m) := evaluate run n e m
          { m with status := (Value.wholeOf v.toNumber % 256).toNat }
        | none => m
      { m with leaving := some .exit }
    | .leave => { m with leaving := some .loop }
    | .goOn => { m with leaving := some .round }
    | .delete array index =>
      let (array, m) := m.arrayName array
      match index with
      | none => m.setElements array []
      | some index =>
        let (values, m) := evaluateAll run n index m
        let key := keyOf m values
        m.setElements array ((m.elements array).filter (·.1 ≠ key))
    | .ret value =>
      let (v, m) := match value with
        | some e => evaluate run n e m
        | none => (.unset, m)
      { m with returned := v, leaving := some .function }

/-- The effect of statements. -/
def runAll (run : Runner) : Nat → List Stmt → Machine → Machine
  | 0, _, m => { m with leaving := some .failure }
  | _ + 1, [], m => m
  | n + 1, statement :: rest, m =>
    let m := runStatement run n statement m
    if m.leaving.isSome then m else runAll run n rest m

/-- The rounds of a loop. -/
def runLoop (run : Runner) : Nat → Expr → Stmt → Stmt → Machine → Machine
  | 0, _, _, _, m => { m with leaving := some .failure }
  | n + 1, condition, body, step, m =>
    let (v, m) := evaluate run n condition m
    if !v.isTrue || m.leaving.isSome then m
    else
      let (ends, m) := (runStatement run n body m).afterRound
      if ends then m else runLoop run n condition body step (runStatement run n step m)

/-- A statement for each of some keys. -/
def runEach (run : Runner) : Nat → Octets → List Octets → Stmt → Machine → Machine
  | 0, _, _, _, m => { m with leaving := some .failure }
  | _ + 1, _, [], _, m => m
  | n + 1, name, key :: rest, body, m =>
    let (ends, m) := (runStatement run n body (m.setValue name (.input key))).afterRound
    if ends then m else runEach run n name rest body m

end

/-- How many steps into one another, or one after another in a loop, a script can take. -/
def maxSteps : Nat := 1000000

/-- Are the rules at their end? -/
def Machine.ends (m : Machine) : Bool :=
  m.leaving = some .exit || m.leaving = some .failure

/-- Is a rule for this record? -/
def chooses (run : Runner) (index : Nat) (choice : Choice) (m : Machine) : Bool × Machine :=
  match choice with
  | .start | .finish => (false, m)
  | .all => (true, m)
  | .one condition =>
    let (v, m) := evaluate run maxSteps condition m
    (v.isTrue, m)
  | .range first last =>
    let (begins, m) :=
      if m.ranges.contains index then (true, m)
      else
        let (v, m) := evaluate run maxSteps first m
        (v.isTrue, m)
    if !begins then (false, m)
    else
      let (v, m) := evaluate run maxSteps last m
      let others := m.ranges.filter (· ≠ index)
      (true, { m with ranges := if v.isTrue then others else index :: others })

/-- Hands the record to rules. -/
def runRules (run : Runner) : Nat → List Rule → Machine → Machine
  | _, [], m => m
  | index, rule :: rest, m =>
    let (chosen, m) := chooses run index rule.choice m
    let m := if chosen then runStatement run maxSteps rule.body m else m
    if m.leaving.isSome then m else runRules run (index + 1) rest m

/-- Goes through the records. -/
def runRecords (run : Runner) (rules : List Rule) : Nat → Machine → Machine
  | 0, m => m
  | n + 1, m =>
    match m.nextRecord m.fileBound with
    | none => m
    | some (record, m) =>
      if m.leaving.isSome then m
      else
        let m := runRules run 0 rules (m.setRecord record)
        let m := if m.leaving = some .next then { m with leaving := none } else m
        if m.leaving.isSome then m else runRecords run rules n m

/-- Runs the rules of one kind that are not for records. -/
def runEdge (run : Runner) (isChosen : Choice → Bool) (rules : List Rule) (m : Machine) : Machine :=
  rules.foldl (fun m rule =>
    if isChosen rule.choice && !m.ends then
      let m := runStatement run maxSteps rule.body m
      if m.ends then m else { m with leaving := none }
    else m) m

/-- Is a rule for the time in front of all records? -/
def Choice.isStart : Choice → Bool
  | .start => true
  | _ => false

/-- Is a rule for the time behind all records? -/
def Choice.isFinish : Choice → Bool
  | .finish => true
  | _ => false

/-- Runs a script. -/
def runScript (run : Runner) (script : Script) (m : Machine) : Machine :=
  let m := runEdge run Choice.isStart script.rules m
  let reads := script.rules.any fun rule => !rule.choice.isStart
  let m := if reads && m.leaving.isNone then runRecords run script.rules maxSteps m else m
  let m := if reads && m.leaving ≠ some .failure then
      runEdge run Choice.isFinish script.rules { m with leaving := none }
    else m
  m.closePipes run

/-! ### Calling -/

/-- How the program is called. -/
structure Call where
  separator : Option Octets := none
  assignments : List Octets := []
  scriptFiles : List Octets := []
  operands : List Octets := []
  /-- What begins with a minus sign and is no option. -/
  unknown : Option Octets := none
  deriving DecidableEq, Repr

/-- Takes options from arguments. -/
def takeCall (call : Call) : Nat → List Octets → Call
  | 0, operands => { call with operands }
  | _, [] => call
  | n + 1, argument :: rest =>
    match argument with
    | ['-', 'F'] => takeCall { call with separator := rest.head? } n rest.tail
    | '-' :: 'F' :: value => takeCall { call with separator := some value } n rest
    | ['-', 'v'] =>
      takeCall { call with assignments := call.assignments ++ rest.take 1 } n rest.tail
    | '-' :: 'v' :: value =>
      takeCall { call with assignments := call.assignments ++ [value] } n rest
    | ['-', 'f'] =>
      takeCall { call with scriptFiles := call.scriptFiles ++ rest.take 1 } n rest.tail
    | ['-', '-'] => { call with operands := rest }
    | '-' :: _ :: _ => { call with unknown := some argument }
    | _ => { call with operands := argument :: rest }

/-- The variables that a script starts with. -/
def startValues (s : State) : List (Octets × Value) :=
  [("FS".toList, .text [' ']), ("OFS".toList, .text [' ']), ("ORS".toList, .text ['\n']),
    ("RS".toList, .text ['\n']), ("NR".toList, .number 0), ("FNR".toList, .number 0),
    ("NF".toList, .number 0), ("SUBSEP".toList, .text ['\x1c']), ("RSTART".toList, .number 0),
    ("RLENGTH".toList, .number (-1)), ("FILENAME".toList, .unset),
    ("PPID".toList, .ofNat s.parent)]

/-- The arrays that a script starts with. -/
def startArrays (s : State) (operands : List Octets) : List (Octets × List (Octets × Value)) :=
  let environment := s.bindings.filterMap fun binding =>
    if binding.exported then binding.value.map fun v => (binding.name, Value.input v) else none
  let arguments := ("awk".toList :: operands).zipIdx.map fun (text, i) =>
    (Octets.ofNat i, Value.input text)
  [("ENVIRON".toList, environment), ("ARGV".toList, arguments)]

/-- Sets a variable by an assignment. -/
def assignment (m : Machine) (text : Octets) : Machine :=
  let name := text.takeWhile (· ≠ '=')
  let value := text.drop (name.length + 1)
  m.setValue name (.input (Program.unescape (value.length + 1) value).1)

end Awk

/-- Runs a script for records. -/
def Program.awk (name : String) (run : Runner) : Program := fun arguments s =>
  let fail (message : Octets) : State :=
    s.complain (name.toList ++ ": ".toList ++ message) 2
  let call := Awk.takeCall {} (arguments.length + 1) arguments
  let contents := call.scriptFiles.map fun file => (file, s.tree.readBytes (s.path file))
  let refused := contents.findSome? fun
    | (file, .error e) => some (file, e)
    | (_, .ok _) => none
  let (script, operands) : Option Octets × List Octets :=
    if call.scriptFiles.isEmpty then (call.operands.head?, call.operands.tail)
    else
      let texts := contents.filterMap fun (_, content) => content.toOption.map Octets.ofBytes
      (some (['\n'].intercalate texts), call.operands)
  match call.unknown, refused, script with
  | some option, _, _ => fail ("not an option: ".toList ++ option)
  | none, some (file, e), _ =>
    fail ("cannot open \"".toList ++ file ++ "\" (".toList ++ e.reason.toList ++ [')'])
  | none, none, none => s.complain "Usage: mawk [Options] [Program] [file ...]".toList 0
  | none, none, some text =>
    match Awk.readScript text with
    | .error problem => fail problem
    | .ok script =>
      let m : Awk.Machine :=
        { called := name.toList
          shell := s
          functions := script.functions
          values := Awk.startValues s
          arrays := Awk.startArrays s operands
          operands }
      let m := m.setShared "ARGC".toList (.ofNat (operands.length + 1))
      let m := match call.separator with
        | some separator =>
          m.setShared "FS".toList (.text (Program.unescape (separator.length + 1) separator).1)
        | none => m
      let m := call.assignments.foldl Awk.assignment m
      let m := Awk.runScript run script m
      m.shell.done m.status

end ExpectError.Shell
