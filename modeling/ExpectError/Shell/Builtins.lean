import ExpectError.Shell.Pattern
import ExpectError.Shell.Testing

/-!
# Commands of the shell itself

Commands that change the shell: its folder, its parameters and variables, its options, and where it
goes on.
-/

namespace ExpectError.Shell

namespace Builtin

/-! ### Where the shell goes on -/

/-- The number that an argument is. -/
def count? (argument : Octets) : Option Nat :=
  Octets.nat? argument

/-- Refuses an argument that is no number. -/
def badNumber (argument : Octets) (s : State) : State :=
  s.abort ("Illegal number: ".toList ++ argument)

/-- Ends the shell. -/
def exit : Program := fun arguments s =>
  match arguments with
  | [] => s.exit (s.trapped.getD s.status)
  | a :: _ =>
    match count? a with
    | some n => s.exit (n % 256)
    | none => badNumber a s

/-- Ends a function, or a script that was read in. -/
def ret : Program := fun arguments s =>
  match arguments with
  | [] => { s with leaving := some .function }
  | a :: _ =>
    match count? a with
    | some n => { s.done n with leaving := some .function }
    | none => badNumber a s

/-- Ends loops, or their rounds. -/
def leaveLoops (leave : Nat → Leave) : Program := fun arguments s =>
  let go (n : Nat) : State :=
    if s.loops = 0 then s.done 0 else { s.done 0 with leaving := some (leave (min n s.loops)) }
  match arguments with
  | [] => go 1
  | a :: _ =>
    match count? a with
    | some 0 | none => badNumber a s
    | some n => go n

/-! ### Parameters and options -/

/-- Drops parameters. -/
def shift : Program := fun arguments s =>
  match count? (arguments.headD ['1']) with
  | none => badNumber (arguments.headD []) s
  | some n =>
    if s.parameters.length < n then s.abort "can't shift that many".toList
    else { s with parameters := s.parameters.drop n }.done 0

/-- The letters of options with names. -/
def optionNames : List (String × Char) :=
  [("errexit", 'e'), ("noglob", 'f'), ("ignoreeof", 'I'), ("interactive", 'i'), ("monitor", 'm'),
    ("noexec", 'n'), ("stdin", 's'), ("xtrace", 'x'), ("verbose", 'v'), ("vi", 'V'), ("emacs", 'E'),
    ("noclobber", 'C'), ("allexport", 'a'), ("notify", 'b'), ("nounset", 'u')]

/-- Sets or clears an option. -/
def setOption (s : State) (on : Bool) (option : Char) : State :=
  let others := s.options.filter (· ≠ option)
  { s with options := if on then others ++ [option] else others }

/-- Takes options from the front of arguments. What is left comes with whether it stands for the
parameters. -/
def takeOptions : Nat → List Octets → State → Option (List Octets) × State
  | 0, _, s => (none, s)
  | _, [], s => (none, s)
  | n + 1, argument :: rest, s =>
    match argument with
    | ['-', '-'] => (some rest, s)
    | ['-'] => if rest.isEmpty then (none, s) else (some rest, s)
    | ['-', 'o'] | ['+', 'o'] =>
      match rest with
      | [] => (none, s)
      | name :: rest =>
        match optionNames.lookup (String.ofList name) with
        | some option => takeOptions n rest (setOption s (argument.head? = some '-') option)
        | none => (none, s.abort ("Illegal option -o ".toList ++ name))
    | sign :: letters =>
      if sign = '-' || sign = '+' then
        match letters.find? fun c => !(optionNames.map (·.2)).contains c with
        | some c => (none, s.abort ("Illegal option ".toList ++ [sign, c]))
        | none => takeOptions n rest (letters.foldl (setOption · (sign = '-') ·) s)
      else (some (argument :: rest), s)
    | [] => (some (argument :: rest), s)

/-- The value of a variable as it can be read in again. -/
def listed (binding : Binding) : Octets :=
  binding.name ++ (match binding.value with
    | some value =>
      "='".toList ++ value.flatMap (fun c => if c = '\'' then "'\"'\"'".toList else [c])
      ++ ['\'']
    | none => [])

/-- Lists variables. -/
def list (front : String) (test : Binding → Bool) (s : State) : State :=
  let chosen := (s.bindings.filter test).mergeSort fun a b => !decide (b.name < a.name)
  (s.print (Octets.ofLines (chosen.map fun binding => front.toList ++ listed binding))).done 0

/-- Sets options and parameters. -/
def set : Program := fun arguments s =>
  if arguments.isEmpty then list "" (·.value.isSome) s
  else
    match takeOptions (arguments.length + 1) arguments s with
    | (some parameters, s) => if s.leaving.isSome then s else { s with parameters }.done 0
    | (none, s) => if s.leaving.isSome then s else s.done 0

/-! ### Variables -/

/-- The name and the value of an argument. -/
def splitAssignment (argument : Octets) : Octets × Option Octets :=
  let name := argument.takeWhile (· ≠ '=')
  match argument.drop name.length with
  | '=' :: value => (name, some value)
  | _ => (name, none)

/-- Marks variables. -/
def mark (change : Binding → Binding) : Program := fun arguments s =>
  let arguments := arguments.filter fun a => a ≠ ['-', 'p'] && a ≠ ['-', '-']
  arguments.foldl (fun s argument =>
    if s.leaving.isSome then s
    else
      let (name, value) := splitAssignment argument
      if !isName name then s.abort (name ++ ": bad variable name".toList)
      else
        let s := match value with
          | some value => s.set name value
          | none => s
        if s.leaving.isSome then s
        else
          let binding := (s.binding? name).getD { name, value := none }
          s.bind name (some (change binding))) (s.done 0)

/-- Marks variables that other programs get. -/
def exportNames : Program := fun arguments s =>
  if arguments.all (· = ['-', 'p']) then list "export " (·.exported) s
  else mark (fun binding => { binding with exported := true }) arguments s

/-- Marks variables that cannot be set. -/
def readonly : Program := fun arguments s =>
  if arguments.all (· = ['-', 'p']) then list "readonly " (·.readOnly) s
  else mark (fun binding => { binding with readOnly := true }) arguments s

/-- Makes variables that are restored at the end of the function. -/
def localize : Program := fun arguments s =>
  match s.saved with
  | [] => s.abort "not in a function".toList
  | _ =>
    arguments.foldl (fun s argument =>
      if s.leaving.isSome then s
      else
        let (name, value) := splitAssignment argument
        let s := match s.saved with
          | frame :: frames =>
            if (frame.map (·.1)).contains name then s
            else { s with saved := ((name, s.binding? name) :: frame) :: frames }
          | [] => s
        match value with
        | some value => s.set name value
        | none => s) (s.done 0)

/-- Removes variables or functions. -/
def unset : Program := fun arguments s =>
  let functions := arguments.head? = some ['-', 'f']
  let names := arguments.filter fun a => a.head? ≠ some '-'
  names.foldl (fun s name =>
    if s.leaving.isSome then s
    else if functions then { s with functions := s.functions.filter (·.1 ≠ name) }
    else if !isName name then s.abort (name ++ ": bad variable name".toList)
    else
      match s.binding? name with
      | some { readOnly := true, .. } => s.abort (name ++ ": is read only".toList)
      | _ => s.bind name none) (s.done 0)

/-! ### Folders -/

/-- Changes the folder. -/
def cd : Program := fun arguments s =>
  let arguments := arguments.filter fun a => !([['-', 'L'], ['-', 'P'], ['-', '-']].contains a)
  let target := match arguments.head? with
    | some ['-'] => (s.value? "OLDPWD".toList).getD []
    | some target => target
    | none => (s.value? "HOME".toList).getD []
  if target.isEmpty then s.done 0
  else if s.tree.isFolder (s.path target) then
    let folder := s.tree.canonical (s.path target)
    let text := Octets.ofText folder.text
    let s' := (s.assign "OLDPWD".toList (.ofText s.folder.text)).assign "PWD".toList text
    let s' := { s' with folder }.done 0
    if arguments.head? = some ['-'] then s'.print (text ++ ['\n']) else s'
  else s.refuse ("can't cd to ".toList ++ target) 2

/-- Writes the folder. -/
def pwd : Program := fun _ s =>
  (s.print (Octets.ofText s.folder.text ++ ['\n'])).done 0

/-! ### Reading -/

/-- Bytes of a line with marks for those behind a backslash, and whether the line is complete.
Joined lines are read on. -/
def readMarked (raw : Bool) : Nat → State → List Marked × Bool × State
  | 0, s => ([], false, s)
  | n + 1, s =>
    let (line, s) := s.readLine 0
    let complete := line.getLast? = some '\n'
    let line := if complete then line.dropLast else line
    if raw then (line.map fun c => (c, false), complete, s)
    else
      let (marked, joins) := go line
      if joins && complete then
        let (more, complete, s) := readMarked raw n s
        (marked ++ more, complete, s)
      else (marked, complete, s)
where
  /-- Takes backslashes away; one at the end joins the line to the next one. -/
  go : Octets → List Marked × Bool
    | [] => ([], false)
    | ['\\'] => ([], true)
    | '\\' :: c :: rest =>
      let (marked, joins) := go rest
      ((c, true) :: marked, joins)
    | c :: rest =>
      let (marked, joins) := go rest
      ((c, false) :: marked, joins)

/-- Is a byte a blank at which fields are split? -/
def isSplitBlank (separators : Octets) : Marked → Bool
  | (c, quoted) => !quoted && separators.contains c && (c = ' ' || c = '\t' || c = '\n')

/-- Is a byte one at which fields are split? -/
def isSplit (separators : Octets) : Marked → Bool
  | (c, quoted) => !quoted && separators.contains c

/-- The field at the front, and what is behind it. -/
def takeField (separators : Octets) (text : List Marked) : List Marked × List Marked :=
  let field := text.takeWhile fun m => !isSplit separators m
  let rest := (text.drop field.length).dropWhile (isSplitBlank separators)
  let rest := match rest with
    | m :: more => if isSplit separators m then more.dropWhile (isSplitBlank separators) else rest
    | [] => []
  (field, rest)

/-- The values of variables from a line. The last one takes what is left. -/
def distribute (separators : Octets) : List Octets → List Marked → List (Octets × Octets)
  | [], _ => []
  | [name], text =>
    let (field, rest) := takeField separators text
    let last :=
      if rest.isEmpty then field
      else (text.reverse.dropWhile (isSplitBlank separators)).reverse
    [(name, last.map (·.1))]
  | name :: names, text =>
    let (field, rest) := takeField separators text
    (name, field.map (·.1)) :: distribute separators names rest

/-- Reads a line into variables. -/
def read : Program := fun arguments s =>
  let raw := arguments.contains ['-', 'r']
  let names := go arguments
  if names.isEmpty then s.refuse "arg count".toList 2
  else
    let (marked, complete, s) := readMarked raw 100000 s
    let text := marked.dropWhile (isSplitBlank s.separators)
    let s := (distribute s.separators names text).foldl
      (fun s (name, value) => if s.leaving.isSome then s else s.set name value) s
    if s.leaving.isSome then s else s.done (if complete then 0 else 1)
where
  /-- The arguments that are names. -/
  go : List Octets → List Octets
    | ['-', 'r'] :: rest => go rest
    | ['-', 'p'] :: _ :: rest => go rest
    | names => names

/-! ### Signals -/

/-- Sends a signal to a process. -/
def send (s : State) (signal : Signal) (process : Octets) : State :=
  match Octets.nat? process with
  | some number =>
    if number = s.process || number = s.parent then
      if signal.number = 0 then s
      else { s with world := { s.world with sent := s.world.sent ++ [(number, signal)] } }
    else if (s.jobs.lookup number).isSome then s
    else s.refuse "No such process\n".toList 1
  | none => s.refuse ("Illegal number: ".toList ++ process) 2

/-- Sends a signal to processes. -/
def kill : Program := fun arguments s =>
  let zero : Signal := ⟨0, "EXIT", ""⟩
  let (signal, processes) : Option Signal × List Octets := match arguments with
    | ['-', 's'] :: name :: rest => (Signal.ofName? name, rest)
    | ('-' :: name) :: rest =>
      if name = ['-'] then (some .term, rest)
      else if name = ['0'] then (some zero, rest)
      else (Signal.ofName? name, rest)
    | rest => (some .term, rest)
  match arguments, signal with
  | ['-', 'l'] :: rest, _ =>
    let names := rest.filterMap fun n => (Signal.ofName? n).map (·.name.toList)
    (s.print (Octets.ofLines names)).done 0
  | option :: _, none => s.refuse ("Illegal option ".toList ++ option.take 2) 2
  | [], none => s.done 2
  | _, some signal =>
    if processes.isEmpty then
      let usage := "Usage: kill [-s sigspec | -signum | -sigspec] [pid | job]... or\n"
      s.refuse (usage ++ "kill -l [exitstatus]").toList 2
    else processes.foldl (send · signal ·) (s.done 0)

/-- The name of an event that a trap is for. -/
def event? (name : Octets) : Option Octets :=
  if name = ['0'] || name = "EXIT".toList then some "EXIT".toList
  else (Signal.ofName? name).map (·.name.toList)

/-- Says what to do about events. -/
def trap : Program := fun arguments s =>
  let arguments := if arguments.head? = some ['-', '-'] then arguments.tail else arguments
  match arguments with
  | [] =>
    let lines := s.traps.map fun trap =>
      "trap -- '".toList ++ trap.action ++ "' ".toList ++ trap.event
    (s.print (Octets.ofLines lines)).done 0
  | action :: events =>
    let (action, events) :=
      if events.isEmpty || (count? action).isSome then (['-'], action :: events)
      else (action, events)
    events.foldl (fun s name =>
      match event? name with
      | none => s.refuse (name ++ ": bad trap".toList) 1
      | some event =>
        let others := s.traps.filter (·.event ≠ event)
        { s with traps := if action = ['-'] then others else { event, action } :: others })
      (s.done 0)

/-- Waits for processes. They have all ended. -/
def wait : Program := fun arguments s =>
  match arguments.getLast? with
  | none => s.done 0
  | some process =>
    match (Octets.nat? process).bind fun number => s.jobs.lookup number with
    | some status => s.done status
    | none => s.done 127

/-! ### Options of scripts -/

/-- Takes the next option from the arguments of a script. -/
def getopts : Program := fun arguments s =>
  match arguments with
  | letters :: name :: rest =>
    let words := if rest.isEmpty then s.parameters else rest
    let silent := letters.head? = some ':'
    let index := ((s.value? "OPTIND".toList).bind Octets.nat?).getD 1
    let index := max index 1
    let word := words.getD (index - 1) []
    let finish (s : State) (index : Nat) : State :=
      ({ s with optionOffset := 0 }.set "OPTIND".toList (.ofNat index)).set name ['?'] |>.done 1
    if s.optionOffset = 0 && (word.head? ≠ some '-' || word = ['-'] || words.length < index) then
      finish s index
    else if s.optionOffset = 0 && word = ['-', '-'] then finish s (index + 1)
    else
      let offset := max s.optionOffset 1
      let letter := word.getD offset '?'
      let isLast := word.length ≤ offset + 1
      let takes := (letters.dropWhile (· ≠ letter)).drop 1 |>.head? |> (· = some ':')
      let next := if isLast then index + 1 else index
      let place (s : State) : State :=
        let optionOffset := if isLast then 0 else offset + 1
        { s with optionOffset }.set "OPTIND".toList (.ofNat next)
      if letter = ':' || !letters.contains letter then
        let s := if silent then (place s).set "OPTARG".toList [letter]
          else
            ((place s).complain ("Illegal option -".toList ++ [letter]) 0).bind "OPTARG".toList none
        (s.set name ['?']).done 0
      else if takes then
        let attached := word.drop (offset + 1)
        let s := { s with optionOffset := 0 }
        if !attached.isEmpty then
          ((s.set "OPTIND".toList (.ofNat (index + 1))).set "OPTARG".toList attached).set name
            [letter] |>.done 0
        else
          match words[index]? with
          | some value =>
            ((s.set "OPTIND".toList (.ofNat (index + 2))).set "OPTARG".toList value).set name
              [letter] |>.done 0
          | none =>
            let s := s.set "OPTIND".toList (.ofNat (index + 1))
            if silent then ((s.set "OPTARG".toList [letter]).set name [':']).done 0
            else
              let s := s.complain ("No arg for -".toList ++ [letter] ++ " option".toList) 0
              ((s.bind "OPTARG".toList none).set name ['?']).done 0
      else (((place s).bind "OPTARG".toList none).set name [letter]).done 0
  | _ => s.refuse "Usage: getopts optstring var [arg...]".toList 2

end Builtin

/-- The options that a command of the shell itself knows, and those of them that take a value. -/
def optionsOf : List (String × List Char × List Char) :=
  [("cd", ['L', 'P'], []), ("chdir", ['L', 'P'], []), ("read", ['r', 'p'], ['p']),
    ("export", ['p'], []), ("readonly", ['p'], []), ("unset", ['v', 'f'], []),
    ("printf", [], []), ("umask", ['S'], []), ("wait", [], []), ("hash", ['r', 'v'], []),
    ("jobs", ['l', 'p'], []), ("trap", [], []), (".", [], []), ("exec", [], []),
    ("command", ['p', 'v', 'V'], [])]

/-- The first letter that is no option, in the options at the front. -/
def badOption? (known valued : List Char) : Nat → List Octets → Option Char
  | 0, _ => none
  | _, [] => none
  | n + 1, argument :: rest =>
    match argument with
    | ['-', '-'] | ['-'] => none
    | '-' :: letters =>
      let plain := letters.takeWhile fun c => known.contains c && !valued.contains c
      match letters.drop plain.length with
      | [] => badOption? known valued n rest
      | c :: more =>
        if !known.contains c then some c
        else badOption? known valued n (if more.isEmpty then rest.tail else rest)
    | _ => none

/-- The first letter in the arguments of a command that is none of its options. -/
def refusedOption? (name : Octets) (arguments : List Octets) : Option Char :=
  (optionsOf.lookup (String.ofList name)).bind fun (known, valued) =>
    badOption? known valued (arguments.length + 1) arguments

/-- The commands that end a script if they fail. -/
def specialBuiltins : List (String × Program) :=
  [(":", fun _ s => s.done 0), ("exit", Builtin.exit), ("return", Builtin.ret),
    ("break", Builtin.leaveLoops .loops), ("continue", Builtin.leaveLoops .round),
    ("shift", Builtin.shift), ("set", Builtin.set), ("export", Builtin.exportNames),
    ("readonly", Builtin.readonly), ("local", Builtin.localize),
    ("unset", Builtin.unset), ("trap", Builtin.trap),
    ("times", fun _ s => (s.print "0m0.00s 0m0.00s\n0m0.00s 0m0.00s\n".toList).done 0)]

/-- The other commands of the shell itself. -/
def plainBuiltins : List (String × Program) :=
  [("true", fun _ s => s.done 0), ("false", fun _ s => s.done 1), ("echo", Program.echo),
    ("printf", Program.printf), ("test", Program.test), ("[", Program.bracket), ("cd", Builtin.cd),
    ("chdir", Builtin.cd), ("pwd", Builtin.pwd), ("read", Builtin.read), ("kill", Builtin.kill),
    ("wait", Builtin.wait), ("getopts", Builtin.getopts),
    ("umask", fun arguments s => (if arguments.isEmpty then s.print "0022\n".toList else s).done 0),
    ("ulimit", fun _ s => s.done 0), ("hash", fun _ s => s.done 0), ("jobs", fun _ s => s.done 0),
    ("alias", fun _ s => s.done 0), ("unalias", fun _ s => s.done 0)]

end ExpectError.Shell
