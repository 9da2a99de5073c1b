import ExpectError.Shell.Executable
import ExpectError.Shell.Programs
import ExpectError.Shell.Script
import ExpectError.Shell.Streams

/-!
# Running scripts

Commands are run one after another in a state. A failing command whose status is tested does not end
a script that stops at failures. The functions of this module call each other to a given depth.

* `execute`: the effect of a command;
* `interpret`: the effect of the text of a script;
* `runProgram`: the effect of a program in a process of its own.
-/

namespace ExpectError.Shell

/-! ### Pieces of commands -/

/-- The assignments at the beginning of a command, and its other words. -/
def splitAssignments : List Word → List (Octets × Word) × List Word
  | [] => ([], [])
  | word :: rest =>
    match Word.assignment? word with
    | none => ([], word :: rest)
    | some assignment =>
      let (assignments, words) := splitAssignments rest
      (assignment :: assignments, words)

/-- The commands whose arguments can be assignments. -/
def assigningCommands : List Octets :=
  ["export".toList, "readonly".toList, "local".toList]

/-- The fields of an argument. One that is an assignment is not split. -/
def expandArgument (interpret : Interpreter) (word : Word) (s : State) : List Octets × State :=
  match Word.assignment? word with
  | none => expandFields interpret word s
  | some (name, value) =>
    let (text, s) := expandText interpret value s
    ([name ++ '=' :: text], s)

/-- The fields of arguments. -/
def expandArguments (interpret : Interpreter) : List Word → State → List Octets × State
  | [], s => ([], s)
  | word :: rest, s =>
    let (fields, s) := expandArgument interpret word s
    if s.leaving.isSome then ([], s)
    else
      let (more, s) := expandArguments interpret rest s
      (fields ++ more, s)

/-- The fields of a command. -/
def expandCommand (interpret : Interpreter) : List Word → State → List Octets × State
  | [], s => ([], s)
  | word :: rest, s =>
    let (fields, s) := expandFields interpret word s
    if s.leaving.isSome then ([], s)
    else
      match fields with
      | [] => expandCommand interpret rest s
      | name :: _ =>
        let (more, s) :=
          if assigningCommands.contains name then expandArguments interpret rest s
          else expandAll interpret rest s
        (fields ++ more, s)

/-- Carries out assignments. The ones for a command alone are exported to it. -/
def assignAll (interpret : Interpreter) (exported : Bool) :
    List (Octets × Word) → State → List Octets × State
  | [], s => ([], s)
  | (name, word) :: rest, s =>
    let (value, s) := expandText interpret word s
    if s.leaving.isSome then ([], s)
    else
      let s := s.set name value
      if s.leaving.isSome then ([], s)
      else
        let s := match s.binding? name with
          | some binding =>
            s.bind name (some { binding with exported := binding.exported || exported })
          | none => s
        let (more, s) := assignAll interpret exported rest s
        ((name ++ '=' :: value) :: more, s)

namespace State

/-- The channels of another state put back where redirections led them elsewhere. -/
def restored (s before : State) (redirections : List Redirection) : State :=
  redirections.foldl (fun s redirection =>
    match before.channel? redirection.channel with
    | some number => s.lead redirection.channel number
    | none => s.close redirection.channel) s

/-- The end of a command whose failure may end the script. -/
def orStop (s : State) (tested : Bool) : State :=
  if s.has 'e' && !tested && s.status ≠ 0 && s.leaving.isNone then { s with leaving := some .exit }
  else s

/-- The state behind an error that does not end the shell. -/
def afterError (s : State) : State :=
  if s.leaving = some .error then { s with leaving := none } else s

/-- Whether a loop ends, and the state behind a round of it. -/
def afterRound (s : State) : Bool × State :=
  match s.leaving with
  | none => (false, s)
  | some (.loops count) =>
    (true, { s with leaving := if count ≤ 1 then none else some (.loops (count - 1)) })
  | some (.round count) =>
    if count ≤ 1 then (false, { s with leaving := none })
    else (true, { s with leaving := some (.round (count - 1)) })
  | some _ => (true, s)

/-- A state in which a command of the shell, or a script, is named by messages. -/
def naming (s : State) (command : Option Octets) : State :=
  { s with command }

/-- Ends a process that could not run a program. -/
def refuseProgram (s : State) (name : Octets) (e : FileError) : State :=
  match e with
  | .notFound | .notFolder => s.refuse (name ++ ": not found".toList) 127
  | .nameTooLong => s.refuse (name ++ ": ".toList ++ e.reason.toList) 127
  | _ => s.refuse (name ++ ": ".toList ++ e.reason.toList) 126

/-- Restores the variables that the innermost function has made its own. -/
def withoutLocals (s : State) : State :=
  match s.saved with
  | [] => s
  | frame :: frames =>
    { frame.foldl (fun s (name, binding) => s.bind name binding) s with saved := frames }

/-- Writes the words of a command that is about to be run, if the shell is told to. -/
def trace (s before : State) (words : List Octets) : State :=
  if s.has 'x' then
    let line := (s.value? "PS4".toList).getD [] ++ [' '].intercalate words ++ ['\n']
    match before.channel? 2 with
    | some number => { s with world := s.world.write number line }
    | none => s
  else s

end State

/-! ### Commands of the shell about other commands -/

/-- What is said about names. -/
def describe (s : State) (names : List Octets) (line : Octets → Meaning → Octets) : State :=
  names.foldl (fun s name =>
    let meaning :=
      if keywords.contains (String.ofList name) then .keyword
      else s.meaning isInstalled true name
    let isMissing := match meaning with
      | .denied | .missing => true
      | .program path => path.contains '/' && (installedName? path).isNone
        && !s.tree.isFile (s.path path)
      | _ => false
    let meaning := if isMissing then .missing else meaning
    let text := line name meaning
    let s := if text.isEmpty then s else s.print (text ++ ['\n'])
    if isMissing then s.done 127 else s) (s.done 0)

/-- The short text about a name: what can be typed to run it. -/
def shortText (name : Octets) : Meaning → Octets
  | .program path => path
  | .denied | .missing => []
  | _ => name

/-! ### The options of a shell -/

/-- How a shell is called. -/
structure Call where
  /-- Is the script the next argument? -/
  givesScript : Bool := false
  /-- Is the script read from the input, whatever the arguments? -/
  readsInput : Bool := false
  arguments : List Octets := []
  deriving DecidableEq, Repr

/-- Takes the options of a shell from its arguments. -/
def takeCall : Nat → List Octets → Call → State → Call × State
  | 0, arguments, call, s => ({ call with arguments }, s)
  | _, [], call, s => (call, s)
  | n + 1, argument :: rest, call, s =>
    match argument with
    | ['-', '-'] | ['-'] => ({ call with arguments := rest }, s)
    | ['-', 'o'] | ['+', 'o'] =>
      match rest with
      | [] => ({ call with arguments := [] }, s)
      | name :: rest =>
        match Builtin.optionNames.lookup (String.ofList name) with
        | some option =>
          takeCall n rest call (Builtin.setOption s (argument.head? = some '-') option)
        | none => (call, s.abort ("Illegal option -o ".toList ++ name))
    | sign :: letters =>
      if sign = '-' || sign = '+' then
        let known := Builtin.optionNames.map (·.2) ++ ['c', 'l']
        match letters.find? fun c => !known.contains c with
        | some c => (call, s.abort ("Illegal option ".toList ++ [sign, c]))
        | none =>
          let call :=
            { call with
              givesScript := call.givesScript || letters.contains 'c'
              readsInput := call.readsInput || letters.contains 's' }
          let settings := letters.filter fun c => c ≠ 'c' && c ≠ 'l'
          takeCall n rest call (settings.foldl (Builtin.setOption · (sign = '-') ·) s)
      else ({ call with arguments := argument :: rest }, s)
    | [] => ({ call with arguments := argument :: rest }, s)

/-! ### Running -/

/-- The state of a script that does not come to an end. -/
def State.stuck (s : State) : State :=
  s.abort "Maximum function recursion depth reached".toList

mutual

/-- The effect of a command. -/
def execute : Nat → Bool → Command → State → State
  | 0, _, _, s => s.stuck
  | _ + 1, _, .nothing, s => s
  | n + 1, tested, .simple line words redirections, s =>
    notice n ((runSimple n tested words redirections { s with line }).orStop tested)
  | n + 1, tested, .pipeline commands, s =>
    notice n ((runStages n tested commands s).orStop tested)
  | n + 1, _, .negated command, s =>
    let s := execute n true command s
    if s.leaving.isSome then s else s.done (if s.status = 0 then 1 else 0)
  | n + 1, tested, .both first second, s =>
    let s := execute n true first s
    if s.leaving.isSome || s.status ≠ 0 then s else execute n tested second s
  | n + 1, tested, .either first second, s =>
    let s := execute n true first s
    if s.leaving.isSome || s.status = 0 then s else execute n tested second s
  | n + 1, tested, .sequence first second, s =>
    let s := execute n tested first s
    if s.leaving.isSome then s else execute n tested second s
  | n + 1, _, .background command, s =>
    let number := s.world.nextProcess
    let world := { s.world with nextProcess := number + 1 }
    let child := { s.child with world }.leadTo 0 { medium := .nowhere }
    let child := finish n (execute n false command child)
    let status := match child.ending with
      | .exited status => status
      | .signalled signal => 128 + signal.number
    { s with world := child.world, jobs := (number, status) :: s.jobs }.done 0
  | n + 1, tested, .conditional condition body otherwise, s =>
    let s := execute n true condition s
    if s.leaving.isSome then s
    else if s.status = 0 then execute n tested body s
    else
      match otherwise with
      | .nothing => s.done 0
      | otherwise => execute n tested otherwise s
  | n + 1, tested, .loop untilSuccess condition body, s =>
    let after := runLoop n tested untilSuccess condition body 0 { s with loops := s.loops + 1 }
    { after with loops := s.loops }
  | n + 1, tested, .each line name words body, s =>
    let s := { s with line }
    let (values, s) := match words with
      | none => (s.parameters, s)
      | some words => expandAll (interpret n false) words s
    if s.leaving.isSome then s
    else if values.isEmpty then s.done 0
    else
      let after := runEach n tested name values body { s with loops := s.loops + 1 }
      { after with loops := s.loops }
  | n + 1, tested, .choice line word clauses, s =>
    let (text, s) := expandText (interpret n false) word { s with line }
    if s.leaving.isSome then s else runClauses n tested text clauses s
  | _ + 1, _, .function name body, s =>
    { s with functions := (name, body) :: s.functions.filter (·.1 ≠ name) }.done 0
  | n + 1, tested, .subshell body, s =>
    let child := finish n (execute n tested body s.child)
    notice n ((s.afterChild child).orStop tested)
  | n + 1, tested, .redirected line body redirections, s =>
    let (carriedOut, opened) := redirect (interpret n false) redirections { s with line }
    if !carriedOut then opened.restored s redirections
    else (execute n tested body opened).restored s redirections

/-- Runs words with redirections. Variables that are assigned in front of a command hold for the
command alone, unless a failure of the command would end the script. -/
def runSimple : Nat → Bool → List Word → List Redirection → State → State
  | 0, _, _, _, s => s.stuck
  | n + 1, tested, words, redirections, s =>
    let (assignments, words) := splitAssignments words
    let (fields, s) := expandCommand (interpret n false) words { s with substituted := none }
    if s.leaving.isSome then s
    else
      let (carriedOut, opened) := redirect (interpret n false) redirections s
      match fields with
      | [] =>
        if !carriedOut then opened.restored s redirections
        else
          let (assigned, after) := assignAll (interpret n false) false assignments opened
          let after := after.restored s redirections
          if after.leaving.isSome then after
          else
            let after := if assigned.isEmpty then after else after.trace s assigned
            after.done (after.substituted.getD 0)
      | name :: arguments =>
        let isSpecial := match s.meaning isInstalled true name with
          | .special => true
          | _ => false
        if !carriedOut then
          let failed := opened.restored s redirections
          if isSpecial && failed.leaving.isNone then { failed with leaving := some .error }
          else failed
        else
          let (assigned, ready) := assignAll (interpret n false) (!isSpecial) assignments opened
          if ready.leaving.isSome then ready.restored s redirections
          else
            let ready := ready.trace s (assigned ++ fields)
            let after := runNamed n tested true name arguments ready
            let keeps := name = "exec".toList && arguments.isEmpty
            let after := if keeps then after else after.restored s redirections
            if isSpecial then after
            else assignments.foldl (fun after (name, _) =>
              after.bind name (s.binding? name)) after

/-- Runs a command by its name. -/
def runNamed : Nat → Bool → Bool → Octets → List Octets → State → State
  | 0, _, _, _, _, s => s.stuck
  | n + 1, tested, functions, name, arguments, s =>
    match s.meaning isInstalled functions name with
    | .keyword | .missing => s.refuse (name ++ ": not found".toList) 127
    | .denied => s.refuse (name ++ ": Permission denied".toList) 127
    | .function body => callFunction n tested body arguments s
    | .program path =>
      match runProgram n path (name :: arguments) s.spawn with
      | .ok child => s.afterChild child
      | .error e => s.refuseProgram name e
    | .special =>
      match refusedOption? name arguments with
      | some c => (s.naming (some name)).abort ("Illegal option -".toList ++ [c])
      | none => (runSpecial n tested name arguments (s.naming (some name))).naming s.command
    | .builtin =>
      match refusedOption? name arguments with
      | some c =>
        ((s.naming (some name)).refuse ("Illegal option -".toList ++ [c]) 2).naming s.command
      | none =>
        match String.ofList name with
        | "command" => runPlainly n tested arguments s
        | "type" => describe s arguments fun name meaning => meaning.text name
        | word =>
          match plainBuiltins.lookup word with
          | some program =>
            ((program arguments (s.naming (some name))).naming s.command).afterError
          | none => s

/-- Runs a command of the shell whose failure ends the script. -/
def runSpecial : Nat → Bool → Octets → List Octets → State → State
  | 0, _, _, _, s => s.stuck
  | n + 1, tested, name, arguments, s =>
    match String.ofList name with
    | "eval" =>
      let after := interpret n tested ([' '].intercalate arguments) 1 s
      { after with line := s.line }
    | "." => readIn n arguments s
    | "exec" => replace n arguments s
    | word =>
      match specialBuiltins.lookup word with
      | some program => program arguments s
      | none => s

/-- Runs a command that is no function, or says what it is. -/
def runPlainly : Nat → Bool → List Octets → State → State
  | 0, _, _, s => s.stuck
  | n + 1, tested, arguments, s =>
    match arguments with
    | [] => s.done 0
    | ['-', 'v'] :: names => describe s (names.take 1) shortText
    | ['-', 'V'] :: names => describe s (names.take 1) fun name meaning => meaning.text name
    | ['-', 'p'] :: rest | ['-', '-'] :: rest => runPlainly n tested rest s
    | name :: arguments => (runNamed n tested false name arguments s).afterError

/-- Calls a function. -/
def callFunction : Nat → Bool → Command → List Octets → State → State
  | 0, _, _, _, s => s.stuck
  | n + 1, tested, body, arguments, s =>
    let inner :=
      { s with
        parameters := arguments
        loops := 0
        calls := s.calls + 1
        saved := [] :: s.saved }
    let after := (execute n tested body inner).withoutLocals
    { after with
      parameters := s.parameters
      loops := s.loops
      calls := s.calls
      leaving := if after.leaving = some .function then none else after.leaving }

/-- Runs a script that is read in. -/
def readIn : Nat → List Octets → State → State
  | 0, _, s => s.stuck
  | n + 1, arguments, s =>
    match arguments.filter (· ≠ ['-', '-']) with
    | [] => s.abort "filename argument required".toList
    | file :: _ =>
      let paths := if file.contains '/' then [file] else s.candidates file
      match paths.find? fun path => s.tree.isFile (s.path path) with
      | none =>
        if file.contains '/' then s.abort (openProblem false file "No such file".toList)
        else s.abort (file ++ ": not found".toList)
      | some path =>
        match s.tree.readBytes (s.path path) with
        | .error e => s.abort (openProblem false path (openReason false e))
        | .ok content =>
          let after := interpret n false (.ofBytes content) 1 (s.naming (some path))
          { after with
            line := s.line
            leaving := if after.leaving = some .function then none else after.leaving }

/-- Runs a program in place of the shell. -/
def replace : Nat → List Octets → State → State
  | 0, _, s => s.stuck
  | n + 1, arguments, s =>
    match arguments with
    | [] => s.done 0
    | name :: _ =>
      let failed (e : FileError) : State :=
        let s := s.refuseProgram name e
        { s with leaving := some .exit, traps := [] }
      match s.search isInstalled name with
      | .missing => failed .notFound
      | .denied => failed .denied
      | .found path =>
        let inner := { s.spawn with process := s.process, parent := s.parent }
        match runProgram n path arguments inner with
        | .error e => failed e
        | .ok child =>
          let s := { s with world := child.world, traps := [] }
          match child.ending with
          | .exited status => s.exit status
          | .signalled signal => { s with leaving := some (.killed signal) }

/-- Runs commands whose outputs are the inputs of the next ones. -/
def runStages : Nat → Bool → List Command → State → State
  | 0, _, _, s => s.stuck
  | _ + 1, _, [], s => s
  | n + 1, tested, [last], s => s.afterChild (finish n (execute n tested last s.child))
  | n + 1, tested, command :: rest, s =>
    let (number, world) := s.world.openFile { medium := .buffer [] }
    let child := { s.child with world }.lead 1 number
    let after := s.afterChild (finish n (execute n tested command child))
    let rested := runStages n tested rest (after.lead 0 number)
    { rested with channels := s.channels }

/-- Runs the rounds of a loop. The status is that of the last round so far. -/
def runLoop : Nat → Bool → Bool → Command → Command → Nat → State → State
  | 0, _, _, _, _, _, s => s.stuck
  | n + 1, tested, untilSuccess, condition, body, status, s =>
    let s := execute n true condition s
    let isLeft := s.leaving.isSome
    let (ends, s) := s.afterRound
    if ends then if s.leaving.isSome then s else s.done status
    else if isLeft then runLoop n tested untilSuccess condition body status s
    else if (s.status = 0) = untilSuccess then s.done status
    else
      let (ends, s) := (execute n tested body s).afterRound
      if ends then s else runLoop n tested untilSuccess condition body s.status s

/-- Runs a command for each of some values. -/
def runEach : Nat → Bool → Octets → List Octets → Command → State → State
  | 0, _, _, _, _, s => s.stuck
  | _ + 1, _, _, [], _, s => s
  | n + 1, tested, name, value :: rest, body, s =>
    let s := s.set name value
    if s.leaving.isSome then s
    else
      let (ends, s) := (execute n tested body s).afterRound
      if ends then s else runEach n tested name rest body s

/-- Runs the first of some clauses with a pattern that fits. -/
def runClauses : Nat → Bool → Octets → List (List Word × Command) → State → State
  | 0, _, _, _, s => s.stuck
  | _ + 1, _, _, [], s => s.done 0
  | n + 1, tested, text, (patterns, body) :: rest, s =>
    let (fits, s) := anyFits n text patterns s
    if s.leaving.isSome then s
    else if fits then
      match body with
      | .nothing => s.done 0
      | body => execute n tested body s
    else runClauses n tested text rest s

/-- Does one of some patterns fit a text? -/
def anyFits : Nat → Octets → List Word → State → Bool × State
  | 0, _, _, s => (false, s.stuck)
  | _ + 1, _, [], s => (false, s)
  | n + 1, text, word :: rest, s =>
    let (pattern, s) := expandPattern (interpret n false) word s
    if s.leaving.isSome then (false, s)
    else if pattern.accepts text then (true, s)
    else anyFits n text rest s

/-- The effect of the text of a script, whose first line has a given number. -/
def interpret : Nat → Bool → Interpreter
  | 0, _, _, _, s => s.stuck
  | n + 1, tested, script, line, s =>
    interpretLines n tested false { rest := script, line, next := s.nextDocument } s

/-- The effect of the lines of a script, which are run as they are read. -/
def interpretLines : Nat → Bool → Bool → Source → State → State
  | 0, _, _, _, s => s.stuck
  | n + 1, tested, hasRun, source, s =>
    match Reads.readLine.run source with
    | .error e =>
      { s with line := e.line }.abort ("Syntax error: ".toList ++ Octets.ofString e.error.message)
    | .ok (none, _) => if hasRun then s else s.done 0
    | .ok (some command, after) =>
      let s := { s with documents := after.documents ++ s.documents, nextDocument := after.next }
      let text := source.rest.take (source.rest.length - after.rest.length)
      let s := if s.has 'v' then s.write 2 text else s
      let s := execute n tested command s
      if s.leaving.isSome then s
      else
        interpretLines n tested true { after with documents := [], next := s.nextDocument } s

/-- Does what is to be done about the signals that the process has got. -/
def notice : Nat → State → State
  | 0, s => s.stuck
  | n + 1, s =>
    match s.world.sent.find? (·.1 = s.process) with
    | none => s
    | some (number, signal) =>
      if s.isPart then s
      else
        let world := { s.world with sent := s.world.sent.erase (number, signal) }
        let s := { s with world }
        let action := if signal = .kill then none else s.trap? signal.name.toList
        match action with
        | none => { s with leaving := some (.killed signal) }
        | some [] => notice n s
        | some script =>
          let after := interpret n true script 1
            { s with trapped := some s.status, leaving := none }
          let after := { after with trapped := s.trapped }
          if after.leaving.isSome then after
          else notice n { after with leaving := s.leaving, status := s.status, line := s.line }

/-- The end of a shell: what it is told to do at its end. -/
def finish : Nat → State → State
  | 0, s => s.stuck
  | n + 1, s =>
    match s.leaving with
    | some (.killed _) => s
    | _ =>
      match s.trap? "EXIT".toList with
      | none | some [] => s.exit s.status
      | some script =>
        let last :=
          { s with
            traps := s.traps.filter (·.event ≠ "EXIT".toList)
            trapped := some s.status
            leaving := none }
        let after := interpret n true script 1 last
        match after.leaving with
        | some .exit | some .error | some (.killed _) => after
        | _ => after.exit s.status

/-- Runs a shell with its arguments, its name in front. -/
def runShell : Nat → List Octets → State → State
  | 0, _, s => s.stuck
  | n + 1, words, s =>
    let name := words.headD []
    let s := { s.withDefaults with name, line := 0 }
    let (call, s) := takeCall (words.length + 1) words.tail {} s
    if s.leaving.isSome then s
    else
      let start (name script : Octets) (parameters : List Octets) (s : State) : State :=
        finish n (interpret n false script 1 { s with name, parameters, line := 1 })
      match call.arguments with
      | [] =>
        if call.givesScript then s.abort "-c requires an argument".toList
        else
          let (script, s) := s.readAll 0
          start name script [] s
      | first :: rest =>
        if call.givesScript then start (rest.headD name) first rest.tail s
        else if call.readsInput then
          let (script, s) := s.readAll 0
          start name script (first :: rest) s
        else
          match s.tree.readBytes (s.path first) with
          | .error .isFolder => start first [] rest s
          | .error e => s.abort (openProblem false first (openReason false e))
          | .ok content => start first (.ofBytes content) rest s

/-- Runs the program with a path name in the process of a state, with the words that it is called
by. -/
def runProgram : Nat → Octets → List Octets → State → Except FileError State
  | 0, _, _, s => .ok s.stuck
  | n + 1, path, words, s =>
    match runFile n path words s with
    | .error .badFormat => .ok (runShell n ("/bin/sh".toList :: path :: words.tail) s)
    | result => result

/-- Runs a file that is a program, or says in its first line what runs it. -/
def runFile : Nat → Octets → List Octets → State → Except FileError State
  | 0, _, _, s => .ok s.stuck
  | n + 1, path, words, s =>
    match (installedName? path).filter isInstalled with
    | some name => .ok (runInstalled n (String.ofList name) words { s with name := words.headD [] })
    | none =>
      match s.tree.resolve (s.path path) with
      | .error e => .error e
      | .ok (_, .folder) | .ok (_, .file _ false) => .error .denied
      | .ok (_, .file content true) =>
        match RunLine.ofContent? (.ofBytes content) with
        | none => .error .badFormat
        | some line =>
          runFile n line.program (line.program :: line.argument.toList ++ path :: words.tail) s

/-- Runs a program that is always there. -/
def runInstalled : Nat → String → List Octets → State → State
  | 0, _, _, s => s.stuck
  | n + 1, name, words, s =>
    if shells.contains name then runShell n words s
    else
      match programs.lookup name, launchers.lookup name with
      | some program, _ => program words.tail s
      | none, some launcher => launcher (findAndRun n) words.tail s
      | none, none => s.done 127

/-- Runs a program that is looked up by its name. -/
def findAndRun : Nat → List Octets → State → Except FileError State
  | 0, _, s => .ok s.stuck
  | n + 1, words, s =>
    match s.search isInstalled (words.headD []) with
    | .missing => .error .notFound
    | .denied => .error .denied
    | .found path => runProgram n path words s

end

end ExpectError.Shell
