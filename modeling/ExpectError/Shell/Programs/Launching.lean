import ExpectError.Shell.Programs.Paths

/-!
# Programs that run other programs

* `env`: runs a program with other variables;
* `xargs`: runs a program with arguments that are read.
-/

namespace ExpectError.Shell

/-- A way to run a program with its arguments, its name in front. -/
abbrev Runner := List Octets → State → Except FileError State

namespace Program

/-- The exported variables, one a line. -/
def environment (s : State) : List Octets :=
  s.bindings.filterMap fun binding =>
    if binding.exported then binding.value.map fun value => binding.name ++ '=' :: value else none

/-- Writes exported variables. -/
def printenv : Program := fun arguments s =>
  if arguments.isEmpty then (s.print (Octets.ofLines (environment s))).done 0
  else
    let values := arguments.map fun name =>
      (s.bindings.find? fun binding => binding.exported && binding.name = name).bind (·.value)
    (s.print (Octets.ofLines (values.filterMap id))).done (if values.all (·.isSome) then 0 else 1)

/-- Runs a program in the same process, and says if it cannot. -/
def runIn (name : String) (run : Runner) (words : List Octets) (s : State) : State :=
  match run words s with
  | .ok s => s
  | .error e =>
    let status := if e = .notFound then 127 else 126
    let message := name.toList ++ ": ".toList ++ quoted (words.headD []) ++ ": ".toList
    s.complain (message ++ e.reason.toList) status

/-- The words of a text that is one argument. -/
def wordsOf (text : Octets) : List Octets :=
  (Text.fields ' ' text).filter fun word => !word.isEmpty

/-- Runs a program with other variables. -/
def env (run : Runner) : Program := fun arguments s => go (2 * arguments.length + 100) arguments s
where
  /-- Takes options and assignments. -/
  go : Nat → List Octets → State → State
    | 0, _, s => s
    | _, [], s => (s.print (Octets.ofLines (environment s))).done 0
    | n + 1, argument :: rest, s =>
      match argument with
      | ['-', 'i'] | ['-'] => go n rest { s with bindings := [] }
      | ['-', 'u'] => go n rest.tail (s.bind (rest.headD []) none)
      | ['-', 'S'] => go n (wordsOf (rest.headD []) ++ rest.tail) s
      | '-' :: 'S' :: text => go n (wordsOf text ++ rest) s
      | ['-', '-'] => if rest.isEmpty then go n [] s else runIn "env" run rest s
      | '-' :: c :: _ =>
        s.complain ("env: invalid option -- ".toList ++ quoted [c] ++ hint "env") 125
      | argument =>
        if argument.contains '=' then
          let name := argument.takeWhile (· ≠ '=')
          let value := argument.drop (name.length + 1)
          go n rest (s.bind name (some { name, value := some value, exported := true }))
        else runIn "env" run (argument :: rest) s

/-- Runs a program behind operands that change nothing here. -/
def passing (name : String) (operands : Nat) (run : Runner) : Program := fun arguments s =>
  let words := (arguments.dropWhile isOption).drop operands
  if words.isEmpty then s.complain (name.toList ++ ": missing operand".toList ++ hint name) 125
  else runIn name run words s

/-! ### Arguments that are read -/

/-- The words of a text, with quotes and backslashes. -/
def quotedWords : Nat → Option Octets → Octets → List Octets
  | 0, word, _ => word.toList
  | _, word, [] => word.toList
  | n + 1, word, c :: rest =>
    if c = ' ' || c = '\t' || c = '\n' then word.toList ++ quotedWords n none rest
    else if c = '\'' || c = '"' then
      let inner := rest.takeWhile (· ≠ c)
      quotedWords n (some (word.getD [] ++ inner)) (rest.drop (inner.length + 1))
    else if c = '\\' then
      quotedWords n (some (word.getD [] ++ rest.take 1)) (rest.drop 1)
    else quotedWords n (some (word.getD [] ++ [c])) rest

/-- How arguments are given to a program. -/
structure Feeding where
  /-- How many at once. -/
  count : Option Nat := none
  /-- The text that an argument is put in place of. -/
  place : Option Octets := none
  /-- The byte between arguments. -/
  separator : Option Char := none
  /-- Is nothing run without arguments? -/
  needsSome : Bool := false
  words : List Octets := []
  deriving DecidableEq, Repr

/-- Takes options in front of a program. -/
def Feeding.take (feeding : Feeding) : Nat → List Octets → Feeding
  | 0, words => { feeding with words }
  | _, [] => feeding
  | n + 1, argument :: rest =>
    match argument with
    | ['-', 'n'] => take { feeding with count := Octets.nat? (rest.headD []) } n rest.tail
    | '-' :: 'n' :: value => take { feeding with count := Octets.nat? value } n rest
    | ['-', 'I'] => take { feeding with place := rest.head? } n rest.tail
    | '-' :: 'I' :: value => take { feeding with place := some value } n rest
    | ['-', '0'] => take { feeding with separator := some '\x00' } n rest
    | ['-', 'd'] =>
      let value := rest.headD []
      take { feeding with separator := (unescape (value.length + 1) value).1.head? } n rest.tail
    | ['-', 'r'] => take { feeding with needsSome := true } n rest
    | '-' :: 'P' :: _ :: _ | ['-', 't'] => take feeding n rest
    | ['-', 'P'] | ['-', 'L'] => take feeding n rest.tail
    | _ => { feeding with words := argument :: rest }

/-- Replaces a text everywhere in a word. -/
def replaceIn (place text : Octets) : Nat → Octets → Octets
  | 0, word => word
  | _, [] => []
  | n + 1, c :: rest =>
    if !place.isEmpty && place.isPrefixOf (c :: rest) then
      text ++ replaceIn place text n ((c :: rest).drop place.length)
    else c :: replaceIn place text n rest

/-- Lists of so many items each. -/
def groupsOf {α : Type} (size : Nat) : Nat → List α → List (List α)
  | 0, _ => []
  | _, [] => []
  | n + 1, items => items.take (max size 1) :: groupsOf size n (items.drop (max size 1))

/-- Runs a program with arguments that are read. -/
def xargs (run : Runner) : Program := fun arguments s =>
  let feeding := Feeding.take {} (arguments.length + 1) arguments
  let words := if feeding.words.isEmpty then ["echo".toList] else feeding.words
  let (text, s) := s.readAll 0
  let items := match feeding.separator, feeding.place with
    | some c, _ =>
      let items := Text.fields c text
      if items.getLast? = some [] then items.dropLast else items
    | none, some _ =>
      (Octets.lines text).filterMap fun line =>
        let line := line.dropWhile fun c => c = ' ' || c = '\t'
        if line.isEmpty then none else some line
    | none, none => quotedWords (text.length + 1) none text
  let calls : List (List Octets) := match feeding.place with
    | some place => items.map fun item =>
        words.map fun word => replaceIn place item (word.length + 1) word
    | none =>
      match feeding.count with
      | some size => (groupsOf size (items.length + 1) items).map (words ++ ·)
      | none => if items.isEmpty && feeding.needsSome then [] else [words ++ items]
  let s := s.leadTo 0 { medium := .nowhere }
  calls.foldl (fun s call =>
    match run call { s with status := 0 } with
    | .error e =>
      let status := if e = .notFound then 127 else 126
      s.complain (about "xargs" (call.headD []) e) status
    | .ok child =>
      let status := match child.ending with
        | .exited 0 => s.status
        | .exited 255 => 124
        | .exited _ => 123
        | .signalled _ => 125
      { s with world := child.world, status }) (s.done 0)

end Program

end ExpectError.Shell
