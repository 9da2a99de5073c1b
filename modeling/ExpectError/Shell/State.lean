import ExpectError.Shell.Command
import ExpectError.Shell.World

/-!
# The state of a shell

A shell works in a folder, with channels that lead to open files, with parameters, variables and
functions. A part of a script that runs in a shell of its own leaves only what processes share.
-/

namespace ExpectError.Shell

/-- A variable that is set or marked. -/
structure Binding where
  name : Octets
  value : Option Octets
  exported : Bool := false
  readOnly : Bool := false
  deriving DecidableEq, Repr

/-- Why the commands that follow are not run. -/
inductive Leave where
  /-- The shell ends with its status. -/
  | exit
  /-- The shell ends because of an error. -/
  | error
  | killed (signal : Signal)
  /-- A function, or a script that was read in, ends. -/
  | function
  /-- So many loops end. -/
  | loops (count : Nat)
  /-- So many loops end, but the last of them goes on. -/
  | round (count : Nat)
  deriving DecidableEq, Repr

/-- What a shell does about a signal, or at its end. -/
structure Trap where
  /-- The name of the signal; `EXIT` for the end of the shell. -/
  event : Octets
  /-- The script that is run; an empty one means that nothing happens. -/
  action : Octets
  deriving DecidableEq, Repr

/-- A shell between two commands. -/
structure State where
  world : World
  folder : Pathname
  /-- The channels that are open, with the numbers of their open files. -/
  channels : List (Nat × Nat) := []
  /-- The name of the script, or of the shell itself. -/
  name : Octets
  parameters : List Octets := []
  bindings : List Binding := []
  functions : List (Octets × Command) := []
  /-- The letters of the options that are set. -/
  options : List Char := []
  traps : List Trap := []
  documents : List (Nat × Word) := []
  /-- The number of the next document. -/
  nextDocument : Nat := 0
  /-- The status of the last command. -/
  status : Nat := 0
  /-- The status of the last script whose output was put in place. -/
  substituted : Option Nat := none
  /-- The number of the process. -/
  process : Nat := 4000
  parent : Nat := 1
  /-- Is this a part of a script that runs in a shell of its own? -/
  isPart : Bool := false
  /-- The processes that were started without waiting for them, with their statuses, the last one
  first. -/
  jobs : List (Nat × Nat) := []
  /-- How far the options in one argument have been taken. -/
  optionOffset : Nat := 0
  /-- The status in front of the trap that is run. -/
  trapped : Option Nat := none
  /-- The line of the command that is run. -/
  line : Nat := 1
  /-- The command of the shell itself, or the script that was read in, that messages name. -/
  command : Option Octets := none
  /-- The loops around the command that is run. -/
  loops : Nat := 0
  /-- The functions around the command that is run. -/
  calls : Nat := 0
  /-- The bindings that are restored at the end of each function around, the innermost first. -/
  saved : List (List (Octets × Option Binding)) := []
  leaving : Option Leave := none

namespace State

/-- Does a shell have an option? -/
def has (s : State) (option : Char) : Bool :=
  s.options.contains option

/-- The path name of a file that is named from the shell's folder. -/
def path (s : State) (file : Octets) : Pathname :=
  s.folder.join ⟨file.toText⟩

/-- The tree of files. -/
def tree (s : State) : FileTree := s.world.tree

/-- The state with another tree of files. -/
def withTree (s : State) (tree : FileTree) : State :=
  { s with world := { s.world with tree } }

/-- The names in a folder, in order. -/
def namesIn (s : State) (path : Pathname) : List Octets :=
  match s.tree.resolve path with
  | .ok (names, .folder) =>
    let inside := s.tree.entries.filterMap fun (n, _) =>
      if n.length = names.length + 1 && names.isPrefixOf n then n.getLast?.map Octets.ofText
      else none
    inside.mergeSort fun a b => !decide (b < a)
  | _ => []

/-! ### Channels -/

/-- The open file of a channel. -/
def channel? (s : State) (channel : Nat) : Option Nat :=
  s.channels.lookup channel

/-- Leads a channel to an open file. -/
def lead (s : State) (channel number : Nat) : State :=
  { s with channels := (channel, number) :: s.channels.filter (·.1 ≠ channel) }

/-- Closes a channel. -/
def close (s : State) (channel : Nat) : State :=
  { s with channels := s.channels.filter (·.1 ≠ channel) }

/-- Leads a channel to a new open file. -/
def leadTo (s : State) (channel : Nat) (file : OpenFile) : State :=
  let (number, world) := s.world.openFile file
  { s with world }.lead channel number

/-- Writes to a channel. -/
def write (s : State) (channel : Nat) (text : Octets) : State :=
  match s.channel? channel with
  | none => s
  | some number => if text.isEmpty then s else { s with world := s.world.write number text }

/-- Writes to the output. -/
def print (s : State) (text : Octets) : State :=
  s.write 1 text

/-- Everything that is left to read on a channel. -/
def readAll (s : State) (channel : Nat) : Octets × State :=
  match s.channel? channel with
  | none => ([], s)
  | some number =>
    let text := s.world.left number
    match s.world.opened[number]? with
    | none => (text, s)
    | some file =>
      (text, { s with world := s.world.seek number (file.position + text.length) })

/-- Moves a channel back, as if the end of what was read had not been read. -/
def unread (s : State) (channel count : Nat) : State :=
  match s.channel? channel with
  | none => s
  | some number =>
    match s.world.opened[number]? with
    | some file =>
      if s.world.canSeek number then
        { s with world := s.world.seek number (file.position - count) }
      else s
    | none => s

/-- The next line on a channel, with its end if it has one. -/
def readLine (s : State) (channel : Nat) : Octets × State :=
  match s.channel? channel with
  | none => ([], s)
  | some number =>
    let text := s.world.left number
    let front := text.takeWhile (· ≠ '\n')
    let line := text.take (front.length + 1)
    match s.world.opened[number]? with
    | none => (line, s)
    | some file => (line, { s with world := s.world.seek number (file.position + line.length) })

/-! ### Endings -/

/-- Ends a command with a status. -/
def done (s : State) (status : Nat) : State :=
  { s with status }

/-- Ends a command with a status and a line about what is wrong. -/
def complain (s : State) (message : Octets) (status : Nat) : State :=
  (s.write 2 (message ++ ['\n'])).done status

/-- Ends a command with a status and a line in which the shell itself says what is wrong. -/
def refuse (s : State) (message : Octets) (status : Nat) : State :=
  let place := [s.name, .ofNat s.line] ++ s.command.toList
  s.complain (": ".toList.intercalate (place ++ [message])) status

/-- Ends the shell with a status. -/
def exit (s : State) (status : Nat) : State :=
  { s.done status with leaving := some .exit }

/-- Ends the shell with a line in which it says what is wrong. -/
def abort (s : State) (message : Octets) : State :=
  { s.refuse message 2 with leaving := some .error }

/-- How the shell ended. -/
def ending (s : State) : Ending :=
  match s.leaving with
  | some (.killed signal) => .signalled signal
  | _ => .exited s.status

/-- The state of the shell behind a part that ran in a shell of its own: only what processes share
and the status are left of it. The shell says if a signal has ended that part. -/
def afterChild (s child : State) : State :=
  let s := { s with world := child.world }
  match child.ending with
  | .exited status => s.done status
  | .signalled signal =>
    let status := 128 + signal.number
    if signal.description.isEmpty then s.done status
    else s.complain signal.description.toList status

/-! ### Variables -/

/-- The binding of a name. -/
def binding? (s : State) (name : Octets) : Option Binding :=
  s.bindings.find? (·.name = name)

/-- The value of a variable; nothing if it is not set. -/
def value? (s : State) (name : Octets) : Option Octets :=
  (s.binding? name).bind (·.value)

/-- Replaces the binding of a name. -/
def bind (s : State) (name : Octets) (binding : Option Binding) : State :=
  { s with bindings := binding.toList ++ s.bindings.filter (·.name ≠ name) }

/-- Sets a variable, whatever it is marked as. -/
def assign (s : State) (name value : Octets) : State :=
  match s.binding? name with
  | some binding => s.bind name (some { binding with value := some value })
  | none => s.bind name (some { name, value := some value, exported := s.has 'a' })

/-- Sets a variable. A variable that is read only ends the shell. -/
def set (s : State) (name value : Octets) : State :=
  match s.binding? name with
  | some { readOnly := true, .. } => s.abort (name ++ ": is read only".toList)
  | _ => s.assign name value

/-- The characters at which fields are split. -/
def separators (s : State) : Octets :=
  (s.value? "IFS".toList).getD [' ', '\t', '\n']

/-- The action of a trap. -/
def trap? (s : State) (event : Octets) : Option Octets :=
  (s.traps.find? (·.event = event)).map (·.action)

end State

end ExpectError.Shell
