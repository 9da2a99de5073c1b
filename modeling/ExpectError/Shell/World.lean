import ExpectError.Files.FileTree
import ExpectError.Shell.Octets

/-!
# What processes share

Processes share the tree of files, the files that are open, and the signals that are under way. An
open file has a position, which all processes that got hold of it move together. What one process
writes into a buffer another one reads from it.
-/

namespace ExpectError.Shell

/-- A signal that ends a program. -/
structure Signal where
  number : Nat
  /-- The short name of the signal. -/
  name : String
  /-- What a shell says about a program that was ended by it. -/
  description : String
  deriving DecidableEq, Repr

/-- The signal that ends a program at once. -/
def Signal.kill : Signal := ⟨9, "KILL", "Killed"⟩

/-- The signal that asks a program to end. -/
def Signal.term : Signal := ⟨15, "TERM", "Terminated"⟩

/-- The signals that can be sent. -/
def Signal.all : List Signal :=
  [⟨1, "HUP", "Hangup"⟩, ⟨2, "INT", ""⟩, ⟨3, "QUIT", "Quit"⟩, ⟨4, "ILL", "Illegal instruction"⟩,
    ⟨5, "TRAP", "Trace/breakpoint trap"⟩, ⟨6, "ABRT", "Aborted"⟩, ⟨7, "BUS", "Bus error"⟩,
    ⟨8, "FPE", "Floating point exception"⟩, .kill, ⟨10, "USR1", "User defined signal 1"⟩,
    ⟨11, "SEGV", "Segmentation fault"⟩, ⟨12, "USR2", "User defined signal 2"⟩, ⟨13, "PIPE", ""⟩,
    ⟨14, "ALRM", "Alarm clock"⟩, .term]

/-- The signal with a name or a number. -/
def Signal.ofName? (name : Octets) : Option Signal :=
  let name := if "SIG".toList.isPrefixOf name then name.drop 3 else name
  Signal.all.find? fun signal =>
    name = signal.name.toList || Octets.nat? name = some signal.number

/-- How a program ends. -/
inductive Ending where
  | exited (status : Nat)
  | signalled (signal : Signal)
  deriving DecidableEq, Repr

/-- What an open file gives and takes. -/
inductive Medium where
  /-- It takes everything and gives nothing. -/
  | nowhere
  | file (names : Names)
  /-- It gives what was written to it; the last piece comes first. -/
  | buffer (pieces : List Octets)
  deriving DecidableEq, Repr

/-- A file that is open. -/
structure OpenFile where
  medium : Medium
  position : Nat := 0
  /-- Is everything written behind the end? -/
  appends : Bool := false
  deriving DecidableEq, Repr

/-- What processes share. -/
structure World where
  tree : FileTree
  opened : List OpenFile := []
  /-- The number of the next process. -/
  nextProcess : Nat := 4001
  /-- Signals that have been sent, with the numbers of the processes that get them. -/
  sent : List (Nat × Signal) := []
  deriving DecidableEq, Repr

namespace World

/-- Opens a file. The number of the open file comes with the world. -/
def openFile (w : World) (file : OpenFile) : Nat × World :=
  (w.opened.length, { w with opened := w.opened ++ [file] })

/-- Everything in a file that is open. -/
def content (w : World) (file : OpenFile) : Octets :=
  match file.medium with
  | .nowhere => []
  | .buffer pieces => pieces.reverse.flatten
  | .file names =>
    match w.tree.find? names with
    | some (.file content _) => .ofBytes content
    | _ => []

/-- Puts a text into another one, at a position. -/
def splice (content text : Octets) (position : Nat) : Octets :=
  let front := content.take position
  front ++ List.replicate (position - front.length) '\x00' ++ text
    ++ content.drop (position + text.length)

/-- Changes a file that is open. -/
def update (w : World) (number : Nat) (file : OpenFile) : World :=
  { w with opened := w.opened.set number file }

/-- Moves the position of an open file to its end, or to another place. -/
def seek (w : World) (number position : Nat) : World :=
  match w.opened[number]? with
  | none => w
  | some file => w.update number { file with position }

/-- What is left to read. -/
def left (w : World) (number : Nat) : Octets :=
  match w.opened[number]? with
  | none => []
  | some file => (w.content file).drop file.position

/-- Writes to an open file. -/
def write (w : World) (number : Nat) (text : Octets) : World :=
  match w.opened[number]? with
  | none => w
  | some file =>
    match file.medium with
    | .nowhere => w
    | .buffer pieces => w.update number { file with medium := .buffer (text :: pieces) }
    | .file names =>
      match w.tree.find? names with
      | some (.file bytes executable) =>
        let content := Octets.ofBytes bytes
        let position := if file.appends then content.length else file.position
        let written := splice content text position
        let w := { w with tree := w.tree.put names (.file written.toBytes executable) }
        w.update number { file with position := position + text.length }
      | _ => w

/-- Is an open file one whose position can be moved back? -/
def canSeek (w : World) (number : Nat) : Bool :=
  match w.opened[number]? with
  | some { medium := .file _, .. } => true
  | _ => false

end World

end ExpectError.Shell
