import ExpectError.Shell.Expansion

/-!
# Redirections

A redirection leads a channel to a file, to where another channel leads, or to a text. Redirections
are carried out one after another; the first one that cannot be carried out ends the command.

* `openPath`: leads a channel to a path name;
* `redirect`: carries out redirections.
-/

namespace ExpectError.Shell

/-- Where a path name leads that stands for no file of the tree. -/
inductive Device where
  | nowhere
  /-- To where a channel leads. -/
  | channel (number : Nat)
  deriving DecidableEq, Repr

/-- The device with a path name. -/
def Device.ofPath? (file : Octets) : Option Device :=
  match String.ofList file with
  | "/dev/null" => some .nowhere
  | "/dev/stdin" => some (.channel 0)
  | "/dev/stdout" => some (.channel 1)
  | "/dev/stderr" => some (.channel 2)
  | _ =>
    let front := "/dev/fd/".toList
    if front.isPrefixOf file then (Octets.nat? (file.drop front.length)).map .channel else none

/-- Why a channel cannot be led to a file: the words of the shell. -/
def openProblem (creates : Bool) (file reason : Octets) : Octets :=
  let verb := if creates then "cannot create " else "cannot open "
  verb.toList ++ file ++ ": ".toList ++ reason

/-- The reason in the words of the shell, which has its own for what is not there. -/
def openReason (creates : Bool) : FileError → Octets
  | .notFound | .notFolder =>
    if creates then "Directory nonexistent".toList else "No such file".toList
  | e => e.reason.toList

/-- Leads a channel to a file of the tree, which is made or emptied as the direction says. -/
def openTree (channel : Nat) (direction : Direction) (file : Octets) (s : State) :
    Except Octets State := do
  let creates := direction ≠ .input
  let failed (reason : Octets) := openProblem creates file reason
  let names ← match if file.isEmpty then .error .notFound else s.tree.locate (s.path file) with
    | .ok names => pure names
    | .error e => throw (failed (openReason creates e))
  let empty := Entry.file [] false
  let opened (tree : FileTree) :=
    (s.withTree tree).leadTo channel { medium := .file names, appends := direction = .append }
  match s.tree.find? names, direction with
  | none, .input => throw (failed (openReason false .notFound))
  | none, _ => return opened (s.tree.put names empty)
  | some .folder, .input => return s.leadTo channel { medium := .nowhere }
  | some .folder, _ => throw (failed (openReason true .isFolder))
  | some (.file _ executable), .output =>
    if s.has 'C' then throw (failed "File exists".toList)
    else if s.tree.isWritable names then return opened (s.tree.put names (.file [] executable))
    else throw (failed (openReason true .denied))
  | some (.file _ executable), .clobber =>
    if s.tree.isWritable names then return opened (s.tree.put names (.file [] executable))
    else throw (failed (openReason true .denied))
  | some _, .input => return opened s.tree
  | some _, _ =>
    if s.tree.isWritable names then return opened s.tree
    else throw (failed (openReason true .denied))

/-- Leads a channel to where another one leads. -/
def copyChannel (channel source : Nat) (s : State) : Except Octets State :=
  match s.channel? source with
  | some number => .ok (s.lead channel number)
  | none => .error (.ofNat source ++ ": Bad file descriptor".toList)

/-- Leads a channel to a path name. -/
def openPath (channel : Nat) (direction : Direction) (file : Octets) (s : State) :
    Except Octets State :=
  match Device.ofPath? file with
  | some .nowhere => .ok (s.leadTo channel { medium := .nowhere })
  | some (.channel source) =>
    match s.channel? source with
    | some number => .ok (s.lead channel number)
    | none =>
      let creates := decide (direction ≠ .input)
      .error (openProblem creates file (openReason creates .notFound))
  | none => openTree channel direction file s

/-- Carries out one redirection, and says whether it could be. -/
def redirectOne (interpret : Interpreter) (redirection : Redirection) (s : State) : Bool × State :=
  match redirection.target with
  | .document number =>
    let (text, s) := expandText interpret ((s.documents.lookup number).getD []) s
    if s.leaving.isSome then (false, s)
    else (true, s.leadTo redirection.channel { medium := .buffer [text] })
  | .word direction word =>
    let (target, s) := expandText interpret word s
    let settle : Except Octets State → Bool × State
      | .ok s => (true, s)
      | .error problem => (false, s.refuse problem 2)
    if s.leaving.isSome then (false, s)
    else if direction = .copy then
      if target = ['-'] then (true, s.close redirection.channel)
      else
        match target with
        | [digit] =>
          if digit.isDigit then
            settle (copyChannel redirection.channel (digit.toNat - '0'.toNat) s)
          else (false, s.abort "Syntax error: Bad fd number".toList)
        | _ => (false, s.abort "Syntax error: Bad fd number".toList)
    else settle (openPath redirection.channel direction target s)

/-- Carries out redirections, and says whether all could be. -/
def redirect (interpret : Interpreter) : List Redirection → State → Bool × State
  | [], s => (true, s)
  | redirection :: rest, s =>
    match redirectOne interpret redirection s with
    | (true, s) => redirect interpret rest s
    | (false, s) => (false, s)

end ExpectError.Shell
