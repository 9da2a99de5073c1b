import ExpectError.Shell.Programs.Awk.Running
import ExpectError.Shell.Programs.Find
import ExpectError.Shell.Programs.Grep
import ExpectError.Shell.Programs.Launching
import ExpectError.Shell.Programs.Lines
import ExpectError.Shell.Programs.Numbers
import ExpectError.Shell.Programs.Sed.Editing
import ExpectError.Shell.Testing

/-!
# The programs that are always there

Programs by their names. Some of them run other programs, which they are given a way to do.
-/

namespace ExpectError.Shell

/-- The programs that run nothing else. -/
def programs : List (String × Program) :=
  [("true", fun _ s => s.done 0), ("false", fun _ s => s.done 1), ("sleep", fun _ s => s.done 0),
    ("sync", fun _ s => s.done 0), ("uname", fun _ s => (s.print "Linux\n".toList).done 0),
    ("whoami", fun _ s => (s.print "root\n".toList).done 0), ("echo", Program.echoPlain),
    ("printf", Program.printf), ("test", Program.test), ("[", Program.bracket),
    ("cat", Program.cat), ("cp", Program.cp), ("mv", Program.mv), ("rm", Program.rm),
    ("mkdir", Program.mkdir), ("rmdir", Program.rmdir), ("touch", Program.touch),
    ("chmod", Program.chmod), ("mktemp", Program.mktemp), ("dirname", Program.dirname),
    ("basename", Program.basename), ("pwd", Program.pwd), ("realpath", Program.realpath),
    ("readlink", Program.readlink), ("ls", Program.ls), ("find", Program.find),
    ("grep", Program.grep), ("egrep", Program.egrep), ("fgrep", Program.fgrep),
    ("sed", Program.sed), ("head", Program.head), ("tail", Program.tail), ("wc", Program.wc), ("sort", Program.sort),
    ("uniq", Program.uniq), ("cut", Program.cut), ("paste", Program.paste), ("rev", Program.rev),
    ("tac", Program.tac), ("nl", Program.nl), ("tr", Program.tr), ("tee", Program.tee),
    ("cmp", Program.cmp), ("expr", Program.expr), ("seq", Program.seq),
    ("printenv", Program.printenv)]

/-- The programs that run other ones. -/
def launchers : List (String × (Runner → Program)) :=
  [("awk", Program.awk "awk"), ("mawk", Program.awk "mawk"), ("env", Program.env),
    ("xargs", Program.xargs), ("nice", Program.passing "nice" 0),
    ("nohup", Program.passing "nohup" 0), ("timeout", Program.passing "timeout" 1)]

/-- The programs that run scripts. -/
def shells : List String := ["sh", "dash", "bash"]

/-- Is there always a program with a name? -/
def isInstalled (name : Octets) : Bool :=
  let word := String.ofList name
  shells.contains word || (programs.lookup word).isSome || (launchers.lookup word).isSome

end ExpectError.Shell
