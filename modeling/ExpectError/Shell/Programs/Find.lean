import ExpectError.Shell.Pattern
import ExpectError.Shell.Programs.Paths

/-!
# Finding files

Writes the path names of the files and folders below given ones that pass some tests.
-/

namespace ExpectError.Shell

namespace Find

/-- A test of a file. -/
inductive Test where
  | name (pattern : Octets)
  | path (pattern : Octets)
  | isFile
  | isFolder
  | negated (test : Test)
  | always
  deriving DecidableEq, Repr

/-- Does a file pass a test? -/
def Test.passes (path : Octets) (entry : Entry) : Test → Bool
  | .name pattern => (Pattern.ofText (pattern.map (·, false))).accepts (Program.nameOf path [])
  | .path pattern => (Pattern.ofText (pattern.map (·, false))).accepts path
  | .isFile => entry ≠ .folder
  | .isFolder => entry = .folder
  | .negated test => !test.passes path entry
  | .always => true

/-- What is looked for. -/
structure Query where
  starts : List Octets := []
  /-- Alternatives of tests that all have to be passed, the last one first. -/
  tests : List (List Test) := [[]]
  least : Nat := 0
  most : Option Nat := none
  deriving DecidableEq, Repr

/-- Adds a test to the last alternative. -/
def Query.add (query : Query) (test : Test) : Query :=
  match query.tests with
  | [] => { query with tests := [[test]] }
  | tests :: others => { query with tests := (test :: tests) :: others }

/-- Takes tests from arguments; the first one that is not known is an error. -/
def Query.take (query : Query) (negates : Bool) : Nat → List Octets → Except Octets Query
  | 0, _ => .ok query
  | _, [] => .ok query
  | n + 1, argument :: rest =>
    let value := rest.headD []
    let tested (test : Test) (rest : List Octets) : Except Octets Query :=
      take (query.add (if negates then .negated test else test)) false n rest
    match String.ofList argument with
    | "-name" => tested (.name value) rest.tail
    | "-path" | "-wholename" => tested (.path value) rest.tail
    | "-type" => tested (if value = ['d'] then .isFolder else .isFile) rest.tail
    | "-print" => tested .always rest
    | "-maxdepth" => take { query with most := Octets.nat? value } negates n rest.tail
    | "-mindepth" => take { query with least := (Octets.nat? value).getD 0 } negates n rest.tail
    | "!" | "-not" => take query (!negates) n rest
    | "-a" | "-and" => take query negates n rest
    | "-o" | "-or" => take { query with tests := [] :: query.tests } false n rest
    | _ => .error argument

/-- Is a file found at a depth? -/
def Query.finds (query : Query) (depth : Nat) (path : Octets) (entry : Entry) : Bool :=
  query.least ≤ depth && query.most.all (depth ≤ ·)
    && query.tests.any fun tests => tests.all fun test => test.passes path entry

end Find

/-- Finds files. -/
def Program.find : Program := fun arguments s =>
  let isTest (argument : Octets) : Bool :=
    argument.head? = some '-' || argument = ['!'] || argument = ['(']
  let starts := arguments.takeWhile fun argument => !isTest argument
  let query : Find.Query := { starts := if starts.isEmpty then [['.']] else starts }
  match query.take false (arguments.length + 1) (arguments.drop starts.length) with
  | .error argument =>
    s.complain ("find: unknown predicate \x60".toList ++ argument ++ ['\'']) 1
  | .ok query =>
    query.starts.foldl (fun s start =>
      match s.tree.resolve (s.path start) with
      | .error e =>
        s.complain ("find: '".toList ++ start ++ "': ".toList ++ e.reason.toList) 1
      | .ok (folder, entry) =>
        let front := if start.getLast? = some '/' then start else start ++ ['/']
        let below := (s.tree.below folder).map fun (names, entry) =>
          (names.length, front ++ ['/'].intercalate (names.map Octets.ofText), entry)
        let found := ((0, start, entry) :: below).filter fun (depth, path, entry) =>
          query.finds depth path entry
        s.print (Octets.ofLines (found.map fun (_, path, _) => path))) (s.done 0)

end ExpectError.Shell
