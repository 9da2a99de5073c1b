import ExpectError.Checker.Report
import ExpectError.Files.Pathname

/-!
# From positions to offsets

A report counts lines and columns of files that are named from the folder in which the checker ran.
To annotate them, positions become byte offsets and names become absolute path names.
-/

namespace ExpectError

open Text (LineMap)

namespace Reported

/-- The path name of a reported file. -/
def pathOf (root : Pathname) (file : String) : Pathname :=
  (root.join (.ofString file)).normalize

/-- The offset and the length of a reported stretch of text, if its start is in the text. -/
def span? (map : LineMap) (reported : Reported) : Option (Nat × Nat) := do
  let start ← map.offsetOf? (← reported.start)
  let stop := (reported.stop.bind map.offsetOf?).getD start
  return (start, max stop start - start)

/-- The diagnostic in a file whose text may be unknown. -/
def diagnosticIn (path : Pathname) (map : Option LineMap) (reported : Reported) : Diagnostic :=
  let span := map.bind fun map => reported.span? map
  { file := some path.display
    start := span.map (·.1)
    length := span.map (·.2)
    message := reported.message
    category := reported.category
    code := reported.code }

/-- The diagnostic of a report, with the texts that have been asked for and those that are asked for
now. -/
def resolveNext (read : Pathname → Option String) (root : Pathname)
    (sources : List (Pathname × Option LineMap)) (reported : Reported) :
    Diagnostic × List (Pathname × Option LineMap) :=
  match reported.file with
  | none =>
    ({ message := reported.message, category := reported.category, code := reported.code }, sources)
  | some file =>
    let path := pathOf root file
    match sources.lookup path with
    | some map => (reported.diagnosticIn path map, sources)
    | none =>
      let map := (read path).map fun text => LineMap.ofText text.toList
      (reported.diagnosticIn path map, sources ++ [(path, map)])

/-- The diagnostics of a report, and the texts that were asked for, each once. -/
def resolveFrom (read : Pathname → Option String) (root : Pathname)
    (sources : List (Pathname × Option LineMap)) :
    List Reported → List Diagnostic × List (Pathname × Option LineMap)
  | [] => ([], sources)
  | reported :: rest =>
    let (diagnostic, sources) := resolveNext read root sources reported
    let (diagnostics, sources) := resolveFrom read root sources rest
    (diagnostic :: diagnostics, sources)

/-- The diagnostics of a report that the checker made in a folder. -/
def resolve (read : Pathname → Option String) (root : Pathname) (reported : List Reported) :
    List Diagnostic :=
  (resolveFrom read root [] reported).1

/-- The files that are asked for, in order. -/
def reads (read : Pathname → Option String) (root : Pathname) (reported : List Reported) :
    List Pathname :=
  (resolveFrom read root [] reported).2.map (·.1)

end Reported

end ExpectError
