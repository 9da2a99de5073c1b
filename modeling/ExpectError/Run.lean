import ExpectError.Arguments
import ExpectError.Checker.Basic
import ExpectError.Passes
import ExpectError.Terminal.Listing
import ExpectError.Terminal.Question
import ExpectError.Terminal.Reporter

/-!
# A whole run

A run sets up the project, checks it, asks for leave to change files, and makes both passes. Every
step is reported on the terminal; a step that fails is the end of the run.

* `RunError`, `RunOutcome`: how a run ends;
* `annotateProject`: both passes, the only part of a run that writes annotations;
* `askLeave`: the question in front of them;
* `run`: everything.
-/

namespace ExpectError

open Terminal (Reporter)

/-- Why a run ended early. -/
inductive RunError where
  | project (cause : ProjectError)
  | check (failure : Worker.Failure CheckError)
  | offset (cause : Offset.Failure)
  /-- The answer to the question is no text. -/
  | answer
  deriving DecidableEq, Repr

/-- The words of an error, followed by those of its causes. -/
def RunError.chain : RunError → List String
  | .project cause => cause.chain
  | .check (.job cause) => cause.chain
  | .check (.brokeOff worker breakdown) => [Worker.brokeOffMessage worker breakdown]
  | .offset cause => cause.chain
  | .answer => ["failed to read answer", FileError.notText.message]

/-- The outermost words of an error. -/
def RunError.message (e : RunError) : String :=
  e.chain.headD ""

/-- How a run ended that did not fail. -/
inductive RunOutcome where
  /-- Nothing was reported. -/
  | noIssues
  /-- Issues were listed, and nothing was written. -/
  | dryRun (reduced : Reduced)
  /-- The answer was no. -/
  | declined
  /-- The passes that were asked for are done. -/
  | completed (structural : Option Structural.Summary) (offset : Option Offset.Summary)
  deriving DecidableEq, Repr

/-- What a run leaves behind. -/
structure RunEnd (σ : Type) where
  outcome : Except RunError RunOutcome
  /-- What the terminal shows. -/
  output : String := ""
  /-- The state of the checker. -/
  state : σ
  tree : FileTree

namespace RunEnd

variable {σ : Type}

/-- Puts a text in front of what the terminal shows. -/
def after (rest : RunEnd σ) (text : String) : RunEnd σ :=
  { rest with output := text ++ rest.output }

/-- The end of a run whose step has failed. -/
def ofFailure (reporter : Reporter) (step : String) (e : RunError) (state : σ) (tree : FileTree) :
    RunEnd σ :=
  { outcome := .error e
    output := reporter.stepFailed step (": ".intercalate e.chain)
    state
    tree }

end RunEnd

namespace Run

variable {σ : Type}

/-! ### The passes -/

/-- The last words of a run that is done. -/
def reminder : String :=
  "✨ Codemod completed, please review the changes before committing. "
    ++ "(code formatting may be required)"

/-- The end of a run with both passes behind it. -/
def complete (reporter : Reporter) (structural : Option Structural.Summary)
    (offset : Option Offset.Summary) (state : σ) (tree : FileTree) : RunEnd σ :=
  { outcome := .ok (.completed structural offset)
    output := reporter.success reminder
    state
    tree }

/-- Checks again and annotates what is still reported. -/
def recheck (checker : Checker σ) (project : Project) (state : σ) (tree : FileTree) :
    Except RunError Offset.Summary × σ × FileTree :=
  let checked := checker project state tree
  match Worker.report "offset" checked.ending with
  | .error failure => (.error (.check failure), checked.state, checked.tree)
  | .ok diagnostics =>
    let (tree, result) := Offset.run checked.tree diagnostics
    (result.mapError .offset, checked.state, tree)

/-- The second pass, unless it is left out, and the end of the run. -/
def offsetPass (reporter : Reporter) (args : Arguments) (checker : Checker σ) (project : Project)
    (structural : Option Structural.Summary) (state : σ) (tree : FileTree) : RunEnd σ :=
  if args.noOffset then complete reporter structural none state tree
  else
    match recheck checker project state tree with
    | (.error e, state, tree) => .ofFailure reporter "Offset pass" e state tree
    | (.ok summary, state, tree) =>
      (complete reporter structural (some summary) state tree).after
        (reporter.stepOk "Offset pass" (Terminal.offsetMessage summary))

/-- Both passes, as far as they are not left out. -/
def annotateProject (reporter : Reporter) (args : Arguments) (checker : Checker σ)
    (project : Project) (reduced : Reduced) (state : σ) (tree : FileTree) : RunEnd σ :=
  if args.noStructural then offsetPass reporter args checker project none state tree
  else
    let (tree, summary) := Structural.run reduced.issues tree reduced.paths
    (offsetPass reporter args checker project (some summary) state tree).after
      (reporter.stepOk "Structural pass" (Terminal.structuralMessage summary))

/-! ### The question -/

/-- What is said in front of the question. -/
def warning : String :=
  "This will modify files in place. Make sure your project is committed to version control first."

/-- The question before files are changed. -/
def question (reduced : Reduced) : String :=
  let issues := Terminal.issues reduced.totalIssues
  let files := Terminal.files reduced.issues.size
  s!"Insert @ts-expect-error for {issues} in {files}?"

/-- Asks whether files may be changed, and goes on if they may. -/
def askLeave (reporter : Reporter) (input : List UInt8) (reduced : Reduced) (state : σ)
    (tree : FileTree) (next : RunEnd σ) : RunEnd σ :=
  let dialogue := Terminal.ask (question reduced) false input
  let shown := reporter.warning warning ++ dialogue.output
  match dialogue.decision with
  | none => { outcome := .error .answer, output := shown, state, tree }
  | some false => { outcome := .ok .declined, output := shown, state, tree }
  | some true => next.after shown

/-! ### Everything -/

/-- The list of issues that is shown instead of changing files. -/
def listing (reporter : Reporter) (args : Arguments) (reduced : Reduced) : String :=
  if args.json then reduced.json.pretty ++ "\n" else reporter.issueRows reduced

/-- Goes on with the issues of a check. -/
def handle (reporter : Reporter) (args : Arguments) (checker : Checker σ) (input : List UInt8)
    (project : Project) (reduced : Reduced) (state : σ) (tree : FileTree) : RunEnd σ :=
  if reduced.totalIssues = 0 then
    { outcome := .ok .noIssues
      output := reporter.success "No issues to annotate."
      state
      tree }
  else if args.dryRun then
    { outcome := .ok (.dryRun reduced), output := listing reporter args reduced, state, tree }
  else
    let next := annotateProject reporter args checker project reduced state tree
    if args.yes then next else askLeave reporter input reduced state tree next

/-- The issues of a project, by a check of it. -/
def typecheck (checker : Checker σ) (project : Project) (state : σ) (tree : FileTree) :
    Except RunError Reduced × σ × FileTree :=
  let checked := checker project state tree
  let read (file : String) := (checked.tree.readText (.ofString file)).toOption
  match Worker.report "typecheck" checked.ending with
  | .error failure => (.error (.check failure), checked.state, checked.tree)
  | .ok diagnostics =>
    (.ok (Reduced.ofDiagnostics read diagnostics), checked.state, checked.tree)

/-- The project that the arguments ask for, seen from a folder. -/
def setup (args : Arguments) (folder : Pathname) (tree : FileTree) : Except ProjectError Project :=
  match Config.locate tree folder (args.project.map .ofString) with
  | .error e => .error e
  | .ok path => Project.load tree path

end Run

/-- A run in a folder of a tree of files, with the bytes that can be read as answers. -/
def run {σ : Type} (args : Arguments) (folder : Pathname) (checker : Checker σ) (color : Bool)
    (input : List UInt8) (state : σ) (tree : FileTree) : RunEnd σ :=
  let reporter : Reporter := { color }
  match Run.setup args folder tree with
  | .error e => .ofFailure reporter "Setup Project" (.project e) state tree
  | .ok project =>
    let found :=
      reporter.stepOk "Setup Project" s!"Found tsconfig.json at {project.configPath.display}"
    match Run.typecheck checker project state tree with
    | (.error e, state, tree) => (RunEnd.ofFailure reporter "Typecheck" e state tree).after found
    | (.ok reduced, state, tree) =>
      let checked := reporter.stepOk "Typecheck" (Terminal.foundMessage reduced)
      let handled := Run.handle reporter args checker input project reduced state tree
      (handled.after checked).after found

end ExpectError
