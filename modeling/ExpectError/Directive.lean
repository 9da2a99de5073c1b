/-!
# Expect-error directives

The comment that tells the checker to expect an error on the next line. Other tools look for these
words, so their form is fixed: the directive, the tool's name, the error's code and the pass that
wrote it.
-/

namespace ExpectError

/-- The pass that writes an annotation. -/
inductive Pass where
  /-- Annotates the syntax node whose range is the issue's range. -/
  | structural
  /-- Annotates the line on which the issue starts. -/
  | offset
  deriving DecidableEq, Repr

/-- The words by which a pass signs its annotations. -/
def Pass.tag : Pass → String
  | .structural => "jscodeshift"
  | .offset => "ts-morph"

namespace Directive

/-- The directive that the checker understands. -/
def mark : String := "@ts-expect-error"

/-- The annotation without comment marks. -/
def words (code : Nat) (pass : Pass) : String :=
  s!"{mark} ratchet TS{code} ({pass.tag})"

/-- The annotation as a line comment. -/
def lineComment (code : Nat) (pass : Pass) : String :=
  "// " ++ words code pass

/-- The annotation between markup elements: a block comment in an empty expression container. -/
def markupComment (code : Nat) : String :=
  "\x7b/* " ++ words code .structural ++ " */\x7d"

end Directive

end ExpectError
