/-!
# Workers

A worker runs one job on a thread of its own and reports one result. A job that breaks off is an
error that names the worker.
-/

namespace ExpectError.Worker

/-- What a job leaves behind when it breaks off. -/
inductive Breakdown where
  | text (message : String)
  /-- Something that is no text. -/
  | other
  deriving DecidableEq, Repr

/-- The words of a breakdown. -/
def Breakdown.message : Breakdown → String
  | .text message => message
  | .other => "Unknown panic"

/-- How a job ends. -/
inductive Ending (ε α : Type) where
  | returned (value : α)
  | failed (error : ε)
  | brokeOff (breakdown : Breakdown)
  deriving DecidableEq, Repr

/-- Why a worker has no value: its job failed, or it broke off. -/
inductive Failure (ε : Type) where
  | job (error : ε)
  | brokeOff (worker : String) (breakdown : Breakdown)
  deriving DecidableEq, Repr

/-- The words about a worker that broke off. -/
def brokeOffMessage (worker : String) (breakdown : Breakdown) : String :=
  s!"{worker} worker panicked: {breakdown.message}"

/-- The name of a worker's thread. -/
def threadName (worker : String) : String :=
  "ratchet-" ++ worker

/-- The result of a worker, by how its job ended. -/
def report {ε α : Type} (worker : String) : Ending ε α → Except (Failure ε) α
  | .returned value => .ok value
  | .failed error => .error (.job error)
  | .brokeOff breakdown => .error (.brokeOff worker breakdown)

end ExpectError.Worker
