import LineScript.Error

/-!
# Reports

The report of a run counts the statements that succeeded and lists those that failed, in the order
in which they were carried out, and says whether a failure stopped the run.
-/

namespace LineScript

/-- A statement that failed. -/
structure Failure where
  /-- Where it stands. -/
  line : Nat
  /-- Why it failed. -/
  error : Error
deriving Repr, DecidableEq

/-- What became of a run. -/
structure Report where
  /-- How many statements succeeded. -/
  executed : Nat := 0
  /-- The statements that failed, in order. -/
  failures : List Failure := []
  /-- The run was stopped by a failure. -/
  aborted : Bool := false
deriving Repr, DecidableEq

namespace Report

/-- No statement failed. -/
def isClean (r : Report) : Bool :=
  r.failures.isEmpty

/-- Counts one more statement that succeeded. -/
def addSuccess (r : Report) : Report :=
  { r with executed := r.executed + 1 }

/-- Lists one more statement that failed, and says whether that stops the run. -/
def addFailure (r : Report) (failure : Failure) (stops : Bool) : Report :=
  { r with failures := r.failures ++ [failure], aborted := stops }

end Report

end LineScript
