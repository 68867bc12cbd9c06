import LineScript.Event
import LineScript.Properties
import LineScript.Text.Terminal

/-!
# Log lines

A log line has a level, a target that says which part speaks, a message, and fields. The message may
come from anywhere, so no character of it reaches a terminal as a command.

* `Entry.render`: a log line;
* `Entry.ofEvent?`: what is logged of an event;
* `Entry.ofStep`: what is logged of a step of resolution.
-/

namespace LineScript.CommandLine.Log

/-- How much a line matters. -/
inductive Level where
  | error
  | warn
  | info
  | debug
  | trace
deriving Repr, DecidableEq

namespace Level

/-- All levels, the most important first. -/
def all : List Level :=
  [.error, .warn, .info, .debug, .trace]

/-- The place of a level in `all`, counted from one. -/
def rank : Level → Nat
  | error => 1
  | warn => 2
  | info => 3
  | debug => 4
  | trace => 5

/-- The name of a level in log lines. -/
def name : Level → String
  | error => "ERROR"
  | warn => "WARN"
  | info => "INFO"
  | debug => "DEBUG"
  | trace => "TRACE"

end Level

/-- A log line. -/
structure Entry where
  /-- How much it matters. -/
  level : Level
  /-- Which part of the program speaks. -/
  target : String
  /-- What it says. -/
  message : String
  /-- Names with their values, as they are written. -/
  fields : List (String × String) := []
deriving Repr, DecidableEq

/-- The line: level, target and message, then the fields. -/
def Entry.render (e : Entry) : String :=
  e.level.name ++ " " ++ e.target ++ ": " ++
    " ".intercalate
      (Text.forTerminal e.message :: e.fields.map fun (key, value) => key ++ "=" ++ value)

/-- The names of all that the line holds. The message counts as a field of that name. -/
def Entry.fieldNames (e : Entry) : List String :=
  "message" :: e.fields.map Prod.fst

/-! ### What is logged -/

/-- The target of lines about the command as a whole. -/
def commandTarget : String :=
  "gordian"

/-- The target of lines about reading scripts from files. -/
def loaderTarget : String :=
  commandTarget ++ "::loader"

/-- The target of lines about sessions. -/
def sessionTarget : String :=
  commandTarget ++ "::script::interp"

/-- The target of lines about runs. -/
def runTarget : String :=
  commandTarget ++ "::script::runner"

/-- The target of lines about command tables. -/
def tableTarget : String :=
  commandTarget ++ "::script::dispatch"

/-- The target of lines about finding values. -/
def valueTarget : String :=
  commandTarget ++ "::script::scope"

/-- The target of lines about calculations. -/
def calculationTarget : String :=
  commandTarget ++ "::script::calc"

/-- The target of printed lines. -/
def printTarget : String :=
  commandTarget ++ "::print"

/-- A truth value in a field. -/
def flag (b : Bool) : String :=
  (Value.boolean b).display

/-- The line for a properties line that was skipped. -/
def Entry.ofBadLine (file : String) (bad : Properties.BadLine) : Entry :=
  { level := .warn, target := commandTarget, message := bad.message, fields := [("file", file)] }

/-- The line for a script about to be read. -/
def Entry.reading (path : String) : Entry :=
  { level := .debug, target := loaderTarget, message := "reading script"
    fields := [("path", path)] }

/-- The name of a calculation in log lines. -/
def calculationName : Calculation → String
  | .logicalOr => "LogicalOr"
  | .logicalAnd => "LogicalAnd"
  | .equal => "Equal"
  | .notEqual => "NotEqual"
  | .less => "Less"
  | .lessEqual => "LessEqual"
  | .greater => "Greater"
  | .greaterEqual => "GreaterEqual"
  | .addition => "Addition"
  | .concatenation => "Concatenation"
  | .subtraction => "Subtraction"
  | .multiplication => "Multiplication"
  | .division => "Division"
  | .modulo => "Modulo"

/-- The line for a step of resolution. -/
def Entry.ofStep : Resolve.Step → Entry
  | .began text =>
    { level := .trace, target := valueTarget, message := "resolve"
      fields := [("expr", Text.quote (String.ofList text))] }
  | .split calculation position text =>
    { level := .trace, target := calculationTarget, message := "split"
      fields := [("calc", calculationName calculation), ("at", position.repr),
        ("candidate", Text.quote (String.ofList text))] }

/-- The line for an event, if it has one. Steps of resolution have lines of their own. -/
def Entry.ofEvent? {ε : Type} : Event ε → Option Entry
  | .loaded identifier bytes =>
    some { level := .debug, target := sessionTarget, message := "loaded"
           fields := [("identifier", Text.quote identifier), ("bytes", bytes.repr)] }
  | .started identifier =>
    some { level := .info, target := sessionTarget, message := "script started"
           fields := [("identifier", Text.quote identifier)] }
  | .assigned line name value =>
    some { level := .debug, target := runTarget, message := "assign"
           fields := [("line", line.repr), ("name", Text.quote name), ("value", value.display)] }
  | .dispatching line text =>
    some { level := .debug, target := runTarget, message := "dispatch"
           fields := [("line", line.repr), ("command", Text.quote text)] }
  | .handling action =>
    some { level := .debug, target := tableTarget, message := "handler"
           fields := [("action", action.display)] }
  | .printed line => some { level := .info, target := printTarget, message := line }
  | .branched line taken =>
    some { level := .debug, target := runTarget, message := "if"
           fields := [("line", line.repr), ("taken", flag taken)] }
  | .failed failure =>
    some { level := .warn, target := runTarget, message := "statement failed"
           fields := [("line", failure.line.repr), ("error", failure.error.message)] }
  | .finished report =>
    some { level := .info, target := sessionTarget, message := "script finished"
           fields := [("executed", report.executed.repr),
             ("failures", report.failures.length.repr), ("aborted", flag report.aborted)] }
  | .resolving .. | .reading .. | .custom _ => none

end LineScript.CommandLine.Log
