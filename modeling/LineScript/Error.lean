/-!
# Kinds of values and causes of failure

Every way in which the library can refuse is a constructor of `Error`, and its wording is written
once, in `Error.message`. A failure about types names the kinds it expected and found, so `Kind`
stands here too.
-/

namespace LineScript

/-- The three kinds of values. -/
inductive Kind where
  | number
  | text
  | boolean
deriving Repr, DecidableEq

/-- The name of a kind in messages. -/
def Kind.name : Kind → String
  | .number => "number"
  | .text => "text"
  | .boolean => "boolean"

/-- What is wrong with the line of a script that cannot be read. -/
inductive LineFault where
  /-- A literal, `true` or `false`, stands to the left of an assignment sign. -/
  | assignsLiteral (name : String)
  /-- An `if` without a condition. -/
  | missingCondition
  /-- An `else` outside any `if`. -/
  | strayElse
  /-- An `end` outside any `if`. -/
  | strayEnd
  /-- A further `else` for the `if` on the given line. -/
  | secondElse (ifLine : Nat)
  /-- The source ends before the `end` of this `if`. -/
  | unclosedIf
deriving Repr, DecidableEq

/-- The wording of a line's fault. -/
def LineFault.message : LineFault → String
  | .assignsLiteral name => "cannot assign to literal `" ++ name ++ "`"
  | .missingCondition => "`if` requires a condition"
  | .strayElse => "`else` without `if`"
  | .strayEnd => "`end` without `if`"
  | .secondElse ifLine => "second `else` for `if` on line " ++ ifLine.repr
  | .unclosedIf => "`if` without matching `end`"

/-- Why an operation failed. -/
inductive Error where
  /-- The text is no literal, name, group, calculation or signed operand with a value. -/
  | unresolvable (text : String)
  /-- An identifier without a binding in any frame. -/
  | undefinedVariable (name : String)
  /-- A value of one kind where another is needed. -/
  | typeMismatch (expected found : Kind)
  /-- A command that has neither a handler nor a fallback. -/
  | unknownCommand (name : String)
  /-- A command whose handler gave up. -/
  | commandFailed (name reason : String)
  /-- A line of a script that cannot be read. -/
  | badLine (line : Nat) (fault : LineFault)
  /-- A text that could not be loaded. -/
  | notLoaded (identifier reason : String)
  /-- There is no current run to act on. -/
  | noScript
deriving Repr, DecidableEq

/-- The wording of an error. -/
def Error.message : Error → String
  | .unresolvable text => "cannot resolve `" ++ text ++ "`"
  | .undefinedVariable name => "undefined variable `" ++ name ++ "`"
  | .typeMismatch expected found =>
    "type mismatch: expected " ++ expected.name ++ ", found " ++ found.name
  | .unknownCommand name => "unknown command `" ++ name ++ "`"
  | .commandFailed name reason => "command `" ++ name ++ "` failed: " ++ reason
  | .badLine line fault => "line " ++ line.repr ++ ": " ++ fault.message
  | .notLoaded identifier reason => "cannot load `" ++ identifier ++ "`: " ++ reason
  | .noScript => "no script is running"

end LineScript
