import LineScript.Resolve

/-!
# Actions

A command is a leading word and arguments, with or without parentheses around them:

    drive 0.5, speed * 2
    drive(0.5, speed * 2)

An action is such a command with every argument replaced by its value. The arguments are resolved
from left to right, and the first that has no value is the reason for which there is no action.
-/

namespace LineScript

/-- A command whose arguments have their values. -/
structure Action where
  /-- The leading word. -/
  name : String
  /-- The values of the arguments in order. -/
  arguments : List Value
deriving Repr, DecidableEq

namespace Action

/-- The written form: the arguments in parentheses, whichever way the command was written. -/
def display (a : Action) : String :=
  a.name ++ "(" ++ ", ".intercalate (a.arguments.map Value.display) ++ ")"

/-- The texts of the arguments in what follows the leading word. One pair of parentheses around all
of them is dropped, and a blank text has no arguments. -/
def argumentTexts (text : List Char) : List (List Char) :=
  let text := Text.trim text
  let inside := (Scan.group? text).getD text
  if (Text.trim inside).isEmpty then [] else Scan.pieces ',' inside

/-- The leading word of a command and the texts of its arguments. -/
def parts (statement : String) : Except Error (String × List String) :=
  let text := Text.trim statement.toList
  let (word, rest) := Text.leadingWord text
  if Text.isIdentifier word then .ok (String.ofList word, (argumentTexts rest).map String.ofList)
  else .error (.unresolvable (String.ofList text))

/-- Reads a command and resolves its arguments. -/
def parse (statement : String) (scope : Scope) : Except Error Action := do
  let (name, texts) ← parts statement
  let arguments ← texts.mapM scope.resolve
  return { name, arguments }

/-- What is done to resolve some expressions one after the other, as long as they have values. -/
def stepsThrough (scope : Scope) : List String → List Resolve.Step
  | [] => []
  | expression :: rest =>
    scope.steps expression ++
      match scope.resolve expression with
      | .ok _ => stepsThrough scope rest
      | .error _ => []

/-- What is done to resolve the arguments of a command, in order. -/
def steps (statement : String) (scope : Scope) : List Resolve.Step :=
  match parts statement with
  | .ok (_, texts) => stepsThrough scope texts
  | .error _ => []

end Action

end LineScript
