import LineScript.Resolve.Notes

/-!
# Resolution

The public face of resolution: the value of an expression in a scope, and the questions that can be
asked of one calculation or of one level of precedence. All of them remember operands while they
work, and forget them afterwards.
-/

namespace LineScript

open Resolve

/-- The value of an expression in a scope. -/
def Scope.resolve (scope : Scope) (expression : String) : Except Error Value :=
  resolveWith .memo scope expression.toList

/-- What is done to find the value of an expression in a scope, in order. -/
def Scope.steps (scope : Scope) (expression : String) : List Step :=
  stepsOf scope expression.toList

namespace Calculation

/-- The rightmost split of a text at the calculation's operator whose two sides have values that it
accepts. -/
def locate (c : Calculation) (scope : Scope) (candidate : String) : Option Split :=
  (locateWith .memo scope [c] candidate.toList).map Prod.snd

/-- The text splits at the calculation's operator. -/
def detect (c : Calculation) (scope : Scope) (candidate : String) : Bool :=
  (c.locate scope candidate).isSome

/-- The result of the calculation on a text. -/
def evaluate (c : Calculation) (scope : Scope) (candidate : String) : Except Error Value :=
  evaluateWith .memo scope c candidate.toList

end Calculation

/-- The rightmost split of a text at any operator of the level, with the calculation that accepts
its two sides. -/
def Precedence.locate (level : Precedence) (scope : Scope) (candidate : String) :
    Option (Calculation × Split) :=
  locateWith .memo scope level.members candidate.toList

end LineScript
