import LineScript.Calculation
import LineScript.Scan.Cut
import LineScript.Scan.Group
import LineScript.Scope
import LineScript.Text.Blank

/-!
# One layer of resolution

An expression has no tree: its text is the tree. To find the value of a text, the strategies below
are tried in order, and each works on smaller texts.

1. a number, a quoted text, `true` or `false`;
2. a variable;
3. a group in parentheses;
4. a calculation, from the weakest level to the strongest; within a level the rightmost cut whose
   two sides have values of fitting kinds;
5. a leading `-` or `!`.

This module describes one layer of that search. How the value of a smaller text is found is a
parameter, `operand`, which also may keep notes in a state `σ`; the layer itself never looks at
them. It says through `note` what it does. The direct resolver, the one that remembers operands and
the one that can be watched are all built from this one layer.

* `Step`: what a layer says that it does;
* `firstSides`: the first cut whose two sides have values that pass a choice;
* `locateAmong`: the first cut at an operator of the given calculations that one of them accepts;
* `attempt`: the whole layer.
-/

namespace LineScript

/-- A cut of an expression whose two sides have values. -/
structure Split where
  /-- Where the operator starts, in bytes from the start of the trimmed expression. -/
  position : Nat
  /-- The value of the left side. -/
  left : Value
  /-- The value of the right side. -/
  right : Value
deriving Repr, DecidableEq

namespace Resolve

open Scan (Cut cuts group?)

/-- What is done while the value of an expression is looked for. -/
inductive Step where
  /-- The value of a trimmed text is looked for. -/
  | began (text : List Char)
  /-- A trimmed text turned out to be a calculation, with its operator at this position. -/
  | split (calculation : Calculation) (position : Nat) (text : List Char)
deriving Repr, DecidableEq

variable {σ α : Type}

/-- How a candidate operand gets its value, if it has one. -/
abbrev Operand (σ : Type) := String → StateM σ (Option Value)

/-- Goes through the cuts in order and stops at the first whose two sides have values that `choose`
takes. The right side is only looked at if the left side has a value. -/
def firstSides (operand : Operand σ) (choose : Cut → Value → Value → Option α) :
    List Cut → StateM σ (Option α)
  | [] => pure none
  | cut :: rest => do
    match ← operand cut.before with
    | none => firstSides operand choose rest
    | some left =>
      match ← operand cut.after with
      | none => firstSides operand choose rest
      | some right =>
        match choose cut left right with
        | some found => pure (some found)
        | none => firstSides operand choose rest

/-- The first of the calculations that has the operator at the cut and accepts the two values. -/
def chooseAmong (members : List Calculation) (cut : Cut) (left right : Value) :
    Option (Calculation × Split) :=
  (members.find? fun c => c.operator = cut.operator && c.accepts left right).map
    (·, ⟨cut.position, left, right⟩)

/-- The cuts of a text at the operators of some calculations. -/
def cutsAmong (members : List Calculation) (text : List Char) : List Cut :=
  cuts (members.map Calculation.operator).eraseDups text

/-- The rightmost cut of a trimmed text at an operator of the given calculations whose two sides
have values that one of them accepts. -/
def locateAmong (operand : Operand σ) (members : List Calculation) (text : List Char) :
    StateM σ (Option (Calculation × Split)) :=
  firstSides operand (chooseAmong members) (cutsAmong members text)

/-- The calculation that a trimmed text is, at the first of the levels that has one. -/
def locateLevel (operand : Operand σ) (text : List Char) :
    List Precedence → StateM σ (Option (Calculation × Split))
  | [] => pure none
  | level :: rest => do
    match ← locateAmong operand level.members text with
    | some found => pure (some found)
    | none => locateLevel operand text rest

/-- The inside of a text in double quotes, if there is no further quote in it. -/
def quoted? : List Char → Option (List Char)
  | '"' :: rest =>
    if rest.getLast? = some '"' && !rest.dropLast.contains '"' then some rest.dropLast else none
  | _ => none

/-- The value of a literal. -/
def literal? (text : List Char) : Option Value :=
  match Number.parse? text with
  | some x => some (.number x)
  | none =>
    match quoted? text with
    | some inside => some (.text (String.ofList inside))
    | none => Value.booleanLiteral? text

/-- The value of a variable. -/
def variableValue (scope : Scope) (name : String) : Except Error Value :=
  match scope.lookup name with
  | some v => .ok v
  | none => .error (.undefinedVariable name)

/-- The negative of a number, or the opposite of a truth value, after a leading `-` or `!`. -/
def signed (operand : Operand σ) (text : List Char) : StateM σ (Except Error Value) := do
  match text with
  | '-' :: rest =>
    match ← operand (String.ofList rest) with
    | some v => return v.asNumber.map fun x => .number (-x)
    | none => return .error (.unresolvable (String.ofList text))
  | '!' :: rest =>
    match ← operand (String.ofList rest) with
    | some v => return v.asBoolean.map fun b => .boolean (!b)
    | none => return .error (.unresolvable (String.ofList text))
  | _ => return .error (.unresolvable (String.ofList text))

/-- One layer of resolution of a trimmed text. The inside of a group is handed to `inner` and not to
`operand`, so a group fails exactly as its inside does. -/
def attempt (scope : Scope) (note : Step → StateM σ Unit) (operand : Operand σ)
    (inner : List Char → StateM σ (Except Error Value)) (text : List Char) :
    StateM σ (Except Error Value) := do
  note (.began text)
  match literal? text with
  | some v => return .ok v
  | none =>
    if Text.isIdentifier text then return variableValue scope (String.ofList text)
    else match group? text with
      | some inside => inner inside
      | none =>
        match ← locateLevel operand text Precedence.all with
        | some (c, split) =>
          note (.split c split.position text)
          return c.apply split.left split.right
        | none => signed operand text

end Resolve

end LineScript
