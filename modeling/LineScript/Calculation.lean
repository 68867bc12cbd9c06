import LineScript.Number.Remainder
import LineScript.Value

/-!
# Calculations

A calculation is a binary operation of the language. Several calculations may share one operator:
`+` adds two numbers, and joins two texts or a text and anything else. Which one is meant is decided
by the operands, through `Calculation.accepts`, once both have a value.

Calculations fall into five levels of precedence. Within a level all operators bind alike, so the
members of a level are always searched together.
-/

namespace LineScript

/-- How strongly a calculation binds, the weakest first. -/
inductive Precedence where
  | or
  | and
  | comparison
  | additive
  | multiplicative
deriving Repr, DecidableEq

/-- The binary operations. -/
inductive Calculation where
  | logicalOr
  | logicalAnd
  | equal
  | notEqual
  | less
  | lessEqual
  | greater
  | greaterEqual
  | addition
  | concatenation
  | subtraction
  | multiplication
  | division
  | modulo
deriving Repr, DecidableEq

/-- All levels, the weakest first. -/
def Precedence.all : List Precedence :=
  [.or, .and, .comparison, .additive, .multiplicative]

namespace Calculation

/-- All calculations, level by level and the weakest level first. -/
def all : List Calculation :=
  [.logicalOr, .logicalAnd, .equal, .notEqual, .less, .lessEqual, .greater, .greaterEqual,
    .addition, .concatenation, .subtraction, .multiplication, .division, .modulo]

/-- The text that stands between the operands. -/
def operator : Calculation → List Char
  | logicalOr => ['|', '|']
  | logicalAnd => ['&', '&']
  | equal => ['=', '=']
  | notEqual => ['!', '=']
  | less => ['<']
  | lessEqual => ['<', '=']
  | greater => ['>']
  | greaterEqual => ['>', '=']
  | addition => ['+']
  | concatenation => ['+']
  | subtraction => ['-']
  | multiplication => ['*']
  | division => ['/']
  | modulo => ['%']

/-- The level of a calculation. -/
def precedence : Calculation → Precedence
  | logicalOr => .or
  | logicalAnd => .and
  | equal | notEqual | less | lessEqual | greater | greaterEqual => .comparison
  | addition | concatenation | subtraction => .additive
  | multiplication | division | modulo => .multiplicative

/-- The calculation is meant for operands of these kinds. -/
def accepts (c : Calculation) (left right : Value) : Bool :=
  match c with
  | logicalOr | logicalAnd => left.kind = .boolean && right.kind = .boolean
  | equal | notEqual => true
  | concatenation => left.kind = .text || right.kind = .text
  | _ => left.kind = .number && right.kind = .number

/-- Combines two truth values. The left operand is asked first. -/
def combine (f : Bool → Bool → Bool) (left right : Value) : Except Error Value := do
  let a ← left.asBoolean
  let b ← right.asBoolean
  return .boolean (f a b)

/-- Compares two numbers. The left operand is asked first. -/
def compare (f : Float → Float → Bool) (left right : Value) : Except Error Value := do
  let x ← left.asNumber
  let y ← right.asNumber
  return .boolean (f x y)

/-- Computes with two numbers. The left operand is asked first. -/
def compute (f : Float → Float → Float) (left right : Value) : Except Error Value := do
  let x ← left.asNumber
  let y ← right.asNumber
  return .number (f x y)

/-- The result of a calculation on two values. It fails exactly when the operands are of a kind that
the calculation does not accept. Division by zero is no failure: it yields an infinity, or no
number. -/
def apply (c : Calculation) (left right : Value) : Except Error Value :=
  match c with
  | logicalOr => combine (· || ·) left right
  | logicalAnd => combine (· && ·) left right
  | equal => .ok (.boolean (left.same right))
  | notEqual => .ok (.boolean (!left.same right))
  | less => compare (fun x y => decide (x < y)) left right
  | lessEqual => compare (fun x y => decide (x ≤ y)) left right
  | greater => compare (fun x y => decide (y < x)) left right
  | greaterEqual => compare (fun x y => decide (y ≤ x)) left right
  | addition => compute (· + ·) left right
  | concatenation =>
    if concatenation.accepts left right then .ok (.text (left.display ++ right.display))
    else .error (.typeMismatch .text left.kind)
  | subtraction => compute (· - ·) left right
  | multiplication => compute (· * ·) left right
  | division => compute (· / ·) left right
  | modulo => compute Number.remainder left right

end Calculation

/-- The calculations of a level. -/
def Precedence.members (p : Precedence) : List Calculation :=
  Calculation.all.filter (·.precedence = p)

end LineScript
