import LineScript.Number.Nearest

/-!
# Number literals

A literal is an optional sign, then digits with an optional point and more digits, or a point
followed by digits, then an optional exponent: `12`, `-0.5`, `.25`, `5.`, `1e-3`, `+.5E+07`. Nothing
may stand before or after it. Words such as `inf` are no literals, so they stay free as names.

* `Literal.parse?`: reads a whole text as a literal;
* `Literal.value`: the double nearest to the rational that the literal denotes.
-/

namespace LineScript.Number

/-- A decimal literal: `±coefficient · 10 ^ exponent`. -/
structure Literal where
  /-- The literal starts with a minus sign. -/
  negative : Bool
  /-- All digits before the exponent, read as one whole number. -/
  coefficient : Nat
  /-- How many digits the coefficient was written with, leading zeros included. -/
  width : Nat
  /-- The power of ten that scales the coefficient. -/
  exponent : Int
deriving Repr, DecidableEq

/-- The whole number that a run of decimal digits spells. -/
def digitsValue (digits : List Char) : Nat :=
  digits.foldl (fun value c => 10 * value + (c.toNat - '0'.toNat)) 0

/-- A leading sign, `true` for minus, and what follows it. -/
def sign : List Char → Bool × List Char
  | '-' :: rest => (true, rest)
  | '+' :: rest => (false, rest)
  | s => (false, s)

/-- Reads a whole text as an exponent: nothing, or `e` or `E` with an optional sign and digits. -/
def exponentPart? : List Char → Option Int
  | [] => some 0
  | c :: rest =>
    let (negative, digits) := sign rest
    if (c == 'e' || c == 'E') && !digits.isEmpty && digits.all Char.isDigit then
      some (if negative then -(digitsValue digits : Int) else digitsValue digits)
    else none

/-- Digits, then a point with further digits if there is one: the digits before the point, those
after it, and what follows. -/
def mantissa (s : List Char) : List Char × List Char × List Char :=
  let whole := s.takeWhile Char.isDigit
  match s.dropWhile Char.isDigit with
  | '.' :: rest => (whole, rest.takeWhile Char.isDigit, rest.dropWhile Char.isDigit)
  | rest => (whole, [], rest)

/-- Reads a whole text as a number literal. At least one digit has to stand next to the point. -/
def Literal.parse? (s : List Char) : Option Literal :=
  let (negative, unsigned) := sign s
  let (whole, fraction, rest) := mantissa unsigned
  let digits := whole ++ fraction
  if digits.isEmpty then none
  else (exponentPart? rest).map fun exponent =>
    { negative
      coefficient := digitsValue digits
      width := digits.length
      exponent := exponent - fraction.length }

/-- The double nearest to the literal.

A coefficient of `width` digits is below `10 ^ width`, so a literal at or below `10 ^ -324` is zero
without further work, and one with an exponent of 309 or more is infinite unless it is zero. What is
left has an exponent of moderate size and is rounded exactly. -/
def Literal.value (l : Literal) : Float :=
  if l.coefficient = 0 || l.exponent + l.width ≤ -324 then ofMagnitude l.negative 0
  else if 309 ≤ l.exponent then ofMagnitude l.negative infiniteMagnitude
  else if 0 ≤ l.exponent then nearest l.negative (l.coefficient * Nat.pow 10 l.exponent.toNat) 1
  else nearest l.negative l.coefficient (Nat.pow 10 (-l.exponent).toNat)

/-- Reads a whole text as a number. -/
def parse? (s : List Char) : Option Float :=
  (Literal.parse? s).map Literal.value

end LineScript.Number
