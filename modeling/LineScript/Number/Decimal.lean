import LineScript.Number.Nearest

/-!
# Writing a double with the fewest digits

The written form of a double has as few digits as still read back to the same double. For one digit,
two digits and so on, the two decimals of that many digits next to the double are tried; the first
count at which one of them reads back wins, and if both do the nearer is taken.

No exponent is ever written: the decimal is laid out with its point in place, however many zeros
that takes.

* `Decimal`: a natural number scaled by a power of ten;
* `shortest`: the decimal that is written for a magnitude;
* `Decimal.positional`: its text without an exponent;
* `display`: the text of a double.
-/

namespace LineScript.Number

/-- The decimal `coefficient · 10 ^ exponent`. -/
structure Decimal where
  /-- The digits as one whole number. -/
  coefficient : Nat
  /-- The power of ten that scales them. -/
  exponent : Int
deriving Repr, DecidableEq

namespace Decimal

/-- The magnitude of the double that the decimal reads as. -/
def magnitude (d : Decimal) : Nat :=
  if 0 ≤ d.exponent then nearestMagnitude (d.coefficient * Nat.pow 10 d.exponent.toNat) 1
  else nearestMagnitude d.coefficient (Nat.pow 10 (-d.exponent).toNat)

/-- The same decimal without zeros at the end of its coefficient. -/
def normalize (d : Decimal) : Decimal :=
  let zeros := ((Nat.toDigits 10 d.coefficient).reverse.takeWhile (· == '0')).length
  if d.coefficient = 0 then d
  else ⟨d.coefficient / Nat.pow 10 zeros, d.exponent + zeros⟩

/-- The digits with the point in place: zeros follow up to the point, or stand between a leading
`0.` and the first digit. -/
def positional (d : Decimal) : List Char :=
  let digits := Nat.toDigits 10 d.coefficient
  if 0 ≤ d.exponent then digits ++ List.replicate d.exponent.toNat '0'
  else
    let places := (-d.exponent).toNat
    if places < digits.length then
      digits.take (digits.length - places) ++ '.' :: digits.drop (digits.length - places)
    else '0' :: '.' :: (List.replicate (places - digits.length) '0' ++ digits)

end Decimal

/-- The greatest `e` with `10 ^ e` at most the value of so many units, for at least one unit. The
smallest double is above `10 ^ -324`, so scaling by `10 ^ 324` leaves a whole part to count. -/
def decimalExponent (count : Nat) : Int :=
  ((count * Nat.pow 10 324 / unitsInOne).repr.length : Int) - 325

/-- The neighbours of `count` units among the multiples of `10 ^ exponent`, the nearer one first. A
value halfway counts as nearer to the one above. -/
def neighbours (count : Nat) (exponent : Int) : List Decimal :=
  let num := count * Nat.pow 10 (-exponent).toNat
  let den := unitsInOne * Nat.pow 10 exponent.toNat
  let lower : Decimal := ⟨num / den, exponent⟩
  let upper : Decimal := ⟨num / den + 1, exponent⟩
  if 2 * (num % den) < den then [lower, upper] else [upper, lower]

/-- The decimal with the given number of digits that reads as the magnitude and is nearest to it, if
there is one. -/
def withDigits? (magnitude digits : Nat) : Option Decimal :=
  let count := units magnitude
  (neighbours count (decimalExponent count + 1 - digits)).find? fun d => d.magnitude = magnitude

/-- All digits of a finite magnitude: a unit is `5 ^ 1074 · 10 ^ -1074`. -/
def exactDecimal (magnitude : Nat) : Decimal :=
  ⟨units magnitude * Nat.pow 5 1074, -1074⟩

/-- The decimal with the fewest digits that reads back. Seventeen digits always suffice; the exact
expansion, which reads back by itself, stands behind them so that no argument about digit counts is
needed to see that the result is right. -/
def shortest (magnitude : Nat) : Decimal :=
  (((List.range' 1 17).findSome? (withDigits? magnitude)).getD (exactDecimal magnitude)).normalize

/-- The text of a finite magnitude: a whole number below `10 ^ 15` has one decimal place, any other
has the fewest digits that read back. -/
def displayMagnitude (magnitude : Nat) : List Char :=
  let count := units magnitude
  if count % unitsInOne = 0 && count < Nat.pow 10 15 * unitsInOne then
    Nat.toDigits 10 (count / unitsInOne) ++ ['.', '0']
  else (shortest magnitude).positional

/-- The text of a double. Zero keeps its sign, and what is not a number has none. -/
def display (x : Float) : List Char :=
  match parts x with
  | .nan => "NaN".toList
  | .infinite negative => (if negative then "-inf" else "inf").toList
  | .finite negative magnitude =>
    if negative then '-' :: displayMagnitude magnitude else displayMagnitude magnitude

end LineScript.Number
