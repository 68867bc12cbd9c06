import LineScript.Number.Binary64

/-!
# The double nearest to a fraction

A fraction is rounded to the nearest double; a fraction halfway between two doubles goes to the one
with the even magnitude, and what lies beyond the greatest double by half a unit in its last place
or more goes to infinity.

The fraction is first measured in units of `2 ^ -1074`. If the measure is below `2 ^ 53` its rounded
value is the magnitude; otherwise the measure is divided by the power of two that brings it to
fifty-three bits, and each such doubling moves the magnitude up by one exponent, `2 ^ 52`. A
rounding that carries into a fifty-fourth bit needs no correction, because the magnitude then counts
over into the next exponent by itself.
-/

namespace LineScript.Number

/-- The whole number nearest to `num / den`; of two that are equally near, the even one. -/
def divNearestEven (num den : Nat) : Nat :=
  let quotient := num / den
  let twice := 2 * (num % den)
  if twice < den then quotient
  else if den < twice then quotient + 1
  else quotient + quotient % 2

/-- The magnitude of the double nearest to `num / den`, for a positive `den`. -/
def nearestMagnitude (num den : Nat) : Nat :=
  let scaled := num * unitsInOne
  let doublings := (scaled / den).log2 - 52
  min (doublings <<< 52 + divNearestEven scaled (den <<< doublings)) infiniteMagnitude

/-- The double nearest to `num / den`, with the given sign. -/
def nearest (negative : Bool) (num den : Nat) : Float :=
  ofMagnitude negative (nearestMagnitude num den)

/-- The double that is exactly so many units, or the nearest one if there is none. -/
def ofUnits (negative : Bool) (count : Nat) : Float :=
  nearest negative count unitsInOne

end LineScript.Number
