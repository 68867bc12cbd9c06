/-!
# Doubles as whole multiples of the smallest one

Every finite double is a whole multiple of `2 ^ -1074`, the smallest positive double. Reading a
double as a sign and such a multiple, its number of *units*, turns each exact question about
doubles (which one is nearest, which decimal is shortest, what remains after division) into
arithmetic on natural numbers.

The *magnitude* of a double is its bit pattern without the sign bit. Magnitudes are ordered as the
absolute values they stand for, and a carry out of the fraction moves to the next exponent, so
rounding can be done on them directly.
-/

namespace LineScript.Number

/-- The number of units in one. -/
def unitsInOne : Nat :=
  1 <<< 1074

/-- The magnitude of the infinities. Greater magnitudes are not numbers. -/
def infiniteMagnitude : Nat :=
  0x7FF <<< 52

/-- The number of units that a finite magnitude stands for. An exponent field of zero has no
implicit leading bit and shares its scale with the field one. -/
def units (magnitude : Nat) : Nat :=
  let exponent := magnitude >>> 52
  let fraction := magnitude % 1 <<< 52
  if exponent = 0 then fraction else (1 <<< 52 + fraction) <<< (exponent - 1)

/-- What a double stands for. -/
inductive Parts where
  /-- Not a number. -/
  | nan
  /-- One of the two infinities. -/
  | infinite (negative : Bool)
  /-- A finite double, of a magnitude below `infiniteMagnitude`. The two zeros differ in sign. -/
  | finite (negative : Bool) (magnitude : Nat)
deriving Repr, DecidableEq

/-- Takes a double apart. -/
def parts (x : Float) : Parts :=
  let bits := x.toBits.toNat
  let negative := 1 <<< 63 ≤ bits
  let magnitude := bits % 1 <<< 63
  if infiniteMagnitude < magnitude then .nan
  else if magnitude = infiniteMagnitude then .infinite negative
  else .finite negative magnitude

/-- The double with the given sign and magnitude. -/
def ofMagnitude (negative : Bool) (magnitude : Nat) : Float :=
  Float.ofBits (UInt64.ofNat (if negative then 1 <<< 63 + magnitude else magnitude))

/-- The double that is not a number. -/
def nan : Float :=
  Float.ofBits 0x7FF8000000000000

end LineScript.Number
