import LineScript.Number.Nearest

/-!
# Remainder of doubles

The remainder of a division that is cut off toward zero. It is exact: both operands are whole
multiples of one unit, so the remainder of their unit counts is the answer, and it takes the sign of
the left operand.
-/

namespace LineScript.Number

/-- What is left of `x` after taking away `y` as often as fits: `x - y · n` for the whole number `n`
that is `x / y` cut off toward zero. There is no remainder of an infinity or by zero, and dividing
by an infinity leaves the left operand. -/
def remainder (x y : Float) : Float :=
  match parts x, parts y with
  | .finite negative left, .finite _ right =>
    if right = 0 then nan else ofUnits negative (units left % units right)
  | .finite _ _, .infinite _ => x
  | _, _ => nan

end LineScript.Number
