/-!
# Ranges of code points

A property of the Unicode character database is a set of code points. It is written out as a list of
ranges, so that a table can be compared with the database line by line.
-/

namespace LineScript.Text

/-- A set of code points, as ranges with both ends included and in order. -/
abbrev Ranges := List (Nat × Nat)

/-- The character is in one of the ranges. -/
def Ranges.covers (ranges : Ranges) (c : Char) : Bool :=
  ranges.any fun (first, last) => first ≤ c.toNat && c.toNat ≤ last

end LineScript.Text
