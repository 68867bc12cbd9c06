/-!
# How deep a pattern is nested

A pattern may be nested only so deep. Reading a part of a pattern therefore gives its depth, and
nothing else of it is kept: patterns are never matched, since they are about spans and no span is
ever opened. All that counts is whether a pattern can be read.

* `depthOfAll`: parts side by side are one level deeper than the deepest of them;
* `maxDepth`: how deep a pattern may be nested.
-/

namespace LineScript.Pattern

/-- How deep a pattern may be nested. -/
def maxDepth : Nat :=
  250

/-- The depth of several parts side by side. A part that stands alone is no deeper for that. -/
def depthOfAll : List Nat → Nat
  | [] => 0
  | [depth] => depth
  | depths => 1 + depths.foldl max 0

@[simp]
theorem depthOfAll_nil : depthOfAll [] = 0 := rfl

@[simp]
theorem depthOfAll_singleton (depth : Nat) : depthOfAll [depth] = depth := rfl

end LineScript.Pattern
