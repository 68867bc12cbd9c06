/-!
# Quotes and brackets

A character of a text is *exposed* if it stands outside double quotes and outside parentheses. Which
characters are exposed is decided by one walk from the left that keeps two things: whether a quote
is open, and how many parentheses are. Inside quotes parentheses do not count. A closing parenthesis
with none open is passed over, so the depth never falls below zero.

Operators, separators and assignment signs are looked for among exposed characters only.
-/

namespace LineScript.Scan

/-- What is open at a position of a text. -/
structure Nesting where
  /-- A double quote is open. -/
  quoted : Bool := false
  /-- How many parentheses are open. -/
  depth : Nat := 0
deriving Repr, DecidableEq

namespace Nesting

/-- Passes one character. -/
def next (n : Nesting) (c : Char) : Nesting :=
  if c = '"' then { n with quoted := !n.quoted }
  else if n.quoted then n
  else if c = '(' then { n with depth := n.depth + 1 }
  else if c = ')' then { n with depth := n.depth - 1 }
  else n

/-- What is open after a whole text. -/
def after (n : Nesting) (s : List Char) : Nesting :=
  s.foldl next n

/-- Nothing is open. -/
def isClosed (n : Nesting) : Bool :=
  !n.quoted && n.depth == 0

/-- The character, standing at this position, is exposed. Quotes and parentheses never are. -/
def exposes (n : Nesting) (c : Char) : Bool :=
  n.isClosed && c != '"' && c != '(' && c != ')'

@[simp]
theorem after_nil (n : Nesting) : n.after [] = n := rfl

@[simp]
theorem after_cons (n : Nesting) (c : Char) (s : List Char) :
    n.after (c :: s) = (n.next c).after s := rfl

@[simp]
theorem after_append (n : Nesting) (s t : List Char) : n.after (s ++ t) = (n.after s).after t :=
  List.foldl_append

/-- Passing an exposed character opens and closes nothing. -/
theorem next_of_exposes {n : Nesting} {c : Char} (h : n.exposes c) : n.next c = n := by
  simp only [exposes, Bool.and_eq_true, bne_iff_ne] at h
  simp [next, h.1.1.2, h.1.2, h.2]

end Nesting

end LineScript.Scan
