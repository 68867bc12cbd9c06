import LineScript.Scan.Nesting
import LineScript.Text.Excerpt

/-!
# Cutting a text at an operator

There are no tokens: an operator is found by looking for its characters. A *cut* of a text at an
operator is a way of writing the text as `before ++ operator ++ after` in which

* neither side is empty, since an operator at an end of the text is a sign or dangles;
* the operator stands exposed, outside quotes and parentheses;
* the operator is not a part of a longer one: `<` does not cut `a<=b`.

`cuts` lists all cuts of a text at any of several operators, the rightmost first, which is the order
that makes every operator associate to the left.
-/

namespace LineScript.Scan

/-- One way of cutting a text at an operator. All cuts of a text share the text, and the two sides
are taken from it when they are asked for. -/
structure Cut where
  /-- The text that is cut. -/
  text : String
  /-- Where the operator starts, in bytes from the start of the text. -/
  position : Nat
  /-- The operator at the cut. -/
  operator : List Char
deriving Repr, DecidableEq

namespace Cut

/-- What stands before the operator. -/
def before (cut : Cut) : String :=
  Text.excerpt cut.text 0 cut.position

/-- What stands after the operator. -/
def after (cut : Cut) : String :=
  Text.excerpt cut.text (cut.position + Text.byteSize cut.operator) cut.text.utf8ByteSize

end Cut

/-- The operator would be a part of a longer one, given the characters on its two sides. Only
operators made of `=`, `!`, `<`, `>`, `&` and `|` can be. -/
def clashes (operator : List Char) (previous : Option Char) (following : Char) : Bool :=
  match operator with
  | ['<'] | ['>'] => following == '='
  | ['=', '='] | ['!', '='] | ['<', '='] | ['>', '='] | ['='] =>
    following == '=' || previous ∈ [some '=', some '!', some '<', some '>']
  | ['&', '&'] => following == '&' || previous == some '&'
  | ['|', '|'] => following == '|' || previous == some '|'
  | _ => false

/-- The operator is met right here: it starts what is to come, something stands on either side of
it, and it is not a part of a longer one. -/
def meets (previous : Option Char) (coming operator : List Char) : Bool :=
  operator.isPrefixOf coming && !operator.isEmpty && previous.isSome &&
    match coming.drop operator.length with
    | [] => false
    | following :: _ => !clashes operator previous following

/-- All cuts at one position. -/
def cutsHere (operators : List (List Char)) (text : String) (n : Nesting) (position : Nat)
    (previous : Option Char) (coming : List Char) : List Cut :=
  if coming.head?.any n.exposes then
    (operators.filter (meets previous coming)).map (⟨text, position, ·⟩)
  else []

/-- Walks on through a text, from a position and the character before it, and puts the cuts it meets
in front of those already found. -/
def cutsFrom (operators : List (List Char)) (text : String) (n : Nesting) (position : Nat)
    (previous : Option Char) : List Char → List Cut → List Cut
  | [], found => found
  | c :: rest, found =>
    cutsFrom operators text (n.next c) (position + c.utf8Size) (some c) rest
      (cutsHere operators text n position previous (c :: rest) ++ found)

/-- All cuts of a text at any of the operators, the rightmost first. -/
def cuts (operators : List (List Char)) (s : List Char) : List Cut :=
  cutsFrom operators (String.ofList s) {} 0 none s []

end LineScript.Scan
