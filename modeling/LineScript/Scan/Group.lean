import LineScript.Scan.Nesting
import LineScript.Text.Split

/-!
# Groups and separated pieces

* `group?`: the inside of a text that is one parenthesised group. In `(1)+(2)` the first parenthesis
  closes before the end, so the whole is not a group.
* `pieces`: the pieces of a text between exposed occurrences of a separator.
-/

namespace LineScript.Scan

/-- The parenthesis that is open closes at the very end of the text. -/
def closesAtEnd (n : Nesting) : List Char → Bool
  | [] => false
  | c :: rest =>
    if c == ')' && !n.quoted && (n.next c).depth == 0 then rest.isEmpty
    else closesAtEnd (n.next c) rest

/-- The inside of a text that is enclosed by one pair of parentheses. -/
def group? : List Char → Option (List Char)
  | '(' :: rest => if closesAtEnd { depth := 1 } rest then some rest.dropLast else none
  | _ => none

/-- One pair of parentheses encloses the whole text. -/
def isGroup (s : List Char) : Bool :=
  (group? s).isSome

/-- The pieces of a text whose start has the given nesting. -/
def piecesFrom (separator : Char) (n : Nesting) : List Char → List (List Char)
  | [] => [[]]
  | c :: rest =>
    if c == separator && n.exposes c then [] :: piecesFrom separator (n.next c) rest
    else Text.consFirst c (piecesFrom separator (n.next c) rest)

/-- The pieces of a text between exposed separators. There is always at least one. -/
def pieces (separator : Char) (s : List Char) : List (List Char) :=
  piecesFrom separator {} s

end LineScript.Scan
