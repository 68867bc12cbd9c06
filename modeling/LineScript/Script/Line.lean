import LineScript.Scan.Cut
import LineScript.Text.Blank
import LineScript.Text.Split

/-!
# Lines of a script

A script is read line by line. A line ends at a line feed, a carriage return, or the pair of both;
lines are numbered from one as they stand in the source, then trimmed, and blank lines and comments
are passed over.

What a line is depends on the line alone. An assignment sign decides first, so `end = 3` assigns;
otherwise the leading word does. Only a bare `else` or `end` is a keyword, while `if` may have a
parenthesis right behind it.

* `lines`: the lines of a source that hold a statement;
* `assignment?`: the two parts of an assignment;
* `form`: what a line is.
-/

namespace LineScript.Script

/-- A trimmed line that is neither blank nor a comment, with its number in the source. -/
structure Line where
  /-- Counted from one. -/
  number : Nat
  /-- The trimmed text. -/
  text : List Char
deriving Repr, DecidableEq

/-- Writes every pair of carriage return and line feed as one line feed. -/
def unifyEndings : List Char → List Char
  | '\r' :: '\n' :: rest => '\n' :: unifyEndings rest
  | c :: rest => c :: unifyEndings rest
  | [] => []

/-- A character that ends a line. -/
def isLineEnd (c : Char) : Bool :=
  c == '\n' || c == '\r'

/-- The line says something: it is neither blank nor a comment. -/
def Line.isStatement (l : Line) : Bool :=
  !l.text.isEmpty && l.text.head? != some '#'

/-- Trims and numbers lines, starting from the given number, and drops those that say nothing. -/
def number (first : Nat) (raw : List (List Char)) : List Line :=
  ((raw.zipIdx first).map fun (text, n) => ⟨n, Text.trim text⟩).filter Line.isStatement

/-- The lines of a source that hold a statement. -/
def lines (source : List Char) : List Line :=
  number 1 (Text.splitWhere isLineEnd (unifyEndings source))

/-- The name and the expression of an assignment: the leftmost lone `=` stands between an identifier
and an expression that is not blank. -/
def assignment? (text : List Char) : Option (List Char × List Char) :=
  match (Scan.cuts [['=']] text).getLast? with
  | none => none
  | some cut =>
    let name := Text.trim cut.before.toList
    let expression := Text.trim cut.after.toList
    if Text.isIdentifier name && !expression.isEmpty then some (name, expression) else none

/-- What a line is. -/
inductive Form where
  /-- An assignment of an expression to a name. -/
  | assignment (name expression : List Char)
  /-- The start of an `if` block. The condition may be missing. -/
  | opening (condition : List Char)
  /-- A bare `else`. -/
  | alternative
  /-- A bare `end`. -/
  | closing
  /-- Anything else: a command. -/
  | command
deriving Repr, DecidableEq

/-- What a line that is no assignment is, by its leading word. -/
def keywordForm (text : List Char) : Form :=
  let (word, rest) := Text.leadingWord text
  let rest := Text.trim rest
  if word = "if".toList then .opening rest
  else if word = "else".toList && rest.isEmpty then .alternative
  else if word = "end".toList && rest.isEmpty then .closing
  else .command

/-- What a trimmed line is. -/
def form (text : List Char) : Form :=
  match assignment? text with
  | some (name, expression) => .assignment name expression
  | none => keywordForm text

end LineScript.Script
