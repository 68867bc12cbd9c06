import LineScript.Table
import LineScript.Text.Blank
import LineScript.Text.Split
import LineScript.Value

/-!
# Properties

A properties text has one `key = value` record a line; blank lines and lines that start with `#` are
passed over. The first `=` divides a record, both parts are trimmed, and a key that comes again
replaces the earlier value in its place. A line that is no record is reported and skipped, and the
others still count.
-/

namespace LineScript

/-- Records in the order in which their keys first came. -/
abbrev Properties := Table String

namespace Properties

/-- Why a line is no record. -/
inductive Fault where
  /-- There is no `=` in the line. -/
  | noSign (text : String)
  /-- Nothing stands before the `=`. -/
  | emptyKey
deriving Repr, DecidableEq

/-- The wording of a fault. -/
def Fault.message : Fault → String
  | .noSign text => "expected `key = value`, got `" ++ text ++ "`"
  | .emptyKey => "empty key"

/-- A line that was skipped. -/
structure BadLine where
  /-- Counted from one. -/
  number : Nat
  /-- What is wrong with it. -/
  fault : Fault
deriving Repr, DecidableEq

/-- The wording of a bad line. -/
def BadLine.message (l : BadLine) : String :=
  "line " ++ l.number.repr ++ ": " ++ l.fault.message

/-- A record as it is written. -/
def displayRecord (key value : String) : String :=
  key ++ " = " ++ value

/-- The key and the value of a trimmed line. -/
def record? (text : List Char) : Except Fault (String × String) :=
  match text.dropWhile (· != '=') with
  | [] => .error (.noSign (String.ofList text))
  | _ :: value =>
    let key := Text.trim (text.takeWhile (· != '='))
    if key.isEmpty then .error .emptyKey
    else .ok (String.ofList key, String.ofList (Text.trim value))

/-- Takes one trimmed line into account. -/
def addLine (found : Properties × List BadLine) (number : Nat) (text : List Char) :
    Properties × List BadLine :=
  if text.isEmpty || text.head? == some '#' then found
  else match record? text with
    | .ok (key, value) => (found.1.insert key value, found.2)
    | .error fault => (found.1, found.2 ++ [⟨number, fault⟩])

/-- The records of a text, and the lines that are none. A carriage return before a line feed is
blank, so it needs no attention of its own. -/
def parse (source : String) : Properties × List BadLine :=
  ((Text.splitWhere (· == '\n') source.toList).zipIdx 1).foldl
    (fun found (raw, number) => addLine found number (Text.trim raw)) (∅, [])

/-- The value of a key, or another value if there is none. -/
def getOr (p : Properties) (key backup : String) : String :=
  (p.find? key).getD backup

/-- The value of a key as a number, if it is one. -/
def number? (p : Properties) (key : String) : Option Float :=
  (p.find? key).bind fun value => Number.parse? value.toList

end Properties

end LineScript
