import LineScript.Error
import LineScript.Number.Decimal
import LineScript.Number.Literal
import LineScript.Text.Blank

/-!
# Values

A value is a number, a text or a boolean. Values are never converted into one another: asking a text
for a number fails with the two kinds concerned, and it is for the caller to decide what that means.

* `Value.display`: the written form, the same in messages, concatenations and logs;
* `Value.asNumber`, `Value.asText`, `Value.asBoolean`: the content, if it is of that kind;
* `Value.same`: the equality of the language;
* `Value.ofSetting`: the value of a raw setting, such as one from a properties file.
-/

namespace LineScript

/-- What an expression stands for. -/
inductive Value where
  | number (x : Float)
  | text (s : String)
  | boolean (b : Bool)
deriving Repr, DecidableEq

namespace Value

/-- The kind of the value. -/
def kind : Value → Kind
  | number _ => .number
  | text _ => .text
  | boolean _ => .boolean

/-- The written form. A text stands for itself, without quotes. -/
def display : Value → String
  | number x => String.ofList (Number.display x)
  | text s => s
  | boolean b => if b then "true" else "false"

/-- The number, if the value is one. -/
def asNumber : Value → Except Error Float
  | number x => .ok x
  | v => .error (.typeMismatch .number v.kind)

/-- The text, if the value is one. -/
def asText : Value → Except Error String
  | text s => .ok s
  | v => .error (.typeMismatch .text v.kind)

/-- The truth value, if the value is one. -/
def asBoolean : Value → Except Error Bool
  | boolean b => .ok b
  | v => .error (.typeMismatch .boolean v.kind)

/-- Equality as the language sees it: values of different kinds differ, and numbers are compared as
numbers, so the two zeros are equal and what is not a number differs from itself. -/
def same : Value → Value → Bool
  | number x, number y => x == y
  | text s, text t => s == t
  | boolean a, boolean b => a == b
  | _, _ => false

/-- The boolean that a text spells. -/
def booleanLiteral? (s : List Char) : Option Value :=
  if s = "true".toList then some (boolean true)
  else if s = "false".toList then some (boolean false)
  else none

/-- The value of a raw setting: a number or a boolean if its trimmed text spells one, and otherwise
that text. -/
def ofSetting (raw : String) : Value :=
  let s := Text.trim raw.toList
  match Number.parse? s with
  | some x => number x
  | none => (booleanLiteral? s).getD (text (String.ofList s))

end Value

end LineScript
