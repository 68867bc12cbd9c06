import LineScript.CommandLine.Log
import LineScript.Number.Literal
import LineScript.Pattern
import LineScript.Text.Alphanumeric
import LineScript.Text.Excerpt
import LineScript.Text.Split

/-!
# Which log lines are heard

A filter says down to which level each part of the program is heard. It is written as directives
with commas between them:

    warn                      every line, down to warnings
    parser=debug              lines of targets that start with `parser`
    parser                    the same, down to the last level
    parser[{line}]=info       only those of them that have the field `line`
    parser[request]=info      only those inside a span with the name `request`
    parser[{line=1.*}]=info   only those inside a span with such a value of its field `line`

Of the directives that cover a line the most specific one decides, and a line that none covers is
not heard. The longest target is the most specific; of two with one target, that with a field; of
two with fields, that whose field comes later in the order of texts; and at last the later one.

* `Directive.parse?`, `Filter.parse?`: the written form;
* `Directive.covers`, `Directive.outranks`: which directives count, and which of them decides;
* `Filter.allows`: a line is heard.
-/

namespace LineScript.CommandLine.Log

/-- Which lines of its targets a directive is about. -/
inductive Extent where
  /-- All of them. -/
  | all
  /-- Those with this field. -/
  | having (field : String)
  /-- Those logged inside some spans. No line is, since spans are never opened. -/
  | inSpans
deriving Repr, DecidableEq

/-- The extent has a line with these fields. -/
def Extent.covers (fields : List String) : Extent → Bool
  | all => true
  | having field => fields.contains field
  | inSpans => false

/-- The extent is the more specific one. -/
def Extent.outranks : Extent → Extent → Bool
  | having _, all => true
  | having field, having other => other < field
  | _, _ => false

/-- Down to which rank some lines are heard; zero silences them. -/
structure Directive where
  /-- The start of the targets that it counts for. -/
  target : String
  /-- Which lines of those targets it counts for. -/
  extent : Extent := .all
  /-- The greatest rank of a level that is heard. -/
  rank : Nat
deriving Repr, DecidableEq

namespace Directive

/-- The directive counts for a line. -/
def covers (d : Directive) (e : Entry) : Bool :=
  e.target.startsWith d.target && d.extent.covers e.fieldNames

/-- The directive is the more specific one. -/
def outranks (d other : Directive) : Bool :=
  other.target.length < d.target.length ||
    (other.target.length = d.target.length && d.extent.outranks other.extent)

end Directive

/-! ### The written form -/

/-- The rank that a number stands for. There may be a plus sign and leading zeros. -/
def rankNumber? (s : List Char) : Option Nat :=
  let digits := match s with
    | '+' :: rest => rest
    | s => s
  if digits.isEmpty || !digits.all Char.isDigit then none
  else
    let rank := Number.digitsValue digits
    if rank ≤ Level.trace.rank then some rank else none

/-- The rank of a level name in any case, or of a number, with `off` for none. -/
def rank? (s : List Char) : Option Nat :=
  let name := (String.ofList s).toUpper
  if name = "OFF" then some 0
  else match Level.all.find? (·.name = name) with
    | some level => some level.rank
    | none => rankNumber? s

/-- What a target may start with. Further on it may have any character. -/
def isTargetStart (c : Char) : Bool :=
  Text.isAlphanumeric c || c == '_' || c == ':' || c == '-'

/-- The value of a field is a number. -/
def isNumber (value : List Char) : Bool :=
  (Number.Literal.parse? value).isSome ||
    ["INF", "INFINITY", "NAN"].contains (String.ofList (Number.sign value).2).toUpper

/-- A field as it may be written: a name alone, or a name with a value after `=`, which is a number
or a pattern. What stands after a second `=` does not count. -/
def isField (field : List Char) : Bool :=
  match Text.splitWhere (· == '=') field with
  | _ :: value :: _ => isNumber value || Pattern.isReadable value
  | _ => true

/-- The text of a directive while it is read. -/
structure Source where
  /-- The text. -/
  text : String
  /-- The number of bytes of the text without the blanks at its ends. -/
  size : Nat
deriving Repr, DecidableEq

namespace Source

/-- The part of a text from one place to another. A place is known by what comes after it in the
text without the blanks at its ends; yet the part is taken from the text with those blanks, so with
blanks in front every part starts and ends too early. -/
def part (src : Source) (first last : List Char) : List Char :=
  (Text.excerpt src.text (src.size - Text.byteSize first) (src.size - Text.byteSize last)).toList

/-- The part of a text from a place to the end, with the blanks there. -/
def partFrom (src : Source) (first : List Char) : List Char :=
  (Text.excerpt src.text (src.size - Text.byteSize first) src.text.utf8ByteSize).toList

/-- Reads what follows an opening bracket: the name of a span, a field in braces, or both. The name
may be empty and the field may not. A field that has to have a value is only looked for in spans. -/
def bracketed? (src : Source) (s : List Char) : Option (Extent × List Char) :=
  let inName := fun c => c ≠ ']' && c ≠ '\x7b'
  let name := s.takeWhile inName
  match s.dropWhile inName with
  | ']' :: rest => some (.inSpans, rest)
  | _ :: start =>
    let stop := start.dropWhile (· ≠ '\x7d')
    let field := src.part start stop
    match stop with
    | _ :: ']' :: rest =>
      if field.isEmpty || !isField field then none
      else if name.isEmpty && !field.contains '=' then some (.having (String.ofList field), rest)
      else some (.inSpans, rest)
    | _ => none
  | [] => none

/-- Reads the end of a directive: nothing, or a level after `=`. An empty level is the last one. -/
def rank? (src : Source) : List Char → Option Nat
  | [] => some Level.trace.rank
  | '=' :: level =>
    if (src.partFrom level).isEmpty then some Level.trace.rank else Log.rank? (src.partFrom level)
  | _ => none

end Source

/-- Reads a directive. A word alone is a level, or else a target. -/
def Directive.parse? (s : List Char) : Option Directive :=
  let inTarget := fun c => c ≠ '=' && c ≠ '['
  let body := Text.trim s
  let src : Source := ⟨String.ofList s, Text.byteSize body⟩
  let afterTarget := body.dropWhile inTarget
  let target := String.ofList (src.part body afterTarget)
  if !body.head?.any fun c => c == '[' || isTargetStart c then none
  else match afterTarget with
    | [] =>
      match rank? s with
      | some rank => some { target := "", rank }
      | none => some { target := src.text, rank := Level.trace.rank }
    | '[' :: rest => do
      let (extent, rest) ← src.bracketed? rest
      let rank ← src.rank? rest
      some { target, extent, rank }
    | rest => (src.rank? rest).map fun rank => { target, rank }

/-- Directives, the later ones first. -/
abbrev Filter := List Directive

namespace Filter

/-- Hears one target down to a level. -/
def only (target : String) (level : Level) : Filter :=
  [{ target, rank := level.rank }]

/-- Reads a filter. Empty directives do not count. Commas always divide, also in brackets. -/
def parse? (s : String) : Option Filter :=
  (((Text.splitWhere (· == ',') s.toList).filter (!·.isEmpty)).mapM Directive.parse?).map
    List.reverse

/-- The most specific directive that covers a line. -/
def directive? (f : Filter) (e : Entry) : Option Directive :=
  (f.filter (·.covers e)).foldl
    (fun best d => if best.all d.outranks then some d else best) none

/-- The line is heard. -/
def allows (f : Filter) (e : Entry) : Bool :=
  (f.directive? e).any fun d => e.level.rank ≤ d.rank

/-- Some lines of this level may be heard. -/
def reaches (f : Filter) (level : Level) : Bool :=
  f.any fun d => level.rank ≤ d.rank

end Filter

end LineScript.CommandLine.Log
