import LineScript.Resolve.Search
import Std.Data.HashMap

/-!
# What is noted during a resolution

While splits are tried, failures of operands are not failures of the expression: another split may
still succeed. Two things are worth keeping all the same.

* The first variable that turned out to have no binding. If the whole expression has no value, that
  name says more than the text does.
* The outcome of every operand already tried. The same operand comes up in many splits, and without
  this a chain such as `1+1+1+…+` takes time exponential in its length.

A `Notebook` says how both are kept. `Notebook.plain` keeps only the first, and `Notebook.memo`
keeps both; the two lead to the same answers, so only the time differs. `Notebook.diary` keeps what
`memo` does and writes down every step besides. An operand that is remembered takes no steps.
-/

namespace LineScript.Resolve

/-- How notes of type `σ` are kept. -/
structure Notebook (σ : Type) where
  /-- The notes at the start. -/
  start : σ
  /-- The outcome of a trimmed operand, if it was noted. -/
  remembered : String → σ → Option (Option Value)
  /-- Notes the outcome of a trimmed operand. -/
  record : String → Except Error Value → σ → σ
  /-- The first variable found to be undefined. -/
  missing : σ → Option String
  /-- Notes a step. -/
  note : Step → σ → σ := fun _ notes => notes

/-- The name of the variable whose absence is the outcome. -/
def undefinedName? : Except Error Value → Option String
  | .error (.undefinedVariable name) => some name
  | _ => none

/-- Keeps the first undefined variable and nothing else. -/
def Notebook.plain : Notebook (Option String) where
  start := none
  remembered _ _ := none
  record _ outcome missing := missing.or (undefinedName? outcome)
  missing := id

/-- Operands with their outcomes, and the first undefined variable. -/
structure Memo where
  /-- Outcomes by trimmed text. -/
  known : Std.HashMap String (Option Value) := {}
  /-- The first variable found to be undefined. -/
  missing : Option String := none

/-- Keeps the first undefined variable and the outcome of every operand. -/
def Notebook.memo : Notebook Memo where
  start := {}
  remembered text notes := notes.known[text]?
  record text outcome notes :=
    { known := notes.known.insert text outcome.toOption
      missing := notes.missing.or (undefinedName? outcome) }
  missing := Memo.missing

/-- What is remembered, and what was done. -/
structure Diary where
  /-- Operands and the first undefined variable. -/
  memo : Memo := {}
  /-- The steps so far, the latest first. -/
  steps : List Step := []

/-- Keeps what `Notebook.memo` does, and every step. -/
def Notebook.diary : Notebook Diary where
  start := {}
  remembered text diary := memo.remembered text diary.memo
  record text outcome diary := { diary with memo := memo.record text outcome diary.memo }
  missing diary := diary.memo.missing
  note step diary := { diary with steps := step :: diary.steps }

variable {σ : Type}

/-- The value of a candidate operand: the noted one if there is one, and otherwise what `resolve`
finds, which is then noted. -/
def operandWith (book : Notebook σ) (resolve : List Char → StateM σ (Except Error Value)) :
    Operand σ := fun candidate => do
  let text := Text.trimmed candidate
  match book.remembered text (← get) with
  | some known => return known
  | none =>
    let outcome ← resolve text.toList
    modify (book.record text outcome)
    return outcome.toOption

/-- The value of a text, found with at most so many nested layers. -/
def resolveWithin (book : Notebook σ) (scope : Scope) :
    Nat → List Char → StateM σ (Except Error Value)
  | 0, _ => return .error (.unresolvable "")
  | budget + 1, text =>
    attempt scope (fun step => modify (book.note step))
      (operandWith book (resolveWithin book scope budget))
      (resolveWithin book scope budget) (Text.trim text)

/-- Layers enough for a text: every layer works on strictly shorter texts. -/
def budgetFor (text : List Char) : Nat :=
  text.length + 1

/-- The operands of a text, resolved within its budget. -/
def operandFor (book : Notebook σ) (scope : Scope) (text : List Char) : Operand σ :=
  operandWith book (resolveWithin book scope (budgetFor text))

/-- The value of a text. If it has none, and no reason but that nothing fits, the first variable
found to be undefined is the reason given. -/
def resolveWith (book : Notebook σ) (scope : Scope) (text : List Char) : Except Error Value :=
  let (outcome, notes) := (resolveWithin book scope (budgetFor text) text).run book.start
  match outcome, book.missing notes with
  | .error (.unresolvable _), some name => .error (.undefinedVariable name)
  | outcome, _ => outcome

/-- The steps that lead to the value of a text, or to the answer that it has none, in order. -/
def stepsOf (scope : Scope) (text : List Char) : List Step :=
  let diary := ((resolveWithin .diary scope (budgetFor text) text).run Notebook.diary.start).2
  diary.steps.reverse

/-- The split of a text by one of the given calculations. -/
def locateWith (book : Notebook σ) (scope : Scope) (members : List Calculation)
    (text : List Char) : Option (Calculation × Split) :=
  let text := Text.trim text
  ((locateAmong (operandFor book scope text) members text).run book.start).1

/-- The result of one calculation on a text. If no split has fitting operands, the first one whose
sides have values at all tells what does not fit. -/
def evaluateWith (book : Notebook σ) (scope : Scope) (c : Calculation) (text : List Char) :
    Except Error Value :=
  let text := Text.trim text
  let operand := operandFor book scope text
  let search : StateM σ (Except Error Value) := do
    match ← locateAmong operand [c] text with
    | some (_, split) => return c.apply split.left split.right
    | none =>
      match ← firstSides operand (fun _ left right => some (left, right)) (cutsAmong [c] text) with
      | some (left, right) => return c.apply left right
      | none => return .error (.unresolvable (String.ofList text))
  (search.run book.start).1

end LineScript.Resolve
