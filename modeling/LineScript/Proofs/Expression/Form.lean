import LineScript.Resolve

/-!
# Expressions as trees, and how they are written

The resolver works on texts and never builds a tree. What its answers ought to be is said here, on
trees: an `Expression` is evaluated from the leaves up, and an operator is applied to the values of
its two operands, the left one first.

* `Expression`, `Expression.eval`: trees and their evaluation;
* `Form`: one way of writing a tree, with the parentheses and blanks that are written down.
  `Form.text` is the text and `Form.tree` the tree that is meant;
* `Form.Lawful`: enough parentheses are written for the strengths of the operators. A left operand
  binds at least as strongly as its operator, a right operand binds more strongly, and the operand
  of a sign is no calculation;
* `Expression.Printing`: a lawful form of a tree. Every tree has one (`Expression.bracketed`).
-/

namespace LineScript

/-! ### Operators -/

/-- A sign before an operand. -/
inductive Unary where
  | minus
  | not
deriving Repr, DecidableEq

namespace Unary

/-- The character that stands before the operand. -/
def symbol : Unary → Char
  | minus => '-'
  | not => '!'

/-- The result for a value: the negative of a number, or the opposite of a truth value. -/
def apply : Unary → Value → Except Error Value
  | minus, v => v.asNumber.map fun x => .number (-x)
  | not, v => v.asBoolean.map fun b => .boolean (!b)

end Unary

/-- A binary operator as it is written: `+` is one operator, whichever of its two calculations is
meant. -/
def Operator : Type :=
  { c : Calculation // c ≠ .concatenation }
deriving DecidableEq

namespace Operator

/-- The text that stands between the operands. -/
def symbol (o : Operator) : List Char :=
  o.1.operator

/-- The level of the operator. -/
def level (o : Operator) : Precedence :=
  o.1.precedence

/-- The calculation that is meant: `+` joins as soon as one of the operands is a text. -/
def meant (o : Operator) (left right : Value) : Calculation :=
  if o.1 = .addition ∧ (left.kind = .text ∨ right.kind = .text) then .concatenation else o.1

/-- The result for two values. -/
def apply (o : Operator) (left right : Value) : Except Error Value :=
  (o.meant left right).apply left right

end Operator

/-- How strongly the operators of a level bind. -/
def Precedence.strength : Precedence → Nat
  | or => 0
  | and => 1
  | comparison => 2
  | additive => 3
  | multiplicative => 4

/-! ### Trees -/

/-- A leaf of a tree. -/
inductive Atom where
  /-- A number, as it is spelt. -/
  | number (spelling : List Char) (h : (Number.parse? spelling).isSome)
  /-- A text, without its quotes. -/
  | text (content : List Char) (h : '"' ∉ content)
  | boolean (b : Bool)
  /-- A variable. -/
  | name (identifier : List Char)
      (h : Text.isIdentifier identifier ∧ Value.booleanLiteral? identifier = none)

namespace Atom

/-- The leaf as it is written. -/
def spelling : Atom → List Char
  | number spelling _ => spelling
  | text content _ => '"' :: (content ++ ['"'])
  | boolean b => if b then "true".toList else "false".toList
  | name identifier _ => identifier

/-- What the leaf stands for. -/
def eval (scope : Scope) : Atom → Except Error Value
  | number spelling h => .ok (.number ((Number.parse? spelling).get h))
  | text content _ => .ok (.text (String.ofList content))
  | boolean b => .ok (.boolean b)
  | name identifier _ => Resolve.variableValue scope (String.ofList identifier)

end Atom

/-- An expression. -/
inductive Expression where
  | atom (a : Atom)
  | unary (sign : Unary) (operand : Expression)
  | binary (operator : Operator) (left right : Expression)

/-- The value of an expression. The operands are evaluated first, the left one before the right
one, and the first failure is the outcome. -/
def Expression.eval (scope : Scope) : Expression → Except Error Value
  | atom a => a.eval scope
  | unary sign operand => do
    let v ← operand.eval scope
    sign.apply v
  | binary operator left right => do
    let l ← left.eval scope
    let r ← right.eval scope
    operator.apply l r

/-! ### Ways of writing a tree -/

/-- Any number of blanks. -/
def Blanks : Type :=
  { s : List Char // ∀ c ∈ s, Text.isBlank c }

/-- No blank. -/
def Blanks.none : Blanks :=
  ⟨[], List.forall_mem_nil _⟩

/-- One blank. -/
def Blanks.one : Blanks :=
  ⟨[' '], List.all_eq_true.mp (by decide)⟩

/-- An expression as it is written. Blanks may stand around every part. -/
inductive Form where
  | atom (a : Atom)
  | spaced (before : Blanks) (inside : Form) (after : Blanks)
  | group (inside : Form)
  | unary (sign : Unary) (operand : Form)
  | binary (operator : Operator) (left right : Form)

namespace Form

/-- The text of a form. -/
def text : Form → List Char
  | atom a => a.spelling
  | spaced before inside after => before.1 ++ inside.text ++ after.1
  | group inside => '(' :: (inside.text ++ [')'])
  | unary sign operand => sign.symbol :: operand.text
  | binary operator left right => left.text ++ operator.symbol ++ right.text

/-- The tree that is meant. -/
def tree : Form → Expression
  | atom a => .atom a
  | spaced _ inside _ => inside.tree
  | group inside => inside.tree
  | unary sign operand => .unary sign operand.tree
  | binary operator left right => .binary operator left.tree right.tree

/-- How strongly a form binds what stands in it. A sign binds more strongly than every operator,
and nothing reaches into a leaf or a group. -/
def strength : Form → Nat
  | atom _ => 6
  | spaced _ inside _ => inside.strength
  | group _ => 6
  | unary _ _ => 5
  | binary operator _ _ => operator.level.strength

/-- Enough parentheses are written. -/
def Lawful : Form → Prop
  | atom _ => True
  | spaced _ inside _ => inside.Lawful
  | group inside => inside.Lawful
  | unary _ operand => operand.Lawful ∧ 5 ≤ operand.strength
  | binary operator left right =>
    left.Lawful ∧ right.Lawful ∧ operator.level.strength ≤ left.strength ∧
      operator.level.strength < right.strength

end Form

/-- A lawful way of writing a tree. -/
structure Expression.Printing (e : Expression) where
  /-- The tree as it is written. -/
  form : Form
  /-- It is the tree that is meant. -/
  tree_eq : form.tree = e
  /-- Enough parentheses are written. -/
  lawful : form.Lawful

/-- The text that is written. -/
def Expression.Printing.text {e : Expression} (p : e.Printing) : String :=
  String.ofList p.form.text

/-- Every operator is weaker than a sign. -/
theorem Precedence.strength_lt (level : Precedence) : level.strength < 5 := by
  cases level <;> decide

/-- The way of writing a tree that puts every operand in parentheses. -/
def Expression.bracketed : (e : Expression) → e.Printing
  | atom a => ⟨.atom a, rfl, trivial⟩
  | unary sign operand =>
    { form := .unary sign (.group operand.bracketed.form)
      tree_eq := congrArg (unary sign) operand.bracketed.tree_eq
      lawful := ⟨operand.bracketed.lawful, Nat.le_succ 5⟩ }
  | binary operator left right =>
    { form := .binary operator (.group left.bracketed.form) (.group right.bracketed.form)
      tree_eq := by
        rw [Form.tree, Form.tree, Form.tree, left.bracketed.tree_eq, right.bracketed.tree_eq]
      lawful := by
        have h_level := operator.level.strength_lt
        refine ⟨left.bracketed.lawful, right.bracketed.lawful, ?_, ?_⟩
        · exact Nat.le_of_lt (Nat.lt_succ_of_lt h_level)
        · exact Nat.lt_succ_of_lt h_level }

end LineScript
