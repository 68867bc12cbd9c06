/-!
# Statements

A script is a list of statements. Every statement knows the line of the source that it stands on; an
`if` stands on the line that opens it.
-/

namespace LineScript

/-- A statement of a script. -/
inductive Statement where
  /-- Gives a variable the value of an expression. -/
  | assign (line : Nat) (name expression : String)
  /-- A command, kept word for word for the dispatcher. -/
  | command (line : Nat) (text : String)
  /-- Runs one of two blocks, in a frame of its own. -/
  | branch (line : Nat) (condition : String) (thenBlock elseBlock : List Statement)
deriving Repr

namespace Statement

/-- The line that the statement stands on. -/
def line : Statement → Nat
  | assign line _ _ => line
  | command line _ => line
  | branch line _ _ _ => line

mutual

/-- The number of statements in a statement, itself included. -/
def size : Statement → Nat
  | assign _ _ _ => 1
  | command _ _ => 1
  | branch _ _ thenBlock elseBlock => 1 + totalSize thenBlock + totalSize elseBlock

/-- The number of statements in a block, at any depth. -/
def totalSize : List Statement → Nat
  | [] => 0
  | s :: rest => s.size + totalSize rest

end

theorem totalSize_append (b c : List Statement) :
    totalSize (b ++ c) = totalSize b + totalSize c := by
  induction b with
  | nil => rw [List.nil_append, totalSize, Nat.zero_add]
  | cons s b ih => rw [List.cons_append, totalSize, totalSize, ih, Nat.add_assoc]

end Statement

end LineScript
