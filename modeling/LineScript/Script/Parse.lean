import LineScript.Error
import LineScript.Script.Line
import LineScript.Script.Statement

/-!
# Reading a script

A block is read from the lines in front of the reader up to the `else` or `end` that closes it, or
to the end of the source. It is for whoever asked for the block to say whether it may end that way:
the script itself has to reach the end of the source, the first block of an `if` an `else` or an
`end`, and the second an `end`.

Reading a block leaves no more lines than there were (`Block.bounded`), which is why reading ends.
-/

namespace LineScript.Script

/-- What a block ended at. -/
inductive Ending where
  /-- An `else` on the given line. -/
  | alternative (line : Nat)
  /-- An `end` on the given line. -/
  | closing (line : Nat)
  /-- The end of the source. -/
  | source
deriving Repr, DecidableEq

/-- A block read off the front of some lines. -/
structure Block (lines : List Line) where
  /-- The statements of the block. -/
  statements : List Statement
  /-- What the block ended at; that line is used up. -/
  ending : Ending
  /-- The lines after it. -/
  rest : List Line
  /-- No line is read twice. -/
  bounded : rest.length ≤ lines.length

/-- The block with one more statement in front, read from more lines. -/
def Block.cons {shorter lines : List Line} (b : Block shorter) (s : Statement)
    (h : shorter.length ≤ lines.length) : Block lines :=
  ⟨s :: b.statements, b.ending, b.rest, Nat.le_trans b.bounded h⟩

/-- A name that is spelled like a literal, so nothing can be assigned to it. -/
def isLiteralName (name : List Char) : Bool :=
  name = "true".toList || name = "false".toList

/-- Reads a block off the front of the lines. -/
def block : (lines : List Line) → Except Error (Block lines)
  | [] => .ok ⟨[], .source, [], Nat.le_refl _⟩
  | l :: rest => do
    match form l.text with
    | .assignment name expression =>
      if isLiteralName name then
        .error (.badLine l.number (.assignsLiteral (String.ofList name)))
      else
        let b ← block rest
        .ok (b.cons (.assign l.number (String.ofList name) (String.ofList expression))
          (Nat.le_succ _))
    | .alternative => .ok ⟨[], .alternative l.number, rest, Nat.le_succ _⟩
    | .closing => .ok ⟨[], .closing l.number, rest, Nat.le_succ _⟩
    | .command =>
      let b ← block rest
      .ok (b.cons (.command l.number (String.ofList l.text)) (Nat.le_succ _))
    | .opening condition =>
      if condition.isEmpty then .error (.badLine l.number .missingCondition)
      else
        let first ← block rest
        have hf := first.bounded
        match first.ending with
        | .source => .error (.badLine l.number .unclosedIf)
        | .closing _ =>
          let b ← block first.rest
          .ok (b.cons (.branch l.number (String.ofList condition) first.statements [])
            (Nat.le_succ_of_le hf))
        | .alternative _ =>
          let second ← block first.rest
          have hs := second.bounded
          match second.ending with
          | .source => .error (.badLine l.number .unclosedIf)
          | .alternative again => .error (.badLine again (.secondElse l.number))
          | .closing _ =>
            let b ← block second.rest
            .ok (b.cons
              (.branch l.number (String.ofList condition) first.statements second.statements)
              (Nat.le_succ_of_le (Nat.le_trans hs hf)))
termination_by lines => lines.length
decreasing_by
  · exact Nat.lt_succ_self _
  · exact Nat.lt_succ_self _
  · exact Nat.lt_succ_self _
  · exact Nat.lt_succ_of_le hf
  · exact Nat.lt_succ_of_le hf
  · exact Nat.lt_succ_of_le (Nat.le_trans hs hf)

/-- Reads the statements of a script from its lines. -/
def ofLines (ls : List Line) : Except Error (List Statement) := do
  let b ← block ls
  match b.ending with
  | .source => .ok b.statements
  | .alternative line => .error (.badLine line .strayElse)
  | .closing line => .error (.badLine line .strayEnd)

/-- Reads a script. -/
def parse (source : String) : Except Error (List Statement) :=
  ofLines (lines source.toList)

end LineScript.Script
