import LineScript.Script.Parse

/-!
# Blocks as plain data

`Script.block` returns a block together with a bound on the lines that are left, and the bound
mentions the lines that were read. That is what makes the recursion end, but it stands in the way of
saying that two blocks are the same. A `Reading` is a block without the bound, and `read` is `block`
with its bounds forgotten.

* `read_nil`, `read_cons`: the recursion of `read`, by what the first line is;
* `length_rest_le`: the bound, as a fact about readings. Proofs about blocks are by induction on the
  number of lines, and it is what they rest on;
* `ofLines_eq_read`: a script is a block that ends with the source.
-/

namespace LineScript.Script

/-- A block that was read off the front of some lines. -/
structure Reading where
  /-- The statements of the block. -/
  statements : List Statement
  /-- What the block ended at. -/
  ending : Ending
  /-- The lines after it. -/
  rest : List Line

/-- Puts a statement in front of a block that was read. -/
def Reading.cons (s : Statement) (r : Reading) : Reading :=
  { r with statements := s :: r.statements }

/-- A block without its bound. -/
def Block.reading {ls : List Line} (b : Block ls) : Reading :=
  ⟨b.statements, b.ending, b.rest⟩

/-- Reads a block off the front of the lines. -/
def read (ls : List Line) : Except Error Reading :=
  (block ls).map Block.reading

/-- What follows the first block of an `if` whose condition is on the given line: nothing if the
block was ended by an `end`, a second block if it was ended by an `else`. -/
def readBranch (line : Nat) (condition : List Char) (first : Reading) : Except Error Reading :=
  match first.ending with
  | .source => .error (.badLine line .unclosedIf)
  | .closing _ =>
    (read first.rest).map (.cons (.branch line (String.ofList condition) first.statements []))
  | .alternative _ => do
    let second ← read first.rest
    match second.ending with
    | .source => .error (.badLine line .unclosedIf)
    | .alternative again => .error (.badLine again (.secondElse line))
    | .closing _ =>
      (read second.rest).map
        (.cons (.branch line (String.ofList condition) first.statements second.statements))

/-- Without lines there is an empty block, ended by the source. -/
theorem read_nil : read [] = .ok ⟨[], .source, []⟩ := by
  rw [read, block]
  rfl

/-- Forgetting the bound and putting a statement in front may change places. -/
theorem map_reading_cons {shorter ls : List Line} (x : Except Error (Block shorter))
    (s : Statement) (h : shorter.length ≤ ls.length) :
    (x >>= fun b => (.ok (b.cons s h) : Except Error (Block ls))).map Block.reading =
      (x.map Block.reading).map (.cons s) := by
  cases x <;> rfl

/-- **One line at a time.** -/
theorem read_cons (l : Line) (rest : List Line) :
    read (l :: rest) =
      match form l.text with
      | .assignment name expression =>
        if isLiteralName name then
          .error (.badLine l.number (.assignsLiteral (String.ofList name)))
        else
          (read rest).map
            (.cons (.assign l.number (String.ofList name) (String.ofList expression)))
      | .alternative => .ok ⟨[], .alternative l.number, rest⟩
      | .closing => .ok ⟨[], .closing l.number, rest⟩
      | .command => (read rest).map (.cons (.command l.number (String.ofList l.text)))
      | .opening condition =>
        if condition.isEmpty then .error (.badLine l.number .missingCondition)
        else read rest >>= readBranch l.number condition := by
  rw [read, block]
  -- the recursion of `block` asks for the form of the line, and so does the claim
  cases form l.text with
  | assignment name expression =>
    dsimp only
    split
    · rfl
    · exact map_reading_cons _ _ _
  | alternative => rfl
  | closing => rfl
  | command => exact map_reading_cons _ _ _
  | opening condition =>
    dsimp only
    split
    · rfl
    · -- the bounds only serve the recursion, so they go as soon as the blocks are at hand
      rw [read]
      cases block rest with
      | error e => rfl
      | ok first =>
        obtain ⟨statements, ending, tail, h_tail⟩ := first
        cases ending with
        | source => rfl
        | closing line => exact map_reading_cons _ _ _
        | alternative line =>
          change Except.map Block.reading (block tail >>= _) =
            (block tail).map Block.reading >>= _
          cases block tail with
          | error e => rfl
          | ok second =>
            obtain ⟨others, ending, last, h_last⟩ := second
            cases ending with
            | source => rfl
            | alternative again => rfl
            | closing line => exact map_reading_cons _ _ _

/-- What is left over after a block is no longer than what it was read from. -/
theorem length_rest_le {ls : List Line} {r : Reading} (h : read ls = .ok r) :
    r.rest.length ≤ ls.length := by
  rw [read] at h
  cases h_block : block ls with
  | error e => simp [h_block, Except.map] at h
  | ok b =>
    rw [h_block] at h
    cases h
    exact b.bounded

/-- A script is a block that ends with the source. -/
theorem ofLines_eq_read (ls : List Line) :
    ofLines ls = read ls >>= fun r =>
      match r.ending with
      | .source => .ok r.statements
      | .alternative line => .error (.badLine line .strayElse)
      | .closing line => .error (.badLine line .strayEnd) := by
  rw [ofLines, read]
  cases block ls <;> rfl

end LineScript.Script
