import LineScript.Proofs.Script.Blocks
import LineScript.Proofs.Script.Forms
import LineScript.Proofs.Script.Lines

/-!
# Scripts that are written out

A tree of statements can be written out again, one statement to a line, and reading what was written
gives the tree back. Each node then has the number of the line that it was written on, since the
numbers that the tree came with are not written.

Not every tree can be written. A command that looks like an assignment would be read as one, and an
expression with a line ending in it would be cut in two. `Printable` excludes what would be refused
or read as something else.

* `Layout`: what writing is free to choose: the ending of the lines, the indentation of each, and
  whether an `if` whose second block is empty has its `else` all the same;
* `Layout.texts`, `Layout.print`: the texts of the lines, and the source made of them;
* `Layout.placed`: the tree with the lines that its nodes were written on;
* `ReadAs`: **some lines are read as a block whatever follows them**. This is what is proved by
  induction on the tree. It is closed under putting lines one after the other and under the lines of
  an `if` around, and so the end of the source is not special;
* `parse_print`: reading undoes writing.
-/

namespace LineScript.Script

open Text (isBlank)

/-! ### Texts that can be written -/

/-- A text that fits on a line and has no blanks around. -/
structure OneLine (text : List Char) : Prop where
  ne_nil : text ≠ []
  trimmed : Text.trim text = text
  unbroken : ∀ c ∈ text, ¬ isLineEnd c

/-- A text that makes a line that is not passed over. -/
@[mk_iff]
structure StatementText (text : List Char) : Prop extends OneLine text where
  not_comment : text.head? ≠ some '#'

/-- An assignment that is read as one: a name that may be assigned to, and an expression that fits
on the line behind the sign. -/
@[mk_iff]
structure PlainAssignment (name expression : List Char) : Prop where
  isIdentifier : Text.isIdentifier name
  not_isLiteralName : ¬ isLiteralName name
  oneLine : OneLine expression

/-- A command that is not taken for anything else. -/
@[mk_iff]
structure PlainCommand (text : List Char) : Prop extends StatementText text where
  not_assignment : assignment? text = none
  ne_else : text ≠ "else".toList
  ne_end : text ≠ "end".toList
  leadingWord_ne_if : (Text.leadingWord text).1 ≠ "if".toList

/-- A condition that leaves its `if` a keyword. In `if = 1` the word is a name. -/
@[mk_iff]
structure PlainCondition (condition : List Char) : Prop where
  oneLine : OneLine condition
  not_assignment : assignment? ("if ".toList ++ condition) = none

mutual

/-- The statement can be written out. -/
def Printable : Statement → Prop
  | .assign _ name expression => PlainAssignment name.toList expression.toList
  | .command _ text => PlainCommand text.toList
  | .branch _ condition thenBlock elseBlock =>
    PlainCondition condition.toList ∧ AllPrintable thenBlock ∧ AllPrintable elseBlock

/-- Every statement of the block can be written out. -/
def AllPrintable : List Statement → Prop
  | [] => True
  | s :: rest => Printable s ∧ AllPrintable rest

end

instance (text : List Char) : Decidable (OneLine text) :=
  decidable_of_iff (text ≠ [] ∧ Text.trim text = text ∧ text.all (!isLineEnd ·))
    ⟨fun ⟨h_ne, h_trim, h_all⟩ => ⟨h_ne, h_trim, by simpa using h_all⟩,
      fun h => ⟨h.ne_nil, h.trimmed, by simpa using h.unbroken⟩⟩

instance (text : List Char) : Decidable (StatementText text) :=
  decidable_of_iff _ (statementText_iff text).symm

instance (name expression : List Char) : Decidable (PlainAssignment name expression) :=
  decidable_of_iff _ (plainAssignment_iff name expression).symm

instance (text : List Char) : Decidable (PlainCommand text) :=
  decidable_of_iff _ (plainCommand_iff text).symm

instance (condition : List Char) : Decidable (PlainCondition condition) :=
  decidable_of_iff _ (plainCondition_iff condition).symm

mutual

/-- Whether a statement can be written out is decided along the tree. -/
def decidablePrintable : (s : Statement) → Decidable (Printable s)
  | .assign _ name expression =>
    inferInstanceAs (Decidable (PlainAssignment name.toList expression.toList))
  | .command _ text => inferInstanceAs (Decidable (PlainCommand text.toList))
  | .branch _ condition thenBlock elseBlock =>
    have := decidableAllPrintable thenBlock
    have := decidableAllPrintable elseBlock
    inferInstanceAs (Decidable
      (PlainCondition condition.toList ∧ AllPrintable thenBlock ∧ AllPrintable elseBlock))

/-- The same of a block, statement by statement. -/
def decidableAllPrintable : (block : List Statement) → Decidable (AllPrintable block)
  | [] => inferInstanceAs (Decidable True)
  | s :: rest =>
    have := decidablePrintable s
    have := decidableAllPrintable rest
    inferInstanceAs (Decidable (Printable s ∧ AllPrintable rest))

end

instance (block : List Statement) : Decidable (AllPrintable block) := decidableAllPrintable block

/-- Line endings are blanks, so a trimmed text has none at its ends. -/
theorem isBlank_of_isLineEnd {c : Char} (h : isLineEnd c) : isBlank c := by
  rcases Bool.or_eq_true_iff.mp h with h_feed | h_return
  · rw [beq_iff_eq.mp h_feed]
    rfl
  · rw [beq_iff_eq.mp h_return]
    rfl

/-- A word makes a line of its own. -/
theorem StatementText.of_isIdentifier {word : List Char} (h : Text.isIdentifier word) :
    StatementText word := by
  have h_run : ∀ c ∈ word, Resolve.isRunChar c := fun c hc =>
    Resolve.IsDirect.isRunChar_of_mem_isIdentifier h hc
  refine ⟨⟨?_, trim_of_isIdentifier h, ?_⟩, ?_⟩
  · rintro rfl
    exact absurd h Bool.false_ne_true
  · -- both line endings are blanks, and no blank is a part of a word
    intro c hc h_end
    have h_blank := Resolve.isBlank_eq_false_of_isRunChar (h_run c hc)
    exact Bool.false_ne_true (h_blank.symm.trans (isBlank_of_isLineEnd h_end))
  · -- nor does a comment start with a word
    intro h_head
    exact absurd (h_run '#' (List.mem_of_head? h_head)) (by decide)

/-- Something may follow on the same line. The first text decides how the line starts, the last one
how it ends. -/
theorem StatementText.append {s between t : List Char} (hs : StatementText s)
    (h_between : ∀ c ∈ between, ¬ isLineEnd c) (ht : OneLine t) :
    StatementText (s ++ between ++ t) := by
  -- neither text is empty, so the ends of the line are ends of the two texts
  have h_head : (s ++ between ++ t).head? = s.head? := by
    rw [List.append_assoc, List.head?_append_of_ne_nil s hs.ne_nil]
  have h_last : (s ++ between ++ t).getLast? = t.getLast? :=
    List.getLast?_append_of_ne_nil _ ht.ne_nil
  refine ⟨⟨?_, Text.trim_eq_self ?_ ?_, ?_⟩, ?_⟩
  · simp [hs.ne_nil]
  · rw [h_head, ← hs.trimmed]
    exact Text.not_any_head?_trim s
  · rw [h_last, ← ht.trimmed]
    exact Text.not_any_getLast?_trim t
  · intro c hc
    rcases List.mem_append.mp hc with hc | hc
    · exact (List.mem_append.mp hc).elim (hs.unbroken c) (h_between c)
    · exact ht.unbroken c hc
  · -- a comment is told by its first character, and that is still the one of `s`
    rw [h_head]
    exact hs.not_comment

/-- The line of an assignment. -/
theorem PlainAssignment.statementText {name expression : List Char}
    (h : PlainAssignment name expression) :
    StatementText (name ++ " = ".toList ++ expression) :=
  (StatementText.of_isIdentifier h.isIdentifier).append (by simp [isLineEnd]) h.oneLine

/-- The line of an `if`. -/
theorem PlainCondition.statementText {condition : List Char} (h : PlainCondition condition) :
    StatementText ("if ".toList ++ condition) := by
  have h_if : StatementText "if".toList := .of_isIdentifier rfl
  have h_text : StatementText ("if".toList ++ [' '] ++ condition) :=
    h_if.append (by simp [isLineEnd]) h.oneLine
  exact h_text

theorem statementText_else : StatementText "else".toList := .of_isIdentifier rfl

theorem statementText_end : StatementText "end".toList := .of_isIdentifier rfl

/-! ### Writing -/

/-- What can be chosen when a script is written. Lines are counted from one. -/
structure Layout where
  /-- What stands between two lines. -/
  ending : LineEnding
  /-- The last line has an ending too. -/
  finalEnding : Bool
  /-- What stands in front of a line. -/
  indentation : Nat → List Char
  /-- The `if` on a line has an `else` even if nothing follows it. -/
  bareElse : Nat → Bool
  isBlank_of_mem_indentation : ∀ n, ∀ c ∈ indentation n, isBlank c
  not_isLineEnd_of_mem_indentation : ∀ n, ∀ c ∈ indentation n, ¬ isLineEnd c

namespace Layout

variable (layout : Layout)

mutual

/-- The lines of a statement, the first of which has the given number. -/
def texts (first : Nat) : Statement → List (List Char)
  | .assign _ name expression => [name.toList ++ " = ".toList ++ expression.toList]
  | .command _ text => [text.toList]
  | .branch _ condition thenBlock elseBlock =>
    let inner := allTexts (first + 1) thenBlock
    -- with no second block, the `else` may be left out
    if elseBlock.isEmpty && !layout.bareElse first then
      ("if ".toList ++ condition.toList) :: (inner ++ ["end".toList])
    else
      ("if ".toList ++ condition.toList) :: (inner ++
        "else".toList :: (allTexts (first + inner.length + 2) elseBlock ++ ["end".toList]))

/-- The lines of a block. Each statement starts on the line after the last one of the statement
before it. -/
def allTexts (first : Nat) : List Statement → List (List Char)
  | [] => []
  | s :: rest =>
    texts first s ++ allTexts (first + (texts first s).length) rest

end

mutual

/-- The statement with the lines that its nodes are written on. A line is counted by the lines that
are written before it. -/
def placed (first : Nat) : Statement → Statement
  | .assign _ name expression => .assign first name expression
  | .command _ text => .command first text
  | .branch _ condition thenBlock elseBlock =>
    .branch first condition (allPlaced (first + 1) thenBlock)
      (allPlaced (first + (layout.allTexts (first + 1) thenBlock).length + 2) elseBlock)

/-- The same of a block. -/
def allPlaced (first : Nat) : List Statement → List Statement
  | [] => []
  | s :: rest =>
    placed first s :: allPlaced (first + (layout.texts first s).length) rest

end

/-- Lines with their indentation. -/
def rows (first : Nat) (texts : List (List Char)) : List (List Char) :=
  (texts.zipIdx first).map fun (text, n) => layout.indentation n ++ text

/-- The source of a script. With an ending after the last line, one more line starts, and nothing is
on it. -/
def print (tree : List Statement) : String :=
  let rows := layout.rows 1 (layout.allTexts 1 tree)
  String.ofList
    (layout.ending.chars.intercalate (if layout.finalEnding then rows ++ [[]] else rows))

end Layout

/-! ### Reading what was written -/

/-- The line of an `if`, read back. -/
theorem read_opening {condition : List Char} (h : PlainCondition condition) (n : Nat)
    (rest : List Line) :
    read (⟨n, "if ".toList ++ condition⟩ :: rest) = read rest >>= readBranch n condition := by
  rw [read_cons, form_opening h.oneLine.trimmed h.not_assignment]
  exact if_neg fun h_empty => h.oneLine.ne_nil (List.isEmpty_iff.mp h_empty)

theorem read_alternative (n : Nat) (rest : List Line) :
    read (⟨n, "else".toList⟩ :: rest) = .ok ⟨[], .alternative n, rest⟩ := by
  rw [read_cons, form_alternative]

theorem read_closing (n : Nat) (rest : List Line) :
    read (⟨n, "end".toList⟩ :: rest) = .ok ⟨[], .closing n, rest⟩ := by
  rw [read_cons, form_closing]

/-- Puts a whole block in front of a block that was read. -/
def Reading.prepend (block : List Statement) (r : Reading) : Reading :=
  { r with statements := block ++ r.statements }

/-- The lines are read as the block, whatever follows them. -/
def ReadAs (ls : List Line) (block : List Statement) : Prop :=
  ∀ tail, read (ls ++ tail) = (read tail).map (.prepend block)

namespace ReadAs

variable {ls ls' : List Line} {block block' : List Statement} {n m k : Nat}

/-- No lines are read as the empty block. -/
theorem nil : ReadAs [] [] := by
  intro tail
  rw [List.nil_append]
  -- what is not there changes neither a block nor an error
  cases read tail <;> rfl

/-- Lines one after the other are read as the two blocks one after the other. -/
theorem append (h : ReadAs ls block) (h' : ReadAs ls' block') :
    ReadAs (ls ++ ls') (block ++ block') := by
  intro tail
  rw [List.append_assoc, h, h']
  cases read tail with
  | error e => rfl
  | ok r => simp [Except.map, Reading.prepend]

/-- The line of an assignment is read as the assignment, on whatever line it is written. -/
theorem assign {name expression : String} (h : PlainAssignment name.toList expression.toList) :
    ReadAs [⟨n, name.toList ++ " = ".toList ++ expression.toList⟩]
      [.assign n name expression] := by
  intro tail
  rw [List.singleton_append, read_cons,
    form_assignment h.isIdentifier h.oneLine.trimmed h.oneLine.ne_nil]
  simp only [h.not_isLiteralName, String.ofList_toList]
  rfl

/-- So is that of a command. -/
theorem command {text : String} (h : PlainCommand text.toList) :
    ReadAs [⟨n, text.toList⟩] [.command n text] := by
  intro tail
  rw [List.singleton_append, read_cons,
    form_command h.trimmed h.not_assignment h.leadingWord_ne_if h.ne_else h.ne_end]
  simp only [String.ofList_toList]
  rfl

/-- Around the lines of a block, an `if` and an `end` make a branch without a second block. -/
theorem branch {condition : String} (h : PlainCondition condition.toList)
    (h_block : ReadAs ls block) :
    ReadAs (⟨n, "if ".toList ++ condition.toList⟩ :: (ls ++ [⟨m, "end".toList⟩]))
      [.branch n condition block []] := by
  intro tail
  rw [List.cons_append, List.append_assoc, read_opening h, h_block, List.singleton_append,
    read_closing]
  -- the first block has ended at the `end`, with nothing left over
  change (read tail).map (Reading.cons (.branch n _ (block ++ []) [])) = _
  rw [List.append_nil, String.ofList_toList]
  rfl

/-- With an `else` and a second block between them, they make one with both. -/
theorem branch_else {condition : String} (h : PlainCondition condition.toList)
    (h_block : ReadAs ls block) (h_block' : ReadAs ls' block') :
    ReadAs (⟨n, "if ".toList ++ condition.toList⟩ ::
        (ls ++ ⟨m, "else".toList⟩ :: (ls' ++ [⟨k, "end".toList⟩])))
      [.branch n condition block block'] := by
  intro tail
  rw [List.cons_append, List.append_assoc, read_opening h, h_block, List.cons_append,
    List.append_assoc, List.singleton_append, read_alternative]
  -- the first block has ended at the `else`, so there is a second one to read
  change (read (ls' ++ _) >>= _) = _
  rw [h_block', read_closing]
  change (read tail).map (Reading.cons (.branch n _ (block ++ []) (block' ++ []))) = _
  rw [List.append_nil, List.append_nil, String.ofList_toList]
  rfl

end ReadAs

/-- A text that makes a line keeps its number and is not passed over. -/
theorem StatementText.number_cons {text : List Char} (h : StatementText text) (first : Nat)
    (texts : List (List Char)) :
    number first (text :: texts) = ⟨first, text⟩ :: number (first + 1) texts := by
  have h_statement : Line.isStatement ⟨first, text⟩ = true := by
    simp [Line.isStatement, h.ne_nil, h.not_comment]
  rw [Script.number_cons, h.trimmed, if_pos h_statement]

namespace Layout

variable (layout : Layout)

-- By recursion on the tree. The number of the first line is arbitrary, because the blocks of an
-- `if` are written further down.
mutual

/-- **The lines of a statement are read as the statement.** -/
theorem readAs_texts (first : Nat) : ∀ {s : Statement}, Printable s →
    ReadAs (number first (layout.texts first s)) [layout.placed first s]
  | .assign line name expression, h => by
    rw [Printable] at h
    rw [texts, placed, h.statementText.number_cons]
    exact ReadAs.assign h
  | .command line text, h => by
    rw [Printable] at h
    rw [texts, placed, h.number_cons]
    exact ReadAs.command h
  | .branch line condition thenBlock elseBlock, h => by
    rw [Printable] at h
    obtain ⟨h_condition, h_then, h_else⟩ := h
    have h_inner := readAs_allTexts (first + 1) h_then
    rw [texts, placed]
    split
    · next h_bare =>
      -- no `else` is written, so there is no second block
      obtain rfl : elseBlock = [] := by simpa using (Bool.and_eq_true_iff.mp h_bare).1
      rw [h_condition.statementText.number_cons, number_append, statementText_end.number_cons,
        allPlaced]
      exact ReadAs.branch h_condition h_inner
    · have h_others := readAs_allTexts
        (first + (layout.allTexts (first + 1) thenBlock).length + 2) h_else
      -- the second block starts after the `if`, the first block and the `else`
      have h_start : first + 1 + (layout.allTexts (first + 1) thenBlock).length + 1 =
          first + (layout.allTexts (first + 1) thenBlock).length + 2 := by
        omega
      rw [h_condition.statementText.number_cons, number_append, statementText_else.number_cons,
        number_append, statementText_end.number_cons, h_start]
      exact ReadAs.branch_else h_condition h_inner h_others

/-- The lines of a block are read as the block. -/
theorem readAs_allTexts (first : Nat) : ∀ {block : List Statement}, AllPrintable block →
    ReadAs (number first (layout.allTexts first block)) (layout.allPlaced first block)
  | [], _ => by
    rw [allTexts, allPlaced]
    exact ReadAs.nil
  | s :: rest, h => by
    rw [AllPrintable] at h
    rw [allTexts, allPlaced, number_append]
    exact (readAs_texts first h.1).append (readAs_allTexts _ h.2)

end

mutual

/-- All lines that are written say something. -/
theorem statementText_of_mem_texts (first : Nat) : ∀ {s : Statement}, Printable s →
    ∀ text ∈ layout.texts first s, StatementText text
  | .assign line name expression, h => by
    rw [Printable] at h
    rw [texts]
    exact List.forall_mem_singleton.mpr h.statementText
  | .command line text, h => by
    rw [Printable] at h
    rw [texts]
    exact List.forall_mem_singleton.mpr h.toStatementText
  | .branch line condition thenBlock elseBlock, h => by
    rw [Printable] at h
    obtain ⟨h_condition, h_then, h_else⟩ := h
    have h_inner := statementText_of_mem_allTexts (first + 1) h_then
    have h_end := List.forall_mem_singleton.mpr statementText_end
    rw [texts]
    split
    · exact List.forall_mem_cons.mpr
        ⟨h_condition.statementText, List.forall_mem_append.mpr ⟨h_inner, h_end⟩⟩
    · refine List.forall_mem_cons.mpr
        ⟨h_condition.statementText, List.forall_mem_append.mpr ⟨h_inner, ?_⟩⟩
      refine List.forall_mem_cons.mpr ⟨statementText_else, List.forall_mem_append.mpr ⟨?_, h_end⟩⟩
      exact statementText_of_mem_allTexts _ h_else

/-- The same of a block. -/
theorem statementText_of_mem_allTexts (first : Nat) : ∀ {block : List Statement},
    AllPrintable block → ∀ text ∈ layout.allTexts first block, StatementText text
  | [], _ => by
    rw [allTexts]
    exact List.forall_mem_nil _
  | s :: rest, h => by
    rw [AllPrintable] at h
    rw [allTexts]
    exact List.forall_mem_append.mpr
      ⟨statementText_of_mem_texts first h.1, statementText_of_mem_allTexts _ h.2⟩

end

/-! ### The source -/

/-- Indentation does not change how rows are numbered, since every row is trimmed. -/
theorem number_rows (first : Nat) (texts : List (List Char)) :
    number first (layout.rows first texts) = number first texts := by
  induction texts generalizing first with
  | nil => rfl
  | cons text texts ih =>
    have h_row : Text.trim (layout.indentation first ++ text) = Text.trim text :=
      Text.trim_blanks_append (layout.isBlank_of_mem_indentation first) text
    -- the two lists agree line by line, so it does not matter which lines are passed over
    rw [rows, List.zipIdx_cons, List.map_cons, number_cons, number_cons, h_row]
    change (if _ then _ :: number _ (layout.rows _ _) else number _ (layout.rows _ _)) = _
    rw [ih]

/-- No row is cut in two by an ending inside it. -/
theorem not_isLineEnd_of_mem_rows {texts : List (List Char)}
    (h : ∀ text ∈ texts, StatementText text) (first : Nat) :
    ∀ row ∈ layout.rows first texts, ∀ c ∈ row, ¬ isLineEnd c := by
  intro row h_row c hc
  obtain ⟨⟨text, n⟩, h_text, rfl⟩ := List.mem_map.mp h_row
  rcases List.mem_append.mp hc with hc | hc
  · exact layout.not_isLineEnd_of_mem_indentation n c hc
  · exact (h text (List.fst_mem_of_mem_zipIdx h_text)).unbroken c hc

/-- The source of a script has the lines that were written, and no others. -/
theorem lines_print {tree : List Statement} (h : AllPrintable tree) :
    lines (layout.print tree).toList = number 1 (layout.allTexts 1 tree) := by
  have h_rows := layout.not_isLineEnd_of_mem_rows (layout.statementText_of_mem_allTexts 1 h) 1
  rw [print, String.toList_ofList]
  split
  · -- the line after the last ending says nothing
    have h_last : ∀ row ∈ layout.rows 1 (layout.allTexts 1 tree) ++ [[]],
        ∀ c ∈ row, ¬ isLineEnd c :=
      List.forall_mem_append.mpr ⟨h_rows, List.forall_mem_singleton.mpr (List.forall_mem_nil _)⟩
    rw [lines_intercalate _ h_last, number_append, layout.number_rows]
    exact List.append_nil _
  · rw [lines_intercalate _ h_rows, layout.number_rows]

end Layout

/-- **Reading undoes writing.** A tree that can be written is read back from its source in any
layout, with each node on the line that it was written on. -/
theorem parse_print (layout : Layout) {tree : List Statement} (h : AllPrintable tree) :
    parse (layout.print tree) = .ok (layout.allPlaced 1 tree) := by
  -- nothing follows the lines of the script, so its block is ended by the source
  have h_read := layout.readAs_allTexts 1 h []
  rw [List.append_nil, read_nil] at h_read
  rw [parse, layout.lines_print h, ofLines_eq_read, h_read]
  change Except.ok (layout.allPlaced 1 tree ++ []) = _
  rw [List.append_nil]

/-- Every other line starts with a tab, and every `if` has an `else`. -/
def tabbed : Layout where
  ending := .pair
  finalEnding := true
  indentation n := List.replicate (n % 2) '\t'
  bareElse _ := true
  isBlank_of_mem_indentation := by simp +contextual [isBlank]
  not_isLineEnd_of_mem_indentation := by simp +contextual [isLineEnd]

/-- A script in which `end` is a name, the start of a command and a keyword. -/
def turns : List Statement :=
  [.assign 0 "end" "1 == 2",
    .branch 0 "(end)" [.command 0 "end turn", .branch 0 "ready" [.command 0 "say \"if\""] []]
      [.assign 0 "rest" "= 1"]]

/-- Each node comes back on its own line, and not on the line 0 that it had. -/
theorem parse_print_turns :
    AllPrintable turns ∧
      tabbed.print turns = "\tend = 1 == 2\r\nif (end)\r\n\tend turn\r\nif ready\r\n" ++
        "\tsay \"if\"\r\nelse\r\n\tend\r\nelse\r\n\trest = = 1\r\nend\r\n" ∧
      parse (tabbed.print turns) =
        .ok [.assign 1 "end" "1 == 2",
          .branch 2 "(end)"
            [.command 3 "end turn", .branch 4 "ready" [.command 5 "say \"if\""] []]
            [.assign 9 "rest" "= 1"]] := by
  have h : AllPrintable turns := by decide
  refine ⟨h, by decide +kernel, ?_⟩
  rw [parse_print tabbed h]
  rfl

end LineScript.Script
