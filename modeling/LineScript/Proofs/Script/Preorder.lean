import LineScript.Proofs.Script.Blocks
import LineScript.Proofs.Script.Lines

/-!
# The statements of a script in the order of its lines

A script is a tree, and its source is a list of lines. Going through the tree from top to bottom, an
`if` before the statements inside it, meets the lines that statements stand on, one after the other.
The other lines, a bare `else` or `end`, only say where a block ends.

* `Statement.nodes`, `Statement.allNodes`: the statements of a tree, each before what is inside it;
* `Heading`: a statement without its blocks. This is all that its line says, so a line has one too,
  unless it only ends a block (`Line.heading?`);
* `Accounts`: **a block has the headings of the lines that it was read from**. The lines that are
  left over are part of the statement, since the blocks of an `if` are followed by more lines;
* `headings_of_parse`: a script has the headings of its lines;
* `pairwise_line_of_parse`: the nodes of a script stand on lines that grow from one to the next.
-/

namespace LineScript

/-- A statement without the blocks inside it. -/
inductive Heading where
  | assign (line : Nat) (name expression : String)
  | command (line : Nat) (text : String)
  | branch (line : Nat) (condition : String)
deriving Repr, DecidableEq

/-- The line that a statement stands on, which its heading keeps. -/
def Heading.line : Heading → Nat
  | assign line _ _ => line
  | command line _ => line
  | branch line _ => line

namespace Statement

/-- What a statement says on its own line, its blocks left out. -/
def heading : Statement → Heading
  | assign line name expression => .assign line name expression
  | command line text => .command line text
  | branch line condition _ _ => .branch line condition

@[simp]
theorem line_heading (s : Statement) : s.heading.line = s.line := by
  cases s <;> rfl

mutual

/-- A statement, followed by the statements inside it. -/
def nodes : Statement → List Statement
  | assign line name expression => [assign line name expression]
  | command line text => [command line text]
  | branch line condition thenBlock elseBlock =>
    branch line condition thenBlock elseBlock :: (allNodes thenBlock ++ allNodes elseBlock)

/-- The statements of a block, at any depth. -/
def allNodes : List Statement → List Statement
  | [] => []
  | s :: rest => nodes s ++ allNodes rest

end

/-- Two blocks one after the other have the nodes of the first, then those of the second. -/
theorem allNodes_append (b c : List Statement) : allNodes (b ++ c) = allNodes b ++ allNodes c := by
  induction b with
  | nil => rfl
  | cons s b ih => rw [List.cons_append, allNodes, allNodes, ih, List.append_assoc]

mutual

/-- A statement has as many nodes as its size says. -/
theorem length_nodes : ∀ s : Statement, s.nodes.length = s.size
  | assign _ _ _ => rfl
  | command _ _ => rfl
  | branch _ _ thenBlock elseBlock => by
    rw [nodes, size, List.length_cons, List.length_append, length_allNodes thenBlock,
      length_allNodes elseBlock]
    omega

/-- The same of a block. -/
theorem length_allNodes : ∀ block : List Statement, (allNodes block).length = totalSize block
  | [] => rfl
  | s :: rest => by
    rw [allNodes, totalSize, List.length_append, length_nodes s, length_allNodes rest]

end

end Statement

/-! ### Headings -/

namespace Script

open Statement (allNodes heading)

/-- What a line says, unless it only ends a block. -/
def Line.heading? (l : Line) : Option Heading :=
  match form l.text with
  | .assignment name expression =>
    some (.assign l.number (String.ofList name) (String.ofList expression))
  | .command => some (.command l.number (String.ofList l.text))
  | .opening condition => some (.branch l.number (String.ofList condition))
  | .alternative => none
  | .closing => none

/-- A heading keeps the number of its line. -/
theorem Line.line_of_heading? {l : Line} {h : Heading} (h_some : l.heading? = some h) :
    h.line = l.number := by
  unfold heading? at h_some
  split at h_some <;> cases h_some <;> rfl

/-- What the lines say, those left out that only end a block. -/
def headings (ls : List Line) : List Heading :=
  ls.filterMap Line.heading?

theorem headings_cons_of_some {l : Line} {h : Heading} (h_some : l.heading? = some h)
    (rest : List Line) : headings (l :: rest) = h :: headings rest :=
  List.filterMap_cons_some h_some

theorem headings_cons_of_none {l : Line} (h_none : l.heading? = none) (rest : List Line) :
    headings (l :: rest) = headings rest :=
  List.filterMap_cons_none h_none

/-- The headings stand on some of the lines, in their order. -/
theorem lines_headings_sublist (ls : List Line) :
    ((headings ls).map Heading.line).Sublist (ls.map Line.number) := by
  induction ls with
  | nil => exact List.Sublist.slnil
  | cons l rest ih =>
    -- a line without a heading is left out, and any other is kept in its place
    cases h : l.heading? with
    | none =>
      rw [headings_cons_of_none h]
      exact ih.cons l.number
    | some heading =>
      rw [headings_cons_of_some h, List.map_cons, List.map_cons, Line.line_of_heading? h]
      exact ih.cons_cons l.number

/-! ### Reading keeps the headings -/

/-- If a block with a statement in front of it was read, so was the block without it. -/
theorem exists_of_map_cons_eq_ok {x : Except Error Reading} {s : Statement} {r : Reading}
    (h : x.map (.cons s) = .ok r) : ∃ r', x = .ok r' ∧ r = r'.cons s := by
  cases x with
  | error e => cases h
  | ok r' =>
    cases h
    exact ⟨r', rfl, rfl⟩

/-- How an `if` was read: its second block is empty, or it was read after an `else`. In both cases
there are lines behind it that were read as the rest of the block. -/
theorem readBranch_cases {line : Nat} {condition : List Char} {first r : Reading}
    (h : readBranch line condition first = .ok r) :
    ∃ elseBlock behind last, read behind = .ok last ∧
      r = last.cons (.branch line (String.ofList condition) first.statements elseBlock) ∧
      ((elseBlock = [] ∧ behind = first.rest) ∨
        ∃ second, read first.rest = .ok second ∧ elseBlock = second.statements ∧
          behind = second.rest) := by
  unfold readBranch at h
  split at h
  · cases h
  · -- the first block ended at an `end`, and the lines after it were read next
    obtain ⟨last, h_last, h_r⟩ := exists_of_map_cons_eq_ok h
    exact ⟨[], first.rest, last, h_last, h_r, .inl ⟨rfl, rfl⟩⟩
  · -- it ended at an `else`, so the second block was read first, and has to end at an `end`
    cases h_second : read first.rest with
    | error e =>
      rw [h_second] at h
      cases h
    | ok second =>
      rw [h_second] at h
      obtain ⟨statements, ending, rest⟩ := second
      cases ending with
      | source => cases h
      | alternative again => cases h
      | closing =>
        obtain ⟨last, h_last, h_r⟩ := exists_of_map_cons_eq_ok h
        exact ⟨statements, rest, last, h_last, h_r, .inr ⟨_, rfl, rfl, rfl⟩⟩

/-- Every line was read into the block or is left over. -/
structure Accounts (ls : List Line) (r : Reading) : Prop where
  headings_eq : (allNodes r.statements).map heading ++ headings r.rest = headings ls
  /-- Only the end of the source ends a block without a line. -/
  rest_of_source : r.ending = .source → r.rest = []

namespace Accounts

variable {l : Line} {rest : List Line} {r : Reading}

/-- A line that only ends a block leaves all lines after it over. -/
theorem of_ending {ending : Ending} (h_none : l.heading? = none) (h : ending ≠ .source) :
    Accounts (l :: rest) ⟨[], ending, rest⟩ :=
  ⟨(headings_cons_of_none h_none rest).symm, fun h_source => absurd h_source h⟩

/-- A statement without blocks takes up one line. -/
theorem cons {s : Statement} (h : Accounts rest r) (h_some : l.heading? = some s.heading)
    (h_nodes : s.nodes = [s]) : Accounts (l :: rest) (r.cons s) := by
  refine ⟨?_, h.rest_of_source⟩
  rw [headings_cons_of_some h_some, ← h.headings_eq]
  simp [Reading.cons, allNodes, h_nodes]

/-- An `if` takes up its line, the lines of its blocks, and those on which the blocks end. -/
theorem branch {line : Nat} {condition : String} {first : Reading} {elseBlock : List Statement}
    {behind : List Line} (h_some : l.heading? = some (.branch line condition))
    (h_first : Accounts rest first)
    (h_else : (allNodes elseBlock).map heading ++ headings behind = headings first.rest)
    (h : Accounts behind r) :
    Accounts (l :: rest) (r.cons (.branch line condition first.statements elseBlock)) := by
  refine ⟨?_, h.rest_of_source⟩
  -- the four stretches of lines follow each other: the `if`, its blocks, and what is left over
  rw [headings_cons_of_some h_some, ← h_first.headings_eq, ← h_else, ← h.headings_eq]
  simp [Reading.cons, allNodes, Statement.nodes, heading]

end Accounts

/-- **Reading a block accounts for every line.** By induction on the number of lines, since the
blocks of an `if` are read from what the blocks before them left over. -/
theorem accounts_of_read {ls : List Line} {r : Reading} (h : read ls = .ok r) : Accounts ls r := by
  induction h_length : ls.length using Nat.strongRecOn generalizing ls r with
  | ind n ih =>
    cases ls with
    | nil =>
      rw [read_nil] at h
      cases h
      exact ⟨rfl, fun _ => rfl⟩
    | cons l rest =>
      rw [List.length_cons] at h_length
      have h_shorter : ∀ {ls : List Line} {r : Reading}, ls.length ≤ rest.length →
          read ls = .ok r → Accounts ls r :=
        fun h_ls h_read => ih _ (by omega) h_read rfl
      -- what the first line is decides what was read, so the cases are those of its form
      rw [read_cons] at h
      cases h_form : form l.text with
      | assignment name expression =>
        rw [h_form] at h
        dsimp only at h
        split at h
        · cases h
        · obtain ⟨r', h_read, rfl⟩ := exists_of_map_cons_eq_ok h
          exact (h_shorter (Nat.le_refl _) h_read).cons (by rw [Line.heading?, h_form]; rfl) rfl
      | alternative =>
        rw [h_form] at h
        cases h
        exact .of_ending (by rw [Line.heading?, h_form]) Ending.noConfusion
      | closing =>
        rw [h_form] at h
        cases h
        exact .of_ending (by rw [Line.heading?, h_form]) Ending.noConfusion
      | command =>
        rw [h_form] at h
        obtain ⟨r', h_read, rfl⟩ := exists_of_map_cons_eq_ok h
        exact (h_shorter (Nat.le_refl _) h_read).cons (by rw [Line.heading?, h_form]; rfl) rfl
      | opening condition =>
        rw [h_form] at h
        dsimp only at h
        split at h
        · cases h
        · -- an `if` is followed by blocks and by the rest of the block it is in, all of them
          -- shorter
          cases h_first : read rest with
          | error e =>
            rw [h_first] at h
            cases h
          | ok first =>
            rw [h_first] at h
            obtain ⟨elseBlock, behind, last, h_last, rfl, h_else⟩ := readBranch_cases h
            have h_rest : first.rest.length ≤ rest.length := length_rest_le h_first
            -- what the `if` leaves over starts where its last block has ended
            have h_behind : (allNodes elseBlock).map heading ++ headings behind =
                headings first.rest ∧ behind.length ≤ rest.length := by
              rcases h_else with ⟨rfl, rfl⟩ | ⟨second, h_second, rfl, rfl⟩
              · exact ⟨rfl, h_rest⟩
              · exact ⟨(h_shorter h_rest h_second).headings_eq,
                  Nat.le_trans (length_rest_le h_second) h_rest⟩
            exact .branch (by rw [Line.heading?, h_form]) (h_shorter (Nat.le_refl _) h_first)
              h_behind.1 (h_shorter h_behind.2 h_last)

/-- **A script has the headings of its lines.** -/
theorem headings_of_parse {source : String} {statements : List Statement}
    (h : parse source = .ok statements) :
    (allNodes statements).map heading = headings (lines source.toList) := by
  rw [parse, ofLines_eq_read] at h
  cases h_read : read (lines source.toList) with
  | error e =>
    rw [h_read] at h
    cases h
  | ok r =>
    have h_accounts := accounts_of_read h_read
    rw [h_read] at h
    obtain ⟨block, ending, rest⟩ := r
    cases ending with
    | alternative line => cases h
    | closing line => cases h
    | source =>
      cases h
      have h_rest : rest = [] := h_accounts.rest_of_source rfl
      rw [← h_accounts.headings_eq, h_rest]
      exact (List.append_nil _).symm

/-! ### Lines grow -/

/-- Rows are numbered upwards, also after those without a statement have been left out. -/
theorem pairwise_number (first : Nat) (raw : List (List Char)) :
    ((number first raw).map Line.number).Pairwise (· < ·) := by
  -- before anything is left out the numbers are consecutive
  have h_sublist : ((number first raw).map Line.number).Sublist (List.range' first raw.length) := by
    have h_all : ((raw.zipIdx first).map fun row => (⟨row.2, Text.trim row.1⟩ : Line)).map
        Line.number = List.range' first raw.length := by
      rw [List.map_map, ← List.zipIdx_map_snd first raw]
      rfl
    rw [← h_all]
    exact List.filter_sublist.map Line.number
  exact (List.pairwise_lt_range' 1).sublist h_sublist

/-- **The nodes of a script stand on lines that grow from one to the next.** -/
theorem pairwise_line_of_parse {source : String} {statements : List Statement}
    (h : parse source = .ok statements) :
    ((allNodes statements).map Statement.line).Pairwise (· < ·) := by
  -- the tree is gone through in the order of its headings, and these are some of the lines
  have h_lines : (allNodes statements).map Statement.line =
      (headings (lines source.toList)).map Heading.line := by
    rw [← headings_of_parse h, List.map_map]
    exact List.map_congr_left fun s _ => s.line_heading.symm
  rw [h_lines]
  exact (pairwise_number 1 _).sublist (lines_headings_sublist (lines source.toList))

/-- Every node of a script stands on a line of the source, and that line says what the node is. -/
theorem exists_line_of_mem_allNodes {source : String} {statements : List Statement}
    (h : parse source = .ok statements) {s : Statement} (h_mem : s ∈ allNodes statements) :
    ∃ l ∈ lines source.toList, l.number = s.line ∧ l.heading? = some s.heading := by
  have h_heading : s.heading ∈ headings (lines source.toList) := by
    rw [← headings_of_parse h]
    exact List.mem_map_of_mem h_mem
  obtain ⟨l, h_l, h_some⟩ := List.mem_filterMap.mp h_heading
  exact ⟨l, h_l, (Line.line_of_heading? h_some).symm.trans s.line_heading, h_some⟩

end Script

end LineScript
