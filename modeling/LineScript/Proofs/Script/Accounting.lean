import LineScript.Proofs.Script.Forms
import LineScript.Proofs.Script.Nesting
import LineScript.Proofs.Script.Preorder
import Mathlib.Data.List.Forall2

/-!
# Every line of a script is accounted for

Reading makes a tree out of lines, and nothing gets lost, doubled or moved on the way. From top to
bottom, the nodes of the tree are what the lines say, one node to a line, and the lines left over
are a bare `else` or `end` each.

* `StandsOn`: the statement is what the line says, without the blocks inside it;
* `forall₂_standsOn`: nodes that have the headings of some lines stand on these lines one by one;
* `length_of_pass`, `length_foldlM_pass`: the `if`s that are open, counted along the walk over the
  lines. An `if` adds one and an `end` takes one away. No `if` is open before the first line and
  none after the last, so there are as many `end`s as `if`s (`countP_closes_eq`);
* `parse_accounts_for_lines`: **the tree and the lines of a script, put side by side**.
-/

namespace LineScript

/-- The statement is an `if`. -/
def Statement.isBranch : Statement → Bool
  | branch _ _ _ _ => true
  | _ => false

/-- The heading is that of an `if`. -/
def Heading.isBranch : Heading → Bool
  | branch _ _ => true
  | _ => false

theorem Statement.isBranch_heading (s : Statement) : s.heading.isBranch = s.isBranch := by
  cases s <;> rfl

namespace Script

open Statement (allNodes heading)

/-- The line says nothing but where a block ends. -/
def Line.isBare (l : Line) : Bool :=
  l.text = "else".toList || l.text = "end".toList

/-- The statement is what the line says. An `if` may have any blocks inside it. -/
inductive StandsOn : Statement → Line → Prop
  | assign {l : Line} {name expression : List Char}
      (h : assignment? l.text = some (name, expression)) :
      StandsOn (.assign l.number (String.ofList name) (String.ofList expression)) l
  | command {l : Line} (h : assignment? l.text = none)
      (h_word : (Text.leadingWord l.text).1 ≠ "if".toList) :
      StandsOn (.command l.number (String.ofList l.text)) l
  | branch {l : Line} {thenBlock elseBlock : List Statement} (h : assignment? l.text = none)
      (h_word : (Text.leadingWord l.text).1 = "if".toList) :
      StandsOn (.branch l.number (String.ofList (Text.trim (Text.leadingWord l.text).2)) thenBlock
        elseBlock) l

/-! ### One node to a line -/

/-- A node with the heading of a line is what the line says. -/
theorem standsOn_of_heading? {s : Statement} {l : Line} (h : l.heading? = some s.heading) :
    StandsOn s l := by
  have h_of := of_form l.text
  unfold Line.heading? at h
  -- the form of the line says which constructor the node has; the other two are contradictions
  cases h_form : form l.text with
  | assignment name expression =>
    rw [h_form] at h h_of
    cases s <;> cases h
    exact .assign h_of
  | command =>
    rw [h_form] at h h_of
    cases s <;> cases h
    exact .command h_of.1 h_of.2
  | opening condition =>
    rw [h_form] at h h_of
    obtain ⟨h_none, h_word, rfl⟩ := h_of
    cases s <;> cases h
    exact .branch h_none h_word
  | alternative =>
    rw [h_form] at h
    cases h
  | closing =>
    rw [h_form] at h
    cases h

/-- Lines are trimmed when they are numbered. -/
theorem trim_text_of_mem_lines {source : List Char} {l : Line} (h : l ∈ lines source) :
    Text.trim l.text = l.text := by
  obtain ⟨row, -, rfl⟩ := List.mem_map.mp (List.mem_of_mem_filter h)
  exact Text.trim_trim row.1

/-- A trimmed line has no heading exactly if it is a bare `else` or `end`. -/
theorem heading?_eq_none_iff {l : Line} (h_trim : Text.trim l.text = l.text) :
    l.heading? = none ↔ l.isBare := by
  rw [Line.isBare, Bool.or_eq_true, decide_eq_true_eq, decide_eq_true_eq,
    ← form_eq_alternative_iff h_trim, ← form_eq_closing_iff h_trim, Line.heading?]
  cases form l.text <;> simp

/-- **Nodes with the headings of some lines stand on these lines one by one.** -/
theorem forall₂_standsOn {ls : List Line} (h_trim : ∀ l ∈ ls, Text.trim l.text = l.text)
    {nodes : List Statement} (h : nodes.map heading = headings ls) :
    List.Forall₂ StandsOn nodes (ls.filter (!·.isBare)) := by
  -- the lines are walked, and each that is not bare uses up a node
  induction ls generalizing nodes with
  | nil =>
    obtain rfl := List.map_eq_nil_iff.mp h
    exact .nil
  | cons l ls ih =>
    have h_bare := heading?_eq_none_iff (h_trim l List.mem_cons_self)
    have h_rest : ∀ l' ∈ ls, Text.trim l'.text = l'.text := fun l' h_l' =>
      h_trim l' (List.mem_cons_of_mem l h_l')
    cases h_heading : l.heading? with
    -- a bare line uses up none
    | none =>
      rw [headings_cons_of_none h_heading] at h
      rw [List.filter_cons_of_neg (by simp [h_bare.mp h_heading])]
      exact ih h_rest h
    | some said =>
      rw [headings_cons_of_some h_heading] at h
      obtain ⟨s, nodes, rfl, rfl, h_nodes⟩ := List.map_eq_cons_iff.mp h
      have h_not : ¬ l.isBare := fun h_is => by simp [h_bare.mpr h_is] at h_heading
      rw [List.filter_cons_of_pos (by simp [h_not])]
      exact .cons (standsOn_of_heading? h_heading) (ih h_rest h_nodes)

/-! ### As many ends as openings -/

/-- The line opens a block: it is an `if` with its condition. -/
def Line.opens (l : Line) : Bool :=
  match form l.text with
  | .opening _ => true
  | _ => false

/-- The line is a bare `end`. -/
def Line.closes (l : Line) : Bool :=
  form l.text = .closing

/-- What one line does to the number of open `if`s. -/
theorem length_of_pass {stack stack' : List OpenIf} {l : Line} (h : pass stack l = .ok stack') :
    stack'.length + (if l.closes then 1 else 0) = stack.length + (if l.opens then 1 else 0) := by
  rw [pass_eq_of_form] at h
  unfold Line.closes Line.opens
  cases h_form : form l.text with
  | assignment name expression =>
    rw [h_form] at h
    dsimp only at h
    split at h <;> cases h
    simp
  | alternative =>
    rw [h_form] at h
    -- the innermost `if` has met its `else` and stays open
    unfold meetElse at h
    dsimp only at h
    split at h <;> cases h
    simp
  | closing =>
    rw [h_form] at h
    unfold meetEnd at h
    dsimp only at h
    split at h <;> cases h
    simp
  | command =>
    rw [h_form] at h
    cases h
    simp
  | opening condition =>
    rw [h_form] at h
    dsimp only at h
    split at h <;> cases h
    simp

/-- What some lines do to it, by induction on the lines. -/
theorem length_foldlM_pass {stack stack' : List OpenIf} {ls : List Line}
    (h : ls.foldlM pass stack = .ok stack') :
    stack'.length + ls.countP Line.closes = stack.length + ls.countP Line.opens := by
  induction ls generalizing stack with
  | nil =>
    cases h
    rfl
  | cons l ls ih =>
    rw [List.foldlM_cons] at h
    cases h_pass : pass stack l with
    | error e =>
      rw [h_pass] at h
      cases h
    | ok between =>
      rw [h_pass] at h
      -- the equation has no subtraction, so those for the first line and for the rest add up
      have h_rest := ih h
      have h_line := length_of_pass h_pass
      rw [List.countP_cons, List.countP_cons]
      omega

/-- A walk that ends well, with no `if` open at either end, meets as many `end`s as `if`s. -/
theorem countP_closes_eq {ls : List Line} (h : audit [] ls = .ok ()) :
    ls.countP Line.closes = ls.countP Line.opens := by
  rw [audit] at h
  cases h_walk : ls.foldlM pass [] with
  | error e =>
    rw [h_walk] at h
    cases h
  | ok stack =>
    rw [h_walk] at h
    have h_length := length_foldlM_pass h_walk
    -- the walk only ends well on an empty stack
    cases stack with
    | nil => simpa using h_length
    | cons innermost outer => cases h

/-- The walk over the lines of a script that was read ends well. -/
theorem audit_of_parse {source : String} {tree : List Statement} (h : parse source = .ok tree) :
    audit [] (lines source.toList) = .ok () := by
  rw [parse, ofLines_eq_read] at h
  rw [audit_eq_read]
  cases h_read : read (lines source.toList) with
  | error e =>
    rw [h_read] at h
    cases h
  | ok r =>
    rw [h_read] at h
    obtain ⟨block, ending, rest⟩ := r
    cases ending with
    | source => rfl
    | alternative line => cases h
    | closing line => cases h

/-- The headings of `if`s are those of the lines that open a block. -/
theorem countP_isBranch_headings (ls : List Line) :
    (headings ls).countP Heading.isBranch = ls.countP Line.opens := by
  rw [headings, List.countP_filterMap]
  congr 1
  funext l
  unfold Line.heading? Line.opens
  cases form l.text <;> rfl

/-! ### The tree and the lines -/

/-- **The tree accounts for every line once.** Node by node, from top to bottom, it is what the
lines say that are not a bare `else` or `end`; the lines grow from node to node; and there are as
many bare `end`s as there are `if`s in the tree. -/
theorem parse_accounts_for_lines {source : String} {tree : List Statement}
    (h : parse source = .ok tree) :
    List.Forall₂ StandsOn (allNodes tree) ((lines source.toList).filter (!·.isBare)) ∧
    ((allNodes tree).map Statement.line).Pairwise (· < ·) ∧
    (lines source.toList).countP (·.text = "end".toList) =
      (allNodes tree).countP Statement.isBranch := by
  have h_headings := headings_of_parse h
  refine ⟨forall₂_standsOn (fun _ => trim_text_of_mem_lines) h_headings,
    pairwise_line_of_parse h, ?_⟩
  -- ends are counted as lines, ifs as nodes; the walk over the lines and the headings lead from one
  -- to the other
  calc (lines source.toList).countP (·.text = "end".toList)
    _ = (lines source.toList).countP Line.closes := by
      refine List.countP_congr fun l h_l => ?_
      rw [decide_eq_true_eq, Line.closes, decide_eq_true_eq,
        form_eq_closing_iff (trim_text_of_mem_lines h_l)]
    _ = (lines source.toList).countP Line.opens := countP_closes_eq (audit_of_parse h)
    _ = ((allNodes tree).map heading).countP Heading.isBranch := by
      rw [h_headings, countP_isBranch_headings]
    _ = (allNodes tree).countP Statement.isBranch := by
      rw [List.countP_map]
      congr 1
      exact funext Statement.isBranch_heading

/-- An `end` that is assigned to is a line of its own, and not the end of the block it is in. -/
theorem parse_accounts_for_endings :
    parse "if a\ngo\nelse\nend = 1\nend" =
        .ok [.branch 1 "a" [.command 2 "go"] [.assign 4 "end" "1"]] ∧
      List.Forall₂ StandsOn
        [.branch 1 "a" [.command 2 "go"] [.assign 4 "end" "1"], .command 2 "go",
          .assign 4 "end" "1"]
        [⟨1, "if a".toList⟩, ⟨2, "go".toList⟩, ⟨4, "end = 1".toList⟩] ∧
      (lines "if a\ngo\nelse\nend = 1\nend".toList).countP (·.text = "end".toList) = 1 := by
  have h_parse : parse "if a\ngo\nelse\nend = 1\nend" =
      .ok [.branch 1 "a" [.command 2 "go"] [.assign 4 "end" "1"]] := by cbv
  have h_lines : (lines "if a\ngo\nelse\nend = 1\nend".toList).filter (!·.isBare) =
      [⟨1, "if a".toList⟩, ⟨2, "go".toList⟩, ⟨4, "end = 1".toList⟩] := by decide +kernel
  obtain ⟨h_nodes, -, h_ends⟩ := parse_accounts_for_lines h_parse
  rw [h_lines] at h_nodes
  exact ⟨h_parse, h_nodes, h_ends⟩

end Script

end LineScript
