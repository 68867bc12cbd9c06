import LineScript.Dispatch.Queue
import LineScript.Proofs.Run.Trace
import LineScript.Proofs.Script.Preorder

/-!
# Statements are carried out in the order of the source

A run takes the statements of a script from top to bottom, passes over the branches that are not
taken, and never goes back. So what it attempts is a selection of the script's nodes, in the order
in which they stand in the source.

* `pendingLines`: the lines of the statements that a run may still attempt;
* `line_append_pendingLines_step`: **one step takes its line off the front of what is pending**. It
  may drop further lines behind it, those of the branch that is not taken;
* `attemptedLines_append_pendingLines`: the same for any number of steps;
* `attemptedLines_in_order`: for a script that was read from a source, the lines that a run attempts
  grow from one to the next.
-/

namespace LineScript

variable {δ ε : Type}

open Statement (allNodes)

/-- The block that a statement enters is a part of it. -/
theorem Statement.cons_allNodes_entered_sublist (d : Dispatcher δ ε) (scope : Scope) (state : δ)
    (s : Statement) :
    (s :: allNodes (s.execute d scope state).entered.toList.flatten).Sublist s.nodes := by
  cases s with
  | assign line name expression =>
    rw [execute]
    cases scope.resolve expression <;> exact List.Sublist.refl _
  | command line text => exact List.Sublist.refl _
  | branch line condition thenBlock elseBlock =>
    rw [execute, nodes]
    refine List.Sublist.cons_cons _ ?_
    cases scope.resolve condition >>= Value.asBoolean with
    | error e => exact List.nil_sublist _
    | ok taken =>
      -- one branch is entered, and the nodes of the other one are passed over
      cases taken with
      | true =>
        rw [Effect.after, Effect.ofBranch]
        simp
      | false =>
        rw [Effect.after, Effect.ofBranch]
        simp

namespace Run

/-- The lines of the statements that a run may still attempt, in the order of the source. -/
def pendingLines (run : Run) : List Nat :=
  (allNodes run.blocks.flatten).map Statement.line

/-- A run that starts may still attempt every statement of the script. -/
theorem pendingLines_ofStatements (statements : List Statement) (scope : Scope) (policy : Policy) :
    (ofStatements statements scope policy).pendingLines =
      (allNodes statements).map Statement.line := by
  rw [pendingLines, ofStatements, List.flatten_singleton]

/-- **A step takes its line off the front of what is pending.** -/
theorem line_append_pendingLines_step (d : Dispatcher δ ε) (run : Run) (state : δ) :
    ((run.step d state).progress.line?.toList ++ (run.step d state).run.pendingLines).Sublist
      run.pendingLines := by
  rcases step_cases d run state with ⟨-, h_step⟩ | ⟨-, scope, -, h_step⟩ |
    ⟨-, scope, first, rest, outer, h_leave, h_step⟩
  · rw [h_step]
    exact List.Sublist.refl _
  · rw [h_step]
    exact List.nil_sublist _
  · have h_line : (run.step d state).progress.line? = some first.line := by
      rw [h_step]
      rcases report_record run first.line (rest :: outer) (first.execute d scope state) with
        ⟨h_progress, -⟩ | ⟨h_progress, -⟩ <;> rw [h_progress] <;> rfl
    -- the blocks that were left held nothing, so what was pending starts with this statement
    have h_pending : run.pendingLines =
        (first.nodes ++ allNodes (rest :: outer).flatten).map Statement.line := by
      rw [pendingLines, ← flatten_leave run.scope run.blocks, h_leave]
      rfl
    have h_now : (run.step d state).run.pendingLines =
        (allNodes (first.execute d scope state).entered.toList.flatten ++
          allNodes (rest :: outer).flatten).map Statement.line := by
      rw [pendingLines, h_step, blocks_record, List.flatten_append, Statement.allNodes_append]
    rw [h_line, h_pending, h_now]
    exact ((Statement.cons_allNodes_entered_sublist d scope state first).append_right _).map
      Statement.line

/-- **What was attempted, and behind it what is pending, is a selection of what was pending at the
start.** -/
theorem attemptedLines_append_pendingLines (d : Dispatcher δ ε) (n : Nat) (run : Run) (state : δ) :
    (attemptedLines d n run state ++ (after d n run state).1.pendingLines).Sublist
      run.pendingLines := by
  induction n generalizing run state with
  | zero => exact List.Sublist.refl _
  | succ n ih =>
    rw [attemptedLines_succ, List.append_assoc]
    -- the steps behind the first select from what the first one leaves pending
    exact ((ih _ _).append_left _).trans (line_append_pendingLines_step d run state)

/-- **No statement is carried out twice, and the order is that of the source.** Over any number of
steps, the lines that a run of a script attempts grow from one to the next; each is the line of a
statement of the script, and of the source. So the failures are reported in the order of the source,
and no more statements are attempted than there are. -/
theorem attemptedLines_in_order {source : String} {statements : List Statement}
    (h : Script.parse source = .ok statements) (d : Dispatcher δ ε) (scope : Scope)
    (policy : Policy) (state : δ) (n : Nat) :
    (attemptedLines d n (ofStatements statements scope policy) state).Pairwise (· < ·) ∧
    (∀ line ∈ attemptedLines d n (ofStatements statements scope policy) state,
      ∃ s ∈ allNodes statements, s.line = line ∧
        ∃ l ∈ Script.lines source.toList, l.number = line ∧ l.heading? = some s.heading) ∧
    ((after d n (ofStatements statements scope policy) state).1.report.failures.map
      Failure.line).Pairwise (· < ·) ∧
    (attemptedLines d n (ofStatements statements scope policy) state).length ≤
      Statement.totalSize statements := by
  have h_increasing := Script.pairwise_line_of_parse h
  have h_attempted : (attemptedLines d n (ofStatements statements scope policy) state).Sublist
      ((allNodes statements).map Statement.line) := by
    rw [← pendingLines_ofStatements statements scope policy]
    exact (List.sublist_append_left _ _).trans (attemptedLines_append_pendingLines d n _ state)
  have h_failures : ((after d n (ofStatements statements scope policy) state).1.report.failures.map
      Failure.line).Sublist (attemptedLines d n (ofStatements statements scope policy) state) :=
    failures_after_sublist d n (ofStatements statements scope policy) state
  -- a selection of lines that grow grows too: what was attempted is one, and so are the failures
  refine ⟨h_increasing.sublist h_attempted, ?_, h_increasing.sublist (h_failures.trans h_attempted),
    ?_⟩
  · intro line h_line
    obtain ⟨s, h_s, rfl⟩ := List.mem_map.mp (h_attempted.subset h_line)
    exact ⟨s, h_s, rfl, Script.exists_line_of_mem_allNodes h h_s⟩
  · have h_length := h_attempted.length_le
    rwa [List.length_map, Statement.length_allNodes] at h_length

/-- A command inside an `if`, and behind it an assignment that fails. -/
def shouting : List Statement :=
  [.branch 1 "true" [.command 2 "shout"] [], .assign 4 "x" "nope"]

/-- The script of `shouting` as it stands in a source. -/
theorem parse_shouting : Script.parse "if true\n  shout\nend\nx = nope" = .ok shouting := by
  have h_lines : Script.lines "if true\n  shout\nend\nx = nope".toList = [⟨1, "if true".toList⟩,
      ⟨2, "shout".toList⟩, ⟨3, "end".toList⟩, ⟨4, "x = nope".toList⟩] := by decide +kernel
  have h_if : Script.form "if true".toList = .opening "true".toList := by decide +kernel
  have h_shout : Script.form "shout".toList = .command := by decide +kernel
  have h_end : Script.form "end".toList = .closing := by decide +kernel
  have h_x : Script.form "x = nope".toList = .assignment "x".toList "nope".toList := by
    decide +kernel
  rw [Script.parse, Script.ofLines_eq_read, h_lines, Script.read_cons, h_if]
  -- the block inside is read first, and then what stands behind its `end`
  change (Script.read _ >>= Script.readBranch 1 "true".toList) >>= _ = _
  rw [Script.read_cons, h_shout, Script.read_cons, h_end]
  change (Script.read [⟨4, "x = nope".toList⟩]).map _ >>= _ = _
  rw [Script.read_cons, h_x, Script.read_nil]
  rfl

/-- Four steps through `shouting`: the lines grow, and no more than three statements are attempted.
-/
theorem attemptedLines_shouting :
    Script.parse "if true\n  shout\nend\nx = nope" = .ok shouting ∧
      (attemptedLines (ActionQueue.dispatch (ε := Unit)) 4 (ofStatements shouting {} .abort)
        {}).Pairwise (· < ·) ∧
      (attemptedLines (ActionQueue.dispatch (ε := Unit)) 4 (ofStatements shouting {} .abort)
        {}).length ≤ 3 :=
  have h := attemptedLines_in_order parse_shouting (ActionQueue.dispatch (ε := Unit)) {} .abort {} 4
  ⟨parse_shouting, h.1, h.2.2.2⟩

end Run

end LineScript
