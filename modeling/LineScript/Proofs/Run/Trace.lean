import LineScript.Proofs.Run.Steps

/-!
# What the steps of a run say

Each step says which statement it carried out, and whether that succeeded; the report of the run
says the same in the end. A trace is the list of what the first steps of a run did, one after the
other, those included that found nothing to do.

* `Progress.line?`: the line of the statement that a step attempted;
* `trace`, `attemptedLines`: the first steps, and the lines that they attempted;
* `report_step`: **the report after a step says what the step said**. It is what both
  `failures_after_sublist`, on the lines of the failures, and `attempted_step`, on their number, are
  read off;
* `step_of_finished`, `finish_step`: stepping on after the end changes nothing, and a step on the
  way does not change where a run ends;
* `attempts`, `finish_eq_attempts`: finishing a run comes to the steps that do something.
-/

namespace LineScript

variable {δ ε : Type}

/-- The line of the statement that was attempted, if there was one. -/
def Progress.line? : Progress → Option Nat
  | executed line => some line
  | failed line => some line
  | finished => none

/-- The number of statements that the report knows of. -/
def Report.attempted (r : Report) : Nat :=
  r.executed + r.failures.length

namespace Run

/-- What the report says after a step. Only a run that goes on attempts a statement, and the last
that is heard of one that failed is what the report lists. -/
theorem report_step (d : Dispatcher δ ε) (run : Run) (state : δ) :
    ((run.step d state).progress = .finished ∧ (run.step d state).run.report = run.report) ∨
    (∃ line, (run.step d state).progress = .executed line ∧
      (run.step d state).run.report = run.report.addSuccess) ∨
    (∃ line error, (run.step d state).progress = .failed line ∧
      (run.step d state).run.report =
        run.report.addFailure { line, error } (run.policy = .abort) ∧
      run.report.aborted = false ∧
      (run.step d state).events.getLast? = some (.failed { line, error })) := by
  rcases step_cases d run state with ⟨-, h_step⟩ | ⟨-, scope, -, h_step⟩ |
    ⟨h_now, scope, first, rest, outer, -, h_step⟩
  · rw [h_step]
    exact .inl ⟨rfl, rfl⟩
  · rw [h_step]
    exact .inl ⟨rfl, rfl⟩
  · rw [h_step]
    rcases report_record run first.line (rest :: outer) (first.execute d scope state) with
      ⟨h_progress, h_report⟩ | ⟨h_progress, error, h_report, h_last⟩
    · exact .inr (.inl ⟨first.line, h_progress, h_report⟩)
    · exact .inr (.inr ⟨first.line, error, h_progress, h_report, h_now, h_last⟩)

/-- A step that does something adds one statement to the report. -/
theorem attempted_step (d : Dispatcher δ ε) (run : Run) (state : δ)
    (h : (run.step d state).progress ≠ .finished) :
    (run.step d state).run.report.attempted = run.report.attempted + 1 := by
  rcases report_step d run state with ⟨h_finished, -⟩ | ⟨line, -, h_report⟩ |
    ⟨line, error, -, h_report, -⟩
  · -- a success counts as executed and a failure is listed, and `attempted` adds the two up
    exact absurd h_finished h
  · rw [h_report]
    exact Nat.add_right_comm run.report.executed 1 run.report.failures.length
  · rw [h_report, Report.attempted, Report.attempted, Report.addFailure, List.length_append]
    rfl

/-- Only a step that attempted a statement adds a failure, on the line of that statement. -/
theorem failures_step_sublist (d : Dispatcher δ ε) (run : Run) (state : δ) :
    ((run.step d state).run.report.failures.map Failure.line).Sublist
      (run.report.failures.map Failure.line ++ (run.step d state).progress.line?.toList) := by
  rcases report_step d run state with ⟨-, h_report⟩ | ⟨line, -, h_report⟩ |
    ⟨line, error, h_progress, h_report, -⟩
  · rw [h_report]
    exact List.sublist_append_left _ _
  · rw [h_report]
    exact List.sublist_append_left _ _
  · rw [h_report, h_progress, Report.addFailure, List.map_append]
    exact List.Sublist.refl _

/-! ### Traces -/

/-- What the first so many steps do. -/
def trace (d : Dispatcher δ ε) : Nat → Run → δ → List (Advance δ ε)
  | 0, _, _ => []
  | n + 1, run, state =>
    run.step d state :: trace d n (run.step d state).run (run.step d state).state

/-- The lines of the statements that the first so many steps attempt. -/
def attemptedLines (d : Dispatcher δ ε) (n : Nat) (run : Run) (state : δ) : List Nat :=
  (trace d n run state).filterMap fun advance => advance.progress.line?

/-- The lines of one more step: that of the first step, if it attempted a statement, and those
behind it. -/
theorem attemptedLines_succ (d : Dispatcher δ ε) (n : Nat) (run : Run) (state : δ) :
    attemptedLines d (n + 1) run state =
      (run.step d state).progress.line?.toList ++
        attemptedLines d n (run.step d state).run (run.step d state).state := by
  unfold attemptedLines
  rw [trace, List.filterMap_cons]
  cases (run.step d state).progress.line? <;> rfl

/-- The failures of a run stand on lines that were attempted, in the order of the attempts. -/
theorem failures_after_sublist (d : Dispatcher δ ε) (n : Nat) (run : Run) (state : δ) :
    ((after d n run state).1.report.failures.map Failure.line).Sublist
      (run.report.failures.map Failure.line ++ attemptedLines d n run state) := by
  induction n generalizing run state with
  | zero => exact List.sublist_append_left _ _
  | succ n ih =>
    rw [attemptedLines_succ, ← List.append_assoc]
    -- what the first step adds to the failures, it adds to the lines as well
    exact (ih _ _).trans ((failures_step_sublist d run state).append_right _)

/-! ### Stepping on after the end -/

/-- A step that finds nothing to do does nothing, and leaves nothing for a further step. -/
theorem step_of_finished {d : Dispatcher δ ε} {run : Run} {state : δ}
    (h : (run.step d state).progress = .finished) :
    run.step d state = { progress := .finished, run := (run.step d state).run, state } ∧
      ∀ later, (run.step d state).run.step d later =
        { progress := .finished, run := (run.step d state).run, state := later } := by
  rcases step_cases d run state with ⟨h_stopped, h_step⟩ | ⟨h_now, scope, -, h_step⟩ |
    ⟨-, scope, first, rest, outer, -, h_step⟩
  · rw [h_step]
    refine ⟨rfl, fun later => ?_⟩
    rw [step, if_pos h_stopped]
  · rw [h_step]
    refine ⟨rfl, fun later => ?_⟩
    -- no block is open any more, so none is left
    rw [step, if_neg (by rw [h_now]; exact Bool.false_ne_true)]
    rfl
  · rw [h_step] at h
    exact absurd h (progress_record_ne_finished _ _ _ _)

/-- A run with nothing left to do ends with its next step. -/
theorem finish_of_finished {d : Dispatcher δ ε} {run : Run} {state : δ}
    (h : (run.step d state).progress = .finished) : run.finish d state = run.step d state := by
  rw [finish, dif_pos h]

/-- A run with something left to do takes a step, and ends where the run behind it ends. -/
theorem finish_of_not_finished {d : Dispatcher δ ε} {run : Run} {state : δ}
    (h : (run.step d state).progress ≠ .finished) :
    run.finish d state =
      { (run.step d state).run.finish d (run.step d state).state with
        events := (run.step d state).events ++
          ((run.step d state).run.finish d (run.step d state).state).events } := by
  rw [finish, dif_neg h]

/-- A step on the way does not change where a run ends. -/
theorem finish_step (d : Dispatcher δ ε) (run : Run) (state : δ) :
    ((run.step d state).run.finish d (run.step d state).state).run = (run.finish d state).run ∧
      ((run.step d state).run.finish d (run.step d state).state).state =
        (run.finish d state).state := by
  by_cases h : (run.step d state).progress = .finished
  · -- after the end, finishing is a step that finds nothing to do
    obtain ⟨h_here, h_again⟩ := step_of_finished h
    have h_later := h_again (run.step d state).state
    rw [finish_of_finished h, finish_of_finished (by rw [h_later]), h_later]
    exact ⟨rfl, rfl⟩
  · rw [finish_of_not_finished h]
    exact ⟨rfl, rfl⟩

/-! ### Attempts -/

/-- The steps of a run that do something, up to its end. -/
def attempts (d : Dispatcher δ ε) (run : Run) (state : δ) : List (Advance δ ε) :=
  if h : (run.step d state).progress = .finished then []
  else
    have := pending_step_lt d run state h
    run.step d state :: attempts d (run.step d state).run (run.step d state).state
termination_by run.pending

/-- **What finishing a run comes to, in terms of its attempts.** All that happens happens in them,
each adds one statement to the report, and the run that they end in has nothing left to do. -/
theorem finish_eq_attempts (d : Dispatcher δ ε) (run : Run) (state : δ) :
    (run.finish d state).events = (attempts d run state).flatMap Advance.events ∧
      (run.finish d state).run.report.attempted =
        run.report.attempted + (attempts d run state).length ∧
      ∀ later, (run.finish d state).run.step d later =
        { progress := .finished, run := (run.finish d state).run, state := later } := by
  fun_induction attempts d run state with
  | case1 run state h =>
    -- nothing is left to do: no event, no attempt, and the report stays as it is
    obtain ⟨h_here, h_again⟩ := step_of_finished h
    rw [finish_of_finished h]
    refine ⟨by rw [h_here]; rfl, ?_, h_again⟩
    rcases report_step d run state with ⟨-, h_report⟩ | ⟨line, h_line, -⟩ | ⟨line, error, h_line, -⟩
    · rw [h_report]
      rfl
    · rw [h] at h_line
      cases h_line
    · rw [h] at h_line
      cases h_line
  | case2 run state h _ ih =>
    -- the first step is an attempt, and the rest comes from the run behind it
    obtain ⟨h_events, h_attempted, h_again⟩ := ih
    rw [finish_of_not_finished h]
    refine ⟨?_, ?_, h_again⟩
    · rw [List.flatMap_cons, ← h_events]
    · rw [h_attempted, attempted_step d run state h, List.length_cons]
      omega

end Run

end LineScript
