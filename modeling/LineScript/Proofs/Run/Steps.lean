import LineScript.Run

/-!
# What a step of a run can do

`Run.step` leaves the blocks that are used up and then carries out one statement, if one is left.
`step_cases` says so once, and every invariant of runs is derived from it: a run that was stopped
stays as it is, a run with nothing left only loses its used-up blocks, and any other run carries out
the first statement of its innermost block. What that statement can do to the variables, and to the
blocks that are open, is said by `Statement.execute_cases`; `report_record` says what is written
down of it. An invariant that every step keeps holds after any number of steps (`after_induction`).

`Run.finish` is the loop that steps until nothing is left to do. `finish_eq_last_step` reads it as
what it is: there is a first step that reports that the run is finished, it comes after no more
steps than there were statements, and the loop ends with what that step leaves.
-/

namespace LineScript

variable {δ ε : Type}

/-! ### What a statement can do -/

/-- The assignment that a statement makes in a scope: its name, and the value of its expression. -/
def Statement.assignment? (scope : Scope) : Statement → Option (String × Value)
  | .assign _ name expression => (scope.resolve expression).toOption.map (name, ·)
  | _ => none

/-- **The three things a statement can do** to the variables: it makes an assignment, it leaves them
as they are, or it enters a block with a frame for it. -/
theorem Statement.execute_cases (d : Dispatcher δ ε) (scope : Scope) (state : δ) (s : Statement) :
    (∃ name v, s.assignment? scope = some (name, v) ∧
      (s.execute d scope state).scope = scope.assign name v ∧
      (s.execute d scope state).entered = none) ∨
    (s.assignment? scope = none ∧ (s.execute d scope state).scope = scope ∧
      (s.execute d scope state).entered = none) ∨
    (s.assignment? scope = none ∧ (s.execute d scope state).scope = scope.push ∧
      ∃ block, (s.execute d scope state).entered = some block) := by
  cases s with
  | assign line name expression =>
    rw [execute, assignment?]
    cases scope.resolve expression with
    | ok v => exact .inl ⟨name, v, rfl, rfl, rfl⟩
    | error e => exact .inr (.inl ⟨rfl, rfl, rfl⟩)
  | command line text => exact .inr (.inl ⟨rfl, rfl, rfl⟩)
  | branch line condition thenBlock elseBlock =>
    rw [execute]
    cases scope.resolve condition >>= Value.asBoolean with
    -- whichever branch is taken, and be it empty, a block is entered
    | ok taken => exact .inr (.inr ⟨rfl, rfl, _, rfl⟩)
    | error e => exact .inr (.inl ⟨rfl, rfl, rfl⟩)

namespace Run

/-! ### What a step can do -/

/-- A block with a statement in front is not left. -/
theorem leave_cons_cons (scope : Scope) (first : Statement) (rest : List Statement)
    (outer : List (List Statement)) :
    leave scope ((first :: rest) :: outer) = (scope, (first :: rest) :: outer) := by
  rw [leave] <;> nofun

/-- A block that is used up is left, unless it is the outermost one: its frame goes, and so do all
that are used up behind it. -/
theorem leave_nil_cons (scope : Scope) {blocks : List (List Statement)} (h : blocks ≠ []) :
    leave scope ([] :: blocks) = leave scope.pop blocks := by
  obtain ⟨outer, rest, rfl⟩ := List.exists_cons_of_ne_nil h
  rw [leave]

/-- After leaving, either no block is open or the innermost one has a statement in front. -/
theorem leave_eq (scope : Scope) (blocks : List (List Statement)) :
    (leave scope blocks).2 = [] ∨
      ∃ first rest outer, (leave scope blocks).2 = (first :: rest) :: outer := by
  fun_induction leave scope blocks with
  | case1 => exact .inl rfl
  | case2 => exact .inl rfl
  | case3 scope next rest ih => exact ih
  | case4 scope blocks h_none h_last h_inner =>
    -- no other pattern of `leave` applies, so the innermost block is not used up
    cases blocks with
    | nil => exact absurd rfl h_none
    | cons inner outer =>
      cases inner with
      | cons first rest => exact .inr ⟨first, rest, outer, rfl⟩
      | nil =>
        cases outer with
        | nil => exact absurd rfl h_last
        | cons next outer => exact absurd rfl (h_inner next outer)

/-- **The three things a step can do.** -/
theorem step_cases (d : Dispatcher δ ε) (run : Run) (state : δ) :
    (run.report.aborted = true ∧
      run.step d state = { progress := .finished, run, state }) ∨
    (run.report.aborted = false ∧ ∃ scope, leave run.scope run.blocks = (scope, []) ∧
      run.step d state =
        { progress := .finished, run := { run with scope, blocks := [] }, state }) ∨
    (run.report.aborted = false ∧ ∃ scope first rest outer,
      leave run.scope run.blocks = (scope, (first :: rest) :: outer) ∧
      run.step d state =
        record run first.line (rest :: outer) (first.execute d scope state)) := by
  cases h : run.report.aborted with
  | true =>
    refine .inl ⟨rfl, ?_⟩
    rw [step, if_pos h]
  | false =>
    have h_step : run.step d state = _ := if_neg (by rw [h]; exact Bool.false_ne_true)
    -- what is left to do shows only after the blocks that are used up have been left
    rcases leave_eq run.scope run.blocks with h_left | ⟨first, rest, outer, h_left⟩
    · have h_leave : leave run.scope run.blocks = ((leave run.scope run.blocks).1, []) :=
        Prod.ext rfl h_left
      refine .inr (.inl ⟨rfl, _, h_leave, ?_⟩)
      rw [h_step, h_leave]
    · have h_leave : leave run.scope run.blocks =
          ((leave run.scope run.blocks).1, (first :: rest) :: outer) := Prod.ext rfl h_left
      refine .inr (.inr ⟨rfl, _, first, rest, outer, h_leave, ?_⟩)
      rw [h_step, h_leave]

/-- The blocks of a run that has a statement in front need not be left. -/
theorem step_of_first (d : Dispatcher δ ε) {run : Run} {first : Statement} {rest : List Statement}
    {outer : List (List Statement)} (h : run.report.aborted = false)
    (h_blocks : run.blocks = (first :: rest) :: outer) (state : δ) :
    run.step d state = record run first.line (rest :: outer) (first.execute d run.scope state) := by
  rw [step, if_neg (by rw [h]; exact Bool.false_ne_true), h_blocks, leave_cons_cons]

/-! ### What is recorded of a statement -/

section Record

variable (run : Run) (line : Nat) (blocks : List (List Statement)) (effect : Effect δ ε)

/-- The block that a statement enters comes in front of those that were open. -/
@[simp]
theorem blocks_record :
    (record run line blocks effect).run.blocks = effect.entered.toList ++ blocks := by
  unfold record
  split <;> rfl

/-- The run goes on with the variables that the statement leaves behind, and so does one that it
failed in. -/
@[simp]
theorem scope_record : (record run line blocks effect).run.scope = effect.scope := by
  unfold record
  split <;> rfl

/-- A statement that was carried out succeeded or failed, and the report says so. The last that is
heard of a statement that failed is its failure. -/
theorem report_record :
    ((record run line blocks effect).progress = .executed line ∧
      (record run line blocks effect).run.report = run.report.addSuccess) ∨
    ((record run line blocks effect).progress = .failed line ∧ ∃ error,
      (record run line blocks effect).run.report =
        run.report.addFailure { line, error } (run.policy = .abort) ∧
      (record run line blocks effect).events.getLast? = some (.failed { line, error })) := by
  unfold record
  split
  · exact .inl ⟨rfl, rfl⟩
  · next error _ => exact .inr ⟨rfl, error, rfl, List.getLast?_concat⟩

/-- No statement changes what becomes of a run that fails. -/
@[simp]
theorem policy_record : (record run line blocks effect).run.policy = run.policy := by
  unfold record
  split <;> rfl

/-- A step that carried out a statement does not say that the run is finished. -/
theorem progress_record_ne_finished : (record run line blocks effect).progress ≠ .finished := by
  unfold record
  split <;> exact nofun

end Record

/-! ### Stepping to the end -/

/-- The run and the dispatcher's state after so many steps. -/
def after (d : Dispatcher δ ε) : Nat → Run → δ → Run × δ
  | 0, run, state => (run, state)
  | n + 1, run, state => after d n (run.step d state).run (run.step d state).state

/-- What the step after so many steps does. -/
def stepAfter (d : Dispatcher δ ε) (n : Nat) (run : Run) (state : δ) : Advance δ ε :=
  (after d n run state).1.step d (after d n run state).2

/-- **What every step keeps holds after any number of steps.** -/
theorem after_induction {d : Dispatcher δ ε} {P : Run → Prop}
    (h_step : ∀ run state, P run → P (run.step d state).run) {run : Run} (h : P run) (n : Nat)
    (state : δ) : P (after d n run state).1 := by
  induction n generalizing run state with
  | zero => exact h
  | succ n ih => exact ih (h_step run state h) _

@[simp]
theorem stepAfter_zero (d : Dispatcher δ ε) (run : Run) (state : δ) :
    stepAfter d 0 run state = run.step d state := rfl

@[simp]
theorem stepAfter_succ (d : Dispatcher δ ε) (n : Nat) (run : Run) (state : δ) :
    stepAfter d (n + 1) run state =
      stepAfter d n (run.step d state).run (run.step d state).state := rfl

/-- **A run that is stepped to its end gets there.** Some step is the first to say that the run is
finished, after at most as many steps as statements were pending, and `finish` ends as it does. -/
theorem finish_eq_last_step (d : Dispatcher δ ε) (run : Run) (state : δ) :
    ∃ n ≤ run.pending, (∀ k < n, (stepAfter d k run state).progress ≠ .finished) ∧
      (stepAfter d n run state).progress = .finished ∧
      (run.finish d state).progress = .finished ∧
      (run.finish d state).run = (stepAfter d n run state).run ∧
      (run.finish d state).state = (stepAfter d n run state).state := by
  induction h_pending : run.pending using Nat.strongRecOn generalizing run state with
  | ind m ih =>
    -- `finish` recurses on the statements pending, and the induction is on their number
    rw [finish]
    by_cases h_first : (run.step d state).progress = .finished
    · -- the first step already finds nothing to do
      refine ⟨0, Nat.zero_le _, fun k hk => absurd hk (Nat.not_lt_zero k), h_first, ?_⟩
      rw [dif_pos h_first]
      exact ⟨h_first, rfl, rfl⟩
    · -- a step that does something leaves fewer statements pending
      have h_less := pending_step_lt d run state h_first
      obtain ⟨n, h_n, h_before, h_at, h_finish⟩ := ih _ (by omega) (run.step d state).run
        (run.step d state).state rfl
      refine ⟨n + 1, by omega, ?_, h_at, ?_⟩
      · intro k hk
        cases k with
        | zero => exact h_first
        | succ k => exact h_before k (by omega)
      · rw [dif_neg h_first]
        exact h_finish

end Run

end LineScript
