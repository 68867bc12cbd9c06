import LineScript.Dispatch.CommandTable
import LineScript.Proofs.Run.Draining

/-!
# A statement that fails

A statement can fail at several stages: its expression has no value, its condition is no truth
value, its command cannot be read, or whoever carries the command out gives up. Whatever the stage,
the failure goes into the report and nothing else changes. The statement is used up, and the blocks
that a step leaves on its way are left, as they would be for a statement that succeeds.

* `Statement.execute_of_error`: a statement that fails changes no variable and enters no block.
  `step_of_failed` turns this around: from a step that says that it failed to what it did;
* `Action.Unreadable`: the command cannot be read, since its leading word is no name or one of its
  arguments has no value. These are the only reasons (`Action.unreadable_iff`);
* `CommandTable.Unasked`: a command is settled without a look at the table, so that any other
  handlers and any other fallback would have led to the same answer. It is so **exactly for the
  commands that cannot be read** (`CommandTable.unasked_iff`);
* `failing_step_only_reports`: the run, the queue and the table after a step that failed.
-/

namespace LineScript

variable {δ ε : Type}

/-! ### Commands that cannot be read -/

/-- One computation after the other fails if the first fails, or if it succeeds and the second
fails. -/
theorem exists_bind_eq_error_iff {α β : Type} {x : Except Error α} {f : α → Except Error β} :
    (∃ e, x >>= f = .error e) ↔ (∃ e, x = .error e) ∨ ∃ a, x = .ok a ∧ ∃ e, f a = .error e := by
  cases x with
  | error e => exact ⟨fun _ => .inl ⟨e, rfl⟩, fun _ => ⟨e, rfl⟩⟩
  | ok a =>
    constructor
    · intro h
      exact .inr ⟨a, rfl, h⟩
    · rintro (⟨_, h⟩ | ⟨_, h, h_next⟩)
      · cases h
      · cases h
        exact h_next

/-- A list of computations fails if one of them does. -/
theorem exists_mapM_eq_error_iff {α β : Type} (f : α → Except Error β) (xs : List α) :
    (∃ e, xs.mapM f = .error e) ↔ ∃ x ∈ xs, ∃ e, f x = .error e := by
  induction xs with
  | nil => simp [pure, Except.pure]
  | cons x xs ih =>
    simp only [List.mapM_cons, exists_bind_eq_error_iff, List.mem_cons, exists_eq_or_imp, ← ih]
    cases f x with
    | error e => simp
    | ok y =>
      -- the first one succeeds, so the others decide
      simp [pure, Except.pure]

/-- The leading word of the command is no name, or one of its arguments has no value. -/
def Action.Unreadable (text : String) (scope : Scope) : Prop :=
  (∃ e, parts text = .error e) ∨
    ∃ name arguments, parts text = .ok (name, arguments) ∧
      ∃ argument ∈ arguments, ∃ e, scope.resolve argument = .error e

/-- **The only reasons for which a command cannot be read.** -/
theorem Action.unreadable_iff {text : String} {scope : Scope} :
    Unreadable text scope ↔ ∃ e, parse text scope = .error e := by
  rw [Unreadable, parse, exists_bind_eq_error_iff]
  -- the leading word is settled first, so what is left is the arguments
  refine or_congr_right ?_
  constructor
  · rintro ⟨name, arguments, h_parts, h_argument⟩
    refine ⟨_, h_parts, exists_bind_eq_error_iff.mpr (.inl ?_)⟩
    exact (exists_mapM_eq_error_iff _ _).mpr h_argument
  · rintro ⟨⟨name, arguments⟩, h_parts, h_rest⟩
    refine ⟨name, arguments, h_parts, ?_⟩
    obtain h_values | ⟨values, -, _, h_pure⟩ := exists_bind_eq_error_iff.mp h_rest
    · exact (exists_mapM_eq_error_iff _ _).mp h_values
    · cases h_pure

/-- The answer to the command is the same for all tables, whatever their handlers and fallbacks. -/
def CommandTable.Unasked (ε : Type) (text : String) (scope : Scope) : Prop :=
  ∀ table other : CommandTable ε, (dispatch text scope table).1 = (dispatch text scope other).1

/-- **A table is left alone exactly by the commands that cannot be read.** For any other command an
empty table and one with a fallback differ. -/
theorem CommandTable.unasked_iff {text : String} {scope : Scope} :
    Unasked ε text scope ↔ Action.Unreadable text scope := by
  rw [Action.unreadable_iff]
  constructor
  · intro h
    cases h_parse : Action.parse text scope with
    | error e => exact ⟨e, rfl⟩
    | ok action =>
      -- the action reaches the table, where the empty one fails and the fallback does not
      have h_answer := congrArg Response.result
        (h {} (withFallback {} fun _ => { result := .ok () }))
      simp only [dispatch, h_parse] at h_answer
      cases h_answer
  · rintro ⟨e, h_parse⟩ table other
    simp only [dispatch, h_parse]

/-! ### What a failure leaves alone -/

/-- **A statement that fails changes no variable and enters no block.** -/
theorem Statement.execute_of_error {d : Dispatcher δ ε} {scope : Scope} {state : δ} {s : Statement}
    {error : Error} (h : (s.execute d scope state).result = .error error) :
    (s.execute d scope state).scope = scope ∧ (s.execute d scope state).entered = none := by
  cases s with
  | assign line name expression =>
    rw [execute] at h ⊢
    cases h_value : scope.resolve expression with
    | ok v =>
      -- an assignment that has a value does not fail
      rw [h_value] at h
      cases h
    | error e => exact ⟨rfl, rfl⟩
  | command line text => exact ⟨rfl, rfl⟩
  | branch line condition thenBlock elseBlock =>
    rw [execute] at h ⊢
    cases h_value : scope.resolve condition >>= Value.asBoolean with
    | ok taken =>
      rw [h_value] at h
      cases h
    | error e => exact ⟨rfl, rfl⟩

/-- Only a command gets to see the state of the dispatcher, and a command that fails leaves the
queue alone. -/
theorem Statement.state_execute_queue {scope : Scope} {queue : ActionQueue} {s : Statement}
    {error : Error}
    (h : (s.execute (ActionQueue.dispatch (ε := ε)) scope queue).result = .error error) :
    (s.execute (ActionQueue.dispatch (ε := ε)) scope queue).state = queue := by
  cases s with
  | assign line name expression =>
    rw [execute]
    cases scope.resolve expression <;> rfl
  | command line text => exact ActionQueue.dispatch_of_error h
  | branch line condition thenBlock elseBlock =>
    rw [execute]
    cases scope.resolve condition >>= Value.asBoolean <;> rfl

/-- A statement that is no command that could be read does the same with every table. -/
theorem Statement.execute_table {scope : Scope} {s : Statement}
    (h : ∀ line text, s = .command line text → Action.Unreadable text scope)
    (table other : CommandTable ε) :
    s.execute CommandTable.dispatch scope other =
      { s.execute CommandTable.dispatch scope table with state := other } := by
  cases s with
  | assign line name expression =>
    rw [execute, execute]
    cases scope.resolve expression <;> rfl
  | command line text =>
    have h_answer := CommandTable.unasked_iff.mpr (h line text rfl) other table
    have h_state : (CommandTable.dispatch text scope other).2 = other := by
      unfold CommandTable.dispatch
      cases Action.parse text scope <;> rfl
    rw [execute, execute, Effect.ofCommand, Effect.ofCommand, h_answer, h_state]
  | branch line condition thenBlock elseBlock =>
    rw [execute, execute]
    cases scope.resolve condition >>= Value.asBoolean <;> rfl

namespace Run

theorem state_record (run : Run) (line : Nat) (blocks : List (List Statement))
    (effect : Effect δ ε) : (record run line blocks effect).state = effect.state := by
  unfold record
  split <;> rfl

/-- The dispatcher's state goes through the record as it is. -/
theorem record_with_state (run : Run) (line : Nat) (blocks : List (List Statement))
    (effect : Effect δ ε) (state : δ) :
    record run line blocks { effect with state } =
      { record run line blocks effect with state } := by
  unfold record
  dsimp only
  cases effect.result <;> rfl

/-- What was recorded of a statement that failed. -/
theorem record_of_failed {run : Run} {line line' : Nat} {blocks : List (List Statement)}
    {effect : Effect δ ε} (h : (record run line blocks effect).progress = .failed line') :
    line = line' ∧ ∃ error, effect.result = .error error ∧
      (record run line blocks effect).run =
        { run with
          scope := effect.scope
          blocks := effect.entered.toList ++ blocks
          report := run.report.addFailure { line, error } (run.policy = .abort) } := by
  unfold record at h ⊢
  cases h_result : effect.result with
  -- the step says that it failed, so the statement did
  | ok _ => simp [h_result] at h
  | error error =>
    simp only [h_result, Progress.failed.injEq] at h
    exact ⟨h, error, rfl, rfl⟩

/-- **What a step did that says that it failed.** It left the blocks that were used up, and it
carried out a statement, which failed. -/
theorem step_of_failed {d : Dispatcher δ ε} {run : Run} {state : δ} {line : Nat}
    (h : (run.step d state).progress = .failed line) :
    ∃ scope statement rest outer error,
      leave run.scope run.blocks = (scope, (statement :: rest) :: outer) ∧
      statement.line = line ∧
      run.step d state = record run line (rest :: outer) (statement.execute d scope state) ∧
      (statement.execute d scope state).result = .error error ∧
      (run.step d state).run =
        { run with
          scope
          blocks := rest :: outer
          report := run.report.addFailure { line, error } (run.policy = .abort) } := by
  obtain ⟨-, h_step⟩ | ⟨-, _, -, h_step⟩ | ⟨-, scope, statement, rest, outer, h_leave, h_step⟩ :=
    step_cases d run state
  · rw [h_step] at h
    cases h
  · rw [h_step] at h
    cases h
  · rw [h_step] at h
    obtain ⟨rfl, error, h_error, h_run⟩ := record_of_failed h
    obtain ⟨h_scope, h_entered⟩ := Statement.execute_of_error h_error
    refine ⟨scope, statement, rest, outer, error, h_leave, rfl, h_step, h_error, ?_⟩
    rw [h_step, h_run, h_scope, h_entered]
    rfl

/-- A table is not asked by a statement that is no command, nor by a command that cannot be read. -/
theorem step_table {run : Run} {scope : Scope} {statement : Statement} {rest : List Statement}
    {outer : List (List Statement)}
    (h_leave : leave run.scope run.blocks = (scope, (statement :: rest) :: outer))
    (h : ∀ line text, statement = .command line text → Action.Unreadable text scope)
    (table other : CommandTable ε) :
    run.step CommandTable.dispatch other =
      { run.step CommandTable.dispatch table with state := other } := by
  unfold step
  split
  · -- a run that was stopped asks nobody
    rfl
  · rw [h_leave]
    dsimp only
    rw [Statement.execute_table h table other, record_with_state]

/-- **A statement that fails changes nothing but the report.** After a step that says that the
statement on a line failed, the blocks that were used up are left, and the statement was the next
one. The variables are those of the scope that it stood in, no block was entered, exactly that
statement is used up, and the report lists one failure more, on that line and with the statement's
error. If commands are queued, the queue is as it was. If they go to a table, then neither a handler
nor the fallback is asked unless the statement is a command that can be read: any other table would
have led to the same. -/
theorem failing_step_only_reports (run : Run) (line : Nat) :
    (∀ (d : Dispatcher δ ε) (state : δ), (run.step d state).progress = .failed line →
      ∃ scope statement rest outer error,
        leave run.scope run.blocks = (scope, (statement :: rest) :: outer) ∧
        statement.line = line ∧
        (statement.execute d scope state).result = .error error ∧
        (run.step d state).run =
          { run with
            scope
            blocks := rest :: outer
            report :=
              { executed := run.report.executed
                failures := run.report.failures ++ [{ line, error }]
                aborted := run.policy = .abort } }) ∧
    (∀ queue : ActionQueue,
      (run.step (ActionQueue.dispatch (ε := ε)) queue).progress = .failed line →
      (run.step (ActionQueue.dispatch (ε := ε)) queue).state = queue) ∧
    ∀ (table : CommandTable ε) (scope : Scope) (statement : Statement) (rest : List Statement)
      (outer : List (List Statement)),
      leave run.scope run.blocks = (scope, (statement :: rest) :: outer) →
      (run.step CommandTable.dispatch table).progress = .failed line →
      (∀ l text, statement = .command l text → Action.Unreadable text scope) →
      ∀ other : CommandTable ε, run.step CommandTable.dispatch other =
        { run.step CommandTable.dispatch table with state := other } := by
  refine ⟨?_, ?_, ?_⟩
  · intro d state h
    obtain ⟨scope, statement, rest, outer, error, h_leave, h_line, -, h_error, h_run⟩ :=
      step_of_failed h
    exact ⟨scope, statement, rest, outer, error, h_leave, h_line, h_error, h_run⟩
  · intro queue h
    obtain ⟨scope, statement, rest, outer, error, -, -, h_step, h_error, -⟩ := step_of_failed h
    rw [h_step, state_record, Statement.state_execute_queue h_error]
  · intro table scope statement rest outer h_leave _ h_unreadable other
    exact step_table h_leave h_unreadable table other

/-- A run that still stands in a branch that is used up, before a command without a name. -/
def nameless : Run where
  scope := Scope.push {}
  blocks := [[], [.command 2 "1", .command 3 "wait"]]
  policy := .abort
  report := { executed := 1 }

/-- A command without a name in `nameless`: the used-up branch is left, the queue is as it was, and
the table is not asked. -/
theorem failing_step_only_reports_nameless :
    (nameless.step (ActionQueue.dispatch (ε := Unit)) { pending := [⟨"shoot", []⟩] }).progress =
        .failed 2 ∧
      (∃ scope statement rest outer error,
        leave nameless.scope nameless.blocks = (scope, (statement :: rest) :: outer) ∧
        (nameless.step (ActionQueue.dispatch (ε := Unit)) { pending := [⟨"shoot", []⟩] }).run =
          { nameless with
            scope
            blocks := rest :: outer
            report := { executed := 1, failures := [{ line := 2, error }], aborted := true } }) ∧
      (nameless.step (ActionQueue.dispatch (ε := Unit)) { pending := [⟨"shoot", []⟩] }).state =
        { pending := [⟨"shoot", []⟩] } ∧
      Action.Unreadable "1" {} ∧
      ∀ other : CommandTable Unit, nameless.step CommandTable.dispatch other =
        { nameless.step CommandTable.dispatch CommandTable.builtins with state := other } := by
  obtain ⟨h_run, h_queue, h_table⟩ := failing_step_only_reports (δ := ActionQueue) (ε := Unit)
    nameless 2
  have h_unreadable : Action.Unreadable "1" {} := .inl ⟨_, rfl⟩
  obtain ⟨scope, statement, rest, outer, error, h_leave, -, -, h_after⟩ :=
    h_run ActionQueue.dispatch { pending := [⟨"shoot", []⟩] } rfl
  refine ⟨rfl, ⟨scope, statement, rest, outer, error, h_leave, h_after⟩, h_queue _ rfl,
    h_unreadable, h_table CommandTable.builtins _ _ _ _ rfl rfl ?_⟩
  rintro _ _ ⟨⟩
  exact h_unreadable

end Run

end LineScript
