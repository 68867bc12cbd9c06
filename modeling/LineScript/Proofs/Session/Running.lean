import LineScript.Proofs.Run.Lockstep
import LineScript.Proofs.Session.Stepping

/-!
# Whether a run is finished

A host may ask a run whether it is finished, or just have it take a step and see. The question looks
at all open blocks at once and takes none off; a step takes blocks off from the inside until it
finds a statement. Blocks that are used up may lie over others that are not, and the other way
round, so the two answers agree for a reason.

* `leave_eq_nil_iff`: leaving blocks comes to the end exactly if all of them are used up;
* `isFinished_iff`: **the question tells what the next step will say**, for whichever dispatcher;
* `step_of_isFinished`: the step of a finished run, which is the same for all dispatchers;
* `Reaches`: what a host can make of a run by steps, and by any change of the variables in between.
  A finished run stays finished through all of it (`Reaches.isFinished`);
* `isRunning_iff`: a session is running exactly if its next step attempts a statement;
* `isFinished_tells_next_step`: all of this together.
-/

namespace LineScript

variable {δ ε : Type}

namespace Run

/-- **Leaving blocks comes to the end exactly if all of them are used up.** -/
theorem leave_eq_nil_iff (scope : Scope) (blocks : List (List Statement)) :
    (leave scope blocks).2 = [] ↔ blocks.all List.isEmpty = true := by
  fun_induction leave scope blocks with
  | case1 => exact ⟨fun _ => rfl, fun _ => rfl⟩
  | case2 => exact ⟨fun _ => rfl, fun _ => rfl⟩
  | case3 scope outer rest ih =>
    -- the block that is taken off is used up, so it does not count
    rw [ih, List.all_cons (a := []), List.isEmpty_nil, Bool.true_and]
  | case4 scope blocks h_none h_last h_inner =>
    -- the innermost block has a statement, and nothing is taken off
    cases blocks with
    | nil => exact absurd rfl h_none
    | cons inner outer =>
      cases inner with
      | cons first rest => simp
      | nil =>
        cases outer with
        | nil => exact absurd rfl h_last
        | cons next outer => exact absurd rfl (h_inner next outer)

/-- A run is finished if it was stopped, or if leaving blocks comes to the end. -/
theorem isFinished_eq_true_iff (run : Run) :
    run.isFinished = true ↔
      run.report.aborted = true ∨ (leave run.scope run.blocks).2 = [] := by
  rw [isFinished, Bool.or_eq_true, leave_eq_nil_iff]

/-- **Whether a run is finished tells what its next step will say.** -/
theorem isFinished_iff (d : Dispatcher δ ε) (run : Run) (state : δ) :
    run.isFinished = true ↔ (run.step d state).progress = .finished := by
  rw [isFinished_eq_true_iff]
  obtain ⟨h_stopped, h_step⟩ | ⟨-, scope, h_leave, h_step⟩ |
    ⟨h_now, scope, first, rest, outer, h_leave, h_step⟩ := step_cases d run state
  · rw [h_step]
    exact ⟨fun _ => rfl, fun _ => .inl h_stopped⟩
  · rw [h_step, h_leave]
    exact ⟨fun _ => rfl, fun _ => .inr rfl⟩
  · rw [h_step, h_leave, h_now]
    constructor
    · -- the run was not stopped, and a block with a statement is left
      rintro (h | h) <;> cases h
    · intro h
      exact absurd h (progress_record_ne_finished _ _ _ _)

/-- The run that a step leaves behind if it finds nothing to do. -/
def closed (run : Run) : Run :=
  if run.report.aborted then run
  else { run with scope := (leave run.scope run.blocks).1, blocks := [] }

/-- The step of a finished run is the same for all dispatchers. -/
theorem step_of_isFinished {run : Run} (h : run.isFinished = true) (d : Dispatcher δ ε)
    (state : δ) : run.step d state = { progress := .finished, run := run.closed, state } := by
  obtain ⟨h_stopped, h_step⟩ | ⟨h_now, scope, h_leave, h_step⟩ |
    ⟨-, scope, first, rest, outer, -, h_step⟩ := step_cases d run state
  · rw [h_step, closed, if_pos h_stopped]
  · rw [h_step, closed, h_now, h_leave]
    rfl
  · -- a step that carries out a statement does not say that the run is finished
    have h_progress := (isFinished_iff d run state).mp h
    rw [h_step] at h_progress
    exact absurd h_progress (progress_record_ne_finished _ _ _ _)

theorem report_closed (run : Run) : run.closed.report = run.report := by
  unfold closed
  split <;> rfl

/-- A run that was closed is still finished. -/
theorem isFinished_closed {run : Run} (h : run.isFinished = true) :
    run.closed.isFinished = true := by
  unfold closed
  split
  · exact h
  · rw [isFinished]
    exact Bool.or_true _

/-! ### Later on -/

/-- A host steps a run, each time with whatever dispatcher it has, and in between puts any scope in
the place of its scope. -/
inductive Reaches (δ ε : Type) (start : Run) : Run → Prop where
  /-- Nothing was done yet. -/
  | start : Reaches δ ε start start
  /-- The run takes a step. -/
  | step {run : Run} (d : Dispatcher δ ε) (state : δ) :
      Reaches δ ε start run → Reaches δ ε start (run.step d state).run
  /-- The variables are changed in any way. -/
  | rescope {run : Run} (scope : Scope) :
      Reaches δ ε start run → Reaches δ ε start { run with scope }

/-- Whether a run is finished does not depend on its variables, and a step does not bring anything
back. -/
theorem Reaches.isFinished {start run : Run} (h : Reaches δ ε start run)
    (h_start : start.isFinished = true) : run.isFinished = true := by
  induction h with
  | start => exact h_start
  | step d state _ ih =>
    rw [step_of_isFinished ih]
    exact isFinished_closed ih
  | rescope scope _ ih => exact ih

end Run

/-! ### Sessions -/

/-- A step that does not say that the run is finished attempted a statement. -/
theorem Progress.ne_finished_iff {progress : Progress} :
    progress ≠ .finished ↔ ∃ line, progress = .executed line ∨ progress = .failed line := by
  cases progress with
  | executed line => exact ⟨fun _ => ⟨line, .inl rfl⟩, fun _ => nofun⟩
  | failed line => exact ⟨fun _ => ⟨line, .inr rfl⟩, fun _ => nofun⟩
  | finished => simp

namespace Session

/-- **A session is running exactly if its next step attempts a statement.** -/
theorem isRunning_iff (h : Host δ ε) (s : Session δ) :
    s.isRunning = true ↔ s.current.isSome ∧ ∃ line,
      (s.step h).result = .ok (.executed line) ∨ (s.step h).result = .ok (.failed line) := by
  cases h_current : s.current with
  | none => simp [isRunning, h_current]
  | some run =>
    -- with a run, both sides speak of the next step of that run
    have h_running : s.isRunning = !run.isFinished := by rw [isRunning, h_current, Option.any_some]
    have h_result : (s.step h).result = .ok (run.step h.dispatch s.state).progress := by
      rw [s.step_of_current h h_current]
    have h_finished := Run.isFinished_iff h.dispatch run s.state
    rw [h_running, Bool.not_eq_true', ← Bool.not_eq_true, h_finished, h_result, Option.isSome_some,
      ← ne_eq, Progress.ne_finished_iff]
    simp

/-- **The question whether a run is finished tells what the next step will say**, in every state of
the run and for every dispatcher. A step that says so has not asked the dispatcher, since any other
would have led to the same; it leaves the state and the report as they are, nothing happens, and all
later steps say so too, whatever becomes of the variables meanwhile. Hence a session is running
exactly if it has a run, and the next step attempts one of its statements. -/
theorem isFinished_tells_next_step (run : Run) :
    (∀ (d : Dispatcher δ ε) (state : δ),
      run.isFinished = true ↔ (run.step d state).progress = .finished) ∧
    (∀ (d : Dispatcher δ ε) (state : δ), (run.step d state).progress = .finished →
      (∀ other : Dispatcher δ ε, run.step other state = run.step d state) ∧
      (run.step d state).state = state ∧
      (run.step d state).events = [] ∧
      (run.step d state).run.report = run.report ∧
      ∀ later, Run.Reaches δ ε (run.step d state).run later →
        ∀ (d' : Dispatcher δ ε) (state' : δ), (later.step d' state').progress = .finished) ∧
    ∀ (h : Host δ ε) (s : Session δ),
      s.isRunning = true ↔ s.current.isSome ∧ ∃ line,
        (s.step h).result = .ok (.executed line) ∨ (s.step h).result = .ok (.failed line) := by
  refine ⟨fun d state => run.isFinished_iff d state, ?_, isRunning_iff⟩
  intro d state h_progress
  have h_finished : run.isFinished = true := (run.isFinished_iff d state).mpr h_progress
  have h_step := Run.step_of_isFinished h_finished d state
  have h_closed := Run.isFinished_closed h_finished
  rw [h_step]
  refine ⟨fun other => Run.step_of_isFinished h_finished other state, rfl, rfl,
    run.report_closed, ?_⟩
  intro later h_later d' state'
  exact (later.isFinished_iff d' state').mp (h_later.isFinished h_closed)

/-- A run inside the two branches of `nested` has used-up blocks on it and is finished all the same;
a session that has only begun `nested` is running. -/
theorem isFinished_tells_next_step_nested :
    (Run.insideNested.step (ActionQueue.dispatch (ε := Unit)) {}).progress = .finished ∧
      Run.insideNested.isFinished = true ∧
      (Run.insideNested.step (ActionQueue.dispatch (ε := Unit)) {}).run.report = { executed := 2 } ∧
      (∀ (scope : Scope) (d : Dispatcher ActionQueue Unit) (queue : ActionQueue),
        (Run.step d { Run.closed Run.insideNested with scope } queue).progress = .finished) ∧
      ∀ h : Host ActionQueue Unit, ∃ line,
        (step h { state := {}, current := some (.ofStatements Run.nested {}) }).result =
          .ok (.executed line) ∨
        (step h { state := {}, current := some (.ofStatements Run.nested {}) }).result =
          .ok (.failed line) := by
  obtain ⟨h_iff, h_end, h_running⟩ :=
    isFinished_tells_next_step (δ := ActionQueue) (ε := Unit) Run.insideNested
  obtain ⟨-, -, -, h_report, h_later⟩ := h_end ActionQueue.dispatch {} rfl
  refine ⟨rfl, (h_iff ActionQueue.dispatch {}).mpr rfl, h_report, ?_, ?_⟩
  · intro scope d queue
    exact h_later _ (.rescope scope .start) d queue
  · intro h
    exact ((h_running h _).mp rfl).2

end Session

end LineScript
