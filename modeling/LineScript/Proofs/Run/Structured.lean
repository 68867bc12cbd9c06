import LineScript.Proofs.Run.Steps

/-!
# Runs and structured execution

A `Run` carries a script out one statement at a time, with a stack of half-executed blocks. What a
script means is simpler to say by recursion on its statements: a block is carried out from top to
bottom, and an `if` carries out one of its branches in a frame of its own. This module gives that
recursive reading, `Structured.block`, and shows that a run ends exactly where it ends.

* `Situation`: what statements can see and change, without any record of what is still to be done;
* `Structured.statement`, `Structured.block`: the recursive reading. Under `Policy.abort` a failure
  stops everything around it, and the frames that were entered stay, since nothing is left to leave
  them;
* `Structured.unwind`: what a stack of half-executed blocks amounts to. The innermost block is
  carried out, its frame is left, and so on outward;
* `destination_step`: **one step of a run keeps what its stack amounts to**. This is the invariant
  behind `finish_eq_structured`, which says that a run that is stepped to its end ends in the
  situation that the recursive reading gives.
-/

namespace LineScript

variable {δ ε : Type}

/-- What the statements of a script can see and change. -/
structure Situation (δ : Type) where
  /-- The variables. -/
  scope : Scope
  /-- What happened so far. -/
  report : Report := {}
  /-- The dispatcher's state. -/
  state : δ

namespace Situation

/-- One more statement succeeded. -/
def succeed (s : Situation δ) : Situation δ :=
  { s with report := { s.report with executed := s.report.executed + 1 } }

/-- The statement on this line failed. Whether that stops the script is a matter of policy. -/
def fail (policy : Policy) (line : Nat) (error : Error) (s : Situation δ) : Situation δ :=
  { s with
    report :=
      { s.report with
        failures := s.report.failures ++ [{ line, error }]
        aborted := policy = .abort } }

/-- Goes on from a situation, unless the script was stopped there. -/
def andThen (s : Situation δ) (next : Situation δ → Situation δ) : Situation δ :=
  if s.report.aborted then s else next s

/-- Enters a branch. -/
def enter (s : Situation δ) : Situation δ :=
  { s with scope := s.scope.push }

/-- Leaves a branch. -/
def leave (s : Situation δ) : Situation δ :=
  { s with scope := s.scope.pop }

/-- After an assignment, given what became of its expression. -/
def assigned (policy : Policy) (line : Nat) (name : String) (s : Situation δ) :
    Except Error Value → Situation δ
  | .ok v => { s.succeed with scope := s.scope.assign name v }
  | .error e => s.fail policy line e

/-- After a command, given its result and the state that the dispatcher is left in. -/
def dispatched (policy : Policy) (line : Nat) (state : δ) (s : Situation δ) :
    Except Error Unit → Situation δ
  | .ok _ => { s.succeed with state }
  | .error e => { s.fail policy line e with state }

/-- After an `if`, given what became of its condition and how its two branches are carried out. The
branch that is taken has a frame of its own. -/
def branched (policy : Policy) (line : Nat) (thenBranch elseBranch : Situation δ → Situation δ)
    (s : Situation δ) : Except Error Bool → Situation δ
  | .ok true => (thenBranch s.succeed.enter).andThen leave
  | .ok false => (elseBranch s.succeed.enter).andThen leave
  | .error e => s.fail policy line e

end Situation

/-! ### The recursive reading -/

namespace Structured

open Situation

mutual

/-- Carries out one statement, with everything inside it. -/
def statement (d : Dispatcher δ ε) (policy : Policy) : Statement → Situation δ → Situation δ
  | .assign line name expression, s =>
    s.assigned policy line name (s.scope.resolve expression)
  | .command line text, s =>
    s.dispatched policy line (d text s.scope s.state).2 (d text s.scope s.state).1.result
  | .branch line condition thenBlock elseBlock, s =>
    s.branched policy line (block d policy thenBlock) (block d policy elseBlock)
      (s.scope.resolve condition >>= Value.asBoolean)

/-- Carries out a block from top to bottom. -/
def block (d : Dispatcher δ ε) (policy : Policy) : List Statement → Situation δ → Situation δ
  | [], s => s
  | first :: rest, s => (statement d policy first s).andThen (block d policy rest)

end

/-- Carries out what remains of a stack of open blocks, the innermost first. Each block but the
outermost has a frame, which is left at its end. -/
def unwind (d : Dispatcher δ ε) (policy : Policy) :
    List (List Statement) → Situation δ → Situation δ
  | [], s => s
  | [last], s => block d policy last s
  | inner :: outer :: rest, s =>
    (block d policy inner s).andThen fun s => unwind d policy (outer :: rest) s.leave

end Structured

/-! ### What a stack amounts to -/

namespace Situation

variable {s : Situation δ} {f g : Situation δ → Situation δ}

theorem andThen_of_aborted (h : s.report.aborted = true) : s.andThen f = s := if_pos h

theorem andThen_of_not_aborted (h : s.report.aborted = false) : s.andThen f = f s :=
  if_neg (by rw [h]; exact Bool.false_ne_true)

/-- Carrying on is associative, so a block can be cut at any statement. -/
theorem andThen_andThen (s : Situation δ) (f g : Situation δ → Situation δ) :
    (s.andThen f).andThen g = s.andThen fun s => (f s).andThen g := by
  -- whatever stops the first part stops all three
  cases h : s.report.aborted with
  | true => rw [andThen_of_aborted h, andThen_of_aborted h, andThen_of_aborted h]
  | false => rw [andThen_of_not_aborted h, andThen_of_not_aborted h]

/-- Leaving a branch can be counted to what is done in the branch, or to what comes after it. -/
theorem andThen_leave (s : Situation δ) (f : Situation δ → Situation δ) :
    (s.andThen leave).andThen f = s.andThen fun s => f s.leave := by
  cases h : s.report.aborted with
  | true => rw [andThen_of_aborted h, andThen_of_aborted h, andThen_of_aborted h]
  | false =>
    -- leaving a branch does not stop a script
    have h_leave : s.leave.report.aborted = false := h
    rw [andThen_of_not_aborted h, andThen_of_not_aborted h, andThen_of_not_aborted h_leave]

end Situation

namespace Structured

open Situation

variable (d : Dispatcher δ ε) (policy : Policy)

/-- The first statement of the innermost block can be carried out on its own. -/
theorem unwind_cons (first : Statement) (rest : List Statement) (outer : List (List Statement))
    (s : Situation δ) :
    unwind d policy ((first :: rest) :: outer) s =
      (statement d policy first s).andThen (unwind d policy (rest :: outer)) := by
  cases outer with
  | nil => rfl
  | cons next outer =>
    -- the block is left at its end, which is past this statement in any case
    change ((statement d policy first s).andThen (block d policy rest)).andThen _ = _
    rw [andThen_andThen]
    rfl

/-- Leaving the blocks that are used up does not change what the stack amounts to. -/
theorem unwind_leave {report : Report} (h : report.aborted = false) (scope : Scope) (state : δ)
    (blocks : List (List Statement)) :
    unwind d policy (Run.leave scope blocks).2 ⟨(Run.leave scope blocks).1, report, state⟩ =
      unwind d policy blocks ⟨scope, report, state⟩ := by
  fun_induction Run.leave scope blocks with
  | case1 => rfl
  | case2 => rfl
  | case3 scope outer rest ih =>
    -- the innermost block is empty, so all that is left of it is to leave its frame
    have h_now : (⟨scope, report, state⟩ : Situation δ).report.aborted = false := h
    rw [ih, unwind, block, andThen_of_not_aborted h_now]
    rfl
  | case4 => rfl

end Structured

/-! ### Steps -/

namespace Run

/-- What the statements still to come can see of a run. -/
def situation (run : Run) (state : δ) : Situation δ :=
  { scope := run.scope, report := run.report, state }

/-- Where the run will end: what its stack amounts to, unless it was stopped. -/
def destination (d : Dispatcher δ ε) (run : Run) (state : δ) : Situation δ :=
  (run.situation state).andThen (Structured.unwind d run.policy run.blocks)

/-- The effect of a statement, recorded, leads where the recursive reading of the statement leads.
Only a branch leaves something on the stack, and that is the branch that it entered. -/
theorem destination_record (d : Dispatcher δ ε) (run : Run) (scope : Scope) (state : δ)
    (first : Statement) (rest : List Statement) (outer : List (List Statement))
    (h : run.report.aborted = false) :
    destination d (record run first.line (rest :: outer) (first.execute d scope state)).run
        (record run first.line (rest :: outer) (first.execute d scope state)).state =
      (Structured.statement d run.policy first ⟨scope, run.report, state⟩).andThen
        (Structured.unwind d run.policy (rest :: outer)) := by
  cases first with
  | assign line name expression =>
    rw [Statement.execute, Structured.statement]
    cases scope.resolve expression with
    | ok v => rfl
    | error e => rfl
  | command line text =>
    rw [Statement.execute, Structured.statement]
    cases h_result : (d text scope state).1.result with
    | ok u => simp only [record, Effect.ofCommand, h_result]; rfl
    | error e => simp only [record, Effect.ofCommand, h_result]; rfl
  | branch line condition thenBlock elseBlock =>
    -- the entered branch stands on the stack, and leaving it is what `unwind` does at its end
    have h_enter : ∀ entered, destination d
        ({ run with scope := scope.push, blocks := entered :: rest :: outer,
                    report := run.report.addSuccess }) state =
        ((Structured.block d run.policy entered
          (⟨scope, run.report, state⟩ : Situation δ).succeed.enter).andThen Situation.leave).andThen
            (Structured.unwind d run.policy (rest :: outer)) := by
      intro entered
      have h_now :
          (⟨scope, run.report, state⟩ : Situation δ).succeed.enter.report.aborted = false := h
      rw [Situation.andThen_leave]
      exact Situation.andThen_of_not_aborted h_now
    rw [Statement.execute, Structured.statement]
    cases scope.resolve condition >>= Value.asBoolean with
    | error e => rfl
    | ok taken =>
      cases taken with
      | true => exact h_enter thenBlock
      | false => exact h_enter elseBlock

/-- **One step keeps the destination of a run.** -/
theorem destination_step (d : Dispatcher δ ε) (run : Run) (state : δ) :
    destination d (run.step d state).run (run.step d state).state = destination d run state := by
  rcases step_cases d run state with ⟨-, h_step⟩ | ⟨h_now, scope, h_leave, h_step⟩ |
    ⟨h_now, scope, first, rest, outer, h_leave, h_step⟩
  · -- the run was stopped
    rw [h_step]
  · -- nothing is left but used-up blocks
    have h_unwind := Structured.unwind_leave d run.policy h_now run.scope state run.blocks
    have h_running : (run.situation state).report.aborted = false := h_now
    rw [h_step, destination, destination, Situation.andThen_of_not_aborted h_running]
    rw [h_leave] at h_unwind
    refine Eq.trans ?_ h_unwind
    exact Situation.andThen_of_not_aborted h_now
  · -- a statement is carried out
    have h_unwind := Structured.unwind_leave d run.policy h_now run.scope state run.blocks
    have h_running : (run.situation state).report.aborted = false := h_now
    rw [h_step, destination_record d run scope state first rest outer h_now]
    rw [h_leave] at h_unwind
    rw [destination, Situation.andThen_of_not_aborted h_running]
    exact (Structured.unwind_cons d run.policy first rest outer _).symm.trans h_unwind

/-- No number of steps changes where a run will end. -/
theorem destination_after (d : Dispatcher δ ε) (n : Nat) (run : Run) (state : δ) :
    destination d (after d n run state).1 (after d n run state).2 = destination d run state := by
  induction n generalizing run state with
  | zero => rfl
  | succ n ih => exact (ih _ _).trans (destination_step d run state)

/-- A step that finds nothing to do stands at its destination: the run was stopped, or no block is
open any more. -/
theorem situation_of_finished (d : Dispatcher δ ε) (run : Run) (state : δ)
    (h : (run.step d state).progress = .finished) :
    (run.step d state).run.situation (run.step d state).state =
      destination d (run.step d state).run (run.step d state).state := by
  rcases step_cases d run state with ⟨h_stopped, h_step⟩ | ⟨h_now, scope, h_leave, h_step⟩ |
    ⟨h_now, scope, first, rest, outer, h_leave, h_step⟩
  · have h_aborted : (run.situation state).report.aborted = true := h_stopped
    rw [h_step, destination, Situation.andThen_of_aborted h_aborted]
  · have h_running :
        (({ run with scope, blocks := [] } : Run).situation state).report.aborted = false := h_now
    rw [h_step, destination, Situation.andThen_of_not_aborted h_running, Structured.unwind]
  · -- a step that carries out a statement does not report the end
    rw [h_step, record] at h
    split at h <;> cases h

/-- **A run ends where the recursive reading of its script ends.** For every list of statements,
scope, policy and dispatcher, some step is the first to find nothing left to do, after no more steps
than there are statements. `finish` stops there, and the report, the frames of the scope and the
dispatcher's state are those that carrying out the statements one inside the other gives. -/
theorem finish_eq_structured (d : Dispatcher δ ε) (statements : List Statement) (scope : Scope)
    (policy : Policy) (state : δ) :
    ∃ n ≤ Statement.totalSize statements,
      (∀ k < n, (stepAfter d k (ofStatements statements scope policy) state).progress ≠
        .finished) ∧
      (stepAfter d n (ofStatements statements scope policy) state).progress = .finished ∧
      ((ofStatements statements scope policy).finish d state).run =
        (stepAfter d n (ofStatements statements scope policy) state).run ∧
      ((ofStatements statements scope policy).finish d state).run.report =
        (Structured.block d policy statements { scope, state }).report ∧
      ((ofStatements statements scope policy).finish d state).run.scope =
        (Structured.block d policy statements { scope, state }).scope ∧
      ((ofStatements statements scope policy).finish d state).state =
        (Structured.block d policy statements { scope, state }).state := by
  obtain ⟨n, h_n, h_before, h_at, -, h_run, h_state⟩ :=
    finish_eq_last_step d (ofStatements statements scope policy) state
  -- at the start the stack holds the script and nothing else
  have h_pending : (ofStatements statements scope policy).pending =
      Statement.totalSize statements := congrArg Statement.totalSize (List.append_nil statements)
  have h_start : destination d (ofStatements statements scope policy) state =
      Structured.block d policy statements { scope, state } := rfl
  -- the last step stands at its destination, and the destination is that of the start
  have h_end : (stepAfter d n (ofStatements statements scope policy) state).run.situation
      (stepAfter d n (ofStatements statements scope policy) state).state =
        Structured.block d policy statements { scope, state } := by
    rw [← h_start, ← destination_after d n]
    exact (situation_of_finished d _ _ h_at).trans (destination_step d _ _)
  rw [h_pending] at h_n
  refine ⟨n, h_n, h_before, h_at, h_run, ?_, ?_, ?_⟩
  · rw [h_run, ← h_end]
    rfl
  · rw [h_run, ← h_end]
    rfl
  · rw [h_state, ← h_end]
    rfl

end Run

end LineScript
