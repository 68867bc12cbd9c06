import LineScript.Dispatch.Queue
import LineScript.Proofs.Run.Trace

/-!
# The report accounts for the steps

A host that steps a run is told by each step what it did, and can read the report at any time. The
two must not disagree: what the report says after some steps is what those steps said, no matter
which dispatchers they were given, and whether a failure stopped the run can be told from the
failures and the policy.

* `Walk`: the steps that a host had a run take, with what each of them did. The dispatcher may be
  another one at every step;
* `Advance.failure?`: the failure that a step announced, which is the last that is heard of it;
* `Accounts`: what a report has to say of the steps taken so far. The clause on the policy is what
  makes the invariant go through: under `Policy.abort` the first failure is also the last, because
  no statement is attempted after it (`Accounts.step`);
* `report_accounts_for_steps`: **every report is an exact account**, and a run that was stopped
  stays as it is, whatever is asked of it.
-/

namespace LineScript

variable {δ ε : Type}

/-- The statement that was attempted succeeded. -/
def Progress.isExecuted : Progress → Bool
  | executed _ => true
  | _ => false

/-- The line of the statement that was attempted, if it failed. -/
def Progress.failedLine? : Progress → Option Nat
  | failed line => some line
  | _ => none

/-- The failure that an event announces. -/
def Event.failure? : Event ε → Option Failure
  | failed failure => some failure
  | _ => none

/-- The failure that a step announced. A dispatcher may send any events of its own, also failures,
so only the last event counts, and only if the step says that it failed. -/
def Advance.failure? (advance : Advance δ ε) : Option Failure :=
  if advance.progress.failedLine?.isSome then advance.events.getLast?.bind Event.failure? else none

namespace Run

/-- A host steps a run, each time with whatever dispatcher it has. The list says what the steps did,
the earliest first. -/
inductive Walk (start : Run) : List (Advance δ ε) → Run → Prop where
  /-- Nothing was done yet. -/
  | start : Walk start [] start
  /-- One step more, with a dispatcher and a state of its own. -/
  | step {taken : List (Advance δ ε)} {run : Run} (d : Dispatcher δ ε) (state : δ) :
      Walk start taken run → Walk start (taken ++ [run.step d state]) (run.step d state).run

/-- No step changes what becomes of a run that fails. -/
@[simp]
theorem policy_step (d : Dispatcher δ ε) (run : Run) (state : δ) :
    (run.step d state).run.policy = run.policy := by
  obtain ⟨-, h_step⟩ | ⟨-, scope, -, h_step⟩ | ⟨-, scope, first, rest, outer, -, h_step⟩ :=
    step_cases d run state
  · rw [h_step]
  · rw [h_step]
  · rw [h_step, policy_record]

/-- The policy is the one that the run began with. -/
theorem Walk.policy_eq {start run : Run} {taken : List (Advance δ ε)} (h : Walk start taken run) :
    run.policy = start.policy := by
  induction h with
  | start => rfl
  | step d state _ ih => rw [policy_step, ih]

/-! ### The invariant -/

/-- What the report of a run says of the steps taken so far. -/
structure Accounts (policy : Policy) (taken : List (Advance δ ε)) (report : Report) : Prop where
  /-- The steps that succeeded are counted. -/
  executed_eq : report.executed = taken.countP (·.progress.isExecuted)
  /-- The failures that were announced are listed in order. -/
  failures_eq : report.failures = taken.filterMap Advance.failure?
  /-- They stand on the lines of the steps that failed. -/
  lines_eq : report.failures.map Failure.line = taken.filterMap (·.progress.failedLine?)
  /-- A failure stops the run if the policy says so, and nothing else does. -/
  aborted_iff : report.aborted = true ↔ policy = .abort ∧ report.failures ≠ []
  /-- Nothing fails in a run that was stopped. -/
  length_le : policy = .abort → report.failures.length ≤ 1

namespace Accounts

variable {policy : Policy} {taken : List (Advance δ ε)} {report : Report} {advance : Advance δ ε}

/-- Before the first step there is nothing to account for. -/
theorem initial (policy : Policy) : Accounts policy ([] : List (Advance δ ε)) {} where
  executed_eq := rfl
  failures_eq := rfl
  lines_eq := rfl
  aborted_iff := by simp
  length_le := fun _ => Nat.zero_le 1

/-- A step that found nothing to do is not accounted for. -/
theorem skip (h : Accounts policy taken report) (h_progress : advance.progress = .finished) :
    Accounts policy (taken ++ [advance]) report where
  executed_eq := by simp [h.executed_eq, h_progress, Progress.isExecuted]
  failures_eq := by simp [h.failures_eq, Advance.failure?, h_progress, Progress.failedLine?]
  lines_eq := by simp [h.lines_eq, h_progress, Progress.failedLine?]
  aborted_iff := h.aborted_iff
  length_le := h.length_le

/-- A statement that succeeded is counted, and no failure is added. -/
theorem addSuccess (h : Accounts policy taken report) {line : Nat}
    (h_progress : advance.progress = .executed line) :
    Accounts policy (taken ++ [advance]) report.addSuccess where
  executed_eq := by simp [Report.addSuccess, h.executed_eq, h_progress, Progress.isExecuted]
  failures_eq := by
    simp [Report.addSuccess, h.failures_eq, Advance.failure?, h_progress, Progress.failedLine?]
  lines_eq := by simp [Report.addSuccess, h.lines_eq, h_progress, Progress.failedLine?]
  aborted_iff := h.aborted_iff
  length_le := h.length_le

/-- A statement that failed is listed with what the step announced. The run goes on up to here, so
under `Policy.abort` the list was empty. -/
theorem addFailure (h : Accounts policy taken report) {failure : Failure}
    (h_progress : advance.progress = .failed failure.line)
    (h_last : advance.events.getLast? = some (.failed failure)) (h_now : report.aborted = false) :
    Accounts policy (taken ++ [advance]) (report.addFailure failure (policy = .abort)) where
  executed_eq := by simp [Report.addFailure, h.executed_eq, h_progress, Progress.isExecuted]
  failures_eq := by
    simp [Report.addFailure, h.failures_eq, Advance.failure?, h_progress, h_last,
      Progress.failedLine?, Event.failure?]
  lines_eq := by simp [Report.addFailure, h.lines_eq, h_progress, Progress.failedLine?]
  aborted_iff := by simp [Report.addFailure]
  length_le := by
    intro h_policy
    -- under this policy a run that goes on has had no failure yet
    have h_none : report.failures = [] := by
      refine Classical.byContradiction fun h_some => ?_
      exact Bool.false_ne_true (h_now.symm.trans (h.aborted_iff.mpr ⟨h_policy, h_some⟩))
    simp [Report.addFailure, h_none]

/-- **The account is kept by a step**, whatever the dispatcher does in it. -/
theorem step {run : Run} (h : Accounts run.policy taken run.report) (d : Dispatcher δ ε)
    (state : δ) :
    Accounts run.policy (taken ++ [run.step d state]) (run.step d state).run.report := by
  -- one case for each thing that a step can say
  obtain ⟨h_progress, h_report⟩ | ⟨line, h_progress, h_report⟩ |
    ⟨line, error, h_progress, h_report, h_now, h_last⟩ := report_step d run state
  · rw [h_report]
    exact h.skip h_progress
  · rw [h_report]
    exact h.addSuccess h_progress
  · rw [h_report]
    exact h.addFailure h_progress h_last h_now

/-- Each step that did something either succeeded or failed. -/
theorem attempted_eq (h : Accounts policy taken report) :
    report.attempted = taken.countP (·.progress ≠ .finished) := by
  have h_lines : report.failures.length = (taken.filterMap (·.progress.failedLine?)).length := by
    rw [← h.lines_eq, List.length_map]
  rw [Report.attempted, h.executed_eq, h_lines, List.length_filterMap_eq_countP]
  -- the rest is on the steps alone: each is an attempt if it succeeded or failed
  clear h_lines h
  induction taken with
  | nil => rfl
  | cons first rest ih =>
    -- one step more is one more on exactly one side of the sum, or on none
    cases h_progress : first.progress <;>
      simp [h_progress, Progress.isExecuted, Progress.failedLine?] at ih ⊢ <;>
      omega

end Accounts

/-- Whatever steps a host had a run take, the report accounts for them. -/
theorem Walk.accounts {statements : List Statement} {scope : Scope} {policy : Policy} {run : Run}
    {taken : List (Advance δ ε)} (h : Walk (ofStatements statements scope policy) taken run) :
    Accounts policy taken run.report := by
  induction h with
  | start => exact .initial policy
  | step d state h_walk ih =>
    have h_policy := h_walk.policy_eq
    change _ = policy at h_policy
    rw [← h_policy] at ih ⊢
    exact ih.step d state

/-! ### Stopped runs -/

/-- No step gets a run going again that was stopped. -/
theorem stepAfter_of_aborted {run : Run} (h : run.report.aborted = true) (d : Dispatcher δ ε)
    (k : Nat) (state : δ) :
    stepAfter d k run state = { progress := .finished, run, state } := by
  have h_step : run.step d state = { progress := .finished, run, state } := by
    unfold Run.step
    rw [if_pos h]
  induction k with
  | zero => exact h_step
  | succ k ih => rw [stepAfter_succ, h_step, ih]

/-- **The report is an exact account of the run.** After any steps of a run, with any dispatchers,
it counts the steps that succeeded and lists, in order, what the steps that failed announced, each
on the line that the step named; all steps that did something are among these. Under
`Policy.proceed` no run is stopped. Under `Policy.abort` a run is stopped exactly if something
failed, and nothing fails twice. A run that was stopped is finished for every later step, and
neither the run nor the dispatcher changes any more. -/
theorem report_accounts_for_steps {statements : List Statement} {scope : Scope} {policy : Policy}
    {run : Run} {taken : List (Advance δ ε)}
    (h : Walk (ofStatements statements scope policy) taken run) :
    run.report.executed = taken.countP (·.progress.isExecuted) ∧
    run.report.failures = taken.filterMap Advance.failure? ∧
    run.report.failures.map Failure.line = taken.filterMap (·.progress.failedLine?) ∧
    run.report.executed + run.report.failures.length =
      taken.countP (·.progress ≠ .finished) ∧
    (policy = .proceed → run.report.aborted = false) ∧
    (policy = .abort →
      (run.report.aborted = true ↔ run.report.failures ≠ []) ∧ run.report.failures.length ≤ 1) ∧
    (run.report.aborted = true → ∀ (d : Dispatcher δ ε) (k : Nat) (state : δ),
      stepAfter d k run state = { progress := .finished, run, state }) := by
  have h_accounts := h.accounts
  refine ⟨h_accounts.executed_eq, h_accounts.failures_eq, h_accounts.lines_eq,
    h_accounts.attempted_eq, ?_, ?_, ?_⟩
  · intro h_policy
    -- only `Policy.abort` stops a run, and this is the other one
    have h_going : ¬ run.report.aborted = true := by
      intro h_stopped
      obtain ⟨h_abort, -⟩ := h_accounts.aborted_iff.mp h_stopped
      exact absurd (h_policy.symm.trans h_abort) (by decide)
    exact Bool.eq_false_iff.mpr h_going
  · intro h_policy
    refine ⟨?_, h_accounts.length_le h_policy⟩
    rw [h_accounts.aborted_iff]
    exact and_iff_right h_policy
  · intro h_stopped d k state
    exact stepAfter_of_aborted h_stopped d k state

/-- Three commands, of which the second cannot be read. -/
def stumbling : List Statement :=
  [.command 1 "shoot", .command 2 "1", .command 3 "wait"]

/-- A run of `stumbling` that was stopped by its second command. -/
def stopped : Run where
  scope := {}
  blocks := [[.command 3 "wait"]]
  policy := .abort
  report := { executed := 1, failures := [⟨2, .unresolvable "1"⟩], aborted := true }

/-- What three steps of `stumbling` do, the last of them after the run was stopped. -/
def stumbles : List (Advance ActionQueue Unit) :=
  trace ActionQueue.dispatch 3 (ofStatements stumbling {} .abort) {}

/-- Three steps lead from the beginning of `stumbling` to the run that was stopped. -/
theorem walk_stumbles : Walk (ofStatements stumbling {} .abort) stumbles stopped :=
  ((Walk.start.step _ _).step _ _).step _ _

/-- The account of `stumbling`: one success, one failure, and a step after them that did nothing. -/
theorem report_accounts_for_stumbles :
    Walk (ofStatements stumbling {} .abort) stumbles stopped ∧
      stopped.report.executed = stumbles.countP (·.progress.isExecuted) ∧
      stopped.report.failures = stumbles.filterMap Advance.failure? ∧
      1 + 1 = stumbles.countP (·.progress ≠ .finished) ∧
      ∀ (d : Dispatcher ActionQueue Unit) (k : Nat) (queue : ActionQueue),
        stepAfter d k stopped queue =
          { progress := .finished, run := stopped, state := queue } := by
  obtain ⟨h_executed, h_failures, -, h_attempted, -, -, h_stays⟩ :=
    report_accounts_for_steps walk_stumbles
  exact ⟨walk_stumbles, h_executed, h_failures, h_attempted, h_stays rfl⟩

end Run

end LineScript
