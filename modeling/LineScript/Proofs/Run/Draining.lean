import LineScript.Dispatch.Queue
import LineScript.Proofs.Run.Likeness

/-!
# Taking actions while a script runs

A host that queues the actions of a script takes them off the queue when it sees fit: after every
step, at the end, or at any times in between. When it does so is its own affair. The actions come
out complete, once each and in order, and the script does not notice.

* `ActionQueue.dispatch_eq`: what a command does to a queue. The queue is added to at its end and
  otherwise not looked at, and a command that fails leaves it alone;
* `behind`: a queue that is still full and one from which some actions were taken are alike. It is
  the one fact about queues that the argument rests on, and `Likeness.step` does the rest;
* `Tended`, `Tended.move`: a run and its queue in the hands of a host that steps the one and empties
  the other, and remembers what it was told and what it took;
* `tended_after`: one move after the other, **what was taken and what still waits is what would wait
  if nothing had been taken**. It is stated for a host that has taken actions before, since that is
  where every further move starts;
* `draining_changes_nothing`: the same from the first move on.
-/

namespace LineScript

variable {ε : Type}

/-- What a command does to a queue: the action that was read waits behind all others, and nothing
else changes. Whether it can be read does not depend on the queue. -/
theorem ActionQueue.dispatch_eq (text : String) (scope : Scope) (queue : ActionQueue) :
    (ActionQueue.dispatch (ε := ε) text scope queue).1.result =
        (Action.parse text scope).map (fun _ => ()) ∧
      (ActionQueue.dispatch (ε := ε) text scope queue).2.pending =
        queue.pending ++ (Action.parse text scope).toOption.toList := by
  unfold ActionQueue.dispatch
  cases Action.parse text scope with
  | ok action => exact ⟨rfl, rfl⟩
  | error e => exact ⟨rfl, (List.append_nil _).symm⟩

/-- A command that fails leaves the queue as it was. -/
theorem ActionQueue.dispatch_of_error {text : String} {scope : Scope} {queue : ActionQueue}
    {error : Error} (h : (ActionQueue.dispatch (ε := ε) text scope queue).1.result = .error error) :
    (ActionQueue.dispatch (ε := ε) text scope queue).2 = queue := by
  unfold ActionQueue.dispatch at h ⊢
  cases h_parse : Action.parse text scope with
  | ok action => simp [h_parse] at h
  | error e => rfl

namespace Run

/-- Two runs that differ only in that actions were taken from the one queue, and not from the
other. -/
def behind (earlier : List Action) : Likeness (ActionQueue.dispatch (ε := ε)) where
  scopes := Eq
  states queue full := earlier ++ queue.pending = full.pending
  resolve_eq _ h := by rw [h]
  assign _ _ h := by rw [h]
  push h := by rw [h]
  pop h := by rw [h]
  result_eq text h _ := by
    rw [(ActionQueue.dispatch_eq text _ _).1, (ActionQueue.dispatch_eq text _ _).1, h]
  dispatch text h h_queue := by
    rw [(ActionQueue.dispatch_eq text _ _).2, (ActionQueue.dispatch_eq text _ _).2, h,
      ← List.append_assoc, h_queue]

/-- Only the queues differ; the runs themselves are the same. -/
theorem eq_of_behind {earlier : List Action} {run run' : Run}
    (h : (behind (ε := ε) earlier).Runs run run') : run = run' := by
  obtain ⟨h_scope, h_blocks, h_policy, h_report⟩ := h
  obtain ⟨scope, blocks, policy, report⟩ := run
  obtain rfl : scope = run'.scope := h_scope
  obtain rfl : blocks = run'.blocks := h_blocks
  obtain rfl : policy = run'.policy := h_policy
  obtain rfl : report = run'.report := h_report
  rfl

/-! ### A host at work -/

/-- A run whose commands are queued, in the hands of a host. -/
structure Tended where
  /-- The run. -/
  run : Run
  /-- The actions that wait. -/
  queue : ActionQueue := {}
  /-- What the steps said, in order. -/
  said : List Progress := []
  /-- The batches that the host took, in order. -/
  batches : List (List Action) := []

/-- What a host can do next. -/
inductive Tended.Move where
  /-- It has the run take a step. -/
  | step
  /-- It takes all actions that wait. -/
  | take
deriving Repr, DecidableEq

/-- One move of the host. -/
def Tended.move (ε : Type) (t : Tended) : Tended.Move → Tended
  | .step =>
    let advance := t.run.step (ActionQueue.dispatch (ε := ε)) t.queue
    { t with run := advance.run, queue := advance.state, said := t.said ++ [advance.progress] }
  | .take =>
    let (batch, queue) := t.queue.take
    { t with queue, batches := t.batches ++ [batch] }

/-- What the moves of a host, one after the other, lead to. -/
def Tended.moves (ε : Type) (t : Tended) (schedule : List Tended.Move) : Tended :=
  schedule.foldl (Tended.move ε) t

/-- All actions that the host has seen or will see next. -/
def Tended.actions (t : Tended) : List Action :=
  t.batches.flatten ++ t.queue.pending

/-- Taking moves actions from the queue to the batches, and none is lost. -/
@[simp]
theorem Tended.actions_move_take (t : Tended) : (t.move ε .take).actions = t.actions := by
  change (t.batches ++ [t.queue.pending]).flatten ++ [] = t.batches.flatten ++ t.queue.pending
  rw [List.flatten_append, List.flatten_singleton, List.append_nil]

/-- A step does with a queue that actions were taken from what it does with a full one. -/
theorem Tended.move_step (t : Tended) {full : ActionQueue} (h : t.actions = full.pending) :
    (t.move ε .step).run = (t.run.step (ActionQueue.dispatch (ε := ε)) full).run ∧
      (t.move ε .step).said =
        t.said ++ [(t.run.step (ActionQueue.dispatch (ε := ε)) full).progress] ∧
      (t.move ε .step).actions =
        (t.run.step (ActionQueue.dispatch (ε := ε)) full).state.pending := by
  -- the run is alike to itself, before a queue that is full and before one that is not
  have h_runs : (behind (ε := ε) t.batches.flatten).Runs t.run t.run := ⟨rfl, rfl, rfl, rfl⟩
  obtain ⟨h_progress, h_run, h_state⟩ := Likeness.step h_runs h
  refine ⟨eq_of_behind h_run, ?_, h_state⟩
  rw [← h_progress]
  rfl

/-- **What was taken and what still waits is what would wait if nothing had been taken.** The host
may have taken actions before, so `full` is any queue that holds these and what waits. -/
theorem tended_after (schedule : List Tended.Move) (t : Tended) {full : ActionQueue}
    (h : t.actions = full.pending) :
    (t.moves ε schedule).run =
        (after (ActionQueue.dispatch (ε := ε)) (schedule.count .step) t.run full).1 ∧
      (t.moves ε schedule).said =
        t.said ++ (trace (ActionQueue.dispatch (ε := ε)) (schedule.count .step) t.run full).map
          Advance.progress ∧
      (t.moves ε schedule).actions =
        (after (ActionQueue.dispatch (ε := ε)) (schedule.count .step) t.run full).2.pending := by
  induction schedule generalizing t full with
  | nil => exact ⟨rfl, (List.append_nil _).symm, h⟩
  | cons next rest ih =>
    cases next with
    | take =>
      -- what is taken moves from the queue to the batches, and the other run stands still
      exact ih (t.move ε .take) (t.actions_move_take.trans h)
    | step =>
      obtain ⟨h_run, h_said, h_actions⟩ := t.move_step (ε := ε) h
      obtain ⟨h_run', h_said', h_actions'⟩ := ih (t.move ε .step) h_actions
      rw [h_run] at h_run' h_said' h_actions'
      rw [List.count_cons_self, trace, List.map_cons]
      refine ⟨h_run', ?_, h_actions'⟩
      rw [h_said, List.append_assoc] at h_said'
      exact h_said'

/-- **No action is lost, taken twice or taken out of order, whenever the host takes them.** For
every run, every queue that it starts with, and every schedule of steps and takings: the batches
that were taken, followed by what still waits, are what the queue holds after the same steps if
nothing is taken. The steps say the same, and the run is the same, with its report and its scope. A
command that fails leaves the queue as it was. -/
theorem draining_changes_nothing (run : Run) (queue : ActionQueue)
    (schedule : List Tended.Move) :
    (Tended.moves ε { run, queue } schedule).batches.flatten ++
        (Tended.moves ε { run, queue } schedule).queue.pending =
      (after (ActionQueue.dispatch (ε := ε)) (schedule.count .step) run queue).2.pending ∧
    (Tended.moves ε { run, queue } schedule).said =
      (trace (ActionQueue.dispatch (ε := ε)) (schedule.count .step) run queue).map
        Advance.progress ∧
    (Tended.moves ε { run, queue } schedule).run =
      (after (ActionQueue.dispatch (ε := ε)) (schedule.count .step) run queue).1 ∧
    ∀ (text : String) (scope : Scope) (queue : ActionQueue) (error : Error),
      (ActionQueue.dispatch (ε := ε) text scope queue).1.result = .error error →
        (ActionQueue.dispatch (ε := ε) text scope queue).2 = queue := by
  obtain ⟨h_run, h_said, h_actions⟩ := tended_after (ε := ε) schedule { run, queue } rfl
  refine ⟨h_actions, h_said, h_run, ?_⟩
  intro text scope queue error h_error
  exact ActionQueue.dispatch_of_error h_error

/-- Two commands, and one between them that cannot be read. -/
def volley : List Statement :=
  [.command 1 "shoot", .command 2 "(1)", .command 3 "wait"]

/-- An early taking, one after the first step, and none after that: the first action was taken, and
the other one still waits. -/
theorem draining_volley :
    (Tended.moves Unit { run := ofStatements volley {} }
        [.take, .step, .take, .step, .step, .step]).batches = [[], [⟨"shoot", []⟩]] ∧
      [⟨"shoot", []⟩] ++ (Tended.moves Unit { run := ofStatements volley {} }
        [.take, .step, .take, .step, .step, .step]).queue.pending =
          [⟨"shoot", []⟩, ⟨"wait", []⟩] ∧
      (ActionQueue.dispatch (ε := Unit) "(1)" {} ⟨[⟨"shoot", []⟩]⟩).2 = ⟨[⟨"shoot", []⟩]⟩ := by
  obtain ⟨h_actions, -, -, h_failed⟩ := draining_changes_nothing (ε := Unit)
    (ofStatements volley {}) {} [.take, .step, .take, .step, .step, .step]
  exact ⟨rfl, h_actions, h_failed "(1)" {} _ (.unresolvable "(1)") rfl⟩

end Run

end LineScript
