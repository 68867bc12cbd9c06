import LineScript.Dispatch
import LineScript.Script.Parse

/-!
# Running a script

A run carries a script out one statement per step, so that a host can do other things in between.
What is still to be done is kept as a stack of blocks, each the list of its remaining statements,
the innermost first. Entering a branch puts its block on the stack and a frame on the scope; both
stay there, even if the block is used up, until the next step leaves it.

* `Run.step`: carries out one statement. An `if` is one statement: it decides its condition and
  enters a branch;
* `Run.finish`: steps until nothing is left, or until a failure stops the run.

Each step that does something uses up a statement (`Run.pending_step_lt`), so a run ends.
-/

namespace LineScript

/-- What is done after a statement fails. -/
inductive Policy where
  /-- The failure is recorded and the run goes on. -/
  | proceed
  /-- The failure is recorded and the run stops. -/
  | abort
deriving Repr, DecidableEq

/-- What a step did. -/
inductive Progress where
  /-- The statement on this line succeeded. -/
  | executed (line : Nat)
  /-- The statement on this line failed. -/
  | failed (line : Nat)
  /-- There was nothing to do. -/
  | finished
deriving Repr, DecidableEq

/-- A script on its way. -/
structure Run where
  /-- The variables. -/
  scope : Scope
  /-- What remains of the open blocks, the innermost first. -/
  blocks : List (List Statement)
  /-- What is done after a failure. -/
  policy : Policy := .proceed
  /-- What happened so far. -/
  report : Report := {}

/-- What one statement does. -/
structure Effect (δ ε : Type) where
  /-- Whether it succeeded. -/
  result : Except Error Unit
  /-- The scope afterwards. -/
  scope : Scope
  /-- The block it entered. -/
  entered : Option (List Statement) := none
  /-- The dispatcher's state afterwards. -/
  state : δ
  /-- What happened. -/
  events : List (Event ε) := []

/-- A run, a dispatcher's state and the events that led to them, after some steps. -/
structure Advance (δ ε : Type) where
  /-- What the step did. -/
  progress : Progress
  /-- The run afterwards. -/
  run : Run
  /-- The dispatcher's state afterwards. -/
  state : δ
  /-- What happened. -/
  events : List (Event ε) := []

variable {δ ε : Type}

/-- What an assignment does, given what became of its expression. -/
def Effect.ofAssign (line : Nat) (name : String) (scope : Scope) (state : δ) :
    Except Error Value → Effect δ ε
  | .ok v =>
    { result := .ok (), scope := scope.assign name v, state, events := [.assigned line name v] }
  | .error e => { result := .error e, scope, state }

/-- The effect with an event before all others. -/
def Effect.after (event : Event ε) (effect : Effect δ ε) : Effect δ ε :=
  { effect with events := event :: effect.events }

/-- What a command does, given the dispatcher's answer. -/
def Effect.ofCommand (line : Nat) (text : String) (scope : Scope) (answer : Response ε × δ) :
    Effect δ ε :=
  { result := answer.1.result, scope, state := answer.2
    events := .dispatching line text :: answer.1.events }

/-- What an `if` does, given what became of its condition. -/
def Effect.ofBranch (line : Nat) (thenBlock elseBlock : List Statement) (scope : Scope)
    (state : δ) : Except Error Bool → Effect δ ε
  | .ok taken =>
    { result := .ok (), scope := scope.push, state
      entered := some (if taken then thenBlock else elseBlock)
      events := [.branched line taken] }
  | .error e => { result := .error e, scope, state }

/-- Carries out one statement in a scope. A statement that fails leaves the scope as it was. -/
def Statement.execute (d : Dispatcher δ ε) (scope : Scope) (state : δ) : Statement → Effect δ ε
  | .assign line name expression =>
    .after (.resolving scope expression)
      (.ofAssign line name scope state (scope.resolve expression))
  | .command line text => .ofCommand line text scope (d text scope state)
  | .branch line condition thenBlock elseBlock =>
    .after (.resolving scope condition)
      (.ofBranch line thenBlock elseBlock scope state (scope.resolve condition >>= Value.asBoolean))

namespace Run

/-- A run of the given statements from their start. -/
def ofStatements (statements : List Statement) (scope : Scope) (policy : Policy := .proceed) :
    Run :=
  { scope, blocks := [statements], policy }

/-- Reads a script and prepares to run it. -/
def parse (source : String) (scope : Scope) (policy : Policy := .proceed) : Except Error Run := do
  return ofStatements (← Script.parse source) scope policy

/-- Nothing is left to do. -/
def isFinished (run : Run) : Bool :=
  run.report.aborted || run.blocks.all List.isEmpty

/-- Leaves the blocks that are used up, with their frames. The outermost block has no frame of its
own. -/
def leave (scope : Scope) : List (List Statement) → Scope × List (List Statement)
  | [] => (scope, [])
  | [[]] => (scope, [])
  | [] :: outer :: rest => leave scope.pop (outer :: rest)
  | blocks => (scope, blocks)

/-- The run after a statement of the given line had its effect, with `blocks` still to do. -/
def record (run : Run) (line : Nat) (blocks : List (List Statement)) (effect : Effect δ ε) :
    Advance δ ε :=
  let run := { run with scope := effect.scope, blocks := effect.entered.toList ++ blocks }
  match effect.result with
  | .ok _ =>
    { progress := .executed line
      run := { run with report := run.report.addSuccess }
      state := effect.state
      events := effect.events }
  | .error error =>
    let failure : Failure := { line, error }
    { progress := .failed line
      run := { run with report := run.report.addFailure failure (run.policy = .abort) }
      state := effect.state
      events := effect.events ++ [.failed failure] }

/-- Carries out the next statement. A run that was stopped stays as it is. -/
def step (d : Dispatcher δ ε) (run : Run) (state : δ) : Advance δ ε :=
  if run.report.aborted then { progress := .finished, run, state }
  else
    let (scope, blocks) := leave run.scope run.blocks
    match blocks with
    | (statement :: rest) :: outer =>
      record run statement.line (rest :: outer) (statement.execute d scope state)
    | blocks => { progress := .finished, run := { run with scope, blocks }, state }

/-! ### Runs end -/

/-- The number of statements that a run may still carry out. -/
def pending (run : Run) : Nat :=
  Statement.totalSize run.blocks.flatten

/-- Leaving blocks that are used up leaves nothing undone. -/
theorem flatten_leave (scope : Scope) (blocks : List (List Statement)) :
    (leave scope blocks).2.flatten = blocks.flatten := by
  fun_induction leave scope blocks <;> simp_all

/-- Only an `if` enters a block, and that block is smaller than the `if`. -/
theorem totalSize_entered_lt (d : Dispatcher δ ε) (scope : Scope) (state : δ) (s : Statement) :
    Statement.totalSize (s.execute d scope state).entered.toList.flatten < s.size := by
  cases s with
  | assign line name expression =>
    rw [Statement.execute]
    cases scope.resolve expression <;> exact Nat.one_pos
  | command line text => exact Nat.one_pos
  | branch line condition thenBlock elseBlock =>
    rw [Statement.execute, Statement.size]
    cases scope.resolve condition >>= Value.asBoolean with
    | error e => exact Nat.add_pos_left (Nat.add_pos_left Nat.one_pos _) _
    | ok taken =>
      simp only [Effect.after, Effect.ofBranch, Option.toList_some, List.flatten_cons,
        List.flatten_nil, List.append_nil]
      split <;> omega

/-- What is pending after a statement is the block that it entered and what was open before. -/
theorem pending_record (run : Run) (line : Nat) (blocks : List (List Statement))
    (effect : Effect δ ε) :
    (record run line blocks effect).run.pending =
      Statement.totalSize effect.entered.toList.flatten + Statement.totalSize blocks.flatten := by
  simp only [record, pending]
  split <;> simp [Statement.totalSize_append]

/-- A step that does something uses up a statement. -/
theorem pending_step_lt (d : Dispatcher δ ε) (run : Run) (state : δ)
    (h : (run.step d state).progress ≠ .finished) :
    (run.step d state).run.pending < run.pending := by
  simp only [step] at h ⊢
  split
  · next ha => simp [ha] at h
  · next ha =>
    simp only [ha, Bool.false_eq_true, if_false] at h
    have hl := flatten_leave run.scope run.blocks
    generalize leave run.scope run.blocks = left at h hl ⊢
    obtain ⟨scope, blocks⟩ := left
    match blocks with
    | (s :: rest) :: outer =>
      have he := totalSize_entered_lt d scope state s
      simp only [pending_record]
      simp only [pending, ← hl, List.flatten_cons, List.cons_append, Statement.totalSize]
      omega
    | [] => simp at h
    | [] :: _ => simp at h

/-- Steps until there is nothing left to do. -/
def finish (d : Dispatcher δ ε) (run : Run) (state : δ) : Advance δ ε :=
  let first := run.step d state
  if h : first.progress = .finished then first
  else
    have := pending_step_lt d run state h
    let rest := finish d first.run first.state
    { rest with events := first.events ++ rest.events }
termination_by run.pending

end Run

end LineScript
