import LineScript.Proofs.Run.Trace

/-!
# Runs that no statement can tell apart

Two runs of one script may differ in something that nothing in the script looks at: in what already
waits in a queue of actions, or in the order in which the variables of a frame came in. Such runs do
the same, step for step, and the difference between them stays what it was.

What the argument needs of the difference is little, and is the same in every case. It is gathered
in `Likeness`: which scopes and which states of the dispatcher count as alike, that expressions have
the same values in alike scopes, that what a step does to a scope keeps scopes alike, and that the
dispatcher gives the same answer to alike questions. From there on the difference itself is not
looked at any more.

* `Likeness.execute`: one statement has the same result in both runs and enters the same block;
* `Likeness.step`: **alike runs take the same step, and are alike afterwards**;
* `Likeness.finish`: so they end with the same report.
-/

namespace LineScript.Run

variable {δ ε : Type}

/-- A difference between runs that neither statements nor the dispatcher can see. -/
structure Likeness (d : Dispatcher δ ε) where
  /-- The scopes differ in nothing that counts. -/
  scopes : Scope → Scope → Prop
  /-- The states of the dispatcher differ in nothing that counts. -/
  states : δ → δ → Prop
  /-- Expressions have the same values, or fail for the same reason. -/
  resolve_eq {s s' : Scope} (expression : String) :
    scopes s s' → s.resolve expression = s'.resolve expression
  /-- Assigning keeps scopes alike. -/
  assign {s s' : Scope} (name : String) (v : Value) :
    scopes s s' → scopes (s.assign name v) (s'.assign name v)
  /-- So does entering a branch. -/
  push {s s' : Scope} : scopes s s' → scopes s.push s'.push
  /-- So does leaving one. -/
  pop {s s' : Scope} : scopes s s' → scopes s.pop s'.pop
  /-- Commands succeed alike. -/
  result_eq {s s' : Scope} {state state' : δ} (text : String) :
    scopes s s' → states state state' →
      (d text s state).1.result = (d text s' state').1.result
  /-- Commands keep the states of the dispatcher alike. -/
  dispatch {s s' : Scope} {state state' : δ} (text : String) :
    scopes s s' → states state state' → states (d text s state).2 (d text s' state').2

namespace Likeness

variable {d : Dispatcher δ ε} (like : Likeness d)

/-- Two runs with the same still to do and the same done, in alike scopes. -/
structure Runs (run run' : Run) : Prop where
  /-- The scopes are alike. -/
  scope : like.scopes run.scope run'.scope
  /-- The same statements are left to do. -/
  blocks_eq : run.blocks = run'.blocks
  /-- A failure has the same consequence. -/
  policy_eq : run.policy = run'.policy
  /-- The same was done. -/
  report_eq : run.report = run'.report

/-- Two effects of one statement. -/
structure Effects (effect effect' : Effect δ ε) : Prop where
  /-- Both succeed, or both fail for the same reason. -/
  result_eq : effect.result = effect'.result
  /-- They leave alike scopes. -/
  scope : like.scopes effect.scope effect'.scope
  /-- They enter the same block, or none. -/
  entered_eq : effect.entered = effect'.entered
  /-- They leave the dispatcher in alike states. -/
  state : like.states effect.state effect'.state

/-- Two steps. What was heard of them may differ, since an event may tell a whole scope. -/
structure Advances (advance advance' : Advance δ ε) : Prop where
  /-- The steps say the same. -/
  progress_eq : advance.progress = advance'.progress
  /-- The runs are alike afterwards. -/
  run : like.Runs advance.run advance'.run
  /-- So are the states of the dispatcher. -/
  state : like.states advance.state advance'.state

variable {like}

/-! ### The two halves of a step -/

/-- Alike scopes lose the same number of frames when used-up blocks are left, and stay alike. -/
theorem leave {s s' : Scope} (h : like.scopes s s') (blocks : List (List Statement)) :
    like.scopes (Run.leave s blocks).1 (Run.leave s' blocks).1 ∧
      (Run.leave s blocks).2 = (Run.leave s' blocks).2 := by
  fun_induction Run.leave s blocks generalizing s' with
  | case1 => exact ⟨h, rfl⟩
  | case2 => exact ⟨h, rfl⟩
  | case3 s outer rest ih =>
    rw [Run.leave]
    exact ih (like.pop h)
  | case4 s blocks h_none h_last h_inner =>
    -- the innermost block is not used up, and no frame is left in either run
    have h_stays : Run.leave s' blocks = (s', blocks) := by rw [Run.leave] <;> assumption
    rw [h_stays]
    exact ⟨h, rfl⟩

/-- **One statement does the same in alike scopes.** -/
theorem execute {s s' : Scope} {state state' : δ} (h : like.scopes s s')
    (h_state : like.states state state') (statement : Statement) :
    like.Effects (statement.execute d s state) (statement.execute d s' state') := by
  cases statement with
  | assign line name expression =>
    -- the two expressions have one value or one error, and the rest follows from it
    rw [Statement.execute, Statement.execute, like.resolve_eq expression h]
    cases s'.resolve expression with
    | ok v => exact ⟨rfl, like.assign name v h, rfl, h_state⟩
    | error e => exact ⟨rfl, h, rfl, h_state⟩
  | command line text =>
    -- this is the one place where the dispatcher matters
    exact ⟨like.result_eq text h h_state, h, rfl, like.dispatch text h h_state⟩
  | branch line condition thenBlock elseBlock =>
    rw [Statement.execute, Statement.execute, like.resolve_eq condition h]
    cases s'.resolve condition >>= Value.asBoolean with
    | ok taken => exact ⟨rfl, like.push h, rfl, h_state⟩
    | error e => exact ⟨rfl, h, rfl, h_state⟩

/-- What is recorded of alike effects is alike. -/
theorem record {run run' : Run} {effect effect' : Effect δ ε} (h : like.Runs run run')
    (h_effect : like.Effects effect effect') (line : Nat) (blocks : List (List Statement)) :
    like.Advances (Run.record run line blocks effect) (Run.record run' line blocks effect') := by
  obtain ⟨-, -, h_policy, h_report⟩ := h
  obtain ⟨h_result, h_scope, h_entered, h_state⟩ := h_effect
  unfold Run.record
  rw [h_result, h_entered, h_policy, h_report]
  cases effect'.result with
  | ok _ => exact ⟨rfl, ⟨h_scope, rfl, rfl, rfl⟩, h_state⟩
  | error e => exact ⟨rfl, ⟨h_scope, rfl, rfl, rfl⟩, h_state⟩

/-! ### Steps and whole runs -/

/-- **Alike runs take the same step, and are alike afterwards.** -/
theorem step {run run' : Run} {state state' : δ} (h : like.Runs run run')
    (h_state : like.states state state') :
    like.Advances (run.step d state) (run'.step d state') := by
  obtain ⟨h_scope, h_blocks⟩ := leave h.scope run'.blocks
  unfold Run.step
  rw [h.report_eq, h.blocks_eq]
  split
  · exact ⟨rfl, h, h_state⟩
  · -- the same blocks are left, so the same statement comes next
    generalize Run.leave run.scope run'.blocks = left at h_scope h_blocks ⊢
    generalize Run.leave run'.scope run'.blocks = left' at h_scope h_blocks ⊢
    obtain ⟨s, blocks⟩ := left
    obtain ⟨s', blocks'⟩ := left'
    obtain rfl : blocks = blocks' := h_blocks
    match blocks with
    | (statement :: rest) :: outer =>
      exact record h (execute h_scope h_state statement) statement.line (rest :: outer)
    | [] => exact ⟨rfl, ⟨h_scope, rfl, h.policy_eq, rfl⟩, h_state⟩
    | [] :: outer => exact ⟨rfl, ⟨h_scope, rfl, h.policy_eq, rfl⟩, h_state⟩

/-- Alike runs that are carried to their ends end alike. -/
theorem finish {run run' : Run} {state state' : δ} (h : like.Runs run run')
    (h_state : like.states state state') :
    like.Advances (run.finish d state) (run'.finish d state') := by
  induction h_pending : run.pending using Nat.strongRecOn generalizing run run' state state' with
  | ind m ih =>
    have h_step := step h h_state
    by_cases h_finished : (run.step d state).progress = .finished
    · rw [finish_of_finished h_finished,
        finish_of_finished (h_step.progress_eq.symm.trans h_finished)]
      exact h_step
    · -- both runs go on, and fewer statements are pending
      have h_less := pending_step_lt d run state h_finished
      obtain ⟨h_progress, h_run, h_end⟩ :=
        ih _ (by omega) h_step.run h_step.state rfl
      rw [finish_of_not_finished h_finished,
        finish_of_not_finished (fun h' => h_finished (h_step.progress_eq.trans h'))]
      exact ⟨h_progress, h_run, h_end⟩

end Likeness

end LineScript.Run
