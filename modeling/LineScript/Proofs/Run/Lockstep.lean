import LineScript.Dispatch.Queue
import LineScript.Proofs.Run.Steps
import LineScript.Proofs.Scope.Frames
import LineScript.Proofs.Resolve.Values

/-!
# Frames and blocks in lockstep

A run keeps two stacks. Entering a branch puts a block on the one and a frame on the other, in the
same step; leaving it takes both off again, but only when a later step finds the block used up, and
the outermost block goes without a frame. A host sees the run between any two steps, with blocks on
it that are used up and not yet left, and may write variables meanwhile.

* `Driven`: what a host can make of a run, by stepping it and by writing variables;
* `Lockstep`: behind one frame for each block but the outermost stand the frames that the run began
  with. `Lockstep.leave` and `Lockstep.execute` say that it is kept by the two halves of a step,
  `Driven.lockstep` that it holds whatever the host does;
* `leaveAbove`: leaving blocks with an eye on the frames. It refuses to take off a frame that the
  run began with, or the only one that is left;
* `frames_in_lockstep`: the number of frames is known from the number of blocks, and **`leaveAbove`
  never refuses**.
-/

namespace LineScript.Run

variable {δ ε : Type}

/-- A host steps a run, each time with whatever dispatcher it has, and writes variables in between.
It adds no frames to the scope, and takes none off. -/
inductive Driven (δ ε : Type) (start : Run) : Run → Prop where
  /-- Nothing was done yet. -/
  | start : Driven δ ε start start
  /-- The run takes a step. -/
  | step {run : Run} (d : Dispatcher δ ε) (state : δ) :
      Driven δ ε start run → Driven δ ε start (run.step d state).run
  /-- A variable is written in the innermost frame. -/
  | bind {run : Run} (name : String) (v : Value) :
      Driven δ ε start run → Driven δ ε start { run with scope := run.scope.bind name v }
  /-- A variable is assigned as a script would. -/
  | assign {run : Run} (name : String) (v : Value) :
      Driven δ ε start run → Driven δ ε start { run with scope := run.scope.assign name v }

/-- Leaves the blocks that are used up, as `leave` does, but takes a frame off only if there is one
to take off and at least `floor` frames remain. -/
def leaveAbove (floor : Nat) (scope : Scope) :
    List (List Statement) → Option (Scope × List (List Statement))
  | [] => some (scope, [])
  | [[]] => some (scope, [])
  | [] :: outer :: rest => do
    let popped ← scope.pop?
    if floor ≤ popped.depth then leaveAbove floor popped (outer :: rest) else none
  | blocks => some (scope, blocks)

/-- Behind one frame for each block but the outermost stand those of `initial`. -/
def Lockstep (initial scope : Scope) (blocks : List (List Statement)) : Prop :=
  Scope.Grows initial.frames (scope.frames.drop (blocks.length - 1))

namespace Lockstep

variable {initial scope : Scope} {blocks : List (List Statement)}

/-- The number of frames, from the number of blocks. -/
theorem depth_eq (h : Lockstep initial scope blocks) :
    scope.depth = initial.depth + (blocks.length - 1) := by
  have h_length : initial.depth = scope.depth - (blocks.length - 1) := by
    rw [Scope.depth, Scope.Grows.length_eq h, List.length_drop]
    rfl
  have h_pos := initial.depth_pos
  omega

/-- Names that come into the frames that are there disturb nothing. -/
theorem write {scope' : Scope} (h : Lockstep initial scope blocks)
    (h_write : Scope.Grows scope.frames scope'.frames) : Lockstep initial scope' blocks :=
  h.trans (h_write.drop _)

/-- A block that is not the outermost has a frame. -/
theorem exists_pop? {inner outer : List Statement} {rest : List (List Statement)}
    (h : Lockstep initial scope (inner :: outer :: rest)) :
    ∃ popped, scope.pop? = some popped ∧ scope.pop = popped ∧
      Lockstep initial popped (outer :: rest) := by
  obtain ⟨current, enclosing⟩ := scope
  cases enclosing with
  | nil =>
    -- two blocks and one frame do not go together
    have h_depth := h.depth_eq
    have h_pos := initial.depth_pos
    simp only [Scope.depth, Scope.frames, List.length_cons, List.length_nil] at h_depth h_pos
    omega
  | cons frame frames => exact ⟨⟨frame, frames⟩, rfl, rfl, h⟩

/-- Leaving takes a frame off with each block, except the outermost. -/
theorem leave (h : Lockstep initial scope blocks) :
    Lockstep initial (leave scope blocks).1 (leave scope blocks).2 := by
  fun_induction Run.leave scope blocks with
  | case1 => exact h
  | case2 => exact h
  | case3 scope outer rest ih =>
    obtain ⟨popped, -, h_pop, h_popped⟩ := h.exists_pop?
    rw [h_pop] at ih ⊢
    exact ih h_popped
  | case4 => exact h

/-- **Leaving never comes to a frame that the run began with.** -/
theorem leaveAbove_eq (h : Lockstep initial scope blocks) :
    leaveAbove initial.depth scope blocks = some (Run.leave scope blocks) := by
  fun_induction Run.leave scope blocks with
  | case1 => rfl
  | case2 => rfl
  | case3 scope outer rest ih =>
    obtain ⟨popped, h_pop?, h_pop, h_popped⟩ := h.exists_pop?
    rw [h_pop] at ih ⊢
    -- the frames that are left still hold all those of the start
    have h_floor : initial.depth ≤ popped.depth := by
      rw [h_popped.depth_eq]
      exact Nat.le_add_right _ _
    rw [leaveAbove, h_pop?, ← ih h_popped]
    exact if_pos h_floor
  | case4 scope blocks h_none h_last h_inner => rw [leaveAbove] <;> assumption

/-- A statement enters a block and a frame together, or neither. -/
theorem execute (d : Dispatcher δ ε) (state : δ) {first : Statement} {rest : List Statement}
    {outer : List (List Statement)} (h : Lockstep initial scope ((first :: rest) :: outer)) :
    Lockstep initial (first.execute d scope state).scope
      ((first.execute d scope state).entered.toList ++ rest :: outer) := by
  rcases first.execute_cases d scope state with ⟨name, v, -, h_scope, h_entered⟩ |
    ⟨-, h_scope, h_entered⟩ | ⟨-, h_scope, block, h_entered⟩
  · rw [h_scope, h_entered]
    exact h.write (Scope.grows_assign scope name v)
  · rw [h_scope, h_entered]
    exact h
  · -- a block and a frame, both in front
    rw [h_scope, h_entered]
    exact h

end Lockstep

/-- **A step keeps frames and blocks in lockstep.** -/
theorem lockstep_step (d : Dispatcher δ ε) {initial : Scope} {run : Run} (state : δ)
    (h : Lockstep initial run.scope run.blocks) :
    Lockstep initial (run.step d state).run.scope (run.step d state).run.blocks := by
  rcases step_cases d run state with ⟨-, h_step⟩ | ⟨-, scope, h_leave, h_step⟩ |
    ⟨-, scope, first, rest, outer, h_leave, h_step⟩
  · rw [h_step]
    exact h
  · have h_left := h.leave
    rw [h_leave] at h_left
    rw [h_step]
    exact h_left
  · have h_left := h.leave
    rw [h_leave] at h_left
    rw [h_step, scope_record, blocks_record]
    exact h_left.execute d state

/-- Whatever the host does, frames and blocks stay in lockstep. -/
theorem Driven.lockstep {start run : Run} {initial : Scope} (h : Driven δ ε start run)
    (h_start : Lockstep initial start.scope start.blocks) :
    Lockstep initial run.scope run.blocks := by
  induction h with
  | start => exact h_start
  | step d state _ ih => exact lockstep_step d state ih
  | bind name v _ ih => exact ih.write (Scope.grows_bind _ name v)
  | assign name v _ ih => exact ih.write (Scope.grows_assign _ name v)

/-- **Frames and blocks stay in lockstep**, whatever the host does short of adding frames or taking
them off: the run has one frame for each open block but the outermost, beside those that it began
with. So leaving blocks never comes to the root frame, nor to any other that the run began with;
each of these is still there, with its names; and a run that comes to its end without being stopped
has as many frames as it began with. -/
theorem frames_in_lockstep {statements : List Statement} {scope : Scope} {policy : Policy}
    {run : Run} (h : Driven δ ε (ofStatements statements scope policy) run) :
    run.scope.depth = scope.depth + max run.blocks.length 1 - 1 ∧
    leaveAbove scope.depth run.scope run.blocks = some (leave run.scope run.blocks) ∧
    Scope.Grows scope.frames (run.scope.frames.drop (run.blocks.length - 1)) ∧
    ∀ (d : Dispatcher δ ε) (state : δ), (run.step d state).progress = .finished →
      (run.step d state).run.report.aborted = false →
      (run.step d state).run.scope.depth = scope.depth := by
  have h_lockstep : Lockstep scope run.scope run.blocks := h.lockstep (Scope.Grows.refl _)
  refine ⟨?_, h_lockstep.leaveAbove_eq, h_lockstep, ?_⟩
  · rw [h_lockstep.depth_eq]
    omega
  · intro d state h_finished h_running
    have h_depth := (lockstep_step d state h_lockstep).depth_eq
    rcases step_cases d run state with ⟨h_stopped, h_step⟩ | ⟨-, _, -, h_step⟩ |
      ⟨-, _, first, rest, outer, -, h_step⟩
    · rw [h_step] at h_running
      exact absurd (h_stopped.symm.trans h_running) Bool.true_eq_false.mp
    · -- nothing is open any more
      rwa [h_step] at h_depth ⊢
    · rw [h_step] at h_finished
      exact absurd h_finished (progress_record_ne_finished _ _ _ _)

/-- The word for truth has that value in every scope. -/
theorem resolve_true (scope : Scope) : scope.resolve "true" = .ok (.boolean true) :=
  Resolve.resolve_of_literal? scope (by decide) (by decide +kernel)

/-- A step that decides an `if` whose condition is `true`. -/
theorem step_branch_true (d : Dispatcher δ ε) {run : Run} {line : Nat}
    {thenBlock elseBlock rest : List Statement} {outer : List (List Statement)}
    (h : run.report.aborted = false)
    (h_blocks : run.blocks = (.branch line "true" thenBlock elseBlock :: rest) :: outer)
    (state : δ) :
    (run.step d state).run =
      { run with
        scope := run.scope.push
        blocks := thenBlock :: rest :: outer
        report := run.report.addSuccess } := by
  rw [step_of_first d h h_blocks, Statement.execute, resolve_true]
  rfl

/-- An `if` inside an `if`, with nothing in it. -/
def nested : List Statement :=
  [.branch 1 "true" [.branch 2 "true" [] []] []]

/-- A run of `nested` that has entered both branches, and has left no block yet. -/
def insideNested : Run where
  scope := Scope.push (Scope.push (Scope.push {}))
  blocks := [[], [], []]
  report := { executed := 2 }

/-- Two steps lead into both branches of `nested`. -/
theorem driven_insideNested :
    Driven ActionQueue Unit (ofStatements nested (Scope.push {})) insideNested := by
  have h_start : Driven ActionQueue Unit (ofStatements nested (Scope.push {})) _ := .start
  have h_first := h_start.step ActionQueue.dispatch {}
  rw [step_branch_true _ rfl rfl] at h_first
  have h_second := h_first.step ActionQueue.dispatch {}
  rwa [step_branch_true _ rfl rfl] at h_second

/-- A run that began with two frames, inside both branches of `nested`: the next step leaves them,
and two frames remain. -/
theorem frames_in_lockstep_nested :
    Driven ActionQueue Unit (ofStatements nested (Scope.push {})) insideNested ∧
      insideNested.scope.depth = 2 + max 3 1 - 1 ∧
      leaveAbove 2 insideNested.scope insideNested.blocks = some (Scope.push {}, []) ∧
      (insideNested.step (ActionQueue.dispatch (ε := Unit)) {}).progress = .finished ∧
      (insideNested.step (ActionQueue.dispatch (ε := Unit)) {}).run.scope.depth = 2 := by
  obtain ⟨h_depth, h_leave, -, h_end⟩ := frames_in_lockstep driven_insideNested
  exact ⟨driven_insideNested, h_depth, h_leave, rfl, h_end _ {} rfl rfl⟩

end LineScript.Run
