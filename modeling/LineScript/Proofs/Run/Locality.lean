import LineScript.Proofs.Run.Lockstep

/-!
# Blocks are local

Inside a branch a script may assign to variables that were there before, and may bring in new ones.
The first are changed where they live, and the others end with the branch. Nothing of this is
checked while a script runs: an assignment goes to the first frame that has its name, and a new name
goes to the innermost frame.

What makes it work is that no name is bound in two frames. A name that is bound around a branch is
then not bound inside it as well, so an assignment to it reaches the frame outside.

* `unshadowed_after`: a run that starts with no name in two frames keeps it so;
* `Within`: a run inside a block, with the frames of the block apart from those around it;
* `Scope.Rewritten`: what assignments make of a scope that gets no new names;
* `within_step`: **one step inside a block rewrites what is outside, or else it leaves the block**,
  and then it goes on from there. A block that was left is not come back to (`past_step`);
* `blocks_are_local`: the same for any number of steps.
-/

namespace LineScript

variable {δ ε : Type}

/-! ### Rewriting -/

/-- The scope after those of the assignments that concern its names, the last of which counts. Frame
by frame, the names are the same. -/
structure Scope.Rewritten (before : Scope) (assignments : List (String × Value)) (outside : Scope) :
    Prop where
  /-- No frame gets a name, and none loses one. -/
  names : outside.frames.map Table.names = before.frames.map Table.names
  /-- A name has the value that was assigned to it last, or else its earlier value. -/
  lookup : ∀ name, outside.lookup name =
    if before.isBound name then (assignments.reverse.lookup name).or (before.lookup name) else none

namespace Scope.Rewritten

variable {before outside : Scope} {assignments : List (String × Value)} {name : String}

theorem refl (before : Scope) : before.Rewritten [] before where
  names := rfl
  lookup name := by
    unfold isBound
    cases before.lookup name <;> rfl

/-- The names are those that were there before. -/
theorem boundIn_iff (h : before.Rewritten assignments outside) (name : String) :
    BoundIn outside.frames name ↔ before.isBound name := by
  rw [isBound_iff, Scope.boundIn_iff, Scope.boundIn_iff, h.names]

/-- The last assignment to a name is found first. -/
theorem lookup_reverse_append (assignments : List (String × Value)) (name other : String)
    (v : Value) :
    (assignments ++ [(name, v)]).reverse.lookup other =
      if other = name then some v else assignments.reverse.lookup other := by
  rw [List.reverse_append, List.reverse_singleton, List.singleton_append, List.lookup_cons]
  by_cases h : other = name
  · simp [h]
  · rw [beq_false_of_ne h, if_neg h]

/-- An assignment to one of the names is one more to rewrite with. -/
theorem assign (h : before.Rewritten assignments outside) (v : Value)
    (h_name : BoundIn outside.frames name) :
    before.Rewritten (assignments ++ [(name, v)]) (outside.assign name v) where
  names := (map_names_assign v h_name).trans h.names
  lookup other := by
    rw [lookup_assign, lookup_reverse_append, h.lookup]
    by_cases h_other : other = name
    · rw [if_pos h_other, if_pos h_other, if_pos]
      · rfl
      · rw [h_other]
        exact (h.boundIn_iff name).mp h_name
    · rw [if_neg h_other, if_neg h_other]

/-- An assignment to any other name is none of its business. -/
theorem skip (h : before.Rewritten assignments outside) (v : Value)
    (h_name : ¬ BoundIn outside.frames name) :
    before.Rewritten (assignments ++ [(name, v)]) outside where
  names := h.names
  lookup other := by
    rw [h.lookup, lookup_reverse_append]
    by_cases h_other : other = name
    · have h_unbound : ¬ before.isBound other := by
        rw [h_other]
        exact fun h_bound => h_name ((h.boundIn_iff name).mpr h_bound)
      rw [if_neg h_unbound, if_neg h_unbound]
    · rw [if_neg h_other]

end Scope.Rewritten

namespace Run

/-! ### No name in two frames -/

/-- Leaving blocks takes frames off the front. -/
theorem frames_leave_suffix (scope : Scope) (blocks : List (List Statement)) :
    (leave scope blocks).1.frames <:+ scope.frames := by
  fun_induction leave scope blocks with
  | case1 => exact List.suffix_rfl
  | case2 => exact List.suffix_rfl
  | case3 scope outer rest ih => exact ih.trans scope.frames_pop_suffix
  | case4 => exact List.suffix_rfl

/-- A statement does not bring a name into a second frame. -/
theorem unshadowed_execute (d : Dispatcher δ ε) {scope : Scope} (h : scope.Unshadowed) (state : δ)
    (s : Statement) : (s.execute d scope state).scope.Unshadowed := by
  rcases s.execute_cases d scope state with ⟨name, v, -, h_scope, -⟩ | ⟨-, h_scope, -⟩ |
    ⟨-, h_scope, -⟩
  · rw [h_scope]
    exact h.assign name v
  · rw [h_scope]
    exact h
  · rw [h_scope]
    exact h.push

/-- **A step does not bring a name into a second frame.** Leaving blocks only takes frames off. -/
theorem unshadowed_step (d : Dispatcher δ ε) (run : Run) (state : δ) (h : run.scope.Unshadowed) :
    (run.step d state).run.scope.Unshadowed := by
  have h_left := h.of_suffix (frames_leave_suffix run.scope run.blocks)
  rcases step_cases d run state with ⟨-, h_step⟩ | ⟨-, scope, h_leave, h_step⟩ |
    ⟨-, scope, first, rest, outer, h_leave, h_step⟩
  · rw [h_step]
    exact h
  · rw [h_leave] at h_left
    rw [h_step]
    exact h_left
  · rw [h_leave] at h_left
    rw [h_step, scope_record]
    exact unshadowed_execute d h_left state first

/-- A run that starts with no name in two frames comes to no state with one. -/
theorem unshadowed_after (d : Dispatcher δ ε) (n : Nat) {run : Run} (state : δ)
    (h : run.scope.Unshadowed) : (after d n run state).1.scope.Unshadowed :=
  after_induction (P := fun run => run.scope.Unshadowed) (unshadowed_step d) h n state

/-! ### Inside a block -/

/-- A scope and the open blocks, seen from inside a block: one or more blocks stand in front of
`enclosing`, and one frame for each of them in front of those of `outside`. -/
def Within (enclosing : List (List Statement)) (outside scope : Scope)
    (blocks : List (List Statement)) : Prop :=
  ∃ inner frames, inner ≠ [] ∧ blocks = inner ++ enclosing ∧
    frames.length = inner.length ∧ scope.frames = frames ++ outside.frames

/-- Leaving the blocks that are used up either comes to a stop inside, or comes out with exactly
what is outside. -/
theorem Within.leave {enclosing : List (List Statement)} {outside scope : Scope}
    {blocks : List (List Statement)} (h : Within enclosing outside scope blocks)
    (h_enclosing : enclosing ≠ []) :
    leave scope blocks = leave outside enclosing ∨
      Within enclosing outside (leave scope blocks).1 (leave scope blocks).2 := by
  obtain ⟨inner, frames, h_inner, rfl, h_length, h_frames⟩ := h
  -- by induction on the blocks inside; each that is used up takes its own frame along
  induction inner generalizing scope frames with
  | nil => exact absurd rfl h_inner
  | cons block inner ih =>
    obtain ⟨f, frames, rfl⟩ := List.exists_cons_of_length_eq_add_one h_length
    cases block with
    | cons first rest =>
      rw [List.cons_append, leave_cons_cons]
      exact .inr ⟨_, f :: frames, h_inner, rfl, h_length, h_frames⟩
    | nil =>
      rw [List.cons_append, leave_nil_cons scope (List.append_ne_nil_of_right_ne_nil _ h_enclosing)]
      cases inner with
      | nil =>
        -- the last block inside, so its frame is the last one inside
        obtain rfl : frames = [] := List.eq_nil_of_length_eq_zero (by simpa using h_length)
        rw [Scope.pop_eq_of_frames h_frames]
        exact .inl rfl
      | cons next inner =>
        obtain ⟨g, frames, rfl⟩ := List.exists_cons_of_length_eq_add_one
          (Nat.succ.inj h_length)
        have h_pop : scope.pop = ⟨g, frames ++ outside.frames⟩ := Scope.pop_eq_of_frames h_frames
        rw [h_pop]
        exact ih (g :: frames) (List.cons_ne_nil _ _) (Nat.succ.inj h_length) rfl

/-- **A statement inside a block rewrites what is outside, and leaves it where it is.** Its
assignment reaches a frame outside exactly if the name is bound there. -/
theorem Within.execute (d : Dispatcher δ ε) (state : δ) {enclosing : List (List Statement)}
    {before outside scope : Scope} {assignments : List (String × Value)} {first : Statement}
    {rest : List Statement} {outer : List (List Statement)}
    (h : Within enclosing outside scope ((first :: rest) :: outer)) (h_scope : scope.Unshadowed)
    (h_outside : before.Rewritten assignments outside) :
    ∃ outside', Within enclosing outside' (first.execute d scope state).scope
        ((first.execute d scope state).entered.toList ++ rest :: outer) ∧
      before.Rewritten (assignments ++ (first.assignment? scope).toList) outside' := by
  obtain ⟨inner, frames, h_inner, h_blocks, h_length, h_frames⟩ := h
  obtain ⟨block, inner, rfl⟩ := List.exists_cons_of_ne_nil h_inner
  obtain ⟨rfl, rfl⟩ := List.cons.inj h_blocks
  rcases first.execute_cases d scope state with ⟨name, v, h_assignment, h_after, h_entered⟩ |
    ⟨h_assignment, h_after, h_entered⟩ | ⟨h_assignment, h_after, next, h_entered⟩
  · rw [h_assignment, h_after, h_entered]
    by_cases h_name : Scope.BoundIn outside.frames name
    · -- no frame inside has the name, so the assignment goes outside
      have h_assign := Scope.frames_assign_of_boundIn h_frames v
        (h_scope.not_boundIn h_frames h_name) h_name
      exact ⟨outside.assign name v,
        ⟨rest :: inner, frames, List.cons_ne_nil _ _, rfl, h_length, h_assign⟩,
        h_outside.assign v h_name⟩
    · -- the name is a local one, old or new
      have h_some : frames ≠ [] := List.ne_nil_of_length_eq_add_one h_length
      obtain ⟨frames', h_assign, h_length'⟩ :=
        Scope.frames_assign_of_not_boundIn h_frames v h_some h_name
      exact ⟨outside,
        ⟨rest :: inner, frames', List.cons_ne_nil _ _, rfl, h_length'.trans h_length, h_assign⟩,
        h_outside.skip v h_name⟩
  · rw [h_assignment, h_after, h_entered]
    refine ⟨outside, ⟨rest :: inner, frames, List.cons_ne_nil _ _, rfl, h_length, h_frames⟩, ?_⟩
    rwa [Option.toList_none, List.append_nil]
  · -- one more block inside, with one more frame
    rw [h_assignment, h_after, h_entered]
    refine ⟨outside, ⟨next :: rest :: inner, ∅ :: frames, List.cons_ne_nil _ _, rfl, ?_, ?_⟩, ?_⟩
    · exact congrArg Nat.succ h_length
    · exact congrArg (List.cons ∅) h_frames
    · rwa [Option.toList_none, List.append_nil]

/-! ### Steps inside a block -/

/-- The assignment that the next step makes. -/
def assignment? (run : Run) : Option (String × Value) :=
  if run.report.aborted then none
  else
    match leave run.scope run.blocks with
    | (scope, (first :: _) :: _) => first.assignment? scope
    | _ => none

/-- The assignments that the first so many steps make. -/
def assignments (d : Dispatcher δ ε) : Nat → Run → δ → List (String × Value)
  | 0, _, _ => []
  | n + 1, run, state =>
    run.assignment?.toList ++ assignments d n (run.step d state).run (run.step d state).state

/-- A run inside a block, after some assignments. -/
def Visits (before : Scope) (enclosing : List (List Statement))
    (assignments : List (String × Value)) (run : Run) : Prop :=
  ∃ outside, Within enclosing outside run.scope run.blocks ∧ before.Rewritten assignments outside

/-- What encloses a block is no longer all there, so the block was left. Counting statements is
needed since a later block may be of the same height on the stack. -/
def Past (enclosing : List (List Statement)) (run : Run) : Prop :=
  run.blocks = [] ∨ run.pending < Statement.totalSize enclosing.flatten

section Steps

variable (d : Dispatcher δ ε) {run : Run} (state : δ) {before outside : Scope}
  {enclosing : List (List Statement)} {assignments : List (String × Value)}

/-- **A step inside a block stays there, or goes on from what is outside.** -/
theorem within_step (h : Within enclosing outside run.scope run.blocks)
    (h_enclosing : enclosing ≠ []) (h_scope : run.scope.Unshadowed)
    (h_outside : before.Rewritten assignments outside) :
    (run.report.aborted = false ∧ leave run.scope run.blocks = leave outside enclosing) ∨
      Visits before enclosing (assignments ++ run.assignment?.toList) (run.step d state).run := by
  unfold assignment?
  rcases step_cases d run state with ⟨h_stopped, h_step⟩ | ⟨h_running, scope, h_leave, h_step⟩ |
    ⟨h_running, scope, first, rest, outer, h_leave, h_step⟩
  · rw [h_step, if_pos h_stopped, Option.toList_none, List.append_nil]
    exact .inr ⟨outside, h, h_outside⟩
  · -- nothing is open, so the block was left
    rcases h.leave h_enclosing with h_left | ⟨inner, _, h_inner, h_blocks, -, -⟩
    · exact .inl ⟨h_running, h_left⟩
    · rw [h_leave] at h_blocks
      exact absurd (List.append_eq_nil_iff.mp h_blocks.symm).1 h_inner
  · rcases h.leave h_enclosing with h_left | h_within
    · exact .inl ⟨h_running, h_left⟩
    · have h_unshadowed := h_scope.of_suffix (frames_leave_suffix run.scope run.blocks)
      rw [h_leave] at h_within h_unshadowed
      rw [h_step, h_running, if_neg Bool.false_ne_true, h_leave]
      unfold Visits
      rw [scope_record, blocks_record]
      exact .inr (h_within.execute d state h_unshadowed h_outside)

/-- A step that goes on from what is outside is past the block. -/
theorem past_of_leave (h_running : run.report.aborted = false)
    (h_leave : leave run.scope run.blocks = leave outside enclosing) :
    Past enclosing (run.step d state).run := by
  rcases step_cases d run state with ⟨h_stopped, -⟩ | ⟨-, scope, -, h_step⟩ |
    ⟨-, scope, first, rest, outer, h_first, h_step⟩
  · rw [h_running] at h_stopped
    cases h_stopped
  · rw [h_step]
    exact .inl rfl
  · -- a statement of what encloses the block is used up
    have h_flatten := flatten_leave outside enclosing
    rw [← h_leave, h_first] at h_flatten
    have h_entered := totalSize_entered_lt d scope state first
    right
    rw [h_step, pending_record, ← h_flatten, List.flatten_cons, List.flatten_cons,
      List.cons_append, Statement.totalSize]
    omega

/-- A block that was left is not come back to, since the statements left to do only become fewer. -/
theorem past_step (h : Past enclosing run) : Past enclosing (run.step d state).run := by
  rcases step_cases d run state with ⟨-, h_step⟩ | ⟨-, scope, -, h_step⟩ |
    ⟨-, scope, first, rest, outer, h_leave, h_step⟩
  · rw [h_step]
    exact h
  · rw [h_step]
    exact .inl rfl
  · rcases h with h_blocks | h_pending
    · rw [h_blocks, leave] at h_leave
      cases h_leave
    · right
      refine Nat.lt_trans (pending_step_lt d run state ?_) h_pending
      rw [h_step]
      exact progress_record_ne_finished _ _ _ _

/-- A step inside a block stays there, or is past the block. -/
theorem visits_step (h : Visits before enclosing assignments run) (h_enclosing : enclosing ≠ [])
    (h_scope : run.scope.Unshadowed) :
    Visits before enclosing (assignments ++ run.assignment?.toList) (run.step d state).run ∨
      Past enclosing (run.step d state).run := by
  obtain ⟨outside, h_within, h_outside⟩ := h
  rcases within_step d state h_within h_enclosing h_scope h_outside with
    ⟨h_running, h_leave⟩ | h_visits
  · exact .inr (past_of_leave d state h_running h_leave)
  · exact .inl h_visits

/-- **Any number of steps inside a block stay there, or come past the block.** -/
theorem visits_after (n : Nat) (h_enclosing : enclosing ≠ []) (h_scope : run.scope.Unshadowed)
    (h : Visits before enclosing assignments run ∨ Past enclosing run) :
    Visits before enclosing (assignments ++ Run.assignments d n run state) (after d n run state).1 ∨
      Past enclosing (after d n run state).1 := by
  induction n generalizing run state assignments with
  | zero =>
    rw [Run.assignments, List.append_nil]
    exact h
  | succ n ih =>
    rw [Run.assignments, ← List.append_assoc]
    refine ih _ (unshadowed_step d run state h_scope) ?_
    rcases h with h_visits | h_past
    · exact visits_step d state h_visits h_enclosing h_scope
    · exact .inr (past_step d state h_past)

end Steps

/-! ### From entering a branch to leaving it -/

/-- The next step decides an `if` in the scope `before` and enters one of its branches, around which
the blocks `enclosing` are open. -/
def EntersBranch (d : Dispatcher δ ε) (run : Run) (state : δ) (before : Scope)
    (enclosing : List (List Statement)) : Prop :=
  run.report.aborted = false ∧ ∃ first rest outer,
    leave run.scope run.blocks = (before, (first :: rest) :: outer) ∧
    (first.execute d before state).entered.isSome ∧ enclosing = rest :: outer

/-- The block that stands in front of `enclosing` was not left yet. -/
def IsInside (enclosing : List (List Statement)) (run : Run) : Prop :=
  ∃ inner, inner ≠ [] ∧ run.blocks = inner ++ enclosing

/-- A run whose frames are those of a block and of what is outside has not left the block. -/
theorem Within.isInside {enclosing : List (List Statement)} {outside : Scope} {run : Run}
    (h : Within enclosing outside run.scope run.blocks) : IsInside enclosing run := by
  obtain ⟨inner, frames, h_inner, h_blocks, -⟩ := h
  exact ⟨inner, h_inner, h_blocks⟩

/-- A run cannot be inside a block and past it: what encloses the block would have more statements
than the whole. -/
theorem not_isInside_of_past {enclosing : List (List Statement)} {run : Run}
    (h : Past enclosing run) : ¬ IsInside enclosing run := by
  rintro ⟨inner, h_inner, h_blocks⟩
  rcases h with h_none | h_pending
  · rw [h_none] at h_blocks
    exact h_inner (List.append_eq_nil_iff.mp h_blocks.symm).1
  · rw [pending, h_blocks, List.flatten_append, Statement.totalSize_append] at h_pending
    omega

/-- Where a branch is entered, one block and one empty frame are inside, and nothing was assigned
yet. -/
theorem visits_of_entersBranch {d : Dispatcher δ ε} {run : Run} {state : δ} {before : Scope}
    {enclosing : List (List Statement)} (h : EntersBranch d run state before enclosing) :
    Visits before enclosing [] (run.step d state).run := by
  obtain ⟨h_running, first, rest, outer, h_leave, h_entered, rfl⟩ := h
  obtain ⟨block, h_block⟩ := Option.isSome_iff_exists.mp h_entered
  have h_step : run.step d state =
      record run first.line (rest :: outer) (first.execute d before state) := by
    rw [step, if_neg (by rw [h_running]; exact Bool.false_ne_true), h_leave]
  have h_scope : (first.execute d before state).scope = before.push := by
    -- of the three things that a statement can do, only the last enters a block
    rcases first.execute_cases d before state with ⟨_, _, -, -, h_none⟩ | ⟨-, -, h_none⟩ |
      ⟨-, h_push, -⟩
    · rw [h_none] at h_block
      cases h_block
    · rw [h_none] at h_block
      cases h_block
    · exact h_push
  refine ⟨before, ⟨[block], [∅], List.cons_ne_nil _ _, ?_, rfl, ?_⟩, Scope.Rewritten.refl before⟩
  · rw [h_step, blocks_record, h_block]
    rfl
  · rw [h_step, scope_record, h_scope]
    rfl

/-- **Blocks are local, and nothing is shadowed.** In every state that a run comes to, no name is
bound in two frames, if that was so at the start. And as long as a branch is not left, there is one
frame inside for each block inside, and what is outside is the scope in which the branch was
entered, with the same names frame by frame, where each name has the value that was assigned to it
last since then, or else its earlier value. The step that leaves the branch goes on from there. -/
theorem blocks_are_local {d : Dispatcher δ ε} {statements : List Statement} {scope : Scope}
    (h : scope.Unshadowed) {policy : Policy} {state later : δ} {i : Nat} {now : Run}
    (h_now : after d i (ofStatements statements scope policy) state = (now, later)) :
    now.scope.Unshadowed ∧
    ∀ before enclosing, EntersBranch d now later before enclosing →
    ∀ n inside state',
      after d n (now.step d later).run (now.step d later).state = (inside, state') →
      IsInside enclosing inside →
      ∃ outside, Within enclosing outside inside.scope inside.blocks ∧
        before.Rewritten (assignments d n (now.step d later).run (now.step d later).state) outside ∧
        (¬ IsInside enclosing (inside.step d state').run →
          leave inside.scope inside.blocks = leave outside enclosing) := by
  have h_scope : now.scope.Unshadowed := by
    have h_after : (after d i (ofStatements statements scope policy) state).1.scope.Unshadowed :=
      unshadowed_after d i state h
    rwa [h_now] at h_after
  refine ⟨h_scope, ?_⟩
  intro before enclosing h_enters n inside state' h_inside h_open
  have h_enclosing : enclosing ≠ [] := by
    obtain ⟨-, _, rest, outer, -, -, rfl⟩ := h_enters
    exact List.cons_ne_nil _ _
  have h_entered := unshadowed_step d now later h_scope
  have h_visits := visits_after d (now.step d later).state n h_enclosing h_entered
    (.inl (visits_of_entersBranch h_enters))
  have h_within_scope := unshadowed_after d n (now.step d later).state h_entered
  rw [h_inside] at h_visits h_within_scope
  rcases h_visits with ⟨outside, h_within, h_outside⟩ | h_past
  · -- a step that stayed inside would contradict that the block is left
    refine ⟨outside, h_within, h_outside, fun h_left => ?_⟩
    rcases within_step d state' h_within h_enclosing h_within_scope h_outside with
      ⟨-, h_leave⟩ | ⟨_, h_still, -⟩
    · exact h_leave
    · exact absurd h_still.isInside h_left
  · exact absurd h_open (not_isInside_of_past h_past)

/-- A step that carries out an assignment whose expression has a value. -/
theorem step_assign (d : Dispatcher δ ε) {scope : Scope} {line : Nat} {name expression : String}
    {v : Value} {rest : List Statement} {outer : List (List Statement)} {policy : Policy}
    {report : Report} (h : report.aborted = false) (h_value : scope.resolve expression = .ok v)
    (state : δ) :
    (step d ⟨scope, (.assign line name expression :: rest) :: outer, policy, report⟩ state).run =
        ⟨scope.assign name v, rest :: outer, policy, report.addSuccess⟩ ∧
      assignment? ⟨scope, (.assign line name expression :: rest) :: outer, policy, report⟩ =
        some (name, v) := by
  constructor
  · rw [step_of_first d h rfl, Statement.execute, h_value]
    rfl
  · rw [assignment?, h, if_neg Bool.false_ne_true, leave_cons_cons]
    simp only [Statement.assignment?, h_value]
    rfl

/-- The branch closes a door that was there before, and brings in a name of its own. -/
def closing : List Statement :=
  [.branch 1 "true" [.assign 2 "open" "false", .assign 3 "seen" "true"] [], .command 5 "shout"]

/-- A door that is open. -/
def atTheDoor : Scope :=
  Scope.ofList [("open", .boolean true)]

/-- A run of `closing` at the end of the branch, which was not left yet. -/
def doorClosed : Run where
  scope := (atTheDoor.push.assign "open" (.boolean false)).assign "seen" (.boolean true)
  blocks := [[], [.command 5 "shout"]]
  report := { executed := 3 }

/-- The two assignments of the branch of `closing` lead to `doorClosed`. -/
theorem after_closing (d : Dispatcher δ ε) (state : δ) :
    (after d 2 ((ofStatements closing atTheDoor).step d state).run
        ((ofStatements closing atTheDoor).step d state).state).1 = doorClosed ∧
      assignments d 2 ((ofStatements closing atTheDoor).step d state).run
        ((ofStatements closing atTheDoor).step d state).state =
          [("open", .boolean false), ("seen", .boolean true)] := by
  have h_false (scope : Scope) : scope.resolve "false" = .ok (.boolean false) :=
    Resolve.resolve_of_literal? scope (by decide) (by decide +kernel)
  rw [step_branch_true d rfl rfl]
  simp only [after, assignments]
  constructor
  · rw [(step_assign d rfl (h_false _) _).1, (step_assign d rfl (resolve_true _) _).1]
    rfl
  · rw [(step_assign d rfl (h_false _) _).1, (step_assign d rfl (h_false _) state).2,
      (step_assign d rfl (resolve_true _) state).2]
    rfl

/-- The branch of `closing` at its end: the door was shut outside, and the name that came in with
the branch is not known there. -/
theorem blocks_are_local_closing :
    atTheDoor.Unshadowed ∧
    EntersBranch (ActionQueue.dispatch (ε := Unit)) (ofStatements closing atTheDoor) {} atTheDoor
      [[.command 5 "shout"]] ∧
    IsInside [[.command 5 "shout"]] doorClosed ∧
    ¬ IsInside [[.command 5 "shout"]] (doorClosed.step (ActionQueue.dispatch (ε := Unit)) {}).run ∧
    ∃ outside : Scope, outside.lookup "open" = some (.boolean false) ∧
      outside.lookup "seen" = none ∧
      leave doorClosed.scope doorClosed.blocks = leave outside [[.command 5 "shout"]] := by
  have h_scope : atTheDoor.Unshadowed := List.pairwise_singleton _ _
  have h_enters : EntersBranch (ActionQueue.dispatch (ε := Unit)) (ofStatements closing atTheDoor)
      {} atTheDoor [[.command 5 "shout"]] := by
    refine ⟨rfl, _, _, _, leave_cons_cons _ _ _ _, ?_, rfl⟩
    rw [Statement.execute, resolve_true]
    rfl
  have h_inside : IsInside [[.command 5 "shout"]] doorClosed := ⟨[[]], by simp, rfl⟩
  have h_left : ¬ IsInside [[.command 5 "shout"]]
      (doorClosed.step (ActionQueue.dispatch (ε := Unit)) {}).run :=
    not_isInside_of_past (past_of_leave _ _ rfl (leave_nil_cons _ (List.cons_ne_nil _ _)))
  obtain ⟨h_after, h_assignments⟩ := after_closing (ActionQueue.dispatch (ε := Unit)) {}
  obtain ⟨-, h_local⟩ := blocks_are_local (i := 0) h_scope rfl
  obtain ⟨outside, -, h_outside, h_leave⟩ :=
    h_local _ _ h_enters 2 _ _ (Prod.ext h_after rfl) h_inside
  rw [h_assignments] at h_outside
  refine ⟨h_scope, h_enters, h_inside, h_left, outside, ?_, ?_, h_leave h_left⟩
  · rw [h_outside.lookup]
    decide
  · rw [h_outside.lookup]
    decide

end Run

end LineScript
