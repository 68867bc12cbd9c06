import LineScript.Dispatch.CommandTable
import LineScript.Dispatch.Queue
import LineScript.Proofs.Run.Likeness
import LineScript.Proofs.Scope.Alike
import LineScript.Proofs.Session.Operations

/-!
# Runs of one session do not touch each other

All that a run takes from its session is the globals, the policy and the state of the dispatcher.
What earlier scripts assigned, how far they came and what they reported is gone with them.

* `settings_perform`, `settings_performAll`: only `setGlobal` changes the globals and only
  `setPolicy` changes the policy, so **whatever happened in a session, a global has the value that
  it was last set to**, and a name that was never set has none;
* `begun_of_start`: a script starts in one frame, with these globals in it and nothing reported;
* `Dispatcher.OrderBlind`, `ended_eq`: globals come into that frame in the order in which they were
  first set. A script cannot tell that order, and a dispatcher that takes frames for what they are,
  maps from names to values, cannot either. So two sessions with the same globals run every script
  alike;
* `runs_are_isolated`: both together.
-/

namespace LineScript

variable {δ ε : Type}

/-! ### Dispatchers that take frames for maps -/

/-- How a command goes, and the state afterwards, does not hang on the order in which names came
into the frames of the scope. -/
def Dispatcher.OrderBlind (d : Dispatcher δ ε) : Prop :=
  ∀ (text : String) (scope scope' : Scope) (state : δ), scope.Alike scope' →
    (d text scope state).1.result = (d text scope' state).1.result ∧
      (d text scope state).2 = (d text scope' state).2

/-- **The queue of actions takes frames for maps.** -/
theorem ActionQueue.orderBlind_dispatch : (dispatch : Dispatcher ActionQueue ε).OrderBlind := by
  intro text scope scope' queue h
  unfold dispatch
  rw [h.parse_eq text]
  cases Action.parse text scope' with
  | ok action => exact ⟨rfl, rfl⟩
  | error e => exact ⟨rfl, rfl⟩

/-- **So does a command table.** Handlers and fallback are given values, and no frame. -/
theorem CommandTable.orderBlind_dispatch :
    (dispatch : Dispatcher (CommandTable ε) ε).OrderBlind := by
  intro text scope scope' table h
  unfold dispatch
  rw [h.parse_eq text]
  cases Action.parse text scope' with
  | ok action => exact ⟨rfl, rfl⟩
  | error e => exact ⟨rfl, rfl⟩

/-- Runs whose scopes are the same stack of maps, under a dispatcher that cannot tell them apart. -/
def Run.Likeness.ofOrderBlind {d : Dispatcher δ ε} (h : d.OrderBlind) : Run.Likeness d where
  scopes := Scope.Alike
  states := Eq
  resolve_eq expression h_alike := congrFun h_alike.resolve_eq expression
  assign name v h_alike := h_alike.assign name v
  push h_alike := h_alike.push
  pop h_alike := h_alike.pop
  result_eq text h_alike h_state := h_state ▸ (h text _ _ _ h_alike).1
  dispatch text h_alike h_state := h_state ▸ (h text _ _ _ h_alike).2

namespace Session

/-! ### Settings -/

/-- The value that the operation gives to the global with this name. -/
def Operation.global? (name : String) : Operation δ → Option Value
  | .setGlobal other v => if name = other then some v else none
  | _ => none

/-- The policy that the operation sets. -/
def Operation.policy? : Operation δ → Option Policy
  | .setPolicy policy => some policy
  | _ => none

/-- The last value that one of the operations gives to something, if any of them does. -/
def lastGiven {α : Type} (gives : Operation δ → Option α) (history : List (Operation δ)) :
    Option α :=
  history.reverse.findSome? gives

/-- What a later operation gives counts, and only without any the first one. -/
theorem lastGiven_cons {α : Type} (gives : Operation δ → Option α) (operation : Operation δ)
    (rest : List (Operation δ)) :
    lastGiven gives (operation :: rest) = (lastGiven gives rest).or (gives operation) := by
  unfold lastGiven
  rw [List.reverse_cons, List.findSome?_append, List.findSome?_singleton]

/-- A global that is set has its new value, and every other one the value it had. -/
theorem global?_setGlobal (s : Session δ) (name : String) (v : Value) (other : String) :
    (s.setGlobal name v).global? other = if other = name then some v else s.global? other :=
  s.globals.find?_insert name other v

/-- An operation on a script leaves globals and policy alone, whether or not there is the script. -/
theorem OnScript.settings_eq {α : Type} {s : Session δ} {script : Except Error (List Statement)}
    {answer : List Statement → α} {after : List Statement → Session δ} {r : Reaction δ ε α}
    (h : OnScript s script answer after r)
    (h_after : ∀ statements, (after statements).globals = s.globals ∧
      (after statements).policy = s.policy) :
    r.session.globals = s.globals ∧ r.session.policy = s.policy := by
  rw [h.session_eq]
  cases script with
  | ok statements => exact h_after statements
  | error e => exact ⟨rfl, rfl⟩

/-- The same globals, as a table, give every name the same value. -/
theorem settings_of_eq {s s' : Session δ}
    (h : s'.globals = s.globals ∧ s'.policy = s.policy) :
    (∀ name, s'.global? name = s.global? name) ∧ s'.policy = s.policy :=
  ⟨fun name => congrArg (Table.find? · name) h.1, h.2⟩

/-- Only `setGlobal` changes the globals, and only `setPolicy` changes the policy. -/
theorem settings_perform (h : Host δ ε) (s : Session δ) (operation : Operation δ) :
    (∀ name, (s.perform h operation).session.global? name =
        (operation.global? name).or (s.global? name)) ∧
      (s.perform h operation).session.policy = operation.policy?.getD s.policy := by
  cases operation with
  | setGlobal name v =>
    refine ⟨fun other => ?_, rfl⟩
    refine (global?_setGlobal s name v other).trans ?_
    unfold Operation.global?
    dsimp only
    split
    · rfl
    · rfl
  | setPolicy policy => exact ⟨fun name => rfl, rfl⟩
  -- a run has a copy of the globals, so nothing that it does comes back to the session
  | start identifier =>
    exact settings_of_eq ((onScript_start h s identifier).settings_eq fun _ => ⟨rfl, rfl⟩)
  | startSource source =>
    exact settings_of_eq ((onScript_startSource (ε := ε) s source).settings_eq fun _ => ⟨rfl, rfl⟩)
  | run identifier =>
    exact settings_of_eq ((onScript_run h s identifier).settings_eq fun _ => ⟨rfl, rfl⟩)
  | runSource source =>
    exact settings_of_eq ((onScript_runSource h s source).settings_eq fun _ => ⟨rfl, rfl⟩)
  | step =>
    refine settings_of_eq ?_
    change (s.step h).session.globals = _ ∧ (s.step h).session.policy = _
    unfold step
    cases s.current with
    | none => exact ⟨rfl, rfl⟩
    | some run => exact ⟨rfl, rfl⟩
  | finish =>
    refine settings_of_eq ?_
    change (s.finish h).session.globals = _ ∧ (s.finish h).session.policy = _
    unfold finish
    cases s.current with
    | none => exact ⟨rfl, rfl⟩
    | some run => exact ⟨rfl, rfl⟩
  | clear => exact ⟨fun name => rfl, rfl⟩
  | drain take => exact ⟨fun name => rfl, rfl⟩

/-- **Whatever happened in a session, a global has the value that it was last set to.** The same
holds of the policy. -/
theorem settings_performAll (h : Host δ ε) (s : Session δ) (history : List (Operation δ)) :
    (∀ name, (performAll h s history).global? name =
        (lastGiven (Operation.global? name) history).or (s.global? name)) ∧
      (performAll h s history).policy = (lastGiven Operation.policy? history).getD s.policy := by
  induction history generalizing s with
  | nil => exact ⟨fun name => rfl, rfl⟩
  | cons operation rest ih =>
    obtain ⟨h_global, h_policy⟩ := settings_perform h s operation
    obtain ⟨h_global', h_policy'⟩ := ih (s.perform h operation).session
    -- what the rest gives comes before what the first operation gives, and both before the start
    refine ⟨fun name => ?_, ?_⟩
    · rw [lastGiven_cons, Option.or_assoc, ← h_global name]
      exact h_global' name
    · rw [lastGiven_cons, Option.getD_or, ← h_policy]
      exact h_policy'

/-! ### Beginnings -/

/-- The script that the operation is to make the current run. -/
def Operation.script? (h : Host δ ε) : Operation δ → Option (Except Error (List Statement))
  | .start identifier => some (script h identifier)
  | .startSource source => some (Script.parse source)
  | _ => none

/-- A script that is started is at its beginning, in a single frame that holds the globals. -/
theorem begun_of_start {h : Host δ ε} {s : Session δ} {operation : Operation δ}
    {script : Except Error (List Statement)} {answer : Answer}
    (h_script : operation.script? h = some script)
    (h_ok : (s.perform h operation).result = .ok answer) :
    ∃ statements, script = .ok statements ∧
      (s.perform h operation).session = s.begun statements := by
  cases operation with
  | start identifier =>
    cases h_script
    exact ((onScript_start h s identifier).map _).of_ok h_ok
  | startSource source =>
    cases h_script
    exact ((onScript_startSource (ε := ε) s source).map _).of_ok h_ok
  | _ => cases h_script

/-- In a scope of one frame a name has the value that it has in the frame. -/
theorem lookup_of_root (globals : Table Value) (name : String) :
    Scope.lookup { current := globals } name = globals.find? name := by
  rw [Scope.lookup_eq_lookupIn]
  change Scope.lookupIn [globals] name = _
  rw [Scope.lookupIn_cons]
  exact Option.or_none

/-! ### Runs with the same globals -/

/-- Sessions with the same globals, policy and state of the dispatcher carry every script to the
same end. -/
theorem ended_eq {h : Host δ ε} (h_blind : h.dispatch.OrderBlind) {s s' : Session δ}
    (h_state : s.state = s'.state) (h_policy : s.policy = s'.policy)
    (h_globals : ∀ name, s.global? name = s'.global? name) (statements : List Statement) :
    (s.ended h statements).run.report = (s'.ended h statements).run.report ∧
      (s.ended h statements).state = (s'.ended h statements).state := by
  -- at their beginnings the two runs differ in the order of one frame at most
  have h_runs : (Run.Likeness.ofOrderBlind h_blind).Runs
      (Run.ofStatements statements { current := s.globals } s.policy)
      (Run.ofStatements statements { current := s'.globals } s'.policy) :=
    ⟨.of_agrees h_globals, rfl, h_policy, rfl⟩
  obtain ⟨-, h_run, h_end⟩ := Run.Likeness.finish h_runs h_state
  exact ⟨h_run.report_eq, h_end⟩

/-- Two operations on one script that have the same answers have the same result. -/
theorem OnScript.eq_of_eq {α : Type} {s s' : Session δ} {script : Except Error (List Statement)}
    {answer answer' : List Statement → α} {after after' : List Statement → Session δ}
    {r r' : Reaction δ ε α} (h : OnScript s script answer after r)
    (h' : OnScript s' script answer' after' r') (h_state : s.state = s'.state)
    (h_same : ∀ statements, answer statements = answer' statements ∧
      (after statements).state = (after' statements).state) :
    r.result = r'.result ∧ r.session.state = r'.session.state := by
  rw [h.result_eq, h'.result_eq, h.session_eq, h'.session_eq]
  cases script with
  | ok statements =>
    obtain ⟨h_answer, h_after⟩ := h_same statements
    exact ⟨congrArg Except.ok h_answer, h_after⟩
  | error e => exact ⟨rfl, h_state⟩

/-- **Runs are isolated from each other.** Whatever was asked of a session since it was opened, the
next script that is started begins in a single frame. There a name has the value that it was last
set to as a global, and has none if it was never set, whatever earlier scripts assigned; the policy
is the one that was set last, and nothing is done or reported yet. And if two sessions have the same
globals, set in whatever order, the same policy and the same state of the dispatcher, then running a
script gives the same result in both and leaves the same state. The dispatcher must not look at the
order of names in a frame; neither the queue of actions nor a command table does. -/
theorem runs_are_isolated (h : Host δ ε) :
    (∀ (state : δ) (policy : Policy) (history : List (Operation δ)) (operation : Operation δ)
        (script : Except Error (List Statement)) (answer : Answer),
      operation.script? h = some script →
      ((performAll h { state, policy } history).perform h operation).result = .ok answer →
      ∃ statements run, script = .ok statements ∧
        ((performAll h { state, policy } history).perform h operation).session.current = some run ∧
        run.scope.depth = 1 ∧
        (∀ name, run.scope.lookup name = lastGiven (Operation.global? name) history) ∧
        run.policy = (lastGiven Operation.policy? history).getD policy ∧
        run.blocks = [statements] ∧ run.report = {}) ∧
    (h.dispatch.OrderBlind → ∀ s s' : Session δ, s.state = s'.state → s.policy = s'.policy →
      (∀ name, s.global? name = s'.global? name) →
      (∀ identifier, (s.run h identifier).result = (s'.run h identifier).result ∧
        (s.run h identifier).session.state = (s'.run h identifier).session.state) ∧
      (∀ source, (s.runSource h source).result = (s'.runSource h source).result ∧
        (s.runSource h source).session.state = (s'.runSource h source).session.state)) ∧
    (ActionQueue.dispatch : Dispatcher ActionQueue ε).OrderBlind ∧
    (CommandTable.dispatch : Dispatcher (CommandTable ε) ε).OrderBlind := by
  refine ⟨?_, ?_, ActionQueue.orderBlind_dispatch, CommandTable.orderBlind_dispatch⟩
  · intro state policy history operation script answer h_script h_ok
    obtain ⟨statements, h_read, h_session⟩ := begun_of_start h_script h_ok
    obtain ⟨h_global, h_policy⟩ := settings_performAll h { state, policy } history
    rw [h_session]
    refine ⟨statements, _, h_read, rfl, rfl, ?_, h_policy, rfl, rfl⟩
    intro name
    -- nothing but the globals is in the frame, and the session had none to begin with
    calc Scope.lookup { current := (performAll h { state, policy } history).globals } name
      _ = (performAll h { state, policy } history).global? name := lookup_of_root _ name
      _ = (lastGiven (Operation.global? name) history).or none := h_global name
      _ = lastGiven (Operation.global? name) history := Option.or_none
  · intro h_blind s s' h_state h_policy h_globals
    have h_same := ended_eq h_blind h_state h_policy h_globals
    refine ⟨fun identifier => ?_, fun source => ?_⟩
    · exact (onScript_run h s identifier).eq_of_eq (onScript_run h s' identifier) h_state h_same
    · exact (onScript_runSource h s source).eq_of_eq (onScript_runSource h s' source) h_state h_same

/-- A host without scripts of its own, whose commands are queued. -/
def queueing : Host ActionQueue Unit :=
  { load := fun _ => .error "no such script", dispatch := ActionQueue.dispatch }

/-- A script overwrites a global and is left behind in the middle. -/
def disturbed : List (Operation ActionQueue) :=
  [.setGlobal "armed" (.boolean true), .startSource "armed = false\nspare = 1\nwait", .step, .step,
    .setGlobal "label" (.text "x"), .setPolicy .abort]

/-- Two globals, set in one order. -/
def armedFirst : Session ActionQueue :=
  (Session.setGlobal { state := {} } "armed" (.boolean true)).setGlobal "label" (.text "x")

/-- The same two globals, set in the other order. -/
def labelFirst : Session ActionQueue :=
  (Session.setGlobal { state := {} } "label" (.text "x")).setGlobal "armed" (.boolean true)

/-- The order in which two globals are set does not show in their values. -/
theorem global?_labelFirst (name : String) : armedFirst.global? name = labelFirst.global? name := by
  unfold armedFirst labelFirst
  rw [global?_setGlobal, global?_setGlobal, global?_setGlobal, global?_setGlobal]
  by_cases h_label : name = "label"
  · subst h_label
    rfl
  · -- a name other than the label: the order of the two tests does not matter
    rw [if_neg h_label, if_neg h_label]

/-- The one statement of the script that disarms. -/
theorem parse_disarm : Script.parse "armed = false" = .ok [.assign 1 "armed" "false"] := by
  have h_lines : Script.lines "armed = false".toList = [⟨1, "armed = false".toList⟩] := by
    decide +kernel
  have h_form : Script.form "armed = false".toList =
      .assignment "armed".toList "false".toList := by decide +kernel
  rw [Script.parse, Script.ofLines_eq_read, h_lines, Script.read_cons, h_form, Script.read_nil]
  rfl

/-- After a disturbed session a script starts with the globals alone, although the script before it
had overwritten one; and the order of two globals, which their frames do tell, does not show in a
result. -/
theorem isolated_after_disturbance :
    (∃ run, ((performAll queueing { state := {} } disturbed).perform queueing
          (.startSource "armed = false")).session.current = some run ∧
        run.scope.depth = 1 ∧ run.scope.lookup "armed" = some (.boolean true) ∧
        run.scope.lookup "label" = some (.text "x") ∧ run.scope.lookup "spare" = none ∧
        run.policy = .abort ∧ run.report = {}) ∧
      armedFirst.globals.names ≠ labelFirst.globals.names ∧
      (armedFirst.runSource queueing "tell armed").result =
        (labelFirst.runSource queueing "tell armed").result := by
  obtain ⟨h_start, h_run, h_queue, -⟩ := runs_are_isolated queueing
  refine ⟨?_, by decide, ?_⟩
  · have h_ok : ((performAll queueing { state := {} } disturbed).perform queueing
        (.startSource "armed = false")).result = .ok .done := by
      refine ((onScript_startSource (ε := Unit) _ "armed = false").map _).result_eq.trans ?_
      rw [parse_disarm]
      rfl
    obtain ⟨statements, run, -, h_current, h_depth, h_lookup, h_policy, -, h_report⟩ :=
      h_start {} .proceed disturbed (.startSource "armed = false") _ .done rfl h_ok
    exact ⟨run, h_current, h_depth, h_lookup "armed", h_lookup "label", h_lookup "spare", h_policy,
      h_report⟩
  · exact ((h_run h_queue armedFirst labelFirst rfl rfl global?_labelFirst).2 "tell armed").1

end Session

end LineScript
