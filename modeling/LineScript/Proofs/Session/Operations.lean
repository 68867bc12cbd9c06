import LineScript.Session
import LineScript.Proofs.Script.Nesting

/-!
# Sessions operation by operation

A host works with a session by one operation after the other, in whatever order, and some of them
fail: a script cannot be loaded or read, or there is no run to step. This module writes down what a
host can ask and what it is answered, as data, so that whole sessions can be reasoned about.

* `Operation`, `Answer`, `perform`: what a host asks, what it is answered, and what the session is
  afterwards;
* `begun`, `ended`: the session with a script at its beginning, and a script carried to its end;
* `OnScript`: the reaction to an operation that needs a script. The four operations that start or
  run one are put in these terms (`onScript_start` and the lemmas after it), so the cases of loading
  and reading are distinguished there and nowhere else;
* `log`: what was asked and answered from a session on;
* `refused_of_error`: **an operation that fails does nothing else**. Whatever it needs and may not
  get is looked for before the session is touched;
* `refusals_leave_no_trace`: a session in which the operations that failed were never asked is the
  same session.
-/

namespace LineScript

variable {δ ε α β : Type}

/-- The script could not be loaded, or has a line that cannot be read. -/
def Error.concernsScript : Error → Bool
  | .notLoaded _ _ => true
  | .badLine _ _ => true
  | _ => false

/-- The reaction with its result read in another way. -/
def Reaction.map (f : α → β) (r : Reaction δ ε α) : Reaction δ ε β :=
  { result := r.result.map f, session := r.session, events := r.events }

namespace Session

/-! ### Scripts -/

/-- The statements of the script with this identifier. -/
def script (h : Host δ ε) (identifier : String) : Except Error (List Statement) :=
  load h identifier >>= Script.parse

/-- The session at the beginning of a script. -/
def begun (s : Session δ) (statements : List Statement) : Session δ :=
  { s with current := some (Run.ofStatements statements { current := s.globals } s.policy) }

/-- A script carried to its end in the session. -/
def ended (h : Host δ ε) (s : Session δ) (statements : List Statement) : Advance δ ε :=
  (Run.ofStatements statements { current := s.globals } s.policy).finish h.dispatch s.state

/-- What is wrong with a source is a line that cannot be read. -/
theorem concernsScript_of_parse {source : String} {e : Error} (h : Script.parse source = .error e) :
    e.concernsScript := by
  obtain ⟨line, fault, rfl⟩ := Script.exists_badLine_of_parse h
  rfl

/-- A script that is not to be had could not be loaded, or could not be read. -/
theorem concernsScript_of_script {h : Host δ ε} {identifier : String} {e : Error}
    (h_script : script h identifier = .error e) : e.concernsScript := by
  unfold script load at h_script
  cases h_load : h.load identifier with
  | error reason =>
    rw [h_load] at h_script
    cases h_script
    rfl
  | ok source =>
    rw [h_load] at h_script
    exact concernsScript_of_parse h_script

/-- The reaction to an operation that needs a script. Without one the reason is given and the
session is what it was; with one there is an answer, and another session. -/
structure OnScript (s : Session δ) (script : Except Error (List Statement))
    (answer : List Statement → α) (after : List Statement → Session δ)
    (r : Reaction δ ε α) : Prop where
  /-- The answer, or the reason why there is no script. -/
  result_eq : r.result = script.map answer
  /-- The other session, or the one that was asked. -/
  session_eq : r.session = script.toOption.elim s after

namespace OnScript

variable {s : Session δ} {script : Except Error (List Statement)} {answer : List Statement → α}
  {after : List Statement → Session δ} {r : Reaction δ ε α}

/-- Reading the result in another way is reading the answer so. -/
theorem map (h : OnScript s script answer after r) (f : α → β) :
    OnScript s script (fun statements => f (answer statements)) after (r.map f) := by
  obtain ⟨h_result, h_session⟩ := h
  refine ⟨?_, h_session⟩
  unfold Reaction.map
  rw [h_result]
  cases script with
  | ok statements => rfl
  | error e => rfl

/-- An operation that failed had no script, and did nothing. -/
theorem of_error (h : OnScript s script answer after r) {e : Error}
    (h_error : r.result = .error e) :
    script = .error e ∧ r.session = s := by
  obtain ⟨h_result, h_session⟩ := h
  rw [h_result] at h_error
  cases script with
  | ok statements => cases h_error
  | error e' =>
    cases h_error
    exact ⟨rfl, h_session⟩

/-- An operation that succeeded had a script. -/
theorem of_ok (h : OnScript s script answer after r) {a : α} (h_ok : r.result = .ok a) :
    ∃ statements, script = .ok statements ∧ r.session = after statements := by
  obtain ⟨h_result, h_session⟩ := h
  rw [h_result] at h_ok
  cases script with
  | ok statements => exact ⟨statements, rfl, h_session⟩
  | error e => cases h_ok

end OnScript

/-- Starting a source needs the script that the source is read as. -/
theorem onScript_startSource (s : Session δ) (source : String) :
    OnScript s (Script.parse source) (fun _ => ()) s.begun
      (s.startSource source : Reaction δ ε Unit) := by
  unfold startSource Run.parse
  cases Script.parse source with
  | ok statements => exact ⟨rfl, rfl⟩
  | error e => exact ⟨rfl, rfl⟩

/-- Starting a script needs it to be loaded and read. -/
theorem onScript_start (h : Host δ ε) (s : Session δ) (identifier : String) :
    OnScript s (script h identifier) (fun _ => ()) s.begun (s.start h identifier) := by
  unfold start script
  cases load h identifier with
  | error e => exact ⟨rfl, rfl⟩
  | ok source =>
    obtain ⟨h_result, h_session⟩ := onScript_startSource (ε := ε) s source
    dsimp only
    -- only the events tell whether the source could be read
    split
    · exact ⟨h_result, h_session⟩
    · exact ⟨h_result, h_session⟩

/-- Finishing what was begun. If nothing was begun there is nothing to finish. -/
theorem OnScript.andThen_finish {s : Session δ} {script : Except Error (List Statement)}
    {first : Reaction δ ε Unit} (h_first : OnScript s script (fun _ => ()) s.begun first)
    (h : Host δ ε) :
    OnScript s script (fun statements => (s.ended h statements).run.report)
      (fun statements => { s with current := none, state := (s.ended h statements).state })
      (first.andThen fun s => s.finish h) := by
  obtain ⟨h_result, h_session⟩ := h_first
  unfold Reaction.andThen
  rw [h_result, h_session]
  cases script with
  | ok statements => exact ⟨rfl, rfl⟩
  | error e => exact ⟨rfl, rfl⟩

/-- Running a script needs what starting it needs. -/
theorem onScript_run (h : Host δ ε) (s : Session δ) (identifier : String) :
    OnScript s (script h identifier) (fun statements => (s.ended h statements).run.report)
      (fun statements => { s with current := none, state := (s.ended h statements).state })
      (s.run h identifier) :=
  (onScript_start h s identifier).andThen_finish h

/-- Running a source needs what starting it needs. -/
theorem onScript_runSource (h : Host δ ε) (s : Session δ) (source : String) :
    OnScript s (Script.parse source) (fun statements => (s.ended h statements).run.report)
      (fun statements => { s with current := none, state := (s.ended h statements).state })
      (s.runSource h source) :=
  (onScript_startSource s source).andThen_finish h

/-! ### Operations -/

/-- What a host asks of a session. -/
inductive Operation (δ : Type) where
  /-- Defines a variable for the runs to come. -/
  | setGlobal (name : String) (v : Value)
  /-- Sets the policy for the runs to come. -/
  | setPolicy (policy : Policy)
  /-- Starts the script with this identifier. -/
  | start (identifier : String)
  /-- Starts this source. -/
  | startSource (source : String)
  /-- Has the current run take a step. -/
  | step
  /-- Carries the current run to its end. -/
  | finish
  /-- Runs the script with this identifier. -/
  | run (identifier : String)
  /-- Runs this source. -/
  | runSource (source : String)
  /-- Drops the current run. -/
  | clear
  /-- Takes actions out of the dispatcher, in whatever way the dispatcher has for it. -/
  | drain (take : δ → List Action × δ)

/-- What a session answers when it does what it is asked. -/
inductive Answer where
  /-- It is done. -/
  | done
  /-- What the step did. -/
  | progress (progress : Progress)
  /-- The report of the run that came to its end. -/
  | report (report : Report)
  /-- The run that was dropped. -/
  | dropped (run : Option Run)
  /-- The actions that were taken. -/
  | actions (batch : List Action)

/-- One operation. -/
def perform (h : Host δ ε) (s : Session δ) : Operation δ → Reaction δ ε Answer
  | .setGlobal name v => { result := .ok .done, session := s.setGlobal name v }
  | .setPolicy policy => { result := .ok .done, session := s.setPolicy policy }
  | .start identifier => (s.start h identifier).map fun _ => .done
  | .startSource source => (s.startSource source).map fun _ => .done
  | .step => (s.step h).map .progress
  | .finish => (s.finish h).map .report
  | .run identifier => (s.run h identifier).map .report
  | .runSource source => (s.runSource h source).map .report
  | .clear => { result := .ok (.dropped s.clear.1), session := s.clear.2 }
  | .drain take =>
    { result := .ok (.actions (take s.state).1), session := { s with state := (take s.state).2 } }

/-- The session after some operations. -/
def performAll (h : Host δ ε) (s : Session δ) (operations : List (Operation δ)) : Session δ :=
  operations.foldl (fun s operation => (s.perform h operation).session) s

/-- An operation and what came of it: the result, the session afterwards, and the events. -/
structure Exchange (δ ε : Type) where
  /-- What was asked. -/
  operation : Operation δ
  /-- What came of it. -/
  reaction : Reaction δ ε Answer

/-- What was asked and what came of it, from a session on. -/
def log (h : Host δ ε) : Session δ → List (Operation δ) → List (Exchange δ ε)
  | _, [] => []
  | s, operation :: rest =>
    ⟨operation, s.perform h operation⟩ :: log h (s.perform h operation).session rest

/-! ### Refusals -/

/-- The operation can fail for this reason: there is no such script, or none that can be read, or
there is no current run. -/
def Operation.refusedWith : Operation δ → Error → Bool
  | .start _, e | .startSource _, e | .run _, e | .runSource _, e => e.concernsScript
  | .step, e | .finish, e => e = .noScript
  | _, _ => false

/-- What was asked was refused. -/
def Exchange.isRefused (x : Exchange δ ε) : Bool :=
  match x.reaction.result with
  | .ok _ => false
  | .error e => x.operation.refusedWith e

/-- The operations that were not refused. -/
def kept (h : Host δ ε) (s : Session δ) (operations : List (Operation δ)) : List (Operation δ) :=
  ((log h s operations).filter (!·.isRefused)).map Exchange.operation

/-- **An operation that fails does nothing else.** It is one of those that can fail, for one of the
reasons that it can fail for, and the session is what it was. -/
theorem refused_of_error {h : Host δ ε} {s : Session δ} {operation : Operation δ} {e : Error}
    (h_error : (s.perform h operation).result = .error e) :
    operation.refusedWith e = true ∧ (s.perform h operation).session = s := by
  cases operation with
  | setGlobal name v => cases h_error
  | setPolicy policy => cases h_error
  | start identifier =>
    -- the script is looked for first, and without it the session is not touched
    obtain ⟨h_script, h_session⟩ := ((onScript_start h s identifier).map _).of_error h_error
    exact ⟨concernsScript_of_script h_script, h_session⟩
  | startSource source =>
    obtain ⟨h_script, h_session⟩ :=
      ((onScript_startSource (ε := ε) s source).map _).of_error h_error
    exact ⟨concernsScript_of_parse h_script, h_session⟩
  | step =>
    -- a step asks for the current run first, and fails only without one
    change ((s.step h).map Answer.progress).result = .error e at h_error
    change _ ∧ (s.step h).session = s
    unfold step at h_error ⊢
    cases h_current : s.current with
    | none =>
      rw [h_current] at h_error
      cases h_error
      exact ⟨rfl, rfl⟩
    | some run =>
      rw [h_current] at h_error
      cases h_error
  | finish =>
    change ((s.finish h).map Answer.report).result = .error e at h_error
    change _ ∧ (s.finish h).session = s
    unfold finish at h_error ⊢
    cases h_current : s.current with
    | none =>
      rw [h_current] at h_error
      cases h_error
      exact ⟨rfl, rfl⟩
    | some run =>
      rw [h_current] at h_error
      cases h_error
  | run identifier =>
    obtain ⟨h_script, h_session⟩ := ((onScript_run h s identifier).map _).of_error h_error
    exact ⟨concernsScript_of_script h_script, h_session⟩
  | runSource source =>
    obtain ⟨h_script, h_session⟩ := ((onScript_runSource h s source).map _).of_error h_error
    exact ⟨concernsScript_of_parse h_script, h_session⟩
  | clear => cases h_error
  | drain take => cases h_error

/-- What was asked was refused exactly if it failed, and then the session is what it was. -/
theorem perform_cases (h : Host δ ε) (s : Session δ) (operation : Operation δ) :
    (∃ answer, (s.perform h operation).result = .ok answer ∧
      Exchange.isRefused ⟨operation, s.perform h operation⟩ = false) ∨
    (Exchange.isRefused ⟨operation, s.perform h operation⟩ = true ∧
      (s.perform h operation).session = s) := by
  unfold Exchange.isRefused
  dsimp only
  cases h_result : (s.perform h operation).result with
  | ok answer => exact .inl ⟨answer, rfl, rfl⟩
  | error e => exact .inr (refused_of_error h_result)

section Refusals

variable {h : Host δ ε} {s : Session δ} {operation : Operation δ} (rest : List (Operation δ))

/-- An operation that is not refused has its entry, and the rest is asked of the session after it.
-/
theorem filter_log_cons_of_kept
    (h_kept : Exchange.isRefused ⟨operation, s.perform h operation⟩ = false) :
    (log h s (operation :: rest)).filter (!·.isRefused) =
      ⟨operation, s.perform h operation⟩ ::
        (log h (s.perform h operation).session rest).filter (!·.isRefused) :=
  List.filter_cons_of_pos (by rw [h_kept]; rfl)

/-- An operation that is refused leaves no entry, and the rest is asked of the session as it was. -/
theorem filter_log_cons_of_refused
    (h_refused : Exchange.isRefused ⟨operation, s.perform h operation⟩ = true)
    (h_same : (s.perform h operation).session = s) :
    (log h s (operation :: rest)).filter (!·.isRefused) =
      (log h s rest).filter (!·.isRefused) := by
  rw [log, List.filter_cons_of_neg (by rw [h_refused]; decide), h_same]

end Refusals

/-- **Operations that fail are invisible afterwards.** Take any session, and leave out of what the
host asks every start or run of a script that could not be loaded or read, and every step and
finish for which there was no run. What came of all other operations is the same, results, events
and sessions, in particular of the current run; the session at the end is the same; and no other
operation failed. -/
theorem refusals_leave_no_trace (h : Host δ ε) (s : Session δ) (operations : List (Operation δ)) :
    log h s (kept h s operations) = (log h s operations).filter (!·.isRefused) ∧
      performAll h s (kept h s operations) = performAll h s operations ∧
      (log h s (kept h s operations)).all (·.reaction.result.isOk) = true := by
  induction operations generalizing s with
  | nil => exact ⟨rfl, rfl, rfl⟩
  | cons operation rest ih =>
    obtain ⟨h_log, h_session, h_ok⟩ := ih (s.perform h operation).session
    obtain ⟨answer, h_result, h_kept⟩ | ⟨h_refused, h_same⟩ := perform_cases h s operation
    · have h_operations : kept h s (operation :: rest) =
          operation :: kept h (s.perform h operation).session rest := by
        unfold kept
        rw [filter_log_cons_of_kept rest h_kept, List.map_cons]
      rw [h_operations, filter_log_cons_of_kept rest h_kept, ← h_log]
      -- it was not refused, so it has an answer
      refine ⟨rfl, h_session, ?_⟩
      rw [log, List.all_cons, h_ok, h_result]
      rfl
    · -- the session is what it was, so the rest is performed as if nothing had been asked
      have h_operations : kept h s (operation :: rest) = kept h s rest := by
        unfold kept
        rw [filter_log_cons_of_refused rest h_refused h_same]
      have h_end : performAll h s (operation :: rest) = performAll h s rest :=
        congrArg (performAll h · rest) h_same
      rw [h_same] at h_log h_session h_ok
      rw [h_operations, filter_log_cons_of_refused rest h_refused h_same, h_end]
      exact ⟨h_log, h_session, h_ok⟩

end Session

end LineScript
