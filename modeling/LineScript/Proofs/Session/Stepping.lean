import LineScript.CommandLine.Ticks
import LineScript.Proofs.Run.Trace

/-!
# Sessions that are stepped before they are finished

A host may step the current run of a session as often as it likes and finish the session then. The
steps do what finishing would have done, so the report and the state of the dispatcher do not depend
on when the host stops stepping.

* `finish_stepped`: **finishing after any number of steps is finishing at once**. A session without
  a current run is no exception: neither a step nor finishing changes it;
* `finish_of_current`, `tickThrough_of_current`: finishing and ticking in terms of the attempts of
  the current run. What happens is the same in both, except for the ticks in between;
* `tickThrough_andThen_finish`: ticking through a session and finishing it then.
-/

namespace LineScript.Session

variable {δ ε : Type}

/-- The session after so many steps. -/
def stepped (h : Host δ ε) : Nat → Session δ → Session δ
  | 0, s => s
  | k + 1, s => stepped h k (s.step h).session

/-- Finishing after one step is finishing at once. -/
theorem finish_step (h : Host δ ε) (s : Session δ) :
    ((s.step h).session.finish h).result = (s.finish h).result ∧
      ((s.step h).session.finish h).session = (s.finish h).session := by
  cases h_current : s.current with
  | none =>
    have h_step : (s.step h).session = s := by rw [step, h_current]
    rw [h_step]
    exact ⟨rfl, rfl⟩
  | some run =>
    -- for the run itself this is known, and the session only carries it along
    obtain ⟨h_run, h_state⟩ := Run.finish_step h.dispatch run s.state
    rw [step, h_current, finish, finish, h_current]
    dsimp only
    rw [h_run, h_state]
    exact ⟨rfl, rfl⟩

/-- **Finishing after any number of steps is finishing at once.** -/
theorem finish_stepped (h : Host δ ε) (k : Nat) (s : Session δ) :
    ((s.stepped h k).finish h).result = (s.finish h).result ∧
      ((s.stepped h k).finish h).session = (s.finish h).session := by
  induction k generalizing s with
  | zero => exact ⟨rfl, rfl⟩
  | succ k ih =>
    obtain ⟨h_result, h_session⟩ := ih (s.step h).session
    obtain ⟨h_result', h_session'⟩ := finish_step h s
    exact ⟨h_result.trans h_result', h_session.trans h_session'⟩

/-- A session that has started a script is at the beginning of a run. -/
theorem exists_current_of_start {h : Host δ ε} {s : Session δ} {identifier : String}
    (h_result : (s.start h identifier).result = .ok ()) :
    ∃ statements scope policy,
      (s.start h identifier).session.current = some (Run.ofStatements statements scope policy) := by
  rw [start] at h_result ⊢
  generalize load h identifier = source at h_result ⊢
  cases source with
  | error e => cases h_result
  | ok source =>
    dsimp only [startSource, Run.parse] at h_result ⊢
    generalize Script.parse source = statements at h_result ⊢
    cases statements with
    | error e => cases h_result
    | ok statements => exact ⟨statements, _, _, rfl⟩

/-! ### Ticks -/

section Current

variable (h : Host δ ε) (s : Session δ) {run : Run} (h_current : s.current = some run)

include h_current

/-- A step of the session is a step of its current run. -/
theorem step_of_current :
    s.step h =
      { result := .ok (run.step h.dispatch s.state).progress
        session :=
          { s with
            current := some (run.step h.dispatch s.state).run
            state := (run.step h.dispatch s.state).state }
        events := (run.step h.dispatch s.state).events } := by
  rw [step, h_current]

/-- Finishing gives the report, and all that happens happens in the attempts of the current run. -/
theorem finish_of_current :
    s.finish h =
      { result := .ok (run.finish h.dispatch s.state).run.report
        session := { s with current := none, state := (run.finish h.dispatch s.state).state }
        events := (run.attempts h.dispatch s.state).flatMap Advance.events ++
          [.finished (run.finish h.dispatch s.state).run.report] } := by
  rw [finish, h_current, ← (Run.finish_eq_attempts h.dispatch run s.state).1]

omit h_current in
/-- A step that finds nothing to do ends the ticking, and no tick follows it. -/
theorem tickThrough_of_finished (tick : Nat → Event ε) (count : Nat)
    (h_finished : (s.step h).result = .ok .finished) :
    s.tickThrough h tick count =
      { result := .ok (), session := (s.step h).session, events := (s.step h).events } := by
  rw [tickThrough]
  split
  · next e h_error => simp [h_finished] at h_error
  · next progress h_ok =>
    rw [h_finished] at h_ok
    cases h_ok
    rfl

omit h_current in
/-- A step that does something is followed by a tick, and then by the rest. -/
theorem tickThrough_of_not_finished (tick : Nat → Event ε) (count : Nat) {progress : Progress}
    (h_result : (s.step h).result = .ok progress) (h_progress : progress ≠ .finished) :
    s.tickThrough h tick count =
      { (s.step h).session.tickThrough h tick (count + 1) with
        events := (s.step h).events ++ tick (count + 1) ::
          ((s.step h).session.tickThrough h tick (count + 1)).events } := by
  rw [tickThrough]
  split
  · next e h_error => simp [h_result] at h_error
  · next other h_ok =>
    rw [h_result] at h_ok
    cases h_ok
    rw [dif_neg h_progress]

/-- **Ticking through a session puts one tick behind each attempt.** The session is left with a run
that has nothing more to do. -/
theorem tickThrough_of_current (tick : Nat → Event ε) (count : Nat) :
    s.tickThrough h tick count =
      { result := .ok ()
        session :=
          { s with
            current := some (run.finish h.dispatch s.state).run
            state := (run.finish h.dispatch s.state).state }
        events := ((run.attempts h.dispatch s.state).zipIdx (count + 1)).flatMap
          fun (attempt, k) => attempt.events ++ [tick k] } := by
  -- the session changes with every step, so the induction is on the attempts of its run
  generalize h_state : s.state = state
  fun_induction Run.attempts h.dispatch run state generalizing s count with
  | case1 run state h_finished =>
    subst h_state
    have h_step := s.step_of_current h h_current
    -- the step that finds the end says nothing
    have h_events : (run.step h.dispatch s.state).events = [] :=
      congrArg Advance.events (Run.step_of_finished h_finished).1
    rw [s.tickThrough_of_finished h tick count (by rw [h_step, h_finished]), h_step,
      Run.finish_of_finished h_finished, h_events]
    rfl
  | case2 run state h_going _ ih =>
    subst h_state
    have h_step := s.step_of_current h h_current
    -- after the step the session has a run again, the one that `ih` is about
    have h_session : (s.step h).session.current = some (run.step h.dispatch s.state).run := by
      rw [h_step]
    have h_rest := ih (s.step h).session h_session (count + 1) (by rw [h_step])
    rw [s.tickThrough_of_not_finished h tick count (by rw [h_step]) h_going, h_rest,
      Run.finish_of_not_finished h_going, h_step]
    simp

/-- Nothing is left to be done after the ticks, so finishing only gives the report. -/
theorem tickThrough_andThen_finish (tick : Nat → Event ε) :
    (s.tickThrough h tick 0).andThen (fun s => s.finish h) =
      { result := .ok (run.finish h.dispatch s.state).run.report
        session := { s with current := none, state := (run.finish h.dispatch s.state).state }
        events := (((run.attempts h.dispatch s.state).zipIdx 1).flatMap
          fun (attempt, k) => attempt.events ++ [tick k]) ++
            [.finished (run.finish h.dispatch s.state).run.report] } := by
  -- the run that the ticks leave is at its end, and finishing it is one step without effect
  have h_again := (Run.finish_eq_attempts h.dispatch run s.state).2.2
    (run.finish h.dispatch s.state).state
  have h_finish : (run.finish h.dispatch s.state).run.finish h.dispatch
      (run.finish h.dispatch s.state).state = _ :=
    (Run.finish_of_finished (by rw [h_again])).trans h_again
  rw [s.tickThrough_of_current h h_current, Reaction.andThen]
  dsimp only
  rw [finish]
  dsimp only
  rw [h_finish]
  simp

end Current

end LineScript.Session
