import LineScript.Session

/-!
# Running tick by tick

A host that lets a script advance one statement per tick steps its session until there is nothing
left to do, and notes every tick. Finishing the session afterwards gives the report.
-/

namespace LineScript.Session

variable {δ ε : Type}

/-- The number of statements that the current run may still carry out. -/
def pending (s : Session δ) : Nat :=
  s.current.elim 0 Run.pending

/-- A step that does something uses up a statement of the current run. -/
theorem pending_step_lt (h : Host δ ε) (s : Session δ) {p : Progress}
    (hr : (s.step h).result = .ok p) (hp : p ≠ .finished) :
    (s.step h).session.pending < s.pending := by
  unfold step at hr ⊢
  cases hc : s.current with
  | none => simp [hc] at hr
  | some run =>
    simp only [hc, Except.ok.injEq] at hr
    simpa [pending, hc] using Run.pending_step_lt h.dispatch run s.state (hr ▸ hp)

/-- Steps until there is nothing left to do. After the `k`-th step that does something, counted on
from `count`, the event `tick k` follows the step's own events. -/
def tickThrough (h : Host δ ε) (tick : Nat → Event ε) (count : Nat) (s : Session δ) :
    Reaction δ ε Unit :=
  let first := s.step h
  match hr : first.result with
  | .error e => { result := .error e, session := first.session, events := first.events }
  | .ok progress =>
    if hp : progress = .finished then
      { result := .ok (), session := first.session, events := first.events }
    else
      have := pending_step_lt h s hr hp
      let rest := tickThrough h tick (count + 1) first.session
      { rest with events := first.events ++ tick (count + 1) :: rest.events }
termination_by s.pending

end LineScript.Session
