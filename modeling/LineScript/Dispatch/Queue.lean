import LineScript.Dispatch

/-!
# Queueing actions

The simplest dispatcher carries nothing out: it turns each command into an action and keeps it until
the host takes it. A command that cannot be turned into an action leaves the queue as it was.
-/

namespace LineScript

/-- Actions waiting for the host, the earliest first. -/
structure ActionQueue where
  /-- The actions not taken yet. -/
  pending : List Action := []
deriving Repr, DecidableEq

namespace ActionQueue

variable {ε : Type}

/-- Adds the command's action at the end of the queue. -/
def dispatch : Dispatcher ActionQueue ε := fun statement scope queue =>
  let events := [.reading scope statement]
  match Action.parse statement scope with
  | .ok action => ({ result := .ok (), events }, { pending := queue.pending ++ [action] })
  | .error e => ({ result := .error e, events }, queue)

/-- Takes all waiting actions, and leaves none. -/
def take (queue : ActionQueue) : List Action × ActionQueue :=
  (queue.pending, {})

end ActionQueue

end LineScript
