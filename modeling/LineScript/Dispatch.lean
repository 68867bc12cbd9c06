import LineScript.Event

/-!
# Dispatchers

Commands are carried out by the host. A dispatcher takes the text of a command, the scope it stands
in, and a state of its own; it says whether the command succeeded and what happened, and gives the
new state. It can read the scope and cannot change it, since it returns none.
-/

namespace LineScript

/-- How a command went. -/
structure Response (ε : Type) where
  /-- Whether it succeeded. -/
  result : Except Error Unit
  /-- What happened. -/
  events : List (Event ε) := []

/-- Carries out commands, with a state of type `δ`. -/
abbrev Dispatcher (δ ε : Type) := String → Scope → δ → Response ε × δ

end LineScript
