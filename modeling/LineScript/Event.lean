import LineScript.Action
import LineScript.Report

/-!
# Events

Whatever a host may want to hear about while scripts run is an event. Operations return the events
they caused, in order, beside their results; nothing in the library depends on what becomes of them.
Dispatchers may add events of their own, of any type `ε`.

Finding a value may take very many steps, and few hosts want to hear of them. So an event says only
what was resolved and in which scope; a host that wants the steps gets them from that.
-/

namespace LineScript

/-- Something that happened. -/
inductive Event (ε : Type) where
  /-- The source of a script was loaded, of so many bytes. -/
  | loaded (identifier : String) (bytes : Nat)
  /-- A script became the current run. -/
  | started (identifier : String)
  /-- The value of an expression is about to be looked for. -/
  | resolving (scope : Scope) (expression : String)
  /-- The values of a command's arguments are about to be looked for. -/
  | reading (scope : Scope) (statement : String)
  /-- A variable got a value. -/
  | assigned (line : Nat) (name : String) (value : Value)
  /-- A command is about to go to the dispatcher. -/
  | dispatching (line : Nat) (text : String)
  /-- A command is about to go to its handler. -/
  | handling (action : Action)
  /-- A line was printed. -/
  | printed (line : String)
  /-- The condition of an `if` was decided. -/
  | branched (line : Nat) (taken : Bool)
  /-- A statement failed. -/
  | failed (failure : Failure)
  /-- A run came to its end. -/
  | finished (report : Report)
  /-- An event of the host's own. -/
  | custom (event : ε)

/-- The steps of resolution that an event stands for. -/
def Event.steps {ε : Type} : Event ε → List Resolve.Step
  | resolving scope expression => scope.steps expression
  | reading scope statement => Action.steps statement scope
  | _ => []

end LineScript
