import LineScript.Dispatch
import LineScript.Table

/-!
# Handling commands by name

A command table has a handler for each of some command names. A command without a handler goes to
the fallback, and is unknown if there is none. Whether it has one is only asked once all its
arguments have values.
-/

namespace LineScript

/-- Carries out one command, given its arguments. A handler keeps nothing from one command to the
next: a table whose handlers have a memory of their own is a `Dispatcher` with that memory as its
state, and what is proved of every dispatcher covers it. -/
abbrev Handler (ε : Type) := List Value → Response ε

/-- Handlers by command name, and a fallback for all other names. -/
structure CommandTable (ε : Type) where
  /-- The handlers. -/
  handlers : Table (Handler ε) := ∅
  /-- What is done with a command that has no handler. -/
  fallback : Option (Action → Response ε) := none

namespace CommandTable

variable {ε : Type}

/-- Gives a command a handler, in place of the one it had. -/
def register (table : CommandTable ε) (name : String) (handler : Handler ε) : CommandTable ε :=
  { table with handlers := table.handlers.insert name handler }

/-- Sets the fallback. -/
def withFallback (table : CommandTable ε) (fallback : Action → Response ε) : CommandTable ε :=
  { table with fallback := some fallback }

/-- The command has a handler. -/
def contains (table : CommandTable ε) (name : String) : Bool :=
  table.handlers.contains name

/-- Prints the arguments on one line, with a space between them. -/
def print : Handler ε := fun arguments =>
  { result := .ok (), events := [.printed (" ".intercalate (arguments.map Value.display))] }

/-- The table that knows the command `print` alone. -/
def builtins : CommandTable ε :=
  ({} : CommandTable ε).register "print" print

/-- Carries out an action. -/
def perform (table : CommandTable ε) (action : Action) : Response ε :=
  match table.handlers.find? action.name with
  | some handler =>
    let response := handler action.arguments
    { response with events := .handling action :: response.events }
  | none =>
    match table.fallback with
    | some fallback => fallback action
    | none => { result := .error (.unknownCommand action.name) }

/-- Carries out a command. The table itself is the state, and no command changes it, because neither
a handler nor the fallback has a state here. If they have one, the dispatcher is another, with a
state that holds theirs. -/
def dispatch : Dispatcher (CommandTable ε) ε := fun statement scope table =>
  let reading : Event ε := .reading scope statement
  match Action.parse statement scope with
  | .ok action =>
    let response := table.perform action
    ({ response with events := reading :: response.events }, table)
  | .error e => ({ result := .error e, events := [reading] }, table)

end CommandTable

end LineScript
