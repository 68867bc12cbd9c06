import LineScript.Run

/-!
# Sessions

A session is a host's handle on scripts. It holds globals, which every run starts with, the policy
that runs are started under, the dispatcher's state, and at most one current run. Starting another
script replaces the current run; a script that cannot be loaded or read replaces nothing.

Scripts are found by an identifier. How, and how commands are carried out, is fixed by the `Host`.
-/

namespace LineScript

/-- What a session needs from outside. -/
structure Host (δ ε : Type) where
  /-- The source of the script with this identifier, or the reason why there is none. -/
  load : String → Except String String
  /-- Carries out commands. -/
  dispatch : Dispatcher δ ε

/-- Globals, policy, current run and dispatcher state. -/
structure Session (δ : Type) where
  /-- The dispatcher's state. -/
  state : δ
  /-- The variables that every run starts with. -/
  globals : Table Value := ∅
  /-- What runs do after a failure. -/
  policy : Policy := .proceed
  /-- The run that was started last, until it is finished or cleared. -/
  current : Option Run := none

/-- The result of an operation on a session, the session afterwards, and what happened. -/
structure Reaction (δ ε α : Type) where
  /-- The result. -/
  result : Except Error α
  /-- The session afterwards. -/
  session : Session δ
  /-- What happened. -/
  events : List (Event ε) := []

variable {δ ε α : Type}

/-- Goes on with the session after an operation, unless that failed. -/
def Reaction.andThen (first : Reaction δ ε Unit) (next : Session δ → Reaction δ ε α) :
    Reaction δ ε α :=
  match first.result with
  | .error e => { result := .error e, session := first.session, events := first.events }
  | .ok _ =>
    let second := next first.session
    { second with events := first.events ++ second.events }

namespace Session

/-- Defines a variable for every run started from now on. -/
def setGlobal (s : Session δ) (name : String) (v : Value) : Session δ :=
  { s with globals := s.globals.insert name v }

/-- The value of a global. -/
def global? (s : Session δ) (name : String) : Option Value :=
  s.globals.find? name

/-- Sets the policy for every run started from now on. -/
def setPolicy (s : Session δ) (policy : Policy) : Session δ :=
  { s with policy }

/-- There is a run with something left to do. -/
def isRunning (s : Session δ) : Bool :=
  s.current.any fun run => !run.isFinished

/-- Makes a source the current run. -/
def startSource (s : Session δ) (source : String) : Reaction δ ε Unit :=
  match Run.parse source { current := s.globals } s.policy with
  | .ok run => { result := .ok (), session := { s with current := some run } }
  | .error e => { result := .error e, session := s }

/-- The source of a script. -/
def load (h : Host δ ε) (identifier : String) : Except Error String :=
  (h.load identifier).mapError (.notLoaded identifier)

/-- Makes a script the current run. -/
def start (h : Host δ ε) (s : Session δ) (identifier : String) : Reaction δ ε Unit :=
  match load h identifier with
  | .error e => { result := .error e, session := s }
  | .ok source =>
    let loaded : Event ε := .loaded identifier source.utf8ByteSize
    let reaction : Reaction δ ε Unit := s.startSource source
    match reaction.result with
    | .ok _ => { reaction with events := [loaded, .started identifier] }
    | .error _ => { reaction with events := [loaded] }

/-- Carries out one statement of the current run. -/
def step (h : Host δ ε) (s : Session δ) : Reaction δ ε Progress :=
  match s.current with
  | none => { result := .error .noScript, session := s }
  | some run =>
    let advance := run.step h.dispatch s.state
    { result := .ok advance.progress
      session := { s with current := some advance.run, state := advance.state }
      events := advance.events }

/-- Carries the current run to its end and gives its report. There is no current run afterwards. -/
def finish (h : Host δ ε) (s : Session δ) : Reaction δ ε Report :=
  match s.current with
  | none => { result := .error .noScript, session := s }
  | some run =>
    let advance := run.finish h.dispatch s.state
    { result := .ok advance.run.report
      session := { s with current := none, state := advance.state }
      events := advance.events ++ [.finished advance.run.report] }

/-- Runs a script from start to end. -/
def run (h : Host δ ε) (s : Session δ) (identifier : String) : Reaction δ ε Report :=
  (s.start h identifier).andThen fun s => s.finish h

/-- Runs a source from start to end. -/
def runSource (h : Host δ ε) (s : Session δ) (source : String) : Reaction δ ε Report :=
  (s.startSource source).andThen fun s => s.finish h

/-- Drops the current run and gives it back. -/
def clear (s : Session δ) : Option Run × Session δ :=
  (s.current, { s with current := none })

end Session

end LineScript
