import LineScript.CommandLine.Arguments
import LineScript.CommandLine.Log.Filter
import LineScript.CommandLine.Ticks
import LineScript.CommandLine.World
import LineScript.Dispatch.CommandTable

/-!
# The command

The command runs one script. The records of a properties file, if one is given, become globals.
The command `print` goes to the log; commands without a handler are shown on standard output, for
the operator to see. All statements that failed are listed at the end.

The exit code is 0 if every statement succeeded, 1 if one failed or the script could not be run, and
2 if the arguments make no sense.

What the command does is a function of the world it finds (`CommandLine.run`); writing the output is
left to the caller.
-/

namespace LineScript.CommandLine

/-- A line of output. -/
inductive Output where
  /-- On standard output. -/
  | out (line : String)
  /-- On standard error. -/
  | err (line : String)
deriving Repr, DecidableEq

/-- How a command ended and what it wrote, in order. -/
structure Outcome where
  /-- The exit code. -/
  code : Nat
  /-- The lines written. -/
  output : List Output
deriving Repr, DecidableEq

/-- How the command is used. -/
def usage : String :=
  "Usage: " ++ commandName ++ " [-dxs] [-L<dir>] [-p<file>] <script>"

/-- A line from the command itself. -/
def complain (message : String) : Output :=
  .err (commandName ++ ": " ++ message)

/-- The filter for log lines: everything about the command if asked for, else what the environment
says, else what is worth knowing. -/
def logFilter (w : World) (debug : Bool) : Log.Filter :=
  if debug then .only Log.commandTarget .debug
  else ((w.environment logVariable).bind Log.Filter.parse?).getD (.only Log.commandTarget .info)

/-- Writes a log line, if the filter lets it through. -/
def log (filter : Log.Filter) (entry : Log.Entry) : List Output :=
  if filter.allows entry then [.err entry.render] else []

/-- Writes the steps that an event stands for. They are only worked out if they may be heard. -/
def writeSteps (filter : Log.Filter) (event : Event String) : List Output :=
  if filter.reaches .trace then event.steps.flatMap fun step => log filter (.ofStep step) else []

/-- Writes an event: a line to show goes to standard output, all else to the log. -/
def write (filter : Log.Filter) : Event String → List Output
  | .custom line => [.out line]
  | event =>
    match Log.Entry.ofEvent? event with
    | some entry => log filter entry
    | none => writeSteps filter event

/-- The commands: `print`, and all others are shown. -/
def commands : CommandTable String :=
  CommandTable.builtins.withFallback fun action =>
    { result := .ok (), events := [.custom action.display] }

/-- Scripts are files under a root directory. -/
def host (w : World) (root : String) : Host (CommandTable String) String where
  load identifier := w.readText (Path.join root identifier)
  dispatch := CommandTable.dispatch

/-- A session before the script starts. -/
def openSession (a : Arguments) : Session (CommandTable String) :=
  { state := commands, policy := if a.abortOnError then .abort else .proceed }

/-- Makes the records of a properties text globals. -/
def withGlobals (s : Session (CommandTable String)) (p : Properties) :
    Session (CommandTable String) :=
  p.entries.foldl (fun s (key, value) => s.setGlobal key (Value.ofSetting value)) s

/-- Reads the properties file that is asked for: the session with its records as globals, and the
log lines for its bad lines. -/
def loadProperties (w : World) (filter : Log.Filter) (s : Session (CommandTable String)) :
    Option String → Except Error (Session (CommandTable String) × List Output)
  | none => .ok (s, [])
  | some file =>
    match w.readText file with
    | .error reason => .error (.notLoaded file reason)
    | .ok text =>
      let (properties, bad) := Properties.parse text
      .ok (withGlobals s properties, bad.flatMap fun b => log filter (.ofBadLine file b))

/-- The line that marks a tick. -/
def tick (count : Nat) : Event String :=
  .custom ("-- tick " ++ count.repr)

/-- Carries a started session to its end, tick by tick if asked for. -/
def drive (h : Host (CommandTable String) String) (ticking : Bool)
    (s : Session (CommandTable String)) : Reaction (CommandTable String) String Report :=
  if ticking then (s.tickThrough h tick 0).andThen fun s => s.finish h else s.finish h

/-- Runs the script: its report, and the lines written meanwhile. -/
def runScript (w : World) (a : Arguments) (filter : Log.Filter) :
    Except Error Report × List Output :=
  let root := w.scriptRoot a.root
  let h := host w root
  match loadProperties w filter (openSession a) a.properties with
  | .error e => (.error e, [])
  | .ok (session, warnings) =>
    let opening := warnings ++ log filter (.reading (Path.join root a.script))
    let started := session.start h a.script
    let startLines := started.events.flatMap (write filter)
    match started.result with
    | .error e => (.error e, opening ++ startLines)
    | .ok _ =>
      let driven := drive h a.step started.session
      (driven.result, opening ++ startLines ++ driven.events.flatMap (write filter))

/-- The last lines about a report that is not clean. -/
def summary (r : Report) : List Output :=
  r.failures.map (fun f => complain ("line " ++ f.line.repr ++ ": " ++ f.error.message)) ++
    if r.aborted then [complain "aborted"] else []

/-- Runs the command with its arguments. -/
def run (w : World) (arguments : List String) : Outcome :=
  match Arguments.parse arguments with
  | .error e => { code := 2, output := [complain e.message, .err usage] }
  | .ok a =>
    let (result, output) := runScript w a (logFilter w a.debug)
    match result with
    | .error e => { code := 1, output := output ++ [complain e.message] }
    | .ok report =>
      if report.isClean then { code := 0, output }
      else { code := 1, output := output ++ summary report }

end LineScript.CommandLine
