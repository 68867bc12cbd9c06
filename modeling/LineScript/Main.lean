import LineScript.CommandLine

/-!
# The executable

Gathers what the command may look at, runs it, and writes its output. The command reads at most two
files, so those are read beforehand; everything else is in `LineScript.CommandLine`.
-/

namespace LineScript.Main

open CommandLine

/-- The word on why a file cannot be read. -/
def reason : IO.Error → String
  | .noFileOrDirectory _ _ _ => ReadError.notFound.message
  | .inappropriateType _ code _ =>
    if code = 21 then ReadError.isDirectory.message else ReadError.notDirectory.message
  | e => toString e

/-- The text of a file. -/
def readText (path : String) : IO (Except String String) := do
  match ← (IO.FS.readBinFile path).toBaseIO with
  | .error e => return .error (reason e)
  | .ok content =>
    match String.fromUTF8? content with
    | some text => return .ok text
    | none => return .error ReadError.notText.message

/-- Reads the files that the arguments ask for. -/
def readFiles (w : World) (arguments : List String) :
    IO (List (String × Except String String)) := do
  match Arguments.parse arguments with
  | .error _ => return []
  | .ok a =>
    let script := Path.join (w.scriptRoot a.root) a.script
    (a.properties.toList ++ [script]).mapM fun path => return (path, ← readText path)

/-- The world without the texts of files. -/
def surroundings : IO World := do
  let names := ["XDG_DATA_HOME", "HOME", rootVariable, logVariable]
  let values ← names.mapM fun name => return (name, ← IO.getEnv name)
  let w : World :=
    { environment := fun name => (values.lookup name).bind id
      readText := fun _ => .error ""
      isDirectory := fun _ => false }
  match w.dataDirectory? with
  | none => return w
  | some directory =>
    let found ← (IO.FS.realPath directory).toBaseIO
    let present ← match found with
      | .ok place => place.isDir
      | .error _ => pure false
    return { w with isDirectory := fun path => path == directory && present }

/-- Writes a line of output. -/
def write : Output → IO Unit
  | .out line => IO.println line
  | .err line => IO.eprintln line

end LineScript.Main

open LineScript LineScript.Main in
/-- Runs the command on the files and variables of this machine. -/
def main (arguments : List String) : IO UInt32 := do
  let w ← surroundings
  let texts ← readFiles w arguments
  let seen := { w with readText := fun path => (texts.lookup path).getD (.error "") }
  let outcome := CommandLine.run seen arguments
  outcome.output.forM write
  return outcome.code.toUInt32
