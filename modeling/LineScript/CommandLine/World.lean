import LineScript.CommandLine.Path

/-!
# The world around a command

What a command may look at: environment variables, the texts of files, and which paths are
directories. A command reads the world and does not change it, so it is a function of the world.

The directory that scripts are looked for in comes from the first of these that there is: the
option, the variable named by `rootVariable`, the user's data directory if it exists, the working
directory.
-/

namespace LineScript.CommandLine

/-- The name of the command, in its messages and in the user's data directory. -/
def commandName : String :=
  "gordian"

/-- The environment variable that names the directory for scripts. -/
def rootVariable : String :=
  "GORDIAN_ROOT"

/-- The environment variable that filters the log. -/
def logVariable : String :=
  "RUST_LOG"

/-- Why a text cannot be read. -/
inductive ReadError where
  /-- There is nothing at the path. -/
  | notFound
  /-- The path leads through a file. -/
  | notDirectory
  /-- There is a directory at the path. -/
  | isDirectory
  /-- The file is not encoded as UTF-8. -/
  | notText
deriving Repr, DecidableEq

/-- The wording of a read error. -/
def ReadError.message : ReadError → String
  | .notFound => "No such file or directory (os error 2)"
  | .notDirectory => "Not a directory (os error 20)"
  | .isDirectory => "Is a directory (os error 21)"
  | .notText => "stream did not contain valid UTF-8"

/-- What a command can see. -/
structure World where
  /-- The value of an environment variable. -/
  environment : String → Option String
  /-- The text of a file, or the reason why it cannot be read. -/
  readText : String → Except String String
  /-- The path is a directory. -/
  isDirectory : String → Bool

namespace World

/-- The user's directory for scripts, whether it exists or not. A relative `XDG_DATA_HOME` does not
count. -/
def dataDirectory? (w : World) : Option String :=
  match (w.environment "XDG_DATA_HOME").filter Path.isAbsolute with
  | some base => some (Path.join base commandName)
  | none => ((w.environment "HOME").filter (!·.isEmpty)).map fun home =>
    Path.join (Path.join home ".local/share") commandName

/-- The directory for scripts if nothing else is asked for. -/
def defaultRoot (w : World) : String :=
  w.dataDirectory?.getD "."

/-- The directory that scripts are looked for in, given the option. -/
def scriptRoot (w : World) (option : Option String) : String :=
  match option, w.environment rootVariable with
  | some root, _ => root
  | none, some root => root
  | none, none => (w.dataDirectory?.filter w.isDirectory).getD "."

end World

end LineScript.CommandLine
