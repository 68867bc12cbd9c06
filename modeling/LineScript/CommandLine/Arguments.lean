/-!
# Arguments

    [-dxs] [-L<dir>] [-p<file>] <script>

Option letters may stand together behind one dash. The value of `-L` or `-p` is what follows the
letter in the same argument, or else the whole next argument, whatever that looks like. A lone dash
is no option, and after `--` nothing is. Exactly one argument has to be left over: the script.

Reading goes through the arguments once and keeps, besides the options seen so far, whether the next
argument is awaited as a value.
-/

namespace LineScript.CommandLine

/-- Why the arguments cannot be used. -/
inductive UsageError where
  /-- A `-L` without a directory. -/
  | missingDirectory
  /-- A `-p` without a file. -/
  | missingFile
  /-- An option letter that is not known. -/
  | unknownOption (letter : Char)
  /-- No argument is left for the script. -/
  | missingScript
  /-- More than one argument is left for the script. -/
  | tooManyArguments (count : Nat)
deriving Repr, DecidableEq

/-- The wording of a usage error. -/
def UsageError.message : UsageError → String
  | .missingDirectory => "-L requires a directory argument"
  | .missingFile => "-p requires a file argument"
  | .unknownOption letter => "unknown option: -" ++ String.ofList [letter]
  | .missingScript => "missing script argument"
  | .tooManyArguments count => "too many arguments (" ++ count.repr ++ ")"

/-- What the option letters say. -/
structure Options where
  /-- The directory that scripts are looked for in. -/
  root : Option String := none
  /-- The properties file whose records become globals. -/
  properties : Option String := none
  /-- Log everything. -/
  debug : Bool := false
  /-- Stop at the first statement that fails. -/
  abortOnError : Bool := false
  /-- Run one statement a tick. -/
  step : Bool := false
deriving Repr, DecidableEq

/-- Options and the script to run. -/
structure Arguments extends Options where
  /-- The identifier of the script. -/
  script : String
deriving Repr, DecidableEq

/-- An option that takes a value. -/
inductive Slot where
  | root
  | properties
deriving Repr, DecidableEq

/-- What is wrong if the value does not come. -/
def Slot.missing : Slot → UsageError
  | .root => .missingDirectory
  | .properties => .missingFile

/-- Gives an option its value. -/
def Options.fill (o : Options) (value : String) : Slot → Options
  | .root => { o with root := some value }
  | .properties => { o with properties := some value }

/-- Gives an option the rest of its argument as its value, or says that its value is to come. -/
def Options.takeValue (o : Options) (rest : List Char) (slot : Slot) : Options × Option Slot :=
  if rest.isEmpty then (o, some slot) else (o.fill (String.ofList rest) slot, none)

/-- Reads the letters behind a dash: the options afterwards, and the option whose value is still to
come. -/
def readLetters (o : Options) : List Char → Except UsageError (Options × Option Slot)
  | [] => .ok (o, none)
  | 'd' :: rest => readLetters { o with debug := true } rest
  | 'x' :: rest => readLetters { o with abortOnError := true } rest
  | 's' :: rest => readLetters { o with step := true } rest
  | 'L' :: rest => .ok (o.takeValue rest .root)
  | 'p' :: rest => .ok (o.takeValue rest .properties)
  | letter :: _ => .error (.unknownOption letter)

/-- Reads the arguments, given the option whose value comes next and the arguments left over so
far. -/
def readArguments (o : Options) (awaited : Option Slot) (positional : List String) :
    List String → Except UsageError (Options × List String)
  | [] =>
    match awaited with
    | some slot => .error slot.missing
    | none => .ok (o, positional)
  | argument :: rest =>
    match awaited with
    | some slot => readArguments (o.fill argument slot) none positional rest
    | none =>
      if argument = "--" then .ok (o, positional ++ rest)
      else match argument.toList with
        | '-' :: letter :: letters =>
          match readLetters o (letter :: letters) with
          | .ok (o, awaited) => readArguments o awaited positional rest
          | .error e => .error e
        | _ => readArguments o none (positional ++ [argument]) rest

/-- Reads a command's arguments. -/
def Arguments.parse (arguments : List String) : Except UsageError Arguments :=
  match readArguments {} none [] arguments with
  | .error e => .error e
  | .ok (_, []) => .error .missingScript
  | .ok (options, [script]) => .ok { options with script }
  | .ok (_, positional) => .error (.tooManyArguments positional.length)

end LineScript.CommandLine
