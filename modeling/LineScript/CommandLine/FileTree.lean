import LineScript.CommandLine.World

/-!
# File trees

A tree of files and directories, given by the contents of its files. With a working directory and
some variables it makes up a whole `World`, so that a command can be followed without a file system
around it.

Paths are walked component by component. Before each component what was reached so far has to be a
directory, so `a.txt/` and `a.txt/..` cannot be reached if `a.txt` is a file.
-/

namespace LineScript.CommandLine

/-- What stands at a place in a tree. -/
inductive Node where
  /-- A file with its content. -/
  | file (content : ByteArray)
  /-- A directory. What is in it is said elsewhere in the tree. -/
  | directory

/-- Files and directories by the names on the way to them. A directory need not be listed if
something in it is. -/
structure FileTree where
  /-- Names from the root of the tree, with what stands there. -/
  nodes : List (List String × Node)

namespace FileTree

/-- What stands at a place. -/
def find? (t : FileTree) (place : List String) : Option Node :=
  match t.nodes.find? (·.1 == place) with
  | some (_, node) => some node
  | none => if t.nodes.any (place.isPrefixOf ·.1) then some .directory else none

/-- One component further. -/
def enter (place : List String) (component : String) : List String :=
  if component = "" || component = "." then place
  else if component = ".." then place.dropLast
  else place ++ [component]

/-- Walks along components. -/
def walk (t : FileTree) (place : List String) : List String → Except ReadError (List String)
  | [] => .ok place
  | component :: rest =>
    match t.find? place with
    | some .directory => walk t (enter place component) rest
    | some (.file _) => .error .notDirectory
    | none => .error .notFound

/-- What stands at a path, seen from a working directory. -/
def lookup (t : FileTree) (working : List String) (path : String) : Except ReadError Node := do
  if path.isEmpty then throw .notFound
  let place ← t.walk (if Path.isAbsolute path then [] else working) (path.splitOn "/")
  match t.find? place with
  | some node => return node
  | none => throw .notFound

/-- The text of the file at a path. -/
def readText (t : FileTree) (working : List String) (path : String) : Except ReadError String := do
  match ← t.lookup working path with
  | .directory => throw .isDirectory
  | .file content =>
    match String.fromUTF8? content with
    | some text => return text
    | none => throw .notText

/-- The path is a directory. -/
def isDirectory (t : FileTree) (working : List String) (path : String) : Bool :=
  match t.lookup working path with
  | .ok .directory => true
  | _ => false

/-- The world of a tree, a working directory and environment variables. -/
def world (t : FileTree) (working : List String) (settings : List (String × String)) : World where
  environment name := settings.lookup name
  readText path := (t.readText working path).mapError ReadError.message
  isDirectory := t.isDirectory working

end FileTree

end LineScript.CommandLine
