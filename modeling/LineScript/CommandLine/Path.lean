/-!
# Paths

Paths are kept as they are written. Joining two neither looks at the file system nor tidies up.
-/

namespace LineScript.Path

/-- The path starts at the root of the file system. -/
def isAbsolute (path : String) : Bool :=
  path.startsWith "/"

/-- A path seen from a base. An absolute path stands for itself; otherwise exactly one slash is put
between the two if the base has none at its end, and none if there is no base. -/
def join (base path : String) : String :=
  if isAbsolute path || base.isEmpty then path
  else if base.endsWith "/" then base ++ path
  else base ++ "/" ++ path

end LineScript.Path
