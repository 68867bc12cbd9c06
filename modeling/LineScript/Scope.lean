import LineScript.Table
import LineScript.Value

/-!
# Scopes

A scope is a stack of frames, each a table of variables. There is always at least one: the frame
that the script itself lives in. Entering the branch of an `if` adds a frame, leaving it drops that
frame again.

A variable is looked up from the innermost frame outward. `Scope.bind` always writes to the
innermost frame; `Scope.assign`, which is what a script's `name = expr` does, writes to the frame
where the name already lives, and to the innermost one only if the name is new.
-/

namespace LineScript

/-- The variables of one block. -/
abbrev Frame := Table Value

/-- A non-empty stack of frames. -/
structure Scope where
  /-- The innermost frame. -/
  current : Frame := ∅
  /-- The frames around it, from the inside outward; the last one is the root. -/
  enclosing : List Frame := []

namespace Scope

/-- All frames, the innermost first. -/
def frames (s : Scope) : List Frame :=
  s.current :: s.enclosing

/-- The number of frames. -/
def depth (s : Scope) : Nat :=
  s.frames.length

/-- Enters a block. -/
def push (s : Scope) : Scope :=
  { current := ∅, enclosing := s.frames }

/-- Leaves the innermost block and forgets its variables. The root frame cannot be left. -/
def pop? (s : Scope) : Option Scope :=
  match s.enclosing with
  | [] => none
  | frame :: rest => some { current := frame, enclosing := rest }

/-- Leaves the innermost block, or stays if only the root frame is left. -/
def pop (s : Scope) : Scope :=
  s.pop?.getD s

/-- Binds a name in the innermost frame, over any binding further out. -/
def bind (s : Scope) (name : String) (v : Value) : Scope :=
  { s with current := s.current.insert name v }

/-- Rebinds a name in the first frame that has it. -/
def rebind? (name : String) (v : Value) : List Frame → Option (List Frame)
  | [] => none
  | frame :: rest =>
    if frame.contains name then some (frame.insert name v :: rest)
    else (rebind? name v rest).map (frame :: ·)

/-- Rebinds a name where it lives, or binds it in the innermost frame if it is new. -/
def assign (s : Scope) (name : String) (v : Value) : Scope :=
  if s.current.contains name then s.bind name v
  else match rebind? name v s.enclosing with
    | some enclosing => { s with enclosing }
    | none => s.bind name v

/-- The value of a name, from the innermost frame outward. -/
def lookup (s : Scope) (name : String) : Option Value :=
  s.frames.findSome? (·.find? name)

/-- The name has a value. -/
def isBound (s : Scope) (name : String) : Bool :=
  (s.lookup name).isSome

/-- A scope of one frame with the given variables, bound in order. -/
def ofList (bindings : List (String × Value)) : Scope :=
  { current := Table.ofList bindings }

@[simp]
theorem depth_push (s : Scope) : s.push.depth = s.depth + 1 := rfl

@[simp]
theorem pop_push (s : Scope) : s.push.pop = s := rfl

theorem depth_pos (s : Scope) : 0 < s.depth :=
  Nat.succ_pos _

end Scope

end LineScript
