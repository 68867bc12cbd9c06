import LineScript.Text.Blank

/-!
# How a pattern is read

Flags in a pattern change how what follows them is read: `(?x)` up to the end of its group, and
`(?x:…)` in its own group. Most flags are about matching. Two of them change what can be read:

* with `x`, blanks do not count, nor do comments, which run from `#` to the end of a line;
* with `u`, which is on until `(?-u)` turns it off, a pattern is about characters and not about
  bytes.

`Mode.skip` drops what does not count and never lengthens a text (`Mode.length_skip_le`), which is
why reading ends.
-/

namespace LineScript.Pattern

/-- How a pattern is read at one place. -/
structure Mode where
  /-- Blanks and comments do not count. -/
  spaced : Bool := false
  /-- The pattern is about characters. -/
  unicode : Bool := true
deriving Repr, DecidableEq

/-- Drops blanks and comments, from inside a comment or outside. -/
def dropSpace (comment : Bool) : List Char → List Char
  | [] => []
  | c :: rest =>
    if comment then dropSpace (c ≠ '\n') rest
    else if c == '#' then dropSpace true rest
    else if Text.isBlank c then dropSpace false rest
    else c :: rest

theorem length_dropSpace_le (comment : Bool) (s : List Char) :
    (dropSpace comment s).length ≤ s.length := by
  induction s generalizing comment with
  | nil => exact Nat.le_refl _
  | cons c rest ih =>
    rw [dropSpace]
    split
    · exact Nat.le_succ_of_le (ih _)
    · split
      · exact Nat.le_succ_of_le (ih _)
      · split
        · exact Nat.le_succ_of_le (ih _)
        · exact Nat.le_refl _

namespace Mode

/-- Drops what does not count. -/
def skip (m : Mode) (s : List Char) : List Char :=
  if m.spaced then dropSpace false s else s

theorem length_skip_le (m : Mode) (s : List Char) : (m.skip s).length ≤ s.length := by
  rw [skip]
  split
  · exact length_dropSpace_le false s
  · exact Nat.le_refl _

/-- The character that a glance ahead meets. Where blanks do not count it passes over blanks and one
`#`, but not over the text of a comment; if that leaves nothing, it meets the very next one. -/
def glance (m : Mode) (s : List Char) : Option Char :=
  if m.spaced then
    let beyond := match Text.trimLeft s with
      | '#' :: rest => Text.trimLeft rest
      | rest => rest
    beyond.head?.or s.head?
  else s.head?

end Mode

/-! ### Flags -/

/-- The letters of flags. -/
def flagLetters : List Char :=
  ['i', 'm', 's', 'U', 'u', 'R', 'x']

/-- The text is flags as they may be written: letters, with a minus sign before those that are
turned off. Nothing stands there twice, and the minus sign is not the last. -/
def areFlags (flags : List Char) : Bool :=
  flags.all (fun c => c == '-' || flagLetters.contains c) && decide flags.Nodup &&
    flags.getLast? ≠ some '-'

/-- Whether a flag is on after some flags. -/
def isOn (flags : List Char) (letter : Char) (before : Bool) : Bool :=
  if (flags.takeWhile (· ≠ '-')).contains letter then true else before && !flags.contains letter

/-- The mode after some flags. -/
def Mode.withFlags (m : Mode) (flags : List Char) : Mode :=
  { spaced := isOn flags 'x' m.spaced, unicode := isOn flags 'u' m.unicode }

end LineScript.Pattern
