import LineScript.Text.Quoted

/-!
# Text that a terminal may be shown

What a script prints reaches a terminal through the log. A text must not be able to move the cursor,
change colours or ring the bell there, so the characters that start such a command are written as
escapes: the bell, the backspace, the form feed, the escape character, the delete character, and the
controls from `U+0080` to `U+009F`. All others stay as they are. A backslash stays too, so the text
shown does not tell an escape from the same characters in the text itself.
-/

namespace LineScript.Text

/-- A terminal may take the character for a command, and it fits into seven bits. -/
def isTerminalControl (c : Char) : Bool :=
  c = '\x07' || c = '\x08' || c = '\x0c' || c = '\x1b' || c = '\x7f'

/-- One of the controls that follow the seven-bit characters. -/
def isHighControl (c : Char) : Bool :=
  0x80 ≤ c.toNat && c.toNat ≤ 0x9F

/-- A code point below 256 as two lower-case hexadecimal digits after `\x`. -/
def byteEscape (c : Char) : List Char :=
  ['\\', 'x', Nat.digitChar (c.toNat / 16), Nat.digitChar (c.toNat % 16)]

/-- One character of a text for a terminal. -/
def terminalChar (c : Char) : List Char :=
  if isTerminalControl c then byteEscape c
  else if isHighControl c then codePointEscape c
  else [c]

/-- The text with every terminal control written as an escape. -/
def forTerminal (s : String) : String :=
  String.ofList (s.toList.flatMap terminalChar)

end LineScript.Text
