import LineScript.Text.Visible

/-!
# Quoted text

In log lines a text stands between double quotes. Quotes and backslashes in it are escaped, and so
is every character that cannot be seen on its own.
-/

namespace LineScript.Text

/-- A code point in lower-case hexadecimal, in braces after `\u`. -/
def codePointEscape (c : Char) : List Char :=
  ['\\', 'u', '\x7b'] ++ Nat.toDigits 16 c.toNat ++ ['\x7d']

/-- One character of quoted text. -/
def escapeChar (c : Char) : List Char :=
  if c = '"' || c = '\\' then ['\\', c]
  else if c = '\t' then ['\\', 't']
  else if c = '\r' then ['\\', 'r']
  else if c = '\n' then ['\\', 'n']
  else if c.toNat = 0 then ['\\', '0']
  else if isVisible c then [c]
  else codePointEscape c

/-- The text in double quotes. -/
def quote (s : String) : String :=
  String.ofList ('"' :: (s.toList.flatMap escapeChar ++ ['"']))

end LineScript.Text
