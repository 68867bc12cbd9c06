/-!
# Blanks and trimming

Every text of the language is trimmed before it is looked at, and the characters that are trimmed
are those with the Unicode property `White_Space`. The property is a fixed set of twenty-five code
points, so it is written out here.

* `isBlank`: the set itself;
* `trim`: a text without the blanks at its two ends.
-/

namespace LineScript.Text

/-- A character with the Unicode property `White_Space`. The zero-width space, the byte order mark
and the separators `U+001C` to `U+001F` do not have it. -/
def isBlank (c : Char) : Bool :=
  let n := c.toNat
  (0x09 ≤ n && n ≤ 0x0D) || n == 0x20 || n == 0x85 || n == 0xA0 || n == 0x1680 ||
    (0x2000 ≤ n && n ≤ 0x200A) || n == 0x2028 || n == 0x2029 || n == 0x202F || n == 0x205F ||
    n == 0x3000

/-- The text from its first character that is not blank. -/
def trimLeft (s : List Char) : List Char :=
  s.dropWhile isBlank

/-- The text up to its last character that is not blank. -/
def trimRight (s : List Char) : List Char :=
  (s.reverse.dropWhile isBlank).reverse

/-- The text without the blanks at either end. -/
def trim (s : List Char) : List Char :=
  trimRight (trimLeft s)

@[simp]
theorem trimLeft_nil : trimLeft [] = [] := rfl

@[simp]
theorem trimRight_nil : trimRight [] = [] := rfl

@[simp]
theorem trim_nil : trim [] = [] := rfl

theorem length_dropWhile_le (p : Char → Bool) (s : List Char) :
    (s.dropWhile p).length ≤ s.length :=
  (List.dropWhile_sublist p).length_le

theorem length_trimRight_le (s : List Char) : (trimRight s).length ≤ s.length := by
  simpa [trimRight] using length_dropWhile_le isBlank s.reverse

/-- Trimming never lengthens a text, which is what bounds every search that trims as it goes. -/
theorem length_trim_le (s : List Char) : (trim s).length ≤ s.length :=
  Nat.le_trans (length_trimRight_le _) (length_dropWhile_le isBlank s)

end LineScript.Text
