/-!
# Words and names

A *word character* is an ASCII letter, an ASCII digit or an underscore, and an *identifier* is a
non-empty run of word characters that does not start with a digit. Keywords, command names and
variables are all recognised through these two notions.
-/

namespace LineScript.Text

/-- An ASCII letter or an underscore: what an identifier may start with. -/
def isNameStart (c : Char) : Bool :=
  c.isAlpha || c == '_'

/-- An ASCII letter, an ASCII digit or an underscore. -/
def isWordChar (c : Char) : Bool :=
  c.isAlphanum || c == '_'

/-- The whole text is one identifier. -/
def isIdentifier : List Char → Bool
  | [] => false
  | c :: rest => isNameStart c && rest.all isWordChar

/-- The word a text starts with, which may be empty, and what follows it. -/
def leadingWord (s : List Char) : List Char × List Char :=
  (s.takeWhile isWordChar, s.dropWhile isWordChar)

/-- The number of bytes of the text in UTF-8. Positions are reported in this unit. -/
def byteSize : List Char → Nat
  | [] => 0
  | c :: rest => c.utf8Size + byteSize rest

@[simp]
theorem byteSize_nil : byteSize [] = 0 := rfl

@[simp]
theorem byteSize_cons (c : Char) (s : List Char) :
    byteSize (c :: s) = c.utf8Size + byteSize s := rfl

@[simp]
theorem byteSize_append (s t : List Char) : byteSize (s ++ t) = byteSize s + byteSize t := by
  induction s with
  | nil => simp
  | cons c s ih => simp [ih, Nat.add_assoc]

/-- A word and its remainder make up the text. -/
theorem leadingWord_append (s : List Char) : (leadingWord s).1 ++ (leadingWord s).2 = s :=
  List.takeWhile_append_dropWhile

end LineScript.Text
