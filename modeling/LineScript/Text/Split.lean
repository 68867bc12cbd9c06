/-!
# Splitting a text at characters

`splitWhere p s` cuts a text at every character that satisfies `p`. The characters at the cuts are
dropped, and a text without any is one piece, so there always is a piece.
-/

namespace LineScript.Text

/-- Puts a character in front of the first piece. -/
def consFirst (c : Char) : List (List Char) → List (List Char)
  | [] => [[c]]
  | piece :: rest => (c :: piece) :: rest

/-- The pieces of a text between the characters that satisfy `p`. -/
def splitWhere (p : Char → Bool) (s : List Char) : List (List Char) :=
  s.foldr (fun c found => if p c then [] :: found else consFirst c found) [[]]

@[simp]
theorem splitWhere_nil (p : Char → Bool) : splitWhere p [] = [[]] := rfl

theorem splitWhere_cons (p : Char → Bool) (c : Char) (s : List Char) :
    splitWhere p (c :: s) =
      if p c then [] :: splitWhere p s else consFirst c (splitWhere p s) := rfl

end LineScript.Text
