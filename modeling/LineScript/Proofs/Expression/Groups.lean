import LineScript.Proofs.Expression.Resolution
import LineScript.Proofs.Failure.Noting
import LineScript.Proofs.Scan.Balance

/-!
# Groups are transparent

A text in parentheses is resolved as what stands inside them. That its value is the same follows
from the order of the strategies: a parenthesis starts no literal and no name, so nothing is tried
before the group is. That a failure is the same, too, takes more. The inside is handed on as a text
of its own and not as an operand, so its error is not swallowed, and the names that were noted on
the way are noted by the inside alone (`answers_of_group?`).

Which texts are groups is a matter of counting (`Scan.Balanced`), and so is the main result.
-/

namespace LineScript

open Resolve Scan

/-- **A group comes to what its inside comes to**: the same outcome, and the same name noted. -/
theorem answers_of_group? (scope : Scope) {s inside : List Char} (h : group? s = some inside) :
    outcome scope s = outcome scope inside ∧ firstMissing scope s = firstMissing scope inside := by
  obtain ⟨rfl, -⟩ := group?_eq_some_iff.mp h
  have h_trim := trim_of_isDirect (.group h) (show opensLexeme '(' by decide)
  -- no strategy before the group's can claim a text that starts with a parenthesis
  exact (offers_group h_trim (literal?_cons_parenthesis _) rfl h).outcome_eq

/-- **Groups are recognised exactly, and they are transparent.** A text is a group if and only if it
is a balanced text in parentheses, and then it has the value of that text, or fails as that text
does. -/
theorem groups_exact_transparent :
    (∀ s : List Char, isGroup s ↔ ∃ e, s = '(' :: (e ++ [')']) ∧ Balanced e) ∧
    ∀ (scope : Scope) (e : String), Balanced e.toList →
      scope.resolve ("(" ++ e ++ ")") = scope.resolve e := by
  constructor
  · intro s
    rw [isGroup, Option.isSome_iff_exists]
    simp only [group?_eq_some_iff]
  · intro scope e h
    have h_text : ("(" ++ e ++ ")").toList = '(' :: (e.toList ++ [')']) := by
      simp [String.toList_append]
    have h_group : group? ("(" ++ e ++ ")").toList = some e.toList :=
      group?_eq_some_iff.mpr ⟨h_text, h⟩
    obtain ⟨h_outcome, h_missing⟩ := answers_of_group? scope h_group
    -- the answer is made of these two alone
    rw [resolve_eq, resolve_eq, h_outcome, h_missing]

/-- A parenthesis in quotes is not counted, and one that comes too early is: only the first of these
two texts is a group, and it fails as its inside does. -/
theorem groups_quoted_parenthesis :
    Balanced "\")\" + (label)".toList ∧ isGroup "(\")\" + (label))".toList ∧
      ¬ isGroup "(1) + (2)".toList ∧
      Scope.resolve {} ("(" ++ "\")\" + (label)" ++ ")") = Scope.resolve {} "\")\" + (label)" := by
  obtain ⟨h_exact, h_transparent⟩ := groups_exact_transparent
  have h_balanced : Balanced "\")\" + (label)".toList := by decide
  have h_group : isGroup "(\")\" + (label))".toList :=
    (h_exact _).mpr ⟨"\")\" + (label)".toList, by decide, h_balanced⟩
  exact ⟨h_balanced, h_group, by decide, h_transparent {} _ h_balanced⟩

end LineScript
