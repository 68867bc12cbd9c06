import LineScript.Proofs.Resolve.Endings
import LineScript.Proofs.Scan.Sealed

/-!
# Texts that are resolved without a search

A literal, a name and a group are recognised as a whole, before any cut is tried. Whether a text is
one of these depends only on the text. Two things about them matter for the search.

* The characters of an operator may stand in a literal, as the minus sign does in `1e-3`. But an
  exposed operator in such a text never has anything on its left that could be an operand
  (`IsDirect.not_endsOperand`). So such a text, as a part of a longer one, brings in no cut that
  leads anywhere.
* The other way round, a text with an operand to the left of an exposed operator is none of these
  (`not_isDirect`), so it is searched.
-/

namespace LineScript.Resolve

open Scan (Nesting group?)
open Text (isBlank)

variable {s : List Char}

/-- The text is a number, a text in quotes, a name or a group. -/
inductive IsDirect (s : List Char) : Prop
  | number (h : (Number.parse? s).isSome)
  | quoted {inside : List Char} (h : quoted? s = some inside)
  | name (h : Text.isIdentifier s)
  | group {inside : List Char} (h : group? s = some inside)

/-- What has the value of a literal is recognised as a whole, the words for truth values as names.
-/
theorem isDirect_of_literal? {v : Value} (h : literal? s = some v) : IsDirect s := by
  rcases literal?_cases h with h_number | ⟨inside, h_quoted⟩ | h_name
  · exact .number h_number
  · exact .quoted h_quoted
  · exact .name h_name

/-- A text that is not resolved directly is searched. -/
theorem search_of_not_isDirect (h : ¬ IsDirect s) :
    literal? s = none ∧ Text.isIdentifier s = false ∧ group? s = none := by
  refine ⟨?_, ?_, ?_⟩
  · rw [Option.eq_none_iff_forall_not_mem]
    exact fun v h_v => h (isDirect_of_literal? h_v)
  · rw [Bool.eq_false_iff]
    exact fun h_name => h (.name h_name)
  · rw [Option.eq_none_iff_forall_not_mem]
    exact fun inside h_group => h (.group h_group)

namespace IsDirect

/-- A text that is recognised as a whole ends like something with a value. -/
theorem endsOperand (h : IsDirect s) : endsOperand s := by
  cases h with
  | number h => exact endsOperand_of_parse? h
  | quoted h => exact endsOperand_of_quoted? h
  | name h => exact endsOperand_of_isIdentifier h
  | group h => exact endsOperand_of_group? h

/-- The characters of a name hang together. -/
theorem isRunChar_of_mem_isIdentifier (h : Text.isIdentifier s) {c : Char} (hc : c ∈ s) :
    isRunChar c := by
  cases s with
  | nil => exact absurd hc List.not_mem_nil
  | cons d s =>
    obtain ⟨h_start, h_rest⟩ := Bool.and_eq_true_iff.mp h
    rw [isRunChar, Bool.or_eq_true]
    rcases List.mem_cons.mp hc with rfl | hc
    · exact .inl (isWordChar_of_isNameStart h_start)
    · exact .inl (List.all_eq_true.mp h_rest c hc)

/-- The last character of such a text is neither a blank nor a part of an operator, so nothing can
be taken off its end unnoticed. -/
theorem exists_getLast? (h : IsDirect s) :
    ∃ c, s.getLast? = some c ∧ isBlank c = false ∧ isOperatorChar c = false := by
  -- numbers and names end with characters that hang together, and these are neither
  have h_run : ∀ c, isRunChar c → isBlank c = false ∧ isOperatorChar c = false := by
    intro c hc
    refine ⟨isBlank_eq_false_of_isRunChar hc, ?_⟩
    rw [Bool.eq_false_iff]
    intro h_operator
    exact Bool.false_ne_true ((isOperatorChar_cases h_operator).1.symm.trans hc)
  cases h with
  | number h =>
    obtain ⟨c, h_last, hc⟩ :=
      (Option.any_eq_true _ _).mp (Number.spelling_of_parse? h).isMantissaChar_getLast
    exact ⟨c, h_last, h_run c (isRunChar_of_isMantissaChar hc)⟩
  | quoted h =>
    refine ⟨'"', ?_, by decide, by decide⟩
    rw [(quoted?_eq_some h).1, ← List.cons_append, List.getLast?_concat]
  | name h =>
    have h_ne : s ≠ [] := by
      rintro rfl
      exact Bool.false_ne_true h
    refine ⟨s.getLast h_ne, List.getLast?_eq_some_getLast h_ne, h_run _ ?_⟩
    exact isRunChar_of_mem_isIdentifier h (List.getLast_mem h_ne)
  | group h => exact ⟨')', getLast?_of_group? h, by decide, by decide⟩

/-- **An exposed operator in a literal, a name or a group has no operand on its left.** Only a
number can have such an operator at all, and there it is a sign. -/
theorem not_endsOperand {l r : List Char} {c : Char} (h : IsDirect (l ++ c :: r))
    (h_exposed : (Nesting.after {} l).exposes c) (hc : isOperatorChar c) :
    Resolve.endsOperand l = false := by
  cases h with
  | number h => exact not_endsOperand_of_sign h hc
  | quoted h =>
    -- nothing in quotes is exposed, and nothing in parentheses
    obtain ⟨h_eq, h_inside⟩ := quoted?_eq_some h
    rw [Scan.not_exposes_of_quoted h_inside h_eq.symm] at h_exposed
    exact absurd h_exposed Bool.false_ne_true
  | name h =>
    have h_run := isRunChar_of_mem_isIdentifier h (List.mem_append_right l List.mem_cons_self)
    exact absurd ((isOperatorChar_cases hc).1.symm.trans h_run) Bool.false_ne_true
  | group h =>
    rw [Scan.not_exposes_of_group? h rfl] at h_exposed
    exact absurd h_exposed Bool.false_ne_true

end IsDirect

/-- A text with an operand before an exposed operator is not recognised as a whole. -/
theorem not_isDirect {l r : List Char} {c : Char} (h_exposed : (Nesting.after {} l).exposes c)
    (hc : isOperatorChar c) (h_left : endsOperand l) : ¬ IsDirect (l ++ c :: r) := by
  intro h
  exact Bool.false_ne_true ((h.not_endsOperand h_exposed hc).symm.trans h_left)

end LineScript.Resolve
