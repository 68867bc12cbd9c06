import LineScript.Calculation
import LineScript.Proofs.Scan.Positions

/-!
# Operators keep apart

A line is searched for fourteen different texts: the assignment sign and the operators of the
calculations. Each search runs by itself over the whole line, and some of the texts start or end
others, so a run such as `<==` or `=!=` might be read in several ways. It is not: what is reported
for one operator shares no character with what is reported for any other, or with another report for
the same one.

Two operators that share a character stand in one of two ways. Either they start together, and then
one of them goes on behind the other, which clashes with what follows it (`clashes_of_starts`). Or
one starts inside the other, and then it clashes with what stands before it
(`clashes_of_startsInside`). No rule looks further than one character, and none has to, since no
operator is longer than two.
-/

namespace LineScript

open Scan

/-- The texts that a line is searched for. -/
def searchedOperators : List (List Char) :=
  ['='] :: Calculation.all.map Calculation.operator

variable {operator operator' : List Char} {s l r l' r' m : List Char}

/-! ### Operators that share a character -/

/-- The shapes of operators: one character, a character twice, or a comparison that ends in `=`. -/
theorem shape_of_mem_searchedOperators (h : operator ∈ searchedOperators) :
    (∃ a ∈ ['=', '<', '>', '+', '-', '*', '/', '%'], operator = [a]) ∨
      (∃ a ∈ ['&', '|'], operator = [a, a]) ∨
      ∃ a ∈ ['=', '!', '<', '>'], operator = [a, '='] := by
  rcases List.mem_cons.mp h with rfl | h_calculation
  · exact .inl ⟨'=', List.mem_cons_self, rfl⟩
  · obtain ⟨c, -, rfl⟩ := List.mem_map.mp h_calculation
    cases c <;> simp [Calculation.operator]

/-- No operator is empty. -/
theorem ne_nil_of_mem_searchedOperators (h : operator ∈ searchedOperators) : operator ≠ [] := by
  rcases shape_of_mem_searchedOperators h with ⟨a, -, rfl⟩ | ⟨a, -, rfl⟩ | ⟨a, -, rfl⟩ <;> simp

/-- An operator that goes on behind its first part has two characters, one in each part. -/
theorem eq_singleton_of_append_mem {c : Char} (h_l : l ≠ [])
    (h : l ++ c :: m ∈ searchedOperators) : ∃ a, l = [a] ∧ m = [] := by
  -- no operator is longer than two characters
  have h_length : (l ++ c :: m).length ≤ 2 := by
    rcases shape_of_mem_searchedOperators h with ⟨a, -, h_eq⟩ | ⟨a, -, h_eq⟩ | ⟨a, -, h_eq⟩ <;>
      rw [h_eq] <;> simp
  have h_pos : 0 < l.length := List.length_pos_iff.mpr h_l
  rw [List.length_append, List.length_cons] at h_length
  obtain ⟨a, rfl⟩ := List.length_eq_one_iff.mp (show l.length = 1 by omega)
  exact ⟨a, rfl, List.length_eq_zero_iff.mp (by omega)⟩

/-- An operator that starts a longer one clashes with the character by which the longer one goes
on. -/
theorem clashes_of_starts {c : Char} (h : operator ∈ searchedOperators)
    (h' : operator ++ c :: m ∈ searchedOperators) (previous : Option Char) :
    clashes operator previous c := by
  obtain ⟨a, rfl, rfl⟩ := eq_singleton_of_append_mem (ne_nil_of_mem_searchedOperators h) h'
  rcases shape_of_mem_searchedOperators h' with ⟨b, -, h_eq⟩ | ⟨b, h_b, h_eq⟩ | ⟨b, h_b, h_eq⟩
  · exact absurd h_eq (by simp)
  · -- `&` and `|` alone are no operators
    obtain ⟨rfl, h_rest⟩ := List.cons.inj h_eq
    simp only [List.mem_cons, List.not_mem_nil, or_false] at h_b
    rcases h_b with rfl | rfl <;> exact absurd h (by decide)
  · -- `=`, `<` and `>` before an `=` clash with it, and `!` alone is no operator
    obtain ⟨rfl, h_rest⟩ := List.cons.inj h_eq
    obtain ⟨rfl, -⟩ := List.cons.inj h_rest
    simp only [List.mem_cons, List.not_mem_nil, or_false] at h_b
    rcases h_b with rfl | rfl | rfl | rfl
    · rfl
    · exact absurd h (by decide)
    · rfl
    · rfl

/-- Only `&&` starts with `&` and only `||` with `|`. -/
theorem eq_double_of_head? {a : Char} (h_a : a ∈ ['&', '|']) (h : operator ∈ searchedOperators)
    (h_head : operator.head? = some a) : operator = [a, a] := by
  simp only [List.mem_cons, List.not_mem_nil, or_false] at h_a
  rcases shape_of_mem_searchedOperators h with ⟨b, h_b, rfl⟩ | ⟨b, -, rfl⟩ | ⟨b, h_b, rfl⟩
  · obtain rfl : b = a := by simpa using h_head
    rcases h_a with rfl | rfl <;> simp at h_b
  · obtain rfl : b = a := by simpa using h_head
    rfl
  · obtain rfl : b = a := by simpa using h_head
    rcases h_a with rfl | rfl <;> simp at h_b

/-- Two operators start with an `=`. All fourteen are checked. -/
theorem eq_of_head?_eq_sign (h : operator ∈ searchedOperators)
    (h_head : operator.head? = some '=') : operator = ['='] ∨ operator = ['=', '='] := by
  revert operator
  decide

/-- An operator that starts inside another one clashes with the character before it. -/
theorem clashes_of_startsInside {a b : Char} (h : [a, b] ∈ searchedOperators)
    (h' : operator ∈ searchedOperators) (h_head : operator.head? = some b) (following : Char) :
    clashes operator (some a) following := by
  rcases shape_of_mem_searchedOperators h with ⟨c, -, h_eq⟩ | ⟨c, h_c, h_eq⟩ | ⟨c, h_c, h_eq⟩
  · exact absurd h_eq (by simp)
  · -- a doubled character starts again inside itself
    obtain ⟨rfl, h_rest⟩ := List.cons.inj h_eq
    obtain ⟨rfl, -⟩ := List.cons.inj h_rest
    rw [eq_double_of_head? h_c h' h_head]
    simp only [List.mem_cons, List.not_mem_nil, or_false] at h_c
    rcases h_c with rfl | rfl <;> simp [clashes]
  · -- the last character of a comparison is an `=`, which minds what stands before it
    obtain ⟨rfl, h_rest⟩ := List.cons.inj h_eq
    obtain ⟨rfl, -⟩ := List.cons.inj h_rest
    have h_before : some a ∈ [some '=', some '!', some '<', some '>'] := by simpa using h_c
    rcases eq_of_head?_eq_sign h' h_head with rfl | rfl <;> simp [clashes, h_before]

/-! ### Two reports in one text -/

/-- An operator that is reported does not start a longer one. -/
theorem eq_nil_of_reported (h : operator ∈ searchedOperators)
    (h' : operator ++ m ∈ searchedOperators) (h_reported : Reported operator l (m ++ r)) :
    m = [] := by
  cases m with
  | nil => rfl
  | cons c m =>
    -- with another character the operator would clash, and then it is not reported
    have h_lone := h_reported.lone c rfl
    rw [clashes_of_starts h h' l.getLast?] at h_lone
    cases h_lone

/-- Two operators that are reported at one place are the same. -/
theorem eq_of_reported (h : operator ∈ searchedOperators) (h' : operator' ∈ searchedOperators)
    (h_eq : operator ++ r = operator' ++ r') (h_reported : Reported operator l r)
    (h_reported' : Reported operator' l r') : operator = operator' := by
  rcases List.append_eq_append_iff.mp h_eq with ⟨m, rfl, rfl⟩ | ⟨m, rfl, rfl⟩
  · rw [eq_nil_of_reported h h' h_reported, List.append_nil]
  · rw [eq_nil_of_reported h' h h_reported', List.append_nil]

/-- Of two operators that are reported in one text, the second starts where the first does and is
the same, or starts behind it. -/
theorem eq_or_starts_behind (h : operator ∈ searchedOperators)
    (h' : operator' ∈ searchedOperators) (h_eq : operator ++ r = m ++ (operator' ++ r'))
    (h_reported : Reported operator l r) (h_reported' : Reported operator' (l ++ m) r') :
    (m = [] ∧ operator = operator') ∨ ∃ t, m = operator ++ t := by
  rcases List.append_eq_append_iff.mp h_eq with ⟨t, rfl, -⟩ | ⟨t, rfl, h_t⟩
  · exact .inr ⟨t, rfl⟩
  by_cases h_m : m = []
  · subst h_m
    rw [List.append_nil] at h_reported'
    exact .inl ⟨rfl, eq_of_reported h h' h_eq h_reported h_reported'⟩
  cases t with
  | nil => exact .inr ⟨[], by rw [List.append_nil, List.append_nil]⟩
  | cons b t =>
    -- the second operator would start at the second character of the first one
    obtain ⟨a, rfl, rfl⟩ := eq_singleton_of_append_mem h_m h
    obtain ⟨d, r', rfl⟩ := List.exists_cons_of_ne_nil h_reported'.right_ne_nil
    obtain ⟨c, rest, rfl⟩ := List.exists_cons_of_ne_nil (ne_nil_of_mem_searchedOperators h')
    obtain ⟨rfl, -⟩ := List.cons.inj h_t
    have h_lone := h_reported'.lone d rfl
    rw [List.getLast?_concat, clashes_of_startsInside h h' rfl d] at h_lone
    cases h_lone

/-- The same in bytes: the first operator ends before the second starts, or they are one. -/
theorem eq_or_ends_before (h : operator ∈ searchedOperators) (h' : operator' ∈ searchedOperators)
    (h_eq : l ++ operator ++ r = l ++ m ++ operator' ++ r') (h_reported : Reported operator l r)
    (h_reported' : Reported operator' (l ++ m) r') :
    (l = l ++ m ∧ operator = operator') ∨
      Text.byteSize l + Text.byteSize operator ≤ Text.byteSize (l ++ m) := by
  have h_coming : operator ++ r = m ++ (operator' ++ r') := by
    simpa only [List.append_assoc, List.append_cancel_left_eq] using h_eq
  rcases eq_or_starts_behind h h' h_coming h_reported h_reported' with ⟨rfl, h_same⟩ | ⟨t, rfl⟩
  · exact .inl ⟨(List.append_nil l).symm, h_same⟩
  · refine .inr ?_
    rw [Text.byteSize_append, Text.byteSize_append]
    omega

/-- **Operators that are reported never share a character.** Of two reports for the assignment sign
or the operators of calculations, one ends before the other starts, or they are the same. -/
theorem operators_keep_apart (s : List Char) {operator operator' : List Char}
    (h : operator ∈ searchedOperators) (h' : operator' ∈ searchedOperators) {p q : Nat}
    (hp : p ∈ positions operator s) (hq : q ∈ positions operator' s)
    (h_ne : (p, operator) ≠ (q, operator')) :
    p + Text.byteSize operator ≤ q ∨ q + Text.byteSize operator' ≤ p := by
  obtain ⟨l, r, rfl, rfl, h_reported⟩ :=
    (mem_positions_iff (ne_nil_of_mem_searchedOperators h)).mp hp
  obtain ⟨l', r', h_eq, rfl, h_reported'⟩ :=
    (mem_positions_iff (ne_nil_of_mem_searchedOperators h')).mp hq
  -- the parts of one text before the two reports: one of them starts the other
  have h_order : l <+: l' ∨ l' <+: l := by
    rw [List.append_assoc, List.append_assoc] at h_eq
    rcases List.append_eq_append_iff.mp h_eq with ⟨m, rfl, -⟩ | ⟨m, rfl, -⟩
    · exact .inl (List.prefix_append _ _)
    · exact .inr (List.prefix_append _ _)
  -- whichever comes first ends before the second, or the two reports are one
  rcases h_order with ⟨m, rfl⟩ | ⟨m, rfl⟩
  · rcases eq_or_ends_before h h' h_eq h_reported h_reported' with ⟨h_l, h_same⟩ | h_before
    · exact absurd (by rw [← h_l, h_same]) h_ne
    · exact .inl h_before
  · rcases eq_or_ends_before h' h h_eq.symm h_reported' h_reported with ⟨h_l, h_same⟩ | h_before
    · exact absurd (by rw [← h_l, h_same]) h_ne
    · exact .inr h_before

/-- In `a=<b` the two signs adjoin, and both are reported: neither takes the other in. -/
theorem operators_keep_apart_adjoining :
    ['='] ∈ searchedOperators ∧ ['<'] ∈ searchedOperators ∧
      1 ∈ positions ['='] "a=<b".toList ∧ 2 ∈ positions ['<'] "a=<b".toList ∧
      (1 + Text.byteSize ['='] ≤ 2 ∨ 2 + Text.byteSize ['<'] ≤ 1) := by
  have h_sign : ['='] ∈ searchedOperators := by decide
  have h_less : ['<'] ∈ searchedOperators := by decide
  have h_first : 1 ∈ positions ['='] "a=<b".toList := by decide
  have h_second : 2 ∈ positions ['<'] "a=<b".toList := by decide
  exact ⟨h_sign, h_less, h_first, h_second,
    operators_keep_apart _ h_sign h_less h_first h_second (by decide)⟩

end LineScript
