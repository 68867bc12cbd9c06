import LineScript.Proofs.Number.Spelling
import LineScript.Proofs.Resolve.Values

/-!
# How a text with a value ends

The resolver cuts a text wherever the characters of an operator stand, so it also cuts at signs:
`a*-b` is cut before `b`, and `2*1e-3` in the middle of a number. None of these cuts leads anywhere,
and the reason is the same for all of them: what is left of the cut ends in an operator, or in the
`e` of an exponent, or is empty. Nothing that ends like this has a value.

* `endsOperand`: the text ends like something with a value. Either its last character is a digit, a
  point, a quote or a closing parenthesis, or its last word is a name;
* `endsOperand_append_cons`: only what follows the last operator matters;
* `endsOperand_of_valueOf`: **every text with a value ends like one**;
* `not_endsOperand_of_sign`: what stands before a sign in a number does not.
-/

namespace LineScript.Resolve

open Number (isMantissaChar)
open Scan (group?)
open Text (isBlank isNameStart isWordChar trimRight)

/-- The characters that operators and signs are made of. -/
def isOperatorChar (c : Char) : Bool :=
  c ∈ ['|', '&', '=', '!', '<', '>', '+', '-', '*', '/', '%']

/-- The characters that hang together in a name or in the digits of a number. -/
def isRunChar (c : Char) : Bool :=
  isWordChar c || c == '.'

/-- A character that ends an operand on its own. -/
def closesOperand (c : Char) : Bool :=
  c == '"' || c == ')' || isMantissaChar c

/-- The text ends like something with a value. -/
def endsOperand (s : List Char) : Bool :=
  (trimRight s).getLast?.any closesOperand ||
    ((trimRight s).rtakeWhile isRunChar).head?.any isNameStart

/-! ### Kinds of characters -/

/-- The characters of names and numbers are no blanks. -/
theorem isBlank_eq_false_of_isRunChar {c : Char} (h : isRunChar c) : isBlank c = false := by
  simp only [isRunChar, isWordChar, Char.isAlphanum, Char.isAlpha, Char.isUpper, Char.isLower,
    Char.isDigit, Bool.or_eq_true, Bool.and_eq_true, decide_eq_true_eq, beq_iff_eq, ge_iff_le,
    UInt32.le_iff_toNat_le] at h
  -- between `.` and `z` there are no blanks
  have h_range : 46 ≤ c.toNat ∧ c.toNat ≤ 122 := by
    rcases h with (((h | h) | h) | rfl) | rfl
    · exact ⟨Nat.le_trans (by decide) h.1, Nat.le_trans h.2 (by decide)⟩
    · exact ⟨Nat.le_trans (by decide) h.1, Nat.le_trans h.2 (by decide)⟩
    · exact ⟨Nat.le_trans (by decide) h.1, Nat.le_trans h.2 (by decide)⟩
    · decide
    · decide
  simp only [isBlank, Bool.or_eq_false_iff, Bool.and_eq_false_iff, decide_eq_false_iff_not,
    beq_eq_false_iff_ne]
  omega

/-- A character that starts a name may also stand inside one. -/
theorem isWordChar_of_isNameStart {c : Char} (h : isNameStart c) : isWordChar c := by
  rcases Bool.or_eq_true_iff.mp h with h_letter | h_underscore
  · simp [isWordChar, Char.isAlphanum, h_letter]
  · simp [isWordChar, h_underscore]

/-- Digits and the point belong to runs. -/
theorem isRunChar_of_isMantissaChar {c : Char} (h : isMantissaChar c) : isRunChar c := by
  rcases Bool.or_eq_true_iff.mp h with h_digit | h_point
  · simp [isRunChar, isWordChar, Char.isAlphanum, h_digit]
  · simp [isRunChar, h_point]

/-- No name starts with a digit or a point, so a run of digits is never taken for a name. -/
theorem isNameStart_eq_false_of_isMantissaChar {c : Char} (h : isMantissaChar c) :
    isNameStart c = false := by
  rcases Bool.or_eq_true_iff.mp h with h_digit | h_point
  · rw [Char.isDigit, Bool.and_eq_true, decide_eq_true_eq, decide_eq_true_eq] at h_digit
    -- the letters and `_` have codes above those of the digits
    have h_code : 48 ≤ c.val.toNat ∧ c.val.toNat ≤ 57 := h_digit
    by_contra h_start
    simp only [isNameStart, Char.isAlpha, Char.isUpper, Char.isLower, Bool.not_eq_false,
      Bool.or_eq_true, Bool.and_eq_true, decide_eq_true_eq, beq_iff_eq, ge_iff_le,
      UInt32.le_iff_toNat_le] at h_start
    rcases h_start with (h | h) | rfl
    · exact absurd (Nat.le_trans h.1 h_code.2) (by decide)
    · exact absurd (Nat.le_trans h.1 h_code.2) (by decide)
    · exact absurd h_code.2 (by decide)
  · rw [beq_iff_eq.mp h_point]
    decide

/-- A character that ends an operand is no blank, so trimming stops at it. -/
theorem isBlank_eq_false_of_closesOperand {c : Char} (h : closesOperand c) : isBlank c = false := by
  simp only [closesOperand, Bool.or_eq_true, beq_iff_eq] at h
  rcases h with (rfl | rfl) | h
  · decide
  · decide
  · exact isBlank_eq_false_of_isRunChar (isRunChar_of_isMantissaChar h)

/-- A character of an operator is of none of the other kinds. It is checked for each of the eleven
characters. -/
theorem isOperatorChar_cases {c : Char} (h : isOperatorChar c) :
    isRunChar c = false ∧ isBlank c = false ∧ closesOperand c = false ∧ c ≠ 'e' ∧ c ≠ 'E' := by
  simp only [isOperatorChar, decide_eq_true_eq, List.mem_cons, List.not_mem_nil, or_false] at h
  rcases h with rfl | rfl | rfl | rfl | rfl | rfl | rfl | rfl | rfl | rfl | rfl <;> decide

/-! ### What does not matter for the end -/

/-- A blank text ends in no operand. -/
theorem endsOperand_of_trimRight_eq_nil {s : List Char} (h : trimRight s = []) :
    endsOperand s = false := by
  rw [endsOperand, h]
  rfl

/-- Blanks at the end do not matter, since `endsOperand` trims them away. -/
theorem endsOperand_trimRight (s : List Char) : endsOperand (trimRight s) = endsOperand s := by
  rw [endsOperand, Text.trimRight_trimRight, endsOperand]

/-- A run at the end of a text does not go back past a character that is outside of runs. -/
theorem rtakeWhile_append_cons {p : Char → Bool} {c : Char} (hc : p c = false) (s t : List Char) :
    (s ++ c :: t).rtakeWhile p = t.rtakeWhile p := by
  -- the run, taken from the end, stops at `c` if it gets there at all
  have h_stop : (c :: s.reverse).takeWhile p = [] := by
    rw [List.takeWhile_cons, hc]
    rfl
  rw [List.rtakeWhile, List.rtakeWhile, List.reverse_append, List.reverse_cons, List.append_assoc,
    List.singleton_append, List.takeWhile_append, h_stop, List.append_nil]
  split
  · next h_all => rw [(List.takeWhile_prefix p).eq_of_length h_all]
  · rfl

/-- If what follows a character outside of runs is not blank, it alone decides how the text ends. -/
theorem endsOperand_append_cons_of_ne_nil {c : Char} (hc : isRunChar c = false) (s : List Char)
    {t : List Char} (ht : trimRight t ≠ []) : endsOperand (s ++ c :: t) = endsOperand t := by
  -- something that is not blank follows `c`, and `c` does not run on into it
  have h_tail : trimRight (c :: t) = c :: trimRight t := by
    have h_append := Text.trimRight_append [c] t
    rwa [if_neg ht] at h_append
  have h_trim : trimRight (s ++ c :: t) = s ++ c :: trimRight t := by
    rw [Text.trimRight_append, h_tail, if_neg (List.cons_ne_nil _ _)]
  have h_last : (s ++ c :: trimRight t).getLast? = (trimRight t).getLast? := by
    rw [List.getLast?_append, List.getLast?_cons_of_ne_nil ht,
      List.getLast?_eq_some_getLast ht, Option.some_or]
  rw [endsOperand, h_trim, h_last, rtakeWhile_append_cons hc, endsOperand]

/-- A blank or an operator character in front of a text does not matter for its end. -/
theorem endsOperand_cons {c : Char} (hc : isBlank c ∨ isOperatorChar c) (t : List Char) :
    endsOperand (c :: t) = endsOperand t := by
  have h_run : isRunChar c = false := by
    rcases hc with h_blank | h_operator
    · by_contra h_run
      rw [isBlank_eq_false_of_isRunChar (by simpa using h_run)] at h_blank
      exact Bool.false_ne_true h_blank
    · exact (isOperatorChar_cases h_operator).1
  by_cases ht : trimRight t = []
  · -- the rest is blank, and neither a blank nor an operator ends an operand
    have h_trim : trimRight (c :: t) = trimRight [c] := by
      have h_append := Text.trimRight_append [c] t
      rwa [if_pos ht] at h_append
    rw [endsOperand_of_trimRight_eq_nil ht, endsOperand, h_trim]
    rcases hc with h_blank | h_operator
    · rw [Text.trimRight_eq_nil_of_isBlank h_blank]
      rfl
    · obtain ⟨-, h_blank, h_closes, -⟩ := isOperatorChar_cases h_operator
      rw [Text.trimRight_singleton h_blank]
      simp [h_closes, List.rtakeWhile, h_run]
  · exact endsOperand_append_cons_of_ne_nil h_run [] ht

/-- **Only what follows an operator matters for the end of a text.** -/
theorem endsOperand_append_cons {c : Char} (hc : isOperatorChar c) (s t : List Char) :
    endsOperand (s ++ c :: t) = endsOperand t := by
  obtain ⟨h_run, h_blank, h_closes, -⟩ := isOperatorChar_cases hc
  by_cases ht : trimRight t = []
  · -- the text ends in the operator, which ends no operand
    have h_tail : trimRight (c :: t) = [c] := by
      have h_append := Text.trimRight_append [c] t
      rwa [if_pos ht, Text.trimRight_singleton h_blank] at h_append
    rw [endsOperand_of_trimRight_eq_nil ht, endsOperand, Text.trimRight_append, h_tail,
      if_neg (List.cons_ne_nil _ _), rtakeWhile_append_cons h_run, List.getLast?_concat]
    simp [h_closes, List.rtakeWhile]
  · -- what follows is not blank: the general lemma applies
    exact endsOperand_append_cons_of_ne_nil h_run s ht

/-- Blanks and operator characters in front do not matter, however many there are. -/
theorem endsOperand_append {s : List Char} (hs : ∀ c ∈ s, isBlank c ∨ isOperatorChar c)
    (t : List Char) : endsOperand (s ++ t) = endsOperand t := by
  induction s with
  | nil => rfl
  | cons c s ih =>
    rw [List.cons_append, endsOperand_cons (hs c List.mem_cons_self)]
    exact ih fun d hd => hs d (List.mem_cons_of_mem c hd)

/-- Blanks behind a text do not matter for its end. -/
theorem endsOperand_append_of_isBlank {t : List Char} (ht : ∀ c ∈ t, isBlank c) (s : List Char) :
    endsOperand (s ++ t) = endsOperand s := by
  have h_blank : trimRight t = [] := List.rdropWhile_eq_nil_iff.mpr ht
  rw [endsOperand, Text.trimRight_append, if_pos h_blank, endsOperand]

/-- How a text ends does not depend on the blanks around it. -/
theorem endsOperand_trim (s : List Char) : endsOperand (Text.trim s) = endsOperand s := by
  have h_blanks : ∀ c ∈ s.takeWhile isBlank, isBlank c ∨ isOperatorChar c := by
    intro c hc
    exact .inl (List.all_eq_true.mp List.all_takeWhile c hc)
  have h_left : endsOperand (Text.trimLeft s) = endsOperand s := by
    rw [← endsOperand_append h_blanks, Text.trimLeft, List.takeWhile_append_dropWhile]
  rw [Text.trim, endsOperand_trimRight, h_left]

/-! ### Texts with a value -/

/-- A text whose very last character ends an operand does so itself: there is nothing to trim. -/
theorem endsOperand_of_getLast? {s : List Char} (h : s.getLast?.any closesOperand) :
    endsOperand s := by
  have h_trim : trimRight s = s := by
    refine Text.trimRight_eq_self fun h_blank => ?_
    obtain ⟨c, h_last, h_closes⟩ := (Option.any_eq_true _ _).mp h
    rw [h_last, Option.any_some, isBlank_eq_false_of_closesOperand h_closes] at h_blank
    exact Bool.false_ne_true h_blank
  rw [endsOperand, h_trim, h, Bool.true_or]

/-- A name ends like an operand: it is one run, and the run starts as a name does. -/
theorem endsOperand_of_isIdentifier {s : List Char} (h : Text.isIdentifier s) : endsOperand s := by
  cases s with
  | nil => exact absurd h Bool.false_ne_true
  | cons c s =>
    obtain ⟨h_start, h_rest⟩ := Bool.and_eq_true_iff.mp h
    have h_word : ∀ d ∈ c :: s, isWordChar d := by
      intro d hd
      rcases List.mem_cons.mp hd with rfl | hd
      · exact isWordChar_of_isNameStart h_start
      · exact List.all_eq_true.mp h_rest d hd
    have h_run : ∀ d ∈ c :: s, isRunChar d := by
      intro d hd
      rw [isRunChar, h_word d hd, Bool.true_or]
    -- no character of a name is blank, so trimming takes nothing from it
    have h_trim : trimRight (c :: s) = c :: s := by
      refine Text.trimRight_eq_self fun h_blank => ?_
      obtain ⟨d, h_last, h_d⟩ := (Option.any_eq_true _ _).mp h_blank
      rw [isBlank_eq_false_of_isRunChar (h_run d (List.mem_of_getLast? h_last))] at h_d
      exact Bool.false_ne_true h_d
    rw [endsOperand, h_trim, List.rtakeWhile_eq_self_iff.mpr h_run, List.head?_cons,
      Option.any_some, h_start, Bool.or_true]

/-- If the parenthesis closes at the end of the text only, the text ends in a parenthesis. -/
theorem getLast?_of_closesAtEnd {n : Scan.Nesting} {s : List Char} (h : Scan.closesAtEnd n s) :
    s.getLast? = some ')' := by
  induction s generalizing n with
  | nil => exact absurd h Bool.false_ne_true
  | cons c rest ih =>
    rw [Scan.closesAtEnd] at h
    split at h
    · next h_close =>
      simp only [Bool.and_eq_true, beq_iff_eq] at h_close
      rw [List.isEmpty_iff.mp h, h_close.1.1]
      rfl
    · -- the parenthesis closes later, so the rest is not empty and its last character is that of
      -- the text
      have h_last := ih h
      rw [List.getLast?_cons_of_ne_nil (by rintro rfl; exact absurd h_last (by simp)), h_last]

/-- A group ends in its closing parenthesis. -/
theorem getLast?_of_group? {s inside : List Char} (h : group? s = some inside) :
    s.getLast? = some ')' := by
  unfold group? at h
  split at h
  · next rest =>
    split at h
    · next h_close =>
      have h_last := getLast?_of_closesAtEnd h_close
      rw [List.getLast?_cons_of_ne_nil (by rintro rfl; exact absurd h_last (by simp)), h_last]
    · exact absurd h (by simp)
  · exact absurd h (by simp)

/-- What it takes for a text to be quoted: quotes on both sides, and none between them. -/
theorem quoted?_eq_some {s inside : List Char} (h : quoted? s = some inside) :
    s = '"' :: (inside ++ ['"']) ∧ '"' ∉ inside := by
  unfold quoted? at h
  split at h
  · next rest =>
    split at h
    · next h_close =>
      simp only [Bool.and_eq_true, decide_eq_true_eq, Bool.not_eq_true', List.contains_eq_mem,
        decide_eq_false_iff_not] at h_close
      obtain ⟨front, rfl⟩ := List.getLast?_eq_some_iff.mp h_close.1
      rw [List.dropLast_concat] at h h_close
      rw [← Option.some.inj h]
      exact ⟨rfl, h_close.2⟩
    · exact absurd h (by simp)
  · exact absurd h (by simp)

/-- A number ends in a digit or a point, whatever it starts with. -/
theorem endsOperand_of_parse? {s : List Char} (h : (Number.parse? s).isSome) : endsOperand s := by
  refine endsOperand_of_getLast? ?_
  obtain ⟨c, h_last, h_c⟩ :=
    (Option.any_eq_true _ _).mp (Number.spelling_of_parse? h).isMantissaChar_getLast
  rw [h_last, Option.any_some, closesOperand, h_c, Bool.or_true]

/-- A quoted text ends in its quote. -/
theorem endsOperand_of_quoted? {s inside : List Char} (h : quoted? s = some inside) :
    endsOperand s := by
  refine endsOperand_of_getLast? ?_
  rw [(quoted?_eq_some h).1, ← List.cons_append, List.getLast?_concat]
  rfl

/-- A group ends in its parenthesis. -/
theorem endsOperand_of_group? {s inside : List Char} (h : group? s = some inside) :
    endsOperand s := by
  refine endsOperand_of_getLast? ?_
  rw [getLast?_of_group? h]
  rfl

/-- The two truth values are spelled like names. -/
theorem isIdentifier_of_booleanLiteral? {s : List Char} {v : Value}
    (h : Value.booleanLiteral? s = some v) : Text.isIdentifier s := by
  unfold Value.booleanLiteral? at h
  split at h
  · next h_true =>
    rw [h_true]
    decide
  · split at h
    · next h_false =>
      rw [h_false]
      decide
    · exact absurd h (by simp)

/-- What makes a text a literal. `true` and `false` are also names. -/
theorem literal?_cases {s : List Char} {v : Value} (h : literal? s = some v) :
    (Number.parse? s).isSome ∨ (∃ inside, quoted? s = some inside) ∨ Text.isIdentifier s := by
  unfold literal? at h
  split at h
  · next h_number => exact .inl (by rw [h_number]; rfl)
  · split at h
    · next inside h_quoted => exact .inr (.inl ⟨inside, h_quoted⟩)
    · exact .inr (.inr (isIdentifier_of_booleanLiteral? h))

/-- Every literal ends like an operand. -/
theorem endsOperand_of_literal? {s : List Char} {v : Value} (h : literal? s = some v) :
    endsOperand s := by
  rcases literal?_cases h with h_number | ⟨inside, h_quoted⟩ | h_name
  · exact endsOperand_of_parse? h_number
  · exact endsOperand_of_quoted? h_quoted
  · exact endsOperand_of_isIdentifier h_name

/-- Every operator is made of operator characters. -/
theorem isOperatorChar_of_mem_operator {c : Calculation} {d : Char} (h : d ∈ c.operator) :
    isOperatorChar d := by
  have h_all : c.operator.all isOperatorChar := by cases c <;> decide
  exact List.all_eq_true.mp h_all d h

/-- What follows an operator is all that matters, the operator taken as a whole. -/
theorem endsOperand_append_operator (c : Calculation) (s t : List Char) :
    endsOperand (s ++ c.operator ++ t) = endsOperand t := by
  have h_ne : c.operator ≠ [] := by cases c <;> decide
  have h_last := isOperatorChar_of_mem_operator (List.getLast_mem h_ne)
  -- the last character of the operator is enough; the others count as text before it
  rw [← List.dropLast_append_getLast h_ne, ← List.append_assoc, List.append_assoc,
    List.singleton_append, endsOperand_append_cons h_last]

/-- A text whose search leads to a value ends as an operand with a value does. -/
theorem exists_of_valueAmong {scope : Scope} {members : List Calculation} {s : List Char}
    {v : Value} (h : valueAmong scope members s = some v) :
    ∃ t w, t.length < s.length ∧ valueOf scope t = some w ∧ endsOperand s = endsOperand t := by
  -- the search found a cut whose right side has a value; that side is the operand
  obtain ⟨cut, h_cut, h_value⟩ := List.exists_of_findSome?_eq_some h
  obtain ⟨found, h_choice, -⟩ := Option.bind_eq_some_iff.mp h_value
  obtain ⟨left, -, h_choice⟩ := Option.bind_eq_some_iff.mp h_choice
  obtain ⟨right, h_right, -⟩ := Option.bind_eq_some_iff.mp h_choice
  have h_length := Scan.length_after_lt h_cut
  obtain ⟨l, r, rfl, -, h_after, -, -, -, h_mem, -⟩ := Scan.exists_sides_of_mem_cuts h_cut
  obtain ⟨c, -, h_operator⟩ := List.mem_map.mp (List.mem_eraseDups.mp h_mem)
  rw [h_after, String.toList_ofList] at h_right h_length
  refine ⟨r, right, h_length, h_right, ?_⟩
  rw [← h_operator, endsOperand_append_operator]

/-- So does a text whose value comes from the operand behind its sign. -/
theorem exists_of_signedValue {scope : Scope} {s : List Char} {v : Value}
    (h : signedValue scope s = some v) :
    ∃ t w, t.length < s.length ∧ valueOf scope t = some w ∧ endsOperand s = endsOperand t := by
  unfold signedValue at h
  split at h
  · next rest =>
    obtain ⟨w, h_w, -⟩ := Option.bind_eq_some_iff.mp h
    exact ⟨rest, w, Nat.lt_succ_self _, h_w, endsOperand_cons (.inr (by decide)) rest⟩
  · next rest =>
    obtain ⟨w, h_w, -⟩ := Option.bind_eq_some_iff.mp h
    exact ⟨rest, w, Nat.lt_succ_self _, h_w, endsOperand_cons (.inr (by decide)) rest⟩
  · exact absurd h (by simp)

/-- **Every text with a value ends like one.** By induction on the length of the text: a literal, a
name and a group do, and anything else ends in an operand with a value of its own. -/
theorem endsOperand_of_valueOf {scope : Scope} {s : List Char} {v : Value}
    (h : valueOf scope s = some v) : endsOperand s := by
  induction h_length : s.length using Nat.strong_induction_on generalizing s v with
  | _ n ih =>
    -- neither the value nor the end depends on blanks around the text
    have h_shorter := Text.length_trim_le s
    have h_trim := Text.trim_trim s
    rw [← valueOf_trim] at h
    rw [← endsOperand_trim]
    generalize Text.trim s = t at h h_shorter h_trim ⊢
    cases h_literal : literal? t with
    | some w => exact endsOperand_of_literal? h_literal
    | none =>
      cases h_name : Text.isIdentifier t with
      | true => exact endsOperand_of_isIdentifier h_name
      | false =>
        cases h_group : group? t with
        | some inside => exact endsOperand_of_group? h_group
        | none =>
          rw [valueOf_eq_search h_trim h_literal h_name h_group, Option.or_eq_some_iff] at h
          -- what follows the operator or the sign is shorter and has a value
          have h_operand : ∃ u w, u.length < t.length ∧ valueOf scope u = some w ∧
              endsOperand t = endsOperand u := by
            rcases h with h_level | ⟨-, h_signed⟩
            · obtain ⟨level, -, h_among⟩ := List.exists_of_findSome?_eq_some h_level
              exact exists_of_valueAmong h_among
            · exact exists_of_signedValue h_signed
          obtain ⟨u, w, h_u, h_w, h_end⟩ := h_operand
          rw [h_end]
          exact ih u.length (by omega) h_w rfl

/-- The way the result is used: a text that does not end like an operand has no value in any scope.
-/
theorem valueOf_eq_none {scope : Scope} {s : List Char} (h : endsOperand s = false) :
    valueOf scope s = none := by
  rw [Option.eq_none_iff_forall_not_mem]
  intro v h_v
  exact Bool.false_ne_true (h.symm.trans (endsOperand_of_valueOf h_v))

/-- What stands before a sign in a number has no value: it is empty, or ends in the `e` of an
exponent. -/
theorem not_endsOperand_of_sign {l r : List Char} {c : Char}
    (h : (Number.parse? (l ++ c :: r)).isSome) (hc : isOperatorChar c) :
    endsOperand l = false := by
  obtain ⟨h_run, -, -, h_e, h_E⟩ := isOperatorChar_cases hc
  -- the sign is not part of the digits, so it stands in front or after the `e`
  have h_mantissa : ¬ isMantissaChar c := by
    intro h_mantissa
    exact Bool.false_ne_true (h_run.symm.trans (isRunChar_of_isMantissaChar h_mantissa))
  rcases (Number.spelling_of_parse? h).eq_of_sign h_mantissa ⟨h_e, h_E⟩ with
    rfl | ⟨mark, digits, e, rfl, h_mark, h_ne, h_digits, h_exponent⟩
  · rfl
  · have h_all : mark.all isOperatorChar := by rcases h_mark with rfl | rfl | rfl <;> decide
    have h_signs : ∀ d ∈ mark, isBlank d ∨ isOperatorChar d := by
      intro d hd
      exact .inr (List.all_eq_true.mp h_all d hd)
    -- the `e` ends no operand on its own; only as the end of a name could it do so
    have h_last : isRunChar e ∧ isBlank e = false ∧ closesOperand e = false := by
      rcases h_exponent with rfl | rfl <;> decide
    -- the last word is the whole of what follows the sign, and it starts like a number
    have h_word : ∀ d ∈ digits ++ [e], isRunChar d := by
      intro d hd
      rcases List.mem_append.mp hd with hd | hd
      · exact isRunChar_of_isMantissaChar (h_digits d hd)
      · exact List.mem_singleton.mp hd ▸ h_last.1
    have h_trim : trimRight (digits ++ [e]) = digits ++ [e] := by
      refine Text.trimRight_eq_self ?_
      rw [List.getLast?_concat, Option.any_some, h_last.2.1]
      exact Bool.false_ne_true
    obtain ⟨d, ds, rfl⟩ := List.exists_cons_of_ne_nil h_ne
    rw [endsOperand_append h_signs, endsOperand, h_trim, List.rtakeWhile_eq_self_iff.mpr h_word,
      List.getLast?_concat, Option.any_some, h_last.2.2, List.cons_append, List.head?_cons,
      Option.any_some, isNameStart_eq_false_of_isMantissaChar (h_digits d List.mem_cons_self)]
    rfl

end LineScript.Resolve
