import LineScript.Proofs.Number.Negation
import LineScript.Proofs.Scan.Cuts

/-!
# How number literals are spelt

`Literal.parse?` reads a text in one go. The proofs about resolution need to know what a text looks
like that it reads, because a sign in a literal is also an operator: the resolver tries to cut
`1e-3` at its minus sign.

* `Spelling`: the form of a literal. A sign stands only at its start and after the `e` of its
  exponent;
* `spelling_of_parse?`: every text that is read has that form;
* `Spelling.eq_of_sign`: **what stands before a sign in a literal is no literal**: it is empty, or
  ends in the `e` of an exponent;
* `parse?_cons_minus`: a literal after a minus sign is read as the negative of the literal alone.
-/

namespace LineScript.Number

/-- A digit or the point of a literal. -/
def isMantissaChar (c : Char) : Bool :=
  c.isDigit || c == '.'

/-- Nothing, or one sign. -/
def IsSign (s : List Char) : Prop :=
  s = [] ∨ s = ['+'] ∨ s = ['-']

/-- What a literal looks like. -/
inductive Spelling : List Char → Prop
  /-- A sign, and digits with a point. -/
  | plain {mark digits : List Char} (h_mark : IsSign mark) (h_ne : digits ≠ [])
      (h_digits : ∀ c ∈ digits, isMantissaChar c) : Spelling (mark ++ digits)
  /-- The same with an exponent. -/
  | scaled {mark digits : List Char} {e : Char} {sign exponent : List Char} (h_mark : IsSign mark)
      (h_ne : digits ≠ []) (h_digits : ∀ c ∈ digits, isMantissaChar c) (h_e : e = 'e' ∨ e = 'E')
      (h_sign : IsSign sign) (h_exponent_ne : exponent ≠ [])
      (h_exponent : ∀ c ∈ exponent, c.isDigit) :
      Spelling (mark ++ (digits ++ e :: (sign ++ exponent)))

/-- A digit may stand in a mantissa. -/
theorem isMantissaChar_of_isDigit {c : Char} (h : c.isDigit) : isMantissaChar c := by
  rw [isMantissaChar, h, Bool.true_or]

/-- Where a mantissa ends, its digits end too. -/
theorem not_isDigit_of_not_isMantissaChar {s : List Char} (h : ¬ s.head?.any isMantissaChar) :
    ¬ s.head?.any Char.isDigit := by
  cases s with
  | nil => exact h
  | cons c rest => exact mt isMantissaChar_of_isDigit h

/-! ### Reading -/

/-- `sign` takes one sign off a text, or nothing. -/
theorem exists_isSign (s : List Char) : ∃ mark, IsSign mark ∧ s = mark ++ (sign s).2 := by
  unfold sign
  split
  · exact ⟨['-'], .inr (.inr rfl), rfl⟩
  · exact ⟨['+'], .inr (.inl rfl), rfl⟩
  · exact ⟨[], .inl rfl, rfl⟩

/-- A text that starts with a digit or a point has no sign. -/
theorem sign_of_head? {s : List Char} (h : s.head?.any isMantissaChar) : sign s = (false, s) := by
  unfold sign
  split
  · exact absurd h (show ¬ isMantissaChar '-' by decide)
  · exact absurd h (show ¬ isMantissaChar '+' by decide)
  · rfl

/-- The mantissa of a text is digits, with or without a point behind them and further digits. -/
theorem mantissa_cases (s : List Char) :
    ∃ whole fraction rest, mantissa s = (whole, fraction, rest) ∧ (∀ c ∈ whole, c.isDigit) ∧
      (∀ c ∈ fraction, c.isDigit) ∧
      (s = whole ++ rest ∧ fraction = [] ∨ s = whole ++ '.' :: (fraction ++ rest)) := by
  have h_digits : ∀ t : List Char, ∀ c ∈ t.takeWhile Char.isDigit, c.isDigit := fun _ =>
    List.all_eq_true.mp List.all_takeWhile
  -- what is taken and what is dropped make up the text
  have h_s : s.takeWhile Char.isDigit ++ s.dropWhile Char.isDigit = s :=
    List.takeWhile_append_dropWhile
  unfold mantissa
  dsimp only
  split
  · next rest h_rest =>
    refine ⟨_, _, _, rfl, h_digits s, h_digits rest, .inr ?_⟩
    rw [List.takeWhile_append_dropWhile, ← h_rest, h_s]
  · exact ⟨_, _, _, rfl, h_digits s, fun _ h_c => absurd h_c List.not_mem_nil, .inl ⟨h_s.symm, rfl⟩⟩

section Digits

variable {whole fraction rest : List Char} (h_whole : ∀ c ∈ whole, c.isDigit)

include h_whole

/-- A run of digits ends where something else follows. -/
theorem span_digits (h_rest : ¬ rest.head?.any Char.isDigit) :
    (whole ++ rest).takeWhile Char.isDigit = whole ∧
      (whole ++ rest).dropWhile Char.isDigit = rest := by
  rw [List.takeWhile_append_of_pos h_whole, List.dropWhile_append_of_pos h_whole]
  cases rest with
  | nil => exact ⟨List.append_nil whole, rfl⟩
  | cons c rest =>
    have h_c : ¬ c.isDigit := h_rest
    rw [List.takeWhile_cons_of_neg h_c, List.dropWhile_cons_of_neg h_c]
    exact ⟨List.append_nil whole, rfl⟩

/-- Digits without a point. -/
theorem mantissa_whole (h_rest : ¬ rest.head?.any isMantissaChar) :
    mantissa (whole ++ rest) = (whole, [], rest) := by
  obtain ⟨h_take, h_drop⟩ := span_digits h_whole (not_isDigit_of_not_isMantissaChar h_rest)
  unfold mantissa
  rw [h_take, h_drop]
  dsimp only
  split
  · exact absurd rfl h_rest
  · rfl

/-- Digits around a point. -/
theorem mantissa_point (h_fraction : ∀ c ∈ fraction, c.isDigit)
    (h_rest : ¬ rest.head?.any Char.isDigit) :
    mantissa (whole ++ '.' :: (fraction ++ rest)) = (whole, fraction, rest) := by
  have h_point : ¬ ('.' :: (fraction ++ rest)).head?.any Char.isDigit :=
    show ¬ '.'.isDigit by decide
  unfold mantissa
  simp only [span_digits h_whole h_point, span_digits h_fraction h_rest]

end Digits

/-- The mantissa is split off a text. It is not empty if it has a digit. -/
theorem exists_mantissa (s : List Char) :
    ∃ digits, (∀ c ∈ digits, isMantissaChar c) ∧ s = digits ++ (mantissa s).2.2 ∧
      ((mantissa s).1 ++ (mantissa s).2.1 ≠ [] → digits ≠ []) := by
  obtain ⟨whole, fraction, rest, h_eq, h_whole, h_fraction, h_s⟩ := mantissa_cases s
  rw [h_eq]
  rcases h_s with ⟨h_s, rfl⟩ | h_s
  · exact ⟨whole, fun c h_c => isMantissaChar_of_isDigit (h_whole c h_c), h_s, by simp⟩
  · -- a point follows the whole part, and more digits may follow it
    refine ⟨whole ++ '.' :: fraction, ?_, by simpa using h_s, by simp⟩
    intro c h_c
    rcases List.mem_append.mp h_c with h_c | h_c
    · exact isMantissaChar_of_isDigit (h_whole c h_c)
    rcases List.mem_cons.mp h_c with rfl | h_c
    · rfl
    · exact isMantissaChar_of_isDigit (h_fraction c h_c)

/-- An exponent is missing, or it is an `e`, a sign or none, and at least one digit. -/
theorem exponentPart?_eq_some {s : List Char} {n : Int} (h : exponentPart? s = some n) :
    s = [] ∨ ∃ e mark digits, s = e :: (mark ++ digits) ∧ (e = 'e' ∨ e = 'E') ∧ IsSign mark ∧
      digits ≠ [] ∧ ∀ c ∈ digits, c.isDigit := by
  cases s with
  | nil => exact .inl rfl
  | cons e rest =>
    obtain ⟨mark, h_mark, h_rest⟩ := exists_isSign rest
    by_cases h_read : (e == 'e' || e == 'E') && !(sign rest).2.isEmpty &&
        (sign rest).2.all Char.isDigit
    · simp only [Bool.and_eq_true, Bool.or_eq_true, beq_iff_eq, Bool.not_eq_true',
        List.isEmpty_eq_false_iff, List.all_eq_true] at h_read
      exact .inr ⟨e, mark, (sign rest).2, by rw [← h_rest], h_read.1.1, h_mark, h_read.1.2,
        h_read.2⟩
    · -- anything else is refused
      have h_none : exponentPart? (e :: rest) = none := if_neg h_read
      exact absurd (h_none.symm.trans h) (by simp)

/-- The reader without its local names: sign, mantissa and exponent are projections, which is the
form that the lemmas about them rewrite. -/
theorem literal_parse?_eq (s : List Char) :
    Literal.parse? s =
      if ((mantissa (sign s).2).1 ++ (mantissa (sign s).2).2.1).isEmpty then none
      else (exponentPart? (mantissa (sign s).2).2.2).map fun exponent =>
        { negative := (sign s).1
          coefficient := digitsValue ((mantissa (sign s).2).1 ++ (mantissa (sign s).2).2.1)
          width := ((mantissa (sign s).2).1 ++ (mantissa (sign s).2).2.1).length
          exponent := exponent - (mantissa (sign s).2).2.1.length } := rfl

/-- **Every text that is read as a literal is spelt like one.** -/
theorem spelling_of_parse? {s : List Char} (h : (parse? s).isSome) : Spelling s := by
  obtain ⟨mark, h_mark, h_s⟩ := exists_isSign s
  obtain ⟨digits, h_digits, h_unsigned, h_ne⟩ := exists_mantissa (sign s).2
  rw [parse?, Option.isSome_map, literal_parse?_eq] at h
  split at h
  · exact absurd h (by simp)
  · next h_some =>
    rw [Option.isSome_map, Option.isSome_iff_exists] at h
    obtain ⟨n, h_exponent⟩ := h
    have h_ne := h_ne (by simpa only [List.isEmpty_iff] using h_some)
    -- what is left after the mantissa decides between the two forms
    rcases exponentPart?_eq_some h_exponent with h_none | ⟨e, mark', ds, h_tail, h_e, h_sign, h_ds⟩
    · rw [h_s, h_unsigned, h_none, List.append_nil]
      exact .plain h_mark h_ne h_digits
    · rw [h_s, h_unsigned, h_tail]
      exact .scaled h_mark h_ne h_digits h_e h_sign h_ds.1 h_ds.2

/-! ### The characters of a literal -/

/-- After a sign everything belongs to what the sign stands before. -/
theorem IsSign.eq_nil_or_mem {mark t l r : List Char} {c : Char} (h_mark : IsSign mark)
    (h : mark ++ t = l ++ c :: r) : l = [] ∨ c ∈ t := by
  cases l with
  | nil => exact .inl rfl
  | cons d l =>
    refine .inr ?_
    -- a mark is at most one character long, and `d` stands in its place
    rcases h_mark with rfl | rfl | rfl
    · rw [List.nil_append] at h
      simp [h]
    · rw [List.singleton_append, List.cons_append, List.cons.injEq] at h
      simp [h.2]
    · rw [List.singleton_append, List.cons_append, List.cons.injEq] at h
      simp [h.2]

namespace Spelling

variable {s : List Char}

/-- A literal ends with a digit or a point. -/
theorem isMantissaChar_getLast (h : Spelling s) : s.getLast?.any isMantissaChar := by
  cases h with
  | plain h_mark h_ne h_digits =>
    rw [List.getLast?_append, List.getLast?_eq_some_getLast h_ne]
    exact h_digits _ (List.getLast_mem h_ne)
  | @scaled mark digits e sign exponent h_mark h_ne h_digits h_e h_sign h_exponent_ne h_exponent =>
    rw [show mark ++ (digits ++ e :: (sign ++ exponent)) =
      (mark ++ digits ++ e :: sign) ++ exponent by simp,
      List.getLast?_append, List.getLast?_eq_some_getLast h_exponent_ne]
    exact isMantissaChar_of_isDigit (h_exponent _ (List.getLast_mem h_exponent_ne))

/-- The characters of a literal: digits and points, signs, and the `e` of an exponent. -/
theorem mem_cases (h : Spelling s) {c : Char} (hc : c ∈ s) :
    isMantissaChar c ∨ c ∈ ['+', '-', 'e', 'E'] := by
  have h_sign : ∀ {mark : List Char}, IsSign mark → ∀ d ∈ mark, d ∈ ['+', '-', 'e', 'E'] := by
    rintro mark (rfl | rfl | rfl) <;> simp
  cases h with
  | plain h_mark h_ne h_digits =>
    rcases List.mem_append.mp hc with hc | hc
    · exact .inr (h_sign h_mark c hc)
    · exact .inl (h_digits c hc)
  | scaled h_mark h_ne h_digits h_e h_exponent_sign h_exponent_ne h_exponent =>
    rcases List.mem_append.mp hc with hc | hc
    · exact .inr (h_sign h_mark c hc)
    rcases List.mem_append.mp hc with hc | hc
    · exact .inl (h_digits c hc)
    rcases List.mem_cons.mp hc with rfl | hc
    · rcases h_e with rfl | rfl <;> exact .inr (by decide)
    rcases List.mem_append.mp hc with hc | hc
    · exact .inr (h_sign h_exponent_sign c hc)
    · exact .inl (isMantissaChar_of_isDigit (h_exponent c hc))

/-- No character of a literal opens or closes anything. -/
theorem ne_of_mem (h : Spelling s) {c : Char} (hc : c ∈ s) : c ≠ '"' ∧ c ≠ '(' ∧ c ≠ ')' := by
  refine ⟨?_, ?_, ?_⟩ <;>
    (rintro rfl; exact absurd (h.mem_cases hc) (by decide))

/-- A literal starts with a digit or a point, or with a sign that is followed by one. -/
theorem head_of_not_isMantissaChar {c : Char} (h : Spelling (c :: s)) (hc : ¬ isMantissaChar c) :
    (c = '+' ∨ c = '-') ∧ s.head?.any isMantissaChar := by
  -- the two forms start alike, so one argument serves for both
  have h_start : ∀ {mark digits tail : List Char}, IsSign mark → digits ≠ [] →
      (∀ d ∈ digits, isMantissaChar d) → c :: s = mark ++ (digits ++ tail) →
      (c = '+' ∨ c = '-') ∧ s.head?.any isMantissaChar := by
    intro mark digits tail h_mark h_ne h_digits h_eq
    obtain ⟨d, ds, rfl⟩ := List.exists_cons_of_ne_nil h_ne
    have h_d : isMantissaChar d := h_digits d List.mem_cons_self
    rcases h_mark with rfl | rfl | rfl
    · rw [List.nil_append, List.cons_append, List.cons.injEq] at h_eq
      exact absurd (h_eq.1 ▸ h_d) hc
    · rw [List.singleton_append, List.cons_append, List.cons.injEq] at h_eq
      refine ⟨.inl h_eq.1, ?_⟩
      rw [h_eq.2]
      exact h_d
    · rw [List.singleton_append, List.cons_append, List.cons.injEq] at h_eq
      refine ⟨.inr h_eq.1, ?_⟩
      rw [h_eq.2]
      exact h_d
  generalize h_eq : c :: s = t at h
  cases h with
  | plain h_mark h_ne h_digits =>
    exact h_start h_mark h_ne h_digits (h_eq.trans (by rw [List.append_nil]))
  | scaled h_mark h_ne h_digits => exact h_start h_mark h_ne h_digits h_eq

/-- **What stands before a sign in a literal is no literal.** It is empty, or it ends in the `e` of
an exponent. -/
theorem eq_of_sign {l r : List Char} {c : Char} (h : Spelling (l ++ c :: r))
    (hc : ¬ isMantissaChar c) (h_e : c ≠ 'e' ∧ c ≠ 'E') :
    l = [] ∨ ∃ mark digits e, l = mark ++ (digits ++ [e]) ∧ IsSign mark ∧ digits ≠ [] ∧
      (∀ d ∈ digits, isMantissaChar d) ∧ (e = 'e' ∨ e = 'E') := by
  generalize h_eq : l ++ c :: r = t at h
  cases h with
  | plain h_mark h_ne h_digits =>
    -- among digits there is no sign
    refine .inl ((h_mark.eq_nil_or_mem h_eq.symm).resolve_right fun h_mem => ?_)
    exact hc (h_digits c h_mem)
  | @scaled mark digits e sign exponent h_mark h_ne h_digits h_e' h_sign h_exponent_ne h_exponent =>
    rw [show mark ++ (digits ++ e :: (sign ++ exponent)) =
      (mark ++ (digits ++ [e])) ++ (sign ++ exponent) by simp] at h_eq
    rcases Scan.append_eq_append_cons h_eq.symm with ⟨r', h_front⟩ | ⟨l', rfl, h_back⟩
    · -- the sign stands in the mantissa, so at its very start
      refine .inl ((h_mark.eq_nil_or_mem h_front).resolve_right fun h_mem => ?_)
      rcases List.mem_append.mp h_mem with h_mem | h_mem
      · exact hc (h_digits c h_mem)
      · rcases h_e' with rfl | rfl
        · exact h_e.1 (List.mem_singleton.mp h_mem)
        · exact h_e.2 (List.mem_singleton.mp h_mem)
    · -- or in the exponent, and then right after the `e`
      rcases h_sign.eq_nil_or_mem h_back with rfl | h_mem
      · exact .inr ⟨mark, digits, e, List.append_nil _, h_mark, h_ne, h_digits, h_e'⟩
      · exact absurd (isMantissaChar_of_isDigit (h_exponent c h_mem)) hc

/-- A literal has a last character, so it is not empty. -/
theorem ne_nil (h : Spelling s) : s ≠ [] := by
  rintro rfl
  exact absurd h.isMantissaChar_getLast Bool.false_ne_true

end Spelling

/-- A text that starts with anything but a digit, a point or a sign is no literal. -/
theorem parse?_eq_none {c : Char} {s : List Char} (hc : ¬ isMantissaChar c)
    (h_sign : c ≠ '+' ∧ c ≠ '-') : parse? (c :: s) = none := by
  rw [Option.eq_none_iff_forall_not_mem]
  intro x h_x
  have h_spelling : Spelling (c :: s) := spelling_of_parse? (by rw [h_x]; rfl)
  rcases (h_spelling.head_of_not_isMantissaChar hc).1 with h_plus | h_minus
  · exact h_sign.1 h_plus
  · exact h_sign.2 h_minus

/-- A minus sign before a literal without a sign goes into the literal. -/
theorem literal_parse?_cons_minus {s : List Char} (h : sign s = (false, s)) :
    ∃ read : Option Literal, Literal.parse? s = read.map ({ · with negative := false }) ∧
      Literal.parse? ('-' :: s) = read.map ({ · with negative := true }) := by
  have h_minus : sign ('-' :: s) = (true, s) := rfl
  refine ⟨Literal.parse? s, ?_, ?_⟩
  · rw [literal_parse?_eq, h]
    split
    · rfl
    · rw [Option.map_map]
      rfl
  · rw [literal_parse?_eq, literal_parse?_eq, h, h_minus]
    split
    · rfl
    · rw [Option.map_map]
      rfl

/-- A literal after a minus sign is read as the negative of the literal alone. -/
theorem parse?_cons_minus {s : List Char} {x : Float} (h : parse? ('-' :: s) = some x) :
    ∃ y, parse? s = some y ∧ x = -y := by
  have h_spelling : Spelling ('-' :: s) := spelling_of_parse? (by rw [h]; rfl)
  have h_head := (h_spelling.head_of_not_isMantissaChar (by decide)).2
  -- the text after the sign starts with a digit or a point, so it has no sign of its own
  obtain ⟨read, h_alone, h_minus⟩ := literal_parse?_cons_minus (sign_of_head? h_head)
  rw [parse?, h_minus, Option.map_map, Option.map_eq_some_iff] at h
  obtain ⟨l, rfl, rfl⟩ := h
  refine ⟨({ l with negative := false } : Literal).value, ?_, (neg_value l).symm⟩
  rw [parse?, h_alone]
  rfl

end LineScript.Number
