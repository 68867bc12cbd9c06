import LineScript.Proofs.Number.Doubles

/-!
# The language of number literals

The reader says which texts are literals by taking texts apart. Here the same language is built up.
A `Numeral` has the parts that a literal is made of and no others: a sign, digits and a point, and a
power of ten. Its text is put together from theirs, and the rational number that it denotes comes
from its digits alone, without the reader.

The reader finds the parts of a numeral again, because each part ends where the next one starts: no
digit or point follows a mantissa, and no sign starts one. The other way around, the parts that it
takes off a text it accepts make up a numeral with that text.

* `Numeral.literal_parse?_text`: what the reader makes of the text of a numeral;
* `exists_text_eq`: every text that is read is the text of a numeral;
* `Numeral.applySign_literal`, `Numeral.exists_roundsTo`: the fraction that is rounded is the number
  that the numeral denotes;
* `Numeral.sign_of_operator`: an operator in a literal is one of its two signs;
* `numerals_exact`: **number literals are the texts of numerals, and each is read as the double
  nearest to what it denotes**.
-/

namespace LineScript.Number

/-! ### Numerals -/

namespace Numeral

/-- The text of decimal digits. -/
def spell (digits : List (Fin 10)) : List Char :=
  digits.map fun d : Fin 10 => Nat.digitChar d

/-- The whole number that decimal digits denote. -/
def count : List (Fin 10) → Nat
  | [] => 0
  | d :: rest => d * 10 ^ rest.length + count rest

/-- One or more decimal digits. -/
structure Run where
  /-- The digits, from left to right. -/
  digits : List (Fin 10)
  /-- There is a digit. -/
  ne_nil : digits ≠ []

/-- A sign, or none. -/
inductive Mark where
  | absent
  | plus
  | minus
deriving DecidableEq

namespace Mark

/-- The text of a mark. -/
def text : Mark → List Char
  | absent => []
  | plus => ['+']
  | minus => ['-']

/-- What a mark multiplies by. A plus sign says nothing. -/
def factor : Mark → ℤ
  | absent => 1
  | plus => 1
  | minus => -1

end Mark

/-- The digits of a literal and its point. -/
inductive Mantissa where
  /-- Digits alone, as in `12`. -/
  | plain (whole : Run)
  /-- Digits, a point, and further digits if there are any, as in `0.5` and `5.`. -/
  | pointed (whole : Run) (fraction : List (Fin 10))
  /-- A point and digits, as in `.25`. -/
  | bare (fraction : Run)

namespace Mantissa

/-- The text of a mantissa. -/
def text : Mantissa → List Char
  | plain whole => spell whole.digits
  | pointed whole fraction => spell whole.digits ++ '.' :: spell fraction
  | bare fraction => '.' :: spell fraction.digits

/-- The digits before the point. -/
def whole : Mantissa → List (Fin 10)
  | plain whole => whole.digits
  | pointed whole _ => whole.digits
  | bare _ => []

/-- The digits behind the point. -/
def fraction : Mantissa → List (Fin 10)
  | plain _ => []
  | pointed _ fraction => fraction
  | bare fraction => fraction.digits

/-- The number that a mantissa denotes: the digits behind the point count for less by one power of
ten each. -/
def value (m : Mantissa) : ℚ :=
  count m.whole + count m.fraction / 10 ^ m.fraction.length

end Mantissa

/-- The power of ten at the end of a literal, as in `1e-3` and `2E07`. -/
structure Power where
  /-- The letter is `E`. -/
  capital : Bool
  /-- The sign of the exponent. -/
  mark : Mark
  /-- The digits of the exponent. -/
  places : Run

namespace Power

/-- The letter in front of the exponent. -/
def letter (p : Power) : Char :=
  if p.capital then 'E' else 'e'

/-- The text of a power of ten: letter, sign and digits. -/
def text (p : Power) : List Char :=
  p.letter :: (p.mark.text ++ spell p.places.digits)

/-- The exponent itself. -/
def value (p : Power) : ℤ :=
  p.mark.factor * count p.places.digits

end Power

end Numeral

/-- A number literal, taken apart. -/
structure Numeral where
  /-- The sign of the number. -/
  mark : Numeral.Mark
  /-- Its digits, with their point. -/
  mantissa : Numeral.Mantissa
  /-- The power of ten that it is scaled by, if one is written. -/
  power : Option Numeral.Power

namespace Numeral

/-- The text of a numeral: its parts, with nothing before, between or after them. -/
def text (n : Numeral) : List Char :=
  n.mark.text ++ (n.mantissa.text ++ n.power.elim [] Power.text)

/-- The exponent of the power of ten. -/
def exponent (n : Numeral) : ℤ :=
  n.power.elim 0 Power.value

/-- The rational number that a numeral denotes. -/
def value (n : Numeral) : ℚ :=
  n.mark.factor * n.mantissa.value * 10 ^ n.exponent

/-! ### Digits -/

/-- The ten digits are spelt by digits. -/
theorem isDigit_of_mem_spell {digits : List (Fin 10)} : ∀ c ∈ spell digits, c.isDigit := by
  intro c h_c
  obtain ⟨d, -, rfl⟩ := List.mem_map.mp h_c
  have h_digits : ∀ d : Fin 10, (Nat.digitChar d).isDigit := by decide
  exact h_digits d

/-- One character to a digit. -/
theorem length_spell (digits : List (Fin 10)) : (spell digits).length = digits.length :=
  List.length_map _

/-- Digits are spelt one after the other. -/
theorem spell_append (front back : List (Fin 10)) :
    spell (front ++ back) = spell front ++ spell back :=
  List.map_append

/-- The reader computes the number that the digits denote. -/
theorem digitsValue_spell (digits : List (Fin 10)) : digitsValue (spell digits) = count digits := by
  induction digits with
  | nil => rfl
  | cons d rest ih =>
    have h_digit : ∀ d : Fin 10, digitsValue [Nat.digitChar d] = d := by decide
    -- the first digit counts for as many tens as there are digits after it, in both definitions
    calc digitsValue ([Nat.digitChar d] ++ spell rest)
        = Nat.pow 10 (spell rest).length * digitsValue [Nat.digitChar d] +
            digitsValue (spell rest) := digitsValue_append _ _
      _ = Nat.pow 10 rest.length * d + count rest := by rw [length_spell, h_digit, ih]
      _ = d * 10 ^ rest.length + count rest := congrArg (· + count rest) (Nat.mul_comm _ _)

/-- Every run of digits is spelt by digits. -/
theorem exists_spell_eq {s : List Char} (h : ∀ c ∈ s, c.isDigit) : ∃ digits, spell digits = s := by
  induction s with
  | nil => exact ⟨[], rfl⟩
  | cons c rest ih =>
    obtain ⟨digits, rfl⟩ := ih fun d h_d => h d (List.mem_cons_of_mem c h_d)
    -- a digit is told by its code, which lies between those of `0` and `9`
    have h_range : '0'.toNat ≤ c.toNat ∧ c.toNat ≤ '9'.toNat :=
      Char.isDigit_iff_toNat.mp (h c List.mem_cons_self)
    have h_zero : '0'.toNat = 48 := rfl
    have h_nine : '9'.toNat = 57 := rfl
    have h_codes : ∀ d : Fin 10, (Nat.digitChar d).toNat = 48 + d := by decide
    refine ⟨⟨c.toNat - 48, by omega⟩ :: digits, congrArg (· :: spell digits) ?_⟩
    refine Char.toNat_inj.mp ((h_codes _).trans ?_)
    change 48 + (c.toNat - 48) = c.toNat
    omega

/-- A run is spelt by at least one character. -/
theorem Run.spell_ne_nil (run : Run) : spell run.digits ≠ [] :=
  mt List.map_eq_nil_iff.mp run.ne_nil

/-- Digits that are not empty are the text of a run. -/
theorem Run.exists_spell_eq {s : List Char} (h_ne : s ≠ []) (h : ∀ c ∈ s, c.isDigit) :
    ∃ run : Run, spell run.digits = s := by
  obtain ⟨digits, rfl⟩ := Numeral.exists_spell_eq h
  exact ⟨⟨digits, mt (congrArg spell) h_ne⟩, rfl⟩

/-! ### The parts are found again -/

/-- What the reader takes for a sign is the text of a mark. -/
theorem Mark.exists_text_eq {s : List Char} (h : IsSign s) : ∃ mark : Mark, mark.text = s := by
  rcases h with rfl | rfl | rfl
  · exact ⟨.absent, rfl⟩
  · exact ⟨.plus, rfl⟩
  · exact ⟨.minus, rfl⟩

/-- The mark is split off again from a text that starts with digits or a point. -/
theorem Mark.sign_text (mark : Mark) {s : List Char} (h : s.head?.any isMantissaChar) :
    sign (mark.text ++ s) = (decide (mark = .minus), s) := by
  cases mark with
  | absent => exact sign_of_head? h
  | plus => rfl
  | minus => rfl

/-- What starts with a run starts with a digit. -/
theorem Run.head?_spell (run : Run) (rest : List Char) :
    (spell run.digits ++ rest).head?.any isMantissaChar := by
  obtain ⟨c, tail, h_eq⟩ := List.exists_cons_of_ne_nil run.spell_ne_nil
  have h_c : c.isDigit := isDigit_of_mem_spell c (h_eq ▸ List.mem_cons_self)
  rw [h_eq]
  exact isMantissaChar_of_isDigit h_c

namespace Mantissa

/-- A mantissa starts with a digit or a point, so no sign is seen there. -/
theorem head?_text (m : Mantissa) (rest : List Char) :
    (m.text ++ rest).head?.any isMantissaChar := by
  cases m with
  | plain whole => exact whole.head?_spell rest
  | pointed whole fraction =>
    rw [text, List.append_assoc]
    exact whole.head?_spell _
  | bare fraction => rfl

/-- A mantissa is made of digits and points. -/
theorem isMantissaChar_of_mem_text {m : Mantissa} : ∀ c ∈ m.text, isMantissaChar c := by
  have h_spell : ∀ digits, ∀ c ∈ spell digits, isMantissaChar c := fun _ c h_c =>
    isMantissaChar_of_isDigit (isDigit_of_mem_spell c h_c)
  cases m with
  | plain whole => exact h_spell whole.digits
  | pointed whole fraction =>
    exact List.forall_mem_append.mpr ⟨h_spell _, List.forall_mem_cons.mpr ⟨rfl, h_spell _⟩⟩
  | bare fraction => exact List.forall_mem_cons.mpr ⟨rfl, h_spell _⟩

/-- The mantissa is split off again from a text that goes on with anything but digits and points. -/
theorem mantissa_text (m : Mantissa) {rest : List Char} (h : ¬ rest.head?.any isMantissaChar) :
    Number.mantissa (m.text ++ rest) = (spell m.whole, spell m.fraction, rest) := by
  -- what follows is no digit either, so the last run of digits ends where the mantissa does
  have h_digit : ¬ rest.head?.any Char.isDigit := not_isDigit_of_not_isMantissaChar h
  cases m with
  | plain whole => exact mantissa_whole isDigit_of_mem_spell h
  | pointed whole fraction =>
    rw [text, List.append_assoc]
    exact mantissa_point isDigit_of_mem_spell isDigit_of_mem_spell h_digit
  | bare fraction =>
    -- without digits before the point the whole part is the empty run
    have h_none : ∀ c ∈ spell [], c.isDigit := isDigit_of_mem_spell
    exact mantissa_point h_none isDigit_of_mem_spell h_digit

/-- A mantissa has a digit before its point or behind it. -/
theorem ne_nil (m : Mantissa) : m.whole ++ m.fraction ≠ [] := by
  cases m with
  | plain whole => exact List.append_ne_nil_of_left_ne_nil whole.ne_nil _
  | pointed whole fraction => exact List.append_ne_nil_of_left_ne_nil whole.ne_nil _
  | bare fraction => exact fraction.ne_nil

end Mantissa

/-- The letter is one of the two. -/
theorem Power.letter_cases (p : Power) : p.letter = 'e' ∨ p.letter = 'E' := by
  unfold letter
  split
  · exact .inr rfl
  · exact .inl rfl

/-- The reader finds the exponent in the text of a power. -/
theorem Power.exponentPart?_text (p : Power) : exponentPart? p.text = some p.value := by
  -- the digits of the exponent start with no sign, so its own sign is the only one taken off
  have h_head : (spell p.places.digits).head?.any isMantissaChar := by
    have h_start := p.places.head?_spell []
    rwa [List.append_nil] at h_start
  have h_digits : (spell p.places.digits).all Char.isDigit :=
    List.all_eq_true.mpr isDigit_of_mem_spell
  have h_ne : (spell p.places.digits).isEmpty = false :=
    List.isEmpty_eq_false_iff.mpr p.places.spell_ne_nil
  rw [text, exponentPart?, p.mark.sign_text h_head]
  dsimp only
  rw [if_pos (by simpa [h_digits, h_ne] using p.letter_cases), digitsValue_spell, value]
  cases p.mark <;> simp [Mark.factor]

variable (n : Numeral)

/-- What follows a mantissa, nothing or the letter of a power, is no part of it. -/
theorem head?_power : ¬ (n.power.elim [] Power.text).head?.any isMantissaChar := by
  cases n.power with
  | none => exact Bool.false_ne_true
  | some p =>
    change ¬ isMantissaChar p.letter
    rcases p.letter_cases with h | h <;> rw [h] <;> decide

/-- What the reader makes of a numeral. -/
def literal : Literal where
  negative := n.mark = .minus
  coefficient := count (n.mantissa.whole ++ n.mantissa.fraction)
  width := (n.mantissa.whole ++ n.mantissa.fraction).length
  exponent := n.exponent - n.mantissa.fraction.length

/-- The reader finds every part of a numeral again, and so reads the literal that belongs to it. -/
theorem literal_parse?_text : Literal.parse? n.text = some n.literal := by
  have h_power : exponentPart? (n.power.elim [] Power.text) = some n.exponent := by
    unfold exponent
    cases n.power with
    | none => rfl
    | some p => exact p.exponentPart?_text
  have h_ne : spell n.mantissa.whole ++ spell n.mantissa.fraction ≠ [] := by
    rw [← spell_append]
    exact mt List.map_eq_nil_iff.mp n.mantissa.ne_nil
  rw [literal_parse?_eq, text, n.mark.sign_text (n.mantissa.head?_text _),
    n.mantissa.mantissa_text n.head?_power, if_neg (mt List.isEmpty_iff.mp h_ne), h_power,
    ← spell_append, digitsValue_spell, length_spell, length_spell]
  rfl

end Numeral

/-! ### Every text that is read has the parts -/

/-- What the reader takes for a mantissa is the text of one, provided that there is a digit in it.
-/
theorem Numeral.Mantissa.exists_text_eq {s whole fraction rest : List Char}
    (h_whole : ∀ c ∈ whole, c.isDigit) (h_fraction : ∀ c ∈ fraction, c.isDigit)
    (h_ne : whole ++ fraction ≠ [])
    (h : s = whole ++ rest ∧ fraction = [] ∨ s = whole ++ '.' :: (fraction ++ rest)) :
    ∃ m : Mantissa, m.text ++ rest = s := by
  rcases h with ⟨rfl, rfl⟩ | rfl
  · rw [List.append_nil] at h_ne
    obtain ⟨run, rfl⟩ := Run.exists_spell_eq h_ne h_whole
    exact ⟨.plain run, rfl⟩
  by_cases h_bare : whole = []
  · -- without digits before the point there are some behind it
    subst h_bare
    obtain ⟨run, rfl⟩ := Run.exists_spell_eq h_ne h_fraction
    exact ⟨.bare run, rfl⟩
  · obtain ⟨run, rfl⟩ := Run.exists_spell_eq h_bare h_whole
    obtain ⟨digits, rfl⟩ := Numeral.exists_spell_eq h_fraction
    exact ⟨.pointed run digits, List.append_assoc _ _ _⟩

/-- What the reader takes for an exponent is the text of a power, or nothing. -/
theorem Numeral.Power.exists_text_eq {s : List Char} {exponent : Int}
    (h : exponentPart? s = some exponent) : ∃ p : Option Power, p.elim [] text = s := by
  rcases exponentPart?_eq_some h with
    rfl | ⟨e, mark, digits, rfl, h_e, h_mark, h_ne, h_digits⟩
  · exact ⟨none, rfl⟩
  · obtain ⟨mark, rfl⟩ := Mark.exists_text_eq h_mark
    obtain ⟨run, rfl⟩ := Run.exists_spell_eq h_ne h_digits
    rcases h_e with rfl | rfl
    · exact ⟨some ⟨false, mark, run⟩, rfl⟩
    · exact ⟨some ⟨true, mark, run⟩, rfl⟩

/-- Every text that is read is the text of a numeral. -/
theorem exists_text_eq {s : List Char} (h : (parse? s).isSome) : ∃ n : Numeral, n.text = s := by
  obtain ⟨mark, h_mark, h_s⟩ := exists_isSign s
  obtain ⟨whole, fraction, rest, h_mantissa, h_whole, h_fraction, h_unsigned⟩ :=
    mantissa_cases (sign s).2
  rw [parse?, Option.isSome_map, literal_parse?_eq, h_mantissa] at h
  dsimp only at h
  split at h
  · exact absurd h Bool.false_ne_true
  next h_some =>
  rw [Option.isSome_map, Option.isSome_iff_exists] at h
  obtain ⟨exponent, h_exponent⟩ := h
  have h_ne : whole ++ fraction ≠ [] := mt List.isEmpty_iff.mpr h_some
  -- each of the three parts that were taken off is the text of a part of a numeral
  obtain ⟨mark, rfl⟩ := Numeral.Mark.exists_text_eq h_mark
  obtain ⟨mantissa, h_text⟩ :=
    Numeral.Mantissa.exists_text_eq h_whole h_fraction h_ne h_unsigned
  obtain ⟨power, h_power⟩ := Numeral.Power.exists_text_eq h_exponent
  refine ⟨⟨mark, mantissa, power⟩, ?_⟩
  rw [Numeral.text, h_power, h_text, ← h_s]

/-! ### What is denoted -/

namespace Numeral

variable (n : Numeral)

/-- Digits in front of others count for as many tens as there are others. -/
theorem count_append (front back : List (Fin 10)) :
    count (front ++ back) = 10 ^ back.length * count front + count back := by
  rw [← digitsValue_spell, spell_append, digitsValue_append, digitsValue_spell, digitsValue_spell,
    length_spell]
  rfl

/-- An exponent of either sign as a fraction of two powers. -/
theorem ten_zpow_eq (exponent : ℤ) :
    (10 : ℚ) ^ exponent = 10 ^ exponent.toNat / 10 ^ (-exponent).toNat := by
  have h_exponent : exponent = (exponent.toNat : ℤ) - ((-exponent).toNat : ℤ) :=
    (Int.toNat_sub_toNat_neg exponent).symm
  conv_lhs => rw [h_exponent]
  rw [zpow_sub₀ (by norm_num), zpow_natCast, zpow_natCast]

/-- **The fraction that is rounded is the number that the numeral denotes.** -/
theorem applySign_literal :
    applySign n.literal.negative
      (((n.literal.coefficient * Nat.pow 10 n.literal.exponent.toNat : Nat) : ℚ) /
        (Nat.pow 10 (-n.literal.exponent).toNat : Nat)) = n.value := by
  have h_ten : (10 : ℚ) ≠ 0 := by norm_num
  have h_cast : ∀ k : Nat, ((Nat.pow 10 k : Nat) : ℚ) = 10 ^ k := fun k => by
    exact_mod_cast (Nat.cast_pow 10 k)
  -- the digits without their point: the mantissa, scaled by the places behind the point
  have h_coefficient : (n.literal.coefficient : ℚ) =
      n.mantissa.value * 10 ^ n.mantissa.fraction.length := by
    have h_pow : (10 : ℚ) ^ n.mantissa.fraction.length ≠ 0 := pow_ne_zero _ h_ten
    rw [literal, count_append, Mantissa.value, add_mul, div_mul_cancel₀ _ h_pow]
    push_cast
    ring
  -- the reader takes these places off the exponent, so the scaling cancels out
  have h_magnitude : (n.literal.coefficient : ℚ) * 10 ^ n.literal.exponent.toNat /
      10 ^ (-n.literal.exponent).toNat = n.mantissa.value * 10 ^ n.exponent := by
    rw [mul_div_assoc, ← ten_zpow_eq, h_coefficient, mul_assoc, ← zpow_natCast, ← zpow_add₀ h_ten]
    congr 2
    exact add_sub_cancel _ _
  rw [Nat.cast_mul, h_cast, h_cast, h_magnitude, value, mul_assoc]
  unfold applySign literal
  cases n.mark <;> simp [Mark.factor]

/-- The digits of a literal spell no more than so many digits can, so the shortcuts of the reader
are sound for it. -/
theorem value_literal :
    n.literal.value = nearest n.literal.negative
      (n.literal.coefficient * Nat.pow 10 n.literal.exponent.toNat)
      (Nat.pow 10 (-n.literal.exponent).toNat) := by
  refine Literal.value_eq_nearest n.literal ?_
  change count _ < _
  rw [← digitsValue_spell, literal, ← length_spell]
  exact digitsValue_lt isDigit_of_mem_spell

/-- The text of a numeral is read as the double nearest to what it denotes. -/
theorem exists_roundsTo :
    ∃ x, parse? n.text = some x ∧ RoundsTo n.value x ∧
      (2 ^ 63 ≤ x.toBits.toNat ↔ n.mark = .minus) := by
  refine ⟨n.literal.value, by rw [parse?, n.literal_parse?_text, Option.map_some], ?_, ?_⟩
  · rw [value_literal, ← applySign_literal]
    exact roundsTo_nearest _ _ (ten_pow_pos _)
  · rw [value_literal, signBit_nearest]
    exact decide_eq_true_iff

/-! ### The operators in a literal -/

/-- A mark is at most one character long. -/
theorem Mark.eq_of_text_eq {mark : Mark} {l r : List Char} {c : Char}
    (h : mark.text = l ++ c :: r) : l = [] ∧ mark.text = [c] := by
  have h_short : mark.text.length ≤ 1 := by cases mark <;> decide
  rw [h, List.length_append, List.length_cons] at h_short
  obtain rfl : l = [] := List.length_eq_zero_iff.mp (by omega)
  obtain rfl : r = [] := List.length_eq_zero_iff.mp (by omega)
  exact ⟨rfl, h⟩

/-- Before characters of another kind, a character of the mark is the mark itself. -/
theorem Mark.eq_of_append_eq {mark : Mark} {s l r : List Char} {c : Char} (h_s : c ∉ s)
    (h : mark.text ++ s = l ++ c :: r) : l = [] ∧ mark.text = [c] := by
  rcases Scan.append_eq_append_cons h with ⟨r', h_mark⟩ | ⟨l', -, rfl⟩
  · exact Mark.eq_of_text_eq h_mark
  · exact absurd (List.mem_append_right l' List.mem_cons_self) h_s

/-- **An operator in a literal is its sign or the sign of its exponent.** -/
theorem sign_of_operator {o : Calculation} {c : Char} (h_c : c ∈ o.operator) {l r : List Char}
    (h : n.text = l ++ c :: r) :
    (l = [] ∧ n.mark.text = [c]) ∨ ∃ p, n.power = some p ∧ p.mark.text = [c] ∧
      l = n.mark.text ++ (n.mantissa.text ++ [p.letter]) := by
  obtain ⟨h_run, -, -, h_e⟩ :=
    Resolve.isOperatorChar_cases (Resolve.isOperatorChar_of_mem_operator h_c)
  -- no operator is made of digits and points
  have h_mantissa : ¬ isMantissaChar c := by
    intro h_mantissa
    rw [Resolve.isRunChar_of_isMantissaChar h_mantissa] at h_run
    exact Bool.false_ne_true h_run.symm
  rw [text, ← List.append_assoc] at h
  rcases Scan.append_eq_append_cons h with ⟨r', h_front⟩ | ⟨l', rfl, h_power⟩
  · -- before the power of ten there is one sign
    refine .inl (Mark.eq_of_append_eq (fun h_mem => ?_) h_front)
    exact h_mantissa (Mantissa.isMantissaChar_of_mem_text c h_mem)
  cases h_some : n.power with
  | none =>
    rw [h_some] at h_power
    exact absurd h_power.symm (List.append_ne_nil_of_right_ne_nil l' (List.cons_ne_nil c r))
  | some p =>
    rw [h_some] at h_power
    change p.letter :: (p.mark.text ++ spell p.places.digits) = l' ++ c :: r at h_power
    cases l' with
    | nil =>
      -- the letter of the power is no operator
      obtain ⟨rfl, -⟩ := List.cons.inj h_power
      exact absurd p.letter_cases (not_or.mpr h_e)
    | cons e l' =>
      obtain ⟨rfl, h_places⟩ := List.cons.inj h_power
      obtain ⟨rfl, h_mark⟩ := Mark.eq_of_append_eq (fun h_mem =>
        h_mantissa (isMantissaChar_of_isDigit (isDigit_of_mem_spell c h_mem))) h_places
      exact .inr ⟨p, rfl, h_mark, List.append_assoc _ _ _⟩

end Numeral

/-! ### Literals and other texts -/

/-- A literal starts with none of the characters that names, groups and quoted texts start with. -/
theorem unlike_of_parse? {s : List Char} (h : (parse? s).isSome) :
    Text.isIdentifier s = false ∧ Scan.isGroup s = false ∧ Resolve.quoted? s = none := by
  have h_spelling := spelling_of_parse? h
  refine ⟨?_, ?_, ?_⟩
  · cases s with
    | nil => rfl
    | cons c rest =>
      -- a literal starts with a digit, a point or a sign, and a name with none of these
      have h_start : Text.isNameStart c = false := by
        by_cases h_c : isMantissaChar c
        · exact Resolve.isNameStart_eq_false_of_isMantissaChar h_c
        · rcases (h_spelling.head_of_not_isMantissaChar h_c).1 with rfl | rfl <;> decide
      rw [Text.isIdentifier, h_start, Bool.false_and]
  · unfold Scan.isGroup Scan.group?
    split
    · exact absurd rfl (h_spelling.ne_of_mem List.mem_cons_self).2.1
    · rfl
  · unfold Resolve.quoted?
    split
    · exact absurd rfl (h_spelling.ne_of_mem List.mem_cons_self).1
    · rfl

/-! ### The language -/

/-- **Number literals are the texts of numerals**, and each is read as the double nearest to what it
denotes, with a minus sign as the negative of the literal without it. The only operators in a
literal are its sign and the sign of its exponent, and no literal is a name, a group or a quoted
text. -/
theorem numerals_exact :
    (∀ s, (parse? s).isSome ↔ ∃ n : Numeral, n.text = s) ∧
      (∀ n : Numeral, ∃ x, parse? n.text = some x ∧ RoundsTo n.value x ∧
        (2 ^ 63 ≤ x.toBits.toNat ↔ n.mark = .minus)) ∧
      (∀ mantissa power,
        parse? (Numeral.text ⟨.plus, mantissa, power⟩) =
          parse? (Numeral.text ⟨.absent, mantissa, power⟩) ∧
        parse? (Numeral.text ⟨.minus, mantissa, power⟩) =
          (parse? (Numeral.text ⟨.absent, mantissa, power⟩)).map fun x => -x) ∧
      (∀ (n : Numeral) (o : Calculation) (c : Char) (l r : List Char), c ∈ o.operator →
        n.text = l ++ c :: r →
        (l = [] ∧ n.mark.text = [c]) ∨ ∃ p, n.power = some p ∧ p.mark.text = [c] ∧
          l = n.mark.text ++ (n.mantissa.text ++ [p.letter])) ∧
      (∀ s, (parse? s).isSome →
        Text.isIdentifier s = false ∧ Scan.isGroup s = false ∧ Resolve.quoted? s = none) := by
  refine ⟨fun s => ⟨exists_text_eq, ?_⟩, fun n => n.exists_roundsTo, fun mantissa power => ⟨?_, ?_⟩,
    fun n _ _ _ _ h_c h => n.sign_of_operator h_c h, fun _ h => unlike_of_parse? h⟩
  · -- a numeral is read, and with a plus sign or none it is read as the same literal
    rintro ⟨n, rfl⟩
    rw [parse?, n.literal_parse?_text]
    rfl
  · rw [parse?, parse?, Numeral.literal_parse?_text, Numeral.literal_parse?_text]
    rfl
  · rw [parse?, parse?, Numeral.literal_parse?_text, Numeral.literal_parse?_text]
    exact congrArg some (neg_value (Numeral.literal ⟨.absent, mantissa, power⟩)).symm

/-- A literal with every part but digits before its point. -/
theorem numerals_exact_bare_scaled :
    ∃ n : Numeral, n.text = "-.5E+07".toList ∧ (parse? n.text).isSome ∧
      (∃ x, parse? n.text = some x ∧ RoundsTo (-5000000) x) ∧
      '+' ∈ Calculation.addition.operator ∧ n.text = "-.5E".toList ++ '+' :: "07".toList ∧
      (∃ p, n.power = some p ∧ p.mark.text = ['+'] ∧
        "-.5E".toList = n.mark.text ++ (n.mantissa.text ++ [p.letter])) ∧
      Text.isIdentifier n.text = false ∧ Scan.isGroup n.text = false ∧
      Resolve.quoted? n.text = none := by
  obtain ⟨h_language, h_value, -, h_operators, h_others⟩ := numerals_exact
  let n : Numeral :=
    ⟨.minus, .bare ⟨[5], by decide⟩, some ⟨true, .plus, ⟨[0, 7], by decide⟩⟩⟩
  have h_some := (h_language n.text).mpr ⟨n, rfl⟩
  obtain ⟨x, h_x, h_rounds, -⟩ := h_value n
  have h_denoted : n.value = -5000000 := by
    norm_num [n, Numeral.value, Numeral.Mantissa.value, Numeral.Mantissa.whole,
      Numeral.Mantissa.fraction, Numeral.exponent, Numeral.Power.value, Numeral.Mark.factor,
      Numeral.count]
  rw [h_denoted] at h_rounds
  have h_plus : '+' ∈ Calculation.addition.operator := by decide
  have h_split : n.text = "-.5E".toList ++ '+' :: "07".toList := by decide
  have h_sign := (h_operators n .addition '+' _ _ h_plus h_split).resolve_left
    fun h_start => absurd h_start.1 (by decide)
  exact ⟨n, by decide, h_some, ⟨x, h_x, h_rounds⟩, h_plus, h_split, h_sign, h_others _ h_some⟩

end LineScript.Number
