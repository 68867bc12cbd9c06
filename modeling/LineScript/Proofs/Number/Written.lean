import LineScript.Number.Decimal
import LineScript.Proofs.Number.Rounding
import LineScript.Proofs.Number.Spelling

/-!
# Written magnitudes are read back

A finite magnitude is written as digits, with a point among them or without one. Either text is a
literal whose value is the double nearest to the decimal that the digits spell, so what is left to
see is that the decimal that was chosen for a magnitude is nearest to no other one.

* `ReadsAs`: a text, with either sign before it, is read as the double of a given magnitude;
* `readsAs_whole`, `readsAs_point`: what digits without and with a point are read as;
* `Decimal.readsAs_positional`: a decimal that is laid out is read as the double it stands for,
  wherever its point comes to stand;
* `magnitude_shortest`: the decimal that is chosen for a magnitude stands for that magnitude. It was
  tried out, and the exact expansion, which was not, is a multiple of the unit;
* `readsAs_displayMagnitude`: **the text of a finite magnitude is read as that magnitude**.
-/

namespace LineScript.Number

/-! ### Digits -/

/-- Digits in front of others count for as many tens as there are others. -/
theorem digitsValue_append (front back : List Char) :
    digitsValue (front ++ back) = Nat.pow 10 back.length * digitsValue front + digitsValue back :=
  (Nat.ofDigitChars_append 0).trans Nat.ofDigitChars_eq_ofDigitChars_zero

/-- Zeros spell zero, however many there are. -/
theorem digitsValue_zeros (n : Nat) : digitsValue (List.replicate n '0') = 0 :=
  Nat.ofDigitChars_replicate_zero

/-- The decimal digits of a number spell the number. -/
theorem digitsValue_toDigits (n : Nat) : digitsValue (Nat.toDigits 10 n) = n :=
  Nat.ofDigitChars_toDigits (by decide) (by decide)

theorem isDigit_of_mem_toDigits {n : Nat} {c : Char} (h : c ∈ Nat.toDigits 10 n) : c.isDigit :=
  Nat.isDigit_of_mem_toDigits (by decide) (by decide) h

/-- One digit spells a number below ten. -/
theorem digitsValue_singleton_lt {c : Char} (h : c.isDigit) : digitsValue [c] < 10 := by
  have h_range : '0'.toNat ≤ c.toNat ∧ c.toNat ≤ '9'.toNat := Char.isDigit_iff_toNat.mp h
  have h_nine : '9'.toNat = '0'.toNat + 9 := rfl
  have h_value : digitsValue [c] = c.toNat - '0'.toNat := Nat.zero_add _
  omega

theorem isDigit_of_mem_zeros (n : Nat) : ∀ c ∈ List.replicate n '0', c.isDigit := by
  intro c h
  rw [List.eq_of_mem_replicate h]
  rfl

/-- So many digits spell a number below that power of ten. -/
theorem digitsValue_lt {digits : List Char} (h : ∀ c ∈ digits, c.isDigit) :
    digitsValue digits < Nat.pow 10 digits.length := by
  induction digits with
  | nil => exact Nat.one_pos
  | cons c rest ih =>
    have h_first := digitsValue_singleton_lt (h c List.mem_cons_self)
    have h_rest := ih fun d h_d => h d (List.mem_cons_of_mem c h_d)
    -- the rest is below its power of ten, so the first digit is not reached
    calc digitsValue ([c] ++ rest)
        = Nat.pow 10 rest.length * digitsValue [c] + digitsValue rest := digitsValue_append [c] rest
      _ < Nat.pow 10 rest.length * digitsValue [c] + Nat.pow 10 rest.length :=
          Nat.add_lt_add_left h_rest _
      _ = Nat.pow 10 rest.length * (digitsValue [c] + 1) := (Nat.mul_succ _ _).symm
      _ ≤ Nat.pow 10 rest.length * 10 := Nat.mul_le_mul_left _ h_first

/-! ### Texts -/

/-- A text with its sign: a minus sign stands before it if the number is negative. -/
def withSign (negative : Bool) (text : List Char) : List Char :=
  if negative then '-' :: text else text

/-- The text, with either sign before it, is read as the double of the given magnitude. -/
def ReadsAs (text : List Char) (magnitude : Nat) : Prop :=
  ∀ negative, parse? (withSign negative text) = some (ofMagnitude negative magnitude)

/-- A text that starts with a digit has no sign of its own. -/
theorem sign_withSign {text : List Char} (h : text.head?.any Char.isDigit) (negative : Bool) :
    sign (withSign negative text) = (negative, text) := by
  cases negative with
  | true => rfl
  | false =>
    cases text with
    | nil => exact absurd h Bool.false_ne_true
    | cons c rest => exact sign_of_head? (isMantissaChar_of_isDigit h)

/-- Digits alone, or digits around a point, are read as the double nearest to what they spell. -/
theorem readsAs_of_mantissa {text whole fraction : List Char}
    (h_mantissa : mantissa text = (whole, fraction, []))
    (h_head : text.head?.any Char.isDigit) (h_ne : whole ++ fraction ≠ [])
    (h_digits : ∀ c ∈ whole ++ fraction, c.isDigit) :
    ReadsAs text
      (nearestMagnitude (digitsValue (whole ++ fraction)) (Nat.pow 10 fraction.length)) := by
  intro negative
  have h_nonempty : ¬ (whole ++ fraction).isEmpty := by rwa [List.isEmpty_iff]
  have h_literal : Literal.parse? (withSign negative text) =
      some ⟨negative, digitsValue (whole ++ fraction), (whole ++ fraction).length,
        0 - (fraction.length : Int)⟩ := by
    rw [literal_parse?_eq, sign_withSign h_head, h_mantissa, if_neg h_nonempty]
    rfl
  -- no exponent is written, so only the digits behind the point scale the number
  have h_exponent : (0 - (fraction.length : Int)).toNat = 0 := by omega
  have h_places : (-(0 - (fraction.length : Int))).toNat = fraction.length := by omega
  rw [parse?, h_literal, Option.map_some, Literal.value_eq_nearest _ (digitsValue_lt h_digits)]
  simp only [h_exponent, h_places, mul_ten_pow_zero, nearest]

section Digits

variable {whole fraction : List Char} (h_whole : ∀ c ∈ whole, c.isDigit) (h_ne : whole ≠ [])

include h_whole h_ne

/-- What starts with digits starts with a digit. -/
theorem isDigit_head?_append (rest : List Char) : (whole ++ rest).head?.any Char.isDigit := by
  obtain ⟨c, tail, rfl⟩ := List.exists_cons_of_ne_nil h_ne
  exact h_whole c List.mem_cons_self

/-- Digits without a point. -/
theorem readsAs_whole : ReadsAs whole (nearestMagnitude (digitsValue whole) 1) := by
  have h_digits : whole ++ [] = whole := List.append_nil whole
  -- nothing follows the digits, so they end where the text does
  have h_end : ¬ ([] : List Char).head?.any isMantissaChar := Bool.false_ne_true
  have h_mantissa := mantissa_whole h_whole h_end
  rw [h_digits] at h_mantissa
  have h_reads := readsAs_of_mantissa h_mantissa (h_digits ▸ isDigit_head?_append h_whole h_ne [])
    (by rwa [h_digits]) (by rwa [h_digits])
  rwa [h_digits] at h_reads

/-- Digits around a point. -/
theorem readsAs_point {value places : Nat} (h_fraction : ∀ c ∈ fraction, c.isDigit)
    (h_value : digitsValue (whole ++ fraction) = value) (h_places : fraction.length = places) :
    ReadsAs (whole ++ '.' :: fraction) (nearestMagnitude value (Nat.pow 10 places)) := by
  have h_end : ¬ ([] : List Char).head?.any Char.isDigit := Bool.false_ne_true
  have h_mantissa := mantissa_point h_whole h_fraction h_end
  rw [List.append_nil] at h_mantissa
  rw [← h_value, ← h_places]
  exact readsAs_of_mantissa h_mantissa (isDigit_head?_append h_whole h_ne _)
    (List.append_ne_nil_of_left_ne_nil h_ne fraction)
    (List.forall_mem_append.mpr ⟨h_whole, h_fraction⟩)

end Digits

/-! ### Decimals -/

namespace Decimal

/-- The magnitude of a decimal as that of one fraction, whatever the sign of its exponent. -/
theorem magnitude_eq (d : Decimal) :
    d.magnitude = nearestMagnitude (d.coefficient * Nat.pow 10 d.exponent.toNat)
      (Nat.pow 10 (-d.exponent).toNat) := by
  unfold magnitude
  split
  · next h =>
    have h_places : (-d.exponent).toNat = 0 := by omega
    rw [h_places]
  · next h =>
    have h_exponent : d.exponent.toNat = 0 := by omega
    rw [h_exponent, mul_ten_pow_zero]

/-- **A decimal that is laid out is read as the double it stands for.** -/
theorem readsAs_positional (d : Decimal) : ReadsAs d.positional d.magnitude := by
  have h_digits : ∀ c ∈ Nat.toDigits 10 d.coefficient, c.isDigit := by
    intro c h_c
    exact isDigit_of_mem_toDigits h_c
  have h_value := digitsValue_toDigits d.coefficient
  have h_ne : Nat.toDigits 10 d.coefficient ≠ [] := Nat.toDigits_ne_nil
  unfold positional magnitude
  dsimp only
  generalize Nat.toDigits 10 d.coefficient = digits at h_digits h_value h_ne
  by_cases h_whole : 0 ≤ d.exponent
  · -- zeros follow the digits
    rw [if_pos h_whole, if_pos h_whole]
    -- each zero multiplies what the digits spell by ten
    have h_scaled : digitsValue (digits ++ List.replicate d.exponent.toNat '0') =
        d.coefficient * Nat.pow 10 d.exponent.toNat := by
      rw [digitsValue_append, digitsValue_zeros, List.length_replicate, h_value, Nat.add_zero,
        Nat.mul_comm]
    rw [← h_scaled]
    exact readsAs_whole (List.forall_mem_append.mpr ⟨h_digits, isDigit_of_mem_zeros _⟩)
      (List.append_ne_nil_of_left_ne_nil h_ne _)
  rw [if_neg h_whole, if_neg h_whole]
  generalize (-d.exponent).toNat = places
  split
  · -- the point stands among the digits
    next h_places =>
    refine readsAs_point ?_ ?_ ?_ ?_ ?_
    · exact fun c h_c => h_digits c (List.mem_of_mem_take h_c)
    · rw [ne_eq, List.take_eq_nil_iff, not_or]
      exact ⟨by omega, h_ne⟩
    · exact fun c h_c => h_digits c (List.mem_of_mem_drop h_c)
    · rw [List.take_append_drop, h_value]
    · rw [List.length_drop]
      omega
  · -- zeros stand between the point and the digits
    next h_places =>
    change ReadsAs (List.replicate 1 '0' ++ '.' :: _) _
    refine readsAs_point (isDigit_of_mem_zeros 1) (List.cons_ne_nil _ _) ?_ ?_ ?_
    · exact List.forall_mem_append.mpr ⟨isDigit_of_mem_zeros _, h_digits⟩
    · simp only [digitsValue_append, digitsValue_zeros, h_value, Nat.mul_zero, Nat.zero_add]
    · rw [List.length_append, List.length_replicate]
      omega

/-- As many zeros as stand at the end of a number, so often ten divides it. -/
theorem ten_pow_dvd (n : Nat) :
    Nat.pow 10 ((Nat.toDigits 10 n).reverse.takeWhile (· == '0')).length ∣ n := by
  have h_value := digitsValue_toDigits n
  generalize Nat.toDigits 10 n = digits at h_value
  have h_zeros : (digits.reverse.takeWhile (· == '0')).reverse =
      List.replicate (digits.reverse.takeWhile (· == '0')).length '0' := by
    rw [List.eq_replicate_iff, List.length_reverse]
    refine ⟨rfl, ?_⟩
    intro c h_c
    exact beq_iff_eq.mp (List.all_eq_true.mp List.all_takeWhile c (List.mem_reverse.mp h_c))
  -- the number is spelt by its other digits and the zeros behind them
  have h_split : digits = (digits.reverse.dropWhile (· == '0')).reverse ++
      List.replicate (digits.reverse.takeWhile (· == '0')).length '0' := by
    rw [← h_zeros, ← List.reverse_append, List.takeWhile_append_dropWhile, List.reverse_reverse]
  refine ⟨digitsValue (digits.reverse.dropWhile (· == '0')).reverse, ?_⟩
  rw [← h_value]
  nth_rewrite 1 [h_split]
  rw [digitsValue_append, digitsValue_zeros, List.length_replicate, Nat.add_zero]

/-- Without the zeros at the end of its coefficient a decimal stands for the same double. -/
theorem magnitude_normalize (d : Decimal) : d.normalize.magnitude = d.magnitude := by
  unfold normalize
  dsimp only
  split
  · rfl
  obtain ⟨quotient, h_quotient⟩ := ten_pow_dvd d.coefficient
  generalize ((Nat.toDigits 10 d.coefficient).reverse.takeWhile (· == '0')).length = zeros
    at h_quotient
  have h_coefficient : d.coefficient / Nat.pow 10 zeros = quotient := by
    rw [h_quotient]
    exact Nat.mul_div_cancel_left quotient (ten_pow_pos zeros)
  rw [magnitude_eq, magnitude_eq, h_coefficient]
  refine nearestMagnitude_congr (ten_pow_pos _) (ten_pow_pos _) ?_
  -- the powers of ten on the two sides add up to the same
  have h_powers : (d.exponent + zeros).toNat + (-d.exponent).toNat =
      zeros + d.exponent.toNat + (-(d.exponent + zeros)).toNat := by omega
  calc quotient * Nat.pow 10 (d.exponent + zeros).toNat * Nat.pow 10 (-d.exponent).toNat
      = quotient * Nat.pow 10 ((d.exponent + zeros).toNat + (-d.exponent).toNat) := by
        rw [Nat.mul_assoc]
        exact congrArg _ (Nat.pow_add 10 _ _).symm
    _ = quotient * (Nat.pow 10 zeros * Nat.pow 10 d.exponent.toNat *
          Nat.pow 10 (-(d.exponent + zeros)).toNat) := by
        rw [h_powers]
        exact congrArg _ ((Nat.pow_add 10 _ _).trans (congrArg (· * _) (Nat.pow_add 10 _ _)))
    _ = d.coefficient * Nat.pow 10 d.exponent.toNat *
          Nat.pow 10 (-(d.exponent + zeros)).toNat := by
        rw [h_quotient]
        ring

end Decimal

/-! ### The decimal that is chosen -/

/-- The search tries a decimal before it takes it. -/
theorem magnitude_of_withDigits? {m digits : Nat} {d : Decimal}
    (h : withDigits? m digits = some d) : d.magnitude = m := by
  have h_found := List.find?_some h
  exact of_decide_eq_true h_found

/-- A unit is `5 ^ 1074 · 10 ^ -1074`, so all digits of a double stand for the double itself. -/
theorem magnitude_exactDecimal {m : Nat} (h : m < infiniteMagnitude) :
    (exactDecimal m).magnitude = m := by
  -- the number of places is a variable, because its powers are too large to be worked out
  obtain ⟨places, h_places⟩ : ∃ places : Nat, 1074 = places := ⟨_, rfl⟩
  have h_unit : Nat.pow 5 places * unitsInOne = Nat.pow 10 places := by
    rw [← h_places]
    decide +kernel
  have h_exact : exactDecimal m = ⟨units m * Nat.pow 5 places, -places⟩ := by
    unfold exactDecimal
    rw [h_places, show (1074 : Int) = ((1074 : Nat) : Int) from rfl, h_places]
  have h_exponent : (-(places : Int)).toNat = 0 := by omega
  have h_negative : (-(-(places : Int))).toNat = places := by omega
  rw [h_exact, Decimal.magnitude_eq, h_exponent, h_negative, mul_ten_pow_zero]
  calc nearestMagnitude (units m * Nat.pow 5 places) (Nat.pow 10 places)
      = nearestMagnitude (units m) unitsInOne := by
        refine nearestMagnitude_congr (ten_pow_pos places) unitsInOne_pos ?_
        rw [Nat.mul_assoc, h_unit]
    _ = m := nearestMagnitude_units h

/-- **The decimal that is chosen for a finite magnitude stands for that magnitude.** -/
theorem magnitude_shortest {m : Nat} (h : m < infiniteMagnitude) : (shortest m).magnitude = m := by
  unfold shortest
  rw [Decimal.magnitude_normalize]
  cases h_found : (List.range' 1 17).findSome? (withDigits? m) with
  -- seventeen digits are always enough, but the exact decimal serves without that fact
  | none => exact magnitude_exactDecimal h
  | some d =>
    -- the decimal that was found had been tried
    obtain ⟨digits, -, h_digits⟩ := List.exists_of_findSome?_eq_some h_found
    exact magnitude_of_withDigits? h_digits

/-- **The text of a finite magnitude is read as that magnitude.** -/
theorem readsAs_displayMagnitude {m : Nat} (h : m < infiniteMagnitude) :
    ReadsAs (displayMagnitude m) m := by
  unfold displayMagnitude
  dsimp only
  split
  · next h_whole =>
    -- the magnitude is a whole number of ones, and it is written with `.0` behind it
    have h_remainder : units m % unitsInOne = 0 :=
      of_decide_eq_true (Bool.and_eq_true_iff.mp h_whole).1
    have h_units : units m / unitsInOne * unitsInOne = units m :=
      Nat.div_mul_cancel (Nat.dvd_of_mod_eq_zero h_remainder)
    -- one decimal place makes tenths of the whole number
    have h_tenths : digitsValue (Nat.toDigits 10 (units m / unitsInOne) ++ List.replicate 1 '0') =
        10 * (units m / unitsInOne) := by
      rw [digitsValue_append, digitsValue_zeros, digitsValue_toDigits]
      rfl
    have h_reads := readsAs_point (fun _ h_c => isDigit_of_mem_toDigits h_c) Nat.toDigits_ne_nil
      (isDigit_of_mem_zeros 1) h_tenths (List.length_replicate ..)
    have h_same : nearestMagnitude (10 * (units m / unitsInOne)) (Nat.pow 10 1) = m :=
      calc nearestMagnitude (10 * (units m / unitsInOne)) (Nat.pow 10 1)
          = nearestMagnitude (units m) unitsInOne := by
            refine nearestMagnitude_congr (ten_pow_pos 1) unitsInOne_pos ?_
            rw [Nat.mul_assoc, h_units, Nat.mul_comm]
        _ = m := nearestMagnitude_units h
    rwa [h_same] at h_reads
  · have h_reads := (shortest m).readsAs_positional
    rwa [magnitude_shortest h] at h_reads

end LineScript.Number
