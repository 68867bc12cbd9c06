import LineScript.Number.Literal
import Mathlib.Algebra.Ring.Nat

/-!
# What rounding keeps

`nearestMagnitude` rounds a fraction in units of the smallest double. The facts here are the ones
that reading and writing numbers rest on.

* `nearestMagnitude_congr`: only the value of a fraction counts, not how it is written;
* `nearestMagnitude_units`: **a double is the nearest one to itself**. Below `2 ^ 53` units nothing
  is doubled, and above it the doublings take away exactly the exponent of the double;
* `nearestMagnitude_eq_zero`, `nearestMagnitude_eq_infinite`: a fraction of at most `10 ^ -324` is
  rounded to zero, and one of at least `10 ^ 309` to infinity;
* `Literal.value_eq_nearest`: so the shortcuts of `Literal.value` are sound, and every literal has
  the value of the double nearest to what it denotes.
-/

namespace LineScript.Number

variable {num den num' den' k m : Nat}

/-- One is a positive number of units, so it may stand below a fraction. -/
theorem unitsInOne_pos : 0 < unitsInOne := by
  decide +kernel

/-! ### Fractions of one value -/

/-- A common factor of quotient and remainder does not change how they compare. -/
theorem divNearestEven_mul_left (h : 0 < k) :
    divNearestEven (k * num) (k * den) = divNearestEven num den := by
  have h_twice : 2 * (k * (num % den)) = k * (2 * (num % den)) := Nat.mul_left_comm 2 k _
  unfold divNearestEven
  simp only [Nat.mul_div_mul_left _ _ h, Nat.mul_mod_mul_left, h_twice, Nat.mul_lt_mul_left h]

/-- A common factor of numerator and denominator does not matter. -/
theorem nearestMagnitude_mul_left (h : 0 < k) :
    nearestMagnitude (k * num) (k * den) = nearestMagnitude num den := by
  unfold nearestMagnitude
  simp only [Nat.mul_assoc, Nat.shiftLeft_eq, Nat.mul_div_mul_left _ _ h, divNearestEven_mul_left h]

/-- **Only the value of a fraction counts.** -/
theorem nearestMagnitude_congr (h_den : 0 < den) (h_den' : 0 < den')
    (h : num * den' = num' * den) : nearestMagnitude num den = nearestMagnitude num' den' :=
  -- both fractions are brought to the common denominator
  calc nearestMagnitude num den
      = nearestMagnitude (den' * num) (den' * den) := (nearestMagnitude_mul_left h_den').symm
    _ = nearestMagnitude (den * num') (den * den') := by
        rw [Nat.mul_comm den' num, h, Nat.mul_comm num' den, Nat.mul_comm den' den]
    _ = nearestMagnitude num' den' := nearestMagnitude_mul_left h_den

/-! ### Doubles are nearest to themselves -/

/-- A whole number is rounded to itself. -/
theorem divNearestEven_mul (num : Nat) (h : 0 < den) : divNearestEven (num * den) den = num := by
  unfold divNearestEven
  simp only [Nat.mul_mod_left, Nat.mul_div_cancel _ h, Nat.mul_zero, if_pos h]

/-- The units of a magnitude: those of the fraction alone, or with its leading bit and as often
doubled as the exponent says. -/
theorem units_cases (m : Nat) :
    (m < 2 ^ 52 ∧ units m = m) ∨
      ∃ doublings fraction, m = (doublings + 1) * 2 ^ 52 + fraction ∧ fraction < 2 ^ 52 ∧
        units m = (2 ^ 52 + fraction) * 2 ^ doublings := by
  unfold units
  simp only [Nat.shiftRight_eq_div_pow, Nat.shiftLeft_eq, Nat.one_mul]
  split
  · next h => exact .inl ⟨by omega, by omega⟩
  · next h =>
    refine .inr ⟨m / 2 ^ 52 - 1, m % 2 ^ 52, ?_, by omega, rfl⟩
    omega

/-- A number of fifty-three bits, doubled so often. -/
theorem log2_mul_two_pow {n : Nat} (h_low : 2 ^ 52 ≤ n) (h_high : n < 2 ^ 53) (doublings : Nat) :
    (n * 2 ^ doublings).log2 = 52 + doublings := by
  have h_pos : 0 < 2 ^ doublings := Nat.two_pow_pos doublings
  have h_ne : n * 2 ^ doublings ≠ 0 := Nat.mul_ne_zero (by omega) (Nat.ne_of_gt h_pos)
  rw [Nat.log2_eq_iff h_ne, Nat.add_right_comm, Nat.pow_add, Nat.pow_add]
  exact ⟨Nat.mul_le_mul_right _ h_low, Nat.mul_lt_mul_of_pos_right h_high h_pos⟩

/-- **A double is the nearest one to itself.** -/
theorem nearestMagnitude_units (h : m < infiniteMagnitude) :
    nearestMagnitude (units m) unitsInOne = m := by
  have h_bound : m < 0x7FF * 2 ^ 52 := h
  have h_infinite : infiniteMagnitude = 0x7FF * 2 ^ 52 := rfl
  unfold nearestMagnitude
  simp only [Nat.mul_div_cancel _ unitsInOne_pos, h_infinite]
  rcases units_cases m with ⟨h_small, h_units⟩ | ⟨doublings, fraction, h_m, h_fraction, h_units⟩
  · -- nothing is doubled
    have h_log : m.log2 - 52 = 0 := by
      rcases Nat.eq_zero_or_pos m with rfl | h_pos
      · rfl
      · have := (Nat.log2_lt (Nat.ne_of_gt h_pos)).mpr h_small
        omega
    rw [h_units, h_log, Nat.shiftLeft_zero, divNearestEven_mul _ unitsInOne_pos]
    simp only [Nat.zero_shiftLeft, Nat.zero_add]
    omega
  · have h_log : (units m).log2 - 52 = doublings := by
      rw [h_units, log2_mul_two_pow (by omega) (by omega)]
      omega
    -- dividing by the doubled unit takes the doublings away
    have h_round : divNearestEven (units m * unitsInOne) (unitsInOne <<< doublings) =
        2 ^ 52 + fraction := by
      rw [h_units, Nat.shiftLeft_eq, Nat.mul_assoc, Nat.mul_comm (2 ^ doublings)]
      exact divNearestEven_mul _ (Nat.mul_pos unitsInOne_pos (Nat.two_pow_pos doublings))
    rw [h_log, h_round, Nat.shiftLeft_eq]
    omega

/-! ### Very small and very large fractions -/

/-- Powers of ten are denominators. -/
theorem ten_pow_pos (k : Nat) : 0 < Nat.pow 10 k :=
  Nat.pow_pos (by decide)

theorem mul_ten_pow_zero (n : Nat) : n * Nat.pow 10 0 = n :=
  Nat.mul_one n

/-- A product of two powers of ten, bounded by their exponents. Large powers are only compared this
way and never worked out. -/
theorem ten_pow_mul_ten_pow_le {a b shift : Nat} (h : a + b ≤ shift) :
    Nat.pow 10 a * Nat.pow 10 b ≤ Nat.pow 10 shift :=
  calc Nat.pow 10 a * Nat.pow 10 b
      = Nat.pow 10 (a + b) := (Nat.pow_add 10 a b).symm
    _ ≤ Nat.pow 10 shift := Nat.pow_le_pow_right (by decide) h

/-- A fraction of at most `10 ^ -324` is less than half a unit. -/
theorem nearestMagnitude_eq_zero {shift : Nat} (h_shift : 324 ≤ shift) (h_den : 0 < den)
    (h : num * Nat.pow 10 shift ≤ den) : nearestMagnitude num den = 0 := by
  have h_units : 2 * unitsInOne < Nat.pow 10 162 * Nat.pow 10 162 := by decide +kernel
  have h_pow : Nat.pow 10 162 * Nat.pow 10 162 ≤ Nat.pow 10 shift :=
    ten_pow_mul_ten_pow_le h_shift
  -- the fraction, doubled, does not reach one unit, so it is rounded down
  have h_twice : 2 * (num * unitsInOne) < den := by
    rcases Nat.eq_zero_or_pos num with rfl | h_pos
    · simpa using h_den
    · calc 2 * (num * unitsInOne)
          = num * (2 * unitsInOne) := Nat.mul_left_comm 2 num unitsInOne
        _ < num * Nat.pow 10 shift :=
            Nat.mul_lt_mul_of_pos_left (Nat.lt_of_lt_of_le h_units h_pow) h_pos
        _ ≤ den := h
  have h_less : num * unitsInOne < den := by omega
  have h_log : (0 : Nat).log2 - 52 = 0 := rfl
  unfold nearestMagnitude divNearestEven
  simp only [Nat.div_eq_of_lt h_less, h_log, Nat.shiftLeft_zero, Nat.mod_eq_of_lt h_less,
    if_pos h_twice]
  rfl

/-- `Nat.log2` is monotone. -/
theorem log2_le_log2 {n n' : Nat} (h : 0 < n) (h_le : n ≤ n') : n.log2 ≤ n'.log2 := by
  have h_pos : 0 < n' := Nat.lt_of_lt_of_le h h_le
  exact (Nat.le_log2 (Nat.ne_of_gt h_pos)).mpr
    (Nat.le_trans (Nat.log2_self_le (Nat.ne_of_gt h)) h_le)

/-- A fraction of at least `10 ^ 309` is doubled more often than any exponent says. -/
theorem nearestMagnitude_eq_infinite {shift : Nat} (h_shift : 309 ≤ shift) (h_den : 0 < den)
    (h : Nat.pow 10 shift * den ≤ num) : nearestMagnitude num den = infiniteMagnitude := by
  have h_limit : 2100 ≤ (Nat.pow 10 155 * Nat.pow 10 154 * unitsInOne).log2 := by decide +kernel
  -- so many units that their logarithm alone exceeds every exponent
  have h_large : Nat.pow 10 155 * Nat.pow 10 154 * unitsInOne ≤ num * unitsInOne / den := by
    rw [Nat.le_div_iff_mul_le h_den, Nat.mul_right_comm]
    refine Nat.mul_le_mul_right unitsInOne (Nat.le_trans ?_ h)
    exact Nat.mul_le_mul_right den (ten_pow_mul_ten_pow_le h_shift)
  have h_log : 2100 ≤ (num * unitsInOne / den).log2 :=
    Nat.le_trans h_limit (log2_le_log2 (by decide +kernel) h_large)
  have h_infinite : infiniteMagnitude = 0x7FF * 2 ^ 52 := rfl
  unfold nearestMagnitude
  simp only [Nat.shiftLeft_eq, h_infinite]
  generalize divNearestEven (num * unitsInOne) _ = rounded
  omega

/-! ### Literals -/

/-- Zero is rounded to zero. -/
theorem nearestMagnitude_zero (h_den : 0 < den) : nearestMagnitude 0 den = 0 := by
  have h_round : divNearestEven 0 den = 0 := by simpa using divNearestEven_mul 0 h_den
  have h_log : (0 : Nat).log2 - 52 = 0 := rfl
  simp only [nearestMagnitude, Nat.zero_mul, Nat.zero_div, h_log, Nat.shiftLeft_zero, h_round,
    Nat.zero_shiftLeft, Nat.zero_add, Nat.zero_min]

/-- **The value of a literal is the double nearest to what it denotes**, shortcuts included. -/
theorem Literal.value_eq_nearest (l : Literal) (h : l.coefficient < Nat.pow 10 l.width) :
    l.value = nearest l.negative (l.coefficient * Nat.pow 10 l.exponent.toNat)
      (Nat.pow 10 (-l.exponent).toNat) := by
  unfold Literal.value nearest
  by_cases h_zero : l.coefficient = 0
  · rw [if_pos (by simp [h_zero]), h_zero, Nat.zero_mul, nearestMagnitude_zero (ten_pow_pos _)]
  by_cases h_small : l.exponent + l.width ≤ -324
  · -- the digits leave at least so many places between themselves and the point
    have h_exponent : l.exponent.toNat = 0 := by omega
    have h_shift : 324 ≤ (-l.exponent).toNat - l.width := by omega
    have h_places : l.width + ((-l.exponent).toNat - l.width) ≤ (-l.exponent).toNat := by omega
    have h_le := Nat.le_trans (Nat.mul_le_mul_right _ (Nat.le_of_lt h))
      (ten_pow_mul_ten_pow_le h_places)
    rw [if_pos (by simp [h_small]), h_exponent, mul_ten_pow_zero,
      nearestMagnitude_eq_zero h_shift (ten_pow_pos _) h_le]
  rw [if_neg (by simp [h_zero, h_small])]
  by_cases h_large : 309 ≤ l.exponent
  · -- so large an exponent takes even the coefficient 1 out of range
    have h_places : (-l.exponent).toNat = 0 := by omega
    have h_shift : 309 ≤ l.exponent.toNat := by omega
    have h_le : Nat.pow 10 l.exponent.toNat * 1 ≤ l.coefficient * Nat.pow 10 l.exponent.toNat := by
      rw [Nat.mul_one]
      exact Nat.le_mul_of_pos_left _ (Nat.pos_of_ne_zero h_zero)
    rw [if_pos h_large, h_places]
    exact congrArg _ (nearestMagnitude_eq_infinite h_shift Nat.one_pos h_le).symm
  rw [if_neg h_large]
  split
  · -- no shortcut is taken: the fraction is written with or without a denominator
    next h_whole =>
    have h_places : (-l.exponent).toNat = 0 := by omega
    rw [h_places]
  · next h_part =>
    have h_exponent : l.exponent.toNat = 0 := by omega
    rw [h_exponent, mul_ten_pow_zero]

end LineScript.Number
