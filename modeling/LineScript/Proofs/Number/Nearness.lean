import LineScript.Proofs.Number.Rounding
import Mathlib.Order.Monotone.Basic
import Mathlib.Tactic.Ring

/-!
# The nearest double

`nearestMagnitude` divides by a power of two, rounds the quotient to a whole number and puts the
exponent in front of it. That the result is the nearest double is a statement about all doubles, not
only about those with that exponent.

What is near is measured by midpoints. A fraction belongs to a magnitude if, seen from any other
magnitude, it does not lie beyond the middle between the two, and lies in the very middle only if
the magnitude is even (`Holds`). Magnitudes are ordered as the doubles that they stand for
(`strictMono_units`), so the two neighbours decide.

* `divNearestEven_between`: the whole number nearest to a fraction, measured by midpoints as well;
* `units_scaled`: a quotient of at most fifty-three bits and an exponent, put together, stand for
  the quotient times the power of two, also if the quotient carries over into the exponent;
* `holds_unbounded`: **the fraction belongs to the magnitude that it is rounded to**, as long as
  exponents are not bounded. At the two ends of the range of quotients, where the spacing of doubles
  changes, the fraction lies on the inner side, so the wider or narrower step does not matter;
* `nearestMagnitude_lt_iff`: it is a finite double unless the fraction lies in the middle between
  the greatest double and the next power of two, or above.
-/

namespace LineScript.Number

variable {num den m : Nat}

/-! ### Whole numbers -/

/-- **The whole number nearest to a fraction.** The fraction lies no further up than half way to the
next whole number, no further down than half way to the one before, and half way only if the number
is even. -/
theorem divNearestEven_between (num : Nat) (h : 0 < den) :
    2 * num + divNearestEven num den % 2 ≤ (2 * divNearestEven num den + 1) * den ∧
      2 * divNearestEven num den * den + divNearestEven num den % 2 ≤ 2 * num + den := by
  have h_num : den * (num / den) + num % den = num := Nat.div_add_mod num den
  have h_rest : num % den < den := Nat.mod_lt num h
  have h_parity : num / den % 2 = 0 ∨ num / den % 2 = 1 := Nat.mod_two_eq_zero_or_one _
  unfold divNearestEven
  dsimp only
  generalize num / den = quotient at h_num h_parity ⊢
  generalize num % den = rest at h_num h_rest ⊢
  -- the products on the two sides are sums of this one and of multiples of the denominator
  have h_whole : (2 * quotient + 1) * den = 2 * (den * quotient) + den ∧
      2 * quotient * den = 2 * (den * quotient) := ⟨by ring, by ring⟩
  have h_next : (2 * (quotient + 1) + 1) * den = 2 * (den * quotient) + 3 * den ∧
      2 * (quotient + 1) * den = 2 * (den * quotient) + 2 * den := ⟨by ring, by ring⟩
  split
  · omega
  · split
    · omega
    · -- a rest of one half goes to the even one of the two whole numbers
      rcases h_parity with h_even | h_odd
      · rw [h_even, Nat.add_zero]
        omega
      · rw [h_odd]
        omega

/-- Rounding does not go beyond a whole number that the fraction is below. -/
theorem divNearestEven_le {bound : Nat} (h : 0 < den) (h_less : num < bound * den) :
    divNearestEven num den ≤ bound := by
  have h_below := (divNearestEven_between num h).2
  -- one more than the bound would lie more than half a step above the fraction
  by_contra h_large
  have h_mul : (bound + 1) * den ≤ divNearestEven num den * den :=
    Nat.mul_le_mul_right den (by omega)
  rw [Nat.succ_mul] at h_mul
  rw [Nat.mul_assoc] at h_below
  omega

/-- Nor does it go below one that the fraction reaches. -/
theorem le_divNearestEven {bound : Nat} (h : 0 < den) (h_le : bound * den ≤ num) :
    bound ≤ divNearestEven num den := by
  have h_above := (divNearestEven_between num h).1
  by_contra h_small
  have h_mul : (2 * divNearestEven num den + 1) * den < 2 * bound * den :=
    Nat.mul_lt_mul_of_pos_right (by omega) h
  rw [Nat.mul_assoc 2 bound] at h_mul
  omega

/-! ### The order of magnitudes -/

/-- A quotient with an exponent in front stands for its multiple by a power of two. A quotient of
fifty-four bits carries over into the exponent and stands for the same. -/
theorem units_scaled (doublings quotient : Nat) (h : quotient ≤ 2 ^ 53)
    (h_normal : doublings = 0 ∨ 2 ^ 52 ≤ quotient) :
    units (doublings * 2 ^ 52 + quotient) = quotient * 2 ^ doublings := by
  unfold units
  simp only [Nat.shiftRight_eq_div_pow, Nat.shiftLeft_eq, Nat.one_mul]
  -- a quotient without its leading bit has exponent zero; with fifty-four bits it carries over
  by_cases h_small : quotient < 2 ^ 52
  · obtain rfl : doublings = 0 := by omega
    rw [if_pos (by omega), Nat.pow_zero]
    omega
  rw [if_neg (by omega)]
  by_cases h_carry : quotient = 2 ^ 53
  · have h_exponent : (doublings * 2 ^ 52 + quotient) / 2 ^ 52 - 1 = doublings + 1 := by omega
    have h_fraction : (doublings * 2 ^ 52 + quotient) % 2 ^ 52 = 0 := by omega
    rw [h_exponent, h_fraction, h_carry, Nat.pow_succ]
    omega
  · have h_exponent : (doublings * 2 ^ 52 + quotient) / 2 ^ 52 - 1 = doublings := by omega
    have h_fraction : (doublings * 2 ^ 52 + quotient) % 2 ^ 52 = quotient - 2 ^ 52 := by omega
    rw [h_exponent, h_fraction, Nat.add_sub_cancel' (Nat.le_of_not_lt h_small)]

/-- The next magnitude stands for more: one step more of the same width, or the first one of the
next exponent. -/
theorem units_lt_units_succ (m : Nat) : units m < units (m + 1) := by
  rcases units_cases m with ⟨h_small, h_units⟩ | ⟨doublings, fraction, rfl, h_fraction, h_units⟩
  · have h_next := units_scaled 0 (m + 1) (by omega) (.inl rfl)
    rw [Nat.zero_mul, Nat.zero_add, Nat.pow_zero, Nat.mul_one] at h_next
    rw [h_units, h_next]
    exact Nat.lt_succ_self m
  · have h_next := units_scaled doublings (2 ^ 52 + fraction + 1)
      (by omega) (.inr (by omega))
    have h_place : (doublings + 1) * 2 ^ 52 + fraction + 1 =
        doublings * 2 ^ 52 + (2 ^ 52 + fraction + 1) := by omega
    rw [h_place, h_units, h_next]
    exact Nat.mul_lt_mul_of_pos_right (Nat.lt_succ_self _) (Nat.two_pow_pos doublings)

/-- **Magnitudes are ordered as the doubles that they stand for.** -/
theorem strictMono_units : StrictMono units :=
  strictMono_nat_of_lt_succ units_lt_units_succ

/-! ### The nearest magnitude -/

/-- A fraction, in units, belongs to a magnitude: it lies on the side of this magnitude of the
middle between it and any other, and in the middle itself only if the magnitude is even. A remainder
by two that is added on the smaller side makes the inequality a strict one for odd magnitudes. -/
structure Holds (m num den : Nat) : Prop where
  above : ∀ m', m < m' → 2 * num + m % 2 ≤ (units m + units m') * den
  below : ∀ m', m' < m → (units m' + units m) * den + m % 2 ≤ 2 * num

/-- It is enough to look at the two neighbours. -/
theorem Holds.of_neighbours (h_above : 2 * num + m % 2 ≤ (units m + units (m + 1)) * den)
    (h_below : ∀ p, m = p + 1 → (units p + units m) * den + m % 2 ≤ 2 * num) :
    Holds m num den where
  above m' h_m' := by
    have h_units : units (m + 1) ≤ units m' := strictMono_units.monotone h_m'
    exact Nat.le_trans h_above (Nat.mul_le_mul_right den (Nat.add_le_add_left h_units _))
  -- any other magnitude lies behind the neighbour on its side, so its middle is further away
  below m' h_m' := by
    obtain ⟨p, rfl⟩ : ∃ p, m = p + 1 := ⟨m - 1, by omega⟩
    have h_units : units m' ≤ units p := strictMono_units.monotone (Nat.le_of_lt_succ h_m')
    have h_sum := Nat.mul_le_mul_right den (Nat.add_le_add_right h_units (units (p + 1)))
    exact Nat.le_trans (Nat.add_le_add_right h_sum _) (h_below p rfl)

/-- How often the unit is doubled to divide a fraction of so many units. -/
def doublingsFor (num den : Nat) : Nat :=
  (num / den).log2 - 52

/-- The magnitude nearest to a fraction of so many units, if there were no greatest exponent. -/
def unboundedMagnitude (num den : Nat) : Nat :=
  doublingsFor num den * 2 ^ 52 + divNearestEven num (den * 2 ^ doublingsFor num den)

/-- The greatest exponent only cuts off what is rounded too high. -/
theorem nearestMagnitude_eq_min (num den : Nat) :
    nearestMagnitude num den =
      min (unboundedMagnitude (num * unitsInOne) den) infiniteMagnitude := by
  simp only [nearestMagnitude, unboundedMagnitude, doublingsFor, Nat.shiftLeft_eq]

/-- The quotient has at most fifty-three bits. -/
theorem lt_doubled (num : Nat) (h : 0 < den) :
    num < 2 ^ 53 * (den * 2 ^ doublingsFor num den) := by
  have h_log : (num / den).log2 + 1 ≤ 53 + doublingsFor num den := by
    rw [doublingsFor]
    omega
  have h_quotient : num / den < 2 ^ (53 + doublingsFor num den) :=
    Nat.lt_of_lt_of_le Nat.lt_log2_self (Nat.pow_le_pow_right (by decide) h_log)
  rw [Nat.div_lt_iff_lt_mul h, Nat.pow_add] at h_quotient
  calc num < 2 ^ 53 * 2 ^ doublingsFor num den * den := h_quotient
    _ = 2 ^ 53 * (den * 2 ^ doublingsFor num den) := by rw [Nat.mul_assoc, Nat.mul_comm den]

/-- If anything was doubled at all, the quotient has no fewer. -/
theorem doubled_le (num : Nat) (h : 0 < den) (h_doubled : doublingsFor num den ≠ 0) :
    2 ^ 52 * (den * 2 ^ doublingsFor num den) ≤ num := by
  have h_log : 52 + doublingsFor num den = (num / den).log2 := by
    rw [doublingsFor] at h_doubled ⊢
    omega
  have h_ne : num / den ≠ 0 := by
    intro h_zero
    rw [doublingsFor, h_zero] at h_doubled
    exact h_doubled rfl
  have h_quotient : 2 ^ (52 + doublingsFor num den) ≤ num / den :=
    h_log ▸ Nat.log2_self_le h_ne
  rw [Nat.le_div_iff_mul_le h, Nat.pow_add] at h_quotient
  calc 2 ^ 52 * (den * 2 ^ doublingsFor num den)
      = 2 ^ 52 * 2 ^ doublingsFor num den * den := by rw [Nat.mul_assoc, Nat.mul_comm den]
    _ ≤ num := h_quotient

/-- **A fraction belongs to the magnitude that it is rounded to.** -/
theorem holds_unbounded (num : Nat) (h : 0 < den) :
    Holds (unboundedMagnitude num den) num den := by
  have h_less := lt_doubled num h
  have h_least := doubled_le num h
  unfold unboundedMagnitude
  generalize doublingsFor num den = doublings at h_less h_least ⊢
  have h_doubled : 0 < den * 2 ^ doublings := Nat.mul_pos h (Nat.two_pow_pos doublings)
  -- at most fifty-three bits, and no fewer if anything was doubled: `units_scaled` applies
  have h_k : divNearestEven num (den * 2 ^ doublings) ≤ 2 ^ 53 :=
    divNearestEven_le h_doubled h_less
  have h_normal : doublings = 0 ∨ 2 ^ 52 ≤ divNearestEven num (den * 2 ^ doublings) :=
    or_iff_not_imp_left.mpr fun h_ne => le_divNearestEven h_doubled (h_least h_ne)
  obtain ⟨h_above, h_below⟩ := divNearestEven_between num h_doubled
  generalize divNearestEven num (den * 2 ^ doublings) = k at h_k h_normal h_above h_below ⊢
  -- so many units to a step of the quotient
  have h_step : ∀ n, n * 2 ^ doublings * den = n * (den * 2 ^ doublings) := by
    intro n
    rw [Nat.mul_assoc, Nat.mul_comm (2 ^ doublings)]
  generalize den * 2 ^ doublings = step at h_less h_least h_above h_below h_step
  have h_units := units_scaled doublings k h_k h_normal
  have h_parity : (doublings * 2 ^ 52 + k) % 2 = k % 2 := by omega
  refine .of_neighbours ?_ ?_
  · by_cases h_carry : k = 2 ^ 53
    · -- the next double is further away, but the fraction is below this one
      have h_next := units_lt_units_succ (doublings * 2 ^ 52 + k)
      have h_mul : units (doublings * 2 ^ 52 + k) * den = 2 ^ 53 * step := by
        rw [h_units, h_step, h_carry]
      have h_sum := Nat.mul_le_mul_right den (Nat.le_of_lt h_next)
      rw [Nat.add_mul, h_parity]
      omega
    · have h_next := units_scaled doublings (k + 1) (by omega) (by omega)
      rw [Nat.add_assoc, h_next, h_units, Nat.add_mul, h_step, h_step, h_parity]
      have h_expand : k * step + (k + 1) * step = (2 * k + 1) * step := by ring
      omega
  · intro p h_p
    by_cases h_end : doublings ≠ 0 ∧ k = 2 ^ 52
    · -- the double before is nearer than a step, but the fraction is not below this one
      have h_before : units p < units (doublings * 2 ^ 52 + k) := by
        rw [h_p]
        exact units_lt_units_succ p
      have h_mul : units (doublings * 2 ^ 52 + k) * den = 2 ^ 52 * step := by
        rw [h_units, h_step, h_end.2]
      have h_sum := Nat.mul_le_mul_right den (Nat.le_of_lt h_before)
      have := h_least h_end.1
      rw [Nat.add_mul, h_parity]
      omega
    · have h_pos : k ≠ 0 := by
        rintro rfl
        omega
      obtain ⟨j, rfl⟩ : ∃ j, k = j + 1 := ⟨k - 1, by omega⟩
      have h_before := units_scaled doublings j (by omega) (by omega)
      obtain rfl : p = doublings * 2 ^ 52 + j := by omega
      rw [h_before, h_units, Nat.add_mul, h_step, h_step, h_parity]
      have h_expand : j * step + (j + 1) * step + step = 2 * (j + 1) * step := by ring
      omega

/-! ### The greatest double -/

/-- The infinite magnitude is the one after the greatest double. -/
theorem infiniteMagnitude_eq : infiniteMagnitude = 2045 * 2 ^ 52 + 2 ^ 53 := rfl

/-- **A finite double is nearest exactly to what lies below the middle** between the greatest double
and the power of two that would come next. The greatest double is odd, so the middle does not belong
to it. -/
theorem nearestMagnitude_lt_iff (num : Nat) (h : 0 < den) :
    nearestMagnitude num den < infiniteMagnitude ↔
      2 * (num * unitsInOne) <
        (units (infiniteMagnitude - 1) + units infiniteMagnitude) * den := by
  have h_holds := holds_unbounded (num * unitsInOne) h
  have h_size := infiniteMagnitude_eq
  rw [nearestMagnitude_eq_min]
  generalize unboundedMagnitude (num * unitsInOne) den = m at h_holds ⊢
  generalize infiniteMagnitude = limit at h_size ⊢
  constructor
  · intro h_min
    -- compared with the infinite magnitude; the greatest double is odd and needs the strict side
    have h_above := h_holds.above limit (by omega)
    by_cases h_greatest : m = limit - 1
    · rw [h_greatest] at h_above
      omega
    · have h_units : units m < units (limit - 1) := strictMono_units (by omega)
      have h_less := Nat.mul_lt_mul_of_pos_right (Nat.add_lt_add_right h_units (units limit)) h
      omega
  · intro h_less
    by_contra h_not
    -- otherwise the fraction lies on the upper side of the middle
    have h_below := h_holds.below (limit - 1) (by omega)
    have h_units : units limit ≤ units m := strictMono_units.monotone (by omega)
    have h_sum := Nat.mul_le_mul_right den (Nat.add_le_add_left h_units (units (limit - 1)))
    omega

/-- A fraction belongs to the finite magnitude that it is rounded to. -/
theorem holds_nearestMagnitude (h : 0 < den)
    (h_finite : nearestMagnitude num den < infiniteMagnitude) :
    Holds (nearestMagnitude num den) (num * unitsInOne) den := by
  rw [nearestMagnitude_eq_min] at h_finite ⊢
  rw [Nat.min_eq_left (by omega)]
  exact holds_unbounded (num * unitsInOne) h

end LineScript.Number
