import LineScript.Proofs.Number.Nearness
import LineScript.Proofs.Number.RoundTrip

/-!
# Doubles as rational numbers

What rounding is meant to do is said without units and magnitudes. Every finite double stands for a
rational number, which is read off its sign, mantissa and exponent (`exactValue`). A rational number
is rounded to a double that no other finite double is nearer than; of two that are equally near, to
the one whose last bit is zero; and to an infinity from the middle between the greatest double and
`2 ^ 1024` on (`RoundsTo`).

* `toNat_toBits_ofMagnitude`, `exactValue_ofMagnitude`: the bits of a double of a given sign and
  magnitude, and what it stands for: so many units;
* `abs_sub_le_of_holds`: a fraction that belongs to a magnitude is nearest to it. The midpoints that
  decide which magnitude it belongs to are turned into distances;
* `roundsTo_nearest`: **`nearest` rounds to the nearest double**, whatever the sign and size of the
  fraction. A double of the other sign is never nearer, because the distance of absolute values is
  at most the distance of the numbers.
-/

namespace LineScript.Number

open Float.Model (Format)
open Float.Model.UnpackedFloat

/-! ### What rounding is -/

/-- The rational number that a finite double stands for. The others count as zero. -/
def exactValue (x : Float) : ℚ :=
  match x.toModel.unpack with
  | .finite sign mantissa exponent _ => sign.apply mantissa * 2 ^ exponent
  | _ => 0

/-- The middle between the greatest double and the power of two that would come next. -/
def overflowLimit : ℚ :=
  2 ^ 1024 - 2 ^ 970

/-- A rational number is rounded to the double. Its sign is not spoken of, since there are two
zeros. -/
inductive RoundsTo (q : ℚ) (x : Float) : Prop
  /-- No finite double is nearer, and if another number is as near, the last bit is zero. -/
  | nearest (h : |q| < overflowLimit) (h_finite : x.isFinite)
      (h_nearest : ∀ y : Float, y.isFinite → |exactValue x - q| ≤ |exactValue y - q|)
      (h_even : ∀ y : Float, y.isFinite → |exactValue y - q| = |exactValue x - q| →
        exactValue y ≠ exactValue x → x.toBits.toNat % 2 = 0)
  /-- The number is too large, positive or negative, for the finite doubles. -/
  | overflow (h : overflowLimit ≤ |q|) (h_infinite : x.isInf)

/-- A number with its sign. -/
def applySign (negative : Bool) (q : ℚ) : ℚ :=
  if negative then -q else q

/-- The sign does not count for the absolute value. -/
theorem abs_applySign (negative : Bool) {q : ℚ} (h : 0 ≤ q) : |applySign negative q| = q := by
  cases negative with
  | false => exact abs_of_nonneg h
  | true => exact (abs_neg q).trans (abs_of_nonneg h)

/-- Numbers of one sign are as far apart as their absolute values. -/
theorem abs_applySign_sub (negative : Bool) (p q : ℚ) :
    |applySign negative p - applySign negative q| = |p - q| := by
  cases negative with
  | false => rfl
  | true => rw [applySign, applySign, if_pos rfl, if_pos rfl, neg_sub_neg, abs_sub_comm]

/-! ### Doubles of a given magnitude -/

section Magnitude

variable {m : Nat} (negative : Bool)

/-- The bits of a double of a given magnitude, by fields. It is a number, so its bits are kept as
they are. -/
theorem toBitVec_toBits_ofMagnitude (h : m ≤ infiniteMagnitude) :
    (ofMagnitude negative m).toBits.toBitVec =
      bitsOf (if negative then .negative else .positive) (BitVec.ofNat 11 (m >>> 52))
        (BitVec.ofNat 52 (m % 1 <<< 52)) := by
  unfold ofMagnitude
  change pack .binary64 (unpack .binary64 (UInt64.ofNat _).toBitVec) = _
  rw [toBitVec_ofMagnitude h, pack_unpack_bitsOf _ _ _ (fraction_eq_zero_of_ones h)]

/-- **The bits of a double**: its magnitude, and the highest bit for the sign. -/
theorem toNat_toBits_ofMagnitude (h : m ≤ infiniteMagnitude) :
    (ofMagnitude negative m).toBits.toNat = if negative then 2 ^ 63 + m else m := by
  have h_bits := toBitVec_toBits_ofMagnitude negative h
  have h_bound : m ≤ 0x7FF * 2 ^ 52 := h
  rw [← toBitVec_ofMagnitude h, UInt64.toBitVec_inj] at h_bits
  rw [h_bits, UInt64.toNat_ofNat']
  cases negative with
  | false =>
    simp only [Bool.false_eq_true, if_false]
    omega
  | true =>
    simp only [if_true, Nat.shiftLeft_eq]
    omega

/-- The highest bit of a double that a fraction is rounded to is its sign. -/
theorem signBit_nearest (num den : Nat) :
    2 ^ 63 ≤ (nearest negative num den).toBits.toNat ↔ negative := by
  have h_magnitude : nearestMagnitude num den ≤ 0x7FF * 2 ^ 52 := Nat.min_le_right _ _
  rw [nearest, toNat_toBits_ofMagnitude negative h_magnitude]
  cases negative with
  | false =>
    simp only [Bool.false_eq_true, if_false, iff_false]
    omega
  | true => simp only [if_true, Nat.le_add_right]

/-- What a double of a given magnitude is taken apart into. -/
theorem unpack_ofMagnitude (h : m ≤ infiniteMagnitude) :
    (ofMagnitude negative m).toModel.unpack =
      unpack .binary64 (bitsOf (if negative then .negative else .positive)
        (BitVec.ofNat 11 (m >>> 52)) (BitVec.ofNat 52 (m % 1 <<< 52))) :=
  congrArg (unpack .binary64) (toBitVec_toBits_ofMagnitude negative h)

/-- The infinite magnitude is that of the two infinities. -/
theorem isInf_ofMagnitude : (ofMagnitude negative infiniteMagnitude).isInf := by
  cases negative <;> decide +kernel

/-- The exponent field of a finite magnitude holds its upper bits. -/
theorem toNat_exponentField (h : m < infiniteMagnitude) :
    (BitVec.ofNat 11 (m >>> 52)).toNat = m / 2 ^ 52 := by
  have h_bound : m < 0x7FF * 2 ^ 52 := h
  rw [BitVec.toNat_ofNat, Nat.shiftRight_eq_div_pow]
  omega

/-- The fraction holds its lower fifty-two bits. -/
theorem toNat_fractionField (m : Nat) :
    (BitVec.ofNat 52 (m % 1 <<< 52)).toNat = m % 2 ^ 52 := by
  rw [BitVec.toNat_ofNat, Nat.shiftLeft_eq]
  omega

/-- A finite magnitude does not have all ones in its exponent field. -/
theorem exponentField_ne_ones (h : m < infiniteMagnitude) :
    BitVec.ofNat 11 (m >>> 52) ≠ -1#11 := by
  intro h_ones
  have h_bound : m < 0x7FF * 2 ^ 52 := h
  have h_field := toNat_exponentField h
  have h_value : (-1#11).toNat = 2047 := rfl
  rw [h_ones, h_value] at h_field
  omega

/-- Below the infinite magnitude all doubles are finite. -/
theorem isFinite_ofMagnitude (h : m < infiniteMagnitude) : (ofMagnitude negative m).isFinite := by
  change (ofMagnitude negative m).toModel.unpack.isFinite
  rw [unpack_ofMagnitude negative (Nat.le_of_lt h), unpack]
  simp only [unpackExponent_bitsOf, unpackMantissa_bitsOf]
  rw [if_neg (exponentField_ne_ones h)]
  split
  · split <;> rfl
  · rfl

theorem cast_one_shiftLeft (n : Nat) : ((1 <<< n : Nat) : ℚ) = 2 ^ n := by
  rw [Nat.one_shiftLeft, Nat.cast_pow, Nat.cast_ofNat]

theorem cast_unitsInOne : (unitsInOne : ℚ) = 2 ^ 1074 :=
  cast_one_shiftLeft 1074

/-- The sign of the float model is `applySign` on rational numbers. -/
theorem cast_apply (n : Nat) :
    (((if negative then .negative else .positive : Sign).apply n : ℤ) : ℚ) =
      applySign negative n := by
  cases negative with
  | false => exact Int.cast_natCast n
  | true => exact (Int.cast_neg _).trans (congrArg Neg.neg (Int.cast_natCast n))

/-- A factor may be put under the sign. -/
theorem applySign_mul (p q : ℚ) : applySign negative p * q = applySign negative (p * q) := by
  cases negative with
  | false => rfl
  | true => exact neg_mul p q

/-- The scale of an exponent field: one unit, so often doubled. -/
theorem two_zpow_eq (doublings : Nat) :
    (2 : ℚ) ^ ((doublings : ℤ) - 1074) = 2 ^ doublings / unitsInOne := by
  have h_exponent : (2 : ℚ) ^ (1074 : ℤ) = 2 ^ 1074 := zpow_natCast 2 1074
  rw [cast_unitsInOne, zpow_sub₀ two_ne_zero, zpow_natCast, h_exponent]

/-- **A finite double stands for its sign and so many units.** -/
theorem exactValue_ofMagnitude (h : m < infiniteMagnitude) :
    exactValue (ofMagnitude negative m) = applySign negative (units m / unitsInOne) := by
  have h_exponent := toNat_exponentField h
  have h_low := toNat_fractionField m
  rw [exactValue, unpack_ofMagnitude negative (Nat.le_of_lt h), unpack]
  simp only [unpackSign_bitsOf, unpackExponent_bitsOf, unpackMantissa_bitsOf]
  rw [if_neg (exponentField_ne_ones h)]
  -- the exponent field is zero or not, and `units` tells the same two cases apart
  rcases units_cases m with ⟨h_small, h_units⟩ | ⟨doublings, fraction, h_m, h_fraction, h_units⟩
  · rw [Nat.div_eq_of_lt h_small] at h_exponent
    rw [Nat.mod_eq_of_lt h_small] at h_low
    have h_subnormal : BitVec.ofNat 11 (m >>> 52) = 0#11 := BitVec.eq_of_toNat_eq h_exponent
    rw [if_pos h_subnormal, h_units]
    by_cases h_zero : BitVec.ofNat 52 (m % 1 <<< 52) = 0#52
    · have h_m : m = 0 := by
        rw [← h_low, h_zero]
        rfl
      rw [dif_pos h_zero, h_m]
      cases negative <;> simp [applySign]
    · rw [dif_neg h_zero]
      change ((Sign.apply _ ((BitVec.ofNat 52 (m % 1 <<< 52)).toNat : ℤ) : ℤ) : ℚ) *
        (2 : ℚ) ^ (((BitVec.ofNat 11 (m >>> 52)).toNat : ℤ) - 1075 + 1) = _
      rw [h_low, h_exponent, cast_apply, applySign_mul]
      change applySign negative (m * (2 : ℚ) ^ (((0 : Nat) : ℤ) - 1074)) = _
      rw [two_zpow_eq, pow_zero, mul_one_div]
  · have h_quotient : m / 2 ^ 52 = doublings + 1 := by omega
    have h_remainder : m % 2 ^ 52 = fraction := by omega
    rw [h_quotient] at h_exponent
    rw [h_remainder] at h_low
    -- a leading bit is put in front of the fraction, and the exponent counts from one
    have h_normal : BitVec.ofNat 11 (m >>> 52) ≠ 0#11 := by
      intro h_zero
      rw [h_zero] at h_exponent
      exact absurd h_exponent (Nat.succ_ne_zero doublings).symm
    have h_mantissa : (1#1 ++ BitVec.ofNat 52 (m % 1 <<< 52)).toNat = 2 ^ 52 + fraction := by
      rw [BitVec.toNat_append, h_low, ← Nat.shiftLeft_add_eq_or_of_lt h_fraction]
      rfl
    have h_scale : ((doublings + 1 : Nat) : ℤ) - 1075 = (doublings : ℤ) - 1074 := by omega
    rw [if_neg h_normal, h_units]
    change ((Sign.apply _ ((1#1 ++ BitVec.ofNat 52 (m % 1 <<< 52)).toNat : ℤ) : ℤ) : ℚ) *
      (2 : ℚ) ^ (((BitVec.ofNat 11 (m >>> 52)).toNat : ℤ) - 1075) = _
    rw [h_mantissa, h_exponent, h_scale, cast_apply, applySign_mul, two_zpow_eq, Nat.cast_mul,
      Nat.cast_pow, Nat.cast_ofNat, mul_div_assoc]

end Magnitude

/-! ### Midpoints and distances -/

/-- One is a positive number of units. -/
theorem cast_unitsInOne_pos : (0 : ℚ) < unitsInOne :=
  Nat.cast_pos.mpr unitsInOne_pos

section Fraction

variable (num : Nat) {den : Nat} (h_den : 0 < den)

include h_den

/-- Twice a fraction, compared with the sum of two doubles. -/
theorem twice_le_iff (a b : Nat) :
    2 * (num * unitsInOne) ≤ (a + b) * den ↔
      2 * (num / den : ℚ) ≤ a / unitsInOne + b / unitsInOne := by
  rw [← add_div, ← mul_div_assoc, div_le_div_iff₀ (Nat.cast_pos.mpr h_den) cast_unitsInOne_pos,
    mul_assoc]
  exact_mod_cast Iff.rfl

/-- The same comparison the other way around. -/
theorem le_twice_iff (a b : Nat) :
    (a + b) * den ≤ 2 * (num * unitsInOne) ↔
      (a / unitsInOne + b / unitsInOne : ℚ) ≤ 2 * (num / den) := by
  rw [← add_div, ← mul_div_assoc, div_le_div_iff₀ cast_unitsInOne_pos (Nat.cast_pos.mpr h_den),
    mul_assoc]
  exact_mod_cast Iff.rfl

end Fraction

/-- What lies below the middle is nearer to the lower end. -/
theorem abs_sub_le_of_twice_le {u u' q : ℚ} (h : u < u') (h_middle : 2 * q ≤ u + u') :
    |u - q| ≤ |u' - q| ∧ (|u' - q| = |u - q| → u + u' ≤ 2 * q) := by
  have h_upper : |u' - q| = u' - q := abs_of_pos (by linarith)
  rw [h_upper]
  refine ⟨abs_le.mpr ⟨by linarith, by linarith⟩, ?_⟩
  intro h_equal
  rcases abs_cases (u - q) with ⟨h_abs, -⟩ | ⟨h_abs, -⟩ <;> linarith

/-- What lies above the middle is nearer to the upper end. -/
theorem abs_sub_le_of_le_twice {u u' q : ℚ} (h : u' < u) (h_middle : u' + u ≤ 2 * q) :
    |u - q| ≤ |u' - q| ∧ (|u' - q| = |u - q| → 2 * q ≤ u' + u) := by
  have h_lower : |u' - q| = q - u' := by
    rw [abs_sub_comm]
    exact abs_of_pos (by linarith)
  rw [h_lower]
  refine ⟨abs_le.mpr ⟨by linarith, by linarith⟩, ?_⟩
  intro h_equal
  rcases abs_cases (u - q) with ⟨h_abs, -⟩ | ⟨h_abs, -⟩ <;> linarith

/-- **A fraction is nearest to the magnitude that it belongs to**, and another magnitude is as near
only if this one is even. -/
theorem abs_sub_le_of_holds {m num den : Nat} (h_den : 0 < den)
    (h : Holds m (num * unitsInOne) den) (m' : Nat) :
    |(units m / unitsInOne : ℚ) - num / den| ≤ |(units m' / unitsInOne : ℚ) - num / den| ∧
      (|(units m' / unitsInOne : ℚ) - num / den| = |(units m / unitsInOne : ℚ) - num / den| →
        m' ≠ m → m % 2 = 0) := by
  have h_units : ∀ {a b : Nat}, a < b →
      (units a / unitsInOne : ℚ) < units b / unitsInOne := fun h_less =>
    div_lt_div_of_pos_right (Nat.cast_lt.mpr (strictMono_units h_less)) cast_unitsInOne_pos
  -- the other magnitude lies above, is the same, or lies below
  rcases Nat.lt_trichotomy m m' with h_less | rfl | h_less
  · have h_above := h.above m' h_less
    obtain ⟨h_near, h_equal⟩ := abs_sub_le_of_twice_le (h_units h_less)
      ((twice_le_iff num h_den (units m) (units m')).mp (by omega))
    refine ⟨h_near, fun h_distance _ => ?_⟩
    have h_middle := (le_twice_iff num h_den (units m) (units m')).mpr (h_equal h_distance)
    omega
  · exact ⟨le_refl _, fun _ h_ne => absurd rfl h_ne⟩
  · have h_below := h.below m' h_less
    obtain ⟨h_near, h_equal⟩ := abs_sub_le_of_le_twice (h_units h_less)
      ((le_twice_iff num h_den (units m') (units m)).mp (by omega))
    refine ⟨h_near, fun h_distance _ => ?_⟩
    have h_middle := (twice_le_iff num h_den (units m') (units m)).mpr (h_equal h_distance)
    omega

/-! ### Rounding -/

/-- The limit is the middle between the greatest finite magnitude and the infinite one. -/
theorem two_mul_overflowLimit :
    2 * overflowLimit =
      units (infiniteMagnitude - 1) / unitsInOne + units infiniteMagnitude / unitsInOne := by
  have h_place : infiniteMagnitude - 1 = 2045 * 2 ^ 52 + (2 ^ 53 - 1) := by decide
  have h_greatest := units_scaled 2045 (2 ^ 53 - 1) (by decide) (.inr (by decide))
  have h_infinite := units_scaled 2045 (2 ^ 53) (by decide) (.inr (by decide))
  rw [← h_place] at h_greatest
  rw [← infiniteMagnitude_eq] at h_infinite
  have h_limit : (2 : ℚ) ^ 1024 = 2 ^ 970 * 2 ^ 54 := pow_add 2 970 54
  have h_scale : ((2 ^ 2045 : Nat) : ℚ) = 2 ^ 970 * 2 ^ 1074 * 2 := by
    rw [Nat.cast_pow, Nat.cast_ofNat, ← pow_add, ← pow_succ]
  rw [h_greatest, h_infinite, ← add_div, eq_div_iff cast_unitsInOne_pos.ne', overflowLimit,
    cast_unitsInOne, Nat.cast_mul, Nat.cast_mul, h_scale, h_limit]
  -- the powers are too large to be worked out, and only their ratio matters
  generalize (2 : ℚ) ^ 970 = middle
  generalize (2 : ℚ) ^ 1074 = unit
  norm_num
  ring

/-- A fraction is rounded to a finite double if and only if it is below the limit. -/
theorem nearestMagnitude_lt_iff_lt_overflowLimit (num : Nat) {den : Nat} (h : 0 < den) :
    nearestMagnitude num den < infiniteMagnitude ↔ (num / den : ℚ) < overflowLimit := by
  rw [nearestMagnitude_lt_iff num h, ← not_le, le_twice_iff num h, ← two_mul_overflowLimit, not_le,
    mul_lt_mul_iff_right₀ two_pos]

/-- Two doubles of one magnitude are equally near only if they stand for the same number: the one of
the other sign is further away than zero is. -/
theorem applySign_eq_of_distance {negative negative' : Bool} {m : Nat} {q : ℚ} (h_q : 0 ≤ q)
    (h_equal : |applySign negative' (units m / unitsInOne) - applySign negative q| =
      |(units m / unitsInOne : ℚ) - q|)
    (h_zero : |(units m / unitsInOne : ℚ) - q| ≤ |(units 0 / unitsInOne : ℚ) - q|) :
    applySign negative' (units m / unitsInOne) = applySign negative (units m / unitsInOne) := by
  have h_units : (0 : ℚ) ≤ units m / unitsInOne :=
    div_nonneg (Nat.cast_nonneg _) (Nat.cast_nonneg _)
  have h_origin : |(units 0 / unitsInOne : ℚ) - q| = q := by
    have h_none : units 0 = 0 := rfl
    rw [h_none, Nat.cast_zero, zero_div, zero_sub, abs_neg, abs_of_nonneg h_q]
  generalize (units m / unitsInOne : ℚ) = u at h_equal h_zero h_units ⊢
  -- with the same sign there is nothing to show; with the other sign the double must be zero
  by_cases h_sign : negative' = negative
  · rw [h_sign]
  · have h_opposite : applySign negative' u = applySign negative (-u) := by
      obtain rfl : negative' = !negative := Bool.eq_not_of_ne h_sign
      cases negative with
      | false => rfl
      | true => exact (neg_neg u).symm
    have h_far : |-u - q| = u + q := by
      rw [← neg_add', abs_neg, abs_of_nonneg (add_nonneg h_units h_q)]
    rw [h_opposite, abs_applySign_sub, h_far] at h_equal
    obtain rfl : u = 0 := by linarith
    rw [h_opposite, neg_zero]

/-- **Rounding goes to the nearest double**, and to an infinity from the limit on. -/
theorem roundsTo_nearest (negative : Bool) (num : Nat) {den : Nat} (h : 0 < den) :
    RoundsTo (applySign negative (num / den)) (nearest negative num den) := by
  have h_nonneg : (0 : ℚ) ≤ num / den := div_nonneg num.cast_nonneg den.cast_nonneg
  have h_abs : |applySign negative (num / den : ℚ)| = num / den := abs_applySign negative h_nonneg
  have h_limit := nearestMagnitude_lt_iff_lt_overflowLimit num h
  unfold nearest
  by_cases h_finite : nearestMagnitude num den < infiniteMagnitude
  · have h_near := abs_sub_le_of_holds h (holds_nearestMagnitude h h_finite)
    generalize nearestMagnitude num den = m at h_finite h_limit h_near ⊢
    have h_value := exactValue_ofMagnitude negative h_finite
    -- a double of any sign is at least as far away as its magnitude
    have h_distance : ∀ negative' m', |(units m' / unitsInOne : ℚ) - num / den| ≤
        |applySign negative' (units m' / unitsInOne) - applySign negative (num / den)| := by
      intro negative' m'
      have h_m' : (0 : ℚ) ≤ units m' / unitsInOne :=
        div_nonneg (Nat.cast_nonneg _) (Nat.cast_nonneg _)
      have h_le := abs_abs_sub_abs_le_abs_sub (applySign negative' (units m' / unitsInOne))
        (applySign negative (num / den))
      rwa [abs_applySign negative' h_m', h_abs] at h_le
    refine .nearest (by rw [h_abs]; exact h_limit.mp h_finite) (isFinite_ofMagnitude _ h_finite)
      ?_ ?_
    · intro y h_y
      -- every finite double has a sign and a magnitude, so it is one of those compared
      obtain ⟨negative', m', -, h_m', rfl⟩ := exists_parts_of_isFinite h_y
      rw [h_value, exactValue_ofMagnitude negative' h_m', abs_applySign_sub]
      exact (h_near m').1.trans (h_distance negative' m')
    · intro y h_y h_equal h_ne
      obtain ⟨negative', m', -, h_m', rfl⟩ := exists_parts_of_isFinite h_y
      rw [h_value, exactValue_ofMagnitude negative' h_m', abs_applySign_sub] at h_equal
      rw [h_value, exactValue_ofMagnitude negative' h_m'] at h_ne
      have h_other : m' ≠ m := by
        rintro rfl
        exact h_ne (applySign_eq_of_distance h_nonneg h_equal (h_near 0).1)
      -- as near with its sign, so as near without it; then the midpoint tells that `m` is even
      have h_even := (h_near m').2 (le_antisymm ((h_distance negative' m').trans_eq h_equal)
        (h_near m').1) h_other
      rw [toNat_toBits_ofMagnitude negative (Nat.le_of_lt h_finite)]
      split <;> omega
  · have h_size : nearestMagnitude num den = infiniteMagnitude :=
      Nat.le_antisymm (Nat.min_le_right _ _) (Nat.le_of_not_lt h_finite)
    rw [h_size]
    refine .overflow ?_ (isInf_ofMagnitude negative)
    rw [h_abs]
    exact not_lt.mp (mt h_limit.mpr h_finite)

end LineScript.Number
