import LineScript.Number.Literal
import Mathlib

/-!
# The negative of a literal

A literal with a minus sign is read as one number: the sign goes into the sign bit of the double,
and nothing is negated. A minus sign that stands apart from its literal negates a number that was
read without it. The two come to the same double.

* `pack_unpack_bitsOf`: a double that is a number survives being taken apart into sign, mantissa and
  exponent and put together again;
* `neg_ofMagnitude`: so negating a double of a given magnitude only flips its sign bit;
* `neg_value`: a literal with a minus sign is the negative of the literal without it.
-/

namespace LineScript.Number

open Float.Model (Format)
open Float.Model.UnpackedFloat

/-! ### The sign bit -/

section Components

variable (s : Sign) (e : BitVec 11) (m : BitVec 52)

/-- The bits of the double with the given sign, exponent field and fraction. -/
def bitsOf : BitVec (Format.numBits .binary64) :=
  packComponents .binary64 s e m

/-- The three fields stand side by side and do not overlap. -/
theorem toNat_bitsOf :
    (bitsOf s e m).toNat = s.toBitVec.toNat <<< 63 + e.toNat <<< 52 + m.toNat := by
  have h_m : m.toNat < 2 ^ 52 := m.isLt
  have h_e : e.toNat < 2 ^ 11 := e.isLt
  -- joining fields is adding, since each one fits below the one in front of it
  have h_fields : (s.toBitVec ++ e).toNat = s.toBitVec.toNat * 2 ^ 11 + e.toNat := by
    rw [BitVec.toNat_append, ← Nat.shiftLeft_add_eq_or_of_lt h_e, Nat.shiftLeft_eq]
  have h_bits : (bitsOf s e m).toNat = (s.toBitVec ++ e).toNat <<< 52 ||| m.toNat :=
    BitVec.toNat_append ..
  rw [h_bits, ← Nat.shiftLeft_add_eq_or_of_lt h_m, h_fields]
  simp only [Nat.shiftLeft_eq]
  omega

/-- The sign is found again. -/
theorem unpackSign_bitsOf : Sign.ofBitVec (unpackSign (bitsOf s e m)) = s := by
  rw [bitsOf, unpackSign_packComponents, Sign.ofBitVec_toBitVec]

/-- The exponent field is found again. -/
theorem unpackExponent_bitsOf : unpackExponent (bitsOf s e m) = e :=
  unpackExponent_packComponents

/-- The fraction is found again. -/
theorem unpackMantissa_bitsOf : unpackMantissa (bitsOf s e m) = m :=
  unpackMantissa_packComponents

/-- Negating a double flips its sign. -/
theorem neg_unpack_bitsOf :
    (unpack .binary64 (bitsOf s e m)).neg = unpack .binary64 (bitsOf (-s) e m) := by
  simp only [unpack, unpackSign_bitsOf, unpackExponent_bitsOf, unpackMantissa_bitsOf]
  split
  · -- all ones in the exponent field: an infinity or no number
    split <;> rfl
  · split
    · split <;> rfl
    · rfl

/-- A double that is a number survives being taken apart and put together again. -/
theorem pack_unpack_bitsOf (h : e = -1#11 → m = 0#52) :
    pack .binary64 (unpack .binary64 (bitsOf s e m)) = bitsOf s e m := by
  -- only what is not a number loses its bits
  have h_nan : isNaNBits (bitsOf s e m) = false := by
    rw [isNaNBits, unpackExponent_bitsOf, unpackMantissa_bitsOf, decide_eq_false_iff_not]
    exact fun h_nan => h_nan.2 (h h_nan.1)
  rw [pack_unpack, h_nan]
  exact if_neg Bool.false_ne_true

end Components

/-! ### Magnitudes and literals -/

/-- The bits of the double with the given sign and magnitude. The magnitude is the exponent field
followed by the fraction. -/
theorem toBitVec_ofMagnitude {magnitude : Nat} (h : magnitude ≤ infiniteMagnitude)
    (negative : Bool) :
    (UInt64.ofNat (if negative then 1 <<< 63 + magnitude else magnitude)).toBitVec =
      bitsOf (if negative then .negative else .positive) (BitVec.ofNat 11 (magnitude >>> 52))
        (BitVec.ofNat 52 (magnitude % 1 <<< 52)) := by
  have h_bound : magnitude ≤ 0x7FF * 2 ^ 52 := h
  refine BitVec.eq_of_toNat_eq ?_
  rw [toNat_bitsOf, UInt64.toNat_toBitVec, UInt64.toNat_ofNat', BitVec.toNat_ofNat,
    BitVec.toNat_ofNat]
  simp only [Nat.shiftLeft_eq, Nat.shiftRight_eq_div_pow, Nat.one_mul]
  -- both sides are the same sum of sign bit, exponent field and fraction
  cases negative with
  | false =>
    have h_sign : Sign.positive.toBitVec.toNat = 0 := rfl
    simp only [Bool.false_eq_true, if_false, h_sign]
    omega
  | true =>
    have h_sign : Sign.negative.toBitVec.toNat = 1 := rfl
    simp only [if_true, h_sign]
    omega

/-- A magnitude is that of a number: only the infinite one has all ones in its exponent field, and
then no fraction follows. -/
theorem fraction_eq_zero_of_ones {magnitude : Nat} (h : magnitude ≤ infiniteMagnitude) :
    BitVec.ofNat 11 (magnitude >>> 52) = -1#11 → BitVec.ofNat 52 (magnitude % 1 <<< 52) = 0#52 := by
  intro h_infinite
  have h_bound : magnitude ≤ 0x7FF * 2 ^ 52 := h
  have h_exponent := congrArg BitVec.toNat h_infinite
  rw [BitVec.toNat_ofNat, Nat.shiftRight_eq_div_pow] at h_exponent
  have h_ones : (-1#11).toNat = 2047 := rfl
  refine BitVec.eq_of_toNat_eq ?_
  rw [BitVec.toNat_ofNat, BitVec.toNat_ofNat, Nat.shiftLeft_eq]
  omega

/-- **Negating a double of a given magnitude only flips its sign bit.** -/
theorem neg_ofMagnitude {magnitude : Nat} (h : magnitude ≤ infiniteMagnitude) :
    -ofMagnitude false magnitude = ofMagnitude true magnitude := by
  have h_positive := toBitVec_ofMagnitude h false
  have h_negative := toBitVec_ofMagnitude h true
  unfold ofMagnitude
  -- the bits are taken apart once, and put together and taken apart again before the negation
  change Float.ofModel (Float.Model.pack (unpack .binary64
    (pack .binary64 (unpack .binary64 (UInt64.ofNat _).toBitVec))).neg) =
      Float.ofModel (Float.Model.pack (unpack .binary64 (UInt64.ofNat _).toBitVec))
  rw [h_positive, h_negative, pack_unpack_bitsOf _ _ _ (fraction_eq_zero_of_ones h),
    neg_unpack_bitsOf]
  rfl

/-- The sign of a literal has no part in its magnitude, whichever shortcut its value takes. -/
theorem exists_magnitude_value (l : Literal) :
    ∃ magnitude ≤ infiniteMagnitude, ∀ negative,
      ({ l with negative } : Literal).value = ofMagnitude negative magnitude := by
  unfold Literal.value
  dsimp only
  by_cases h_zero : l.coefficient = 0 || l.exponent + l.width ≤ -324
  · exact ⟨0, Nat.zero_le _, fun _ => if_pos h_zero⟩
  by_cases h_large : 309 ≤ l.exponent
  · refine ⟨infiniteMagnitude, Nat.le_refl _, fun _ => ?_⟩
    rw [if_neg h_zero, if_pos h_large]
  by_cases h_whole : 0 ≤ l.exponent
  · refine ⟨nearestMagnitude (l.coefficient * Nat.pow 10 l.exponent.toNat) 1, Nat.min_le_right _ _,
      fun _ => ?_⟩
    rw [if_neg h_zero, if_neg h_large, if_pos h_whole, nearest]
  · refine ⟨nearestMagnitude l.coefficient (Nat.pow 10 (-l.exponent).toNat), Nat.min_le_right _ _,
      fun _ => ?_⟩
    rw [if_neg h_zero, if_neg h_large, if_neg h_whole, nearest]

/-- A literal with a minus sign is the negative of the literal without it. -/
theorem neg_value (l : Literal) :
    -({ l with negative := false } : Literal).value =
      ({ l with negative := true } : Literal).value := by
  obtain ⟨magnitude, h_bound, h_value⟩ := exists_magnitude_value l
  rw [h_value, h_value, neg_ofMagnitude h_bound]

end LineScript.Number
