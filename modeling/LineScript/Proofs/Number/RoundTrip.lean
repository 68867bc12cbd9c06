import LineScript.Proofs.Number.Written
import LineScript.Proofs.Resolve.Endings
import LineScript.Proofs.Resolve.Values

/-!
# Printed numbers read back exactly

A finite double is its sign and its magnitude, and nothing else: put together again they are the
same sixty-four bits. The written form has the sign in front of the text of the magnitude, and that
text is read as the magnitude. So the double that is read is the double that was written, and since
the text is a literal without blanks at its ends, it means that double wherever values are read.

* `exists_parts_of_isFinite`: a finite double is put together again from its parts;
* `parse?_display`: its text is read as the double itself;
* `display_reads_back`: **the same holds of settings, and of expressions in every scope**.
-/

namespace LineScript

open Float.Model (Format)
open Float.Model.UnpackedFloat

namespace Number

/-! ### Finite doubles -/

/-- The exponent field as a number. -/
theorem toNat_unpackExponent (b : BitVec (Format.numBits .binary64)) :
    (unpackExponent b).toNat = b.toNat / 2 ^ 52 % 2 ^ 11 := by
  rw [unpackExponent, BitVec.toNat_cast, BitVec.extractLsb_toNat, Nat.shiftRight_eq_div_pow]
  rfl

/-- An exponent field of all ones is that of an infinity or of what is not a number. -/
theorem unpackExponent_ne_of_isFinite {b : BitVec (Format.numBits .binary64)}
    (h : (unpack .binary64 b).isFinite) : unpackExponent b ≠ -1#11 := by
  intro h_ones
  have h_infinite : (unpack .binary64 b).isFinite = false := by
    unfold unpack
    rw [if_pos h_ones]
    split <;> rfl
  exact Bool.false_ne_true (h_infinite.symm.trans h)

/-- **A finite double is put together again from its sign and magnitude.** -/
theorem exists_parts_of_isFinite {x : Float} (h : x.isFinite) :
    ∃ negative magnitude, parts x = .finite negative magnitude ∧ magnitude < infiniteMagnitude ∧
      ofMagnitude negative magnitude = x := by
  have h_infinite : infiniteMagnitude = 2047 * 2 ^ 52 := rfl
  have h_bits : x.toBits.toNat < 2 ^ 64 := x.toBits.toNat_lt
  -- finite means that the exponent field is not all ones
  have h_exponent : x.toBits.toNat / 2 ^ 52 % 2 ^ 11 ≠ 2047 := by
    intro h_ones
    refine unpackExponent_ne_of_isFinite h (BitVec.eq_of_toNat_eq ?_)
    rw [toNat_unpackExponent]
    exact h_ones
  -- so what is left without the sign bit stays below the infinite magnitude
  have h_finite : x.toBits.toNat % 1 <<< 63 < infiniteMagnitude := by
    rw [h_infinite, Nat.shiftLeft_eq]
    omega
  refine ⟨1 <<< 63 ≤ x.toBits.toNat, x.toBits.toNat % 1 <<< 63, ?_, h_finite, ?_⟩
  · unfold parts
    dsimp only
    rw [if_neg (Nat.not_lt_of_lt h_finite), if_neg (Nat.ne_of_lt h_finite)]
  · -- the sign bit and the magnitude make up all bits
    have h_all : (if decide (1 <<< 63 ≤ x.toBits.toNat) then 1 <<< 63 + x.toBits.toNat % 1 <<< 63
        else x.toBits.toNat % 1 <<< 63) = x.toBits.toNat := by
      rw [Nat.shiftLeft_eq]
      split
      · next h_sign =>
        have h_sign := of_decide_eq_true h_sign
        omega
      · next h_sign =>
        have h_sign := of_decide_eq_false (Bool.eq_false_iff.mpr h_sign)
        omega
    rw [ofMagnitude, h_all, UInt64.ofNat_toNat, Float.ofBits_toBits]

/-- **The text of a finite double is read as the double itself.** -/
theorem parse?_display {x : Float} (h : x.isFinite) : parse? (display x) = some x := by
  obtain ⟨negative, magnitude, h_parts, h_finite, h_x⟩ := exists_parts_of_isFinite h
  have h_display : display x = withSign negative (displayMagnitude magnitude) := by
    rw [display, h_parts]
    rfl
  rw [h_display, readsAs_displayMagnitude h_finite negative, h_x]

/-- A number literal has no blanks at its ends. -/
theorem trim_of_parse? {s : List Char} (h : (parse? s).isSome) : Text.trim s = s := by
  refine Text.trim_of_forall ?_
  intro c h_c
  -- every character of a literal is a digit, a point, a sign or an `e`
  rcases (spelling_of_parse? h).mem_cases h_c with h_mantissa | h_mark
  · exact Resolve.isBlank_eq_false_of_isRunChar (Resolve.isRunChar_of_isMantissaChar h_mantissa)
  · have h_marks : ['+', '-', 'e', 'E'].all fun c => !Text.isBlank c := by decide
    simpa using List.all_eq_true.mp h_marks c h_mark

end Number

/-! ### Values -/

/-- **Printed numbers read back exactly.** The written form of a finite double is read as that
double, bit for bit: as a number literal, as a setting, and as an expression in every scope. -/
theorem display_reads_back (x : Float) (h : x.isFinite) :
    (∀ scope : Scope, scope.resolve (Value.number x).display = .ok (.number x)) ∧
      Number.parse? (Value.number x).display.toList = some x ∧
      Value.ofSetting (Value.number x).display = .number x := by
  have h_text : (Value.number x).display.toList = Number.display x := String.toList_ofList
  have h_parse : Number.parse? (Value.number x).display.toList = some x := by
    rw [h_text]
    exact Number.parse?_display h
  have h_trim : Text.trim (Value.number x).display.toList = (Value.number x).display.toList :=
    Number.trim_of_parse? (by rw [h_parse]; rfl)
  refine ⟨?_, h_parse, ?_⟩
  · intro scope
    -- the resolver looks for a literal before anything else, so the scope is not asked
    refine Resolve.resolve_of_literal? scope h_trim ?_
    rw [Resolve.literal?, h_parse]
  · rw [Value.ofSetting, h_trim, h_parse]

/-- Zero keeps its sign. -/
theorem display_reads_back_negative_zero :
    (Number.ofMagnitude true 0).isFinite ∧
      (Value.number (Number.ofMagnitude true 0)).display = "-0.0" ∧
      (∀ scope : Scope, scope.resolve "-0.0" = .ok (.number (Number.ofMagnitude true 0))) ∧
      Number.parse? "-0.0".toList = some (Number.ofMagnitude true 0) ∧
      Value.ofSetting "-0.0" = .number (Number.ofMagnitude true 0) := by
  have h_finite : (Number.ofMagnitude true 0).isFinite := by decide +kernel
  have h_text : (Value.number (Number.ofMagnitude true 0)).display = "-0.0" := by decide +kernel
  have h_reads := display_reads_back (Number.ofMagnitude true 0) h_finite
  rw [h_text] at h_reads
  exact ⟨h_finite, h_text, h_reads⟩

end LineScript
