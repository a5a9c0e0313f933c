/-
This file shows that rounding to places behind the point always gives a float.

The largest finite float lies half a unit below the bound of the range. It is a whole number, and
so is every float that is near it, so rounding to units of one or less never reaches the bound.
-/

import WordArithmetic.Number.Places

namespace WordArithmetic

/-- The largest number of fifty-three bits, the last of which is worth two to `top`. -/
def largestFinite (top : Nat) : Nat := (Nat.pow 2 53 - 1) * Nat.pow 2 top

/-- A finite float has fifty-three bits, the last of which is worth two to 971 at most. -/
theorem FloatShape.bounds {number : Float} {parts : Binary}
    (finite : ofFloat number = .finite parts) :
    parts.significand ≤ Nat.pow 2 53 - 1 ∧ parts.exponent ≤ 971 := by
  have fraction : number.toBits.toNat % Nat.pow 2 52 < Nat.pow 2 52 := Nat.mod_lt _ (by decide)
  have field : number.toBits.toNat / Nat.pow 2 52 % Nat.pow 2 11 < Nat.pow 2 11 :=
    Nat.mod_lt _ (by decide)
  have powers : Nat.pow 2 52 = 4503599627370496 ∧ Nat.pow 2 53 = 9007199254740992 ∧
      Nat.pow 2 11 = 2048 := by decide
  obtain ⟨fractionBits, bits, fieldBits⟩ := powers
  rw [ofFloat, ofBits] at finite
  split at finite
  · split at finite <;> cases finite
  · rename_i notSpecial
    rw [beq_iff_eq] at notSpecial
    split at finite
    · obtain rfl := FloatShape.finite.inj finite
      dsimp only
      omega
    · obtain rfl := FloatShape.finite.inj finite
      dsimp only
      omega

/-- What is at most a whole number rounds to at most that number. -/
theorem roundDiv_le {numerator denominator bound : Nat} (positive : 0 < denominator)
    (below : numerator ≤ bound * denominator) : roundDiv numerator denominator ≤ bound := by
  have near := (roundDiv_near numerator positive).1
  refine Nat.le_of_not_lt fun more => ?_
  have next : (bound + 1) * denominator ≤ roundDiv numerator denominator * denominator :=
    Nat.mul_le_mul_right _ more
  rw [Nat.add_mul, Nat.one_mul] at next
  omega

/-- The units of a float are within the range of floats. -/
theorem roundedUnits_le {parts : Binary} {top : Nat}
    (significand : parts.significand ≤ Nat.pow 2 53 - 1) (exponent : parts.exponent ≤ top)
    (places : Nat) : roundedUnits parts places ≤ largestFinite top * Nat.pow 10 places := by
  have power : Nat.pow 2 parts.exponent.toNat ≤ Nat.pow 2 top :=
    Nat.pow_le_pow_right (by decide) (by omega)
  have whole : parts.significand * Nat.pow 2 parts.exponent.toNat ≤ largestFinite top :=
    Nat.mul_le_mul significand power
  have positive : 0 < Nat.pow 2 (-parts.exponent).toNat * Nat.pow 10 (-(places : Int)).toNat :=
    Nat.mul_pos Nat.one_le_two_pow (Nat.pow_pos (by decide))
  refine roundDiv_le positive ?_
  rw [Int.toNat_natCast]
  exact Nat.le_trans (Nat.mul_le_mul_right _ whole) (Nat.le_mul_of_pos_right _ positive)

theorem largestFinite_lt_floatBound : largestFinite 971 < floatBound := by decide +kernel

/-- Units behind the point stay within the range of floats. -/
theorem isBeyondFloats_eq_false {units places : Nat}
    (inside : units ≤ largestFinite 971 * Nat.pow 10 places) :
    isBeyondFloats units (-places) = false := by
  have positive : 0 < Nat.pow 10 places := Nat.pow_pos (by decide)
  have front : (-(places : Int)).toNat = 0 := by omega
  have behind : (- -(places : Int)).toNat = places := by omega
  rw [isBeyondFloats, scaledRatio, front, behind]
  simp only [Int.toNat_zero, Int.neg_zero, Nat.pow_eq, Nat.pow_zero, Nat.mul_one, Nat.one_mul,
    decide_eq_false_iff_not, Nat.not_le]
  exact Nat.lt_of_le_of_lt inside
    (Nat.mul_lt_mul_of_pos_right largestFinite_lt_floatBound positive)

/-- To places behind the point every float can be rounded. -/
theorem exists_roundTo (places : Nat) (number : Float) :
    ∃ result, roundTo places number = .ok result := by
  rw [roundTo]
  split
  · rename_i parts finite
    obtain ⟨significand, exponent⟩ := FloatShape.bounds finite
    have inside : isBeyondFloats (roundedUnits parts places) (-places) = false :=
      isBeyondFloats_eq_false (roundedUnits_le significand exponent places)
    simp only [inside, Bool.false_eq_true, if_false]
    split
    · exact ⟨_, rfl⟩
    · split
      · exact ⟨_, rfl⟩
      · exact ⟨_, rfl⟩
  · exact ⟨_, rfl⟩

end WordArithmetic
