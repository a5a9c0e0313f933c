/-
This file shows that numbers are compared as points of the line.

Floats are compared by their parts: by sign, then by exponent, then by significand. That is the
order of the points for which they stand, because the significand of a float has all its bits
unless the exponent is the least one. Whole numbers are compared with floats as points already, so
all numbers are, and the undefined number is the only one that is no point. Without it comparison
is a linear order.
-/

import Mathlib.Algebra.Order.Field.Basic
import Mathlib.Algebra.Order.Field.Power
import Mathlib.Algebra.Order.Field.Rat
import Mathlib.Data.List.Induction
import Mathlib.Tactic.Positivity
import Mathlib.Tactic.Ring
import WordArithmetic.Score

namespace WordArithmetic

open Float.Model (UnpackedFloat Format)
open Float.Model.UnpackedFloat

/-! ### The parts of a float -/

section Bits

variable (bits : BitVec Format.binary64.numBits)

theorem toNat_unpackExponent :
    (unpackExponent bits).toNat = bits.toNat / Nat.pow 2 52 % Nat.pow 2 11 := by
  rw [unpackExponent, BitVec.toNat_cast, BitVec.extractLsb_toNat, Nat.shiftRight_eq_div_pow]
  rfl

theorem toNat_unpackMantissa : (unpackMantissa bits).toNat = bits.toNat % Nat.pow 2 52 := by
  rw [unpackMantissa, BitVec.toNat_cast, BitVec.extractLsb_toNat, Nat.shiftRight_zero]
  rfl

theorem unpackExponent_eq_iff (field : Nat) (small : field < Nat.pow 2 11) :
    unpackExponent bits = BitVec.ofNat Format.binary64.exponentBits field ↔
      bits.toNat / Nat.pow 2 52 % Nat.pow 2 11 = field := by
  rw [← BitVec.toNat_inj, toNat_unpackExponent, BitVec.toNat_ofNat]
  exact iff_of_eq (congrArg _ (Nat.mod_eq_of_lt small))

theorem unpackMantissa_eq_zero_iff :
    unpackMantissa bits = 0#_ ↔ bits.toNat % Nat.pow 2 52 = 0 := by
  rw [← BitVec.toNat_inj, toNat_unpackMantissa, BitVec.toNat_zero]

theorem unpackSign_eq_negative :
    (Sign.ofBitVec (unpackSign bits) == .negative) = (bits.toNat / Nat.pow 2 63 % 2 == 1) := by
  have value : (unpackSign bits).toNat = bits.toNat / Nat.pow 2 63 % 2 := by
    unfold unpackSign
    rw [BitVec.toNat_cast, BitVec.extractLsb_toNat, Nat.shiftRight_eq_div_pow]
    rfl
  rw [← value, Sign.ofBitVec]
  rcases BitVec.eq_zero_or_eq_one (unpackSign bits) with zero | one
  · rw [zero]
    rfl
  · rw [one]
    rfl

/-- The first bit of a significand, which is not stored, goes before the others. -/
theorem toNat_implicit_append :
    (1#1 ++ unpackMantissa bits).toNat = bits.toNat % Nat.pow 2 52 + Nat.pow 2 52 := by
  have small : bits.toNat % Nat.pow 2 52 < 2 ^ 52 := Nat.mod_lt _ (by decide)
  rw [BitVec.toNat_append, toNat_unpackMantissa, Nat.add_comm]
  exact (Nat.shiftLeft_add_eq_or_of_lt small (1#1).toNat).symm

end Bits

/-- The shape of an unpacked float. -/
def FloatShape.ofUnpacked : UnpackedFloat → FloatShape
  | .infinity sign => .infinite (sign == .negative)
  | .notANumber => .undefined
  | .zero sign => .finite ⟨sign == .negative, 0, -1074⟩
  | .finite sign significand exponent _ => .finite ⟨sign == .negative, significand, exponent⟩

theorem FloatShape.ofUnpacked_finite (sign : Sign) (significand : Nat) (exponent : Int)
    (positive : 0 < significand) :
    ofUnpacked (.finite sign significand exponent positive) =
      .finite ⟨sign == .negative, significand, exponent⟩ := rfl

/-- A float is taken apart here as it is unpacked for its own arithmetic. -/
theorem FloatShape.ofBits_eq_ofUnpacked (bits : BitVec Format.binary64.numBits) :
    ofBits bits.toNat = ofUnpacked (unpack Format.binary64 bits) := by
  have special := unpackExponent_eq_iff bits 2047 (by decide)
  have least := unpackExponent_eq_iff bits 0 (by decide)
  have fraction := unpackMantissa_eq_zero_iff bits
  have sign := unpackSign_eq_negative bits
  have allOnes : -BitVec.ofNat Format.binary64.exponentBits 1 = BitVec.ofNat _ 2047 := by decide
  unfold ofBits
  simp only [beq_iff_eq, ← special, ← least, ← fraction]
  unfold unpack
  dsimp only
  rw [allOnes]
  by_cases ones : unpackExponent bits = BitVec.ofNat _ 2047
  · rw [if_pos ones, if_pos ones]
    by_cases infinite : unpackMantissa bits = 0#_
    · rw [if_pos infinite, if_pos infinite, ← sign]
      rfl
    · rw [if_neg infinite, if_neg infinite]
      rfl
  · rw [if_neg ones, if_neg ones]
    by_cases zeros : unpackExponent bits = 0#_
    · rw [if_pos zeros, if_pos zeros]
      by_cases zero : unpackMantissa bits = 0#_
      · rw [dif_pos zero, ← sign, ← toNat_unpackMantissa, zero]
        rfl
      · rw [dif_neg zero, ofUnpacked_finite, sign, toNat_unpackMantissa, zeros]
        rfl
    · rw [if_neg zeros, if_neg zeros, ofUnpacked_finite, sign, toNat_implicit_append,
        toNat_unpackExponent]
      rfl

/-- A significand and an exponent as a finite float has them: fifty-three bits, of which the first
is zero only if the exponent is the least one. -/
structure IsReduced (significand : Nat) (exponent : Int) : Prop where
  least : -1074 ≤ exponent
  small : significand < 2 ^ 53
  large : -1074 < exponent → 2 ^ 52 ≤ significand

theorem isReduced_of_unpack {bits : BitVec Format.binary64.numBits} {sign : Sign}
    {significand : Nat} {exponent : Int} {positive : 0 < significand}
    (unpacked : unpack Format.binary64 bits = .finite sign significand exponent positive) :
    IsReduced significand exponent := by
  have shape := FloatShape.ofBits_eq_ofUnpacked bits
  rw [unpacked, FloatShape.ofUnpacked_finite, FloatShape.ofBits] at shape
  have fraction : bits.toNat % Nat.pow 2 52 < Nat.pow 2 52 := Nat.mod_lt _ (by decide)
  have power : Nat.pow 2 52 = 4503599627370496 := by decide
  simp only [beq_iff_eq] at shape
  split at shape
  · split at shape <;> cases shape
  · split at shape
    · injection shape with parts
      injection parts with _ sameSignificand sameExponent
      exact ⟨by omega, by omega, by omega⟩
    · injection shape with parts
      injection parts with _ sameSignificand sameExponent
      exact ⟨by omega, by omega, by omega⟩

/-! ### Magnitudes -/

theorem powerRat_two (exponent : Int) : powerRat 2 exponent = (2 : ℚ) ^ exponent := by
  have whole : ((Nat.pow 2 exponent.natAbs : Nat) : ℚ) = 2 ^ exponent.natAbs := by
    rw [Nat.pow_eq, Nat.cast_pow, Nat.cast_ofNat]
  unfold powerRat
  simp only
  split
  · rw [Rat.mkRat_eq_div, whole, Int.cast_one, one_div, ← zpow_natCast, ← zpow_neg]
    congr 1
    omega
  · rw [Rat.mkRat_eq_div, Nat.cast_one, div_one, Int.cast_natCast, whole, ← zpow_natCast]
    congr 1
    omega

theorem magnitude_pos {significand : Nat} (positive : 0 < significand) (exponent : Int) :
    (0 : ℚ) < significand * 2 ^ exponent :=
  mul_pos (Nat.cast_pos.2 positive) (zpow_pos two_pos exponent)

/-- A larger exponent outweighs any significand of fifty-three bits, if the first of the bits with
the larger exponent is not zero. -/
theorem magnitude_lt_of_exponent_lt {left right : Nat} {low high : Int} (small : left < 2 ^ 53)
    (large : 2 ^ 52 ≤ right) (less : low < high) : (left : ℚ) * 2 ^ low < right * 2 ^ high := by
  have two : (0 : ℚ) < 2 := two_pos
  calc (left : ℚ) * 2 ^ low < 2 ^ 53 * 2 ^ low :=
        mul_lt_mul_of_pos_right (by exact_mod_cast small) (zpow_pos two low)
    _ = 2 ^ 52 * 2 ^ (low + 1) := by
        rw [zpow_add₀ two.ne', zpow_one]
        ring
    _ ≤ 2 ^ 52 * 2 ^ high :=
        mul_le_mul_of_nonneg_left (zpow_le_zpow_right₀ one_le_two less) (by positivity)
    _ ≤ right * 2 ^ high :=
        mul_le_mul_of_nonneg_right (by exact_mod_cast large) (zpow_pos two high).le

/-- Magnitudes of reduced parts are compared by their exponents first. -/
theorem IsReduced.compare_eq {left right : Nat} {low high : Int} (reducedLeft : IsReduced left low)
    (reducedRight : IsReduced right high) :
    (compare low high).then (compare left right) =
      compare ((left : ℚ) * 2 ^ low) (right * 2 ^ high) := by
  rcases lt_trichotomy low high with less | rfl | more
  · have large := reducedRight.large (reducedLeft.least.trans_lt less)
    rw [compare_lt_iff_lt.2 less,
      compare_lt_iff_lt.2 (magnitude_lt_of_exponent_lt reducedLeft.small large less)]
    rfl
  · have scaled : ∀ {first second : Nat},
        (first : ℚ) * 2 ^ low < second * 2 ^ low ↔ first < second :=
      (mul_lt_mul_iff_left₀ (zpow_pos two_pos low)).trans Nat.cast_lt
    rw [compare_eq_iff_eq.2 (rfl : low = low)]
    rcases lt_trichotomy left right with less | rfl | more
    · rw [compare_lt_iff_lt.2 less, compare_lt_iff_lt.2 (scaled.2 less)]
      rfl
    · rw [compare_eq_iff_eq.2 (rfl : left = left),
        compare_eq_iff_eq.2 (rfl : (left : ℚ) * 2 ^ low = left * 2 ^ low)]
      rfl
    · rw [compare_gt_iff_gt.2 more, compare_gt_iff_gt.2 (scaled.2 more)]
      rfl
  · have large := reducedLeft.large (reducedRight.least.trans_lt more)
    rw [compare_gt_iff_gt.2 more,
      compare_gt_iff_gt.2 (magnitude_lt_of_exponent_lt reducedRight.small large more)]
    rfl

theorem compare_neg_neg (left right : ℚ) : compare (-left) (-right) = (compare left right).swap := by
  rcases lt_trichotomy left right with less | rfl | more
  · rw [compare_lt_iff_lt.2 less, compare_gt_iff_gt.2 (neg_lt_neg less)]
    rfl
  · rw [compare_eq_iff_eq.2 (rfl : left = left), compare_eq_iff_eq.2 (rfl : -left = -left)]
    rfl
  · rw [compare_gt_iff_gt.2 more, compare_lt_iff_lt.2 (neg_lt_neg more)]
    rfl

/-! ### Points of the line -/

namespace ExtendedRat

/-- The point of the line that an unpacked float stands for. -/
def ofUnpacked : UnpackedFloat → ExtendedRat
  | .infinity .negative => .negativeInfinity
  | .infinity .positive => .positiveInfinity
  | .notANumber => .undefined
  | .zero _ => .finite 0
  | .finite .negative significand exponent _ => .finite (-(significand * 2 ^ exponent))
  | .finite .positive significand exponent _ => .finite (significand * 2 ^ exponent)

theorem ofFloat_eq_ofUnpacked (number : Float) :
    ofFloat number = ofUnpacked number.toModel.unpack := by
  have shape : FloatShape.ofFloat number = .ofUnpacked number.toModel.unpack :=
    FloatShape.ofBits_eq_ofUnpacked _
  rw [ofFloat, shape]
  cases number.toModel.unpack with
  | infinity sign => cases sign <;> rfl
  | notANumber => rfl
  | zero sign =>
    show ExtendedRat.finite (Binary.toRat ⟨sign == .negative, 0, -1074⟩) = .finite 0
    rw [Binary.toRat, Nat.cast_zero, neg_zero, ite_self, zero_mul]
  | finite sign significand exponent positive =>
    cases sign with
    | negative =>
      show ExtendedRat.finite (-(significand : ℚ) * powerRat 2 exponent) = _
      rw [powerRat_two, neg_mul]
      rfl
    | positive =>
      show ExtendedRat.finite ((significand : ℚ) * powerRat 2 exponent) = _
      rw [powerRat_two]
      rfl

/-- How two points of the line lie to each other. The undefined number is no point of it. -/
def order? : ExtendedRat → ExtendedRat → Option Ordering
  | .undefined, _ | _, .undefined => none
  | .finite left, .finite right => some (compare left right)
  | .negativeInfinity, .negativeInfinity | .positiveInfinity, .positiveInfinity => some .eq
  | .negativeInfinity, _ | _, .positiveInfinity => some .lt
  | .positiveInfinity, _ | _, .negativeInfinity => some .gt

theorem below_eq_order? (left right : ExtendedRat) :
    left.below right = (left.order? right == some .lt) := by
  cases left <;> cases right <;> try rfl
  rw [Bool.eq_iff_iff, below, decide_eq_true_eq, order?, beq_iff_eq, Option.some_inj,
    compare_lt_iff_lt]

theorem same_eq_order? (left right : ExtendedRat) :
    left.same right = (left.order? right == some .eq) := by
  cases left <;> cases right <;> try rfl
  rw [Bool.eq_iff_iff, same, beq_iff_eq, order?, beq_iff_eq, Option.some_inj, compare_eq_iff_eq]
  · exact ⟨fun equal => ExtendedRat.finite.inj equal, congrArg _⟩
  · exact nofun

/-- Points are equal as numbers if they are the same and there is a number there. -/
theorem same_iff {left right : ExtendedRat} :
    left.same right = true ↔ left ≠ undefined ∧ left = right := by
  cases left with
  | undefined => exact iff_of_false Bool.false_ne_true fun both => both.1 rfl
  | _ =>
    rw [same]
    · exact beq_iff_eq.trans (and_iff_right nofun).symm
    · exact nofun

theorem below_irrefl (point : ExtendedRat) : ¬ point.below point = true := by
  cases point with
  | finite value => simp only [below, lt_self_iff_false, decide_false, Bool.false_eq_true,
      not_false_eq_true]
  | _ => exact Bool.false_ne_true

theorem not_below_undefined (point : ExtendedRat) : point.below undefined = false := by
  cases point <;> rfl

theorem below_trans {left middle right : ExtendedRat} (first : left.below middle = true)
    (second : middle.below right = true) : left.below right = true := by
  cases left <;> cases middle <;> cases right <;>
    first | rfl | exact absurd first Bool.false_ne_true |
      exact absurd second Bool.false_ne_true | skip
  rw [below, decide_eq_true_eq] at *
  exact first.trans second

/-- Of two points that are not the same one lies below the other. -/
theorem eq_of_not_below {left right : ExtendedRat} (definedLeft : left ≠ undefined)
    (definedRight : right ≠ undefined) (notBelow : ¬ left.below right = true)
    (notAbove : ¬ right.below left = true) : left = right := by
  cases left <;> cases right <;>
    first | rfl | exact absurd rfl definedLeft | exact absurd rfl definedRight |
      exact absurd rfl notBelow | exact absurd rfl notAbove | skip
  rw [below, decide_eq_true_eq, not_lt] at notBelow notAbove
  exact congrArg finite (le_antisymm notAbove notBelow)

end ExtendedRat

/-- The parts of an unpacked float are reduced if it is finite. -/
def IsProper : UnpackedFloat → Prop
  | .finite _ significand exponent _ => IsReduced significand exponent
  | _ => True

theorem isProper_unpack (number : Float) : IsProper number.toModel.unpack := by
  cases unpacked : number.toModel.unpack with
  | finite sign significand exponent positive => exact isReduced_of_unpack unpacked
  | _ => exact True.intro

/-- Unpacked floats are compared as points. Most of the cases are decided by the constructors and
the signs; those that are left have a finite float on one side and no infinity on the other. -/
theorem compare_eq_order? {left right : UnpackedFloat} (properLeft : IsProper left)
    (properRight : IsProper right) :
    left.compare right = (ExtendedRat.ofUnpacked left).order? (.ofUnpacked right) := by
  rcases left with (_ | _) | _ | _ | ⟨_ | _, leftSignificand, low, leftPositive⟩ <;>
    rcases right with (_ | _) | _ | _ | ⟨_ | _, rightSignificand, high, rightPositive⟩ <;>
      try rfl
  case zero.finite.negative =>
    exact congrArg some
      (compare_gt_iff_gt.2 (neg_neg_of_pos (magnitude_pos rightPositive high))).symm
  case zero.finite.positive =>
    exact congrArg some (compare_lt_iff_lt.2 (magnitude_pos rightPositive high)).symm
  case finite.negative.zero =>
    exact congrArg some
      (compare_lt_iff_lt.2 (neg_neg_of_pos (magnitude_pos leftPositive low))).symm
  case finite.positive.zero =>
    exact congrArg some (compare_gt_iff_gt.2 (magnitude_pos leftPositive low)).symm
  case finite.negative.finite.positive =>
    have less := (neg_neg_of_pos (magnitude_pos leftPositive low)).trans
      (magnitude_pos rightPositive high)
    exact congrArg some (compare_lt_iff_lt.2 less).symm
  case finite.positive.finite.negative =>
    have more := (neg_neg_of_pos (magnitude_pos rightPositive high)).trans
      (magnitude_pos leftPositive low)
    exact congrArg some (compare_gt_iff_gt.2 more).symm
  case finite.positive.finite.positive =>
    exact congrArg some (IsReduced.compare_eq properLeft properRight)
  case finite.negative.finite.negative =>
    refine congrArg some ((congrArg Ordering.swap ?_).trans (compare_neg_neg _ _).symm)
    exact IsReduced.compare_eq properLeft properRight

/-! ### Scalars -/

namespace Scalar

/-- Numbers are ordered as the points for which they stand. -/
theorem below_eq_point (left right : Scalar) :
    left.below right = left.point.below right.point := by
  cases left <;> cases right <;> try rfl
  rename_i left right
  show decide (left < right) = (ExtendedRat.ofFloat left).below (.ofFloat right)
  rw [ExtendedRat.below_eq_order?, ExtendedRat.ofFloat_eq_ofUnpacked,
    ExtendedRat.ofFloat_eq_ofUnpacked, ← compare_eq_order? (isProper_unpack left)
      (isProper_unpack right), Bool.eq_iff_iff, decide_eq_true_eq]
  exact decide_eq_true_iff

/-- Numbers are equal if they stand for the same point. -/
theorem same_eq_point (left right : Scalar) : left.same right = left.point.same right.point := by
  cases left <;> cases right <;> try rfl
  rename_i left right
  show (left == right) = (ExtendedRat.ofFloat left).same (.ofFloat right)
  rw [ExtendedRat.same_eq_order?, ExtendedRat.ofFloat_eq_ofUnpacked,
    ExtendedRat.ofFloat_eq_ofUnpacked, ← compare_eq_order? (isProper_unpack left)
      (isProper_unpack right)]
  rfl

theorem lt_iff {left right : Scalar} : left < right ↔ left.point.below right.point = true :=
  iff_of_eq (congrArg (· = true) (below_eq_point left right))

theorem beq_iff {left right : Scalar} :
    (left == right) = true ↔ left.point ≠ .undefined ∧ left.point = right.point := by
  show left.same right = true ↔ _
  rw [same_eq_point]
  exact ExtendedRat.same_iff

theorem lt_trans {left middle right : Scalar} (first : left < middle) (second : middle < right) :
    left < right :=
  lt_iff.2 (ExtendedRat.below_trans (lt_iff.1 first) (lt_iff.1 second))

/-- The undefined number is below nothing. -/
theorem not_lt_of_undefined {left : Scalar} (undefined : left.point = .undefined) (right : Scalar) :
    ¬ left < right := by
  rw [lt_iff, undefined]
  exact Bool.false_ne_true

theorem lt_irrefl (number : Scalar) : ¬ number < number :=
  fun less => ExtendedRat.below_irrefl _ (lt_iff.1 less)

/-- Of two numbers, one that is not below the other is still above all that the other is above. -/
theorem lt_of_not_lt_of_lt {left right bound : Scalar} (definedLeft : left.point ≠ .undefined)
    (definedRight : right.point ≠ .undefined) (notLess : ¬ right < left) (low : right < bound) :
    left < bound := by
  by_cases less : left < right
  · exact lt_trans less low
  · have same : left.point = right.point :=
      ExtendedRat.eq_of_not_below definedLeft definedRight (mt lt_iff.2 less) (mt lt_iff.2 notLess)
    rw [lt_iff, same]
    exact lt_iff.1 low

end Scalar

/-! ### The largest of several scalars -/

section Largest

variable {Element : Type} (measure : Element → Scalar)

/-- If the first of some elements has a defined measure, the search for the largest one ends at an
element with a defined measure, and no element has a larger one. -/
theorem firstLargest_scalar (first : Element) (rest : List Element)
    (defined : (measure first).point ≠ .undefined) :
    (measure (firstLargest measure first rest)).point ≠ .undefined ∧
      firstLargest measure first rest ∈ first :: rest ∧
        ∀ element ∈ first :: rest,
          ¬ measure (firstLargest measure first rest) < measure element := by
  induction rest using List.reverseRecOn with
  | nil =>
    exact ⟨defined, List.mem_cons_self, List.forall_mem_singleton.2 (Scalar.lt_irrefl _)⟩
  | append_singleton rest last hypothesis =>
    obtain ⟨known, member, largest⟩ := hypothesis
    rw [firstLargest_append_singleton, ← List.cons_append]
    split
    · rename_i larger
      refine ⟨fun undefined => ?_, List.mem_append_right _ List.mem_cons_self, ?_⟩
      · rw [Scalar.lt_iff, undefined, ExtendedRat.not_below_undefined] at larger
        cases larger
      · intro element elementMember less
        rcases List.mem_append.1 elementMember with earlier | now
        · exact largest element earlier (Scalar.lt_trans larger less)
        · rw [List.mem_singleton.1 now] at less
          exact Scalar.lt_irrefl _ less
    · rename_i notLarger
      refine ⟨known, List.mem_append_left _ member, fun element elementMember => ?_⟩
      rcases List.mem_append.1 elementMember with earlier | now
      · exact largest element earlier
      · rw [List.mem_singleton.1 now]
        exact notLarger

/-- All of the largest elements are those with a defined measure that no other exceeds, if the
first element has a defined measure. -/
theorem allLargest_scalar {first : Element} (rest : List Element)
    (defined : (measure first).point ≠ .undefined) :
    allLargest measure (first :: rest) = (first :: rest).filter fun element =>
      decide ((measure element).point ≠ .undefined ∧
        ∀ other ∈ first :: rest, ¬ measure element < measure other) := by
  obtain ⟨known, topMember, largest⟩ := firstLargest_scalar measure first rest defined
  refine List.filter_congr fun element member => ?_
  rw [Bool.eq_iff_iff, Scalar.beq_iff, decide_eq_true_eq]
  refine and_congr_right fun elementDefined =>
    ⟨fun same other otherMember less => ?_, fun unexceeded => ?_⟩
  · rw [Scalar.lt_iff, same, ← Scalar.lt_iff] at less
    exact largest other otherMember less
  · exact ExtendedRat.eq_of_not_below elementDefined known
      (fun less => unexceeded _ topMember (Scalar.lt_iff.2 less))
      fun less => largest element member (Scalar.lt_iff.2 less)

/-- If the first element has an undefined measure, no element is largest. -/
theorem allLargest_scalar_of_undefined {first : Element} (rest : List Element)
    (undefined : (measure first).point = .undefined) :
    allLargest measure (first :: rest) = [] := by
  have stays : firstLargest measure first rest = first := by
    induction rest with
    | nil => rfl
    | cons second rest hypothesis =>
      have step : firstLargest measure first (second :: rest) =
          firstLargest measure (if measure first < measure second then second else first) rest := rfl
      rw [step, if_neg (Scalar.not_lt_of_undefined undefined _), hypothesis]
  refine List.filter_eq_nil_iff.2 fun element _ same => ?_
  obtain ⟨defined, equal⟩ := Scalar.beq_iff.1 same
  rw [stays] at equal
  exact defined (equal.trans undefined)

end Largest

end WordArithmetic
