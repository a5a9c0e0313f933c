/-
This file holds numbers that saturate.

An extended number is an exact one, an infinity, or undefined. The points that scalars stand for are
such numbers over the rationals, which are only compared; here they are computed with, over any
ordered field. Sums and products are those of floats, except that nothing is rounded: infinities of
opposite signs have no sum, zero has no product with an infinity, and what is undefined stays so. A
sum or a product is finite only if both of its parts are. Numbers that are not below zero have an
undefined sum only if one of them is undefined, so that among masses only a product of zero with an
infinity makes something undefined.
-/

import Mathlib.Algebra.BigOperators.Group.List.Basic
import Mathlib.Algebra.Order.Field.Basic
import WordArithmetic.Proofs.Score

namespace WordArithmetic

/-- An exact number, an infinity of some sign, or the undefined number. -/
inductive Extended (Number : Type) where
  | finite (number : Number)
  | infinite (negative : Bool)
  | undefined
deriving DecidableEq, Repr

namespace Extended

variable {Number : Type} [Field Number]

/-! ### Arithmetic -/

section Arithmetic

variable [LinearOrder Number]

/-- The sum of two numbers. -/
def add : (left right : Extended Number) → Extended Number
  | finite left, finite right => finite (left + right)
  | finite _, infinite negative => infinite negative
  | infinite negative, finite _ => infinite negative
  | infinite left, infinite right => if left = right then infinite left else undefined
  | undefined, _ => undefined
  | _, undefined => undefined

/-- The opposite of a number. -/
def neg : Extended Number → Extended Number
  | finite number => finite (-number)
  | infinite negative => infinite !negative
  | undefined => undefined

/-- The product of two numbers. -/
def mul : (left right : Extended Number) → Extended Number
  | finite left, finite right => finite (left * right)
  | finite left, infinite negative =>
    if left = 0 then undefined else infinite (decide (left < 0) ^^ negative)
  | infinite negative, finite right =>
    if right = 0 then undefined else infinite (negative ^^ decide (right < 0))
  | infinite left, infinite right => infinite (left ^^ right)
  | undefined, _ => undefined
  | _, undefined => undefined

/-- The inverse of a number. Zero has none. -/
def inverse : Extended Number → Extended Number
  | finite number => if number = 0 then undefined else finite number⁻¹
  | infinite _ => finite 0
  | undefined => undefined

instance : Zero (Extended Number) := ⟨finite 0⟩
instance : One (Extended Number) := ⟨finite 1⟩
instance : NatCast (Extended Number) := ⟨fun count => finite count⟩
instance : Add (Extended Number) := ⟨add⟩
instance : Neg (Extended Number) := ⟨neg⟩
instance : Sub (Extended Number) := ⟨fun left right => left + -right⟩
instance : Mul (Extended Number) := ⟨mul⟩
instance : Div (Extended Number) := ⟨fun left right => left * right.inverse⟩

/-- Whether two numbers are equal. The undefined number equals nothing. -/
def same : (left right : Extended Number) → Bool
  | finite left, finite right => left = right
  | infinite left, infinite right => left = right
  | _, _ => false

/-- Whether a number is below another one. The undefined number is below and above nothing. -/
def below : (left right : Extended Number) → Bool
  | finite left, finite right => left < right
  | finite _, infinite negative => !negative
  | infinite negative, finite _ => negative
  | infinite left, infinite right => left && !right
  | _, _ => false

instance : BEq (Extended Number) := ⟨same⟩
instance : LT (Extended Number) := ⟨fun left right => left.below right = true⟩
instance : DecidableLT (Extended Number) := fun left right =>
  inferInstanceAs (Decidable (left.below right = true))

end Arithmetic

/-- Plus infinity. -/
def positiveInfinity : Extended Number := infinite false

/-- Minus infinity. -/
def negativeInfinity : Extended Number := infinite true

/-! ### Laws of addition -/

instance : AddCommMonoid (Extended Number) where
  add_assoc first second third := by
    show add (add first second) third = add first (add second third)
    rcases first with first | _ | _ <;> rcases second with second | _ | _ <;>
      rcases third with third | _ | _ <;> simp [add, add_assoc] <;> grind [add]
  zero_add number := by
    show add (finite 0) number = number
    cases number <;> simp [add]
  add_zero number := by
    show add number (finite 0) = number
    cases number <;> simp [add]
  add_comm left right := by
    show add left right = add right left
    cases left <;> cases right <;> simp only [add, add_comm]
    grind
  nsmul := nsmulRec

theorem undefined_add (extended : Extended Number) : undefined + extended = undefined := rfl

theorem add_undefined (extended : Extended Number) : extended + undefined = undefined := by
  cases extended <;> rfl

/-! ### Finite numbers -/

/-- Whether a number is exact. -/
def IsFinite (extended : Extended Number) : Prop :=
  ∃ number, extended = finite number

theorem isFinite_zero : (0 : Extended Number).IsFinite := ⟨0, rfl⟩

theorem isFinite_natCast (count : Nat) : (count : Extended Number).IsFinite := ⟨count, rfl⟩

/-- A sum is finite if both of its parts are, and only then. -/
theorem isFinite_add {left right : Extended Number} :
    (left + right).IsFinite ↔ left.IsFinite ∧ right.IsFinite := by
  constructor
  · rintro ⟨number, sum⟩
    have sum : add left right = finite number := sum
    cases left <;> cases right <;> simp only [add] at sum <;> try cases sum
    · exact ⟨⟨_, rfl⟩, ⟨_, rfl⟩⟩
    · split at sum <;> cases sum
  · rintro ⟨⟨left, rfl⟩, ⟨right, rfl⟩⟩
    exact ⟨left + right, rfl⟩

theorem isFinite_sum {numbers : List (Extended Number)} :
    numbers.sum.IsFinite ↔ ∀ number ∈ numbers, number.IsFinite := by
  induction numbers with
  | nil => exact iff_of_true isFinite_zero (List.forall_mem_nil _)
  | cons first rest hypothesis =>
    rw [List.sum_cons, isFinite_add, hypothesis, List.forall_mem_cons]

section Ordered

variable [LinearOrder Number]

/-- A product is finite if both of its factors are, and only then. -/
theorem isFinite_mul {left right : Extended Number} :
    (left * right).IsFinite ↔ left.IsFinite ∧ right.IsFinite := by
  constructor
  · rintro ⟨number, product⟩
    have product : mul left right = finite number := product
    cases left <;> cases right <;> simp only [mul] at product <;> try cases product
    · exact ⟨⟨_, rfl⟩, ⟨_, rfl⟩⟩
    · split at product <;> cases product
    · split at product <;> cases product
  · rintro ⟨⟨left, rfl⟩, ⟨right, rfl⟩⟩
    exact ⟨left * right, rfl⟩

/-- A finite number has a finite quotient by any other one than zero. -/
theorem IsFinite.div {left right : Extended Number} (finiteLeft : left.IsFinite)
    (finiteRight : right.IsFinite) (nonzero : right ≠ 0) : (left / right).IsFinite := by
  obtain ⟨number, rfl⟩ := finiteRight
  have invertible : number ≠ 0 := fun zero => nonzero (congrArg finite zero)
  exact isFinite_mul.2 ⟨finiteLeft, number⁻¹, if_neg invertible⟩

/-- A quotient of finite numbers is zero only if the dividend is. -/
theorem IsFinite.div_ne_zero {left right : Extended Number} (finiteLeft : left.IsFinite)
    (finiteRight : right.IsFinite) (nonzeroLeft : left ≠ 0) (nonzero : right ≠ 0) :
    left / right ≠ 0 := by
  obtain ⟨dividend, rfl⟩ := finiteLeft
  obtain ⟨divisor, rfl⟩ := finiteRight
  have invertible : divisor ≠ 0 := fun zero => nonzero (congrArg finite zero)
  have quotient : finite dividend / finite divisor = finite (dividend * divisor⁻¹) :=
    congrArg (finite dividend * ·) (if_neg invertible)
  rw [quotient]
  intro zero
  rcases mul_eq_zero.1 (finite.inj zero) with none | none
  · exact nonzeroLeft (congrArg finite none)
  · exact invertible (inv_eq_zero.1 none)

/-- The quotient of a finite number by an infinity is zero. -/
theorem IsFinite.div_infinite {left : Extended Number} (finiteLeft : left.IsFinite)
    (negative : Bool) : left / infinite negative = 0 := by
  obtain ⟨number, rfl⟩ := finiteLeft
  show finite (number * 0) = finite 0
  rw [mul_zero]

theorem mul_zero_of_isFinite {extended : Extended Number} (isFinite : extended.IsFinite) :
    extended * 0 = 0 := by
  obtain ⟨number, rfl⟩ := isFinite
  exact congrArg finite (mul_zero number)

theorem zero_mul_of_isFinite {extended : Extended Number} (isFinite : extended.IsFinite) :
    0 * extended = 0 := by
  obtain ⟨number, rfl⟩ := isFinite
  exact congrArg finite (zero_mul number)

/-- Only finite numbers have a product with zero. -/
theorem mul_zero_of_not_isFinite {extended : Extended Number} (notFinite : ¬ extended.IsFinite) :
    extended * 0 = undefined := by
  cases extended with
  | finite number => exact absurd ⟨number, rfl⟩ notFinite
  | infinite negative => exact if_pos rfl
  | undefined => rfl

theorem mul_undefined (extended : Extended Number) : extended * undefined = undefined := by
  cases extended <;> rfl

theorem beq_zero_iff {number : Extended Number} : (number == 0) = true ↔ number = 0 := by
  cases number with
  | finite number => exact decide_eq_true_iff.trans ⟨congrArg finite, finite.inj⟩
  | infinite negative => exact iff_of_false Bool.false_ne_true nofun
  | undefined => exact iff_of_false Bool.false_ne_true nofun

/-! ### Numbers that are not below zero -/

theorem not_finite_neg {number : Number} : ¬ finite number < 0 ↔ 0 ≤ number := by
  have less : finite number < 0 ↔ number < 0 := decide_eq_true_iff
  rw [less, not_lt]

/-- What is not below zero is a number that is not negative, plus infinity, or undefined. -/
theorem cases_of_not_neg {extended : Extended Number} (notNegative : ¬ extended < 0) :
    (∃ number, 0 ≤ number ∧ extended = finite number) ∨ extended = positiveInfinity ∨
      extended = undefined := by
  cases extended with
  | finite number => exact Or.inl ⟨number, not_finite_neg.1 notNegative, rfl⟩
  | infinite negative =>
    cases negative with
    | true => exact absurd rfl notNegative
    | false => exact Or.inr (Or.inl rfl)
  | undefined => exact Or.inr (Or.inr rfl)

theorem not_positiveInfinity_neg : ¬ (positiveInfinity : Extended Number) < 0 :=
  Bool.false_ne_true

theorem not_undefined_neg : ¬ (undefined : Extended Number) < 0 :=
  Bool.false_ne_true

/-- Zero has no product with plus infinity, and any other number that is not below zero has plus
infinity as its product with it. -/
theorem finite_mul_positiveInfinity {number : Number} (nonneg : 0 ≤ number) :
    finite number * positiveInfinity = if number = 0 then undefined else positiveInfinity := by
  show (if number = 0 then undefined else infinite (decide (number < 0) ^^ false)) = _
  rw [decide_eq_false (not_lt.2 nonneg)]
  rfl

theorem positiveInfinity_mul_finite {number : Number} (nonneg : 0 ≤ number) :
    positiveInfinity * finite number = if number = 0 then undefined else positiveInfinity := by
  show (if number = 0 then undefined else infinite (false ^^ decide (number < 0))) = _
  rw [decide_eq_false (not_lt.2 nonneg)]
  rfl

variable [IsStrictOrderedRing Number]

/-- Numbers that are not below zero have a sum that is not below zero, and it is undefined only if
one of them is. -/
theorem add_of_not_neg {left right : Extended Number} (notNegativeLeft : ¬ left < 0)
    (notNegativeRight : ¬ right < 0) :
    ¬ left + right < 0 ∧ (left + right = undefined ↔ left = undefined ∨ right = undefined) := by
  rcases cases_of_not_neg notNegativeLeft with ⟨first, nonnegFirst, rfl⟩ | rfl | rfl <;>
    rcases cases_of_not_neg notNegativeRight with ⟨second, nonnegSecond, rfl⟩ | rfl | rfl
  · exact ⟨not_finite_neg.2 (add_nonneg nonnegFirst nonnegSecond), iff_of_false nofun nofun⟩
  -- the other sums are plus infinity or undefined by definition
  all_goals refine ⟨Bool.false_ne_true, ?_⟩
  all_goals first
    | exact iff_of_true rfl (Or.inl rfl)
    | exact iff_of_true rfl (Or.inr rfl)
    | exact iff_of_false nofun (by rintro (same | same) <;> cases same)

theorem sum_of_not_neg {numbers : List (Extended Number)}
    (notNegative : ∀ number ∈ numbers, ¬ number < 0) :
    ¬ numbers.sum < 0 ∧ (numbers.sum = undefined ↔ undefined ∈ numbers) := by
  induction numbers with
  | nil => exact ⟨not_finite_neg.2 (le_refl 0), iff_of_false nofun List.not_mem_nil⟩
  | cons first rest hypothesis =>
    obtain ⟨here, there⟩ := List.forall_mem_cons.1 notNegative
    obtain ⟨notNegativeRest, undefinedRest⟩ := hypothesis there
    obtain ⟨notNegativeSum, undefinedSum⟩ := add_of_not_neg here notNegativeRest
    rw [List.sum_cons, List.mem_cons, ← undefinedRest, undefinedSum]
    exact ⟨notNegativeSum, or_congr_left eq_comm⟩

/-- Numbers that are not below zero have a product that is not below zero, and it is undefined only
if one of them is or if one is zero and the other one is plus infinity. -/
theorem mul_of_not_neg {left right : Extended Number} (notNegativeLeft : ¬ left < 0)
    (notNegativeRight : ¬ right < 0) :
    ¬ left * right < 0 ∧ (left * right = undefined ↔ left = undefined ∨ right = undefined ∨
      (left = 0 ∧ right = positiveInfinity) ∨ (left = positiveInfinity ∧ right = 0)) := by
  rcases cases_of_not_neg notNegativeLeft with ⟨first, nonnegFirst, rfl⟩ | rfl | rfl
  · rcases cases_of_not_neg notNegativeRight with ⟨second, nonnegSecond, rfl⟩ | rfl | rfl
    · refine ⟨not_finite_neg.2 (mul_nonneg nonnegFirst nonnegSecond), iff_of_false nofun ?_⟩
      rintro (same | same | ⟨_, same⟩ | ⟨same, _⟩) <;> cases same
    · rw [finite_mul_positiveInfinity nonnegFirst]
      by_cases zero : first = 0
      · rw [if_pos zero]
        exact ⟨not_undefined_neg,
          iff_of_true rfl (Or.inr (Or.inr (Or.inl ⟨congrArg finite zero, rfl⟩)))⟩
      · rw [if_neg zero]
        refine ⟨not_positiveInfinity_neg, iff_of_false nofun ?_⟩
        rintro (same | same | ⟨same, _⟩ | ⟨same, _⟩)
        · cases same
        · cases same
        · exact zero (finite.inj same)
        · cases same
    · exact ⟨not_undefined_neg, iff_of_true rfl (Or.inr (Or.inl rfl))⟩
  · rcases cases_of_not_neg notNegativeRight with ⟨second, nonnegSecond, rfl⟩ | rfl | rfl
    · rw [positiveInfinity_mul_finite nonnegSecond]
      by_cases zero : second = 0
      · rw [if_pos zero]
        exact ⟨not_undefined_neg,
          iff_of_true rfl (Or.inr (Or.inr (Or.inr ⟨rfl, congrArg finite zero⟩)))⟩
      · rw [if_neg zero]
        refine ⟨not_positiveInfinity_neg, iff_of_false nofun ?_⟩
        rintro (same | same | ⟨same, _⟩ | ⟨_, same⟩)
        · cases same
        · cases same
        · cases same
        · exact zero (finite.inj same)
    · refine ⟨not_positiveInfinity_neg, iff_of_false nofun ?_⟩
      rintro (same | same | ⟨same, _⟩ | ⟨_, same⟩) <;> cases same
    · exact ⟨not_undefined_neg, iff_of_true rfl (Or.inr (Or.inl rfl))⟩
  · exact ⟨not_undefined_neg, iff_of_true rfl (Or.inl rfl)⟩

/-! ### Masses -/

/-- A mass: a number that is not negative, or plus infinity. -/
def IsMass (extended : Extended Number) : Prop :=
  ¬ extended < 0 ∧ extended ≠ undefined

omit [IsStrictOrderedRing Number] in
theorem IsMass.isFinite {extended : Extended Number} (mass : extended.IsMass)
    (bounded : extended ≠ positiveInfinity) : extended.IsFinite := by
  rcases cases_of_not_neg mass.1 with ⟨number, _, same⟩ | saturated | undefined
  · exact ⟨number, same⟩
  · exact absurd saturated bounded
  · exact absurd undefined mass.2

theorem isMass_sum {numbers : List (Extended Number)} (masses : ∀ number ∈ numbers, number.IsMass) :
    numbers.sum.IsMass := by
  obtain ⟨notNegative, undefined⟩ := sum_of_not_neg fun number member => (masses number member).1
  exact ⟨notNegative, fun same => (masses _ (undefined.1 same)).2 rfl⟩

/-- Masses whose sum is zero are zero. -/
theorem eq_zero_of_sum_eq_zero {numbers : List (Extended Number)}
    (masses : ∀ number ∈ numbers, number.IsMass) (none : numbers.sum = 0) :
    ∀ number ∈ numbers, number = 0 := by
  induction numbers with
  | nil => exact List.forall_mem_nil _
  | cons first rest hypothesis =>
    rw [List.sum_cons] at none
    obtain ⟨here, there⟩ := List.forall_mem_cons.1 masses
    have parts := isFinite_add.1 (none ▸ isFinite_zero)
    obtain ⟨left, sameFirst⟩ := parts.1
    obtain ⟨right, sameRest⟩ := parts.2
    have nonnegFirst : 0 ≤ left := not_finite_neg.1 (sameFirst ▸ here.1)
    have nonnegRest : 0 ≤ right := not_finite_neg.1 (sameRest ▸ (isMass_sum there).1)
    rw [sameFirst, sameRest] at none
    obtain ⟨zeroFirst, zeroRest⟩ :=
      (add_eq_zero_iff_of_nonneg nonnegFirst nonnegRest).1 (finite.inj none)
    refine List.forall_mem_cons.2 ⟨?_, hypothesis there ?_⟩
    · rw [sameFirst, zeroFirst]
      rfl
    · rw [sameRest, zeroRest]
      rfl

end Ordered

end Extended

/-! ### Scores -/

/-- An exponential that saturates: exact scores have masses that are not negative, except that some
scores may be too large for a mass. -/
class SaturatingExp (Number : Type) [Zero Number] [LE Number] where
  mass? : Number → Option Number
  nonneg : ∀ score mass, mass? score = some mass → 0 ≤ mass

namespace Extended

variable {Number : Type} [Field Number] [LinearOrder Number] [SaturatingExp Number]

/-- The mass of a score. That of minus infinity is zero, and what is too large has the mass plus
infinity. -/
def exp : Extended Number → Extended Number
  | finite score => ((SaturatingExp.mass? score).map finite).getD positiveInfinity
  | infinite negative => if negative then 0 else positiveInfinity
  | undefined => undefined

/-- The score of having found nothing is minus infinity, where the search for the best score starts
too, and no other one that is defined is as low. -/
instance : LogScore (Extended Number) where
  exp := exp
  lowest := negativeInfinity
  isAboveLowest score := negativeInfinity < score
  floor := some negativeInfinity
  isTooLarge _ := false

/-- The exponential of a score is a mass unless the score is undefined. -/
theorem isMass_exp {score : Extended Number} (defined : score ≠ undefined) :
    (LogScore.exp score).IsMass := by
  show (exp score).IsMass
  cases score with
  | finite score =>
    rw [exp]
    cases known : SaturatingExp.mass? score with
    | none => exact ⟨not_positiveInfinity_neg, nofun⟩
    | some mass => exact ⟨not_finite_neg.2 (SaturatingExp.nonneg score mass known), nofun⟩
  | infinite negative =>
    cases negative with
    | true => exact ⟨not_finite_neg.2 (le_refl 0), nofun⟩
    | false => exact ⟨not_positiveInfinity_neg, nofun⟩
  | undefined => exact absurd rfl defined

end Extended

/-- Rational numbers with a function in the place of the exponential that saturates about where that
of floats does. -/
instance saturatingRational : SaturatingExp ℚ where
  mass? score := if 709 < score then none else some (LogScore.exp score)
  nonneg score mass known := by
    split at known
    · cases known
    · obtain rfl := Option.some.inj known
      exact (ExactScore.exp_pos score).le

end WordArithmetic
