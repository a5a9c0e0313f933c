/-
This file says what a step along the direction of a split does to the scores.

Scores are products with the weights, so a step changes every score by the product of the step with
the features of the candidate. The product of weights with the direction is the mean score of the
valid candidates less that of the invalid ones. A step of the direction itself therefore widens this
gap by the square of the direction. Squares are not negative, and the square of a vector is zero
only if all its weights are: then no entry is left, and the mean features of both sides are the
same.
-/

import Mathlib.Algebra.Order.BigOperators.Group.Finset
import Mathlib.Algebra.Order.Field.Rat
import WordArithmetic.Proofs.FeatureVector.Operations
import WordArithmetic.Proofs.Learning.Split

namespace WordArithmetic

namespace FeatureVector

variable {Number : Type}

/-! ### Squares -/

section Square

variable [CommRing Number]

/-- The square of a vector is a sum of squares. -/
theorem dot_self_eq_sum (vector : FeatureVector Number) :
    vector.dot vector = ∑ key ∈ vector.keys.toFinset, vector.weight key * vector.weight key :=
  dot_eq_sum vector vector fun _ member => List.mem_toFinset.2 member

variable [LinearOrder Number] [IsStrictOrderedRing Number]

theorem dot_self_nonneg (vector : FeatureVector Number) : 0 ≤ vector.dot vector := by
  rw [dot_self_eq_sum]
  exact Finset.sum_nonneg fun key _ => mul_self_nonneg _

/-- Only a vector without weights has the square zero. -/
theorem dot_self_eq_zero {vector : FeatureVector Number} :
    vector.dot vector = 0 ↔ ∀ key, vector.weight key = 0 := by
  rw [dot_self_eq_sum, Finset.sum_eq_zero_iff_of_nonneg fun key _ => mul_self_nonneg _]
  constructor
  · intro squares key
    by_cases entered : key ∈ vector.keys
    · exact mul_self_eq_zero.1 (squares key (List.mem_toFinset.2 entered))
    · exact weight_eq_zero entered
  · exact fun none key _ => mul_self_eq_zero.2 (none key)

end Square

/-! ### Steps and vectors without zeros -/

variable [CommRing Number] [BEq Number] [LawfulBEq Number]

/-- Adding a multiple of a vector to the weights adds the multiple of its product. -/
theorem addTimes_dot (multiple : Number) (source target other : FeatureVector Number) :
    (addTimes multiple source target).dot other =
      target.dot other + multiple * source.dot other :=
  dot_of_weight_eq (weight_addTimes multiple source target) other

theorem dot_dropZeros (theta vector : FeatureVector Number) :
    theta.dot vector.dropZeros = theta.dot vector := by
  rw [dot_eq_finsum, dot_eq_finsum]
  exact finsum_congr fun key => by rw [weight_dropZeros]

/-- Dropping zeros leaves no entry exactly if there is no weight. -/
theorem dropZeros_eq_zero_iff {vector : FeatureVector Number} :
    vector.dropZeros = zero ↔ ∀ key, vector.weight key = 0 := by
  constructor
  · intro none key
    rw [← weight_dropZeros, none, weight_zero]
  · intro none
    have noKeys : vector.dropZeros.keys = [] :=
      List.eq_nil_iff_forall_not_mem.2 fun key member => mem_keys_dropZeros.1 member (none key)
    have noEntries : vector.dropZeros.entries = [] := List.map_eq_nil_iff.1 noKeys
    cases dropped : vector.dropZeros with
    | mk entries distinct =>
      rw [dropped] at noEntries
      cases noEntries
      rfl

end FeatureVector

namespace Split

variable {Candidate Number : Type} [Field Number] [BEq Number] [LawfulBEq Number]

/-- The mean score of the valid candidates less that of the invalid ones. -/
def gap (theta : FeatureVector Number) (features : Candidate → FeatureVector Number)
    (split : Split Candidate) : Number :=
  mean (fun candidate => theta.dot (features candidate)) split.valid -
    mean (fun candidate => theta.dot (features candidate)) split.invalid

/-- The gap is the product of the weights with the direction. -/
theorem dot_direction (theta : FeatureVector Number) (features : Candidate → FeatureVector Number)
    (split : Split Candidate) : theta.dot (split.direction features) = split.gap theta features :=
  read_direction theta.dot (FeatureVector.dot_addTimes theta) (FeatureVector.dot_dropZeros theta)
    (FeatureVector.dot_zero theta) features split

/-- A direction has no entries exactly if both sides have the same mean features. -/
theorem direction_eq_zero_iff {features : Candidate → FeatureVector Number}
    {split : Split Candidate} :
    split.direction features = FeatureVector.zero ↔ ∀ key,
      mean (fun candidate => (features candidate).weight key) split.valid =
        mean (fun candidate => (features candidate).weight key) split.invalid := by
  have weights : split.direction features = FeatureVector.zero ↔
      ∀ key, (split.direction features).weight key = 0 := by
    unfold direction
    rw [FeatureVector.dropZeros_eq_zero_iff]
    simp only [FeatureVector.weight_dropZeros]
  rw [weights]
  exact forall_congr' fun key => by rw [weight_direction, sub_eq_zero]

variable [LinearOrder Number] [IsStrictOrderedRing Number]

/-- Let a margin be violated, and take the direction of the violating candidates. A step of any
length along it changes every score by the length times the product of the direction with the
features. A step of the direction itself widens the gap between the mean scores of the violating
candidates by the square of the direction. So the gap never narrows, and it stays the same exactly
if the direction has no entries, which means that both sides have the same mean features. -/
theorem gap_after_step (theta : FeatureVector Number)
    (features : Candidate → FeatureVector Number) (margin : Number) (split : Split Candidate) :
    let violating := split.violating (fun candidate => theta.dot (features candidate)) margin
    let direction := violating.direction features
    let stepped := fun length => FeatureVector.addTimes length direction theta
    (∀ length candidate, (stepped length).dot (features candidate) =
      theta.dot (features candidate) + length * direction.dot (features candidate)) ∧
    violating.gap (stepped 1) features =
      violating.gap theta features + direction.dot direction ∧
    violating.gap theta features ≤ violating.gap (stepped 1) features ∧
    (violating.gap (stepped 1) features = violating.gap theta features ↔
      direction = FeatureVector.zero) ∧
    (direction = FeatureVector.zero ↔ ∀ key,
      mean (fun candidate => (features candidate).weight key) violating.valid =
        mean (fun candidate => (features candidate).weight key) violating.invalid) := by
  intro violating direction stepped
  have widened : violating.gap (stepped 1) features =
      violating.gap theta features + direction.dot direction := by
    rw [← dot_direction, ← dot_direction]
    calc (stepped 1).dot direction
      _ = theta.dot direction + 1 * direction.dot direction :=
        FeatureVector.addTimes_dot 1 direction theta direction
      _ = theta.dot direction + direction.dot direction := by rw [one_mul]
  refine ⟨fun length candidate => FeatureVector.addTimes_dot length direction theta _, widened, ?_,
    ?_, direction_eq_zero_iff⟩
  · rw [widened]
    exact le_add_of_nonneg_right (FeatureVector.dot_self_nonneg direction)
  · rw [widened, add_eq_left, FeatureVector.dot_self_eq_zero, direction_eq_zero_iff]
    exact forall_congr' fun key => by rw [weight_direction, sub_eq_zero]

/-- The features of a word: that it occurs, and its length. -/
def wordFeatures (word : String) : FeatureVector ℚ :=
  Table.ofList [(.name word, 1), (.name "length", (word.length : ℚ))]

/-- Weights for three words. -/
def wordWeights : FeatureVector ℚ :=
  Table.ofList [(.name "two", 3), (.name "ten", 9), (.name "three", 1)]

/-- Of three valid words one is far enough above both invalid ones. The step is the difference of
two means, and widens the gap between the other words from one by thirteen quarters. -/
theorem gap_after_step_words :
    let violating := violating (fun word => wordWeights.dot (wordFeatures word)) 3
      ⟨["two", "ten", "six"], ["three", "nine"]⟩
    let direction := violating.direction wordFeatures
    violating.valid = ["two", "six"] ∧ violating.invalid = ["three", "nine"] ∧
      violating.gap wordWeights wordFeatures = 1 ∧
      violating.gap (FeatureVector.addTimes 1 direction wordWeights) wordFeatures = 1 + 13 / 4 ∧
      direction ≠ FeatureVector.zero := by
  intro violating direction
  obtain ⟨-, widened, -, -, empty⟩ :=
    gap_after_step wordWeights wordFeatures 3 ⟨["two", "ten", "six"], ["three", "nine"]⟩
  refine ⟨by decide +kernel, by decide +kernel, by decide +kernel,
    widened.trans (by decide +kernel), fun none => ?_⟩
  exact absurd (empty.1 none (.name "length")) (by decide +kernel)

end Split

end WordArithmetic
