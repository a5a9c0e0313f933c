/-
This file computes the weights of sums of feature vectors.

Where the order in which numbers are added does not matter, totals are sums, and adding multiples of
vectors to a vector adds what these contribute under every key. A multiple of zero contributes
nothing. Over exact numbers this shortcut changes nothing, since what it leaves out is zero, and
every multiple contributes the multiple of the weight.
-/

import Mathlib.Algebra.BigOperators.Group.List.Basic
import Mathlib.Algebra.Ring.Defs
import Mathlib.Tactic.Ring
import WordArithmetic.FeatureVector.Basic
import WordArithmetic.Proofs.Table

namespace WordArithmetic

/-- A total of exact numbers is their sum. -/
theorem total_eq_sum {Number : Type} [AddCommMonoid Number] (numbers : List Number) :
    total numbers = numbers.sum := by
  have shifted : ∀ start : Number, numbers.foldl (· + ·) start = start + numbers.sum := by
    induction numbers with
    | nil => exact fun start => (add_zero start).symm
    | cons first rest hypothesis =>
      intro start
      rw [List.foldl_cons, hypothesis, List.sum_cons, add_assoc]
  rw [total, shifted, zero_add]

namespace FeatureVector

variable {Number : Type}

/-! ### Weights of numbers of any kind -/

section Reading

variable [Zero Number]

theorem weight_of_get? {vector : FeatureVector Number} {key : Symbol} {value : Number}
    (found : vector.get? key = some value) : vector.weight key = value := by
  rw [weight, found, Option.getD_some]

/-- Multiplying a vector multiplies its entries. -/
theorem weight_scale_eq_getD [Mul Number] (vector : FeatureVector Number) (factor : Number)
    (key : Symbol) :
    (vector.scale factor).weight key = ((vector.get? key).map (· * factor)).getD 0 := by
  rw [weight, scale, Table.get?_mapValues]

/-- A vector without its zeros has the same weights, if nothing else is equal to zero. -/
theorem weight_dropZeros_of_beq [BEq Number]
    (zeros : ∀ number : Number, (number == 0) = true → number = 0) (vector : FeatureVector Number)
    (key : Symbol) : vector.dropZeros.weight key = vector.weight key := by
  rw [weight, dropZeros, Table.get?_filter, weight]
  cases vector.get? key with
  | none => rfl
  | some value =>
    rw [Option.filter_some]
    split
    · rfl
    · rename_i dropped
      rw [Bool.not_eq_true, Bool.not_eq_false'] at dropped
      exact (zeros value dropped).symm

end Reading

section Contribution

/-- What adding a multiple of a vector adds under a key. A multiple of zero adds nothing, whatever
the vector has there. -/
def contribution [Zero Number] [Mul Number] [BEq Number] (multiple : Number)
    (source : FeatureVector Number) (key : Symbol) : Number :=
  if multiple == 0 then 0 else ((source.get? key).map (multiple * ·)).getD 0

variable [AddCommMonoid Number] [Mul Number] [BEq Number]

theorem weight_addTimes_eq_add (multiple : Number) (source target : FeatureVector Number)
    (key : Symbol) :
    (addTimes multiple source target).weight key =
      target.weight key + contribution multiple source key := by
  unfold addTimes contribution
  split
  · exact (add_zero _).symm
  · let change := fun other value => target.weight other + multiple * value
    have read : (target.insertAll (source.mapValues change).entries).get? key =
        ((source.get? key).map (change key)).or (target.get? key) := by
      rw [Table.get?_insertAll _ (source.mapValues change).distinct, ← Table.get?_mapValues]
      rfl
    have same : weight (target.insertAll (source.mapValues change).entries) key =
        (((source.get? key).map (change key)).or (target.get? key)).getD 0 := by
      rw [weight, read]
    refine same.trans ?_
    cases source.get? key with
    | none => exact (add_zero _).symm
    | some value => rfl

/-- Adding multiples of many vectors and skipping some of them adds the contributions of the
others. -/
theorem weight_foldl_eq_add_sum {Element : Type} (skips : Element → Bool)
    (multiple : Element → Number) (features : Element → FeatureVector Number)
    (elements : List Element) (start : FeatureVector Number) (key : Symbol) :
    (elements.foldl (fun current element =>
      if skips element then current
      else addTimes (multiple element) (features element) current) start).weight key =
      start.weight key + (elements.map fun element =>
        if skips element then 0
        else contribution (multiple element) (features element) key).sum := by
  induction elements generalizing start with
  | nil => exact (add_zero _).symm
  | cons first rest hypothesis =>
    rw [List.foldl_cons, hypothesis, List.map_cons, List.sum_cons, ← add_assoc]
    congr 1
    split
    · exact (add_zero _).symm
    · exact weight_addTimes_eq_add _ _ _ _

end Contribution

/-! ### Weights of exact numbers -/

variable [CommSemiring Number]

@[simp]
theorem weight_zero (key : Symbol) : (zero : FeatureVector Number).weight key = 0 := rfl

/-- Multiplying a vector multiplies its weights. -/
theorem weight_scale (vector : FeatureVector Number) (factor : Number) (key : Symbol) :
    (vector.scale factor).weight key = vector.weight key * factor := by
  rw [weight_scale_eq_getD, weight]
  cases vector.get? key with
  | none => exact (zero_mul factor).symm
  | some value => rfl

variable [BEq Number] [LawfulBEq Number]

/-- A vector without its zeros has the same weights. -/
theorem weight_dropZeros (vector : FeatureVector Number) (key : Symbol) :
    vector.dropZeros.weight key = vector.weight key :=
  weight_dropZeros_of_beq (fun _ => beq_iff_eq.1) vector key

/-- A multiple of a vector contributes the multiple of its weight. -/
theorem contribution_eq_mul (multiple : Number) (source : FeatureVector Number) (key : Symbol) :
    contribution multiple source key = multiple * source.weight key := by
  unfold contribution
  split
  · rename_i none
    rw [beq_iff_eq.1 none, zero_mul]
  · rw [weight]
    cases source.get? key with
    | none => exact (mul_zero multiple).symm
    | some value => rfl

/-- Adding a multiple of a vector adds the multiples of its weights. -/
theorem weight_addTimes (multiple : Number) (source target : FeatureVector Number) (key : Symbol) :
    (addTimes multiple source target).weight key =
      target.weight key + multiple * source.weight key := by
  rw [weight_addTimes_eq_add, contribution_eq_mul]

/-- Adding multiples of many vectors, and skipping some of those with multiple zero, adds the sum
of the multiples of their weights. -/
theorem weight_foldl_addTimes {Element : Type} (skipped multiple : Element → Number)
    (features : Element → FeatureVector Number)
    (harmless : ∀ element, skipped element = 0 → multiple element = 0) (elements : List Element)
    (start : FeatureVector Number) (key : Symbol) :
    (elements.foldl (fun current element =>
      if skipped element == 0 then current
      else addTimes (multiple element) (features element) current) start).weight key =
      start.weight key +
        (elements.map fun element => multiple element * (features element).weight key).sum := by
  rw [weight_foldl_eq_add_sum]
  congr 2
  refine List.map_congr_left fun element _ => ?_
  split
  · rename_i none
    rw [harmless element (beq_iff_eq.1 none), zero_mul]
  · exact contribution_eq_mul _ _ _

end FeatureVector

end WordArithmetic
