/-
This file shows that the product of feature vectors is linear.

The product of two vectors is computed from the entries of the smaller one. Over exact numbers it
does not matter which one that is: the product is the sum over any set of keys that covers one of
them, and so it depends on the weights only and is linear in each vector. The sum of the weights of
some observations together with a label is the product with the vector that counts them, however
often an observation is repeated, and so are the sums over many such steps, whatever they share.
-/

import Mathlib.Algebra.BigOperators.Group.Finset.Piecewise
import Mathlib.Algebra.BigOperators.Ring.Finset
import Mathlib.Algebra.BigOperators.Ring.List
import WordArithmetic.FeatureVector.Index
import WordArithmetic.Proofs.FeatureVector

namespace WordArithmetic

namespace FeatureVector

variable {Number : Type} [CommSemiring Number]

/-- A key without entry has no weight. -/
theorem weight_eq_zero {vector : FeatureVector Number} {key : Symbol} (absent : key ∉ vector.keys) :
    vector.weight key = 0 := by
  rw [weight, Table.get?, entryOf?_eq_none absent, Option.getD_none]

/-- The value of an entry is the weight of its key. -/
theorem weight_of_mem {vector : FeatureVector Number} {key : Symbol} {value : Number}
    (member : (key, value) ∈ vector.entries) : vector.weight key = value := by
  rw [weight, Table.get?, entryOf?_of_mem vector.distinct member, Option.getD_some]

theorem weight_insert (vector : FeatureVector Number) (key other : Symbol) (value : Number) :
    weight (vector.insert key value) other =
      if key = other then value else vector.weight other := by
  rw [weight, Table.get?_insert]
  split
  · rfl
  · rfl

/-! ### Products as sums over keys -/

/-- What is computed from the entries of a vector is a sum over any keys that cover them. -/
theorem dotEntries_eq_sum (left right : FeatureVector Number) {keys : Finset Symbol}
    (covered : ∀ key ∈ left.keys, key ∈ keys) :
    dotEntries left.entries right = ∑ key ∈ keys, left.weight key * right.weight key := by
  have overEntries : dotEntries left.entries right =
      (left.keys.map fun key => left.weight key * right.weight key).sum := by
    rw [dotEntries, total_eq_sum, Table.keys, List.map_map]
    congr 1
    refine List.map_congr_left fun entry member => ?_
    rw [Function.comp_apply, weight_of_mem member]
  have distinct : left.keys.Nodup := left.distinct
  rw [overEntries, ← List.sum_toFinset _ distinct]
  refine Finset.sum_subset (fun key member => covered key (List.mem_toFinset.1 member)) ?_
  intro key _ absent
  rw [weight_eq_zero fun member => absent (List.mem_toFinset.2 member), zero_mul]

/-- The product of two vectors is a sum over any keys that cover the first. -/
theorem dot_eq_sum (left right : FeatureVector Number) {keys : Finset Symbol}
    (covered : ∀ key ∈ left.keys, key ∈ keys) :
    dot left right = ∑ key ∈ keys, left.weight key * right.weight key := by
  unfold dot
  split
  · exact dotEntries_eq_sum left right covered
  · have both : ∀ key ∈ right.keys, key ∈ keys ∪ right.keys.toFinset := fun key member =>
      Finset.mem_union_right _ (List.mem_toFinset.2 member)
    rw [dotEntries_eq_sum right left both]
    have more : ∀ key ∈ keys ∪ right.keys.toFinset, key ∉ keys →
        left.weight key * right.weight key = 0 := by
      intro key _ absent
      rw [weight_eq_zero fun member => absent (covered key member), zero_mul]
    rw [Finset.sum_subset Finset.subset_union_left more]
    exact Finset.sum_congr rfl fun key _ => mul_comm _ _

/-! ### Linearity -/

variable (theta : FeatureVector Number)

theorem dot_zero : theta.dot zero = 0 := by
  rw [dot_eq_sum theta zero fun key member => List.mem_toFinset.2 member]
  exact Finset.sum_eq_zero fun key _ => by rw [weight_zero, mul_zero]

/-- Counting one more occurrence of a key adds the weight of the key to the product. -/
theorem dot_insert_add_one (vector : FeatureVector Number) (key : Symbol) :
    theta.dot (vector.insert key (vector.weight key + 1)) =
      theta.dot vector + theta.weight key := by
  have covered : ∀ other ∈ theta.keys, other ∈ insert key theta.keys.toFinset :=
    fun other member => Finset.mem_insert_of_mem (List.mem_toFinset.2 member)
  have one : ∀ other : Symbol,
      theta.weight other * weight (vector.insert key (vector.weight key + 1)) other =
        theta.weight other * vector.weight other +
          if key = other then theta.weight other else 0 := by
    intro other
    rw [weight_insert]
    by_cases same : key = other
    · rw [if_pos same, if_pos same, same, mul_add, mul_one]
    · rw [if_neg same, if_neg same, add_zero]
  rw [dot_eq_sum _ _ covered, dot_eq_sum _ _ covered, Finset.sum_congr rfl fun other _ => one other,
    Finset.sum_add_distrib, Finset.sum_ite_eq, if_pos (Finset.mem_insert_self _ _)]

/-- The weights of observations together with a label sum up to the product with the vector that
counts them. -/
theorem dot_countConjoined (observations : List Symbol) (label : Symbol) :
    theta.dot (countConjoined observations label) = theta.dotConjoined observations label := by
  have counted : ∀ counts : FeatureVector Number,
      theta.dot (observations.foldl (fun counts observation =>
        let key := conjunction observation label
        counts.insert key (counts.weight key + 1)) counts) =
      theta.dot counts +
        (observations.map fun observation => theta.weight (conjunction observation label)).sum := by
    induction observations with
    | nil => exact fun counts => (add_zero _).symm
    | cons first rest hypothesis =>
      intro counts
      rw [List.foldl_cons, hypothesis, dot_insert_add_one, List.map_cons, List.sum_cons, add_assoc]
  rw [countConjoined, counted, dot_zero, zero_add, dotConjoined, totalConjoined, total_eq_sum]

variable [BEq Number] [LawfulBEq Number]

/-- The product is linear in the second vector. -/
theorem dot_addTimes (multiple : Number) (source target : FeatureVector Number) :
    theta.dot (addTimes multiple source target) =
      theta.dot target + multiple * theta.dot source := by
  have covered : ∀ key ∈ theta.keys, key ∈ theta.keys.toFinset :=
    fun key member => List.mem_toFinset.2 member
  rw [dot_eq_sum _ _ covered, dot_eq_sum _ _ covered, dot_eq_sum _ _ covered, Finset.mul_sum,
    ← Finset.sum_add_distrib]
  refine Finset.sum_congr rfl fun key _ => ?_
  rw [weight_addTimes, mul_add, mul_left_comm]

/-- The product with a sum of vectors is the sum of the products. -/
theorem dot_add (left right : FeatureVector Number) :
    theta.dot (left.add right) = theta.dot left + theta.dot right := by
  rw [add, dot_addTimes, one_mul]

/-! ### Steps -/

/-- The vector that counts the observations of many steps, each together with the label of its
step. -/
def countSteps (steps : List (List Symbol × Symbol)) : FeatureVector Number :=
  steps.foldl (fun counts step => counts.add (countConjoined step.1 step.2)) zero

/-- The product with the vector that counts steps is the sum over the steps. -/
theorem dot_countSteps (steps : List (List Symbol × Symbol)) :
    theta.dot (countSteps steps) =
      (steps.map fun step => theta.dotConjoined step.1 step.2).sum := by
  have counted : ∀ counts : FeatureVector Number,
      theta.dot (steps.foldl (fun counts step =>
        counts.add (countConjoined step.1 step.2)) counts) =
      theta.dot counts + (steps.map fun step => theta.dotConjoined step.1 step.2).sum := by
    induction steps with
    | nil => exact fun counts => (add_zero _).symm
    | cons first rest hypothesis =>
      intro counts
      rw [List.foldl_cons, hypothesis, dot_add, dot_countConjoined, List.map_cons, List.sum_cons,
        add_assoc]
  rw [countSteps, counted, dot_zero, zero_add]

/-- What is summed up one observation after the other is a product with counted observations, for
one step and for many steps one after the other. The product may run over the entries of either
vector. -/
theorem totals_eq_products :
    (∀ observations label,
      theta.dotConjoined observations label = theta.dot (countConjoined observations label)) ∧
    ∀ steps : List (List Symbol × Symbol),
      total (steps.map fun step => theta.dotConjoined step.1 step.2) =
        theta.dot (countSteps steps) ∧
      dotEntries theta.entries (countSteps steps) = theta.dot (countSteps steps) ∧
      dotEntries (countSteps steps).entries theta = theta.dot (countSteps steps) := by
  refine ⟨fun observations label => (theta.dot_countConjoined observations label).symm,
    fun steps => ⟨?_, ?_, ?_⟩⟩
  · rw [total_eq_sum, dot_countSteps]
  · have covered : ∀ key ∈ theta.keys, key ∈ theta.keys.toFinset :=
      fun key member => List.mem_toFinset.2 member
    rw [dot_eq_sum _ _ covered, dotEntries_eq_sum _ _ covered]
  · have covered : ∀ key ∈ (countSteps steps : FeatureVector Number).keys,
        key ∈ theta.keys.toFinset ∪ (countSteps steps : FeatureVector Number).keys.toFinset :=
      fun key member => Finset.mem_union_right _ (List.mem_toFinset.2 member)
    have others : ∀ key ∈ theta.keys,
        key ∈ theta.keys.toFinset ∪ (countSteps steps : FeatureVector Number).keys.toFinset :=
      fun key member => Finset.mem_union_left _ (List.mem_toFinset.2 member)
    rw [dot_eq_sum _ _ others, dotEntries_eq_sum _ _ covered]
    exact Finset.sum_congr rfl fun key _ => mul_comm _ _

/-- Weights with an entered zero, and steps that share observations and labels. -/
def enteredZero : FeatureVector ℤ :=
  (ofEntries
    [(conjunction (.name "a") (.name "x"), 2), (conjunction (.name "b") (.name "x"), 3)]).insert
    (conjunction (.name "b") (.name "y")) 0

def sharedSteps : List (List Symbol × Symbol) :=
  [([.name "a", .name "b", .name "a"], .name "x"), ([.name "b"], .name "y"),
    ([.name "a", .name "b", .name "a"], .name "x"), ([.name "a", .name "c"], .name "x")]

/-- The steps add up to seven, zero, seven and two. -/
theorem totals_eq_products_shared :
    enteredZero.dot (countSteps sharedSteps) = 16 ∧
      dotEntries enteredZero.entries (countSteps sharedSteps) = 16 ∧
      dotEntries (countSteps sharedSteps).entries enteredZero = 16 := by
  obtain ⟨summed, left, right⟩ := enteredZero.totals_eq_products.2 sharedSteps
  have sixteen : enteredZero.dot (countSteps sharedSteps) = 16 := by
    rw [← summed]
    decide
  exact ⟨sixteen, left.trans sixteen, right.trans sixteen⟩

end FeatureVector

end WordArithmetic
