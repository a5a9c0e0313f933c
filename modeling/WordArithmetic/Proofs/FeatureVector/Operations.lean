/-
This file shows that operations on sparse vectors act on the functions which the vectors stand for.

A vector stands for the function that reads a key as its weight. Many vectors stand for one
function, since entries may come in any order and may be zero. Over exact numbers no operation can
tell such vectors apart: whatever is done to vectors that go by names, the functions change
pointwise, and products and tests of equality are determined by the functions. A vector that an
operation reads may also be the one that it changes.
-/

import Mathlib.Algebra.BigOperators.Finprod
import WordArithmetic.Proofs.FeatureVector.Product

namespace WordArithmetic

namespace FeatureVector

variable {Number : Type} [CommRing Number]

/-! ### Vectors as functions -/

/-- Only keys with an entry have a weight. -/
theorem support_weight_subset (vector : FeatureVector Number) :
    Function.support vector.weight ⊆ vector.keys.toFinset := by
  intro key weighted
  by_contra absent
  exact weighted (weight_eq_zero fun member => absent (List.mem_toFinset.2 member))

/-- The weight of a key is the value of an entry unless it is zero. -/
theorem mem_entries_weight {vector : FeatureVector Number} {key : Symbol}
    (weighted : vector.weight key ≠ 0) : (key, vector.weight key) ∈ vector.entries := by
  have entered : key ∈ vector.keys := by
    by_contra absent
    exact weighted (weight_eq_zero absent)
  obtain ⟨⟨_, value⟩, member, rfl⟩ := List.mem_map.1 entered
  rw [weight_of_mem member]
  exact member

/-- Vectors that differ in zeros only have the same weights. -/
theorem weight_eq_of_entries {left right : FeatureVector Number}
    (same : ∀ key value, value ≠ 0 → ((key, value) ∈ left.entries ↔ (key, value) ∈ right.entries)) :
    left.weight = right.weight := by
  funext key
  by_cases weighted : left.weight key = 0
  · by_contra different
    have other : right.weight key ≠ 0 := fun none => different (weighted.trans none.symm)
    exact different (weight_of_mem ((same key _ other).2 (mem_entries_weight other)))
  · exact (weight_of_mem ((same key _ weighted).1 (mem_entries_weight weighted))).symm

/-- The product of two vectors is the sum over all keys. -/
theorem dot_eq_finsum (left right : FeatureVector Number) :
    left.dot right = ∑ᶠ key, left.weight key * right.weight key := by
  have covered : (Function.support fun key => left.weight key * right.weight key) ⊆
      left.keys.toFinset :=
    (Function.support_mul_subset_left _ _).trans (support_weight_subset left)
  rw [finsum_eq_sum_of_support_subset _ covered]
  exact dot_eq_sum left right fun key member => List.mem_toFinset.2 member

theorem dot_comm (left right : FeatureVector Number) : left.dot right = right.dot left := by
  rw [dot_eq_finsum, dot_eq_finsum]
  exact finsum_congr fun key => mul_comm _ _

/-- The product of two vectors is linear in the weights of the first. -/
theorem dot_of_weight_eq {combined left right : FeatureVector Number} {multiple : Number}
    (weights : ∀ key, combined.weight key = left.weight key + multiple * right.weight key)
    (other : FeatureVector Number) :
    combined.dot other = left.dot other + multiple * right.dot other := by
  have covered : ∀ key ∈ other.keys, key ∈ other.keys.toFinset :=
    fun key member => List.mem_toFinset.2 member
  rw [dot_comm combined, dot_comm left, dot_comm right, dot_eq_sum _ _ covered,
    dot_eq_sum _ _ covered, dot_eq_sum _ _ covered, Finset.mul_sum, ← Finset.sum_add_distrib]
  refine Finset.sum_congr rfl fun key _ => ?_
  rw [weights, mul_add, mul_left_comm]

variable [BEq Number] [LawfulBEq Number]

/-- Vectors agree if they stand for the same function. -/
theorem agree_iff {left right : FeatureVector Number} :
    left.agree right = true ↔ left.weight = right.weight := by
  rw [agree, List.all_eq_true]
  constructor
  · intro same
    funext key
    by_cases entered : key ∈ left.keys ++ right.keys
    · exact beq_iff_eq.1 (same key entered)
    · rw [List.mem_append, not_or] at entered
      rw [weight_eq_zero entered.1, weight_eq_zero entered.2]
  · intro same key _
    exact beq_iff_eq.2 (congrFun same key)

/-- What is left when zeros are dropped are the keys with a weight. -/
theorem mem_keys_dropZeros {vector : FeatureVector Number} {key : Symbol} :
    key ∈ vector.dropZeros.keys ↔ vector.weight key ≠ 0 := by
  rw [dropZeros, Table.keys, List.mem_map]
  constructor
  · rintro ⟨⟨_, value⟩, member, rfl⟩
    obtain ⟨entered, kept⟩ := Table.mem_entries_filter.1 member
    rw [weight_of_mem entered]
    rintro rfl
    rw [beq_self_eq_true] at kept
    cases kept
  · intro weighted
    refine ⟨_, Table.mem_entries_filter.2 ⟨mem_entries_weight weighted, ?_⟩, rfl⟩
    rw [beq_false_of_ne weighted]
    rfl

/-! ### What the operations read as -/

omit [BEq Number] [LawfulBEq Number] in
/-- What a list of entries says about a key: the last value listed under it, or zero. -/
def lastListed (entries : List (Symbol × Number)) (key : Symbol) : Number :=
  ((entries.reverse.find? fun entry => entry.1 = key).map Prod.snd).getD 0

theorem weight_ofEntries (entries : List (Symbol × Number)) (key : Symbol) :
    (ofEntries entries).weight key = lastListed entries key := by
  rw [ofEntries, weight_dropZeros]
  induction entries using List.reverseRecOn with
  | nil => rfl
  | append_singleton entries last hypothesis =>
    have step : weight (Table.ofList (entries ++ [last])) key =
        weight ((Table.ofList entries).insert last.1 last.2) key := by
      rw [Table.ofList, Table.insertAll, List.foldl_append]
      rfl
    rw [step, weight_insert, hypothesis, lastListed, lastListed, List.reverse_append,
      List.reverse_singleton, List.singleton_append, List.find?_cons]
    by_cases same : last.1 = key
    · rw [if_pos same, decide_eq_true same]
      rfl
    · rw [if_neg same, decide_eq_false same]

omit [BEq Number] [LawfulBEq Number] in
/-- Counting observations gives a key the number of its occurrences. -/
theorem weight_countConjoined (observations : List Symbol) (label key : Symbol) :
    (countConjoined observations label : FeatureVector Number).weight key =
      ((observations.map fun observation => conjunction observation label).count key : ℕ) := by
  induction observations using List.reverseRecOn with
  | nil => exact Nat.cast_zero.symm
  | append_singleton observations last hypothesis =>
    have step : (countConjoined (observations ++ [last]) label : FeatureVector Number) =
        let counts := countConjoined observations label
        counts.insert (conjunction last label) (counts.weight (conjunction last label) + 1) := by
      rw [countConjoined, List.foldl_append]
      rfl
    rw [step, weight_insert, List.map_append, List.count_append, List.map_singleton,
      List.count_singleton]
    by_cases same : conjunction last label = key
    · rw [if_pos same, same, hypothesis, if_pos (beq_self_eq_true key), Nat.cast_add, Nat.cast_one]
    · rw [if_neg same, hypothesis, if_neg (mt beq_iff_eq.1 same), Nat.add_zero]

theorem weight_add (left right : FeatureVector Number) (key : Symbol) :
    (left.add right).weight key = left.weight key + right.weight key := by
  rw [add, weight_addTimes, one_mul]

theorem weight_sub (left right : FeatureVector Number) (key : Symbol) :
    (left.sub right).weight key = left.weight key - right.weight key := by
  rw [sub, weight_addTimes, neg_one_mul, sub_eq_add_neg]

end FeatureVector

/-! ### Operations on vectors that go by names -/

/-- An operation on vectors that go by names. It changes the vector of its target. -/
inductive FeatureVector.Operation (Name Number : Type) where
  /-- Makes the target the vector of a list of entries. -/
  | construct (entries : List (Symbol × Number)) (target : Name)
  /-- Makes the target count observations together with a label. -/
  | count (observations : List Symbol) (label : Symbol) (target : Name)
  /-- Makes the target a copy of a vector. -/
  | copy (source target : Name)
  /-- Makes the target the sum of two vectors. -/
  | add (left right target : Name)
  /-- Adds a vector to the target. -/
  | increase (source target : Name)
  /-- Subtracts a vector from the target. -/
  | decrease (source target : Name)
  /-- Multiplies the target. -/
  | scale (factor : Number) (target : Name)
  /-- Adds a multiple of a vector to the target. -/
  | addTimes (multiple : Number) (source target : Name)
  /-- Enters a value under a key of the target. -/
  | enter (key : Symbol) (value : Number) (target : Name)
  /-- Drops the zeros of the target. -/
  | dropZeros (target : Name)

namespace FeatureVector.Operation

variable {Name Number : Type} [CommRing Number]

/-- The name of the vector that an operation changes. -/
def target : Operation Name Number → Name
  | construct _ target | count _ _ target | copy _ target | add _ _ target | increase _ target
  | decrease _ target | scale _ target | addTimes _ _ target | enter _ _ target
  | dropZeros target => target

/-- What an operation makes of its target. -/
def result [BEq Number] (vectors : Name → FeatureVector Number) :
    Operation Name Number → FeatureVector Number
  | construct entries _ => .ofEntries entries
  | count observations label _ => .countConjoined observations label
  | copy source _ => vectors source
  | add left right _ => (vectors left).add (vectors right)
  | increase source target => (vectors target).add (vectors source)
  | decrease source target => (vectors target).sub (vectors source)
  | scale factor target => (vectors target).scale factor
  | addTimes multiple source target => .addTimes multiple (vectors source) (vectors target)
  | enter key value target => (vectors target).insert key value
  | dropZeros target => (vectors target).dropZeros

/-- What an operation means for functions of keys: the function of its target is this one
afterwards. -/
def effect (weights : Name → Symbol → Number) : Operation Name Number → Symbol → Number
  | construct entries _ => FeatureVector.lastListed entries
  | count observations label _ => fun key =>
    ((observations.map fun observation => FeatureVector.conjunction observation label).count key : ℕ)
  | copy source _ => weights source
  | add left right _ => fun key => weights left key + weights right key
  | increase source target => fun key => weights target key + weights source key
  | decrease source target => fun key => weights target key - weights source key
  | scale factor target => fun key => weights target key * factor
  | addTimes multiple source target => fun key => weights target key + multiple * weights source key
  | enter key value target => fun other => if key = other then value else weights target other
  | dropZeros target => weights target

/-- The vector that an operation makes stands for the function that it means. -/
theorem weight_result [BEq Number] [LawfulBEq Number] (vectors : Name → FeatureVector Number)
    (operation : Operation Name Number) :
    (operation.result vectors).weight = operation.effect fun name => (vectors name).weight := by
  funext key
  cases operation with
  | construct entries _ => exact FeatureVector.weight_ofEntries entries key
  | count observations label _ => exact FeatureVector.weight_countConjoined observations label key
  | copy source _ => rfl
  | add left right _ => exact FeatureVector.weight_add _ _ key
  | increase source target => exact FeatureVector.weight_add _ _ key
  | decrease source target => exact FeatureVector.weight_sub _ _ key
  | scale factor target => exact FeatureVector.weight_scale _ factor key
  | addTimes multiple source target => exact FeatureVector.weight_addTimes multiple _ _ key
  | enter entered value target => exact FeatureVector.weight_insert _ entered key value
  | dropZeros target => exact FeatureVector.weight_dropZeros _ key

variable [DecidableEq Name]

/-- Carries out operations on vectors, one after the other. -/
def runAll [BEq Number] (operations : List (Operation Name Number))
    (vectors : Name → FeatureVector Number) : Name → FeatureVector Number :=
  operations.foldl (fun vectors operation =>
    Function.update vectors operation.target (operation.result vectors)) vectors

/-- Carries out operations on functions of keys, one after the other. -/
def actAll (operations : List (Operation Name Number)) (weights : Name → Symbol → Number) :
    Name → Symbol → Number :=
  operations.foldl (fun weights operation =>
    Function.update weights operation.target (operation.effect weights)) weights

variable [BEq Number]

/-- A vector that no operation changes stays what it is. -/
theorem runAll_other (operations : List (Operation Name Number))
    (vectors : Name → FeatureVector Number) {name : Name}
    (other : ∀ operation ∈ operations, operation.target ≠ name) :
    runAll operations vectors name = vectors name := by
  induction operations generalizing vectors with
  | nil => rfl
  | cons operation rest hypothesis =>
    obtain ⟨here, there⟩ := List.forall_mem_cons.1 other
    exact (hypothesis _ there).trans (Function.update_of_ne here.symm _ _)

variable [LawfulBEq Number]

/-- Operations on vectors are operations on the functions for which they stand. -/
theorem weight_runAll (operations : List (Operation Name Number))
    (vectors : Name → FeatureVector Number) :
    (fun name => (runAll operations vectors name).weight) =
      actAll operations fun name => (vectors name).weight := by
  induction operations generalizing vectors with
  | nil => rfl
  | cons operation rest hypothesis =>
    have step : (fun name =>
          (Function.update vectors operation.target (operation.result vectors) name).weight) =
        Function.update (fun name => (vectors name).weight) operation.target
          (operation.effect fun name => (vectors name).weight) := by
      funext name
      rw [← weight_result, Function.apply_update fun _ vector => FeatureVector.weight vector]
    refine (hypothesis _).trans ?_
    rw [step]
    rfl

/-- Vectors that stand for functions: what is read of them, their products and their equality are
those of the functions, and zeros that are entered are never seen. -/
structure Represents (vectors : Name → FeatureVector Number) (weights : Name → Symbol → Number) :
    Prop where
  weight_eq : ∀ name, (vectors name).weight = weights name
  finite : ∀ name, (Function.support (weights name)).Finite
  dot_eq : ∀ left right,
    (vectors left).dot (vectors right) = ∑ᶠ key, weights left key * weights right key
  symmetric : ∀ left right, (vectors left).dot (vectors right) = (vectors right).dot (vectors left)
  linear : ∀ combined left right other multiple,
    (∀ key, weights combined key = weights left key + multiple * weights right key) →
      (vectors combined).dot (vectors other) =
        (vectors left).dot (vectors other) + multiple * (vectors right).dot (vectors other)
  agree_iff : ∀ left right, (vectors left).agree (vectors right) = true ↔
    ∀ key, weights left key = weights right key
  zeros_unseen : ∀ name (vector : FeatureVector Number), (∀ key value, value ≠ 0 →
      ((key, value) ∈ vector.entries ↔ (key, value) ∈ (vectors name).entries)) →
    vector.weight = weights name ∧ ∀ other, vector.dot other = (vectors name).dot other ∧
      vector.agree other = (vectors name).agree other
  mem_keys_dropZeros : ∀ name key, key ∈ (vectors name).dropZeros.keys ↔ weights name key ≠ 0

omit [DecidableEq Name] in
/-- All vectors represent the functions that read them. -/
theorem represents_weight (vectors : Name → FeatureVector Number) :
    Represents vectors fun name => (vectors name).weight where
  weight_eq _ := rfl
  finite name := (Finset.finite_toSet _).subset (FeatureVector.support_weight_subset (vectors name))
  dot_eq left right := FeatureVector.dot_eq_finsum (vectors left) (vectors right)
  symmetric left right := FeatureVector.dot_comm (vectors left) (vectors right)
  linear _ _ _ other _ combined := FeatureVector.dot_of_weight_eq combined (vectors other)
  agree_iff _ _ := FeatureVector.agree_iff.trans funext_iff
  zeros_unseen name vector same := by
    have weights := FeatureVector.weight_eq_of_entries same
    refine ⟨weights, fun other => ⟨?_, ?_⟩⟩
    · rw [FeatureVector.dot_eq_finsum, FeatureVector.dot_eq_finsum, weights]
    · rw [Bool.eq_iff_iff, FeatureVector.agree_iff, FeatureVector.agree_iff, weights]
  mem_keys_dropZeros _ _ := FeatureVector.mem_keys_dropZeros

/-- After any operations vectors represent the functions on which the same operations have been
carried out pointwise, and the vectors that were no target are what they were. -/
theorem represents_runAll (operations : List (Operation Name Number))
    (vectors : Name → FeatureVector Number) :
    Represents (runAll operations vectors)
        (actAll operations fun name => (vectors name).weight) ∧
      ∀ name, (∀ operation ∈ operations, operation.target ≠ name) →
        runAll operations vectors name = vectors name := by
  refine ⟨?_, fun name other => runAll_other operations vectors other⟩
  rw [← weight_runAll]
  exact represents_weight (runAll operations vectors)

/-- Operations on two vectors: the first is made from a list that repeats a key, copied, trebled by
adding it to itself, and then taken from the copy. -/
def trebling : List (Operation String ℤ) :=
  [.construct [(.name "a", 1), (.name "b", 2), (.name "a", 3), (.name "c", 0)] "first",
    .copy "first" "second", .addTimes 2 "first" "first", .decrease "first" "second",
    .enter (.name "b") 0 "second"]

/-- Trebling a vector makes nine of three and six of two, and the copy loses as much. -/
theorem represents_trebling :
    (runAll trebling (fun _ => .zero) "first").weight (.name "a") = 9 ∧
      (runAll trebling (fun _ => .zero) "first").weight (.name "b") = 6 ∧
      (runAll trebling (fun _ => .zero) "second").weight (.name "a") = -6 ∧
      (runAll trebling (fun _ => .zero) "first").dot (runAll trebling (fun _ => .zero) "second") =
        -54 ∧
      runAll trebling (fun _ => .zero) "third" = .zero := by
  obtain ⟨represents, untouched⟩ := represents_runAll trebling fun _ => .zero
  refine ⟨?_, ?_, ?_, ?_, untouched "third" (by decide)⟩
  · rw [represents.weight_eq]
    decide
  · rw [represents.weight_eq]
    decide
  · rw [represents.weight_eq]
    decide
  · rw [represents.symmetric]
    decide

end FeatureVector.Operation

end WordArithmetic
