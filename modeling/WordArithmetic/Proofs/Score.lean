/-
This file says what scores are over exact numbers, and which scores can be compared.

Exact numbers are ordered, none of them is out of range, and each can be the score of something. In
the place of the exponential any positive function will do. The first of the largest elements is
then an element that no other exceeds. For a search for the best score less is enough: the scores
that rank among others have to be in one order, as those of exact numbers and of programs are.
-/

import Mathlib.Algebra.Order.Field.Rat
import Mathlib.Data.List.Induction
import Mathlib.Order.Basic
import WordArithmetic.Score

namespace WordArithmetic

/-- Scores that are exact: masses are positive, and no number is too low or too large for
anything. -/
class ExactScore (Number : Type) [Zero Number] [LT Number] [LogScore Number] : Prop where
  exp_pos : ∀ score : Number, 0 < LogScore.exp score
  isAboveLowest : ∀ score : Number, LogScore.isAboveLowest score = true
  floor : (LogScore.floor : Option Number) = none
  inRange : ∀ number : Number, LogScore.isTooLarge number = false

/-- Rational numbers as scores, with a function in the place of the exponential that is positive
and grows. -/
instance rationalScore : LogScore ℚ where
  exp score := if score < 0 then 1 / (1 - score) else 1 + score
  lowest := 0
  isAboveLowest _ := true
  floor := none
  isTooLarge _ := false

instance : ExactScore ℚ where
  exp_pos score := by
    show 0 < if score < 0 then 1 / (1 - score) else 1 + score
    split
    · rename_i negative
      exact one_div_pos.2 (sub_pos.2 (negative.trans one_pos))
    · rename_i notNegative
      exact add_pos_of_pos_of_nonneg one_pos (not_lt.1 notNegative)
  isAboveLowest _ := rfl
  floor := rfl
  inRange _ := rfl

/-! ### Scores that rank -/

section Rank

variable {Number : Type} [LT Number] [DecidableLT Number] [BEq Number] [LogScore Number]

/-- Whether a score can be the best of several: it is not below the one that the search starts
from. -/
def LogScore.isRanked (score : Number) : Bool :=
  (LogScore.floor : Option Number).all fun floor => floor < score || score == floor

variable (Number) in
/-- Scores that can be compared: the order is strict, equal scores are in the same place of it, and
of two scores that rank one is lower unless they are equal. Scores that do not rank need not be in
the order at all. -/
class OrderedScore : Prop where
  not_lt_self : ∀ score : Number, ¬ score < score
  lt_chain : ∀ {low middle high : Number}, low < middle → middle < high → low < high
  alike : ∀ {left right : Number}, (left == right) = true → ∀ other : Number,
    (left < other ↔ right < other) ∧ (other < left ↔ other < right) ∧
      (other == left) = (other == right)
  trichotomy : ∀ {left right : Number}, LogScore.isRanked left = true →
    LogScore.isRanked right = true → left < right ∨ (left == right) = true ∨ right < left

namespace OrderedScore

variable [OrderedScore Number] {score other : Number}

/-- A score that ranks equals itself. -/
theorem beq_self (ranked : LogScore.isRanked score = true) : (score == score) = true := by
  rcases trichotomy ranked ranked with less | same | more
  · exact absurd less (not_lt_self score)
  · exact same
  · exact absurd more (not_lt_self score)

/-- What exceeds a score that ranks does so itself. -/
theorem isRanked_of_lt (ranked : LogScore.isRanked score = true) (less : score < other) :
    LogScore.isRanked other = true := by
  rw [LogScore.isRanked, Option.all_eq_true] at ranked ⊢
  intro floor start
  have reached := ranked floor start
  rw [Bool.or_eq_true, decide_eq_true_eq] at reached ⊢
  rcases reached with above | same
  · exact .inl (lt_chain above less)
  · exact .inl ((alike same other).1.1 less)

/-- What equals a score that ranks does so itself. -/
theorem isRanked_of_beq (ranked : LogScore.isRanked score = true)
    (same : (other == score) = true) : LogScore.isRanked other = true := by
  rw [LogScore.isRanked, Option.all_eq_true] at ranked ⊢
  intro floor start
  have reached := ranked floor start
  rw [Bool.or_eq_true, decide_eq_true_eq] at reached ⊢
  rcases reached with above | floorSame
  · exact .inl ((alike same floor).2.1.2 above)
  · exact .inr (((alike floorSame other).2.2).symm.trans same)

end OrderedScore

end Rank

/-- An exact score ranks, whatever it is. -/
theorem ExactScore.isRanked {Number : Type} [Zero Number] [LT Number] [DecidableLT Number]
    [BEq Number] [LogScore Number] [ExactScore Number] (score : Number) :
    LogScore.isRanked score = true := by
  rw [LogScore.isRanked, ExactScore.floor]
  rfl

instance {Number : Type} [LinearOrder Number] [BEq Number] [LawfulBEq Number]
    [LogScore Number] : OrderedScore Number where
  not_lt_self := lt_irrefl
  lt_chain := lt_trans
  alike same other := by
    obtain rfl := eq_of_beq same
    exact ⟨Iff.rfl, Iff.rfl, rfl⟩
  trichotomy := by
    intro left right _ _
    rw [beq_iff_eq]
    exact lt_trichotomy left right

/-! ### Division -/

section Division

variable {Number : Type} [Zero Number] [Div Number] [BEq Number]
  {numerator denominator quotient : Number}

theorem eq_of_divide? (divided : divide? numerator denominator = some quotient) :
    (denominator == 0) = false ∧ quotient = numerator / denominator := by
  unfold divide? at divided
  split at divided
  · cases divided
  · rename_i some
    exact ⟨Bool.eq_false_iff.2 some, (Option.some.inj divided).symm⟩

variable [LawfulBEq Number]

theorem divide?_of_ne_zero (defined : denominator ≠ 0) :
    divide? numerator denominator = some (numerator / denominator) :=
  if_neg (mt beq_iff_eq.1 defined)

@[simp]
theorem divide?_zero : divide? numerator 0 = none :=
  if_pos (beq_self_eq_true 0)

end Division

/-! ### The largest of several -/

section Largest

variable {Number Element : Type} [LinearOrder Number] (measure : Element → Number)

/-- An element is the first of the largest of a list: those before it are smaller, and those after
it are not larger. -/
def IsFirstLargest (elements : List Element) (best : Element) : Prop :=
  ∃ before after, elements = before ++ best :: after ∧
    (∀ element ∈ before, measure element < measure best) ∧
      ∀ element ∈ after, measure element ≤ measure best

theorem isFirstLargest_singleton (only : Element) : IsFirstLargest measure [only] only :=
  ⟨[], [], rfl, List.forall_mem_nil _, List.forall_mem_nil _⟩

namespace IsFirstLargest

variable {measure} {elements : List Element} {best : Element}

theorem mem (largest : IsFirstLargest measure elements best) : best ∈ elements := by
  obtain ⟨before, after, rfl, _, _⟩ := largest
  exact List.mem_append_right _ List.mem_cons_self

theorem le (largest : IsFirstLargest measure elements best) :
    ∀ element ∈ elements, measure element ≤ measure best := by
  obtain ⟨before, after, rfl, smaller, notLarger⟩ := largest
  intro element member
  rcases List.mem_append.1 member with earlier | here
  · exact le_of_lt (smaller element earlier)
  · rcases List.mem_cons.1 here with rfl | later
    · exact le_refl _
    · exact notLarger element later

/-- A last element takes the place of the first largest one if it is larger. -/
theorem append_singleton (largest : IsFirstLargest measure elements best) (last : Element) :
    IsFirstLargest measure (elements ++ [last])
      (if measure best < measure last then last else best) := by
  split
  · rename_i larger
    exact ⟨elements, [], rfl, fun element member => (largest.le element member).trans_lt larger,
      List.forall_mem_nil _⟩
  · rename_i notLarger
    obtain ⟨before, after, rfl, smaller, others⟩ := largest
    refine ⟨before, after ++ [last], List.append_assoc _ _ _, smaller, ?_⟩
    exact List.forall_mem_append.2 ⟨others, List.forall_mem_singleton.2 (not_lt.1 notLarger)⟩

/-- A change that keeps the order keeps the first of the largest elements. -/
theorem map {Other : Type} {changed : Other → Number}
    (largest : IsFirstLargest measure elements best) (change : Element → Other)
    (keeps : ∀ left right,
      changed (change left) < changed (change right) ↔ measure left < measure right) :
    IsFirstLargest changed (elements.map change) (change best) := by
  obtain ⟨before, after, rfl, smaller, notLarger⟩ := largest
  refine ⟨before.map change, after.map change, List.map_append, ?_, ?_⟩
  · exact List.forall_mem_map.2 fun element member => (keeps _ _).2 (smaller element member)
  · exact List.forall_mem_map.2 fun element member =>
      not_lt.1 (mt (keeps _ _).1 (not_lt.2 (notLarger element member)))

/-- Two selections make one: if each block of elements is measured by a bound of its elements, then
the first element to attain the bound of the first largest block is the first of the largest of all
elements. -/
theorem flatMap {Block : Type} {bound : Block → Number} {blocks : List Block} {block : Block}
    {parts : Block → List Element} (outer : IsFirstLargest bound blocks block)
    (inner : IsFirstLargest measure (parts block) best) (attained : measure best = bound block)
    (bounded : ∀ other ∈ blocks, ∀ element ∈ parts other, measure element ≤ bound other) :
    IsFirstLargest measure (blocks.flatMap parts) best := by
  obtain ⟨earlier, later, rfl, lower, notHigher⟩ := outer
  obtain ⟨before, after, whole, smaller, notLarger⟩ := inner
  refine ⟨earlier.flatMap parts ++ before, after ++ later.flatMap parts, ?_, ?_, ?_⟩
  · rw [List.flatMap_append, List.flatMap_cons, whole]
    simp only [List.append_assoc, List.cons_append]
  · refine List.forall_mem_append.2 ⟨fun element member => ?_, smaller⟩
    obtain ⟨other, otherMember, part⟩ := List.mem_flatMap.1 member
    rw [attained]
    exact (bounded other (List.mem_append_left _ otherMember) element part).trans_lt
      (lower other otherMember)
  · refine List.forall_mem_append.2 ⟨notLarger, fun element member => ?_⟩
    obtain ⟨other, otherMember, part⟩ := List.mem_flatMap.1 member
    have inside : other ∈ earlier ++ block :: later :=
      List.mem_append_right _ (List.mem_cons_of_mem _ otherMember)
    rw [attained]
    exact (bounded other inside element part).trans (notHigher other otherMember)

end IsFirstLargest

/-- The search for the largest element finds the first of the largest. -/
theorem isFirstLargest_firstLargest (first : Element) (rest : List Element) :
    IsFirstLargest measure (first :: rest) (firstLargest measure first rest) := by
  induction rest using List.reverseRecOn with
  | nil => exact isFirstLargest_singleton measure first
  | append_singleton rest last hypothesis =>
    rw [firstLargest_append_singleton]
    exact hypothesis.append_singleton last

/-- The first of the largest elements is one of the elements. -/
theorem firstLargest_mem (first : Element) (rest : List Element) :
    firstLargest measure first rest ∈ first :: rest :=
  (isFirstLargest_firstLargest measure first rest).mem

/-- No element is larger than the first of the largest. -/
theorem le_firstLargest (first : Element) (rest : List Element) :
    ∀ element ∈ first :: rest, measure element ≤ measure (firstLargest measure first rest) :=
  (isFirstLargest_firstLargest measure first rest).le

end Largest

end WordArithmetic
