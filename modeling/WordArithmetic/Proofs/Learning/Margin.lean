/-
This file says what the margin rule makes of an item.

There are four cases and no others: there is no group, or one side of the split is empty, or every
valid group beats every invalid one by the margin, or some pair of them violates it. In the first
three the item is skipped, each time for a reason of its own. In the last one the weights move by
the mean features of the valid groups that take part in a violation less those of the invalid ones.
-/

import WordArithmetic.Proofs.Learning.Split
import WordArithmetic.Proofs.Learning.Trial

namespace WordArithmetic

variable {Form Number : Type} [LinearOrder Number]

/-! ### Violations -/

/-- Whether a valid candidate and an invalid one violate the margin. -/
def Violates {Candidate : Type} [Sub Number] (score : Candidate → Number) (margin : Number)
    (valid invalid : Candidate) : Prop :=
  score valid - score invalid < margin

instance {Candidate : Type} [Sub Number] (score : Candidate → Number) (margin : Number)
    (valid invalid : Candidate) : Decidable (Violates score margin valid invalid) :=
  inferInstanceAs (Decidable (score valid - score invalid < margin))

namespace Split

variable {Candidate : Type} [Sub Number] (score : Candidate → Number) (margin : Number)

/-- The candidates of each side that violate the margin with one of the other side. -/
def violators (split : Split Candidate) : Split Candidate where
  valid := split.valid.filter fun candidate =>
    decide (∃ other ∈ split.invalid, Violates score margin candidate other)
  invalid := split.invalid.filter fun candidate =>
    decide (∃ other ∈ split.valid, Violates score margin other candidate)

theorem violating_eq (split : Split Candidate) :
    split.violating score margin = split.violators score margin := by
  unfold violating violators
  congr 1
  · refine List.filter_congr fun candidate _ => ?_
    rw [Bool.eq_iff_iff, List.any_eq_true, decide_eq_true_eq]
    exact exists_congr fun other => and_congr_right fun _ => decide_eq_true_iff
  · refine List.filter_congr fun candidate _ => ?_
    rw [Bool.eq_iff_iff, List.any_eq_true, decide_eq_true_eq]
    exact exists_congr fun other => and_congr_right fun _ => decide_eq_true_iff

/-- There are violators if and only if some pair violates the margin. -/
theorem violators_valid_eq_nil {split : Split Candidate} :
    (split.violators score margin).valid = [] ↔
      ∀ valid ∈ split.valid, ∀ invalid ∈ split.invalid, ¬ Violates score margin valid invalid := by
  rw [violators, List.filter_eq_nil_iff]
  refine forall_congr' fun valid => forall_congr' fun _ => ?_
  rw [decide_eq_true_eq, not_exists]
  exact forall_congr' fun invalid => not_and

end Split

/-! ### The rule -/

section Rule

variable [ToString Form] [BEq Form] [Field Number] [BEq Number] [LawfulBEq Number]
  [LogScore Number] [ExactScore Number]

/-- The score of a group under some weights. -/
def Group.modelScore (theta : FeatureVector Number) (group : Group Form Number) : Number :=
  theta.dot group.features

/-- The groups of an item, split into those whose best form and result are valid and those whose
are not; a hard split keeps only the valid ones of the largest score. -/
def splitGroups (hard : Bool) (valid : Form → Value → Bool) (groups : List (Group Form Number)) :
    Split (Group Form Number) where
  valid := Split.kept hard Group.score (fun group => valid group.form group.result) groups
  invalid := Split.rejected (fun group => valid group.form group.result) groups

namespace UpdateRule

omit [BEq Form] [LawfulBEq Number] [ExactScore Number] in
/-- The decision that the margin rule comes to about a split. -/
theorem decideSplit_map (margin : Number) (theta : FeatureVector Number)
    (split : Split (Group Form Number)) :
    (decideSplit margin (split.map (Candidate.ofGroup theta))).2 =
      if split.isOneSided then .skip .noSplit
      else if (split.violators (Group.modelScore theta) margin).valid.isEmpty then
        .skip .noViolation
      else .move 1 ((split.violators (Group.modelScore theta) margin).direction
        Group.features) := by
  have violating : (split.map (Candidate.ofGroup theta)).violating Candidate.modelScore margin =
      (split.violators (Group.modelScore theta) margin).map (Candidate.ofGroup theta) := by
    rw [Split.violating_map, Split.violating_eq]
    rfl
  have sided : (split.map (Candidate.ofGroup theta)).isOneSided = split.isOneSided := by
    simp only [Split.isOneSided, Split.map, List.isEmpty_map]
  have direction : ((split.violators (Group.modelScore theta) margin).map
      (Candidate.ofGroup theta)).direction Candidate.features =
        (split.violators (Group.modelScore theta) margin).direction Group.features :=
    Split.direction_map _ _ _
  have empty : ((split.violators (Group.modelScore theta) margin).map
      (Candidate.ofGroup theta)).valid.isEmpty =
        (split.violators (Group.modelScore theta) margin).valid.isEmpty := List.isEmpty_map
  unfold decideSplit
  rw [violating, sided]
  simp only [direction, empty]
  split
  · rfl
  · split
    · rfl
    · rfl

variable (margin : Number) (hard : Bool) (item : Item Form Number) (theta : FeatureVector Number)
  {forest : JointForest Form Number}

omit [LawfulBEq Number] [ExactScore Number] in
/-- Without groups the margin rule skips the item. -/
theorem tryLargeMargin_of_nil (empty : forest.groups = []) :
    (tryLargeMargin margin hard item theta forest).decision = .ok (.skip .noParses) := by
  rw [tryLargeMargin, empty]
  rfl

/-- With groups the margin rule decides about their split. -/
theorem tryLargeMargin_of_ne_nil {valid : Form → Value → Bool} (present : forest.groups ≠ [])
    (answers : ∀ group ∈ forest.groups,
      item.accepts (some group.form) group.result = .ok (valid group.form group.result)) :
    (tryLargeMargin margin hard item theta forest).decision =
      .ok (decideSplit margin
        ((splitGroups hard valid forest.groups).map (Candidate.ofGroup theta))).2 := by
  have answered : ∀ candidate ∈ forest.groups.map (Candidate.ofGroup theta),
      item.accepts (some candidate.form) candidate.result =
        .ok (valid candidate.form candidate.result) :=
    List.forall_mem_map.2 answers
  have split : Split.ofCandidates hard Candidate.score
      (fun candidate : Candidate Form Number =>
        item.accepts (some candidate.form) candidate.result)
      (forest.groups.map (Candidate.ofGroup theta)) =
        .ok ((splitGroups hard valid forest.groups).map (Candidate.ofGroup theta)) := by
    rw [Split.ofCandidates_eq hard answered, Split.kept_map, Split.rejected_map]
    rfl
  rw [tryLargeMargin, if_neg (mt List.isEmpty_iff.1 present)]
  simp only [ExactScore.inRange, Bool.false_eq_true, if_false, split]

end UpdateRule

/-! ### Learning -/

namespace Learner

/-- Learning by the margin rule has exactly one of four outcomes. Without groups, with an empty
side of the split, or if every valid group that is kept beats every invalid one by the margin, the
item is skipped for the reason at hand. Otherwise the weights move by the mean features of the
valid groups that take part in a violation less those of the invalid ones that do. -/
theorem learn_by_margin (learner : Learner Form Number) (margin : Number) (hard : Bool)
    (place : Place) (item : Item Form Number) (progress : Progress Number) (report : ParseReport)
    (forest : JointForest Form Number) (valid : Form → Value → Bool)
    (ruled : learner.rule = some (.largeMargin margin hard))
    (parsed : item.parse progress.theta = (report, .ok forest))
    (answers : ∀ group ∈ forest.groups,
      item.accepts (some group.form) group.result = .ok (valid group.form group.result)) :
    let learned := learner.learn place item progress
    let split := splitGroups hard valid forest.groups
    let violates := Violates (Group.modelScore progress.theta) margin
    let violating := split.violators (Group.modelScore progress.theta) margin
    (forest.groups = [] → learned.2 = .ok false ∧ Skips progress learned.1 place .noParses) ∧
    (forest.groups ≠ [] → split.valid = [] ∨ split.invalid = [] →
      learned.2 = .ok false ∧ Skips progress learned.1 place .noSplit) ∧
    (split.valid ≠ [] → split.invalid ≠ [] →
      (∀ right ∈ split.valid, ∀ wrong ∈ split.invalid, ¬ violates right wrong) →
        learned.2 = .ok false ∧ Skips progress learned.1 place .noViolation) ∧
    ((∃ right ∈ split.valid, ∃ wrong ∈ split.invalid, violates right wrong) →
      learned.2 = .ok true ∧ Moves progress learned.1 place fun key =>
        progress.theta.weight key +
          Split.mean (fun group => group.features.weight key) violating.valid -
          Split.mean (fun group => group.features.weight key) violating.invalid) := by
  intro learned split violates violating
  have quiet :=
    (UpdateRule.isOrderly_tryLargeMargin margin hard item progress.theta forest).quiet
  have decides := fun present : forest.groups ≠ [] =>
    UpdateRule.tryLargeMargin_of_ne_nil margin hard item progress.theta present answers
  have someGroup : ∀ group ∈ split.invalid, forest.groups ≠ [] := fun group member =>
    List.ne_nil_of_mem (List.mem_of_mem_filter member)
  have unviolated : violating.valid.isEmpty = true ↔
      ∀ right ∈ split.valid, ∀ wrong ∈ split.invalid, ¬ violates right wrong :=
    List.isEmpty_iff.trans (Split.violators_valid_eq_nil _ _)
  refine ⟨fun empty => ?_, fun present sided => ?_, fun someValid someInvalid kept => ?_, ?_⟩
  · have decided := UpdateRule.tryLargeMargin_of_nil margin hard item progress.theta empty
    exact learn_skip ruled parsed quiet decided
  · have decided := decides present
    rw [UpdateRule.decideSplit_map, if_pos (Split.isOneSided_iff.2 sided)] at decided
    exact learn_skip ruled parsed quiet decided
  · obtain ⟨invalid, member⟩ := List.exists_mem_of_ne_nil _ someInvalid
    have decided := decides (someGroup invalid member)
    have bothSided := mt Split.isOneSided_iff.1 (not_or.2 ⟨someValid, someInvalid⟩)
    rw [UpdateRule.decideSplit_map, if_neg bothSided, if_pos (unviolated.2 kept)] at decided
    exact learn_skip ruled parsed quiet decided
  · rintro ⟨right, rightMember, wrong, wrongMember, violation⟩
    have decided := decides (someGroup wrong wrongMember)
    have bothSided := mt Split.isOneSided_iff.1
      (not_or.2 ⟨List.ne_nil_of_mem rightMember, List.ne_nil_of_mem wrongMember⟩)
    have violated : ¬ violating.valid.isEmpty = true := fun empty =>
      unviolated.1 empty right rightMember wrong wrongMember violation
    rw [UpdateRule.decideSplit_map, if_neg bothSided, if_neg violated] at decided
    have learnt : learned.2 = .ok true ∧ Moves progress learned.1 place _ :=
      learn_move ruled parsed quiet decided
    simp only [Split.weight_direction, one_mul, ← add_sub_assoc] at learnt
    exact learnt

end Learner

end Rule

/-- Two even numbers share the step towards them, and the odd one has a step away from it. -/
theorem Learner.learn_by_margin_shared :
    ∃ after, (idleLearner (.largeMargin 1 false)).learn ⟨0, 0⟩
        (numeralItem [("six", 6), ("eight", 8), ("seven", 7)])
        (.start FeatureVector.zero []) = (after, .ok true) ∧
      after.theta.weight (.name "six") = 1 / 2 ∧ after.theta.weight (.name "eight") = 1 / 2 ∧
        after.theta.weight (.name "seven") = -1 := by
  obtain ⟨-, -, -, moves⟩ := learn_by_margin (idleLearner (.largeMargin 1 false)) 1 false ⟨0, 0⟩
    (numeralItem [("six", 6), ("eight", 8), ("seven", 7)]) (.start FeatureVector.zero []) ⟨0, []⟩
    (numeralForest [("six", 6), ("eight", 8), ("seven", 7)]) (fun _ => isEven) rfl rfl
    fun _ _ => rfl
  obtain ⟨moved, moves⟩ := moves (by decide +kernel)
  refine ⟨_, Prod.ext rfl moved, ?_, ?_, ?_⟩
  · rw [moves.theta]
    decide +kernel
  · rw [moves.theta]
    decide +kernel
  · rw [moves.theta]
    decide +kernel

end WordArithmetic
