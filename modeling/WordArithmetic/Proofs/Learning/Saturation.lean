/-
This file says when saturated masses reach the weights.

Masses that saturate do no harm by themselves: the share of an infinite mass is zero, and a multiple
of zero is left out. The gradient rule keeps finite weights finite as long as the mass of the valid
results is not infinite and no pair has one mass that is zero and one that is plus infinity. With an
infinite valid mass, though, the expected features are scaled by zero, entry by entry, so that each
weight whose expectation is not finite becomes undefined.
-/

import WordArithmetic.Proofs.Forest.Saturation
import WordArithmetic.Proofs.Learning.Trial

namespace WordArithmetic

open JointForest

variable {Form Number : Type}

/-! ### Finite vectors -/

namespace FeatureVector

section Finite

variable [Field Number]

/-- Whether all weights of a vector are finite. -/
def IsFinite (vector : FeatureVector (Extended Number)) : Prop :=
  ∀ key, (vector.weight key).IsFinite

variable [LinearOrder Number]

theorem isFinite_contribution {multiple : Extended Number} (isFinite : multiple.IsFinite)
    {source : FeatureVector (Extended Number)} {key : Symbol}
    (weight : (source.weight key).IsFinite) : (contribution multiple source key).IsFinite := by
  unfold contribution
  split
  · exact Extended.isFinite_zero
  · cases found : source.get? key with
    | none => exact Extended.isFinite_zero
    | some value => exact Extended.isFinite_mul.2 ⟨isFinite, weight_of_get? found ▸ weight⟩

theorem IsFinite.addTimes {multiple : Extended Number} (isFinite : multiple.IsFinite)
    {source target : FeatureVector (Extended Number)} (finiteSource : source.IsFinite)
    (finiteTarget : target.IsFinite) : (addTimes multiple source target).IsFinite := by
  intro key
  rw [weight_addTimes_eq_add]
  exact Extended.isFinite_add.2
    ⟨finiteTarget key, isFinite_contribution isFinite (finiteSource key)⟩

theorem IsFinite.scale {vector : FeatureVector (Extended Number)} (finiteVector : vector.IsFinite)
    {factor : Extended Number} (isFinite : factor.IsFinite) : (vector.scale factor).IsFinite := by
  intro key
  rw [weight_scale_eq_getD]
  cases found : vector.get? key with
  | none => exact Extended.isFinite_zero
  | some value =>
    exact Extended.isFinite_mul.2 ⟨weight_of_get? found ▸ finiteVector key, isFinite⟩

/-- An undefined weight contributes something undefined, except to a multiple of zero. -/
theorem contribution_undefined {multiple : Extended Number} (some : multiple ≠ 0)
    {source : FeatureVector (Extended Number)} {key : Symbol}
    (lost : source.weight key = .undefined) : contribution multiple source key = .undefined := by
  unfold contribution
  rw [if_neg fun zero => some (Extended.beq_zero_iff.1 zero)]
  cases found : source.get? key with
  | none =>
    rw [weight, found] at lost
    cases lost
  | some value =>
    obtain rfl := (weight_of_get? found).symm.trans lost
    exact Extended.mul_undefined multiple

/-- Scaling by zero makes the weights undefined that are not finite. -/
theorem weight_scale_zero {vector : FeatureVector (Extended Number)} {key : Symbol}
    (lost : ¬ (vector.weight key).IsFinite) : (vector.scale 0).weight key = .undefined := by
  rw [weight_scale_eq_getD]
  cases found : vector.get? key with
  | none =>
    refine absurd ?_ lost
    rw [weight, found]
    exact Extended.isFinite_zero
  | some value => exact Extended.mul_zero_of_not_isFinite (weight_of_get? found ▸ lost)

/-- A vector without its zeros has the same weights. -/
theorem weight_dropZeros_extended (vector : FeatureVector (Extended Number)) (key : Symbol) :
    vector.dropZeros.weight key = vector.weight key :=
  weight_dropZeros_of_beq (fun _ => Extended.beq_zero_iff.1) vector key

end Finite

end FeatureVector

/-! ### Finite masses -/

/-- Whether one of the two masses of a pair is zero and the other one is plus infinity. -/
def Pair.IsTorn [Field Number] [LinearOrder Number] [SaturatingExp Number]
    (pair : Pair Form (Extended Number)) : Prop :=
  (LogScore.exp pair.evaluation.score = 0 ∧ pair.parse.inside = .positiveInfinity) ∨
    (pair.parse.inside = 0 ∧ LogScore.exp pair.evaluation.score = .positiveInfinity)

namespace JointForest

/-- The features of the derivations of a forest and of the evaluations of groups are finite. -/
structure HaveFiniteFeatures [Field Number] (base : ParseForest Form (Extended Number))
    (groups : List (Group Form (Extended Number))) : Prop where
  derivations : ∀ derivation ∈ base.derivations, derivation.features.IsFinite
  evaluations : ∀ group ∈ groups, ∀ pair ∈ group.members, pair.evaluation.features.IsFinite

section Masses

variable [BEq Form] [EquivBEq Form] [Field Number] [LinearOrder Number] [SaturatingExp Number]
  {forest : JointForest Form (Extended Number)}
  {groups : List (Group Form (Extended Number))} (scored : AreScored forest.base groups)
  (untorn : ∀ group ∈ groups, ∀ pair ∈ group.members, ¬ pair.IsTorn)

include scored untorn

/-- If no pair is torn, the mass of groups is a mass. -/
theorem isMass_norm [IsStrictOrderedRing Number] : (norm groups).IsMass := by
  obtain ⟨notNegative, undefined⟩ := scored.norm_of_groups
  refine ⟨notNegative, fun lost => ?_⟩
  obtain ⟨group, groupMember, pair, pairMember, both⟩ := undefined.1 lost
  exact untorn group groupMember pair pairMember (Or.inl both)

variable (massive : (norm groups).IsFinite)

include massive

omit [EquivBEq Form] in
/-- If the mass of groups is finite and no pair is torn, the two masses of every pair are finite. -/
theorem isFinite_masses {pair : Pair Form (Extended Number)}
    (member : pair ∈ groups.flatMap Group.members) :
    (LogScore.exp pair.evaluation.score).IsFinite ∧ pair.parse.inside.IsFinite := by
  rw [norm_eq_sum_inside, Extended.isFinite_sum] at massive
  have whole := massive pair.inside (List.mem_map_of_mem member)
  obtain ⟨group, groupMember, pairMember⟩ := List.mem_flatMap.1 member
  have notTorn := untorn group groupMember pair pairMember
  unfold Pair.inside at whole
  split at whole
  · rename_i zero
    have none := Extended.beq_zero_iff.1 zero
    have bounded : LogScore.exp pair.evaluation.score ≠ .positiveInfinity :=
      fun saturated => notTorn (Or.inr ⟨none, saturated⟩)
    exact ⟨(scored.isMass_exp member).isFinite bounded, none ▸ Extended.isFinite_zero⟩
  · exact Extended.isFinite_mul.1 whole

/-- The derivations that count for groups of finite mass have finite masses. -/
theorem isFinite_exp_of_outside {derivation : Derivation Form (Extended Number)}
    (derived : derivation ∈ forest.base.derivations) (counts : outside groups derivation.form ≠ 0) :
    (LogScore.exp derivation.score).IsFinite := by
  have exists_pair : ∃ pair ∈ groups.flatMap Group.members,
      (pair.parse.form == derivation.form) = true := by
    by_contra none
    refine counts ?_
    rw [outside_eq_sum]
    refine List.sum_eq_zero (List.forall_mem_map.2 fun pair member => if_neg fun same => ?_)
    exact none ⟨pair, member, same⟩
  obtain ⟨pair, member, same⟩ := exists_pair
  obtain ⟨masses, _, sum, all⟩ := scored.exists_masses member
  have finiteSum := (isFinite_masses scored untorn massive member).2
  rw [sum, Extended.isFinite_sum] at finiteSum
  exact finiteSum _ (all derivation derived (BEq.symm same))

/-- Groups of finite mass have finite expected features if no pair is torn. -/
theorem isFinite_expectedFeatures (features : HaveFiniteFeatures forest.base groups) :
    (forest.expectedFeatures groups).IsFinite := by
  intro key
  rw [weight_expectedFeatures_eq_sum, Extended.isFinite_add, Extended.isFinite_sum,
    Extended.isFinite_sum]
  refine ⟨List.forall_mem_map.2 fun derivation derived => ?_,
    List.forall_mem_map.2 fun pair member => ?_⟩
  · unfold derivationPart
    split
    · exact Extended.isFinite_zero
    · rename_i some
      have counts : outside groups derivation.form ≠ 0 := fun zero =>
        some (Extended.beq_zero_iff.2 zero)
      have finiteOutside : (outside groups derivation.form).IsFinite := by
        rw [outside, total_eq_sum, Extended.isFinite_sum]
        exact List.forall_mem_map.2 fun pair member =>
          (isFinite_masses scored untorn massive (List.mem_of_mem_filter member)).1
      exact FeatureVector.isFinite_contribution (Extended.isFinite_mul.2
        ⟨finiteOutside, isFinite_exp_of_outside scored untorn massive derived counts⟩)
        (features.derivations derivation derived key)
  · unfold evaluationPart
    split
    · exact Extended.isFinite_zero
    · obtain ⟨group, groupMember, pairMember⟩ := List.mem_flatMap.1 member
      exact FeatureVector.isFinite_contribution
        (Extended.isFinite_mul.2 (isFinite_masses scored untorn massive member))
        (features.evaluations group groupMember pair pairMember key)

end Masses

end JointForest

/-! ### The gradient and the rate -/

namespace UpdateRule

section Gradient

variable [Field Number] [LinearOrder Number] [SaturatingExp Number]

/-- Finite settings give a finite rate, which is zero only if the first rate is. -/
theorem isFinite_rateAfter {initialRate decay rate : Extended Number} {updates : Nat}
    (finiteInitial : initialRate.IsFinite) (finiteDecay : decay.IsFinite)
    (rated : rateAfter initialRate decay updates = .ok rate) :
    rate.IsFinite ∧ (initialRate ≠ 0 → rate ≠ 0) := by
  obtain ⟨nonzero, rfl⟩ := rateAfter_eq_ok initialRate decay updates rated
  have divisor : (1 + decay * (updates : Extended Number)).IsFinite :=
    Extended.isFinite_add.2
      ⟨⟨1, rfl⟩, Extended.isFinite_mul.2 ⟨finiteDecay, Extended.isFinite_natCast updates⟩⟩
  have some : 1 + decay * (updates : Extended Number) ≠ 0 := fun zero =>
    Bool.eq_false_iff.1 nonzero (Extended.beq_zero_iff.2 zero)
  exact ⟨finiteInitial.div divisor some,
    fun moves => finiteInitial.div_ne_zero divisor moves some⟩

variable [BEq Form] [EquivBEq Form] [IsStrictOrderedRing Number]

/-- The gradient is finite if the valid mass is not infinite and no pair is torn. -/
theorem isFinite_gradientOf {forest : JointForest Form (Extended Number)}
    {valid : List (Group Form (Extended Number))} {gradient : FeatureVector (Extended Number)}
    (scored : AreScored forest.base forest.groups)
    (features : HaveFiniteFeatures forest.base forest.groups)
    (untorn : ∀ group ∈ forest.groups, ∀ pair ∈ group.members, ¬ pair.IsTorn)
    (part : valid ⊆ forest.groups) (massive : norm valid ≠ 0)
    (bounded : norm valid ≠ .positiveInfinity) (made : gradientOf forest valid = .ok gradient) :
    gradient.IsFinite := by
  obtain ⟨share, divided, rfl⟩ := gradientOf_eq_ok made
  obtain ⟨nonzero, rfl⟩ := eq_of_divide? divided
  have one : (1 : Extended Number).IsFinite := ⟨1, rfl⟩
  have minusOne : (-1 : Extended Number).IsFinite := ⟨-1, rfl⟩
  have scoredValid := scored.of_subset part
  have untornValid : ∀ group ∈ valid, ∀ pair ∈ group.members, ¬ pair.IsTorn :=
    fun group member => untorn group (part member)
  have featuresValid : HaveFiniteFeatures forest.base valid :=
    ⟨features.derivations, fun group member => features.evaluations group (part member)⟩
  have finiteValid : (norm valid).IsFinite := (isMass_norm scoredValid untornValid).isFinite bounded
  have scaled : ((forest.expectedFeatures valid).scale (1 / norm valid)).IsFinite :=
    (isFinite_expectedFeatures scoredValid untornValid finiteValid featuresValid).scale
      (one.div finiteValid massive)
  have added : (FeatureVector.addTimes (-1 / norm forest.groups)
      (forest.expectedFeatures forest.groups)
      ((forest.expectedFeatures valid).scale (1 / norm valid))).IsFinite := by
    by_cases saturated : norm forest.groups = .positiveInfinity
    · -- an infinite mass has the share zero, and a multiple of zero is left out
      have none : -1 / norm forest.groups = 0 := by
        rw [saturated]
        exact minusOne.div_infinite false
      rw [none, FeatureVector.addTimes, if_pos (Extended.beq_zero_iff.2 rfl)]
      exact scaled
    · have finiteAll := (isMass_norm scored untorn).isFinite saturated
      have some : norm forest.groups ≠ 0 := fun zero =>
        Bool.eq_false_iff.1 nonzero (Extended.beq_zero_iff.2 zero)
      exact FeatureVector.IsFinite.addTimes (minusOne.div finiteAll some)
        (isFinite_expectedFeatures scored untorn finiteAll features) scaled
  intro key
  rw [FeatureVector.weight_dropZeros_extended]
  exact added key

omit [IsStrictOrderedRing Number] [EquivBEq Form] in
/-- If the valid mass is infinite, the gradient is undefined where the expectation over the valid
results is not finite. -/
theorem weight_gradientOf_of_saturated {forest : JointForest Form (Extended Number)}
    {valid : List (Group Form (Extended Number))} {gradient : FeatureVector (Extended Number)}
    (saturated : norm valid = .positiveInfinity) (made : gradientOf forest valid = .ok gradient)
    {key : Symbol} (lost : ¬ ((forest.expectedFeatures valid).weight key).IsFinite) :
    gradient.weight key = .undefined := by
  obtain ⟨share, _, rfl⟩ := gradientOf_eq_ok made
  have none : (1 : Extended Number) / norm valid = 0 := by
    rw [saturated]
    exact Extended.IsFinite.div_infinite ⟨1, rfl⟩ false
  rw [FeatureVector.weight_dropZeros_extended, FeatureVector.weight_addTimes_eq_add, none,
    FeatureVector.weight_scale_zero lost, Extended.undefined_add]

end Gradient

end UpdateRule

/-! ### Learning -/

namespace Learner

/-- The gradient rule and saturated masses. Let the weights, the settings of the rule and all
features be finite, and no score undefined. However large the scores are, the weights stay finite if
the mass of the valid results is not infinite and no pair has one mass that is zero and one that is
plus infinity. With an infinite valid mass a step at a rate other than zero makes every weight
undefined whose expectation over the valid results is not finite. -/
theorem learn_keeps_finite [ToString Form] [BEq Form] [EquivBEq Form] [Field Number]
    [LinearOrder Number] [IsStrictOrderedRing Number] [SaturatingExp Number]
    (learner : Learner Form (Extended Number)) (initialRate decay : Extended Number) (place : Place)
    (item : Item Form (Extended Number)) (progress : Progress (Extended Number))
    (report : ParseReport) (forest : JointForest Form (Extended Number))
    (ruled : learner.rule = some (.ascent initialRate decay))
    (parsed : item.parse progress.theta = (report, .ok forest))
    (settings : initialRate.IsFinite ∧ decay.IsFinite)
    (weights : progress.theta.IsFinite)
    (scored : AreScored forest.base forest.groups)
    (features : HaveFiniteFeatures forest.base forest.groups) :
    let learned := learner.learn place item progress
    ((∀ valid, Group.select forest.groups (item.accepts none) = .ok valid →
        norm valid ≠ .positiveInfinity) →
      (∀ group ∈ forest.groups, ∀ pair ∈ group.members, ¬ pair.IsTorn) →
      learned.1.theta.IsFinite) ∧
    ∀ valid, Group.select forest.groups (item.accepts none) = .ok valid →
      norm valid = .positiveInfinity → learned.2 = .ok true → initialRate ≠ 0 →
      ∀ key, ¬ ((forest.expectedFeatures valid).weight key).IsFinite →
        learned.1.theta.weight key = .undefined := by
  intro learned
  rcases learn_theta place ruled parsed with ⟨same, still⟩ | ⟨rate, gradient, decided, moved⟩
  · refine ⟨fun _ _ => ?_, fun _ _ _ answer => absurd answer still⟩
    rw [same]
    exact weights
  · obtain ⟨rated, valid, selected, massive, made⟩ :=
      UpdateRule.tryAscent_eq_move initialRate decay progress.updates decided
    obtain ⟨finiteRate, moves⟩ := UpdateRule.isFinite_rateAfter settings.1 settings.2 rated
    constructor
    · intro bounded untorn
      obtain ⟨passes, _, part⟩ := Group.exists_passes_of_select selected
      have subset : valid ⊆ forest.groups := part ▸ List.filter_subset_self _
      have some : norm valid ≠ 0 := fun zero =>
        Bool.eq_false_iff.1 massive (Extended.beq_zero_iff.2 zero)
      rw [moved]
      exact FeatureVector.IsFinite.addTimes finiteRate (UpdateRule.isFinite_gradientOf scored
        features untorn subset some (bounded valid selected) made) weights
    · intro other otherSelected saturated _ moving key lost
      obtain rfl := Except.ok.inj (selected.symm.trans otherSelected)
      rw [moved, FeatureVector.weight_addTimes_eq_add, FeatureVector.contribution_undefined
        (moves moving) (UpdateRule.weight_gradientOf_of_saturated saturated made lost),
        Extended.add_undefined]

/-! ### Even numbers with scores -/

/-- An item that has the forest of some names under all weights, and asks for an even number. -/
def scoredItem (names : List ScoredName) : Item String (Extended ℚ) where
  shown := "an even number"
  length := names.length
  parse _ := (⟨0, []⟩, .ok (scoredForest names))
  accepts _ result := .ok (isEven result)
  gold := none

/-- A learner that climbs at the rate one. -/
def climber : Learner String (Extended ℚ) :=
  ⟨⟨some (.ascent 1 0), LearnerSettings.defaultIterations, LearnerSettings.defaultLongest⟩, []⟩

theorem haveFiniteFeatures_scoredForest (names : List ScoredName) :
    HaveFiniteFeatures (scoredForest names).base (scoredForest names).groups where
  derivations := by
    refine List.forall_mem_map.2 fun scored _ key => ?_
    rw [FeatureVector.weight, ScoredName.derivation, Table.ofList, Table.insertAll, List.foldl_cons,
      List.foldl_nil, Table.get?_insert]
    split
    · exact ⟨1, rfl⟩
    · exact Extended.isFinite_zero
  evaluations := by
    intro group groupMember pair pairMember key
    obtain ⟨scored, _, rfl⟩ := exists_name_of_mem groupMember pairMember
    exact Extended.isFinite_zero

/-- A saturated mass of an invalid result does no harm: the weight of the valid one grows. -/
theorem learn_keeps_finite_six :
    let names : List ScoredName := [⟨"six", 6, 0, 0⟩, ⟨"seven", 7, .finite 710, 0⟩]
    let forest := scoredForest names
    let learned := climber.learn ⟨0, 0⟩ (scoredItem names) (.start FeatureVector.zero [])
    AreScored forest.base forest.groups ∧ HaveFiniteFeatures forest.base forest.groups ∧
      norm forest.groups = .positiveInfinity ∧ learned.2 = .ok true ∧ learned.1.theta.IsFinite ∧
        learned.1.theta.weight (.name "six") = 1 := by
  intro names forest learned
  have scored : AreScored forest.base forest.groups := areScored_scoredForest rfl (by decide)
  have features := haveFiniteFeatures_scoredForest names
  have settings : (1 : Extended ℚ).IsFinite ∧ (0 : Extended ℚ).IsFinite :=
    ⟨⟨1, rfl⟩, Extended.isFinite_zero⟩
  have start : (FeatureVector.zero : FeatureVector (Extended ℚ)).IsFinite :=
    fun _ => Extended.isFinite_zero
  obtain ⟨keeps, _⟩ := learn_keeps_finite climber 1 0 ⟨0, 0⟩ (scoredItem names)
    (.start FeatureVector.zero []) ⟨0, []⟩ forest rfl rfl settings start scored features
  have chosen : Group.select forest.groups ((scoredItem names).accepts none) =
      .ok (forest.accepted isEven) := Group.select_eq_filter fun _ _ => rfl
  refine ⟨scored, features, by decide +kernel, by decide +kernel,
    keeps (fun valid selected => ?_) ?_, by decide +kernel⟩
  · obtain rfl := Except.ok.inj (chosen.symm.trans selected)
    decide +kernel
  · unfold Pair.IsTorn
    decide +kernel

/-- The mass of the only result, which is valid, saturates. Then the weight of its feature becomes
undefined. -/
theorem learn_undefines_six :
    let names : List ScoredName := [⟨"six", 6, .finite 710, 0⟩]
    let forest := scoredForest names
    let learned := climber.learn ⟨0, 0⟩ (scoredItem names) (.start FeatureVector.zero [])
    AreScored forest.base forest.groups ∧ HaveFiniteFeatures forest.base forest.groups ∧
      learned.2 = .ok true ∧ learned.1.theta.weight (.name "six") = .undefined := by
  intro names forest learned
  have scored : AreScored forest.base forest.groups := areScored_scoredForest rfl (by decide)
  exact ⟨scored, haveFiniteFeatures_scoredForest names, by decide +kernel, by decide +kernel⟩

end Learner

end WordArithmetic
