/-
This file says what a rule may mark and decide, on numbers of any kind.

The marks that a rule sets itself neither skip nor update: that is left to its decision. They are
honest as well. A best group is marked only where there is a group, and no rule moves the weights
without having marked a valid parse. Nothing here needs a law of arithmetic, so it holds of the
floats that programs run on.
-/

import WordArithmetic.Proofs.Learning.Record

namespace WordArithmetic

variable {Form Number : Type}

/-- What a rule makes of the forest of an item is in order: it leaves skips and updates to its
decision, finds a best group only among groups, moves the weights only after it has marked a valid
parse, and does not take the item for too long. -/
structure Trial.IsOrderly (trial : Trial Number) (forest : JointForest Form Number) : Prop where
  quiet : AreQuiet trial.marks
  gold : Mark.goldBest ∈ trial.marks → forest.groups ≠ []
  valid : ∀ rate direction, trial.decision = .ok (.move rate direction) →
    Mark.validFound ∈ trial.marks
  inTime : trial.decision ≠ .ok (.skip .tooLong)

/-- A trial that marks nothing and does not move the weights. -/
theorem Trial.IsOrderly.of_nil {events : List (Event Number)}
    {decision : Except Failure (Decision Number)} {forest : JointForest Form Number}
    (still : ∀ rate direction, decision ≠ .ok (.move rate direction))
    (inTime : decision ≠ .ok (.skip .tooLong)) :
    Trial.IsOrderly ⟨events, [], decision⟩ forest :=
  ⟨AreQuiet.nil, fun member => absurd member List.not_mem_nil,
    fun rate direction moved => absurd moved (still rate direction), inTime⟩

namespace UpdateRule

variable [Zero Number] [One Number] [Neg Number] [Add Number] [Mul Number] [Div Number]
  [BEq Number] [NatCast Number]

section Margin

variable [ToString Form] [Sub Number] [LT Number] [DecidableLT Number] (margin : Number)

theorem decideSplit_ne_tooLong (split : Split (Candidate Form Number)) :
    (decideSplit margin split).2 ≠ .skip .tooLong := by
  unfold decideSplit
  simp only
  split
  · exact nofun
  · split
    · exact nofun
    · exact nofun

/-- The weights move only if there is a valid candidate. -/
theorem valid_ne_nil_of_move {split : Split (Candidate Form Number)} {rate : Number}
    {direction : FeatureVector Number}
    (moved : (decideSplit margin split).2 = .move rate direction) : split.valid ≠ [] := by
  unfold decideSplit at moved
  simp only at moved
  split at moved
  · cases moved
  · rename_i bothSided
    intro empty
    rw [Split.isOneSided, empty] at bothSided
    exact bothSided rfl

/-- The margin rule is in order. -/
theorem isOrderly_tryLargeMargin [BEq Form] [LogScore Number] (hard : Bool)
    (item : Item Form Number) (theta : FeatureVector Number) (forest : JointForest Form Number) :
    (tryLargeMargin margin hard item theta forest).IsOrderly forest := by
  unfold tryLargeMargin
  split
  · exact Trial.IsOrderly.of_nil nofun nofun
  · rename_i present
    have someGroup : forest.groups ≠ [] := fun empty => present (List.isEmpty_iff.2 empty)
    have goldQuiet : AreQuiet (if isGoldBest item forest then [Mark.goldBest] else []) := by
      split
      · exact ⟨by simp, by simp⟩
      · exact AreQuiet.nil
    simp only
    split
    · exact Trial.IsOrderly.of_nil nofun nofun
    · split
      · exact ⟨goldQuiet, fun _ => someGroup, nofun, nofun⟩
      · rename_i candidates _
        split
        · rename_i noValid
          refine ⟨goldQuiet, fun _ => someGroup, fun rate direction moved => ?_, fun skipped => ?_⟩
          · exact absurd (List.isEmpty_iff.1 noValid)
              (valid_ne_nil_of_move margin (Except.ok.inj moved))
          · exact decideSplit_ne_tooLong margin candidates (Except.ok.inj skipped)
        · refine ⟨⟨by simp [goldQuiet.1], fun reason => by simp [goldQuiet.2 reason]⟩,
            fun _ => someGroup, fun _ _ _ => List.mem_append_right _ List.mem_cons_self,
            fun skipped => ?_⟩
          exact decideSplit_ne_tooLong margin candidates (Except.ok.inj skipped)

end Margin

section Gradient

variable [LogScore Number] (initialRate decay : Number) (updates : Nat)

/-- The gradient rule is in order. -/
theorem isOrderly_tryAscent [BEq Form] [LT Number] [DecidableLT Number] (item : Item Form Number)
    (forest : JointForest Form Number) :
    (tryAscent initialRate decay updates item forest).IsOrderly forest := by
  have found : AreQuiet [Mark.validFound] := ⟨by simp, by simp⟩
  have noGold : Mark.goldBest ∉ [Mark.validFound] := by simp
  unfold tryAscent
  split
  · exact Trial.IsOrderly.of_nil nofun nofun
  · split
    · exact Trial.IsOrderly.of_nil nofun nofun
    · simp only
      split
      · exact Trial.IsOrderly.of_nil nofun nofun
      · split
        · exact ⟨found, fun gold => absurd gold noGold, fun _ _ _ => List.mem_cons_self, nofun⟩
        · exact ⟨found, fun gold => absurd gold noGold, fun _ _ _ => List.mem_cons_self, nofun⟩
        · exact ⟨found, fun gold => absurd gold noGold, fun _ _ _ => List.mem_cons_self, nofun⟩

omit [Neg Number] in
/-- The rate is the first one divided by a divisor that grows with the number of updates and is not
zero. -/
theorem rateAfter_eq_ok {rate : Number} (rated : rateAfter initialRate decay updates = .ok rate) :
    (1 + decay * (updates : Number) == 0) = false ∧
      rate = initialRate / (1 + decay * (updates : Number)) := by
  unfold rateAfter at rated
  split at rated
  · rename_i quotient found
    split at rated
    · cases rated
    · obtain rfl := Except.ok.inj rated
      exact eq_of_divide? found
  · cases rated

omit [NatCast Number] in
/-- The gradient adds the features of all groups, scaled by the opposite of the inverse of their
mass, to those of the valid groups, scaled by the inverse of the valid mass. -/
theorem gradientOf_eq_ok [BEq Form] {forest : JointForest Form Number}
    {valid : List (Group Form Number)} {gradient : FeatureVector Number}
    (made : gradientOf forest valid = .ok gradient) :
    ∃ share, divide? (-1) (JointForest.norm forest.groups) = some share ∧
      gradient = FeatureVector.dropZeros (FeatureVector.addTimes share
        (forest.expectedFeatures forest.groups)
        ((forest.expectedFeatures valid).scale (1 / JointForest.norm valid))) := by
  unfold gradientOf at made
  simp only at made
  split at made
  · cases made
  · rename_i share divided
    exact ⟨share, divided, (Except.ok.inj made).symm⟩

/-- The gradient rule moves the weights only if some mass is valid, along the gradient of its forest
and at the rate that is due after so many updates. -/
theorem tryAscent_eq_move [BEq Form] [LT Number] [DecidableLT Number] {item : Item Form Number}
    {forest : JointForest Form Number} {rate : Number} {direction : FeatureVector Number}
    (moved : (tryAscent initialRate decay updates item forest).decision =
      .ok (.move rate direction)) :
    rateAfter initialRate decay updates = .ok rate ∧
      ∃ valid, Group.select forest.groups (item.accepts none) = .ok valid ∧
        (JointForest.norm valid == 0) = false ∧ gradientOf forest valid = .ok direction := by
  unfold tryAscent at moved
  split at moved
  · cases moved
  · split at moved
    · cases moved
    · rename_i valid selected
      simp only at moved
      split at moved
      · cases moved
      · rename_i massive
        split at moved
        · rename_i made rated
          cases moved
          exact ⟨rated, valid, selected, Bool.eq_false_iff.2 massive, made⟩
        · cases moved
        · cases moved

end Gradient

/-- Every rule is in order. -/
theorem isOrderly_apply [ToString Form] [BEq Form] [Sub Number] [LT Number] [DecidableLT Number]
    [LogScore Number] (rule : UpdateRule Number)
    (item : Item Form Number) (theta : FeatureVector Number) (updates : Nat)
    (forest : JointForest Form Number) :
    (rule.apply item theta updates forest).IsOrderly forest := by
  cases rule with
  | largeMargin margin hard => exact isOrderly_tryLargeMargin margin hard item theta forest
  | ascent initialRate decay => exact isOrderly_tryAscent initialRate decay updates item forest

end UpdateRule

end WordArithmetic
