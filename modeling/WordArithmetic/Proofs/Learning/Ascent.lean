/-
This file says what the gradient rule makes of an item.

Its gradient is a difference of two expectations: that of the features over the joint derivations
with a valid result, and that over all of them. Masses are positive, so neither of them is divided
by zero. The divisor of the rate is another matter: no decay is refused, and with a negative one the
divisor is zero after some number of updates. Then learning fails and changes no weight.
-/

import WordArithmetic.Proofs.Forest.Expectation
import WordArithmetic.Proofs.Learning.Trial

namespace WordArithmetic

open JointForest

variable {Form Number : Type} [BEq Form] [Field Number] [LinearOrder Number] [BEq Number]
  [LawfulBEq Number] [LogScore Number] [ExactScore Number]

namespace UpdateRule

variable (initialRate decay : Number) (updates : Nat)

/-! ### The rate and the gradient -/

theorem rateAfter_of_ne_zero {decay : Number} {updates : Nat}
    (defined : 1 + decay * updates ≠ 0) :
    rateAfter initialRate decay updates = .ok (initialRate / (1 + decay * updates)) := by
  rw [rateAfter, divide?_of_ne_zero defined]
  exact if_neg (Bool.eq_false_iff.1 (ExactScore.inRange _))

omit [LinearOrder Number] [ExactScore Number] in
theorem rateAfter_of_eq_zero {decay : Number} {updates : Nat}
    (undefined : 1 + decay * updates = 0) :
    rateAfter initialRate decay updates = .error .divisionByZero := by
  rw [rateAfter, undefined, divide?_zero]

section Groups

variable [EquivBEq Form] [IsStrictOrderedRing Number] {forest : JointForest Form Number}
  (based : IsBasedOn forest.base forest.groups) (present : forest.groups ≠ [])

include based present

/-- The gradient is the expectation over the valid groups less that over all. -/
theorem exists_gradientOf (valid : Value → Bool) :
    ∃ gradient, gradientOf forest (forest.accepted valid) = .ok gradient ∧
      ∀ key, gradient.weight key =
        expectation (derivationsOf forest.base (forest.accepted valid)) key -
          expectation (derivationsOf forest.base forest.groups) key := by
  have massive : norm forest.groups ≠ 0 := by
    rw [norm_eq_massOf based]
    exact ne_of_gt (massOf_derivationsOf_pos based present)
  have made : gradientOf forest (forest.accepted valid) = .ok (FeatureVector.dropZeros
      (FeatureVector.addTimes (-1 / norm forest.groups) (forest.expectedFeatures forest.groups)
        ((forest.expectedFeatures (forest.accepted valid)).scale
          (1 / norm (forest.accepted valid))))) := by
    rw [gradientOf, divide?_of_ne_zero massive]
  refine ⟨_, made, fun key => ?_⟩
  rw [FeatureVector.weight_dropZeros, FeatureVector.weight_addTimes, FeatureVector.weight_scale,
    weight_expectedFeatures based, weight_expectedFeatures (based.accepted valid),
    norm_eq_massOf based, norm_eq_massOf (based.accepted valid), expectation, expectation]
  ring

/-! ### The decision -/

variable {item : Item Form Number} {valid : Value → Bool}
  (answers : ∀ group ∈ forest.groups, item.accepts none group.result = .ok (valid group.result))

include answers

omit [IsStrictOrderedRing Number] [ExactScore Number] in
/-- If no mass is valid, the gradient rule skips the item. -/
theorem tryAscent_of_massOf_eq_zero
    (massless : massOf (derivationsOf forest.base (forest.accepted valid)) = 0) :
    (tryAscent initialRate decay updates item forest).decision = .ok (.skip .noValid) := by
  have nonempty : ¬ forest.groups.isEmpty = true := mt List.isEmpty_iff.1 present
  have selected : Group.select forest.groups (item.accepts none) = .ok (forest.accepted valid) :=
    Group.select_eq_filter answers
  have normless : norm (forest.accepted valid) = 0 :=
    (norm_eq_massOf (based.accepted valid)).trans massless
  rw [tryAscent, if_neg nonempty, selected]
  simp only
  rw [if_pos (beq_iff_eq.2 normless)]

/-- If some mass is valid, the gradient rule moves the weights, unless it has no rate. -/
theorem tryAscent_of_massOf_ne_zero
    (massive : massOf (derivationsOf forest.base (forest.accepted valid)) ≠ 0) :
    ∃ gradient, (∀ key, gradient.weight key =
        expectation (derivationsOf forest.base (forest.accepted valid)) key -
          expectation (derivationsOf forest.base forest.groups) key) ∧
      (tryAscent initialRate decay updates item forest).decision =
        (rateAfter initialRate decay updates).map fun rate => .move rate gradient := by
  have nonempty : ¬ forest.groups.isEmpty = true := mt List.isEmpty_iff.1 present
  have selected : Group.select forest.groups (item.accepts none) = .ok (forest.accepted valid) :=
    Group.select_eq_filter answers
  have normed : norm (forest.accepted valid) ≠ 0 := by
    rw [norm_eq_massOf (based.accepted valid)]
    exact massive
  obtain ⟨gradient, made, weights⟩ := exists_gradientOf based present valid
  refine ⟨gradient, weights, ?_⟩
  rw [tryAscent, if_neg nonempty, selected]
  simp only
  rw [if_neg (mt beq_iff_eq.1 normed), made]
  cases rateAfter initialRate decay updates with
  | ok rate => rfl
  | error failure => rfl

end Groups

end UpdateRule

/-- The forest of some names of numbers executes parses of its own derivations. -/
theorem isBasedOn_numeralForest (numerals : List (String × Int)) :
    IsBasedOn (numeralForest numerals).base (numeralForest numerals).groups := by
  refine IsBasedOn.ofPairs fun pair member => ?_
  obtain ⟨parse, parseMember, made⟩ := List.mem_flatMap.1 member
  obtain ⟨⟨name, number⟩, _, placed⟩ := List.mem_filterMap.1 made
  obtain ⟨_, same⟩ := Option.ite_none_right_eq_some.1 placed
  rw [← Option.some.inj same]
  exact parseMember

/-! ### Learning -/

namespace Learner

section Outcome

variable [ToString Form] [EquivBEq Form] [IsStrictOrderedRing Number]
  {learner : Learner Form Number} {initialRate decay : Number} {item : Item Form Number}
  {progress : Progress Number} {report : ParseReport} {forest : JointForest Form Number}
  {valid : Value → Bool} (place : Place)
  (ruled : learner.rule = some (.ascent initialRate decay))
  (parsed : item.parse progress.theta = (report, .ok forest))
  (based : IsBasedOn forest.base forest.groups)
  (answers : ∀ group ∈ forest.groups, item.accepts none group.result = .ok (valid group.result))

include ruled parsed based answers

omit [IsStrictOrderedRing Number] [ExactScore Number] in
/-- An item without groups or without valid mass is skipped. -/
theorem exists_skips (cause : forest.groups = [] ∨
      massOf (derivationsOf forest.base (forest.accepted valid)) = 0) :
    (learner.learn place item progress).2 = .ok false ∧
      ∃ reason, Skips progress (learner.learn place item progress).1 place reason := by
  have quiet :=
    (UpdateRule.isOrderly_tryAscent initialRate decay progress.updates item forest).quiet
  have exists_reason : ∃ reason, (UpdateRule.tryAscent initialRate decay progress.updates item
      forest).decision = .ok (.skip reason) := by
    by_cases empty : forest.groups = []
    · refine ⟨.noParses, ?_⟩
      rw [UpdateRule.tryAscent, empty]
      rfl
    · exact ⟨.noValid, UpdateRule.tryAscent_of_massOf_eq_zero initialRate decay progress.updates
        based empty answers (cause.resolve_left empty)⟩
  obtain ⟨reason, decided⟩ := exists_reason
  obtain ⟨answer, skips⟩ := learn_skip ruled parsed quiet decided
  exact ⟨answer, reason, skips⟩

variable (present : forest.groups ≠ [])
  (massive : massOf (derivationsOf forest.base (forest.accepted valid)) ≠ 0)

include present massive

/-- With some valid mass and a rate, the weights move by a multiple of the gradient. -/
theorem moves_of_rate (defined : 1 + decay * (progress.updates : Number) ≠ 0) :
    (learner.learn place item progress).2 = .ok true ∧
      Moves progress (learner.learn place item progress).1 place fun key =>
        progress.theta.weight key + initialRate / (1 + decay * (progress.updates : Number)) *
          (expectation (derivationsOf forest.base (forest.accepted valid)) key -
            expectation (derivationsOf forest.base forest.groups) key) := by
  have quiet :=
    (UpdateRule.isOrderly_tryAscent initialRate decay progress.updates item forest).quiet
  obtain ⟨gradient, weights, decided⟩ := UpdateRule.tryAscent_of_massOf_ne_zero initialRate decay
    progress.updates based present answers massive
  rw [UpdateRule.rateAfter_of_ne_zero initialRate defined] at decided
  have learnt : _ ∧ Moves progress (learner.learn place item progress).1 place _ :=
    learn_move ruled parsed quiet decided
  simp only [weights] at learnt
  exact learnt

/-- With some valid mass but no rate, learning fails. -/
theorem fails_without_rate (undefined : 1 + decay * (progress.updates : Number) = 0) :
    (learner.learn place item progress).2 = .error .divisionByZero ∧
      (learner.learn place item progress).1.theta = progress.theta ∧
        (learner.learn place item progress).1.updates = progress.updates := by
  have quiet :=
    (UpdateRule.isOrderly_tryAscent initialRate decay progress.updates item forest).quiet
  obtain ⟨gradient, _, decided⟩ := UpdateRule.tryAscent_of_massOf_ne_zero initialRate decay
    progress.updates based present answers massive
  rw [UpdateRule.rateAfter_of_eq_zero initialRate undefined] at decided
  exact learn_error ruled parsed quiet decided

end Outcome

/-- Learning by the gradient rule. The item is skipped, without a change to the weights or to the
number of updates, exactly if there are no groups or no mass is valid. Otherwise the weights move
by the difference of the expectations over the valid joint derivations and over all, at a rate that
decays with the number of updates; if that rate is a quotient by zero, learning fails and changes
neither the weights nor the number of updates. The weights stay the same if all results are
valid. -/
theorem learn_by_ascent [ToString Form] [EquivBEq Form] [IsStrictOrderedRing Number]
    (learner : Learner Form Number) (initialRate decay : Number) (place : Place)
    (item : Item Form Number) (progress : Progress Number) (report : ParseReport)
    (forest : JointForest Form Number) (valid : Value → Bool)
    (ruled : learner.rule = some (.ascent initialRate decay))
    (parsed : item.parse progress.theta = (report, .ok forest))
    (based : ∀ group ∈ forest.groups, ∀ pair ∈ group.members, pair.parse ∈ forest.base.parses)
    (answers : ∀ group ∈ forest.groups,
      item.accepts none group.result = .ok (valid group.result)) :
    let learned := learner.learn place item progress
    let divisor := 1 + decay * (progress.updates : Number)
    let accepted := derivationsOf forest.base (forest.accepted valid)
    let all := derivationsOf forest.base forest.groups
    (learned.2 = .ok false ∧ learned.1.theta = progress.theta ∧
        learned.1.updates = progress.updates ↔
      forest.groups = [] ∨ massOf accepted = 0) ∧
    (forest.groups ≠ [] → massOf accepted ≠ 0 → divisor ≠ 0 →
      learned.2 = .ok true ∧ Moves progress learned.1 place fun key =>
        progress.theta.weight key +
          initialRate / divisor * (expectation accepted key - expectation all key)) ∧
    (forest.groups ≠ [] → massOf accepted ≠ 0 → divisor = 0 →
      learned.2 = .error .divisionByZero ∧ learned.1.theta = progress.theta ∧
        learned.1.updates = progress.updates) ∧
    ((∀ group ∈ forest.groups, valid group.result = true) →
      ∀ key, learned.1.theta.weight key = progress.theta.weight key) := by
  intro learned divisor accepted all
  have skips := exists_skips place ruled parsed based answers
  have moves := moves_of_rate place ruled parsed based answers
  have fails := fails_without_rate place ruled parsed based answers
  refine ⟨⟨fun unchanged => ?_, fun cause => ?_⟩, moves, fails, fun allValid key => ?_⟩
  · by_contra other
    obtain ⟨present, massive⟩ := not_or.1 other
    by_cases undefined : divisor = 0
    · have failed := (fails present massive undefined).1
      rw [unchanged.1] at failed
      cases failed
    · have moved := (moves present massive undefined).1
      rw [unchanged.1] at moved
      cases moved
  · obtain ⟨answer, _, skipped⟩ := skips cause
    exact ⟨answer, skipped.theta, skipped.updates⟩
  · by_cases cause : forest.groups = [] ∨ massOf accepted = 0
    · obtain ⟨_, _, skipped⟩ := skips cause
      rw [skipped.theta]
    · obtain ⟨present, massive⟩ := not_or.1 cause
      by_cases undefined : divisor = 0
      · rw [(fails present massive undefined).2.1]
      · have same : forest.accepted valid = forest.groups := List.filter_eq_self.2 allValid
        rw [(moves present massive undefined).2.theta, same, sub_self, mul_zero, add_zero]

/-- The weights move towards the even number as far as they move away from the odd one. -/
theorem learn_by_ascent_halves :
    ∃ after, (idleLearner (.ascent 1 (1 / 2))).learn ⟨0, 0⟩ (numeralItem [("six", 6), ("seven", 7)])
        (.start FeatureVector.zero []) = (after, .ok true) ∧ after.updates = 1 ∧
      after.theta.weight (.name "six") = 1 / 2 ∧ after.theta.weight (.name "seven") = -1 / 2 := by
  obtain ⟨-, moves, -⟩ := learn_by_ascent (idleLearner (.ascent 1 (1 / 2))) 1 (1 / 2) ⟨0, 0⟩
    (numeralItem [("six", 6), ("seven", 7)]) (.start FeatureVector.zero []) ⟨0, []⟩
    (numeralForest [("six", 6), ("seven", 7)]) isEven rfl rfl
    (isBasedOn_numeralForest _) fun _ _ => rfl
  obtain ⟨moved, moves⟩ := moves (by decide +kernel) (by decide +kernel) (by decide +kernel)
  refine ⟨_, Prod.ext rfl moved, moves.updates, ?_, ?_⟩
  · rw [moves.theta]
    decide +kernel
  · rw [moves.theta]
    decide +kernel

/-- With a decay of minus one there is no rate after one update. A second item is then not learnt
from, although its results are valid and have mass. -/
theorem not_learn_without_rate :
    let learner := idleLearner (.ascent 1 (-1))
    let item := numeralItem [("six", 6)]
    let forest := numeralForest [("six", 6)]
    let first := learner.learn ⟨0, 0⟩ item (.start FeatureVector.zero [])
    let second := learner.learn ⟨1, 0⟩ item first.1
    first.2 = .ok true ∧ forest.groups ≠ [] ∧
      (∀ group ∈ forest.groups, isEven group.result = true) ∧
      massOf (derivationsOf forest.base (forest.accepted isEven)) ≠ 0 ∧
      second.2 = .error .divisionByZero ∧ second.1.updates ≠ first.1.updates + 1 := by
  decide +kernel

end Learner

end WordArithmetic
