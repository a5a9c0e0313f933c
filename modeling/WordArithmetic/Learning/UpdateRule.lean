/-
This file holds the two rules by which a model learns from one item.

The margin rule looks at forms and results: the best parse of every group is a candidate, and the
weights move if a valid candidate does not beat an invalid one by the margin. The gradient rule
looks at results alone: it climbs the log probability of the valid ones, whose gradient is the
difference of two expectations of the features. A rule does not change anything itself. It decides
to skip the item or to move the weights, and tells what there is to report and to remember.
-/

import WordArithmetic.Learning.Event
import WordArithmetic.Learning.Record
import WordArithmetic.Learning.Split

namespace WordArithmetic

/-- An item to learn from: how it is printed, its number of words, its parses under given weights,
the test of hypotheses about it, and the form and the result that it should have, if known. -/
structure Item (Form Number : Type) where
  shown : String
  length : Nat
  parse : FeatureVector Number → ParseReport × Except Failure (JointForest Form Number)
  accepts : Option Form → Value → Except Failure Bool
  gold : Option (Form × Value)

/-- A rule to learn by. -/
inductive UpdateRule (Number : Type) where
  /-- Beat the invalid candidates by a margin; a hard rule asks this of the best valid ones only. -/
  | largeMargin (margin : Number) (hard : Bool)
  /-- Climb along the gradient, at a rate that decays with the number of updates. -/
  | ascent (initialRate decay : Number)

/-- What a rule decides. -/
inductive Decision (Number : Type) where
  | skip (reason : SkipReason)
  | move (rate : Number) (direction : FeatureVector Number)

/-- What comes of applying a rule: the events in their order, the marks set on the way, and the
decision. -/
structure Trial (Number : Type) where
  events : List (Event Number)
  marks : List Mark
  decision : Except Failure (Decision Number)

/-- The best parse of a group, as a candidate of the margin rule. -/
structure Candidate (Form Number : Type) where
  form : Form
  result : Value
  score : Number
  features : FeatureVector Number
  modelScore : Number

variable {Form Number : Type}

/-! ### The margin rule -/

namespace Candidate

/-- The candidate of a group, with its score under the weights. -/
def ofGroup [Zero Number] [One Number] [Add Number] [Mul Number] [BEq Number] [LT Number]
    [DecidableLT Number] [LogScore Number] (theta : FeatureVector Number)
    (group : Group Form Number) : Candidate Form Number :=
  let features := group.features
  ⟨group.form, group.result, group.score, features, theta.dot features⟩

/-- The event that shows a candidate. -/
def event [ToString Form] (valid : Bool) (candidate : Candidate Form Number) : Event Number :=
  .candidate valid candidate.modelScore (toString candidate.form) candidate.result

end Candidate

namespace UpdateRule

section Margin

variable [ToString Form] [BEq Form] [Zero Number] [One Number] [Neg Number] [Add Number]
  [Sub Number] [Mul Number] [Div Number] [BEq Number] [LT Number] [DecidableLT Number]
  [NatCast Number] [LogScore Number]

/-- Whether the only best group of a forest has the form and the result that the item should
have. -/
def isGoldBest (item : Item Form Number) (forest : JointForest Form Number) : Bool :=
  match forest.best, item.gold with
  | [group], some (form, result) => group.form == form && group.result.same result
  | _, _ => false

/-- The decision of the margin rule on a split, and its events. -/
def decideSplit (margin : Number) (split : Split (Candidate Form Number)) :
    List (Event Number) × Decision Number :=
  let violating := split.violating Candidate.modelScore margin
  let found := .violationsFound violating.valid.length violating.invalid.length
  if split.isOneSided then ([.splitMissing], .skip .noSplit)
  else if violating.valid.isEmpty then ([found, .violationsMissing], .skip .noViolation)
  else
    let direction := violating.direction Candidate.features
    (found :: violating.valid.map (Candidate.event true) ++
      violating.invalid.map (Candidate.event false) ++ [.marginUpdate direction],
      .move 1 direction)

/-- The margin rule. -/
def tryLargeMargin (margin : Number) (hard : Bool) (item : Item Form Number)
    (theta : FeatureVector Number) (forest : JointForest Form Number) : Trial Number :=
  if forest.groups.isEmpty then
    ⟨[.marginNoParses item.shown, .marginSkipped], [], .ok (.skip .noParses)⟩
  else
    let found := .parsesFound forest.groups.length
    let events := [found, .parsingTime forest.time]
    let marks := if isGoldBest item forest then [Mark.goldBest] else []
    let candidates := forest.groups.map (Candidate.ofGroup theta)
    let accepts := fun candidate : Candidate Form Number =>
      item.accepts (some candidate.form) candidate.result
    if LogScore.isTooLarge forest.time then ⟨[found], [], .error .integerTooLarge⟩
    else
      match Split.ofCandidates hard Candidate.score accepts candidates with
      | .error failure => ⟨events, marks, .error failure⟩
      | .ok split =>
        let (decided, decision) := decideSplit margin split
        ⟨events ++ .parsesSplit split.valid.length split.invalid.length ::
            split.valid.map (Candidate.event true) ++ decided,
          if split.valid.isEmpty then marks else marks ++ [.validFound], .ok decision⟩

end Margin

/-! ### The gradient rule -/

section Gradient

variable [Zero Number] [One Number] [Neg Number] [Add Number] [Mul Number] [Div Number]
  [BEq Number] [LT Number] [DecidableLT Number] [NatCast Number] [LogScore Number]

/-- The rate of the gradient rule after a number of updates. -/
def rateAfter (initialRate decay : Number) (updates : Nat) : Except Failure Number :=
  match divide? initialRate (1 + decay * (updates : Number)) with
  | some rate => if LogScore.isTooLarge rate then .error .integerTooLarge else .ok rate
  | none => .error .divisionByZero

/-- The share of a mass in the mass of all, which is zero unless that is positive. -/
def share (mass norm : Number) : Number :=
  if 0 < norm then mass / norm else 0

/-- The expectation of the features given a valid result less their expectation. -/
def gradientOf [BEq Form] (forest : JointForest Form Number) (valid : List (Group Form Number)) :
    Except Failure (FeatureVector Number) :=
  let norm := JointForest.norm forest.groups
  match divide? (-1) norm with
  | none => .error .divisionByZero
  | some negativeShare =>
    let expected := (forest.expectedFeatures valid).scale (1 / JointForest.norm valid)
    .ok (FeatureVector.dropZeros
      (FeatureVector.addTimes negativeShare (forest.expectedFeatures forest.groups) expected))

/-- The gradient rule, after a number of updates. -/
def tryAscent [BEq Form] (initialRate decay : Number) (updates : Nat)
    (item : Item Form Number) (forest : JointForest Form Number) : Trial Number :=
  if forest.groups.isEmpty then
    ⟨[.gradientNoParses item.shown], [], .ok (.skip .noParses)⟩
  else
    match Group.select forest.groups (item.accepts none) with
    | .error failure => ⟨[], [], .error failure⟩
    | .ok valid =>
      let mass := JointForest.norm valid
      let weighed := .validMass (share mass (JointForest.norm forest.groups))
      if mass == 0 then ⟨[weighed, .validMassMissing], [], .ok (.skip .noValid)⟩
      else
        match gradientOf forest valid, rateAfter initialRate decay updates with
        | .ok gradient, .ok rate =>
          ⟨[weighed, .gradientUpdate rate gradient], [.validFound], .ok (.move rate gradient)⟩
        | .error failure, _ | _, .error failure => ⟨[weighed], [.validFound], .error failure⟩

end Gradient

/-- Applies a rule to the forest of an item, given the weights and the number of updates that they
have had. -/
def apply [ToString Form] [BEq Form] [Zero Number] [One Number] [Neg Number] [Add Number]
    [Sub Number] [Mul Number] [Div Number] [BEq Number] [LT Number] [DecidableLT Number]
    [NatCast Number] [LogScore Number] (rule : UpdateRule Number) (item : Item Form Number)
    (theta : FeatureVector Number) (updates : Nat) (forest : JointForest Form Number) :
    Trial Number :=
  match rule with
  | .largeMargin margin hard => tryLargeMargin margin hard item theta forest
  | .ascent initialRate decay => tryAscent initialRate decay updates item forest

end UpdateRule

end WordArithmetic
